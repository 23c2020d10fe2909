import CdcBadge.AtomicCreation
import CdcBadge.CommandFrames

/-!
# What managing the credentials can change

Of the commands only makeCredential, the two that assert and U2F store or sign. The others, a deletion on the badge and
a power cycle can take keys and records out of the chip, and put none there.
-/

namespace CdcBadge.Fido2

open Handler Runs

/-- Every slot holds what it held, or nothing. -/
def Emptied {α : Type} (f g : ℕ→Option α) : Prop:=∀ slot, g slot=f slot ∨ g slot=none

/-- The slots of the chip were emptied at most, and nothing more was signed. -/
structure Reduced (w t : Badge) : Prop where
  ecc : Emptied w.chip.ecc t.chip.ecc
  rmem : Emptied w.chip.rmem t.chip.rmem
  signings : t.signings=w.signings

def Input.Manages (i : Input) : Prop:=
  match i.command with
  | .ctap2 cmd=>cmd.head?∉[some 0x01,some 0x02,some 0x08]
  | .u2f _=>False
  | _=>True

variable {w t : Badge}

theorem Emptied.update {α : Type} {f g : ℕ→Option α} (h : Emptied f g) (slot : ℕ) :
    Emptied f (Function.update g slot none):=by
  intro i
  by_cases hi : i=slot
  · exact .inr (by rw [hi]; exact Function.update_self ..)
  · rw [Function.update_of_ne hi]
    exact h i

theorem reduced_ofCredentials : OfCredentials (Reduced w):=by
  intro t u h ht
  have hchip : u.chip=t.chip:=congrArg (·.chip) h
  exact ⟨by rw [hchip]; exact ht.ecc,by rw [hchip]; exact ht.rmem,(congrArg (·.signings) h).trans ht.signings⟩

theorem keeps_reduced_delete (slot : ℕ) : Keeps (Reduced w) (fido2StorageDeleteCredential slot):=by
  refine Keeps.bind (Keeps.gets _) fun s=>?_
  split
  · exact Keeps.pure _
  have henv:=(reduced_ofCredentials (w:=w)).envFree
  refine Keeps.bind (Keeps.bind (keeps_seCall henv fun t ht=>?_) fun _=>
    Keeps.bind (keeps_seCall henv fun t ht=>?_) fun _=>Keeps.pure _) fun _=>
    Keeps.bind (Keeps.modify fun t ht=>⟨ht.ecc,ht.rmem,ht.signings⟩) fun _=>Keeps.pure _
  · unfold Chip.eccDelete
    split
    · exact ht
    · exact ⟨ht.ecc.update _,ht.rmem,ht.signings⟩
  · unfold Chip.rmemErase
    split
    · exact ht
    · exact ⟨ht.ecc,ht.rmem.update _,ht.signings⟩

theorem keeps_reduced_fido2Init : Keeps (Reduced w) fido2Init:=by
  have fixed : ∀ {α : Type} {m : Ctap α}, Fixes Badge.credentials m→Keeps (Reduced w) m:=fun h=>
    FixesCredentials.keeps h reduced_ofCredentials
  have stored (f : Storage → Storage) : Keeps (Reduced w) (updateStorage f):=
    Keeps.modify fun t ht=>⟨ht.ecc,ht.rmem,ht.signings⟩
  refine Keeps.bind (Keeps.bind (stored _) fun _=>Keeps.bind ?_ fun _=>Keeps.forM fun slot=>?_) fun _=>?_
  · exact Keeps.bind (fixed (Quiet.nvsRead _).credentials) fun _=>stored _
  · refine Keeps.bind (fixed (Quiet.readRmemCredential slot).credentials) fun r=>?_
    cases r with
    | none=>exact Keeps.pure _
    | some r=>exact Keeps.bind (stored _) fun _=>stored _
  · exact Keeps.bind (fixed fixes_u2fInitAttestation) fun _=>Keeps.bind (fixed Quiet.getMinPinLen.credentials) fun _=>
      fixed (FixesCredentials.setMinPinFloor _)

theorem Reduced.boot {n : ℕ} (h : Reduced w t) : Reduced w (boot n t):=by
  induction n generalizing t with
  | zero=>exact ⟨h.ecc,h.rmem,h.signings⟩
  | succ n ih=>
    have hinit:=Triple.state keeps_reduced_fido2Init (s:=t.off) ⟨h.ecc,h.rmem,h.signings⟩
    unfold Fido2.boot
    generalize fido2Init t.off=r at hinit
    obtain ⟨r,u⟩:=r
    cases r with
    | ok _=>exact hinit
    | error _=>exact ih hinit

theorem Reduced.step {cr : FidoCrypto} {i : Input} (hi : i.Manages) (h : Reduced w t) : Reduced w (step cr t i):=by
  have hcommand : Keeps (Reduced w) (i.command.run cr):=by
    unfold Input.Manages at hi
    cases hcommand : i.command with
    | ctap2 cmd=>exact managing_keeps reduced_ofCredentials keeps_reduced_delete (by rwa [hcommand] at hi)
    | u2f apdu=>
      rw [hcommand] at hi
      exact hi.elim
    | deleteCredential slot=>exact Keeps.bind (keeps_reduced_delete slot) fun _=>Keeps.pure _
    | powerCycle=>exact Keeps.stop _
  have hrun:=Triple.state hcommand (s:=t.given i.env) ⟨h.ecc,h.rmem,h.signings⟩
  unfold Fido2.step process
  generalize i.command.run cr (t.given i.env)=r at hrun
  split
  · exact Reduced.boot hrun
  · exact hrun

end CdcBadge.Fido2
