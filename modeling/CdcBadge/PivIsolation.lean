import CdcBadge.PivFrames
import CdcBadge.Runs

/-!
# The chip beside the PIV applet

What the applet writes lies in the slots of its range, and what a `VERIFY` writes in the slot of the PIN record. The
sweep for orphans of FIDO2 stays within the range too.
-/

namespace CdcBadge.Piv

open Handler Runs

/-- What the chip holds beside the slots of this module and that of the PIN record. -/
def beside (c : Chip Bytes) : (ℕ→Option EccKey) × (ℕ→Option Bytes):=
  (fun slot=>if pivSlot slot then none else c.ecc slot,
    fun slot=>if pivSlot slot ∨ slot=Pin.rmemSlotPin then none else c.rmem slot)

section Slots

variable {slot : ℕ} {c d : Chip Bytes}

theorem beside_ecc (hs : pivSlot slot=true) (h : c.SetsEcc slot d) : beside d=beside c:=by
  refine Prod.ext (funext fun i=>?_) (by simp only [beside,h.rmem])
  by_cases hi : i=slot
  · simp [beside,hi,hs]
  · simp [beside,h.other hi]

theorem beside_rmem (hs : pivSlot slot=true ∨ slot=Pin.rmemSlotPin) (h : c.SetsRmem slot d) : beside d=beside c:=by
  refine Prod.ext ?_ (funext fun i=>?_)
  · obtain ⟨x,rfl⟩:=h
    rfl
  · by_cases hi : i=slot
    · simp [beside,hi,hs]
    · simp [beside,h.other hi]

end Slots

theorem within_beside (m : (ℕ→Option EccKey) × (ℕ→Option Bytes)) : Within fun k=>beside k.badge.chip=m where
  ecc _ _ _ hs hset h:=(beside_ecc hs hset).trans h
  rmem _ _ _ hs hset h:=(beside_rmem (.inl hs) hset).trans h
  env _ _ h:=h

variable (cr : PivCrypto) (shortReads : Bool)

theorem beside_verify (pin : Bytes) :
    Fixes (fun k : Keys=>beside k.badge.chip) (onPins (Pin.verifyBadgePin cr.toCrypto pin)):=by
  intro m
  have hverify:=Pin.fixes_verifyBadgePin (v:=beside) (fun _ _=>beside_rmem (.inr rfl) ⟨_,rfl⟩) cr.toCrypto pin m
  exact Triple.zoom hverify (fun _ h=>h) (fun _ _ _ _ h=>h) fun _ _ _ _ h=>h

theorem beside_processApdu (raw : Bytes) :
    Fixes (fun s : Ctx Keys=>beside s.be.badge.chip) (processApdu (pivBackend cr) raw):=by
  intro m
  have hP:=within_beside m
  refine keeps_iff.mpr fun s hs=>?_
  cases hc : commandOf s raw with
  | none=>
    obtain ⟨reply,app,hrun,-⟩:=processApdu_other (b:=pivBackend cr) hc
    rw [hrun]
    exact hs
  | some c=>
    have hdispatch : Keeps (fun s : Ctx Keys=>beside s.be.badge.chip=m) (dispatch (pivBackend cr) c):=
      hP.dispatch (hP.stateEnsure fun _ _ _ h=>h) (fun pin=>beside_verify cr pin m)
        (hP.undrawn.cbObjectStore fun _ _ h=>h) (fun _ _ h=>h) c
    have hreset : Keeps (fun s : Ctx Keys=>beside s.be.badge.chip=m) resetChain:=Keeps.modify fun _ h=>h
    rw [processApdu_command hc]
    exact keeps_iff.mp (Keeps.bind hdispatch fun _=>Keeps.bind hreset fun _=>Keeps.pure _) s hs

/-- The chip as the other modules leave it. -/
def othersChip (c : Chip Bytes) (i : DeviceInput) : Chip Bytes:=
  match i.op with
  | .others badge=>badge.chip
  | _=>c

theorem beside_respond (d : Device) (i : DeviceInput) :
    beside (d.respond cr shortReads i).2.ctx.be.badge.chip=beside (othersChip d.ctx.be.badge.chip i):=by
  obtain ⟨op,env⟩:=i
  cases op with
  | deselect=>rfl
  | others badge=>
    refine Prod.ext (funext fun slot=>?_) (funext fun slot=>?_) <;>
      cases h : pivSlot slot <;> simp [beside,Device.respond,Keys.shared,othersChip,h]
  | apdu raw=>
    simp only [Device.respond,othersChip]
    split
    · rfl
    · have hrun:=(beside_processApdu cr raw).apply {d.ctx with be:=d.ctx.be.given env}
      revert hrun
      cases processApdu (pivBackend cr) raw {d.ctx with be:=d.ctx.be.given env} with
      | mk r t=>cases r <;> exact id
  | boot=>
    have hinit : Fixes (fun k : Keys=>beside k.badge.chip) (pivInit shortReads):=
      fun m=>(within_beside m).pivInit (fun _ _ _ h=>h) shortReads
    have hrun:=hinit.apply (d.powerCut.ctx.be.given env)
    simp only [Device.respond]
    revert hrun
    cases pivInit shortReads (d.powerCut.ctx.be.given env) with
    | mk r k=>cases r <;> exact id

/-- In every run, whatever becomes of the calls and with restarts and power cuts anywhere, the slots outside the range of
this module hold what the other modules last made of them, that of the PIN record apart. -/
theorem run_keeps_beside (d : Device) (is : List DeviceInput) :
    beside (run (fun d i=>(d.respond cr shortReads i).2) d is).ctx.be.badge.chip =
      beside (is.foldl othersChip d.ctx.be.badge.chip):=by
  induction is using List.reverseRecOn with
  | nil=>rfl
  | append_singleton is i ih=>
    rw [run_append,List.foldl_append]
    refine (beside_respond cr shortReads _ i).trans ?_
    obtain ⟨op,env⟩:=i
    cases op with
    | others badge=>rfl
    | apdu | deselect | boot=>exact ih

end CdcBadge.Piv
