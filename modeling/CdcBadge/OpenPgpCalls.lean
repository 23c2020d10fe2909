import CdcBadge.OpenPgpCalm
import CdcBadge.PinStorage

/-!
# What the calls of the chip tell and leave

A reply tells what the chip held when it was asked, whatever becomes of the calls around it.
Calls that only read leave the chip and the application as they are.
-/

namespace CdcBadge.OpenPgp

open Handler

section Calls

variable {α : Type} {call : Chip Bytes → SeReply α × Chip Bytes}

theorem seCall_ran (call : Chip Bytes → SeReply α × Chip Bytes) : Triple (fun _=>True) (seCall call)
    (fun reply c=>∀ a, reply=.ok a→∃ chip, call chip=(.ok a,c.badge.chip)) fun _ _=>True:=by
  apply Triple.of_ok
  intro c reply t _ hrun a ha
  obtain ⟨o,s,ho,hpins⟩:=bind_ok.mp hrun
  cases ho
  unfold onPins zoom Pin.seCall at hpins
  dsimp only at hpins
  cases hperform : Chip.perform (c.env.calls.headD .done) call c.badge.chip with
  | mk r chip=>
    rw [hperform] at hpins
    cases r with
    | none=>cases hpins
    | some r=>
      cases hpins
      obtain ⟨-,hcall⟩:=Chip.perform_ok (ha ▸ hperform)
      exact ⟨_,hcall⟩

def Card.view (c : Card) : Chip Bytes × Applet:=(c.badge.chip,c.app)

theorem fixes_seCall (hread : ∀ chip, (call chip).2=chip) : Fixes Card.view (seCall call):=by
  apply Fixes.bind (fun x c hc=>hc) fun o=>?_
  intro x
  have hkeeps : Keeps (fun b : Pin.Badge=>b.chip=x.1) (Pin.seCall o call):=Pin.keeps_seCall hread
  have happ : ∀ c : Card, c.view=x → c.app=x.2:=fun _ hc=>congrArg Prod.snd hc
  exact Triple.zoom hkeeps (fun c hc=>congrArg Prod.fst hc) (fun c _ b hc hb=>Prod.ext hb (happ c hc))
    fun c _ b hc hb=>Prod.ext hb (happ c hc)

theorem fixes_nvsWrite {f : Card → Card} (hf : ∀ c, (f c).view=c.view) : Fixes Card.view (nvsWrite f):=by
  apply Fixes.bind (fun x c hc=>hc) fun o=>?_
  cases o with
  | done=>exact Fixes.bind (Fixes.modify hf) fun _=>Fixes.pure _
  | failed e applied=>exact Fixes.bind (Fixes.when (Fixes.modify hf)) fun _=>Fixes.pure _
  | powerLost applied=>exact Fixes.bind (Fixes.when (Fixes.modify hf)) fun _=>Fixes.stop _

theorem fixes_saveStateToNvs (cr : GpgCrypto) : Fixes Card.view (saveStateToNvs cr):=by
  apply Fixes.bind (Fixes.gets _) fun data=>?_
  apply Fixes.bind (fun x c hc=>hc) fun nonce=>?_
  apply Fixes.bind (fixes_seCall (Pin.attestationSign_chip cr.toCrypto _ _)) fun reply=>?_
  cases reply with
  | error e=>exact Fixes.pure _
  | ok sig=>exact Fixes.bind (fixes_nvsWrite fun _=>rfl) fun _=>Fixes.pure _

/-- What a call keeps of the chip where it is done is kept, together with the application. -/
theorem keeps_view {P : Chip Bytes × Applet→Prop} (hcall : ∀ chip app, P (chip,app)→P ((call chip).2,app)) :
    Keeps (fun c : Card=>P c.view) (seCall call):=by
  apply Keeps.bind (fun c hc=>hc) fun o=>?_
  rw [keeps_iff]
  intro c hc
  have hperform : P ((Chip.perform o call c.badge.chip).2,c.app):=by
    rw [Chip.perform_chip]
    split
    · exact hcall _ _ hc
    · exact hc
  unfold onPins zoom Pin.seCall
  dsimp only
  revert hperform
  generalize Chip.perform o call c.badge.chip=x
  obtain ⟨reply,chip⟩:=x
  intro hperform
  cases reply <;> exact hperform

theorem keeps_chip {P : Chip Bytes→Prop} (hcall : ∀ chip, P chip→P (call chip).2) :
    Keeps (fun c : Card=>P c.badge.chip) (seCall call):=
  keeps_view (P:=fun v=>P v.1) fun chip _ h=>hcall chip h

theorem eccGetPublicKey_told (slot : ℕ) : Triple (fun _=>True) (seCall (Chip.eccGetPublicKey slot))
    (fun reply c=>∀ key, reply=.ok key → c.badge.chip.ecc slot=some key) fun _ _=>True:=by
  apply Triple.conseq (seCall_ran _) (fun _ h=>h) _ fun _ _ h=>h
  intro reply c h key hkey
  obtain ⟨chip,hcall⟩:=h key hkey
  have hchip:=Chip.eccGetPublicKey_chip slot chip
  rw [hcall] at hchip
  cases hchip
  unfold Chip.eccGetPublicKey at hcall
  split_ifs at hcall
  · cases hcall
  · split at hcall
    · cases hcall
      assumption
    · cases hcall

theorem seGetPubkey_told (r : Role) : Triple (fun _=>True) (seGetPubkey r)
    (fun key c=>∀ k, key=some k → c.badge.chip.ecc r.slot=some k) fun _ _=>True:=by
  apply Triple.bind (eccGetPublicKey_told _) fun reply=>?_
  cases reply with
  | error e=>
    apply Triple.pure
    intro c _ k hk
    cases hk
  | ok key=>
    apply Triple.pure
    intro c h k hk
    cases hk
    exact h key rfl

end Calls

section Records

variable {cr : GpgCrypto} {dev : Device}

theorem keeps_of_fixes {α V : Type} {v : Card→V} {m : CardM α} (h : Fixes v m) (Q : V→Prop) :
    Keeps (fun c=>Q (v c)) m:=by
  rw [keeps_iff]
  intro c hc
  rw [h.apply c]
  exact hc

theorem trivially {α : Type} (m : CardM α) : Triple (fun _=>True) m (fun _ _=>True) fun _ _=>True:=
  Triple.of_ok fun _ _ _ _ _=>trivial

theorem rmemWrite_told (slot : ℕ) (record : Bytes) : Triple (fun _=>True) (seCall (Chip.rmemWrite slot record))
    (fun reply c=>reply=.ok () → c.badge.chip.rmem slot=some record) fun _ _=>True:=by
  apply Triple.conseq (seCall_ran _) (fun _ h=>h) _ fun _ _ h=>h
  intro reply c h hreply
  obtain ⟨chip,hcall⟩:=h () hreply
  unfold Chip.rmemWrite at hcall
  split_ifs at hcall
  · cases hcall
  · split at hcall
    · cases hcall
    · have hchip:=congrArg Prod.snd hcall
      dsimp only at hchip
      rw [← hchip]
      exact Function.update_self ..

theorem saveSlotEncrypted_told (slot : ℕ) (magic payload : Bytes) (pin : Option Bytes) :
    Triple (fun _=>True) (saveSlotEncrypted dev cr slot magic payload pin)
      (fun ok c=>ok=true→∃ key nonce, nonce.length=nonceSize ∧
        c.badge.chip.rmem slot=some (sealedRecord cr key slot magic nonce payload)) fun _ _=>True:=by
  apply Triple.bind (trivially _) fun key=>?_
  apply Triple.bind (trivially _) fun random=>?_
  cases random with
  | none=>
    apply Triple.pure
    intro c _ hfalse
    cases hfalse
  | some random=>
    apply Triple.bind (trivially _) fun _=>?_
    apply Triple.bind (rmemWrite_told _ _) fun reply=>?_
    cases reply with
    | ok u=>exact Triple.pure fun c hc _=>⟨key,_,by simp,hc rfl⟩
    | error e=>
      apply Triple.pure
      intro c _ hfalse
      cases hfalse

theorem fixes_updateGenerationTimestamp (keyRef : UInt8) :
    Fixes (fun c=>c.badge.chip) (updateGenerationTimestamp cr keyRef):=by
  intro chip
  have hsave : Keeps (fun c : Card=>c.badge.chip=chip) (saveStateToNvs cr):=
    keeps_of_fixes (fixes_saveStateToNvs cr) fun v=>v.1=chip
  have hdata : ∀ f, Keeps (fun c : Card=>c.badge.chip=chip) (updateData f):=fun f=>Keeps.modify fun c hc=>hc
  apply Keeps.bind (Keeps.gets _) fun now=>?_
  split
  · exact Keeps.bind (hdata _) fun _=>hsave
  · exact hsave

theorem readCall_chip (slot maxLen : ℕ) (chip : Chip Bytes) : (match Chip.rmemRead slot chip with
    | (.ok data,c)=>
      if data.length ≤ maxLen then ((.ok data,c) : SeReply Bytes × Chip Bytes)
      else if dev.shortReads then (.ok (data.take maxLen),c)
      else (.error .invalidParam,c)
    | reply=>reply).2=chip:=by
  have hchip:=Chip.rmemRead_chip slot chip
  split
  · rename_i data c heq
    rw [heq] at hchip
    split_ifs <;> exact hchip
  · exact hchip

theorem fixes_rmemRead (slot maxLen : ℕ) : Fixes Card.view (rmemRead dev slot maxLen):=
  fixes_seCall (readCall_chip slot maxLen)

theorem fixes_derive (slot : ℕ) (pin : Option Bytes) : Fixes Card.view (deriveStorageKey dev cr slot pin):=by
  apply Fixes.bind (fixes_seCall fun _=>rfl) fun reply=>?_
  cases reply <;> exact Fixes.pure _

theorem fixes_loadSlot (slot : ℕ) (magic : Bytes) (len : ℕ) (pin : Option Bytes) :
    Fixes Card.view (loadSlotDecrypted dev cr slot magic len pin):=by
  apply Fixes.bind (fixes_rmemRead _ _) fun reply=>?_
  cases reply with
  | error e=>exact Fixes.pure _
  | ok record=>
    apply Fixes.ite (Fixes.pure _)
    apply Fixes.ite (Fixes.pure _)
    exact Fixes.bind (fixes_derive _ _) fun _=>Fixes.pure _

theorem fixes_hasRecord (slot skip maxLen : ℕ) (magic : Bytes) : Fixes Card.view (hasRecord dev slot skip maxLen magic):=by
  apply Fixes.bind (fixes_rmemRead _ _) fun reply=>?_
  cases reply with
  | error e=>exact Fixes.pure _
  | ok data=>exact Fixes.ite (Fixes.pure _) (Fixes.pure _)

theorem fixes_loadRsa (r : Role) (pin : Option Bytes) : Fixes Card.view (gpgStorageLoadRsaKey dev cr r pin):=by
  apply Fixes.bind (fixes_rmemRead _ _) fun reply=>?_
  cases reply with
  | error e=>exact Fixes.pure _
  | ok first=>
    apply Fixes.ite (Fixes.pure _)
    apply Fixes.ite (Fixes.pure _)
    apply Fixes.bind
    · apply Fixes.ite (Fixes.pure _)
      apply Fixes.bind (fixes_rmemRead _ _) fun reply=>?_
      cases reply <;> exact Fixes.pure _
    · intro record
      cases record with
      | none=>exact Fixes.pure _
      | some record=>
        apply Fixes.ite (Fixes.pure _)
        apply Fixes.ite (Fixes.pure _)
        apply Fixes.ite (Fixes.pure _)
        exact Fixes.bind (fixes_derive _ _) fun _=>Fixes.pure _

theorem fixes_buildResponse (data : Bytes) : Fixes Card.view (buildResponse data):=
  Fixes.bind (Fixes.gets _) fun _=>Fixes.pure _

theorem fixes_reportPublicKey (r : Role) : Fixes Card.view (reportPublicKey dev cr r):=by
  have hread : Fixes Card.view (readPublicKey dev cr r):=by
    apply Fixes.bind (Fixes.gets _) fun stale=>?_
    apply Fixes.ite
    · apply Fixes.bind (fixes_hasRecord _ _ _ _) fun has=>?_
      apply Fixes.ite (Fixes.pure _)
      have hload : Fixes Card.view (gpgStorageLoadDecPrivkey dev cr none):=
        Fixes.bind (fixes_loadSlot _ _ _ _) fun _=>Fixes.pure _
      apply Fixes.bind hload fun privkey=>?_
      cases privkey <;> exact Fixes.pure _
    · apply Fixes.bind (fixes_seCall (Chip.eccGetPublicKey_chip _)) fun reply=>?_
      cases reply <;> exact Fixes.pure _
  apply Fixes.bind hread fun res=>?_
  cases res with
  | none=>exact Fixes.pure _
  | some x=>exact fixes_buildResponse _

theorem fixes_buildRsaPubkey (r : Role) : Fixes Card.view (buildRsaPubkeyFromStorage dev cr r):=by
  apply Fixes.bind (fixes_loadRsa _ _) fun blob=>?_
  cases blob with
  | none=>exact Fixes.pure _
  | some blob=>
    dsimp only
    cases gpgRsaBlobPublic cr blob with
    | none=>exact Fixes.pure _
    | some x=>exact fixes_buildResponse _

section Saves

variable {P : Chip Bytes × Applet→Prop}

theorem keeps_view_derive (slot : ℕ) (pin : Option Bytes) : Keeps (fun c=>P c.view) (deriveStorageKey dev cr slot pin):=by
  apply Keeps.bind (keeps_view fun _ _ h=>h) fun reply=>?_
  cases reply <;> exact Keeps.pure _

theorem keeps_view_succeeds {call : Chip Bytes → SeReply Unit × Chip Bytes}
    (hcall : ∀ chip app, P (chip,app)→P ((call chip).2,app)) : Keeps (fun c=>P c.view) (do
      match ← seCall call with
      | .ok _=>pure true
      | .error _=>pure false):=by
  apply Keeps.bind (keeps_view hcall) fun reply=>?_
  cases reply <;> exact Keeps.pure _

theorem keeps_view_saveSlot {slot : ℕ} {magic payload : Bytes}
    (herase : ∀ chip app, P (chip,app)→P ((Chip.rmemErase slot chip).2,app))
    (hwrite : ∀ key nonce chip app, P (chip,app) →
      P ((Chip.rmemWrite slot (sealedRecord cr key slot magic nonce payload) chip).2,app)) (pin : Option Bytes) :
    Keeps (fun c=>P c.view) (saveSlotEncrypted dev cr slot magic payload pin):=by
  apply Keeps.bind (keeps_view_derive slot pin) fun key=>?_
  apply Keeps.bind (fun c hc=>hc) fun random=>?_
  cases random with
  | none=>exact Keeps.pure _
  | some random=>
    apply Keeps.bind (keeps_view herase) fun _=>?_
    exact keeps_view_succeeds (hwrite _ _)

theorem keeps_view_saveRsa {r : Role} {blob : Bytes}
    (hfirst : ∀ chip app, P (chip,app)→P ((Chip.rmemErase (rsaSlot0 r) chip).2,app))
    (hsecond : ∀ chip app, P (chip,app)→P ((Chip.rmemErase (rsaSlot0 r+1) chip).2,app))
    (hwrite : ∀ key nonce chip app, P (chip,app) →
      P ((Chip.rmemWrite (rsaSlot0 r) ((rsaRecord cr key r nonce blob).take rsaSlotCap) chip).2,app) ∧
        P ((Chip.rmemWrite (rsaSlot0 r+1) ((rsaRecord cr key r nonce blob).drop rsaSlotCap) chip).2,app))
    (pin : Option Bytes) : Keeps (fun c=>P c.view) (gpgStorageSaveRsaKey dev cr r blob pin):=by
  apply Keeps.ite (fun _=>Keeps.pure _) fun _=>?_
  apply Keeps.bind (keeps_view_derive _ pin) fun key=>?_
  apply Keeps.bind (fun c hc=>hc) fun random=>?_
  cases random with
  | none=>exact Keeps.pure _
  | some random=>
    apply Keeps.bind (keeps_view hfirst) fun _=>?_
    apply Keeps.bind (keeps_view hsecond) fun _=>?_
    apply Keeps.bind (keeps_view fun chip app h=>(hwrite _ _ chip app h).1) fun reply=>?_
    cases reply with
    | error e=>exact Keeps.pure _
    | ok u=>
      apply Keeps.ite (fun _=>Keeps.pure _) fun _=>?_
      exact keeps_view_succeeds fun chip app h=>(hwrite _ _ chip app h).2

end Saves

end Records

end CdcBadge.OpenPgp
