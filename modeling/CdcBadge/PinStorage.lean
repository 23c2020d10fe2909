import CdcBadge.PinOperations

/-!
# The signed PIN record

What a record holds is what is read back from it, a load changes nothing on the
chip, and every operation touches the chip only by loading and saving.
-/

namespace CdcBadge.Pin

open Handler Runs

theorem payload_length (r : PinRecord) : (payload r).length=payloadSize:=by
  simp [payload,be32,payloadSize]

theorem parsePayload_payload (r : PinRecord) (sig : Bytes) : parsePayload (payload r++sig)=r:=by
  have hflag : ((if r.duressSet then (0x01 : UInt8) else 0x00) != 0)=r.duressSet:=by
    cases r.duressSet <;> rfl
  simp only [parsePayload,payload,be32,List.append_assoc,List.cons_append,List.nil_append,
    List.drop_succ_cons,List.drop_zero,fit_append,drop_append_arr,List.getD_cons_zero,
    List.getD_cons_succ,ofBe32_be32,hflag]

/-- The chip holds a P-256 attestation key and `data` is a record in the signed format
whose signature verifies under it. -/
structure ValidRecord (cr : Crypto) (c : Chip Bytes) (data : Bytes) : Prop where
  length : data.length=storageSize
  head : data.head? = some magic
  signed : ∃ key, c.ecc attestationEccSlot=some key ∧ key.curve=.p256 ∧
    cr.ecdsaVerify (cr.publicKey key) (cr.sha256 (data.take payloadSize)) (fit 64 (data.drop payloadSize))=true

section Calls

variable {cr : Crypto} {P : Badge→Prop} {α : Type}

theorem triple_seCall {o : SeOutcome} {call : Chip Bytes → SeReply α × Chip Bytes}
    {Q : SeReply α→Badge→Prop} {E : PowerLost→Badge→Prop}
    (hreply : ∀ b, P b → o.powered=true→∀ r, (Chip.perform o call b.chip).1=some r →
      Q r {b with chip:=(Chip.perform o call b.chip).2})
    (hlost : ∀ b, P b → o.powered=false → E ⟨⟩ {b with chip:=(Chip.perform o call b.chip).2}) :
    Triple P (seCall o call) Q E:=by
  intro b hb
  have hsome:=Chip.perform_reply_isSome o call b.chip
  cases hp : Chip.perform o call b.chip with
  | mk reply c=>
    rw [hp] at hsome
    cases reply with
    | none=>
      have h:=hlost b hb (by simpa using hsome.symm)
      simpa [seCall,hp] using h
    | some r=>
      have h:=hreply b hb (by simpa using hsome.symm) r (by rw [hp])
      simpa [seCall,hp] using h

theorem keeps_seCall {o : SeOutcome} {call : Chip Bytes → SeReply α × Chip Bytes}
    (h : ∀ c, (call c).2=c) : Keeps P (seCall o call):=by
  have hchip : ∀ b : Badge, (Chip.perform o call b.chip).2=b.chip:=by
    intro b
    rw [Chip.perform_chip,h]
    split <;> rfl
  refine triple_seCall (fun b hb _ r _=>?_) (fun b hb _=>?_)
  · rw [hchip b]; exact hb
  · rw [hchip b]; exact hb

theorem rmemRead_chip (slot maxLen : ℕ) (c : Chip Bytes) : (rmemRead slot maxLen c).2=c:=by
  have h:=Chip.rmemRead_chip slot c
  unfold rmemRead
  split
  · rename_i data c' hc
    rw [hc] at h
    split <;> exact h
  · exact h

theorem attestationSign_chip (cr : Crypto) (data : Bytes) (nonce : ℕ) (c : Chip Bytes) :
    (attestationSign cr data nonce c).2=c:=by
  have h:=Chip.eccSigningKey_chip attestationEccSlot c
  unfold attestationSign
  split
  · rename_i e c' hc
    rw [hc] at h
    exact h
  · rename_i key c' hc
    rw [hc] at h
    split <;> exact h

end Calls

/-- A property of the badge that a save has nothing to do with. -/
structure BesideSaves (P : Badge→Prop) : Prop where
  chip : ∀ b content, P b→P {b with chip:={b.chip with rmem:=Function.update b.chip.rmem rmemSlotPin content}}
  saves : ∀ b, P b→P {b with saves:=b.saves.tail}
  lastSave : ∀ b l, P b→P {b with lastSave:=l}
  mirrors : ∀ b x y z, P b→P { b with pm:={ b.pm with
    persistedBadgeLockoutCount:=x,persistedPw1Retries:=y,persistedPw3Retries:=z } }

namespace BesideSaves

variable {P : Badge→Prop}

theorem seCall {α : Type} (h : BesideSaves P) (o : SeOutcome) {call : Chip Bytes → SeReply α × Chip Bytes}
    (hcall : ∀ c, Chip.SetsRmem rmemSlotPin c (call c).2) : Keeps P (seCall o call):=by
  have hkept : ∀ b, P b→P {b with chip:=(Chip.perform o call b.chip).2}:=by
    intro b hb
    rw [Chip.perform_chip]
    split
    · obtain ⟨content,hwritten⟩:=hcall b.chip
      rw [hwritten]
      exact h.chip b content hb
    · exact hb
  exact triple_seCall (fun b hb _ _ _=>hkept b hb) fun b hb _=>hkept b hb

theorem saveToStorage (h : BesideSaves P) (cr : Crypto) : Keeps P (saveToStorage cr):=by
  have hnext : Keeps P nextSave:=fun b hb=>h.saves b hb
  have hreplace : ∀ o record, Keeps P (replaceRecord o record):=by
    intro o record
    refine Keeps.bind (h.seCall _ fun _=>Chip.rmemErase_sets) fun _=>
      Keeps.bind (h.seCall _ fun _=>Chip.rmemWrite_sets) fun reply=>?_
    cases reply with
    | error e=>exact Keeps.pure _
    | ok u=>exact Keeps.bind (Keeps.modify fun b hb=>h.mirrors b _ _ _ hb) fun _=>Keeps.pure _
  refine Keeps.bind hnext fun o=>Keeps.ite (fun _=>Keeps.pure _) fun _=>?_
  refine Keeps.bind (Keeps.gets _) fun data=>Keeps.ite (fun _=>Keeps.pure _) fun _=>?_
  refine Keeps.bind (keeps_seCall (attestationSign_chip _ _ _)) fun reply=>?_
  cases reply with
  | error e=>exact Keeps.pure _
  | ok sig=>exact Keeps.bind (Keeps.modify fun b hb=>h.lastSave b _ hb) fun _=>hreplace _ _

end BesideSaves

theorem ensureInit_loaded {cr : Crypto} {b : Badge} (h : b.pm.pinLoaded=true) : ensureInit cr b=(.ok (),b):=by
  simp [ensureInit,pmGets,bind_gets,h,when]

section Frame

variable {cr : Crypto} {P : Badge→Prop}

/-- What an operation does to the badge besides loading and saving keeps `P`. -/
structure Stable (P : Badge→Prop) : Prop where
  pm : ∀ b pm, P b→P {b with pm:=pm}
  tally : ∀ b t, P b→P {b with tally:=t}
  salts : ∀ b s, P b→P {b with salts:=s}
  now : ∀ b n, P b→P {b with now:=n}

theorem Stable.updatePm (h : Stable P) (f : PinManager→PinManager) : Keeps P (updatePm f):=
  Keeps.modify fun b hb=>h.pm b _ hb

theorem Stable.updateTally (h : Stable P) (f : Tally→Tally) : Keeps P (updateTally f):=
  Keeps.modify fun b hb=>h.tally b _ hb

theorem Stable.startLockout (h : Stable P) : Keeps P startLockout:=
  Keeps.modify fun b hb=>h.pm b _ hb

theorem Stable.generateSalt (h : Stable P) : Keeps P generateSalt:=fun b hb=>h.salts b _ hb

theorem keeps_pmGets {α : Type} (f : PinManager → α) : Keeps P (pmGets f):=Keeps.gets _

theorem Stable.checkAndResetExpiredLockout (h : Stable P) : Keeps P checkAndResetExpiredLockout:=by
  refine Keeps.bind (keeps_pmGets _) fun active=>Keeps.bind (Keeps.gets _) fun remaining=>?_
  refine Keeps.ite (fun _=>Keeps.pure _) fun _=>Keeps.ite (fun _=>Keeps.pure _) fun _=>?_
  exact h.updatePm _

theorem Stable.load (h : Stable P) (hloads : ∀ b l, P b→P {b with loads:=l}) :
    Keeps P (loadFromStorage cr):=by
  have hnext : Keeps P nextLoad:=fun b hb=>hloads b _ hb
  refine Keeps.bind hnext fun o=>Keeps.ite (fun _=>Keeps.pure _) fun _=>?_
  refine Keeps.bind (h.updatePm _) fun _=>Keeps.bind (keeps_seCall (rmemRead_chip _ _)) fun reply=>?_
  split
  · exact Keeps.pure _
  · exact Keeps.bind (h.updatePm _) fun _=>Keeps.pure _
  · refine Keeps.ite (fun _=>Keeps.pure _) fun _=>Keeps.bind ?_ fun valid=>?_
    · refine Keeps.bind (keeps_seCall (Chip.eccGetPublicKey_chip _)) fun reply=>?_
      split
      · exact Keeps.pure _
      · exact Keeps.ite (fun _=>Keeps.pure _) fun _=>Keeps.pure _
    · refine Keeps.ite (fun _=>?_) fun _=>?_
      · exact Keeps.bind (h.updatePm _) fun _=>Keeps.pure _
      · exact Keeps.bind (h.updatePm _) fun _=>Keeps.pure _

variable (h : Stable P) (hload : Keeps P (loadFromStorage cr)) (hsave : Keeps P (saveToStorage cr))
include h

theorem Stable.loadDefaults : Keeps P (loadDefaults cr):=
  Keeps.bind h.generateSalt fun _=>Keeps.bind h.generateSalt fun _=>h.updatePm _

include hsave

theorem Stable.storePw (pw : Pw) (data : Bytes) : Keeps P (storePw cr pw data):=by
  refine Keeps.bind h.generateSalt fun salt=>Keeps.bind (h.updatePm _) fun _=>?_
  refine Keeps.bind (keeps_pmGets _) fun iterations=>?_
  split
  · exact Keeps.pure _
  · exact Keeps.bind (h.updatePm _) fun _=>Keeps.bind (h.updatePm _) fun _=>
      Keeps.bind hsave fun _=>Keeps.pure _

theorem Stable.setPw (pw : Pw) (minLen : ℕ) (newPin : Bytes) : Keeps P (setPw cr pw minLen newPin):=
  Keeps.ite (fun _=>Keeps.pure _) fun _=>h.storePw hsave pw _

theorem Stable.setPwRaw (pw : Pw) (data : Bytes) : Keeps P (setPwRaw cr pw data):=
  Keeps.ite (fun _=>Keeps.pure _) fun _=>h.storePw hsave pw _

theorem Stable.resetPwRetries (pw : Pw) : Keeps P (resetPwRetries cr pw):=by
  refine Keeps.bind (keeps_pmGets _) fun _=>Keeps.when fun _=>?_
  exact Keeps.bind (h.updatePm _) fun _=>hsave

theorem Stable.setBadgePin (newPin : Bytes) : Keeps P (setBadgePin cr newPin):=by
  refine Keeps.bind (keeps_pmGets _) fun pm=>Keeps.ite (fun _=>Keeps.pure _) fun _=>?_
  refine Keeps.ite (fun _=>Keeps.pure _) fun _=>Keeps.ite (fun _=>Keeps.pure _) fun _=>?_
  exact Keeps.bind (h.updatePm _) fun _=>Keeps.bind hsave fun _=>Keeps.pure _

theorem Stable.resetBadgeRetries : Keeps P (resetBadgeRetries cr):=by
  refine Keeps.bind (h.updatePm _) fun _=>Keeps.bind (keeps_pmGets _) fun _=>Keeps.when fun _=>?_
  exact Keeps.bind (h.updatePm _) fun _=>hsave

include hload

theorem Stable.init : Keeps P (init cr):=by
  refine Keeps.bind (keeps_pmGets _) fun _=>Keeps.ite (fun _=>Keeps.pure _) fun _=>?_
  refine Keeps.bind hload fun loaded=>Keeps.bind (keeps_pmGets _) fun unreadable=>?_
  refine Keeps.ite (fun _=>Keeps.bind (h.updatePm _) fun _=>Keeps.pure _) fun _=>?_
  refine Keeps.bind (Keeps.when fun _=>Keeps.bind h.loadDefaults fun _=>hsave) fun _=>?_
  exact Keeps.bind (h.updatePm _) fun _=>Keeps.bind h.startLockout fun _=>Keeps.pure _

theorem Stable.ensureInit : Keeps P (ensureInit cr):=
  Keeps.bind (keeps_pmGets _) fun _=>Keeps.when fun _=>h.init hload hsave

theorem Stable.verifyBadgePinHashCounted (hashIn : ByteArr 16) :
    Keeps P (verifyBadgePinHashCounted cr hashIn):=by
  refine Keeps.bind (h.ensureInit hload hsave) fun _=>?_
  refine Keeps.bind h.checkAndResetExpiredLockout fun _=>Keeps.bind (keeps_pmGets _) fun _=>?_
  refine Keeps.ite (fun _=>Keeps.pure _) fun _=>Keeps.bind (h.updatePm _) fun _=>?_
  refine Keeps.bind (keeps_pmGets _) fun _=>Keeps.ite (fun _=>?_) fun _=>?_
  · refine Keeps.bind (h.updateTally _) fun _=>Keeps.bind (h.updatePm _) fun _=>?_
    exact Keeps.bind (keeps_pmGets _) fun _=>Keeps.bind (Keeps.when fun _=>hsave) fun _=>Keeps.pure _
  · refine Keeps.bind (h.updateTally _) fun _=>Keeps.bind (keeps_pmGets _) fun _=>?_
    refine Keeps.bind (Keeps.when fun _=>?_) fun _=>Keeps.pure _
    exact Keeps.bind (h.updatePm _) fun _=>Keeps.bind (h.updateTally _) fun _=>
      Keeps.bind hsave fun _=>h.startLockout

theorem Stable.verifyBadgePin (pin : Bytes) : Keeps P (verifyBadgePin cr pin):=
  Keeps.bind (h.ensureInit hload hsave) fun _=>h.verifyBadgePinHashCounted hload hsave _

theorem Stable.verifyPinRaw (pw : Pw) (data : Bytes) : Keeps P (verifyPinRaw cr pw data):=by
  refine Keeps.bind (h.ensureInit hload hsave) fun _=>Keeps.bind (keeps_pmGets _) fun pm=>?_
  refine Keeps.ite (fun _=>Keeps.pure _) fun _=>?_
  split
  · exact Keeps.pure _
  · refine Keeps.bind (h.updatePm _) fun _=>Keeps.bind (Keeps.ite (fun _=>hsave) fun _=>Keeps.pure _) ?_
    refine fun saved=>Keeps.ite (fun _=>Keeps.bind (h.updatePm _) fun _=>Keeps.pure _) fun _=>?_
    refine Keeps.ite (fun _=>Keeps.bind (h.updatePm _) fun _=>?_) fun _=>Keeps.pure _
    exact Keeps.bind (keeps_pmGets _) fun _=>Keeps.bind (Keeps.when fun _=>hsave) fun _=>Keeps.pure _

theorem Stable.verifyPw (pw : Pw) (pin : Bytes) : Keeps P (verifyPw cr pw pin):=
  Keeps.bind (h.ensureInit hload hsave) fun _=>h.verifyPinRaw hload hsave pw _

theorem Stable.setDuressPin (pin : Bytes) : Keeps P (setDuressPin cr pin):=by
  refine Keeps.bind (h.ensureInit hload hsave) fun _=>Keeps.ite (fun _=>Keeps.pure _) fun _=>?_
  refine Keeps.ite (fun _=>Keeps.pure _) fun _=>Keeps.bind (keeps_pmGets _) fun _=>?_
  refine Keeps.ite (fun _=>Keeps.pure _) fun _=>Keeps.bind h.generateSalt fun salt=>?_
  refine Keeps.bind (h.updatePm _) fun _=>Keeps.bind (keeps_pmGets _) fun _=>?_
  split
  · exact Keeps.pure _
  · exact Keeps.bind (h.updatePm _) fun _=>Keeps.bind hsave fun _=>Keeps.pure _

theorem Stable.clearDuressPin : Keeps P (clearDuressPin cr):=by
  refine Keeps.bind (h.ensureInit hload hsave) fun _=>Keeps.bind (keeps_pmGets _) fun _=>?_
  refine Keeps.ite (fun _=>Keeps.pure _) fun _=>?_
  exact Keeps.bind (h.updatePm _) fun _=>Keeps.bind hsave fun _=>Keeps.pure _

theorem Stable.run (op : PinOp) : Keeps P (op.run cr):=by
  cases op with
  | init=>exact h.init hload hsave
  | verifyBadgePin pin=>exact h.verifyBadgePin hload hsave pin
  | verifyBadgePinHashCounted hashIn=>exact h.verifyBadgePinHashCounted hload hsave hashIn
  | pinStorageVerifyFido2Hash hashIn=>
    exact Keeps.bind (h.init hload hsave) fun _=>h.verifyBadgePinHashCounted hload hsave hashIn
  | changeBadgePin currentPin newPin=>
    exact Keeps.bind (h.verifyBadgePin hload hsave currentPin) fun _=>
      Keeps.ite (fun _=>h.setBadgePin hsave newPin) fun _=>Keeps.pure _
  | setBadgePin newPin=>exact h.setBadgePin hsave newPin
  | setMinPinLengthFloor minLen=>exact Keeps.bind (h.updatePm _) fun _=>Keeps.pure _
  | resetBadgeRetries=>exact Keeps.bind (h.resetBadgeRetries hsave) fun _=>Keeps.pure _
  | startLockout=>exact Keeps.bind h.startLockout fun _=>Keeps.pure _
  | checkAndResetExpiredLockout=>exact Keeps.bind h.checkAndResetExpiredLockout fun _=>Keeps.pure _
  | setDuressPin pin=>exact h.setDuressPin hload hsave pin
  | clearDuressPin=>exact h.clearDuressPin hload hsave
  | verifyPW1 pin | verifyPW3 pin=>exact h.verifyPw hload hsave _ pin
  | verifyPW1Raw data | verifyPW3Raw data=>exact h.verifyPinRaw hload hsave _ data
  | changePW1 currentPin newPin | changePW3 currentPin newPin=>
    exact Keeps.bind (h.verifyPw hload hsave _ currentPin) fun _=>
      Keeps.ite (fun _=>h.setPw hsave _ _ newPin) fun _=>Keeps.pure _
  | setPW1 newPin | setPW3 newPin=>exact h.setPw hsave _ _ newPin
  | setPW1Raw data | setPW3Raw data=>exact h.setPwRaw hsave _ data
  | resetPW1Retries | resetPW3Retries=>exact Keeps.bind (h.resetPwRetries hsave _) fun _=>Keeps.pure _
  | wait ms=>exact Keeps.bind (Keeps.modify fun b hb=>h.now b _ hb) fun _=>Keeps.pure _
  | powerCycle=>exact Keeps.stop _

end Frame

/-- A verification of the badge PIN keeps what does not depend on the slot of the record. -/
theorem fixes_verifyBadgePin {V : Type} {v : Chip Bytes→V}
    (h : ∀ c content, v {c with rmem:=Function.update c.rmem rmemSlotPin content}=v c) (cr : Crypto) (pin : Bytes) :
    Fixes (fun b=>v b.chip) (verifyBadgePin cr pin):=by
  intro x
  have hstable : Stable fun b=>v b.chip=x:=⟨fun _ _ h=>h,fun _ _ h=>h,fun _ _ h=>h,fun _ _ h=>h⟩
  have hsaves : BesideSaves fun b=>v b.chip=x:=
    ⟨fun b content hb=>(h b.chip content).trans hb,fun _ h=>h,fun _ _ h=>h,fun _ _ _ _ h=>h⟩
  exact hstable.verifyBadgePin (hstable.load fun _ _ h=>h) (hsaves.saveToStorage cr) pin

/-- What the chip holds beside the PIN record. -/
def others (c : Chip Bytes) : (ℕ→Option EccKey) × (ℕ→Option Bytes):=
  (c.ecc,fun slot=>if slot=rmemSlotPin then none else c.rmem slot)

theorem others_update (c : Chip Bytes) (content : Option Bytes) :
    others {c with rmem:=Function.update c.rmem rmemSlotPin content}=others c:=by
  refine Prod.ext rfl (funext fun slot=>?_)
  unfold others
  by_cases hslot : slot=rmemSlotPin
  · simp [hslot]
  · simp [hslot,Function.update_of_ne]

/-- In every run, with any outcomes and with power lost at any point, the manager changes nothing on the chip but the slot
of its record: no key and no other slot. -/
theorem run_keeps_others (cr : Crypto) (b : Badge) (is : List PinInput) :
    others (run (step cr) b is).chip=others b.chip:=by
  have hstep : ∀ (b : Badge) (i : PinInput), others (step cr b i).chip=others b.chip:=by
    intro b i
    have hstable : Stable fun t : Badge=>others t.chip=others b.chip:=
      ⟨fun _ _ h=>h,fun _ _ h=>h,fun _ _ h=>h,fun _ _ h=>h⟩
    have hsaves : BesideSaves fun t : Badge=>others t.chip=others b.chip:=
      ⟨fun t content h=>(others_update t.chip content).trans h,fun _ h=>h,fun _ _ h=>h,fun _ _ _ _ h=>h⟩
    have hrun:=keeps_iff.mp (hstable.run (hstable.load fun _ _ h=>h) (hsaves.saveToStorage cr) i.op) (b.given i) rfl
    unfold step respond
    cases hr : i.op.run cr (b.given i) with
    | mk r c=>
      rw [hr] at hrun
      cases r <;> exact hrun
  induction is generalizing b with
  | nil=>rfl
  | cons i is ih=>
    rw [run_cons,ih,hstep]

end CdcBadge.Pin
