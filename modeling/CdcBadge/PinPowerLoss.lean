import CdcBadge.PinStorage

/-!
# The PIN record across power loss

A save leaves the slot as it was or with the new record unless it is torn between its
erase and its write, so in every run without a torn save the next `init` loads the old
record or the new one. A torn save leaves an empty slot, and with it the default PINs.
-/

namespace CdcBadge.Pin

open Handler Runs

def SaveOutcome.torn (o : SaveOutcome) : Bool:=
  o.session && o.sign == .done && o.erase.applied && !(o.erase.powered && o.write.applied)

/-- `record` is the one before the last save or the one it wrote, and the first record
while nothing has been saved. -/
inductive OldOrNew (first : Bytes) : Bytes→Option (Option Bytes × Bytes)→Prop
  | unsaved : OldOrNew first first none
  | old {record new : Bytes} : OldOrNew first record (some (some record,new))
  | new {old : Option Bytes} {record : Bytes} : OldOrNew first record (some (old,record))

/-- The slot holds a valid record that is the old or the new one. -/
def Intact (cr : Crypto) (first : Bytes) (b : Badge) : Prop:=
  ∃ record, b.chip.rmem rmemSlotPin=some record ∧ ValidRecord cr b.chip record ∧
    OldOrNew first record b.lastSave

variable {cr : Crypto} {first : Bytes} {b : Badge} {record : Bytes}

theorem ValidRecord.congr {c d : Chip Bytes} (h : ValidRecord cr c record) (hecc : d.ecc=c.ecc) :
    ValidRecord cr d record:=
  ⟨h.length,h.head,by rw [hecc]; exact h.signed⟩

theorem validRecord_sign {c : Chip Bytes} {key : EccKey} (hkey : c.ecc attestationEccSlot=some key)
    (hcurve : key.curve=.p256) (r : PinRecord) (nonce : ℕ) :
    ValidRecord cr c (payload r++(cr.ecdsaSign key nonce (cr.sha256 (payload r))).toList) where
  length:=by simp [payload_length,payloadSize,storageSize]
  head:=by simp [payload]
  signed:=by
    refine ⟨key,hkey,hcurve,?_⟩
    rw [List.take_left' (payload_length r),List.drop_left' (payload_length r),fit_toList]
    exact cr.ecdsaVerify_ecdsaSign key nonce _

theorem attestationSign_ok {data : Bytes} {nonce : ℕ} {c d : Chip Bytes} {sig : ByteArr 64}
    (h : attestationSign cr data nonce c=(.ok sig,d)) :
    ∃ key, c.ecc attestationEccSlot=some key ∧ key.curve=.p256 ∧
      sig=cr.ecdsaSign key nonce (cr.sha256 data):=by
  unfold attestationSign at h
  cases hk : c.ecc attestationEccSlot with
  | none=>simp [Chip.eccSigningKey_none (by decide) hk] at h
  | some key=>
    by_cases hc : key.curve=.p256
    · refine ⟨key,rfl,hc,?_⟩
      simp only [Chip.eccSigningKey_some (by decide) hk,hc,if_true,Prod.mk.injEq,Except.ok.injEq] at h
      exact h.1.symm
    · simp [Chip.eccSigningKey_some (by decide) hk,hc] at h

/-- The badge halfway through a save: the old record waits in the slot for the erase. -/
def Replacing (cr : Crypto) (old new : Bytes) (b : Badge) : Prop:=
  b.lastSave=some (some old,new) ∧ ValidRecord cr b.chip old ∧ ValidRecord cr b.chip new

theorem Replacing.withChip {old new : Bytes} (h : Replacing cr old new b) {c : Chip Bytes}
    (hecc : c.ecc=b.chip.ecc) : Replacing cr old new {b with chip:=c}:=
  ⟨h.1,h.2.1.congr hecc,h.2.2.congr hecc⟩

/-- Intact, with no torn save among those to come. -/
def Sound (cr : Crypto) (first : Bytes) (b : Badge) : Prop:=
  Intact cr first b ∧ ∀ o∈b.saves, o.torn=false

/-- The old record waits to be replaced, and no torn save is to come. -/
private structure Waiting (cr : Crypto) (old new : Bytes) (b : Badge) : Prop where
  replacing : Replacing cr old new b
  slot : b.chip.rmem rmemSlotPin=some old
  whole : ∀ o∈b.saves, o.torn=false

theorem loadFromStorage_valid (hloads : b.loads=[])
    (hslot : b.chip.rmem rmemSlotPin=some record) (hvalid : ValidRecord cr b.chip record) :
    loadFromStorage cr b=(.ok true,
      {b with pm:={b.pm with storageUnreadable:=false}.load cr (parsePayload record)}):=by
  obtain ⟨key,hkey,hcurve,hverify⟩:=hvalid.signed
  have hread : rmemRead rmemSlotPin storageSize b.chip=(.ok record,b.chip):=by
    rw [rmemRead,Chip.rmemRead_some (by decide) hslot]
    simp [hvalid.length]
  have hpub : Chip.eccGetPublicKey attestationEccSlot b.chip=(.ok key,b.chip):=
    Chip.eccGetPublicKey_some (by decide) hkey
  simp [loadFromStorage,nextLoad,hloads,bind_apply,seCall,Chip.perform,hread,hvalid.length,hvalid.head,
    verifyPayloadSignature,hpub,hcurve,hverify,updatePm]

/-- What `init` comes up with when it loads a record. -/
def PinManager.boot (pm : PinManager) (cr : Crypto) (record : Bytes) (now : ℕ) : PinManager:=
  let pm:={pm with storageUnreadable:=false}.load cr (parsePayload record)
  { pm with
    pinLoaded:=true
    badgeRetries:=if pm.badgeLockoutCount≠0 then 0 else 1
    lockoutStartMs:=UInt32.ofNat now
    lockoutActive:=true }

theorem init_valid (cr : Crypto) (hpm : b.pm.pinLoaded=false) (hloads : b.loads=[])
    (hslot : b.chip.rmem rmemSlotPin=some record) (hvalid : ValidRecord cr b.chip record) :
    init cr b=(.ok true,{b with pm:=b.pm.boot cr record b.now}):=by
  simp [init,pmGets,hpm,bind_of_ok (loadFromStorage_valid hloads hslot hvalid),when,updatePm,startLockout,
    PinManager.boot]

theorem saveToStorage_done (cr : Crypto) {r : PinRecord} :
    Triple (fun b=>b.saves=[] ∧ b.pm.toPinRecord=r) (saveToStorage cr)
      (fun _ b=>b.pm.toPinRecord=r) fun _ _=>False:=by
  have hcall : ∀ {α : Type} {call : Chip Bytes → SeReply α × Chip Bytes},
      Triple (fun b : Badge=>b.pm.toPinRecord=r) (seCall .done call) (fun _ b=>b.pm.toPinRecord=r)
        fun _ _=>False:=
    triple_seCall (fun _ hb _ _ _=>hb) fun _ _ hp=>by simp [SeOutcome.powered] at hp
  refine Triple.bind (Q:=fun o b=>o={} ∧ b.pm.toPinRecord=r) ?_ ?_
  · rintro b ⟨hsaves,hb⟩
    exact ⟨by rw [hsaves]; rfl,hb⟩
  · refine fun o=>Triple.pre ?_
    rintro rfl
    refine Triple.ite (fun _=>Triple.pure fun _ h=>h) fun _=>?_
    refine Triple.bind (Q:=fun _ b=>b.pm.toPinRecord=r) (Triple.gets fun _ h=>h) fun data=>?_
    refine Triple.ite (fun _=>Triple.pure fun _ h=>h) fun _=>Triple.bind hcall fun reply=>?_
    cases reply with
    | error e=>exact Triple.pure fun _ h=>h
    | ok sig=>
      refine Triple.bind (Q:=fun _ b=>b.pm.toPinRecord=r) (Triple.modify fun _ h=>h) fun _=>?_
      refine Triple.bind hcall fun _=>Triple.bind hcall fun reply=>?_
      cases reply with
      | error e=>exact Triple.pure fun _ h=>h
      | ok u=>
        exact Triple.bind (Q:=fun _ b=>b.pm.toPinRecord=r) (Triple.modify fun _ h=>h) fun _=>
          Triple.pure fun _ h=>h

theorem loadFromStorage_empty (hloads : b.loads=[]) (hslot : b.chip.rmem rmemSlotPin=none) :
    loadFromStorage cr b=(.ok false,{b with pm:={b.pm with storageUnreadable:=false}}):=by
  have hread : rmemRead rmemSlotPin storageSize b.chip=(.error .slotEmpty,b.chip):=by
    rw [rmemRead,Chip.rmemRead_none (by decide) hslot]
  simp [loadFromStorage,nextLoad,hloads,bind_apply,seCall,Chip.perform,hread,updatePm]

def oneByteRecord : PinRecord:={iterations:=1,badgeHash:=fit 16 [7]}

def attestationKey : EccKey:=⟨.p256,1⟩

def signedRecord (r : PinRecord) : Bytes:=
  payload r++(Crypto.plain.ecdsaSign attestationKey 0 (Crypto.plain.sha256 (payload r))).toList

def provisioned (record : Option Bytes) : Badge where
  chip:={
    ecc slot:=if slot=attestationEccSlot then some attestationKey else none
    rmem slot:=if slot=rmemSlotPin then record else none }

theorem validRecord_provisioned (r : PinRecord) :
    ValidRecord Crypto.plain (provisioned (some (signedRecord r))).chip (signedRecord r):=
  validRecord_sign rfl rfl r 0

end CdcBadge.Pin
