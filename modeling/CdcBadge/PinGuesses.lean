import CdcBadge.PinBlocked

/-!
# The guesses that PW1 and PW3 grant

A ledger counts, for each reference value, the wrong candidates compared with it since
its last success, set or reset. While a load finds the record and every save is
all-or-nothing, the count and the retry counter together stay within three, in the
manager's memory and in the record that the next power-on loads.
-/

namespace CdcBadge.Pin

open Handler Runs

/-- What candidates are compared with: a salt and the hash under it. -/
abbrev Ref:=ByteArr 8 × ByteArr 32

def Pw.ref (pw : Pw) (pm : PinManager) : Ref:=(pw.salt pm,pw.hash pm)

def onChip (record : Bytes) : PinManager:={toPinRecord:=parsePayload record}

/-- For each slot and reference value, the wrong candidates since the last renewal. -/
abbrev Ledger:=Pw→Ref → ℕ

namespace Ledger

def wrong (w : Ledger) (pw : Pw) (ref : Ref) : Ledger:=
  fun p r=>if p=pw ∧ r=ref then w p r+1 else w p r

def clear (w : Ledger) (pw : Pw) (ref : Ref) : Ledger:=
  fun p r=>if p=pw ∧ r=ref then 0 else w p r

@[simp] theorem wrong_self (w : Ledger) (pw : Pw) (ref : Ref) : w.wrong pw ref pw ref=w pw ref+1:=by
  simp [wrong]

@[simp] theorem clear_self (w : Ledger) (pw : Pw) (ref : Ref) : w.clear pw ref pw ref=0:=by
  simp [clear]

theorem wrong_other (w : Ledger) {pw p : Pw} (ref r : Ref) (h : p≠pw) : w.wrong pw ref p r=w p r:=by
  simp [wrong,h]

theorem le_wrong (w : Ledger) (pw : Pw) (ref : Ref) (p : Pw) (r : Ref) : w p r ≤ w.wrong pw ref p r:=by
  unfold wrong
  split <;> omega

theorem clear_le (w : Ledger) (pw : Pw) (ref : Ref) (p : Pw) (r : Ref) : w.clear pw ref p r ≤ w p r:=by
  unfold clear
  split <;> omega

theorem clear_wrong (w : Ledger) (pw : Pw) (ref : Ref) : (w.wrong pw ref).clear pw ref=w.clear pw ref:=by
  funext p r
  unfold clear wrong
  split <;> rfl

end Ledger

section Comparisons

variable (cr : Crypto)

/-- `verifyPinRaw` up to its comparison: the reference, and whether the candidate matches it. -/
def reachComparison (pw : Pw) (data : Bytes) : PinM (Option (Ref × Bool)):=do
  ensureInit cr
  let pm ← pmGets id
  if pw.retries pm=0 then pure none
  else match computeKdfHash cr pm.iterations data (pw.salt pm) with
    | none=>pure none
    | some inputHash=>
      let before:=pw.retries pm
      updatePm (pw.setRetries (before-1))
      let saved ← (if before-1 < pw.mirror pm then saveToStorage cr else pure true)
      if !saved then
        updatePm (pw.setRetries before)
        pure none
      else pure (some (pw.ref pm,compareHash (pw.hash pm) inputHash))

/-- The rest of `verifyPinRaw`. -/
def settle (pw : Pw) : Option (Ref × Bool)→PinM Bool
  | some (_,true)=>do
    updatePm (pw.setRetries maxRetries)
    when ((← pmGets pw.mirror)≠maxRetries) (saveToStorage cr)
    pure true
  | _=>pure false

theorem verifyPinRaw_eq (pw : Pw) (data : Bytes) :
    verifyPinRaw cr pw data=reachComparison cr pw data >>= settle cr pw:=by
  unfold verifyPinRaw reachComparison
  simp only [bind_assoc]
  congr 1
  funext _
  congr 1
  funext pm
  by_cases hzero : pw.retries pm=0
  · simp [hzero,settle]
  · rw [if_neg hzero,if_neg hzero]
    cases computeKdfHash cr pm.iterations data (pw.salt pm) with
    | none=>rfl
    | some inputHash=>
      simp only [bind_assoc]
      congr 1
      funext _
      congr 1
      funext saved
      cases saved with
      | false=>rfl
      | true=>cases compareHash (pw.hash pm) inputHash <;> rfl

/-- The comparison that a run of `m` makes, if it gets there. -/
def outcome (m : PinM (Option (Ref × Bool))) (pw : Pw) (b : Badge) : Option (Pw × Ref × Bool):=
  match (m b).1 with
  | .ok (some c)=>some (pw,c)
  | _=>none

/-- The comparison that a verification of PW1 or PW3 makes: the slot, the reference and whether the
candidate is right. -/
def compared (b : Badge) (i : PinInput) : Option (Pw × Ref × Bool):=
  match i.op with
  | .verifyPW1 pin=>outcome (do ensureInit cr; reachComparison cr .pw1 (cstr pin)) .pw1 (b.given i)
  | .verifyPW1Raw data=>outcome (reachComparison cr .pw1 data) .pw1 (b.given i)
  | .verifyPW3 pin=>outcome (do ensureInit cr; reachComparison cr .pw3 (cstr pin)) .pw3 (b.given i)
  | .verifyPW3Raw data=>outcome (reachComparison cr .pw3 data) .pw3 (b.given i)
  | _=>none

def PinOp.newValue : PinOp→Option (Pw × Bytes)
  | .setPW1 newPin=>accept .pw1 pw1Min (cstr newPin)
  | .setPW3 newPin=>accept .pw3 pw3Min (cstr newPin)
  | .setPW1Raw data=>acceptRaw .pw1 data
  | .setPW3Raw data=>acceptRaw .pw3 data
  | _=>none
where
  accept (pw : Pw) (minLen : ℕ) (data : Bytes) : Option (Pw × Bytes):=
    if data.length < minLen ∨ pinMax < data.length then none else some (pw,data)
  acceptRaw (pw : Pw) (data : Bytes) : Option (Pw × Bytes):=
    if data.length≠32 ∧ data.length≠64 then none else some (pw,data)

def PinOp.resetSlot : PinOp→Option Pw
  | .resetPW1Retries=>some .pw1
  | .resetPW3Retries=>some .pw3
  | _=>none

def Pw.newRef (pw : Pw) (data : Bytes) (b : Badge) : Ref:=
  let salt:=b.salts.headD (zeros 8)
  (salt,(computeKdfHash cr b.pm.iterations data salt).getD (pw.hash b.pm))

def renewed (b : Badge) (i : PinInput) : Option (Pw × Ref):=
  match i.op.newValue with
  | some (pw,data)=>some (pw,pw.newRef cr data (b.given i))
  | none=>i.op.resetSlot.map fun pw=>(pw,pw.ref b.pm)

def PinOp.loads : PinOp→Bool
  | .init | .verifyPW1 _ | .verifyPW1Raw _ | .verifyPW3 _ | .verifyPW3Raw _=>true
  | _=>false

/-- The ledger after `init`: default references are new ones. -/
def Ledger.boot (w : Ledger) (b : Badge) : Ledger:=
  if b.pm.pinLoaded then w
  else match loadFromStorage cr b with
    | (.ok false,b')=>
      if b'.pm.storageUnreadable then w
      else
        let pm:=(loadDefaults cr b').2.pm
        (w.clear .pw1 (Pw.pw1.ref pm)).clear .pw3 (Pw.pw3.ref pm)
    | _=>w

def track (w : Ledger) (b : Badge) (i : PinInput) : Ledger:=
  let w:=if i.op.loads then w.boot cr (b.given i) else w
  let w:=match renewed cr b i with
    | some (pw,ref)=>w.clear pw ref
    | none=>w
  match compared cr b i with
  | some (pw,ref,true)=>w.clear pw ref
  | some (pw,ref,false)=>w.wrong pw ref
  | none=>w

def ledger : Ledger→Badge → List PinInput → Ledger
  | w, _, []=>w
  | w, b, i::is=>ledger (track cr w b i) (step cr b i) is

end Comparisons

/-- The save changes nothing, or stores the record and, where power stays on, says so. -/
def SaveOutcome.whole (o : SaveOutcome) : Bool:=
  !o.torn && !(o.session && o.sign == .done && o.write.applied && o.write.powered && o.write != .done)

def LoadOutcome.finds (o : LoadOutcome) : Bool:=
  o.session && (o.read == .done || !o.read.powered) && (o.pubKey == .done || !o.pubKey.powered)

/-- What `saveToStorage` comes to where it is all-or-nothing. -/
inductive Saved (cr : Crypto) (b : Badge) : Except PowerLost Bool→Badge→Prop
  | refused {b' : Badge} (hpm : b'.pm=b.pm) (hchip : b'.chip=b.chip) (hsaves : b'.saves=b.saves.tail) :
      Saved cr b (.ok false) b'
  | stored {b' : Badge} {record : Bytes} (hvalid : ValidRecord cr b.chip record)
      (hrecord : parsePayload record=b.pm.toPinRecord)
      (hpm : b'.pm={ b.pm with
        persistedBadgeLockoutCount:=b.pm.badgeLockoutCount
        persistedPw1Retries:=b.pm.pw1Retries
        persistedPw3Retries:=b.pm.pw3Retries })
      (hchip : b'.chip={b.chip with rmem:=Function.update b.chip.rmem rmemSlotPin (some record)})
      (hsaves : b'.saves=b.saves.tail) : Saved cr b (.ok true) b'
  | lost {b' : Badge} (hchip : b'.chip=b.chip) : Saved cr b (.error ⟨⟩) b'
  | storedLost {b' : Badge} {record : Bytes} (hvalid : ValidRecord cr b.chip record)
      (hrecord : parsePayload record=b.pm.toPinRecord)
      (hchip : b'.chip={b.chip with rmem:=Function.update b.chip.rmem rmemSlotPin (some record)}) :
      Saved cr b (.error ⟨⟩) b'

variable {cr : Crypto} {b : Badge}

/-- The write of an all-or-nothing save, once the erase is over and power is still on. -/
theorem write_whole {b b₁ : Badge} {o : SaveOutcome} {record : Bytes} (hsession : o.session=true)
    (hsign : o.sign=.done) (ho : o.whole=true) (herase : o.erase.powered=true)
    (hvalid : ValidRecord cr b.chip record) (hrecord : parsePayload record=b.pm.toPinRecord) (hpm : b₁.pm=b.pm)
    (hchip : b₁.chip=if o.erase.applied then (Chip.rmemErase rmemSlotPin b.chip).2 else b.chip)
    (hsaves : b₁.saves=b.saves.tail) {m : PinM Bool}
    (hm : m=(do
      match ← seCall o.write (Chip.rmemWrite rmemSlotPin record) with
      | .error _=>pure false
      | .ok _=>
        updatePm fun pm=>{ pm with
          persistedBadgeLockoutCount:=pm.badgeLockoutCount
          persistedPw1Retries:=pm.pw1Retries
          persistedPw3Retries:=pm.pw3Retries }
        pure true)) : Saved cr b (m b₁).1 (m b₁).2:=by
  have hlt : rmemSlotPin < Chip.rmemSlotCount:=by decide
  have htorn : o.erase.applied=true → o.write.applied=true:=by
    intro ha
    simpa [SaveOutcome.whole,SaveOutcome.torn,hsession,hsign,ha,herase] using (Bool.and_eq_true_iff.mp ho).1
  have hreport : o.write.applied=true → o.write.powered=true → o.write=.done:=by
    intro ha hp
    simpa [hsession,hsign,ha,hp] using (Bool.and_eq_true_iff.mp ho).2
  subst hm
  cases hslot : b₁.chip.rmem rmemSlotPin with
  | none=>
    have hwrite : Chip.rmemWrite rmemSlotPin record b₁.chip =
        (.ok (),{b.chip with rmem:=Function.update b.chip.rmem rmemSlotPin (some record)}):=by
      rw [Chip.rmemWrite_none hlt hslot,hchip,Chip.rmemErase_lt hlt]
      split <;> simp
    cases hw : o.write with
    | done=>
      simp only [bind_apply,seCall,Chip.perform,hwrite,updatePm,modify_apply,pure_apply]
      exact .stored hvalid hrecord (by rw [hpm]) rfl hsaves
    | failed e applied=>
      cases applied with
      | true=>simp [hw,SeOutcome.applied,SeOutcome.powered] at hreport
      | false=>
        have hkept : o.erase.applied=false:=by
          simpa [hw,SeOutcome.applied] using htorn
        simp only [bind_apply,seCall,Chip.perform,pure_apply]
        exact .refused hpm (by simp [hchip,hkept]) hsaves
    | powerLost applied=>
      cases applied with
      | true=>
        simp only [bind_apply,seCall,Chip.perform,hwrite]
        exact .storedLost hvalid hrecord rfl
      | false=>
        have hkept : o.erase.applied=false:=by
          simpa [hw,SeOutcome.applied] using htorn
        simp only [bind_apply,seCall,Chip.perform]
        exact .lost (by simp [hchip,hkept])
  | some old=>
    -- The erase left the record, and the chip does not write over it.
    have hkept : o.erase.applied=false:=by
      by_contra ha
      rw [hchip,if_pos (by simpa using ha),Chip.rmemErase_lt hlt] at hslot
      simp at hslot
    have hsame : b₁.chip=b.chip:=by simp [hchip,hkept]
    have hwrite : Chip.rmemWrite rmemSlotPin record b₁.chip=(.error .slotOccupied,b₁.chip):=
      Chip.rmemWrite_some hlt hslot
    cases hw : o.write with
    | done=>
      simp only [bind_apply,seCall,Chip.perform,hwrite,pure_apply]
      exact .refused hpm hsame hsaves
    | failed e applied=>
      simp only [bind_apply,seCall,Chip.perform,hwrite,pure_apply,ite_self]
      exact .refused hpm hsame hsaves
    | powerLost applied=>
      simp only [bind_apply,seCall,Chip.perform,hwrite,ite_self]
      exact .lost hsame

theorem replaceRecord_whole {b b₀ : Badge} {o : SaveOutcome} {record : Bytes} (hsession : o.session=true)
    (hsign : o.sign=.done) (ho : o.whole=true) (hvalid : ValidRecord cr b.chip record)
    (hrecord : parsePayload record=b.pm.toPinRecord) (hpm : b₀.pm=b.pm) (hchip : b₀.chip=b.chip)
    (hsaves : b₀.saves=b.saves.tail) :
    Saved cr b (replaceRecord o record b₀).1 (replaceRecord o record b₀).2:=by
  have hreply:=Chip.perform_reply_isSome o.erase (Chip.rmemErase rmemSlotPin) b₀.chip
  have heffect:=Chip.perform_chip o.erase (Chip.rmemErase rmemSlotPin) b₀.chip
  unfold replaceRecord
  rw [bind_apply,seCall]
  revert hreply heffect
  cases Chip.perform o.erase (Chip.rmemErase rmemSlotPin) b₀.chip with
  | mk reply c=>
    intro hreply heffect
    cases reply with
    | none=>
      have hpowered : o.erase.powered=false:=by simpa using hreply.symm
      have hkept : o.erase.applied=false:=by
        simpa [SaveOutcome.whole,SaveOutcome.torn,hsession,hsign,hpowered] using (Bool.and_eq_true_iff.mp ho).1
      refine .lost ?_
      simpa [hkept,hchip] using heffect
    | some r=>
      have hpowered : o.erase.powered=true:=by simpa using hreply.symm
      have hpm' : ({b₀ with chip:=c} : Badge).pm=b.pm:=hpm
      exact write_whole hsession hsign ho hpowered hvalid hrecord hpm' (by rw [← hchip]; exact heffect) hsaves rfl

theorem saveToStorage_whole (cr : Crypto) (hwhole : ∀ o∈b.saves, o.whole=true) :
    Saved cr b (saveToStorage cr b).1 (saveToStorage cr b).2:=by
  have ho : (b.saves.headD {}).whole=true:=by
    cases hs : b.saves with
    | nil=>rfl
    | cons o os=>exact hwhole o (by simp [hs])
  generalize hhead : b.saves.headD {}=o at ho
  have hnext : nextSave b=(.ok o,{b with saves:=b.saves.tail}):=by rw [nextSave,hhead]
  rw [saveToStorage,bind_of_ok hnext]
  cases hsession : o.session with
  | false=>exact .refused rfl rfl rfl
  | true=>
    have hcall:=attestationSign_chip cr (payload b.pm.toPinRecord) o.nonce b.chip
    have heffect:=Chip.perform_chip o.sign (attestationSign cr (payload b.pm.toPinRecord) o.nonce) b.chip
    simp only [Bool.not_true,Bool.false_eq_true,if_false,pmGets,bind_gets,payload_length,ne_eq,not_true_eq_false,
      bind_apply (seCall _ _),seCall]
    rw [hcall,ite_self] at heffect
    cases hp : Chip.perform o.sign (attestationSign cr (payload b.pm.toPinRecord) o.nonce) b.chip with
    | mk reply c=>
      obtain rfl : c=b.chip:=by simpa [hp] using heffect
      cases reply with
      | none=>exact .lost rfl
      | some r=>
        cases r with
        | error e=>exact .refused rfl rfl rfl
        | ok sig=>
          obtain ⟨hsign,hsig⟩:=Chip.perform_ok hp
          obtain ⟨key,hkey,hcurve,rfl⟩:=attestationSign_ok hsig
          exact replaceRecord_whole hsession hsign ho (validRecord_sign hkey hcurve _ _) (parsePayload_payload _ _) rfl
            rfl rfl

/-- What `loadFromStorage` comes to where it finds the record, if there is one. -/
inductive Found (cr : Crypto) (b : Badge) : Except PowerLost Bool→Badge→Prop
  | lost {b' : Badge} (hchip : b'.chip=b.chip) : Found cr b (.error ⟨⟩) b'
  | empty {b' : Badge} (hslot : b.chip.rmem rmemSlotPin=none)
      (hpm : b'.pm={b.pm with storageUnreadable:=false}) (hchip : b'.chip=b.chip)
      (hsaves : b'.saves=b.saves) : Found cr b (.ok false) b'
  | record {b' : Badge} {record : Bytes} (hslot : b.chip.rmem rmemSlotPin=some record)
      (hpm : b'.pm={b.pm with storageUnreadable:=false}.load cr (parsePayload record))
      (hchip : b'.chip=b.chip) (hsaves : b'.saves=b.saves) : Found cr b (.ok true) b'

theorem loadFromStorage_finds (hload : (b.loads.headD {}).finds=true)
    (hvalid : ∀ record, b.chip.rmem rmemSlotPin=some record→ValidRecord cr b.chip record) :
    Found cr b (loadFromStorage cr b).1 (loadFromStorage cr b).2:=by
  generalize hhead : b.loads.headD {}=o at hload
  simp only [LoadOutcome.finds,Bool.and_eq_true,Bool.or_eq_true,beq_iff_eq,Bool.not_eq_true'] at hload
  obtain ⟨⟨hsession,hread⟩,hpub⟩:=hload
  have hnext : nextLoad b=(.ok o,{b with loads:=laterLoads b.loads}):=by rw [nextLoad,hhead]
  rw [loadFromStorage,bind_of_ok hnext,if_neg (by simp [hsession]),updatePm,bind_modify,bind_apply,seCall]
  rcases hread with hread | hread
  · cases hslot : b.chip.rmem rmemSlotPin with
    | none=>
      have hreply : rmemRead rmemSlotPin storageSize b.chip=(.error .slotEmpty,b.chip):=by
        rw [rmemRead,Chip.rmemRead_none (by decide) hslot]
      simp only [hread,Chip.perform,hreply]
      exact .empty hslot rfl rfl rfl
    | some record=>
      have hv:=hvalid record hslot
      obtain ⟨key,hkey,hcurve,hverify⟩:=hv.signed
      have hreply : rmemRead rmemSlotPin storageSize b.chip=(.ok record,b.chip):=by
        rw [rmemRead,Chip.rmemRead_some (by decide) hslot]
        simp [hv.length]
      have hkeyReply : Chip.eccGetPublicKey attestationEccSlot b.chip=(.ok key,b.chip):=
        Chip.eccGetPublicKey_some (by decide) hkey
      simp only [hread,Chip.perform,hreply]
      rw [if_neg (by simp [hv.length,hv.head]),bind_apply,verifyPayloadSignature,bind_apply,seCall]
      rcases hpub with hpub | hpub
      · simp only [hpub,Chip.perform,hkeyReply]
        rw [if_neg (by simp [hcurve]),hverify]
        exact .record hslot rfl rfl rfl
      · cases hp : o.pubKey with
        | powerLost applied=>
          simp only [Chip.perform,hkeyReply,ite_self]
          exact .lost rfl
        | done=>simp [hp,SeOutcome.powered] at hpub
        | failed e applied=>simp [hp,SeOutcome.powered] at hpub
  · cases hp : o.read with
    | powerLost applied=>
      simp only [Chip.perform,rmemRead_chip,ite_self]
      exact .lost rfl
    | done=>simp [hp,SeOutcome.powered] at hread
    | failed e applied=>simp [hp,SeOutcome.powered] at hread

section Slots

variable (pw p : Pw) (n : UInt8) (pm : PinManager)

@[simp] theorem Pw.ref_setRetries : p.ref (pw.setRetries n pm)=p.ref pm:=by
  cases pw <;> cases p <;> rfl

@[simp] theorem Pw.mirror_setRetries : p.mirror (pw.setRetries n pm)=p.mirror pm:=by
  cases pw <;> cases p <;> rfl

@[simp] theorem Pw.retries_setRetries_self : pw.retries (pw.setRetries n pm)=n:=by
  cases pw <;> rfl

theorem Pw.retries_setRetries_other (h : p≠pw) : p.retries (pw.setRetries n pm)=p.retries pm:=by
  cases pw <;> cases p <;> first | rfl | exact absurd rfl h

def Pw.replace (ref : Ref) (pm : PinManager) : PinManager:=
  pw.setRetries maxRetries (pw.setHash ref.2 (pw.setSalt ref.1 pm))

@[simp] theorem Pw.ref_replace_self (ref : Ref) : pw.ref (pw.replace ref pm)=ref:=by
  cases pw <;> rfl

theorem Pw.replace_other (ref : Ref) (h : p≠pw) :
    p.ref (pw.replace ref pm)=p.ref pm ∧ p.retries (pw.replace ref pm)=p.retries pm:=by
  cases pw <;> cases p <;> first | exact ⟨rfl,rfl⟩ | exact absurd rfl h

@[simp] theorem Pw.mirror_replace (ref : Ref) : p.mirror (pw.replace ref pm)=p.mirror pm:=by
  cases pw <;> cases p <;> rfl

@[simp] theorem Pw.pinLoaded_setRetries : (pw.setRetries n pm).pinLoaded=pm.pinLoaded:=by
  cases pw <;> rfl

theorem Pw.setRetries_setRetries (m : UInt8) : pw.setRetries n (pw.setRetries m pm)=pw.setRetries n pm:=by
  cases pw <;> rfl

theorem Pw.setRetries_retries : pw.setRetries (pw.retries pm) pm=pm:=by
  cases pw <;> rfl

variable {pm} {pm' : PinManager} (h : pm'.toPinRecord=pm.toPinRecord)
include h

theorem Pw.ref_congr : pw.ref pm'=pw.ref pm:=by
  cases pw <;> simp [Pw.ref,Pw.salt,Pw.hash,h]

theorem Pw.retries_congr : pw.retries pm'=pw.retries pm:=by
  cases pw <;> simp [Pw.retries,h]

end Slots

/-- The slots grant no more guesses than are left, and those of `z` grant none. -/
structure Grants (w : Ledger) (z : Pw→Prop) (pm : PinManager) : Prop where
  counted : ∀ pw, w pw (pw.ref pm)+(pw.retries pm).toNat ≤ 3
  spent : ∀ pw, z pw→pw.retries pm=0

/-- So does the record in the slot, which is there when a slot is spent. -/
structure Stored (cr : Crypto) (w : Ledger) (z : Pw→Prop) (c : Chip Bytes) : Prop where
  valid : ∀ record, c.rmem rmemSlotPin=some record→ValidRecord cr c record
  grants : ∀ record, c.rmem rmemSlotPin=some record→Grants w z (onChip record)
  bound : ∀ pw ref, w pw ref ≤ 3
  spent : c.rmem rmemSlotPin=none→∀ pw, ¬z pw

/-- The mirrors are the stored counters, or full while nothing is stored, and the counters are not below them.
The manager is loaded or about to be. -/
structure Mirrored (l : Bool) (b : Badge) : Prop where
  loaded : b.pm.pinLoaded=l
  le : ∀ pw : Pw, (pw.mirror b.pm).toNat ≤ (pw.retries b.pm).toNat
  stored : ∀ record, b.chip.rmem rmemSlotPin=some record→∀ pw : Pw, pw.mirror b.pm=pw.retries (onChip record)
  empty : b.chip.rmem rmemSlotPin=none→∀ pw : Pw, pw.mirror b.pm=maxRetries

/-- Within an operation, with nothing but whole saves to come. -/
structure Live (cr : Crypto) (l : Bool) (w : Ledger) (z : Pw→Prop) (b : Badge) : Prop where
  chip : Stored cr w z b.chip
  grants : Grants w z b.pm
  mirrored : Mirrored l b
  saves : ∀ o∈b.saves, o.whole=true

variable {l : Bool} {w : Ledger} {z : Pw→Prop} {i : PinInput}

theorem Grants.mono {w' : Ledger} {pm : PinManager} (h : Grants w z pm) (hw : ∀ pw ref, w' pw ref ≤ w pw ref) :
    Grants w' z pm:=
  ⟨fun pw=>(Nat.add_le_add_right (hw pw _) _).trans (h.counted pw),h.spent⟩

theorem Grants.congr {pm pm' : PinManager} (h : Grants w z pm) (hpm : pm'.toPinRecord=pm.toPinRecord) :
    Grants w z pm':=
  ⟨fun pw=>by rw [pw.ref_congr hpm,pw.retries_congr hpm]; exact h.counted pw,
    fun pw hz=>by rw [pw.retries_congr hpm]; exact h.spent pw hz⟩

theorem Stored.mono {w' : Ledger} {c : Chip Bytes} (h : Stored cr w z c) (hw : ∀ pw ref, w' pw ref ≤ w pw ref) :
    Stored cr w' z c:=
  ⟨h.valid,fun record hr=>(h.grants record hr).mono hw,fun pw ref=>(hw pw ref).trans (h.bound pw ref),h.spent⟩

theorem Live.mono {w' : Ledger} (h : Live cr l w z b) (hw : ∀ pw ref, w' pw ref ≤ w pw ref) :
    Live cr l w' z b:=
  ⟨h.chip.mono hw,h.grants.mono hw,h.mirrored,h.saves⟩

theorem Grants.stored {c : Chip Bytes} {pm : PinManager} {record : Bytes} (h : Grants w z pm)
    (hbound : ∀ pw ref, w pw ref ≤ 3) (hvalid : ValidRecord cr c record)
    (hrecord : parsePayload record=pm.toPinRecord) :
    Stored cr w z {c with rmem:=Function.update c.rmem rmemSlotPin (some record)}:=by
  refine ⟨fun r hr=>?_,fun r hr=>?_,hbound,fun hnone=>by simp at hnone⟩
  · obtain rfl : record=r:=by simpa using hr
    exact hvalid.congr rfl
  · obtain rfl : record=r:=by simpa using hr
    exact h.congr hrecord

/-- After an all-or-nothing save of a loaded manager that grants no more than is left. -/
theorem Saved.live {b b' : Badge} (h : Saved cr b (.ok true) b') (hloaded : b.pm.pinLoaded=l)
    (hgrants : Grants w z b.pm) (hbound : ∀ pw ref, w pw ref ≤ 3) (hsaves : ∀ o∈b.saves, o.whole=true) :
    Live cr l w z b':=by
  cases h with
  | @stored _ record hvalid hrecord hpm hchip hrest=>
    have hmirror : ∀ pw : Pw, pw.mirror b'.pm=pw.retries b.pm:=by
      intro pw
      rw [hpm]
      cases pw <;> rfl
    have hsame : b'.pm.toPinRecord=b.pm.toPinRecord:=by rw [hpm]
    refine ⟨hchip ▸ hgrants.stored hbound hvalid hrecord,hgrants.congr hsame,
      ⟨by rw [hpm]; exact hloaded,fun pw=>?_,fun r hr pw=>?_,fun hnone=>?_⟩,fun o ho=>?_⟩
    · rw [hmirror,pw.retries_congr hsame]
    · obtain rfl : record=r:=by simpa [hchip] using hr
      rw [hmirror]
      exact (pw.retries_congr hrecord).symm
    · simp [hchip] at hnone
    · exact hsaves o (List.mem_of_mem_tail (hrest ▸ ho))

theorem Saved.lost_stored {b b' : Badge} (h : Saved cr b (.error ⟨⟩) b') (hgrants : Grants w z b.pm)
    (hchip : Stored cr w z b.chip) : Stored cr w z b'.chip:=by
  cases h with
  | lost hsame=>exact hsame ▸ hchip
  | storedLost hvalid hrecord hnew=>exact hnew ▸ hgrants.stored hchip.bound hvalid hrecord

theorem Saved.toPinRecord {b b' : Badge} (h : Saved cr b (.ok true) b') :
    b'.pm.toPinRecord=b.pm.toPinRecord:=by
  cases h with
  | stored _ _ hpm _ _=>rw [hpm]

theorem Live.congr {b b' : Badge} (h : Live cr l w z b) (hpm : b'.pm=b.pm) (hchip : b'.chip=b.chip)
    (hsaves : ∀ o∈b'.saves, o∈b.saves) : Live cr l w z b':=by
  refine ⟨hchip ▸ h.chip,hpm ▸ h.grants,⟨hpm ▸ h.mirrored.loaded,?_,?_,?_⟩,fun o ho=>h.saves o (hsaves o ho)⟩
  · rw [hpm]; exact h.mirrored.le
  · rw [hpm,hchip]; exact h.mirrored.stored
  · rw [hpm,hchip]; exact h.mirrored.empty

theorem live_saveToStorage : Triple (Live cr l w z) (saveToStorage cr) (fun _=>Live cr l w z)
    fun _ b=>Stored cr w z b.chip:=by
  intro b hb
  have hsaved:=saveToStorage_whole cr hb.saves
  revert hsaved
  cases saveToStorage cr b with
  | mk reply b'=>
    intro hsaved
    cases reply with
    | error e=>exact hsaved.lost_stored hb.grants hb.chip
    | ok saved=>
      cases saved with
      | true=>exact hsaved.live hb.mirrored.loaded hb.grants hb.chip.bound hb.saves
      | false=>
        cases hsaved with
        | refused hpm hchip hrest=>exact hb.congr hpm hchip fun o ho=>List.mem_of_mem_tail (hrest ▸ ho)

theorem toNat_sub_one {n : UInt8} (h : n≠0) : (n-1).toNat+1=n.toNat:=by
  have hpos : n.toNat≠0:=fun h0=>h (UInt8.toNat_inj.mp h0)
  have hle : (1 : UInt8).toNat ≤ n.toNat:=by
    simp only [UInt8.toNat_one]
    omega
  rw [UInt8.toNat_sub_of_le _ _ (UInt8.le_iff_toNat_le.mpr hle),UInt8.toNat_one]
  omega

theorem Grants.pay {pm : PinManager} (h : Grants w z pm) {pw : Pw} (hpw : pw.retries pm≠0) :
    Grants (w.wrong pw (pw.ref pm)) z (pw.setRetries (pw.retries pm-1) pm):=by
  refine ⟨fun p=>?_,fun p hz=>?_⟩
  · by_cases hp : p=pw
    · subst hp
      have hcount:=h.counted p
      have hless:=toNat_sub_one hpw
      simp only [Pw.ref_setRetries,Ledger.wrong_self,Pw.retries_setRetries_self]
      omega
    · rw [Pw.ref_setRetries,Ledger.wrong_other _ _ _ hp,Pw.retries_setRetries_other _ _ _ _ hp]
      exact h.counted p
  · have hp : p≠pw:=fun hp=>hpw (h.spent pw (hp ▸ hz))
    rw [Pw.retries_setRetries_other _ _ _ _ hp]
    exact h.spent p hz

theorem Grants.wrong_le {pm : PinManager} (h : Grants w z pm) (hbound : ∀ p r, w p r ≤ 3) {pw : Pw}
    (hpw : pw.retries pm≠0) (p : Pw) (r : Ref) : w.wrong pw (pw.ref pm) p r ≤ 3:=by
  have hcount:=h.counted pw
  have hless:=toNat_sub_one hpw
  have hw:=hbound p r
  unfold Ledger.wrong
  split
  · rename_i heq
    obtain ⟨rfl,rfl⟩:=heq
    omega
  · exact hw

/-- A guess that the stored counter does not grant yet is paid for without a save. -/
theorem Live.pay (hb : Live cr l w z b) {pw : Pw} (hpw : pw.retries b.pm≠0)
    (hmirror : ¬pw.retries b.pm-1 < pw.mirror b.pm) :
    Live cr l (w.wrong pw (pw.ref b.pm)) z {b with pm:=pw.setRetries (pw.retries b.pm-1) b.pm}:=by
  have hgrants:=hb.grants.pay hpw
  have hle : ∀ p : Pw, (p.mirror b.pm).toNat ≤ (p.retries (pw.setRetries (pw.retries b.pm-1) b.pm)).toNat:=by
    intro p
    by_cases hp : p=pw
    · subst hp
      rw [Pw.retries_setRetries_self]
      exact UInt8.le_iff_toNat_le.mp (UInt8.not_lt.mp hmirror)
    · rw [Pw.retries_setRetries_other _ _ _ _ hp]
      exact hb.mirrored.le p
  refine ⟨⟨hb.chip.valid,fun record hr=>⟨fun p=>?_,(hb.chip.grants record hr).spent⟩,
    hb.grants.wrong_le hb.chip.bound hpw,hb.chip.spent⟩,hgrants,⟨?_,fun p=>?_,fun record hr p=>?_,?_⟩,hb.saves⟩
  · -- The reference in the record is another one, or its counter is the mirror.
    by_cases href : p=pw ∧ p.ref (onChip record)=pw.ref b.pm
    · obtain ⟨rfl,href⟩:=href
      have hcount:=hgrants.counted p
      have hmirrored:=hle p
      rw [Pw.ref_setRetries] at hcount
      rw [href,← hb.mirrored.stored record hr p]
      omega
    · rw [show w.wrong pw (pw.ref b.pm) p (p.ref (onChip record))=w p (p.ref (onChip record)) from if_neg href]
      exact (hb.chip.grants record hr).counted p
  · exact (pw.pinLoaded_setRetries _ _).trans hb.mirrored.loaded
  · rw [Pw.mirror_setRetries]
    exact hle p
  · rw [Pw.mirror_setRetries]
    exact hb.mirrored.stored record hr p
  · intro hnone p
    rw [Pw.mirror_setRetries]
    exact hb.mirrored.empty hnone p

/-- Where a comparison is reached, the guess is paid for in advance, should the candidate be wrong. -/
theorem live_reachComparison (pw : Pw) (data : Bytes) :
    Triple (Live cr true w z) (reachComparison cr pw data)
      (fun c b=>match c with
        | none=>Live cr true w z b
        | some (ref,_)=>¬z pw ∧ ref=pw.ref b.pm ∧ Live cr true (w.wrong pw ref) z b)
      fun _ b=>Stored cr w z b.chip:=by
  intro b hb
  rw [reachComparison,bind_of_ok (ensureInit_loaded hb.mirrored.loaded),pmGets,bind_gets]
  dsimp only [id]
  by_cases hzero : pw.retries b.pm=0
  · rw [if_pos hzero]
    exact hb
  rw [if_neg hzero]
  cases computeKdfHash cr b.pm.iterations data (pw.salt b.pm) with
  | none=>exact hb
  | some inputHash=>
    have hspent : ¬z pw:=fun hz=>hzero (hb.grants.spent pw hz)
    simp only [updatePm,bind_modify]
    by_cases hmirror : pw.retries b.pm-1 < pw.mirror b.pm
    · rw [if_pos hmirror,bind_apply]
      have hsaved:=saveToStorage_whole cr
        (b:={b with pm:=pw.setRetries (pw.retries b.pm-1) b.pm}) hb.saves
      revert hsaved
      cases saveToStorage cr {b with pm:=pw.setRetries (pw.retries b.pm-1) b.pm} with
      | mk reply b'=>
        intro hsaved
        cases reply with
        | error e=>exact hsaved.lost_stored ((hb.grants.pay hzero).mono (w.le_wrong _ _)) hb.chip
        | ok saved=>
          cases saved with
          | true=>
            refine ⟨hspent,?_,hsaved.live ((pw.pinLoaded_setRetries _ _).trans hb.mirrored.loaded)
              (hb.grants.pay hzero) (hb.grants.wrong_le hb.chip.bound hzero) hb.saves⟩
            exact ((pw.ref_congr hsaved.toPinRecord).trans (pw.ref_setRetries _ _ _)).symm
          | false=>
            cases hsaved with
            | refused hpm hchip hrest=>
              refine hb.congr ?_ hchip fun o ho=>List.mem_of_mem_tail (hrest ▸ ho)
              show pw.setRetries (pw.retries b.pm) b'.pm=b.pm
              rw [hpm,Pw.setRetries_setRetries,Pw.setRetries_retries]
    · rw [if_neg hmirror]
      exact ⟨hspent,(pw.ref_setRetries _ _ _).symm,hb.pay hzero hmirror⟩

theorem Grants.renew {pm : PinManager} (h : Grants w z pm) {pw : Pw} (hpw : ¬z pw) {pm' : PinManager}
    (hfull : pw.retries pm'=maxRetries) (hother : ∀ p≠pw, p.ref pm'=p.ref pm ∧ p.retries pm'=p.retries pm) :
    Grants (w.clear pw (pw.ref pm')) z pm':=by
  refine ⟨fun p=>?_,fun p hz=>?_⟩
  · by_cases hp : p=pw
    · subst hp
      rw [Ledger.clear_self,hfull]
      decide
    · rw [(hother p hp).1,(hother p hp).2]
      have hcount:=h.counted p
      have hle:=w.clear_le pw (pw.ref pm') p (p.ref pm)
      omega
  · have hp : p≠pw:=fun hp=>hpw (hp ▸ hz)
    rw [(hother p hp).2]
    exact h.spent p hz

theorem Live.renew (hb : Live cr l w z b) {pw : Pw} (hpw : ¬z pw) {pm' : PinManager}
    (hfull : pw.retries pm'=maxRetries) (hother : ∀ p≠pw, p.ref pm'=p.ref b.pm ∧ p.retries pm'=p.retries b.pm)
    (hloaded : pm'.pinLoaded=b.pm.pinLoaded) (hmirror : ∀ p : Pw, p.mirror pm'=p.mirror b.pm)
    (salts : List (ByteArr 8)) :
    Live cr l (w.clear pw (pw.ref pm')) z {b with pm:=pm',salts:=salts}:=by
  refine ⟨hb.chip.mono (w.clear_le _ _),hb.grants.renew hpw hfull hother,
    ⟨hloaded.trans hb.mirrored.loaded,fun p=>?_,fun record hr p=>?_,fun hnone p=>?_⟩,hb.saves⟩
  · dsimp only
    rw [hmirror]
    by_cases hp : p=pw
    · subst hp
      have hle:=hb.mirrored.le p
      have hcount:=hb.grants.counted p
      rw [hfull]
      exact (hle.trans (Nat.le_add_left _ _)).trans hcount
    · rw [(hother p hp).2]
      exact hb.mirrored.le p
  · exact (hmirror p).trans (hb.mirrored.stored record hr p)
  · exact (hmirror p).trans (hb.mirrored.empty hnone p)

theorem live_settle (pw : Pw) (ref : Ref) :
    Triple (fun b=>¬z pw ∧ ref=pw.ref b.pm ∧ Live cr l (w.wrong pw ref) z b) (settle cr pw (some (ref,true)))
      (fun _=>Live cr l (w.clear pw ref) z) fun _ b=>Stored cr (w.clear pw ref) z b.chip:=by
  refine Triple.bind (Q:=fun _=>Live cr l (w.clear pw ref) z) (Triple.modify ?_) fun _=>?_
  · rintro b ⟨hpw,rfl,hb⟩
    have h:=hb.renew hpw (pw.retries_setRetries_self maxRetries b.pm)
      (fun p hp=>⟨pw.ref_setRetries _ _ _,pw.retries_setRetries_other _ _ _ hp⟩) (pw.pinLoaded_setRetries _ _)
      (fun p=>pw.mirror_setRetries _ _ _) b.salts
    rwa [Pw.ref_setRetries,Ledger.clear_wrong] at h
  · refine Triple.bind (Q:=fun _=>Live cr l (w.clear pw ref) z) (Triple.gets fun _ h=>h) fun _=>?_
    refine Triple.bind (Q:=fun _=>Live cr l (w.clear pw ref) z) (Triple.when ?_ fun _ _ h=>h) fun _=>
      Triple.pure fun _ h=>h
    exact fun _=>live_saveToStorage

theorem live_storePw (hb : Live cr l w z b) {pw : Pw} (hpw : ¬z pw) {data : Bytes} (hdata : data.length ≤ 64) :
    Triple (fun t=>t=b) (storePw cr pw data) (fun _=>Live cr l (w.clear pw (pw.newRef cr data b)) z)
      fun _ t=>Stored cr (w.clear pw (pw.newRef cr data b)) z t.chip:=by
  intro t ht
  rw [ht]
  have hiter : (pw.setSalt (b.salts.headD (zeros 8)) b.pm).iterations=b.pm.iterations:=by
    cases pw <;> rfl
  have hhash : computeKdfHash cr b.pm.iterations data (b.salts.headD (zeros 8))=some (pw.newRef cr data b).2:=by
    simp [Pw.newRef,computeKdfHash,Nat.not_lt.mpr hdata]
  have hrun : storePw cr pw data b=(saveToStorage cr >>= fun _=>pure true)
      {b with pm:=pw.replace (pw.newRef cr data b) b.pm,salts:=b.salts.tail}:=by
    rw [storePw,bind_apply,generateSalt]
    simp only [updatePm,bind_modify,pmGets,bind_gets,hiter,hhash]
    rfl
  have hfull : pw.retries (pw.replace (pw.newRef cr data b) b.pm)=maxRetries:=by
    cases pw <;> rfl
  have hlive:=hb.renew hpw hfull (fun p hp=>pw.replace_other p b.pm (pw.newRef cr data b) hp)
    (by cases pw <;> rfl) (fun p=>by simp) b.salts.tail
  rw [Pw.ref_replace_self] at hlive
  rw [hrun]
  have hrest : Triple (Live cr l (w.clear pw (pw.newRef cr data b)) z) (saveToStorage cr >>= fun _=>pure true)
      (fun _=>Live cr l (w.clear pw (pw.newRef cr data b)) z)
      fun _ t=>Stored cr (w.clear pw (pw.newRef cr data b)) z t.chip:=
    Triple.bind live_saveToStorage fun _=>Triple.pure fun _ h=>h
  exact hrest _ hlive

theorem live_resetPwRetries (hb : Live cr l w z b) {pw : Pw} (hpw : ¬z pw) :
    Triple (fun t=>t=b) (resetPwRetries cr pw) (fun _=>Live cr l (w.clear pw (pw.ref b.pm)) z)
      fun _ t=>Stored cr (w.clear pw (pw.ref b.pm)) z t.chip:=by
  intro t ht
  rw [ht,resetPwRetries,pmGets,bind_gets]
  refine Triple.when (P:=fun t=>t=b) (fun _=>?_) (fun _ t ht=>?_) b rfl
  swap
  · rw [ht]
    exact hb.mono (w.clear_le _ _)
  refine Triple.bind (Q:=fun _=>Live cr l (w.clear pw (pw.ref b.pm)) z) ?_ fun _=>live_saveToStorage
  intro t ht
  rw [ht]
  have h:=hb.renew hpw (pw.retries_setRetries_self maxRetries b.pm)
    (fun p hp=>⟨pw.ref_setRetries _ _ _,pw.retries_setRetries_other _ _ _ hp⟩) (pw.pinLoaded_setRetries _ _)
    (fun p=>pw.mirror_setRetries _ _ _) b.salts
  rwa [Pw.ref_setRetries] at h

theorem Live.start (hb : Live cr l w z b) :
    Live cr true w z { b with pm:={ b.pm with
      pinLoaded:=true
      badgeRetries:=if b.pm.badgeLockoutCount≠0 then 0 else 1
      lockoutStartMs:=UInt32.ofNat b.now
      lockoutActive:=true } }:=by
  refine ⟨hb.chip,hb.grants.congr rfl,⟨rfl,fun p=>?_,fun record hr p=>?_,fun hnone p=>?_⟩,hb.saves⟩
  · cases p
    · exact hb.mirrored.le .pw1
    · exact hb.mirrored.le .pw3
  · rw [← hb.mirrored.stored record hr p]
    cases p <;> rfl
  · rw [← hb.mirrored.empty hnone p]
    cases p <;> rfl

theorem Stored.load {b b' : Badge} {pm : PinManager} {record : Bytes} (h : Stored cr w z b.chip)
    (hslot : b.chip.rmem rmemSlotPin=some record) (hpm : b'.pm=pm.load cr (parsePayload record))
    (hchip : b'.chip=b.chip) (hsaves : ∀ o∈b'.saves, o.whole=true) : Live cr pm.pinLoaded w z b':=by
  have hretries : ∀ p : Pw, p.retries b'.pm=p.retries (onChip record):=fun p=>p.retries_congr (by rw [hpm]; rfl)
  have hmirror : ∀ p : Pw, p.mirror b'.pm=p.retries (onChip record):=by
    intro p
    rw [hpm]
    cases p <;> rfl
  refine ⟨hchip ▸ h,(h.grants record hslot).congr (by rw [hpm]; rfl),⟨by rw [hpm]; rfl,fun p=>?_,?_,?_⟩,hsaves⟩
  · rw [hmirror,hretries]
  · intro r hr p
    obtain rfl : record=r:=by simpa [hchip,hslot] using hr
    exact hmirror p
  · intro hnone
    simp [hchip,hslot] at hnone

theorem Stored.defaults {b b' : Badge} (h : Stored cr w z b.chip) (hslot : b.chip.rmem rmemSlotPin=none)
    (hpm : b'.pm={({} : PinManager) with storageUnreadable:=false}) (hchip : b'.chip=b.chip)
    (hsaves : ∀ o∈b'.saves, o.whole=true) :
    Live cr false ((w.clear .pw1 (Pw.pw1.ref (loadDefaults cr b').2.pm)).clear .pw3 (Pw.pw3.ref (loadDefaults cr b').2.pm))
      z (loadDefaults cr b').2:=by
  have hle : ∀ p r, (w.clear .pw1 (Pw.pw1.ref (loadDefaults cr b').2.pm)).clear .pw3
      (Pw.pw3.ref (loadDefaults cr b').2.pm) p r ≤ w p r:=
    fun p r=>(Ledger.clear_le _ _ _ _ _).trans (Ledger.clear_le _ _ _ _ _)
  have hfull : ∀ p : Pw, p.retries (loadDefaults cr b').2.pm=maxRetries:=by
    intro p
    cases p <;> rfl
  have hmirror : ∀ p : Pw, p.mirror (loadDefaults cr b').2.pm=maxRetries:=by
    intro p
    cases p
    · exact congrArg PinManager.persistedPw1Retries hpm
    · exact congrArg PinManager.persistedPw3Retries hpm
  have hnone : b'.chip.rmem rmemSlotPin=none:=hchip ▸ hslot
  refine ⟨(hchip ▸ h : Stored cr w z b'.chip).mono hle,⟨fun p=>?_,fun p hz=>absurd hz (h.spent hslot p)⟩,
    ⟨congrArg PinManager.pinLoaded hpm,fun p=>?_,fun record hr=>?_,fun _=>hmirror⟩,hsaves⟩
  · rw [hfull]
    cases p
    · have hzero:=Ledger.clear_self w .pw1 (Pw.pw1.ref (loadDefaults cr b').2.pm)
      have hother:=Ledger.clear_le (w.clear .pw1 (Pw.pw1.ref (loadDefaults cr b').2.pm)) .pw3
        (Pw.pw3.ref (loadDefaults cr b').2.pm) .pw1 (Pw.pw1.ref (loadDefaults cr b').2.pm)
      rw [hzero] at hother
      exact Nat.add_le_add_right hother 3
    · rw [Ledger.clear_self]
      decide
  · rw [hmirror,hfull]
  · exact absurd (hr.symm.trans hnone) (by simp)

/-- Power-on: the record is loaded, or the defaults are saved where there is none. -/
theorem live_init (hpm : b.pm={}) (hload : (b.loads.headD {}).finds=true) (hb : Stored cr w z b.chip)
    (hsaves : ∀ o∈b.saves, o.whole=true) :
    Triple (fun t=>t=b) (init cr) (fun _=>Live cr true (w.boot cr b) z)
      fun _ t=>Stored cr (w.boot cr b) z t.chip:=by
  intro t ht
  have hfound:=loadFromStorage_finds hload hb.valid
  have hunloaded : b.pm.pinLoaded=false:=by rw [hpm]
  have hstart : ∀ w', Triple (Live cr false w' z) (do
      updatePm fun pm=>{ pm with
        pinLoaded:=true,badgeRetries:=if pm.badgeLockoutCount≠0 then 0 else 1 }
      startLockout
      pure true) (fun _=>Live cr true w' z) fun _ t=>Stored cr w' z t.chip:=
    fun _ _ h=>h.start
  rw [ht,init,pmGets,bind_gets,hunloaded,Ledger.boot,hunloaded,if_neg (by simp),if_neg (by simp)]
  cases hl : loadFromStorage cr b with
  | mk reply b'=>
    rw [hl] at hfound
    rw [bind_apply,hl]
    cases hfound with
    | lost hchip=>
      show Stored cr w z b'.chip
      rw [hchip]
      exact hb
    | record hslot hload hchip hrest=>
      have hlive:=hb.load hslot hload hchip (hrest ▸ hsaves)
      rw [hpm] at hlive
      exact hstart w b' hlive
    | empty hslot hempty hchip hrest=>
      have hlive:=hb.defaults hslot (hempty.trans (by rw [hpm])) hchip (hrest ▸ hsaves)
      have hreadable : b'.pm.storageUnreadable=false:=by rw [hempty]
      dsimp only
      rw [pmGets,bind_gets,hreadable,if_neg (by simp),if_neg (by simp)]
      refine Triple.bind (P:=fun t=>t=b') (Q:=fun _=>Live cr false _ z) ?_ (fun _=>hstart _) b' rfl
      refine Triple.when (fun _=>?_) fun h=>absurd rfl h
      refine Triple.bind (Q:=fun _=>Live cr false _ z) ?_ fun _=>live_saveToStorage
      intro t ht
      rw [ht]
      exact hlive

/-- Between operations: the manager is as after power-on, or it is loaded and grants no more than is left. -/
structure Kept (cr : Crypto) (w : Ledger) (z : Pw→Prop) (b : Badge) : Prop where
  chip : Stored cr w z b.chip
  manager : b.pm={} ∨ Grants w z b.pm ∧ Mirrored true b

/-- The load of an operation that needs one finds the record, and a new reference is set only once a record has
been loaded. -/
structure Regular (b : Badge) (i : PinInput) : Prop where
  load : i.op.loads=true→b.pm.pinLoaded=false→(i.loads.headD {}).finds=true
  set : i.op.newValue≠none→b.pm.pinLoaded=true

theorem Live.kept (h : Live cr true w z b) : Kept cr w z b:=⟨h.chip,.inr ⟨h.grants,h.mirrored⟩⟩

theorem Kept.live (h : Kept cr w z b) (hloaded : b.pm.pinLoaded=true)
    (hwhole : ∀ o∈i.saves, o.whole=true) : Live cr true w z (b.given i):=by
  rcases h.manager with hpm | ⟨hgrants,hmirrored⟩
  · simp [hpm] at hloaded
  · exact ⟨h.chip,hgrants,⟨hmirrored.loaded,hmirrored.le,hmirrored.stored,hmirrored.empty⟩,hwhole⟩

theorem kept_step {w' : Ledger}
    (h : Triple (fun t=>t=b.given i) (i.op.run cr) (fun _=>Kept cr w' z) fun _ t=>Stored cr w' z t.chip) :
    Kept cr w' z (step cr b i):=by
  have hrun:=h (b.given i) rfl
  unfold step respond
  revert hrun
  cases i.op.run cr (b.given i) with
  | mk reply b'=>
    intro hrun
    cases reply with
    | ok answer=>exact hrun
    | error e=>exact ⟨hrun,.inl rfl⟩

theorem live_init_given (hb : Kept cr w z b) (hwhole : ∀ o∈i.saves, o.whole=true)
    (hload : b.pm.pinLoaded=false→(i.loads.headD {}).finds=true) :
    Triple (fun t=>t=b.given i) (init cr) (fun _=>Live cr true (w.boot cr (b.given i)) z)
      fun _ t=>Stored cr (w.boot cr (b.given i)) z t.chip:=by
  cases hloaded : b.pm.pinLoaded with
  | true=>
    intro t ht
    have hgiven : (b.given i).pm.pinLoaded=true:=hloaded
    rw [ht,init,pmGets,bind_gets,hgiven,Ledger.boot,hgiven,if_pos rfl,if_pos rfl]
    exact hb.live hloaded hwhole
  | false=>
    have hpm : b.pm={}:=hb.manager.resolve_right fun h=>by simp [h.2.loaded] at hloaded
    exact live_init (b:=b.given i) hpm (hload hloaded) hb.chip hwhole

theorem live_ensureInit (hb : Kept cr w z b) (hwhole : ∀ o∈i.saves, o.whole=true)
    (hload : b.pm.pinLoaded=false→(i.loads.headD {}).finds=true) :
    Triple (fun t=>t=b.given i) (ensureInit cr) (fun _=>Live cr true (w.boot cr (b.given i)) z)
      fun _ t=>Stored cr (w.boot cr (b.given i)) z t.chip:=by
  cases hloaded : b.pm.pinLoaded with
  | true=>
    intro t ht
    have hgiven : (b.given i).pm.pinLoaded=true:=hloaded
    rw [ht,ensureInit_loaded hgiven,Ledger.boot,hgiven,if_pos rfl]
    exact hb.live hloaded hwhole
  | false=>
    intro t ht
    have hgiven : (b.given i).pm.pinLoaded=false:=hloaded
    have hinit:=live_init_given hb hwhole hload
    rw [ht,ensureInit,pmGets,bind_gets,hgiven]
    exact Triple.when (P:=fun t=>t=b.given i) (fun _=>hinit) (fun h=>absurd rfl h) (b.given i) rfl

/-- The start of a verification, with or without the check of `verifyPin` before that of `verifyPinRaw`. -/
inductive Reaches (cr : Crypto) (pw : Pw) : PinM (Option (Ref × Bool))→Prop
  | raw (data : Bytes) : Reaches cr pw (reachComparison cr pw data)
  | text (data : Bytes) : Reaches cr pw (do ensureInit cr; reachComparison cr pw data)

theorem live_reaches (hb : Kept cr w z b) (hwhole : ∀ o∈i.saves, o.whole=true)
    (hload : b.pm.pinLoaded=false→(i.loads.headD {}).finds=true) {pw : Pw} {m : PinM (Option (Ref × Bool))}
    (hm : Reaches cr pw m) :
    Triple (fun t=>t=b.given i) m
      (fun c t=>match c with
        | none=>Live cr true (w.boot cr (b.given i)) z t
        | some (ref,_)=>¬z pw ∧ ref=pw.ref t.pm ∧ Live cr true ((w.boot cr (b.given i)).wrong pw ref) z t)
      fun _ t=>Stored cr (w.boot cr (b.given i)) z t.chip:=by
  have htext:=fun data=>Triple.bind (live_ensureInit hb hwhole hload) fun _=>
    live_reachComparison (w:=w.boot cr (b.given i)) (z:=z) pw data
  cases hm with
  | text data=>exact htext data
  | raw data=>
    -- The second check finds a loaded manager and does nothing.
    have hsame : (ensureInit cr >>= fun _=>reachComparison cr pw data) (b.given i) =
        reachComparison cr pw data (b.given i):=by
      have hensure:=live_ensureInit hb hwhole hload (b.given i) rfl
      rw [bind_apply,reachComparison,bind_apply]
      revert hensure
      cases ensureInit cr (b.given i) with
      | mk reply b'=>
        intro hensure
        cases reply with
        | error e=>rfl
        | ok u=>exact bind_of_ok (ensureInit_loaded hensure.mirrored.loaded)
    intro t ht
    have h:=htext data t ht
    rw [ht] at h ⊢
    rwa [hsame] at h

/-- A verification compares only a slot that is not spent, and leaves what is left. -/
theorem kept_verify (hb : Kept cr w z b) (hwhole : ∀ o∈i.saves, o.whole=true)
    (hload : b.pm.pinLoaded=false→(i.loads.headD {}).finds=true) {pw : Pw} {m : PinM (Option (Ref × Bool))}
    (hm : Reaches cr pw m) (hrun : i.op.run cr=m >>= settle cr pw)
    (hcompared : compared cr b i=outcome m pw (b.given i)) (hop : i.op.loads=true) (hrenewed : renewed cr b i=none) :
    Kept cr (track cr w b i) z (step cr b i) ∧ ∀ p c, compared cr b i=some (p,c)→¬z p:=by
  have hreach:=live_reaches hb hwhole hload hm (b.given i) rfl
  have hsteps : ∀ {w' : Ledger}, Triple (fun t=>t=b.given i) (m >>= settle cr pw) (fun _=>Kept cr w' z)
      (fun _ t=>Stored cr w' z t.chip)→Kept cr w' z (step cr b i):=fun h=>kept_step (hrun ▸ h)
  rw [hcompared,track,hop,hrenewed,hcompared]
  simp only [if_true,outcome]
  cases hend : m (b.given i) with
  | mk reply b'=>
    rw [hend] at hreach
    cases reply with
    | error e=>
      refine ⟨hsteps ?_,fun p c h=>absurd h (by simp)⟩
      rintro _ rfl
      rw [bind_of_error hend]
      exact hreach
    | ok c=>
      cases c with
      | none=>
        refine ⟨hsteps ?_,fun p c h=>absurd h (by simp)⟩
        rintro _ rfl
        rw [bind_of_ok hend]
        exact hreach.kept
      | some c=>
        obtain ⟨ref,right⟩:=c
        refine ⟨?_,fun p c h=>by simp only [Option.some.injEq,Prod.mk.injEq] at h; exact h.1 ▸ hreach.1⟩
        cases right with
        | false=>
          refine hsteps ?_
          rintro _ rfl
          rw [bind_of_ok hend]
          exact hreach.2.2.kept
        | true=>
          refine hsteps ?_
          rintro _ rfl
          rw [bind_of_ok hend]
          exact Triple.conseq (live_settle pw ref) (fun _ h=>h) (fun _ _ h=>h.kept) (fun _ _ h=>h) b' hreach

/-- PW1 and PW3 verifications, sets and admin resets, with `init`, passing time and power cycles between them. -/
def PinOp.ofPw : PinOp→Bool
  | .init | .wait _ | .powerCycle | .verifyPW1 _ | .verifyPW1Raw _ | .setPW1 _ | .setPW1Raw _ | .resetPW1Retries
  | .verifyPW3 _ | .verifyPW3Raw _ | .setPW3 _ | .setPW3Raw _ | .resetPW3Retries=>true
  | _=>false

/-- An operation that compares nothing and renews nothing, and leaves the manager alone. -/
theorem kept_idle (hb : Kept cr w z b) (hop : i.op.loads=false)
    (hrenewed : renewed cr b i=none) (hcompared : compared cr b i=none)
    (hrun : Triple (fun t=>t=b.given i) (i.op.run cr) (fun _ t=>t.chip=b.chip ∧ t.pm=b.pm)
      fun _ t=>t.chip=b.chip) : Kept cr (track cr w b i) z (step cr b i):=by
  have htrack : track cr w b i=w:=by
    simp [track,hop,hrenewed,hcompared]
  rw [htrack]
  refine kept_step (Triple.conseq hrun (fun _ h=>h) (fun _ t h=>?_) fun _ t h=>h ▸ hb.chip)
  refine ⟨h.1 ▸ hb.chip,hb.manager.imp (fun hpm=>h.2.trans hpm) fun hm=>⟨h.2 ▸ hm.1,?_⟩⟩
  refine ⟨h.2 ▸ hm.2.loaded,?_,?_,?_⟩
  · rw [h.2]; exact hm.2.le
  · rw [h.1,h.2]; exact hm.2.stored
  · rw [h.1,h.2]; exact hm.2.empty

theorem kept_set (hb : Kept cr w z b) (hwhole : ∀ o∈i.saves, o.whole=true)
    (hloaded : i.op.newValue≠none→b.pm.pinLoaded=true)
    (hspent : ∀ pw ref, renewed cr b i=some (pw,ref)→¬z pw)
    (hrun : i.op.run cr=match i.op.newValue with
      | some (pw,data)=>storePw cr pw data
      | none=>pure false)
    (hdata : ∀ pw data, i.op.newValue=some (pw,data)→data.length ≤ 64) (hreset : i.op.resetSlot=none)
    (hop : i.op.loads=false) (hcompared : compared cr b i=none) : Kept cr (track cr w b i) z (step cr b i):=by
  cases hnew : i.op.newValue with
  | none=>
    refine kept_idle hb hop (by simp [renewed,hnew,hreset]) hcompared ?_
    rintro _ rfl
    rw [hrun,hnew]
    exact ⟨rfl,rfl⟩
  | some new=>
    obtain ⟨pw,data⟩:=new
    have htrack : track cr w b i=w.clear pw (pw.newRef cr data (b.given i)):=by
      simp [track,hop,renewed,hnew,hcompared]
    have hlive:=live_storePw (hb.live (hloaded (by simp [hnew])) hwhole)
      (hspent pw (pw.newRef cr data (b.given i)) (by rw [renewed,hnew])) (hdata pw data hnew)
    rw [htrack]
    refine kept_step ?_
    rw [hrun,hnew]
    exact Triple.conseq hlive (fun _ h=>h) (fun _ _ h=>h.kept) fun _ _ h=>h

theorem kept_reset (hb : Kept cr w z b) (hwhole : ∀ o∈i.saves, o.whole=true) {pw : Pw}
    (hreset : i.op.resetSlot=some pw) (hnew : i.op.newValue=none) (hpw : ¬z pw)
    (hrun : i.op.run cr=do resetPwRetries cr pw; pure true) (hop : i.op.loads=false)
    (hcompared : compared cr b i=none) : Kept cr (track cr w b i) z (step cr b i):=by
  have htrack : track cr w b i=w.clear pw (pw.ref b.pm):=by
    simp [track,hop,renewed,hnew,hreset,hcompared]
  rw [htrack]
  refine kept_step (hrun ▸ ?_)
  refine Triple.bind (Q:=fun _=>Kept cr (w.clear pw (pw.ref b.pm)) z) ?_ fun _=>Triple.pure fun _ h=>h
  rcases hb.manager with hpm | ⟨hgrants,hmirrored⟩
  · -- The counters of a manager that has loaded nothing are full.
    have hfull : ¬pw.retries (b.given i).pm < maxRetries:=by
      rw [show (b.given i).pm={} from hpm]
      cases pw <;> decide
    rintro _ rfl
    rw [resetPwRetries,pmGets,bind_gets]
    refine Triple.when (P:=fun t=>t=b.given i) (fun h=>absurd h hfull) (fun _ t ht=>?_) (b.given i) rfl
    rw [ht]
    exact ⟨hb.chip.mono (w.clear_le _ _),.inl hpm⟩
  · exact Triple.conseq (live_resetPwRetries (hb.live hmirrored.loaded hwhole) hpw) (fun _ h=>h)
      (fun _ _ h=>h.kept) fun _ _ h=>h

theorem accept_length {pw p : Pw} {minLen : ℕ} {data d : Bytes} (h : PinOp.newValue.accept pw minLen data=some (p,d)) :
    d.length ≤ 64:=by
  unfold PinOp.newValue.accept pinMax at h
  split at h
  · cases h
  · cases h
    omega

theorem acceptRaw_length {pw p : Pw} {data d : Bytes} (h : PinOp.newValue.acceptRaw pw data=some (p,d)) :
    d.length ≤ 64:=by
  unfold PinOp.newValue.acceptRaw at h
  split at h
  · cases h
  · cases h
    omega

theorem setPw_eq (pw : Pw) (minLen : ℕ) (newPin : Bytes) :
    setPw cr pw minLen newPin=match PinOp.newValue.accept pw minLen (cstr newPin) with
      | some (p,d)=>storePw cr p d
      | none=>pure false:=by
  dsimp only [setPw,PinOp.newValue.accept]
  by_cases h : (cstr newPin).length < minLen ∨ pinMax < (cstr newPin).length
  · rw [if_pos h,if_pos h]
  · rw [if_neg h,if_neg h]

theorem setPwRaw_eq (pw : Pw) (data : Bytes) :
    setPwRaw cr pw data=match PinOp.newValue.acceptRaw pw data with
      | some (p,d)=>storePw cr p d
      | none=>pure false:=by
  dsimp only [setPwRaw,PinOp.newValue.acceptRaw]
  by_cases h : data.length≠32 ∧ data.length≠64
  · rw [if_pos h,if_pos h]
  · rw [if_neg h,if_neg h]

theorem verifyPw_eq (pw : Pw) (pin : Bytes) :
    verifyPw cr pw pin=(do ensureInit cr; reachComparison cr pw (cstr pin)) >>= settle cr pw:=by
  rw [verifyPw,bind_assoc]
  simp only [verifyPinRaw_eq]

theorem kept_op (hop : i.op.ofPw=true) (hwhole : ∀ o∈i.saves, o.whole=true)
    (hregular : Regular b i) (hspent : ∀ pw ref, renewed cr b i=some (pw,ref)→¬z pw) (hb : Kept cr w z b) :
    Kept cr (track cr w b i) z (step cr b i) ∧ ∀ p c, compared cr b i=some (p,c)→¬z p:=by
  obtain ⟨op,loads,saves,salts⟩:=i
  cases op with
  | verifyPW1 pin=>
    exact kept_verify hb hwhole (hregular.load rfl) (.text (cstr pin)) (verifyPw_eq .pw1 pin) rfl rfl rfl
  | verifyPW3 pin=>
    exact kept_verify hb hwhole (hregular.load rfl) (.text (cstr pin)) (verifyPw_eq .pw3 pin) rfl rfl rfl
  | verifyPW1Raw data=>
    exact kept_verify hb hwhole (hregular.load rfl) (.raw data) (verifyPinRaw_eq cr .pw1 data) rfl rfl rfl
  | verifyPW3Raw data=>
    exact kept_verify hb hwhole (hregular.load rfl) (.raw data) (verifyPinRaw_eq cr .pw3 data) rfl rfl rfl
  | setPW1 newPin=>
    exact ⟨kept_set hb hwhole hregular.set hspent (setPw_eq _ _ _) (fun _ _=>accept_length) rfl rfl rfl,
      fun _ _ h=>by simp [compared] at h⟩
  | setPW3 newPin=>
    exact ⟨kept_set hb hwhole hregular.set hspent (setPw_eq _ _ _) (fun _ _=>accept_length) rfl rfl rfl,
      fun _ _ h=>by simp [compared] at h⟩
  | setPW1Raw data=>
    exact ⟨kept_set hb hwhole hregular.set hspent (setPwRaw_eq _ _) (fun _ _=>acceptRaw_length) rfl rfl rfl,
      fun _ _ h=>by simp [compared] at h⟩
  | setPW3Raw data=>
    exact ⟨kept_set hb hwhole hregular.set hspent (setPwRaw_eq _ _) (fun _ _=>acceptRaw_length) rfl rfl rfl,
      fun _ _ h=>by simp [compared] at h⟩
  | resetPW1Retries=>
    exact ⟨kept_reset hb hwhole rfl rfl (hspent .pw1 _ rfl) rfl rfl rfl,fun _ _ h=>by simp [compared] at h⟩
  | resetPW3Retries=>
    exact ⟨kept_reset hb hwhole rfl rfl (hspent .pw3 _ rfl) rfl rfl rfl,fun _ _ h=>by simp [compared] at h⟩
  | wait ms=>
    refine ⟨kept_idle hb rfl rfl rfl ?_,fun _ _ h=>by simp [compared] at h⟩
    rintro _ rfl
    exact ⟨rfl,rfl⟩
  | powerCycle=>
    refine ⟨kept_idle hb rfl rfl rfl ?_,fun _ _ h=>by simp [compared] at h⟩
    rintro _ rfl
    rfl
  | init=>
    refine ⟨?_,fun _ _ h=>by simp [compared] at h⟩
    exact kept_step (Triple.conseq (live_init_given hb hwhole (hregular.load rfl)) (fun _ h=>h)
      (fun _ _ h=>h.kept) fun _ _ h=>h)
  | _=>simp [PinOp.ofPw] at hop

theorem kept_run {is : List PinInput} (hops : ∀ i∈is, i.op.ofPw=true)
    (hwhole : ∀ i∈is, ∀ o∈i.saves, o.whole=true) (hregular : AlongRun (step cr) Regular b is)
    (hspent : AlongRun (step cr) (fun b i=>∀ pw ref, renewed cr b i=some (pw,ref)→¬z pw) b is)
    (hb : Kept cr w z b) :
    Kept cr (ledger cr w b is) z (run (step cr) b is) ∧
      AlongRun (step cr) (fun b i=>∀ p c, compared cr b i=some (p,c)→¬z p) b is:=by
  induction is generalizing w b with
  | nil=>exact ⟨hb,trivial⟩
  | cons i is ih=>
    obtain ⟨hstep,hcompared⟩:=kept_op (hops i (by simp)) (hwhole i (by simp)) hregular.1 hspent.1 hb
    obtain ⟨hrun,hrest⟩:=ih (fun j hj=>hops j (by simp [hj])) (fun j hj=>hwhole j (by simp [hj])) hregular.2
      hspent.2 hstep
    exact ⟨hrun,hcompared,hrest⟩

/-- The slot grants no more guesses: its counter is zero, in the manager or in the record waiting for power-on. -/
def CounterZero (pw : Pw) (b : Badge) : Prop:=
  if b.pm.pinLoaded then pw.retries b.pm=0
  else ∃ record, b.chip.rmem rmemSlotPin=some record ∧ pw.retries (onChip record)=0

theorem Kept.spend (hb : Kept cr w (fun _=>False) b) {pw : Pw} (hzero : CounterZero pw b) :
    Kept cr w (fun p=>p=pw) b:=by
  unfold CounterZero at hzero
  rcases hb.manager with hpm | ⟨hgrants,hmirrored⟩
  · rw [hpm,if_neg (by simp)] at hzero
    obtain ⟨record,hslot,hretries⟩:=hzero
    refine ⟨⟨hb.chip.valid,fun r hr=>⟨(hb.chip.grants r hr).counted,?_⟩,hb.chip.bound,?_⟩,.inl hpm⟩
    · rintro _ rfl
      obtain rfl : record=r:=by simpa [hslot] using hr
      exact hretries
    · intro hnone
      simp [hslot] at hnone
  · rw [hmirrored.loaded,if_pos rfl] at hzero
    have hmirror : pw.mirror b.pm=0:=by
      have hle:=hmirrored.le pw
      rw [hzero] at hle
      exact UInt8.toNat_inj.mp (Nat.le_zero.mp hle)
    refine ⟨⟨hb.chip.valid,fun r hr=>⟨(hb.chip.grants r hr).counted,?_⟩,hb.chip.bound,?_⟩,
      .inr ⟨⟨hgrants.counted,?_⟩,hmirrored⟩⟩
    · rintro _ rfl
      rw [← hmirrored.stored r hr,hmirror]
    · intro hnone
      exact absurd (hmirror.symm.trans (hmirrored.empty hnone pw)) (by decide)
    · rintro _ rfl
      exact hzero

/-- No reference is compared with more than three wrong candidates between renewals, and a slot whose counter is
zero is compared with none until a set or an admin reset. -/
structure GuessesBounded (cr : Crypto) (b : Badge) (is : List PinInput) : Prop where
  bound : ∀ pw ref, ledger cr (fun _ _=>0) b is pw ref ≤ maxRetries.toNat
  blocked : ∀ pw front back, is=front++back → CounterZero pw (run (step cr) b front) →
    AlongRun (step cr) (fun b i=>∀ ref, renewed cr b i≠some (pw,ref)) (run (step cr) b front) back →
    AlongRun (step cr) (fun b i=>∀ c, compared cr b i≠some (pw,c)) (run (step cr) b front) back

/-- A badge at power-on, with a valid record of at most three guesses or none. -/
structure AtPowerOn (cr : Crypto) (b : Badge) : Prop where
  pm : b.pm={}
  record : ∀ record, b.chip.rmem rmemSlotPin=some record→ValidRecord cr b.chip record ∧
    ∀ pw : Pw, pw.retries (onChip record) ≤ maxRetries

theorem AtPowerOn.kept (h : AtPowerOn cr b) : Kept cr (fun _ _=>0) (fun _=>False) b where
  chip:={
    valid record hr:=(h.record record hr).1
    grants record hr:=by
      refine ⟨fun pw=>?_,fun _ hz=>hz.elim⟩
      rw [Nat.zero_add]
      exact UInt8.le_iff_toNat_le.mp ((h.record record hr).2 pw)
    bound _ _:=by simp
    spent _ _:=id }
  manager:=.inl h.pm

/-- The guess bound, for regular runs in which every save is all-or-nothing. -/
theorem guesses_bounded (cr : Crypto) {b : Badge} (hb : AtPowerOn cr b) (is : List PinInput)
    (hops : ∀ i∈is, i.op.ofPw=true) (hwhole : ∀ i∈is, ∀ o∈i.saves, o.whole=true)
    (hregular : AlongRun (step cr) Regular b is) : GuessesBounded cr b is:=by
  have hfree : ∀ b is, AlongRun (step cr) (fun b i=>∀ pw ref, renewed cr b i=some (pw,ref)→¬False) b is:=
    fun b is=>(alongRun_true b is).mono fun _ _ _ _ _ _=>id
  refine ⟨fun pw ref=>(kept_run hops hwhole hregular (hfree b is) hb.kept).1.chip.bound pw ref,?_⟩
  rintro pw front back rfl hzero hrenewed
  obtain ⟨hfront,hback⟩:=alongRun_append.mp hregular
  have hkept:=(kept_run (fun i hi=>hops i (by simp [hi])) (fun i hi=>hwhole i (by simp [hi])) hfront
    (hfree b front) hb.kept).1
  have hspent:=hrenewed.mono (Q:=fun b i=>∀ p ref, renewed cr b i=some (p,ref)→¬p=pw)
    fun b i h p ref hp hpw=>h ref (hpw ▸ hp)
  have hcompared:=(kept_run (fun i hi=>hops i (by simp [hi])) (fun i hi=>hwhole i (by simp [hi])) hback hspent
    (hkept.spend hzero)).2
  exact hcompared.mono fun b i h c hc=>h pw c hc rfl

/-- Power is lost before a wrong PW1 is compared and after it is paid for, then PW1 is compared and set, and the
counter of PW3 is filled up. -/
def regularGuesses : List PinInput:=
  [{op:=.verifyPW1Raw [0x39],saves:=[{erase:=.powerLost false}]},
    {op:=.verifyPW1Raw [0x39],saves:=[{write:=.powerLost true}]},
    {op:=.verifyPW1Raw [0x39],saves:=[{sign:=.failed .error false}]},
    {op:=.verifyPW1Raw [0x39]},
    {op:=.setPW1Raw (List.replicate 32 0x31),saves:=[{session:=false}]},
    {op:=.resetPW3Retries}]

theorem guesses_bounded_regular :
    GuessesBounded Crypto.plain (provisioned (some (signedRecord oneByteRecord))) regularGuesses:=by
  refine guesses_bounded Crypto.plain ⟨rfl,fun record hr=>?_⟩ regularGuesses (by decide) (by decide)
    ⟨⟨fun _ _=>rfl,fun h=>absurd rfl h⟩,⟨fun _ _=>rfl,fun h=>absurd rfl h⟩,
      ⟨fun _ _=>rfl,fun h=>absurd rfl h⟩,⟨fun _ _=>rfl,fun h=>absurd rfl h⟩,
      ⟨fun h=>by simp [PinOp.loads] at h,fun _=>by decide +kernel⟩,
      ⟨fun h=>by simp [PinOp.loads] at h,fun h=>absurd rfl h⟩,trivial⟩
  obtain rfl : signedRecord oneByteRecord=record:=by simpa [provisioned] using hr
  exact ⟨validRecord_provisioned oneByteRecord,fun pw=>by cases pw <;> decide +kernel⟩

def blockedRecord : PinRecord:={oneByteRecord with pw1Retries:=0}

/-- A load that fails leaves the counters that the manager has after power-on, and PW1 is compared though the record
blocks it. -/
theorem guesses_unbounded_failedRead : ¬ ∀ (cr : Crypto) (b : Badge) (is : List PinInput), AtPowerOn cr b →
    (∀ i∈is, i.op.ofPw=true)→(∀ i∈is, ∀ o∈i.saves, o.whole=true)→GuessesBounded cr b is:=by
  intro h
  have hb : AtPowerOn Crypto.plain (provisioned (some (signedRecord blockedRecord))):=by
    refine ⟨rfl,fun record hr=>?_⟩
    obtain rfl : signedRecord blockedRecord=record:=by simpa [provisioned] using hr
    exact ⟨validRecord_provisioned blockedRecord,fun pw=>by cases pw <;> decide +kernel⟩
  have hzero : CounterZero .pw1 (provisioned (some (signedRecord blockedRecord))):=
    ⟨signedRecord blockedRecord,rfl,by decide +kernel⟩
  have hcompared:=((h Crypto.plain _ [{op:=.verifyPW1Raw [0x39],loads:=[unreadableLoad]}] hb (by decide)
    (by decide)).blocked .pw1 [] _ rfl hzero ⟨fun ref=>by simp [renewed,PinOp.newValue,PinOp.resetSlot],trivial⟩).1
  have hreached : (compared Crypto.plain (provisioned (some (signedRecord blockedRecord)))
      {op:=.verifyPW1Raw [0x39],loads:=[unreadableLoad]}).map Prod.fst=some .pw1:=by
    decide +kernel
  obtain ⟨⟨pw,c⟩,hc,rfl⟩:=Option.map_eq_some_iff.mp hreached
  exact hcompared c hc

end CdcBadge.Pin
