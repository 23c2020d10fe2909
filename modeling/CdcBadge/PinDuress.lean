import CdcBadge.PinThrottle

/-!
# The duress PIN and the badge PIN

What the two PINs are is said by the answers to the operations that set them. The manager
holds the hashes of these PINs and so does the record on the chip, and the two differ.
-/

namespace CdcBadge.Pin

open Handler Runs

/-- The badge PIN and the duress PIN, if one is armed. -/
structure Pins where
  badge : Bytes:=defaultBadgePin
  duress : Option Bytes:=none

def Pins.after (p : Pins) (answer : Bool) : PinOp→Pins
  | .setBadgePin newPin | .changeBadgePin _ newPin=>if answer then {p with badge:=cstr newPin} else p
  | .setDuressPin pin=>if answer then {p with duress:=some (cstr pin)} else p
  | .clearDuressPin=>if answer then {p with duress:=none} else p
  | _=>p

/-- The part of a record that has to do with the two PINs. -/
structure Secrets where
  badgeHash : ByteArr 16
  iterations : UInt32
  duressSet : Bool
  duressSalt : ByteArr 8
  duressHash : ByteArr 32

def PinRecord.secrets (r : PinRecord) : Secrets:=
  ⟨r.badgeHash,r.iterations,r.duressSet,r.duressSalt,r.duressHash⟩

section Duress

variable (cr : Crypto)

def Secrets.takes (x : Secrets) (pin : Bytes) : Bool:=
  x.duressSet && badgePinMin ≤ (cstr pin).length && (cstr pin).length ≤ badgePinMax &&
    match computeKdfHash cr x.iterations (cstr pin) x.duressSalt with
    | none=>false
    | some hash=>compareHash x.duressHash hash

theorem isDuressPin_eq (pm : PinManager) (pin : Bytes) : isDuressPin cr pm pin=pm.secrets.takes cr pin:=rfl

/-- The hashes are those of the PINs. -/
structure Pins.Hashed (p : Pins) (x : Secrets) : Prop where
  badge : x.badgeHash=computeBadgeHash cr p.badge
  armed : x.duressSet=p.duress.isSome
  duress : ∀ q∈p.duress, computeKdfHash cr x.iterations q x.duressSalt=some x.duressHash

def boot (b : Badge) (i : PinInput) : Badge:=step cr b.reboot {i with op:=.init}

/-- An operation; or the record is wiped, as for self-destruction, and the badge starts again. -/
inductive DuressEvent
  | op (i : PinInput)
  | wipe (i : PinInput)

def DuressEvent.input : DuressEvent→PinInput
  | .op i | .wipe i=>i

def follow (s : Badge × Pins) : DuressEvent→Badge × Pins
  | .op i=>
    match respond cr s.1 i with
    | (some answer,b)=>(b,s.2.after answer i.op)
    | (none,b)=>(step cr b {i with op:=.init},s.2)
  | .wipe i=>(boot cr {s.1 with chip:=(Chip.rmemErase rmemSlotPin s.1.chip).2} i,{})

def IsPin (pin : Bytes) : Prop:=cstr pin=pin ∧ badgePinMin ≤ pin.length ∧ pin.length ≤ badgePinMax

/-- No two PINs have the same hash, be it of the badge PIN or of the duress PIN. -/
structure CollisionFree (pm : PinManager) : Prop where
  badge : ∀ x y, IsPin x → IsPin y → computeBadgeHash cr x=computeBadgeHash cr y→x=y
  duress : ∀ x y, IsPin x → IsPin y →
    computeKdfHash cr pm.iterations x pm.duressSalt=computeKdfHash cr pm.iterations y pm.duressSalt→x=y

/-- The PINs are as the answers said, before and after power comes back; they differ; and no text is taken for both. -/
structure Unambiguous (b : Badge) (p : Pins) : Prop where
  hashed : p.Hashed cr b.pm.secrets
  survives : ∀ i : PinInput, i.healthy=true→p.Hashed cr (boot cr b i).pm.secrets
  distinct : ∀ q∈p.duress, q≠p.badge
  apart : CollisionFree cr b.pm→∀ (pin : Bytes) (i : PinInput), i.healthy=true →
    (respond cr b {i with op:=.verifyBadgePin pin}).1=some true→isDuressPin cr b.pm pin=false

/-- The manager is loaded and holds these secrets; calls to the chip are done. -/
structure Holding (x : Secrets) (b : Badge) : Prop where
  key : HasAttestationKey b.chip
  valid : ∀ record, b.chip.rmem rmemSlotPin=some record→ValidRecord cr b.chip record
  scripts : b.loads=[] ∧ b.saves=[]
  loaded : b.pm.pinLoaded=true
  memory : b.pm.secrets=x

def OnRecord (x : Secrets) (b : Badge) : Prop:=
  ∃ record, b.chip.rmem rmemSlotPin=some record ∧ (parsePayload record).secrets=x

structure Held (x : Secrets) (b : Badge) : Prop extends Holding cr x b where
  stored : OnRecord x b

end Duress

section Keeps

variable {cr : Crypto} {x : Secrets} {b : Badge}

theorem Holding.congr {b' : Badge} {pm : PinManager} (h : Holding cr x b) (hchip : b'.chip=b.chip)
    (hscripts : b'.loads=[] ∧ b'.saves=[]) (hpm : b'.pm=pm) (hloaded : pm.pinLoaded=b.pm.pinLoaded)
    (hsecrets : pm.secrets=b.pm.secrets) : Holding cr x b':=by
  constructor
  · exact hchip ▸ h.key
  · exact hchip ▸ h.valid
  · exact hscripts
  · rw [hpm,hloaded]
    exact h.loaded
  · rw [hpm,hsecrets]
    exact h.memory

theorem held_updatePm {f : PinManager→PinManager} (hloaded : ∀ pm, (f pm).pinLoaded=pm.pinLoaded)
    (hsecrets : ∀ pm, (f pm).secrets=pm.secrets) : Keeps (Held cr x) (updatePm f):=
  Keeps.modify fun _ h=>⟨h.toHolding.congr rfl h.scripts rfl (hloaded _) (hsecrets _),h.stored⟩

theorem held_updateTally (f : Tally→Tally) : Keeps (Held cr x) (updateTally f):=
  Keeps.modify fun _ h=>⟨h.toHolding.congr rfl h.scripts rfl rfl rfl,h.stored⟩

theorem held_startLockout : Keeps (Held cr x) startLockout:=
  Keeps.modify fun _ h=>⟨h.toHolding.congr rfl h.scripts rfl rfl rfl,h.stored⟩

theorem held_generateSalt : Keeps (Held cr x) generateSalt:=
  fun _ h=>⟨h.toHolding.congr rfl h.scripts rfl rfl rfl,h.stored⟩

theorem held_saved : Triple (Holding cr x) (saveToStorage cr) (fun _=>Held cr x) fun _ _=>False:=by
  intro b h
  obtain ⟨record,hvalid,hrecord,hsave⟩:=saveToStorage_healthy cr h.scripts.2 h.key
  rw [hsave]
  have hslot : Function.update b.chip.rmem rmemSlotPin (some record) rmemSlotPin=some record:=Function.update_self _ _ _
  refine ⟨⟨h.key,fun r hr=>?_,h.scripts,h.loaded,h.memory⟩,record,hslot,?_⟩
  · obtain rfl:=Option.some.inj (hslot.symm.trans hr)
    exact hvalid.congr rfl
  · rw [hrecord]
    exact h.memory

theorem held_saveToStorage : Keeps (Held cr x) (saveToStorage cr):=
  Triple.conseq held_saved (fun _ h=>h.toHolding) (fun _ _ h=>h) fun _ _=>False.elim

theorem held_ensureInit : Keeps (Held cr x) (ensureInit cr):=by
  intro b h
  rw [ensureInit_loaded h.loaded]
  exact h

theorem held_checkAndResetExpiredLockout : Keeps (Held cr x) checkAndResetExpiredLockout:=by
  refine Keeps.bind (keeps_pmGets _) fun active=>Keeps.bind (Keeps.gets _) fun remaining=>?_
  exact Keeps.ite (fun _=>Keeps.pure _) fun _=>Keeps.ite (fun _=>Keeps.pure _) fun _=>
    held_updatePm (fun _=>rfl) fun _=>rfl

theorem held_verifyBadgePinHashCounted (hashIn : ByteArr 16) :
    Triple (Held cr x) (verifyBadgePinHashCounted cr hashIn) (fun answer b=>Held cr x b ∧ (answer=true→x.badgeHash=hashIn))
      fun _=>Held cr x:=by
  refine Triple.bind held_ensureInit fun _=>Triple.bind held_checkAndResetExpiredLockout fun _=>?_
  refine Triple.bind (keeps_pmGets _) fun retries=>Triple.ite ?_ fun _=>?_
  · exact fun _=>Triple.pure fun _ h=>⟨h,fun hanswer=>by cases hanswer⟩
  refine Triple.bind (held_updatePm (fun _=>rfl) fun _=>rfl) fun _=>?_
  refine Triple.bind (Q:=fun hash b=>hash=x.badgeHash ∧ Held cr x b) (Triple.gets fun b h=>⟨?_,h⟩) fun hash=>Triple.pre ?_
  · exact congrArg Secrets.badgeHash h.memory
  rintro rfl
  refine Triple.ite (fun hmatch=>?_) fun _=>?_
  · refine Triple.bind (held_updateTally _) fun _=>Triple.bind (held_updatePm (fun _=>rfl) fun _=>rfl) fun _=>?_
    refine Triple.bind (keeps_pmGets _) fun _=>Triple.bind (Keeps.when fun _=>held_saveToStorage) fun _=>?_
    exact Triple.pure fun _ h=>⟨h,fun _=>(compareHash_iff _ _).mp hmatch⟩
  · refine Triple.bind (held_updateTally _) fun _=>Triple.bind (keeps_pmGets _) fun _=>?_
    refine Triple.bind (Keeps.when fun _=>?_) fun _=>Triple.pure fun _ h=>⟨h,fun hanswer=>by cases hanswer⟩
    refine Keeps.bind (held_updatePm (fun _=>rfl) fun _=>rfl) fun _=>Keeps.bind (held_updateTally _) fun _=>?_
    exact Keeps.bind held_saveToStorage fun _=>held_startLockout

theorem held_verifyBadgePin (pin : Bytes) :
    Triple (Held cr x) (verifyBadgePin cr pin)
      (fun answer b=>Held cr x b ∧ (answer=true→x.badgeHash=computeBadgeHash cr pin)) fun _=>Held cr x:=
  Triple.bind held_ensureInit fun _=>held_verifyBadgePinHashCounted _

theorem held_init : Keeps (Held cr x) (init cr):=by
  intro b h
  have hinit : init cr b=(.ok true,b):=by simp [init,pmGets,bind_gets,h.loaded]
  rw [hinit]
  exact h

theorem held_resetBadgeRetries : Keeps (Held cr x) (resetBadgeRetries cr):=by
  refine Keeps.bind (held_updatePm (fun _=>rfl) fun _=>rfl) fun _=>Keeps.bind (keeps_pmGets _) fun _=>?_
  exact Keeps.when fun _=>Keeps.bind (held_updatePm (fun _=>rfl) fun _=>rfl) fun _=>held_saveToStorage

theorem Pw.setRetries_aside (pw : Pw) (n : UInt8) (pm : PinManager) :
    (pw.setRetries n pm).pinLoaded=pm.pinLoaded ∧ (pw.setRetries n pm).secrets=pm.secrets:=by
  cases pw <;> exact ⟨rfl,rfl⟩

theorem Pw.setSalt_aside (pw : Pw) (salt : ByteArr 8) (pm : PinManager) :
    (pw.setSalt salt pm).pinLoaded=pm.pinLoaded ∧ (pw.setSalt salt pm).secrets=pm.secrets:=by
  cases pw <;> exact ⟨rfl,rfl⟩

theorem Pw.setHash_aside (pw : Pw) (hash : ByteArr 32) (pm : PinManager) :
    (pw.setHash hash pm).pinLoaded=pm.pinLoaded ∧ (pw.setHash hash pm).secrets=pm.secrets:=by
  cases pw <;> exact ⟨rfl,rfl⟩

theorem held_aside {f : PinManager→PinManager} (h : ∀ pm, (f pm).pinLoaded=pm.pinLoaded ∧ (f pm).secrets=pm.secrets) :
    Keeps (Held cr x) (updatePm f):=
  held_updatePm (fun pm=>(h pm).1) fun pm=>(h pm).2

theorem held_verifyPinRaw (pw : Pw) (data : Bytes) : Keeps (Held cr x) (verifyPinRaw cr pw data):=by
  refine Keeps.bind held_ensureInit fun _=>Keeps.bind (keeps_pmGets _) fun pm=>Keeps.ite (fun _=>Keeps.pure _) fun _=>?_
  split
  · exact Keeps.pure _
  refine Keeps.bind (held_aside fun _=>pw.setRetries_aside _ _) fun _=>?_
  refine Keeps.bind (Keeps.ite (fun _=>held_saveToStorage) fun _=>Keeps.pure _) fun saved=>?_
  refine Keeps.ite (fun _=>Keeps.bind (held_aside fun _=>pw.setRetries_aside _ _) fun _=>Keeps.pure _) fun _=>?_
  refine Keeps.ite (fun _=>?_) fun _=>Keeps.pure _
  refine Keeps.bind (held_aside fun _=>pw.setRetries_aside _ _) fun _=>Keeps.bind (keeps_pmGets _) fun _=>?_
  exact Keeps.bind (Keeps.when fun _=>held_saveToStorage) fun _=>Keeps.pure _

theorem held_verifyPw (pw : Pw) (pin : Bytes) : Keeps (Held cr x) (verifyPw cr pw pin):=
  Keeps.bind held_ensureInit fun _=>held_verifyPinRaw pw _

theorem held_storePw (pw : Pw) (data : Bytes) : Keeps (Held cr x) (storePw cr pw data):=by
  refine Keeps.bind held_generateSalt fun salt=>Keeps.bind (held_aside fun _=>pw.setSalt_aside _ _) fun _=>?_
  refine Keeps.bind (keeps_pmGets _) fun iterations=>?_
  split
  · exact Keeps.pure _
  · refine Keeps.bind (held_aside fun _=>pw.setHash_aside _ _) fun _=>?_
    refine Keeps.bind (held_aside fun _=>pw.setRetries_aside _ _) fun _=>?_
    exact Keeps.bind held_saveToStorage fun _=>Keeps.pure _

theorem held_setPw (pw : Pw) (minLen : ℕ) (newPin : Bytes) : Keeps (Held cr x) (setPw cr pw minLen newPin):=
  Keeps.ite (fun _=>Keeps.pure _) fun _=>held_storePw pw _

theorem held_setPwRaw (pw : Pw) (data : Bytes) : Keeps (Held cr x) (setPwRaw cr pw data):=
  Keeps.ite (fun _=>Keeps.pure _) fun _=>held_storePw pw _

theorem held_changePw (pw : Pw) (minLen : ℕ) (currentPin newPin : Bytes) :
    Keeps (Held cr x) (verifyPw cr pw currentPin >>= fun ok=>if ok=true then setPw cr pw minLen newPin else pure false):=
  Keeps.bind (held_verifyPw pw _) fun _=>Keeps.ite (fun _=>held_setPw pw _ _) fun _=>Keeps.pure _

theorem held_resetPwRetries (pw : Pw) : Keeps (Held cr x) (resetPwRetries cr pw):=by
  refine Keeps.bind (keeps_pmGets _) fun _=>Keeps.when fun _=>?_
  exact Keeps.bind (held_aside fun _=>pw.setRetries_aside _ _) fun _=>held_saveToStorage

theorem held_setBadgePin (newPin : Bytes) :
    Triple (Held cr x) (setBadgePin cr newPin)
      (fun answer b=>answer=false ∧ Held cr x b ∨ answer=true ∧ Held cr {x with badgeHash:=computeBadgeHash cr newPin} b ∧
        IsPin (cstr newPin) ∧ x.takes cr newPin=false) fun _=>Held cr x:=by
  refine Triple.bind (Q:=fun pm b=>pm.secrets=x ∧ Held cr x b) (Triple.gets fun b h=>⟨h.memory,h⟩) fun pm=>Triple.pre ?_
  rintro rfl
  refine Triple.ite (fun _=>Triple.pure fun _ h=>.inl ⟨rfl,h⟩) fun hlen=>?_
  refine Triple.ite (fun _=>Triple.pure fun _ h=>.inl ⟨rfl,h⟩) fun _=>?_
  refine Triple.ite (fun _=>Triple.pure fun _ h=>.inl ⟨rfl,h⟩) fun hduress=>?_
  have hpin : IsPin (cstr newPin):=by
    rw [not_or,not_lt,not_lt,Nat.max_le] at hlen
    exact ⟨cstr_cstr newPin,hlen.1.2,hlen.2⟩
  have htakes : pm.secrets.takes cr newPin=false:=by
    rw [← isDuressPin_eq]
    cases hset : pm.duressSet with
    | false=>simp [isDuressPin,hset]
    | true=>simpa [hset] using hduress
  refine Triple.bind (Q:=fun _=>Holding cr {pm.secrets with badgeHash:=computeBadgeHash cr newPin}) ?_ fun _=>?_
  · refine Triple.modify fun b h=>⟨h.key,h.valid,h.scripts,h.loaded,?_⟩
    rw [← h.memory]
    rfl
  · refine Triple.bind (Triple.conseq held_saved (fun _ h=>h) (fun _ _ h=>h) fun _ _=>False.elim) fun _=>?_
    exact Triple.pure fun _ h=>.inr ⟨rfl,h,hpin,htakes⟩

theorem held_setDuressPin (pin : Bytes) :
    Triple (Held cr x) (setDuressPin cr pin)
      (fun answer b=>answer=false ∧ Held cr x b ∨ answer=true ∧ IsPin (cstr pin) ∧ x.badgeHash≠computeBadgeHash cr pin ∧
        ∃ salt hash, computeKdfHash cr x.iterations (cstr pin) salt=some hash ∧
          Held cr {x with duressSet:=true,duressSalt:=salt,duressHash:=hash} b) fun _=>Held cr x:=by
  refine Triple.bind held_ensureInit fun _=>Triple.ite (fun _=>Triple.pure fun _ h=>.inl ⟨rfl,h⟩) fun hlen=>?_
  refine Triple.ite (fun _=>Triple.pure fun _ h=>.inl ⟨rfl,h⟩) fun _=>?_
  refine Triple.bind (Q:=fun hash b=>hash=x.badgeHash ∧ Held cr x b) (Triple.gets fun b h=>⟨?_,h⟩) fun hash=>Triple.pre ?_
  · exact congrArg Secrets.badgeHash h.memory
  rintro rfl
  refine Triple.ite (fun _=>Triple.pure fun _ h=>.inl ⟨rfl,h⟩) fun hbadge=>?_
  rw [not_or,not_lt,not_lt] at hlen
  have hpin : IsPin (cstr pin):=⟨cstr_cstr pin,hlen.1,hlen.2⟩
  have hother : x.badgeHash≠computeBadgeHash cr pin:=fun h=>hbadge ((compareHash_iff _ _).mpr h)
  have hkdf : ∀ iterations salt, ∃ hash, computeKdfHash cr iterations (cstr pin) salt=some hash:=by
    intro iterations salt
    have hshort : ¬64 < (cstr pin).length:=by
      have hmax:=hpin.2.2
      unfold badgePinMax at hmax
      omega
    unfold computeKdfHash
    rw [if_neg hshort]
    exact ⟨_,rfl⟩
  refine Triple.bind held_generateSalt fun salt=>?_
  refine Triple.bind (Q:=fun _=>Holding cr {x with duressSalt:=salt}) ?_ fun _=>?_
  · refine Triple.modify fun b h=>⟨h.key,h.valid,h.scripts,h.loaded,?_⟩
    rw [← h.memory]
    rfl
  refine Triple.bind (Q:=fun iterations b=>iterations=x.iterations ∧ Holding cr {x with duressSalt:=salt} b)
    (Triple.gets fun b h=>⟨congrArg Secrets.iterations h.memory,h⟩) fun iterations=>Triple.pre ?_
  rintro rfl
  obtain ⟨hash,hhash⟩:=hkdf x.iterations salt
  rw [hhash]
  refine Triple.bind (Q:=fun _=>Holding cr {x with duressSet:=true,duressSalt:=salt,duressHash:=hash}) ?_ fun _=>?_
  · refine Triple.modify fun b h=>⟨h.key,h.valid,h.scripts,h.loaded,?_⟩
    have hmemory:=h.memory
    unfold PinRecord.secrets at hmemory ⊢
    rw [Secrets.mk.injEq] at hmemory ⊢
    exact ⟨hmemory.1,hmemory.2.1,rfl,hmemory.2.2.2.1,rfl⟩
  · refine Triple.bind (Triple.conseq held_saved (fun _ h=>h) (fun _ _ h=>h) fun _ _=>False.elim) fun _=>?_
    exact Triple.pure fun _ h=>.inr ⟨rfl,hpin,hother,salt,hash,hhash,h⟩

theorem held_clearDuressPin :
    Triple (Held cr x) (clearDuressPin cr)
      (fun answer b=>answer=true ∧ ∃ y : Secrets, Held cr y b ∧ y.badgeHash=x.badgeHash ∧ y.duressSet=false)
      fun _=>Held cr x:=by
  refine Triple.bind held_ensureInit fun _=>?_
  refine Triple.bind (Q:=fun armed b=>armed=x.duressSet ∧ Held cr x b) (Triple.gets fun b h=>⟨?_,h⟩) fun armed=>Triple.pre ?_
  · exact congrArg Secrets.duressSet h.memory
  rintro rfl
  refine Triple.ite (fun hoff=>Triple.pure fun _ h=>⟨rfl,x,h,rfl,by simpa using hoff⟩) fun _=>?_
  refine Triple.bind (Q:=fun _=>Holding cr {x with duressSet:=false,duressSalt:=zeros 8,duressHash:=zeros 32}) ?_
    fun _=>?_
  · refine Triple.modify fun b h=>⟨h.key,h.valid,h.scripts,h.loaded,?_⟩
    rw [← h.memory]
    rfl
  · refine Triple.bind (Triple.conseq held_saved (fun _ h=>h) (fun _ _ h=>h) fun _ _=>False.elim) fun _=>?_
    exact Triple.pure fun _ h=>⟨rfl,_,h,rfl,rfl⟩

/-- The secrets are those of two PINs that differ. -/
structure Pins.Fits (cr : Crypto) (p : Pins) (x : Secrets) : Prop where
  hashed : p.Hashed cr x
  badge : IsPin p.badge
  duress : ∀ q∈p.duress, IsPin q ∧ q≠p.badge

variable {p : Pins} {i : PinInput}

theorem Pins.Fits.setBadge (h : p.Fits cr x) {newPin : Bytes} (hpin : IsPin (cstr newPin)) (htakes : x.takes cr newPin=false) :
    Pins.Fits cr {p with badge:=cstr newPin} {x with badgeHash:=computeBadgeHash cr newPin}:=by
  constructor
  · refine ⟨?_,h.hashed.armed,h.hashed.duress⟩
    unfold computeBadgeHash
    rw [cstr_cstr]
  · exact hpin
  · intro q hq
    refine ⟨(h.duress q hq).1,?_⟩
    rintro rfl
    -- The new badge PIN would have been taken for the duress PIN.
    have harmed : x.duressSet=true:=h.hashed.armed.trans (Option.isSome_of_mem hq)
    have hkdf:=h.hashed.duress _ hq
    have hlen:=hpin.2
    unfold Secrets.takes at htakes
    rw [hkdf,harmed,decide_eq_true hlen.1,decide_eq_true hlen.2] at htakes
    simp [(compareHash_iff x.duressHash x.duressHash).mpr rfl] at htakes

theorem Pins.Fits.setDuress (h : p.Fits cr x) {pin : Bytes} {salt : ByteArr 8} {hash : ByteArr 32} (hpin : IsPin (cstr pin))
    (hother : x.badgeHash≠computeBadgeHash cr pin) (hkdf : computeKdfHash cr x.iterations (cstr pin) salt=some hash) :
    Pins.Fits cr {p with duress:=some (cstr pin)} {x with duressSet:=true,duressSalt:=salt,duressHash:=hash}:=by
  constructor
  · refine ⟨h.hashed.badge,rfl,?_⟩
    rintro q ⟨⟩
    exact hkdf
  · exact h.badge
  · rintro q ⟨⟩
    refine ⟨hpin,fun hsame=>hother ?_⟩
    rw [h.hashed.badge,← hsame]
    unfold computeBadgeHash
    rw [cstr_cstr]

theorem Pins.Fits.clearDuress (h : p.Fits cr x) {y : Secrets} (hbadge : y.badgeHash=x.badgeHash) (hoff : y.duressSet=false) :
    Pins.Fits cr {p with duress:=none} y:=by
  constructor
  · exact ⟨hbadge.trans h.hashed.badge,hoff,by simp⟩
  · exact h.badge
  · simp

theorem held_run (h : p.Fits cr x) (op : PinOp) :
    Triple (Held cr x) (op.run cr) (fun answer b=>∃ y, (p.after answer op).Fits cr y ∧ Held cr y b) fun _=>Held cr x:=by
  have haside : ∀ {m : PinM Bool}, Keeps (Held cr x) m→(∀ answer, p.after answer op=p) →
      Triple (Held cr x) m (fun answer b=>∃ y, (p.after answer op).Fits cr y ∧ Held cr y b) fun _=>Held cr x:=by
    intro m hm hafter
    refine Triple.conseq hm (fun _ hb=>hb) (fun answer b hb=>⟨x,?_,hb⟩) fun _ _ hb=>hb
    rw [hafter]
    exact h
  have hset : ∀ newPin : Bytes, Triple (Held cr x) (setBadgePin cr newPin)
      (fun answer b=>∃ y, (if answer then {p with badge:=cstr newPin} else p).Fits cr y ∧ Held cr y b) fun _=>Held cr x:=by
    intro newPin
    refine Triple.conseq (held_setBadgePin newPin) (fun _ hb=>hb) ?_ fun _ _ hb=>hb
    rintro answer b (⟨rfl,hb⟩ | ⟨rfl,hb,hpin,htakes⟩)
    · exact ⟨x,h,hb⟩
    · exact ⟨_,h.setBadge hpin htakes,hb⟩
  have hverify : ∀ pin : Bytes, Keeps (Held cr x) (verifyBadgePin cr pin):=fun pin=>
    Triple.conseq (held_verifyBadgePin pin) (fun _ hb=>hb) (fun _ _ hb=>hb.1) fun _ _ hb=>hb
  have hcounted : ∀ hashIn : ByteArr 16, Keeps (Held cr x) (verifyBadgePinHashCounted cr hashIn):=fun hashIn=>
    Triple.conseq (held_verifyBadgePinHashCounted hashIn) (fun _ hb=>hb) (fun _ _ hb=>hb.1) fun _ _ hb=>hb
  have hwait : ∀ ms : ℕ, Keeps (Held cr x) (Handler.modify fun b=>{b with now:=b.now+ms} : PinM Unit):=fun ms=>
    Keeps.modify fun _ hb=>⟨hb.toHolding.congr rfl hb.scripts rfl rfl rfl,hb.stored⟩
  cases op with
  | init=>exact haside held_init fun _=>rfl
  | verifyBadgePin pin=>exact haside (hverify pin) fun _=>rfl
  | verifyBadgePinHashCounted hashIn=>exact haside (hcounted hashIn) fun _=>rfl
  | pinStorageVerifyFido2Hash hashIn=>exact haside (Keeps.bind held_init fun _=>hcounted hashIn) fun _=>rfl
  | changeBadgePin currentPin newPin=>
    refine Triple.bind (hverify currentPin) fun verified=>Triple.ite (fun _=>hset newPin) fun _=>?_
    exact Triple.pure fun b hb=>⟨x,h,hb⟩
  | setBadgePin newPin=>exact hset newPin
  | setMinPinLengthFloor minLen=>
    exact haside (Keeps.bind (held_updatePm (fun _=>rfl) fun _=>rfl) fun _=>Keeps.pure _) fun _=>rfl
  | resetBadgeRetries=>exact haside (Keeps.bind held_resetBadgeRetries fun _=>Keeps.pure _) fun _=>rfl
  | startLockout=>exact haside (Keeps.bind held_startLockout fun _=>Keeps.pure _) fun _=>rfl
  | checkAndResetExpiredLockout=>
    exact haside (Keeps.bind held_checkAndResetExpiredLockout fun _=>Keeps.pure _) fun _=>rfl
  | setDuressPin pin=>
    refine Triple.conseq (held_setDuressPin pin) (fun _ hb=>hb) ?_ fun _ _ hb=>hb
    rintro answer b (⟨rfl,hb⟩ | ⟨rfl,hpin,hother,salt,hash,hkdf,hb⟩)
    · exact ⟨x,h,hb⟩
    · exact ⟨_,h.setDuress hpin hother hkdf,hb⟩
  | clearDuressPin=>
    refine Triple.conseq held_clearDuressPin (fun _ hb=>hb) ?_ fun _ _ hb=>hb
    rintro answer b ⟨rfl,y,hb,hbadge,hoff⟩
    exact ⟨y,h.clearDuress hbadge hoff,hb⟩
  | verifyPW1 pin | verifyPW3 pin=>exact haside (held_verifyPw _ pin) fun _=>rfl
  | verifyPW1Raw data | verifyPW3Raw data=>exact haside (held_verifyPinRaw _ data) fun _=>rfl
  | changePW1 currentPin newPin | changePW3 currentPin newPin=>exact haside (held_changePw _ _ currentPin newPin) fun _=>rfl
  | setPW1 newPin | setPW3 newPin=>exact haside (held_setPw _ _ newPin) fun _=>rfl
  | setPW1Raw data | setPW3Raw data=>exact haside (held_setPwRaw _ data) fun _=>rfl
  | resetPW1Retries | resetPW3Retries=>exact haside (Keeps.bind (held_resetPwRetries _) fun _=>Keeps.pure _) fun _=>rfl
  | wait ms=>exact haside (Keeps.bind (hwait ms) fun _=>Keeps.pure _) fun _=>rfl
  | powerCycle=>exact Triple.stop fun _ hb=>hb

theorem given_healthy (hi : i.healthy=true) (b : Badge) : (b.given i).loads=[] ∧ (b.given i).saves=[]:=by
  simpa [PinInput.healthy,Badge.given] using hi

theorem held_boot (h : Held cr x b) (hi : i.healthy=true) : Held cr x (boot cr b i):=by
  obtain ⟨record,hslot,hsecrets⟩:=h.stored
  obtain ⟨hloads,hsaves⟩:=given_healthy (i:={i with op:=.init}) hi b.reboot
  have hinit:=init_valid cr (b:=b.reboot.given {i with op:=.init}) rfl hloads hslot (h.valid record hslot)
  have hboot : boot cr b i={ b.reboot.given {i with op:=.init} with
      pm:=PinManager.boot {} cr record 0 }:=by
    unfold boot step respond PinOp.run
    dsimp only
    rw [hinit]
    rfl
  rw [hboot]
  exact ⟨⟨h.key,h.valid,⟨hloads,hsaves⟩,rfl,hsecrets⟩,record,hslot,hsecrets⟩

theorem fits_defaults (hbadge : x.badgeHash=computeBadgeHash cr defaultBadgePin) (hoff : x.duressSet=false) :
    Pins.Fits cr {} x:=by
  have hpin : IsPin defaultBadgePin:=⟨by decide,by decide,by decide⟩
  exact ⟨⟨hbadge,hoff,by simp⟩,hpin,by simp⟩

variable (cr) in
theorem held_init_empty :
    Triple (fun b=>b.pm.pinLoaded=false ∧ b.loads=[] ∧ b.saves=[] ∧ b.chip.rmem rmemSlotPin=none ∧ HasAttestationKey b.chip)
      (init cr) (fun _ b=>∃ x, Pins.Fits cr {} x ∧ Held cr x b) fun _ _=>False:=by
  refine Triple.bind (Q:=fun loaded b=>loaded=false ∧ b.loads=[] ∧ b.saves=[] ∧ b.chip.rmem rmemSlotPin=none ∧
    HasAttestationKey b.chip) (Triple.gets fun b hb=>hb) fun loaded=>Triple.pre ?_
  rintro rfl
  refine Triple.bind (Q:=fun loaded b=>loaded=false ∧ b.pm.storageUnreadable=false ∧ (b.loads=[] ∧ b.saves=[]) ∧
    b.chip.rmem rmemSlotPin=none ∧ HasAttestationKey b.chip) ?_ fun loaded=>Triple.pre ?_
  · rintro b ⟨hloads,hsaves,hslot,hkey⟩
    rw [loadFromStorage_empty hloads hslot]
    exact ⟨rfl,rfl,⟨hloads,hsaves⟩,hslot,hkey⟩
  rintro rfl
  refine Triple.bind (Q:=fun unreadable b=>unreadable=false ∧ (b.loads=[] ∧ b.saves=[]) ∧
    b.chip.rmem rmemSlotPin=none ∧ HasAttestationKey b.chip) (Triple.gets fun b hb=>hb) fun unreadable=>Triple.pre ?_
  rintro rfl
  -- The record of the defaults is written before the manager counts as loaded.
  refine Triple.bind (Q:=fun _ b=>∃ x, Pins.Fits cr {} x ∧ Held cr x {b with pm:={b.pm with pinLoaded:=true}}) ?_ fun _=>?_
  · refine Triple.when (fun _=>Triple.bind (Q:=fun _ b=>(b.loads=[] ∧ b.saves=[]) ∧ HasAttestationKey b.chip ∧
      Pins.Fits cr {} b.pm.secrets) ?_ fun _=>?_) fun h=>absurd rfl h
    · rintro b ⟨hscripts,hslot,hkey⟩
      exact ⟨hscripts,hkey,fits_defaults rfl rfl⟩
    · rintro b ⟨hscripts,hkey,hfits⟩
      obtain ⟨record,hvalid,hrecord,hsave⟩:=saveToStorage_healthy cr hscripts.2 hkey
      rw [hsave]
      have hslot : Function.update b.chip.rmem rmemSlotPin (some record) rmemSlotPin=some record:=Function.update_self _ _ _
      refine ⟨b.pm.secrets,hfits,⟨hkey,fun r hr=>?_,hscripts,rfl,rfl⟩,record,hslot,?_⟩
      · obtain rfl:=Option.some.inj (hslot.symm.trans hr)
        exact hvalid.congr rfl
      · rw [hrecord]
  · refine Triple.bind (Q:=fun _ b=>∃ x, Pins.Fits cr {} x ∧ Held cr x b) (Triple.modify ?_) fun _=>?_
    · rintro b ⟨x,hfits,hheld⟩
      exact ⟨x,hfits,hheld.toHolding.congr rfl hheld.scripts rfl rfl rfl,hheld.stored⟩
    · refine Triple.bind (Q:=fun _ b=>∃ x, Pins.Fits cr {} x ∧ Held cr x b) (Triple.modify ?_) fun _=>Triple.pure fun _ h=>h
      rintro b ⟨x,hfits,hheld⟩
      exact ⟨x,hfits,hheld.toHolding.congr rfl hheld.scripts rfl rfl rfl,hheld.stored⟩

theorem boot_empty (hslot : b.chip.rmem rmemSlotPin=none) (hkey : HasAttestationKey b.chip) (hi : i.healthy=true) :
    ∃ x, Pins.Fits cr {} x ∧ Held cr x (boot cr b i):=by
  obtain ⟨hloads,hsaves⟩:=given_healthy (i:={i with op:=.init}) hi b.reboot
  have hinit:=held_init_empty cr (b.reboot.given {i with op:=.init}) ⟨rfl,hloads,hsaves,hslot,hkey⟩
  unfold boot step respond PinOp.run
  dsimp only
  revert hinit
  cases init cr (b.reboot.given {i with op:=.init}) with
  | mk r t=>cases r with
    | ok answer=>exact id
    | error e=>exact False.elim

theorem follow_answered {s : Badge × Pins} {answer : Bool} (h : i.op.run cr (s.1.given i)=(.ok answer,b)) :
    follow cr s (.op i)=(b,s.2.after answer i.op):=by
  simp only [follow,respond,h]

theorem follow_lost {s : Badge × Pins} {lost : PowerLost} (h : i.op.run cr (s.1.given i)=(.error lost,b)) :
    follow cr s (.op i)=(boot cr b i,s.2):=by
  simp only [follow,respond,h,boot]

theorem held_follow {s : Badge × Pins} {e : DuressEvent} (he : e.input.healthy=true)
    (h : ∃ x, s.2.Fits cr x ∧ Held cr x s.1) : ∃ x, (follow cr s e).2.Fits cr x ∧ Held cr x (follow cr s e).1:=by
  obtain ⟨x,hfits,hheld⟩:=h
  cases e with
  | op i=>
    have hgiven : Held cr x (s.1.given i):=⟨hheld.toHolding.congr rfl (given_healthy he s.1) rfl rfl rfl,hheld.stored⟩
    have hrun:=held_run hfits i.op (s.1.given i) hgiven
    cases hop : i.op.run cr (s.1.given i) with
    | mk r t=>
      rw [hop] at hrun
      cases r with
      | ok answer=>
        rw [follow_answered hop]
        exact hrun
      | error lost=>
        rw [follow_lost hop]
        exact ⟨x,hfits,held_boot hrun he⟩
  | wipe i=>
    have hwiped : (Chip.rmemErase rmemSlotPin s.1.chip).2.rmem rmemSlotPin=none:=by
      rw [Chip.rmemErase_lt (by decide)]
      simp
    have hkey : HasAttestationKey (Chip.rmemErase rmemSlotPin s.1.chip).2:=by
      rw [Chip.rmemErase_lt (by decide)]
      exact hheld.key
    exact boot_empty (b:={s.1 with chip:=(Chip.rmemErase rmemSlotPin s.1.chip).2}) hwiped hkey he

theorem Pins.Fits.apart (hfits : p.Fits cr b.pm.secrets) (hheld : Held cr b.pm.secrets b) (hfree : CollisionFree cr b.pm) {pin : Bytes} (hi : i.healthy=true) (hanswer : (respond cr b {i with op:=.verifyBadgePin pin}).1=some true) :
    isDuressPin cr b.pm pin=false:=by
  have hbadge : b.pm.secrets.badgeHash=computeBadgeHash cr pin:=by
    have hgiven : Held cr b.pm.secrets (b.given {i with op:=.verifyBadgePin pin}):=
      ⟨hheld.toHolding.congr rfl (given_healthy (i:={i with op:=.verifyBadgePin pin}) hi b) rfl rfl rfl,hheld.stored⟩
    have hverify:=held_verifyBadgePin pin _ hgiven
    unfold respond PinOp.run at hanswer
    dsimp only at hanswer
    revert hverify hanswer
    cases verifyBadgePin cr pin (b.given {i with op:=.verifyBadgePin pin}) with
    | mk r t=>cases r with
      | ok answer=>exact fun hanswer hverify=>hverify.2 (Option.some.inj hanswer)
      | error lost=>exact fun hanswer=>by cases hanswer
  by_contra htakes
  rw [Bool.not_eq_false,isDuressPin_eq] at htakes
  unfold Secrets.takes at htakes
  rw [Bool.and_eq_true,Bool.and_eq_true,Bool.and_eq_true,decide_eq_true_eq,decide_eq_true_eq] at htakes
  obtain ⟨⟨⟨harmed,hmin⟩,hmax⟩,hmatch⟩:=htakes
  have hpin : IsPin (cstr pin):=⟨cstr_cstr pin,hmin,hmax⟩
  obtain ⟨q,hq⟩:=Option.isSome_iff_exists.mp (hfits.hashed.armed.symm.trans harmed)
  obtain ⟨hqpin,hdistinct⟩:=hfits.duress q hq
  have hduress : cstr pin=q:=by
    apply hfree.duress _ _ hpin hqpin
    have hkdf : computeKdfHash cr b.pm.iterations q b.pm.duressSalt=some b.pm.duressHash:=hfits.hashed.duress q hq
    rw [hkdf]
    have hmatch' : (match computeKdfHash cr b.pm.iterations (cstr pin) b.pm.duressSalt with
        | none=>false
        | some hash=>compareHash b.pm.duressHash hash)=true:=hmatch
    revert hmatch'
    cases computeKdfHash cr b.pm.iterations (cstr pin) b.pm.duressSalt with
    | none=>exact fun h=>by cases h
    | some hash=>exact fun h=>congrArg some ((compareHash_iff _ _).mp h).symm
  have hsame : cstr pin=p.badge:=by
    apply hfree.badge _ _ hpin hfits.badge
    rw [← hfits.hashed.badge,hbadge]
    unfold computeBadgeHash
    rw [cstr_cstr]
  exact hdistinct (hduress.symm.trans hsame)

end Keeps

/-- From an empty slot on, with storage that works, the two PINs are what the answers said they are, also after power comes
back; they differ, and no text that unlocks the badge is taken for the duress PIN. -/
theorem duress_unambiguous (cr : Crypto) {b : Badge} (hslot : b.chip.rmem rmemSlotPin=none) (hkey : HasAttestationKey b.chip)
    {i : PinInput} (hi : i.healthy=true) {es : List DuressEvent} (hes : ∀ e∈es, e.input.healthy=true) :
    Unambiguous cr (run (follow cr) (boot cr b i,{}) es).1 (run (follow cr) (boot cr b i,{}) es).2:=by
  have hall : AlongRun (follow cr) (fun _ e=>e.input.healthy=true) (boot cr b i,{}) es:=by
    generalize (boot cr b i,({} : Pins))=s
    induction es generalizing s with
    | nil=>trivial
    | cons e es ih=>
      exact ⟨hes e List.mem_cons_self,ih (fun e he=>hes e (List.mem_cons_of_mem _ he)) _⟩
  obtain ⟨x,hfits,hheld⟩:=run_invariant (I:=fun s : Badge × Pins=>∃ x, s.2.Fits cr x ∧ Held cr x s.1)
    (fun _ _ he h=>held_follow he h) (boot_empty hslot hkey hi) hall
  obtain rfl:=hheld.memory
  constructor
  · exact hfits.hashed
  · intro j hj
    rw [(held_boot hheld hj).memory]
    exact hfits.hashed
  · exact fun q hq=>(hfits.duress q hq).2
  · exact fun hfree pin j hj hanswer=>hfits.apart hheld hfree hj hanswer

/-- A duress PIN is armed, power goes off, the badge PIN cannot be set to it, and after a wipe it can. -/
def duressRun : List DuressEvent:=
  let pin : Bytes:=[0x36,0x35,0x34,0x33,0x32,0x31]
  [.op {op:=.setDuressPin pin},.op {op:=.powerCycle},.op {op:=.setBadgePin pin}]

theorem duress_unambiguous_armed :
    Unambiguous Crypto.plain (run (follow Crypto.plain) (boot Crypto.plain (provisioned none) {op:=.init},{}) duressRun).1
        (run (follow Crypto.plain) (boot Crypto.plain (provisioned none) {op:=.init},{}) duressRun).2 ∧
      (run (follow Crypto.plain) (boot Crypto.plain (provisioned none) {op:=.init},{}) duressRun).2.duress =
        some [0x36,0x35,0x34,0x33,0x32,0x31]:=
  ⟨duress_unambiguous Crypto.plain rfl ⟨attestationKey,rfl,rfl⟩ rfl (by decide),by decide +kernel⟩

end CdcBadge.Pin
