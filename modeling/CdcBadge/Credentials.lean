import CdcBadge.Fido2Frames

/-!
# What the operations of the store do to the credentials

A slot's operations leave the other slots alone, and creating a credential gives its
slot a record that the cache agrees with, or leaves the cache as it was.
-/

namespace CdcBadge.Fido2

open Handler

variable {α : Type} {call : Chip RmemContent → SeReply α × Chip RmemContent}

theorem slotLogicalValid_iff {slot : ℕ} : slotLogicalValid slot=true ↔ slot < slotCount:=decide_eq_true_iff

theorem mem_slots {slot : ℕ} : slot∈slots ↔ slotLogicalValid slot=true:=by
  rw [slotLogicalValid_iff,slots,List.mem_range]
  simp [slotCount,fido2MaxCredentials]

def Badge.credentials (w : Badge) : Badge:=
  {chip:=w.chip,storage:=w.storage,ctap2:=w.ctap2,signings:=w.signings}

/-- The credentials and the count without what the chip and the cache have for a slot. -/
def Badge.without (slot : ℕ) (w : Badge) : Badge:=
  { chip:={ ecc:=Function.update w.chip.ecc (eccSlotForLogical slot) none
            rmem:=Function.update w.chip.rmem (rmemSlotForLogical slot) none }
    storage:={w.storage.setCred slot none with credCount:=0}
    ctap2:=w.ctap2
    signings:=w.signings }

def Badge.cacheAndOthers (slot : ℕ) (w : Badge) : Storage × Badge:=(w.storage,w.without slot)

section Frames

variable {w t : Badge} {slot other : ℕ}

theorem without_creds (h : t.without slot=w.without slot) (hne : other≠slot) :
    t.storage.creds other=w.storage.creds other:=by
  have:=congrFun (congrArg (·.storage.creds) h) other
  simpa [Badge.without,Storage.setCred,hne] using this

theorem without_rmem (h : t.without slot=w.without slot) (hne : other≠slot) :
    t.chip.rmem (rmemSlotForLogical other)=w.chip.rmem (rmemSlotForLogical other):=by
  have:=congrFun (congrArg (·.chip.rmem) h) (rmemSlotForLogical other)
  simpa [Badge.without,rmemSlotForLogical,hne] using this

theorem without_ctap2 (h : t.without slot=w.without slot) : t.ctap2=w.ctap2:=congrArg (·.ctap2) h

theorem without_signings (h : t.without slot=w.without slot) : t.signings=w.signings:=
  congrArg (·.signings) h

theorem without_of_credentials (h : t.credentials=w.credentials) : t.without slot=w.without slot:=
  (congrArg (Badge.without slot) h : t.credentials.without slot=w.credentials.without slot)

end Frames

theorem keeps_seCall {P : Badge→Prop} (hP : EnvFree P)
    (h : ∀ w : Badge, P w→P {w with chip:=(call w.chip).2}) : Keeps P (seCall call):=by
  refine keeps_iff.mpr fun w hw=>?_
  have hchip : P {w with chip:=(Chip.perform (w.env.se.headD .done) call w.chip).2}:=by
    rw [Chip.perform_chip]
    split
    · exact h w hw
    · exact hw
  unfold seCall
  generalize Chip.perform (w.env.se.headD .done) call w.chip=r at hchip
  obtain ⟨reply,c⟩:=r
  cases reply <;> exact (hP _ _).mpr hchip

theorem fixes_seCall {V : Type} {v : Badge→V} (hv : EnvFree v)
    (h : ∀ w : Badge, v {w with chip:=(call w.chip).2}=v w) : Fixes v (seCall call):=
  fun x=>keeps_seCall (fun w e=>by rw [hv]) fun w hw=>(h w).trans hw

section Slot

variable {slot : ℕ}

theorem fixes_setsEcc
    (h : ∀ c, Chip.SetsEcc (eccSlotForLogical slot) c (call c).2) : Fixes (Badge.cacheAndOthers slot) (seCall call):=by
  refine fixes_seCall (fun _ _=>rfl) fun w=>?_
  obtain ⟨x,hx⟩:=h w.chip
  simp [hx,Badge.cacheAndOthers,Badge.without]

theorem fixes_setsRmem
    (h : ∀ c, Chip.SetsRmem (rmemSlotForLogical slot) c (call c).2) : Fixes (Badge.cacheAndOthers slot) (seCall call):=by
  refine fixes_seCall (fun _ _=>rfl) fun w=>?_
  obtain ⟨x,hx⟩:=h w.chip
  simp [hx,Badge.cacheAndOthers,Badge.without]

theorem fixes_eraseSlotData (slot : ℕ) : Fixes (Badge.cacheAndOthers slot) (eraseSlotData slot):=
  Fixes.bind (fixes_setsEcc fun _=>Chip.eccDelete_sets) fun _=>
    Fixes.bind (fixes_setsRmem fun _=>Chip.rmemErase_sets) fun _=>Fixes.pure _

theorem fixes_writeRmemCredential (stored : StoredCred) :
    Fixes (Badge.cacheAndOthers slot) (writeRmemCredential slot stored):=by
  refine Fixes.bind (fixes_setsRmem fun _=>Chip.rmemErase_sets) fun _=>
    Fixes.bind (fixes_setsRmem fun _=>Chip.rmemWrite_sets) fun reply=>?_
  cases reply <;> exact Fixes.pure _

end Slot

def Unfailing (m : Ctap α) : Prop:=Triple (fun _=>True) m (fun _ _=>True) fun e _=>e=.powerLost

theorem Unfailing.bind {β : Type} {m : Ctap α} {k : α → Ctap β} (hm : Unfailing m) (hk : ∀ a, Unfailing (k a)) :
    Unfailing (m >>= k):=
  Triple.bind hm hk

theorem Unfailing.pure (a : α) : Unfailing (pure a):=fun _ _=>trivial

theorem Unfailing.gets (f : Badge → α) : Unfailing (gets f):=fun _ _=>trivial

theorem Unfailing.modify (f : Badge→Badge) : Unfailing (modify f):=fun _ _=>trivial

theorem unfailing_seCall (call : Chip RmemContent → SeReply α × Chip RmemContent) : Unfailing (seCall call):=by
  intro w _
  unfold seCall
  cases Chip.perform (w.env.se.headD .done) call w.chip with
  | mk reply c=>cases reply <;> trivial

theorem unfailing_freshSecret : Unfailing freshSecret:=
  (Unfailing.gets _).bind fun _=>(Unfailing.modify _).bind fun _=>Unfailing.pure _

theorem unfailing_getRandom (n : ℕ) : Unfailing (getRandom n):=by
  refine (unfailing_seCall _).bind fun reply=>?_
  cases reply with
  | error e=>exact Unfailing.pure _
  | ok u=>exact (Unfailing.gets _).bind fun _=>(Unfailing.modify _).bind fun _=>Unfailing.pure _

theorem unfailing_writeRmemCredential (slot : ℕ) (stored : StoredCred) :
    Unfailing (writeRmemCredential slot stored):=by
  refine (unfailing_seCall _).bind fun _=>(unfailing_seCall _).bind fun reply=>?_
  cases reply <;> exact Unfailing.pure _

theorem Unfailing.triple {V : Type} {v : Badge→V} {m : Ctap α} (hm : Unfailing m) (hv : Fixes v m) (x : V) :
    Triple (fun t=>v t=x) m (fun _ t=>v t=x) fun e t=>e=.powerLost ∧ v t=x:=
  (hm.and (hv x)).conseq (fun _ h=>⟨trivial,h⟩) (fun _ _ h=>h.2) fun _ _ h=>h

theorem seCall_ok {w t : Badge} {a : α}
    (h : seCall call w=(.ok (.ok a),t)) : call w.chip=(.ok a,t.chip):=by
  unfold seCall at h
  cases hr : Chip.perform (w.env.se.headD .done) call w.chip with
  | mk reply c=>
    rw [hr] at h
    cases reply with
    | none=>simp at h
    | some reply=>
      simp only [Prod.mk.injEq,Except.ok.injEq] at h
      obtain ⟨rfl,rfl⟩:=h
      exact (Chip.perform_ok hr).2

theorem writeRmemCredential_true {slot : ℕ} {stored : StoredCred} {w t : Badge}
    (h : writeRmemCredential slot stored w=(.ok true,t)) :
    t.chip.rmem (rmemSlotForLogical slot)=some (.cred stored):=by
  obtain ⟨_,u,-,h⟩:=bind_ok.mp h
  obtain ⟨reply,v,hwrite,h⟩:=bind_ok.mp h
  cases reply with
  | error e=>simp at h
  | ok _=>
    simp only [pure_apply,Prod.mk.injEq,true_and] at h
    subst h
    have hcall:=seCall_ok hwrite
    unfold Chip.rmemWrite at hcall
    split at hcall
    · simp at hcall
    · split at hcall
      · simp at hcall
      · rw [← (Prod.mk.inj hcall).2]
        simp

theorem writeRmemCredential_spec (slot : ℕ) (stored : StoredCred) (x : Storage × Badge) :
    Triple (fun t=>t.cacheAndOthers slot=x) (writeRmemCredential slot stored)
      (fun done t=>t.cacheAndOthers slot=x ∧
        (done=true→t.chip.rmem (rmemSlotForLogical slot)=some (.cred stored)))
      (fun e t=>e=.powerLost ∧ t.cacheAndOthers slot=x):=by
  have written : Triple (fun _=>True) (writeRmemCredential slot stored)
      (fun done t=>done=true→t.chip.rmem (rmemSlotForLogical slot)=some (.cred stored))
      (fun _ _=>True):=
    Triple.of_ok fun s done t _ h hdone=>writeRmemCredential_true (hdone ▸ h)
  exact (((unfailing_writeRmemCredential slot stored).triple (fixes_writeRmemCredential stored) x).and
    written).conseq (fun _ h=>⟨h,trivial⟩) (fun _ _ h=>h) fun _ _ h=>h.1

def AgreesAt (slot : ℕ) (w : Badge) : Prop:=∀ (c : CachedCred) (stored : StoredCred),
  w.storage.creds slot=some c→w.chip.rmem (rmemSlotForLogical slot)=some (.cred stored) →
    stored.toCredInfo=c.toCredInfo

def Agrees (w : Badge) : Prop:=∀ slot, AgreesAt slot w

def Badge.info (w : Badge) (slot : ℕ) : Option CredInfo:=(w.storage.creds slot).map (·.toCredInfo)

theorem agreesAt_of_none {w : Badge} {slot : ℕ} (h : w.storage.creds slot=none) : AgreesAt slot w:=
  fun c stored hc=>by simp [h] at hc

theorem keeps_agreesAt_rmemErase (slot other : ℕ) :
    Keeps (AgreesAt slot) (seCall (Chip.rmemErase (rmemSlotForLogical other))):=by
  refine keeps_seCall (fun _ _=>rfl) fun w hw c stored hc hstored=>?_
  unfold Chip.rmemErase at hstored
  split at hstored
  · exact hw c stored hc hstored
  · by_cases hslot : rmemSlotForLogical slot=rmemSlotForLogical other
    · simp [hslot] at hstored
    · exact hw c stored hc (by simpa [Function.update_of_ne hslot] using hstored)

theorem keeps_agreesAt_eccDelete (slot n : ℕ) : Keeps (AgreesAt slot) (seCall (Chip.eccDelete n)):=by
  refine keeps_seCall (fun _ _=>rfl) fun w hw=>?_
  unfold Chip.eccDelete
  split <;> exact hw

theorem keeps_agreesAt_eraseSlotData (slot other : ℕ) : Keeps (AgreesAt slot) (eraseSlotData other):=
  Keeps.bind (keeps_agreesAt_eccDelete _ _) fun _=>
    Keeps.bind (keeps_agreesAt_rmemErase slot other) fun _=>Keeps.pure _

/-- Nothing but this slot was changed. It has its credential still, none, or one with these data. -/
structure Touched (w : Badge) (slot : ℕ) (info : Option CredInfo) (t : Badge) : Prop where
  without : t.without slot=w.without slot
  agrees : AgreesAt slot w → AgreesAt slot t
  infos : t.info slot=w.info slot ∨ t.info slot=none ∨ t.info slot=info

/-- A credential with these data was added in a slot of the badge `w` that had none. -/
def Added (w : Badge) (slot : ℕ) (info : CredInfo) (t : Badge) : Prop:=
  t.without slot=w.without slot ∧ ∃ stored : StoredCred, stored.toCredInfo=info ∧
    t.storage={w.storage.setCred slot (some stored.cached) with credCount:=w.storage.credCount+1} ∧
    t.chip.rmem (rmemSlotForLogical slot)=some (.cred stored)

def newInfo (rpId : Bytes) (rpIdHash : ByteArr 32) (userId userName : Bytes) (resident : Bool)
    (credProtect : UInt8) (curve : EccCurve) : CredInfo:=
  { rpIdHash:=rpIdHash
    rpId:=(cstr rpId).take (rpIdMaxLen-1)
    userId:=userId
    userName:=(cstr userName).take (userNameMaxLen-1)
    resident:=resident
    credProtect:=credProtect
    curve:=curve }

section Create

variable (cr : FidoCrypto) (rpId : Bytes) (rpIdHash : ByteArr 32) (userId userName : Bytes) (resident : Bool)
  (credProtect : UInt8) (curve : EccCurve)

/-- The slot gets its credential, or nothing but its memory on the chip has changed. -/
theorem generateInSlot_spec (slot : ℕ) (w : Badge) :
    Triple (fun t=>t.cacheAndOthers slot=w.cacheAndOthers slot)
      (generateInSlot cr slot rpId rpIdHash userId userName resident credProtect curve)
      (fun created t=>match created with
        | none=>t.cacheAndOthers slot=w.cacheAndOthers slot
        | some c=>c.slot=slot ∧
          Added w slot (newInfo rpId rpIdHash userId userName resident credProtect curve) t)
      (fun e t=>e=.powerLost ∧ t.cacheAndOthers slot=w.cacheAndOthers slot):=by
  have discard : Triple (fun t=>t.cacheAndOthers slot=w.cacheAndOthers slot)
      (seCall (Chip.eccDelete (eccSlotForLogical slot)) >>= fun _=>pure (none : Option Created))
      (fun created t=>match created with
        | none=>t.cacheAndOthers slot=w.cacheAndOthers slot
        | some c=>c.slot=slot ∧
          Added w slot (newInfo rpId rpIdHash userId userName resident credProtect curve) t)
      (fun e t=>e=.powerLost ∧ t.cacheAndOthers slot=w.cacheAndOthers slot):=
    Triple.bind ((unfailing_seCall _).triple (fixes_setsEcc fun _=>Chip.eccDelete_sets) _) fun _=>Triple.pure fun _ h=>h
  unfold generateInSlot
  refine Triple.bind ((unfailing_seCall _).triple (fixes_setsEcc fun _=>Chip.eccDelete_sets) _) fun _=>?_
  refine Triple.bind (unfailing_freshSecret.triple (Quiet.freshSecret.fixes fun _ _=>rfl) _) fun secret=>?_
  refine Triple.bind ((unfailing_seCall _).triple (fixes_setsEcc fun _=>Chip.eccGenerate_sets) _) fun reply=>?_
  cases reply with
  | error e=>exact Triple.pure fun _ h=>h
  | ok u=>
  refine Triple.bind ((unfailing_seCall _).triple
    ((Quiet.seCall (Chip.eccGetPublicKey_chip _)).fixes fun _ _=>rfl) _) fun reply=>?_
  cases reply with
  | error e=>exact discard
  | ok key=>
  refine Triple.bind ((unfailing_getRandom 16).triple ((Quiet.getRandom 16).fixes fun _ _=>rfl) _) fun reply=>?_
  cases reply with
  | error e=>exact discard
  | ok nonce=>
  refine Triple.bind (writeRmemCredential_spec slot _ _) fun done=>?_
  cases done with
  | false=>exact Triple.conseq discard (fun _ h=>h.1) (fun _ _ h=>h) fun _ _ h=>h
  | true=>
    rintro t ⟨ht,hrecord⟩
    obtain ⟨hstorage,hothers⟩:=Prod.mk.inj ht
    refine ⟨rfl,?_,_,?_,?_,hrecord rfl⟩
    · rw [← hothers]
      simp [Badge.without,Storage.setCred]
    · rfl
    · rw [← hstorage]
      rfl

def Storage.target (s : Storage) (rpIdHash : ByteArr 32) (userId : Bytes) (userIdLen : UInt8) : Option ℕ:=
  if userIdMaxLen < userIdLen.toNat then none
  else (s.findByRpUser rpIdHash userId userIdLen).or s.findFreeSlot

theorem Touched.of_cacheAndOthers {w t : Badge} {slot : ℕ} {info : Option CredInfo}
    (h : t.cacheAndOthers slot=w.cacheAndOthers slot) (ha : AgreesAt slot w → AgreesAt slot t) :
    Touched w slot info t:=by
  obtain ⟨hstorage,hothers⟩:=Prod.mk.inj h
  exact ⟨hothers,ha,.inl (by rw [Badge.info,hstorage,Badge.info])⟩

theorem Added.touched {w t : Badge} {slot : ℕ} {info : CredInfo} (h : Added w slot info t) :
    Touched w slot (some info) t:=by
  obtain ⟨hothers,stored,rfl,hstorage,hrecord⟩:=h
  have hcreds : t.storage.creds slot=some stored.cached:=by simp [hstorage,Storage.setCred]
  refine ⟨hothers,fun _ c stored' hc hstored=>?_,.inr (.inr ?_)⟩
  · obtain rfl : stored.cached=c:=Option.some.inj (hcreds.symm.trans hc)
    obtain rfl : stored=stored':=by simpa [hrecord] using hstored
    rfl
  · rw [Badge.info,hcreds]
    rfl

theorem Touched.of_emptied {w u t : Badge} {slot : ℕ} {info : Option CredInfo} (hwithout : u.without slot=w.without slot)
    (hnone : u.storage.creds slot=none) (h : Touched u slot info t) : Touched w slot info t:=by
  refine ⟨h.without.trans hwithout,fun _=>h.agrees (agreesAt_of_none hnone),.inr ?_⟩
  obtain hu | hn | hs:=h.infos
  · exact .inl (by rw [hu,Badge.info,hnone]; rfl)
  · exact .inl hn
  · exact .inr hs

theorem generateInSlot_touched {w : Badge} {slot : ℕ} (hnone : w.storage.creds slot=none) :
    Triple (fun t=>t.cacheAndOthers slot=w.cacheAndOthers slot)
      (generateInSlot cr slot rpId rpIdHash userId userName resident credProtect curve)
      (fun created t=>Touched w slot
          (some (newInfo rpId rpIdHash userId userName resident credProtect curve)) t ∧
        ∀ c, created=some c → c.slot=slot)
      (fun _ t=>Touched w slot (some (newInfo rpId rpIdHash userId userName resident credProtect curve)) t):=by
  have untouched : ∀ t, t.cacheAndOthers slot=w.cacheAndOthers slot →
      Touched w slot (some (newInfo rpId rpIdHash userId userName resident credProtect curve)) t:=
    fun t ht=>Touched.of_cacheAndOthers ht fun _=>
      agreesAt_of_none (by rw [(Prod.mk.inj ht).1]; exact hnone)
  refine (generateInSlot_spec cr rpId rpIdHash userId userName resident credProtect curve slot w).conseq
    (fun _ h=>h) (fun created t h=>?_) fun _ t h=>untouched t h.2
  cases created with
  | none=>exact ⟨untouched t h,fun c hc=>by cases hc⟩
  | some c=>
    refine ⟨h.2.touched,fun c' hc=>?_⟩
    obtain rfl : c=c':=Option.some.inj hc
    exact h.1

section Target

variable {w : Badge} {slot : ℕ} {userIdLen : UInt8}

theorem createCredential_none (h : w.storage.target rpIdHash userId userIdLen=none) :
    fido2StorageCreateCredential cr rpId rpIdHash userId userIdLen userName resident credProtect curve w =
      (.ok none,w):=by
  unfold Storage.target at h
  unfold fido2StorageCreateCredential
  split
  · rfl
  · rw [if_neg ‹_›,Option.or_eq_none_iff] at h
    rw [bind_gets,h.1,h.2]
    rfl

theorem createCredential_free (hlen : ¬userIdMaxLen < userIdLen.toNat)
    (hnew : w.storage.findByRpUser rpIdHash userId userIdLen=none) (hfree : w.storage.findFreeSlot=some slot) :
    fido2StorageCreateCredential cr rpId rpIdHash userId userIdLen userName resident credProtect curve w =
      generateInSlot cr slot rpId rpIdHash (userId.take userIdLen.toNat) userName resident credProtect curve w:=by
  unfold fido2StorageCreateCredential
  rw [if_neg hlen,bind_gets,hnew,hfree]

theorem createCredential_replace (hlen : ¬userIdMaxLen < userIdLen.toNat)
    (hold : w.storage.findByRpUser rpIdHash userId userIdLen=some slot) :
    fido2StorageCreateCredential cr rpId rpIdHash userId userIdLen userName resident credProtect curve w =
      (do
        eraseSlotData slot
        updateStorage fun s=>{s.setCred slot none with credCount:=s.credCount-1}
        generateInSlot cr slot rpId rpIdHash (userId.take userIdLen.toNat) userName resident credProtect curve :
          Ctap (Option Created)) w:=by
  unfold fido2StorageCreateCredential
  rw [if_neg hlen,bind_gets,hold]

theorem findFreeSlot_valid {s : Storage} (h : s.findFreeSlot=some slot) : slotLogicalValid slot=true:=
  mem_slots.mp (List.mem_of_find?_eq_some h)

theorem findFreeSlot_creds {s : Storage} (h : s.findFreeSlot=some slot) : s.creds slot=none:=by
  simpa using List.find?_some h

theorem eraseSlotData_touched (w : Badge) (slot : ℕ) (info : Option CredInfo) :
    Triple (fun t=>t=w) (eraseSlotData slot) (fun _ t=>t.cacheAndOthers slot=w.cacheAndOthers slot)
      (fun _ t=>Touched w slot info t):=by
  rintro t rfl
  have hfixed:=(fixes_eraseSlotData slot).apply t
  have hagrees:=keeps_iff.mp (keeps_agreesAt_eraseSlotData slot slot) t
  cases h : eraseSlotData slot t with
  | mk r u=>
    rw [h] at hfixed hagrees
    cases r with
    | ok a=>exact hfixed
    | error e=>exact Touched.of_cacheAndOthers hfixed hagrees

def emptied (slot : ℕ) (w : Badge) : Badge:=
  {w with storage:={w.storage.setCred slot none with credCount:=w.storage.credCount-1}}

theorem createCredential_touched (hslot : w.storage.target rpIdHash userId userIdLen=some slot) :
    Triple (fun t=>t=w)
      (fido2StorageCreateCredential cr rpId rpIdHash userId userIdLen userName resident credProtect curve)
      (fun created t=>Touched w slot
          (some (newInfo rpId rpIdHash (userId.take userIdLen.toNat) userName resident credProtect curve)) t ∧
        ∀ c, created=some c → c.slot=slot)
      (fun _ t=>Touched w slot
        (some (newInfo rpId rpIdHash (userId.take userIdLen.toNat) userName resident credProtect curve)) t):=by
  rintro t rfl
  unfold Storage.target at hslot
  split at hslot
  · cases hslot
  cases hold : t.storage.findByRpUser rpIdHash userId userIdLen with
  | none=>
    rw [hold,Option.none_or] at hslot
    rw [createCredential_free _ _ _ _ _ _ _ _ ‹_› hold hslot]
    exact generateInSlot_touched _ _ _ _ _ _ _ _ (findFreeSlot_creds hslot) t rfl
  | some old=>
    obtain rfl : old=slot:=by simpa [hold] using hslot
    rw [createCredential_replace _ _ _ _ _ _ _ _ ‹_› hold]
    refine Triple.bind (eraseSlotData_touched t old _) (fun _=>Triple.named fun u hu=>?_) t rfl
    refine Triple.bind (Triple.modify (Q:=fun _ v=>v=emptied old u) fun v hv=>by subst hv; rfl)
      fun _=>?_
    obtain ⟨-,hothers⟩:=Prod.mk.inj hu
    have hwithout : (emptied old u).without old=t.without old:=by
      rw [← hothers]
      simp [emptied,Badge.without,Storage.setCred]
    have hnone : (emptied old u).storage.creds old=none:=by simp [emptied,Storage.setCred]
    exact (generateInSlot_touched _ _ _ _ _ _ _ _ hnone).conseq (fun v hv=>by rw [hv])
      (fun _ v hv=>⟨hv.1.of_emptied hwithout hnone,hv.2⟩) fun _ v hv=>hv.of_emptied hwithout hnone

end Target

end Create

end CdcBadge.Fido2
