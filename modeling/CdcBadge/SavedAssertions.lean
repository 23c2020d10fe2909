import CdcBadge.AtomicCreation
import CdcBadge.CommandFrames

/-!
# Signatures over runs of commands

getNextAssertion signs with credentials that an earlier command selected. A policy says
which credentials may sign after a selection, and the invariant here is that the saved
list, with the credentials its slots hold by now, still meets it.
-/

namespace CdcBadge.Fido2

open Handler Cbor Runs

/-- Which credential, in which slot, may sign for an RP hash after a selection. -/
abbrev Policy:=ByteArr 32 → Selection → ℕ → CredInfo→Prop

variable (policy : Policy) {new : Option CredInfo}

/-- The signature is for an RP hash that the policy lets its credential sign for, and the chip's record
of the credential agrees with the cache. -/
structure Signing.Allowed (s : Signing) : Prop where
  permitted : ∃ hash : ByteArr 32, s.message.take 32=hash.toList ∧
    policy hash s.selection s.slot s.cred.toCredInfo
  recorded : ∀ stored, s.record=some (.cred stored) → stored.toCredInfo=s.cred.toCredInfo

/-- The credentials of the saved list may sign for the saved RP hash. -/
def SavedAllowed (s : Ctap2) (info : ℕ→Option CredInfo) : Prop:=
  ∀ i < s.assertionCount.toNat, ∀ c, info (s.assertionCreds.getD i 0)=some c →
    policy s.assertionRpIdHash s.assertionSelection (s.assertionCreds.getD i 0) c

/-- Every signature so far was allowed, and the next ones will be. -/
structure Sound (w : Badge) : Prop where
  agrees : Agrees w
  saved : SavedAllowed policy w.ctap2 w.info
  signed : ∀ s∈w.signings, s.Allowed policy

/-- What holds within a command: the saved state and the data of the credentials are given, and every
signature so far was allowed. -/
structure Holding (s : Ctap2) (info : ℕ→Option CredInfo) (w : Badge) : Prop where
  agrees : Agrees w
  ctap2 : w.ctap2=s
  info : w.info=info
  signed : ∀ s∈w.signings, s.Allowed policy

section Rules

variable {policy} {w t : Badge} {s : Ctap2} {info : ℕ→Option CredInfo} {slot : ℕ}

theorem Sound.holding (h : Sound policy w) : Holding policy w.ctap2 w.info w:=⟨h.agrees,rfl,rfl,h.signed⟩

theorem Holding.sound (h : Holding policy s info w) (hs : SavedAllowed policy s info) : Sound policy w:=
  ⟨h.agrees,by rw [h.ctap2,h.info]; exact hs,h.signed⟩

theorem holding_ofCredentials : OfCredentials (Holding policy s info):=by
  intro w t h hw
  have hstorage : t.storage=w.storage:=congrArg (·.storage) h
  have hchip : t.chip=w.chip:=congrArg (·.chip) h
  have hctap2 : t.ctap2=w.ctap2:=congrArg (·.ctap2) h
  have hsignings : t.signings=w.signings:=congrArg (·.signings) h
  obtain ⟨agrees,ctap2,info,signed⟩:=hw
  refine ⟨?_,hctap2.trans ctap2,?_,by rw [hsignings]; exact signed⟩
  · unfold Agrees AgreesAt at *
    rwa [hstorage,hchip]
  · rw [← info]
    unfold Badge.info
    rw [hstorage]

theorem sound_ofCredentials : OfCredentials (Sound policy):=fun _ _ h hw=>
  (holding_ofCredentials _ _ h hw.holding).sound hw.saved

/-- A slot was touched, and what it may hold now may sign where the list names it. -/
theorem Sound.touched (h : Sound policy w) (ht : Touched w slot new t)
    (hnew : ∀ c, new=some c→∀ i < w.ctap2.assertionCount.toNat, w.ctap2.assertionCreds.getD i 0=slot →
      policy w.ctap2.assertionRpIdHash w.ctap2.assertionSelection slot c) : Sound policy t:=by
  refine ⟨fun other=>?_,fun i hi c hc=>?_,by rw [without_signings ht.without]; exact h.signed⟩
  · by_cases hne : other=slot
    · rw [hne]
      exact ht.agrees (h.agrees slot)
    · unfold AgreesAt
      rw [without_creds ht.without hne,without_rmem ht.without hne]
      exact h.agrees other
  · rw [without_ctap2 ht.without] at hi hc ⊢
    by_cases hne : w.ctap2.assertionCreds.getD i 0=slot
    · rw [hne] at hc ⊢
      obtain hsame | hnone | hset:=ht.infos
      · rw [← hne] at hc ⊢ hsame
        exact h.saved i hi c (hsame ▸ hc)
      · simp [hnone] at hc
      · exact hnew c (hset ▸ hc) i hi hne
    · refine h.saved i hi c ?_
      rw [Badge.info,← without_creds ht.without hne]
      exact hc

theorem touched_refl (w : Badge) (slot : ℕ) (new : Option CredInfo) : Touched w slot new w:=
  ⟨rfl,id,.inl rfl⟩

theorem Touched.of_credentials {u : Badge} (h : Touched w slot new t)
    (hu : u.credentials=t.credentials) : Touched w slot new u:=by
  have hstorage : u.storage=t.storage:=congrArg (·.storage) hu
  have hchip : u.chip=t.chip:=congrArg (·.chip) hu
  refine ⟨(without_of_credentials hu).trans h.without,?_,?_⟩
  · unfold AgreesAt at *
    rw [hstorage,hchip]
    exact h.agrees
  · unfold Badge.info at *
    rw [hstorage]
    exact h.infos

theorem keeps_touched_delete (new : Option CredInfo) :
    Keeps (Touched w slot new) (fido2StorageDeleteCredential slot):=by
  refine Keeps.bind (Keeps.gets _) fun s=>?_
  split
  · exact Keeps.pure _
  · refine Keeps.bind (keeps_iff.mpr fun t ht=>?_) fun _=>Keeps.bind (Keeps.modify fun t ht=>?_) fun _=>
      Keeps.pure _
    · have hfixed:=(fixes_eraseSlotData slot).apply t
      obtain ⟨hstorage,hwithout⟩:=Prod.mk.inj hfixed
      refine ⟨hwithout.trans ht.without,fun hw=>
        keeps_iff.mp (keeps_agreesAt_eraseSlotData slot slot) t (ht.agrees hw),?_⟩
      have:=ht.infos
      unfold Badge.info at *
      rwa [hstorage]
    · refine ⟨?_,fun _=>agreesAt_of_none (by simp [Storage.setCred]),.inr (.inl (by simp [Badge.info,Storage.setCred]))⟩
      rw [← ht.without]
      simp [Badge.without,Storage.setCred]

theorem keeps_sound_delete (slot : ℕ) : Keeps (Sound policy) (fido2StorageDeleteCredential slot):=
  keeps_iff.mpr fun w hw=>
    hw.touched (keeps_iff.mp (keeps_touched_delete none) w (touched_refl w slot none)) nofun

theorem Fixes.holding {α : Type} {m : Ctap α} (h : Fixes Badge.credentials m) : Keeps (Holding policy s info) m:=
  FixesCredentials.keeps h holding_ofCredentials

theorem Quiet.holding {α : Type} {m : Ctap α} (h : Quiet m) : Keeps (Holding policy s info) m:=
  Fixes.holding h.credentials

end Rules

section Signing

variable {policy} {s : Ctap2} {info : ℕ→Option CredInfo} {slot : ℕ}

theorem readRmemCredential_some {w t : Badge} {stored : StoredCred}
    (h : readRmemCredential slot w=(.ok (some stored),t)) :
    t.chip.rmem (rmemSlotForLogical slot)=some (.cred stored):=by
  obtain ⟨reply,u,hread,h⟩:=bind_ok.mp h
  have hcall : ∀ content, reply=.ok content→u.chip.rmem (rmemSlotForLogical slot)=some content:=by
    rintro content rfl
    have hcall:=seCall_ok hread
    unfold Chip.rmemRead at hcall
    split at hcall
    · simp at hcall
    · split at hcall
      · rename_i data hdata
        simp only [Prod.mk.injEq,Except.ok.injEq] at hcall
        rw [← hcall.2,hdata,hcall.1]
      · simp at hcall
  split at h
  · simp only [pure_apply,Prod.mk.injEq,Except.ok.injEq,Option.some.injEq] at h
    obtain ⟨rfl,rfl⟩:=h
    exact hcall _ rfl
  · simp at h

theorem keeps_holding_write {stored : StoredCred} (h : ∀ c, info slot=some c → stored.toCredInfo=c) :
    Keeps (Holding policy s info) (writeRmemCredential slot stored):=by
  refine Keeps.bind ?_ fun _=>Keeps.bind ?_ fun reply=>?_
  · refine keeps_seCall holding_ofCredentials.envFree fun w hw=>⟨fun other=>?_,hw.ctap2,hw.info,hw.signed⟩
    intro c stored' hc hstored
    unfold Chip.rmemErase at hstored
    split at hstored
    · exact hw.agrees other c stored' hc hstored
    · by_cases hslot : rmemSlotForLogical other=rmemSlotForLogical slot
      · simp [hslot] at hstored
      · exact hw.agrees other c stored' hc (by simpa [Function.update_of_ne hslot] using hstored)
  · refine keeps_seCall holding_ofCredentials.envFree fun w hw=>⟨fun other=>?_,hw.ctap2,hw.info,hw.signed⟩
    intro c stored' hc hstored
    unfold Chip.rmemWrite at hstored
    split at hstored
    · exact hw.agrees other c stored' hc hstored
    · split at hstored
      · exact hw.agrees other c stored' hc hstored
      · by_cases hslot : other=slot
        · subst hslot
          obtain rfl : stored=stored':=by simpa using hstored
          refine h _ ?_
          rw [← hw.info,Badge.info,hc]
          rfl
        · refine hw.agrees other c stored' hc ?_
          simpa [rmemSlotForLogical,Function.update_of_ne,hslot] using hstored
  · cases reply <;> exact Keeps.pure _

theorem lookup_creds {storage : Storage} {c : CachedCred} (h : storage.lookup slot=some c) :
    storage.creds slot=some c:=by
  unfold Storage.lookup at h
  split at h
  · exact h
  · cases h

theorem readRmemCredential_holding {c : CredInfo} (hc : info slot=some c) :
    Triple (Holding policy s info) (readRmemCredential slot)
      (fun r w=>Holding policy s info w ∧ ∀ stored, r=some stored → stored.toCredInfo=c)
      (fun _=>Holding policy s info):=by
  have recorded : Triple (fun _=>True) (readRmemCredential slot)
      (fun r w=>∀ stored, r=some stored→w.chip.rmem (rmemSlotForLogical slot)=some (.cred stored))
      (fun _ _=>True):=
    Triple.of_ok fun w r t _ h stored hr=>readRmemCredential_some (hr ▸ h)
  refine (Triple.and (Quiet.holding (Quiet.readRmemCredential slot)) recorded).conseq (fun _ h=>⟨h,trivial⟩)
    (fun r w h=>⟨h.1,fun stored hr=>?_⟩) fun _ _ h=>h.1
  have hinfo : w.info slot=some c:=by rw [h.1.info,hc]
  obtain ⟨cached,hcached,rfl⟩:=Option.map_eq_some_iff.mp hinfo
  exact h.1.agrees slot cached stored hcached (h.2 stored hr)

theorem Holding.setCount {w : Badge} {c : CachedCred} {count : UInt32} (hw : Holding policy s info w)
    (hc : w.storage.creds slot=some c) : Holding policy s info
      {w with storage:=w.storage.setCred slot (some {c with signCount:=count})}:=by
  refine ⟨fun other c' stored hc' hstored=>?_,hw.ctap2,?_,hw.signed⟩
  · by_cases hne : other=slot
    · subst hne
      obtain rfl : {c with signCount:=count}=c':=by simpa [Storage.setCred] using hc'
      exact hw.agrees other c stored hc hstored
    · exact hw.agrees other c' stored (by simpa [Storage.setCred,hne] using hc') hstored
  · rw [← hw.info]
    funext other
    by_cases hne : other=slot
    · subst hne
      simp [Badge.info,Storage.setCred,hc]
    · simp [Badge.info,Storage.setCred,hne]

theorem keeps_holding_increment (slot : ℕ) :
    Keeps (Holding policy s info) (fido2StorageIncrementSignCount slot):=by
  refine Triple.bind (Triple.gets (Q:=fun storage w=>Holding policy s info w ∧ w.storage=storage)
    fun w hw=>⟨hw,rfl⟩) fun storage=>?_
  cases hlookup : storage.lookup slot with
  | none=>exact Triple.pure fun _ h=>h.1
  | some c=>
  have hcreds:=lookup_creds hlookup
  refine Triple.named fun w hw=>?_
  obtain ⟨hw,hstorage⟩:=hw
  have hinfo : info slot=some c.toCredInfo:=by
    rw [← hw.info,Badge.info,hstorage,hcreds]
    rfl
  refine Triple.bind (Triple.modify (Q:=fun _=>Holding policy s info) fun t ht=>?_) fun _=>?_
  · subst ht
    exact hw.setCount (hstorage ▸ hcreds)
  refine Triple.bind (readRmemCredential_holding hinfo) fun r=>Triple.named fun t ht=>?_
  obtain ⟨ht,hr⟩:=ht
  cases r with
  | none=>exact Triple.pure fun u hu=>hu ▸ ht
  | some stored=>
    have hstored : ∀ d, info slot=some d→({stored with signCount:=c.signCount+1} : StoredCred).toCredInfo=d:=
      fun d hd=>(hr stored rfl).trans (Option.some.inj (hinfo.symm.trans hd))
    exact Triple.bind ((keeps_holding_write hstored).conseq (fun u hu=>hu ▸ ht) (fun _ _ h=>h) fun _ _ h=>h)
      fun _=>Keeps.pure _

theorem keeps_holding_signRaw (cr : FidoCrypto) {message : Bytes} {selection : Selection} {hash : ByteArr 32}
    (hmessage : message.take 32=hash.toList) (h : ∀ c, info slot=some c→policy hash selection slot c) :
    Keeps (Holding policy s info) (fido2StorageSignRaw cr slot message selection):=by
  refine Triple.bind (Triple.gets (Q:=fun storage w=>Holding policy s info w ∧
    ∀ c, storage.lookup slot=some c→w.storage.creds slot=some c) fun w hw=>⟨hw,fun c=>lookup_creds⟩)
    fun storage=>?_
  cases hlookup : storage.lookup slot with
  | none=>exact Triple.pure fun _ h=>h.1
  | some c=>
  have kept : OfCredentials fun w=>Holding policy s info w ∧ w.storage.creds slot=some c:=by
    intro w t ht hw
    have hstorage : t.storage=w.storage:=congrArg (·.storage) ht
    exact ⟨holding_ofCredentials _ _ ht hw.1,hstorage ▸ hw.2⟩
  refine Triple.conseq (P:=fun w=>Holding policy s info w ∧ w.storage.creds slot=some c) ?_
    (fun w hw=>⟨hw.1,hw.2 c rfl⟩) (fun _ _ h=>h) fun _ _ h=>h
  refine Triple.bind (Triple.conseq (FixesCredentials.keeps (Quiet.seCall (signingKey_chip _ _)).credentials kept)
    (fun _ h=>h) (fun _ _ h=>h) fun _ _ h=>h.1) fun reply=>?_
  cases reply with
  | error e=>exact Triple.pure fun _ h=>h.1
  | ok key=>
  refine Triple.bind (Triple.conseq (FixesCredentials.keeps Quiet.freshSecret.credentials kept)
    (fun _ h=>h) (fun _ _ h=>h) fun _ _ h=>h.1) fun nonce=>?_
  refine Triple.bind (Triple.modify (Q:=fun _=>Holding policy s info) fun w ⟨hw,hc⟩=>?_) fun _=>Keeps.pure _
  refine ⟨hw.agrees,hw.ctap2,hw.info,fun signing hmem=>?_⟩
  obtain hold | hnew:=List.mem_append.mp hmem
  · exact hw.signed signing hold
  · obtain rfl:=List.mem_singleton.mp hnew
    refine ⟨⟨hash,hmessage,h c.toCredInfo ?_⟩,fun stored hstored=>hw.agrees slot c stored hc hstored⟩
    rw [← hw.info,Badge.info,hc]
    rfl

theorem keeps_holding_counter : Keeps (Holding policy s info) fido2StorageCounterIncrement:=by
  have counted : ∀ f : Storage → Storage, (∀ storage, (f storage).creds=storage.creds) →
      Keeps (Holding policy s info) (updateStorage f):=by
    refine fun f hf=>Keeps.modify fun w hw=>⟨?_,hw.ctap2,?_,hw.signed⟩
    · intro other c stored hc
      rw [hf] at hc
      exact hw.agrees other c stored hc
    · rw [← hw.info]
      unfold Badge.info
      rw [hf]
  refine Keeps.bind (Keeps.gets _) fun _=>Keeps.bind (Keeps.when fun _=>Keeps.bind
    (Quiet.holding (Quiet.nvsRead _)) fun _=>counted _ fun _=>rfl) fun _=>?_
  refine Keeps.bind (Keeps.gets _) fun _=>Keeps.bind (Fixes.holding (FixesCredentials.nvsWrite _)) fun ok=>?_
  exact Keeps.ite (fun _=>Keeps.bind (counted _ fun _=>rfl) fun _=>Keeps.pure _) fun _=>Keeps.pure _

end Signing

section Selected

variable {α : Type} {w : Badge}

theorem getCredential_some {t : Badge} {slot : ℕ} {cred : CachedCred}
    (h : fido2StorageGetCredential slot w=(.ok (some cred),t)) :
    ∃ c, w.storage.lookup slot=some c ∧ cred.rpIdHash=c.rpIdHash ∧ cred.credProtect=c.credProtect:=by
  unfold fido2StorageGetCredential at h
  rw [bind_gets] at h
  cases hc : w.storage.lookup slot with
  | none=>simp [hc] at h
  | some c=>
    rw [hc] at h
    obtain ⟨user,u,-,h⟩:=bind_ok.mp h
    refine ⟨c,rfl,?_⟩
    cases user <;>
    · simp only [pure_apply,Prod.mk.injEq,Except.ok.injEq,Option.some.injEq] at h
      obtain ⟨rfl,-⟩:=h
      exact ⟨rfl,rfl⟩

theorem filterSlots_spec {P : Badge→Prop} {C : ℕ→Prop} {test : ℕ → Ctap Bool}
    (h : ∀ slot, Triple P (test slot) (fun keep t=>P t ∧ (keep=true → C slot)) fun _=>P) (l : List ℕ) :
    Triple P (filterSlots test l) (fun kept t=>P t ∧ ∀ slot∈kept, slot∈l ∧ C slot) fun _=>P:=by
  induction l with
  | nil=>exact Triple.pure fun _ hw=>⟨hw,nofun⟩
  | cons slot rest ih=>
    refine Triple.bind (h slot) fun keep=>Triple.named fun t ⟨ht,hkeep⟩=>?_
    refine Triple.bind (ih.conseq (fun u hu=>hu ▸ ht) (fun _ _ h=>h) fun _ _ h=>h) fun kept=>
      Triple.pure fun u ⟨hu,hkept⟩=>⟨hu,?_⟩
    cases keep with
    | false=>exact fun s hs=>⟨List.mem_cons_of_mem _ (hkept s hs).1,(hkept s hs).2⟩
    | true=>
      intro s hs
      obtain rfl | hs:=List.mem_cons.mp hs
      · exact ⟨List.mem_cons_self,hkeep rfl⟩
      · exact ⟨List.mem_cons_of_mem _ (hkept s hs).1,(hkept s hs).2⟩

/-- A question about the data of a slot's credential, asked in a badge with the credentials of `w`. -/
theorem askCredential_spec {slot : ℕ} {f : CachedCred→Bool} {C : Prop}
    (h : ∀ cred c, w.storage.lookup slot=some c → cred.rpIdHash=c.rpIdHash → cred.credProtect=c.credProtect →
      f cred=true → C) :
    Triple (fun t=>t.credentials=w.credentials)
      (do
        match ← fido2StorageGetCredential slot with
        | some cred=>pure (f cred)
        | none=>pure false : Ctap Bool)
      (fun answer t=>t.credentials=w.credentials ∧ (answer=true → C))
      (fun _ t=>t.credentials=w.credentials):=by
  have found : Triple (fun t=>t.credentials=w.credentials) (fido2StorageGetCredential slot)
      (fun cred _=>∀ c, cred=some c → f c=true → C) (fun _ _=>True):=by
    refine Triple.of_ok fun t cred u ht hread c hc hf=>?_
    obtain ⟨c',hlookup,hrp,hprotect⟩:=getCredential_some (hc ▸ hread)
    have hstorage : t.storage=w.storage:=congrArg (·.storage) ht
    rw [hstorage] at hlookup
    exact h c c' hlookup hrp hprotect hf
  refine Triple.bind ((Triple.and ((Quiet.getCredential slot).credentials w.credentials) found).conseq (fun _ h=>⟨h,h⟩)
    (fun _ _ h=>h) fun _ _ h=>h.1) fun cred=>?_
  cases cred with
  | none=>exact Triple.pure fun t ht=>⟨ht.1,nofun⟩
  | some cred=>exact Triple.pure fun t ht=>⟨ht.1,ht.2 cred rfl⟩

theorem findByRpResident_lookup {s : Storage} {rpIdHash : ByteArr 32} {slot : ℕ}
    (h : slot∈s.findByRpResident rpIdHash) : ∃ c, s.lookup slot=some c ∧ c.rpIdHash=rpIdHash:=by
  have hmem:=List.mem_filter.mp (List.mem_of_mem_take h)
  obtain ⟨hslot,hany⟩:=hmem
  cases hc : s.creds slot with
  | none=>simp [hc] at hany
  | some c=>
    refine ⟨c,?_,by simpa [hc] using (by simpa [hc] using hany : c.resident=true ∧ c.rpIdHash=rpIdHash).2⟩
    simp only [slots,List.mem_range] at hslot
    simp [Storage.lookup,slotLogicalValid,hc,lt_of_lt_of_le hslot (min_le_left _ _)]

theorem gaFindCandidates_spec (p : GetAssertionParams) (rpIdHash : ByteArr 32) :
    Triple (fun t=>t.credentials=w.credentials) (gaFindCandidates p rpIdHash)
      (fun found t=>t.credentials=w.credentials ∧
        ∀ slot∈found, ∃ c, w.storage.lookup slot=some c ∧ c.rpIdHash=rpIdHash)
      (fun _ t=>t.credentials=w.credentials):=by
  refine Triple.ite (fun _=>?_) fun _=>?_
  · refine (filterSlots_spec (C:=fun slot=>∃ c, w.storage.lookup slot=some c ∧ c.rpIdHash=rpIdHash)
      (fun slot=>askCredential_spec fun cred c hc hrp _ hf=>⟨c,hc,?_⟩) _).conseq (fun _ h=>h)
      (fun _ _ h=>⟨h.1,fun slot hslot=>(h.2 slot hslot).2⟩) fun _ _ h=>h
    rw [← hrp]
    exact eq_of_beq hf
  · refine Triple.bind (Triple.gets (Q:=fun storage t=>t.credentials=w.credentials ∧ storage=w.storage)
      fun t ht=>⟨ht,congrArg (·.storage) ht⟩) fun storage=>Triple.pure fun t ⟨ht,hstorage⟩=>⟨ht,?_⟩
    subst hstorage
    exact fun slot=>findByRpResident_lookup

/-- Every credential that is selected is stored for the hash in use, and its protection allows it. -/
theorem gaFindCredentials_spec (p : GetAssertionParams) (uv : Bool) :
    Triple (fun t=>t.credentials=w.credentials) (gaFindCredentials p uv)
      (fun creds t=>t.credentials=w.credentials ∧ ∀ slot∈creds.slots, ∃ c, w.storage.lookup slot=some c ∧
        c.rpIdHash=creds.hashInUse ∧ protectAllows c.credProtect uv p.usesAllowList=true)
      (fun _ t=>t.credentials=w.credentials):=by
  refine Triple.bind (gaFindCandidates_spec p _) fun rpSlots=>Triple.named fun t ⟨ht,hrp⟩=>?_
  refine Triple.bind (Q:=fun appidSlots u=>u.credentials=w.credentials ∧
    ∀ slot∈appidSlots, ∃ c, w.storage.lookup slot=some c ∧ c.rpIdHash=p.appidHash) ?_ fun appidSlots=>?_
  · refine Triple.ite (fun _=>?_) fun _=>Triple.pure fun u hu=>⟨hu ▸ ht,nofun⟩
    exact (gaFindCandidates_spec p p.appidHash).conseq (fun u hu=>hu ▸ ht) (fun _ _ h=>h) fun _ _ h=>h
  refine Triple.named fun v ⟨hv,happid⟩=>?_
  refine Triple.bind ((filterSlots_spec (C:=fun slot=>∀ c, w.storage.lookup slot=some c →
    protectAllows c.credProtect uv p.usesAllowList=true) (fun slot=>askCredential_spec
      fun cred c hc _ hprotect hf c' hc'=>?_) _).conseq (fun u hu=>hu ▸ hv) (fun _ _ h=>h) fun _ _ h=>h)
      fun kept=>Triple.pure fun u ⟨hu,hkept⟩=>⟨hu,fun slot hslot=>?_⟩
  · obtain rfl : c=c':=Option.some.inj (hc.symm.trans hc')
    rwa [← hprotect]
  · obtain ⟨hmem,hallows⟩:=hkept slot hslot
    have hfound : ∃ c, w.storage.lookup slot=some c ∧
        c.rpIdHash=if appidSlots.isEmpty then p.rpIdHash else p.appidHash:=by
      cases hempty : appidSlots.isEmpty with
      | true=>exact hrp slot (by simpa [hempty] using hmem)
      | false=>exact happid slot (by simpa [hempty] using hmem)
    obtain ⟨c,hc,hhash⟩:=hfound
    exact ⟨c,hc,hhash,hallows c hc⟩

end Selected

/-- The policy lets a credential sign that is stored for the hash, that its protection allows, and that
was selected. -/
def Policy.Follows : Prop:=∀ (hash : ByteArr 32) (selection : Selection) (slot : ℕ) (c : CredInfo),
  c.rpIdHash=hash→protectAllows c.credProtect selection.uv selection.byId=true →
    (slot,c)∈selection.creds→policy hash selection slot c

section Assertions

variable {policy} {cr : FidoCrypto}

theorem take_authenticatorData (rpIdHash : ByteArr 32) (flags : UInt8) (signCount : UInt32)
    (attestedCred ext rest : Bytes) :
    (buildAuthenticatorData rpIdHash flags signCount attestedCred ext++rest).take 32=rpIdHash.toList:=by
  unfold buildAuthenticatorData
  simp only [List.append_assoc]
  exact List.take_left' rpIdHash.toList_length

theorem Quiet.gaParseParams (params : Bytes) : Quiet (gaParseParams cr params):=by
  have entry : ∀ p, Quiet (gaParseAllowListEntry p):=fun p=>by
    refine (Quiet.cbor _).bind fun credId=>?_
    cases credId with
    | none=>exact Quiet.pure _
    | some credId=>
      refine (Quiet.findSlotByCredId _).bind fun slot=>?_
      cases slot <;> exact Quiet.pure _
  have pair : ∀ p, Quiet (gaParsePair cr p):=fun p=>by
    refine (Quiet.cbor _).bind fun _=>(Quiet.orFail _ _).bind fun key=>Fixes.ite ?_ ?_
    · exact (Quiet.cbor _).bind fun _=>(Quiet.orFail _ _).bind fun _=>(Quiet.require _ _).bind fun _=>
        Fixes.iterate entry _ _
    · exact (Quiet.cbor _).bind fun _=>Quiet.orFail _ _
  exact (Quiet.initReader _).bind fun _=>(Quiet.cbor _).bind fun _=>(Quiet.orFail _ _).bind fun _=>
    (Quiet.require _ _).bind fun _=>Fixes.iterate pair _ _

theorem keeps_holding_gaSign {s : Ctap2} {info : ℕ→Option CredInfo} {slot : ℕ} {hash clientDataHash : ByteArr 32}
    {flags : UInt8} {signCount : UInt32} {ext : Bytes} {selection : Selection}
    (h : ∀ c, info slot=some c→policy hash selection slot c) :
    Keeps (Holding policy s info)
      (gaSignAssertion cr slot (buildAuthenticatorData hash flags signCount [] ext) clientDataHash selection):=
  Keeps.bind (Quiet.holding (Quiet.require _ _)) fun _=>Keeps.bind
    (keeps_holding_signRaw cr (take_authenticatorData _ _ _ _ _ _) h) fun _=>Quiet.holding (Quiet.orFail _ _)

theorem keeps_holding_gaRespond {s : Ctap2} {info : ℕ→Option CredInfo} {p : GetAssertionParams} {uv : Bool}
    {creds : AssertionCredentials}
    (h : ∀ c, info (s.assertionCreds.getD 0 0)=some c →
      policy creds.hashInUse s.assertionSelection (s.assertionCreds.getD 0 0) c) :
    Keeps (Holding policy s info) (do
      let state ← gets (·.ctap2)
      let slot:=state.assertionCreds.getD 0 0
      let cred ← orFail .other (← fido2StorageGetCredential slot)
      when uv (noteAct permGetAssertion [cred.rpIdHash])
      let signCount ← fido2StorageIncrementSignCount slot
      require (signCount != 0) .other
      let flags:=if p.optionUp then flagUp else 0
      let authData:=buildAuthenticatorData creds.hashInUse (if uv then flags ||| flagUv else flags)
        signCount [] (appidExtension creds.appidUsed)
      let signature ← gaSignAssertion cr slot authData p.clientDataHash state.assertionSelection
      let credId ← orFail .other (← fido2StorageGetCredId slot)
      let response ← orFail .other (gaBuildResponse credId authData signature cred state.assertionIncludeUser
        state.assertionCount.toNat (← env (·.responseSize)))
      let _ ← fido2StorageCounterIncrement
      pure response : Ctap Bytes):=by
  refine Triple.bind (Triple.gets (Q:=fun state t=>state=s ∧ Holding policy s info t)
    fun t ht=>⟨ht.ctap2,ht⟩) fun state=>Triple.pre fun hstate=>?_
  subst hstate
  refine Keeps.bind (Quiet.holding (Quiet.getCredential _)) fun _=>Keeps.bind (Quiet.holding (Quiet.orFail _ _))
    fun cred=>?_
  refine Keeps.bind (Keeps.when fun _=>Fixes.holding (FixesCredentials.noteAct _ _)) fun _=>?_
  refine Keeps.bind (keeps_holding_increment _) fun signCount=>Keeps.bind (Quiet.holding (Quiet.require _ _))
    fun _=>Keeps.bind (keeps_holding_gaSign h) fun signature=>?_
  refine Keeps.bind (Quiet.holding (Quiet.getCredId _)) fun _=>Keeps.bind (Quiet.holding (Quiet.orFail _ _))
    fun credId=>Keeps.bind (Keeps.gets _) fun _=>?_
  exact Keeps.bind (Quiet.holding (Quiet.orFail _ _)) fun _=>Keeps.bind keeps_holding_counter fun _=>Keeps.pure _

theorem selected_allowed (hpolicy : policy.Follows) {w : Badge} {p : GetAssertionParams} {uv : Bool}
    {creds : AssertionCredentials} (hselected : ∀ slot∈creds.slots, ∃ c, w.storage.lookup slot=some c ∧
      c.rpIdHash=creds.hashInUse ∧ protectAllows c.credProtect uv p.usesAllowList=true)
    {slot : ℕ} (hslot : slot∈creds.slots) (c : CredInfo) (hc : w.info slot=some c) :
    policy creds.hashInUse (selectionOf p uv creds w.storage) slot c:=by
  obtain ⟨cached,hlookup,hhash,hprotect⟩:=hselected slot hslot
  obtain rfl : cached.toCredInfo=c:=by simpa [Badge.info,lookup_creds hlookup] using hc
  refine hpolicy _ _ _ _ hhash hprotect (List.mem_filterMap.mpr ⟨slot,hslot,?_⟩)
  rw [lookup_creds hlookup]
  rfl

theorem overwrite_getD_mem {data : List ℕ} (buffer : List ℕ) {i : ℕ} (h : i < data.length) :
    (overwrite data buffer).getD i 0∈data:=by
  rw [overwrite,List.getD_eq_getElem?_getD,List.getElem?_append_left h,List.getElem?_eq_getElem h]
  exact List.getElem_mem h

theorem saveAssertion_holding {w t : Badge} (ht : t.credentials=w.credentials) (hw : Sound policy w)
    (p : GetAssertionParams) (uv : Bool) (creds : AssertionCredentials) :
    Holding policy (saveAssertion p uv creds w).2.ctap2 w.info (saveAssertion p uv creds t).2:=by
  have h:=holding_ofCredentials w t ht hw.holding
  have hstorage : t.storage=w.storage:=congrArg (·.storage) ht
  refine ⟨h.agrees,?_,h.info,h.signed⟩
  simp only [saveAssertion,bind_gets,updateCtap2,modify_apply,h.ctap2,hstorage]

theorem keeps_sound_getAssertion (hpolicy : policy.Follows) (params : Bytes) :
    Keeps (Sound policy) (getAssertion cr params):=by
  refine Triple.named fun w hw=>?_
  have before : ∀ {α : Type} {m : Ctap α}, Fixes Badge.credentials m →
      Triple (fun t=>t.credentials=w.credentials) m (fun _ t=>t.credentials=w.credentials)
        (fun _=>Sound policy):=fun h=>
    Triple.conseq (h w.credentials) (fun _ h=>h) (fun _ _ h=>h) fun _ t ht=>sound_ofCredentials w t ht hw
  unfold getAssertion
  refine Triple.bind ((before (Quiet.gaParseParams params).credentials).conseq (fun t ht=>ht ▸ rfl)
    (fun _ _ h=>h) fun _ _ h=>h) fun p=>?_
  refine Triple.bind (before (FixesCredentials.require _ _)) fun _=>?_
  refine Triple.bind (before (FixesCredentials.require _ _)) fun _=>?_
  refine Triple.bind (before (FixesCredentials.verifyPinUvAuthParam _ _ _ _ _ _)) fun uv=>?_
  refine Triple.bind (before Quiet.getAlwaysUv.credentials) fun alwaysUv=>?_
  refine Triple.bind (before (FixesCredentials.require _ _)) fun _=>?_
  refine Triple.bind ((gaFindCredentials_spec p uv).conseq (fun _ h=>h) (fun _ _ h=>h)
    fun _ t ht=>sound_ofCredentials w t ht hw) fun creds=>?_
  refine Triple.named fun t ⟨ht,hselected⟩=>?_
  refine Triple.bind (Triple.check (Q:=fun _ t=>(!creds.slots.isEmpty)=true ∧ t.credentials=w.credentials)
    (fun u hu hb=>⟨hb,hu ▸ ht⟩) fun u hu _=>sound_ofCredentials w u (hu ▸ ht) hw) fun _=>Triple.pre fun hne=>?_
  refine Triple.bind ((before (Fixes.when Quiet.requireUserPresence.credentials)).conseq (fun _ h=>h)
    (fun _ _ h=>h) fun _ _ h=>h) fun _=>?_
  have hallowed:=fun slot (hslot : slot∈creds.slots)=>selected_allowed hpolicy hselected hslot
  have hfirst:=overwrite_getD_mem w.ctap2.assertionCreds
    (List.length_pos_iff.mpr (by simpa using hne : creds.slots≠[]))
  have hsaved : SavedAllowed policy (saveAssertion p uv creds w).2.ctap2 w.info:=fun i hi=>
    hallowed _ (overwrite_getD_mem _ (lt_of_lt_of_le hi (Nat.mod_le _ _)))
  refine Triple.bind (Q:=fun _=>Holding policy (saveAssertion p uv creds w).2.ctap2 w.info)
    (fun u hu=>saveAssertion_holding hu hw p uv creds) fun _=>?_
  exact Triple.conseq (keeps_holding_gaRespond (hallowed _ hfirst)) (fun _ h=>h)
    (fun _ _ h=>h.sound hsaved) fun _ _ h=>h.sound hsaved

theorem keeps_sound_getNextAssertion : Keeps (Sound policy) (getNextAssertion cr):=by
  refine Keeps.bind (Keeps.gets _) fun _=>Keeps.bind (Keeps.check _ _) fun _=>Triple.named fun w hw=>?_
  have hsaved : SavedAllowed policy {w.ctap2 with assertionIndex:=w.ctap2.assertionIndex+1} w.info:=hw.saved
  generalize hs : ({w.ctap2 with assertionIndex:=w.ctap2.assertionIndex+1} : Ctap2)=s at hsaved
  refine Triple.conseq (Q:=fun _=>Holding policy s w.info) (E:=fun _=>Holding policy s w.info) ?_ (fun _ h=>h)
    (fun _ _ h=>h.sound hsaved) fun _ _ h=>h.sound hsaved
  refine Triple.bind (Triple.modify (Q:=fun _=>Holding policy s w.info) fun t ht=>?_) fun _=>?_
  · subst ht
    exact ⟨hw.agrees,hs,rfl,hw.signed⟩
  refine Triple.bind (Triple.gets (Q:=fun state t=>state=s ∧ Holding policy s w.info t)
    fun t ht=>⟨ht.ctap2,ht⟩) fun state=>Triple.pre fun hstate=>?_
  subst hstate
  refine Triple.bind (Triple.check (Q:=fun _ t=>state.assertionIndex < state.assertionCount ∧
    Holding policy state w.info t) (fun t ht hb=>⟨of_decide_eq_true hb,ht⟩) fun t ht _=>ht) fun _=>
    Triple.pre fun hindex=>?_
  have hallowed:=hsaved state.assertionIndex.toNat (UInt8.lt_iff_toNat_lt.mp hindex)
  refine Keeps.bind (Quiet.holding (Quiet.getCredential _)) fun _=>Keeps.bind (Quiet.holding (Quiet.orFail _ _))
    fun _=>Keeps.bind (keeps_holding_increment _) fun signCount=>?_
  refine Keeps.bind (Quiet.holding (Quiet.require _ _)) fun _=>Keeps.bind (keeps_holding_gaSign hallowed) fun _=>?_
  exact Keeps.bind (Quiet.holding (Quiet.getCredId _)) fun _=>Keeps.bind (Quiet.holding (Quiet.orFail _ _))
    fun _=>Keeps.bind (Keeps.gets _) fun _=>Keeps.pure _

end Assertions

section Creating

variable {policy} {cr : FidoCrypto} {α : Type}

theorem keeps_touched_orRollback {w : Badge} {slot : ℕ} (o : Option α) :
    Keeps (Touched w slot new) (orRollback slot o):=by
  cases o with
  | some a=>exact Keeps.pure _
  | none=>exact Keeps.bind (keeps_touched_delete new) fun _=>Keeps.stop _

theorem keeps_touched_orUnregister {w : Badge} {slot : ℕ} (sw : UInt16) (o : Option α) :
    Keeps (Touched w slot new) (orUnregister slot sw o):=by
  cases o with
  | some a=>exact Keeps.pure _
  | none=>exact Keeps.bind (keeps_touched_delete new) fun _=>Keeps.stop _

theorem touched_ofCredentials {w : Badge} {slot : ℕ} :
    OfCredentials (Touched w slot new):=fun _ _ h ht=>ht.of_credentials h

def MakeCredentialParams.info (p : MakeCredentialParams) (curve : EccCurve) : CredInfo:=
  newInfo p.rpId p.rpIdHash (p.userId.take p.userIdLen.toNat) p.userName p.rk p.credProtect curve

def MakeCredentialParams.target (p : MakeCredentialParams) (s : Storage) : Option ℕ:=
  s.target p.rpIdHash p.userId p.userIdLen

theorem createCredentialAndRespond_touched {w : Badge} {p : MakeCredentialParams} {curve : EccCurve} {slot : ℕ}
    (hslot : p.target w.storage=some slot) (uv : Bool) :
    Triple (fun t=>t.credentials=w.credentials) (createCredentialAndRespond cr p uv curve)
      (fun _=>Touched w slot (some (p.info curve))) (fun _=>Touched w slot (some (p.info curve))):=by
  have fixed : ∀ {β : Type} {m : Ctap β}, Fixes Badge.credentials m →
      Keeps (Touched w slot (some (p.info curve))) m:=fun h=>FixesCredentials.keeps h touched_ofCredentials
  unfold createCredentialAndRespond
  refine Triple.bind (Q:=fun _ t=>t.credentials=w.credentials)
    (Triple.when (fun _=>Triple.modify fun _ h=>h) fun _ _ h=>h) fun _=>Triple.named fun t ht=>?_
  have hstorage : t.storage=w.storage:=congrArg (·.storage) ht
  have htarget : t.storage.target p.rpIdHash p.userId p.userIdLen=some slot:=hstorage ▸ hslot
  have htouched : ∀ {u}, Touched t slot (some (p.info curve)) u→Touched w slot (some (p.info curve)) u:=fun hu=>
    ⟨hu.without.trans (without_of_credentials ht),fun hw=>hu.agrees
      ((touched_refl w slot none).of_credentials ht |>.agrees hw),by
        have:=hu.infos
        unfold Badge.info at *
        rwa [hstorage] at this⟩
  refine Triple.bind (Q:=fun created u=>Touched w slot (some (p.info curve)) u ∧
    ∀ c, created=some c → c.slot=slot) ((createCredential_touched cr p.rpId p.rpIdHash p.userId p.userName p.rk
      p.credProtect curve htarget).conseq (fun _ h=>h) (fun _ _ h=>⟨htouched h.1,h.2⟩) fun _ _ h=>htouched h)
    fun created=>?_
  cases created with
  | none=>exact Triple.stop fun _ h=>h.1
  | some created=>
  refine Triple.named fun u ⟨hu,hcreated⟩=>?_
  obtain rfl:=hcreated created rfl
  refine Triple.conseq (P:=Touched w created.slot (some (p.info curve))) ?_ (fun v hv=>hv ▸ hu) (fun _ _ h=>h)
    fun _ _ h=>h
  refine Keeps.bind (keeps_touched_orRollback _) fun _=>Keeps.bind (keeps_touched_orRollback _) fun _=>?_
  refine Keeps.bind (fixed fixes_u2fInitAttestation) fun _=>Keeps.bind (keeps_touched_orRollback _) fun _=>?_
  refine Keeps.bind (fixed (fixes_u2fAttestationSign cr _)) fun _=>Keeps.bind (keeps_touched_orRollback _) fun _=>?_
  exact Keeps.bind (Keeps.gets _) fun _=>keeps_touched_orRollback _

theorem createCredentialAndRespond_full {w : Badge} {p : MakeCredentialParams} {curve : EccCurve}
    (hfull : p.target w.storage=none) (uv : Bool) :
    (createCredentialAndRespond cr p uv curve w).2.credentials=w.credentials:=by
  obtain ⟨t,hnote,ht⟩ : ∃ t : Badge, (when uv (noteAct permMakeCredential [p.rpIdHash]) : Ctap Unit) w=(.ok (),t) ∧
      t.credentials=w.credentials:=by
    cases uv
    · exact ⟨w,rfl,rfl⟩
    · exact ⟨_,rfl,rfl⟩
  have hstorage : t.storage=w.storage:=congrArg (·.storage) ht
  have htarget : t.storage.target p.rpIdHash p.userId p.userIdLen=none:=hstorage ▸ hfull
  unfold createCredentialAndRespond
  rw [bind_of_ok hnote,bind_of_ok (createCredential_none (h:=htarget) ..)]
  exact ht

def MayTake (policy : Policy) (s : Ctap2) (slot : ℕ) (c : CredInfo) : Prop:=
  ∀ i < s.assertionCount.toNat, s.assertionCreds.getD i 0=slot →
    policy s.assertionRpIdHash s.assertionSelection slot c

theorem Sound.take {w t : Badge} {slot : ℕ} {c : CredInfo} (hw : Sound policy w) (ht : Touched w slot (some c) t)
    (hc : MayTake policy w.ctap2 slot c) : Sound policy t:=
  hw.touched ht fun d hd=>by
    obtain rfl : c=d:=Option.some.inj hd
    exact hc

/-- The slots found for `appidExclude` are no harm, and neither is the new credential. -/
theorem sound_makeCredential {w : Badge} {params : Bytes} (hw : Sound policy w)
    (hexcluded : ∀ p, mcParams cr w params=some p→p.excludes cr w.storage≠[] →
      SavedAllowed policy { w.ctap2 with
        assertionCreds:=overwrite (p.excludes cr w.storage) w.ctap2.assertionCreds } w.info)
    (hcreated : ∀ p curve slot, Admits cr w params p curve→p.target w.storage=some slot →
      MayTake policy w.ctap2 slot (p.info curve)) :
    Sound policy (makeCredential cr params w).2:=by
  have hrun:=makeCredential_run cr w params
  generalize makeCredential cr params w=r at hrun
  cases hrun with
  | excluded p t hp hfound ht=>
    have ht':=sound_ofCredentials w t (congrArg Badge.credentials ht : t.core.credentials=w.core.credentials) hw
    refine ⟨ht'.agrees,?_,ht'.signed⟩
    have hinfo : t.info=w.info:=by
      unfold Badge.info
      rw [core_storage ht]
    have:=hexcluded p hp hfound
    rw [← core_ctap2 ht,← hinfo] at this
    exact this
  | ended r t ht hnot=>
    exact sound_ofCredentials w t (congrArg Badge.credentials ht : t.core.credentials=w.core.credentials) hw
  | admitted p curve t ht h=>
    have hcredentials : t.credentials=w.credentials:=
      (congrArg Badge.credentials (ahead_core ht) : t.core.credentials=w.core.credentials)
    cases hslot : p.target w.storage with
    | none=>
      have hstorage : t.storage=w.storage:=congrArg (·.storage) hcredentials
      exact sound_ofCredentials w _ ((createCredentialAndRespond_full (hstorage ▸ hslot) _).trans hcredentials) hw
    | some slot=>
      exact hw.take ((createCredentialAndRespond_touched hslot p.uv).state hcredentials)
        (hcreated p curve slot h hslot)

def u2fInfo (application : ByteArr 32) : CredInfo:=
  newInfo (u2fRpId application) application [0] (ascii "U2F") false 0 .p256

def u2fTarget (application : ByteArr 32) (s : Storage) : Option ℕ:=s.target application [0] 1

theorem Quiet.u2fRegisterDummy (challenge application : ByteArr 32) :
    Quiet (u2fRegisterDummy cr challenge application):=by
  refine Quiet.waitForUserPresence.bind fun _=>(Quiet.requireWord _ _).bind fun _=>(Quiet.getRandom _).bind fun _=>?_
  refine (Quiet.orFailWord _ _).bind fun _=>(Quiet.getRandom _).bind fun _=>(Quiet.orFailWord _ _).bind fun _=>?_
  refine (Quiet.gets _).bind fun _=>(Quiet.env _).bind fun _=>(Quiet.requireWord _ _).bind fun _=>?_
  exact (Quiet.u2fAttestSign cr _).bind fun _=>(Quiet.orFailWord _ _).bind fun _=>Quiet.pure _

theorem orFailWord_some_bind {β : Type} (sw : UInt16) (a : α) (k : α → Ctap β) : (orFailWord sw (some a) >>= k)=k a:=
  rfl

theorem sound_u2fRegister {w : Badge} {challenge application : ByteArr 32} (hw : Sound policy w)
    (hcreated : isDummyApplication application=false→w.env.presence=true →
      ∀ slot, u2fTarget application w.storage=some slot→MayTake policy w.ctap2 slot (u2fInfo application)) :
    Sound policy (u2fRegister cr challenge application w).2:=by
  unfold u2fRegister
  cases hdummy : isDummyApplication application with
  | true=>
    rw [if_pos rfl]
    exact sound_ofCredentials w _ ((Quiet.u2fRegisterDummy challenge application).credentials.apply w) hw
  | false=>
  rw [if_neg Bool.false_ne_true]
  have hpresence : waitForUserPresence w=(.ok w.env.presence,w):=rfl
  rw [bind_of_ok hpresence]
  cases happroved : w.env.presence with
  | false=>exact hw
  | true=>
  have hgo : requireWord true u2fSwConditionsNotSatisfied w=(.ok (),w):=rfl
  rw [bind_of_ok hgo]
  cases hslot : u2fTarget application w.storage with
  | none=>
    rw [bind_of_ok (createCredential_none (h:=hslot) ..)]
    exact hw
  | some slot=>
  have hmay:=hcreated hdummy happroved slot hslot
  have fixed : ∀ {β : Type} {m : Ctap β}, Fixes Badge.credentials m →
      Keeps (Touched w slot (some (u2fInfo application))) m:=fun h=>FixesCredentials.keeps h touched_ofCredentials
  refine Triple.state (S:=Sound policy) (P:=fun t=>t=w) (Triple.conseq (Q:=fun _=>Touched w slot _)
    (E:=fun _=>Touched w slot _) ?_ (fun _ h=>h) (fun _ _ h=>hw.take h hmay) fun _ _ h=>hw.take h hmay) rfl
  refine Triple.bind (createCredential_touched cr (u2fRpId application) application [0] (ascii "U2F") false 0 .p256
    hslot) fun created=>?_
  cases created with
  | none=>exact Triple.stop fun _ h=>h.1
  | some created=>
  refine Triple.named fun u ⟨hu,hcreated⟩=>?_
  obtain rfl:=hcreated created rfl
  refine Triple.conseq (P:=Touched w created.slot (some (u2fInfo application))) ?_ (fun v hv=>hv ▸ hu)
    (fun _ _ h=>h) fun _ _ h=>h
  rw [orFailWord_some_bind]
  refine Keeps.bind (fixed fixes_u2fInitAttestation) fun _=>Keeps.bind (keeps_touched_orUnregister _ _) fun _=>?_
  refine Keeps.bind (Keeps.gets _) fun _=>Keeps.bind (keeps_touched_orUnregister _ _) fun _=>?_
  refine Keeps.bind (fixed (Quiet.u2fAttestSign cr _).credentials) fun _=>?_
  exact Keeps.bind (keeps_touched_orUnregister _ _) fun _=>Keeps.pure _

theorem findSlotByCredId_some {w t : Badge} {credId : Bytes} {slot : ℕ}
    (h : fido2StorageFindSlotByCredId credId w=(.ok (some slot),t)) : slot=(credId.headD 0).toNat:=by
  unfold fido2StorageFindSlotByCredId at h
  split at h
  · simp at h
  · obtain ⟨id,u,-,h⟩:=bind_ok.mp h
    cases id with
    | none=>simp at h
    | some id=>
      simp only [pure_apply,Prod.mk.injEq,Except.ok.injEq] at h
      have:=h.1
      split at this
      · exact (Option.some.inj this).symm
      · cases this

def u2fSelection (slot : ℕ) (c : CredInfo) : Selection:={uv:=false,byId:=true,creds:=[(slot,c)]}

theorem sound_u2fAuthenticate {w : Badge} {p1 : UInt8} {challenge application : ByteArr 32} {keyHandle : Bytes}
    (hw : Sound policy w) (hallowed : ∀ c, w.info (keyHandle.headD 0).toNat=some c → c.rpIdHash=application →
      policy application (u2fSelection (keyHandle.headD 0).toNat c) (keyHandle.headD 0).toNat c) :
    Sound policy (u2fAuthenticate cr p1 challenge application keyHandle w).2:=by
  obtain ⟨named,hnamed⟩ : ∃ n, n=(keyHandle.headD 0).toNat:=⟨_,rfl⟩
  rw [← hnamed] at hallowed
  have fixed : ∀ {β : Type} {m : Ctap β}, Fixes Badge.credentials m →
      Keeps (Holding policy w.ctap2 w.info) m:=Fixes.holding
  refine (Triple.state (S:=Holding policy w.ctap2 w.info) ?_ hw.holding).sound hw.saved
  refine Triple.bind (fixed (Quiet.requireWord _ _).credentials) fun _=>?_
  refine Triple.bind (Q:=fun slot t=>Holding policy w.ctap2 w.info t ∧
      ∀ s, slot=some s → s=named)
    ((Triple.and (fixed (Quiet.findSlotByCredId keyHandle).credentials) (Triple.of_ok (P:=fun _=>True)
      fun t slot u _ hfind s hs=>hnamed ▸ findSlotByCredId_some (hs ▸ hfind))).conseq (fun _ h=>⟨h,trivial⟩)
      (fun _ _ h=>h) fun _ _ h=>h.1) fun slot=>?_
  cases slot with
  | none=>exact Triple.stop fun _ h=>h.1
  | some slot=>
  refine Triple.named fun t ht=>?_
  obtain ⟨ht,hslot⟩:=ht
  obtain rfl : named=slot:=(hslot slot rfl).symm
  rw [orFailWord_some_bind]
  have asked : Triple (fun u=>u=t) (fido2StorageGetCredential named)
      (fun cred u=>Holding policy w.ctap2 w.info u ∧ ∀ d, cred=some d→∃ c, w.info named=some c ∧
        slotLogicalValid named=true ∧ d.rpIdHash=c.rpIdHash)
      (fun _=>Holding policy w.ctap2 w.info):=by
    have found : Triple (fun u=>u=t) (fido2StorageGetCredential named)
        (fun cred _=>∀ d, cred=some d→∃ c, w.info named=some c ∧ slotLogicalValid named=true ∧
          d.rpIdHash=c.rpIdHash) (fun _ _=>True):=by
      refine Triple.of_ok fun u cred v hu hread d hd=>?_
      obtain ⟨c,hlookup,hrp,-⟩:=getCredential_some (hd ▸ hread)
      have hvalid : slotLogicalValid named=true:=by
        by_contra h
        simp [Storage.lookup,h] at hlookup
      refine ⟨c.toCredInfo,?_,hvalid,hrp⟩
      rw [← ht.info,← hu,Badge.info,lookup_creds hlookup]
      rfl
    exact (Triple.and (fixed (Quiet.getCredential _).credentials) found).conseq (fun u hu=>⟨hu ▸ ht,hu⟩)
      (fun _ _ h=>h) fun _ _ h=>h.1
  refine Triple.bind asked fun cred=>?_
  cases cred with
  | none=>exact Triple.stop fun _ h=>h.1
  | some cred=>
  rw [orFailWord_some_bind]
  refine Triple.named fun u hu=>?_
  obtain ⟨hu,hcred⟩:=hu
  obtain ⟨c,hc,hvalid,hrp⟩:=hcred cred rfl
  refine Triple.bind (Triple.check (Q:=fun _ u=>(cred.rpIdHash == application)=true ∧
    Holding policy w.ctap2 w.info u) (fun v hv hb=>⟨hb,hv ▸ hu⟩) fun v hv _=>hv ▸ hu) fun _=>
    Triple.pre fun happlication=>?_
  have hpolicy:=hallowed c hc (hrp ▸ eq_of_beq happlication)
  refine Keeps.bind (fixed (Quiet.requireWord _ _).credentials) fun _=>?_
  refine Keeps.bind (fixed (Quiet.requireWord _ _).credentials) fun _=>?_
  refine Keeps.bind (Keeps.gets _) fun _=>Keeps.bind (fixed (Quiet.requireWord _ _).credentials) fun _=>?_
  refine Keeps.bind (keeps_holding_increment _) fun counter=>?_
  refine Keeps.bind (fixed (Quiet.requireWord _ _).credentials) fun _=>Keeps.bind keeps_holding_counter fun _=>?_
  refine Triple.bind (Triple.gets (Q:=fun storage v=>(storage.lookup named).map
    (·.toCredInfo)=some c ∧ Holding policy w.ctap2 w.info v) fun v hv=>⟨?_,hv⟩) fun storage=>
    Triple.pre fun hlookup=>?_
  · rw [← hc,← hv.info]
    simp [Storage.lookup,hvalid,Badge.info]
  obtain ⟨d,hd,rfl⟩:=Option.map_eq_some_iff.mp hlookup
  rw [hd]
  have hsign : Keeps (Holding policy w.ctap2 w.info) (fido2StorageSignRaw cr named
      (application.toList++([0x01]++be32 counter++challenge.toList)) (u2fSelection named d.toCredInfo)):=by
    refine keeps_holding_signRaw cr (List.take_left' application.toList_length) fun e he=>?_
    obtain rfl : d.toCredInfo=e:=Option.some.inj (hc.symm.trans he)
    exact hpolicy
  simp only [List.append_assoc] at hsign ⊢
  exact Keeps.bind hsign fun _=>Keeps.bind (fixed (Quiet.orFailWord _ _).credentials) fun _=>Keeps.pure _

end Creating

section Starting

variable {policy}

/-- What holds while the module starts: nothing is saved, and the cache is filled from the chip. -/
structure Starting (policy : Policy) (w : Badge) : Prop where
  agrees : Agrees w
  nothingSaved : w.ctap2={}
  signed : ∀ s∈w.signings, s.Allowed policy

theorem Starting.sound {w : Badge} (h : Starting policy w) : Sound policy w:=
  ⟨h.agrees,fun i hi=>absurd hi (by rw [h.nothingSaved]; exact Nat.not_lt_zero i),h.signed⟩

theorem starting_ofCredentials : OfCredentials (Starting policy):=by
  intro w t h hw
  have hstorage : t.storage=w.storage:=congrArg (·.storage) h
  have hchip : t.chip=w.chip:=congrArg (·.chip) h
  have hctap2 : t.ctap2=w.ctap2:=congrArg (·.ctap2) h
  have hsignings : t.signings=w.signings:=congrArg (·.signings) h
  refine ⟨?_,hctap2.trans hw.nothingSaved,by rw [hsignings]; exact hw.signed⟩
  have:=hw.agrees
  unfold Agrees AgreesAt at *
  rwa [hstorage,hchip]

theorem keeps_starting_load (slot : ℕ) : Keeps (Starting policy) (do
    match ← readRmemCredential slot with
    | some stored=>
      updateCacheFromStored slot stored
      updateStorage fun s=>{s with credCount:=s.credCount+1}
    | none=>pure ()):=by
  have read : Triple (Starting policy) (readRmemCredential slot)
      (fun r t=>Starting policy t ∧
        ∀ stored, r=some stored→t.chip.rmem (rmemSlotForLogical slot)=some (.cred stored))
      (fun _=>Starting policy):=by
    have recorded : Triple (fun _=>True) (readRmemCredential slot)
        (fun r t=>∀ stored, r=some stored→t.chip.rmem (rmemSlotForLogical slot)=some (.cred stored))
        (fun _ _=>True):=
      Triple.of_ok fun t r u _ h stored hr=>readRmemCredential_some (hr ▸ h)
    refine (Triple.and (FixesCredentials.keeps (Quiet.readRmemCredential slot).credentials
      starting_ofCredentials) recorded).conseq
      (fun _ h=>⟨h,trivial⟩) (fun _ _ h=>h) fun _ _ h=>h.1
  refine Triple.bind read fun r=>?_
  cases r with
  | none=>exact Triple.pure fun _ h=>h.1
  | some stored=>
  refine Triple.bind (Triple.modify (Q:=fun _=>Starting policy) fun t ⟨ht,hrecord⟩=>?_) fun _=>
    Keeps.modify fun t ht=>⟨ht.agrees,ht.nothingSaved,ht.signed⟩
  refine ⟨fun other c stored' hc hstored=>?_,ht.nothingSaved,ht.signed⟩
  by_cases hne : other=slot
  · subst hne
    obtain rfl : stored.cached=c:=by simpa [Storage.setCred] using hc
    obtain rfl : stored=stored':=by simpa [hrecord stored rfl] using hstored
    rfl
  · exact ht.agrees other c stored' (by simpa [Storage.setCred,hne] using hc) hstored

theorem keeps_starting_fido2Init : Keeps (Starting policy) fido2Init:=by
  have fixed : ∀ {α : Type} {m : Ctap α}, Fixes Badge.credentials m→Keeps (Starting policy) m:=fun h=>
    FixesCredentials.keeps h starting_ofCredentials
  have cleared : Keeps (Starting policy) (updateStorage fun _=>{}):=
    Keeps.modify fun t ht=>⟨fun _ _ _ hc=>(nomatch hc),ht.nothingSaved,ht.signed⟩
  have counted : Keeps (Starting policy) fido2StorageCounterLoad:=
    Keeps.bind (fixed (Quiet.nvsRead _).credentials) fun _=>Keeps.modify fun t ht=>
      ⟨ht.agrees,ht.nothingSaved,ht.signed⟩
  refine Keeps.bind (Keeps.bind cleared fun _=>Keeps.bind counted fun _=>Keeps.forM keeps_starting_load) fun _=>?_
  refine Keeps.bind (fixed fixes_u2fInitAttestation) fun _=>Keeps.bind (fixed Quiet.getMinPinLen.credentials) fun _=>?_
  exact fixed (FixesCredentials.setMinPinFloor _)

theorem sound_boot {n : ℕ} {w : Badge} (hw : ∀ s∈w.signings, s.Allowed policy) : Sound policy (boot n w):=by
  have hoff : ∀ w : Badge, (∀ s∈w.signings, s.Allowed policy) → Starting policy w.off:=fun w hw=>
    ⟨fun _ _ _ hc=>(nomatch hc),rfl,hw⟩
  induction n generalizing w with
  | zero=>exact (hoff w hw).sound
  | succ n ih=>
    have hinit:=Triple.state keeps_starting_fido2Init (hoff w hw)
    unfold boot
    generalize fido2Init w.off=r at hinit
    obtain ⟨r,t⟩:=r
    cases r with
    | ok _=>exact hinit.sound
    | error _=>exact ih hinit.signed

theorem sound_start (chip : Chip RmemContent) (nvs : Nvs) (e : Env) : Sound policy (start chip nvs e):=
  sound_boot nofun

end Starting

section Run

variable (cr : FidoCrypto)

/-- A makeCredential request puts no credential among those that are saved to sign that may not sign: neither
with the slots that its `appidExclude` finds nor with the new credential. -/
structure MakesHarmlessly (w : Badge) (params : Bytes) : Prop where
  excluded : ∀ p, mcParams cr w params=some p→p.excludes cr w.storage≠[] →
    SavedAllowed policy { w.ctap2 with
      assertionCreds:=overwrite (p.excludes cr w.storage) w.ctap2.assertionCreds } w.info
  created : ∀ p curve slot, Admits cr w params p curve→p.target w.storage=some slot →
    MayTake policy w.ctap2 slot (p.info curve)

def u2fRegistration (apdu : Bytes) : Option (ByteArr 32 × ByteArr 32):=
  if 4 ≤ apdu.length ∧ apdu.getD 0 0=0 ∧ (apdu.getD 1 0).toNat=0x01 ∧ 64 ≤ (apduData apdu).length then
    some (fit 32 (apduData apdu),fit 32 ((apduData apdu).drop 32))
  else none

def u2fAuthentication (apdu : Bytes) : Option (ByteArr 32 × Bytes):=
  if 4 ≤ apdu.length ∧ apdu.getD 0 0=0 ∧ (apdu.getD 1 0).toNat=0x02 ∧ 65 ≤ (apduData apdu).length ∧
      65+((apduData apdu).getD 64 0).toNat ≤ (apduData apdu).length then
    some (fit 32 ((apduData apdu).drop 32),((apduData apdu).drop 65).take ((apduData apdu).getD 64 0).toNat)
  else none

/-- A registration does no harm, and an authentication names a credential that may sign for it. -/
structure U2fHarmless (w : Badge) (apdu : Bytes) : Prop where
  registered : ∀ challenge application, u2fRegistration apdu=some (challenge,application) →
    isDummyApplication application=false→w.env.presence=true →
    ∀ slot, u2fTarget application w.storage=some slot→MayTake policy w.ctap2 slot (u2fInfo application)
  authenticated : ∀ application keyHandle, u2fAuthentication apdu=some (application,keyHandle) →
    ∀ c, w.info (keyHandle.headD 0).toNat=some c → c.rpIdHash=application →
      policy application (u2fSelection (keyHandle.headD 0).toNat c) (keyHandle.headD 0).toNat c

/-- The command leaves the credentials that are saved to sign as the policy wants them. -/
def Harmless (w : Badge) (i : Input) : Prop:=
  match i.command with
  | .ctap2 (command::params)=>command=0x01→MakesHarmlessly policy cr (w.given i.env) params
  | .u2f apdu=>U2fHarmless policy (w.given i.env) apdu
  | _=>True

variable {policy cr}

theorem sound_u2fProcessApdu {w : Badge} {apdu : Bytes} (hw : Sound policy w) (h : U2fHarmless policy w apdu) :
    Sound policy (u2fProcessApdu cr apdu w).2:=by
  have checked : ∀ (b : Bool) (sw : UInt16), Triple (fun t=>t=w) (requireWord b sw)
      (fun _ t=>b=true ∧ t=w) (fun _=>Sound policy):=fun b sw=>
    Triple.check (fun t ht hb=>⟨hb,ht⟩) fun t ht _=>ht ▸ hw
  refine Triple.state (S:=Sound policy) (P:=fun t=>t=w) ?_ rfl
  refine Triple.bind (checked _ _) fun _=>Triple.pre fun hlen=>?_
  refine Triple.bind (checked _ _) fun _=>Triple.pre fun hcla=>?_
  have hlen:=of_decide_eq_true hlen
  have hcla:=eq_of_beq hcla
  have whole : ∀ {m : Ctap Bytes}, Sound policy (m w).2→Triple (fun t=>t=w) m (fun _=>Sound policy)
      fun _=>Sound policy:=by
    rintro m hm t rfl
    generalize m t=r at hm
    obtain ⟨r,u⟩:=r
    cases r <;> exact hm
  split
  · rename_i hins
    refine Triple.bind (checked _ _) fun _=>Triple.pre fun hdata=>whole (sound_u2fRegister hw ?_)
    exact h.registered _ _ (if_pos ⟨hlen,hcla,hins,of_decide_eq_true hdata⟩)
  · rename_i hins
    refine Triple.bind (checked _ _) fun _=>Triple.pre fun hdata=>?_
    refine Triple.bind (checked _ _) fun _=>Triple.pre fun hhandle=>whole (sound_u2fAuthenticate hw ?_)
    exact h.authenticated _ _ (if_pos ⟨hlen,hcla,hins,of_decide_eq_true hdata,of_decide_eq_true hhandle⟩)
  · exact whole hw
  · exact whole hw

theorem sound_ctap2ProcessCommand (hpolicy : policy.Follows) {w : Badge} {cmd : Bytes} (hw : Sound policy w)
    (h : ∀ params, cmd=0x01::params→MakesHarmlessly policy cr w params) :
    Sound policy (ctap2ProcessCommand cr cmd w).2:=by
  by_cases hmanages : cmd.head?∉[some 0x01,some 0x02,some 0x08]
  · exact Triple.state (managing_keeps sound_ofCredentials keeps_sound_delete hmanages) hw
  · rw [not_not] at hmanages
    cases cmd with
    | nil=>simp at hmanages
    | cons command params=>
      obtain rfl | rfl | rfl : command=0x01 ∨ command=0x02 ∨ command=0x08:=by simpa using hmanages
      · exact sound_makeCredential hw (h params rfl).excluded (h params rfl).created
      · exact Triple.state (keeps_sound_getAssertion hpolicy params) hw
      · exact Triple.state (keeps_sound_getNextAssertion) hw

theorem step_sound (hpolicy : policy.Follows) {w : Badge} {i : Input} (h : Harmless policy cr w i)
    (hw : Sound policy w) : Sound policy (step cr w i):=by
  have hw':=sound_ofCredentials w (w.given i.env) rfl hw
  have hrun : Sound policy (i.command.run cr (w.given i.env)).2:=by
    unfold Harmless at h
    cases hcommand : i.command with
    | ctap2 cmd=>
      refine sound_ctap2ProcessCommand hpolicy hw' fun params hcmd=>?_
      rw [hcommand,hcmd] at h
      exact h rfl
    | u2f apdu=>
      rw [hcommand] at h
      exact sound_u2fProcessApdu hw' h
    | deleteCredential slot=>
      exact Triple.state (Keeps.bind (keeps_sound_delete slot) fun _=>Keeps.pure _) hw'
    | powerCycle=>exact hw'
  unfold step process
  generalize i.command.run cr (w.given i.env)=r at hrun
  split
  · exact sound_boot hrun.signed
  · exact hrun

theorem run_sound (hpolicy : policy.Follows) {w : Badge} {is : List Input} (hw : Sound policy w)
    (h : AlongRun (step cr) (Harmless policy cr) w is) : Sound policy (run (step cr) w is):=
  run_invariant (fun _ _ hi hs=>step_sound hpolicy hi hs) hw h

end Run

end CdcBadge.Fido2
