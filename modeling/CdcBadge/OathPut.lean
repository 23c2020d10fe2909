import CdcBadge.OathNames

/-!
# PUT

An entry of the same account label goes first, found in the metadata cache, and the new record
then takes the first slot that is free there.
-/

namespace CdcBadge.Oath

open Handler Tropic OathStore OathBackend
open Pin (PowerLost)

section Plan

variable (b : Badge) (a : Account)

def labelReads : ℕ → SeOutcome:=b.env.lookups.headD fun _=>.done

def freeReads : ℕ → SeOutcome:=b.env.lookups.tail.headD fun _=>.done

def deletion : DeleteOutcome:=b.env.deletes.headD {}

def writing : PayloadOutcome:=b.env.writes.headD {}

def labelled (reads : ℕ → SeOutcome) (name : Bytes) (s : Store) : Option ℕ:=
  (slots.find? fun slot=>isShown (entryAt reads s slot) && (entryAt reads s slot).name == name).map fun slot=>slot-31

def accepted : Option Account:=
  if a.secret=[] ∨ secretLen < a.secret.length then none
  else if rmemNameLen ≤ a.name.length then none
  else validateOathParams a

def erased : Option ℕ:=if (deletion b).erase.applied then labelled (labelReads b) a.name b.store else none

def afterDelete : Store:=
  match labelled (labelReads b) a.name b.store with
  | none=>b.store
  | some slot=>(deleteAccount (deletion b) slot b.store).2

def target : Option (ℕ × Account):=do
  let a' ← accepted a
  let slot ← slots.find? fun slot=>!isShown (entryAt (freeReads b) (afterDelete b a) slot)
  some (slot-31,a')

def leftIn (slot : ℕ) (a' : Account) : Option (Content Payload):=
  written (writing b).chip ((afterDelete b a).chip.rmem (31+slot)) (recordOf a')

def Written : Prop:=∃ p∈target b a, (writing b).Taken ((afterDelete b a).chip.rmem (31+p.1))

end Plan

section Calls

variable {mapSignature : UInt32} {b t : Badge} {a : Account} {s u : Store} {ok : Bool} {reads : ℕ → SeOutcome}

theorem findByName_powered (h : ∀ c < 3, (reads c).powered=true) (name : Bytes) :
    findByName reads name s=(.ok (labelled reads name s),s):=by
  unfold findByName
  rw [bind_of_ok (forEachSlot_powered h),List.find?_map,List.find?_filter]
  unfold labelled
  have hpred : (fun slot=>decide (isShown (entryAt reads s slot)=true ∧
      ((fun p : ℕ × CacheEntry=>p.2.name == name) ∘ fun slot=>(slot,entryAt reads s slot)) slot=true)) =
        fun slot=>isShown (entryAt reads s slot) && (entryAt reads s slot).name == name:=by
    funext slot
    rw [Bool.eq_iff_iff]
    simp
  rw [hpred]
  cases hfind : slots.find? fun slot=>isShown (entryAt reads s slot) && (entryAt reads s slot).name == name with
  | none=>rfl
  | some slot=>
    have hslot:=mem_slots.mp (List.mem_of_find?_eq_some hfind)
    have hlogical : toLogicalSlot slot=some (slot-31):=if_neg (by simp only [slots2fa]; omega)
    simp [hlogical]

theorem findByName_ok {name : Bytes} {found : Option ℕ} (h : findByName reads name s=(.ok found,u)) :
    found=labelled reads name s ∧ u=s:=by
  by_cases hpowered : ∀ c < 3, (reads c).powered=true
  · rw [findByName_powered hpowered] at h
    cases h
    exact ⟨rfl,rfl⟩
  · push Not at hpowered
    obtain ⟨c,hc,hoff⟩:=hpowered
    unfold findByName at h
    rw [bind_of_error (forEachSlot_unpowered hc (by simpa using hoff))] at h
    cases h

theorem findFreeSlot_ok {found : Option ℕ} (h : findFreeSlot slots2fa reads s=(.ok found,u)) :
    found=slots.find? (fun slot=>!isShown (entryAt reads s slot)) ∧ u=s:=by
  by_cases hpowered : ∀ c < 3, (reads c).powered=true
  · rw [findFreeSlot_powered hpowered] at h
    cases h
    exact ⟨rfl,rfl⟩
  · push Not at hpowered
    obtain ⟨c,hc,hoff⟩:=hpowered
    rw [findFreeSlot_unpowered hc (by simpa using hoff)] at h
    cases h

theorem writePayload_ok {o : PayloadOutcome} {slot : ℕ} (hslot : slot∈slots)
    (h : writePayload mapSignature o slot a s=(.ok ok,u)) :
    (ok=true ↔ o.Taken (s.chip.rmem slot)) ∧
      u.chip=(s.put slot (written o.chip (s.chip.rmem slot) (recordOf a))).chip:=by
  have hreply:=@rmemWriteWithHeader_ok _ s slot (slot_lt hslot) o.chip (recordOf a)
  have hstate:=rmemWriteWithHeader_state (slot_lt hslot) o.chip (recordOf a) s
  unfold writePayload at h
  obtain ⟨reply,v,hwrite,hrest⟩:=bind_ok.mp h
  rw [hwrite] at hreply hstate
  obtain rfl : v=s.put slot (written o.chip (s.chip.rmem slot) (recordOf a)):=hstate
  cases reply with
  | error e=>
    cases hrest
    exact ⟨iff_of_false Bool.false_ne_true (fun htaken=>by cases hreply.mpr htaken),rfl⟩
  | ok _=>
    obtain ⟨cached,w,hcache,hlast⟩:=bind_ok.mp hrest
    cases hlast
    refine ⟨iff_of_true rfl (hreply.mp rfl),?_⟩
    have hchip:=(writeSlot_state (slot_allowed hslot) mapSignature o.cache a.name a.flags
      (s.put slot (written o.chip (s.chip.rmem slot) (recordOf a)))).1
    rw [hcache] at hchip
    exact hchip

theorem addAccountRaw_ok {o : PayloadOutcome}
    (h : addAccountRaw mapSignature reads o a s=(.ok ok,u)) :
    match (accepted a).bind fun a'=>(slots.find? fun slot=>!isShown (entryAt reads s slot)).map fun slot=>(slot,a') with
    | none=>ok=false ∧ u=s
    | some (slot,a')=>writePayload mapSignature o slot a' s=(.ok ok,u):=by
  unfold addAccountRaw at h
  unfold accepted
  split_ifs at h ⊢
  · cases h
    exact ⟨rfl,rfl⟩
  · cases h
    exact ⟨rfl,rfl⟩
  · cases hvalid : validateOathParams a with
    | none=>
      rw [hvalid] at h
      cases h
      exact ⟨rfl,rfl⟩
    | some a'=>
      rw [hvalid] at h
      obtain ⟨found,v,hfound,hrest⟩:=bind_ok.mp h
      obtain ⟨rfl,rfl⟩:=findFreeSlot_ok hfound
      rw [Option.bind_some]
      cases hfree : slots.find? fun slot=>!isShown (entryAt reads v slot) with
      | none=>
        rw [hfree] at hrest
        cases hrest
        exact ⟨rfl,rfl⟩
      | some slot=>
        rw [hfree] at hrest
        exact hrest

theorem slot_of_find {p : ℕ→Bool} {slot : ℕ} (h : (slots.find? p).map (fun slot=>slot-31)=some slot) :
    toPhysicalSlot slot=some (31+slot) ∧ 31+slot∈slots ∧ slots.find? p=some (31+slot):=by
  obtain ⟨phys,hfind,rfl⟩:=Option.map_eq_some_iff.mp h
  have hphys:=mem_slots.mp (List.mem_of_find?_eq_some hfind)
  have heq : 31+(phys-31)=phys:=by omega
  rw [heq]
  exact ⟨(if_neg (by simp only [slots2fa]; omega)).trans (congrArg some heq),mem_slots.mpr hphys,hfind⟩

theorem onStore_ok {α : Type} {m : StoreM α} {x : α} (h : onStore m b=(.ok x,t)) :
    m b.store=(.ok x,t.store) ∧ t={b with store:=t.store}:=by
  have hresult : (m b.store).1=.ok x:=congrArg Prod.fst h
  have hstate : {b with store:=(m b.store).2}=t:=congrArg Prod.snd h
  subst hstate
  exact ⟨Prod.ext hresult rfl,rfl⟩

theorem beAddRaw_ok (h : beAddRaw mapSignature a b=(.ok ok,t)) : (ok=true ↔ Written b a) ∧
    t.store.chip=match target b a with
      | none=>(afterDelete b a).chip
      | some (slot,a')=>((afterDelete b a).put (31+slot) (leftIn b a slot a')).chip:=by
  have hadd : ∃ v, addAccountRaw mapSignature (freeReads b) (writing b) a (afterDelete b a)=(.ok ok,v) ∧ t.store=v:=by
    unfold beAddRaw at h
    obtain ⟨reads,b₁,hreads,h⟩:=bind_ok.mp h
    cases hreads
    obtain ⟨found,b₂,hfound,h⟩:=bind_ok.mp h
    obtain ⟨hfound,hb₂⟩:=onStore_ok hfound
    obtain ⟨rfl,hsame⟩:=findByName_ok hfound
    rw [hsame] at hb₂
    subst hb₂
    have hlabel : labelled (b.env.lookups.headD fun _=>.done) a.name b.store=labelled (labelReads b) a.name b.store:=rfl
    rw [hlabel] at h
    unfold afterDelete
    cases hexisting : labelled (labelReads b) a.name b.store with
    | none=>
      rw [hexisting] at h
      obtain ⟨_,b₃,hreads,h⟩:=bind_ok.mp h
      cases hreads
      obtain ⟨_,b₄,hwrite,h⟩:=bind_ok.mp h
      cases hwrite
      exact ⟨t.store,(onStore_ok h).1,rfl⟩
    | some existing=>
      rw [hexisting] at h
      obtain ⟨_,b₃,hdelete,h⟩:=bind_ok.mp h
      cases hdelete
      obtain ⟨_,b₄,hdeleted,h⟩:=bind_ok.mp h
      obtain ⟨hdeleted,hb₄⟩:=onStore_ok hdeleted
      have hstore : b₄.store=(deleteAccount (deletion b) existing b.store).2:=(congrArg Prod.snd hdeleted).symm
      rw [hstore] at hb₄
      subst hb₄
      obtain ⟨_,b₅,hreads,h⟩:=bind_ok.mp h
      cases hreads
      obtain ⟨_,b₆,hwrite,h⟩:=bind_ok.mp h
      cases hwrite
      exact ⟨t.store,(onStore_ok h).1,rfl⟩
  obtain ⟨v,hadd,rfl⟩:=hadd
  have hcases:=addAccountRaw_ok hadd
  unfold Written
  cases haccepted : accepted a with
  | none=>
    have htarget : target b a=none:=by simp [target,haccepted]
    rw [haccepted] at hcases
    obtain ⟨rfl,hsame⟩:=hcases
    rw [htarget,hsame]
    simp
  | some a'=>
    cases hfree : slots.find? fun slot=>!isShown (entryAt (freeReads b) (afterDelete b a) slot) with
    | none=>
      have htarget : target b a=none:=by simp [target,haccepted,hfree]
      rw [haccepted,Option.bind_some,hfree] at hcases
      obtain ⟨rfl,hsame⟩:=hcases
      rw [htarget,hsame]
      simp
    | some slot=>
      have htarget : target b a=some (slot-31,a'):=by simp [target,haccepted,hfree]
      have hslot:=List.mem_of_find?_eq_some hfree
      have hphys : 31+(slot-31)=slot:=by
        have:=mem_slots.mp hslot
        omega
      rw [haccepted,Option.bind_some,hfree] at hcases
      obtain ⟨hok,hchip⟩:=writePayload_ok hslot hcases
      rw [htarget]
      unfold leftIn
      simp only [Option.mem_some_iff,exists_eq_left',hphys]
      exact ⟨hok,hchip⟩

end Calls

section Effect

variable {b : Badge} {a a' : Account} {s : Store} {slot other : ℕ}

def heldAs (content : Option (Content Payload)) : Option OathEntry:=
  match content with
  | some (.record r)=>accountOf r
  | _=>none

def entryFor (a : Account) : OathEntry where
  type:=a.type
  name:=headerName a.name
  issuer:=(cstr a.issuer).take (issuerLen-1)
  secret:=a.secret.take secretLen
  algorithm:=a.algorithm
  digits:=if a.digits=0 then defaultDigits else a.digits
  period:=if a.period=0 then defaultPeriod else a.period
  counter:=a.counter
  flags:=a.flags

theorem heldAs_stored (a : Account) : heldAs (some (stored a))=some (entryFor a):=by
  have hdigits : (if a.digits=0 then defaultDigits else a.digits)≠0:=by
    split
    · decide
    · assumption
  have hperiod : (if a.period=0 then defaultPeriod else a.period)≠0:=by
    split
    · decide
    · assumption
  simp [heldAs,stored,accountOf,recordOf,entryFor,headerName_headerName,cstr_take_cstr,List.take_take,hdigits,hperiod]

theorem credential_put_self (hslot : toPhysicalSlot slot=some (31+slot)) (content : Option (Content Payload)) (s : Store) :
    credential (s.put (31+slot) content).chip slot=heldAs content:=by
  unfold credential
  rw [hslot]
  dsimp only
  rw [Storage.put_self]
  rfl

theorem target_some (h : target b a=some (slot,a')) : toPhysicalSlot slot=some (31+slot) ∧ accepted a=some a':=by
  unfold target at h
  cases haccepted : accepted a with
  | none=>simp [haccepted] at h
  | some x=>
    cases hfree : slots.find? fun slot=>!isShown (entryAt (freeReads b) (afterDelete b a) slot) with
    | none=>simp [haccepted,hfree] at h
    | some phys=>
      have hphys:=mem_slots.mp (List.mem_of_find?_eq_some hfree)
      simp only [haccepted,hfree,Option.bind_eq_bind,Option.bind_some,Option.some.injEq,Prod.mk.injEq] at h
      obtain ⟨rfl,rfl⟩:=h
      exact ⟨if_neg (by simp only [slots2fa]; omega),rfl⟩

theorem afterDelete_credential (b : Badge) (a : Account) (slot : ℕ) : credential (afterDelete b a).chip slot =
    if erased b a=some slot then none else credential b.store.chip slot:=by
  unfold afterDelete
  cases hlabel : labelled (labelReads b) a.name b.store with
  | none=>simp [erased,hlabel]
  | some existing=>
    obtain ⟨hphys,hmem,-⟩:=slot_of_find hlabel
    have hchip : (deleteAccount (deletion b) existing b.store).2.chip =
        (b.store.put (31+existing) (if (deletion b).erase.applied then none else b.store.chip.rmem (31+existing))).chip:=by
      by_cases hdone : (deletion b).erase=.done
      · rw [deleteAccount_erased hphys hdone,eraseSlot_state hmem,hdone]
        split <;> rfl
      · rw [deleteAccount_refused hphys hdone]
    dsimp only
    rw [hchip]
    unfold erased
    rw [hlabel]
    by_cases hslot : slot=existing
    · subst hslot
      cases happlied : (deletion b).erase.applied with
      | true=>simp [credential_put_none]
      | false=>simp [Storage.put_id]
    · rw [credential_put_other hslot]
      split
      · rw [if_neg fun heq=>hslot (Option.some.inj heq).symm]
      · simp

def credentialAfter (b : Badge) (a : Account) (slot : ℕ) : Option OathEntry:=
  match target b a with
  | some (written,a')=>
    if slot=written then heldAs (leftIn b a written a')
    else if erased b a=some slot then none else credential b.store.chip slot
  | none=>if erased b a=some slot then none else credential b.store.chip slot

theorem beAddRaw_credential {mapSignature : UInt32} {t : Badge} {ok : Bool} (h : beAddRaw mapSignature a b=(.ok ok,t)) (slot : ℕ) :
    credential t.store.chip slot=credentialAfter b a slot:=by
  rw [(beAddRaw_ok h).2]
  unfold credentialAfter
  cases htarget : target b a with
  | none=>exact afterDelete_credential b a slot
  | some p=>
    obtain ⟨written,a'⟩:=p
    have hphys:=(target_some htarget).1
    dsimp only
    by_cases hslot : slot=written
    · subst hslot
      rw [credential_put_self hphys,if_pos rfl]
    · rw [credential_put_other hslot,afterDelete_credential,if_neg hslot]

theorem leftIn_written (h : Written b a) (htarget : target b a=some (slot,a')) : leftIn b a slot a'=some (stored a'):=by
  obtain ⟨p,hp,hreached,hwrite,hempty⟩:=h
  rw [htarget] at hp
  cases hp
  exact written_ok hreached hwrite hempty

theorem accepted_some (h : accepted a=some a') : a'.type=a.type ∧ a'.name=a.name ∧ a'.issuer=a.issuer ∧
    a'.secret=a.secret ∧ a'.algorithm=a.algorithm ∧ a'.counter=a.counter ∧ a'.flags=a.flags ∧
    (a.period≠0→a'.period=a.period) ∧ a.name.length < rmemNameLen ∧ a.secret.length ≤ secretLen ∧
    (if a'.digits=0 then defaultDigits else a'.digits)=if a.digits=0 then defaultDigits else a.digits:=by
  unfold accepted validateOathParams at h
  split_ifs at h <;> cases h <;> simp_all

theorem parsePut_some {data : Bytes} (h : parsePut data=some a) : ∃ name, findTlv data tagName=some name ∧
    parseYkName name=some (a.period,a.issuer,a.name) ∧ a.type≠otypeCr:=by
  unfold parsePut at h
  cases hname : findTlv data tagName with
  | none=>simp [hname] at h
  | some name=>
    cases hkey : findTlv data tagKey with
    | none=>simp [hname,hkey] at h
    | some key=>
      rw [hname,hkey] at h
      simp only [Option.bind_eq_bind,Option.bind_some] at h
      match key with
      | []=>cases h
      | [_]=>cases h
      | typeAlgo::digits::secret=>
        dsimp only at h
        split at h
        · cases h
        · split at h
          · cases h
          · obtain ⟨⟨period,issuer,account⟩,hparse,hsome⟩:=Option.bind_eq_some_iff.mp h
            cases hsome
            refine ⟨name,rfl,hparse,?_⟩
            dsimp only
            split <;> decide

theorem entryFor_parts {data name : Bytes} (hparse : parsePut data=some a) (hname : findTlv data tagName=some name)
    (haccepted : accepted a=some a') : parseYkName name=some (a.period,a.issuer,a.name) ∧
      (entryFor a').name=a.name ∧ (entryFor a').issuer=a.issuer.take (issuerLen-1) ∧ (entryFor a').period=a.period ∧
      (entryFor a').type=a.type:=by
  obtain ⟨name',hname',hparts,-⟩:=parsePut_some hparse
  rw [hname] at hname'
  cases hname'
  obtain ⟨htype,hlabel,hissuer,-,-,-,-,hperiod,hlen,-⟩:=accepted_some haccepted
  obtain ⟨front,middle,rest,hp⟩:=parseYkName_some hparts
  obtain ⟨hzeroIssuer,hzeroAccount⟩:=hp.zero_notMem
  have hnonzero : a.period≠0:=by
    rcases hp.head with ⟨-,hthirty,-⟩ | ⟨digits,-,-,-,hdigits⟩
    · rw [hthirty]
      decide
    · rw [hdigits]
      exact (periodOf_pos digits).ne'
  refine ⟨hparts,?_,?_,?_,htype⟩
  · show headerName a'.name=a.name
    rw [hlabel,headerName,cstr_eq_self hzeroAccount]
    exact List.take_of_length_le (by simp only [rmemNameLen] at hlen ⊢; omega)
  · show (cstr a'.issuer).take (issuerLen-1)=_
    rw [hissuer,cstr_eq_self hzeroIssuer]
  · show (if a'.period=0 then defaultPeriod else a'.period)=a.period
    rw [hperiod hnonzero,if_neg hnonzero]

/-- The new credential is shown under its name exactly where the name is canonical. -/
theorem nameOf_entryFor {data name : Bytes} (hparse : parsePut data=some a) (hname : findTlv data tagName=some name)
    (haccepted : accepted a=some a') : nameOf (entryFor a')=name ↔ Canonical a.type name:=by
  obtain ⟨hparts,hlabel,hissuer,hperiod,htype⟩:=entryFor_parts hparse hname haccepted
  rw [← htype]
  exact nameOf_iff hparts hlabel hissuer hperiod

end Effect

def Answers (c : Chip (Content Payload)) (slot : ℕ) (name : Bytes) : Prop:=∃ f, shownAt c slot=some f ∧ nameOf f=name

/-- A credential as a `PUT` described it. -/
structure Carries (e : OathEntry) (a : Account) : Prop where
  type : e.type=a.type
  secret : e.secret=a.secret
  algorithm : e.algorithm=a.algorithm
  digits : e.digits=if a.digits=0 then defaultDigits else a.digits
  counter : e.counter=a.counter
  flags : e.flags=a.flags

/-- The slot holds the new credential, alone under its name, and the other credentials are as they were. -/
structure Stored (c c' : Chip (Content Payload)) (slot : ℕ) (name : Bytes) (a : Account) : Prop where
  held : ∃ e, shownAt c' slot=some e ∧ nameOf e=name ∧ Carries e a
  others : ∀ i f, credential c i=some f→¬Answers c i name → credential c' i=some f
  one : ∀ i j, Answers c' i name → Answers c' j name→i=j

/-- The name is canonical, what is erased or overwritten answered to it, and nothing else did. -/
structure TakesOwn (b : Badge) (a : Account) (name : Bytes) : Prop where
  canonical : Canonical a.type name
  own : ∀ slot, (erased b a=some slot ∨ ∃ a', target b a=some (slot,a')) → credential b.store.chip slot≠none →
    Answers b.store.chip slot name
  alone : ∀ slot, erased b a≠some slot→(∀ a', target b a≠some (slot,a'))→¬Answers b.store.chip slot name

/-- Nothing was erased, and the write, as far as it went, left in its slot what was there. -/
structure Spared (b : Badge) (a : Account) : Prop where
  erased : ∀ slot, erased b a=some slot→(∀ a', target b a≠some (slot,a')) → credential b.store.chip slot=none
  written : ∀ slot a', target b a=some (slot,a')→heldAs (leftIn b a slot a')=credential b.store.chip slot

section Iff

variable {b t : Badge} {a a' : Account} {name data : Bytes} {slot : ℕ}

theorem credentialAfter_target (h : target b a=some (slot,a')) : credentialAfter b a slot=heldAs (leftIn b a slot a'):=by
  unfold credentialAfter
  rw [h]
  exact if_pos rfl

theorem credentialAfter_other (h : ∀ a', target b a≠some (slot,a')) :
    credentialAfter b a slot=if erased b a=some slot then none else credential b.store.chip slot:=by
  unfold credentialAfter
  cases htarget : target b a with
  | none=>rfl
  | some p=>
    obtain ⟨written,x⟩:=p
    refine if_neg ?_
    rintro rfl
    exact h x htarget

theorem spared_iff (h : ∀ slot, credential t.store.chip slot=credentialAfter b a slot) :
    (∀ slot, credential t.store.chip slot=credential b.store.chip slot) ↔ Spared b a:=by
  constructor
  · intro hsame
    constructor
    · intro slot herased hother
      rw [← hsame slot,h slot,credentialAfter_other hother,if_pos herased]
    · intro slot a' htarget
      rw [← hsame slot,h slot,credentialAfter_target htarget]
  · intro hspared slot
    rw [h slot]
    by_cases htarget : ∃ a', target b a=some (slot,a')
    · obtain ⟨a',htarget⟩:=htarget
      rw [credentialAfter_target htarget,hspared.written slot a' htarget]
    · push Not at htarget
      rw [credentialAfter_other htarget]
      split
      · rename_i herased
        exact (hspared.erased slot herased htarget).symm
      · rfl

theorem shownAt_of_credential {c : Chip (Content Payload)} {e : OathEntry} (h : credential c slot=some e)
    (htype : e.type≠otypeCr) : shownAt c slot=some e:=by
  unfold shownAt
  rw [h]
  exact Option.filter_some_pos (by simpa using htype)

theorem answers_congr {c c' : Chip (Content Payload)} (h : credential c' slot=credential c slot) :
    Answers c' slot name ↔ Answers c slot name:=by
  unfold Answers shownAt
  rw [h]

theorem stored_iff (h : ∀ slot, credential t.store.chip slot=credentialAfter b a slot) (hwritten : Written b a)
    (hparse : parsePut data=some a) (hname : findTlv data tagName=some name) (htarget : target b a=some (slot,a')) :
    Stored b.store.chip t.store.chip slot name a ↔ TakesOwn b a name:=by
  have haccepted:=(target_some htarget).2
  have hnew : credential t.store.chip slot=some (entryFor a'):=by
    rw [h slot,credentialAfter_target htarget,leftIn_written hwritten htarget,heldAs_stored]
  obtain ⟨-,-,-,htype⟩:=parsePut_some hparse
  obtain ⟨hsame,-,-,hsecret,halgorithm,hcounter,hflags,-,-,hlen,hdigits⟩:=accepted_some haccepted
  have hnotCr : (entryFor a').type≠otypeCr:=by
    rw [show (entryFor a').type=a.type from hsame]
    exact htype
  have hshown : shownAt t.store.chip slot=some (entryFor a'):=shownAt_of_credential hnew hnotCr
  have hcanonical:=nameOf_entryFor hparse hname haccepted
  have hkept (i : ℕ) (hother : ∀ x, target b a≠some (i,x)) (herased : erased b a≠some i) :
      credential t.store.chip i=credential b.store.chip i:=by
    rw [h i,credentialAfter_other hother,if_neg herased]
  have hunique (i : ℕ) (hi : i≠slot) (x : Account) : target b a≠some (i,x):=by
    rw [htarget]
    rintro ⟨⟩
    exact hi rfl
  constructor
  · rintro ⟨⟨e,he,hnameOf,-⟩,hothers,hone⟩
    rw [hshown] at he
    cases he
    refine ⟨hcanonical.mp hnameOf,?_,?_⟩
    · intro i hi hsome
      by_contra hanswers
      obtain ⟨f,hf⟩:=Option.ne_none_iff_exists'.mp hsome
      have hleft:=hothers i f hf hanswers
      by_cases hslot : i=slot
      · subst hslot
        rw [hnew] at hleft
        cases hleft
        exact hanswers ⟨_,shownAt_of_credential hf hnotCr,hnameOf⟩
      · rcases hi with herased | ⟨x,hx⟩
        · rw [h i,credentialAfter_other (hunique i hslot),if_pos herased] at hleft
          cases hleft
        · exact hunique i hslot x hx
    · intro i herased hother hanswers
      have hi:=hone i slot ((answers_congr (hkept i hother herased)).mpr hanswers) ⟨_,hshown,hnameOf⟩
      rw [hi] at hother
      exact hother a' htarget
  · rintro ⟨hname',hown,halone⟩
    have hnameOf:=hcanonical.mpr hname'
    have hat (i : ℕ) (hanswers : Answers t.store.chip i name) : i=slot:=by
      by_contra hi
      by_cases herased : erased b a=some i
      · obtain ⟨f,hf,-⟩:=hanswers
        have hnone:=h i
        rw [credentialAfter_other (hunique i hi),if_pos herased,(shownAt_some hf).1] at hnone
        cases hnone
      · exact halone i herased (hunique i hi) ((answers_congr (hkept i (hunique i hi) herased)).mp hanswers)
    refine ⟨⟨entryFor a',hshown,hnameOf,hsame,?_,halgorithm,hdigits,hcounter,hflags⟩,?_,?_⟩
    · show a'.secret.take secretLen=a.secret
      rw [hsecret,List.take_of_length_le hlen]
    · intro i f hf hanswers
      have hnotErased : erased b a≠some i:=fun herased=>hanswers (hown i (Or.inl herased) (by simp [hf]))
      have hnotTarget (x : Account) : target b a≠some (i,x):=fun hx=>hanswers (hown i (Or.inr ⟨x,hx⟩) (by simp [hf]))
      rw [hkept i hnotTarget hnotErased,hf]
    · intro i j hi hj
      rw [hat i hi,hat j hj]

end Iff

theorem exchange_put {β : Type} {be : Backend β} {s : Ctx β} {i : Bytes × ℕ} {p : Scard.Apdu} (hp : parsed i=some p)
    (hins : p.ins=insPut) (hvalidated : s.app.validated=true) : exchange be s i =
      match parsePut p.data with
      | none=>(some ([],swWrongSyntax),{s with respMax:=i.2})
      | some a=>
        match be.addRaw a s.be with
        | (.ok ok,x)=>(some ([],if ok then swOk else swNoSpace),{s with respMax:=i.2,be:=x})
        | (.error _,x)=>(none,{s with respMax:=i.2,be:=x,app:={}}):=by
  have hprocess:=@processParsed_gated β be {s with respMax:=i.2} p (by simp [hins,insPut,insIsoSelect])
    (by simp [hins,insPut,insSendRemaining]) (by simp [hins,insPut,insReset]) (by simp [hins,insPut,insValidate]) hvalidated
  rw [exchange_parsed hp,hprocess,if_pos hins]
  unfold cmdPut
  cases parsePut p.data with
  | none=>rfl
  | some a=>
    dsimp only
    have hcall : call (be.addRaw a) {s with respMax:=i.2} =
        ((be.addRaw a s.be).1,{s with respMax:=i.2,be:=(be.addRaw a s.be).2}):=rfl
    rw [bind_apply,hcall]
    cases be.addRaw a s.be with
    | mk r x=>cases r with
      | error e=>rfl
      | ok ok=>cases ok <;> rfl

theorem exchange_put_locked {β : Type} {be : Backend β} {s : Ctx β} {i : Bytes × ℕ} {p : Scard.Apdu} (hp : parsed i=some p)
    (hins : p.ins=insPut) (hlocked : s.app.validated=false) :
    exchange be s i=(some ([],swAuthRequired),{s with respMax:=i.2}):=by
  have hprocess:=@processParsed_locked β be {s with respMax:=i.2} p (by simp [hins,insPut,insIsoSelect])
    (by simp [hins,insPut,insSendRemaining]) (by simp [hins,insPut,insReset]) (by simp [hins,insPut,insValidate]) hlocked
  rw [exchange_parsed hp,hprocess]
  rfl

/-- A `PUT` that succeeds replaces the credential of its name and touches no other, and one that fails touches none, exactly
where what it erases and overwrites is its own. -/
theorem put_frames (hmac : Hmac) (mapSignature : UInt32) (s t : Ctx Badge) (i : Bytes × ℕ) (p : Scard.Apdu) (name d : Bytes)
    (sw : UInt16) (hp : parsed i=some p) (hins : p.ins=insPut) (hname : findTlv p.data tagName=some name)
    (hreply : exchange (backend hmac mapSignature) s i=(some (d,sw),t)) :
    (sw=swOk→∃ a slot a', parsePut p.data=some a ∧ target s.be a=some (slot,a') ∧
      (Stored s.be.store.chip t.be.store.chip slot name a ↔ TakesOwn s.be a name)) ∧
    (sw≠swOk→((∀ slot, credential t.be.store.chip slot=credential s.be.store.chip slot) ↔
      ∀ a, s.app.validated=true→parsePut p.data=some a → Spared s.be a)):=by
  cases hvalidated : s.app.validated with
  | false=>
    rw [exchange_put_locked hp hins hvalidated] at hreply
    cases hreply
    refine ⟨fun hsw=>absurd hsw (by decide),fun _=>⟨?_,fun _ _=>rfl⟩⟩
    rintro - a ⟨⟩
  | true=>
  rw [exchange_put hp hins hvalidated] at hreply
  cases hparse : parsePut p.data with
  | none=>
    rw [hparse] at hreply
    cases hreply
    refine ⟨fun hsw=>absurd hsw (by decide),fun _=>⟨?_,fun _ _=>rfl⟩⟩
    rintro - a - ⟨⟩
  | some a=>
    rw [hparse] at hreply
    dsimp only at hreply
    cases hadd : (backend hmac mapSignature).addRaw a s.be with
    | mk r x=>
      rw [hadd] at hreply
      cases r with
      | error e=>cases hreply
      | ok ok=>
        cases hreply
        have hcredential:=beAddRaw_credential (show beAddRaw mapSignature a s.be=(.ok ok,x) from hadd)
        have hok:=(beAddRaw_ok (show beAddRaw mapSignature a s.be=(.ok ok,x) from hadd)).1
        constructor
        · intro hsw
          have htrue : ok=true:=by
            by_contra hfalse
            rw [if_neg hfalse] at hsw
            exact absurd hsw (by decide)
          obtain ⟨⟨slot,a'⟩,htarget,htaken⟩:=hok.mp htrue
          exact ⟨a,slot,a',rfl,htarget,stored_iff hcredential (hok.mp htrue) hparse hname htarget⟩
        · intro _
          refine (spared_iff hcredential).trans ?_
          constructor
          · rintro hspared _ - ⟨⟩
            exact hspared
          · exact fun h=>h a rfl rfl

section Replacement

def blankBadge : Ctx Badge:=badgeWith fun _=>none

def putCommand (name : Bytes) : Bytes × ℕ:=
  ([0x00,insPut,0x00,0x00,UInt8.ofNat (name.length+7)]++encodeItems [(tagName,name),(tagKey,[0x21,0x06,0x01])],2048)

/-- `a:x`, and `b:x`. -/
def nameAx : Bytes:=[0x61,0x3A,0x78]

def nameBx : Bytes:=[0x62,0x3A,0x78]

def put (name : Bytes) (s : Ctx Badge) : Option (Bytes × UInt16) × Ctx Badge:=
  exchange (backend plainHmac 0) s (putCommand name)

theorem put_frames_first : ∃ a slot a', parsePut (encodeItems [(tagName,nameAx),(tagKey,[0x21,0x06,0x01])])=some a ∧
    target blankBadge.be a=some (slot,a') ∧
      (Stored blankBadge.be.store.chip (put nameAx blankBadge).2.be.store.chip slot nameAx a ↔ TakesOwn blankBadge.be a nameAx):=
  (put_frames plainHmac 0 blankBadge (put nameAx blankBadge).2 (putCommand nameAx) _ nameAx [] swOk rfl rfl (by decide +kernel)
    (Prod.ext (by decide +kernel) rfl)).1 rfl

theorem put_replied {name : Bytes} {s : Ctx Badge} {r : Option (Bytes × UInt16)} (hr : (put name s).1=r) :
    exchange (backend plainHmac 0) s (putCommand name)=(r,(put name s).2):=
  Prod.ext hr rfl

/-- The badge before and after a `PUT` of `b:x` that finds `a:x` stored: the label `x` of both is the same. -/
theorem put_other_issuer : ∃ (p : Scard.Apdu) (s t : Ctx Badge), parsed (putCommand nameBx)=some p ∧ p.ins=insPut ∧
    findTlv p.data tagName=some nameBx ∧
    exchange (backend plainHmac 0) s (putCommand nameBx)=(some ([],swOk),t) ∧
    (credential s.be.store.chip 0).map (fun e=>(e.issuer,nameOf e))=some ([0x61],nameAx) ∧
    (credential t.be.store.chip 0).map (fun e=>e.issuer)=some [0x62]:=
  ⟨_,(put nameAx blankBadge).2,(put nameBx (put nameAx blankBadge).2).2,rfl,rfl,by decide +kernel,
    put_replied (by decide +kernel),by decide +kernel,by decide +kernel⟩

theorem put_not_framed : ¬ ∀ (s t : Ctx Badge) (i : Bytes × ℕ) (p : Scard.Apdu) (name d : Bytes), parsed i=some p →
    p.ins=insPut → findTlv p.data tagName=some name→exchange (backend plainHmac 0) s i=(some (d,swOk),t) →
    ∃ a slot, parsePut p.data=some a ∧ Stored s.be.store.chip t.be.store.chip slot name a:=by
  intro h
  obtain ⟨p,s,t,hp,hins,hname,hreply,hbefore,hafter⟩:=put_other_issuer
  obtain ⟨a,slot,-,hstored⟩:=h s t (putCommand nameBx) p nameBx [] hp hins hname hreply
  obtain ⟨f,hf,hfields⟩:=Option.map_eq_some_iff.mp hbefore
  simp only [Prod.mk.injEq] at hfields
  have hother : ¬Answers s.be.store.chip 0 nameBx:=by
    rintro ⟨g,hg,hanswers⟩
    rw [(shownAt_some hg).1] at hf
    cases hf
    rw [hfields.2] at hanswers
    exact absurd hanswers (by decide)
  have hkept:=hstored.others 0 f hf hother
  rw [hkept,Option.map_some,hfields.1] at hafter
  cases hafter

end Replacement

end CdcBadge.Oath
