import CdcBadge.MetadataCache

/-!
# The USB challenge-response slot

The wizard saves an entry and takes the designation from every other; a challenge that comes over USB
is answered by the entry designated. Both look up by label an entry whose slot they had before.
-/

namespace CdcBadge.UsbCr

open Handler Runs
open Tropic OathStore
open Oath (Account otypeCr otypeHotp oflagTouch)
open MetadataCache (owned shown)

def oflagUsbCrSlot : UInt8:=0x02

def base32CharValue (c : UInt8) : Option ℕ:=
  if 0x41 ≤ c ∧ c ≤ 0x5A then some (c.toNat-0x41)
  else if 0x61 ≤ c ∧ c ≤ 0x7A then some (c.toNat-0x61)
  else if 0x32 ≤ c ∧ c ≤ 0x37 then some (c.toNat-0x32+26)
  else none

def isSkipped (c : UInt8) : Bool:=c=0x3D || c=0x20 || c=0x09 || c=0x0D || c=0x0A

/-- The bytes of a text, after the bits of `buffer` that are left and the bytes of `out`. -/
def base32Loop (outMax : ℕ) : Bytes → ℕ → ℕ→Bytes→Option Bytes
  | [], _, _, out=>some out
  | c::text, buffer, bitsLeft, out=>
    if isSkipped c then base32Loop outMax text buffer bitsLeft out
    else
      match base32CharValue c with
      | none=>none
      | some value=>
        let buffer:=buffer*32+value
        let bitsLeft:=bitsLeft+5
        if 8 ≤ bitsLeft then
          if outMax ≤ out.length then none
          else base32Loop outMax text buffer (bitsLeft-8) (out++[UInt8.ofNat (buffer/2^(bitsLeft-8))])
        else base32Loop outMax text buffer bitsLeft out

def base32Decode (encoded : Bytes) (outMax : ℕ) : Option Bytes:=base32Loop outMax (cstr encoded) 0 0 []

/-- `WizardState`, its texts as arrays of characters. -/
structure Wizard where
  type : UInt8
  name : Bytes
  secret : Bytes
  issuer : Bytes
  digits : UInt8
  algorithm : UInt8
  period : ℕ
  counter : ℕ
  flags : UInt8
  editMode : Bool
  editSlot : ℕ

/-- What the wizard saves. A secret that does not decode is refused as an empty one is. -/
def Wizard.account (w : Wizard) : Account where
  type:=w.type
  name:=cstr w.name
  issuer:=cstr w.issuer
  secret:=(base32Decode w.secret secretLen).getD []
  digits:=w.digits
  period:=w.period
  algorithm:=w.algorithm
  counter:=w.counter
  flags:=w.flags

section Visits

variable {β : Type}

def visitEntries (visit : ℕ → β → StoreM β) : List (ℕ × CacheEntry) → β → StoreM β
  | [], acc=>pure acc
  | p::entries, acc=>do
    let acc ← visit p.1 acc
    visitEntries visit entries acc

def visitChunks (reads : ℕ → SeOutcome) (visit : ℕ → β → StoreM β) : List ℕ → β → StoreM β
  | [], acc=>pure acc
  | chunk::chunks, acc=>do
    let entries ← loadChunk (reads chunk) chunk
    let acc ← visitEntries visit (shownIn moduleId2fa slots2fa.start slots2fa.last chunk entries) acc
    visitChunks reads visit chunks acc

/-- `forEachSlot` over the range of the module, with a callback that has effects of its own. -/
def visitSlots (reads : ℕ → SeOutcome) (visit : ℕ → β → StoreM β) (acc : β) : StoreM β:=
  visitChunks reads visit
    (List.range' (slots2fa.start/chunkSlots) (slots2fa.last/chunkSlots+1-slots2fa.start/chunkSlots)) acc

end Visits

section Designation

variable (hmac : Hmac) (mapSignature : UInt32)

/-- What becomes of the accesses of a save, those of the visits by chunk and by physical slot. -/
structure SaveOutcome where
  free : ℕ → SeOutcome:=fun _=>.done
  write : PayloadOutcome:={}
  names : ℕ → SeOutcome:=fun _=>.done
  chunks : ℕ → SeOutcome:=fun _=>.done
  reads : ℕ → SeOutcome:=fun _=>.done
  clears : ℕ→PayloadOutcome:=fun _=>{}

def cleared (e : OathEntry) : OathEntry:={e with flags:=e.flags &&& ~~~oflagUsbCrSlot}

/-- The callback of `clearUsbCrFlagExcept`. -/
def clearUsbCrFlag (o : SaveOutcome) (keepSlot slot : ℕ) : StoreM Unit:=
  match toLogicalSlot slot with
  | none=>pure ()
  | some logical=>
    if logical=keepSlot then pure ()
    else do
      match ← readAccount (o.reads slot) logical with
      | none=>pure ()
      | some e=>
        if e.flags &&& oflagUsbCrSlot=0 then pure ()
        else
          match toPhysicalSlot logical with
          | none=>pure ()
          | some physSlot=>do
            let _ ← writePayload mapSignature (o.clears slot) physSlot ((cleared e).account e.counter)
            pure ()

def clearUsbCrFlagExcept (o : SaveOutcome) (keepSlot : ℕ) : StoreM Unit:=
  visitSlots o.chunks (fun slot _=>clearUsbCrFlag mapSignature o keepSlot slot) ()

def wizardSave (o : SaveOutcome) (w : Wizard) : StoreM Bool:=
  if w.editMode then updateAccount mapSignature o.write w.editSlot w.account
  else addAccountRaw mapSignature o.free o.write w.account

def wizardFinish (o : SaveOutcome) (w : Wizard) : StoreM Bool:=
  if cstr w.name=[] ∨ cstr w.secret=[] then pure false
  else do
    if ← wizardSave mapSignature o w then
      if w.flags &&& oflagUsbCrSlot≠0 then
        match ← findByName o.names w.account.name with
        | none=>pure true
        | some slot=>do
          clearUsbCrFlagExcept mapSignature o slot
          pure true
      else pure true
    else pure false

/-- What becomes of the accesses of an answer, the hash included. -/
structure RespondOutcome where
  chunks : ℕ → SeOutcome:=fun _=>.done
  reads : ℕ → SeOutcome:=fun _=>.done
  entry : SeOutcome:=.done
  names : ℕ → SeOutcome:=fun _=>.done
  read : SeOutcome:=.done
  hmac : Bool:=true

def challengeResponse (o : RespondOutcome) (entryName challenge : Bytes) : StoreM (Option (Bytes × Bool)):=do
  match ← findByName o.names entryName with
  | none=>pure none
  | some slot=>
    match ← readAccount o.read slot with
    | none=>pure none
    | some e=>
      if e.type≠otypeCr then pure none
      else if e.secret=[] then pure none
      else if e.algorithm≠0 ∧ e.algorithm≠1 then pure none
      else if o.hmac then
        pure (some ((hmac (hashAlgorithm e.algorithm) e.secret challenge).toList,e.flags &&& oflagTouch≠0))
      else pure none

def isUsbCr (e : OathEntry) : Bool:=e.type=otypeCr && e.flags &&& oflagUsbCrSlot≠0

/-- The callback of `findUsbCrSlot`, with what was found before. -/
def checkUsbCr (o : RespondOutcome) (slot : ℕ) (found : Option ℕ) : StoreM (Option ℕ):=
  if found.isSome then pure found
  else
    match toLogicalSlot slot with
    | none=>pure none
    | some logical=>do
      match ← readAccount (o.reads slot) logical with
      | none=>pure none
      | some e=>pure (if isUsbCr e then some logical else none)

def findUsbCrSlot (o : RespondOutcome) : StoreM (Option ℕ):=visitSlots o.chunks (checkUsbCr o) none

def challengeResponseUsbSlot (o : RespondOutcome) (challenge : Bytes) : StoreM (Option (Bytes × Bool)):=do
  match ← findUsbCrSlot o with
  | none=>pure none
  | some slot=>
    match ← readAccount o.entry slot with
    | none=>pure none
    | some e=>challengeResponse hmac o e.name challenge

inductive Event
  | add (reads : ℕ → SeOutcome) (o : PayloadOutcome) (a : Account)
  | update (o : PayloadOutcome) (slot : ℕ) (a : Account)
  | wizard (o : SaveOutcome) (w : Wizard)
  | delete (o : DeleteOutcome) (slot : ℕ)
  | calculate (o : CalcOutcome) (slot : ℕ) (challenge : ByteArr 8)
  | generate (o : CalcOutcome) (time : Option ℕ) (slot : ℕ)
  | respond (o : RespondOutcome) (challenge : Bytes)

def step (s : Store) : Event → Store
  | .add reads o a=>(addAccountRaw mapSignature reads o a s).2
  | .update o slot a=>(updateAccount mapSignature o slot a s).2
  | .wizard o w=>(wizardFinish mapSignature o w s).2
  | .delete o slot=>(deleteAccount o slot s).2
  | .calculate o slot challenge=>(calculateForChallenge hmac mapSignature o slot challenge s).2
  | .generate o time slot=>(generateCode hmac mapSignature o time slot s).2
  | .respond o challenge=>(challengeResponseUsbSlot hmac o challenge s).2

/-- The logical slot holds an entry with the flag. -/
def Carries (s : Store) (slot : ℕ) : Prop:=
  ∃ e, credential s.chip slot=some e ∧ e.flags &&& oflagUsbCrSlot≠0

def accepted (a : Account) : Option Account:=
  if rmemNameLen ≤ a.name.length then none
  else if a.secret=[] ∨ secretLen < a.secret.length then none
  else validateOathParams a

def Wizard.written (w : Wizard) : Option Account:=
  if cstr w.name=[] ∨ cstr w.secret=[] then none else accepted w.account

def validSlot (slot : ℕ) : Option ℕ:=if slot < capacity then some slot else none

def freeSlot (s : Store) : Option ℕ:=(List.range capacity).find? fun slot=>!shown s (31+slot)

/-- The logical slot that a save writes: the one edited, or the first that is free. -/
def savedSlot (s : Store) (w : Wizard) : Option ℕ:=
  if w.written.isNone then none
  else if w.editMode then validSlot w.editSlot
  else freeSlot s

def flaggedSlot (s : Store) : Option ℕ:=
  (List.range capacity).find? fun slot=>(credential s.chip slot).any isUsbCr

/-- The digest under the secret of the entry flagged and its touch flag, or nothing. -/
def expected (s : Store) (challenge : Bytes) : Option (Bytes × Bool):=
  ((flaggedSlot s).bind (credential s.chip)).map fun e=>
    ((hmac (hashAlgorithm e.algorithm) e.secret challenge).toList,e.flags &&& oflagTouch≠0)

/-- A save that designates leaves the flag with the entry saved alone; an answer is that of the entry flagged. -/
def Right (s : Store) : Event→Prop
  | .wizard o w=>∀ t, wizardFinish mapSignature o w s=(.ok true,t)→w.flags &&& oflagUsbCrSlot≠0 →
      ∃ saved, savedSlot s w=some saved ∧ ∀ slot, Carries t slot ↔ slot=saved
  | .respond o challenge=>(challengeResponseUsbSlot hmac o challenge s).1=.ok (expected hmac s challenge)
  | _=>True

def label (s : Store) (slot : ℕ) : Option Bytes:=
  match s.chip.rmem (31+slot) with
  | some (.record r)=>if r.moduleId=moduleId2fa then some (headerName r.name) else none
  | _=>none

def Heeds (s : Store) : Event→Prop
  | .add reads o _=>(reads=fun _=>.done) ∧ o={}
  | .update o _ _=>o={}
  | .wizard o w=>o={} ∧ (w.flags &&& oflagUsbCrSlot≠0 →
      ∀ saved, savedSlot s w=some saved→∀ slot < saved, label s slot≠some w.account.name)
  | .delete o _=>o={}
  | .calculate o _ _=>o={}
  | .generate o _ _=>o={}
  | .respond o _=>o={} ∧
      ∀ flagged, flaggedSlot s=some flagged→∀ slot < flagged, label s slot≠label s flagged

end Designation

section Effects

variable {mapSignature : UInt32} {s t : Store} {slot : ℕ} {a : Account}

theorem slot_mem (h : slot < capacity) : 31+slot∈slots:=by
  have hcapacity : capacity=100:=rfl
  rw [mem_slots]
  omega

theorem slot_of_mem {physSlot : ℕ} (h : physSlot∈slots) : ∃ slot < capacity, physSlot=31+slot:=by
  have hrange:=mem_slots.mp h
  have hcapacity : capacity=100:=rfl
  exact ⟨physSlot-31,by omega,by omega⟩

theorem toPhysicalSlot_lt (h : slot < capacity) : toPhysicalSlot slot=some (31+slot):=by
  have hcapacity : capacity=100:=rfl
  exact if_neg (show ¬130 < 31+slot by omega)

theorem lt_capacity {physSlot : ℕ} (h : toPhysicalSlot slot=some physSlot) : physSlot=31+slot ∧ slot < capacity:=by
  obtain ⟨rfl,hmem⟩:=toPhysicalSlot_some h
  have hcapacity : capacity=100:=rfl
  have:=mem_slots.mp hmem
  exact ⟨rfl,by omega⟩

theorem toLogicalSlot_add (h : slot < capacity) : toLogicalSlot (31+slot)=some slot:=by
  have hcapacity : capacity=100:=rfl
  have hrange : ¬(31+slot < 31 ∨ 130 < 31+slot):=by omega
  exact (if_neg hrange).trans (congrArg some (Nat.add_sub_cancel_left 31 slot))

theorem slots_eq_map : slots=(List.range capacity).map (31 + ·):=List.range'_eq_map_range

def cacheEntry (a : Option Account) : CacheEntry:=
  match a with
  | none=>{}
  | some a=>entryOf moduleId2fa a.flags a.name

/-- An account, or nothing, is put into a slot, and its entry into the cache. -/
structure Placed (s : Store) (slot : ℕ) (a : Option Account) (t : Store) : Prop where
  rmem : t.chip.rmem=Function.update s.chip.rmem (31+slot) (a.map stored)
  cached : ∀ other, cached t other=if other=31+slot then cacheEntry a else cached s other

def entryWritten (a : Account) : Option OathEntry:=accountOf {recordOf a with name:=headerName a.name}

theorem cached_congr (h : t.chunks=s.chunks) (slot : ℕ) : cached t slot=cached s slot:=by
  unfold cached entryAt loaded
  rw [h]

theorem writePayload_done (hslot : slot < capacity) (mapSignature : UInt32) (a : Account) (s : Store) :
    ∃ t, writePayload mapSignature {} (31+slot) a s=(.ok true,t) ∧ Placed s slot (some a) t:=by
  have hmem:=slot_mem hslot
  have htaken : PayloadOutcome.Taken {} (s.chip.rmem (31+slot)):=⟨rfl,rfl,Or.inl rfl⟩
  have hstate : (writePayload mapSignature {} (31+slot) a s).2=_:=writePayload_taken hmem htaken
  obtain ⟨hchip,hchunks⟩:=writeSlot_state (slot_allowed hmem) mapSignature {} a.name a.flags
    (s.put (31+slot) (some (stored a)))
  rw [← hstate] at hchip hchunks
  have hreply:=(rmemWriteWithHeader_ok (s:=s) (slot_lt hmem) (r:=recordOf a)).mpr htaken
  have hok : (writePayload mapSignature {} (31+slot) a s).1=.ok true:=by
    unfold writePayload
    rw [bind_apply]
    generalize rmemWriteWithHeader {} (31+slot) (recordOf a) s=x at hreply
    obtain ⟨reply,u⟩:=x
    obtain rfl : reply=_:=hreply
    simp [writeSlot,slot_allowed hmem,bind_apply,saveHeader,nvsSet,setEntry,loadChunk,nvsGet,saveChunk]
  refine ⟨_,Prod.ext hok rfl,congrArg Chip.rmem hchip,?_⟩
  intro other
  rw [cached_congr hchunks,cached_setCached]
  rfl

theorem deleteAccount_done (hslot : slot < capacity) (s : Store) :
    ∃ t, deleteAccount {} slot s=(.ok true,t) ∧ Placed s slot none t:=by
  have hmem:=slot_mem hslot
  have hphys:=toPhysicalSlot_lt hslot
  have hstate : (deleteAccount {} slot s).2=_:=deleteAccount_erased hphys rfl
  rw [eraseSlot_state hmem,if_pos ⟨rfl,rfl⟩] at hstate
  have hok : (deleteAccount {} slot s).1=.ok true:=by
    unfold deleteAccount
    simp [hphys,bind_apply,seCall_erase (slot_lt hmem),answered,replied,eraseSlot,slot_allowed hmem,setEntry,
      loadChunk,nvsGet,saveChunk,nvsSet]
  exact ⟨_,Prod.ext hok hstate,rfl,fun other=>cached_setCached (31+slot) other {} (s.put (31+slot) none)⟩

namespace Placed

variable {a : Option Account}

theorem label (h : Placed s slot a t) (other : ℕ) :
    label t other=if other=slot then a.map fun a=>headerName a.name else label s other:=by
  unfold UsbCr.label
  rw [h.rmem]
  by_cases hother : other=slot
  · subst hother
    rw [Function.update_self,if_pos rfl]
    cases a with
    | none=>rfl
    | some a=>exact congrArg some (headerName_headerName a.name)
  · rw [Function.update_of_ne (by omega),if_neg hother]

theorem credential (h : Placed s slot a t) (hslot : slot < capacity) (other : ℕ) :
    credential t.chip other=if other=slot then a.bind entryWritten else credential s.chip other:=by
  by_cases hother : other=slot
  · subst hother
    unfold OathStore.credential
    rw [toPhysicalSlot_lt hslot,h.rmem,if_pos rfl]
    dsimp only
    rw [Function.update_self]
    cases a <;> rfl
  · rw [if_neg hother]
    apply credential_congr
    rw [h.rmem,Function.update_of_ne (by omega)]

theorem shown (h : Placed s slot a t) (other : ℕ) :
    shown t (31+other)=if other=slot then a.isSome else shown s (31+other):=by
  unfold MetadataCache.shown
  rw [h.cached]
  by_cases hother : other=slot
  · rw [if_pos (by omega),if_pos hother]
    cases a with
    | none=>rfl
    | some a=>exact MetadataCache.isShown_entryOf a.flags a.name
  · rw [if_neg (by omega),if_neg hother]

end Placed

theorem entryWritten_some (a : Account) : ∃ e, entryWritten a=some e ∧ e.type=a.type ∧ e.flags=a.flags ∧
    e.algorithm=a.algorithm ∧ e.secret=a.secret.take secretLen:=
  ⟨_,rfl,rfl,rfl,rfl,rfl⟩

/-- A challenge-response entry has a secret, and a hash that it can be used with. -/
def Usable (e : OathEntry) : Prop:=e.type=otypeCr→e.secret≠[] ∧ (e.algorithm=0 ∨ e.algorithm=1)

/-- The cache shows the labels that the chip holds, and no challenge-response entry is unusable. -/
structure Sound (s : Store) : Prop where
  labels : ∀ slot < capacity,
    UsbCr.label s slot=if MetadataCache.shown s (31+slot) then some (Tropic.cached s (31+slot)).name else none
  usable : ∀ slot e, OathStore.credential s.chip slot=some e→Usable e

theorem Sound.placed {a : Option Account} (hs : Sound s) (hslot : slot < capacity) (h : Placed s slot a t)
    (hfit : ∀ account e, a=some account→entryWritten account=some e→Usable e) : Sound t where
  labels other hother:=by
    rw [h.label,h.shown,h.cached]
    by_cases heq : other=slot
    · simp only [heq,if_true]
      cases a <;> rfl
    · have hcell : 31+other≠31+slot:=by omega
      simp only [heq,hcell,if_false]
      exact hs.labels other hother
  usable other e he:=by
    rw [h.credential hslot] at he
    by_cases heq : other=slot
    · rw [if_pos heq] at he
      obtain ⟨account,haccount,hwritten⟩:=Option.bind_eq_some_iff.mp he
      exact hfit account e haccount hwritten
    · rw [if_neg heq] at he
      exact hs.usable other e he

end Effects

variable {e : OathEntry}

section Lookups

variable {mapSignature : UInt32} {s t : Store} {slot : ℕ}

theorem slots_find (p : ℕ→Bool) :
    slots.find? p=((List.range capacity).find? fun slot=>p (31+slot)).map (31 + ·):=by
  rw [slots_eq_map,List.find?_map,Function.comp_def]

theorem slots_findLogical (p : ℕ→Bool) :
    (slots.find? p).bind toLogicalSlot=(List.range capacity).find? fun slot=>p (31+slot):=by
  rw [slots_find]
  cases hfind : (List.range capacity).find? fun slot=>p (31+slot) with
  | none=>rfl
  | some slot=>exact toLogicalSlot_add (List.mem_range.mp (List.mem_of_find?_eq_some hfind))

theorem find_some {p : ℕ→Bool} (h : (List.range capacity).find? p=some slot) :
    slot < capacity ∧ p slot=true ∧ ∀ lower < slot, p lower=false:=by
  obtain ⟨hp,hmem,hbefore⟩:=List.find?_range_eq_some.mp h
  exact ⟨List.mem_range.mp hmem,hp,fun lower hlower=>by simpa using hbefore lower hlower⟩

theorem Sound.credential_label (hs : Sound s) (he : credential s.chip slot=some e) :
    slot < capacity ∧ label s slot=some e.name ∧ shown s (31+slot)=true:=by
  obtain ⟨hphys,-,r,hcontent,hr⟩:=credential_some he
  obtain ⟨-,hslot⟩:=lt_capacity hphys
  have hid : r.moduleId=moduleId2fa:=by
    by_contra hid
    unfold accountOf at hr
    rw [if_pos hid] at hr
    cases hr
  have hlabel : label s slot=some e.name:=by
    unfold label
    rw [hcontent,(accountOf_fields hr).1]
    exact if_pos hid
  refine ⟨hslot,hlabel,?_⟩
  by_contra hshown
  rw [hs.labels slot hslot,if_neg hshown] at hlabel
  cases hlabel

def named (s : Store) (name : Bytes) : Option ℕ:=(List.range capacity).find? fun slot=>label s slot == some name

theorem findByName_done (hs : Sound s) (name : Bytes) :
    findByName (fun _=>.done) name s=(.ok (named s name),s):=by
  unfold findByName
  refine (bind_of_ok (forEachSlot_powered fun _ _=>rfl)).trans ?_
  apply congrArg (fun r=>(Except.ok r,s))
  rw [List.find?_map,List.find?_filter]
  have hfind (p : Option ℕ) : (p.map fun slot=>(slot,entryAt (fun _=>.done) s slot)).bind
      (fun q=>toLogicalSlot q.1)=p.bind toLogicalSlot:=by
    cases p <;> rfl
  rw [hfind,slots_findLogical]
  unfold named
  apply List.find?_congr
  intro slot hslot
  rw [hs.labels slot (List.mem_range.mp hslot)]
  have hshown : isShown (entryAt (fun _=>.done) s (31+slot))=shown s (31+slot):=rfl
  rw [Bool.eq_iff_iff]
  simp only [hshown,Function.comp]
  split
  · rename_i h
    simp [h,cached]
  · rename_i h
    simp [h]

theorem named_first {name : Bytes} (hslot : slot < capacity) (h : label s slot=some name)
    (hlower : ∀ lower < slot, label s lower≠some name) : named s name=some slot:=by
  refine List.find?_range_eq_some.mpr ⟨by simpa using h,List.mem_range.mpr hslot,?_⟩
  intro lower hlt
  simpa using hlower lower hlt

end Lookups

section VisitRuns

variable {β : Type} {visit : ℕ → β → StoreM β} {s : Store}

/-- What holds of the slots visited so far, each visit adds its slot to. -/
def Extends (visit : ℕ → β → StoreM β) (s : Store) (J : List ℕ → β → Store→Prop) : Prop:=
  ∀ done slot acc u, J done acc u → slot∈slots → shown s slot=true →
    ∃ acc' v, visit slot acc u=(.ok acc',v) ∧ J (done++[slot]) acc' v

variable {J : List ℕ → β → Store→Prop}

theorem visitEntries_run (hvisit : Extends visit s J) (entries : List (ℕ × CacheEntry))
    (hentries : ∀ p∈entries, p.1∈slots ∧ shown s p.1=true) {done : List ℕ} {acc : β} {u : Store} (h : J done acc u) :
    ∃ acc' v, visitEntries visit entries acc u=(.ok acc',v) ∧ J (done++entries.map Prod.fst) acc' v:=by
  induction entries generalizing done acc u with
  | nil=>exact ⟨acc,u,rfl,by simpa using h⟩
  | cons p entries ih=>
    obtain ⟨hmem,hshown⟩:=hentries p List.mem_cons_self
    obtain ⟨acc',v,hcall,hv⟩:=hvisit done p.1 acc u h hmem hshown
    obtain ⟨acc'',w,hrest,hw⟩:=ih (fun q hq=>hentries q (List.mem_cons_of_mem p hq)) hv
    refine ⟨acc'',w,?_,by simpa using hw⟩
    unfold visitEntries
    rw [bind_of_ok hcall,hrest]

def shownOf (s : Store) (chunk : ℕ) : List ℕ:=
  (List.range' (chunk*chunkSlots) chunkSlots).filter fun slot=>decide (31 ≤ slot ∧ slot ≤ 130) && shown s slot

theorem shownIn_shownOf (s : Store) (chunk : ℕ) :
    (shownIn moduleId2fa slots2fa.start slots2fa.last chunk (loaded .done s chunk)).map Prod.fst=shownOf s chunk:=by
  rw [@shownIn_slots (fun _=>.done) s chunk,List.map_map]
  exact List.map_id _

theorem mem_shownOf {slot chunk : ℕ} (h : slot∈shownOf s chunk) : slot∈slots ∧ shown s slot=true:=by
  simp only [shownOf,List.mem_filter,Bool.and_eq_true,decide_eq_true_eq] at h
  exact ⟨mem_slots.mpr h.2.1,h.2.2⟩

theorem shownOf_congr {u : Store} (h : ∀ slot∈slots, shown u slot=shown s slot) (chunk : ℕ) :
    shownOf u chunk=shownOf s chunk:=by
  apply List.filter_congr
  intro slot _
  by_cases hrange : 31 ≤ slot ∧ slot ≤ 130
  · rw [h slot (mem_slots.mpr hrange)]
  · simp [hrange]

theorem visitChunks_run (hvisit : Extends visit s J)
    (hshown : ∀ done acc u, J done acc u→∀ slot∈slots, shown u slot=shown s slot) (chunks : List ℕ)
    {done : List ℕ} {acc : β} {u : Store} (h : J done acc u) :
    ∃ acc' v, visitChunks (fun _=>.done) visit chunks acc u=(.ok acc',v) ∧
      J (done++chunks.flatMap (shownOf s)) acc' v:=by
  induction chunks generalizing done acc u with
  | nil=>exact ⟨acc,u,rfl,by simpa using h⟩
  | cons chunk chunks ih=>
    have hslots:=(shownIn_shownOf u chunk).trans (shownOf_congr (hshown done acc u h) chunk)
    obtain ⟨acc',v,hcall,hv⟩:=visitEntries_run hvisit
      (shownIn moduleId2fa slots2fa.start slots2fa.last chunk (loaded .done u chunk))
      (fun p hp=>mem_shownOf (hslots ▸ List.mem_map_of_mem hp)) h
    rw [hslots] at hv
    obtain ⟨acc'',w,hrest,hw⟩:=ih hv
    refine ⟨acc'',w,?_,by simpa using hw⟩
    unfold visitChunks
    rw [bind_of_ok (loadChunk_powered rfl chunk u),bind_of_ok hcall,hrest]

theorem visitSlots_run (hvisit : Extends visit s J)
    (hshown : ∀ done acc u, J done acc u→∀ slot∈slots, shown u slot=shown s slot) {acc : β} (h : J [] acc s) :
    ∃ acc' t, visitSlots (fun _=>.done) visit acc s=(.ok acc',t) ∧ J (slots.filter (shown s)) acc' t:=by
  obtain ⟨acc',t,hcall,ht⟩:=visitChunks_run hvisit hshown [0,1,2] h
  have hall : [0,1,2].flatMap (shownOf s)=slots.filter (shown s):=chunks_filter (shown s)
  rw [List.nil_append,hall] at ht
  exact ⟨acc',t,hcall,ht⟩

end VisitRuns

section Clearing

variable {mapSignature : UInt32} {s : Store} {keepSlot : ℕ}

theorem cleared_flags (flags : UInt8) : (flags &&& ~~~oflagUsbCrSlot) &&& oflagUsbCrSlot=0 ∧
    (flags &&& oflagUsbCrSlot=0 → flags &&& ~~~oflagUsbCrSlot=flags):=by
  revert flags
  exact forall_byte (by decide +kernel)

theorem entryWritten_cleared {slot : ℕ} (he : credential s.chip slot=some e) :
    entryWritten ((cleared e).account e.counter)=some (cleared e):=by
  obtain ⟨-,-,r,-,hr⟩:=credential_some he
  exact accountOf_rewritten hr e.counter (e.flags &&& ~~~oflagUsbCrSlot)

/-- The flag is taken from the entries visited, but for the one kept. -/
structure Clears (s : Store) (keepSlot : ℕ) (done : List ℕ) (t : Store) : Prop where
  sound : Sound t
  shown : ∀ slot∈slots, shown t slot=MetadataCache.shown s slot
  entries : ∀ slot, credential t.chip slot =
    if 31+slot∈done ∧ slot≠keepSlot then (credential s.chip slot).map cleared else credential s.chip slot

theorem clearUsbCrFlag_done {slot : ℕ} (hslot : slot < capacity) (s : Store) :
    clearUsbCrFlag mapSignature {} keepSlot (31+slot) s =
      if slot=keepSlot then (.ok (),s)
      else
        match credential s.chip slot with
        | none=>(.ok (),s)
        | some e=>
          if e.flags &&& oflagUsbCrSlot=0 then (.ok (),s)
          else (.ok (),(writePayload mapSignature {} (31+slot) ((cleared e).account e.counter) s).2):=by
  unfold clearUsbCrFlag
  rw [toLogicalSlot_add hslot]
  dsimp only
  split
  · rfl
  · rw [bind_of_ok (readAccount_done slot s)]
    cases hcred : credential s.chip slot with
    | none=>rfl
    | some e=>
      dsimp only
      split
      · rfl
      · rw [toPhysicalSlot_lt hslot]
        obtain ⟨t,hwrite,-⟩:=writePayload_done hslot mapSignature ((cleared e).account e.counter) s
        dsimp only
        rw [bind_of_ok hwrite,hwrite]
        rfl

theorem cleared_of_clear (h : e.flags &&& oflagUsbCrSlot=0) : cleared e=e:=by
  unfold cleared
  rw [(cleared_flags e.flags).2 h]

theorem cleared_cleared (e : OathEntry) : cleared (cleared e)=cleared e:=
  cleared_of_clear (cleared_flags e.flags).1

theorem Clears.next {done : List ℕ} {slot : ℕ} {t u : Store} (h : Clears s keepSlot done t) (hsound : Sound u)
    (hshown : ∀ other, MetadataCache.shown u (31+other)=MetadataCache.shown t (31+other))
    (hentries : ∀ other, credential u.chip other =
      if other=slot ∧ slot≠keepSlot then (credential t.chip slot).map cleared else credential t.chip other) :
    Clears s keepSlot (done++[31+slot]) u where
  sound:=hsound
  shown physSlot hmem:=by
    obtain ⟨other,-,rfl⟩:=slot_of_mem hmem
    rw [hshown,h.shown _ hmem]
  entries other:=by
    have hmem : 31+other∈done++[31+slot] ↔ 31+other∈done ∨ other=slot:=by
      simp only [List.mem_append,List.mem_singleton,Nat.add_left_cancel_iff]
    rw [hentries]
    simp only [hmem]
    by_cases heq : other=slot
    · subst heq
      rw [h.entries]
      by_cases hkeep : other=keepSlot
      · simp [hkeep]
      · by_cases hdone : 31+other∈done
        · simp [hkeep,hdone,Option.map_map,Function.comp_def,cleared_cleared]
        · simp [hkeep,hdone]
    · simp only [heq,false_and,if_false,or_false]
      exact h.entries other

theorem Clears.visit (mapSignature : UInt32) (done : List ℕ) {slot : ℕ} {t : Store} (h : Clears s keepSlot done t)
    (hslot : slot < capacity) :
    ∃ u, clearUsbCrFlag mapSignature {} keepSlot (31+slot) t=(.ok (),u) ∧
      Clears s keepSlot (done++[31+slot]) u:=by
  rw [clearUsbCrFlag_done hslot]
  have hsame (hclear : slot=keepSlot ∨ (credential t.chip slot).map cleared=credential t.chip slot) :
      Clears s keepSlot (done++[31+slot]) t:=by
    apply h.next h.sound fun _=>rfl
    intro other
    split
    · rename_i hother
      obtain ⟨rfl,hkeep⟩:=hother
      exact (hclear.resolve_left hkeep).symm
    · rfl
  by_cases hkeep : slot=keepSlot
  · rw [if_pos hkeep]
    exact ⟨t,rfl,hsame (Or.inl hkeep)⟩
  · rw [if_neg hkeep]
    cases hcred : credential t.chip slot with
    | none=>exact ⟨t,rfl,hsame (Or.inr (by rw [hcred]; rfl))⟩
    | some e=>
      dsimp only
      by_cases hflag : e.flags &&& oflagUsbCrSlot=0
      · rw [if_pos hflag]
        exact ⟨t,rfl,hsame (Or.inr (by rw [hcred,Option.map_some,cleared_of_clear hflag]))⟩
      · rw [if_neg hflag]
        obtain ⟨u,hwrite,hplaced⟩:=writePayload_done hslot mapSignature ((cleared e).account e.counter) t
        have hwritten:=entryWritten_cleared hcred
        have hsound : Sound u:=by
          apply h.sound.placed hslot hplaced
          rintro account e' ⟨⟩ he'
          obtain rfl:=Option.some.inj (hwritten.symm.trans he')
          exact h.sound.usable slot e hcred
        refine ⟨u,by rw [hwrite],h.next hsound ?_ ?_⟩
        · intro other
          rw [hplaced.shown]
          split
          · rename_i heq
            rw [heq,(h.sound.credential_label hcred).2.2]
            rfl
          · rfl
        · intro other
          rw [hplaced.credential hslot]
          simp only [hkeep,ne_eq,not_false_eq_true,and_true,hcred,Option.bind_some,Option.map_some,hwritten]

theorem clearUsbCrFlagExcept_done (hs : Sound s) (mapSignature : UInt32) (keepSlot : ℕ) :
    ∃ t, clearUsbCrFlagExcept mapSignature {} keepSlot s=(.ok (),t) ∧ Sound t ∧
      ∀ slot, Carries t slot ↔ slot=keepSlot ∧ Carries s slot:=by
  have hstart : Clears s keepSlot [] s:={
    sound:=hs
    shown:=fun _ _=>rfl
    entries:=by simp }
  have hvisit : Extends (fun slot _=>clearUsbCrFlag mapSignature {} keepSlot slot) s
      fun done (_ : Unit) t=>Clears s keepSlot done t:=by
    intro done physSlot _ u hu hmem _
    obtain ⟨slot,hslot,rfl⟩:=slot_of_mem hmem
    obtain ⟨v,hv,hnext⟩:=hu.visit mapSignature done hslot
    exact ⟨(),v,hv,hnext⟩
  obtain ⟨_,t,hcall,ht⟩:=visitSlots_run hvisit (fun _ _ u hu=>hu.shown) hstart
  refine ⟨t,hcall,ht.sound,?_⟩
  intro slot
  unfold Carries
  rw [ht.entries]
  cases hcred : credential s.chip slot with
  | none=>simp
  | some e=>
    obtain ⟨hslot,-,hshown⟩:=hs.credential_label hcred
    have hvisited : 31+slot∈slots.filter (MetadataCache.shown s):=
      List.mem_filter.mpr ⟨slot_mem hslot,hshown⟩
    by_cases hkeep : slot=keepSlot
    · simp [hkeep]
    · simp [hvisited,hkeep,cleared,(cleared_flags e.flags).1]

end Clearing

section Saves

variable {mapSignature : UInt32} {s : Store} {a b : Account} {w : Wizard}

theorem accepted_some (h : accepted a=some b) : a.secret≠[] ∧ a.secret.length ≤ secretLen ∧
    a.name.length < rmemNameLen ∧ validateOathParams a=some b:=by
  unfold accepted at h
  split at h
  · cases h
  · rename_i hname
    split at h
    · cases h
    · rename_i hsecret
      push Not at hsecret
      exact ⟨hsecret.1,hsecret.2,by omega,h⟩

theorem validateOathParams_some (h : validateOathParams a=some b) :
    b.name=a.name ∧ b.flags=a.flags ∧ b.type=a.type ∧ b.secret=a.secret ∧ b.algorithm=a.algorithm ∧
      (a.type=otypeCr→a.algorithm=0 ∨ a.algorithm=1):=by
  unfold validateOathParams at h
  split at h
  · cases h
  · split at h
    · split at h
      · rename_i halgorithm
        cases h
        exact ⟨rfl,rfl,rfl,rfl,rfl,fun _=>halgorithm⟩
      · cases h
    · rename_i hcr
      split at h
      · cases h
      · split at h
        · cases h
        · split at h
          · cases h
          · cases h
            exact ⟨rfl,rfl,rfl,rfl,rfl,fun htype=>absurd htype hcr⟩

theorem usable_accepted (h : accepted a=some b) (he : entryWritten b=some e) : Usable e:=by
  obtain ⟨hsecret,hlength,-,hvalid⟩:=accepted_some h
  obtain ⟨-,-,htype,hkept,halgorithm,hcr⟩:=validateOathParams_some hvalid
  obtain ⟨e',he',htype',-,halgorithm',hsecret'⟩:=entryWritten_some b
  obtain rfl:=Option.some.inj (he'.symm.trans he)
  intro hentry
  rw [hsecret',hkept,halgorithm',halgorithm,List.take_of_length_le hlength]
  exact ⟨hsecret,hcr (htype.symm.trans (htype'.symm.trans hentry))⟩

theorem Sound.write (hs : Sound s) {slot : ℕ} (hslot : slot < capacity)
    (hfit : ∀ e, entryWritten a=some e→Usable e) : Sound (writePayload mapSignature {} (31+slot) a s).2:=by
  obtain ⟨t,hwrite,hplaced⟩:=writePayload_done hslot mapSignature a s
  rw [hwrite]
  apply hs.placed hslot hplaced
  rintro account e ⟨⟩ he
  exact hfit e he

def placeAt (mapSignature : UInt32) (slot : Option ℕ) (a : Option Account) (s : Store) : Except Pin.PowerLost Bool × Store:=
  match slot, a with
  | some slot, some a=>writePayload mapSignature {} (31+slot) a s
  | _, _=>(.ok false,s)

theorem findFreeSlot_done (s : Store) :
    findFreeSlot slots2fa (fun _=>.done) s=(.ok ((freeSlot s).map (31 + ·)),s):=by
  refine (findFreeSlot_powered fun _ _=>rfl).trans ?_
  rw [slots_find]
  rfl

theorem addAccountRaw_done (a : Account) (s : Store) :
    addAccountRaw mapSignature (fun _=>.done) {} a s=placeAt mapSignature (freeSlot s) (accepted a) s:=by
  unfold addAccountRaw accepted placeAt
  by_cases hsecret : a.secret=[] ∨ secretLen < a.secret.length
  · rw [if_pos hsecret,if_pos hsecret,ite_self]
    cases freeSlot s <;> rfl
  · rw [if_neg hsecret,if_neg hsecret]
    by_cases hname : rmemNameLen ≤ a.name.length
    · rw [if_pos hname,if_pos hname]
      cases freeSlot s <;> rfl
    · rw [if_neg hname,if_neg hname]
      cases validateOathParams a with
      | none=>cases freeSlot s <;> rfl
      | some b=>
        dsimp only
        rw [bind_of_ok (findFreeSlot_done s)]
        cases freeSlot s <;> rfl

theorem toPhysicalSlot_valid (slot : ℕ) : toPhysicalSlot slot=(validSlot slot).map (31 + ·):=by
  unfold validSlot
  by_cases hslot : slot < capacity
  · rw [if_pos hslot,toPhysicalSlot_lt hslot]
    rfl
  · rw [if_neg hslot]
    cases h : toPhysicalSlot slot with
    | none=>rfl
    | some physSlot=>exact absurd (lt_capacity h).2 hslot

theorem updateAccount_done (slot : ℕ) (a : Account) (s : Store) :
    updateAccount mapSignature {} slot a s=placeAt mapSignature (validSlot slot) (accepted a) s:=by
  unfold updateAccount accepted placeAt
  rw [toPhysicalSlot_valid]
  by_cases hname : rmemNameLen ≤ a.name.length
  · rw [if_pos hname,if_pos hname]
    cases validSlot slot <;> rfl
  · rw [if_neg hname,if_neg hname]
    cases hvalid : validateOathParams a with
    | none=>
      rw [ite_self]
      cases validSlot slot <;> rfl
    | some b=>
      have hkept:=(validateOathParams_some hvalid).2.2.2.1
      cases validSlot slot with
      | none=>rfl
      | some slot=>
        simp only [Option.map_some,hkept]
        split <;> rfl

theorem savedSlot_lt {saved : ℕ} (h : savedSlot s w=some saved) : saved < capacity:=by
  unfold savedSlot at h
  split at h
  · cases h
  · split at h
    · unfold validSlot at h
      split at h
      · cases h
        assumption
      · cases h
    · exact (find_some h).1

theorem wizardFinish_empty {o : SaveOutcome} (h : cstr w.name=[] ∨ cstr w.secret=[]) :
    wizardFinish mapSignature o w s=(.ok false,s):=by
  unfold wizardFinish
  rw [if_pos h]
  rfl

theorem wizardSave_done (h : ¬(cstr w.name=[] ∨ cstr w.secret=[])) (s : Store) :
    wizardSave mapSignature {} w s=placeAt mapSignature (savedSlot s w) w.written s:=by
  unfold wizardSave savedSlot Wizard.written
  rw [if_neg h]
  cases haccepted : accepted w.account with
  | none=>
    split
    · rw [updateAccount_done,haccepted]
      cases validSlot w.editSlot <;> rfl
    · rw [addAccountRaw_done,haccepted]
      cases freeSlot s <;> rfl
  | some a=>
    simp only [Option.isNone_some,Bool.false_eq_true,if_false]
    split
    · rw [updateAccount_done,haccepted]
    · rw [addAccountRaw_done,haccepted]

theorem wizardFinish_refused (h : savedSlot s w=none) : wizardFinish mapSignature {} w s=(.ok false,s):=by
  by_cases hempty : cstr w.name=[] ∨ cstr w.secret=[]
  · exact wizardFinish_empty hempty
  · unfold wizardFinish
    rw [if_neg hempty]
    have hsave : wizardSave mapSignature {} w s=_:=wizardSave_done hempty s
    rw [h] at hsave
    exact bind_of_ok hsave

theorem wizardFinish_saved (mapSignature : UInt32) (hs : Sound s) {saved : ℕ} (h : savedSlot s w=some saved) :
    ∃ a u, w.written=some a ∧ Placed s saved (some a) u ∧ Sound u ∧ wizardFinish mapSignature {} w s =
      if w.flags &&& oflagUsbCrSlot=0 then (.ok true,u)
      else
        match named u w.account.name with
        | none=>(.ok true,u)
        | some slot=>(.ok true,(clearUsbCrFlagExcept mapSignature {} slot u).2):=by
  have hslot:=savedSlot_lt h
  cases hwritten : w.written with
  | none=>
    unfold savedSlot at h
    rw [hwritten] at h
    cases h
  | some a=>
    have hnonempty : ¬(cstr w.name=[] ∨ cstr w.secret=[]):=by
      intro hempty
      unfold Wizard.written at hwritten
      rw [if_pos hempty] at hwritten
      cases hwritten
    obtain ⟨u,hwrite,hplaced⟩:=writePayload_done hslot mapSignature a s
    have hsave : wizardSave mapSignature {} w s=_:=wizardSave_done hnonempty s
    rw [h,hwritten] at hsave
    replace hsave:=hsave.trans hwrite
    have hsound : Sound u:=by
      apply hs.placed hslot hplaced
      rintro account e ⟨⟩ he
      unfold Wizard.written at hwritten
      rw [if_neg hnonempty] at hwritten
      exact usable_accepted hwritten he
    refine ⟨a,u,rfl,hplaced,hsound,?_⟩
    unfold wizardFinish
    rw [if_neg hnonempty]
    refine (bind_of_ok hsave).trans ?_
    simp only [if_true]
    by_cases hflag : w.flags &&& oflagUsbCrSlot=0
    · rw [if_pos hflag,if_neg (not_not.mpr hflag)]
      rfl
    · rw [if_neg hflag,if_pos hflag,bind_of_ok (findByName_done hsound w.account.name)]
      cases named u w.account.name with
      | none=>rfl
      | some slot=>
        obtain ⟨t,hclear,-⟩:=clearUsbCrFlagExcept_done hsound mapSignature slot
        dsimp only
        rw [bind_of_ok hclear,hclear]
        rfl

/-- The entry saved carries the flags of the wizard and the label that is looked up. -/
theorem written_entry {a : Account} (h : w.written=some a) :
    headerName a.name=w.account.name ∧ ∃ e, entryWritten a=some e ∧ e.flags=w.flags:=by
  unfold Wizard.written at h
  split at h
  · cases h
  · obtain ⟨-,-,hlength,hvalid⟩:=accepted_some h
    obtain ⟨hname,hflags,-⟩:=validateOathParams_some hvalid
    obtain ⟨e,he,-,hkept,-⟩:=entryWritten_some a
    refine ⟨?_,e,he,hkept.trans hflags⟩
    have hstring : cstr w.account.name=w.account.name:=cstr_cstr w.name
    have hfits : w.account.name.length ≤ rmemNameLen-1:=by omega
    rw [hname]
    unfold headerName
    rw [hstring,List.take_of_length_le hfits]

theorem Sound.wizard (hs : Sound s) (w : Wizard) : Sound (wizardFinish mapSignature {} w s).2:=by
  cases h : savedSlot s w with
  | none=>
    rw [wizardFinish_refused h]
    exact hs
  | some saved=>
    obtain ⟨a,u,-,-,hsound,hfinish⟩:=wizardFinish_saved mapSignature hs h
    rw [hfinish]
    split
    · exact hsound
    · split
      · exact hsound
      · rename_i slot _
        obtain ⟨t,hclear,ht,-⟩:=clearUsbCrFlagExcept_done hsound mapSignature slot
        rw [hclear]
        exact ht

/-- Where no lower slot has the label, a save that designates leaves the flag with the entry saved. -/
theorem wizardFinish_designates (hs : Sound s) (hflag : w.flags &&& oflagUsbCrSlot≠0)
    (hfirst : ∀ saved, savedSlot s w=some saved→∀ slot < saved, label s slot≠some w.account.name) {t : Store}
    (h : wizardFinish mapSignature {} w s=(.ok true,t)) :
    ∃ saved, savedSlot s w=some saved ∧ ∀ slot, Carries t slot ↔ slot=saved:=by
  cases hsaved : savedSlot s w with
  | none=>
    rw [wizardFinish_refused hsaved] at h
    cases h
  | some saved=>
    refine ⟨saved,rfl,?_⟩
    have hslot:=savedSlot_lt hsaved
    obtain ⟨a,u,hwritten,hplaced,hsound,hfinish⟩:=wizardFinish_saved mapSignature hs hsaved
    obtain ⟨hname,e,he,hflags⟩:=written_entry hwritten
    have hnamed : named u w.account.name=some saved:=by
      apply named_first hslot
      · rw [hplaced.label,if_pos rfl]
        exact congrArg some hname
      · intro lower hlower
        rw [hplaced.label,if_neg (by omega)]
        exact hfirst saved hsaved lower hlower
    obtain ⟨v,hclear,-,hcarries⟩:=clearUsbCrFlagExcept_done hsound mapSignature saved
    rw [if_neg hflag,hnamed] at hfinish
    simp only [hclear] at hfinish
    obtain rfl : v=t:=congrArg Prod.snd (hfinish.symm.trans h)
    have hkept : Carries u saved:=by
      refine ⟨e,?_,hflags ▸ hflag⟩
      rw [hplaced.credential hslot,if_pos rfl]
      exact he
    intro slot
    rw [hcarries]
    constructor
    · exact fun hslot=>hslot.1
    · rintro rfl
      exact ⟨rfl,hkept⟩

end Saves

section Answers

variable {hmac : Hmac} {s : Store} {challenge : Bytes}

def flaggedAt (s : Store) (physSlot : ℕ) : Bool:=(credential s.chip (physSlot-31)).any isUsbCr

theorem checkUsbCr_done (s : Store) {slot : ℕ} (hslot : slot < capacity) (found : Option ℕ) :
    checkUsbCr {} (31+slot) found s =
      (.ok (if found.isSome then found else if flaggedAt s (31+slot) then some slot else none),s):=by
  unfold checkUsbCr flaggedAt
  rw [toLogicalSlot_add hslot,Nat.add_sub_cancel_left]
  split
  · rfl
  · dsimp only
    rw [bind_of_ok (readAccount_done slot s)]
    cases credential s.chip slot <;> rfl

theorem findUsbCrSlot_done (hs : Sound s) : findUsbCrSlot {} s=(.ok (flaggedSlot s),s):=by
  have hvisit : Extends (checkUsbCr {}) s fun done found t=>
      t=s ∧ found=(done.find? (flaggedAt s)).map (· - 31):=by
    rintro done physSlot found t ⟨rfl,hfound⟩ hmem -
    obtain ⟨slot,hslot,rfl⟩:=slot_of_mem hmem
    refine ⟨_,t,checkUsbCr_done t hslot found,rfl,?_⟩
    rw [List.find?_append,hfound]
    cases hbefore : done.find? (flaggedAt t) with
    | none=>
      simp only [Option.map_none,Option.isSome_none,Bool.false_eq_true,if_false,Option.none_or,List.find?_singleton]
      split
      · exact congrArg some (Nat.add_sub_cancel_left 31 slot).symm
      · rfl
    | some before=>rfl
  obtain ⟨found,t,hcall,rfl,rfl⟩:=visitSlots_run hvisit (by rintro _ _ _ ⟨rfl,-⟩; simp) ⟨rfl,rfl⟩
  refine hcall.trans ?_
  rw [List.find?_filter,slots_find,Option.map_map]
  have hid : (fun slot=>slot-31) ∘ (fun slot=>31+slot)=id:=by
    funext slot
    exact Nat.add_sub_cancel_left 31 slot
  rw [hid,Option.map_id]
  apply congrArg (fun r=>(Except.ok r,t))
  apply List.find?_congr
  intro slot _
  unfold flaggedAt
  rw [Nat.add_sub_cancel_left]
  cases hcred : credential t.chip slot with
  | none=>simp
  | some e=>simp [(hs.credential_label hcred).2.2]

theorem challengeResponseUsbSlot_done (hs : Sound s)
    (hfirst : ∀ flagged, flaggedSlot s=some flagged→∀ slot < flagged, label s slot≠label s flagged) :
    challengeResponseUsbSlot hmac {} challenge s=(.ok (expected hmac s challenge),s):=by
  unfold challengeResponseUsbSlot
  rw [bind_of_ok (findUsbCrSlot_done hs)]
  unfold expected
  cases hflagged : flaggedSlot s with
  | none=>rfl
  | some flagged=>
    obtain ⟨-,hany,-⟩:=find_some hflagged
    cases hcred : credential s.chip flagged with
    | none=>
      rw [hcred] at hany
      cases hany
    | some e=>
      rw [hcred,Option.any_some] at hany
      obtain ⟨htype,-⟩ : e.type=otypeCr ∧ e.flags &&& oflagUsbCrSlot≠0:=by simpa [isUsbCr] using hany
      obtain ⟨hslot,hlabel,-⟩:=hs.credential_label hcred
      obtain ⟨hsecret,halgorithm⟩:=hs.usable flagged e hcred htype
      have hnamed : named s e.name=some flagged:=
        named_first hslot hlabel fun lower hlower=>hlabel ▸ hfirst flagged hflagged lower hlower
      have hsupported : ¬(e.algorithm≠0 ∧ e.algorithm≠1):=by tauto
      dsimp only
      rw [bind_of_ok (readAccount_done flagged s),hcred]
      unfold challengeResponse
      dsimp only
      rw [bind_of_ok (findByName_done hs e.name),hnamed]
      dsimp only
      rw [bind_of_ok (readAccount_done flagged s),hcred]
      simp only [htype,hsecret,hsupported,ne_eq,not_true_eq_false,if_false,if_true,Option.bind_some,hcred]
      rfl

end Answers

section Steps

variable {hmac : Hmac} {mapSignature : UInt32} {s : Store}

theorem Sound.placeAt (hs : Sound s) {slot : Option ℕ} (hslot : ∀ l, slot=some l→l < capacity) (a : Account) :
    Sound (placeAt mapSignature slot (accepted a) s).2:=by
  cases slot with
  | none=>exact hs
  | some l=>
    cases haccepted : accepted a with
    | none=>exact hs
    | some b=>exact hs.write (hslot l rfl) fun e he=>usable_accepted haccepted he

theorem validSlot_lt {slot l : ℕ} (h : validSlot slot=some l) : l < capacity:=by
  unfold validSlot at h
  split at h
  · cases h
    assumption
  · cases h

theorem Sound.add (hs : Sound s) (a : Account) : Sound (addAccountRaw mapSignature (fun _=>.done) {} a s).2:=by
  rw [addAccountRaw_done]
  exact hs.placeAt (fun l hl=>(find_some hl).1) a

theorem Sound.update (hs : Sound s) (slot : ℕ) (a : Account) : Sound (updateAccount mapSignature {} slot a s).2:=by
  rw [updateAccount_done]
  exact hs.placeAt (fun l hl=>validSlot_lt hl) a

theorem Sound.delete (hs : Sound s) (slot : ℕ) : Sound (deleteAccount {} slot s).2:=by
  by_cases hslot : slot < capacity
  · obtain ⟨t,hdelete,hplaced⟩:=deleteAccount_done hslot s
    rw [hdelete]
    exact hs.placed hslot hplaced (by rintro account e ⟨⟩)
  · have hnone : toPhysicalSlot slot=none:=by
      rw [toPhysicalSlot_valid,validSlot,if_neg hslot]
      rfl
    unfold deleteAccount
    rw [hnone]
    exact hs

theorem Sound.persistCounter (hs : Sound s) {slot : ℕ} (he : credential s.chip slot=some e)
    (counter : ℕ) : Sound (persistCounter mapSignature {} slot e counter s).2:=by
  obtain ⟨hslot,-,-⟩:=hs.credential_label he
  obtain ⟨-,-,r,-,hr⟩:=credential_some he
  unfold OathStore.persistCounter
  rw [toPhysicalSlot_lt hslot]
  apply hs.write hslot
  intro e' he'
  obtain rfl:=Option.some.inj ((accountOf_stored hr counter).symm.trans he')
  exact hs.usable slot e he

theorem Sound.calculate (hs : Sound s) (slot : ℕ) (challenge : ByteArr 8) :
    Sound (calculateForChallenge hmac mapSignature {} slot challenge s).2:=by
  unfold calculateForChallenge
  rw [bind_of_ok (readAccount_done slot s)]
  cases he : credential s.chip slot with
  | none=>exact hs
  | some e=>
    dsimp only
    split
    · exact hs
    · split
      · rw [bind_ite_pure_state]
        exact hs.persistCounter he (nextCounter e.counter)
      · exact hs

theorem Sound.generate (hs : Sound s) (time : Option ℕ) (slot : ℕ) :
    Sound (generateCode hmac mapSignature {} time slot s).2:=by
  unfold generateCode
  rw [bind_of_ok (readAccount_done slot s)]
  cases he : credential s.chip slot with
  | none=>exact hs
  | some e=>
    dsimp only
    split
    · rw [bind_ite_pure_state]
      exact hs.persistCounter he (nextCounter e.counter)
    · exact hs

theorem Sound.step (hs : Sound s) {e : Event} (h : Heeds s e) :
    Right hmac mapSignature s e ∧ Sound (step hmac mapSignature s e):=by
  cases e with
  | add reads o a=>
    obtain ⟨rfl,rfl⟩:=h
    exact ⟨trivial,hs.add a⟩
  | update o slot a=>
    obtain rfl : o={}:=h
    exact ⟨trivial,hs.update slot a⟩
  | wizard o w=>
    obtain ⟨rfl,hfirst⟩:=h
    exact ⟨fun t ht hflag=>wizardFinish_designates hs hflag (hfirst hflag) ht,hs.wizard w⟩
  | delete o slot=>
    obtain rfl : o={}:=h
    exact ⟨trivial,hs.delete slot⟩
  | calculate o slot challenge=>
    obtain rfl : o={}:=h
    exact ⟨trivial,hs.calculate slot challenge⟩
  | generate o time slot=>
    obtain rfl : o={}:=h
    exact ⟨trivial,hs.generate time slot⟩
  | respond o challenge=>
    obtain ⟨rfl,hfirst⟩:=h
    have hanswer : challengeResponseUsbSlot hmac {} challenge s=_:=challengeResponseUsbSlot_done hs hfirst
    have hstate : UsbCr.step hmac mapSignature s (.respond {} challenge)=s:=congrArg Prod.snd hanswer
    rw [hstate]
    exact ⟨congrArg Prod.fst hanswer,hs⟩

end Steps

/-- Where no access fails and no lower slot has a label that is looked up, every save that designates leaves the flag
with the entry saved alone, and every answer is that of the entry flagged. -/
theorem designation_kept (hmac : Hmac) (mapSignature : UInt32) (s : Store) (es : List Event) (hs : Sound s)
    (h : AlongRun (step hmac mapSignature) Heeds s es) :
    AlongRun (step hmac mapSignature) (Right hmac mapSignature) s es:=
  AlongRun.of_invariant (I:=Sound) (fun _ _ he hs=>hs.step he) hs h

def plainHmac : Hmac:=fun a key data=>fit a.digestSize (key++data)

def blank : Store:={chip:={ecc:=fun _=>none,rmem:=fun _=>none}}

theorem sound_blank : Sound blank where
  labels slot _:=by simp [label,shown,cached,entryAt,loaded,blank,MetadataCache.isShown_default]
  usable slot e he:=by
    obtain ⟨-,-,r,hcontent,-⟩:=credential_some he
    cases hcontent

def imported (type : UInt8) (name : Bytes) (flags : UInt8) : Account where
  type
  name
  issuer:=[]
  secret:=[1]
  digits:=6
  period:=30
  algorithm:=0
  counter:=0
  flags

def designated (name : Bytes) : Wizard where
  type:=otypeCr
  name
  secret:=[0x41,0x45]
  issuer:=[]
  digits:=6
  algorithm:=0
  period:=30
  counter:=0
  flags:=oflagUsbCrSlot
  editMode:=false
  editSlot:=0

/-- One label is that of a one-time password, the other that of the entry designated. -/
def keptEvents : List Event:=
  [.add (fun _=>.done) {} (imported 0 [0x62] 0),.wizard {} (designated [0x61]),.respond {} [7]]

theorem designation_kept_alone :
    AlongRun (step plainHmac 0) (Right plainHmac 0) blank keptEvents:=by
  refine designation_kept plainHmac 0 blank keptEvents sound_blank ⟨⟨rfl,rfl⟩,⟨rfl,?_⟩,⟨rfl,?_⟩,trivial⟩
  · intro _ saved hsaved slot hslot
    obtain rfl : saved=1:=Option.some.inj (hsaved.symm.trans (by decide +kernel))
    obtain rfl : slot=0:=by omega
    decide +kernel
  · intro flagged hflagged slot hslot
    obtain rfl : flagged=1:=Option.some.inj (hflagged.symm.trans (by decide +kernel))
    obtain rfl : slot=0:=by omega
    decide +kernel

def lostEvents : List Event:=
  [.add (fun _=>.done) {} (imported 2 [0x61] 0),.wizard {} (designated [0x61])]

def missedEvents : List Event:=
  [.add (fun _=>.done) {} (imported 0 [0x61] 0),.add (fun _=>.done) {} (imported 2 [0x61] oflagUsbCrSlot),
    .respond {} [7]]

theorem designation_lost :
    ¬AlongRun (step plainHmac 0) (Right plainHmac 0) blank lostEvents ∧
      ¬AlongRun (step plainHmac 0) (Right plainHmac 0) blank missedEvents:=by
  constructor
  · rintro ⟨-,hright,-⟩
    obtain ⟨saved,hsaved,hcarries⟩:=hright _ (Prod.ext (by decide +kernel) rfl) (by decide)
    obtain rfl : saved=1:=Option.some.inj (hsaved.symm.trans (by decide +kernel))
    obtain ⟨e,he,hflag⟩:=(hcarries 1).mpr rfl
    have hcleared : (some e).map (·.flags)=some 0:=he ▸ (by decide +kernel)
    exact hflag (congrArg (· &&& oflagUsbCrSlot) (Option.some.inj hcleared))
  · rintro ⟨-,-,hright,-⟩
    unfold Right at hright
    exact absurd hright (by decide +kernel)

end CdcBadge.UsbCr
