import Mathlib.Data.List.Find
import CdcBadge.OathApplet
import CdcBadge.TropicStorage

/-!
# The OATH store

Credentials as records of R-Memory, found by the metadata cache.
-/

namespace CdcBadge.OathStore

open Handler
open Pin (PowerLost)
open Tropic
open Oath (Account Meta otypeTotp otypeHotp otypeCr oflagTouch)

def nameLen : ℕ:=16
def issuerLen : ℕ:=32
def secretLen : ℕ:=64
def defaultDigits : UInt8:=6
def defaultPeriod : ℕ:=30

structure OathPayload where
  type : UInt8
  issuer : Bytes
  secret : Bytes
  digits : UInt8
  period : ℕ
  counter : ℕ
  algorithm : UInt8
  flags : UInt8
  deriving DecidableEq

/-- A payload of this layout, or one of another size. -/
inductive Payload
  | oath (p : OathPayload)
  | other
  deriving DecidableEq

structure OathEntry where
  type : UInt8
  name : Bytes
  issuer : Bytes
  secret : Bytes
  algorithm : UInt8
  digits : UInt8
  period : ℕ
  counter : ℕ
  flags : UInt8
  deriving DecidableEq

abbrev Store:=Storage Payload

abbrev StoreM:=StorageM Payload

def slots2fa : SlotRange:=⟨moduleId2fa,31,130⟩

def capacity : ℕ:=100

def toPhysicalSlot (slot : ℕ) : Option ℕ:=
  if slots2fa.last < slots2fa.start+slot then none else some (slots2fa.start+slot)

def toLogicalSlot (physSlot : ℕ) : Option ℕ:=
  if physSlot < slots2fa.start ∨ slots2fa.last < physSlot then none else some (physSlot-slots2fa.start)

def accountOf (r : Record Payload) : Option OathEntry:=
  if r.moduleId≠moduleId2fa then none
  else
    match r.payload with
    | .other=>none
    | .oath p=>some {
        type:=p.type
        name:=headerName r.name
        issuer:=(cstr p.issuer).take (issuerLen-1)
        secret:=p.secret.take secretLen
        algorithm:=p.algorithm
        digits:=if p.digits=0 then defaultDigits else p.digits
        period:=if p.period=0 then defaultPeriod else p.period
        counter:=p.counter
        flags:=p.flags }

theorem accountOf_fields {r : Record Payload} {e : OathEntry} (h : accountOf r=some e) :
    e.name=headerName r.name ∧ e.issuer.length ≤ issuerLen-1 ∧ e.period≠0:=by
  unfold accountOf at h
  split at h
  · cases h
  · split at h
    · cases h
    · cases h
      refine ⟨rfl,?_,?_⟩
      · simp only [List.length_take]
        omega
      · simp only
        split
        · decide
        · assumption

def recordOf (a : Account) : Record Payload where
  moduleId:=moduleId2fa
  flags:=a.flags
  name:=a.name
  payload:=.oath {
    type:=a.type
    issuer:=(cstr a.issuer).take (issuerLen-1)
    secret:=a.secret
    digits:=if a.digits=0 then defaultDigits else a.digits
    period:=if a.period=0 then defaultPeriod else a.period
    counter:=a.counter
    algorithm:=a.algorithm
    flags:=a.flags }

@[simp] theorem recordOf_name (a : Account) : (recordOf a).name=a.name:=rfl

def OathEntry.account (e : OathEntry) (counter : ℕ) : Account where
  type:=e.type
  name:=e.name
  issuer:=e.issuer
  secret:=e.secret
  digits:=e.digits
  period:=e.period
  algorithm:=e.algorithm
  counter
  flags:=e.flags

def digitsMin : UInt8:=6
def digitsMax : UInt8:=8
def periodMin : ℕ:=15
def periodMax : ℕ:=300

def validateOathParams (a : Account) : Option Account:=
  if otypeCr < a.type then none
  else if a.type=otypeCr then if a.algorithm=0 ∨ a.algorithm=1 then some a else none
  else if a.digits≠0 ∧ (a.digits < digitsMin ∨ digitsMax < a.digits) then none
  else if a.type=otypeTotp ∧ a.period≠0 ∧ (a.period < periodMin ∨ periodMax < a.period) then none
  else if 2 < a.algorithm then none
  else some { a with
    digits:=if a.digits=0 then defaultDigits else a.digits
    period:=if a.type=otypeTotp ∧ a.period=0 then defaultPeriod else a.period }

inductive HashAlgorithm | sha1 | sha256 | sha512 deriving DecidableEq

def HashAlgorithm.digestSize : HashAlgorithm → ℕ
  | .sha1=>20
  | .sha256=>32
  | .sha512=>64

def hashAlgorithm (algorithm : UInt8) : HashAlgorithm:=
  if algorithm=1 then .sha256 else if algorithm=2 then .sha512 else .sha1

abbrev Hmac:=(a : HashAlgorithm)→Bytes→Bytes→ByteArr a.digestSize

def be64 (n : ℕ) : Bytes:=(List.range 8).map fun i=>UInt8.ofNat (n/256^(7-i))

def ofBe64 (data : Bytes) : ℕ:=data.foldl (fun n byte=>n*256+byte.toNat) 0

def truncate (digest : Bytes) : UInt32:=
  let offset:=(digest.getLastD 0 &&& 0x0F).toNat
  ofBe32 (digest.getD offset 0 &&& 0x7F) (digest.getD (offset+1) 0) (digest.getD (offset+2) 0)
    (digest.getD (offset+3) 0)

section Store

variable (hmac : Hmac) (mapSignature : UInt32)

/-- The truncated value for a moving factor; `hmacOk` says whether mbedtls computes the hash. -/
def computeTruncated (hmacOk : Bool) (secret : Bytes) (counter : ℕ) (algorithm : UInt8) : Option UInt32:=
  if secret=[] ∨ secretLen < secret.length then none
  else if hmacOk then some (truncate (hmac (hashAlgorithm algorithm) secret (be64 counter)).toList)
  else none

def generate (hmacOk : Bool) (secret : Bytes) (counter : ℕ) (digits : UInt8) (algorithm : UInt8) : ℕ:=
  let digits:=if digits < digitsMin ∨ digitsMax < digits then defaultDigits else digits
  ((computeTruncated hmac hmacOk secret counter algorithm).getD 0).toNat % 10^digits.toNat

def readAccount (o : SeOutcome) (slot : ℕ) : StoreM (Option OathEntry):=
  match toPhysicalSlot slot with
  | none=>pure none
  | some physSlot=>do
    match ← rmemReadWithHeader o physSlot with
    | .error _=>pure none
    | .ok r=>pure (accountOf r)

/-- What becomes of the accesses of a record's write: the two calls of the chip, then the cache. -/
structure PayloadOutcome where
  chip : WriteOutcome:={}
  cache : UpdateOutcome:={}
  deriving DecidableEq

def writePayload (o : PayloadOutcome) (physSlot : ℕ) (a : Account) : StoreM Bool:=do
  match ← rmemWriteWithHeader o.chip physSlot (recordOf a) with
  | .error _=>pure false
  | .ok _=>do
    let _ ← writeSlot mapSignature o.cache moduleId2fa physSlot a.name a.flags
    pure true

def addAccountRaw (reads : ℕ → SeOutcome) (o : PayloadOutcome) (a : Account) : StoreM Bool:=
  if a.secret=[] ∨ secretLen < a.secret.length then pure false
  else if rmemNameLen ≤ a.name.length then pure false
  else
    match validateOathParams a with
    | none=>pure false
    | some a=>do
      match ← findFreeSlot slots2fa reads with
      | none=>pure false
      | some physSlot=>writePayload mapSignature o physSlot a

def updateAccount (o : PayloadOutcome) (slot : ℕ) (a : Account) : StoreM Bool:=
  if rmemNameLen ≤ a.name.length then pure false
  else
    match validateOathParams a, toPhysicalSlot slot with
    | some a, some physSlot=>
      if a.secret=[] ∨ secretLen < a.secret.length then pure false else writePayload mapSignature o physSlot a
    | _, _=>pure false

/-- What becomes of the accesses of a deletion. -/
structure DeleteOutcome where
  erase : SeOutcome:=.done
  cache : UpdateOutcome:={}
  deriving DecidableEq

def deleteAccount (o : DeleteOutcome) (slot : ℕ) : StoreM Bool:=
  match toPhysicalSlot slot with
  | none=>pure false
  | some physSlot=>do
    match ← seCall o.erase (Chip.rmemErase physSlot) with
    | .error _=>pure false
    | .ok _=>do
      let _ ← eraseSlot o.cache moduleId2fa physSlot
      pure true

def findByName (reads : ℕ → SeOutcome) (name : Bytes) : StoreM (Option ℕ):=do
  let entries ← forEachSlot moduleId2fa reads slots2fa.start slots2fa.last
  pure ((entries.find? fun p=>p.2.name == name).bind fun p=>toLogicalSlot p.1)

def persistCounter (o : PayloadOutcome) (slot : ℕ) (e : OathEntry) (counter : ℕ) : StoreM Bool:=
  match toPhysicalSlot slot with
  | none=>pure false
  | some physSlot=>writePayload mapSignature o physSlot (e.account counter)

/-- What becomes of the accesses of a calculation, the hash included. -/
structure CalcOutcome where
  read : SeOutcome:=.done
  write : PayloadOutcome:={}
  hmac : Bool:=true
  deriving DecidableEq

def nextCounter (counter : ℕ) : ℕ:=(counter+1) % 2^64

def truncatedOf (o : CalcOutcome) (e : OathEntry) (counter : ℕ) : Option (ByteArr 4 × UInt8):=
  (computeTruncated hmac o.hmac e.secret counter e.algorithm).map fun binary=>(fit 4 (be32 binary),e.digits)

def calculateForChallenge (o : CalcOutcome) (slot : ℕ) (challenge : ByteArr 8) :
    StoreM (Option (ByteArr 4 × UInt8)):=do
  match ← readAccount o.read slot with
  | none=>pure none
  | some e=>
    if e.type=otypeCr then pure none
    else if e.type=otypeHotp then
      if ← persistCounter mapSignature o.write slot e (nextCounter e.counter) then pure (truncatedOf hmac o e e.counter)
      else pure none
    else pure (truncatedOf hmac o e (ofBe64 challenge.toList))

/-- The number that the screen shows, where it shows one, for a clock that reads `time` seconds. -/
def generateCode (o : CalcOutcome) (time : Option ℕ) (slot : ℕ) : StoreM (Option ℕ):=do
  match ← readAccount o.read slot with
  | none=>pure none
  | some e=>
    if e.type=otypeHotp then
      if ← persistCounter mapSignature o.write slot e (nextCounter e.counter) then
        pure (some (generate hmac o.hmac e.secret e.counter e.digits e.algorithm))
      else pure none
    else pure (time.map fun t=>generate hmac o.hmac e.secret (t/e.period) e.digits e.algorithm)

end Store

section Lookups

variable {reads : ℕ → SeOutcome} {s : Store}

def isShown (e : CacheEntry) : Bool:=isEntryUsed e && e.moduleId == moduleId2fa

def slots : List ℕ:=List.range' 31 100

theorem mem_slots {slot : ℕ} : slot∈slots ↔ 31 ≤ slot ∧ slot ≤ 130:=by
  simp only [slots,List.mem_range'_1]
  omega

theorem shownIn_loaded (fromSlot toSlot chunk : ℕ) :
    shownIn moduleId2fa fromSlot toSlot chunk (loaded (reads chunk) s chunk) =
      ((List.range' (chunk*chunkSlots) chunkSlots).filter fun slot=>
        fromSlot ≤ slot && slot ≤ toSlot && isEntryUsed (entryAt reads s slot) &&
          isEntryAllowed slot (entryAt reads s slot).moduleId && (entryAt reads s slot).moduleId == moduleId2fa).map
        fun slot=>(slot,entryAt reads s slot):=by
  have hentries : (List.range chunkSlots).map (fun i=>(chunk*chunkSlots+i,loaded (reads chunk) s chunk i)) =
      (List.range' (chunk*chunkSlots) chunkSlots).map fun slot=>(slot,entryAt reads s slot):=by
    rw [List.range'_eq_map_range,List.map_map]
    apply List.map_congr_left
    intro i hi
    have hi : i < 64:=List.mem_range.mp hi
    have hdiv : (chunk*64+i)/64=chunk:=by omega
    have hmod : (chunk*64+i) % 64=i:=by omega
    simp only [Function.comp,entryAt,chunkSlots,hdiv,hmod]
  unfold shownIn
  rw [hentries,List.filter_map]
  rfl

theorem forEachChunk_powered {fromSlot toSlot : ℕ} {chunks : List ℕ} (h : ∀ c∈chunks, (reads c).powered=true) :
    forEachChunk moduleId2fa reads fromSlot toSlot chunks s =
      (.ok (chunks.flatMap fun c=>shownIn moduleId2fa fromSlot toSlot c (loaded (reads c) s c)),s):=by
  induction chunks with
  | nil=>rfl
  | cons c chunks ih=>
    have hrest:=ih fun d hd=>h d (List.mem_cons_of_mem c hd)
    unfold forEachChunk
    rw [bind_of_ok (loadChunk_powered (h c List.mem_cons_self) c s),bind_of_ok hrest]
    rfl

theorem shownIn_slots (chunk : ℕ) :
    shownIn moduleId2fa slots2fa.start slots2fa.last chunk (loaded (reads chunk) s chunk) =
      ((List.range' (chunk*chunkSlots) chunkSlots).filter fun slot=>
        decide (31 ≤ slot ∧ slot ≤ 130) && isShown (entryAt reads s slot)).map fun slot=>(slot,entryAt reads s slot):=by
  refine (shownIn_loaded 31 130 chunk).trans ?_
  apply congrArg
  apply List.filter_congr
  intro slot _
  rw [Bool.eq_iff_iff]
  simp only [Bool.and_eq_true,decide_eq_true_eq,isShown,beq_iff_eq]
  constructor
  · rintro ⟨⟨⟨hrange,hused⟩,-⟩,hid⟩
    exact ⟨hrange,hused,hid⟩
  · rintro ⟨hrange,hused,hid⟩
    have hallowed : isEntryAllowed slot (entryAt reads s slot).moduleId=true:=by
      rw [hid]
      simpa [isEntryAllowed,getRangeByModuleId,rmemSlotMap,moduleId2fa] using hrange
    exact ⟨⟨⟨hrange,hused⟩,hallowed⟩,hid⟩

theorem chunks_filter (p : ℕ→Bool) :
    ([0,1,2].flatMap fun chunk=>(List.range' (chunk*chunkSlots) chunkSlots).filter fun slot=>
      decide (31 ≤ slot ∧ slot ≤ 130) && p slot)=slots.filter p:=by
  simp only [List.flatMap_cons,List.flatMap_nil,List.append_nil,← List.filter_append]
  have hblocks : List.range' (0*chunkSlots) chunkSlots ++
      (List.range' (1*chunkSlots) chunkSlots++List.range' (2*chunkSlots) chunkSlots)=List.range' 0 192:=by
    decide +kernel
  have hslots : (List.range' 0 192).filter (fun slot=>decide (31 ≤ slot ∧ slot ≤ 130))=slots:=by
    decide +kernel
  rw [hblocks,← hslots,List.filter_filter]
  apply List.filter_congr
  intro slot _
  exact Bool.and_comm _ _

theorem forEachSlot_powered (h : ∀ c < 3, (reads c).powered=true) :
    forEachSlot moduleId2fa reads slots2fa.start slots2fa.last s =
      (.ok ((slots.filter fun slot=>isShown (entryAt reads s slot)).map fun slot=>(slot,entryAt reads s slot)),s):=by
  have hchunks : forEachSlot moduleId2fa reads slots2fa.start slots2fa.last s =
      forEachChunk moduleId2fa reads slots2fa.start slots2fa.last [0,1,2] s:=rfl
  rw [hchunks,forEachChunk_powered (by simpa using ⟨h 0 (by omega),h 1 (by omega),h 2 (by omega)⟩)]
  simp only [shownIn_slots,← List.map_flatMap,chunks_filter]

theorem forEachChunk_unpowered {fromSlot toSlot : ℕ} {chunks : List ℕ} (h : ∃ c∈chunks, (reads c).powered=false) :
    forEachChunk moduleId2fa reads fromSlot toSlot chunks s=(.error ⟨⟩,s):=by
  induction chunks with
  | nil=>simp at h
  | cons c chunks ih=>
    unfold forEachChunk
    cases hread : (reads c).powered with
    | false=>rw [bind_of_error (loadChunk_unpowered hread c s)]
    | true=>
      rw [bind_of_ok (loadChunk_powered hread c s)]
      refine bind_of_error (ih ?_)
      rcases h with ⟨d,hd,hoff⟩
      rcases List.mem_cons.mp hd with rfl | hd
      · rw [hread] at hoff
        cases hoff
      · exact ⟨d,hd,hoff⟩

theorem forEachSlot_unpowered {c : ℕ} (hc : c < 3) (h : (reads c).powered=false) :
    forEachSlot moduleId2fa reads slots2fa.start slots2fa.last s=(.error ⟨⟩,s):=by
  have hmem : c∈[0,1,2]:=by
    simp only [List.mem_cons,List.not_mem_nil,or_false]
    omega
  exact forEachChunk_unpowered ⟨c,hmem,h⟩

theorem findFreeSlot_powered (h : ∀ c < 3, (reads c).powered=true) :
    findFreeSlot slots2fa reads s=(.ok (slots.find? fun slot=>!isShown (entryAt reads s slot)),s):=by
  unfold findFreeSlot
  refine (bind_of_ok (forEachSlot_powered h)).trans ?_
  have hused (slot : ℕ) (hslot : slot∈slots) :
      decide (slot ∉ ((slots.filter fun slot=>isShown (entryAt reads s slot)).map
        fun slot=>(slot,entryAt reads s slot)).map Prod.fst) = !isShown (entryAt reads s slot):=by
    simp [List.map_map,Function.comp_def,hslot]
  exact congrArg (fun r=>(Except.ok r,s)) (List.find?_congr hused)

theorem findFreeSlot_unpowered {c : ℕ} (hc : c < 3) (h : (reads c).powered=false) :
    findFreeSlot slots2fa reads s=(.error ⟨⟩,s):=by
  unfold findFreeSlot
  exact bind_of_error (forEachSlot_unpowered hc h)

theorem findFreeSlot_state : (findFreeSlot slots2fa reads s).2=s:=by
  by_cases h : ∀ c < 3, (reads c).powered=true
  · rw [findFreeSlot_powered h]
  · push Not at h
    obtain ⟨c,hc,hoff⟩:=h
    rw [findFreeSlot_unpowered hc (by simpa using hoff)]

end Lookups

section Writes

variable {mapSignature : UInt32} {s : Store} {slot : ℕ} {o : PayloadOutcome} {a : Account}

theorem slot_lt (h : slot∈slots) : slot < Chip.rmemSlotCount:=by
  have:=mem_slots.mp h
  unfold Chip.rmemSlotCount
  omega

theorem slot_allowed (h : slot∈slots) : isEntryAllowed slot moduleId2fa=true:=by
  have:=mem_slots.mp h
  simp [isEntryAllowed,getRangeByModuleId,rmemSlotMap,moduleId2fa,this.1,this.2]

theorem toPhysicalSlot_some {physSlot : ℕ} (h : toPhysicalSlot slot=some physSlot) :
    physSlot=31+slot ∧ 31+slot∈slots:=by
  unfold toPhysicalSlot at h
  split at h
  · cases h
  · rename_i hle
    cases h
    have hlast : ¬130 < 31+slot:=hle
    refine ⟨rfl,mem_slots.mpr ?_⟩
    omega

def stored (a : Account) : Content Payload:=.record {recordOf a with name:=headerName a.name}

def PayloadOutcome.Taken (o : PayloadOutcome) (content : Option (Content Payload)) : Prop:=
  o.chip.reached=true ∧ o.chip.write=.done ∧ (o.chip.erase.applied=true ∨ content=none)

instance (content : Option (Content Payload)) : Decidable (o.Taken content):=
  inferInstanceAs (Decidable (_ ∧ _ ∧ _))

theorem writePayload_taken (hslot : slot∈slots) (h : o.Taken (s.chip.rmem slot)) :
    (writePayload mapSignature o slot a s).2 =
      (writeSlot mapSignature o.cache moduleId2fa slot a.name a.flags (s.put slot (some (stored a)))).2:=by
  obtain ⟨hreached,hwrite,hempty⟩:=h
  have hreply:=(rmemWriteWithHeader_ok (slot_lt hslot) (r:=recordOf a)).mpr ⟨hreached,hwrite,hempty⟩
  have hstate:=rmemWriteWithHeader_state (slot_lt hslot) o.chip (recordOf a) s
  rw [written_ok hreached hwrite hempty] at hstate
  unfold writePayload
  rw [bind_apply]
  generalize rmemWriteWithHeader o.chip slot (recordOf a) s=x at hreply hstate
  obtain ⟨reply,t⟩:=x
  obtain rfl : reply=_:=hreply
  obtain rfl : t=_:=hstate
  exact bind_pure_state _ _ _

theorem writePayload_refused (hslot : slot∈slots) (h : ¬o.Taken (s.chip.rmem slot)) :
    (writePayload mapSignature o slot a s).2=s.put slot (written o.chip (s.chip.rmem slot) (recordOf a)):=by
  have hreply:=mt (rmemWriteWithHeader_ok (slot_lt hslot) (r:=recordOf a)).mp h
  have hstate:=rmemWriteWithHeader_state (slot_lt hslot) o.chip (recordOf a) s
  unfold writePayload
  rw [bind_apply]
  generalize rmemWriteWithHeader o.chip slot (recordOf a) s=x at hreply hstate
  obtain ⟨reply,t⟩:=x
  obtain rfl : t=_:=hstate
  match reply with
  | .error _=>rfl
  | .ok (.error _)=>rfl
  | .ok (.ok ())=>exact absurd rfl hreply

theorem writePayload_chip (hslot : slot∈slots) : (writePayload mapSignature o slot a s).2.chip =
    (s.put slot (if o.Taken (s.chip.rmem slot) then some (stored a)
      else written o.chip (s.chip.rmem slot) (recordOf a))).chip:=by
  split
  · rename_i htaken
    rw [writePayload_taken hslot htaken,(writeSlot_state (slot_allowed hslot) _ _ _ _ _).1]
  · rename_i hrefused
    rw [writePayload_refused hslot hrefused]

theorem deleteAccount_erased {o : DeleteOutcome} (hslot : toPhysicalSlot slot=some (31+slot)) (h : o.erase=.done) :
    (deleteAccount o slot s).2=(eraseSlot o.cache moduleId2fa (31+slot) (s.put (31+slot) none)).2:=by
  unfold deleteAccount
  simp only [hslot]
  rw [bind_apply,seCall_erase (slot_lt (toPhysicalSlot_some hslot).2),h]
  exact bind_pure_state _ _ _

theorem deleteAccount_refused {o : DeleteOutcome} (hslot : toPhysicalSlot slot=some (31+slot)) (h : o.erase≠.done) :
    (deleteAccount o slot s).2 =
      s.put (31+slot) (if o.erase.applied=true then none else s.chip.rmem (31+slot)):=by
  unfold deleteAccount
  simp only [hslot]
  rw [bind_apply,seCall_erase (slot_lt (toPhysicalSlot_some hslot).2)]
  cases herase : o.erase with
  | done=>exact absurd herase h
  | failed e applied=>rfl
  | powerLost applied=>rfl

theorem eraseSlot_state (hslot : slot∈slots) (o : UpdateOutcome) (s : Store) :
    (eraseSlot o moduleId2fa slot s).2=if o.read.powered ∧ o.save.applied then s.setCached o.read slot {} else s:=by
  unfold eraseSlot
  simp only [slot_allowed hslot,Bool.not_true,Bool.false_eq_true,if_false,setEntry_state]

end Writes

section Reads

variable {c d : Chip (Content Payload)} {slot : ℕ} {e : OathEntry}

def credential (c : Chip (Content Payload)) (slot : ℕ) : Option OathEntry:=
  match toPhysicalSlot slot with
  | none=>none
  | some physSlot=>
    match c.rmem physSlot with
    | some (.record r)=>accountOf r
    | _=>none

theorem credential_congr (h : d.rmem (31+slot)=c.rmem (31+slot)) : credential d slot=credential c slot:=by
  unfold credential
  cases hphys : toPhysicalSlot slot with
  | none=>rfl
  | some physSlot=>
    obtain ⟨rfl,-⟩:=toPhysicalSlot_some hphys
    simp only [h]

theorem credential_some (h : credential c slot=some e) : toPhysicalSlot slot=some (31+slot) ∧ 31+slot∈slots ∧
    ∃ r, c.rmem (31+slot)=some (.record r) ∧ accountOf r=some e:=by
  unfold credential at h
  cases hphys : toPhysicalSlot slot with
  | none=>
    rw [hphys] at h
    cases h
  | some physSlot=>
    obtain ⟨rfl,hslot⟩:=toPhysicalSlot_some hphys
    rw [hphys] at h
    dsimp only at h
    split at h
    · rename_i r hcontent
      exact ⟨rfl,hslot,r,hcontent,h⟩
    · cases h

def withCounter (e : OathEntry) (counter : ℕ) : OathEntry:={e with counter}

theorem headerName_headerName (name : Bytes) : headerName (headerName name)=headerName name:=by
  unfold headerName
  rw [cstr_take_cstr,List.take_take,min_self]

/-- A rewrite with another counter and other flags is read as the same credential with these. -/
theorem accountOf_rewritten {r : Record Payload} (h : accountOf r=some e) (n : ℕ) (flags : UInt8) :
    accountOf {recordOf ({e with flags}.account n) with name:=headerName e.name} =
      some {e with counter:=n,flags}:=by
  unfold accountOf at h
  split at h
  · cases h
  · split at h
    · cases h
    · rename_i p _
      cases h
      have hdigits : (if p.digits=0 then defaultDigits else p.digits)≠0:=by
        split
        · decide
        · assumption
      have hperiod : (if p.period=0 then defaultPeriod else p.period)≠0:=by
        split
        · decide
        · assumption
      simp [accountOf,recordOf,OathEntry.account,headerName_headerName,cstr_take_cstr,List.take_take,hdigits,
        hperiod]

/-- A rewrite with another counter is read as the same credential with that counter. -/
theorem accountOf_stored {r : Record Payload} (h : accountOf r=some e) (n : ℕ) :
    accountOf {recordOf (e.account n) with name:=headerName (e.account n).name}=some (withCounter e n):=
  accountOf_rewritten h n e.flags

theorem rmemReadWithHeader_done {slot : ℕ} (hslot : slot < Chip.rmemSlotCount) (s : Store) :
    rmemReadWithHeader .done slot s =
      (.ok (match s.chip.rmem slot with
        | none=>.error .slotEmpty
        | some .invalid=>.error .error
        | some (.record r)=>.ok r),s):=by
  unfold rmemReadWithHeader
  rw [bind_apply]
  cases hcontent : s.chip.rmem slot with
  | none=>simp [seCall,Chip.perform,Chip.rmemRead_none hslot hcontent]
  | some c=>cases c <;> simp [seCall,Chip.perform,Chip.rmemRead_some hslot hcontent]

theorem rmemReadWithHeader_store (o : SeOutcome) (slot : ℕ) (s : Store) : (rmemReadWithHeader o slot s).2=s:=by
  have hcall : (seCall o (Chip.rmemRead slot) s).2=s:=by
    rw [seCall_state,Chip.rmemRead_chip,ite_self]
  unfold rmemReadWithHeader
  rw [bind_apply]
  revert hcall
  cases seCall o (Chip.rmemRead slot) s with
  | mk r t=>
    intro hcall
    match r with
    | .error _=>exact hcall
    | .ok (.error _)=>exact hcall
    | .ok (.ok .invalid)=>exact hcall
    | .ok (.ok (.record _))=>exact hcall

theorem readAccount_done (slot : ℕ) (s : Store) : readAccount .done slot s=(.ok (credential s.chip slot),s):=by
  unfold readAccount credential
  cases hphys : toPhysicalSlot slot with
  | none=>rfl
  | some physSlot=>
    have hslot:=(toPhysicalSlot_some hphys).2
    rw [← (toPhysicalSlot_some hphys).1] at hslot
    refine (bind_of_ok (rmemReadWithHeader_done (slot_lt hslot) s)).trans ?_
    dsimp only
    cases s.chip.rmem physSlot with
    | none=>rfl
    | some content=>cases content <;> rfl

theorem readAccount_failed (e : SeError) (applied : Bool) (slot : ℕ) (s : Store) :
    readAccount (.failed e applied) slot s=(.ok none,s):=by
  unfold readAccount
  cases toPhysicalSlot slot with
  | none=>rfl
  | some physSlot=>cases applied <;> simp [rmemReadWithHeader,bind_apply,seCall,Chip.perform]

theorem readAccount_lost (applied : Bool) {slot physSlot : ℕ} (h : toPhysicalSlot slot=some physSlot) (s : Store) :
    readAccount (.powerLost applied) slot s=(.error ⟨⟩,s):=by
  unfold readAccount
  rw [h]
  cases applied <;> simp [rmemReadWithHeader,bind_apply,seCall,Chip.perform]

theorem readAccount_state (o : SeOutcome) (slot : ℕ) (s : Store) : (readAccount o slot s).2=s:=by
  cases o with
  | done=>rw [readAccount_done]
  | failed e applied=>rw [readAccount_failed]
  | powerLost applied=>
    cases hphys : toPhysicalSlot slot with
    | none=>
      unfold readAccount
      rw [hphys]
      rfl
    | some physSlot=>rw [readAccount_lost applied hphys]

theorem calculate_hotp (hmac : Hmac) (mapSignature : UInt32) {o : CalcOutcome} {s : Store} (challenge : ByteArr 8)
    (he : credential s.chip slot=some e) (htype : e.type=otypeHotp) (hread : o.read=.done) :
    (calculateForChallenge hmac mapSignature o slot challenge s).2 =
      (writePayload mapSignature o.write (31+slot) (e.account (nextCounter e.counter)) s).2:=by
  have hcr : e.type≠otypeCr:=by
    rw [htype]
    decide
  unfold calculateForChallenge persistCounter
  rw [hread,bind_of_ok (readAccount_done slot s),he,(credential_some he).1]
  simp only [if_neg hcr,if_pos htype]
  exact bind_ite_pure_state _ _ _ _

theorem credential_erased : credential {d with rmem:=Function.update d.rmem (31+slot) none} slot=none:=by
  unfold credential
  cases hphys : toPhysicalSlot slot with
  | none=>rfl
  | some physSlot=>
    obtain ⟨rfl,-⟩:=toPhysicalSlot_some hphys
    simp

theorem credential_put_other {other : ℕ} (h : other≠slot) (content : Option (Content Payload)) (s : Store) :
    credential (s.put (31+slot) content).chip other=credential s.chip other:=
  credential_congr (Storage.put_other (by omega) content)

theorem credential_put_none (s : Store) : credential (s.put (31+slot) none).chip slot=none:=credential_erased

/-- A record that is rewritten with another counter stays the same credential, or goes. -/
theorem writePayload_credential {mapSignature : UInt32} {o : PayloadOutcome} {s : Store} (he : credential s.chip slot=some e)
    (n other : ℕ) {f : OathEntry}
    (h : credential (writePayload mapSignature o (31+slot) (e.account n) s).2.chip other=some f) :
    ∃ g, credential s.chip other=some g ∧ ∃ m, f=withCounter g m:=by
  obtain ⟨hphys,hslot,r,hcontent,hr⟩:=credential_some he
  rw [writePayload_chip hslot] at h
  by_cases hother : other=slot
  · subst hother
    refine ⟨e,he,?_⟩
    have hnew : credential (s.put (31+other) (some (stored (e.account n)))).chip other=some (withCounter e n):=by
      unfold credential
      rw [hphys]
      dsimp only
      rw [Storage.put_self]
      exact accountOf_stored hr n
    split at h
    · rw [hnew] at h
      exact ⟨n,(Option.some.inj h).symm⟩
    · rcases written_cases o.chip (s.chip.rmem (31+other)) (recordOf (e.account n)) with hw | hw | hw
      · rw [hw] at h
        exact ⟨n,(Option.some.inj (hnew.symm.trans h)).symm⟩
      · rw [hw,credential_put_none] at h
        cases h
      · rw [hw,Storage.put_id,he] at h
        exact ⟨e.counter,(Option.some.inj h).symm⟩
  · rw [credential_put_other hother] at h
    exact ⟨f,h,f.counter,rfl⟩

theorem calculate_credential (hmac : Hmac) (mapSignature : UInt32) (o : CalcOutcome) (challenge : ByteArr 8) (s : Store)
    (slot other : ℕ) {f : OathEntry}
    (h : credential (calculateForChallenge hmac mapSignature o slot challenge s).2.chip other=some f) :
    ∃ g, credential s.chip other=some g ∧ ∃ m, f=withCounter g m:=by
  have hsame (hs : (calculateForChallenge hmac mapSignature o slot challenge s).2=s) :
      ∃ g, credential s.chip other=some g ∧ ∃ m, f=withCounter g m:=by
    rw [hs] at h
    exact ⟨f,h,f.counter,rfl⟩
  cases hread : o.read with
  | failed e applied=>
    apply hsame
    unfold calculateForChallenge
    rw [hread,bind_of_ok (readAccount_failed e applied slot s)]
    rfl
  | powerLost applied=>
    apply hsame
    unfold calculateForChallenge
    have hstate:=readAccount_state (.powerLost applied) slot s
    cases hphys : toPhysicalSlot slot with
    | none=>
      have hnone : readAccount (.powerLost applied) slot s=(.ok none,s):=by
        unfold readAccount
        rw [hphys]
        rfl
      rw [hread,bind_of_ok hnone]
      rfl
    | some physSlot=>rw [hread,bind_of_error (readAccount_lost applied hphys s)]
  | done=>
    cases he : credential s.chip slot with
    | none=>
      apply hsame
      unfold calculateForChallenge
      rw [hread,bind_of_ok (readAccount_done slot s),he]
      rfl
    | some e=>
      by_cases htype : e.type=otypeHotp
      · rw [calculate_hotp hmac mapSignature challenge he htype hread] at h
        exact writePayload_credential he _ other h
      · apply hsame
        unfold calculateForChallenge
        rw [hread,bind_of_ok (readAccount_done slot s),he]
        dsimp only
        split <;> rfl

theorem calculate_some (hmac : Hmac) (mapSignature : UInt32) (o : CalcOutcome) (challenge : ByteArr 8) {s t : Store}
    {code : ByteArr 4 × UInt8} (h : calculateForChallenge hmac mapSignature o slot challenge s=(.ok (some code),t)) :
    ∃ f, credential s.chip slot=some f:=by
  unfold calculateForChallenge at h
  obtain ⟨found,u,hfound,hrest⟩:=bind_ok.mp h
  cases found with
  | none=>cases hrest
  | some f=>
    cases hread : o.read with
    | done=>
      rw [hread,readAccount_done] at hfound
      exact ⟨f,Except.ok.inj (congrArg Prod.fst hfound)⟩
    | failed e applied=>
      rw [hread,readAccount_failed] at hfound
      cases hfound
    | powerLost applied=>
      rw [hread] at hfound
      cases hphys : toPhysicalSlot slot with
      | none=>
        unfold readAccount at hfound
        rw [hphys] at hfound
        cases hfound
      | some physSlot=>
        rw [readAccount_lost applied hphys] at hfound
        cases hfound

end Reads

end CdcBadge.OathStore
