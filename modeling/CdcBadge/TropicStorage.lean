import Mathlib.Data.List.Range
import CdcBadge.Bytes
import CdcBadge.PinManager

/-!
# The metadata cache of the R-Memory

Records with a header on the chip, and beside them in NVS a cache of the headers in chunks
of 64 slots. Every access to the chip or to NVS comes with its outcome.
-/

namespace CdcBadge.Tropic

open Handler
open Pin (PowerLost)

/-- The R-Memory slots of a module. -/
structure SlotRange where
  moduleId : UInt8
  start : ℕ
  last : ℕ
  deriving DecidableEq

def moduleId2fa : UInt8:=5

/-- `TROPIC_RMEM_SLOT_MAP`: GPG, CA, PIV, FIDO2, 2FA, the RSA keys, passwords and plugins. -/
def rmemSlotMap : List SlotRange:=
  [⟨2,1,3⟩,⟨3,4,4⟩,⟨9,5,8⟩,⟨4,9,30⟩,⟨moduleId2fa,31,130⟩,⟨8,131,136⟩,⟨6,137,500⟩,⟨7,501,511⟩]

def rmemMax : ℕ:=511

def getRangeByModuleId (moduleId : UInt8) : Option SlotRange:=rmemSlotMap.find? (·.moduleId == moduleId)

def isEntryAllowed (slot : ℕ) (moduleId : UInt8) : Bool:=
  match getRangeByModuleId moduleId with
  | none=>false
  | some range=>range.start ≤ slot && slot ≤ range.last

/-- A record behind a valid header. -/
structure Record (P : Type) where
  moduleId : UInt8
  flags : UInt8
  name : Bytes
  payload : P
  deriving DecidableEq

/-- What a slot holds: a record, or bytes whose header is not valid. -/
inductive Content (P : Type)
  | record (r : Record P)
  | invalid
  deriving DecidableEq

structure CacheEntry where
  moduleId : UInt8:=0
  flags : UInt8:=0
  name : Bytes:=[]
  deriving DecidableEq

structure CacheHeader where
  version : UInt8
  chunkSlots : UInt8
  entrySize : UInt16
  mapSignature : UInt32
  deriving DecidableEq

def flagUsed : UInt8:=0x01
def chunkSlots : ℕ:=64
def rmemNameLen : ℕ:=16

def isEntryUsed (e : CacheEntry) : Bool:=e.flags &&& flagUsed≠0

/-- A text as an array of `RMEM_NAME_LEN` bytes keeps it. -/
def headerName (name : Bytes) : Bytes:=(cstr name).take (rmemNameLen-1)

def entryOf (moduleId flags : UInt8) (name : Bytes) : CacheEntry:=
  {moduleId,flags:=flags ||| flagUsed,name:=headerName name}

abbrev Chunk:=ℕ → CacheEntry

/-- Chip, NVS and the one variable that the service keeps. -/
structure Storage (P : Type) where
  chip : Chip (Content P)
  header : Option CacheHeader:=none
  chunks : ℕ→Option Chunk:=fun _=>none
  cacheValid : Bool:=false

abbrev StorageM (P : Type):=Handler PowerLost (Storage P)

section Calls

variable {P α : Type}

def seCall (o : SeOutcome) (call : Chip (Content P) → SeReply α × Chip (Content P)) : StorageM P (SeReply α):=
  fun s=>match Chip.perform o call s.chip with
    | (some reply,c)=>(.ok reply,{s with chip:=c})
    | (none,c)=>(.error ⟨⟩,{s with chip:=c})

def nvsGet (o : SeOutcome) (blob : Storage P→Option α) : StorageM P (Option α):=
  fun s=>match o with
    | .done=>(.ok (blob s),s)
    | .failed _ _=>(.ok none,s)
    | .powerLost _=>(.error ⟨⟩,s)

def nvsSet (o : SeOutcome) (write : Storage P → Storage P) : StorageM P Bool:=
  fun s=>match o with
    | .done=>(.ok true,write s)
    | .failed _ applied=>(.ok false,if applied then write s else s)
    | .powerLost applied=>(.error ⟨⟩,if applied then write s else s)

def rmemReadWithHeader (o : SeOutcome) (slot : ℕ) : StorageM P (SeReply (Record P)):=do
  match ← seCall o (Chip.rmemRead slot) with
  | .error e=>pure (.error e)
  | .ok .invalid=>pure (.error .error)
  | .ok (.record r)=>pure (.ok r)

/-- What becomes of the two calls of a record's write. -/
structure WriteOutcome where
  erase : SeOutcome:=.done
  write : SeOutcome:=.done
  deriving DecidableEq

def rmemWriteWithHeader (o : WriteOutcome) (slot : ℕ) (r : Record P) : StorageM P (SeReply Unit):=do
  match ← seCall o.erase (Chip.rmemErase slot) with
  | .error e=>
    if e≠.slotEmpty then pure (.error e)
    else seCall o.write (Chip.rmemWrite slot (.record {r with name:=headerName r.name}))
  | .ok _=>seCall o.write (Chip.rmemWrite slot (.record {r with name:=headerName r.name}))

def buildHeader (mapSignature : UInt32) : CacheHeader:=
  {version:=1,chunkSlots:=64,entrySize:=18,mapSignature}

def loadHeader (mapSignature : UInt32) (o : SeOutcome) : StorageM P Bool:=do
  pure ((← nvsGet o (·.header)) == some (buildHeader mapSignature))

def saveHeader (mapSignature : UInt32) (o : SeOutcome) : StorageM P Bool:=
  nvsSet o fun s=>{s with header:=some (buildHeader mapSignature)}

def loadChunk (o : SeOutcome) (chunkIndex : ℕ) : StorageM P Chunk:=do
  pure ((← nvsGet o fun s=>s.chunks chunkIndex).getD fun _=>{})

def saveChunk (o : SeOutcome) (chunkIndex : ℕ) (entries : Chunk) : StorageM P Bool:=
  nvsSet o fun s=>{s with chunks:=Function.update s.chunks chunkIndex (some entries)}

/-- What becomes of the accesses to NVS of an update of the cache. -/
structure UpdateOutcome where
  header : SeOutcome:=.done
  read : SeOutcome:=.done
  save : SeOutcome:=.done
  deriving DecidableEq

def setEntry (o : UpdateOutcome) (slot : ℕ) (entry : CacheEntry) : StorageM P Bool:=do
  let entries ← loadChunk o.read (slot/chunkSlots)
  saveChunk o.save (slot/chunkSlots) (Function.update entries (slot % chunkSlots) entry)

def writeSlot (mapSignature : UInt32) (o : UpdateOutcome) (moduleId : UInt8) (slot : ℕ) (name : Bytes) (flags : UInt8) :
    StorageM P Bool:=do
  if !isEntryAllowed slot moduleId then pure false
  else if !(← saveHeader mapSignature o.header) then pure false
  else setEntry o slot (entryOf moduleId flags name)

def eraseSlot (o : UpdateOutcome) (moduleId : UInt8) (slot : ℕ) : StorageM P Bool:=
  if !isEntryAllowed slot moduleId then pure false else setEntry o slot {}

def shownIn (moduleId : UInt8) (fromSlot toSlot chunkIndex : ℕ) (entries : Chunk) : List (ℕ × CacheEntry):=
  ((List.range chunkSlots).map fun i=>(chunkIndex*chunkSlots+i,entries i)).filter fun p=>
    fromSlot ≤ p.1 && p.1 ≤ toSlot && isEntryUsed p.2 && isEntryAllowed p.1 p.2.moduleId && p.2.moduleId == moduleId

def forEachChunk (moduleId : UInt8) (reads : ℕ → SeOutcome) (fromSlot toSlot : ℕ) :
    List ℕ → StorageM P (List (ℕ × CacheEntry))
  | []=>pure []
  | chunk::chunks=>do
    let entries ← loadChunk (reads chunk) chunk
    let rest ← forEachChunk moduleId reads fromSlot toSlot chunks
    pure (shownIn moduleId fromSlot toSlot chunk entries++rest)

def forEachSlot (moduleId : UInt8) (reads : ℕ → SeOutcome) (fromSlot toSlot : ℕ) :
    StorageM P (List (ℕ × CacheEntry)):=
  if toSlot < fromSlot then pure []
  else
    match getRangeByModuleId moduleId with
    | none=>pure []
    | some range=>
      let (first,last):=
        if fromSlot=0 ∨ toSlot=0xFFFF then (range.start,range.last)
        else (max fromSlot range.start,min toSlot range.last)
      forEachChunk moduleId reads first last
        (List.range' (first/chunkSlots) (last/chunkSlots+1-first/chunkSlots))

/-- `SlotManager::findFreeSlot` for the range of a module. -/
def findFreeSlot (range : SlotRange) (reads : ℕ → SeOutcome) : StorageM P (Option ℕ):=do
  let used ← forEachSlot range.moduleId reads range.start range.last
  pure ((List.range' range.start (range.last+1-range.start)).find? fun slot=>slot ∉ used.map Prod.fst)

/-- `TropicStorage::init`: a header that is missing or stale is replaced, and the cache is taken for valid. -/
def init (mapSignature : UInt32) (read save : SeOutcome) : StorageM P Unit:=do
  modify fun s=>{s with cacheValid:=false}
  if ← loadHeader mapSignature read then modify fun s=>{s with cacheValid:=true}
  else if ← saveHeader mapSignature save then modify fun s=>{s with cacheValid:=true}
  else pure ()

/-- What becomes of the accesses of a rebuild, by slot and by chunk. -/
structure RebuildOutcome where
  reads : ℕ → SeOutcome:=fun _=>.done
  rawReads : ℕ → SeOutcome:=fun _=>.done
  saves : ℕ → SeOutcome:=fun _=>.done
  header : SeOutcome:=.done

def scanSlot (o : RebuildOutcome) (slot : ℕ) : StorageM P CacheEntry:=do
  if slot=0 then pure {}
  else
    match ← rmemReadWithHeader (o.reads slot) slot with
    | .ok r=>pure (if isEntryAllowed slot r.moduleId then entryOf r.moduleId r.flags r.name else {})
    -- The slot is read once more, for the log.
    | .error _=>do
      let _ ← seCall (o.rawReads slot) (Chip.rmemRead slot)
      pure {}

def scanSlots (o : RebuildOutcome) (base : ℕ) : List ℕ → Chunk → StorageM P Chunk
  | [], chunk=>pure chunk
  | i::is, chunk=>do
    let entry ← scanSlot o (base+i)
    scanSlots o base is (Function.update chunk i entry)

def rebuildChunks (o : RebuildOutcome) : List ℕ → StorageM P Bool
  | []=>pure true
  | chunk::chunks=>do
    let entries ← scanSlots o (chunk*chunkSlots) (List.range chunkSlots) fun _=>{}
    if ← saveChunk (o.saves chunk) chunk entries then rebuildChunks o chunks else pure false

def rebuild (mapSignature : UInt32) (session : Bool) (o : RebuildOutcome) : StorageM P Bool:=do
  if !session then pure false
  else if !(← rebuildChunks o (List.range ((rmemMax+1)/chunkSlots))) then pure false
  else
    let saved ← saveHeader mapSignature o.header
    modify fun s=>{s with cacheValid:=saved}
    pure saved

end Calls

section Effects

variable {P α : Type} {s : Storage P} {slot : ℕ}

def Storage.put (s : Storage P) (slot : ℕ) (content : Option (Content P)) : Storage P:=
  {s with chip:={s.chip with rmem:=Function.update s.chip.rmem slot content}}

theorem Storage.put_self (content : Option (Content P)) : (s.put slot content).chip.rmem slot=content:=by
  simp [Storage.put]

theorem Storage.put_other {other : ℕ} (h : other≠slot) (content : Option (Content P)) :
    (s.put slot content).chip.rmem other=s.chip.rmem other:=by
  simp [Storage.put,h]

theorem Storage.put_put (a b : Option (Content P)) : (s.put slot a).put slot b=s.put slot b:=by
  simp [Storage.put]

theorem Storage.put_id : s.put slot (s.chip.rmem slot)=s:=by
  simp [Storage.put]

def loaded (read : SeOutcome) (s : Storage P) (chunkIndex : ℕ) : Chunk:=
  if read=.done then (s.chunks chunkIndex).getD fun _=>{} else fun _=>{}

def entryAt (reads : ℕ → SeOutcome) (s : Storage P) (slot : ℕ) : CacheEntry:=
  loaded (reads (slot/chunkSlots)) s (slot/chunkSlots) (slot % chunkSlots)

def cached (s : Storage P) (slot : ℕ) : CacheEntry:=entryAt (fun _=>.done) s slot

theorem loadChunk_powered {read : SeOutcome} (h : read.powered=true) (chunkIndex : ℕ) (s : Storage P) :
    loadChunk read chunkIndex s=(.ok (loaded read s chunkIndex),s):=by
  cases read with
  | done=>rfl
  | failed e applied=>rfl
  | powerLost applied=>cases h

theorem loadChunk_unpowered {read : SeOutcome} (h : read.powered=false) (chunkIndex : ℕ) (s : Storage P) :
    loadChunk read chunkIndex s=(.error ⟨⟩,s):=by
  cases read with
  | powerLost applied=>rfl
  | _=>cases h

theorem nvsSet_state (o : SeOutcome) (write : Storage P → Storage P) (s : Storage P) :
    (nvsSet o write s).2=if o.applied then write s else s:=by
  cases o <;> rfl

def Storage.setCached (read : SeOutcome) (slot : ℕ) (entry : CacheEntry) (s : Storage P) : Storage P:=
  { s with
    chunks:=Function.update s.chunks (slot/chunkSlots)
      (some (Function.update (loaded read s (slot/chunkSlots)) (slot % chunkSlots) entry)) }

theorem setEntry_state (o : UpdateOutcome) (slot : ℕ) (entry : CacheEntry) (s : Storage P) :
    (setEntry o slot entry s).2 =
      if o.read.powered ∧ o.save.applied then s.setCached o.read slot entry else s:=by
  unfold setEntry
  rw [bind_apply]
  cases hread : o.read.powered with
  | false=>simp [loadChunk_unpowered hread]
  | true=>simp only [loadChunk_powered hread,saveChunk,nvsSet_state,Storage.setCached,true_and]

theorem cached_setCached (slot other : ℕ) (entry : CacheEntry) (s : Storage P) :
    cached (s.setCached .done slot entry) other=if other=slot then entry else cached s other:=by
  by_cases hchunk : other/chunkSlots=slot/chunkSlots
  · by_cases hpos : other % chunkSlots=slot % chunkSlots
    · have hother : other=slot:=by
        rw [← Nat.div_add_mod other chunkSlots,hchunk,hpos,Nat.div_add_mod]
      simp [cached,entryAt,loaded,Storage.setCached,hother]
    · have hother : other≠slot:=fun h=>hpos (h ▸ rfl)
      simp [cached,entryAt,loaded,Storage.setCached,hother,hchunk,hpos]
  · have hother : other≠slot:=fun h=>hchunk (h ▸ rfl)
    simp [cached,entryAt,loaded,Storage.setCached,hother,hchunk]

theorem entryAt_done (reads : ℕ → SeOutcome) (s : Storage P) (slot : ℕ) :
    entryAt reads s slot=if reads (slot/chunkSlots)=.done then cached s slot else {}:=by
  unfold cached entryAt loaded
  split <;> simp

theorem seCall_state (o : SeOutcome) (call : Chip (Content P) → SeReply α × Chip (Content P)) (s : Storage P) :
    (seCall o call s).2={s with chip:=if o.applied then (call s.chip).2 else s.chip}:=by
  cases o <;> rfl

def WriteOutcome.reached (o : WriteOutcome) : Bool:=
  match o.erase with
  | .done=>true
  | .failed .slotEmpty _=>true
  | _=>false

def written (o : WriteOutcome) (content : Option (Content P)) (r : Record P) : Option (Content P):=
  let erased:=if o.erase.applied then none else content
  if o.reached && o.write.applied && erased.isNone then some (.record {r with name:=headerName r.name}) else erased

def replied (o : SeOutcome) (reply : SeReply Unit) : Option (SeReply Unit):=
  match o with
  | .done=>some reply
  | .failed e _=>some (.error e)
  | .powerLost _=>none

theorem perform_erase (hs : slot < Chip.rmemSlotCount) (o : SeOutcome) (c : Chip (Content P)) :
    Chip.perform o (Chip.rmemErase slot) c =
      (replied o (.ok ()),{c with rmem:=Function.update c.rmem slot (if o.applied then none else c.rmem slot)}):=by
  cases o with
  | done=>simp only [Chip.perform,Chip.rmemErase_lt hs,replied,SeOutcome.applied,if_true]
  | failed e applied=>cases applied <;> simp [Chip.perform,Chip.rmemErase_lt hs,replied,SeOutcome.applied]
  | powerLost applied=>cases applied <;> simp [Chip.perform,Chip.rmemErase_lt hs,replied,SeOutcome.applied]

theorem perform_write (hs : slot < Chip.rmemSlotCount) (o : SeOutcome) (new : Content P) (c : Chip (Content P)) :
    Chip.perform o (Chip.rmemWrite slot new) c =
      (replied o (if (c.rmem slot).isNone then .ok () else .error .slotOccupied),
        { c with
          rmem:=Function.update c.rmem slot
            (if o.applied && (c.rmem slot).isNone then some new else c.rmem slot) }):=by
  have hcall : Chip.rmemWrite slot new c=(if (c.rmem slot).isNone then .ok () else .error .slotOccupied,
      {c with rmem:=Function.update c.rmem slot (if (c.rmem slot).isNone then some new else c.rmem slot)}):=by
    cases hold : c.rmem slot with
    | none=>simp [Chip.rmemWrite_none hs hold]
    | some old=>
      have hself : Function.update c.rmem slot (some old)=c.rmem:=by
        rw [← hold,Function.update_eq_self]
      simp [Chip.rmemWrite_some hs hold,hself]
  cases o with
  | done=>simp only [Chip.perform,hcall,replied,SeOutcome.applied,Bool.true_and]
  | failed e applied=>cases applied <;> simp [Chip.perform,hcall,replied,SeOutcome.applied]
  | powerLost applied=>cases applied <;> simp [Chip.perform,hcall,replied,SeOutcome.applied]

def answered (reply : Option (SeReply Unit)) : Except PowerLost (SeReply Unit):=
  match reply with
  | some r=>.ok r
  | none=>.error ⟨⟩

theorem written_cases (o : WriteOutcome) (content : Option (Content P)) (r : Record P) :
    written o content r=some (.record {r with name:=headerName r.name}) ∨ written o content r=none ∨
      written o content r=content:=by
  unfold written
  cases o.erase.applied with
  | true=>cases o.reached && o.write.applied <;> simp
  | false=>
    simp only [Bool.false_eq_true,if_false]
    split
    · exact Or.inl rfl
    · exact Or.inr (Or.inr rfl)

theorem seCall_erase (hs : slot < Chip.rmemSlotCount) (o : SeOutcome) (s : Storage P) :
    seCall o (Chip.rmemErase slot) s =
      (answered (replied o (.ok ())),s.put slot (if o.applied then none else s.chip.rmem slot)):=by
  unfold seCall
  rw [perform_erase hs]
  cases o <;> rfl

theorem seCall_write (hs : slot < Chip.rmemSlotCount) (o : SeOutcome) (new : Content P) (s : Storage P) :
    seCall o (Chip.rmemWrite slot new) s =
      (answered (replied o (if (s.chip.rmem slot).isNone then .ok () else .error .slotOccupied)),
        s.put slot (if o.applied && (s.chip.rmem slot).isNone then some new else s.chip.rmem slot)):=by
  unfold seCall
  rw [perform_write hs]
  cases o <;> rfl

theorem rmemWriteWithHeader_state (hs : slot < Chip.rmemSlotCount) (o : WriteOutcome) (r : Record P) (s : Storage P) :
    (rmemWriteWithHeader o slot r s).2=s.put slot (written o (s.chip.rmem slot) r):=by
  unfold rmemWriteWithHeader written WriteOutcome.reached
  rw [bind_apply,seCall_erase hs]
  cases o.erase with
  | done=>simp [answered,replied,seCall_write hs,Storage.put_self,Storage.put_put,SeOutcome.applied]
  | failed e applied=>
    cases e with
    | slotEmpty=>simp [answered,replied,seCall_write hs,Storage.put_self,Storage.put_put,SeOutcome.applied]
    | _=>simp [answered,replied,SeOutcome.applied]
  | powerLost applied=>simp [answered,replied,SeOutcome.applied]

theorem rmemWriteWithHeader_ok (hs : slot < Chip.rmemSlotCount) {o : WriteOutcome} {r : Record P} :
    (rmemWriteWithHeader o slot r s).1=.ok (.ok ()) ↔
      o.reached=true ∧ o.write=.done ∧ (o.erase.applied=true ∨ s.chip.rmem slot=none):=by
  unfold rmemWriteWithHeader WriteOutcome.reached
  rw [bind_apply,seCall_erase hs]
  cases o.erase with
  | done=>cases o.write <;> simp [answered,replied,seCall_write hs,Storage.put_self,SeOutcome.applied]
  | failed e applied=>
    cases e with
    | slotEmpty=>cases o.write <;> cases applied <;> simp [answered,replied,seCall_write hs,Storage.put_self,SeOutcome.applied]
    | _=>simp [answered,replied]
  | powerLost applied=>simp [answered,replied]

theorem written_ok {o : WriteOutcome} {content : Option (Content P)} {r : Record P} (hreached : o.reached=true)
    (hwrite : o.write=.done) (hempty : o.erase.applied=true ∨ content=none) :
    written o content r=some (.record {r with name:=headerName r.name}):=by
  have herased : (if o.erase.applied=true then none else content)=none:=by
    rcases hempty with h | h <;> simp [h]
  have hdone : SeOutcome.done.applied=true:=rfl
  simp [written,hreached,hwrite,herased,hdone]

theorem saveHeader_state (mapSignature : UInt32) (o : SeOutcome) (s : Storage P) :
    (saveHeader mapSignature o s).2.chip=s.chip ∧ (saveHeader mapSignature o s).2.chunks=s.chunks:=by
  unfold saveHeader
  rw [nvsSet_state]
  split <;> exact ⟨rfl,rfl⟩

theorem writeSlot_state {moduleId : UInt8} (hallowed : isEntryAllowed slot moduleId=true) (mapSignature : UInt32)
    (o : UpdateOutcome) (name : Bytes) (flags : UInt8) (s : Storage P) :
    (writeSlot mapSignature o moduleId slot name flags s).2.chip=s.chip ∧
      (writeSlot mapSignature o moduleId slot name flags s).2.chunks =
        if o.header=.done ∧ o.read.powered ∧ o.save.applied then
          (s.setCached o.read slot (entryOf moduleId flags name)).chunks else s.chunks:=by
  have hkept:=saveHeader_state mapSignature o.header s
  unfold writeSlot
  simp only [hallowed,Bool.not_true,Bool.false_eq_true,if_false]
  rw [bind_apply]
  cases hheader : o.header with
  | done=>
    simp only [saveHeader,nvsSet,Bool.not_true,Bool.false_eq_true,if_false,setEntry_state,true_and]
    split <;> exact ⟨rfl,rfl⟩
  | failed e applied=>
    rw [hheader] at hkept
    simpa [saveHeader,nvsSet] using hkept
  | powerLost applied=>
    rw [hheader] at hkept
    simpa [saveHeader,nvsSet] using hkept

end Effects

end CdcBadge.Tropic
