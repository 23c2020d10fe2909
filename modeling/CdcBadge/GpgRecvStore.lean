import CdcBadge.Bytes
import CdcBadge.NamedBlobs
import CdcBadge.Runs
import CdcBadge.SecureElement

/-!
# The store of received keys

A received key is a blob in flash under a name that is made of the first four bytes of its
fingerprint, and is addressed by its place in the list of keys by time of receipt. Keys whose
fingerprints begin alike share a name.
-/

namespace CdcBadge.GpgRecv

open Runs

/-- `gpg_recv_key_t`. -/
structure RecvKey where
  curve : UInt8:=0
  userId : ByteArr 64:=zeros 64
  pubkey : ByteArr 64:=zeros 64
  pubkeyLen : UInt8:=0
  createdAt : UInt32:=0
  fingerprintV4 : ByteArr 20
  fingerprintV5 : ByteArr 32:=zeros 32
  receivedAt : UInt32:=0
  mySignature : ByteArr 64:=zeros 64
  sigLen : UInt8:=0
  sigCreatedAt : UInt32:=0
  pubkeyDec : ByteArr 64:=zeros 64
  createdAtDec : UInt32:=0
  ownerSelfSig : ByteArr 64:=zeros 64
  decBindingSig : ByteArr 64:=zeros 64
  flags : UInt8:=0
  deriving DecidableEq

/-- `gpg_recv_index_entry_t`. -/
structure IndexEntry where
  nvsKey : Bytes
  receivedAt : UInt32
  flags : UInt8
  deriving DecidableEq

def kMaxKeys : ℕ:=128

def kKeyPrefix : Bytes:=[0x70,0x6B,0x5F]

def hexDigit (n : UInt8) : UInt8:=if n < 10 then 0x30+n else 0x57+n

/-- `%02x` -/
def hexByte (b : UInt8) : Bytes:=[hexDigit (b >>> 4),hexDigit (b &&& 0x0F)]

def deriveKeyName (fpV4 : ByteArr 20) : Bytes:=kKeyPrefix++(fpV4.toList.take 4).flatMap hexByte

def hasKeyPrefix (name : Bytes) : Bool:=name.take 3 == kKeyPrefix

/-- The blobs of the namespace in the order of its iterator. -/
abbrev Store:=List (Bytes × RecvKey)

/-- What the flash library and the sort are free to choose: the order of the blobs after a write, and that of
entries of the same time. -/
structure Platform where
  order : Store → Store
  order_perm : ∀ s, (order s).Perm s
  sort : List IndexEntry → List IndexEntry
  sort_perm : ∀ es, (sort es).Perm es
  sort_sorted : ∀ es, (sort es).Pairwise fun a b=>a.receivedAt ≤ b.receivedAt

def readByName (name : Bytes) (s : Store) : Option RecvKey:=(s.find? fun e=>e.1=name).map Prod.snd

section Store

variable (pf : Platform)

/-- A blob is replaced as a whole. Only a write that is done answers `true`. -/
def writeByName (o : SeOutcome) (name : Bytes) (key : RecvKey) (s : Store) : Bool × Store:=
  (o=.done,if o.applied then pf.order ((name,key)::s.filter fun e=>e.1≠name) else s)

def count (s : Store) : ℕ:=min kMaxKeys (s.filter fun e=>hasKeyPrefix e.1).length

def addKey (o : SeOutcome) (key : RecvKey) (s : Store) : Bool × Store:=
  let name:=deriveKeyName key.fingerprintV4
  if readByName name s=none ∧ kMaxKeys ≤ count s then (false,s) else writeByName pf o name key s

def entryOf (name : Bytes) (k : RecvKey) : IndexEntry:=⟨name,k.receivedAt,k.flags⟩

def listIndex (maxEntries : ℕ) (s : Store) : List IndexEntry:=
  pf.sort (((s.filter fun e=>hasKeyPrefix e.1).filterMap fun e=>
    (readByName e.1 s).map (entryOf e.1)).take maxEntries)

def resolveKeyName (index : UInt8) (s : Store) : Option Bytes:=
  ((listIndex pf kMaxKeys s)[index.toNat]?).map (·.nvsKey)

def getKey (index : UInt8) (s : Store) : Option RecvKey:=(resolveKeyName pf index s).bind (readByName · s)

def deleteKey (o : SeOutcome) (index : UInt8) (s : Store) : Bool × Store:=
  match resolveKeyName pf index s with
  | none=>(false,s)
  | some name=>(o=.done,if o.applied then pf.order (s.filter fun e=>e.1≠name) else s)

def RecvKey.signed (k : RecvKey) (sig : Bytes) (sigCreatedAt : UInt32) (flags : UInt8) : RecvKey:=
  {k with mySignature:=fit 64 sig,sigLen:=UInt8.ofNat sig.length,sigCreatedAt,flags}

def setSignature (o : SeOutcome) (index : UInt8) (sig : Bytes) (sigCreatedAt : UInt32) (flags : UInt8)
    (s : Store) : Bool × Store:=
  if sig=[] ∨ 64 < sig.length then (false,s)
  else
    match resolveKeyName pf index s with
    | none=>(false,s)
    | some name=>
      match readByName name s with
      | none=>(false,s)
      | some key=>writeByName pf o name (key.signed sig sigCreatedAt flags) s

end Store

inductive RecvOp
  | addKey (key : RecvKey)
  | setSignature (index : UInt8) (sig : Bytes) (sigCreatedAt : UInt32) (flags : UInt8)
  | deleteKey (index : UInt8)

/-- A call with what becomes of its write. -/
structure RecvInput where
  op : RecvOp
  outcome : SeOutcome:=.done

def respond (pf : Platform) (s : Store) (i : RecvInput) : Bool × Store:=
  match i.op with
  | .addKey key=>addKey pf i.outcome key s
  | .setSignature index sig createdAt flags=>setSignature pf i.outcome index sig createdAt flags s
  | .deleteKey index=>deleteKey pf i.outcome index s

/-- The store, and the fingerprints that were added with success and not deleted since. -/
structure Tracked where
  store : Store:=[]
  kept : List (ByteArr 20):=[]

def Tracked.step (pf : Platform) (t : Tracked) (i : RecvInput) : Tracked where
  store:=(respond pf t.store i).2
  kept:=match i.op with
    | .addKey key=>if (respond pf t.store i).1 then key.fingerprintV4::t.kept else t.kept
    | .setSignature .. => t.kept
    | .deleteKey index=>
      match getKey pf index t.store with
      | some k=>if i.outcome.applied then t.kept.filter fun fp=>fp≠k.fingerprintV4 else t.kept
      | none=>t.kept

def listed (pf : Platform) (s : Store) : List RecvKey:=
  (listIndex pf kMaxKeys s).filterMap fun e=>readByName e.nvsKey s

/-- A call leaves the keys of other fingerprints alone, and acts on the key that `getKey` returns for its index. -/
def Leaves (pf : Platform) (s : Store) (i : RecvInput) (s' : Store) : Prop:=
  match i.op with
  | .addKey key=>∀ e∈s, e.2.fingerprintV4≠key.fingerprintV4→e∈s'
  | .setSignature index sig createdAt flags=>
    match getKey pf index s with
    | none=>s'=s
    | some k=>(∀ e∈s, e.2.fingerprintV4≠k.fingerprintV4→e∈s') ∧
      (¬(sig=[] ∨ 64 < sig.length)→i.outcome.applied=true →
        (deriveKeyName k.fingerprintV4,k.signed sig createdAt flags)∈s')
  | .deleteKey index=>
    match getKey pf index s with
    | none=>s'=s
    | some k=>∀ e, e∈s' ↔ e∈s ∧ (i.outcome.applied=true→e.2.fingerprintV4≠k.fingerprintV4)

/-- What a call should do, and what the list should show after it. -/
def Correct (pf : Platform) (t : Tracked) (i : RecvInput) : Prop:=
  Leaves pf t.store i (t.step pf i).store ∧
    ∀ fp∈(t.step pf i).kept, (listed pf (t.step pf i).store).countP (fun k=>k.fingerprintV4=fp)=1

/-- No stored key of another fingerprint begins with the four bytes of an added one that is written. -/
def NoClash (t : Tracked) (i : RecvInput) : Prop:=
  ∀ key, i.op=.addKey key→i.outcome.applied=true →
    ∀ e∈t.store, e.2.fingerprintV4.toList.take 4=key.fingerprintV4.toList.take 4 →
      e.2.fingerprintV4=key.fingerprintV4

theorem hexByte_inj {a b : UInt8} (h : hexByte a=hexByte b) : a=b:=by
  have hdigit : ∀ m n : Fin 16, hexDigit (UInt8.ofNat m.val)=hexDigit (UInt8.ofNat n.val)→m=n:=by decide
  have hsplit : ∀ n : Fin 256, (UInt8.ofNat n.val >>> 4)=UInt8.ofNat (n.val/16) ∧
      (UInt8.ofNat n.val &&& 0x0F)=UInt8.ofNat (n.val % 16):=by decide +kernel
  have ha:=hsplit ⟨a.toNat,a.toNat_lt⟩
  have hb:=hsplit ⟨b.toNat,b.toNat_lt⟩
  simp only [UInt8.ofNat_toNat] at ha hb
  simp only [hexByte,ha,hb,List.cons.injEq,and_true] at h
  have hhigh:=hdigit ⟨a.toNat/16,by have:=a.toNat_lt; omega⟩ ⟨b.toNat/16,by have:=b.toNat_lt; omega⟩ h.1
  have hlow:=hdigit ⟨a.toNat % 16,by omega⟩ ⟨b.toNat % 16,by omega⟩ h.2
  simp only [Fin.mk.injEq] at hhigh hlow
  exact UInt8.toNat_inj.mp (by omega)

theorem flatMap_hexByte_inj {as bs : Bytes} (h : as.flatMap hexByte=bs.flatMap hexByte) : as=bs:=by
  induction as generalizing bs with
  | nil=>
    cases bs with
    | nil=>rfl
    | cons b bs=>simp [hexByte] at h
  | cons a as ih=>
    cases bs with
    | nil=>simp [hexByte] at h
    | cons b bs=>
      simp only [List.flatMap_cons] at h
      obtain ⟨hhead,htail⟩:=List.append_inj h rfl
      rw [hexByte_inj hhead,ih htail]

/-- Two fingerprints have one name exactly where they begin with the same four bytes. -/
theorem deriveKeyName_inj {fp fp' : ByteArr 20} :
    deriveKeyName fp=deriveKeyName fp' ↔ fp.toList.take 4=fp'.toList.take 4:=by
  constructor
  · intro h
    exact flatMap_hexByte_inj (List.append_cancel_left h)
  · intro h
    unfold deriveKeyName
    rw [h]

@[simp] theorem hasKeyPrefix_deriveKeyName (fp : ByteArr 20) : hasKeyPrefix (deriveKeyName fp)=true:=by
  simp [hasKeyPrefix,deriveKeyName,kKeyPrefix]

theorem readByName_none {name : Bytes} {s : Store} : readByName name s=none ↔ ∀ e∈s, e.1≠name:=by
  unfold readByName
  rw [Option.map_eq_none_iff,List.find?_eq_none]
  simp

/-- Every key stands under its own name, once, and what was added and not deleted is there. -/
structure Sound (t : Tracked) : Prop where
  names : ∀ e∈t.store, e.1=deriveKeyName e.2.fingerprintV4
  nodup : (t.store.map Prod.fst).Nodup
  size : t.store.length ≤ kMaxKeys
  kept : ∀ fp∈t.kept, ∃ e∈t.store, e.2.fingerprintV4=fp

variable {e : Bytes × RecvKey} {index : UInt8}

section Sound

variable {pf : Platform} {t : Tracked} (h : Sound t)
include h

theorem Sound.prefixed : t.store.filter (fun e=>hasKeyPrefix e.1)=t.store:=by
  rw [List.filter_eq_self]
  intro e he
  rw [h.names e he]
  exact hasKeyPrefix_deriveKeyName _

theorem Sound.read {e : Bytes × RecvKey} (he : e∈t.store) : readByName e.1 t.store=some e.2:=
  NamedBlobs.read_of_mem (s:=⟨_,h.nodup⟩) he

theorem Sound.listIndex_perm : (listIndex pf kMaxKeys t.store).Perm (t.store.map fun e=>entryOf e.1 e.2):=by
  have hentries : (t.store.filterMap fun e=>(readByName e.1 t.store).map (entryOf e.1)) =
      t.store.map fun e=>entryOf e.1 e.2:=by
    rw [← List.filterMap_eq_map]
    apply List.filterMap_congr
    intro e he
    rw [h.read he]
    rfl
  unfold listIndex
  rw [h.prefixed,hentries,List.take_of_length_le (by rw [List.length_map]; exact h.size)]
  exact pf.sort_perm _

theorem Sound.listed_perm : (listed pf t.store).Perm (t.store.map Prod.snd):=by
  refine (h.listIndex_perm.filterMap _).trans (List.Perm.of_eq ?_)
  rw [List.filterMap_map,← List.filterMap_eq_map]
  apply List.filterMap_congr
  intro e he
  exact h.read he

theorem Sound.listed_once (he : e∈t.store) :
    (listed pf t.store).countP (fun k=>k.fingerprintV4=e.2.fingerprintV4)=1:=by
  have hfps : (t.store.map fun e=>e.2.fingerprintV4).Nodup:=by
    have hnames : t.store.map Prod.fst=(t.store.map fun e=>e.2.fingerprintV4).map deriveKeyName:=by
      rw [List.map_map]
      exact List.map_congr_left h.names
    have hnodup:=h.nodup
    rw [hnames] at hnodup
    exact hnodup.of_map _
  have hcount:=List.count_eq_one_of_mem hfps (List.mem_map_of_mem he)
  rw [h.listed_perm.countP_eq,List.countP_map]
  rw [List.count,List.countP_map] at hcount
  rw [← hcount]
  apply List.countP_congr
  intro e' _
  simp

theorem Sound.resolve {name : Bytes} (hname : resolveKeyName pf index t.store=some name) :
    ∃ k, (name,k)∈t.store ∧ name=deriveKeyName k.fingerprintV4 ∧ getKey pf index t.store=some k:=by
  have hresolve:=hname
  unfold resolveKeyName at hname
  rw [Option.map_eq_some_iff] at hname
  obtain ⟨entry,hentry,rfl⟩:=hname
  have hmem:=h.listIndex_perm.mem_iff.mp (List.mem_of_getElem? hentry)
  obtain ⟨e,he,rfl⟩:=List.mem_map.mp hmem
  refine ⟨e.2,he,h.names e he,?_⟩
  unfold getKey
  rw [hresolve]
  exact h.read he

theorem Sound.getKey_none (hkey : getKey pf index t.store=none) :
    resolveKeyName pf index t.store=none:=by
  cases hname : resolveKeyName pf index t.store with
  | none=>rfl
  | some name=>
    obtain ⟨k,_,_,hsome⟩:=h.resolve hname
    rw [hkey] at hsome
    cases hsome

theorem Sound.getKey_some {k : RecvKey} (hkey : getKey pf index t.store=some k) :
    resolveKeyName pf index t.store=some (deriveKeyName k.fingerprintV4) ∧
      (deriveKeyName k.fingerprintV4,k)∈t.store:=by
  cases hname : resolveKeyName pf index t.store with
  | none=>
    unfold getKey at hkey
    rw [hname] at hkey
    cases hkey
  | some name=>
    obtain ⟨k',hmem,rfl,hsome⟩:=h.resolve hname
    rw [hkey] at hsome
    cases hsome
    exact ⟨rfl,hmem⟩

end Sound

section Writing

variable {pf : Platform} {o : SeOutcome} {name : Bytes} {key : RecvKey} {s : Store}

theorem mem_written :
    e∈pf.order ((name,key)::s.filter fun e=>e.1≠name) ↔ e=(name,key) ∨ e∈s ∧ e.1≠name:=by
  rw [(pf.order_perm _).mem_iff]
  simp

theorem written_nodup (h : (s.map Prod.fst).Nodup) :
    ((pf.order ((name,key)::s.filter fun e=>e.1≠name)).map Prod.fst).Nodup:=by
  rw [((pf.order_perm _).map _).nodup_iff,List.map_cons,List.nodup_cons]
  constructor
  · simp
  · exact h.sublist (List.filter_sublist.map _)

theorem written_length (h : readByName name s≠none ∨ s.length < kMaxKeys) (hs : s.length ≤ kMaxKeys) :
    (pf.order ((name,key)::s.filter fun e=>e.1≠name)).length ≤ kMaxKeys:=by
  rw [(pf.order_perm _).length_eq,List.length_cons]
  have hle:=List.length_filter_le (fun e=>decide (e.1≠name)) s
  rcases h with h | h
  · have hlt : (s.filter fun e=>e.1≠name).length < s.length:=by
      have hex : ∃ e∈s, e.1=name:=by
        by_contra hcon
        refine h (readByName_none.mpr fun e he hname=>hcon ⟨e,he,hname⟩)
      obtain ⟨e,he,hname⟩:=hex
      rw [List.length_filter_lt_length_iff_exists]
      exact ⟨e,he,by simpa using hname⟩
    omega
  · omega

theorem Sound.written {kept kept' : List (ByteArr 20)} (h : Sound ⟨s,kept⟩)
    (hname : name=deriveKeyName key.fingerprintV4) (hroom : readByName name s≠none ∨ s.length < kMaxKeys)
    (hclash : ∀ e∈s, e.1=name→e.2.fingerprintV4=key.fingerprintV4)
    (hkept : ∀ fp∈kept', fp∈kept ∨ fp=key.fingerprintV4) :
    Sound ⟨pf.order ((name,key)::s.filter fun e=>e.1≠name),kept'⟩ where
  names e he:=by
    rcases mem_written.mp he with rfl | ⟨he,_⟩
    · exact hname
    · exact h.names e he
  nodup:=written_nodup h.nodup
  size:=written_length hroom h.size
  kept fp hfp:=by
    by_cases hnew : fp=key.fingerprintV4
    · exact ⟨(name,key),mem_written.mpr (.inl rfl),hnew.symm⟩
    · obtain ⟨e,he,hfp'⟩:=h.kept fp ((hkept fp hfp).resolve_right hnew)
      refine ⟨e,mem_written.mpr (.inr ⟨he,fun hen=>hnew ?_⟩),hfp'⟩
      rw [← hfp',hclash e he hen]

theorem written_kept (he : e∈s) (hne : e.1≠name) :
    e∈pf.order ((name,key)::s.filter fun e=>e.1≠name):=
  mem_written.mpr (.inr ⟨he,hne⟩)

theorem mem_erased :
    e∈pf.order (s.filter fun e=>e.1≠name) ↔ e∈s ∧ e.1≠name:=by
  rw [(pf.order_perm _).mem_iff]
  simp

theorem Sound.erased {kept kept' : List (ByteArr 20)} (h : Sound ⟨s,kept⟩)
    (hkept : ∀ fp∈kept', fp∈kept ∧ deriveKeyName fp≠name) :
    Sound ⟨pf.order (s.filter fun e=>e.1≠name),kept'⟩ where
  names e he:=h.names e (mem_erased.mp he).1
  nodup:=by
    rw [((pf.order_perm _).map _).nodup_iff]
    exact h.nodup.sublist (List.filter_sublist.map _)
  size:=by
    rw [(pf.order_perm _).length_eq]
    exact (List.length_filter_le _ _).trans h.size
  kept fp hfp:=by
    obtain ⟨hold,hne⟩:=hkept fp hfp
    obtain ⟨e,he,rfl⟩:=h.kept fp hold
    exact ⟨e,mem_erased.mpr ⟨he,by rw [h.names e he]; exact hne⟩,rfl⟩

end Writing

section Steps

variable {pf : Platform} {t : Tracked} {i : RecvInput}

/-- Keys of one name are keys of one fingerprint, while the key that is written does not clash. -/
theorem clash_free {key : RecvKey} (h : Sound t)
    (hclash : ∀ e∈t.store, e.2.fingerprintV4.toList.take 4=key.fingerprintV4.toList.take 4 →
      e.2.fingerprintV4=key.fingerprintV4) (e : Bytes × RecvKey) (he : e∈t.store)
    (hname : e.1=deriveKeyName key.fingerprintV4) : e.2.fingerprintV4=key.fingerprintV4:=
  hclash e he (deriveKeyName_inj.mp ((h.names e he).symm.trans hname))

theorem Sound.same {k : RecvKey} (h : Sound t) (hk : (deriveKeyName k.fingerprintV4,k)∈t.store)
    (e : Bytes × RecvKey) (he : e∈t.store) (hname : e.1=deriveKeyName k.fingerprintV4) : e.2=k:=by
  have hread:=h.read he
  rw [hname] at hread
  exact Option.some.inj (hread.symm.trans (h.read hk))

theorem Sound.room {name : Bytes} (h : Sound t)
    (hfull : ¬(readByName name t.store=none ∧ kMaxKeys ≤ count t.store)) :
    readByName name t.store≠none ∨ t.store.length < kMaxKeys:=by
  by_contra hcon
  simp only [ne_eq,not_or,not_not,not_lt] at hcon
  refine hfull ⟨hcon.1,?_⟩
  unfold count
  rw [h.prefixed]
  omega

theorem Sound.addKey {key : RecvKey} {o : SeOutcome} (h : Sound t) (hclash : NoClash t ⟨.addKey key,o⟩) :
    Sound (t.step pf ⟨.addKey key,o⟩) ∧ Leaves pf t.store ⟨.addKey key,o⟩ (t.step pf ⟨.addKey key,o⟩).store:=by
  let name:=deriveKeyName key.fingerprintV4
  by_cases hfull : readByName name t.store=none ∧ kMaxKeys ≤ count t.store
  · have hstep : t.step pf ⟨.addKey key,o⟩=t:=by
      simp only [Tracked.step,respond,GpgRecv.addKey,name,hfull,and_self,if_true,Bool.false_eq_true,if_false]
    rw [hstep]
    exact ⟨h,fun e he _=>he⟩
  cases happlied : o.applied with
  | false=>
    have hnot : o≠.done:=by
      rintro rfl
      cases happlied
    have hstep : t.step pf ⟨.addKey key,o⟩=t:=by
      simp only [Tracked.step,respond,GpgRecv.addKey,name,hfull,if_false,writeByName,happlied,hnot,decide_false,
        Bool.false_eq_true]
    rw [hstep]
    exact ⟨h,fun e he _=>he⟩
  | true=>
    have hstore : (t.step pf ⟨.addKey key,o⟩).store =
        pf.order ((name,key)::t.store.filter fun e=>e.1≠name):=by
      simp only [Tracked.step,respond,GpgRecv.addKey,name,hfull,if_false,writeByName,happlied,if_true]
    have hown:=clash_free h (hclash key rfl happlied)
    have hkept : ∀ fp∈(t.step pf ⟨.addKey key,o⟩).kept, fp∈t.kept ∨ fp=key.fingerprintV4:=by
      intro fp hfp
      simp only [Tracked.step] at hfp
      split at hfp
      · exact (List.mem_cons.mp hfp).symm
      · exact .inl hfp
    constructor
    · have hwritten : Sound ⟨pf.order ((name,key)::t.store.filter fun e=>e.1≠name),(t.step pf ⟨.addKey key,o⟩).kept⟩:=
        h.written rfl (h.room hfull) hown hkept
      rw [← hstore] at hwritten
      exact hwritten
    · intro e he hne
      rw [hstore]
      exact written_kept he fun hname=>hne (hown e he hname)

theorem Sound.setSignature {sig : Bytes} {createdAt : UInt32} {flags : UInt8} {o : SeOutcome}
    (h : Sound t) : Sound (t.step pf ⟨.setSignature index sig createdAt flags,o⟩) ∧
      Leaves pf t.store ⟨.setSignature index sig createdAt flags,o⟩
        (t.step pf ⟨.setSignature index sig createdAt flags,o⟩).store:=by
  simp only [Tracked.step,respond,Leaves]
  cases hkey : getKey pf index t.store with
  | none=>
    have hsame : (GpgRecv.setSignature pf o index sig createdAt flags t.store).2=t.store:=by
      unfold GpgRecv.setSignature
      rw [h.getKey_none hkey]
      split <;> rfl
    rw [hsame]
    exact ⟨h,rfl⟩
  | some k=>
    obtain ⟨hname,hmem⟩:=h.getKey_some hkey
    have hread:=h.read hmem
    by_cases hsig : sig=[] ∨ 64 < sig.length
    · have hsame : (GpgRecv.setSignature pf o index sig createdAt flags t.store).2=t.store:=by
        unfold GpgRecv.setSignature
        rw [if_pos hsig]
      rw [hsame]
      exact ⟨h,fun e he _=>he,fun hok=>absurd hsig hok⟩
    have hwrite : (GpgRecv.setSignature pf o index sig createdAt flags t.store).2 =
        (writeByName pf o (deriveKeyName k.fingerprintV4) (k.signed sig createdAt flags) t.store).2:=by
      unfold GpgRecv.setSignature
      rw [if_neg hsig,hname]
      simp only [hread]
    rw [hwrite]
    cases happlied : o.applied with
    | false=>
      simp only [writeByName,happlied,Bool.false_eq_true,if_false]
      exact ⟨h,fun e he _=>he,fun _ hfalse=>by cases hfalse⟩
    | true=>
      simp only [writeByName,happlied,if_true]
      refine ⟨?_,?_,fun _ _=>mem_written.mpr (.inl rfl)⟩
      · refine h.written rfl (.inl (by rw [hread]; simp)) (fun e he hen=>?_) fun fp hfp=>.inl hfp
        rw [h.same hmem e he hen]
        rfl
      · intro e he hne
        refine written_kept he fun hen=>hne ?_
        rw [h.same hmem e he hen]

theorem Sound.deleteKey {o : SeOutcome} (h : Sound t) :
    Sound (t.step pf ⟨.deleteKey index,o⟩) ∧
      Leaves pf t.store ⟨.deleteKey index,o⟩ (t.step pf ⟨.deleteKey index,o⟩).store:=by
  simp only [Tracked.step,respond,Leaves]
  cases hkey : getKey pf index t.store with
  | none=>
    have hsame : (GpgRecv.deleteKey pf o index t.store).2=t.store:=by
      unfold GpgRecv.deleteKey
      rw [h.getKey_none hkey]
    rw [hsame]
    exact ⟨h,rfl⟩
  | some k=>
    obtain ⟨hname,hmem⟩:=h.getKey_some hkey
    have herase : (GpgRecv.deleteKey pf o index t.store).2 =
        if o.applied then pf.order (t.store.filter fun e=>e.1≠deriveKeyName k.fingerprintV4) else t.store:=by
      unfold GpgRecv.deleteKey
      rw [hname]
    rw [herase]
    cases happlied : o.applied with
    | false=>
      simp only [Bool.false_eq_true,if_false,false_implies,and_true,implies_true]
      exact h
    | true=>
      simp only [if_true,forall_const]
      have hsame : ∀ e∈t.store, e.1=deriveKeyName k.fingerprintV4 ↔ e.2.fingerprintV4=k.fingerprintV4:=by
        intro e he
        constructor
        · intro hen
          rw [h.same hmem e he hen]
        · intro hfp
          rw [h.names e he,hfp]
      constructor
      · refine h.erased fun fp hfp=>?_
        simp only [List.mem_filter,decide_eq_true_eq] at hfp
        obtain ⟨e,he,rfl⟩:=h.kept fp hfp.1
        refine ⟨hfp.1,fun hen=>hfp.2 ((hsame e he).mp ?_)⟩
        rw [h.names e he]
        exact hen
      · intro e
        rw [mem_erased]
        constructor
        · rintro ⟨he,hne⟩
          exact ⟨he,fun hfp=>hne ((hsame e he).mpr hfp)⟩
        · rintro ⟨he,hne⟩
          exact ⟨he,fun hen=>hne ((hsame e he).mp hen)⟩

theorem Sound.step (h : Sound t) (hclash : NoClash t i) :
    Sound (t.step pf i) ∧ Leaves pf t.store i (t.step pf i).store:=by
  obtain ⟨op,o⟩:=i
  cases op with
  | addKey key=>exact h.addKey hclash
  | setSignature index sig createdAt flags=>exact h.setSignature
  | deleteKey index=>exact h.deleteKey

theorem correct_iff (h : Sound t) : Correct pf t i ↔ NoClash t i:=by
  constructor
  · intro hcorrect key hop happlied e he hfour
    obtain ⟨op,o⟩:=i
    cases hop
    by_contra hne
    have hname : e.1=deriveKeyName key.fingerprintV4:=(h.names e he).trans (deriveKeyName_inj.mpr hfour)
    have hread : readByName (deriveKeyName key.fingerprintV4) t.store≠none:=by
      rw [← hname,h.read he]
      simp
    have hstore : (t.step pf ⟨.addKey key,o⟩).store=pf.order ((deriveKeyName key.fingerprintV4,key) ::
        t.store.filter fun e=>e.1≠deriveKeyName key.fingerprintV4):=by
      simp only [Tracked.step,respond,GpgRecv.addKey,hread,false_and,if_false,writeByName,happlied,if_true]
    have hstays:=hcorrect.1 e he hne
    rw [hstore] at hstays
    rcases mem_written.mp hstays with rfl | ⟨_,hother⟩
    · exact hne rfl
    · exact hother hname
  · intro hclash
    obtain ⟨hsound,hleaves⟩ : Sound (t.step pf i) ∧ Leaves pf t.store i (t.step pf i).store:=h.step hclash
    refine ⟨hleaves,fun fp hfp=>?_⟩
    obtain ⟨e,he,rfl⟩:=hsound.kept fp hfp
    exact hsound.listed_once he

end Steps

theorem sound_empty : Sound {} where
  names _ he:=by cases he
  nodup:=List.nodup_nil
  size:=by decide
  kept _ hfp:=by cases hfp

/-- In a run from an empty store every call leaves other keys alone, acts on the key of its index and keeps every
added key on the list once, exactly where no added key has the first four bytes of another stored key. -/
theorem received_keys_kept (pf : Platform) (is : List RecvInput) :
    AlongRun (Tracked.step pf) (Correct pf) {} is ↔ AlongRun (Tracked.step pf) NoClash {} is:=by
  apply alongRun_iff ?_ sound_empty
  exact fun t i ht=>⟨correct_iff ht,fun hclash=>(ht.step hclash).1⟩

def Platform.plain : Platform where
  order s:=s
  order_perm _:=.refl _
  sort es:=es.mergeSort fun a b=>a.receivedAt ≤ b.receivedAt
  sort_perm es:=List.mergeSort_perm es _
  sort_sorted es:=by
    refine (List.pairwise_mergeSort ?_ ?_ es).imp fun h=>by simpa using h
    · intro a b c hab hbc
      simp only [decide_eq_true_eq] at *
      exact UInt32.le_trans hab hbc
    · intro a b
      simp only [Bool.or_eq_true,decide_eq_true_eq]
      exact UInt32.le_total _ _

def keyWith (fp : Bytes) : RecvKey:={fingerprintV4:=fit 20 fp}

/-- Two keys whose fingerprints begin with the same four bytes. -/
theorem received_key_replaced : ¬AlongRun (Tracked.step .plain) (Correct .plain) {}
    [⟨.addKey (keyWith [1,2,3,4,5]),.done⟩,⟨.addKey (keyWith [1,2,3,4,6]),.done⟩]:=by
  rintro ⟨hfirst,hsecond,-⟩
  have hsound : Sound (Tracked.step .plain {} ⟨.addKey (keyWith [1,2,3,4,5]),.done⟩):=
    (sound_empty.step ((correct_iff sound_empty).mp hfirst)).1
  have hclash:=(correct_iff hsound).mp hsecond
  exact absurd (hclash _ rfl rfl (deriveKeyName (keyWith [1,2,3,4,5]).fingerprintV4,keyWith [1,2,3,4,5])
    (by decide) (by decide)) (by decide)

end CdcBadge.GpgRecv
