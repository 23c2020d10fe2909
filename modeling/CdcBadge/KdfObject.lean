import CdcBadge.OpenPgpFrames
import CdcBadge.Codecs

/-!
# The KDF data object of the OpenPGP card

The codec of the object with all its fields, and what storing an object does to the passwords.
-/

namespace CdcBadge.OpenPgp

open Handler Codecs
open Pin (Pw)

/-- `kdf_status_t` without its success. -/
inductive KdfStatus | bufTooSmall | badLength | badTag | badAlgo | badHash | badHashLen
  deriving DecidableEq, Repr

/-- A salt with its flag. -/
structure KdfSalt where
  present : Bool:=false
  value : ByteArr 8:=zeros 8
  deriving DecidableEq

/-- An initial hash with its flag and the number of bytes of it that count. -/
structure KdfInitial where
  present : Bool:=false
  value : ByteArr 64:=zeros 64
  len : UInt8:=0
  len_le : len ≤ 64:=by decide
  deriving DecidableEq

/-- `kdf_do_t`. -/
structure KdfDoT where
  algo : UInt8:=0
  hash : UInt8:=0
  iterCount : UInt32:=0
  pw1Salt : KdfSalt:={}
  rcSalt : KdfSalt:={}
  pw3Salt : KdfSalt:={}
  pw1Initial : KdfInitial:={}
  pw3Initial : KdfInitial:={}
  deriving DecidableEq

def validHash (h : UInt8) : Bool:=h == kdfHashNone || h == kdfHashSha256 || h == kdfHashSha512

namespace KdfSalt

def take (v : Bytes) : Except KdfStatus KdfSalt:=
  if v.length≠8 then .error .badLength else .ok {present:=true,value:=fit 8 v}

def items (tag : UInt8) (salt : KdfSalt) : List Item:=if salt.present then [(tag,salt.value.toList)] else []

end KdfSalt

namespace KdfInitial

def take (before : KdfInitial) (v : Bytes) : Except KdfStatus KdfInitial:=
  if h : v.length=32 ∨ v.length=64 then
    .ok { present:=true,value:=fit 64 (v++before.value.toList.drop v.length),len:=UInt8.ofNat v.length
          len_le:=by rcases h with h | h <;> rw [h] <;> decide }
  else .error .badHashLen

def bytes (initial : KdfInitial) : Bytes:=initial.value.toList.take initial.len.toNat

def items (tag : UInt8) (initial : KdfInitial) : List Item:=if initial.present then [(tag,initial.bytes)] else []

end KdfInitial

namespace KdfDoT

def takeItem (item : Item) (k : KdfDoT) : Except KdfStatus KdfDoT:=
  let v:=item.2
  if item.1=0x81 then
    if v.length≠1 then .error .badLength
    else if v≠[kdfAlgoNone] ∧ v≠[kdfAlgoPbkdf2] then .error .badAlgo
    else .ok {k with algo:=v.headD 0}
  else if item.1=0x82 then
    if v.length≠1 then .error .badLength
    else if !validHash (v.headD 0) then .error .badHash
    else .ok {k with hash:=v.headD 0}
  else if item.1=0x83 then
    if v.length≠4 then .error .badLength
    else .ok {k with iterCount:=ofBe32 (v.getD 0 0) (v.getD 1 0) (v.getD 2 0) (v.getD 3 0)}
  else if item.1=0x84 then (KdfSalt.take v).map fun salt=>{k with pw1Salt:=salt}
  else if item.1=0x85 then (KdfSalt.take v).map fun salt=>{k with rcSalt:=salt}
  else if item.1=0x86 then (KdfSalt.take v).map fun salt=>{k with pw3Salt:=salt}
  else if item.1=0x87 then (k.pw1Initial.take v).map fun initial=>{k with pw1Initial:=initial}
  else if item.1=0x88 then (k.pw3Initial.take v).map fun initial=>{k with pw3Initial:=initial}
  else .error .badTag

/-- `kdf_do_parse`. -/
def parse (bytes : Bytes) : Except KdfStatus KdfDoT:=readItems takeItem .badLength bytes.length bytes {}

def items (k : KdfDoT) : List Item:=
  [(0x81,[k.algo]),(0x82,[k.hash])] ++
    if k.algo=kdfAlgoPbkdf2 then
      (0x83,be32 k.iterCount)::k.pw1Salt.items 0x84++k.rcSalt.items 0x85++k.pw3Salt.items 0x86 ++
        k.pw1Initial.items 0x87++k.pw3Initial.items 0x88
    else []

/-- `emit_tlv`. -/
def emitTlv (cap : ℕ) (out : Bytes) (item : Item) : Except KdfStatus Bytes:=
  if cap < out.length+2+item.2.length then .error .bufTooSmall else .ok (out++item.encode)

/-- `kdf_do_build` into a buffer of `outCap` bytes. -/
def build (outCap : ℕ) (k : KdfDoT) : Except KdfStatus Bytes:=k.items.foldlM (emitTlv outCap) []

/-- The tags that the codec knows, with values of their size. -/
def Known (item : Item) : Prop:=
  item.1=0x81 ∧ (item.2=[kdfAlgoNone] ∨ item.2=[kdfAlgoPbkdf2]) ∨
  item.1=0x82 ∧ (∃ h, item.2=[h] ∧ validHash h=true) ∨
  item.1=0x83 ∧ item.2.length=4 ∨
  (item.1=0x84 ∨ item.1=0x85 ∨ item.1=0x86) ∧ item.2.length=8 ∨
  (item.1=0x87 ∨ item.1=0x88) ∧ (item.2.length=32 ∨ item.2.length=64)

end KdfDoT

def KdfSalt.Clean (salt : KdfSalt) : Prop:=salt.present=false → salt.value=zeros 8

/-- An initial hash is clear behind the bytes that count, and altogether where it is not there. -/
def KdfInitial.Clean (initial : KdfInitial) : Prop:=
  if initial.present then (initial.len=32 ∨ initial.len=64) ∧ initial.value=fit 64 initial.bytes
  else initial.value=zeros 64 ∧ initial.len=0

/-- The fields are within the limits of the parser, and what is not written is clear. -/
def KdfDoT.Clean (k : KdfDoT) : Prop:=
  validHash k.hash=true ∧
    (k={algo:=kdfAlgoNone,hash:=k.hash} ∨
      k.algo=kdfAlgoPbkdf2 ∧ k.pw1Salt.Clean ∧ k.rcSalt.Clean ∧ k.pw3Salt.Clean ∧
        k.pw1Initial.Clean ∧ k.pw3Initial.Clean)

theorem KdfInitial.bytes_length (initial : KdfInitial) : initial.bytes.length=initial.len.toNat:=by
  have h:=UInt8.le_iff_toNat_le.mp initial.len_le
  change initial.len.toNat ≤ 64 at h
  simpa [KdfInitial.bytes] using h

def KdfSalt.normal (salt : KdfSalt) : KdfSalt:=if salt.present then salt else {}

def KdfInitial.normal (initial : KdfInitial) : KdfInitial:=
  if initial.present then {initial with value:=fit 64 initial.bytes} else {}

theorem KdfSalt.normal_eq_iff (salt : KdfSalt) : salt.normal=salt ↔ salt.Clean:=by
  obtain ⟨present,value⟩:=salt
  cases present <;> simp [KdfSalt.normal,KdfSalt.Clean,eq_comm]

/-- An initial hash has a size that the parser takes. -/
def KdfInitial.Sized (initial : KdfInitial) : Prop:=initial.present=true→initial.len=32 ∨ initial.len=64

theorem KdfInitial.normal_eq_iff (initial : KdfInitial) :
    initial.Sized ∧ initial.normal=initial ↔ initial.Clean:=by
  obtain ⟨present,value,len,hlen⟩:=initial
  cases present
  · simp [KdfInitial.normal,KdfInitial.Clean,KdfInitial.Sized,eq_comm]
  · simp [KdfInitial.normal,KdfInitial.Clean,KdfInitial.Sized,eq_comm]

variable {k : KdfDoT} {set : KdfInitial→KdfDoT} {v : Bytes}

namespace KdfDoT

def takeItems (items : List Item) (k : KdfDoT) : Except KdfStatus KdfDoT:=
  items.foldlM (fun k item=>takeItem item k) k

theorem takeItems_cons (item : Item) (items : List Item) (k : KdfDoT) :
    takeItems (item::items) k=(takeItem item k).bind (takeItems items):=by
  simp only [takeItems,List.foldlM_cons]
  rfl

theorem takeItems_append (items items' : List Item) (k : KdfDoT) :
    takeItems (items++items') k=(takeItems items k).bind (takeItems items'):=by
  simp only [takeItems,List.foldlM_append]
  rfl

theorem takeItems_nil (k : KdfDoT) : takeItems [] k=.ok k:=rfl

theorem take_salt (salt : KdfSalt) : KdfSalt.take salt.value.toList=.ok {present:=true,value:=salt.value}:=by
  simp [KdfSalt.take]

theorem takeItems_salt {tag : UInt8} (set : KdfSalt→KdfDoT)
    (htake : ∀ v, takeItem (tag,v) k=(KdfSalt.take v).map set) (hk : set {}=k) (salt : KdfSalt) :
    takeItems (salt.items tag) k=.ok (set salt.normal):=by
  obtain ⟨present,value⟩:=salt
  cases present
  · simp [KdfSalt.items,KdfSalt.normal,takeItems_nil,hk]
  · have h:=take_salt ⟨true,value⟩
    simp [KdfSalt.items,KdfSalt.normal,takeItems_cons,takeItems_nil,htake,h,Except.bind,Except.map]

theorem fit_append_replicate (n m : ℕ) (data : Bytes) : fit n (data++List.replicate m 0)=fit n data:=by
  apply Subtype.ext
  change (data++List.replicate m 0).takeD n 0=data.takeD n 0
  induction n generalizing m data with
  | zero=>rfl
  | succ n ih=>
    cases data with
    | nil=>
      cases m with
      | zero=>rfl
      | succ m=>simpa [List.replicate_succ] using ih m []
    | cons b data=>simpa using ih m data

theorem zeros_drop (n k : ℕ) : (zeros n).toList.drop k=List.replicate (n-k) 0:=by
  change (List.replicate n (0 : UInt8)).drop k=_
  rw [List.drop_replicate]

theorem take_initial {initial : KdfInitial} (hpresent : initial.present=true)
    (hlen : initial.len=32 ∨ initial.len=64) : KdfInitial.take {} initial.bytes=.ok initial.normal:=by
  have hbytes:=initial.bytes_length
  have hnat : initial.bytes.length=32 ∨ initial.bytes.length=64:=by
    rcases hlen with h | h <;> simp [hbytes,h]
  have hlen' : UInt8.ofNat initial.bytes.length=initial.len:=by simp [hbytes]
  simp only [KdfInitial.take,dif_pos hnat,zeros_drop,fit_append_replicate,KdfInitial.normal,hpresent,if_true,hlen']

theorem take_initial_sized {before initial : KdfInitial} (h : KdfInitial.take before v=.ok initial) :
    v.length=32 ∨ v.length=64:=by
  unfold KdfInitial.take at h
  split at h
  · assumption
  · cases h

theorem takeItems_initial {tag : UInt8}
    (htake : ∀ v, takeItem (tag,v) k=(KdfInitial.take {} v).map set) (hk : set {}=k) {initial : KdfInitial}
    (hsized : initial.Sized) : takeItems (initial.items tag) k=.ok (set initial.normal):=by
  cases hpresent : initial.present with
  | false=>simp [KdfInitial.items,KdfInitial.normal,hpresent,takeItems_nil,hk]
  | true=>
    have h:=take_initial hpresent (hsized hpresent)
    simp [KdfInitial.items,hpresent,takeItems_cons,takeItems_nil,htake,h,Except.bind,Except.map]

theorem sized_of_takeItems {tag : UInt8} {k k' : KdfDoT}
    (htake : ∀ v, takeItem (tag,v) k=(KdfInitial.take {} v).map set) {initial : KdfInitial}
    (h : takeItems (initial.items tag) k=.ok k') : initial.Sized:=by
  intro hpresent
  simp only [KdfInitial.items,hpresent,if_true,takeItems_cons,htake] at h
  cases ht : KdfInitial.take {} initial.bytes with
  | error e=>simp [ht,Except.map,Except.bind] at h
  | ok taken=>
    have hlen:=take_initial_sized ht
    rw [initial.bytes_length] at hlen
    rcases hlen with hlen | hlen
    · exact .inl (UInt8.toNat_inj.mp hlen)
    · exact .inr (UInt8.toNat_inj.mp hlen)

def normal (k : KdfDoT) : KdfDoT:=
  if k.algo=kdfAlgoPbkdf2 then
    { k with pw1Salt:=k.pw1Salt.normal,rcSalt:=k.rcSalt.normal,pw3Salt:=k.pw3Salt.normal,
             pw1Initial:=k.pw1Initial.normal,pw3Initial:=k.pw3Initial.normal }
  else {algo:=k.algo,hash:=k.hash}

/-- The fields that are written are within the limits of the parser. -/
def Sized (k : KdfDoT) : Prop:=
  (k.algo=kdfAlgoNone ∨ k.algo=kdfAlgoPbkdf2 ∧ k.pw1Initial.Sized ∧ k.pw3Initial.Sized) ∧ validHash k.hash=true

theorem takeItem_algo {algo : UInt8} {k k' : KdfDoT} : takeItem (0x81,[algo]) k=.ok k' ↔
    (algo=kdfAlgoNone ∨ algo=kdfAlgoPbkdf2) ∧ {k with algo:=algo}=k':=by
  by_cases h : algo≠kdfAlgoNone ∧ algo≠kdfAlgoPbkdf2
  · simp [takeItem,h]
  · have h' : algo=kdfAlgoNone ∨ algo=kdfAlgoPbkdf2:=by tauto
    simp [takeItem,h,h']

theorem takeItem_hash {hash : UInt8} {k k' : KdfDoT} : takeItem (0x82,[hash]) k=.ok k' ↔
    validHash hash=true ∧ {k with hash:=hash}=k':=by
  by_cases h : validHash hash=true
  · simp [takeItem,h]
  · simp [takeItem,h]

theorem takeItem_iterCount (n : UInt32) (k : KdfDoT) :
    takeItem (0x83,be32 n) k=.ok {k with iterCount:=n}:=by
  simp [takeItem,be32,ofBe32_be32]

theorem takeItems_fields {k k₀ : KdfDoT} (hk₀ : k₀={algo:=k.algo,hash:=k.hash}) (k' : KdfDoT) :
    takeItems ((0x83,be32 k.iterCount)::k.pw1Salt.items 0x84++k.rcSalt.items 0x85++k.pw3Salt.items 0x86 ++
      k.pw1Initial.items 0x87++k.pw3Initial.items 0x88) k₀=.ok k' ↔
    (k.pw1Initial.Sized ∧ k.pw3Initial.Sized) ∧
      k'={ k with pw1Salt:=k.pw1Salt.normal,rcSalt:=k.rcSalt.normal,pw3Salt:=k.pw3Salt.normal,
                    pw1Initial:=k.pw1Initial.normal,pw3Initial:=k.pw3Initial.normal }:=by
  subst hk₀
  let k₁ : KdfDoT:={algo:=k.algo,hash:=k.hash,iterCount:=k.iterCount}
  have h₁ : takeItems (k.pw1Salt.items 0x84) k₁=.ok {k₁ with pw1Salt:=k.pw1Salt.normal}:=
    takeItems_salt (fun salt=>{k₁ with pw1Salt:=salt}) (fun _=>rfl) rfl _
  let k₂ : KdfDoT:={k₁ with pw1Salt:=k.pw1Salt.normal}
  have h₂ : takeItems (k.rcSalt.items 0x85) k₂=.ok {k₂ with rcSalt:=k.rcSalt.normal}:=
    takeItems_salt (fun salt=>{k₂ with rcSalt:=salt}) (fun _=>rfl) rfl _
  let k₃ : KdfDoT:={k₂ with rcSalt:=k.rcSalt.normal}
  have h₃ : takeItems (k.pw3Salt.items 0x86) k₃=.ok {k₃ with pw3Salt:=k.pw3Salt.normal}:=
    takeItems_salt (fun salt=>{k₃ with pw3Salt:=salt}) (fun _=>rfl) rfl _
  let k₄ : KdfDoT:={k₃ with pw3Salt:=k.pw3Salt.normal}
  have htake₄ : ∀ v, takeItem (0x87,v) k₄=(KdfInitial.take {} v).map fun i=>{k₄ with pw1Initial:=i}:=
    fun _=>rfl
  let k₅ : KdfDoT:={k₄ with pw1Initial:=k.pw1Initial.normal}
  have htake₅ : ∀ v, takeItem (0x88,v) k₅=(KdfInitial.take {} v).map fun i=>{k₅ with pw3Initial:=i}:=
    fun _=>rfl
  have hstart : takeItems ((0x83,be32 k.iterCount)::k.pw1Salt.items 0x84++k.rcSalt.items 0x85 ++
      k.pw3Salt.items 0x86) {algo:=k.algo,hash:=k.hash}=.ok k₄:=by
    rw [List.cons_append,List.cons_append,takeItems_cons,takeItem_iterCount,Except.bind,takeItems_append,
      takeItems_append,h₁,Except.bind,h₂,Except.bind,h₃]
  rw [takeItems_append,takeItems_append,hstart,Except.bind]
  constructor
  · intro h
    cases hpw1 : takeItems (k.pw1Initial.items 0x87) k₄ with
    | error e=>
      rw [hpw1] at h
      cases h
    | ok k₆=>
      have hsized1:=sized_of_takeItems htake₄ hpw1
      rw [takeItems_initial htake₄ rfl hsized1] at h
      have hpw3 : takeItems (k.pw3Initial.items 0x88) k₅=.ok k':=h
      have hsized3:=sized_of_takeItems htake₅ hpw3
      rw [takeItems_initial htake₅ rfl hsized3] at hpw3
      cases hpw3
      exact ⟨⟨hsized1,hsized3⟩,rfl⟩
  · rintro ⟨⟨hsized1,hsized3⟩,rfl⟩
    rw [takeItems_initial htake₄ rfl hsized1]
    exact takeItems_initial htake₅ rfl hsized3

theorem algo_ne : kdfAlgoNone≠kdfAlgoPbkdf2:=by decide

theorem normal_pbkdf2 (h : k.algo=kdfAlgoPbkdf2) : k.normal =
    { k with pw1Salt:=k.pw1Salt.normal,rcSalt:=k.rcSalt.normal,pw3Salt:=k.pw3Salt.normal,
             pw1Initial:=k.pw1Initial.normal,pw3Initial:=k.pw3Initial.normal }:=if_pos h

theorem normal_other (h : k.algo≠kdfAlgoPbkdf2) : k.normal={algo:=k.algo,hash:=k.hash}:=
  if_neg h

theorem takeItems_items {k k' : KdfDoT} : takeItems k.items {}=.ok k' ↔ k.Sized ∧ k'=k.normal:=by
  have hhead : ∀ rest, takeItems ([(0x81,[k.algo]),(0x82,[k.hash])]++rest) {}=.ok k' ↔
      (k.algo=kdfAlgoNone ∨ k.algo=kdfAlgoPbkdf2) ∧ validHash k.hash=true ∧
        takeItems rest {algo:=k.algo,hash:=k.hash}=.ok k':=by
    intro rest
    rw [List.cons_append,List.cons_append,List.nil_append,takeItems_cons]
    cases halgo : takeItem (0x81,[k.algo]) {} with
    | error e=>
      have hno : ¬(k.algo=kdfAlgoNone ∨ k.algo=kdfAlgoPbkdf2):=fun h=>by
        have hok : takeItem (0x81,[k.algo]) {}=.ok {algo:=k.algo}:=takeItem_algo.mpr ⟨h,rfl⟩
        cases halgo.symm.trans hok
      simp [Except.bind,hno]
    | ok k₁=>
      obtain ⟨hknown,rfl⟩:=takeItem_algo.mp halgo
      rw [Except.bind,takeItems_cons]
      cases hhash : takeItem (0x82,[k.hash]) {algo:=k.algo} with
      | error e=>
        have hno : ¬validHash k.hash=true:=fun h=>by
          have hok : takeItem (0x82,[k.hash]) {algo:=k.algo}=.ok {algo:=k.algo,hash:=k.hash}:=
            takeItem_hash.mpr ⟨h,rfl⟩
          cases hhash.symm.trans hok
        simp [Except.bind,hno]
      | ok k₂=>
        obtain ⟨hvalid,rfl⟩:=takeItem_hash.mp hhash
        simp [Except.bind,hknown,hvalid]
  unfold items
  rw [hhead]
  by_cases hpbkdf2 : k.algo=kdfAlgoPbkdf2
  · rw [if_pos hpbkdf2,takeItems_fields rfl,normal_pbkdf2 hpbkdf2]
    simp only [Sized,hpbkdf2,algo_ne.symm,false_or,true_and,or_true]
    tauto
  · rw [if_neg hpbkdf2,takeItems_nil,normal_other hpbkdf2]
    simp only [Sized,hpbkdf2,false_and,or_false,Except.ok.injEq]
    constructor
    · rintro ⟨hnone,hvalid,rfl⟩
      exact ⟨⟨hnone,hvalid⟩,rfl⟩
    · rintro ⟨⟨hnone,hvalid⟩,rfl⟩
      exact ⟨hnone,hvalid,rfl⟩

theorem normal_eq_iff (k : KdfDoT) : k.Sized ∧ k=k.normal ↔ k.Clean:=by
  by_cases hpbkdf2 : k.algo=kdfAlgoPbkdf2
  · have hne : k≠{algo:=kdfAlgoNone,hash:=k.hash}:=fun h=>algo_ne (by rw [← hpbkdf2,h])
    rw [normal_pbkdf2 hpbkdf2]
    simp only [Sized,Clean,hpbkdf2,algo_ne.symm,hne,false_or,true_and,← KdfSalt.normal_eq_iff,
      ← KdfInitial.normal_eq_iff]
    constructor
    · rintro ⟨⟨⟨hsized1,hsized3⟩,hvalid⟩,heq⟩
      refine ⟨hvalid,?_,?_,?_,⟨hsized1,?_⟩,hsized3,?_⟩
      · exact (congrArg pw1Salt heq).symm
      · exact (congrArg rcSalt heq).symm
      · exact (congrArg pw3Salt heq).symm
      · exact (congrArg pw1Initial heq).symm
      · exact (congrArg pw3Initial heq).symm
    · rintro ⟨hvalid,h1,h2,h3,⟨hsized1,h4⟩,hsized3,h5⟩
      refine ⟨⟨⟨hsized1,hsized3⟩,hvalid⟩,?_⟩
      rw [h1,h2,h3,h4,h5,← hpbkdf2]
  · rw [normal_other hpbkdf2]
    simp only [Sized,Clean,hpbkdf2,false_and,or_false]
    constructor
    · rintro ⟨⟨hnone,hvalid⟩,heq⟩
      exact ⟨hvalid,by rw [hnone] at heq; exact heq⟩
    · rintro ⟨hvalid,heq⟩
      have hnone : k.algo=kdfAlgoNone:=by rw [heq]
      exact ⟨⟨hnone,hvalid⟩,by rw [hnone]; exact heq⟩

theorem emitTlv_foldlM {cap : ℕ} {items : List Item} {out b : Bytes} (hout : out.length ≤ cap) :
    items.foldlM (emitTlv cap) out=.ok b ↔ b.length ≤ cap ∧ b=out++encodeAll items:=by
  induction items generalizing out with
  | nil=>
    simp only [List.foldlM_nil,pure,Except.pure,Except.ok.injEq,encodeAll_nil,List.append_nil]
    constructor
    · rintro rfl
      exact ⟨hout,rfl⟩
    · rintro ⟨-,rfl⟩
      rfl
  | cons item items ih=>
    have hlen:=item.encode_length
    simp only [List.foldlM_cons,emitTlv,bind]
    by_cases hcap : cap < out.length+2+item.2.length
    · rw [if_pos hcap]
      simp only [Except.bind,reduceCtorEq,false_iff,encodeAll_cons]
      rintro ⟨hle,rfl⟩
      simp only [List.length_append] at hle
      omega
    · rw [if_neg hcap,Except.bind,ih (by simp only [List.length_append]; omega),encodeAll_cons,List.append_assoc]

theorem build_ok_iff {cap : ℕ} {bytes : Bytes} :
    build cap k=.ok bytes ↔ bytes.length ≤ cap ∧ bytes=encodeAll k.items:=by
  rw [build,emitTlv_foldlM (Nat.zero_le _),List.nil_append]

theorem items_short {item : Item} (h : item∈k.items) : item.2.length < 256:=by
  have hsalt : ∀ {tag : UInt8} {salt : KdfSalt}, item∈salt.items tag→item.2.length < 256:=by
    intro tag salt h
    simp only [KdfSalt.items] at h
    split at h
    · simp only [List.mem_singleton] at h
      simp [h]
    · cases h
  have hinitial : ∀ {tag : UInt8} {initial : KdfInitial}, item∈initial.items tag→item.2.length < 256:=by
    intro tag initial h
    simp only [KdfInitial.items] at h
    split at h
    · simp only [List.mem_singleton] at h
      rw [h,initial.bytes_length]
      exact initial.len.toNat_lt
    · cases h
  unfold items at h
  simp only [List.mem_append,List.mem_cons,List.not_mem_nil,or_false] at h
  rcases h with (rfl | rfl) | h
  · simp
  · simp
  · split at h
    · simp only [List.mem_append,List.mem_cons] at h
      rcases h with ((((rfl | h) | h) | h) | h) | h
      · simp [be32]
      · exact hsalt h
      · exact hsalt h
      · exact hsalt h
      · exact hinitial h
      · exact hinitial h
    · cases h

theorem parse_ok_iff {bytes : Bytes} : parse bytes=.ok k ↔
    ∃ items, split bytes.length bytes=some items ∧ takeItems items {}=.ok k:=readItems_ok_iff

/-- What is built is parsed as what it was built for, exactly where the object is clean. -/
theorem parse_build_iff {cap : ℕ} {bytes : Bytes} (h : build cap k=.ok bytes) :
    parse bytes=.ok k ↔ k.Clean:=by
  obtain ⟨-,rfl⟩:=build_ok_iff.mp h
  have hsplit:=split_encodeAll (length_le_encodeAll k.items) fun item hitem=>items_short hitem
  rw [parse_ok_iff,← normal_eq_iff,← takeItems_items]
  constructor
  · rintro ⟨items,hitems,hk⟩
    cases hsplit.symm.trans hitems
    exact hk
  · exact fun hk=>⟨_,hsplit,hk⟩

theorem map_ok_iff {α β ε : Type} {f : α → β} {x : Except ε α} : (∃ b, x.map f=.ok b) ↔ ∃ a, x=.ok a:=by
  cases x <;> simp [Except.map]

theorem salt_ok_iff : (∃ salt, KdfSalt.take v=.ok salt) ↔ v.length=8:=by
  by_cases h : v.length=8 <;> simp [KdfSalt.take,h]

theorem initial_ok_iff {before : KdfInitial} {v : Bytes} :
    (∃ initial, before.take v=.ok initial) ↔ v.length=32 ∨ v.length=64:=by
  by_cases h : v.length=32 ∨ v.length=64 <;> simp [KdfInitial.take,h]

theorem takeItem_ok_iff {item : Item} {k : KdfDoT} : (∃ k', takeItem item k=.ok k') ↔ Known item:=by
  obtain ⟨tag,v⟩:=item
  by_cases h81 : tag=0x81
  · subst h81
    rcases v with _ | ⟨b,_ | ⟨b',v⟩⟩
    · simp [takeItem,Known]
    · simp only [takeItem_algo,exists_and_left,exists_eq',and_true]
      simp [Known]
    · simp [takeItem,Known]
  by_cases h82 : tag=0x82
  · subst h82
    rcases v with _ | ⟨b,_ | ⟨b',v⟩⟩
    · simp [takeItem,Known]
    · simp only [takeItem_hash,exists_and_left,exists_eq',and_true]
      simp [Known]
    · simp [takeItem,Known]
  by_cases h83 : tag=0x83
  · subst h83
    by_cases hlen : v.length=4 <;> simp [takeItem,Known,hlen]
  by_cases h84 : tag=0x84
  · subst h84
    simp [takeItem,Known,map_ok_iff,salt_ok_iff]
  by_cases h85 : tag=0x85
  · subst h85
    simp [takeItem,Known,map_ok_iff,salt_ok_iff]
  by_cases h86 : tag=0x86
  · subst h86
    simp [takeItem,Known,map_ok_iff,salt_ok_iff]
  by_cases h87 : tag=0x87
  · subst h87
    simp [takeItem,Known,map_ok_iff,initial_ok_iff]
  by_cases h88 : tag=0x88
  · subst h88
    simp [takeItem,Known,map_ok_iff,initial_ok_iff]
  simp [takeItem,Known,h81,h82,h83,h84,h85,h86,h87,h88]

theorem takeItems_ok_iff {items : List Item} {k : KdfDoT} :
    (∃ k', takeItems items k=.ok k') ↔ ∀ item∈items, Known item:=by
  induction items generalizing k with
  | nil=>simp [takeItems_nil]
  | cons item items ih=>
    rw [takeItems_cons,List.forall_mem_cons,← @takeItem_ok_iff item k]
    cases htake : takeItem item k with
    | error e=>simp [Except.bind]
    | ok k₁=>
      rw [Except.bind,ih]
      simp

theorem Known.short {item : Item} (h : Known item) : item.2.length < 256:=by
  rcases h with ⟨-,h | h⟩ | ⟨-,_,h,-⟩ | ⟨-,h⟩ | ⟨-,h⟩ | ⟨-,h | h⟩ <;> simp [h]

/-- The parser succeeds on the sequences of known tags with values of their size, and on nothing else. -/
theorem parse_succeeds_iff (bytes : Bytes) :
    (∃ k, parse bytes=.ok k) ↔ ∃ items, bytes=encodeAll items ∧ ∀ item∈items, Known item:=by
  constructor
  · rintro ⟨k,hk⟩
    obtain ⟨items,hitems,htake⟩:=parse_ok_iff.mp hk
    exact ⟨items,(encodeAll_of_split hitems).1.symm,takeItems_ok_iff.mp ⟨k,htake⟩⟩
  · rintro ⟨items,rfl,hknown⟩
    obtain ⟨k,hk⟩:=(@takeItems_ok_iff items {}).mpr hknown
    have hsplit:=split_encodeAll (length_le_encodeAll items) fun item h=>(hknown item h).short
    exact ⟨k,parse_ok_iff.mpr ⟨items,hsplit,hk⟩⟩

def initial (k : KdfDoT) : Pw→KdfInitial
  | .pw1=>k.pw1Initial
  | .pw3=>k.pw3Initial

end KdfDoT

def KdfInitial.supplied (initial : KdfInitial) : Option Bytes:=if initial.present then some initial.bytes else none

def KdfDoT.onCard (k : KdfDoT) : KdfDo:=
  {algo:=k.algo,hash:=k.hash,pw1Initial:=k.pw1Initial.supplied,pw3Initial:=k.pw3Initial.supplied}

theorem KdfInitial.supplied_take {before initial : KdfInitial} (h : before.take v=.ok initial) :
    initial.supplied=some v:=by
  unfold KdfInitial.take at h
  by_cases hlen : v.length=32 ∨ v.length=64
  · rw [dif_pos hlen] at h
    cases h
    have hbyte : (UInt8.ofNat v.length).toNat=v.length:=by
      rcases hlen with h | h <;> rw [h] <;> rfl
    have hle : v.length ≤ 64:=by omega
    simp only [KdfInitial.supplied,KdfInitial.bytes,if_true,hbyte,Option.some.injEq]
    change ((v++before.value.toList.drop v.length).takeD 64 0).take v.length=v
    have hsum : 64 ≤ (v++before.value.toList.drop v.length).length:=by
      simp only [List.length_append,List.length_drop,List.Vector.toList_length]
      omega
    rw [List.takeD_eq_take _ hsum,List.take_take,Nat.min_eq_left hle,List.take_left]
  · rw [dif_neg hlen] at h
    cases h

namespace KdfDoT

theorem map_salt_onCard (set : KdfSalt→KdfDoT)
    (hset : ∀ salt, (set salt).onCard=k.onCard) :
    ((KdfSalt.take v).map set).toOption.map onCard=if v.length=8 then some k.onCard else none:=by
  by_cases h : v.length=8 <;> simp [KdfSalt.take,h,Except.map,Except.toOption,hset]

theorem map_initial_onCard {before : KdfInitial} {d : KdfDo}
    (hset : ∀ initial, initial.supplied=some v→(set initial).onCard=d) :
    ((before.take v).map set).toOption.map onCard=if v.length=32 ∨ v.length=64 then some d else none:=by
  cases h : before.take v with
  | error e=>
    have hlen : ¬(v.length=32 ∨ v.length=64):=fun hlen=>by
      obtain ⟨initial,hok⟩:=(@initial_ok_iff before v).mpr hlen
      cases h.symm.trans hok
    simp [Except.map,Except.toOption,hlen]
  | ok initial=>
    simp [Except.map,Except.toOption,take_initial_sized h,hset initial (KdfInitial.supplied_take h)]

theorem kdfTag_eq (item : Item) (k : KdfDoT) :
    kdfTag item.1 item.2 k.onCard=(takeItem item k).toOption.map onCard:=by
  obtain ⟨tag,v⟩:=item
  by_cases h81 : tag=0x81
  · subst h81
    rcases v with _ | ⟨b,_ | ⟨b',v⟩⟩
    · rfl
    · by_cases hb : b=kdfAlgoNone ∨ b=kdfAlgoPbkdf2
      · have hb' : ¬(b≠kdfAlgoNone ∧ b≠kdfAlgoPbkdf2):=by tauto
        simp [kdfTag,takeItem,hb,hb',Except.toOption,onCard]
      · have hb' : b≠kdfAlgoNone ∧ b≠kdfAlgoPbkdf2:=by tauto
        simp [kdfTag,takeItem,hb',Except.toOption]
    · simp [kdfTag,takeItem,Except.toOption]
  by_cases h82 : tag=0x82
  · subst h82
    rcases v with _ | ⟨b,_ | ⟨b',v⟩⟩
    · rfl
    · by_cases hb : validHash b=true
      · have hb' : b=kdfHashNone ∨ b=kdfHashSha256 ∨ b=kdfHashSha512:=by simpa [validHash,or_assoc] using hb
        simp [kdfTag,takeItem,hb,hb',Except.toOption,onCard]
      · have hb' : ¬(b=kdfHashNone ∨ b=kdfHashSha256 ∨ b=kdfHashSha512):=by
          simpa [validHash,or_assoc] using hb
        simp [kdfTag,takeItem,hb,hb',Except.toOption]
    · simp [kdfTag,takeItem,Except.toOption]
  by_cases h83 : tag=0x83
  · subst h83
    by_cases hlen : v.length=4 <;> simp [kdfTag,takeItem,hlen,Except.toOption,onCard]
  by_cases hsalt : tag=0x84 ∨ tag=0x85 ∨ tag=0x86
  · rcases hsalt with rfl | rfl | rfl
    · exact (map_salt_onCard (fun salt=>{k with pw1Salt:=salt}) fun _=>rfl).symm
    · exact (map_salt_onCard (fun salt=>{k with rcSalt:=salt}) fun _=>rfl).symm
    · exact (map_salt_onCard (fun salt=>{k with pw3Salt:=salt}) fun _=>rfl).symm
  by_cases h87 : tag=0x87
  · subst h87
    refine (map_initial_onCard fun initial h=>?_).symm
    simp [onCard,h]
  by_cases h88 : tag=0x88
  · subst h88
    refine (map_initial_onCard fun initial h=>?_).symm
    simp [onCard,h]
  simp only [not_or] at hsalt
  simp [kdfTag,takeItem,h81,h82,h83,hsalt,h87,h88,Except.toOption]

theorem kdfTags_eq (fuel : ℕ) (bytes : Bytes) (k : KdfDoT) :
    kdfTags fuel bytes k.onCard=(readItems takeItem .badLength fuel bytes k).toOption.map onCard:=by
  induction fuel generalizing bytes k with
  | zero=>cases bytes <;> simp [kdfTags,readItems,Except.toOption]
  | succ fuel ih=>
    rcases bytes with _ | ⟨tag,_ | ⟨len,rest⟩⟩
    · rfl
    · rfl
    · by_cases hcut : rest.length < len.toNat
      · simp [kdfTags,readItems,hcut,Except.toOption]
      · have htag:=kdfTag_eq (tag,rest.take len.toNat) k
        simp only [kdfTags,readItems,if_neg hcut] at htag ⊢
        rw [htag]
        cases takeItem (tag,rest.take len.toNat) k with
        | error e=>rfl
        | ok k'=>exact ih _ k'

theorem kdfDoParse_eq (bytes : Bytes) : kdfDoParse bytes=(parse bytes).toOption.map onCard:=
  kdfTags_eq bytes.length bytes {}

end KdfDoT

end CdcBadge.OpenPgp
