import CdcBadge.AlgoAttrCodec
import CdcBadge.HeaderLists

/-!
# The BER-TLV codec

Data objects with tags of one or two bytes and lengths of one to three. A reader takes the
caller's position along, and leaves it where it stopped.
-/

namespace CdcBadge.BerTlv

open Tlv
open OpenPgp (u16)

/-- `tlv_status_t`, but for its success. The arguments are never null. -/
inductive TlvStatus
  | bufTooSmall | badLength | badTag
  deriving DecidableEq

def tlvTagSize (tag : UInt16) : ℕ:=if tag > 0xFF then 2 else 1

def tlvLenSize (valueLen : ℕ) : ℕ:=if valueLen < 0x80 then 1 else if valueLen ≤ 0xFF then 2 else 3

def tlvWriteTag (bufMax : ℕ) (tag : UInt16) : Except TlvStatus Bytes:=
  if bufMax < tlvTagSize tag then .error .bufTooSmall
  else .ok (if tlvTagSize tag=2 then [(tag >>> 8).toUInt8,tag.toUInt8] else [tag.toUInt8])

def tlvWriteLen (bufMax valueLen : ℕ) : Except TlvStatus Bytes:=
  if 0xFFFF < valueLen then .error .badLength
  else if bufMax < tlvLenSize valueLen then .error .bufTooSmall
  else .ok (if tlvLenSize valueLen=1 then [UInt8.ofNat valueLen]
    else if tlvLenSize valueLen=2 then [0x81,UInt8.ofNat valueLen]
    else [0x82,UInt8.ofNat (valueLen >>> 8),UInt8.ofNat valueLen])

/-- `tlv_build` -/
def tlvBuild (bufMax : ℕ) (tag : UInt16) (value : Bytes) : Except TlvStatus Bytes:=do
  let tagBytes ← tlvWriteTag bufMax tag
  let lenBytes ← tlvWriteLen (bufMax-tagBytes.length) value.length
  if 0 < value.length ∧ bufMax-(tagBytes.length+lenBytes.length) < value.length then .error .bufTooSmall
  else .ok (tagBytes++lenBytes++value)

/-- `tlv_t`. The value is an address in the buffer, where there is one. -/
structure TlvT where
  tag : UInt16
  length : ℕ
  value : Option ℕ
  totalSize : ℕ
  deriving DecidableEq

/-- `tlv_read_tag` -/
def tlvReadTag (buf : Bytes) (pos : ℕ) : Scan (Except TlvStatus UInt16 × ℕ):=
  if buf.length ≤ pos then pure (.error .bufTooSmall,pos)
  else do
    let b₀ ← byteAt buf pos
    if b₀ &&& 0x1F=0x1F then
      if buf.length ≤ pos+1 then pure (.error .bufTooSmall,pos)
      else do
        let b₁ ← byteAt buf (pos+1)
        if b₁ &&& 0x80≠0 then pure (.error .badTag,pos)
        else pure (.ok (u16 b₀ b₁),pos+2)
    else pure (.ok b₀.toUInt16,pos+1)

def readLengthBytes (buf : Bytes) : ℕ → ℕ → ℕ → Scan ℕ
  | 0, _, length=>pure length
  | n+1, p, length=>do
    let b ← byteAt buf p
    readLengthBytes buf n (p+1) (length <<< 8 ||| b.toNat)

/-- `tlv_read_len` -/
def tlvReadLen (buf : Bytes) (pos : ℕ) : Scan (Except TlvStatus ℕ × ℕ):=
  if buf.length ≤ pos then pure (.error .bufTooSmall,pos)
  else do
    let first ← byteAt buf pos
    if first < 0x80 then pure (.ok first.toNat,pos+1)
    else
      let n:=(first &&& 0x7F).toNat
      if n=0 ∨ 2 < n then pure (.error .badLength,pos)
      else if buf.length < pos+1+n then pure (.error .bufTooSmall,pos)
      else do
        let length ← readLengthBytes buf n (pos+1) 0
        pure (.ok length,pos+1+n)

/-- `tlv_parse`. The position is not put back on an error. -/
def tlvParse (buf : Bytes) (pos : ℕ) : Scan (Except TlvStatus TlvT × ℕ):=do
  match ← tlvReadTag buf pos with
  | (.error st,p)=>pure (.error st,p)
  | (.ok tag,p)=>
    match ← tlvReadLen buf p with
    | (.error st,p)=>pure (.error st,p)
    | (.ok length,p)=>
      if buf.length < p+length then pure (.error .bufTooSmall,p)
      else pure (.ok {tag,length,value:=if 0 < length then some p else none,totalSize:=p+length-pos},p+length)

def TlvT.bytes (buf : Bytes) (t : TlvT) : Scan Bytes:=
  match t.value with
  | none=>pure []
  | some p=>copyAt buf p t.length

/-- A tag of one byte does not ask for a second. A tag of two does, and ends with it. -/
def TagFormed (tag : UInt16) : Prop:=
  if tag > 0xFF then (tag >>> 8).toUInt8 &&& 0x1F=0x1F ∧ tag.toUInt8 &&& 0x80=0 else tag.toUInt8 &&& 0x1F≠0x1F

instance (tag : UInt16) : Decidable (TagFormed tag):=by
  unfold TagFormed
  infer_instance

def tagBytes (tag : UInt16) : Bytes:=if tag > 0xFF then [(tag >>> 8).toUInt8,tag.toUInt8] else [tag.toUInt8]

def lenBytes (n : ℕ) : Bytes:=
  if n < 0x80 then [UInt8.ofNat n]
  else if n ≤ 0xFF then [0x81,UInt8.ofNat n]
  else [0x82,UInt8.ofNat (n >>> 8),UInt8.ofNat n]

def element (tag : UInt16) (value : Bytes) : Bytes:=tagBytes tag++lenBytes value.length++value

variable {tag : UInt16} {value buf bs : Bytes} {p n : ℕ}

theorem tlvWriteTag_eq (bufMax : ℕ) (tag : UInt16) :
    tlvWriteTag bufMax tag=if bufMax < (tagBytes tag).length then .error .bufTooSmall else .ok (tagBytes tag):=by
  unfold tlvWriteTag tlvTagSize tagBytes
  by_cases htag : tag > 0xFF
  · simp [htag]
  · simp [htag]

theorem tlvWriteLen_eq (bufMax : ℕ) (hn : n ≤ 0xFFFF) :
    tlvWriteLen bufMax n=if bufMax < (lenBytes n).length then .error .bufTooSmall else .ok (lenBytes n):=by
  unfold tlvWriteLen tlvLenSize lenBytes
  rw [if_neg (by omega)]
  by_cases hshort : n < 0x80
  · simp [hshort]
  · by_cases hone : n ≤ 0xFF
    · simp [hshort,hone]
    · simp [hshort,hone]

theorem tlvBuild_eq (bufMax : ℕ) (hvalue : value.length ≤ 0xFFFF) :
    tlvBuild bufMax tag value =
      if bufMax < (element tag value).length then .error .bufTooSmall else .ok (element tag value):=by
  have hlength : (element tag value).length=(tagBytes tag).length+(lenBytes value.length).length+value.length:=by
    rw [element,List.length_append,List.length_append]
  unfold tlvBuild
  rw [tlvWriteTag_eq,hlength]
  by_cases htag : bufMax < (tagBytes tag).length
  · rw [if_pos htag,if_pos (by omega)]
    rfl
  · rw [if_neg htag]
    change (do
      let lenBytes ← tlvWriteLen (bufMax-(tagBytes tag).length) value.length
      if 0 < value.length ∧ bufMax-((tagBytes tag).length+lenBytes.length) < value.length then .error .bufTooSmall
      else .ok (tagBytes tag++lenBytes++value) : Except TlvStatus Bytes)=_
    rw [tlvWriteLen_eq _ hvalue]
    by_cases hlen : bufMax-(tagBytes tag).length < (lenBytes value.length).length
    · rw [if_pos hlen,if_pos (by omega)]
      rfl
    · rw [if_neg hlen]
      change (if 0 < value.length ∧ bufMax-((tagBytes tag).length+(lenBytes value.length).length) < value.length then _
        else _)=_
      by_cases hroom : 0 < value.length ∧ bufMax-((tagBytes tag).length+(lenBytes value.length).length) < value.length
      · rw [if_pos hroom,if_pos (by omega)]
      · rw [if_neg hroom,if_neg (by omega)]
        rfl

theorem tlvReadTag_rest (h : TagFormed tag) (hrest : Rest buf buf.length p (tagBytes tag++bs)) :
    tlvReadTag buf p=.value (.ok tag,p+(tagBytes tag).length) ∧
      Rest buf buf.length (p+(tagBytes tag).length) bs:=by
  unfold TagFormed at h
  unfold tagBytes at hrest ⊢
  unfold tlvReadTag
  by_cases htag : tag > 0xFF
  · rw [if_pos htag] at h hrest ⊢
    obtain ⟨hp,hhigh,hrest⟩:=hrest.cons
    obtain ⟨hp',hlow,hrest⟩:=hrest.cons
    refine ⟨?_,hrest⟩
    rw [if_neg (by omega),hhigh,Scan.value_bind,if_pos h.1,if_neg (by omega),hlow,Scan.value_bind,
      if_neg (by simpa using h.2),OpenPgp.AlgoAttrT.u16_be16Of]
    rfl
  · rw [if_neg htag] at h hrest ⊢
    obtain ⟨hp,hbyte,hrest⟩:=hrest.cons
    refine ⟨?_,hrest⟩
    have hback : tag.toUInt8.toUInt16=tag:=by
      apply UInt16.toNat_inj.mp
      have hle : tag.toNat ≤ 255:=by
        rw [gt_iff_lt,UInt16.lt_iff_toNat_lt] at htag
        exact Nat.not_lt.mp htag
      simp
      omega
    rw [if_neg (by omega),hbyte,Scan.value_bind,if_neg h,hback]
    rfl

theorem tlvReadLen_rest (hn : n ≤ 0xFFFF) (hrest : Rest buf buf.length p (lenBytes n++bs)) :
    tlvReadLen buf p=.value (.ok n,p+(lenBytes n).length) ∧
      Rest buf buf.length (p+(lenBytes n).length) bs:=by
  have hbyte : ∀ m, m < 256→(UInt8.ofNat m).toNat=m:=fun m hm=>UInt8.toNat_ofNat_of_lt' hm
  unfold lenBytes at hrest ⊢
  unfold tlvReadLen
  by_cases hshort : n < 0x80
  · rw [if_pos hshort] at hrest ⊢
    obtain ⟨hp,hfirst,hrest⟩:=hrest.cons
    refine ⟨?_,hrest⟩
    have hlt : UInt8.ofNat n < 0x80:=by
      rw [UInt8.lt_iff_toNat_lt,hbyte n (by omega)]
      exact hshort
    rw [if_neg (by omega),hfirst,Scan.value_bind,if_pos hlt,hbyte n (by omega)]
    rfl
  · rw [if_neg hshort] at hrest ⊢
    by_cases hone : n ≤ 0xFF
    · rw [if_pos hone] at hrest ⊢
      obtain ⟨hp,hfirst,hrest⟩:=hrest.cons
      obtain ⟨hp',hlow,hrest⟩:=hrest.cons
      refine ⟨?_,hrest⟩
      have hcount : ((0x81 : UInt8) &&& 0x7F).toNat=1:=rfl
      rw [if_neg (by omega),hfirst,Scan.value_bind,if_neg (by decide),hcount]
      dsimp only
      rw [if_neg (by decide),if_neg (by omega),readLengthBytes,hlow,Scan.value_bind,readLengthBytes,
        hbyte n (by omega)]
      simp
    · rw [if_neg hone] at hrest ⊢
      obtain ⟨hp,hfirst,hrest⟩:=hrest.cons
      obtain ⟨hp',hhigh,hrest⟩:=hrest.cons
      obtain ⟨hp'',hlow,hrest⟩:=hrest.cons
      refine ⟨?_,hrest⟩
      have hcount : ((0x82 : UInt8) &&& 0x7F).toNat=2:=rfl
      have hdiv : n >>> 8=n/256:=Nat.shiftRight_eq_div_pow n 8
      have hmod : (UInt8.ofNat n).toNat=n % 256:=UInt8.toNat_ofNat
      have hjoin : (n/256) <<< 8 ||| n % 256=n:=by
        rw [← Nat.shiftLeft_add_eq_or_of_lt (Nat.mod_lt n (by decide : 0 < 2^8)),Nat.shiftLeft_eq]
        omega
      rw [if_neg (by omega),hfirst,Scan.value_bind,if_neg (by decide),hcount]
      dsimp only
      rw [if_neg (by decide),if_neg (by omega),readLengthBytes,hhigh,Scan.value_bind,readLengthBytes,hlow,
        Scan.value_bind,readLengthBytes,hmod,hdiv,hbyte (n/256) (by omega)]
      simp [hjoin]

theorem tlvParse_element (htag : TagFormed tag) (hvalue : value.length ≤ 0xFFFF) (before behind : Bytes) :
    ∃ t, tlvParse (before++element tag value++behind) before.length =
        .value (.ok t,before.length+(element tag value).length) ∧
      t.tag=tag ∧ t.bytes (before++element tag value++behind)=.value value ∧
      t.totalSize=(element tag value).length:=by
  generalize hbuf : before++element tag value++behind=buf
  have hrest : Rest buf buf.length before.length (tagBytes tag++(lenBytes value.length++(value++behind))):=by
    have hwhole : Rest buf buf.length 0 (before++(tagBytes tag++(lenBytes value.length++(value++behind)))):=by
      have hsame : before++(tagBytes tag++(lenBytes value.length++(value++behind)))=buf:=by
        rw [← hbuf]
        simp only [element,List.append_assoc]
      rw [hsame]
      exact Rest.whole buf
    have hbehind:=hwhole.copied.2
    rwa [Nat.zero_add] at hbehind
  have hlength : (element tag value).length=(tagBytes tag).length+(lenBytes value.length).length+value.length:=by
    rw [element,List.length_append,List.length_append]
  obtain ⟨hreadTag,hrest⟩:=tlvReadTag_rest htag hrest
  obtain ⟨hreadLen,hrest⟩:=tlvReadLen_rest hvalue hrest
  obtain ⟨hcopy,hend⟩:=hrest.copied
  have hle:=hend.le
  unfold tlvParse
  rw [hreadTag,Scan.value_bind]
  dsimp only
  rw [hreadLen,Scan.value_bind]
  dsimp only
  rw [if_neg (by omega)]
  let start:=before.length+(tagBytes tag).length+(lenBytes value.length).length
  refine ⟨⟨tag,value.length,if 0 < value.length then some start else none,start+value.length-before.length⟩,?_,rfl,
    ?_,?_⟩
  · rw [hlength,← Nat.add_assoc,← Nat.add_assoc]
    rfl
  · unfold TlvT.bytes
    dsimp only
    by_cases hpos : 0 < value.length
    · rw [if_pos hpos]
      exact hcopy
    · rw [if_neg hpos]
      rw [List.length_eq_zero_iff.mp (by omega : value.length=0)]
      rfl
  · dsimp only [start]
    omega

/-- There is a tag at the position, of one byte, or of two of which the second is the last. -/
def TagAt (buf : Bytes) (pos : ℕ) : Prop:=
  ∃ b₀, buf[pos]? = some b₀ ∧ (b₀ &&& 0x1F=0x1F→∃ b₁, buf[pos+1]? = some b₁ ∧ b₁ &&& 0x80=0)

variable {pos : ℕ}

theorem byteAt_lt (h : p < buf.length) : ∃ b, buf[p]? = some b ∧ byteAt buf p=.value b:=by
  have hget : buf[p]? = some buf[p]:=List.getElem?_eq_getElem h
  refine ⟨buf[p],hget,?_⟩
  unfold byteAt
  rw [hget]

theorem tlvReadTag_cases (buf : Bytes) (pos : ℕ) :
    (∃ st, tlvReadTag buf pos=.value (.error st,pos) ∧ ¬TagAt buf pos) ∨
      ∃ tag p, tlvReadTag buf pos=.value (.ok tag,p) ∧ pos < p ∧ p ≤ buf.length ∧ TagAt buf pos:=by
  unfold tlvReadTag
  by_cases hend : buf.length ≤ pos
  · left
    rw [if_pos hend]
    refine ⟨_,rfl,?_⟩
    rintro ⟨b₀,hget,-⟩
    rw [List.getElem?_eq_none hend] at hget
    cases hget
  · obtain ⟨b₀,hget₀,hbyte₀⟩:=byteAt_lt (Nat.lt_of_not_le hend)
    have hfirst : ∀ b, buf[pos]? = some b→b=b₀:=fun b hb=>Option.some.inj (hb.symm.trans hget₀)
    rw [if_neg hend,hbyte₀,Scan.value_bind]
    by_cases hlong : b₀ &&& 0x1F=0x1F
    · rw [if_pos hlong]
      by_cases hend' : buf.length ≤ pos+1
      · left
        rw [if_pos hend']
        refine ⟨_,rfl,?_⟩
        rintro ⟨b,hb,hnext⟩
        obtain ⟨b₁,hget₁,-⟩:=hnext (hfirst b hb ▸ hlong)
        rw [List.getElem?_eq_none hend'] at hget₁
        cases hget₁
      · obtain ⟨b₁,hget₁,hbyte₁⟩:=byteAt_lt (Nat.lt_of_not_le hend')
        rw [if_neg hend',hbyte₁,Scan.value_bind]
        by_cases hmore : b₁ &&& 0x80≠0
        · left
          rw [if_pos hmore]
          refine ⟨_,rfl,?_⟩
          rintro ⟨b,hb,hnext⟩
          obtain ⟨b',hb',hlast⟩:=hnext (hfirst b hb ▸ hlong)
          exact hmore (Option.some.inj (hb'.symm.trans hget₁) ▸ hlast)
        · right
          rw [if_neg hmore]
          exact ⟨_,_,rfl,by omega,by omega,b₀,hget₀,fun _=>⟨b₁,hget₁,not_not.mp hmore⟩⟩
    · right
      rw [if_neg hlong]
      exact ⟨_,_,rfl,by omega,by omega,b₀,hget₀,fun h=>absurd h hlong⟩

theorem readLengthBytes_value (h : p+n ≤ buf.length) (length : ℕ) : ∃ m, readLengthBytes buf n p length=.value m:=by
  induction n generalizing p length with
  | zero=>exact ⟨length,rfl⟩
  | succ n ih=>
    obtain ⟨b,-,hbyte⟩:=byteAt_lt (by omega : p < buf.length)
    unfold readLengthBytes
    rw [hbyte,Scan.value_bind]
    exact ih (by omega) _

theorem tlvReadLen_cases (buf : Bytes) (pos : ℕ) : (∃ st, tlvReadLen buf pos=.value (.error st,pos)) ∨
    ∃ n p, tlvReadLen buf pos=.value (.ok n,p) ∧ pos < p ∧ p ≤ buf.length:=by
  unfold tlvReadLen
  by_cases hend : buf.length ≤ pos
  · rw [if_pos hend]
    exact .inl ⟨_,rfl⟩
  · obtain ⟨first,-,hbyte⟩:=byteAt_lt (Nat.lt_of_not_le hend)
    rw [if_neg hend,hbyte,Scan.value_bind]
    by_cases hshort : first < 0x80
    · rw [if_pos hshort]
      exact .inr ⟨_,_,rfl,by omega,by omega⟩
    · rw [if_neg hshort]
      dsimp only
      by_cases hform : (first &&& 0x7F).toNat=0 ∨ 2 < (first &&& 0x7F).toNat
      · rw [if_pos hform]
        exact .inl ⟨_,rfl⟩
      · rw [if_neg hform]
        by_cases hroom : buf.length < pos+1+(first &&& 0x7F).toNat
        · rw [if_pos hroom]
          exact .inl ⟨_,rfl⟩
        · obtain ⟨m,hread⟩:=readLengthBytes_value (Nat.le_of_not_lt hroom) 0
          rw [if_neg hroom,hread]
          exact .inr ⟨_,_,rfl,by omega,by omega⟩

/-- An element is stepped over with its value in the buffer, or the position is behind the tag if there is one. -/
theorem tlvParse_cases (buf : Bytes) (pos : ℕ) :
    (∃ t p, tlvParse buf pos=.value (.ok t,p) ∧ pos+t.totalSize=p ∧ ∃ v, t.bytes buf=.value v) ∨
      ∃ st p, tlvParse buf pos=.value (.error st,p) ∧ (p=pos ↔ ¬TagAt buf pos):=by
  unfold tlvParse
  obtain ⟨st,htag,hnone⟩ | ⟨tag,p,htag,hpos,hp,hat⟩:=tlvReadTag_cases buf pos
  · rw [htag]
    exact .inr ⟨st,pos,rfl,iff_of_true rfl hnone⟩
  · rw [htag,Scan.value_bind]
    dsimp only
    obtain ⟨st,hlen⟩ | ⟨n,q,hlen,hq,hq'⟩:=tlvReadLen_cases buf p
    · rw [hlen]
      exact .inr ⟨st,p,rfl,iff_of_false (by omega) (not_not_intro hat)⟩
    · rw [hlen,Scan.value_bind]
      dsimp only
      by_cases hroom : buf.length < q+n
      · rw [if_pos hroom]
        exact .inr ⟨_,q,rfl,iff_of_false (by omega) (not_not_intro hat)⟩
      · rw [if_neg hroom]
        refine .inl ⟨_,_,rfl,by dsimp only; omega,?_⟩
        unfold TlvT.bytes copyAt
        dsimp only
        by_cases hn : 0 < n
        · rw [if_pos hn]
          dsimp only
          rw [if_pos (Nat.le_of_not_lt hroom)]
          exact ⟨_,rfl⟩
        · rw [if_neg hn]
          exact ⟨_,rfl⟩

/-- What is built is parsed again, wherever it stands. A parser reads inside its buffer, and an error leaves the position
at the start of the element just where there is no tag. -/
theorem ber_tlv_codec (buf : Bytes) (pos : ℕ) :
    (∀ tag value, TagFormed tag→value.length ≤ 0xFFFF →
      ∃ out, (∀ bufMax, out.length ≤ bufMax→tlvBuild bufMax tag value=.ok out) ∧
        ∀ before behind, ∃ t, tlvParse (before++out++behind) before.length=.value (.ok t,before.length+out.length) ∧
          t.tag=tag ∧ t.bytes (before++out++behind)=.value value ∧ t.totalSize=out.length) ∧
    (∃ r p, tlvParse buf pos=.value (r,p)) ∧
      (∀ t p, tlvParse buf pos=.value (.ok t,p)→∃ v, t.bytes buf=.value v) ∧
      ∀ st p, tlvParse buf pos=.value (.error st,p)→(p=pos ↔ ¬TagAt buf pos):=by
  constructor
  · intro tag value htag hvalue
    refine ⟨element tag value,fun bufMax hroom=>?_,tlvParse_element htag hvalue⟩
    rw [tlvBuild_eq bufMax hvalue,if_neg (Nat.not_lt.mpr hroom)]
  · obtain ⟨t,p,hparse,-,hbytes⟩ | ⟨st,p,hparse,hp⟩:=tlvParse_cases buf pos
    · rw [hparse]
      refine ⟨⟨_,_,rfl⟩,fun t' p' h=>?_,fun st p' h=>?_⟩
      · cases h
        exact hbytes
      · cases h
    · rw [hparse]
      refine ⟨⟨_,_,rfl⟩,fun t p' h=>?_,fun st' p' h=>?_⟩
      · cases h
      · cases h
        exact hp

/-- A length of three bytes is refused behind the tag. -/
theorem refused_behind_tag : tlvParse [0x80,0x83] 0=.value (.error .badLength,1):=rfl

end CdcBadge.BerTlv
