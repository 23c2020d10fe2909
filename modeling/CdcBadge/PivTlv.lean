import CdcBadge.HeaderLists
import CdcBadge.PivApplet

/-!
# TLV elements of the PIV applet

The reader and the writer of `piv_tlv.cpp` on a buffer with addresses. The reader finds what
the search in a byte string finds and stays in the buffer. The writer has no length for more
than 65535 bytes, and writes a wrong one.
-/

namespace CdcBadge.Piv

open Tlv

def readTagAt (buf : Bytes) (p : ℕ) : Scan (ℕ × ℕ):=do
  need (p < buf.length)
  let first ← byteAt buf p
  if first &&& 0x1F=0x1F then
    need (p+1 < buf.length)
    let second ← byteAt buf (p+1)
    pure (first.toNat*256+second.toNat,p+2)
  else pure (first.toNat,p+1)

def readLenAt (buf : Bytes) (p : ℕ) : Scan (ℕ × ℕ):=do
  need (p < buf.length)
  let first ← byteAt buf p
  if first < 0x80 then pure (first.toNat,p+1)
  else do
    let nbytes:=(first &&& 0x7F).toNat
    need (¬(nbytes=0 ∨ 3 < nbytes))
    need (p+1+nbytes ≤ buf.length)
    let bytes ← copyAt buf (p+1) nbytes
    pure (bytes.foldl (fun len b=>len*256+b.toNat) 0,p+1+nbytes)

/-- The loop of `tlvFind`: the address and the length of the value. An element has two bytes or more. -/
def tlvFindAt (buf : Bytes) (tag : ℕ) : ℕ → ℕ → Scan (ℕ × ℕ)
  | 0, _=>.giveUp
  | fuel+1, p=>do
    let (t,p) ← readTagAt buf p
    let (len,p) ← readLenAt buf p
    need (p+len ≤ buf.length)
    if t=tag then pure (p,len) else tlvFindAt buf tag fuel (p+len)

/-- The buffer of a writer: what stands before the cursor, and the rest. Buffers are smaller than 2^31 bytes, so that sums
of sizes do not wrap. -/
structure Cursor where
  written : Bytes
  rest : Bytes

/-- The bytes go to the rest of the buffer, and the cursor stays. -/
def Cursor.put (c : Cursor) (bs : Bytes) : Cursor:={c with rest:=bs++c.rest.drop bs.length}

/-- `tlvWrite` -/
def Cursor.tlvWrite (c : Cursor) (tag : ℕ) (value : Bytes) : Bool × Cursor:=
  let tb:=tlvWriteTag tag
  if c.rest.length < tb.length then (false,c)
  else
    let lb:=tlvWriteLen value.length
    if c.rest.length-tb.length < lb.length then (false,c.put tb)
    else if c.rest.length < tb.length+lb.length+value.length then (false,c.put (tb++lb))
    else (true,⟨c.written++(tb++lb++value),c.rest.drop (tb++lb++value).length⟩)

def Cursor.tlvWrites (c : Cursor) : List (ℕ × Bytes)→Bool × Cursor
  | []=>(true,c)
  | item::items=>
    match c.tlvWrite item.1 item.2 with
    | (false,c)=>(false,c)
    | (true,c)=>c.tlvWrites items

def element (tag : ℕ) (value : Bytes) : Bytes:=tlvWriteTag tag++tlvWriteLen value.length++value

/-- A tag of one byte that does not ask for a second, or of two of which the first does. -/
def TagFormed (tag : ℕ) : Prop:=
  if tag ≤ 0xFF then UInt8.ofNat tag &&& 0x1F≠0x1F else tag ≤ 0xFFFF ∧ UInt8.ofNat (tag/256) &&& 0x1F=0x1F

section Reading

variable {buf bs value : Bytes} {tag fuel p : ℕ}

/-- An address and what is left of the buffer from there, behind a number that was read. -/
def Behind (buf : Bytes) (read : ℕ × ℕ) (parsed : ℕ × Bytes) : Prop:=
  read.1=parsed.1 ∧ Rest buf buf.length read.2 parsed.2

theorem agrees_readTag (h : Rest buf buf.length p bs) : Agrees (Behind buf) (readTagAt buf p) (readTag bs):=by
  unfold readTagAt
  cases bs with
  | nil=>rw [need_false h.nil]; rfl
  | cons first bs=>
    obtain ⟨hlt,hbyte,hrest⟩:=h.cons
    rw [need_true hlt,Scan.value_bind,hbyte,Scan.value_bind]
    unfold readTag
    dsimp only
    by_cases hlong : first &&& 0x1F=0x1F
    · rw [if_pos hlong,if_pos hlong]
      cases bs with
      | nil=>rw [need_false hrest.nil]; rfl
      | cons second bs=>
        obtain ⟨hlt',hbyte',hrest'⟩:=hrest.cons
        rw [need_true hlt',Scan.value_bind,hbyte']
        exact Agrees.value ⟨rfl,hrest'⟩
    · rw [if_neg hlong,if_neg hlong]
      exact Agrees.value ⟨rfl,hrest⟩

theorem agrees_readLen (h : Rest buf buf.length p bs) : Agrees (Behind buf) (readLenAt buf p) (readLen bs):=by
  unfold readLenAt
  cases bs with
  | nil=>rw [need_false h.nil]; rfl
  | cons first bs=>
    obtain ⟨hlt,hbyte,hrest⟩:=h.cons
    rw [need_true hlt,Scan.value_bind,hbyte,Scan.value_bind,readLen]
    by_cases hshort : first < 0x80
    · rw [if_pos hshort,if_pos hshort]
      exact Agrees.value ⟨rfl,hrest⟩
    rw [if_neg hshort,if_neg hshort]
    dsimp only
    have hlength:=hrest.length
    have hle:=hrest.le
    by_cases hform : (first &&& 0x7F).toNat=0 ∨ 3 < (first &&& 0x7F).toNat
    · rw [need_false (not_not_intro hform),if_pos (hform.imp_right Or.inl)]
      rfl
    by_cases hroom : bs.length < (first &&& 0x7F).toNat
    · rw [need_true hform,Scan.value_bind,need_false (by omega),if_pos (Or.inr (Or.inr hroom))]
      rfl
    · obtain ⟨-,hat,hbehind⟩:=hrest.split (Nat.le_of_not_lt hroom)
      rw [need_true hform,Scan.value_bind,need_true (by omega),Scan.value_bind,hat.copied_all,
        if_neg fun h=>hform (h.imp_right fun h=>h.resolve_right hroom)]
      exact Agrees.value ⟨rfl,hbehind⟩

/-- The value stands in the buffer, right behind a tag and a length. -/
structure Found (buf : Bytes) (tag : ℕ) (place : ℕ × ℕ) (value : Bytes) : Prop where
  at_place : At buf place value
  headed : ∃ start rest, start < place.1 ∧ readTag (buf.drop start)=some (tag,rest) ∧
    readLen rest=some (place.2,buf.drop place.1)

theorem drop_of_rest (h : Rest buf buf.length p bs) : buf.drop p=bs:=by
  have hwindow:=h.window
  rwa [Tlv.window,List.take_length] at hwindow

theorem readTag_shorter {t : ℕ} {rest : Bytes} (h : readTag bs=some (t,rest)) : rest.length < bs.length:=by
  unfold readTag at h
  split at h
  · cases h
  · split at h
    · split at h
      · cases h
      · cases h
        simp only [List.length_cons]
        omega
    · cases h
      simp

theorem readLen_shorter {n : ℕ} {rest : Bytes} (h : readLen bs=some (n,rest)) : rest.length < bs.length:=by
  unfold readLen at h
  split at h
  · cases h
  · dsimp only at h
    split at h
    · cases h
      simp
    · split at h
      · cases h
      · cases h
        simp only [List.length_drop,List.length_cons]
        omega

theorem agrees_tlvScan (h : Rest buf buf.length p bs) : Agrees (Found buf tag) (tlvFindAt buf tag fuel p) (tlvScan fuel bs tag):=by
  induction fuel generalizing p bs with
  | zero=>rfl
  | succ fuel ih=>
    unfold tlvFindAt tlvScan
    have htag:=agrees_readTag h
    cases htagged : readTag bs with
    | none=>
      rw [htagged] at htag
      rw [show readTagAt buf p=.giveUp from htag]
      rfl
    | some parsed=>
      obtain ⟨t,rest⟩:=parsed
      rw [htagged] at htag
      obtain ⟨⟨t',q⟩,hread,ht,hrest⟩:=htag
      obtain rfl : t'=t:=ht
      change Rest buf buf.length q rest at hrest
      rw [hread,Scan.value_bind]
      dsimp only
      have hlen:=agrees_readLen hrest
      cases hsized : readLen rest with
      | none=>
        rw [hsized] at hlen
        rw [show readLenAt buf q=.giveUp from hlen]
        rfl
      | some parsed=>
        obtain ⟨n,rest'⟩:=parsed
        rw [hsized] at hlen
        obtain ⟨⟨n',q'⟩,hread',hn,hrest'⟩:=hlen
        obtain rfl : n'=n:=hn
        change Rest buf buf.length q' rest' at hrest'
        rw [hread',Scan.value_bind]
        dsimp only
        have hlength:=hrest'.length
        have hle:=hrest'.le
        by_cases hroom : rest'.length < n'
        · rw [need_false (by omega),if_pos hroom]
          rfl
        · obtain ⟨-,hat,hbehind⟩:=hrest'.split (Nat.le_of_not_lt hroom)
          rw [need_true (by omega),Scan.value_bind,if_neg hroom]
          split
          · rename_i heq
            subst heq
            have hstart : p < q':=by
              have hshorter:=readTag_shorter htagged
              have hshorter':=readLen_shorter hsized
              have:=h.length
              have:=h.le
              omega
            refine Agrees.value ⟨hat,p,rest,hstart,?_,?_⟩
            · rw [drop_of_rest h]
              exact htagged
            · rw [drop_of_rest hrest']
              exact hsized
          · exact ih hbehind

/-- The loop ends with the buffer. -/
theorem tlvScan_enough (h : bs.length ≤ fuel) : tlvScan fuel bs tag=tlvScan bs.length bs tag:=by
  suffices hsame : ∀ fuel fuel' (bs : Bytes), bs.length ≤ fuel→bs.length ≤ fuel'→tlvScan fuel bs tag=tlvScan fuel' bs tag
    from hsame _ _ bs h le_rfl
  intro fuel
  induction fuel with
  | zero=>
    intro fuel' bs hle _
    obtain rfl:=List.length_eq_zero_iff.mp (Nat.le_zero.mp hle)
    cases fuel' <;> rfl
  | succ fuel ih=>
    intro fuel' bs hle hle'
    cases fuel' with
    | zero=>
      obtain rfl:=List.length_eq_zero_iff.mp (Nat.le_zero.mp hle')
      rfl
    | succ fuel'=>
      unfold tlvScan
      cases htagged : readTag bs with
      | none=>rfl
      | some parsed=>
        dsimp only
        cases hsized : readLen parsed.2 with
        | none=>rfl
        | some parsed'=>
          have hshorter:=readTag_shorter htagged
          have hshorter':=readLen_shorter hsized
          have hdrop : (parsed'.2.drop parsed'.1).length ≤ parsed'.2.length:=by simp
          dsimp only
          rw [ih fuel' _ (by omega) (by omega)]

end Reading

section Writing

variable {tag fuel n : ℕ} {value rest : Bytes} {c : Cursor} {items : List (ℕ × Bytes)}

theorem readTag_tlvWriteTag (h : TagFormed tag) (rest : Bytes) : readTag (tlvWriteTag tag++rest)=some (tag,rest):=by
  unfold TagFormed at h
  unfold tlvWriteTag readTag
  split at h
  · rename_i hshort
    rw [if_pos hshort]
    simp only [List.singleton_append]
    rw [if_neg h,UInt8.toNat_ofNat_of_lt' (by simpa using Nat.lt_succ_of_le hshort)]
  · rename_i hlong
    rw [if_neg hlong]
    simp only [List.cons_append,List.nil_append]
    rw [if_pos h.2,UInt8.toNat_ofNat_of_lt' (by have hle:=h.1; show tag/256 < 256; omega),UInt8.toNat_ofNat']
    congr 2
    omega

theorem readLen_tlvWriteLen (h : n ≤ 0xFFFF) (rest : Bytes) : readLen (tlvWriteLen n++rest)=some (n,rest):=by
  have hbyte : ∀ m, m < 256→(UInt8.ofNat m).toNat=m:=fun m hm=>UInt8.toNat_ofNat_of_lt' hm
  unfold tlvWriteLen readLen
  by_cases hshort : n < 0x80
  · have hlt : UInt8.ofNat n < 0x80:=by
      rw [UInt8.lt_iff_toNat_lt,hbyte n (by omega)]
      exact hshort
    rw [if_pos hshort]
    simp only [List.singleton_append]
    rw [if_pos hlt,hbyte n (by omega)]
  · rw [if_neg hshort]
    by_cases hone : n ≤ 0xFF
    · have hcount : ((0x81 : UInt8) &&& 0x7F).toNat=1:=rfl
      rw [if_pos hone]
      simp only [List.cons_append,List.nil_append]
      rw [if_neg (by decide),hcount,if_neg (by simp)]
      simp [hbyte n (by omega)]
    · have hcount : ((0x82 : UInt8) &&& 0x7F).toNat=2:=rfl
      rw [if_neg hone]
      simp only [List.cons_append,List.nil_append]
      rw [if_neg (by decide),hcount,if_neg (by simp)]
      simp [hbyte (n/256) (by omega)]
      omega

/-- Of elements one behind the other the search finds the first with the tag. -/
theorem tlvScan_elements (hitems : ∀ item∈items, TagFormed item.1 ∧ item.2.length ≤ 0xFFFF) (hfuel : items.length ≤ fuel) :
    tlvScan fuel (items.flatMap fun item=>element item.1 item.2) tag =
      (items.find? fun item=>item.1=tag).map Prod.snd:=by
  induction items generalizing fuel with
  | nil=>
    cases fuel <;> rfl
  | cons item items ih=>
    obtain ⟨fuel,rfl⟩ : ∃ k, fuel=k+1:=⟨fuel-1,by simp only [List.length_cons] at hfuel; omega⟩
    obtain ⟨htag,hvalue⟩:=hitems item List.mem_cons_self
    rw [List.flatMap_cons,element,List.append_assoc,List.append_assoc,tlvScan,readTag_tlvWriteTag htag]
    dsimp only
    rw [readLen_tlvWriteLen hvalue]
    dsimp only
    rw [if_neg (by simp),List.take_left,List.drop_left]
    by_cases hfound : item.1=tag
    · rw [if_pos hfound,List.find?_cons_of_pos (by simpa using hfound)]
      rfl
    · rw [if_neg hfound,List.find?_cons_of_neg (by simpa using hfound)]
      exact ih (fun item h=>hitems item (List.mem_cons_of_mem _ h)) (by simpa using hfuel)

theorem element_length : (element tag value).length =
    (tlvWriteTag tag).length+(tlvWriteLen value.length).length+value.length:=by
  rw [element,List.length_append,List.length_append]

/-- An element is written where it fits; else the cursor stays. -/
theorem tlvWrite_spec (c : Cursor) (tag : ℕ) (value : Bytes) :
    if (element tag value).length ≤ c.rest.length then
      c.tlvWrite tag value=(true,⟨c.written++element tag value,c.rest.drop (element tag value).length⟩)
    else (c.tlvWrite tag value).1=false ∧ (c.tlvWrite tag value).2.written=c.written:=by
  have hlength : (element tag value).length=_:=element_length
  unfold Cursor.tlvWrite
  dsimp only
  by_cases htag : c.rest.length < (tlvWriteTag tag).length
  · rw [if_neg (by omega),if_pos htag]
    exact ⟨rfl,rfl⟩
  rw [if_neg htag]
  by_cases hlen : c.rest.length-(tlvWriteTag tag).length < (tlvWriteLen value.length).length
  · rw [if_neg (by omega),if_pos hlen]
    exact ⟨rfl,rfl⟩
  rw [if_neg hlen]
  by_cases hroom : c.rest.length < (tlvWriteTag tag).length+(tlvWriteLen value.length).length+value.length
  · rw [if_neg (by omega),if_pos hroom]
    exact ⟨rfl,rfl⟩
  · rw [if_pos (by omega),if_neg hroom]
    rfl

theorem tlvWrites_fit (hroom : (items.flatMap fun item=>element item.1 item.2).length ≤ c.rest.length) :
    (c.tlvWrites items).1=true ∧
      (c.tlvWrites items).2.written=c.written++items.flatMap fun item=>element item.1 item.2:=by
  induction items generalizing c with
  | nil=>exact ⟨rfl,by simp [Cursor.tlvWrites]⟩
  | cons item items ih=>
    rw [List.flatMap_cons,List.length_append] at hroom
    have hwrite:=tlvWrite_spec c item.1 item.2
    rw [if_pos (by omega)] at hwrite
    rw [Cursor.tlvWrites,hwrite]
    have hnext:=ih (c:=⟨c.written++element item.1 item.2,c.rest.drop (element item.1 item.2).length⟩)
      (by simp only [List.length_drop]; omega)
    rw [List.append_assoc] at hnext
    exact hnext

/-- A write for which there is no room, or no length, fails and leaves the cursor. -/
def FailsClosed (c : Cursor) (tag : ℕ) (value : Bytes) : Prop:=
  c.rest.length < (element tag value).length ∨ 0xFFFF < value.length →
    (c.tlvWrite tag value).1=false ∧ (c.tlvWrite tag value).2.written=c.written

/-- Elements that are written one behind the other are found again, a search ends, reads inside its buffer and succeeds
on an element inside it only, and a write fails as it should exactly where its value has a length or no room. -/
theorem piv_tlv_exact (c : Cursor) (tag : ℕ) (value buf : Bytes) :
    (∀ items : List (ℕ × Bytes), (∀ item∈items, TagFormed item.1 ∧ item.2.length ≤ 0xFFFF) → c.written=[] →
      (items.flatMap fun item=>element item.1 item.2).length ≤ c.rest.length→(c.tlvWrites items).1=true ∧
        ∀ fuel, items.length ≤ fuel → Agrees (Found (c.tlvWrites items).2.written tag)
          (tlvFindAt (c.tlvWrites items).2.written tag fuel 0) ((items.find? fun item=>item.1=tag).map Prod.snd)) ∧
    (∀ fuel, buf.length ≤ fuel→tlvFindAt buf tag fuel 0=.giveUp ∧ tlvFind buf tag=none ∨
      ∃ place v, tlvFindAt buf tag fuel 0=.value place ∧ tlvFind buf tag=some v ∧ Found buf tag place v) ∧
    (FailsClosed c tag value ↔ value.length ≤ 0xFFFF ∨ c.rest.length < (element tag value).length):=by
  refine ⟨fun items hitems hempty hroom=>?_,fun fuel hfuel=>?_,?_⟩
  · obtain ⟨hok,hwritten⟩:=tlvWrites_fit (c:=c) hroom
    refine ⟨hok,fun fuel hfuel=>?_⟩
    rw [hempty,List.nil_append] at hwritten
    rw [hwritten,← tlvScan_elements hitems hfuel]
    exact agrees_tlvScan (Rest.whole _)
  · have hagrees : Agrees (Found buf tag) (tlvFindAt buf tag fuel 0) (tlvScan fuel buf tag):=agrees_tlvScan (Rest.whole buf)
    rw [tlvScan_enough hfuel] at hagrees
    unfold tlvFind
    cases hfind : tlvScan buf.length buf tag with
    | none=>
      rw [hfind] at hagrees
      exact Or.inl ⟨hagrees,rfl⟩
    | some v=>
      rw [hfind] at hagrees
      obtain ⟨place,hplace,hfound⟩:=hagrees
      exact Or.inr ⟨place,v,hplace,rfl,hfound⟩
  · have hwrite:=tlvWrite_spec c tag value
    unfold FailsClosed
    by_cases hroom : (element tag value).length ≤ c.rest.length
    · rw [if_pos hroom] at hwrite
      rw [hwrite]
      simp
      omega
    · rw [if_neg hroom] at hwrite
      exact iff_of_true (fun _=>hwrite) (Or.inr (Nat.lt_of_not_le hroom))

theorem not_failsClosed (h : 0xFFFF < value.length) (hroom : (element tag value).length ≤ c.rest.length) :
    ¬FailsClosed c tag value:=by
  intro hfails
  have hwrite:=tlvWrite_spec c tag value
  rw [if_pos hroom] at hwrite
  have hfalse:=(hfails (Or.inr h)).1
  rw [hwrite] at hfalse
  exact Bool.noConfusion hfalse

end Writing

/-- 65536 bytes are written with the length 0. -/
theorem piv_tlv_long : ¬FailsClosed ⟨[],List.replicate 65540 0⟩ 0x53 (List.replicate 65536 0):=by
  apply not_failsClosed
  · rw [List.length_replicate]
    decide
  · rw [element_length,List.length_replicate,List.length_replicate]
    decide

end CdcBadge.Piv
