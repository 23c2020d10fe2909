import CdcBadge.CborRoundTrip

/-!
# Heads of CBOR items

The heads that the reader takes, each with its argument in any of the widths there are, and which of the
arguments come out of the readers of integers and counts as the numbers that they are.
-/

namespace CdcBadge.Cbor

open Handler

/-- The type and the low five bits of an item's first byte, and the bytes of its argument. -/
structure Head where
  type : MajorType
  info : ℕ
  argument : Bytes
  info_lt : info < 28
  argument_length : argument.length=if info < 24 then 0 else 2^(info-24)

/-- Bytes as a number, most significant first, after the bytes of `acc`. -/
def beValue (acc : ℕ) (bs : Bytes) : ℕ:=bs.foldl (fun value b=>value*256+b.toNat) acc

namespace Head

def value (h : Head) : ℕ:=if h.info < 24 then h.info else beValue 0 h.argument

def encoding (h : Head) : Bytes:=UInt8.ofNat (h.type.code*32+h.info)::h.argument

theorem initial_toNat (h : Head) : (UInt8.ofNat (h.type.code*32+h.info)).toNat=h.type.code*32+h.info:=by
  have hcode:=h.type.code_lt
  have hinfo:=h.info_lt
  rw [UInt8.toNat_ofNat']
  omega

theorem encoding_inj {h k : Head} {xs ys : Bytes} (heq : h.encoding++xs=k.encoding++ys) : h=k ∧ xs=ys:=by
  obtain ⟨hfirst,hrest⟩:=List.cons.inj heq
  have hnat:=congrArg UInt8.toNat hfirst
  rw [h.initial_toNat,k.initial_toNat] at hnat
  have hh:=h.info_lt
  have hk:=k.info_lt
  have hcode : h.type.code=k.type.code:=by omega
  have hinfo : h.info=k.info:=by omega
  have htype : h.type=k.type:=by rw [← majorType_code h.type,hcode,majorType_code]
  obtain ⟨hargument,hys⟩:=List.append_inj hrest (by rw [h.argument_length,k.argument_length,hinfo])
  obtain ⟨type,info,argument,_,_⟩:=h
  obtain ⟨type',info',argument',_,_⟩:=k
  obtain rfl : type=type':=htype
  obtain rfl : info=info':=hinfo
  obtain rfl : argument=argument':=hargument
  exact ⟨rfl,hys⟩

end Head

section Reading

variable {r r' : Reader}

theorem readByte_ok {b : UInt8} :
    readByte r=(.ok b,r') ↔ r.error=false ∧ r'.error=false ∧ r.rest=b::r'.rest:=by
  obtain ⟨rest,error⟩:=r
  obtain ⟨rest',error'⟩:=r'
  cases error with
  | true=>simp [readByte]
  | false=>
    cases rest with
    | nil=>simp [readByte]
    | cons c rest=>
      simp only [readByte,Bool.false_eq_true,if_false,Prod.mk.injEq,Except.ok.injEq,Reader.mk.injEq,List.cons.injEq,
        true_and]
      constructor
      · rintro ⟨rfl,rfl,rfl⟩
        exact ⟨rfl,rfl,rfl⟩
      · rintro ⟨rfl,rfl,rfl⟩
        exact ⟨rfl,rfl,rfl⟩

theorem reads_beValue (bs : Bytes) (acc : ℕ) :
    Reads (iterate bs.length (fun value=>do pure (value*256+(← readByte).toNat)) acc) bs (beValue acc bs):=by
  induction bs generalizing acc with
  | nil=>exact Reads.pure acc
  | cons b bs ih=>
    have hfirst : Reads (readByte >>= fun b=>Pure.pure (acc*256+b.toNat)) [b] (acc*256+b.toNat):=
      (reads_readByte b).map _ rfl
    exact hfirst.bind (ih _)

theorem reads_argument {bs : Bytes} {n : ℕ} (h : bs.length=n) : Reads (readArgument n) bs (beValue 0 bs):=by
  subst h
  exact reads_beValue bs 0

theorem iterate_readByte_ok {n acc value : ℕ} (hr : r.error=false)
    (h : iterate n (fun value=>do pure (value*256+(← readByte).toNat)) acc r=(.ok value,r')) :
    ∃ bs, bs.length=n ∧ value=beValue acc bs ∧ r'.error=false ∧ r.rest=bs++r'.rest:=by
  induction n generalizing acc r with
  | zero=>
    cases h
    exact ⟨[],rfl,rfl,hr,rfl⟩
  | succ n ih=>
    obtain ⟨next,s,hnext,htail⟩:=bind_ok.mp h
    obtain ⟨b,t,hb,hpure⟩:=bind_ok.mp hnext
    cases hpure
    obtain ⟨-,hs,hrest⟩:=readByte_ok.mp hb
    obtain ⟨bs,hlength,hvalue,herror,hbs⟩:=ih hs htail
    refine ⟨b::bs,by rw [List.length_cons,hlength],hvalue,herror,?_⟩
    rw [hrest,hbs,List.cons_append]

theorem readArgument_ok {n value : ℕ} (hr : r.error=false) (h : readArgument n r=(.ok value,r')) :
    ∃ bs, bs.length=n ∧ value=beValue 0 bs ∧ r'.error=false ∧ r.rest=bs++r'.rest:=
  iterate_readByte_ok hr h

theorem Head.reads (h : Head) : Reads readTypeValue h.encoding (h.type,h.value):=by
  have hcode:=h.type.code_lt
  have hinfo:=h.info_lt
  have hlength:=h.argument_length
  apply (reads_readByte _).bind
  rw [h.initial_toNat,show (h.type.code*32+h.info)/32=h.type.code by omega,
    show (h.type.code*32+h.info) % 32=h.info by omega,majorType_code]
  unfold Head.value
  by_cases hsmall : h.info < 24
  · rw [if_pos hsmall] at hlength
    rw [List.length_eq_zero_iff.mp hlength]
    simp only [hsmall,if_true]
    exact Reads.pure _
  · rw [if_neg hsmall] at hlength
    simp only [hsmall,if_false]
    have hread:=reads_argument hlength
    have hcases : h.info=24 ∨ h.info=25 ∨ h.info=26 ∨ h.info=27:=by omega
    rcases hcases with hi | hi | hi | hi
    all_goals
      rw [hi] at hread ⊢
      exact hread.last (Reads.pure _)

theorem readTypeValue_ok {type : MajorType} {value : ℕ} (h : readTypeValue r=(.ok (type,value),r')) :
    ∃ k : Head, k.type=type ∧ k.value=value ∧ r.error=false ∧ r'.error=false ∧ r.rest=k.encoding++r'.rest:=by
  obtain ⟨b,s,hb,h⟩:=bind_ok.mp h
  obtain ⟨hr,hs,hrest⟩:=readByte_ok.mp hb
  have hlt:=b.toNat_lt
  have hcode : ∀ type : ℕ, type < 8→(majorType type).code=type:=by decide
  have hinitial : UInt8.ofNat ((majorType (b.toNat/32)).code*32+b.toNat % 32)=b:=by
    rw [hcode _ (by omega),show b.toNat/32*32+b.toNat % 32=b.toNat by omega]
    exact UInt8.ofNat_toNat
  have hwide : ∀ {n : ℕ}, 24 ≤ b.toNat % 32→(hinfo : b.toNat % 32 < 28)→n=2^(b.toNat % 32-24) →
      (readArgument n >>= fun v=>Pure.pure (majorType (b.toNat/32),v)) s=(.ok (type,value),r') →
      ∃ k : Head, k.type=type ∧ k.value=value ∧ r.error=false ∧ r'.error=false ∧
        r.rest=k.encoding++r'.rest:=by
    intro n hlow hinfo hn hread
    obtain ⟨v,t,hv,hpure⟩:=bind_ok.mp hread
    cases hpure
    obtain ⟨bs,hlength,hvalue,herror,hbs⟩:=readArgument_ok hs hv
    have hnot : ¬b.toNat % 32 < 24:=by omega
    refine ⟨⟨majorType (b.toNat/32),b.toNat % 32,bs,hinfo,by rw [if_neg hnot,hlength,hn]⟩,rfl,?_,hr,herror,?_⟩
    · show (if b.toNat % 32 < 24 then b.toNat % 32 else beValue 0 bs)=value
      rw [if_neg hnot,hvalue]
    · show r.rest=(UInt8.ofNat ((majorType (b.toNat/32)).code*32+b.toNat % 32)::bs)++r'.rest
      rw [hinitial,hrest,hbs,List.cons_append]
  split_ifs at h with hsmall h24 h25 h26 h27
  · cases h
    refine ⟨⟨majorType (b.toNat/32),b.toNat % 32,[],by omega,by rw [if_pos hsmall]; rfl⟩,rfl,if_pos hsmall,hr,hs,?_⟩
    show r.rest=[UInt8.ofNat ((majorType (b.toNat/32)).code*32+b.toNat % 32)]++r'.rest
    rw [hinitial,hrest]
    rfl
  · exact hwide (by omega) (by omega) (by rw [h24]; rfl) h
  · exact hwide (by omega) (by omega) (by rw [h25]; rfl) h
  · exact hwide (by omega) (by omega) (by rw [h26]; rfl) h
  · exact hwide (by omega) (by omega) (by rw [h27]; rfl) h
  · cases h

def Head.dataSize (k : Head) : ℕ:=if k.type=.bytes ∨ k.type=.text then k.value else 0

theorem readItem_ok {item : Item} :
    readItem r=(.ok item,r') ↔ ∃ (k : Head) (data : Bytes), r.error=false ∧ r'.error=false ∧
      r.rest=k.encoding++data++r'.rest ∧ data.length=k.dataSize ∧ item=⟨k.type,k.value,data⟩:=by
  unfold Head.dataSize
  constructor
  · intro h
    obtain ⟨⟨type,value⟩,s,hhead,h⟩:=bind_ok.mp h
    obtain ⟨k,rfl,rfl,hr,hs,hrest⟩:=readTypeValue_ok hhead
    dsimp only at h
    by_cases hstring : k.type=.bytes ∨ k.type=.text
    · rw [if_pos hstring] at h
      simp only [bind_gets] at h
      by_cases hshort : s.rest.length < k.value
      · rw [if_pos hshort] at h
        cases h
      · rw [if_neg hshort] at h
        cases h
        refine ⟨k,s.rest.take k.value,hr,hs,?_,?_,rfl⟩
        · rw [hrest,List.append_assoc,List.take_append_drop]
        · rw [if_pos hstring,List.length_take]
          omega
    · rw [if_neg hstring] at h
      cases h
      refine ⟨k,[],hr,hs,?_,by rw [if_neg hstring]; rfl,rfl⟩
      rw [hrest,List.append_nil]
  · rintro ⟨k,data,hr,hr',hrest,hdata,rfl⟩
    obtain ⟨rest,error⟩:=r
    obtain ⟨rest',error'⟩:=r'
    obtain rfl : error=false:=hr
    obtain rfl : error'=false:=hr'
    obtain rfl : rest=k.encoding++data++rest':=hrest
    show (readTypeValue >>= _) _=_
    rw [List.append_assoc,bind_of_ok (k.reads _)]
    by_cases hstring : k.type=.bytes ∨ k.type=.text
    · rw [if_pos hstring] at hdata
      simp only [hstring,if_true,bind_gets]
      have hlong : ¬(data++rest').length < k.value:=by
        rw [List.length_append]
        omega
      rw [if_neg hlong,← hdata]
      simp
    · rw [if_neg hstring] at hdata
      rw [List.length_eq_zero_iff.mp hdata]
      simp only [hstring,if_false]
      rfl

theorem readItem_plain {item : Item} (hitem : item.type≠.bytes ∧ item.type≠.text) :
    readItem r=(.ok item,r') ↔ ∃ k : Head, r.error=false ∧ r'.error=false ∧ r.rest=k.encoding++r'.rest ∧
      item=⟨k.type,k.value,[]⟩:=by
  have hsize : ∀ k : Head, k.type=item.type→k.dataSize=0:=by
    intro k hk
    rw [Head.dataSize,hk,if_neg (by simp [hitem])]
  rw [readItem_ok]
  constructor
  · rintro ⟨k,data,hr,hr',hrest,hdata,rfl⟩
    rw [hsize k rfl] at hdata
    have hnone:=List.length_eq_zero_iff.mp hdata
    subst hnone
    rw [List.append_nil] at hrest
    exact ⟨k,hr,hr',hrest,rfl⟩
  · rintro ⟨k,hr,hr',hrest,rfl⟩
    exact ⟨k,[],hr,hr',by rw [hrest,List.append_nil],(hsize k rfl).symm,rfl⟩

end Reading

def Flags {α : Type} (m : Read α) : Prop:=Triple (fun _=>True) m (fun _ _=>True) fun _ r=>r.error=true

section Failing

variable {α β : Type}

theorem Flags.pure (a : α) : Flags (pure a):=Triple.pure fun _ _=>trivial

theorem Flags.bind {m : Read α} {k : α→Read β} (hm : Flags m) (hk : ∀ a, Flags (k a)) : Flags (m >>= k):=
  Triple.bind hm hk

theorem Flags.ite {c : Prop} [Decidable c] {m n : Read α} (hm : Flags m) (hn : Flags n) : Flags (if c then m else n):=
  Triple.ite (fun _=>hm) fun _=>hn

theorem Flags.error {m : Read α} (hm : Flags m) {r r' : Reader} {e : Unit} (h : m r=(.error e,r')) : r'.error=true:=
  Triple.error hm trivial h

theorem flags_malformed : Flags (malformed : Read α):=fun _ _=>rfl

theorem flags_readByte : Flags readByte:=by
  rintro ⟨rest,error⟩ -
  cases error with
  | true=>rfl
  | false=>cases rest <;> trivial

theorem flags_readArgument (n : ℕ) : Flags (readArgument n):=
  Triple.iterate (I:=fun _ _=>True) (fun _=>flags_readByte.bind fun _=>Flags.pure _) n 0

theorem flags_readTypeValue : Flags readTypeValue:=by
  refine flags_readByte.bind fun b=>?_
  refine Flags.ite (Flags.pure _) ?_
  refine Flags.ite ((flags_readArgument 1).bind fun _=>Flags.pure _) ?_
  refine Flags.ite ((flags_readArgument 2).bind fun _=>Flags.pure _) ?_
  refine Flags.ite ((flags_readArgument 4).bind fun _=>Flags.pure _) ?_
  exact Flags.ite ((flags_readArgument 8).bind fun _=>Flags.pure _) flags_malformed

theorem flags_readItem : Flags readItem:=by
  refine flags_readTypeValue.bind fun head=>?_
  refine Flags.ite ?_ (Flags.pure _)
  refine (Triple.gets fun _ _=>trivial : Flags (gets fun r : Reader=>r.rest)).bind fun rest=>?_
  refine Flags.ite flags_malformed ?_
  exact (Triple.modify fun _ _=>trivial : Flags (modify _)).bind fun _=>Flags.pure _

theorem flags_item {k : Item→Read α} (hk : ∀ item, Flags (k item)) : Flags (readItem >>= k):=
  flags_readItem.bind hk

end Failing

def Head.int? (k : Head) : Option ℤ:=
  match k.type with
  | .unsigned=>some k.value
  | .negative=>some (-1-k.value)
  | _=>none

/-- What `cbor_read_map` and `cbor_read_array` return. -/
def returned : Except Unit ℤ → ℤ
  | .ok count=>count
  | .error _=>-1

/-- The count of the item that is read, or the mark of an error. -/
def CountExact (type : MajorType) (r : Reader) (result : Except Unit ℤ × Reader) : Prop:=
  returned result.1 = -1 ∧ result.2.error=true ∨
    ∃ k : Head, r.rest=k.encoding++result.2.rest ∧ k.type=type ∧ returned result.1=k.value

/-- The readers of integers and counts give the number that stands at the position, or fail. -/
structure NumbersExact (r : Reader) : Prop where
  int : ∀ v r', readInt r=(.ok v,r')→∃ k : Head, r.rest=k.encoding++r'.rest ∧ k.int? = some v
  map : CountExact .map r (readMap r)
  array : CountExact .array r (readArray r)

/-- An argument that is the same number as a signed integer of the width it is returned in. -/
def Head.InRange (k : Head) : Prop:=
  (k.type=.unsigned ∨ k.type=.negative→k.value < 2^63) ∧ (k.type=.map ∨ k.type=.array→k.value < 2^31)

section Numbers

variable {r : Reader}

theorem toInt64_eq_iff {n : ℕ} : toInt64 n=n ↔ n < 2^63:=by
  constructor
  · intro h
    have hlt : toInt64 n < 2^63:=by
      unfold toInt64
      rw [Int.bmod_def]
      norm_num
      omega
    omega
  · exact toInt64_of_lt

theorem toInt_eq_iff {n : ℕ} : toInt n=n ↔ n < 2^31:=by
  constructor
  · intro h
    have hlt:=toInt_lt n
    omega
  · exact toInt_of_lt

/-- A count is read by its type, as an `int`. -/
def readCount (type : MajorType) : Read ℤ:=do
  let item ← readItem
  if item.type=type then pure (toInt item.value) else malformed

theorem readCount_ok {type : MajorType} (htype : type≠.bytes ∧ type≠.text) {r' : Reader} {count : ℤ} :
    readCount type r=(.ok count,r') ↔ ∃ k : Head, r.error=false ∧ r'.error=false ∧
      r.rest=k.encoding++r'.rest ∧ k.type=type ∧ count=toInt k.value:=by
  constructor
  · intro h
    obtain ⟨item,s,hitem,h⟩:=bind_ok.mp h
    split_ifs at h with hk
    · obtain ⟨hcount,hstate⟩:=Prod.mk.inj h
      subst hstate
      obtain ⟨k,hr,hs,hrest,rfl⟩:=(readItem_plain (by rwa [hk])).mp hitem
      exact ⟨k,hr,hs,hrest,hk,(Except.ok.inj hcount).symm⟩
    · cases h
  · rintro ⟨k,hr,hr',hrest,hk,hcount⟩
    subst hk
    rw [hcount,readCount,bind_of_ok ((readItem_plain htype).mpr ⟨k,hr,hr',hrest,rfl⟩)]
    simp

theorem flags_readCount (type : MajorType) : Flags (readCount type):=
  flags_item fun _=>Flags.ite (Flags.pure _) flags_malformed

/-- A count is exact unless the item at the position is one of its type with a count from 2^31 on. -/
theorem countExact_iff {type : MajorType} (htype : type≠.bytes ∧ type≠.text) :
    CountExact type r (readCount type r) ↔
      r.error=true ∨ ∀ k : Head, k.encoding <+: r.rest→k.type=type→k.value < 2^31:=by
  cases hread : readCount type r with
  | mk result r'=>
    cases result with
    | error e=>
      have hflag : r'.error=true:=(flags_readCount type).error hread
      refine ⟨fun _=>?_,fun _=>Or.inl ⟨rfl,hflag⟩⟩
      by_contra hno
      obtain ⟨hr,hlarge⟩:=not_or.mp hno
      push Not at hlarge
      obtain ⟨k,⟨rest,hrest⟩,hk,-⟩:=hlarge
      have hok : readCount type r=(.ok (toInt k.value),{rest:=rest}):=(readCount_ok htype).mpr
        ⟨k,by simpa using hr,rfl,hrest.symm,hk,rfl⟩
      rw [hread] at hok
      cases hok
    | ok count=>
      obtain ⟨k,hr,hr',hrest,hk,hvalue⟩:=(readCount_ok htype).mp hread
      rw [hvalue]
      have hat : ∀ k' : Head, k'.encoding <+: r.rest→k'=k:=by
        rintro k' ⟨rest,hk'⟩
        exact (Head.encoding_inj (hk'.trans hrest)).1
      constructor
      · rintro (⟨-,hflag⟩ | ⟨k',hk',-,hcount⟩)
        · rw [hr'] at hflag
          cases hflag
        · have hsame:=hat k' ⟨r'.rest,hk'.symm⟩
          subst hsame
          refine Or.inr fun k'' hk'' _=>?_
          rw [hat k'' hk'']
          exact toInt_eq_iff.mp hcount
      · rintro (herror | hrange)
        · rw [hr] at herror
          cases herror
        · exact Or.inr ⟨k,hrest,hk,toInt_eq_iff.mpr (hrange k ⟨_,hrest.symm⟩ hk)⟩

theorem readInt_ok {v : ℤ} {r' : Reader} :
    readInt r=(.ok v,r') ↔ ∃ k : Head, r.error=false ∧ r'.error=false ∧ r.rest=k.encoding++r'.rest ∧
      (k.type=.unsigned ∧ v=toInt64 k.value ∨ k.type=.negative ∧ v = -1-toInt64 k.value):=by
  constructor
  · intro h
    obtain ⟨item,s,hitem,h⟩:=bind_ok.mp h
    cases hint : item.int? with
    | none=>
      rw [hint] at h
      cases h
    | some value=>
      rw [hint] at h
      obtain ⟨hvalue,hstate⟩:=Prod.mk.inj h
      have hv:=Except.ok.inj hvalue
      subst hstate
      unfold Item.int? at hint
      split at hint
      · rename_i htype
        obtain ⟨k,hr,hs,hrest,rfl⟩:=(readItem_plain (by simp [htype])).mp hitem
        exact ⟨k,hr,hs,hrest,.inl ⟨htype,hv.symm.trans (Option.some.inj hint).symm⟩⟩
      · rename_i htype
        obtain ⟨k,hr,hs,hrest,rfl⟩:=(readItem_plain (by simp [htype])).mp hitem
        exact ⟨k,hr,hs,hrest,.inr ⟨htype,hv.symm.trans (Option.some.inj hint).symm⟩⟩
      · cases hint
  · rintro ⟨k,hr,hr',hrest,hk⟩
    have hplain : k.type≠.bytes ∧ k.type≠.text:=by
      rcases hk with ⟨hk,-⟩ | ⟨hk,-⟩
      · simp [hk]
      · simp [hk]
    rw [readInt,bind_of_ok ((readItem_plain hplain).mpr ⟨k,hr,hr',hrest,rfl⟩)]
    rcases hk with ⟨hk,hv⟩ | ⟨hk,hv⟩
    · simp only [Item.int?,hk,hv]
      rfl
    · simp only [Item.int?,hk,hv]
      rfl

/-- An integer is exact unless the one at the position has an argument from 2^63 on. -/
theorem intExact_iff :
    (∀ v r', readInt r=(.ok v,r')→∃ k : Head, r.rest=k.encoding++r'.rest ∧ k.int? = some v) ↔
      r.error=true ∨ ∀ k : Head, k.encoding <+: r.rest→k.type=.unsigned ∨ k.type=.negative→k.value < 2^63:=by
  constructor
  · intro h
    by_contra hno
    obtain ⟨hr,hlarge⟩:=not_or.mp hno
    push Not at hlarge
    obtain ⟨k,⟨rest,hrest⟩,hk,hvalue⟩:=hlarge
    have hwrong : toInt64 k.value≠k.value:=fun heq=>absurd (toInt64_eq_iff.mp heq) (by omega)
    rcases hk with hk | hk
    · obtain ⟨k',hk',hv⟩:=h (toInt64 k.value) {rest:=rest}
        (readInt_ok.mpr ⟨k,by simpa using hr,rfl,hrest.symm,.inl ⟨hk,rfl⟩⟩)
      have hsame:=(Head.encoding_inj (hrest.trans hk')).1
      subst hsame
      simp only [Head.int?,hk,Option.some.injEq] at hv
      exact hwrong hv.symm
    · obtain ⟨k',hk',hv⟩:=h (-1-toInt64 k.value) {rest:=rest}
        (readInt_ok.mpr ⟨k,by simpa using hr,rfl,hrest.symm,.inr ⟨hk,rfl⟩⟩)
      have hsame:=(Head.encoding_inj (hrest.trans hk')).1
      subst hsame
      simp only [Head.int?,hk,Option.some.injEq] at hv
      omega
  · intro h v r' hread
    obtain ⟨k,hr,-,hrest,hk⟩:=readInt_ok.mp hread
    have hrange:=h.resolve_left (by simp [hr]) k ⟨_,hrest.symm⟩
    refine ⟨k,hrest,?_⟩
    rcases hk with ⟨hk,hv⟩ | ⟨hk,hv⟩
    · simp only [Head.int?,hk,hv,toInt64_eq_iff.mpr (hrange (.inl hk))]
    · simp only [Head.int?,hk,hv,toInt64_eq_iff.mpr (hrange (.inr hk))]

/-- The numbers that are read are exact just where the head at the position, if there is one, has an argument in range. -/
theorem numbersExact_iff (r : Reader) :
    NumbersExact r ↔ r.error=true ∨ ∀ k : Head, k.encoding <+: r.rest→k.InRange:=by
  constructor
  · rintro ⟨hint,hmap,harray⟩
    by_cases hr : r.error=true
    · exact Or.inl hr
    · have hint:=(intExact_iff.mp hint).resolve_left hr
      have hmap:=((countExact_iff (by decide)).mp hmap).resolve_left hr
      have harray:=((countExact_iff (by decide)).mp harray).resolve_left hr
      refine Or.inr fun k hk=>⟨hint k hk,?_⟩
      rintro (htype | htype)
      · exact hmap k hk htype
      · exact harray k hk htype
  · intro h
    constructor
    · exact intExact_iff.mpr (h.imp_right fun hall k hk=>(hall k hk).1)
    · exact (countExact_iff (by decide)).mpr (h.imp_right fun hall k hk htype=>(hall k hk).2 (.inl htype))
    · exact (countExact_iff (by decide)).mpr (h.imp_right fun hall k hk htype=>(hall k hk).2 (.inr htype))

/-- 2^63 is read as the lowest integer there is. -/
theorem not_numbersExact : ¬∀ r : Reader, NumbersExact r:=by
  intro h
  have hread : readInt {rest:=[0x1B,0x80,0,0,0,0,0,0,0]}=(.ok (-2^63),{}):=by decide +kernel
  obtain ⟨k,hk,hv⟩:=(h _).int _ _ hread
  have hhead : (⟨.unsigned,27,[0x80,0,0,0,0,0,0,0],by decide,rfl⟩ : Head)=k ∧ ([] : Bytes)=[]:=
    Head.encoding_inj hk
  rw [← hhead.1] at hv
  exact absurd hv (by decide +kernel)

end Numbers

end CdcBadge.Cbor
