import Mathlib.Tactic.Ring
import CdcBadge.Cbor

/-!
# Round trips of CBOR

What the writer emits for an item, what the reader makes of it, and the trees of
items that are read back as they were written.
-/

namespace CdcBadge.Cbor

open Handler

/-- A write appends these bytes where they fit. Where they do not, it sets the error flag and stays inside the
buffer; a writer with the flag set is left as it is. -/
structure Emits (f : Writer→Writer) (bytes : Bytes) : Prop where
  stuck : ∀ w, w.error=true → f w=w
  fits : ∀ w, w.error=false→w.out.length+bytes.length ≤ w.size → f w={w with out:=w.out++bytes}
  overflows : ∀ w, w.error=false→w.out.length ≤ w.size→w.size < w.out.length+bytes.length →
    (f w).error=true ∧ (f w).out.length ≤ w.size

theorem Emits.nil : Emits id [] where
  stuck _ _:=rfl
  fits w _ _:=by simp
  overflows w _ hle hlt:=by simp at hlt; omega

theorem Emits.comp {f g : Writer→Writer} {as bs : Bytes} (hf : Emits f as) (hg : Emits g bs) :
    Emits (fun w=>g (f w)) (as++bs) where
  stuck w hw:=by rw [hf.stuck w hw,hg.stuck w hw]
  fits w hw hsize:=by
    rw [List.length_append] at hsize
    rw [hf.fits w hw (by omega),hg.fits {w with out:=w.out++as} hw (by simp; omega)]
    simp
  overflows w hw hle hsize:=by
    rw [List.length_append] at hsize
    by_cases has : w.out.length+as.length ≤ w.size
    · rw [hf.fits w hw has]
      exact hg.overflows {w with out:=w.out++as} hw (by simpa using has) (by simp; omega)
    · obtain ⟨herror,hlength⟩:=hf.overflows w hw hle (by omega)
      rw [hg.stuck _ herror]
      exact ⟨herror,hlength⟩

/-- From these bytes a read takes all and nothing more, and returns this value. -/
def Reads {α : Type} (m : Read α) (bytes : Bytes) (a : α) : Prop:=
  ∀ more, m {rest:=bytes++more}=(.ok a,{rest:=more})

section
variable {α β : Type}

theorem Reads.pure (a : α) : Reads (pure a) [] a:=fun _=>rfl

theorem Reads.bind {m : Read α} {k : α→Read β} {as bs : Bytes} {a : α} {b : β}
    (hm : Reads m as a) (hk : Reads (k a) bs b) : Reads (m >>= k) (as++bs) b:=by
  intro more
  rw [List.append_assoc,bind_of_ok (hm (bs++more))]
  exact hk more

theorem Reads.last {m : Read α} {k : α→Read β} {as : Bytes} {a : α} {b : β}
    (hm : Reads m as a) (hk : Reads (k a) [] b) : Reads (m >>= k) as b:=by
  have h:=hm.bind hk
  rwa [List.append_nil] at h

theorem Reads.map {m : Read α} {as : Bytes} {a : α} {b : β} (f : α → β) (hm : Reads m as a) (hf : f a=b) :
    Reads (m >>= fun a=>Pure.pure (f a)) as b:=
  hm.last (hf ▸ Reads.pure (f a))

end

/-- The `n` low bytes of a number, most significant first. -/
def beBytes : ℕ → ℕ→Bytes
  | 0, _=>[]
  | n+1, value=>UInt8.ofNat (value/256^n)::beBytes n value

/-- The low five bits of an item's first byte, and how many bytes of its argument follow. -/
def argument (value : ℕ) : ℕ × ℕ:=
  if value < 24 then (value,0)
  else if value ≤ 0xFF then (24,1)
  else if value ≤ 0xFFFF then (25,2)
  else if value ≤ 0xFFFFFFFF then (26,4)
  else (27,8)

theorem argument_lt (value : ℕ) : (argument value).1 < 32:=by
  unfold argument
  repeat' split
  all_goals omega

def head (type : MajorType) (value : ℕ) : Bytes:=
  UInt8.ofNat (type.code*32+(argument value).1)::beBytes (argument value).2 value

theorem emits_writeByte (b : UInt8) : Emits (Writer.writeByte b) [b] where
  stuck w hw:=by simp [Writer.writeByte,hw]
  fits w hw hsize:=by
    have hlt : ¬ w.size ≤ w.out.length:=by simp at hsize; omega
    simp [Writer.writeByte,hw,hlt]
  overflows w hw hle hsize:=by
    have hge : w.size ≤ w.out.length:=by simp at hsize; omega
    simpa [Writer.writeByte,hw,hge] using hle

theorem emits_writeBytes (data : Bytes) : Emits (Writer.writeBytes data) data where
  stuck w hw:=by simp [Writer.writeBytes,hw]
  fits w hw hsize:=by simp [Writer.writeBytes,hw,Nat.not_lt.mpr hsize]
  overflows w hw hle hsize:=by simpa [Writer.writeBytes,hw,hsize] using hle

theorem emits_writeArgument (n value : ℕ) : Emits (Writer.writeArgument n value) (beBytes n value):=by
  induction n with
  | zero=>exact Emits.nil
  | succ n ih=>exact (emits_writeByte _).comp ih

theorem writeTypeValue_eq (type : MajorType) (value : ℕ) (w : Writer) :
    w.writeTypeValue type value =
      (w.writeByte (UInt8.ofNat (type.code*32+(argument value).1))).writeArgument (argument value).2 value:=by
  unfold Writer.writeTypeValue argument
  repeat' split
  all_goals rfl

theorem emits_writeTypeValue (type : MajorType) (value : ℕ) :
    Emits (Writer.writeTypeValue type value) (head type value):=by
  rw [funext (writeTypeValue_eq type value)]
  exact (emits_writeByte _).comp (emits_writeArgument _ value)

theorem reads_readByte (b : UInt8) : Reads readByte [b] b:=fun _=>rfl

theorem reads_iterate_readByte (n value acc : ℕ) :
    Reads (iterate n (fun value=>do pure (value*256+(← readByte).toNat)) acc) (beBytes n value)
      (acc*256^n+value % 256^n):=by
  induction n generalizing acc with
  | zero=>simpa [beBytes,iterate,Nat.mod_one] using Reads.pure acc
  | succ n ih=>
    have hbyte : (UInt8.ofNat (value/256^n)).toNat=value/256^n % 256:=by simp
    have hsum : (acc*256+value/256^n % 256)*256^n+value % 256^n =
        acc*256^(n+1)+value % 256^(n+1):=by
      rw [Nat.mod_pow_succ]
      ring
    rw [← hsum,← hbyte]
    have hfirst : Reads (readByte >>= fun b=>Pure.pure (acc*256+b.toNat)) [UInt8.ofNat (value/256^n)]
        (acc*256+(UInt8.ofNat (value/256^n)).toNat):=(reads_readByte _).map _ rfl
    exact hfirst.bind (ih _)

theorem reads_readArgument (n value : ℕ) : Reads (readArgument n) (beBytes n value) (value % 256^n):=by
  simpa [readArgument] using reads_iterate_readByte n value 0

theorem majorType_code (type : MajorType) : majorType type.code=type:=by
  cases type <;> rfl

theorem MajorType.code_lt (type : MajorType) : type.code < 8:=by
  cases type <;> decide

theorem reads_readTypeValue (type : MajorType) (value : ℕ) :
    Reads readTypeValue (head type value) (type,value % 2^64):=by
  have hcode:=type.code_lt
  have hinfo:=argument_lt value
  have hinitial : (UInt8.ofNat (type.code*32+(argument value).1)).toNat=type.code*32+(argument value).1:=by
    rw [UInt8.toNat_ofNat']
    omega
  refine (reads_readByte _).bind ?_
  rw [hinitial,show (type.code*32+(argument value).1)/32=type.code by omega,
    show (type.code*32+(argument value).1) % 32=(argument value).1 by omega,majorType_code]
  unfold argument
  split
  · next h=>
    have hvalue : value % 2^64=value:=by omega
    rw [hvalue,if_pos h]
    exact Reads.pure (type,value)
  split
  · next h=>
    have hvalue : value % 2^64=value % 256^1:=by omega
    rw [hvalue]
    exact (reads_readArgument 1 value).last (Reads.pure (type,_))
  split
  · next h=>
    have hvalue : value % 2^64=value % 256^2:=by omega
    rw [hvalue]
    exact (reads_readArgument 2 value).last (Reads.pure (type,_))
  split
  · next h=>
    have hvalue : value % 2^64=value % 256^4:=by omega
    rw [hvalue]
    exact (reads_readArgument 4 value).last (Reads.pure (type,_))
  · have hvalue : value % 2^64=value % 256^8:=by norm_num
    rw [hvalue]
    exact (reads_readArgument 8 value).last (Reads.pure (type,_))

theorem reads_readItem (type : MajorType) (value : ℕ) (htype : type≠.bytes ∧ type≠.text) :
    Reads readItem (head type value) {type:=type,value:=value % 2^64}:=by
  apply (reads_readTypeValue type value).last
  simp only [htype,or_self,if_false]
  exact Reads.pure _

theorem reads_readItem_string {type : MajorType} {data : Bytes} (htype : type=.bytes ∨ type=.text)
    (hsize : data.length < 2^64) :
    Reads readItem (head type data.length++data) {type:=type,value:=data.length,bytes:=data}:=by
  apply (reads_readTypeValue type data.length).bind
  intro more
  rw [Nat.mod_eq_of_lt hsize]
  simp [htype]

theorem reads_readUint {n : ℕ} (hn : n < 2^64) : Reads readUint (head .unsigned n) n:=by
  apply (reads_readItem .unsigned n (by decide)).last
  rw [Nat.mod_eq_of_lt hn]
  exact Reads.pure n

/-- The head that `cbor_encode_int` writes. -/
def intHead (value : ℤ) : Bytes:=
  if 0 ≤ value then head .unsigned value.toNat else head .negative (-1-value).toNat

theorem emits_int (value : ℤ) : Emits (Writer.int value) (intHead value):=by
  unfold intHead
  split
  · next h=>
    have hint : Writer.int value=Writer.writeTypeValue .unsigned value.toNat:=funext fun w=>if_pos h
    exact hint ▸ emits_writeTypeValue _ _
  · next h=>
    have hint : Writer.int value=Writer.writeTypeValue .negative (-1-value).toNat:=funext fun w=>if_neg h
    exact hint ▸ emits_writeTypeValue _ _

theorem toInt64_of_lt {n : ℕ} (hn : n < 2^63) : toInt64 n=n:=by
  unfold toInt64
  rw [Int.bmod_def]
  norm_num
  omega

theorem toInt64_mod {n : ℕ} (hn : n < 2^63) : toInt64 (n % 2^64)=n:=by
  have hmod : n % 2^64=n:=by omega
  rw [hmod,toInt64_of_lt hn]

theorem reads_readInt {value : ℤ} (hlo : -2^63 ≤ value) (hhi : value < 2^63) :
    Reads readInt (intHead value) value:=by
  unfold intHead
  split
  · next h=>
    apply (reads_readItem .unsigned value.toNat (by decide)).last
    have hvalue : toInt64 (value.toNat % 2^64)=value:=by
      rw [toInt64_mod (by omega),Int.toNat_of_nonneg h]
    simp only [Item.int?,hvalue]
    exact Reads.pure value
  · next h=>
    apply (reads_readItem .negative (-1-value).toNat (by decide)).last
    have hvalue : -1-toInt64 ((-1-value).toNat % 2^64)=value:=by
      rw [toInt64_mod (by omega),Int.toNat_of_nonneg (by omega)]
      omega
    simp only [Item.int?,hvalue]
    exact Reads.pure value

theorem reads_readBytes {data : Bytes} {maxLen : ℕ} (hsize : data.length < 2^64) (hmax : data.length ≤ maxLen) :
    Reads (readBytes maxLen) (head .bytes data.length++data) data:=by
  apply (reads_readItem_string (.inl rfl) hsize).last
  simp only [if_true,List.take_of_length_le hmax]
  exact Reads.pure data

theorem reads_readText {data : Bytes} {maxLen : ℕ} (hsize : data.length < 2^64) (hmax : data.length < maxLen) :
    Reads (readText maxLen) (head .text data.length++data) data:=by
  have htext : Reads readTextItem (head .text data.length++data) data:=
    (reads_readItem_string (.inr rfl) hsize).last (Reads.pure data)
  have hcopy : copyText maxLen data=data:=List.take_of_length_le (by omega)
  unfold readText
  rw [if_neg (by omega)]
  apply htext.last
  rw [hcopy]
  exact Reads.pure data

/-- The byte that `cbor_encode_bool` writes. -/
def boolByte (b : Bool) : UInt8:=if b then 0xF5 else 0xF4

theorem reads_readBool (b : Bool) : Reads readBool [boolByte b] b:=by
  apply (reads_readByte (boolByte b)).last
  cases b
  · exact Reads.pure false
  · exact Reads.pure true

theorem reads_readArray (n : ℕ) : Reads readArray (head .array n) (toInt (n % 2^64)):=
  (reads_readItem .array n (by decide)).last (Reads.pure _)

theorem reads_readMap (n : ℕ) : Reads readMap (head .map n) (toInt (n % 2^64)):=
  (reads_readItem .map n (by decide)).last (Reads.pure _)

theorem toInt_lt (n : ℕ) : toInt n < 2^31:=by
  unfold toInt
  rw [Int.bmod_def]
  norm_num
  omega

theorem toInt_of_lt {n : ℕ} (hn : n < 2^31) : toInt n=n:=by
  unfold toInt
  rw [Int.bmod_def]
  norm_num
  omega

/-- A count is read as the number that it is below 2^31, and as another number from there on. -/
theorem toInt_mod_eq_iff (n : ℕ) : toInt (n % 2^64)=n ↔ n < 2^31:=by
  constructor
  · intro h
    have hlt:=toInt_lt (n % 2^64)
    omega
  · intro h
    have hmod : n % 2^64=n:=by omega
    rw [hmod,toInt_of_lt h]

end CdcBadge.Cbor
