import Mathlib.Data.Vector.Basic
import Mathlib.Data.List.TakeDrop
import Mathlib.Data.List.TakeWhile
import Mathlib.Tactic.IntervalCases

/-! # Byte strings, fixed arrays and NUL-terminated text -/

namespace CdcBadge

abbrev Bytes:=List UInt8

theorem forall_byte {P : UInt8→Prop} (h : ∀ n : Fin 256, P (UInt8.ofFin n)) (c : UInt8) : P c:=h c.toFin

/-- A C array of `n` bytes. -/
abbrev ByteArr (n : ℕ):=List.Vector UInt8 n

/-- The `n` bytes that a copy into an array of `n` bytes leaves: cut off, or padded with zero bytes. -/
def fit (n : ℕ) (data : Bytes) : ByteArr n:=⟨data.takeD n 0,List.takeD_length n data 0⟩

def zeros (n : ℕ) : ByteArr n:=List.Vector.replicate n 0

/-- The bytes of a buffer up to its first NUL, as `strlen` counts them. -/
def cstr (data : Bytes) : Bytes:=data.takeWhile (· != 0)

def be32 (n : UInt32) : Bytes:=
  [(n >>> 24).toUInt8,(n >>> 16).toUInt8,(n >>> 8).toUInt8,n.toUInt8]

def ofBe32 (b₀ b₁ b₂ b₃ : UInt8) : UInt32:=
  (b₀.toUInt32 <<< 24) ||| (b₁.toUInt32 <<< 16) ||| (b₂.toUInt32 <<< 8) ||| b₃.toUInt32

theorem ofBe32_be32 (n : UInt32) :
    ofBe32 (n >>> 24).toUInt8 (n >>> 16).toUInt8 (n >>> 8).toUInt8 n.toUInt8=n:=by
  apply UInt32.toBitVec_inj.mp
  simp only [ofBe32,UInt32.toBitVec_or,UInt32.toBitVec_shiftLeft,UInt8.toBitVec_toUInt32,
    UInt32.toBitVec_toUInt8,UInt32.toBitVec_shiftRight]
  apply BitVec.eq_of_getLsbD_eq
  intro i hi
  interval_cases i <;> simp

theorem be32_ofBe32 (b₀ b₁ b₂ b₃ : UInt8) : be32 (ofBe32 b₀ b₁ b₂ b₃)=[b₀,b₁,b₂,b₃]:=by
  have hbytes : ∀ b b' : UInt8, (∀ i, i < 8→b.toBitVec.getLsbD i=b'.toBitVec.getLsbD i)→b=b':=
    fun b b' h=>UInt8.toBitVec_inj.mp (BitVec.eq_of_getLsbD_eq h)
  unfold be32 ofBe32
  congr 1
  · apply hbytes
    intro i hi
    interval_cases i <;> simp
  congr 1
  · apply hbytes
    intro i hi
    interval_cases i <;> simp
  congr 1
  · apply hbytes
    intro i hi
    interval_cases i <;> simp
  congr 1
  · apply hbytes
    intro i hi
    interval_cases i <;> simp

@[simp] theorem fit_toList {n : ℕ} (a : ByteArr n) : fit n a.toList=a:=by
  obtain ⟨l,rfl⟩:=a
  exact Subtype.ext (by simp [fit,List.Vector.toList,List.takeD_eq_take])

theorem toList_fit {n : ℕ} {bs : Bytes} (h : bs.length=n) : (fit n bs).toList=bs:=by
  subst h
  exact congrArg List.Vector.toList (fit_toList ⟨bs,rfl⟩)

theorem take_fit {n : ℕ} {data : Bytes} (h : data.length ≤ n) : (fit n data).toList.take data.length=data:=by
  change (data.takeD n 0).take data.length=data
  induction data generalizing n with
  | nil=>rfl
  | cons b data ih=>
    obtain ⟨m,rfl⟩ : ∃ m, n=m+1:=⟨n-1,by simp only [List.length_cons] at h; omega⟩
    simp only [List.length_cons,Nat.add_le_add_iff_right] at h
    exact congrArg (b :: ·) (ih h)

theorem fit_append {n : ℕ} (a : ByteArr n) (data : Bytes) : fit n (a.toList++data)=a:=by
  obtain ⟨l,rfl⟩:=a
  refine Subtype.ext ?_
  simp only [fit,List.Vector.toList]
  rw [List.takeD_eq_take _ (by simp)]
  simp

theorem drop_append_arr {n : ℕ} (a : ByteArr n) (data : Bytes) : (a.toList++data).drop n=data:=by
  rw [List.drop_append_of_le_length (by simp),List.drop_of_length_le (by simp),List.nil_append]

theorem cstr_length_le (data : Bytes) : (cstr data).length ≤ data.length:=
  (List.takeWhile_prefix _).length_le

theorem cstr_eq_self {data : Bytes} (h : (0 : UInt8) ∉ data) : cstr data=data:=by
  rw [cstr,List.takeWhile_eq_self_iff]
  intro b hb
  simpa using fun h0 : b=0=>h (h0 ▸ hb)

theorem cstr_noNul (data : Bytes) : (0 : UInt8) ∉ cstr data:=by
  intro h
  have hne:=List.mem_takeWhile_imp h
  simp at hne

theorem cstr_cstr (data : Bytes) : cstr (cstr data)=cstr data:=cstr_eq_self (cstr_noNul data)

theorem cstr_take_cstr (n : ℕ) (data : Bytes) : cstr ((cstr data).take n)=(cstr data).take n:=
  cstr_eq_self fun h=>cstr_noNul data (List.mem_of_mem_take h)

end CdcBadge
