import CdcBadge.Bytes
import Mathlib.Algebra.Order.Group.Unbundled.Int

/-!
# DER integers

Items with a short length, the two's complement of an integer without a redundant first byte, and a sequence of two
integers read under the rules of DER.
-/

namespace CdcBadge.Der

def tagInteger : UInt8:=0x02
def tagSequence : UInt8:=0x30

def natOf : Bytes → ℕ
  | []=>0
  | b::bs=>b.toNat*256^bs.length+natOf bs

def intOf (content : Bytes) : ℤ:=natOf content-if content.headD 0 &&& 0x80≠0 then 256^content.length else 0

def Minimal : Bytes→Prop
  | []=>False
  | [_]=>True
  | b::c::_=>¬(b=0x00 ∧ c &&& 0x80=0) ∧ ¬(b=0xFF ∧ c &&& 0x80≠0)

instance : DecidablePred Minimal
  | []=>inferInstanceAs (Decidable False)
  | [_]=>inferInstanceAs (Decidable True)
  | _::_::_=>inferInstanceAs (Decidable (_ ∧ _))

def item (tag : UInt8) (content : Bytes) : Bytes:=tag::UInt8.ofNat content.length::content

def readItem (tag : UInt8) : Bytes→Option (Bytes × Bytes)
  | t::len::rest=>
    if t=tag ∧ len.toNat < 128 ∧ len.toNat ≤ rest.length then some (rest.take len.toNat,rest.drop len.toNat) else none
  | _=>none

def readInteger (bs : Bytes) : Option (ℤ × Bytes):=
  match readItem tagInteger bs with
  | some (content,rest)=>if Minimal content then some (intOf content,rest) else none
  | none=>none

def readPair (bs : Bytes) : Option (ℤ × ℤ):=
  match readItem tagSequence bs with
  | some (body,[])=>
    match readInteger body with
    | some (r,rest)=>
      match readInteger rest with
      | some (s,[])=>some (r,s)
      | _=>none
    | none=>none
  | _=>none

def stripZeros : Bytes→Bytes
  | b::c::rest=>if b=0 then stripZeros (c::rest) else b::c::rest
  | bs=>bs

def padded (digits : Bytes) : Bytes:=if digits.headD 0 &&& 0x80≠0 then 0::digits else digits

def unsigned (mpi : Bytes) : Bytes:=padded (stripZeros mpi)

section Magnitudes

variable {mpi content rest : Bytes} {tag : UInt8}

theorem natOf_stripZeros (mpi : Bytes) : natOf (stripZeros mpi)=natOf mpi:=by
  fun_induction stripZeros mpi with
  | case1 c rest ih=>
    rw [ih]
    show natOf (c::rest)=(0 : UInt8).toNat*256^(c::rest).length+natOf (c::rest)
    rw [UInt8.toNat_zero,Nat.zero_mul,Nat.zero_add]
  | case2 b c rest hb=>rfl
  | case3 bs hbs=>rfl

theorem stripZeros_length (mpi : Bytes) : (stripZeros mpi).length ≤ mpi.length:=by
  fun_induction stripZeros mpi with
  | case1 c rest ih=>exact ih.trans (Nat.le_succ _)
  | case2 b c rest hb=>exact le_rfl
  | case3 bs hbs=>exact le_rfl

theorem stripZeros_ne_nil (h : mpi≠[]) : stripZeros mpi≠[]:=by
  fun_induction stripZeros mpi with
  | case1 c rest ih=>exact ih (by simp)
  | case2 b c rest hb=>simp
  | case3 bs hbs=>exact h

theorem stripZeros_head {b c : UInt8} {rest : Bytes} (h : stripZeros mpi=b::c::rest) : b≠0:=by
  fun_induction stripZeros mpi with
  | case1 c' rest' ih=>exact ih h
  | case2 b' c' rest' hb=>
    obtain ⟨rfl,-⟩:=List.cons.inj h
    exact hb
  | case3 bs hbs=>exact absurd h (hbs b c rest)

theorem padded_length (digits : Bytes) : (padded digits).length ≤ digits.length+1:=by
  unfold padded
  split_ifs <;> simp

theorem intOf_padded (digits : Bytes) : intOf (padded digits)=natOf digits:=by
  unfold padded
  by_cases htop : digits.headD 0 &&& 0x80≠0
  · rw [if_pos htop,intOf,List.headD_cons,if_neg (by decide),natOf,UInt8.toNat_zero,Nat.zero_mul,Nat.zero_add,sub_zero]
  · rw [if_neg htop,intOf,if_neg htop,sub_zero]

theorem intOf_unsigned (mpi : Bytes) : intOf (unsigned mpi)=natOf mpi:=by
  unfold unsigned
  rw [intOf_padded,natOf_stripZeros]

theorem unsigned_length (mpi : Bytes) : (unsigned mpi).length ≤ mpi.length+1:=
  (padded_length _).trans (Nat.succ_le_succ (stripZeros_length mpi))

theorem minimal_unsigned (h : mpi≠[]) : Minimal (unsigned mpi):=by
  unfold unsigned padded
  have hne:=stripZeros_ne_nil h
  cases hdigits : stripZeros mpi with
  | nil=>exact absurd hdigits hne
  | cons b digits=>
    by_cases htop : b &&& 0x80≠0
    · rw [List.headD_cons,if_pos htop]
      exact ⟨fun hzero=>htop hzero.2,fun hone=>absurd hone.1 (by decide)⟩
    · rw [List.headD_cons,if_neg htop]
      cases digits with
      | nil=>trivial
      | cons c digits=>
        constructor
        · exact fun hzero=>stripZeros_head hdigits hzero.1
        · rintro ⟨rfl,-⟩
          exact htop (by decide)

theorem readItem_item (tag : UInt8) (rest : Bytes) (hshort : content.length < 128) :
    readItem tag (item tag content++rest)=some (content,rest):=by
  have hlen : (UInt8.ofNat content.length).toNat=content.length:=by
    rw [UInt8.toNat_ofNat']
    omega
  show (if tag=tag ∧ (UInt8.ofNat content.length).toNat < 128 ∧ (UInt8.ofNat content.length).toNat ≤ (content++rest).length
    then some ((content++rest).take (UInt8.ofNat content.length).toNat,(content++rest).drop (UInt8.ofNat content.length).toNat)
    else none)=_
  rw [hlen,if_pos ⟨rfl,hshort,by simp⟩,List.take_left,List.drop_left]

theorem readInteger_item (rest : Bytes) (hshort : content.length < 128) (hminimal : Minimal content) :
    readInteger (item tagInteger content++rest)=some (intOf content,rest):=by
  unfold readInteger
  rw [readItem_item _ _ hshort]
  exact if_pos hminimal

theorem readPair_item {r s : Bytes} (hshort : (item tagInteger r++item tagInteger s).length < 128) (hr : Minimal r) (hs : Minimal s) :
    readPair (item tagSequence (item tagInteger r++item tagInteger s))=some (intOf r,intOf s):=by
  have hlength:=hshort
  simp only [item,List.length_append,List.length_cons] at hlength
  have hbody:=readItem_item tagSequence [] hshort
  rw [List.append_nil] at hbody
  have hfirst : readInteger (item tagInteger r++item tagInteger s)=some (intOf r,item tagInteger s):=
    readInteger_item _ (by omega) hr
  have hsecond : readInteger (item tagInteger s)=some (intOf s,[]):=by
    have h:=readInteger_item [] (show s.length < 128 by omega) hs
    rwa [List.append_nil] at h
  unfold readPair
  rw [hbody]
  dsimp only
  rw [hfirst]
  dsimp only
  rw [hsecond]

end Magnitudes

end CdcBadge.Der
