import CdcBadge.AuthenticatorData
import CdcBadge.Der
import CdcBadge.PivApplet

/-!
# ECDSA signatures in DER

The badge turns the two 32-byte numbers of a signature into DER in three places, which strip zero bytes by different rules
and come to the same bytes.
-/

namespace CdcBadge.Signatures

open Der

namespace Storage

/-- The zero bytes that the loop skips: a zero stays before a byte with its top bit set. -/
def skip : Bytes→Bytes
  | b::c::rest=>if b=0 ∧ c &&& 0x80=0 then skip (c::rest) else b::c::rest
  | mpi=>mpi

def encodeDerInteger (mpi : Bytes) : Bytes:=
  let actual:=skip mpi
  let pad : ℕ:=if actual.headD 0 &&& 0x80≠0 then 1 else 0
  [0x02,UInt8.ofNat (pad+actual.length)]++List.replicate pad 0x00++actual

def rawSigToDer (rawSig : ByteArr 64) : Bytes:=
  let integers:=encodeDerInteger (rawSig.toList.take 32)++encodeDerInteger (rawSig.toList.drop 32)
  [0x30,UInt8.ofNat integers.length]++integers

end Storage

namespace Attest

def skip : Bytes→Bytes
  | b::c::rest=>if b=0 then skip (c::rest) else b::c::rest
  | mpi=>mpi

def encodeDerInteger (mpi : Bytes) : Bytes:=
  let actual:=skip mpi
  let pad : ℕ:=if actual.headD 0 &&& 0x80≠0 then 1 else 0
  [0x02,UInt8.ofNat (pad+actual.length)]++List.replicate pad 0x00++actual

/-- What `u2f_attest_sign` makes of the signature of the secure element. -/
def signature (rawSig : ByteArr 64) : Bytes:=
  let body:=encodeDerInteger (rawSig.toList.take 32)++encodeDerInteger (rawSig.toList.drop 32)
  [0x30,UInt8.ofNat body.length]++body

end Attest

namespace Piv

/-- How many zero bytes stand in front, at most `limit`. -/
def start : ℕ→Bytes → ℕ
  | limit+1, b::rest=>if b=0 then start limit rest+1 else 0
  | _, _=>0

def derInteger (in32 : Bytes) (outCap : ℕ) : Option Bytes:=
  let start:=start 31 in32
  let needPad:=decide (in32.getD start 0 &&& 0x80≠0)
  let contentLen:=(32-start)+if needPad then 1 else 0
  if outCap < 2+contentLen then none
  else some ([0x02,UInt8.ofNat contentLen]++(if needPad then [0x00] else [])++(in32.drop start).take (32-start))

def derEncodeEcdsaSig (rs : ByteArr 64) (outCap : ℕ) : Option Bytes:=
  match derInteger (rs.toList.take 32) 80 with
  | none=>none
  | some r=>
    match derInteger (rs.toList.drop 32) (80-r.length) with
    | none=>none
    | some s=>
      let body:=r++s
      if outCap < 2+body.length then none else some ([0x30,UInt8.ofNat body.length]++body)

end Piv

def der (rs : ByteArr 64) : Bytes:=
  item tagSequence (item tagInteger (unsigned (rs.toList.take 32))++item tagInteger (unsigned (rs.toList.drop 32)))

/-- The three encoders give these bytes, which are read as the two numbers of the signature and have no redundant byte. -/
structure Encodes (rs : ByteArr 64) (out : Bytes) : Prop where
  storage : Storage.rawSigToDer rs=out
  attest : Attest.signature rs=out
  piv : ∀ outCap, Piv.derEncodeEcdsaSig rs outCap=if outCap < out.length then none else some out
  read : readPair out=some ((natOf (rs.toList.take 32) : ℤ),(natOf (rs.toList.drop 32) : ℤ))
  minimal : ∃ r s, out=item tagSequence (item tagInteger r++item tagInteger s) ∧ Minimal r ∧ Minimal s
  length : out.length ≤ 72

section Encoders

variable {mpi : Bytes} {rs : ByteArr 64}

/-- Both rules pad alike: the zero that the look-ahead keeps is the one that is put back after all are gone. -/
theorem padded_skip (mpi : Bytes) : padded (Storage.skip mpi)=unsigned mpi:=by
  unfold unsigned
  induction mpi with
  | nil=>rfl
  | cons b tail ih=>
    cases tail with
    | nil=>rfl
    | cons c rest=>
      rw [Storage.skip]
      split_ifs with hb
      · rw [ih]
        obtain ⟨rfl,-⟩:=hb
        rfl
      · by_cases hzero : b=0
        · have htop : ¬c &&& 0x80=0:=fun hclear=>hb ⟨hzero,hclear⟩
          have hc : c≠0:=by
            rintro rfl
            exact htop (by decide)
          have hstays : stripZeros (c::rest)=c::rest:=by
            cases rest with
            | nil=>rfl
            | cons d rest=>exact if_neg hc
          subst hzero
          rw [stripZeros,if_pos rfl,hstays,padded,padded,List.headD_cons,List.headD_cons,if_neg (by decide),if_pos htop]
        · rw [stripZeros,if_neg hzero]

theorem storage_integer (mpi : Bytes) : Storage.encodeDerInteger mpi=item tagInteger (unsigned mpi):=by
  rw [← padded_skip,padded]
  unfold Storage.encodeDerInteger
  dsimp only
  split_ifs
  · simp [item,tagInteger,Nat.add_comm 1]
  · simp [item,tagInteger]

theorem attest_skip (mpi : Bytes) : Attest.skip mpi=stripZeros mpi:=by
  induction mpi with
  | nil=>rfl
  | cons b tail ih=>
    cases tail with
    | nil=>rfl
    | cons c rest=>rw [Attest.skip,stripZeros,ih]

theorem attest_integer (mpi : Bytes) : Attest.encodeDerInteger mpi=item tagInteger (unsigned mpi):=by
  unfold Attest.encodeDerInteger unsigned padded
  dsimp only
  rw [attest_skip]
  split_ifs
  · simp [item,tagInteger,Nat.add_comm 1]
  · simp [item,tagInteger]

/-- Of a magnitude one byte longer than the limit, what is stripped is what is skipped. -/
theorem drop_start (limit : ℕ) (h : mpi.length=limit+1) :
    mpi.drop (Piv.start limit mpi)=stripZeros mpi ∧ Piv.start limit mpi ≤ limit:=by
  induction limit generalizing mpi with
  | zero=>
    obtain ⟨b,rfl⟩:=List.length_eq_one_iff.mp h
    exact ⟨rfl,le_rfl⟩
  | succ limit ih=>
    obtain ⟨b,rest,rfl⟩:=List.exists_cons_of_length_eq_add_one h
    obtain ⟨c,rest,rfl⟩:=List.exists_cons_of_length_eq_add_one (Nat.succ.inj h)
    unfold Piv.start stripZeros
    by_cases hb : b=0
    · obtain ⟨hdrop,hle⟩:=@ih (c::rest) (Nat.succ.inj h)
      rw [if_pos hb,if_pos hb,List.drop_succ_cons]
      exact ⟨hdrop,Nat.succ_le_succ hle⟩
    · rw [if_neg hb,if_neg hb]
      exact ⟨rfl,Nat.zero_le _⟩

theorem piv_integer (h : mpi.length=32) (outCap : ℕ) : Piv.derInteger mpi outCap =
    if outCap < (item tagInteger (unsigned mpi)).length then none else some (item tagInteger (unsigned mpi)):=by
  obtain ⟨hdrop,hle⟩:=drop_start 31 h
  have hhead : mpi.getD (Piv.start 31 mpi) 0=(stripZeros mpi).headD 0:=by
    rw [← hdrop,List.getD_eq_getElem?_getD,List.headD_eq_head?_getD,List.head?_drop]
  have hlength : (stripZeros mpi).length=32-Piv.start 31 mpi:=by
    rw [← hdrop,List.length_drop,h]
  unfold Piv.derInteger unsigned padded
  dsimp only
  rw [hhead,hdrop,← hlength,List.take_length]
  by_cases htop : (stripZeros mpi).headD 0 &&& 0x80≠0
  · rw [decide_eq_true htop,if_pos htop,if_pos rfl,Nat.add_comm 2]
    rfl
  · rw [decide_eq_false htop,if_neg htop,if_neg Bool.false_ne_true,if_neg Bool.false_ne_true,Nat.add_comm 2]
    rfl

theorem item_unsigned_length (h : mpi.length=32) : (item tagInteger (unsigned mpi)).length ≤ 35:=by
  have hlength:=unsigned_length mpi
  simp only [item,List.length_cons]
  omega

theorem attest_signature (rs : ByteArr 64) : Attest.signature rs=der rs:=by
  unfold Attest.signature
  rw [attest_integer,attest_integer]
  rfl

theorem der_length (rs : ByteArr 64) : (der rs).length ≤ 72:=by
  have hr : (item tagInteger (unsigned (rs.toList.take 32))).length ≤ 35:=item_unsigned_length (by simp)
  have hs : (item tagInteger (unsigned (rs.toList.drop 32))).length ≤ 35:=item_unsigned_length (by simp)
  show (_::_::(_++_ : Bytes)).length ≤ 72
  simp only [List.length_cons,List.length_append]
  omega

end Encoders

/-- The three encoders agree on every signature, and their bytes are the minimal DER of its two numbers. -/
theorem encoders_agree (rs : ByteArr 64) : Encodes rs (der rs):=by
  have hr : (rs.toList.take 32).length=32:=by simp
  have hs : (rs.toList.drop 32).length=32:=by simp
  have hrLength:=item_unsigned_length hr
  have hsLength:=item_unsigned_length hs
  have hminimal : ∀ mpi : Bytes, mpi.length=32→Minimal (unsigned mpi):=by
    intro mpi h
    exact minimal_unsigned (List.ne_nil_of_length_pos (by omega))
  constructor
  · unfold Storage.rawSigToDer
    rw [storage_integer,storage_integer]
    rfl
  · exact attest_signature rs
  · intro outCap
    unfold Piv.derEncodeEcdsaSig
    rw [piv_integer hr,if_neg (by omega)]
    dsimp only
    rw [piv_integer hs,if_neg (by omega)]
    dsimp only
    rw [Nat.add_comm 2]
    rfl
  · rw [← intOf_unsigned,← intOf_unsigned]
    apply readPair_item
    · rw [List.length_append]
      omega
    · exact hminimal _ hr
    · exact hminimal _ hs
  · exact ⟨_,_,rfl,hminimal _ hr,hminimal _ hs⟩
  · exact der_length rs

section Applets

variable {mpi : Bytes}

theorem dropWhile_zero (h : mpi≠[]) : mpi.dropWhile (· == 0)=[] ∧ stripZeros mpi=[0] ∨
    ∃ b rest, mpi.dropWhile (· == 0)=b::rest ∧ stripZeros mpi=b::rest:=by
  fun_induction stripZeros mpi with
  | case1 c rest ih=>exact ih (by simp)
  | case2 b c rest hb=>exact .inr ⟨b,c::rest,List.dropWhile_cons_of_neg (by simpa using hb),rfl⟩
  | case3 mpi hmpi=>
    obtain ⟨b,rest,rfl⟩:=List.exists_cons_of_ne_nil h
    cases rest with
    | cons c rest=>exact absurd rfl (hmpi b c rest)
    | nil=>
      by_cases hb : b=0
      · rw [hb]
        exact .inl ⟨rfl,rfl⟩
      · exact .inr ⟨b,[],List.dropWhile_cons_of_neg (by simpa using hb),rfl⟩

theorem rawSigToDer_eq (rs : ByteArr 64) : Fido2.rawSigToDer rs=der rs:=by
  have hinteger : ∀ mpi : Bytes, mpi.length=32→Fido2.encodeDerInteger mpi=item tagInteger (unsigned mpi):=by
    intro mpi h
    unfold Fido2.encodeDerInteger unsigned
    rcases dropWhile_zero (List.ne_nil_of_length_pos (show 0 < mpi.length by omega)) with ⟨hdrop,hstrip⟩ | ⟨b,rest,hdrop,hstrip⟩
    · rw [hdrop,hstrip]
      rfl
    · rw [hdrop,hstrip]
      rfl
  unfold Fido2.rawSigToDer
  rw [hinteger _ (by simp),hinteger _ (by simp)]
  rfl

theorem derEncodeEcdsaSig_eq (rs : ByteArr 64) : CdcBadge.Piv.derEncodeEcdsaSig rs=der rs:=by
  have htake : ∀ (limit : ℕ) (mpi : Bytes), mpi.length=limit+1 →
      (mpi.take limit).dropWhile (· = 0)++mpi.drop limit=stripZeros mpi:=by
    intro limit
    induction limit with
    | zero=>
      intro mpi h
      obtain ⟨b,rfl⟩:=List.length_eq_one_iff.mp h
      rfl
    | succ limit ih=>
      intro mpi h
      obtain ⟨b,rest,rfl⟩:=List.exists_cons_of_length_eq_add_one h
      obtain ⟨c,rest,rfl⟩:=List.exists_cons_of_length_eq_add_one (Nat.succ.inj h)
      rw [List.take_succ_cons,List.drop_succ_cons,stripZeros]
      by_cases hb : b=0
      · rw [if_pos hb,List.dropWhile_cons_of_pos (by simpa using hb)]
        exact ih (c::rest) (Nat.succ.inj h)
      · rw [if_neg hb,List.dropWhile_cons_of_neg (by simpa using hb),List.cons_append,List.take_append_drop]
  have hinteger : ∀ mpi : Bytes, mpi.length=32 → CdcBadge.Piv.derInteger mpi=item tagInteger (unsigned mpi):=by
    intro mpi h
    unfold CdcBadge.Piv.derInteger
    dsimp only
    rw [htake 31 mpi h]
    rfl
  unfold CdcBadge.Piv.derEncodeEcdsaSig
  rw [hinteger _ (by simp),hinteger _ (by simp)]
  rfl

end Applets

end CdcBadge.Signatures
