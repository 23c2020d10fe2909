import CdcBadge.UsbCrSlot

/-!
# Time-based codes

The badge's own screen shows a code as text and the seconds that it is good for; a host gets the truncated
value for a challenge and formats it itself.
-/

namespace CdcBadge.Totp

open Handler
open Tropic OathStore
open Oath (Account decimal otypeTotp otypeHotp otypeCr)
open UsbCr (accepted entryWritten)

/-- `%0Nlu`. -/
def zeroPadded (width n : ℕ) : Bytes:=List.replicate (width-(decimal n).length) 0x30++decimal n

def snprintf (size : ℕ) (text : Bytes) : Bytes:=text.take (size-1)

def formatCode (code : ℕ) (digits : UInt8) (codeOutLen : ℕ) : Bytes:=
  snprintf codeOutLen (zeroPadded (if digitsMin ≤ digits ∧ digits ≤ digitsMax then digits else digitsMin).toNat code)

/-- What the calls of `time` give: for the check, for the step and for the rest of it. -/
structure Clock where
  check : ℕ
  step : ℕ
  rest : ℕ

def Clock.at (t : ℕ) : Clock:=⟨t,t,t⟩

section Code

variable (hmac : Hmac) (mapSignature : UInt32) (tmYear : ℕ → ℕ)

/-- `tmYear` is the local year of a time, counted from 1900. -/
def isTimeValid (now : ℕ) : Bool:=124 ≤ tmYear now

def timeRemaining (now period : ℕ) : UInt8:=
  let period:=if period=0 then defaultPeriod else period
  UInt8.ofNat (period-now % period)

def noCode : Bytes:=List.replicate 6 0x2D

def generateCode (o : CalcOutcome) (clock : Clock) (slot codeOutLen : ℕ) : StoreM (Bytes × Int8):=
  if codeOutLen=0 then pure ([],-1)
  else do
    match ← readAccount o.read slot with
    | none=>pure ([],-1)
    | some account=>
      if account.type=otypeHotp then
        let code:=generate hmac o.hmac account.secret account.counter account.digits account.algorithm
        if ← persistCounter mapSignature o.write slot account (nextCounter account.counter) then
          pure (formatCode code account.digits codeOutLen,0)
        else pure ([],-1)
      else if isTimeValid tmYear clock.check then
        let period:=if account.period=0 then defaultPeriod else account.period
        let code:=generate hmac o.hmac account.secret (clock.step/period) account.digits account.algorithm
        pure (formatCode code account.digits codeOutLen,(timeRemaining clock.rest account.period).toInt8)
      else pure (snprintf codeOutLen noCode,-1)

/-- A TOTP entry as the store accepts them. -/
structure IsTotp (e : OathEntry) : Prop where
  type : e.type=otypeTotp
  digits : digitsMin ≤ e.digits ∧ e.digits ≤ digitsMax
  period : periodMin ≤ e.period ∧ e.period ≤ periodMax
  secret : e.secret≠[] ∧ e.secret.length ≤ secretLen

def digitsOf : ℕ → ℕ→Bytes
  | 0, _=>[]
  | width+1, n=>digitsOf width (n/10)++[UInt8.ofNat (0x30+n % 10)]

def valueOf (truncated : ByteArr 4) : ℕ:=ofBe64 truncated.toList

/-- The code shown is that of CALCULATE for the time step, and the seconds are those that are left of it. -/
def Agrees (o : CalcOutcome) (t slot codeOutLen : ℕ) (e : OathEntry) (s : Store) : Prop:=
  ∃ truncated digits remaining,
    (calculateForChallenge hmac mapSignature o slot (fit 8 (be64 (t/e.period))) s).1=.ok (some (truncated,digits)) ∧
      (generateCode hmac mapSignature tmYear o (Clock.at t) slot codeOutLen s).1 =
        .ok (digitsOf e.digits.toNat (valueOf truncated % 10^e.digits.toNat),remaining) ∧
      remaining.toInt=e.period-t % e.period ∧ 1 ≤ remaining.toInt ∧ remaining.toInt ≤ e.period

end Code

theorem digit_toNat {d : ℕ} (h : d < 10) : UInt8.ofNat (Nat.digitChar d).toNat=UInt8.ofNat (0x30+d):=by
  rw [Nat.toNat_digitChar_of_lt_ten h]

theorem decimal_eq (n : ℕ) : decimal n=(if n < 10 then [] else decimal (n/10))++[UInt8.ofNat (0x30+n % 10)]:=by
  unfold decimal
  rw [Nat.toDigits_eq_if (by decide)]
  split
  · rename_i h
    rw [List.map_singleton,digit_toNat h,Nat.mod_eq_of_lt h,List.nil_append]
  · rw [List.map_append,List.map_singleton,digit_toNat (Nat.mod_lt n (by decide))]

theorem digitsOf_zero (width : ℕ) : digitsOf width 0=List.replicate width 0x30:=by
  induction width with
  | zero=>rfl
  | succ width ih=>
    rw [digitsOf,Nat.zero_div,ih,List.replicate_succ']
    rfl

theorem zeroPadded_eq {width n : ℕ} (hwidth : 0 < width) (h : n < 10^width) : zeroPadded width n=digitsOf width n:=by
  induction width generalizing n with
  | zero=>omega
  | succ width ih=>
    unfold zeroPadded
    rw [decimal_eq,digitsOf]
    by_cases hsmall : n < 10
    · have hzero : n/10=0:=Nat.div_eq_of_lt hsmall
      rw [if_pos hsmall,hzero,digitsOf_zero]
      rfl
    · rw [if_neg hsmall]
      have hrest : n/10 < 10^width:=by
        rw [pow_succ] at h
        omega
      have hpos : 0 < width:=by
        by_contra hzero
        obtain rfl : width=0:=by omega
        omega
      have hpadded:=ih hpos hrest
      unfold zeroPadded at hpadded
      rw [← List.append_assoc,← hpadded,List.length_append,List.length_singleton,Nat.add_sub_add_right]

theorem digitsOf_length (width n : ℕ) : (digitsOf width n).length=width:=by
  induction width generalizing n with
  | zero=>rfl
  | succ width ih=>rw [digitsOf,List.length_append,ih,List.length_singleton]

theorem valueOf_be32 (n : UInt32) : valueOf (fit 4 (be32 n))=n.toNat:=by
  have hbound:=n.toNat_lt
  show ofBe64 [(n >>> 24).toUInt8,(n >>> 16).toUInt8,(n >>> 8).toUInt8,n.toUInt8]=n.toNat
  simp [ofBe64,Nat.shiftRight_eq_div_pow]
  omega

theorem ofBe64_be64 (n : ℕ) : ofBe64 (be64 n)=n % 2^64:=by
  simp [be64,List.range_succ,ofBe64]
  omega

theorem be64_mod (n : ℕ) : be64 (n % 2^64)=be64 n:=by
  apply List.map_congr_left
  intro i hi
  have hi:=List.mem_range.mp hi
  apply UInt8.toNat_inj.mp
  rw [UInt8.toNat_ofNat',UInt8.toNat_ofNat']
  interval_cases i <;> omega

/-- The moving factor that CALCULATE reads out of a challenge is the one that was put in. -/
theorem be64_challenge (n : ℕ) : be64 (ofBe64 (fit 8 (be64 n)).toList)=be64 n:=by
  have hfit : (fit 8 (be64 n)).toList=be64 n:=rfl
  rw [hfit,ofBe64_be64,be64_mod]

theorem toInt8_iff {n : ℕ} (h : n ≤ periodMax) : (UInt8.ofNat n).toInt8.toInt=n ↔ n ≤ 127:=by
  have hall : ∀ m : Fin 301, (UInt8.ofNat m).toInt8.toInt=(m : ℕ) ↔ (m : ℕ) ≤ 127:=by decide +kernel
  have hmax : periodMax=300:=rfl
  exact hall ⟨n,by omega⟩

section Codes

variable {hmac : Hmac} {mapSignature : UInt32} {tmYear : ℕ → ℕ} {o : CalcOutcome} {s : Store} {slot : ℕ} {e : OathEntry}

theorem calculate_totp (he : credential s.chip slot=some e) (htotp : IsTotp e) (hread : o.read=.done)
    (challenge : ByteArr 8) :
    (calculateForChallenge hmac mapSignature o slot challenge s).1 =
      .ok (truncatedOf hmac o e (ofBe64 challenge.toList)):=by
  have hcr : e.type≠otypeCr:=htotp.type ▸ (by decide)
  have hhotp : e.type≠otypeHotp:=htotp.type ▸ (by decide)
  unfold calculateForChallenge
  rw [hread,bind_of_ok (readAccount_done slot s),he]
  simp only [if_neg hcr,if_neg hhotp]
  rfl

def binaryOf (hmac : Hmac) (e : OathEntry) (counter : ℕ) : UInt32:=
  truncate (hmac (hashAlgorithm e.algorithm) e.secret (be64 counter)).toList

theorem computeTruncated_totp (htotp : IsTotp e) (counter : ℕ) :
    computeTruncated hmac true e.secret counter e.algorithm=some (binaryOf hmac e counter):=by
  obtain ⟨hnonempty,hlength⟩:=htotp.secret
  have hsecret : ¬(e.secret=[] ∨ secretLen < e.secret.length):=by
    rintro (hempty | hlong)
    · exact hnonempty hempty
    · omega
  unfold computeTruncated
  rw [if_neg hsecret]
  rfl

theorem truncatedOf_challenge (htotp : IsTotp e) (h : o.hmac=true) (counter : ℕ) :
    truncatedOf hmac o e (ofBe64 (fit 8 (be64 counter)).toList) =
      some (fit 4 (be32 (binaryOf hmac e counter)),e.digits):=by
  unfold truncatedOf
  rw [h,computeTruncated_totp htotp]
  unfold binaryOf
  rw [be64_challenge]
  rfl

theorem generate_totp (htotp : IsTotp e) (counter : ℕ) :
    generate hmac true e.secret counter e.digits e.algorithm=(binaryOf hmac e counter).toNat % 10^e.digits.toNat:=by
  have hdigits : ¬(e.digits < digitsMin ∨ digitsMax < e.digits):=by
    rw [not_or,UInt8.not_lt,UInt8.not_lt]
    exact htotp.digits
  unfold generate
  rw [if_neg hdigits,computeTruncated_totp htotp]
  rfl

theorem digits_range (htotp : IsTotp e) : 6 ≤ e.digits.toNat ∧ e.digits.toNat ≤ 8:=
  ⟨UInt8.le_iff_toNat_le.mp htotp.digits.1,UInt8.le_iff_toNat_le.mp htotp.digits.2⟩

theorem formatCode_totp (htotp : IsTotp e) (value : ℕ) {codeOutLen : ℕ} (hlen : 9 ≤ codeOutLen) :
    formatCode (value % 10^e.digits.toNat) e.digits codeOutLen =
      digitsOf e.digits.toNat (value % 10^e.digits.toNat):=by
  obtain ⟨hlow,hhigh⟩:=digits_range htotp
  have hvalue : value % 10^e.digits.toNat < 10^e.digits.toNat:=Nat.mod_lt _ (by positivity)
  unfold formatCode snprintf
  rw [if_pos htotp.digits,zeroPadded_eq (by omega) hvalue]
  apply List.take_of_length_le
  rw [digitsOf_length]
  omega

theorem period_ne (htotp : IsTotp e) : e.period≠0:=by
  have hperiod:=htotp.period.1
  have hmin : periodMin=15:=rfl
  omega

theorem generateCode_totp (he : credential s.chip slot=some e) (htotp : IsTotp e) (hread : o.read=.done)
    {t codeOutLen : ℕ} (hvalid : isTimeValid tmYear t=true) (hlen : 9 ≤ codeOutLen) :
    (generateCode hmac mapSignature tmYear o (Clock.at t) slot codeOutLen s).1 =
      .ok (formatCode (generate hmac o.hmac e.secret (t/e.period) e.digits e.algorithm) e.digits codeOutLen,
        (UInt8.ofNat (e.period-t % e.period)).toInt8):=by
  have hsize : codeOutLen≠0:=by omega
  have hhotp : e.type≠otypeHotp:=htotp.type ▸ (by decide)
  have hcheck : isTimeValid tmYear (Clock.at t).check=true:=hvalid
  unfold generateCode timeRemaining
  rw [if_neg hsize,hread,bind_of_ok (readAccount_done slot s),he]
  simp only [if_neg hhotp,if_pos hcheck,if_neg (period_ne htotp)]
  rfl

theorem calculate_unread (he : credential s.chip slot=some e) (hread : o.read≠.done) (challenge : ByteArr 8)
    (code : ByteArr 4 × UInt8) :
    (calculateForChallenge hmac mapSignature o slot challenge s).1≠.ok (some code):=by
  intro hcalculate
  unfold calculateForChallenge at hcalculate
  cases ho : o.read with
  | done=>exact hread ho
  | failed code applied=>
    rw [ho,bind_of_ok (readAccount_failed code applied slot s)] at hcalculate
    cases hcalculate
  | powerLost applied=>
    rw [ho,bind_of_error (readAccount_lost applied (credential_some he).1 s)] at hcalculate
    cases hcalculate

end Codes

/-- For a TOTP entry, the code shown is that of CALCULATE with the seconds that are left exactly where the entry is read,
the hash is computed and no more than 127 seconds are left. -/
theorem totp_agrees_iff (hmac : Hmac) (mapSignature : UInt32) (tmYear : ℕ → ℕ) (o : CalcOutcome) (t slot codeOutLen : ℕ)
    (e : OathEntry) (s : Store) (he : credential s.chip slot=some e) (htotp : IsTotp e)
    (hvalid : isTimeValid tmYear t=true) (hlen : 9 ≤ codeOutLen) :
    Agrees hmac mapSignature tmYear o t slot codeOutLen e s ↔
      o.read=.done ∧ o.hmac=true ∧ e.period-t % e.period ≤ 127:=by
  have hstep : t % e.period < e.period:=Nat.mod_lt t (Nat.pos_of_ne_zero (period_ne htotp))
  have hrest : e.period-t % e.period ≤ periodMax:=(Nat.sub_le _ _).trans htotp.period.2
  constructor
  · rintro ⟨truncated,digits,remaining,hcalculate,hshown,hremaining,-⟩
    have hread : o.read=.done:=by
      by_contra hread
      exact calculate_unread he hread _ _ hcalculate
    rw [calculate_totp he htotp hread] at hcalculate
    have hhmac : o.hmac=true:=by
      cases h : o.hmac with
      | true=>rfl
      | false=>
        unfold truncatedOf computeTruncated at hcalculate
        rw [h] at hcalculate
        simp at hcalculate
    rw [generateCode_totp he htotp hread hvalid hlen] at hshown
    obtain rfl:=(Prod.mk.inj (Except.ok.inj hshown)).2
    refine ⟨hread,hhmac,(toInt8_iff hrest).mp ?_⟩
    omega
  · rintro ⟨hread,hhmac,hshort⟩
    have hseconds:=(toInt8_iff hrest).mpr hshort
    refine ⟨fit 4 (be32 (binaryOf hmac e (t/e.period))),e.digits,(UInt8.ofNat (e.period-t % e.period)).toInt8,
      ?_,?_,?_,?_,?_⟩
    · rw [calculate_totp he htotp hread,truncatedOf_challenge htotp hhmac]
    · rw [generateCode_totp he htotp hread hvalid hlen,hhmac,generate_totp htotp,valueOf_be32,
        formatCode_totp htotp _ hlen]
    · omega
    · omega
    · omega

def slowEntry : OathEntry where
  type:=otypeTotp
  name:=[0x61]
  issuer:=[]
  secret:=[1]
  algorithm:=0
  digits:=8
  period:=300
  counter:=0
  flags:=0

def slowStore : Store:=UsbCr.blank.put 31 (some (stored (slowEntry.account 0)))

def utcYear (now : ℕ) : ℕ:=if now < 1704067200 then 123 else 124

theorem slowEntry_isTotp : IsTotp slowEntry where
  type:=rfl
  digits:=by decide
  period:=by decide
  secret:=by decide

/-- With 100 seconds left. -/
theorem totp_agrees_late :
    Agrees UsbCr.plainHmac 0 utcYear {} 1704067400 0 9 slowEntry slowStore ↔
      CalcOutcome.read {}=.done ∧ CalcOutcome.hmac {}=true ∧ slowEntry.period-1704067400 % slowEntry.period ≤ 127:=
  totp_agrees_iff UsbCr.plainHmac 0 utcYear {} 1704067400 0 9 slowEntry slowStore (by decide +kernel) slowEntry_isTotp
    (by decide) (by decide)

/-- At the start of a step, 300 seconds come out as 44. -/
theorem totp_wraps :
    ¬∀ (hmac : Hmac) (mapSignature : UInt32) (tmYear : ℕ → ℕ) (t slot codeOutLen : ℕ) (e : OathEntry) (s : Store),
      credential s.chip slot=some e → IsTotp e→isTimeValid tmYear t=true → 9 ≤ codeOutLen →
        Agrees hmac mapSignature tmYear {} t slot codeOutLen e s:=by
  intro h
  have hslow : credential slowStore.chip 0=some slowEntry:=by decide +kernel
  obtain ⟨truncated,digits,remaining,-,hshown,hremaining,-⟩:=
    h UsbCr.plainHmac 0 utcYear 1704067200 0 9 slowEntry slowStore hslow slowEntry_isTotp (by decide) (by decide)
  rw [generateCode_totp hslow slowEntry_isTotp rfl (by decide) (by decide)] at hshown
  obtain rfl:=(Prod.mk.inj (Except.ok.inj hshown)).2
  exact absurd hremaining (by decide +kernel)

end CdcBadge.Totp
