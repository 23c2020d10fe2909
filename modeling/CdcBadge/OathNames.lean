import CdcBadge.OathListing

/-!
# The names of the credentials

A name of `PUT` is taken apart into period, issuer and account, and put together again out of
the fields that the store keeps of them.
-/

namespace CdcBadge.Oath

open Tropic OathStore

def digitsValue (digits : Bytes) : ℕ:=digits.foldl (fun n byte=>n*10+(byte.toNat-0x30)) 0

theorem digitsValue_append (digits : Bytes) (byte : UInt8) :
    digitsValue (digits++[byte])=digitsValue digits*10+(byte.toNat-0x30):=by
  simp [digitsValue]

theorem digitsValue_lt {digits : Bytes} (h : digits.all isDigit=true) : digitsValue digits < 10^digits.length:=by
  induction digits using List.reverseRecOn with
  | nil=>decide
  | append_singleton digits byte ih=>
    rw [List.all_append,Bool.and_eq_true] at h
    have hvalue:=ih h.1
    have hdigit : byte.toNat ≤ 0x39:=by
      have hbyte : isDigit byte=true:=by simpa using h.2
      simp only [isDigit,Bool.and_eq_true,decide_eq_true_eq] at hbyte
      exact UInt8.le_iff_toNat_le.mp hbyte.2
    rw [digitsValue_append,List.length_append,List.length_singleton,pow_succ]
    omega

theorem decimal_length_le {digits : Bytes} (hne : digits≠[]) (h : digits.all isDigit=true) {n : ℕ}
    (hn : n ≤ digitsValue digits) : (decimal n).length ≤ digits.length:=by
  unfold decimal
  rw [List.length_map,Nat.length_toDigits_le_iff (by decide) (List.length_pos_of_ne_nil hne)]
  exact hn.trans_lt (digitsValue_lt h)

theorem periodOf_eq (digits : Bytes) :
    periodOf digits=if 0 < digitsValue digits then min (digitsValue digits) 0x7FFFFFFF else 30:=by
  change (if 0 < min (digitsValue digits) 0x7FFFFFFF then min (digitsValue digits) 0x7FFFFFFF else 30)=_
  split_ifs <;> omega

theorem periodOf_pos (digits : Bytes) : 0 < periodOf digits:=by
  rw [periodOf_eq]
  split_ifs <;> omega

theorem decimal_periodOf_length {digits : Bytes} (hne : digits≠[]) (h : digits.all isDigit=true)
    (hperiod : periodOf digits≠30) : (decimal (periodOf digits)).length ≤ digits.length:=by
  apply decimal_length_le hne h
  rw [periodOf_eq] at hperiod ⊢
  split_ifs at hperiod ⊢
  · exact min_le_left _ _
  · exact absurd rfl hperiod

theorem zero_notMem_decimal (n : ℕ) : (0 : UInt8) ∉ decimal n:=by
  intro h
  obtain ⟨c,hc,hzero⟩:=List.mem_map.mp h
  have hdigit:=Nat.isDigit_of_mem_toDigits (by decide) (by decide) hc
  simp only [Char.isDigit,Bool.and_eq_true,decide_eq_true_eq] at hdigit
  have hlow : 48 ≤ c.toNat:=UInt32.le_iff_toNat_le.mp hdigit.1
  have hhigh : c.toNat ≤ 57:=UInt32.le_iff_toNat_le.mp hdigit.2
  have hnat:=congrArg UInt8.toNat hzero
  rw [UInt8.toNat_ofNat_of_lt' (by simp only [UInt8.size]; omega)] at hnat
  simp at hnat
  omega

theorem takeWhile_first {sep : UInt8} {text : Bytes} (h : sep∈text) :
    text=text.takeWhile (· ≠ sep)++[sep]++(text.dropWhile (· ≠ sep)).tail:=by
  induction text with
  | nil=>cases h
  | cons byte text ih=>
    by_cases hbyte : byte=sep
    · simp [hbyte]
    · have hmem : sep∈text:=(List.mem_cons.mp h).resolve_left fun heq=>hbyte heq.symm
      simpa [hbyte] using ih hmem

theorem splitFirst_some {sep : UInt8} {text front rest : Bytes} (h : splitFirst sep text=some (front,rest)) :
    text=front++[sep]++rest ∧ sep ∉ front:=by
  unfold splitFirst at h
  split at h
  · rename_i hmem
    simp only [Option.some.injEq,Prod.mk.injEq] at h
    obtain ⟨rfl,rfl⟩:=h
    refine ⟨takeWhile_first hmem,?_⟩
    intro hfront
    have hne:=List.mem_takeWhile_imp hfront
    simp at hne
  · cases h

/-- What stands in front of the account: the digits of a period, where there are any, and an issuer, where there is one. -/
structure Parts (name : Bytes) (period : ℕ) (issuer account front middle rest : Bytes) : Prop where
  text : cstr name=front++rest
  divided : rest=middle++account
  behind : parsePeriod (cstr name)=(period,rest)
  head : front=[] ∧ period=30 ∧
        (∀ digits rest', splitFirst slash (cstr name)=some (digits,rest')→¬(digits≠[] ∧ digits.all isDigit=true)) ∨
      ∃ digits, splitFirst slash (cstr name)=some (digits,rest) ∧ (digits≠[] ∧ digits.all isDigit=true) ∧
        front=digits++[slash] ∧ period=periodOf digits
  label : middle=[] ∧ issuer=[] ∧ splitFirst colon rest=none ∨
      middle=issuer++[colon] ∧ splitFirst colon rest=some (issuer,account)
  bounds : account≠[] ∧ account.length < accountSize

theorem parsePeriod_cases (text : Bytes) :
    parsePeriod text=(30,text) ∧
        (∀ digits rest, splitFirst slash text=some (digits,rest)→¬(digits≠[] ∧ digits.all isDigit=true)) ∨
      ∃ digits rest, splitFirst slash text=some (digits,rest) ∧ (digits≠[] ∧ digits.all isDigit=true) ∧
        parsePeriod text=(periodOf digits,rest):=by
  unfold parsePeriod
  cases hsplit : splitFirst slash text with
  | none=>
    refine Or.inl ⟨rfl,?_⟩
    rintro digits rest ⟨⟩
  | some p=>
    obtain ⟨digits,rest⟩:=p
    dsimp only
    by_cases hdigits : digits≠[] ∧ digits.all isDigit=true
    · exact Or.inr ⟨digits,rest,rfl,hdigits,if_pos hdigits⟩
    · refine Or.inl ⟨if_neg hdigits,?_⟩
      rintro d r ⟨⟩
      exact hdigits

theorem parseYkName_some {name issuer account : Bytes} {period : ℕ} (h : parseYkName name=some (period,issuer,account)) :
    ∃ front middle rest, Parts name period issuer account front middle rest:=by
  unfold parseYkName at h
  split at h
  · cases h
  · dsimp only at h
    split_ifs at h with hissuer haccount
    simp only [Option.some.injEq,Prod.mk.injEq] at h
    obtain ⟨hperiod,hi,ha⟩:=h
    rw [ha,not_or,not_le] at haccount
    generalize hrest : (parsePeriod (cstr name)).2=rest at hi ha
    have hmiddle : ∃ middle, rest=middle++account ∧ (middle=[] ∧ issuer=[] ∧ splitFirst colon rest=none ∨
        middle=issuer++[colon] ∧ splitFirst colon rest=some (issuer,account)):=by
      cases hsplit : splitFirst colon rest with
      | none=>
        rw [hsplit] at hi ha
        subst hi ha
        exact ⟨[],rfl,Or.inl ⟨rfl,rfl,rfl⟩⟩
      | some p=>
        obtain ⟨i,acc⟩:=p
        rw [hsplit] at hi ha
        subst hi ha
        exact ⟨i++[colon],(splitFirst_some hsplit).1,Or.inr ⟨rfl,rfl⟩⟩
    obtain ⟨middle,hrestEq,hmiddle⟩:=hmiddle
    rcases parsePeriod_cases (cstr name) with ⟨hparse,hnone⟩ | ⟨digits,rest',hsplit,hdigits,hparse⟩
    · rw [hparse] at hperiod hrest
      obtain rfl : cstr name=rest:=hrest
      exact ⟨[],middle,cstr name,rfl,hrestEq,by rw [hparse,← hperiod],Or.inl ⟨rfl,hperiod.symm,hnone⟩,hmiddle,haccount⟩
    · rw [hparse] at hperiod hrest
      obtain rfl : rest'=rest:=hrest
      refine ⟨digits++[slash],middle,rest',(splitFirst_some hsplit).1,hrestEq,by rw [hparse,← hperiod],?_,hmiddle,haccount⟩
      exact Or.inr ⟨digits,hsplit,hdigits,rfl,hperiod.symm⟩

theorem parseYkName_short {name : Bytes} {parts : ℕ × Bytes × Bytes} (h : parseYkName name=some parts) :
    name.length < nameSize:=by
  unfold parseYkName at h
  split at h
  · cases h
  · omega

/-- A name that is shown as it was given: no NUL, a period only in front of TOTP, in the digits of a number other than 30, and
an issuer of 1 to 31 bytes where there is a colon behind the period. -/
structure Canonical (type : UInt8) (name : Bytes) : Prop where
  noNul : 0 ∉ name
  period : ∀ digits rest, splitFirst slash name=some (digits,rest)→digits≠[]→digits.all isDigit=true →
    type=otypeTotp ∧ periodOf digits≠30 ∧ decimal (periodOf digits)=digits
  issuer : ∀ issuer account, splitFirst colon (parsePeriod name).2=some (issuer,account) →
    issuer≠[] ∧ issuer.length ≤ issuerLen-1

def shownFront (e : OathEntry) : Bytes:=
  if e.type=otypeTotp ∧ e.period≠0 ∧ e.period≠30 then decimal e.period++[slash] else []

def shownMiddle (e : OathEntry) : Bytes:=if e.issuer≠[] then e.issuer++[colon] else []

theorem nameOf_eq (e : OathEntry) : nameOf e=shownFront e++shownMiddle e++e.name:=rfl

section Shown

variable {name issuer account front middle rest : Bytes} {period : ℕ} {e : OathEntry}

theorem Parts.front_le (hp : Parts name period issuer account front middle rest) (hperiod : e.period=period) :
    (shownFront e).length ≤ front.length:=by
  unfold shownFront
  split
  · rename_i hshown
    rcases hp.head with ⟨-,rfl,-⟩ | ⟨digits,-,⟨hne,hall⟩,rfl,rfl⟩
    · exact absurd hperiod hshown.2.2
    · rw [hperiod] at hshown ⊢
      have hlen:=decimal_periodOf_length hne hall hshown.2.2
      simp only [List.length_append]
      omega
  · exact Nat.zero_le _

theorem Parts.middle_le (hp : Parts name period issuer account front middle rest)
    (hissuer : e.issuer=issuer.take (issuerLen-1)) : (shownMiddle e).length ≤ middle.length:=by
  unfold shownMiddle
  split
  · rename_i hshown
    rcases hp.label with ⟨-,rfl,-⟩ | ⟨rfl,-⟩
    · exact absurd hissuer (by simpa using hshown)
    · have hlen:=List.length_take_le' (issuerLen-1) issuer
      rw [hissuer]
      simp only [List.length_append]
      omega
  · exact Nat.zero_le _

theorem Parts.zero_notMem (hp : Parts name period issuer account front middle rest) :
    (0 : UInt8) ∉ issuer ∧ (0 : UInt8) ∉ account:=by
  have htext:=cstr_noNul name
  rw [hp.text,hp.divided] at htext
  simp only [List.mem_append,not_or] at htext
  refine ⟨?_,htext.2.2⟩
  rcases hp.label with ⟨-,rfl,-⟩ | ⟨rfl,-⟩
  · simp
  · have hmiddle:=htext.2.1
    simp only [List.mem_append,not_or] at hmiddle
    exact hmiddle.1

theorem Parts.nameOf_noNul (hp : Parts name period issuer account front middle rest) (hname : e.name=account)
    (hissuer : e.issuer=issuer.take (issuerLen-1)) : (0 : UInt8) ∉ nameOf e:=by
  obtain ⟨hi,ha⟩:=hp.zero_notMem
  have htake : (0 : UInt8) ∉ e.issuer:=by
    rw [hissuer]
    exact fun h=>hi (List.mem_of_mem_take h)
  have hdecimal:=zero_notMem_decimal e.period
  rw [nameOf_eq,hname]
  unfold shownFront shownMiddle
  split_ifs <;> simp [htake,hdecimal,ha,slash,colon]

theorem nameOf_length_le (h : parseYkName name=some (period,issuer,account)) (hname : e.name=account)
    (hissuer : e.issuer=issuer.take (issuerLen-1)) (hperiod : e.period=period) :
    (nameOf e).length ≤ name.length:=by
  obtain ⟨front,middle,rest,hp⟩:=parseYkName_some h
  have hfront:=hp.front_le hperiod
  have hmiddle:=hp.middle_le hissuer
  have htext:=cstr_length_le name
  rw [hp.text,hp.divided] at htext
  rw [nameOf_eq,hname]
  simp only [List.length_append] at htext ⊢
  omega

theorem nameOf_iff (h : parseYkName name=some (period,issuer,account)) (hname : e.name=account)
    (hissuer : e.issuer=issuer.take (issuerLen-1)) (hperiod : e.period=period) :
    nameOf e=name ↔ Canonical e.type name:=by
  obtain ⟨front,middle,rest,hp⟩:=parseYkName_some h
  constructor
  · intro heq
    have hnul : (0 : UInt8) ∉ name:=heq ▸ hp.nameOf_noNul hname hissuer
    have htext : cstr name=name:=cstr_eq_self hnul
    have hsame : shownFront e++shownMiddle e=front++middle:=by
      have hwhole:=hp.text
      rw [htext,hp.divided,← heq,nameOf_eq,hname,← List.append_assoc] at hwhole
      exact List.append_cancel_right hwhole
    have hlen:=congrArg List.length hsame
    rw [List.length_append,List.length_append] at hlen
    have hfrontLe:=hp.front_le hperiod
    have hmiddleLe:=hp.middle_le hissuer
    obtain ⟨hfront,hmiddle⟩:=List.append_inj hsame (by omega)
    have hbehind:=hp.behind
    have hhead:=hp.head
    rw [htext] at hbehind hhead
    refine ⟨hnul,?_,?_⟩
    · intro digits rest' hsplit hne hall
      rcases hhead with ⟨-,-,hnone⟩ | ⟨digits',hsplit',-,rfl,rfl⟩
      · exact absurd ⟨hne,hall⟩ (hnone digits rest' hsplit)
      · rw [hsplit] at hsplit'
        cases hsplit'
        unfold shownFront at hfront
        split at hfront
        · rename_i hshown
          rw [hperiod] at hfront hshown
          exact ⟨hshown.1,hshown.2.2,List.append_cancel_right hfront⟩
        · simp at hfront
    · intro issuer' account' hsplit
      rw [hbehind] at hsplit
      rcases hp.label with ⟨-,-,hnone⟩ | ⟨rfl,hsplit'⟩
      · rw [hnone] at hsplit
        cases hsplit
      · rw [hsplit] at hsplit'
        cases hsplit'
        unfold shownMiddle at hmiddle
        split at hmiddle
        · rename_i hshown
          have htake:=List.append_cancel_right hmiddle
          rw [htake] at hissuer hshown
          have hlong:=congrArg List.length hissuer
          rw [List.length_take] at hlong
          exact ⟨hshown,by omega⟩
        · simp at hmiddle
  · intro hc
    have htext : cstr name=name:=cstr_eq_self hc.noNul
    have hbehind:=hp.behind
    have hhead:=hp.head
    rw [htext] at hbehind hhead
    have hfront : shownFront e=front:=by
      unfold shownFront
      rcases hhead with ⟨rfl,rfl,-⟩ | ⟨digits,hsplit,⟨hne,hall⟩,rfl,rfl⟩
      · exact if_neg fun hshown=>hshown.2.2 hperiod
      · obtain ⟨htype,hother,hdigits⟩:=hc.period digits rest hsplit hne hall
        have hpos:=periodOf_pos digits
        rw [hperiod,if_pos ⟨htype,by omega,hother⟩,hdigits]
    have hmiddle : shownMiddle e=middle:=by
      unfold shownMiddle
      rcases hp.label with ⟨rfl,rfl,-⟩ | ⟨rfl,hsplit⟩
      · exact if_neg (by simp [hissuer])
      · rw [← show (parsePeriod name).2=rest from congrArg Prod.snd hbehind] at hsplit
        obtain ⟨hne,hlen⟩:=hc.issuer issuer account hsplit
        rw [hissuer,List.take_of_length_le hlen,if_pos hne]
    rw [nameOf_eq,hfront,hmiddle,hname,List.append_assoc,← hp.divided,← hp.text,htext]

end Shown

end CdcBadge.Oath
