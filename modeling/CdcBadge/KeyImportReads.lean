import CdcBadge.KeyImport

/-!
# The bytes that an import reads

The readers of PUT DATA DB as they run over the payload, by addresses and with a look at every
byte. They come to what the payload's bytes say, and look at no byte outside it.
-/

namespace CdcBadge.OpenPgp

open Tlv

def ehlLengthAt (data : Bytes) (stop p : ℕ) : Scan (ℕ × ℕ):=do
  need (p < stop)
  let b ← byteAt data p
  if b < 0x80 then pure (b.toNat,p+1)
  else if b=0x81 then do
    need (p+1 < stop)
    let l ← byteAt data (p+1)
    pure (l.toNat,p+2)
  else if b=0x82 then do
    need (p+2 < stop)
    let l₁ ← byteAt data (p+1)
    let l₀ ← byteAt data (p+2)
    pure (l₁.toNat*256+l₀.toNat,p+3)
  else .giveUp

def ehlTagAt (data : Bytes) (stop p : ℕ) : Scan (ℕ × ℕ):=do
  need (p < stop)
  let t ← byteAt data p
  if t &&& 0x1F=0x1F then do
    need (p+1 < stop)
    let t' ← byteAt data (p+1)
    pure (t.toNat*256+t'.toNat,p+2)
  else pure (t.toNat,p+1)

/-- `ehl_parse_one` in a buffer that ends at `stop`: the tag, and the address and the length of the value. -/
def ehlParseAt (data : Bytes) (stop p : ℕ) : Scan (ℕ × ℕ × ℕ):=do
  let (tag,p) ← ehlTagAt data stop p
  let (len,p) ← ehlLengthAt data stop p
  need (p+len ≤ stop)
  pure (tag,p,len)

def collectAt (data : Bytes) (stop : ℕ) :
    ℕ → ℕ→Option (ℕ × ℕ) × Option (ℕ × ℕ) → Scan (Option (ℕ × ℕ) × Option (ℕ × ℕ))
  | 0, p, found=>if p < stop then .giveUp else pure found
  | fuel+1, p, found=>
    if p < stop then do
      let (tag,place) ← ehlParseAt data stop p
      collectAt data stop fuel (place.1+place.2)
        (if tag=0x7F48 then (some place,found.2) else if tag=0x5F48 then (found.1,some place) else found)
    else pure found

/-- `parse_rsa_import` over a template and values that end at `tstop` and `cstop`. -/
def parseRsaAt (data : Bytes) (tstop cstop : ℕ) :
    ℕ → ℕ → ℕ→Option (ℕ × ℕ) × Option (ℕ × ℕ) × Option (ℕ × ℕ) → Scan ((ℕ × ℕ) × (ℕ × ℕ) × (ℕ × ℕ))
  | fuel, tp, cp, found=>
    if tp < tstop then
      match fuel with
      | 0=>.giveUp
      | fuel+1=>do
        let t ← byteAt data tp
        let (len,tp) ← ehlLengthAt data tstop (tp+1)
        need (cp+len ≤ cstop)
        parseRsaAt data tstop cstop fuel tp (cp+len)
          (if t=0x91 then (some (cp,len),found.2) else if t=0x92 then (found.1,some (cp,len),found.2.2)
            else if t=0x93 then (found.1,found.2.1,some (cp,len)) else found)
    else
      match found with
      | (some e,some p,some q)=>pure (e,p,q)
      | _=>.giveUp

def takeAt (isRsa : Role→Bool) (data : Bytes) (r : Role) : Option (ℕ × ℕ) × Option (ℕ × ℕ) → Scan Import
  | (_,none)=>.giveUp
  | (tmpl,some concat)=>do
    need (concat.2≠0)
    if isRsa r then
      match tmpl with
      | none=>.giveUp
      | some tmpl=>do
        let (e,p,q) ← parseRsaAt data (tmpl.1+tmpl.2) (concat.1+concat.2) tmpl.2 tmpl.1 concat.1
          (none,none,none)
        let e ← copyAt data e.1 e.2
        let p ← copyAt data p.1 p.2
        let q ← copyAt data q.1 q.2
        pure (.rsa r e p q)
    else do
      need (32 ≤ concat.2)
      let scalar ← copyAt data concat.1 32
      pure (.ecc r scalar)

/-- The reading of `cmd_put_data_odd`, by addresses in the payload. -/
def importAt (isRsa : Role→Bool) (data : Bytes) : Scan Import:=do
  let (tag,outer) ← ehlParseAt data data.length 0
  need (tag=0x4D)
  let stop:=outer.1+outer.2
  let (crt,value) ← ehlParseAt data stop outer.1
  match roleForKeyRef (UInt8.ofNat crt) with
  | none=>.giveUp
  | some r=>do
    let found ← collectAt data stop (stop-(value.1+value.2)) (value.1+value.2) (none,none)
    takeAt isRsa data r found

variable {data bs : Bytes} {stop p : ℕ} {places : Option (ℕ × ℕ) × Option (ℕ × ℕ) × Option (ℕ × ℕ)}
  {found : Option Bytes × Option Bytes × Option Bytes}

theorem ehlLengthAt_agrees (h : Rest data stop p bs) :
    Agrees (fun a b=>a.1=b.1 ∧ Rest data stop a.2 b.2) (ehlLengthAt data stop p) (ehlParseOne.ehlLength bs):=by
  unfold ehlLengthAt ehlParseOne.ehlLength
  cases bs with
  | nil=>
    rw [need_false h.nil]
    exact Agrees.giveUp
  | cons b bs=>
    obtain ⟨hlt,hbyte,h⟩:=h.cons
    rw [need_true hlt,hbyte]
    dsimp only [Scan.value_bind]
    split_ifs with hshort hone htwo
    · exact Agrees.value ⟨rfl,h⟩
    · cases bs with
      | nil=>
        rw [need_false h.nil]
        exact Agrees.giveUp
      | cons l bs=>
        obtain ⟨hlt,hbyte,h⟩:=h.cons
        rw [need_true hlt,hbyte]
        exact Agrees.value ⟨rfl,h⟩
    · cases bs with
      | nil=>
        rw [need_false (by have:=h.nil; omega)]
        exact Agrees.giveUp
      | cons l₁ bs=>
        obtain ⟨hlt₁,hbyte₁,h⟩:=h.cons
        cases bs with
        | nil=>
          rw [need_false h.nil]
          exact Agrees.giveUp
        | cons l₀ bs=>
          obtain ⟨hlt₀,hbyte₀,h⟩:=h.cons
          rw [need_true hlt₀,hbyte₁,hbyte₀]
          exact Agrees.value ⟨rfl,h⟩
    · exact Agrees.giveUp

/-- The tag that `ehlParseOne` reads. -/
def ehlTag (bs : Bytes) : Option (ℕ × Bytes):=
  match bs with
  | []=>none
  | t::rest=>
    if t &&& 0x1F=0x1F then
      match rest with
      | []=>none
      | t'::rest=>some (t.toNat*256+t'.toNat,rest)
    else some (t.toNat,rest)

theorem ehlParseOne_eq (bs : Bytes) : ehlParseOne bs=(ehlTag bs).bind fun x=>
    (ehlParseOne.ehlLength x.2).bind fun y=>
      if y.2.length < y.1 then none else some (x.1,y.2.take y.1,y.2.drop y.1):=rfl

theorem ehlTagAt_agrees (h : Rest data stop p bs) :
    Agrees (fun a b=>a.1=b.1 ∧ Rest data stop a.2 b.2) (ehlTagAt data stop p) (ehlTag bs):=by
  unfold ehlTagAt ehlTag
  cases bs with
  | nil=>
    rw [need_false h.nil]
    exact Agrees.giveUp
  | cons t bs=>
    obtain ⟨hlt,hbyte,h⟩:=h.cons
    rw [need_true hlt,hbyte]
    dsimp only [Scan.value_bind]
    split_ifs with hlong
    · cases bs with
      | nil=>
        rw [need_false h.nil]
        exact Agrees.giveUp
      | cons t' bs=>
        obtain ⟨hlt,hbyte,h⟩:=h.cons
        rw [need_true hlt,hbyte]
        exact Agrees.value ⟨rfl,h⟩
    · exact Agrees.value ⟨rfl,h⟩

theorem ehlParseAt_agrees (h : Rest data stop p bs) :
    Agrees (fun a b=>a.1=b.1 ∧ At data a.2 b.2.1 ∧ Rest data stop (a.2.1+a.2.2) b.2.2) (ehlParseAt data stop p)
      (ehlParseOne bs):=by
  rw [ehlParseOne_eq]
  unfold ehlParseAt
  apply Agrees.bind (ehlTagAt_agrees h)
  rintro ⟨tag,p⟩ ⟨tag',bs⟩ ⟨rfl,h⟩
  apply Agrees.bind (ehlLengthAt_agrees h)
  rintro ⟨len,p⟩ ⟨len',bs⟩ ⟨rfl,h⟩
  dsimp only at h ⊢
  have hlength:=h.length
  have hle:=h.le
  split_ifs with hshort
  · rw [need_false (by omega)]
    exact Agrees.giveUp
  · obtain ⟨hfits,hvalue,hrest⟩:=h.split (not_lt.mp hshort)
    rw [need_true hfits]
    exact Agrees.value ⟨rfl,hvalue,hrest⟩

def Found (data : Bytes) : Option (ℕ × ℕ)→Option Bytes→Prop
  | none, none=>True
  | some place, some v=>At data place v
  | _, _=>False

def FoundBoth (data : Bytes) (places : Option (ℕ × ℕ) × Option (ℕ × ℕ)) (found : Option Bytes × Option Bytes) : Prop:=
  Found data places.1 found.1 ∧ Found data places.2 found.2

theorem collectAt_agrees (fuel : ℕ) {bs : Bytes} {p : ℕ} (h : Rest data stop p bs)
    {places : Option (ℕ × ℕ) × Option (ℕ × ℕ)} {found : Option Bytes × Option Bytes} (hfound : FoundBoth data places found) :
    Agrees (FoundBoth data) (collectAt data stop fuel p places) (collectImport fuel bs found):=by
  induction fuel generalizing bs p places found with
  | zero=>
    cases bs with
    | nil=>
      unfold collectAt
      rw [if_neg h.nil]
      exact Agrees.value hfound
    | cons b bs=>
      unfold collectAt
      rw [if_pos h.cons.1]
      exact Agrees.giveUp
  | succ fuel ih=>
    cases bs with
    | nil=>
      unfold collectAt
      rw [if_neg h.nil]
      exact Agrees.value hfound
    | cons b bs=>
      unfold collectAt
      rw [if_pos h.cons.1]
      rw [collectImport_cons]
      apply Agrees.bind (ehlParseAt_agrees h)
      rintro ⟨tag,place⟩ ⟨tag',v,rest⟩ ⟨rfl,hvalue,hrest⟩
      dsimp only at hvalue hrest ⊢
      apply ih hrest
      split_ifs
      · exact ⟨hvalue,hfound.2⟩
      · exact ⟨hfound.1,hvalue⟩
      · exact hfound

def FoundAll (data : Bytes) (places : Option (ℕ × ℕ) × Option (ℕ × ℕ) × Option (ℕ × ℕ))
    (found : Option Bytes × Option Bytes × Option Bytes) : Prop:=
  Found data places.1 found.1 ∧ Found data places.2.1 found.2.1 ∧ Found data places.2.2 found.2.2

theorem allFound_agrees (h : FoundAll data places found) :
    Agrees (fun a b=>At data a.1 b.1 ∧ At data a.2.1 b.2.1 ∧ At data a.2.2 b.2.2)
      (match places with
        | (some e,some p,some q)=>pure (e,p,q)
        | _=>.giveUp) (allFound found):=by
  obtain ⟨e,p,q⟩:=places
  obtain ⟨e',p',q'⟩:=found
  obtain ⟨he,hp,hq⟩:=h
  cases e <;> cases e' <;> first | exact he.elim | cases p <;> cases p' <;>
    first | exact hp.elim | cases q <;> cases q' <;> first | exact hq.elim | exact Agrees.giveUp | exact Agrees.value ⟨he,hp,hq⟩

theorem FoundAll.next (h : FoundAll data places found) {place : ℕ × ℕ} {v : Bytes}
    (hvalue : At data place v) (t : UInt8) :
    FoundAll data (if t=0x91 then (some place,places.2) else if t=0x92 then (places.1,some place,places.2.2)
      else if t=0x93 then (places.1,places.2.1,some place) else places) (numbersFrom found [(t,v)]):=by
  obtain ⟨he,hp,hq⟩:=h
  by_cases h₁ : t=0x91
  · subst h₁
    exact ⟨hvalue,hp,hq⟩
  by_cases h₂ : t=0x92
  · subst h₂
    exact ⟨he,hvalue,hq⟩
  by_cases h₃ : t=0x93
  · subst h₃
    exact ⟨he,hp,hvalue⟩
  rw [if_neg h₁,if_neg h₂,if_neg h₃]
  simp only [numbersFrom,lastFrom_cons,lastFrom_nil,h₁,h₂,h₃,if_false]
  exact ⟨he,hp,hq⟩

theorem parseRsaAt_agrees (fuel : ℕ) {tstop cstop tp cp : ℕ} {tmpl concat : Bytes} (ht : Rest data tstop tp tmpl)
    (hc : Rest data cstop cp concat) (hfound : FoundAll data places found) :
    Agrees (fun a b=>At data a.1 b.1 ∧ At data a.2.1 b.2.1 ∧ At data a.2.2 b.2.2)
      (parseRsaAt data tstop cstop fuel tp cp places) (parseRsaImport fuel tmpl concat found):=by
  induction fuel generalizing tp cp tmpl concat places found with
  | zero=>
    cases tmpl with
    | nil=>
      rw [parseRsaImport_nil]
      unfold parseRsaAt
      rw [if_neg ht.nil]
      exact allFound_agrees hfound
    | cons t tmpl=>
      unfold parseRsaAt
      rw [if_pos ht.cons.1]
      exact Agrees.giveUp
  | succ fuel ih=>
    cases tmpl with
    | nil=>
      rw [parseRsaImport_nil]
      unfold parseRsaAt
      rw [if_neg ht.nil]
      exact allFound_agrees hfound
    | cons t tmpl=>
      obtain ⟨hlt,hbyte,ht⟩:=ht.cons
      unfold parseRsaAt
      rw [if_pos hlt,parseRsaImport_cons]
      dsimp only
      rw [hbyte,Scan.value_bind]
      apply Agrees.bind (ehlLengthAt_agrees ht)
      rintro ⟨len,tp⟩ ⟨len',tmpl⟩ ⟨rfl,ht⟩
      dsimp only at ht ⊢
      have hlength:=hc.length
      have hle:=hc.le
      by_cases hshort : concat.length < len
      · rw [if_pos hshort,need_false (by omega)]
        exact Agrees.giveUp
      · obtain ⟨hfits,hvalue,hrest⟩:=hc.split (not_lt.mp hshort)
        rw [if_neg hshort,need_true hfits,Scan.value_bind]
        exact ih ht hrest (hfound.next hvalue t)

theorem takeAt_agrees (isRsa : Role→Bool) (r : Role) {places : Option (ℕ × ℕ) × Option (ℕ × ℕ)}
    {found : Option Bytes × Option Bytes} (h : FoundBoth data places found) :
    Agrees Eq (takeAt isRsa data r places) (takeImport isRsa r found):=by
  obtain ⟨tmpl,concat⟩:=places
  obtain ⟨tmpl',concat'⟩:=found
  obtain ⟨htmpl,hconcat⟩:=h
  unfold takeAt takeImport
  cases concat with
  | none=>
    cases concat' with
    | none=>exact Agrees.giveUp
    | some concat'=>exact hconcat.elim
  | some concat=>
    cases concat' with
    | none=>exact hconcat.elim
    | some concat'=>
      have hplace : At data concat concat':=hconcat
      have hlength:=hplace.length
      dsimp only [Option.bind_some]
      by_cases hempty : concat'=[]
      · rw [if_pos hempty,need_false (by rw [hlength,hempty]; simp)]
        exact Agrees.giveUp
      have hpos:=List.length_pos_of_ne_nil hempty
      rw [if_neg hempty,need_true (by omega),Scan.value_bind]
      split_ifs with hrole hshort
      · cases tmpl with
        | none=>
          cases tmpl' with
          | none=>exact Agrees.giveUp
          | some tmpl'=>exact htmpl.elim
        | some tmpl=>
          cases tmpl' with
          | none=>exact htmpl.elim
          | some tmpl'=>
            have htmplAt : At data tmpl tmpl':=htmpl
            dsimp only [Option.bind_some]
            rw [← htmplAt.length]
            have hnone : FoundAll data (none,none,none) (none,none,none):=⟨trivial,trivial,trivial⟩
            apply Agrees.bind (parseRsaAt_agrees _ htmplAt.rest hplace.rest hnone)
            rintro ⟨e,p,q⟩ ⟨e',p',q'⟩ ⟨he,hp,hq⟩
            dsimp only at he hp hq ⊢
            rw [he.copied_all,hp.copied_all,hq.copied_all]
            exact Agrees.value rfl
      · rw [need_false (by omega)]
        exact Agrees.giveUp
      · rw [need_true (by omega),Scan.value_bind,hplace.copied (by omega)]
        exact Agrees.value rfl

/-- By its addresses the payload is read as its bytes say, and no byte outside it is read. -/
theorem importAt_eq (isRsa : Role→Bool) (data : Bytes) : importAt isRsa data=Scan.ofOption (parseImport isRsa data):=by
  apply Agrees.eq_ofOption
  have hdata : Rest data data.length 0 data:=⟨Nat.zero_le _,le_rfl,List.take_length⟩
  rw [parseImport_eq]
  unfold importAt
  apply Agrees.bind (ehlParseAt_agrees hdata)
  rintro ⟨tag,outer⟩ ⟨tag',list,trailing⟩ ⟨rfl,houter,-⟩
  dsimp only at houter ⊢
  by_cases htag : tag=0x4D
  · rw [need_true htag,if_neg (not_not.mpr htag),Scan.value_bind]
    apply Agrees.bind (ehlParseAt_agrees houter.rest)
    rintro ⟨crt,value⟩ ⟨crt',v,inner⟩ ⟨rfl,-,hinner⟩
    dsimp only at hinner ⊢
    cases roleForKeyRef (UInt8.ofNat crt) with
    | none=>exact Agrees.giveUp
    | some r=>
      rw [hinner.length]
      have hnone : FoundBoth data (none,none) (none,none):=⟨trivial,trivial⟩
      apply Agrees.bind (collectAt_agrees _ hinner hnone)
      exact fun places found hfound=>takeAt_agrees isRsa r hfound
  · rw [need_false htag,if_pos htag]
    exact Agrees.giveUp

end CdcBadge.OpenPgp
