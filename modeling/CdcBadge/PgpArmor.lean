import CdcBadge.Base64

/-!
# ASCII armor

Text in lines of so many columns, and the armor that key packets are exported in: Base64 in
lines of 64 columns with a checksum behind it.
-/

namespace CdcBadge.Armor

def crlf : Bytes:=[0x0D,0x0A]

def wrap (columns : ℕ) : ℕ→Bytes→Bytes
  | fuel+1, b::bs=>(b::bs).take columns++crlf++wrap columns fuel ((b::bs).drop columns)
  | _, _=>[]

/-- The text of the lines before the one that starts with the mark. Only the last of them may be short. -/
def unwrap (columns : ℕ) (mark : UInt8) : ℕ→Bytes→Option (Bytes × Bytes)
  | 0, _=>none
  | fuel+1, text=>
    if text.head? = some mark then some ([],text)
    else
      let line:=text.takeWhile (· ≠ 0x0D)
      let rest:=text.dropWhile (· ≠ 0x0D)
      if rest.take 2≠crlf ∨ line=[] ∨ columns < line.length then none
      else if line.length < columns ∧ (rest.drop 2).head? ≠ some mark then none
      else (unwrap columns mark fuel (rest.drop 2)).map fun r=>(line++r.1,r.2)

section Lines

variable {columns : ℕ} {mark : UInt8} {tail : Bytes}

theorem takeWhile_line {line : Bytes} (hline : 0x0D ∉ line) (rest : Bytes) :
    (line++crlf++rest).takeWhile (· ≠ 0x0D)=line ∧
      (line++crlf++rest).dropWhile (· ≠ 0x0D)=crlf++rest:=by
  induction line with
  | nil=>exact ⟨rfl,rfl⟩
  | cons b line ih=>
    simp only [List.mem_cons,not_or] at hline
    have hb : b≠0x0D:=fun h=>hline.1 h.symm
    obtain ⟨htake,hdrop⟩:=ih hline.2
    simp only [List.cons_append,List.takeWhile_cons,List.dropWhile_cons,hb,ne_eq,not_false_eq_true,
      decide_true,if_true]
    exact ⟨congrArg (b :: ·) htake,hdrop⟩

/-- Wrapped text is read again, up to a line that starts with a mark, where no line of it does. -/
theorem unwrap_wrap (hcolumns : 0 < columns) (htail : tail.head? = some mark) {n : ℕ} {text : Bytes}
    (hn : text.length ≤ n) (hcr : 0x0D ∉ text) (hmark : ∀ i, columns ∣ i→text[i]? ≠ some mark) {fuel : ℕ}
    (hfuel : n < fuel) : unwrap columns mark fuel (wrap columns n text++tail)=some (text,tail):=by
  induction n generalizing text fuel with
  | zero=>
    obtain rfl : text=[]:=List.length_eq_zero_iff.mp (by omega)
    obtain ⟨f,rfl⟩:=Nat.exists_eq_add_of_lt hfuel
    simp [wrap,unwrap,htail]
  | succ n ih=>
    obtain ⟨f,rfl⟩ : ∃ f, fuel=f+1:=⟨fuel-1,by omega⟩
    cases htext : text with
    | nil=>simp [wrap,unwrap,htail]
    | cons b bs=>
      rw [htext] at hn hcr hmark
      let line:=(b::bs).take columns
      let more:=(b::bs).drop columns
      have hsplit : line++more=b::bs:=List.take_append_drop _ _
      have hlength : line.length=min columns (b::bs).length:=List.length_take
      have hline : line≠[]:=by
        apply List.ne_nil_of_length_pos
        rw [hlength,List.length_cons]
        omega
      have hcrLine : 0x0D ∉ line:=fun h=>hcr (List.mem_of_mem_take h)
      have hcrMore : 0x0D ∉ more:=fun h=>hcr (List.mem_of_mem_drop h)
      have hmarkMore : ∀ i, columns ∣ i→more[i]? ≠ some mark:=by
        intro i hi
        rw [List.getElem?_drop]
        exact hmark (columns+i) (Nat.dvd_add (Nat.dvd_refl _) hi)
      have hmore : more.length ≤ n:=by
        change ((b::bs).drop columns).length ≤ n
        rw [List.length_drop]
        omega
      have hfuel' : n < f:=by omega
      have hrest:=ih hmore hcrMore hmarkMore hfuel'
      have hwrap : wrap columns (n+1) (b::bs)++tail=line++crlf++(wrap columns n more++tail):=by
        simp [wrap,line,more]
      have hhead : (line++crlf++(wrap columns n more++tail)).head? ≠ some mark:=by
        have hfirst:=hmark 0 (dvd_zero _)
        rw [← hsplit] at hfirst
        cases hcase : line with
        | nil=>exact absurd hcase hline
        | cons c cs=>
          rw [hcase] at hfirst
          simpa using hfirst
      obtain ⟨htake,hdrop⟩:=takeWhile_line hcrLine (wrap columns n more++tail)
      rw [hwrap]
      unfold unwrap
      simp only [hhead,if_false,htake,hdrop]
      have hshort : ¬(line.length < columns ∧ ((crlf++(wrap columns n more++tail)).drop 2).head? ≠ some mark):=by
        rintro ⟨hlt,hne⟩
        have hnone : more=[]:=by
          apply List.drop_eq_nil_of_le
          rw [hlength] at hlt
          omega
        apply hne
        rw [hnone]
        cases n <;> simpa [crlf,wrap] using htail
      have hcrlf : ¬((crlf++(wrap columns n more++tail)).take 2≠crlf ∨ line=[] ∨ columns < line.length):=by
        simp only [not_or,not_not]
        refine ⟨rfl,hline,?_⟩
        rw [hlength]
        omega
      rw [if_neg hcrlf,if_neg hshort]
      change (unwrap columns mark f (wrap columns n more++tail)).map _=_
      rw [hrest]
      simp [hsplit]

theorem length_wrap (hcolumns : 0 < columns) {n : ℕ} {text : Bytes} (hn : text.length ≤ n) :
    (wrap columns n text).length=text.length+(text.length+columns-1)/columns*2:=by
  induction n generalizing text with
  | zero=>
    obtain rfl : text=[]:=List.length_eq_zero_iff.mp (by omega)
    have hzero : (columns-1)/columns=0:=Nat.div_eq_of_lt (by omega)
    simp [wrap,hzero]
  | succ n ih=>
    cases text with
    | nil=>
      have hzero : (columns-1)/columns=0:=Nat.div_eq_of_lt (by omega)
      simp [wrap,hzero]
    | cons b bs=>
      have hmore : ((b::bs).drop columns).length ≤ n:=by
        rw [List.length_drop]
        simp only [List.length_cons] at hn ⊢
        omega
      have hlines : ((b::bs).length+columns-1)/columns =
          (((b::bs).drop columns).length+columns-1)/columns+1:=by
        rw [List.length_drop]
        rcases Nat.lt_or_ge columns (b::bs).length with hlong | hshort
        · rw [← Nat.add_div_right _ hcolumns]
          congr 1
          omega
        · have hone : (b::bs).length-columns=0:=by omega
          have hzero : (columns-1)/columns=0:=Nat.div_eq_of_lt (by omega)
          rw [hone,Nat.zero_add,hzero]
          apply Nat.div_eq_of_lt_le
          · simp only [List.length_cons]
            omega
          · simp only [List.length_cons] at hshort ⊢
            omega
      have hwrap : wrap columns (n+1) (b::bs) =
          (b::bs).take columns++crlf++wrap columns n ((b::bs).drop columns):=rfl
      have hcrlf : crlf.length=2:=rfl
      rw [hwrap,hlines,List.length_append,List.length_append,ih hmore,List.length_take,List.length_drop,hcrlf]
      omega

end Lines

theorem digit_ne {n : ℕ} (h : n < 64) : Base64.digit n≠0x0D ∧ Base64.digit n≠0x3D:=by
  have hall : ∀ m : Fin 64, Base64.digit m.val≠0x0D ∧ Base64.digit m.val≠0x3D:=by decide +kernel
  exact hall ⟨n,h⟩

/-- There is no line break in Base64 text, and no group of four starts with padding. -/
theorem encode_line (data : Bytes) :
    0x0D ∉ Base64.encode data ∧ ∀ i, 4 ∣ i→(Base64.encode data)[i]? ≠ some 0x3D:=by
  induction data using Base64.encode.induct with
  | case1 a b c rest ih=>
    have ha:=a.toNat_lt
    have hb:=b.toNat_lt
    have hc:=c.toNat_lt
    obtain ⟨h₀,h₀'⟩:=digit_ne (n:=a.toNat/4) (by omega)
    obtain ⟨h₁,-⟩:=digit_ne (n:=a.toNat % 4*16+b.toNat/16) (by omega)
    obtain ⟨h₂,-⟩:=digit_ne (n:=b.toNat % 16*4+c.toNat/64) (by omega)
    obtain ⟨h₃,-⟩:=digit_ne (n:=c.toNat % 64) (by omega)
    constructor
    · simp [Base64.encode,ih.1,h₀.symm,h₁.symm,h₂.symm,h₃.symm]
    · rintro i ⟨k,rfl⟩
      cases k with
      | zero=>simpa [Base64.encode] using h₀'
      | succ k=>
        have hgroup : 4*(k+1)=4*k+1+1+1+1:=by omega
        simp only [Base64.encode,hgroup,List.getElem?_cons_succ]
        exact ih.2 (4*k) (dvd_mul_right _ _)
  | case2 a b=>
    have ha:=a.toNat_lt
    have hb:=b.toNat_lt
    obtain ⟨h₀,h₀'⟩:=digit_ne (n:=a.toNat/4) (by omega)
    obtain ⟨h₁,-⟩:=digit_ne (n:=a.toNat % 4*16+b.toNat/16) (by omega)
    obtain ⟨h₂,-⟩:=digit_ne (n:=b.toNat % 16*4) (by omega)
    constructor
    · simp [Base64.encode,h₀.symm,h₁.symm,h₂.symm]
    · rintro i ⟨k,rfl⟩
      cases k with
      | zero=>simpa [Base64.encode] using h₀'
      | succ k=>simp [Base64.encode]
  | case3 a=>
    have ha:=a.toNat_lt
    obtain ⟨h₀,h₀'⟩:=digit_ne (n:=a.toNat/4) (by omega)
    obtain ⟨h₁,-⟩:=digit_ne (n:=a.toNat % 4*16) (by omega)
    constructor
    · simp [Base64.encode,h₀.symm,h₁.symm]
    · rintro i ⟨k,rfl⟩
      cases k with
      | zero=>simpa [Base64.encode] using h₀'
      | succ k=>simp [Base64.encode]
  | case4=>simp [Base64.encode]

def crc24Bit (crc : UInt32) : UInt32:=
  let crc:=crc <<< 1
  if crc &&& 0x01000000≠0 then crc ^^^ 0x01864CFB else crc

def crc24Byte (crc : UInt32) (b : UInt8) : UInt32:=crc24Bit^[8] (crc ^^^ (b.toUInt32 <<< 16))

/-- `crc24` -/
def crc24 (data : Bytes) : UInt32:=data.foldl crc24Byte 0x00B704CE &&& 0x00FFFFFF

def crcBytes (data : Bytes) : Bytes:=
  [(crc24 data >>> 16).toUInt8,(crc24 data >>> 8).toUInt8,(crc24 data).toUInt8]

/-- `mbedtls_base64_encode` into a buffer of `dlen` bytes: there is a zero byte behind the text. -/
def mbedtlsBase64Encode (dlen : ℕ) (src : Bytes) : Option Bytes:=
  if src=[] then some []
  else if dlen < (Base64.encode src).length+1 then none
  else some (Base64.encode src)

/-- `sizeof(tmp)` -/
def armorTmp : ℕ:=2048

/-- `armorBase64`; a failure is told by the length zero. -/
def armorBase64 (outSize : ℕ) (data : Bytes) : Bytes:=
  match mbedtlsBase64Encode outSize data with
  | none=>[]
  | some enc=>
    if armorTmp < enc.length+enc.length/64*2+4 then []
    else
      let lines:=wrap 64 enc.length enc
      if outSize < lines.length then [] else lines

def armorBegin : Bytes:=
  [0x2D,0x2D,0x2D,0x2D,0x2D,0x42,0x45,0x47,0x49,0x4E,0x20,0x50,0x47,0x50,0x20,0x50,0x55,0x42,0x4C,
   0x49,0x43,0x20,0x4B,0x45,0x59,0x20,0x42,0x4C,0x4F,0x43,0x4B,0x2D,0x2D,0x2D,0x2D,0x2D]++crlf++crlf

def armorEnd : Bytes:=
  [0x2D,0x2D,0x2D,0x2D,0x2D,0x45,0x4E,0x44,0x20,0x50,0x47,0x50,0x20,0x50,0x55,0x42,0x4C,0x49,0x43,
   0x20,0x4B,0x45,0x59,0x20,0x42,0x4C,0x4F,0x43,0x4B,0x2D,0x2D,0x2D,0x2D,0x2D]++crlf

/-- `armorBinaryBlock` into a buffer of `outSize` bytes. -/
def armorBinaryBlock (outSize : ℕ) (binary : Bytes) : Option Bytes:=
  if outSize < armorBegin.length+armorEnd.length+binary.length*2+16 then none
  else
    let body:=armorBase64 (outSize-armorBegin.length) binary
    if body=[] then none
    else
      let off:=armorBegin.length+body.length
      if outSize < off+8 then none
      else
        match mbedtlsBase64Encode (outSize-(off+1)) (crcBytes binary) with
        | none=>none
        | some crc=>
          let text:=armorBegin++body++0x3D::crc++crlf
          if outSize < text.length+armorEnd.length then none else some (text++armorEnd)

def armorText (binary : Bytes) : Bytes:=
  armorBegin++wrap 64 (Base64.encode binary).length (Base64.encode binary) ++
    0x3D::Base64.encode (crcBytes binary)++crlf++armorEnd

def dearmor (text : Bytes) : Option Bytes:=do
  if text.take armorBegin.length≠armorBegin then none
  else
    let (base64,rest) ← unwrap 64 0x3D (text.length+1) (text.drop armorBegin.length)
    let binary ← Base64.decode base64
    if rest=0x3D::Base64.encode (crcBytes binary)++crlf++armorEnd then some binary else none

theorem dearmor_armorText (binary : Bytes) : dearmor (armorText binary)=some binary:=by
  let enc:=Base64.encode binary
  let tail:=0x3D::Base64.encode (crcBytes binary)++crlf++armorEnd
  have htext : armorText binary=armorBegin++(wrap 64 enc.length enc++tail):=by
    simp [armorText,enc,tail]
  obtain ⟨hcr,hpad⟩:=encode_line binary
  have hmark : ∀ i, 64 ∣ i→enc[i]? ≠ some 0x3D:=fun i hi=>hpad i ((by decide : 4 ∣ 64).trans hi)
  have hlong : enc.length < (armorText binary).length+1:=by
    have hwrap:=length_wrap (show 0 < 64 by decide) (le_refl enc.length)
    rw [htext]
    simp only [List.length_append,hwrap]
    omega
  have hlines:=unwrap_wrap (show 0 < 64 by decide) (show tail.head? = some 0x3D from rfl) (le_refl enc.length) hcr hmark hlong
  unfold dearmor
  rw [htext] at hlines ⊢
  rw [List.take_left,if_neg (by simp),List.drop_left]
  simp only [hlines,Option.bind_eq_bind,Option.bind_some,enc,Base64.decode_encode,tail,if_true]

def armorMax : ℕ:=1485

theorem armorBase64_eq {outSize : ℕ} {data : Bytes} (hne : data≠[]) (hroom : data.length*2+16 ≤ outSize) :
    armorBase64 outSize data =
      if data.length ≤ armorMax then wrap 64 (Base64.encode data).length (Base64.encode data) else []:=by
  have hlength:=Base64.length_encode data
  have hpos:=List.length_pos_of_ne_nil hne
  have hlines:=length_wrap (show 0 < 64 by decide) (le_refl (Base64.encode data).length)
  have hencode : mbedtlsBase64Encode outSize data=some (Base64.encode data):=by
    unfold mbedtlsBase64Encode
    rw [if_neg hne,if_neg (by omega)]
  unfold armorBase64
  rw [hencode]
  dsimp only
  by_cases hlen : data.length ≤ armorMax
  · have hfits : ¬armorTmp < (Base64.encode data).length+(Base64.encode data).length/64*2+4:=by
      unfold armorTmp armorMax at *
      omega
    rw [if_pos hlen,if_neg hfits,if_neg (by omega)]
  · have hlong : armorTmp < (Base64.encode data).length+(Base64.encode data).length/64*2+4:=by
      unfold armorTmp armorMax at *
      omega
    rw [if_neg hlen,if_pos hlong]

/-- A block is armored as a whole, or not at all: where there is one, its lines fit and the output has room. -/
theorem armorBinaryBlock_eq (outSize : ℕ) (binary : Bytes) : armorBinaryBlock outSize binary =
    if binary≠[] ∧ binary.length ≤ armorMax ∧
        armorBegin.length+armorEnd.length+binary.length*2+16 ≤ outSize then
      some (armorText binary)
    else none:=by
  have hbegin : armorBegin.length=40:=rfl
  have hend : armorEnd.length=36:=rfl
  by_cases hroom : armorBegin.length+armorEnd.length+binary.length*2+16 ≤ outSize
  · by_cases hne : binary=[]
    · subst hne
      have hbody : armorBase64 (outSize-armorBegin.length) []=[]:=by
        unfold armorBase64
        simp [mbedtlsBase64Encode,wrap,armorTmp]
      unfold armorBinaryBlock
      simp [hbody]
    · have hbody:=armorBase64_eq hne (show binary.length*2+16 ≤ outSize-armorBegin.length by omega)
      unfold armorBinaryBlock
      rw [if_neg (by omega),hbody]
      dsimp only
      by_cases hlen : binary.length ≤ armorMax
      · have hlength:=Base64.length_encode binary
        have hpos:=List.length_pos_of_ne_nil hne
        have hlines:=length_wrap (show 0 < 64 by decide) (le_refl (Base64.encode binary).length)
        have hwrap : wrap 64 (Base64.encode binary).length (Base64.encode binary)≠[]:=by
          apply List.ne_nil_of_length_pos
          omega
        have hcrc : (Base64.encode (crcBytes binary)).length=4:=by simp [Base64.length_encode,crcBytes]
        rw [if_pos hlen,if_neg hwrap,if_neg (by omega),if_pos ⟨hne,hlen,hroom⟩]
        have hencode : mbedtlsBase64Encode
            (outSize-(armorBegin.length+(wrap 64 (Base64.encode binary).length (Base64.encode binary)).length+1))
            (crcBytes binary)=some (Base64.encode (crcBytes binary)):=by
          unfold mbedtlsBase64Encode
          rw [if_neg (by simp [crcBytes]),if_neg (by omega)]
        rw [hencode]
        dsimp only
        rw [if_neg]
        · rfl
        · simp only [List.length_append,List.length_cons,hcrc,hlines,crlf,List.length_nil]
          omega
      · rw [if_neg hlen,if_pos rfl,if_neg (fun h=>hlen h.2.1)]
  · unfold armorBinaryBlock
    rw [if_pos (by omega),if_neg (fun h=>hroom h.2.2)]

theorem dearmor_of_armorBinaryBlock {outSize : ℕ} {binary text : Bytes}
    (h : armorBinaryBlock outSize binary=some text) : dearmor text=some binary:=by
  rw [armorBinaryBlock_eq] at h
  split_ifs at h
  cases h
  exact dearmor_armorText binary

end CdcBadge.Armor
