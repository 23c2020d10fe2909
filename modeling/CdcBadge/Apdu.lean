import Mathlib.Tactic.Cases
import CdcBadge.Bytes

/-!
# Command APDUs

The parser of the smartcard stack, the seven forms in which ISO 7816-4 writes a command
APDU, and the byte strings on which the parser agrees with them.
-/

namespace CdcBadge.Scard

/-- `apdu_t`. The data are empty where the source leaves its pointer null. -/
structure Apdu where
  cla : UInt8:=0
  ins : UInt8:=0
  p1 : UInt8:=0
  p2 : UInt8:=0
  lc : ℕ:=0
  data : Bytes:=[]
  le : ℕ:=0
  extended : Bool:=false
  deriving DecidableEq

def be16 (hi lo : UInt8) : ℕ:=hi.toNat*256+lo.toNat

def shortLe (b : UInt8) : ℕ:=if b=0 then 256 else b.toNat

def extendedLe (hi lo : UInt8) : ℕ:=if be16 hi lo=0 then 65536 else be16 hi lo

def parseLe (raw : Bytes) (pos : ℕ) (apdu : Apdu) : Apdu:=
  if pos < raw.length then
    if apdu.extended then
      if pos+2 ≤ raw.length then {apdu with le:=extendedLe (raw.getD pos 0) (raw.getD (pos+1) 0)} else apdu
    else {apdu with le:=shortLe (raw.getD pos 0)}
  else apdu

def parseData (raw : Bytes) (pos : ℕ) (apdu : Apdu) : Option Apdu:=
  if 0 < apdu.lc then
    if raw.length < pos+apdu.lc then none
    else some (parseLe raw (pos+apdu.lc) {apdu with data:=(raw.drop pos).take apdu.lc})
  else some (parseLe raw pos apdu)

def apduParse (raw : Bytes) : Option Apdu:=
  if raw.length < 4 then none
  else
    let apdu : Apdu:={cla:=raw.getD 0 0,ins:=raw.getD 1 0,p1:=raw.getD 2 0,p2:=raw.getD 3 0}
    if raw.length=4 then some apdu
    else if raw.getD 4 0=0 ∧ 7 < raw.length then
      parseData raw 7 {apdu with extended:=true,lc:=be16 (raw.getD 5 0) (raw.getD 6 0)}
    else if raw.length=5 then some {apdu with le:=shortLe (raw.getD 4 0)}
    else parseData raw 5 {apdu with lc:=(raw.getD 4 0).toNat}

structure Header where
  cla : UInt8
  ins : UInt8
  p1 : UInt8
  p2 : UInt8

def Header.bytes (h : Header) : Bytes:=[h.cla,h.ins,h.p1,h.p2]

def maxNc (extended : Bool) : ℕ:=if extended then 65535 else 255

def maxNe (extended : Bool) : ℕ:=if extended then 65536 else 256

/-- A command in one of the cases 1, 2S, 3S, 4S, 2E, 3E and 4E. -/
inductive Command
  | case1 (h : Header)
  | case2 (h : Header) (extended : Bool) (ne : ℕ) (hne : 1 ≤ ne ∧ ne ≤ maxNe extended)
  | case3 (h : Header) (extended : Bool) (data : Bytes) (hdata : 1 ≤ data.length ∧ data.length ≤ maxNc extended)
  | case4 (h : Header) (extended : Bool) (data : Bytes) (ne : ℕ)
      (hdata : 1 ≤ data.length ∧ data.length ≤ maxNc extended) (hne : 1 ≤ ne ∧ ne ≤ maxNe extended)

namespace Command

def header : Command→Header
  | case1 h=>h
  | case2 h .. => h
  | case3 h .. => h
  | case4 h .. => h

def data : Command→Bytes
  | case3 _ _ data _=>data
  | case4 _ _ data .. => data
  | _=>[]

/-- `Nc`. -/
def nc (c : Command) : ℕ:=c.data.length

/-- `Ne`. -/
def ne : Command → ℕ
  | case2 _ _ ne _=>ne
  | case4 _ _ _ ne .. => ne
  | _=>0

def mark (extended : Bool) : Bytes:=if extended then [0] else []

def lengthField (extended : Bool) (n : ℕ) : Bytes:=
  if extended then [UInt8.ofNat (n/256),UInt8.ofNat n] else [UInt8.ofNat n]

def encode : Command→Bytes
  | case1 h=>h.bytes
  | case2 h extended ne _=>h.bytes++mark extended++lengthField extended ne
  | case3 h extended data _=>h.bytes++mark extended++lengthField extended data.length++data
  | case4 h extended data ne .. =>
    h.bytes++mark extended++lengthField extended data.length++data++lengthField extended ne

/-- What a parser should return for a command. -/
def ParsedAs (c : Command) (apdu : Apdu) : Prop:=
  (apdu.cla=c.header.cla ∧ apdu.ins=c.header.ins ∧ apdu.p1=c.header.p1 ∧ apdu.p2=c.header.p2) ∧
  apdu.data=c.data ∧ apdu.lc=c.nc ∧ apdu.le=c.ne

end Command

/-- The parser does right by a byte string: it returns the command that the string encodes, and refuses a
string that encodes none. -/
def ParsesRight (raw : Bytes) : Prop:=
  (∀ c : Command, c.encode=raw→∃ apdu, apduParse raw=some apdu ∧ c.ParsedAs apdu) ∧
  ((∀ c : Command, c.encode≠raw)→apduParse raw=none)

/-- What may stand behind a length field `lc` of `width` bytes: fewer bytes than announced, the data alone, or
the data and a length field. -/
def WellFramed (width lc rest : ℕ) : Prop:=lc≠0 ∧ (rest < lc ∨ rest=lc ∨ rest=lc+width)

instance (width lc rest : ℕ) : Decidable (WellFramed width lc rest):=inferInstanceAs (Decidable (_ ∧ _))

/-- The lengths of a byte string leave no doubt to this parser: it has no body or only an Le of one byte, or a
length field that is not zero with as many bytes behind it as a case allows, or too few. -/
def Framed (raw : Bytes) : Prop:=
  raw.length ≤ 5 ∨
  (raw.getD 4 0≠0 ∧ WellFramed 1 (raw.getD 4 0).toNat (raw.length-5)) ∨
  (raw.getD 4 0=0 ∧ 7 < raw.length ∧ WellFramed 2 (be16 (raw.getD 5 0) (raw.getD 6 0)) (raw.length-7))

theorem be16_ofNat {n : ℕ} (hn : n ≤ 65535) : be16 (UInt8.ofNat (n/256)) (UInt8.ofNat n)=n:=by
  simp only [be16,UInt8.toNat_ofNat']
  omega

theorem extendedLe_ofNat {n : ℕ} (hn : 1 ≤ n ∧ n ≤ 65536) :
    extendedLe (UInt8.ofNat (n/256)) (UInt8.ofNat n)=n:=by
  simp only [extendedLe,be16,UInt8.toNat_ofNat']
  split <;> omega

theorem shortLe_ofNat {n : ℕ} (hn : 1 ≤ n ∧ n ≤ 256) : shortLe (UInt8.ofNat n)=n:=by
  simp only [shortLe,← UInt8.toNat_inj,UInt8.toNat_ofNat',UInt8.toNat_zero]
  split <;> omega

theorem shortLe_bounds (b : UInt8) : 1 ≤ shortLe b ∧ shortLe b ≤ 256:=by
  have hb : b.toNat < 256:=b.toNat_lt
  simp only [shortLe,← UInt8.toNat_inj,UInt8.toNat_zero]
  split <;> omega

theorem extendedLe_bounds (hi lo : UInt8) : 1 ≤ extendedLe hi lo ∧ extendedLe hi lo ≤ 65536:=by
  have hhi : hi.toNat < 256:=hi.toNat_lt
  have hlo : lo.toNat < 256:=lo.toNat_lt
  rw [extendedLe]
  split <;> simp only [be16] at * <;> omega

theorem be16_le (hi lo : UInt8) : be16 hi lo ≤ 65535:=by
  have hhi : hi.toNat < 256:=hi.toNat_lt
  have hlo : lo.toNat < 256:=lo.toNat_lt
  simp only [be16]
  omega

theorem shortLe_ne_extendedLe (hi lo : UInt8) : shortLe hi≠extendedLe hi lo:=by
  have hhi : hi.toNat < 256:=hi.toNat_lt
  have hlo : lo.toNat < 256:=lo.toNat_lt
  rw [shortLe,extendedLe]
  split <;> split <;> simp only [be16,← UInt8.toNat_inj,UInt8.toNat_zero] at * <;> omega

theorem ofNat_shortLe (b : UInt8) : UInt8.ofNat (shortLe b)=b:=by
  have hb : b.toNat < 256:=b.toNat_lt
  simp only [shortLe,← UInt8.toNat_inj,UInt8.toNat_zero,UInt8.toNat_ofNat']
  split <;> omega

theorem lengthField_short (n : ℕ) : Command.lengthField false n=[UInt8.ofNat n]:=rfl

theorem lengthField_extended (n : ℕ) :
    Command.lengthField true n=[UInt8.ofNat (n/256),UInt8.ofNat n]:=rfl

theorem lengthField_be16 (hi lo : UInt8) : Command.lengthField true (be16 hi lo)=[hi,lo]:=by
  have hhi : hi.toNat < 256:=hi.toNat_lt
  have hlo : lo.toNat < 256:=lo.toNat_lt
  simp only [lengthField_extended,be16,List.cons.injEq,and_true,← UInt8.toNat_inj,UInt8.toNat_ofNat']
  omega

theorem lengthField_extendedLe (hi lo : UInt8) : Command.lengthField true (extendedLe hi lo)=[hi,lo]:=by
  have hhi : hi.toNat < 256:=hi.toNat_lt
  have hlo : lo.toNat < 256:=lo.toNat_lt
  simp only [lengthField_extended,List.cons.injEq,and_true,← UInt8.toNat_inj,UInt8.toNat_ofNat']
  rw [extendedLe]
  split <;> simp only [be16] at * <;> omega

/-- The Le that stands in what is left behind the data, and 0 when it is not whole. -/
def leIn : Bool→Bytes → ℕ
  | false, b::_=>shortLe b
  | true, hi::lo::_=>extendedLe hi lo
  | _, _=>0

theorem parseLe_append (front tail : Bytes) (apdu : Apdu) (hle : apdu.le=0) :
    parseLe (front++tail) front.length apdu={apdu with le:=leIn apdu.extended tail}:=by
  obtain ⟨cla,ins,p1,p2,lc,data,le,extended⟩:=apdu
  obtain rfl : le=0:=hle
  rcases tail with _ | ⟨b,_ | ⟨b',tail⟩⟩ <;> cases extended <;> simp [parseLe,leIn]

theorem parseData_append (front body : Bytes) (apdu : Apdu) (hle : apdu.le=0) (hdata : apdu.data=[]) :
    parseData (front++body) front.length apdu =
      if body.length < apdu.lc then none
      else some {apdu with data:=body.take apdu.lc,le:=leIn apdu.extended (body.drop apdu.lc)}:=by
  obtain ⟨cla,ins,p1,p2,lc,data,le,extended⟩:=apdu
  obtain rfl : data=[]:=hdata
  simp only [parseData,List.length_append,Nat.add_lt_add_iff_left,List.drop_left]
  by_cases hlc : 0 < lc
  · by_cases hshort : body.length < lc
    · rw [if_pos hlc,if_pos hshort,if_pos hshort]
    · have hfront : front.length+lc=(front++body.take lc).length:=by simp; omega
      have hraw : front++body=(front++body.take lc)++body.drop lc:=by simp
      rw [if_pos hlc,if_neg hshort,if_neg hshort,hraw,hfront,parseLe_append]
      exact hle
  · obtain rfl : lc=0:=by omega
    simp [parseLe_append front body _ hle]

section
variable (h : Header)

def Header.apdu : Apdu:={cla:=h.cla,ins:=h.ins,p1:=h.p1,p2:=h.p2}

theorem apduParse_header : apduParse h.bytes=some h.apdu:=rfl

theorem apduParse_le (b : UInt8) : apduParse (h.bytes++[b])=some {h.apdu with le:=shortLe b}:=by
  simp [apduParse,Header.bytes,Header.apdu]

/-- A zero length byte with too few bytes behind it for the extended form is taken for a short Lc of 0. -/
theorem apduParse_zero (b : UInt8) (rest : Bytes) (hrest : rest.length ≤ 1) :
    apduParse (h.bytes++0::b::rest)=some {h.apdu with le:=shortLe b}:=by
  have hlen : ¬ 7 < rest.length+1+1+1+1+1+1:=by omega
  simp [apduParse,Header.bytes,Header.apdu,hlen,parseData,parseLe]

theorem apduParse_short (lc : UInt8) (body : Bytes) (hlc : lc≠0) (hbody : body≠[]) :
    apduParse (h.bytes++lc::body) =
      if body.length < lc.toNat then none
      else some { h.apdu with
        lc:=lc.toNat,data:=body.take lc.toNat,le:=leIn false (body.drop lc.toNat) }:=by
  have hdata:=parseData_append (h.bytes++[lc]) body {h.apdu with lc:=lc.toNat} rfl rfl
  have hlen : ¬ body.length+1+1+1+1+1 < 4:=by omega
  simpa [apduParse,Header.bytes,Header.apdu,hlc,hbody,hlen] using hdata

theorem apduParse_extended (hi lo : UInt8) (body : Bytes) (hbody : body≠[]) :
    apduParse (h.bytes++0::hi::lo::body) =
      if body.length < be16 hi lo then none
      else some { h.apdu with
        extended:=true,lc:=be16 hi lo,data:=body.take (be16 hi lo)
        le:=leIn true (body.drop (be16 hi lo)) }:=by
  have hdata:=parseData_append (h.bytes++[0,hi,lo]) body
    {h.apdu with extended:=true,lc:=be16 hi lo} rfl rfl
  have hpos : 0 < body.length:=List.length_pos_of_ne_nil hbody
  have hlen : ¬ body.length+1+1+1+1+1+1+1 < 4:=by omega
  simpa [apduParse,Header.bytes,Header.apdu,hpos,hlen] using hdata

end

section
variable (h : Header)

theorem Header.bytes_length : h.bytes.length=4:=rfl

theorem Header.append_inj {h h' : Header} {s t : Bytes} : h.bytes++s=h'.bytes++t ↔ h=h' ∧ s=t:=by
  obtain ⟨cla,ins,p1,p2⟩:=h
  obtain ⟨cla',ins',p1',p2'⟩:=h'
  simp [Header.bytes,and_assoc]

/-- A byte string is shorter than a header, or a header with one of the bodies that the parser tells apart. -/
theorem raw_cases {motive : Bytes→Prop} (raw : Bytes)
    (short : ∀ raw, raw.length < 4→motive raw)
    (header : ∀ h : Header, motive h.bytes)
    (le : ∀ (h : Header) b, motive (h.bytes++[b]))
    (zero : ∀ (h : Header) b rest, rest.length ≤ 1→motive (h.bytes++0::b::rest))
    (shortLc : ∀ (h : Header) lc body, lc≠0→body≠[]→motive (h.bytes++lc::body))
    (extendedLc : ∀ (h : Header) hi lo body, body≠[]→motive (h.bytes++0::hi::lo::body)) :
    motive raw:=by
  rcases raw with _ | ⟨a,_ | ⟨b,_ | ⟨c,_ | ⟨d,rest⟩⟩⟩⟩
  · exact short _ (by simp)
  · exact short _ (by simp)
  · exact short _ (by simp)
  · exact short _ (by simp)
  · rcases rest with _ | ⟨lc,_ | ⟨e,rest⟩⟩
    · exact header ⟨a,b,c,d⟩
    · exact le ⟨a,b,c,d⟩ lc
    · by_cases hlc : lc=0
      · subst hlc
        rcases rest with _ | ⟨f,_ | ⟨g,rest⟩⟩
        · exact zero ⟨a,b,c,d⟩ e [] (by simp)
        · exact zero ⟨a,b,c,d⟩ e [f] (by simp)
        · exact extendedLc ⟨a,b,c,d⟩ e f (g::rest) (by simp)
      · exact shortLc ⟨a,b,c,d⟩ lc (e::rest) hlc (by simp)

end

namespace Command

theorem ofNat_ne_zero {n : ℕ} (hn : 1 ≤ n ∧ n ≤ 255) : UInt8.ofNat n≠0:=by
  simp only [ne_eq,← UInt8.toNat_inj,UInt8.toNat_ofNat',UInt8.toNat_zero]
  omega

theorem encode_length (c : Command) : 4 ≤ c.encode.length:=by
  cases c <;> simp [encode,Header.bytes_length]

def body : Command→Bytes
  | case1 _=>[]
  | case2 _ extended ne _=>mark extended++lengthField extended ne
  | case3 _ extended data _=>mark extended++lengthField extended data.length++data
  | case4 _ extended data ne .. =>
    mark extended++lengthField extended data.length++data++lengthField extended ne

theorem encode_eq (c : Command) : c.encode=c.header.bytes++c.body:=by
  cases c <;> simp [encode,body,header]

theorem encode_eq_append {c : Command} {h : Header} {s : Bytes} :
    c.encode=h.bytes++s ↔ c.header=h ∧ c.body=s:=by
  rw [encode_eq,Header.append_inj]



variable {c : Command}

theorem body_eq_nil (hc : c.body=[]) : ∃ h, c=case1 h:=by
  rcases c with h | ⟨h,extended,ne,hne⟩ | ⟨h,extended,data,hdata⟩ | ⟨h,extended,data,ne,hdata,hne⟩
  · exact ⟨h,rfl⟩
  all_goals cases extended <;> simp [body,mark,lengthField] at hc

theorem body_eq_singleton {b : UInt8} (hc : c.body=[b]) :
    ∃ h ne hne, c=case2 h false ne hne ∧ UInt8.ofNat ne=b:=by
  rcases c with h | ⟨h,extended,ne,hne⟩ | ⟨h,extended,data,hdata⟩ | ⟨h,extended,data,ne,hdata,hne⟩
  · simp [body] at hc
  · cases extended
    · exact ⟨h,ne,hne,rfl,by simpa [body,mark,lengthField] using hc⟩
    · simp [body,mark,lengthField] at hc
  · cases extended <;> simp [body,mark,lengthField] at hc
    simp [hc.2] at hdata
  · cases extended <;> simp [body,mark,lengthField] at hc

theorem body_eq_zero {b : UInt8} {rest : Bytes} (hrest : rest.length ≤ 1) (hc : c.body=0::b::rest) :
    ∃ h ne hne, c=case2 h true ne hne ∧ UInt8.ofNat (ne/256)=b ∧ [UInt8.ofNat ne]=rest:=by
  rcases c with h | ⟨h,extended,ne,hne⟩ | ⟨h,extended,data,hdata⟩ | ⟨h,extended,data,ne,hdata,hne⟩
  · simp [body] at hc
  · cases extended
    · simp [body,mark,lengthField] at hc
    · refine ⟨h,ne,hne,rfl,?_⟩
      simpa [body,mark,lengthField] using hc
  · cases extended
    · simp only [body,mark,lengthField,List.cons_append,List.nil_append,if_false,List.cons.injEq,
        Bool.false_eq_true] at hc
      exact absurd hc.1 (ofNat_ne_zero hdata)
    · simp [body,mark,lengthField] at hc
      rw [← hc.2] at hrest
      simp at hrest
      simp [hrest] at hdata
  · cases extended
    · simp [body,mark,lengthField] at hc
      exact absurd hc.1 (ofNat_ne_zero hdata)
    · simp [body,mark,lengthField] at hc
      rw [← hc.2] at hrest
      simp at hrest

theorem body_eq_short {lc : UInt8} {s : Bytes} (hlc : lc≠0) (hs : s≠[]) (hc : c.body=lc::s) :
    lc.toNat=c.nc ∧ s.take lc.toNat=c.data ∧ leIn false (s.drop lc.toNat)=c.ne ∧
      (s.length=lc.toNat ∨ s.length=lc.toNat+1):=by
  rcases c with h | ⟨h,extended,ne,hne⟩ | ⟨h,extended,data,hdata⟩ | ⟨h,extended,data,ne,hdata,hne⟩
  · simp [body] at hc
  · cases extended
    · simp [body,mark,lengthField,hs.symm] at hc
    · simp [body,mark,lengthField,hlc.symm] at hc
  · cases extended
    · simp only [body,mark,lengthField,List.cons_append,List.nil_append,if_false,List.cons.injEq,
        Bool.false_eq_true] at hc
      obtain ⟨rfl,rfl⟩:=hc
      have hn : (UInt8.ofNat data.length).toNat=data.length:=by
        rw [UInt8.toNat_ofNat']
        exact Nat.mod_eq_of_lt (by simp [maxNc] at hdata; omega)
      simp [hn,nc,Command.data,Command.ne,leIn]
    · simp [body,mark,lengthField,hlc.symm] at hc
  · cases extended
    · simp [body,mark,lengthField] at hc
      obtain ⟨rfl,rfl⟩:=hc
      have hn : (UInt8.ofNat data.length).toNat=data.length:=by
        rw [UInt8.toNat_ofNat']
        exact Nat.mod_eq_of_lt (by simp [maxNc] at hdata; omega)
      simp [hn,nc,Command.data,Command.ne,leIn,shortLe_ofNat hne]
    · simp [body,mark,lengthField,hlc.symm] at hc

theorem body_eq_extended {hi lo : UInt8} {s : Bytes} (hs : s≠[]) (hc : c.body=0::hi::lo::s) :
    be16 hi lo=c.nc ∧ s.take (be16 hi lo)=c.data ∧ leIn true (s.drop (be16 hi lo))=c.ne ∧
      be16 hi lo≠0 ∧ (s.length=be16 hi lo ∨ s.length=be16 hi lo+2):=by
  rcases c with h | ⟨h,extended,ne,hne⟩ | ⟨h,extended,data,hdata⟩ | ⟨h,extended,data,ne,hdata,hne⟩
  · simp [body] at hc
  · cases extended <;> simp [body,mark,lengthField,hs.symm] at hc
  · cases extended
    · simp [body,mark,lengthField] at hc
      exact absurd hc.1 (ofNat_ne_zero hdata)
    · simp only [body,mark,lengthField,List.cons_append,List.nil_append,if_true,List.cons.injEq,true_and] at hc
      obtain ⟨rfl,rfl,rfl⟩:=hc
      rw [be16_ofNat (by simpa [maxNc] using hdata.2)]
      have hpos : data.length≠0:=by omega
      simpa [nc,Command.data,Command.ne,leIn] using hpos
  · cases extended
    · simp [body,mark,lengthField] at hc
      exact absurd hc.1 (ofNat_ne_zero hdata)
    · simp only [body,mark,lengthField,List.cons_append,List.nil_append,if_true,List.cons.injEq,true_and] at hc
      obtain ⟨rfl,rfl,rfl⟩:=hc
      rw [be16_ofNat (by simpa [maxNc] using hdata.2)]
      have hpos : data.length≠0:=by omega
      simpa [nc,Command.data,Command.ne,leIn,extendedLe_ofNat hne] using hpos

end Command

theorem parsesRight_tooShort {raw : Bytes} (hraw : raw.length < 4) : ParsesRight raw:=by
  constructor
  · intro c hc
    have hlength:=c.encode_length
    rw [hc] at hlength
    omega
  · intro _
    rw [apduParse,if_pos hraw]

theorem parsesRight_header (h : Header) : ParsesRight h.bytes:=by
  constructor
  · intro c hc
    obtain ⟨rfl,hbody⟩:=Command.encode_eq_append.mp (hc.trans (List.append_nil _).symm)
    obtain ⟨h,rfl⟩:=Command.body_eq_nil hbody
    exact ⟨_,apduParse_header h,⟨rfl,rfl,rfl,rfl⟩,rfl,rfl,rfl⟩
  · intro hnone
    exact absurd rfl (hnone (.case1 h))

theorem parsesRight_le (h : Header) (b : UInt8) : ParsesRight (h.bytes++[b]):=by
  constructor
  · intro c hc
    obtain ⟨rfl,hbody⟩:=Command.encode_eq_append.mp hc
    obtain ⟨h,ne,hne,rfl,rfl⟩:=Command.body_eq_singleton hbody
    exact ⟨_,apduParse_le h _,⟨rfl,rfl,rfl,rfl⟩,rfl,rfl,shortLe_ofNat hne⟩
  · intro hnone
    refine absurd ?_ (hnone (.case2 h false (shortLe b) (shortLe_bounds b)))
    simp [Command.encode,Command.mark,lengthField_short,ofNat_shortLe]

theorem not_parsesRight_zero (h : Header) (b : UInt8) (rest : Bytes) (hrest : rest.length ≤ 1) :
    ¬ ParsesRight (h.bytes++0::b::rest):=by
  rintro ⟨hsome,hnone⟩
  have hparse:=apduParse_zero h b rest hrest
  by_cases hcode : ∃ c : Command, c.encode=h.bytes++0::b::rest
  · obtain ⟨c,hc⟩:=hcode
    obtain ⟨apdu,happ,-,-,-,hle⟩:=hsome c hc
    obtain ⟨rfl,hbody⟩:=Command.encode_eq_append.mp hc
    obtain ⟨h,ne,hne,rfl,rfl,-⟩:=Command.body_eq_zero hrest hbody
    rw [hparse] at happ
    obtain rfl:=Option.some.inj happ
    apply shortLe_ne_extendedLe (UInt8.ofNat (ne/256)) (UInt8.ofNat ne)
    rw [extendedLe_ofNat hne]
    exact hle
  · rw [hnone (not_exists.mp hcode)] at hparse
    exact Option.some_ne_none _ hparse.symm

/-- A string with a length field: right when the lengths fit the field, or when too few bytes follow. -/
theorem parsesRight_iff_wellFramed {raw : Bytes} {width lc rest : ℕ} {apdu : Apdu}
    (hparse : apduParse raw=if rest < lc then none else some apdu)
    (hright : ∀ c : Command, c.encode=raw → c.ParsedAs apdu)
    (hcodes : (∃ c : Command, c.encode=raw) ↔ lc≠0 ∧ (rest=lc ∨ rest=lc+width)) :
    ParsesRight raw ↔ WellFramed width lc rest:=by
  constructor
  · rintro ⟨-,hnone⟩
    by_cases hrest : rest < lc
    · exact ⟨by omega,.inl hrest⟩
    · have hcode : ∃ c : Command, c.encode=raw:=by
        by_contra hcode
        rw [hnone (not_exists.mp hcode),if_neg hrest] at hparse
        exact Option.some_ne_none _ hparse.symm
      obtain ⟨hlc,hlengths⟩:=hcodes.mp hcode
      exact ⟨hlc,.inr hlengths⟩
  · rintro ⟨hlc,hlengths⟩
    constructor
    · intro c hc
      obtain ⟨-,hrest⟩:=hcodes.mp ⟨c,hc⟩
      exact ⟨apdu,by rw [hparse,if_neg (by omega)],hright c hc⟩
    · intro hnone
      have hrest : rest < lc:=by
        rcases hlengths with hrest | hrest
        · exact hrest
        · obtain ⟨c,hc⟩:=hcodes.mpr ⟨hlc,hrest⟩
          exact absurd hc (hnone c)
      rw [hparse,if_pos hrest]

theorem parsesRight_short_iff (h : Header) (lc : UInt8) (s : Bytes) (hlc : lc≠0) (hs : s≠[]) :
    ParsesRight (h.bytes++lc::s) ↔ WellFramed 1 lc.toNat s.length:=by
  have hlc' : lc.toNat≠0:=by simpa [← UInt8.toNat_inj] using hlc
  have hlt : lc.toNat < 256:=lc.toNat_lt
  apply parsesRight_iff_wellFramed (apduParse_short h lc s hlc hs)
  · intro c hc
    obtain ⟨rfl,hbody⟩:=Command.encode_eq_append.mp hc
    obtain ⟨hnc,hdata,hne,-⟩:=Command.body_eq_short hlc hs hbody
    exact ⟨⟨rfl,rfl,rfl,rfl⟩,hdata,hnc,hne⟩
  · constructor
    · rintro ⟨c,hc⟩
      obtain ⟨-,hbody⟩:=Command.encode_eq_append.mp hc
      obtain ⟨-,-,-,hlengths⟩:=Command.body_eq_short hlc hs hbody
      exact ⟨hlc',hlengths⟩
    · rintro ⟨-,hlength | hlength⟩
      · refine ⟨.case3 h false s ⟨by omega,by simp [maxNc]; omega⟩,?_⟩
        simp [Command.encode,Command.mark,lengthField_short,hlength]
      · obtain ⟨b,hb⟩:=List.length_eq_one_iff.mp (show (s.drop lc.toNat).length=1 by simp; omega)
        have hdata : (s.take lc.toNat).length=lc.toNat:=by simp; omega
        refine ⟨.case4 h false (s.take lc.toNat) (shortLe b) ⟨by omega,by simp [maxNc]; omega⟩
          (shortLe_bounds b),?_⟩
        simp only [Command.encode,Command.mark,lengthField_short,hdata,ofNat_shortLe,UInt8.ofNat_toNat,← hb]
        simp

theorem parsesRight_extended_iff (h : Header) (hi lo : UInt8) (s : Bytes) (hs : s≠[]) :
    ParsesRight (h.bytes++0::hi::lo::s) ↔ WellFramed 2 (be16 hi lo) s.length:=by
  have hle : be16 hi lo ≤ 65535:=be16_le hi lo
  apply parsesRight_iff_wellFramed (apduParse_extended h hi lo s hs)
  · intro c hc
    obtain ⟨rfl,hbody⟩:=Command.encode_eq_append.mp hc
    obtain ⟨hnc,hdata,hne,-⟩:=Command.body_eq_extended hs hbody
    exact ⟨⟨rfl,rfl,rfl,rfl⟩,hdata,hnc,hne⟩
  · constructor
    · rintro ⟨c,hc⟩
      obtain ⟨-,hbody⟩:=Command.encode_eq_append.mp hc
      obtain ⟨-,-,-,hlengths⟩:=Command.body_eq_extended hs hbody
      exact hlengths
    · rintro ⟨hlc,hlength | hlength⟩
      · refine ⟨.case3 h true s ⟨by omega,by simp [maxNc]; omega⟩,?_⟩
        simp [Command.encode,Command.mark,hlength,lengthField_be16]
      · obtain ⟨a,b,hab⟩:=List.length_eq_two.mp (show (s.drop (be16 hi lo)).length=2 by simp; omega)
        have hdata : (s.take (be16 hi lo)).length=be16 hi lo:=by simp; omega
        refine ⟨.case4 h true (s.take (be16 hi lo)) (extendedLe a b) ⟨by omega,by simp [maxNc]; omega⟩
          (extendedLe_bounds a b),?_⟩
        simp only [Command.encode,Command.mark,lengthField_be16,lengthField_extendedLe,hdata,← hab]
        simp

/-- The parser does right by exactly the byte strings that are framed. -/
theorem apduParse_right_iff (raw : Bytes) : ParsesRight raw ↔ Framed raw:=by
  cases raw using raw_cases with
  | short raw hraw=>exact iff_of_true (parsesRight_tooShort hraw) (.inl (by omega))
  | header h=>exact iff_of_true (parsesRight_header h) (.inl (by simp [Header.bytes]))
  | le h b=>exact iff_of_true (parsesRight_le h b) (.inl (by simp [Header.bytes]))
  | zero h b rest hrest=>
    apply iff_of_false (not_parsesRight_zero h b rest hrest)
    have hlength : ¬ 7 < rest.length+1+1+1+1+1+1:=by omega
    simp [Framed,Header.bytes,hlength]
  | shortLc h lc s hlc hs=>
    have hpos : 0 < s.length:=List.length_pos_of_ne_nil hs
    have hlong : ¬(h.bytes++lc::s).length ≤ 5:=by
      rw [List.length_append,Header.bytes_length,List.length_cons]
      omega
    rw [parsesRight_short_iff h lc s hlc hs,Framed,or_iff_right hlong]
    simp [Header.bytes,hlc]
  | extendedLc h hi lo s hs=>
    rw [parsesRight_extended_iff h hi lo s hs]
    have hpos : 0 < s.length:=List.length_pos_of_ne_nil hs
    simp [Framed,Header.bytes,hpos]

/-- GET DATA with an extended Le of 256 and no data: the parser returns an Le of 1. -/
theorem apduParse_not_right : ¬ ParsesRight [0x00,0xCA,0x00,0x6E,0x00,0x01,0x00]:=by
  rintro ⟨hsome,-⟩
  obtain ⟨apdu,happ,-,-,-,hle⟩:=hsome (.case2 ⟨0x00,0xCA,0x00,0x6E⟩ true 256 (by decide)) rfl
  obtain rfl : apdu={ins:=0xCA,p2:=0x6E,le:=1}:=(Option.some.inj happ).symm
  exact absurd hle (by decide)
end CdcBadge.Scard
