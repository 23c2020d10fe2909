import CdcBadge.OpenPgpKeys
import CdcBadge.Codecs

/-!
# The codec of the algorithm attributes

The attribute with all its fields, as the codec hands it to its callers, and what the card keeps of it.
-/

namespace CdcBadge.OpenPgp

open Codecs

/-- `algo_attr_status_t` without its success. -/
inductive AlgoAttrStatus | tooShort | badAlgo | badCurve | badRsa | roleMismatch | bufTooSmall
  deriving DecidableEq, Repr

/-- `algo_attr_t`. -/
structure AlgoAttrT where
  algoId : UInt8:=0
  isRsa : Bool:=false
  curve : AttrCurve:=.unknown
  hasImportFormat : Bool:=false
  importFormat : UInt8:=0
  rsaNBits : UInt16:=0
  rsaEBits : UInt16:=0
  rsaImportFmt : UInt8:=0
  deriving DecidableEq, Repr

def isKnownAlgo (id : UInt8) : Bool:=id == algoRsa || id == algoEcdh || id == algoEcdsa || id == algoEddsa

def isRsaModulusBits (nBits : UInt16) : Bool:=nBits == 2048 || nBits == 3072 || nBits == 4096

def curveToOid : AttrCurve→Option Bytes
  | .p256=>some oidP256
  | .ed25519=>some oidEd25519
  | .x25519=>some oidX25519
  | .unknown=>none

variable {attr : AlgoAttrT} {bytes : Bytes}

namespace AlgoAttrT

/-- `algo_attr_parse`. -/
def parse (bytes : Bytes) : Except AlgoAttrStatus AlgoAttrT:=
  match bytes with
  | id::b::rest=>
    if !isKnownAlgo id then .error .badAlgo
    else if id=algoRsa then
      match b::rest with
      | n₁::n₀::e₁::e₀::fmt::_=>
        let nBits:=u16 n₁ n₀
        let eBits:=u16 e₁ e₀
        if !isRsaModulusBits nBits then .error .badRsa
        else if eBits=0 ∨ 64 < eBits then .error .badRsa
        else if 0x03 < fmt then .error .badRsa
        else .ok {algoId:=id,isRsa:=true,rsaNBits:=nBits,rsaEBits:=eBits,rsaImportFmt:=fmt}
      | _=>.error .badRsa
    else
      let oid:=b::rest
      if oid.getLast? = some 0xFF then
        .ok {algoId:=id,hasImportFormat:=true,importFormat:=0xFF,curve:=classifyOid oid.dropLast}
      else .ok {algoId:=id,curve:=classifyOid oid}
  | _=>.error .tooShort

/-- `algo_attr_build` into a buffer of `outCap` bytes. -/
def build (outCap : ℕ) (attr : AlgoAttrT) : Except AlgoAttrStatus Bytes:=
  if !isKnownAlgo attr.algoId then .error .badAlgo
  else if attr.algoId=algoRsa then
    if !isRsaModulusBits attr.rsaNBits then .error .badRsa
    else if outCap < 6 then .error .bufTooSmall
    else .ok (attr.algoId::be16Of attr.rsaNBits++be16Of attr.rsaEBits++[attr.rsaImportFmt])
  else
    match curveToOid attr.curve with
    | none=>.error .badCurve
    | some oid=>
      let format:=if attr.hasImportFormat then [attr.importFormat] else []
      if outCap < 1+oid.length+format.length then .error .bufTooSmall
      else .ok (attr.algoId::oid++format)

/-- `algo_attr_validate_role`. -/
def validateRole (attr : AlgoAttrT) (role : Role) : Except AlgoAttrStatus Unit:=
  if attr.isRsa then .ok ()
  else
    match role with
    | .sig | .aut=>
      if attr.algoId=algoEcdsa ∨ attr.algoId=algoEddsa then .ok () else .error .roleMismatch
    | .dec=>if attr.algoId=algoEcdh then .ok () else .error .roleMismatch

/-- `algo_attr_validate_capability`. -/
def validateCapability (attr : AlgoAttrT) (rsaSupported : Bool) : Except AlgoAttrStatus Unit:=
  if attr.isRsa then if rsaSupported then .ok () else .error .badRsa
  else
    match attr.curve with
    | .p256=>if attr.algoId=algoEcdsa ∨ attr.algoId=algoEcdh then .ok () else .error .badCurve
    | .ed25519=>if attr.algoId=algoEddsa then .ok () else .error .badCurve
    | .x25519 | .unknown=>.error .badCurve

/-- The codec with a buffer of `outCap` bytes. -/
def codec (outCap : ℕ) : Codec Bytes AlgoAttrT AlgoAttrStatus:=⟨parse,build outCap⟩

/-- The bytes are taken for the attribute, which is good for some role and within what the badge can do. -/
def Accepted (bytes : Bytes) (attr : AlgoAttrT) : Prop:=
  parse bytes=.ok attr ∧ (∃ role, attr.validateRole role=.ok ()) ∧
    ∃ rsaSupported, attr.validateCapability rsaSupported=.ok ()

/-- The fields are within the limits of the parser, and those of the other variant are clear. -/
def Clean (attr : AlgoAttrT) : Prop:=
  if attr.algoId=algoRsa then
    attr.isRsa=true ∧ 0 < attr.rsaEBits ∧ attr.rsaEBits ≤ 64 ∧ attr.rsaImportFmt ≤ 0x03 ∧
      attr.curve=.unknown ∧ attr.hasImportFormat=false ∧ attr.importFormat=0
  else
    attr.isRsa=false ∧ attr.importFormat=(if attr.hasImportFormat then 0xFF else 0) ∧
      attr.rsaNBits=0 ∧ attr.rsaEBits=0 ∧ attr.rsaImportFmt=0

def ofRsa (nBits eBits : UInt16) (fmt : UInt8) : AlgoAttrT:=
  {algoId:=algoRsa,isRsa:=true,rsaNBits:=nBits,rsaEBits:=eBits,rsaImportFmt:=fmt}

def ofEcc (id : UInt8) (curve : AttrCurve) (hasFormat : Bool) : AlgoAttrT:=
  {algoId:=id,curve,hasImportFormat:=hasFormat,importFormat:=if hasFormat then 0xFF else 0}

theorem u16_be16Of (n : UInt16) : u16 (n >>> 8).toUInt8 n.toUInt8=n:=by
  apply UInt16.toBitVec_inj.mp
  simp only [u16,UInt16.toBitVec_or,UInt16.toBitVec_shiftLeft,UInt8.toBitVec_toUInt16,
    UInt16.toBitVec_toUInt8,UInt16.toBitVec_shiftRight]
  apply BitVec.eq_of_getLsbD_eq
  intro i hi
  interval_cases i <;> simp

theorem be16Of_u16 (hi lo : UInt8) : be16Of (u16 hi lo)=[hi,lo]:=by
  simp only [be16Of,List.cons.injEq,and_true]
  constructor
  · apply UInt8.toBitVec_inj.mp
    apply BitVec.eq_of_getLsbD_eq
    intro i hi'
    interval_cases i <;> simp [u16]
  · apply UInt8.toBitVec_inj.mp
    apply BitVec.eq_of_getLsbD_eq
    intro i hi'
    interval_cases i <;> simp [u16]

/-- The limits of the parser on the fields of an RSA key. -/
def RsaWithin (nBits eBits : UInt16) (fmt : UInt8) : Prop:=
  isRsaModulusBits nBits=true ∧ 0 < eBits ∧ eBits ≤ 64 ∧ fmt ≤ 0x03

theorem parse_rsa {n e : UInt16} {fmt : UInt8} {tail : Bytes} :
    parse (algoRsa::be16Of n++be16Of e++fmt::tail)=.ok attr ↔
      RsaWithin n e fmt ∧ attr=ofRsa n e fmt:=by
  have hknown : isKnownAlgo algoRsa=true:=by decide
  simp only [parse,be16Of,List.cons_append,List.nil_append,hknown,u16_be16Of,RsaWithin]
  by_cases hn : isRsaModulusBits n=true
  · by_cases he : e=0 ∨ 64 < e
    · have hout : ¬(0 < e ∧ e ≤ 64):=by
        rintro ⟨h0,h64⟩
        rcases he with rfl | he
        · exact absurd h0 (by decide)
        · exact UInt16.not_lt.mpr h64 he
      simp only [hn,he]
      grind
    · have hin : 0 < e ∧ e ≤ 64:=by
        rw [not_or] at he
        exact ⟨UInt16.pos_iff_ne_zero.mpr he.1,UInt16.not_lt.mp he.2⟩
      by_cases hf : 0x03 < fmt
      · have hf' : ¬fmt ≤ 0x03:=UInt8.not_le.mpr hf
        simp [hn,he,hf,hf']
      · have hf' : fmt ≤ 0x03:=UInt8.not_lt.mp hf
        simp [hn,he,hf,hf',hin,ofRsa,eq_comm]
  · simp [hn]

theorem parse_ecc {id : UInt8} {oid : Bytes} (hasFormat : Bool) (hid : isKnownAlgo id=true)
    (hne : id≠algoRsa) (hoid : oid≠[]) (hlast : hasFormat=false → oid.getLast? ≠ some 0xFF) :
    parse (id::oid++if hasFormat then [0xFF] else [])=.ok (ofEcc id (classifyOid oid) hasFormat):=by
  obtain ⟨b,rest,rfl⟩:=List.exists_cons_of_ne_nil hoid
  cases hasFormat with
  | true=>
    have h : (b::(rest++[(0xFF : UInt8)])).getLast? = some 0xFF:=by
      rw [← List.cons_append,List.getLast?_concat]
    have hdrop : (b::(rest++[(0xFF : UInt8)])).dropLast=b::rest:=by
      rw [← List.cons_append,List.dropLast_concat]
    simp [parse,hid,hne,h,hdrop,ofEcc]
  | false=>
    have h:=hlast rfl
    simp [parse,hid,hne,h,ofEcc]

theorem parse_cases (h : parse bytes=.ok attr) :
    (∃ n e fmt tail, bytes=algoRsa::be16Of n++be16Of e++fmt::tail ∧ RsaWithin n e fmt ∧
      attr=ofRsa n e fmt) ∨
    ∃ id oid, ∃ hasFormat : Bool, isKnownAlgo id=true ∧ id≠algoRsa ∧
      bytes=id::oid++(if hasFormat then [0xFF] else []) ∧ attr=ofEcc id (classifyOid oid) hasFormat:=by
  rcases bytes with _ | ⟨id,_ | ⟨b,rest⟩⟩
  · cases h
  · cases h
  · have hid : isKnownAlgo id=true:=by
      by_contra hid
      rw [Bool.not_eq_true] at hid
      simp [parse,hid] at h
    by_cases hrsa : id=algoRsa
    · subst hrsa
      left
      rcases rest with _ | ⟨n₀,_ | ⟨e₁,_ | ⟨e₀,_ | ⟨fmt,tail⟩⟩⟩⟩
      · simp [parse,hid] at h
      · simp [parse,hid] at h
      · simp [parse,hid] at h
      · simp [parse,hid] at h
      · have hb : algoRsa::b::n₀::e₁::e₀::fmt::tail =
            algoRsa::be16Of (u16 b n₀)++be16Of (u16 e₁ e₀)++fmt::tail:=by
          simp [be16Of_u16]
        rw [hb,parse_rsa] at h
        exact ⟨_,_,_,_,hb,h⟩
    · right
      by_cases hlast : (b::rest).getLast? = some 0xFF
      · refine ⟨id,(b::rest).dropLast,true,hid,hrsa,?_,?_⟩
        · rw [if_pos rfl,List.cons_append,List.dropLast_append_getLast? _ hlast]
        · simpa [parse,hid,hrsa,hlast,ofEcc,eq_comm] using h
      · refine ⟨id,b::rest,false,hid,hrsa,by simp,?_⟩
        simpa [parse,hid,hrsa,hlast,ofEcc,eq_comm] using h

theorem curveToOid_classifyOid {oid : Bytes} (h : classifyOid oid≠.unknown) :
    curveToOid (classifyOid oid)=some oid:=by
  simp only [classifyOid] at h ⊢
  split_ifs at h ⊢
  · subst oid
    rfl
  · subst oid
    rfl
  · subst oid
    rfl
  · exact absurd rfl h

theorem classifyOid_curveToOid {curve : AttrCurve} {oid : Bytes} (h : curveToOid curve=some oid) :
    classifyOid oid=curve ∧ oid≠[] ∧ oid.getLast? ≠ some 0xFF:=by
  cases curve
  · cases h
  · cases h
    decide
  · cases h
    decide
  · cases h
    decide

theorem build_rsa {cap : ℕ} (hid : attr.algoId=algoRsa) :
    build cap attr=.ok bytes ↔ isRsaModulusBits attr.rsaNBits=true ∧ 6 ≤ cap ∧
      bytes=algoRsa::be16Of attr.rsaNBits++be16Of attr.rsaEBits++[attr.rsaImportFmt]:=by
  have hknown : isKnownAlgo algoRsa=true:=by decide
  by_cases hn : isRsaModulusBits attr.rsaNBits=true
  · by_cases hc : cap < 6
    · simp [build,hid,hknown,hn,hc]
    · simp [build,hid,hknown,hn,hc,eq_comm,not_lt.mp hc]
  · simp [build,hid,hknown,hn]

theorem build_ecc {cap : ℕ} (hid : attr.algoId≠algoRsa) :
    build cap attr=.ok bytes ↔ isKnownAlgo attr.algoId=true ∧ bytes.length ≤ cap ∧
      ∃ oid, curveToOid attr.curve=some oid ∧
        bytes=attr.algoId::oid++if attr.hasImportFormat then [attr.importFormat] else []:=by
  by_cases hk : isKnownAlgo attr.algoId=true
  · cases hc : curveToOid attr.curve with
    | none=>simp [build,hid,hk,hc]
    | some oid=>
      simp only [build,hk,hid,hc]
      by_cases hcap : cap < 1+oid.length+(if attr.hasImportFormat then [attr.importFormat] else []).length
      · rw [if_pos hcap]
        simp only [Bool.not_true,Bool.false_eq_true,if_false,reduceCtorEq,Option.some.injEq,true_and,false_iff]
        rintro ⟨hle,_,rfl,rfl⟩
        simp only [List.length_append,List.length_cons] at hle hcap
        omega
      · rw [if_neg hcap]
        simp only [Bool.not_true,Bool.false_eq_true,if_false,Except.ok.injEq,Option.some.injEq,true_and]
        constructor
        · rintro rfl
          refine ⟨?_,oid,rfl,rfl⟩
          simp only [List.length_append,List.length_cons] at hcap ⊢
          omega
        · rintro ⟨-,_,rfl,rfl⟩
          rfl
  · simp [build,hk]

theorem be16Of_length (n : UInt16) : (be16Of n).length=2:=rfl

theorem Accepted.curve {id : UInt8} {oid : Bytes} {hasFormat : Bool}
    (h : Accepted bytes (ofEcc id (classifyOid oid) hasFormat)) : curveToOid (classifyOid oid)=some oid:=by
  obtain ⟨-,-,rsaSupported,hcap⟩:=h
  apply curveToOid_classifyOid
  intro hc
  rw [hc] at hcap
  cases hcap

theorem Accepted.build_iff {cap : ℕ} (h : Accepted bytes attr)
    (hcap : bytes.length ≤ cap) :
    build cap attr=.ok bytes ↔ (bytes.head? = some algoRsa→bytes.length=6):=by
  rcases parse_cases h.1 with ⟨n,e,fmt,tail,rfl,hwithin,rfl⟩ | ⟨id,oid,hasFormat,hid,hne,rfl,rfl⟩
  · rw [build_rsa rfl]
    simp only [List.length_append,List.length_cons,be16Of_length] at hcap
    constructor
    · rintro ⟨-,-,hb⟩ -
      rw [hb]
      rfl
    · intro h6
      have hlen:=h6 rfl
      simp only [List.length_append,List.length_cons,be16Of_length] at hlen
      have htail : tail=[]:=List.eq_nil_of_length_eq_zero (by omega)
      subst tail
      exact ⟨hwithin.1,by omega,rfl⟩
  · constructor
    · intro _ hhead
      exact absurd (Option.some.inj hhead) hne
    · intro _
      rw [build_ecc hne]
      refine ⟨hid,hcap,oid,h.curve,?_⟩
      cases hasFormat <;> rfl

/-- What is built is parsed as what it was built for, exactly where the attribute is clean. -/
theorem parse_build_iff {cap : ℕ} (h : build cap attr=.ok bytes) :
    parse bytes=.ok attr ↔ attr.Clean:=by
  by_cases hid : attr.algoId=algoRsa
  · obtain ⟨hn,-,rfl⟩:=(build_rsa hid).mp h
    rw [parse_rsa]
    obtain ⟨algoId,isRsa,curve,hasFormat,format,n,e,fmt⟩:=attr
    simp only [RsaWithin,ofRsa,Clean,AlgoAttrT.mk.injEq] at hid hn ⊢
    simp only [hid,if_true]
    grind
  · obtain ⟨hk,-,oid,hoid,rfl⟩:=(build_ecc hid).mp h
    obtain ⟨hcurve,hne,hlast⟩:=classifyOid_curveToOid hoid
    obtain ⟨algoId,isRsa,curve,hasFormat,format,n,e,fmt⟩:=attr
    simp only [Clean] at hid hk hcurve ⊢
    rw [if_neg hid]
    cases hasFormat with
    | false=>
      have hparse : parse (algoId::oid++[])=.ok (ofEcc algoId (classifyOid oid) false):=
        parse_ecc false hk hid hne fun _=>hlast
      simp only [Bool.false_eq_true,if_false,hparse,hcurve,ofEcc,Except.ok.injEq,AlgoAttrT.mk.injEq]
      grind
    | true=>
      by_cases hf : format=0xFF
      · have hparse : parse (algoId::oid++[0xFF])=.ok (ofEcc algoId (classifyOid oid) true):=
          parse_ecc true hk hid hne (by simp)
        simp only [if_true,hf,hparse,hcurve,ofEcc,Except.ok.injEq,AlgoAttrT.mk.injEq]
        grind
      · -- Another format is read as a part of the curve.
        have hparse : parse (algoId::(oid++[format])++[]) =
            .ok (ofEcc algoId (classifyOid (oid++[format])) false):=
          parse_ecc false hk hid (by simp) (by simpa using hf)
        rw [List.append_nil] at hparse
        simp only [if_true,List.cons_append,hparse,ofEcc,Except.ok.injEq,AlgoAttrT.mk.injEq]
        grind

/-- A curve is told by one string of bytes, and an RSA key by any string that continues the six bytes. -/
theorem Accepted.unique_iff (h : Accepted bytes attr) :
    (∀ b b', Accepted b attr → Accepted b' attr→b=b') ↔ attr.isRsa=false:=by
  constructor
  · intro hunique
    by_contra hrsa
    rcases parse_cases h.1 with ⟨n,e,fmt,tail,rfl,hwithin,rfl⟩ | ⟨id,oid,hasFormat,-,-,rfl,rfl⟩
    · have hlonger : Accepted (algoRsa::be16Of n++be16Of e++fmt::0::tail) (ofRsa n e fmt):=
        ⟨parse_rsa.mpr ⟨hwithin,rfl⟩,h.2⟩
      have heq:=congrArg List.length (hunique _ _ h hlonger)
      simp at heq
    · exact hrsa rfl
  · intro hecc b b' hb hb'
    have hhead : ∀ {s}, Accepted s attr → s.head? ≠ some algoRsa:=by
      intro s hs
      rcases parse_cases hs.1 with ⟨n,e,fmt,tail,rfl,-,rfl⟩ | ⟨id,oid,hasFormat,-,hne,rfl,rfl⟩
      · cases hecc
      · simpa using hne
    have hcanonical : ∀ {s}, Accepted s attr → s.length ≤ b.length+b'.length →
        (codec (b.length+b'.length)).Canonical s:=by
      intro s hs hle
      exact (Codec.canonical_iff hs.1).mpr ((hs.build_iff hle).mpr fun h6=>absurd h6 (hhead hs))
    exact (hcanonical hb (by omega)).unique (hcanonical hb' (by omega)) hb.1 hb'.1

/-- What is accepted is built again exactly where an RSA attribute ends with its import format, what is built
is parsed again exactly where it was clean, and only an RSA attribute is told by more than one string. -/
theorem algo_attr_codec (cap : ℕ) (attr : AlgoAttrT) :
    (∀ bytes, Accepted bytes attr→bytes.length ≤ cap →
      (build cap attr=.ok bytes ↔ (bytes.head? = some algoRsa→bytes.length=6))) ∧
    (∀ bytes, build cap attr=.ok bytes→(parse bytes=.ok attr ↔ attr.Clean)) ∧
    ((∃ bytes, Accepted bytes attr) →
      ((∀ b b', Accepted b attr → Accepted b' attr→b=b') ↔ attr.isRsa=false)):=by
  constructor
  · intro bytes h hcap
    exact h.build_iff hcap
  constructor
  · intro bytes h
    exact parse_build_iff h
  · rintro ⟨bytes,h⟩
    exact h.unique_iff

def rsa2048 (tail : Bytes) : Bytes:=[0x01,0x08,0x00,0x00,0x20,0x00]++tail

theorem rsa2048_accepted (tail : Bytes) : Accepted (rsa2048 tail) (ofRsa 2048 32 0):=
  ⟨rfl,⟨.sig,rfl⟩,true,rfl⟩

theorem a_byte_behind :
    ¬((∀ cap bytes attr, Accepted bytes attr→bytes.length ≤ cap→build cap attr=.ok bytes) ∧
      (∀ cap attr bytes, build cap attr=.ok bytes→parse bytes=.ok attr) ∧
      ∀ attr b b', Accepted b attr → Accepted b' attr→b=b'):=by
  rintro ⟨hbuild,-,-⟩
  have h:=hbuild 7 (rsa2048 [0]) _ (rsa2048_accepted [0]) (by decide)
  cases h

theorem a_byte_behind_is_lost :
    build 7 (ofRsa 2048 32 0)≠.ok (rsa2048 [0]) ∧ ¬(ofRsa 2048 0 0).Clean ∧
      ¬∀ b b', Accepted b (ofRsa 2048 32 0) → Accepted b' (ofRsa 2048 32 0)→b=b':=by
  constructor
  · rw [ne_eq,(algo_attr_codec 7 _).1 (rsa2048 [0]) (rsa2048_accepted [0]) (by decide)]
    decide
  constructor
  · rw [← (algo_attr_codec 6 (ofRsa 2048 0 0)).2.1 [0x01,0x08,0x00,0x00,0x00,0x00] rfl]
    intro h
    cases h
  · rw [(algo_attr_codec 0 _).2.2 ⟨_,rsa2048_accepted []⟩]
    decide

/-- The card goes by the identifier and the curve, or by the three fields of an RSA key. -/
def onCard (attr : AlgoAttrT) : AlgoAttr:=
  if attr.isRsa then .rsa attr.rsaNBits attr.rsaEBits attr.rsaImportFmt else .ecc attr.algoId attr.curve

theorem isRsaModulusBits_eq (n : UInt16) : isRsaModulusBits n=supportedBits n.toNat:=by
  simp only [isRsaModulusBits,supportedBits,Bool.beq_eq_decide_eq,← UInt16.toNat_inj]
  rfl

end AlgoAttrT

open AlgoAttrT

theorem isKnownAlgo_rsa : isKnownAlgo algoRsa=true:=rfl

theorem isKnownAlgo_ecc {id : UInt8} (h : id≠algoRsa) :
    isKnownAlgo id=true ↔ id=algoEcdh ∨ id=algoEcdsa ∨ id=algoEddsa:=by
  simp [isKnownAlgo,h,or_assoc]

theorem algoAttrParse_eq (bytes : Bytes) : algoAttrParse bytes=(parse bytes).toOption.map onCard:=by
  rcases bytes with _ | ⟨id,_ | ⟨b,rest⟩⟩
  · rfl
  · rfl
  · simp only [algoAttrParse,parse,← isRsaModulusBits_eq]
    by_cases hrsa : id=algoRsa
    · subst hrsa
      rcases rest with _ | ⟨n₀,_ | ⟨e₁,_ | ⟨e₀,_ | ⟨fmt,tail⟩⟩⟩⟩
      · simp [isKnownAlgo_rsa,Except.toOption]
      · simp [isKnownAlgo_rsa,Except.toOption]
      · simp [isKnownAlgo_rsa,Except.toOption]
      · simp [isKnownAlgo_rsa,Except.toOption]
      · by_cases hn : isRsaModulusBits (u16 b n₀)=true
        · by_cases he : u16 e₁ e₀=0 ∨ 64 < u16 e₁ e₀
          · rcases he with he | he <;> simp [isKnownAlgo_rsa,hn,he,Except.toOption]
          · rw [not_or] at he
            by_cases hf : 0x03 < fmt
            · simp [isKnownAlgo_rsa,hn,he,hf,Except.toOption]
            · simp [isKnownAlgo_rsa,hn,he,hf,Except.toOption,onCard]
        · simp [isKnownAlgo_rsa,hn,Except.toOption]
    · by_cases hk : id=algoEcdh ∨ id=algoEcdsa ∨ id=algoEddsa
      · have hk' : isKnownAlgo id=true:=(isKnownAlgo_ecc hrsa).mpr hk
        by_cases hlast : (b::rest).getLast? = some 0xFF
        · simp [hrsa,hk,hk',hlast,Except.toOption,onCard]
        · simp [hrsa,hk,hk',hlast,Except.toOption,onCard]
      · have hk' : ¬isKnownAlgo id=true:=fun h=>hk ((isKnownAlgo_ecc hrsa).mp h)
        simp [hrsa,hk,hk',Except.toOption]

theorem ite_ok_iff {p : Prop} [Decidable p] {e : AlgoAttrStatus} :
    (if p then Except.ok () else Except.error e)=Except.ok () ↔ p:=by
  by_cases hp : p <;> simp [hp]

/-- The card accepts what the codec accepts for the role, with RSA within what it can do. -/
theorem accepted_on_card (h : parse bytes=.ok attr) (role : Role) :
    (algoAttrValidateRole attr.onCard role=true ↔ attr.validateRole role=.ok ()) ∧
      (algoAttrValidateCapability attr.onCard=true ↔ attr.validateCapability true=.ok ()):=by
  rcases parse_cases h with ⟨n,e,fmt,tail,-,-,rfl⟩ | ⟨id,oid,hasFormat,-,-,-,rfl⟩
  · exact ⟨⟨fun _=>rfl,fun _=>rfl⟩,fun _=>rfl,fun _=>rfl⟩
  · generalize classifyOid oid=curve
    constructor
    · cases role <;> simp [onCard,ofEcc,algoAttrValidateRole,validateRole] <;> exact ite_ok_iff.symm
    · cases curve <;> simp [onCard,ofEcc,algoAttrValidateCapability,validateCapability] <;> exact ite_ok_iff.symm

end CdcBadge.OpenPgp
