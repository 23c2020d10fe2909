import CdcBadge.Bytes

/-!
# Blocks of the T=1 protocol

A block is NAD, PCB and LEN, the information field, and an LRC byte or two CRC bytes.
An encoded I-block decodes to its fields, and an R- or S-block never to an I-block.
-/

namespace CdcBadge.T1

def infMax : ℕ:=254
def defaultIfsc : ℕ:=32
def lenReserved : UInt8:=0xFF

/-- The kind of a block, with the fields of the PCB that the kind has. -/
inductive Kind
  | i (ns : UInt8) (more : Bool)
  | r (nr err : UInt8)
  | s (subtype : UInt8)
  deriving DecidableEq

def rOk : UInt8:=0
def rEdcErr : UInt8:=1
def rOtherErr : UInt8:=2

def sResynchReq : UInt8:=0x00
def sIfsReq : UInt8:=0x01
def sAbortReq : UInt8:=0x02
def sWtxReq : UInt8:=0x03
def sResynchResp : UInt8:=0x20
def sIfsResp : UInt8:=0x21
def sAbortResp : UInt8:=0x22
def sWtxResp : UInt8:=0x23

structure Block where
  nad : UInt8
  pcb : UInt8
  kind : Kind
  inf : Bytes
  edcOk : Bool
  useCrc : Bool
  deriving DecidableEq

inductive Status
  | short | len | infTooBig | pcb | outBuf
  deriving DecidableEq

def lrc (buf : Bytes) : UInt8:=buf.foldl (· ^^^ ·) 0

def crcBit (crc : UInt16) : UInt16:=if crc &&& 0x8000≠0 then (crc <<< 1) ^^^ 0x1021 else crc <<< 1

def crc (buf : Bytes) : UInt16:=buf.foldl (fun crc b=>Nat.iterate crcBit 8 (crc ^^^ (b.toUInt16 <<< (8 : UInt16)))) 0xFFFF

def edcLen (useCrc : Bool) : ℕ:=if useCrc then 2 else 1

def edc (useCrc : Bool) (buf : Bytes) : Bytes:=
  if useCrc then [(crc buf >>> 8).toUInt8,(crc buf).toUInt8] else [lrc buf]

def appendEdc (useCrc : Bool) (outCap : ℕ) (out : Bytes) : Except Status Bytes:=
  if out.length+edcLen useCrc > outCap then .error .outBuf else .ok (out++edc useCrc out)

def iPcb (ns : UInt8) (more : Bool) : UInt8:=(if ns≠0 then 0x40 else 0) ||| (if more then 0x20 else 0)

def encodeI (nad ns : UInt8) (more : Bool) (inf : Bytes) (useCrc : Bool) (outCap : ℕ) : Except Status Bytes:=
  if inf.length > infMax then .error .infTooBig
  else if ns > 1 then .error .pcb
  else if 3+inf.length > outCap then .error .outBuf
  else appendEdc useCrc outCap ([nad,iPcb ns more,UInt8.ofNat inf.length]++inf)

def rPcb (nr err : UInt8) : UInt8:=(0x80 ||| (if nr≠0 then 0x10 else 0)) ||| err

def encodeR (nad nr err : UInt8) (useCrc : Bool) (outCap : ℕ) : Except Status Bytes:=
  if nr > 1 then .error .pcb
  else if err > 2 then .error .pcb
  else if 3 > outCap then .error .outBuf
  else appendEdc useCrc outCap [nad,rPcb nr err,0]

def encodeS (nad subtype : UInt8) (inf : Bytes) (useCrc : Bool) (outCap : ℕ) : Except Status Bytes:=
  if inf.length > infMax then .error .infTooBig
  else if subtype &&& ~~~0x3F≠0 then .error .pcb
  else if 3+inf.length > outCap then .error .outBuf
  else appendEdc useCrc outCap ([nad,0xC0 ||| subtype,UInt8.ofNat inf.length]++inf)

def checkEdc (useCrc : Bool) (buf code : Bytes) : Bool:=
  if useCrc then crc buf == (((code.getD 0 0).toUInt16 <<< 8) ||| (code.getD 1 0).toUInt16)
  else lrc buf == code.getD 0 0

def decodeKind (pcb : UInt8) (len : ℕ) : Except Status Kind:=
  if pcb &&& 0x80=0 then
    if pcb &&& 0x1F≠0 then .error .pcb
    else .ok (.i (if pcb &&& 0x40≠0 then 1 else 0) (pcb &&& 0x20 != 0))
  else if pcb &&& 0xC0=0x80 then
    if pcb &&& 0x2C≠0 then .error .pcb
    else if len≠0 then .error .len
    else .ok (.r (if pcb &&& 0x10≠0 then 1 else 0) (pcb &&& 0x03))
  else .ok (.s (pcb &&& 0x3F))

def decode (useCrc : Bool) (buf : Bytes) : Except Status Block:=
  if buf.length < 4 then .error .short
  else if useCrc && decide (buf.length < 5) then .error .short
  else if buf.getD 2 0=lenReserved then .error .len
  else
    let len:=(buf.getD 2 0).toNat
    if buf.length < 3+len+edcLen useCrc then .error .len
    else (decodeKind (buf.getD 1 0) len).map fun kind=>
      { nad:=buf.getD 0 0
        pcb:=buf.getD 1 0
        kind:=kind
        inf:=(buf.drop 3).take len
        edcOk:=checkEdc useCrc (buf.take (3+len)) (buf.drop (3+len))
        useCrc:=useCrc }

section RoundTrip

variable {nad ns nr err subtype : UInt8} {more useCrc : Bool} {inf buf out : Bytes} {outCap : ℕ}

theorem edc_length (useCrc : Bool) (buf : Bytes) : (edc useCrc buf).length=edcLen useCrc:=by
  cases useCrc <;> rfl

theorem checkEdc_edc (useCrc : Bool) (buf : Bytes) : checkEdc useCrc buf (edc useCrc buf)=true:=by
  cases useCrc with
  | false=>simp [checkEdc,edc]
  | true=>
    have hbytes : ∀ n : UInt16, ((n >>> 8).toUInt8.toUInt16 <<< 8) ||| n.toUInt8.toUInt16=n:=by
      intro n
      apply UInt16.toBitVec_inj.mp
      simp only [UInt16.toBitVec_or,UInt16.toBitVec_shiftLeft,UInt8.toBitVec_toUInt16,UInt16.toBitVec_toUInt8,
        UInt16.toBitVec_shiftRight]
      apply BitVec.eq_of_getLsbD_eq
      intro i hi
      interval_cases i <;> simp
    simp only [checkEdc,edc,if_true,List.getD_cons_zero,List.getD_cons_succ,hbytes,beq_self_eq_true]

theorem appendEdc_ok (h : appendEdc useCrc outCap buf=.ok out) : out=buf++edc useCrc buf:=by
  unfold appendEdc at h
  split at h
  · cases h
  · cases h
    rfl

theorem decode_edc (nad : UInt8) (useCrc : Bool) {inf : Bytes} (pcb : UInt8) (hlen : inf.length ≤ infMax) :
    decode useCrc ([nad,pcb,UInt8.ofNat inf.length]++inf++edc useCrc ([nad,pcb,UInt8.ofNat inf.length]++inf)) =
      (decodeKind pcb inf.length).map fun kind=>
        {nad:=nad,pcb:=pcb,kind:=kind,inf:=inf,edcOk:=true,useCrc:=useCrc}:=by
  have hbyte : (UInt8.ofNat inf.length).toNat=inf.length:=by
    rw [UInt8.toNat_ofNat']
    simp only [infMax] at hlen
    omega
  have hlength : ([nad,pcb,UInt8.ofNat inf.length]++inf).length=3+inf.length:=by simp; omega
  have hreserved : UInt8.ofNat inf.length≠lenReserved:=by
    intro h
    have hnat : inf.length=255:=by rw [← hbyte,h]; rfl
    simp only [infMax] at hlen
    omega
  have hedc : 1 ≤ edcLen useCrc:=by cases useCrc <;> simp [edcLen]
  generalize hbody : [nad,pcb,UInt8.ofNat inf.length]++inf=body at hlength
  have hnad : ∀ code, (body++code).getD 0 0=nad:=fun code=>by rw [← hbody]; rfl
  have hpcb : ∀ code, (body++code).getD 1 0=pcb:=fun code=>by rw [← hbody]; rfl
  have hlenByte : ∀ code, (body++code).getD 2 0=UInt8.ofNat inf.length:=fun code=>by rw [← hbody]; rfl
  have hinf : ∀ code, ((body++code).drop 3).take inf.length=inf:=by
    intro code
    rw [← hbody]
    simp
  have htotal : (body++edc useCrc body).length=3+inf.length+edcLen useCrc:=by
    rw [List.length_append,hlength,edc_length]
  unfold decode
  rw [if_neg (by omega),if_neg,hlenByte,if_neg hreserved]
  · dsimp only
    rw [hbyte,if_neg (by omega),hpcb,hnad,hinf,← hlength,List.take_left,List.drop_left,checkEdc_edc]
  · cases useCrc with
    | false=>simp
    | true=>
      have hcrc : edcLen true=2:=rfl
      simp only [Bool.true_and,decide_eq_true_iff]
      omega

theorem ns_cases (h : ¬ns > 1) : ns=0 ∨ ns=1:=by
  rw [gt_iff_lt,UInt8.lt_iff_toNat_lt] at h
  rw [← UInt8.toNat_inj,← UInt8.toNat_inj]
  simp only [UInt8.reduceToNat] at h ⊢
  omega

theorem encodeI_ok (h : encodeI nad ns more inf useCrc outCap=.ok out) : inf.length ≤ infMax ∧ (ns=0 ∨ ns=1) ∧
    out=[nad,iPcb ns more,UInt8.ofNat inf.length]++inf ++
      edc useCrc ([nad,iPcb ns more,UInt8.ofNat inf.length]++inf):=by
  unfold encodeI at h
  split_ifs at h with hlen hns hcap
  exact ⟨not_lt.mp hlen,ns_cases hns,appendEdc_ok h⟩

theorem decode_encodeI (h : encodeI nad ns more inf useCrc outCap=.ok out) : decode useCrc out =
    .ok {nad:=nad,pcb:=iPcb ns more,kind:=.i ns more,inf:=inf,edcOk:=true,useCrc:=useCrc}:=by
  obtain ⟨hlen,hns,rfl⟩:=encodeI_ok h
  have hkind : decodeKind (iPcb ns more) inf.length=.ok (.i ns more):=by
    rcases hns with rfl | rfl <;> cases more <;> rfl
  rw [decode_edc _ _ _ hlen,hkind]
  rfl

theorem decode_encodeR (h : encodeR nad nr err useCrc outCap=.ok out) : decode useCrc out =
    .ok {nad:=nad,pcb:=rPcb nr err,kind:=.r nr err,inf:=[],edcOk:=true,useCrc:=useCrc}:=by
  unfold encodeR at h
  split_ifs at h with hnr herr hcap
  have hkind : decodeKind (rPcb nr err) 0=.ok (.r nr err):=by
    have herr' : err=0 ∨ err=1 ∨ err=2:=by
      rw [gt_iff_lt,UInt8.lt_iff_toNat_lt] at herr
      simp only [← UInt8.toNat_inj,UInt8.reduceToNat] at herr ⊢
      omega
    rcases ns_cases hnr with rfl | rfl <;> rcases herr' with rfl | rfl | rfl <;> rfl
  have hempty : ([] : Bytes).length ≤ infMax:=Nat.zero_le _
  have hdecode:=decode_edc nad useCrc (rPcb nr err) hempty
  rw [List.length_nil,hkind] at hdecode
  rw [appendEdc_ok h]
  exact hdecode

theorem decode_encodeS (h : encodeS nad subtype inf useCrc outCap=.ok out) : decode useCrc out =
    .ok {nad:=nad,pcb:=0xC0 ||| subtype,kind:=.s subtype,inf:=inf,edcOk:=true,useCrc:=useCrc}:=by
  unfold encodeS at h
  split_ifs at h with hlen hsubtype hcap
  have hbits : (0xC0 ||| subtype) &&& 0x80=0x80 ∧ (0xC0 ||| subtype) &&& 0xC0=0xC0 ∧
      (0xC0 ||| subtype) &&& 0x3F=(subtype &&& 0x3F) ∧ subtype=(subtype &&& 0x3F) ||| (subtype &&& ~~~0x3F):=by
    simp only [← UInt8.toBitVec_inj]
    refine ⟨?_,?_,?_,?_⟩ <;>
    · apply BitVec.eq_of_getLsbD_eq
      intro i hi
      interval_cases i <;> simp
  obtain ⟨htop,hkinds,hsub,hsplit⟩:=hbits
  rw [not_not.mp hsubtype,UInt8.or_zero,← hsub] at hsplit
  have hkind : decodeKind (0xC0 ||| subtype) inf.length=.ok (.s subtype):=by
    rw [decodeKind,htop,if_neg (by decide),hkinds,if_neg (by decide),← hsplit]
  rw [appendEdc_ok h,decode_edc _ _ _ (not_lt.mp hlen),hkind]
  rfl

end RoundTrip

end CdcBadge.T1
