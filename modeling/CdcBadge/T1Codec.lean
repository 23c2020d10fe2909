import CdcBadge.T1Block

/-!
# Encoding and decoding T=1 blocks

What an encoder writes decodes to what it was given. A decoded block encodes back to its buffer unless the buffer
goes on behind the code, or is an R-block with both error bits.
-/

namespace CdcBadge.T1

def encode (nad : UInt8) (kind : Kind) (inf : Bytes) (useCrc : Bool) (outCap : ℕ) : Except Status Bytes:=
  match kind with
  | .i ns more=>encodeI nad ns more inf useCrc outCap
  | .r nr err=>encodeR nad nr err useCrc outCap
  | .s subtype=>encodeS nad subtype inf useCrc outCap

def Kind.field (kind : Kind) (inf : Bytes) : Bytes:=
  match kind with
  | .r _ _=>[]
  | _=>inf

/-- What the encoders write has the same fields when it is read. -/
def Decodes : Prop:=
  ∀ nad kind inf useCrc outCap out, encode nad kind inf useCrc outCap=.ok out →
    ∃ pcb, decode useCrc out =
      .ok {nad:=nad,pcb:=pcb,kind:=kind,inf:=kind.field inf,edcOk:=true,useCrc:=useCrc}

/-- What is read from the buffer, with the right code, is written as the buffer. -/
def EncodesBack (useCrc : Bool) (buf : Bytes) : Prop:=
  ∀ blk, decode useCrc buf=.ok blk→blk.edcOk=true →
    ∀ outCap, buf.length ≤ outCap→encode blk.nad blk.kind blk.inf useCrc outCap=.ok buf

def Accepted (useCrc : Bool) (buf : Bytes) : Prop:=∃ blk, decode useCrc buf=.ok blk ∧ blk.edcOk=true

section Codec

variable {useCrc : Bool}

theorem decodes : Decodes:=by
  intro nad kind inf useCrc outCap out h
  cases kind with
  | i ns more=>exact ⟨_,decode_encodeI h⟩
  | r nr err=>exact ⟨_,decode_encodeR h⟩
  | s subtype=>exact ⟨_,decode_encodeS h⟩

theorem checkEdc_iff {body code : Bytes} (hlength : code.length=edcLen useCrc) :
    checkEdc useCrc body code=true ↔ code=edc useCrc body:=by
  cases useCrc with
  | false=>
    obtain ⟨c,rfl⟩:=List.length_eq_one_iff.mp hlength
    simp only [checkEdc,edc,Bool.false_eq_true,if_false,List.getD_cons_zero,beq_iff_eq,List.cons.injEq,and_true]
    exact eq_comm
  | true=>
    obtain ⟨c,d,rfl⟩:=List.length_eq_two.mp hlength
    have hbytes : ∀ n : UInt16, n=(c.toUInt16 <<< 8) ||| d.toUInt16 ↔ c=(n >>> 8).toUInt8 ∧ d=n.toUInt8:=by
      intro n
      constructor
      · rintro rfl
        constructor
        · apply UInt8.toBitVec_inj.mp
          simp only [UInt16.toBitVec_toUInt8,UInt16.toBitVec_shiftRight,UInt16.toBitVec_or,UInt16.toBitVec_shiftLeft,
            UInt8.toBitVec_toUInt16]
          apply BitVec.eq_of_getLsbD_eq
          intro i hi
          interval_cases i <;> simp
        · apply UInt8.toBitVec_inj.mp
          simp only [UInt16.toBitVec_toUInt8,UInt16.toBitVec_or,UInt16.toBitVec_shiftLeft,UInt8.toBitVec_toUInt16]
          apply BitVec.eq_of_getLsbD_eq
          intro i hi
          interval_cases i <;> simp
      · rintro ⟨rfl,rfl⟩
        apply UInt16.toBitVec_inj.mp
        simp only [UInt16.toBitVec_or,UInt16.toBitVec_shiftLeft,UInt8.toBitVec_toUInt16,UInt16.toBitVec_toUInt8,
          UInt16.toBitVec_shiftRight]
        apply BitVec.eq_of_getLsbD_eq
        intro i hi
        interval_cases i <;> simp
    simp only [checkEdc,edc,if_true,List.getD_cons_zero,List.getD_cons_succ,beq_iff_eq,hbytes,List.cons.injEq,and_true]

/-- What a decoded buffer consists of: prologue, information field, code, and what follows. -/
structure Layout (useCrc : Bool) (buf : Bytes) (blk : Block) (code after : Bytes) : Prop where
  split : buf=[blk.nad,blk.pcb,UInt8.ofNat blk.inf.length]++blk.inf++code++after
  short : blk.inf.length ≤ infMax
  codeLength : code.length=edcLen useCrc
  kind : decodeKind blk.pcb blk.inf.length=.ok blk.kind
  edc : blk.edcOk=checkEdc useCrc ([blk.nad,blk.pcb,UInt8.ofNat blk.inf.length]++blk.inf) code

theorem checkEdc_append {body code : Bytes} (hlength : code.length=edcLen useCrc) (after : Bytes) :
    checkEdc useCrc body (code++after)=checkEdc useCrc body code:=by
  cases useCrc with
  | false=>
    obtain ⟨c,rfl⟩:=List.length_eq_one_iff.mp hlength
    rfl
  | true=>
    obtain ⟨c,d,rfl⟩:=List.length_eq_two.mp hlength
    rfl

theorem decode_layout {buf : Bytes} {blk : Block} (h : decode useCrc buf=.ok blk) : ∃ code after, Layout useCrc buf blk code after:=by
  match buf with
  | []=>cases h
  | [_]=>cases h
  | [_,_]=>cases h
  | nad::pcb::len::rest=>
    unfold decode at h
    split_ifs at h with hshort hcrc hreserved
    have hbody : (if (nad::pcb::len::rest).length < 3+len.toNat+edcLen useCrc then .error .len
        else (decodeKind pcb len.toNat).map fun kind=>
          { nad:=nad
            pcb:=pcb
            kind:=kind
            inf:=rest.take len.toNat
            edcOk:=checkEdc useCrc ((nad::pcb::len::rest).take (3+len.toNat))
              ((nad::pcb::len::rest).drop (3+len.toNat))
            useCrc:=useCrc })=Except.ok blk:=h
    split_ifs at hbody with hlen
    obtain ⟨kind,hkind,rfl⟩ : ∃ kind, decodeKind pcb len.toNat=.ok kind ∧ blk=_:=by
      cases hkind : decodeKind pcb len.toNat with
      | error e=>
        rw [hkind] at hbody
        cases hbody
      | ok kind=>
        rw [hkind] at hbody
        exact ⟨kind,rfl,(Except.ok.inj hbody).symm⟩
    have hbyte : len.toNat < 255:=by
      have hne : len.toNat≠255:=fun heq=>hreserved (UInt8.toNat_inj.mp heq)
      have hlt:=len.toNat_lt
      omega
    have hroom : len.toNat+edcLen useCrc ≤ rest.length:=by
      simp only [List.length_cons] at hlen
      omega
    have hinf : (rest.take len.toNat).length=len.toNat:=by
      rw [List.length_take]
      omega
    refine ⟨(rest.drop len.toNat).take (edcLen useCrc),(rest.drop len.toNat).drop (edcLen useCrc),?_,?_,?_,?_,?_⟩
    · show nad::pcb::len::rest=[nad,pcb,UInt8.ofNat (rest.take len.toNat).length]++rest.take len.toNat++_++_
      rw [hinf,UInt8.ofNat_toNat,List.append_assoc,List.append_assoc,List.take_append_drop,List.take_append_drop]
      rfl
    · show (rest.take len.toNat).length ≤ infMax
      rw [hinf]
      exact Nat.le_of_lt_succ hbyte
    · rw [List.length_take,List.length_drop]
      omega
    · show decodeKind pcb (rest.take len.toNat).length=.ok kind
      rw [hinf,hkind]
    · show checkEdc useCrc ((nad::pcb::len::rest).take (3+len.toNat)) ((nad::pcb::len::rest).drop (3+len.toNat))
        = checkEdc useCrc ([nad,pcb,UInt8.ofNat (rest.take len.toNat).length]++rest.take len.toNat) _
      rw [hinf,UInt8.ofNat_toNat,Nat.add_comm 3]
      simp only [List.take_succ_cons,List.drop_succ_cons]
      have hcode : ((rest.drop len.toNat).take (edcLen useCrc)).length=edcLen useCrc:=by
        rw [List.length_take,List.length_drop]
        omega
      conv_lhs=>rw [← List.take_append_drop (edcLen useCrc) (rest.drop len.toNat)]
      rw [checkEdc_append hcode]
      rfl

def Kind.pcb : Kind→UInt8
  | .i ns more=>iPcb ns more
  | .r nr err=>rPcb nr err
  | .s subtype=>0xC0 ||| subtype

def Kind.Bits : Kind→Prop
  | .i ns _=>ns ≤ 1
  | .r nr err=>nr ≤ 1 ∧ err ≤ 2
  | .s subtype=>subtype &&& ~~~0x3F=0

theorem encode_ok {nad : UInt8} {kind : Kind} {inf : Bytes} {outCap : ℕ} (hinf : kind.field inf=inf) (hshort : inf.length ≤ infMax)
    (hroom : 3+inf.length+edcLen useCrc ≤ outCap) (hbits : kind.Bits) :
    encode nad kind inf useCrc outCap=.ok ([nad,kind.pcb,UInt8.ofNat inf.length]++inf ++
      edc useCrc ([nad,kind.pcb,UInt8.ofNat inf.length]++inf)):=by
  have hedc : ∀ pcb : UInt8, appendEdc useCrc outCap ([nad,pcb,UInt8.ofNat inf.length]++inf)
      = .ok ([nad,pcb,UInt8.ofNat inf.length]++inf++edc useCrc ([nad,pcb,UInt8.ofNat inf.length]++inf)):=by
    intro pcb
    unfold appendEdc
    apply if_neg
    simp only [List.length_append,List.length_cons,List.length_nil]
    omega
  cases kind with
  | i ns more=>
    unfold encode encodeI
    dsimp only
    rw [if_neg (by omega),if_neg (UInt8.not_lt.mpr hbits),if_neg (by omega)]
    exact hedc _
  | r nr err=>
    obtain rfl : inf=[]:=hinf.symm
    unfold encode encodeR
    dsimp only
    rw [if_neg (UInt8.not_lt.mpr hbits.1),if_neg (UInt8.not_lt.mpr hbits.2),if_neg (by simp at hroom; omega)]
    exact hedc _
  | s subtype=>
    have hsubtype : subtype &&& ~~~0x3F=0:=hbits
    unfold encode encodeS
    dsimp only
    rw [if_neg (by omega),if_neg (not_not.mpr hsubtype),if_neg (by omega)]
    exact hedc _

theorem encode_bits {nad : UInt8} {kind : Kind} {inf out : Bytes} {outCap : ℕ} (h : encode nad kind inf useCrc outCap=.ok out) :
    kind.Bits:=by
  cases kind with
  | i ns more=>
    unfold encode encodeI at h
    dsimp only at h
    split_ifs at h with hlen hns
    exact UInt8.not_lt.mp hns
  | r nr err=>
    unfold encode encodeR at h
    dsimp only at h
    split_ifs at h with hnr herr
    exact ⟨UInt8.not_lt.mp hnr,UInt8.not_lt.mp herr⟩
  | s subtype=>
    unfold encode encodeS at h
    dsimp only at h
    split_ifs at h with hlen hsubtype
    exact not_not.mp hsubtype

/-- What the bits of a PCB say of its kind: only the two error bits of an R-block are not what an encoder takes. -/
theorem decodeKind_pcb {pcb : UInt8} {len : ℕ} {kind : Kind} (h : decodeKind pcb len=.ok kind) :
    kind.pcb=pcb ∧ (∀ inf : Bytes, inf.length=len→kind.field inf=inf) ∧ (kind.Bits ↔ pcb &&& 0xC3≠0x83):=by
  unfold decodeKind at h
  by_cases htop : pcb &&& 0x80=0
  · rw [if_pos htop] at h
    by_cases hreserved : pcb &&& 0x1F=0
    · rw [if_neg (not_not.mpr hreserved)] at h
      obtain rfl:=Except.ok.inj h
      have hall : ∀ pcb : UInt8, pcb &&& 0x80=0→pcb &&& 0x1F=0 →
          iPcb (if pcb &&& 0x40≠0 then 1 else 0) (pcb &&& 0x20 != 0)=pcb ∧
            ((if pcb &&& 0x40≠0 then 1 else 0 : UInt8) ≤ 1 ↔ pcb &&& 0xC3≠0x83):=by
        apply forall_byte
        decide +kernel
      obtain ⟨hpcb,hbits⟩:=hall pcb htop hreserved
      exact ⟨hpcb,fun _ _=>rfl,hbits⟩
    · rw [if_pos hreserved] at h
      cases h
  · rw [if_neg htop] at h
    by_cases htwo : pcb &&& 0xC0=0x80
    · rw [if_pos htwo] at h
      by_cases hreserved : pcb &&& 0x2C=0
      · rw [if_neg (not_not.mpr hreserved)] at h
        by_cases hlen : len=0
        · rw [if_neg (not_not.mpr hlen)] at h
          obtain rfl:=Except.ok.inj h
          have hall : ∀ pcb : UInt8, pcb &&& 0xC0=0x80→pcb &&& 0x2C=0 →
              rPcb (if pcb &&& 0x10≠0 then 1 else 0) (pcb &&& 0x03)=pcb ∧
                ((if pcb &&& 0x10≠0 then 1 else 0 : UInt8) ≤ 1 ∧ pcb &&& 0x03 ≤ 2 ↔ pcb &&& 0xC3≠0x83):=by
            apply forall_byte
            decide +kernel
          obtain ⟨hpcb,hbits⟩:=hall pcb htwo hreserved
          refine ⟨hpcb,?_,hbits⟩
          intro inf hinf
          rw [hlen] at hinf
          exact (List.length_eq_zero_iff.mp hinf).symm
        · rw [if_pos hlen] at h
          cases h
      · rw [if_pos hreserved] at h
        cases h
    · rw [if_neg htwo] at h
      obtain rfl:=Except.ok.inj h
      have hall : ∀ pcb : UInt8, ¬pcb &&& 0x80=0→¬pcb &&& 0xC0=0x80 →
          0xC0 ||| (pcb &&& 0x3F)=pcb ∧ ((pcb &&& 0x3F) &&& ~~~0x3F=0 ↔ pcb &&& 0xC3≠0x83):=by
        apply forall_byte
        decide +kernel
      obtain ⟨hpcb,hbits⟩:=hall pcb htop htwo
      exact ⟨hpcb,fun _ _=>rfl,hbits⟩

/-- An accepted buffer is what its block encodes to, if it ends with the code and is no R-block with both error bits. -/
theorem encodesBack_iff {buf : Bytes} {blk : Block} (hdecode : decode useCrc buf=.ok blk) (hok : blk.edcOk=true) (outCap : ℕ)
    (hroom : buf.length ≤ outCap) : encode blk.nad blk.kind blk.inf useCrc outCap=.ok buf ↔
      buf.length=3+(buf.getD 2 0).toNat+edcLen useCrc ∧ buf.getD 1 0 &&& 0xC3≠0x83:=by
  obtain ⟨code,after,hsplit,hshort,hcode,hkind,hedc⟩:=decode_layout hdecode
  obtain ⟨hpcb,hfield,hbits⟩:=decodeKind_pcb hkind
  have hcodeIs : code=edc useCrc ([blk.nad,blk.pcb,UInt8.ofNat blk.inf.length]++blk.inf):=
    (checkEdc_iff hcode).mp (hedc.symm.trans hok)
  have hlen : (buf.getD 2 0).toNat=blk.inf.length:=by
    rw [hsplit]
    show (UInt8.ofNat blk.inf.length).toNat=blk.inf.length
    rw [UInt8.toNat_ofNat']
    unfold infMax at hshort
    omega
  have hpcbByte : buf.getD 1 0=blk.pcb:=by rw [hsplit]; rfl
  have hlength : buf.length=3+blk.inf.length+edcLen useCrc+after.length:=by
    rw [hsplit]
    simp only [List.length_append,List.length_cons,List.length_nil,hcode]
  rw [hlen,hpcbByte]
  by_cases hboth : blk.pcb &&& 0xC3=0x83
  · -- The encoder refuses the error bits.
    exact ⟨fun hencode=>absurd hboth (hbits.mp (encode_bits hencode)),fun h=>absurd hboth h.2⟩
  · have hencode : encode blk.nad blk.kind blk.inf useCrc outCap=_:=
      encode_ok (hfield blk.inf rfl) hshort (by omega) (hbits.mpr hboth)
    rw [hpcb,← hcodeIs] at hencode
    rw [hencode]
    constructor
    · intro heq
      have hlength':=congrArg List.length (Except.ok.inj heq)
      simp only [List.length_append,List.length_cons,List.length_nil,hcode] at hlength'
      exact ⟨by omega,hboth⟩
    · rintro ⟨hwhole,-⟩
      have hafter : after=[]:=List.length_eq_zero_iff.mp (by omega)
      rw [hafter,List.append_nil] at hsplit
      rw [← hsplit]

/-- The encoders and the decoder agree on a buffer, unless it is accepted and has bytes behind its code or both error bits
of an R-block. -/
theorem codec_iff (useCrc : Bool) (buf : Bytes) : Decodes ∧ EncodesBack useCrc buf ↔
    (Accepted useCrc buf→buf.length=3+(buf.getD 2 0).toNat+edcLen useCrc ∧ buf.getD 1 0 &&& 0xC3≠0x83):=by
  constructor
  · rintro ⟨-,hback⟩ ⟨blk,hdecode,hok⟩
    exact (encodesBack_iff hdecode hok buf.length le_rfl).mp (hback blk hdecode hok buf.length le_rfl)
  · intro h
    refine ⟨decodes,?_⟩
    intro blk hdecode hok outCap hroom
    exact (encodesBack_iff hdecode hok outCap hroom).mpr (h ⟨blk,hdecode,hok⟩)

/-- An R-block with a byte behind its LRC is accepted, and the byte is lost. -/
theorem not_codec : ¬∀ useCrc buf, Decodes ∧ EncodesBack useCrc buf:=by
  intro h
  have hback:=(h false [0x00,0x80,0x00,0x80,0x55]).2
    {nad:=0x00,pcb:=0x80,kind:=.r 0 0,inf:=[],edcOk:=true,useCrc:=false} rfl rfl 8 (by decide)
  revert hback
  decide

end Codec

end CdcBadge.T1
