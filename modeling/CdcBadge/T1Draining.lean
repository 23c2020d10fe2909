import CdcBadge.T1Codec
import CdcBadge.T1State

/-!
# Draining a response over T=1

A reader that asks for more than 254 bytes a block, or for none, is taken at its word, and a longer response never
leaves the card, or in blocks of 32 bytes.
-/

namespace CdcBadge.T1

open Runs

/-- What repeated calls with a buffer of 259 bytes give, up to the first that gives nothing or so many of them. -/
def drain : ℕ → State → List Bytes × State
  | 0, s=>([],s)
  | n+1, s=>
    if (nextOutbound controlCap s).1=[] then ([],(nextOutbound controlCap s).2)
    else
      let (outs,t):=drain n (nextOutbound controlCap s).2
      ((nextOutbound controlCap s).1::outs,t)

/-- I-blocks with these fields, numbered in turn, each but the last with the more bit. -/
inductive Chunks (useCrc : Bool) : UInt8 → List Bytes → List Bytes→Prop
  | last {ns : UInt8} {inf out : Bytes} {blk : Block} (hdecode : decode useCrc out=.ok blk) (hok : blk.edcOk=true)
      (hkind : blk.kind=.i ns false) (hinf : blk.inf=inf) : Chunks useCrc ns [inf] [out]
  | more {ns : UInt8} {inf out : Bytes} {blk : Block} {infs outs : List Bytes} (hdecode : decode useCrc out=.ok blk)
      (hok : blk.edcOk=true) (hkind : blk.kind=.i ns true) (hinf : blk.inf=inf) (hrest : Chunks useCrc (flip ns) infs outs) :
      Chunks useCrc ns (inf::infs) (out::outs)

/-- The calls come to an end, and after a reply that was waiting they gave the response in chunks that fit the reader. -/
def Drains (s : State) (resp : Bytes) : Prop:=
  ∃ n infs outs, let t:=(queueResponse resp s).2
    (nextOutbound controlCap (drain n t).2).1=[] ∧
      (drain n t).1=(if s.control=[] then [] else [s.control])++outs ∧ Chunks s.useCrc s.nsSend infs outs ∧
      infs.flatten=resp ∧ ∀ inf∈infs, inf.length ≤ min s.ifsd infMax

def Decoded (blk : Block) : Prop:=∃ useCrc buf, decode useCrc buf=.ok blk

def FedDecoded (_ : State) : Call→Prop
  | .feed blk=>Decoded blk
  | _=>True

/-- What calls with decoded blocks keep. -/
structure Numbered (s : State) : Prop where
  ns : s.nsSend ≤ 1
  ifsd : s.ifsd ≤ 255
  control : s.control.length ≤ controlCap

section Draining

variable {s : State} {resp : Bytes} {useCrc : Bool}

theorem appendEdc_length {outCap : ℕ} {body out : Bytes} (h : appendEdc useCrc outCap body=.ok out) :
    out.length ≤ outCap:=by
  unfold appendEdc at h
  split_ifs at h with hroom
  obtain rfl:=Except.ok.inj h
  rw [List.length_append,edc_length]
  omega

theorem encoded_length {block : Except Status Bytes} (h : ∀ out, block=.ok out → out.length ≤ controlCap) :
    (encoded block).length ≤ controlCap:=by
  cases block with
  | error e=>exact Nat.zero_le _
  | ok out=>exact h out rfl

theorem encodeR_length {nad nr err : UInt8} {outCap : ℕ} {out : Bytes}
    (h : encodeR nad nr err useCrc outCap=.ok out) : out.length ≤ outCap:=by
  unfold encodeR at h
  split_ifs at h
  exact appendEdc_length h

theorem encodeS_length {nad subtype : UInt8} {inf : Bytes} {outCap : ℕ} {out : Bytes}
    (h : encodeS nad subtype inf useCrc outCap=.ok out) : out.length ≤ outCap:=by
  unfold encodeS at h
  split_ifs at h
  exact appendEdc_length h

theorem Numbered.encodeRblock (h : Numbered s) (nr err : UInt8) : Numbered (encodeRblock nr err s) where
  ns:=h.ns
  ifsd:=h.ifsd
  control:=encoded_length fun _=>encodeR_length

theorem Numbered.encodeSblockResponse (h : Numbered s) (subtype : UInt8) (inf : Bytes) :
    Numbered (encodeSblockResponse subtype inf s) where
  ns:=h.ns
  ifsd:=h.ifsd
  control:=encoded_length fun _=>encodeS_length

theorem flip_le (bit : UInt8) : flip bit ≤ 1:=by
  unfold flip
  split_ifs <;> decide

theorem Decoded.nr_le {blk : Block} {nr err : UInt8} (h : Decoded blk) (hkind : blk.kind=.r nr err) : nr ≤ 1:=by
  obtain ⟨useCrc,buf,hdecode⟩:=h
  obtain ⟨code,after,-,-,-,hdecoded,-⟩:=decode_layout hdecode
  rw [hkind] at hdecoded
  unfold decodeKind at hdecoded
  split_ifs at hdecoded <;> cases Except.ok.inj hdecoded <;> decide

theorem Numbered.feed (h : Numbered s) {blk : Block} (hblk : Decoded blk) : Numbered (feed blk s).2:=by
  cases hok : blk.edcOk with
  | false=>
    rw [feed_damaged hok]
    exact h.encodeRblock _ _
  | true=>
    unfold T1.feed
    cases hkind : blk.kind with
    | i ns more=>
      dsimp only
      unfold handleIblock
      rw [hok,if_neg (by simp)]
      dsimp only
      generalize (if s.apduInProgress=true then s.apdu else [])=apdu
      split_ifs
      · exact h.encodeRblock _ _
      · exact ⟨h.ns,h.ifsd,(h.encodeSblockResponse _ _).control⟩
      · exact ⟨h.ns,h.ifsd,encoded_length fun _=>encodeR_length⟩
      · exact ⟨h.ns,h.ifsd,h.control⟩
    | r nr err=>
      dsimp only
      rw [handleRblock_ok hok]
      split_ifs
      · exact ⟨hblk.nr_le hkind,h.ifsd,h.control⟩
      · exact h
    | s subtype=>
      dsimp only
      unfold handleSblock
      rw [hok,if_neg (by simp)]
      split_ifs
      · split
        · rename_i ifsd _
          exact ⟨h.ns,Nat.le_of_lt_succ ifsd.toNat_lt,encoded_length fun _=>encodeS_length⟩
        · exact h.encodeRblock _ _
      · exact ⟨h.ns,h.ifsd,encoded_length fun _=>encodeS_length⟩
      · exact h.encodeSblockResponse _ _
      · exact ⟨(by decide : (0 : UInt8) ≤ 1),h.ifsd,encoded_length fun _=>encodeS_length⟩
      · exact h

theorem Numbered.queueResponse (h : Numbered s) (resp : Bytes) : Numbered (queueResponse resp s).2:=by
  unfold T1.queueResponse
  split_ifs
  · exact h
  · exact ⟨h.ns,h.ifsd,h.control⟩

theorem Numbered.nextOutbound (h : Numbered s) (outCap : ℕ) : Numbered (nextOutbound outCap s).2:=by
  have hout:=nextOutbound_cases outCap h.ifsd
  generalize T1.nextOutbound outCap s=r at hout
  cases hout with
  | nothing=>exact h
  | control=>exact ⟨h.ns,h.ifsd,Nat.zero_le _⟩
  | drained=>exact ⟨h.ns,h.ifsd,h.control⟩
  | chunk=>exact ⟨flip_le _,h.ifsd,h.control⟩

theorem numbered_run {calls : List Call} (h : AlongRun call FedDecoded (init useCrc) calls) :
    Numbered (run call (init useCrc) calls):=by
  refine run_invariant (I:=Numbered) ?_ ⟨(by decide : (0 : UInt8) ≤ 1),(by decide : defaultIfsc ≤ 255),Nat.zero_le _⟩ h
  intro s c hfed hs
  cases c with
  | feed blk=>exact hs.feed hfed
  | queueResponse resp=>exact hs.queueResponse resp
  | nextOutbound outCap=>exact hs.nextOutbound outCap

theorem nextOutbound_control (h : s.control≠[]) (hfits : s.control.length ≤ controlCap) :
    nextOutbound controlCap s=(s.control,{s with control:=[]}):=by
  unfold nextOutbound
  rw [if_pos (List.length_pos_iff.mpr h),if_neg (by omega)]

theorem nextOutbound_idle (hcontrol : s.control=[]) (hpending : s.respPending=false) :
    (nextOutbound controlCap s).1=[]:=by
  unfold nextOutbound
  rw [hcontrol,if_neg (by simp),hpending,if_pos (by simp)]

theorem nextOutbound_pending {chunkLen : ℕ} (hcontrol : s.control=[]) (hpending : s.respPending=true)
    (hmore : s.respSent < s.resp.length) (hifsd : s.ifsd≠0) (hlen : chunkLen=min (s.resp.length-s.respSent) s.ifsd)
    (hbyte : chunkLen < 256) : nextOutbound controlCap s =
      match encodeI cardNad s.nsSend (decide (chunkLen < s.resp.length-s.respSent)) ((s.resp.drop s.respSent).take chunkLen)
        s.useCrc controlCap with
      | .error _=>([],s)
      | .ok out=>
        (out,{ s with
          respSent:=s.respSent+chunkLen
          nsSend:=flip s.nsSend
          respPending:=s.respPending && decide (chunkLen < s.resp.length-s.respSent) }):=by
  have hchunk : (if s.resp.length-s.respSent > s.ifsd then s.ifsd else s.resp.length-s.respSent)=chunkLen:=by
    split_ifs <;> omega
  unfold nextOutbound
  rw [hcontrol,if_neg (by simp),hpending,if_neg (by simp)]
  dsimp only
  rewrite [if_neg (by omega),if_pos hifsd,hchunk,Nat.mod_eq_of_lt hbyte]
  rfl

/-- A state in which the rest of a response goes out in blocks that the reader takes. -/
structure Draining (s : State) : Prop where
  control : s.control=[]
  pending : s.respPending=true
  sent : s.respSent < s.resp.length
  ns : s.nsSend ≤ 1
  ifsd : s.ifsd≠0
  fits : min (s.resp.length-s.respSent) s.ifsd ≤ infMax

theorem Draining.chunk (h : Draining s) : ∃ out blk,
    nextOutbound controlCap s=(out,{ s with
      respSent:=s.respSent+min (s.resp.length-s.respSent) s.ifsd
      nsSend:=flip s.nsSend
      respPending:=decide (min (s.resp.length-s.respSent) s.ifsd < s.resp.length-s.respSent) }) ∧
    decode s.useCrc out=.ok blk ∧ blk.edcOk=true ∧
    blk.kind=.i s.nsSend (decide (min (s.resp.length-s.respSent) s.ifsd < s.resp.length-s.respSent)) ∧
    blk.inf=(s.resp.drop s.respSent).take (min (s.resp.length-s.respSent) s.ifsd):=by
  have hfits:=h.fits
  have hlength : ((s.resp.drop s.respSent).take (min (s.resp.length-s.respSent) s.ifsd)).length ≤ infMax:=by
    rw [List.length_take]
    omega
  have hcode : edcLen s.useCrc ≤ 2:=by
    unfold edcLen
    split_ifs <;> decide
  have hroom : 3+((s.resp.drop s.respSent).take (min (s.resp.length-s.respSent) s.ifsd)).length+edcLen s.useCrc ≤
      controlCap:=by
    unfold controlCap
    omega
  have hencode : encodeI cardNad s.nsSend (decide (min (s.resp.length-s.respSent) s.ifsd < s.resp.length-s.respSent))
      ((s.resp.drop s.respSent).take (min (s.resp.length-s.respSent) s.ifsd)) s.useCrc controlCap=.ok _:=
    encode_ok (show (Kind.i _ _).field _=_ from rfl) hlength hroom h.ns
  refine ⟨_,_,?_,decode_encodeI hencode,rfl,rfl,rfl⟩
  rw [nextOutbound_pending h.control h.pending h.sent h.ifsd rfl (lt_of_le_of_lt hfits (by decide)),hencode,h.pending]
  rfl

theorem drain_succ {n : ℕ} {out : Bytes} {t : State} (h : nextOutbound controlCap s=(out,t)) (hout : out≠[]) :
    drain (n+1) s=(out::(drain n t).1,(drain n t).2):=by
  rw [drain,h,if_neg hout]

theorem decode_ne_nil {out : Bytes} {blk : Block} (h : decode useCrc out=.ok blk) : out≠[]:=by
  rintro rfl
  cases h

/-- The rest of a response goes out chunk by chunk. The induction is on what is left of it. -/
theorem Draining.drains (h : Draining s) : ∃ n infs outs, (nextOutbound controlCap (drain n s).2).1=[] ∧
    (drain n s).1=outs ∧ Chunks s.useCrc s.nsSend infs outs ∧ infs.flatten=s.resp.drop s.respSent ∧
    ∀ inf∈infs, inf.length ≤ min s.ifsd infMax:=by
  generalize hleft : s.resp.length-s.respSent=left
  induction left using Nat.strong_induction_on generalizing s with
  | _ left ih=>
    obtain ⟨out,blk,hnext,hdecode,hok,hkind,hinf⟩:=h.chunk
    have hne:=decode_ne_nil hdecode
    have hfits:=h.fits
    have hshort : ((s.resp.drop s.respSent).take (min (s.resp.length-s.respSent) s.ifsd)).length ≤ min s.ifsd infMax:=by
      rw [List.length_take]
      omega
    by_cases hlast : min (s.resp.length-s.respSent) s.ifsd < s.resp.length-s.respSent
    · rw [decide_eq_true hlast] at hnext hkind
      have hpos : 0 < min (s.resp.length-s.respSent) s.ifsd:=by
        have hifsd:=h.ifsd
        omega
      generalize hchunk : min (s.resp.length-s.respSent) s.ifsd=chunkLen at *
      have hrest : Draining {s with respSent:=s.respSent+chunkLen,nsSend:=flip s.nsSend,respPending:=true}:=by
        constructor
        · exact h.control
        · rfl
        · show s.respSent+chunkLen < s.resp.length
          omega
        · exact flip_le _
        · exact h.ifsd
        · show min (s.resp.length-(s.respSent+chunkLen)) s.ifsd ≤ infMax
          omega
      obtain ⟨n,infs,outs,hend,houts,hchunks,hflat,hall⟩:=ih (s.resp.length-(s.respSent+chunkLen)) (by omega) hrest rfl
      refine ⟨n+1,blk.inf::infs,out::outs,?_,?_,?_,?_,?_⟩
      · rw [drain_succ hnext hne]
        exact hend
      · rw [drain_succ hnext hne,houts]
      · exact .more hdecode hok hkind rfl hchunks
      · rw [List.flatten_cons,hflat,hinf,← List.drop_drop,List.take_append_drop]
      · intro inf hmem
        rcases List.mem_cons.mp hmem with rfl | hmem
        · rw [hinf]
          exact hshort
        · exact hall inf hmem
    · rw [decide_eq_false hlast] at hnext hkind
      have hwhole : min (s.resp.length-s.respSent) s.ifsd=s.resp.length-s.respSent:=by omega
      rw [hwhole,← List.length_drop,List.take_length] at hinf hshort
      refine ⟨1,[blk.inf],[out],?_,?_,.last hdecode hok hkind rfl,?_,?_⟩
      · rw [drain_succ hnext hne]
        exact nextOutbound_idle h.control rfl
      · rw [drain_succ hnext hne]
        rfl
      · rw [List.flatten_singleton,hinf]
      · intro inf hmem
        rw [List.mem_singleton.mp hmem,hinf]
        exact hshort

theorem queueResponse_eq (hlen : resp.length ≤ maxResponseLen) : (queueResponse resp s).2 =
    {s with resp:=resp,respSent:=0,respPending:=decide (resp.length > 0)}:=by
  unfold queueResponse
  rw [if_neg (by omega)]

theorem drain_control {n : ℕ} {outs : List Bytes} (hfits : s.control.length ≤ controlCap)
    (hend : (nextOutbound controlCap (drain n {s with control:=[]}).2).1=[]) (houts : (drain n {s with control:=[]}).1=outs) :
    ∃ m, (nextOutbound controlCap (drain m s).2).1=[] ∧ (drain m s).1=(if s.control=[] then [] else [s.control])++outs:=by
  by_cases hcontrol : s.control=[]
  · rw [if_pos hcontrol]
    have hsame : {s with control:=[]}=s:=by rw [← hcontrol]
    rw [hsame] at hend houts
    exact ⟨n,hend,houts⟩
  · rw [if_neg hcontrol]
    have hsucc:=drain_succ (n:=n) (nextOutbound_control hcontrol hfits) hcontrol
    rw [← houts]
    refine ⟨n+1,?_,?_⟩
    · rw [hsucc]
      exact hend
    · rw [hsucc]
      rfl

theorem Numbered.drains (h : Numbered s) (hne : resp≠[]) (hlen : resp.length ≤ maxResponseLen) (hifsd : s.ifsd≠0)
    (hfits : s.ifsd ≤ infMax ∨ resp.length ≤ infMax) : Drains s resp:=by
  have hpos : 0 < resp.length:=List.length_pos_iff.mpr hne
  have hdraining : Draining {s with control:=[],resp:=resp,respSent:=0,respPending:=decide (resp.length > 0)}:=by
    constructor
    · rfl
    · exact decide_eq_true hpos
    · exact hpos
    · exact h.ns
    · exact hifsd
    · show min (resp.length-0) s.ifsd ≤ infMax
      omega
  obtain ⟨n,infs,outs,hend,houts,hchunks,hflat,hall⟩:=hdraining.drains
  have hqueued:=queueResponse_eq (s:=s) hlen
  obtain ⟨m,hend,houts⟩:=drain_control (s:={s with resp:=resp,respSent:=0,respPending:=decide (resp.length > 0)})
    h.control hend houts
  refine ⟨m,infs,outs,?_,?_,hchunks,hflat,hall⟩
  · rw [hqueued]
    exact hend
  · rw [hqueued]
    exact houts

theorem Chunks.ne_nil {ns : UInt8} {infs outs : List Bytes} (h : Chunks useCrc ns infs outs) : outs≠[]:=by
  cases h <;> simp

theorem nextOutbound_stuck (hcontrol : s.control=[]) (hpending : s.respPending=true) (hifsd : s.ifsd=255)
    (hleft : infMax < s.resp.length-s.respSent) : nextOutbound controlCap s=([],s):=by
  rw [nextOutbound_pending hcontrol hpending (by omega) (by omega) rfl (by omega)]
  have hlength : infMax < ((s.resp.drop s.respSent).take (min (s.resp.length-s.respSent) s.ifsd)).length:=by
    rw [List.length_take,List.length_drop,hifsd]
    unfold infMax at hleft ⊢
    omega
  unfold encodeI
  rw [if_pos hlength]

theorem drain_stuck (h : (nextOutbound controlCap s).1=[]) (n : ℕ) : (drain n s).1=[]:=by
  cases n with
  | zero=>rfl
  | succ n=>
    unfold drain
    rw [if_pos h]

theorem Numbered.not_drains (h : Numbered s) (hlen : resp.length ≤ maxResponseLen) (hifsd : s.ifsd=255) (hlong : infMax < resp.length) :
    ¬Drains s resp:=by
  rintro ⟨n,infs,outs,-,houts,hchunks,-⟩
  rw [queueResponse_eq hlen] at houts
  have hpending : decide (resp.length > 0)=true:=decide_eq_true (by omega)
  have hstuck : T1.nextOutbound controlCap
      {s with control:=[],resp:=resp,respSent:=0,respPending:=decide (resp.length > 0)}=([],_):=
    nextOutbound_stuck rfl hpending hifsd hlong
  apply hchunks.ne_nil
  by_cases hcontrol : s.control=[]
  · rw [if_pos hcontrol,List.nil_append] at houts
    rw [← houts,hcontrol]
    exact drain_stuck (congrArg Prod.fst hstuck) n
  · rw [if_neg hcontrol] at houts
    cases n with
    | zero=>cases houts
    | succ n=>
      have hsucc:=drain_succ (n:=n) (nextOutbound_control
        (s:={s with resp:=resp,respSent:=0,respPending:=decide (resp.length > 0)}) hcontrol h.control) hcontrol
      rw [hsucc,drain_stuck (congrArg Prod.fst hstuck)] at houts
      exact (List.cons.inj houts).2.symm

/-- A response leaves in chunks that the reader takes, unless the reader has asked for blocks of 255 bytes and the response is
longer than a block can be, or for blocks of none. -/
theorem drains_iff {useCrc : Bool} {calls : List Call} (hfed : AlongRun call FedDecoded (init useCrc) calls) (hne : resp≠[])
    (hlen : resp.length ≤ maxResponseLen) : Drains (run call (init useCrc) calls) resp ↔
      (run call (init useCrc) calls).ifsd≠0 ∧
        ((run call (init useCrc) calls).ifsd ≤ infMax ∨ resp.length ≤ infMax):=by
  have hnumbered:=numbered_run hfed
  generalize run call (init useCrc) calls=s at hnumbered
  constructor
  · intro hdrains
    constructor
    · intro hzero
      obtain ⟨n,infs,outs,-,-,-,hflat,hall⟩:=hdrains
      apply hne
      rw [← hflat,List.flatten_eq_nil_iff]
      intro inf hmem
      have hshort:=hall inf hmem
      rw [hzero] at hshort
      exact List.length_eq_zero_iff.mp (by omega)
    · by_contra hlong
      rw [not_or,not_le,not_le] at hlong
      have hifsd:=hnumbered.ifsd
      unfold infMax at hlong
      exact hnumbered.not_drains hlen (by omega) hlong.2 hdrains
  · rintro ⟨hifsd,hfits⟩
    exact hnumbered.drains hne hlen hifsd hfits

end Draining

def ifsRequest : Block:={nad:=0x00,pcb:=0xC1,kind:=.s sIfsReq,inf:=[0xFF],edcOk:=true,useCrc:=false}

theorem decoded_ifsRequest : Decoded ifsRequest:=⟨false,[0x00,0xC1,0x01,0xFF,0x3F],by decide +kernel⟩

theorem drains_iff_ifsRequest : (Drains (run call (init false) [.feed ifsRequest]) [0x90,0x00] ↔
    (run call (init false) [.feed ifsRequest]).ifsd≠0 ∧
      ((run call (init false) [.feed ifsRequest]).ifsd ≤ infMax ∨ ([0x90,0x00] : Bytes).length ≤ infMax)) ∧
    (run call (init false) [.feed ifsRequest]).ifsd=255:=
  ⟨drains_iff ⟨decoded_ifsRequest,trivial⟩ (by decide) (by decide),by decide +kernel⟩

/-- After that request, a response of 300 bytes never leaves the card. -/
theorem not_drains_ifsRequest : ¬∀ useCrc calls resp, AlongRun call FedDecoded (init useCrc) calls → resp≠[] →
    resp.length ≤ maxResponseLen→Drains (run call (init useCrc) calls) resp:=by
  intro h
  have hfed : AlongRun call FedDecoded (init false) [.feed ifsRequest]:=⟨decoded_ifsRequest,trivial⟩
  have hlength : (List.replicate 300 (0 : UInt8)).length=300:=List.length_replicate
  have hlong : infMax < (List.replicate 300 (0 : UInt8)).length:=by rw [hlength]; decide
  have hlen : (List.replicate 300 (0 : UInt8)).length ≤ maxResponseLen:=by rw [hlength]; decide
  have hdrains:=h false [.feed ifsRequest] (List.replicate 300 0) hfed (List.ne_nil_of_length_pos (by omega)) hlen
  exact (numbered_run hfed).not_drains hlen (by decide +kernel) hlong hdrains

end CdcBadge.T1
