import CdcBadge.Runs
import CdcBadge.T1Block

/-!
# The card's side of the T=1 protocol

Sequence numbers, chained commands, S-blocks, and responses cut into chunks of at most
IFSD bytes. A block queued in reply goes out before any chunk.
-/

namespace CdcBadge.T1

open Runs

def cardNad : UInt8:=0x00
def maxApduLen : ℕ:=4096
def maxResponseLen : ℕ:=4096
def controlCap : ℕ:=infMax+5

def flip (bit : UInt8) : UInt8:=if bit≠0 then 0 else 1

/-- What feeding a block comes to. -/
inductive Feed
  | needOut | apduReady | waitMore | ignored
  deriving DecidableEq

/-- `t1_state_t`; buffers hold the bytes within their lengths. -/
structure State where
  nsSend : UInt8:=0
  nsExpected : UInt8:=0
  ifsc : ℕ:=defaultIfsc
  ifsd : ℕ:=defaultIfsc
  useCrc : Bool
  apdu : Bytes:=[]
  apduInProgress : Bool:=false
  resp : Bytes:=[]
  respSent : ℕ:=0
  respPending : Bool:=false
  control : Bytes:=[]

def init (useCrc : Bool) : State:={useCrc:=useCrc}

def encoded (block : Except Status Bytes) : Bytes:=block.toOption.getD []

def encodeRblock (nr err : UInt8) (s : State) : State:=
  {s with control:=encoded (encodeR cardNad nr err s.useCrc controlCap)}

def encodeSblockResponse (subtype : UInt8) (inf : Bytes) (s : State) : State:=
  {s with control:=encoded (encodeS cardNad subtype inf s.useCrc controlCap)}

def dropApdu (s : State) : State:={s with apduInProgress:=false,apdu:=[]}

def dropResponse (s : State) : State:={s with respPending:=false,resp:=[],respSent:=0}

def handleIblock (ns : UInt8) (more : Bool) (blk : Block) (s : State) : Feed × State:=
  if !blk.edcOk then (.needOut,encodeRblock s.nsExpected rEdcErr s)
  else if ns≠s.nsExpected then (.needOut,encodeRblock s.nsExpected rOtherErr s)
  else
    let apdu:=if s.apduInProgress then s.apdu else []
    if apdu.length+blk.inf.length > maxApduLen then
      (.needOut,dropApdu (encodeSblockResponse sAbortResp [] s))
    else
      let s:={s with apdu:=apdu++blk.inf,apduInProgress:=true,nsExpected:=flip s.nsExpected}
      if more then (.waitMore,encodeRblock s.nsExpected rOk s)
      else (.apduReady,{s with apduInProgress:=false})

def handleRblock (nr : UInt8) (blk : Block) (s : State) : Feed × State:=
  if !blk.edcOk then (.needOut,encodeRblock s.nsExpected rEdcErr s)
  else if s.respPending then (.ignored,{s with nsSend:=nr})
  else (.ignored,s)

def handleSblock (subtype : UInt8) (blk : Block) (s : State) : Feed × State:=
  if !blk.edcOk then (.needOut,encodeRblock s.nsExpected rEdcErr s)
  else if subtype=sIfsReq then
    match blk.inf with
    | [ifsd]=>(.needOut,encodeSblockResponse sIfsResp [ifsd] {s with ifsd:=ifsd.toNat})
    | _=>(.needOut,encodeRblock s.nsExpected rOtherErr s)
  else if subtype=sAbortReq then
    (.needOut,encodeSblockResponse sAbortResp [] (dropResponse (dropApdu s)))
  else if subtype=sWtxReq then (.needOut,encodeSblockResponse sWtxResp blk.inf s)
  else if subtype=sResynchReq then
    (.needOut,encodeSblockResponse sResynchResp [] (dropResponse (dropApdu {s with nsSend:=0,nsExpected:=0})))
  else (.ignored,s)

def feed (blk : Block) (s : State) : Feed × State:=
  match blk.kind with
  | .i ns more=>handleIblock ns more blk s
  | .r nr _=>handleRblock nr blk s
  | .s subtype=>handleSblock subtype blk s

def queueResponse (resp : Bytes) (s : State) : Bool × State:=
  if resp.length > maxResponseLen then (false,s)
  else (true,{s with resp:=resp,respSent:=0,respPending:=decide (resp.length > 0)})

def nextOutbound (outCap : ℕ) (s : State) : Bytes × State:=
  if s.control.length > 0 then
    if s.control.length > outCap then ([],s) else (s.control,{s with control:=[]})
  else if !s.respPending then ([],s)
  else
    let remaining:=s.resp.length-s.respSent
    if remaining=0 then ([],{s with respPending:=false})
    else
      let chunkCap:=if s.ifsd≠0 then s.ifsd else defaultIfsc
      let chunkLen:=if remaining > chunkCap then chunkCap else remaining
      let more:=decide (chunkLen < remaining)
      match encodeI cardNad s.nsSend more ((s.resp.drop s.respSent).take (chunkLen % 256)) s.useCrc outCap with
      | .error _=>([],s)
      | .ok out=>
        (out,{ s with
          respSent:=s.respSent+chunkLen
          nsSend:=flip s.nsSend
          respPending:=s.respPending && more })

/-- The calls of the layer above. -/
inductive Call
  | feed (blk : Block)
  | queueResponse (resp : Bytes)
  | nextOutbound (outCap : ℕ)

def call (s : State) : Call → State
  | .feed blk=>(feed blk s).2
  | .queueResponse resp=>(queueResponse resp s).2
  | .nextOutbound outCap=>(nextOutbound outCap s).2

def Reachable (s : State) : Prop:=∃ useCrc calls, s=run call (init useCrc) calls

def IsChunk (useCrc : Bool) (buf : Bytes) : Prop:=∃ blk ns more, decode useCrc buf=.ok blk ∧ blk.kind=.i ns more

/-- The reader's IFSD is a byte, and no chunk waits as a reply. -/
structure Sound (s : State) : Prop where
  ifsd : s.ifsd ≤ 255
  control : ¬IsChunk s.useCrc s.control

section Calls

variable {s : State} {nr err ns subtype : UInt8} {more : Bool} {inf resp : Bytes} {blk : Block} {outCap : ℕ}

theorem not_isChunk_nil (useCrc : Bool) : ¬IsChunk useCrc []:=by
  rintro ⟨blk,ns,more,h,-⟩
  cases h

theorem not_isChunk_encoded {block : Except Status Bytes} {useCrc : Bool}
    (h : ∀ out, block=.ok out→∃ blk, decode useCrc out=.ok blk ∧ ∀ ns more, blk.kind≠.i ns more) :
    ¬IsChunk useCrc (encoded block):=by
  cases hblock : block with
  | error e=>exact not_isChunk_nil _
  | ok out=>
    obtain ⟨blk,hdecode,hkind⟩:=h out hblock
    rintro ⟨blk',ns,more,hdecode',hkind'⟩
    obtain rfl : blk=blk':=Except.ok.inj (hdecode.symm.trans hdecode')
    exact hkind ns more hkind'

theorem Sound.encodeRblock (h : Sound s) (nr err : UInt8) : Sound (encodeRblock nr err s) where
  ifsd:=h.ifsd
  control:=not_isChunk_encoded fun _ hout=>⟨_,decode_encodeR hout,fun _ _=>by simp⟩

theorem Sound.encodeSblockResponse (h : s.ifsd ≤ 255) (subtype : UInt8) (inf : Bytes) :
    Sound (encodeSblockResponse subtype inf s) where
  ifsd:=h
  control:=not_isChunk_encoded fun _ hout=>⟨_,decode_encodeS hout,fun _ _=>by simp⟩

theorem feed_damaged (h : blk.edcOk=false) : feed blk s=(.needOut,encodeRblock s.nsExpected rEdcErr s):=by
  unfold feed
  cases blk.kind with
  | i ns more=>simp [handleIblock,h]
  | r nr err=>simp [handleRblock,h]
  | s subtype=>simp [handleSblock,h]

theorem Sound.handleIblock (h : Sound s) (hok : blk.edcOk=true) : Sound (handleIblock ns more blk s).2:=by
  have hflipped : Sound {s with nsExpected:=flip s.nsExpected}:=⟨h.ifsd,h.control⟩
  unfold T1.handleIblock
  rw [hok,Bool.not_true,if_neg Bool.false_ne_true]
  dsimp only
  generalize (if s.apduInProgress=true then s.apdu else [])=apdu
  split_ifs
  · exact h.encodeRblock _ _
  · exact ⟨h.ifsd,(Sound.encodeSblockResponse h.ifsd _ _).control⟩
  · exact ⟨h.ifsd,(hflipped.encodeRblock _ _).control⟩
  · exact ⟨h.ifsd,h.control⟩

theorem handleRblock_ok (hok : blk.edcOk=true) :
    (handleRblock nr blk s).2=if s.respPending then {s with nsSend:=nr} else s:=by
  unfold handleRblock
  rw [hok,Bool.not_true,if_neg Bool.false_ne_true]
  split <;> rfl

theorem Sound.handleSblock (h : Sound s) (hok : blk.edcOk=true) : Sound (handleSblock subtype blk s).2:=by
  unfold T1.handleSblock
  rw [hok,Bool.not_true,if_neg Bool.false_ne_true]
  split_ifs
  · split
    · rename_i ifsd _
      exact Sound.encodeSblockResponse (s:={s with ifsd:=ifsd.toNat}) (Nat.le_of_lt_succ ifsd.toNat_lt) _ _
    · exact h.encodeRblock _ _
  · exact Sound.encodeSblockResponse (s:=dropResponse (dropApdu s)) h.ifsd _ _
  · exact Sound.encodeSblockResponse h.ifsd _ _
  · exact Sound.encodeSblockResponse (s:=dropResponse (dropApdu {s with nsSend:=0,nsExpected:=0})) h.ifsd _ _
  · exact h

theorem Sound.feed (h : Sound s) (blk : Block) : Sound (feed blk s).2:=by
  cases hok : blk.edcOk with
  | false=>
    rw [feed_damaged hok]
    exact h.encodeRblock _ _
  | true=>
    unfold T1.feed
    split
    · exact h.handleIblock hok
    · rw [handleRblock_ok hok]
      split
      · exact ⟨h.ifsd,h.control⟩
      · exact h
    · exact h.handleSblock hok

/-- What `t1_state_next_outbound` can come to. -/
inductive Outbound (outCap : ℕ) (s : State) : Bytes × State→Prop
  | nothing : Outbound outCap s ([],s)
  | control (h : s.control≠[]) : Outbound outCap s (s.control,{s with control:=[]})
  | drained (h : s.resp.length ≤ s.respSent) : Outbound outCap s ([],{s with respPending:=false})
  | chunk (hpending : s.respPending=true) {chunkLen : ℕ} (hpos : 0 < chunkLen)
      (hle : chunkLen ≤ s.resp.length-s.respSent) {out : Bytes}
      (hout : encodeI cardNad s.nsSend (decide (chunkLen < s.resp.length-s.respSent))
        ((s.resp.drop s.respSent).take chunkLen) s.useCrc outCap=.ok out) :
      Outbound outCap s (out,{ s with
        respSent:=s.respSent+chunkLen
        nsSend:=flip s.nsSend
        respPending:=decide (chunkLen < s.resp.length-s.respSent) })

theorem nextOutbound_cases (outCap : ℕ) (h : s.ifsd ≤ 255) : Outbound outCap s (nextOutbound outCap s):=by
  unfold nextOutbound
  split
  · split
    · exact .nothing
    · exact .control (List.ne_nil_of_length_pos ‹_›)
  · split
    · exact .nothing
    · dsimp only
      rename_i hpending
      split
      · exact .drained (Nat.le_of_sub_eq_zero ‹_›)
      · rename_i hmore
        have hcap : 0 < (if s.ifsd≠0 then s.ifsd else defaultIfsc) ∧
            (if s.ifsd≠0 then s.ifsd else defaultIfsc) ≤ 255:=by
          simp only [defaultIfsc]
          split <;> omega
        generalize (if s.ifsd≠0 then s.ifsd else defaultIfsc)=chunkCap at hcap ⊢
        have hlen : ∃ chunkLen, (if s.resp.length-s.respSent > chunkCap then chunkCap
            else s.resp.length-s.respSent)=chunkLen ∧ 0 < chunkLen ∧
              chunkLen ≤ s.resp.length-s.respSent ∧ chunkLen % 256=chunkLen:=by
          refine ⟨_,rfl,?_⟩
          split <;> omega
        obtain ⟨chunkLen,hchunk,hpos,hle,hbyte⟩:=hlen
        rw [hchunk,hbyte]
        have hpending : s.respPending=true:=by simpa using hpending
        cases hout : encodeI cardNad s.nsSend (decide (chunkLen < s.resp.length-s.respSent))
            ((s.resp.drop s.respSent).take chunkLen) s.useCrc outCap with
        | error e=>exact .nothing
        | ok out=>
          rw [hpending]
          exact .chunk hpending hpos hle hout

theorem Sound.nextOutbound (outCap : ℕ) (h : Sound s) : Sound (nextOutbound outCap s).2:=by
  have hout:=nextOutbound_cases outCap h.ifsd
  generalize T1.nextOutbound outCap s=r at hout
  cases hout with
  | nothing=>exact h
  | control=>exact ⟨h.ifsd,not_isChunk_nil _⟩
  | drained=>exact ⟨h.ifsd,h.control⟩
  | chunk=>exact ⟨h.ifsd,h.control⟩

theorem Sound.queueResponse (h : Sound s) : Sound (queueResponse resp s).2:=by
  unfold T1.queueResponse
  split_ifs
  · exact h
  · exact ⟨h.ifsd,h.control⟩

theorem Reachable.sound (h : Reachable s) : Sound s:=by
  obtain ⟨useCrc,calls,rfl⟩:=h
  have hinit : Sound (init useCrc):=⟨(by decide : defaultIfsc ≤ 255),not_isChunk_nil _⟩
  refine run_invariant (P:=fun _ _=>True) (fun s c _ hs=>?_) hinit (alongRun_true _ _)
  cases c with
  | feed blk=>exact hs.feed blk
  | queueResponse resp=>exact hs.queueResponse
  | nextOutbound outCap=>exact hs.nextOutbound outCap

end Calls

end CdcBadge.T1
