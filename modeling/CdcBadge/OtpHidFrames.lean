import CdcBadge.OtpHid

/-!
# Frames of the challenge-response interface

A frame of a challenge arrives in ten blocks that land by their number in one buffer, and
the last of them completes it. The response goes out in four reports that end in a checksum
with a fixed residue.
-/

namespace CdcBadge.OtpHid

open Runs

/-- The bytes of block `i` of a frame. -/
def block (frame : Bytes) (i : ℕ) : Bytes:=(frame.drop (dataBytesPerReport*i)).take dataBytesPerReport

def report (frame : Bytes) (i : ℕ) : Bytes:=block frame i++[slotWriteFlag ||| UInt8.ofNat i]

/-- The blocks in order; of those between the first and the last the host sends the ones it keeps. -/
def sent (kept : ℕ→Bool) : List ℕ:=(List.range 10).filter fun i=>i=0 || i=9 || kept i

def send (frame : Bytes) (kept : ℕ→Bool) (s : State) : State:=
  (sent kept).foldl (fun s i=>onSetReport (report frame i) s) s

/-- The machine, and beside it what has been written to the frame since its last block 0 or reset. -/
structure Watched where
  state : State:={}
  writes : List (ℕ × Bytes):=[]

def assembled (writes : List (ℕ × Bytes)) : Bytes:=
  writes.foldl (fun frame w=>writeAt frame w.1 w.2) (List.replicate frameSize 0)

/-- What a report writes: where, and which bytes; none where it is not taken. -/
def written (buffer : Bytes) (s : State) : Option (ℕ × Bytes):=
  let offset:=(buffer.getD (featureRptSize-1) 0 &&& 0x7F).toNat*dataBytesPerReport
  if frameSize ≤ offset ∨ s.phase=.waiting then none
  else some (offset,buffer.take (min (frameSize-offset) dataBytesPerReport))

def Watched.step (hmac : Bytes→Bytes→ByteArr sha1DigestSize) (x : Watched) (e : Event) : Watched where
  state:=OtpHid.step hmac x.state e
  writes:=match e with
    | .setReport buffer=>
      if buffer.length < featureRptSize then x.writes
      else if buffer.getD (featureRptSize-1) 0 &&& slotWriteFlag=0 then []
      else match written buffer x.state with
        | none=>x.writes
        | some w=>if w.1=0 then [w] else x.writes++[w]
    | .reset=>[]
    | _=>x.writes

/-- A state in which a response is to be read. -/
def readable (s : State) (digest : ByteArr sha1DigestSize) : State:=
  deliverConfirmedResponse {s with phase:=.waiting,response:=framed digest}

variable {hmac : Bytes→Bytes→ByteArr sha1DigestSize} {s : State} {x : Watched} {frame : Bytes} {i k : ℕ}

/-- What the buffer holds has been written since the last block 0 or reset, and a pending challenge is what the buffer
held at some moment since then. -/
structure Assembles (x : Watched) : Prop where
  frame : x.state.frame=assembled x.writes
  challenge : x.state.phase=.pending→∃ writes, writes <+: x.writes ∧
    x.state.challenge=(assembled writes).take slotDataSize

theorem Assembles.put {w : List (ℕ × Bytes)} (h : Assembles ⟨s,w⟩) (offset : ℕ) (buffer : Bytes) :
    Assembles ⟨putBlock offset buffer s,
      if offset=0 then [(offset,buffer.take (min (frameSize-offset) dataBytesPerReport))]
      else w++[(offset,buffer.take (min (frameSize-offset) dataBytesPerReport))]⟩:=by
  unfold putBlock
  by_cases hzero : offset=0
  · rw [if_pos hzero,if_pos hzero]
    exact ⟨rfl,nofun⟩
  · rw [if_neg hzero,if_neg hzero]
    refine ⟨?_,fun hpending=>?_⟩
    · change writeAt s.frame _ _=_
      rw [assembled,List.foldl_append,← assembled]
      exact congrArg (writeAt · _ _) h.frame
    · obtain ⟨writes,hstart,hchallenge⟩:=h.challenge hpending
      exact ⟨writes,hstart.trans (List.prefix_append _ _),hchallenge⟩

theorem Assembles.accept {w : List (ℕ × Bytes)} (h : Assembles ⟨s,w⟩) : Assembles ⟨acceptFrame s,w⟩:=by
  unfold acceptFrame
  dsimp only
  split
  · exact ⟨h.frame,nofun⟩
  split
  · exact ⟨h.frame,nofun⟩
  · exact ⟨h.frame,fun _=>⟨w,List.prefix_rfl,congrArg (List.take slotDataSize) h.frame⟩⟩

/-- The other events leave the buffer and the challenge alone and make no challenge pending. -/
theorem Assembles.other {t : State} (h : Assembles x) (hframe : t.frame=x.state.frame)
    (hchallenge : t.challenge=x.state.challenge) (hphase : t.phase=.pending→x.state.phase=.pending) :
    Assembles ⟨t,x.writes⟩:=by
  refine ⟨hframe.trans h.frame,fun hpending=>?_⟩
  obtain ⟨writes,hstart,heq⟩:=h.challenge (hphase hpending)
  exact ⟨writes,hstart,hchallenge.trans heq⟩

theorem Assembles.step (h : Assembles x) (e : Event) : Assembles (x.step hmac e):=by
  unfold Watched.step
  cases e with
  | setReport buffer=>
    change Assembles ⟨onSetReport buffer x.state,_⟩
    unfold onSetReport written
    dsimp only
    by_cases hsize : buffer.length < featureRptSize
    · rw [if_pos hsize,if_pos hsize]
      exact h
    rw [if_neg hsize,if_neg hsize]
    by_cases hflag : buffer.getD (featureRptSize-1) 0 &&& slotWriteFlag=0
    · rw [if_pos hflag,if_pos hflag]
      exact ⟨rfl,nofun⟩
    rw [if_neg hflag,if_neg hflag]
    generalize (buffer.getD (featureRptSize-1) 0 &&& 0x7F).toNat*dataBytesPerReport=offset
    by_cases hfar : frameSize ≤ offset
    · rw [if_pos hfar,if_pos (.inl hfar)]
      exact h
    rw [if_neg hfar]
    by_cases hwaiting : x.state.phase=.waiting
    · rw [if_pos hwaiting,if_pos (.inr hwaiting)]
      exact h
    rw [if_neg hwaiting,if_neg (not_or.mpr ⟨hfar,hwaiting⟩)]
    have hput:=h.put offset buffer
    split
    · exact hput
    · exact hput.accept
  | reset=>exact ⟨rfl,nofun⟩
  | getReport reqlen=>
    change Assembles ⟨(onGetReport reqlen x.state).2,x.writes⟩
    unfold onGetReport
    split
    · exact h
    split <;> try exact h
    split <;> exact h.other rfl rfl (by simp [*])
  | take=>
    change Assembles ⟨take x.state,x.writes⟩
    unfold take
    split <;> exact h.other rfl rfl id
  | compute entry=>
    change Assembles ⟨compute hmac entry x.state,x.writes⟩
    unfold compute
    split
    · split
      · exact h.other rfl rfl id
      · exact h.other rfl rfl nofun
    · exact h
  | store=>
    change Assembles ⟨store x.state,x.writes⟩
    unfold store
    split
    · split
      · exact h.other rfl rfl nofun
      · exact h.other rfl rfl id
    · exact h
  | finish=>
    change Assembles ⟨finish x.state,x.writes⟩
    unfold finish deliverConfirmedResponse
    split
    · split
      · exact h.other rfl rfl id
      · split
        · exact h.other rfl rfl nofun
        · exact h.other rfl rfl id
    · exact h
  | answer frame confirm=>
    change Assembles ⟨answer frame confirm x.state,x.writes⟩
    unfold answer onTouchConfirm onTouchCancel deliverConfirmedResponse
    split
    · dsimp only
      split
      · split
        · exact h.other rfl rfl nofun
        · exact h.other rfl rfl id
      · exact h.other rfl rfl nofun
    · exact h

end CdcBadge.OtpHid
