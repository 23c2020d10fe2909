import CdcBadge.Bytes
import CdcBadge.Runs

/-!
# Challenge-response over HID feature reports

The host writes a challenge in blocks, the tick has it answered by the entry of the USB slot, and
the response is read back in sequence. An entry that requires touch holds its response back until
a dialog is answered. Beside the machine stands a history that no code reads: which frame was
accepted last, whose response is held, and which dialogs were confirmed.
-/

namespace CdcBadge.OtpHid

open Runs

def slotDataSize : ℕ:=64
def frameSize : ℕ:=70
def slotChalHmac2 : UInt8:=0x38
def slotWriteFlag : UInt8:=0x80
def respPendingFlag : UInt8:=0x40
def seqMask : UInt8:=0x1F
def sha1DigestSize : ℕ:=20
def responseSize : ℕ:=sha1DigestSize+2
def featureRptSize : ℕ:=8
def dataBytesPerReport : ℕ:=featureRptSize-1

inductive Phase
  /-- No exchange; a read gives the status. -/
  | idle
  /-- A challenge is there for the tick. -/
  | pending
  /-- The response is held back. -/
  | waiting
  /-- The response is read. -/
  | ready
  deriving DecidableEq

/-- The entry that answers, where it is an HMAC-SHA1 entry. -/
structure Entry where
  secret : Bytes
  touchRequired : Bool
  deriving DecidableEq

/-- How far the tick is, between its locks. A frame is known by how many were accepted up to it. -/
inductive Tick
  | idle
  | taken (challenge : Bytes) (frame : ℕ)
  | computed (digest : ByteArr sha1DigestSize) (entry : Entry) (frame : ℕ)
  | stored (entry : Entry) (frame : ℕ)
  deriving DecidableEq

structure State where
  phase : Phase:=.idle
  frame : Bytes:=List.replicate frameSize 0
  challenge : Bytes:=List.replicate slotDataSize 0
  response : Bytes:=List.replicate responseSize 0
  readSeq : UInt8:=0
  tick : Tick:=.idle
  /-- The dialogs on screen, each by the frame it was raised for. -/
  dialogs : List ℕ:=[]
  /-- How many frames were accepted. -/
  accepted : ℕ:=0
  /-- The payload of the last of them. -/
  payload : Bytes:=[]
  /-- The frame and the entry of the response that is held. -/
  source : Option (ℕ × Entry):=none
  /-- The frames whose dialogs were confirmed. -/
  confirmed : List ℕ:=[]
  deriving DecidableEq

def crc16Bit (crc : UInt16) : UInt16:=if crc &&& 1≠0 then (crc >>> 1) ^^^ 0x8408 else crc >>> 1

def crc16Byte (crc : UInt16) (byte : UInt8) : UInt16:=
  (List.range 8).foldl (fun crc _=>crc16Bit crc) (crc ^^^ byte.toUInt16)

def crc16 (data : Bytes) : UInt16:=data.foldl crc16Byte 0xFFFF

/-- `st`, with two bytes behind it. -/
def statusFrame : Bytes:=[2,4,0,1,0x0B,0x00,0,0]

def reset (s : State) : State:=
  { s with phase:=.idle,readSeq:=0,frame:=List.replicate frameSize 0,
           challenge:=List.replicate slotDataSize 0,response:=List.replicate responseSize 0 }

/-- `memcpy` into a buffer. -/
def writeAt (buf : Bytes) (offset : ℕ) (data : Bytes) : Bytes:=
  buf.take offset++data++buf.drop (offset+data.length)

def putBlock (offset : ℕ) (buffer : Bytes) (s : State) : State:=
  -- A new transfer supersedes what was assembled so far.
  let s:=if offset=0 then
      { s with frame:=List.replicate frameSize 0
               phase:=.idle
               readSeq:=if s.phase≠.idle then 0 else s.readSeq }
    else s
  {s with frame:=writeAt s.frame offset (buffer.take (min (frameSize-offset) dataBytesPerReport))}

def acceptFrame (s : State) : State:=
  let payload:=s.frame.take slotDataSize
  let txCrc : UInt16:=(s.frame.getD (slotDataSize+1) 0).toUInt16 ||| (s.frame.getD (slotDataSize+2) 0).toUInt16 <<< 8
  if crc16 payload≠txCrc then {s with phase:=.idle}
  else if s.frame.getD slotDataSize 0≠slotChalHmac2 then {s with phase:=.idle}
  else {s with challenge:=payload,phase:=.pending,accepted:=s.accepted+1,payload:=payload}

def onSetReport (buffer : Bytes) (s : State) : State:=
  if buffer.length < featureRptSize then s
  else
    let flagByte:=buffer.getD (featureRptSize-1) 0
    if flagByte &&& slotWriteFlag=0 then reset s
    else
      let offset:=(flagByte &&& 0x7F).toNat*dataBytesPerReport
      if frameSize ≤ offset then s
      -- The challenge is frozen while a dialog is to be answered.
      else if s.phase=.waiting then s
      else if offset+dataBytesPerReport < frameSize then putBlock offset buffer s
      else acceptFrame (putBlock offset buffer s)

def streamed (s : State) : Bytes:=
  if s.phase=.ready then (s.response.drop (s.readSeq.toNat*dataBytesPerReport)).take dataBytesPerReport else []

def onGetReport (reqlen : ℕ) (s : State) : Bytes × State:=
  if reqlen < featureRptSize then ([],s)
  else
    match s.phase with
    | .pending | .waiting=>(List.replicate dataBytesPerReport 0++[respPendingFlag],s)
    | .ready=>
      if responseSize ≤ s.readSeq.toNat*dataBytesPerReport then
        (List.replicate featureRptSize 0,{s with phase:=.idle,readSeq:=0})
      else
        ((fit dataBytesPerReport (streamed s)).toList++[respPendingFlag ||| ((s.readSeq+1) &&& seqMask)],
          {s with readSeq:=s.readSeq+1})
    | .idle=>(statusFrame,s)

def deliverConfirmedResponse (s : State) : State:=
  if s.phase=.waiting then {s with readSeq:=0,phase:=.ready} else s

def framed (digest : ByteArr sha1DigestSize) : Bytes:=
  let crc:= ~~~crc16 digest.toList
  digest.toList++[crc.toUInt8,(crc >>> 8).toUInt8]

inductive Event
  | setReport (buffer : Bytes)
  | getReport (reqlen : ℕ)
  /-- The interface is registered or unregistered. -/
  | reset
  | take
  /-- The entry that the responder finds; `none` where it fails or the digest is no SHA-1. -/
  | compute (entry : Option Entry)
  | store
  | finish
  /-- An answer to a dialog that is on screen. -/
  | answer (frame : ℕ) (confirm : Bool)

section Machine

variable (hmac : Bytes→Bytes→ByteArr sha1DigestSize)

def take (s : State) : State:=
  if s.tick=.idle ∧ s.phase=.pending then {s with tick:=.taken s.challenge s.accepted} else s

def compute (entry : Option Entry) (s : State) : State:=
  match s.tick with
  | .taken challenge frame=>
    match entry with
    | some entry=>{s with tick:=.computed (hmac entry.secret challenge) entry frame}
    | none=>{s with tick:=.idle,phase:=.idle}
  | _=>s

def store (s : State) : State:=
  match s.tick with
  | .computed digest entry frame=>
    if s.phase=.pending then
      { s with tick:=.stored entry frame,response:=framed digest,phase:=.waiting,readSeq:=0,
               source:=some (frame,entry) }
    else {s with tick:=.idle}
  | _=>s

def finish (s : State) : State:=
  match s.tick with
  | .stored entry frame=>
    if entry.touchRequired then {s with tick:=.idle,dialogs:=frame::s.dialogs}
    else {deliverConfirmedResponse s with tick:=.idle}
  | _=>s

def onTouchConfirm (s : State) : State:=deliverConfirmedResponse s

def onTouchCancel (s : State) : State:={s with phase:=.idle,readSeq:=0}

def answer (frame : ℕ) (confirm : Bool) (s : State) : State:=
  if frame∈s.dialogs then
    let s:={s with dialogs:=s.dialogs.erase frame}
    if confirm then onTouchConfirm {s with confirmed:=frame::s.confirmed} else onTouchCancel s
  else s

def step (s : State) : Event → State
  | .setReport buffer=>onSetReport buffer s
  | .getReport reqlen=>(onGetReport reqlen s).2
  | .reset=>reset s
  | .take=>take s
  | .compute entry=>compute hmac entry s
  | .store=>store s
  | .finish=>finish s
  | .answer frame confirm=>answer frame confirm s

/-- The response that is held answers the last accepted frame by this entry. -/
def Held (s : State) (entry : Entry) : Prop:=
  s.source=some (s.accepted,entry) ∧ s.response=framed (hmac entry.secret s.payload)

/-- What each phase of the exchange and of the tick stands for. -/
structure Sound (s : State) : Prop where
  pending : s.phase=.pending → s.challenge=s.payload
  taken : ∀ challenge frame, s.tick=.taken challenge frame →
    frame ≤ s.accepted ∧ (frame=s.accepted → challenge=s.payload)
  computed : ∀ digest entry frame, s.tick=.computed digest entry frame →
    frame ≤ s.accepted ∧ (frame=s.accepted→digest=hmac entry.secret s.payload)
  stored : ∀ entry frame, s.tick=.stored entry frame → s.phase=.waiting→Held hmac s entry
  waiting : s.phase=.waiting→∃ entry, Held hmac s entry
  ready : s.phase=.ready→∃ entry, Held hmac s entry ∧ (entry.touchRequired=true → s.accepted∈s.confirmed)

/-- No frame came between the take and the store of the tick, and a dialog of an older frame is answered only where
there is nothing to answer for. -/
def Current (s : State) : Event→Prop
  | .store=>
    match s.tick with
    | .computed _ _ frame=>s.phase=.pending → frame=s.accepted
    | _=>True
  | .answer frame confirm=>frame∈s.dialogs → frame≠s.accepted→if confirm then s.phase≠.waiting else s.phase=.idle
  | _=>True

/-- Bytes of a response go out only as the answer to the last accepted frame, confirmed where the entry requires touch,
and the answer to the dialog of another frame changes nothing. -/
def Bound (s : State) : Event→Prop
  | .getReport _=>streamed s≠[]→∃ entry, Held hmac s entry ∧ (entry.touchRequired=true → s.accepted∈s.confirmed)
  | .answer frame confirm=>frame≠s.accepted →
    (answer frame confirm s).phase=s.phase ∧ (answer frame confirm s).response=s.response
  | _=>True

variable {hmac} {s : State}

theorem sound_start : Sound hmac {} where
  pending h:=by cases h
  taken _ _ h:=by cases h
  computed _ _ _ h:=by cases h
  stored _ _ h:=by cases h
  waiting h:=by cases h
  ready h:=by cases h

theorem Sound.toIdle {t : State} (h : Sound hmac s) (hphase : t.phase=.idle) (htick : t.tick=s.tick)
    (haccepted : t.accepted=s.accepted) (hpayload : t.payload=s.payload) : Sound hmac t where
  pending hp:=by rw [hphase] at hp; cases hp
  taken challenge frame ht:=by rw [haccepted,hpayload]; exact h.taken challenge frame (htick ▸ ht)
  computed digest entry frame ht:=by rw [haccepted,hpayload]; exact h.computed digest entry frame (htick ▸ ht)
  stored _ _ _ hw:=by rw [hphase] at hw; cases hw
  waiting hw:=by rw [hphase] at hw; cases hw
  ready hr:=by rw [hphase] at hr; cases hr

theorem Sound.congr {t : State} (h : Sound hmac s) (hphase : t.phase=s.phase) (hchallenge : t.challenge=s.challenge)
    (hresponse : t.response=s.response) (htick : t.tick=s.tick) (haccepted : t.accepted=s.accepted)
    (hpayload : t.payload=s.payload) (hsource : t.source=s.source) (hconfirmed : s.confirmed ⊆ t.confirmed) :
    Sound hmac t:=by
  have hheld (entry : Entry) : Held hmac t entry ↔ Held hmac s entry:=by
    unfold Held
    rw [hsource,haccepted,hresponse,hpayload]
  constructor
  · rw [hphase,hchallenge,hpayload]
    exact h.pending
  · rw [htick,haccepted,hpayload]
    exact h.taken
  · rw [htick,haccepted,hpayload]
    exact h.computed
  · intro entry frame ht hw
    exact (hheld entry).mpr (h.stored entry frame (htick ▸ ht) (hphase ▸ hw))
  · intro hw
    obtain ⟨entry,hentry⟩:=h.waiting (hphase ▸ hw)
    exact ⟨entry,(hheld entry).mpr hentry⟩
  · intro hr
    obtain ⟨entry,hentry,htouch⟩:=h.ready (hphase ▸ hr)
    refine ⟨entry,(hheld entry).mpr hentry,fun ht=>?_⟩
    rw [haccepted]
    exact hconfirmed (htouch ht)

theorem Sound.reset (h : Sound hmac s) : Sound hmac (reset s):=h.toIdle rfl rfl rfl rfl

theorem Sound.putBlock (h : Sound hmac s) (offset : ℕ) (buffer : Bytes) : Sound hmac (putBlock offset buffer s):=by
  unfold OtpHid.putBlock
  split
  · exact h.toIdle rfl rfl rfl rfl
  · exact h.congr rfl rfl rfl rfl rfl rfl rfl (List.Subset.refl _)

theorem Sound.acceptFrame (h : Sound hmac s) : Sound hmac (acceptFrame s):=by
  unfold OtpHid.acceptFrame
  dsimp only
  split
  · exact h.toIdle rfl rfl rfl rfl
  split
  · exact h.toIdle rfl rfl rfl rfl
  · constructor
    · exact fun _=>rfl
    · intro challenge frame ht
      obtain ⟨hle,-⟩:=h.taken challenge frame ht
      exact ⟨by simp only; omega,fun heq=>by simp only at heq; omega⟩
    · intro digest entry frame ht
      obtain ⟨hle,-⟩:=h.computed digest entry frame ht
      exact ⟨by simp only; omega,fun heq=>by simp only at heq; omega⟩
    · exact fun _ _ _ hw=>by cases hw
    · exact fun hw=>by cases hw
    · exact fun hr=>by cases hr

theorem Sound.onSetReport (h : Sound hmac s) (buffer : Bytes) : Sound hmac (onSetReport buffer s):=by
  unfold OtpHid.onSetReport
  dsimp only
  split
  · exact h
  split
  · exact h.reset
  split
  · exact h
  split
  · exact h
  split
  · exact h.putBlock _ _
  · exact (h.putBlock _ _).acceptFrame

theorem Sound.onGetReport (h : Sound hmac s) (reqlen : ℕ) : Sound hmac (onGetReport reqlen s).2:=by
  unfold OtpHid.onGetReport
  split
  · exact h
  split
  · exact h
  · exact h
  · split
    · exact h.toIdle rfl rfl rfl rfl
    · exact h.congr rfl rfl rfl rfl rfl rfl rfl (List.Subset.refl _)
  · exact h

theorem Sound.take (h : Sound hmac s) : Sound hmac (take s):=by
  unfold OtpHid.take
  split
  · rename_i hidle
    constructor
    · exact h.pending
    · rintro challenge frame ⟨⟩
      exact ⟨Nat.le_refl _,fun _=>h.pending hidle.2⟩
    · exact fun _ _ _ ht=>by cases ht
    · exact fun _ _ ht=>by cases ht
    · exact h.waiting
    · exact h.ready
  · exact h

theorem Sound.compute (h : Sound hmac s) (entry : Option Entry) : Sound hmac (compute hmac entry s):=by
  unfold OtpHid.compute
  split
  · rename_i challenge frame ht
    obtain ⟨hle,hpayload⟩:=h.taken challenge frame ht
    cases entry with
    | none=>
      constructor
      · exact fun hp=>by cases hp
      · exact fun _ _ ht=>by cases ht
      · exact fun _ _ _ ht=>by cases ht
      · exact fun _ _ ht=>by cases ht
      · exact fun hw=>by cases hw
      · exact fun hr=>by cases hr
    | some entry=>
      constructor
      · exact h.pending
      · exact fun _ _ ht=>by cases ht
      · rintro digest entry' frame' ⟨⟩
        exact ⟨hle,fun heq=>by rw [hpayload heq]⟩
      · exact fun _ _ ht=>by cases ht
      · exact h.waiting
      · exact h.ready
  · exact h

theorem Sound.store (h : Sound hmac s) (hcurrent : Current s .store) : Sound hmac (store s):=by
  unfold OtpHid.store
  split
  · rename_i digest entry frame ht
    obtain ⟨-,hdigest⟩:=h.computed digest entry frame ht
    split
    · rename_i hpending
      have hframe : frame=s.accepted:=by
        simp only [Current,ht] at hcurrent
        exact hcurrent hpending
      have hheld : s.accepted=frame ∧ digest=hmac entry.secret s.payload:=⟨hframe.symm,hdigest hframe⟩
      constructor
      · exact fun hp=>by cases hp
      · exact fun _ _ ht=>by cases ht
      · exact fun _ _ _ ht=>by cases ht
      · rintro entry' frame' ⟨⟩ -
        exact ⟨by rw [hheld.1],by rw [hheld.2]⟩
      · exact fun _=>⟨entry,by rw [hheld.1],by rw [hheld.2]⟩
      · exact fun hr=>by cases hr
    · constructor
      · exact h.pending
      · exact fun _ _ ht=>by cases ht
      · exact fun _ _ _ ht=>by cases ht
      · exact fun _ _ ht=>by cases ht
      · exact h.waiting
      · exact h.ready
  · exact h

/-- A response that is held is let go, to a frame that has been confirmed or needs no touch. -/
theorem Sound.deliver (h : Sound hmac s)
    (hheld : s.phase=.waiting→∃ entry, Held hmac s entry ∧ (entry.touchRequired=true → s.accepted∈s.confirmed)) :
    Sound hmac (deliverConfirmedResponse s):=by
  unfold deliverConfirmedResponse
  split
  · rename_i hwaiting
    constructor
    · exact fun hp=>by cases hp
    · exact h.taken
    · exact h.computed
    · exact fun _ _ _ hw=>by cases hw
    · exact fun hw=>by cases hw
    · exact fun _=>hheld hwaiting
  · exact h

theorem Sound.noTick (h : Sound hmac s) : Sound hmac {s with tick:=.idle} where
  pending:=h.pending
  taken _ _ ht:=by cases ht
  computed _ _ _ ht:=by cases ht
  stored _ _ ht:=by cases ht
  waiting:=h.waiting
  ready:=h.ready

theorem Sound.finish (h : Sound hmac s) : Sound hmac (finish s):=by
  unfold OtpHid.finish
  split
  · rename_i entry frame ht
    split
    · exact h.noTick.congr rfl rfl rfl rfl rfl rfl rfl (List.Subset.refl _)
    · rename_i htouch
      have hdeliver : Sound hmac (deliverConfirmedResponse s):=
        h.deliver fun hw=>⟨entry,h.stored entry frame ht hw,fun hneeds=>absurd hneeds htouch⟩
      exact hdeliver.noTick
  · exact h

theorem Sound.answer (h : Sound hmac s) {frame : ℕ} {confirm : Bool} (hcurrent : Current s (.answer frame confirm)) :
    Sound hmac (answer frame confirm s):=by
  unfold OtpHid.answer
  split
  · rename_i hdialog
    dsimp only
    split
    · rename_i hconfirm
      have hconfirmed : Sound hmac {s with dialogs:=s.dialogs.erase frame,confirmed:=frame::s.confirmed}:=
        h.congr rfl rfl rfl rfl rfl rfl rfl (List.subset_cons_self _ _)
      refine hconfirmed.deliver fun hwaiting=>?_
      obtain ⟨entry,hheld⟩:=h.waiting hwaiting
      refine ⟨entry,hheld,fun _=>?_⟩
      by_cases hframe : frame=s.accepted
      · rw [← hframe]
        exact List.mem_cons_self
      · have hnot:=hcurrent hdialog hframe
        rw [if_pos hconfirm] at hnot
        exact absurd hwaiting hnot
    · exact h.toIdle rfl rfl rfl rfl
  · exact h

theorem Sound.step (h : Sound hmac s) {e : Event} (hcurrent : Current s e) : Sound hmac (step hmac s e):=by
  cases e with
  | setReport buffer=>exact h.onSetReport buffer
  | getReport reqlen=>exact h.onGetReport reqlen
  | reset=>exact h.reset
  | take=>exact h.take
  | compute entry=>exact h.compute entry
  | store=>exact h.store hcurrent
  | finish=>exact h.finish
  | answer frame confirm=>exact h.answer hcurrent

theorem Sound.bound (h : Sound hmac s) {e : Event} (hcurrent : Current s e) : Bound hmac s e:=by
  cases e with
  | getReport reqlen=>
    intro hstreamed
    refine h.ready ?_
    by_contra hphase
    exact hstreamed (if_neg hphase)
  | answer frame confirm=>
    intro hframe
    unfold OtpHid.answer
    split
    · rename_i hdialog
      have hnot:=hcurrent hdialog hframe
      cases confirm
      · exact ⟨hnot.symm,rfl⟩
      · simp only [if_true,onTouchConfirm]
        have hdeliver : deliverConfirmedResponse
            {s with dialogs:=s.dialogs.erase frame,confirmed:=frame::s.confirmed} =
            {s with dialogs:=s.dialogs.erase frame,confirmed:=frame::s.confirmed}:=if_neg hnot
        rw [hdeliver]
        exact ⟨rfl,rfl⟩
    · exact ⟨rfl,rfl⟩
  | setReport buffer=>trivial
  | reset=>trivial
  | take=>trivial
  | compute entry=>trivial
  | store=>trivial
  | finish=>trivial

/-- In every run in which no frame comes between the take and the store of a tick, and no left-over dialog is answered
for a newer frame, a response goes to the frame it was made and confirmed for. -/
theorem responses_bound (hmac : Bytes→Bytes→ByteArr sha1DigestSize) (es : List Event)
    (h : AlongRun (step hmac) Current {} es) : AlongRun (step hmac) (Bound hmac) {} es:=
  AlongRun.of_invariant (I:=Sound hmac) (fun _ _ hcurrent hs=>⟨hs.bound hcurrent,hs.step hcurrent⟩) sound_start h

end Machine

section Exchanges

instance (s : State) : (e : Event)→Decidable (Current s e)
  | .store=>by
    unfold Current
    cases s.tick <;> infer_instance
  | .answer _ _=>by
    unfold Current
    infer_instance
  | .setReport _ | .getReport _ | .reset | .take | .compute _ | .finish=>.isTrue trivial

def plainHmac (secret data : Bytes) : ByteArr sha1DigestSize:=fit sha1DigestSize (secret++data)

def frameReports (payload : Bytes) : List Event:=
  let crc:=crc16 payload
  let frame:=payload++[slotChalHmac2,crc.toUInt8,(crc >>> 8).toUInt8,0,0,0]
  (List.range 10).map fun i=>
    .setReport ((frame.drop (i*dataBytesPerReport)).take dataBytesPerReport++[slotWriteFlag ||| UInt8.ofNat i])

def touchEntry : Entry:={secret:=[0x0B],touchRequired:=true}

def challengeEvents (payload : Bytes) : List Event:=
  frameReports payload++[.take,.compute (some touchEntry),.store,.finish]

def confirmedEvents : List Event:=challengeEvents (List.replicate 64 0x01)++[.answer 1 true,.getReport 8]

set_option maxRecDepth 20000 in
theorem responses_bound_confirmed :
    (run (step plainHmac) {} confirmedEvents).readSeq=1 ∧ AlongRun (step plainHmac) (Bound plainHmac) {} confirmedEvents:=
  ⟨by decide +kernel,responses_bound plainHmac confirmedEvents (by decide +kernel)⟩

/-- A second challenge behind a dummy report, while the dialog of the first is still on screen. -/
def replacedEvents : List Event:=
  challengeEvents (List.replicate 64 0x01)++[.setReport (List.replicate 8 0)]++challengeEvents (List.replicate 64 0x02)

set_option maxRecDepth 20000 in
/-- The answer to the dialog of the first challenge releases the response to the second. -/
theorem responses_unbound : ¬ ∀ es : List Event, AlongRun (step plainHmac) (Bound plainHmac) {} es:=by
  intro h
  obtain ⟨-,hanswer,-⟩:=alongRun_append.mp (h (replacedEvents++[.answer 1 true]))
  exact absurd (hanswer (by decide +kernel)).1 (by decide +kernel)

end Exchanges

end CdcBadge.OtpHid
