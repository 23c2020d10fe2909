import CdcBadge.Bytes
import CdcBadge.Runs

/-!
# The CTAPHID transport

Packets of 64 bytes are assembled into messages, one assembly for each of eight
channel slots, and the slots' responses are cut into packets again. A step is a
packet from the host, a packet sent, or a look for timed-out assemblies.
-/

namespace CdcBadge.Ctaphid

def packetSize : ℕ:=64
def initDataSize : ℕ:=57
def contDataSize : ℕ:=59
def maxMsgSize : ℕ:=2048
def broadcastCid : UInt32:=0xFFFFFFFF
def msgTimeoutMs : UInt32:=500
def rateLimitWindowMs : UInt32:=1000
def rateLimitMaxCmds : UInt8:=200

def cmdPing : UInt8:=0x01
def cmdMsg : UInt8:=0x03
def cmdInit : UInt8:=0x06
def cmdWink : UInt8:=0x08
def cmdCbor : UInt8:=0x10
def cmdCancel : UInt8:=0x11
def cmdError : UInt8:=0x3F

def errInvalidCmd : UInt8:=0x01
def errInvalidLen : UInt8:=0x03
def errInvalidSeq : UInt8:=0x04
def errMsgTimeout : UInt8:=0x05
def errChannelBusy : UInt8:=0x06
def errInvalidChannel : UInt8:=0x0B
def errOther : UInt8:=0x7F

def capWink : UInt8:=0x01
def capCbor : UInt8:=0x04

abbrev Packet:=ByteArr 64

namespace Packet

def byte (p : Packet) (i : ℕ) : UInt8:=p.toList.getD i 0

def cid (p : Packet) : UInt32:=ofBe32 (p.byte 0) (p.byte 1) (p.byte 2) (p.byte 3)

def isInit (p : Packet) : Bool:=p.byte 4 &&& 0x80 != 0

def cmd (p : Packet) : UInt8:=p.byte 4 &&& 0x7F

def seq (p : Packet) : ℕ:=(p.byte 4 &&& 0x7F).toNat

def bcnt (p : Packet) : ℕ:=(p.byte 5).toNat*256+(p.byte 6).toNat

def initData (p : Packet) : Bytes:=p.toList.drop 7

def contData (p : Packet) : Bytes:=p.toList.drop 5

end Packet

def buildInitPacket (cid : UInt32) (cmd : UInt8) (bcnt : ℕ) (data : Bytes) : Packet:=
  fit 64 (be32 cid++[cmd ||| 0x80,UInt8.ofNat (bcnt/256),UInt8.ofNat bcnt]++data.take initDataSize)

def buildContPacket (cid : UInt32) (seq : UInt8) (data : Bytes) : Packet:=
  fit 64 (be32 cid++[seq &&& 0x7F]++data.take contDataSize)

/-- The per-channel response state. -/
structure Response where
  buffer : Bytes:=List.replicate maxMsgSize 0
  /-- No buffer is wired before the slot is first assigned. -/
  size : ℕ:=0
  len : ℕ:=0
  offset : ℕ:=0
  cid : UInt32:=0
  cmd : UInt8:=0
  pending : Bool:=false

/-- A channel slot. It is free while its identifier is 0. -/
structure Channel where
  cid : UInt32:=0
  cmd : UInt8:=0
  bcnt : ℕ:=0
  seq : ℕ:=0
  offset : ℕ:=0
  buffer : Bytes:=List.replicate maxMsgSize 0
  active : Bool:=false
  lastActivity : UInt32:=0
  response : Response:={}

/-- The transport's memory, as `ctaphid_init` leaves it, with CTAP2's cancel flag. -/
structure State where
  nextCid : UInt32:=1
  channels : Fin 8 → Channel:=fun _=>{}
  responseRrIndex : ℕ:=0
  rateWindowStart : UInt32:=0
  rateCmdCount : UInt8:=0
  cancelled : Bool:=false

/-- A message as it is given to its handler: the length announced, and the bytes that are there. -/
structure Message where
  cid : UInt32
  cmd : UInt8
  len : ℕ
  data : Bytes
  deriving DecidableEq

/-- What comes with a packet: the time when it is taken and when its channel notes it, and what
the CTAP2 or U2F command processor answers and makes of the cancel flag. -/
structure Env where
  now : UInt32:=0
  noted : UInt32:=0
  reply : Bytes:=[]
  cancelled : Bool:=false

def slots : List (Fin 8):=List.finRange 8

def State.modifyChannel (s : State) (i : Fin 8) (f : Channel → Channel) : State:=
  {s with channels:=Function.update s.channels i (f (s.channels i))}

def findChannel (cid : UInt32) (s : State) : Option (Fin 8):=
  if cid=0 then none else slots.find? fun i=>(s.channels i).cid == cid

def initChannelSlot (cid : UInt32) (ch : Channel) : Channel:=
  { ch with
    cid:=cid
    active:=false
    response:={ ch.response with
      size:=maxMsgSize
      len:=0
      offset:=0
      cmd:=0
      pending:=false } }

def oldestIdle (s : State) : Option (Fin 8):=
  (slots.foldl (fun (oldest : Option (Fin 8) × UInt32) i=>
    let ch:=s.channels i
    if !ch.active && !ch.response.pending && ch.lastActivity < oldest.2 then (some i,ch.lastActivity)
    else oldest) (none,0xFFFFFFFF)).1

def allocChannel (cid : UInt32) (s : State) : Option (Fin 8 × State):=
  match findChannel cid s with
  | some i=>some (i,s)
  | none=>
    match slots.find? fun i=>(s.channels i).cid == 0 with
    | some i=>some (i,s.modifyChannel i (initChannelSlot cid))
    | none=>(oldestIdle s).map fun i=>(i,s.modifyChannel i (initChannelSlot cid))

def skipReserved (cid : UInt32) : UInt32:=if cid=0 ∨ cid=broadcastCid then 1 else cid

def allocateCid (s : State) : UInt32 × State:=
  let cid:=skipReserved s.nextCid
  (cid,{s with nextCid:=skipReserved (cid+1)})

def Response.prepare (cid : UInt32) (cmd : UInt8) (data : Bytes) (r : Response) : Response:=
  let data:=data.take r.size
  { r with
    buffer:=data++r.buffer.drop data.length
    len:=data.length
    offset:=0
    cid:=cid
    cmd:=cmd
    pending:=true }

def prepareResponseOn (i : Fin 8) (sendCid : UInt32) (cmd : UInt8) (data : Bytes) (s : State) : State:=
  s.modifyChannel i fun ch=>{ch with response:=ch.response.prepare sendCid cmd data}

def prepareResponse (cid : UInt32) (cmd : UInt8) (data : Bytes) (s : State) : State:=
  match findChannel cid s with
  | none=>s
  | some i=>prepareResponseOn i cid cmd data s

def sendError (cid : UInt32) (error : UInt8) (s : State) : State:=
  let slot:=match findChannel cid s with
    | some i=>some (i,s)
    | none=>if cid≠0 ∧ cid≠broadcastCid then allocChannel cid s else none
  match slot with
  | some (i,s)=>prepareResponseOn i cid cmdError [error] s
  | none=>
    match slots.find? fun i=>!(s.channels i).response.pending with
    | some i=>prepareResponseOn i cid cmdError [error] s
    | none=>s

/-- The identifier that an INIT on `cid` is about. -/
def initCid (cid : UInt32) (s : State) : UInt32 × State:=
  if cid=broadcastCid then allocateCid s else (cid,s)

def handleInit (m : Message) (s : State) : State:=
  if m.len < 8 then sendError m.cid errInvalidLen s
  else
    let (newCid,s):=initCid m.cid {s with cancelled:=false}
    match allocChannel newCid s with
    | none=>sendError m.cid errOther s
    | some (i,s)=>
      prepareResponseOn i m.cid cmdInit (m.data.take 8++be32 newCid++[2,0,1,0,capWink ||| capCbor]) s

def handleCbor (m : Message) (env : Env) (s : State) : State:=
  if m.len < 1 then sendError m.cid errInvalidLen s
  else match findChannel m.cid s with
    | none=>sendError m.cid errInvalidChannel s
    | some i=>prepareResponseOn i m.cid cmdCbor env.reply {s with cancelled:=env.cancelled}

def handleMsg (m : Message) (env : Env) (s : State) : State:=
  prepareResponse m.cid cmdMsg (env.reply.take 512) {s with cancelled:=env.cancelled}

/-- The handlers of `process_complete_message`. -/
def dispatch (m : Message) (env : Env) (s : State) : State:=
  if m.cmd=cmdInit then handleInit m s
  else if m.cmd=cmdPing then prepareResponse m.cid cmdPing m.data s
  else if m.cmd=cmdWink then prepareResponse m.cid cmdWink [] s
  else if m.cmd=cmdCancel then {s with cancelled:=true}
  else if m.cmd=cmdCbor then handleCbor m env s
  else if m.cmd=cmdMsg then handleMsg m env s
  else sendError m.cid errInvalidCmd s

def clearChannel (ch : Channel) : Channel:={ch with active:=false,offset:=0}

def stopAssembly (ch : Channel) : Channel:={ch with active:=false}

def copyAt (buffer : Bytes) (offset : ℕ) (data : Bytes) : Bytes:=
  buffer.take offset++data++buffer.drop (offset+data.length)

def rateLimit (now : UInt32) (s : State) : Bool × State:=
  if now-s.rateWindowStart ≥ rateLimitWindowMs then
    (false,{s with rateWindowStart:=now,rateCmdCount:=1})
  else
    let count:=s.rateCmdCount+1
    (decide (count > rateLimitMaxCmds),{s with rateCmdCount:=count})

def Channel.message (ch : Channel) : Message:=
  {cid:=ch.cid,cmd:=ch.cmd,len:=ch.bcnt,data:=ch.buffer.take ch.bcnt}

def processIfComplete (i : Fin 8) (env : Env) (s : State) : State × Option Message:=
  let ch:=s.channels i
  if ch.offset ≥ ch.bcnt then ((dispatch ch.message env s).modifyChannel i clearChannel,some ch.message)
  else (s,none)

def Channel.start (p : Packet) (noted : UInt32) (ch : Channel) : Channel:=
  let copy:=min p.bcnt initDataSize
  { ch with
    cmd:=p.cmd
    bcnt:=p.bcnt
    seq:=0
    offset:=copy
    active:=true
    lastActivity:=noted
    buffer:=copyAt ch.buffer 0 (p.initData.take copy) }

def Channel.proceed (p : Packet) (noted : UInt32) (ch : Channel) : Channel:=
  let copy:=min (ch.bcnt-ch.offset) contDataSize
  { ch with
    buffer:=copyAt ch.buffer ch.offset (p.contData.take copy)
    offset:=ch.offset+copy
    seq:=(ch.seq+1) % 256
    lastActivity:=noted }

def processInitPacket (p : Packet) (env : Env) (s : State) : State × Option Message:=
  if p.bcnt > maxMsgSize then (sendError p.cid errInvalidLen s,none)
  else if p.cmd=cmdInit then
    -- INIT is handled on any identifier, with a record of its own in place of a slot.
    let m : Message:={cid:=p.cid,cmd:=p.cmd,len:=p.bcnt,data:=p.initData.take p.bcnt}
    (dispatch m env s,some m)
  else match findChannel p.cid s with
    | none=>(sendError p.cid errInvalidChannel s,none)
    | some i=>
      if (s.channels i).active then (sendError p.cid errChannelBusy s,none)
      else processIfComplete i env (s.modifyChannel i (Channel.start p env.noted))

def processContPacket (p : Packet) (env : Env) (s : State) : State × Option Message:=
  match findChannel p.cid s with
  | none=>(sendError p.cid errInvalidChannel s,none)
  | some i=>
    let ch:=s.channels i
    if !ch.active then (sendError p.cid errInvalidChannel s,none)
    else if p.seq≠ch.seq then
      (sendError p.cid errInvalidSeq (s.modifyChannel i stopAssembly),none)
    else processIfComplete i env (s.modifyChannel i (Channel.proceed p env.noted))

def processPacket (p : Packet) (env : Env) (s : State) : State × Option Message:=
  match rateLimit env.now s with
  | (true,s)=>(s,none)
  | (false,s)=>if p.isInit then processInitPacket p env s else processContPacket p env s

def hasResponse (s : State) : Bool:=slots.any fun i=>(s.channels i).response.pending

def fromCursor (s : State) : List (Fin 8):=slots.map fun n=>Fin.ofNat 8 (s.responseRrIndex+n.val)

def pickNextResponseChannel (s : State) : Option (Fin 8 × State):=
  ((fromCursor s).find? fun i=>(s.channels i).response.pending).map fun i=>
    (i,{s with responseRrIndex:=(i.val+1) % 8})

def Response.next (r : Response) : Packet × Response:=
  let remaining:=r.len-r.offset
  let (packet,offset):=
    if r.offset=0 then
      (buildInitPacket r.cid r.cmd r.len (r.buffer.take remaining),min remaining initDataSize)
    else
      let seq:=UInt8.ofNat ((r.offset-initDataSize)/contDataSize)
      (buildContPacket r.cid seq ((r.buffer.drop r.offset).take remaining),
        r.offset+min remaining contDataSize)
  (packet,{r with offset:=offset,pending:=r.pending && decide (offset < r.len)})

def getResponsePacket (s : State) : Option Packet × State:=
  match pickNextResponseChannel s with
  | none=>(none,s)
  | some (i,s)=>
    if s.cancelled then
      (none,s.modifyChannel i fun ch=>
        {ch with response:={ch.response with pending:=false,offset:=0,len:=0}})
    else
      let (packet,r):=(s.channels i).response.next
      (some packet,s.modifyChannel i fun ch=>{ch with response:=r})

def checkTimeout (now : UInt32) (s : State) : State:=
  slots.foldl (fun s i=>
    let ch:=s.channels i
    if ch.active && now-ch.lastActivity > msgTimeoutMs then
      (sendError ch.cid errMsgTimeout s).modifyChannel i stopAssembly
    else s) s

inductive Event
  | packet (p : Packet) (env : Env)
  | getResponsePacket
  | checkTimeout (now : UInt32)

def step (s : State) : Event → State
  | .packet p env=>(processPacket p env s).1
  | .getResponsePacket=>(getResponsePacket s).2
  | .checkTimeout now=>checkTimeout now s

def handled (s : State) : Event→Option Message
  | .packet p env=>(processPacket p env s).2
  | _=>none

end CdcBadge.Ctaphid
