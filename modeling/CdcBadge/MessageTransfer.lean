import Mathlib.Logic.Function.Basic
import CdcBadge.MessageTypes

/-!
# Badge-to-badge messages: the transfer service

The state of the service, its callbacks, its ticks and the calls of its users, with the
links that the radio keeps and the bonds in the controller's store. What no function
reads, the links among it and the logs, is kept for stating properties.
-/

namespace CdcBadge.Msg

/-- The identity address of a peer. -/
structure PeerAddr where
  addr : ByteArr 6
  addrType : UInt8
  deriving DecidableEq

/-- One connection to a peer. Its handle is given again to later links. -/
structure Link where
  serial : ℕ
  peer : PeerAddr
  deriving DecidableEq

/-- `PendingOffer`, with the link that the OFFER came over. -/
structure Offer where
  id : ℕ
  link : Link
  conn : UInt16
  mime : Bytes
  peerName : Bytes
  totalLen : ℕ
  enqueuedMs : UInt32
  persist : Bool
  deriving DecidableEq

/-- `RecvSession`, with the offer that it was made from. -/
structure RecvSession where
  state : RecvState:=.idle
  conn : UInt16:=noConn
  mime : Bytes:=[]
  peerName : Bytes:=[]
  totalLen : ℕ:=0
  received : ℕ:=0
  lastProgress : ℕ:=0
  stateStartMs : UInt32:=0
  expectedCrc : UInt32:=0
  completeReceived : Bool:=false
  persistent : Bool:=false
  failFlag : Bool:=false
  failReason : Reason:=Reason.none
  buf : Option Bytes:=none
  offer : Option Offer:=none

/-- `RateEntry`. -/
structure RateEntry where
  conn : UInt16
  windowStartMs : UInt32
  offers : UInt8

/-- `BondRef`. -/
structure BondRef where
  conn : UInt16
  peer : PeerAddr
  deriving DecidableEq

/-- `SendSession`. -/
structure SendSession where
  state : SendState:=.idle
  conn : UInt16:=noConn
  peer : PeerAddr:={addr:=zeros 6,addrType:=0}
  mime : Bytes:=[]
  totalLen : ℕ:=0
  sent : ℕ:=0
  crc : UInt32:=0
  stateStartMs : UInt32:=0
  ctrlHandle : UInt16:=0
  statusHandle : UInt16:=0
  statusCccd : UInt16:=0
  dataHandle : UInt16:=0
  completeWritten : Bool:=false
  persistent : Bool:=false
  connectedFlag : Bool:=false
  discoveredFlag : Bool:=false
  acceptedFlag : Bool:=false
  queuedFlag : Bool:=false
  encOk : Bool:=false
  doneFlag : Bool:=false
  failFlag : Bool:=false
  failReason : Reason:=Reason.none
  buf : Option Bytes:=none

structure TransferResult where
  ok : Bool
  wasSend : Bool
  reason : Reason
  mime : Bytes
  peerName : Bytes
  deriving DecidableEq

/-- The value handles of the control, status and data characteristics that were found, 0 where one was not. -/
structure FoundService where
  ctrl : UInt16
  status : UInt16
  data : UInt16

/-- A call to the Bluetooth controller. -/
inductive BleCall
  | notify (conn : UInt16) (frame : Bytes)
  | disconnect (conn : UInt16)
  | connect (peer : PeerAddr)
  | cancelConnect
  | startScan
  | stopScan
  | discover (conn : UInt16)
  | enableNotifications (conn cccd : UInt16)
  | initiateSecurity (conn : UInt16)
  | write (conn attr : UInt16) (frame : Bytes) (rsp accepted : Bool)
  deriving DecidableEq

/-- By whose word an offer is accepted: the user's, to the prompt for an offer, or the session's, in which the
peer of the offer's link is trusted or not. -/
inductive Consent
  | user (shown : Option Offer)
  | session (trusted : Bool)
  deriving DecidableEq

/-- A bond in the controller's store that a transfer made: over which link, and in which boot. -/
structure Bond where
  link : Link
  boot : ℕ
  deriving DecidableEq

/-- What happens to the offers and their links. -/
inductive RecvEntry
  | offered (o : Offer)
  | accepted (o : Offer) (by' : Consent)
  | encrypted (link : Link)
  | chunk (link : Link) (payload : Bytes)
  | complete (link : Link) (crc : UInt32)
  | delivered (data : Bytes)
  deriving DecidableEq

/-- What happens to the sends. What is written goes to the link behind the sender's handle. -/
inductive SendEntry
  | started (payload : Bytes)
  | chunk (link : Option Link) (payload : Bytes)
  | complete (link : Option Link) (crc : UInt32)
  | done (link : Link)
  | result (ok : Bool)
  deriving DecidableEq

/-- The service with the world that it lives in. -/
structure Transfer where
  recv : RecvSession:={}
  queue : Fin kOfferQueueDepth→Option Offer:=fun _=>none
  promptWindowStartMs : UInt32:=0
  promptsInWindow : UInt8:=0
  quietUntilMs : UInt32:=0
  rate : Fin kRateTableSize→Option RateEntry:=fun _=>none
  bonded : Fin 2→Option BondRef:=fun _=>none
  sessionPeers : Fin maxBondedDevices→Option PeerAddr:=fun _=>none
  sessionBondsCleaned : Bool:=false
  ledgerDirty : Bool:=false
  send : SendSession:={}
  interactiveReq : Bool:=false
  /-- `lastResult_`, where it is valid. -/
  lastResult : Option TransferResult:=none
  /-- The service is registered with the controller and hears its callbacks. -/
  listening : Bool:=false
  /-- The peers in the NVS ledger. -/
  ledger : List PeerAddr:=[]
  /-- The calls to the controller so far. -/
  calls : List BleCall:=[]
  /-- The links that are up, by their handles. -/
  links : UInt16→Option Link:=fun _=>none
  nextSerial : ℕ:=0
  bonds : List Bond:=[]
  /-- The links over which a transfer asked for encryption or waits for it. -/
  pairing : Link→Bool:=fun _=>false
  boots : ℕ:=0
  nextOffer : ℕ:=0
  /-- The offer that the user is asked about. -/
  shown : Option Offer:=none
  recvLog : List RecvEntry:=[]
  sendLog : List SendEntry:=[]

/-- What a callback or a call meets. -/
structure Env where
  /-- `nowMs()`. -/
  now : UInt32:=0
  /-- `nowMs()` where it is asked again. -/
  later : UInt32:=0
  /-- The callback got the mutex in time. -/
  locked : Bool:=true
  /-- A handler is registered for the MIME type. -/
  hasHandler : Bool:=true
  /-- An installed plugin handles the MIME type. -/
  canHandle : Bool:=false
  /-- A deferred delivery function is set. -/
  deferred : Bool:=false
  /-- What the handler answers. -/
  delivers : Bool:=true
  /-- PSRAM can be had. -/
  allocates : Bool:=true
  bleEnabled : Bool:=true
  connects : Bool:=true
  discovers : Bool:=true
  secures : Bool:=true
  /-- Which writes of characteristics the stack accepts, in order. -/
  writes : List Bool:=[]
  mtu : ℕ:=20
  beaconName : Bytes:=[]
  /-- The NVS namespace can be opened. -/
  nvsOpens : Bool:=true
  /-- The ledger can be read from NVS. -/
  nvsReads : Bool:=true
  /-- A change of the ledger in NVS is kept. -/
  nvsKeeps : Bool:=true

def findSlot {n : ℕ} {α : Type} (table : Fin n → α) (p : α→Bool) : Option (Fin n):=
  (List.finRange n).find? fun i=>p (table i)

namespace Transfer

variable (s : Transfer)

def call (c : BleCall) : Transfer:={s with calls:=s.calls++[c]}

def getPeerIdAddr (conn : UInt16) : Option PeerAddr:=(s.links conn).map Link.peer

def forgetBond (peer : PeerAddr) : Transfer:={s with bonds:=s.bonds.filter fun b=>b.link.peer≠peer}

def notifyFrame (conn : UInt16) (frame : Bytes) : Transfer:=if conn=noConn then s else s.call (.notify conn frame)

def notifyStatus (conn : UInt16) (op : StatusOp) : Transfer:=s.notifyFrame conn [op.code]

def notifyStatusByte (conn : UInt16) (op : StatusOp) (arg : UInt8) : Transfer:=s.notifyFrame conn [op.code,arg]

def notifyStatusU32 (conn : UInt16) (op : StatusOp) (value : UInt32) : Transfer:=
  s.notifyFrame conn (op.code::wrU32 value)

def storeResult (ok wasSend : Bool) (reason : Reason) (mime peerName : Bytes) : Transfer:=
  {s with lastResult:=some {ok:=ok,wasSend:=wasSend,reason:=reason,mime:=mime,peerName:=peerName}}

def isSessionPeer (peer : PeerAddr) : Bool:=(findSlot s.sessionPeers fun p=>p=some peer).isSome

def rememberSessionPeer (peer : PeerAddr) : Transfer:=
  if s.isSessionPeer peer then s
  else match findSlot s.sessionPeers Option.isNone with
    | some i=>{s with sessionPeers:=Function.update s.sessionPeers i (some peer),ledgerDirty:=true}
    | none=>s

def recordBond (conn : UInt16) (peer : PeerAddr) : Transfer:=
  match (findSlot s.bonded fun b=>b.any fun b=>b.conn=conn).or (findSlot s.bonded Option.isNone) with
  | some i=>{s with bonded:=Function.update s.bonded i (some {conn:=conn,peer:=peer})}
  | none=>s

def forgetBondForConn (conn : UInt16) : Transfer:=
  match findSlot s.bonded fun b=>b.any fun b=>b.conn=conn with
  | none=>s
  | some i=>
    let s':=match s.bonded i with
      | some b=>if s.isSessionPeer b.peer then s else s.forgetBond b.peer
      | none=>s
    {s' with bonded:=Function.update s.bonded i none}

def sessionPeerList : List PeerAddr:=(List.finRange maxBondedDevices).filterMap s.sessionPeers

def persistSessionLedger (env : Env) : Transfer:=
  if env.nvsOpens ∧ env.nvsKeeps then {s with ledger:=s.sessionPeerList} else s

def cleanupStaleSessionBonds (env : Env) : Transfer:=
  if env.nvsOpens then
    let s:=if env.nvsReads then s.ledger.foldl forgetBond s else s
    if env.nvsKeeps then {s with ledger:=[]} else s
  else s

def forgetAllSessionPeers (env : Env) : Transfer:=
  if s.sessionPeerList=[] then s
  else
    let s:=s.sessionPeerList.foldl forgetBond s
    let s:={s with sessionPeers:=fun _=>none}
    {s.persistSessionLedger env with ledgerDirty:=false}

def resetRecv : Transfer:={s with recv:={stateStartMs:=s.recv.stateStartMs}}

def teardownRecv (sendError : Bool) (reason : Reason) : Transfer:=
  let conn:=s.recv.conn
  let s:=if sendError ∧ conn≠noConn then
      (s.notifyStatusByte conn .error reason).storeResult false false reason s.recv.mime s.recv.peerName
    else s
  let s:=s.resetRecv
  if conn≠noConn then s.call (.disconnect conn) else s

def failRecv (reason : Reason) : Transfer:={s with recv:={s.recv with failFlag:=true,failReason:=reason}}

def enqueueOffer (conn : UInt16) (link : Link) (f : OfferFrame) (env : Env) : Transfer:=
  match findSlot s.queue Option.isNone with
  | none=>s.notifyStatus conn .busy
  | some i=>
    let o : Offer:={
      id:=s.nextOffer,link:=link,conn:=conn,mime:=f.mime,peerName:=f.name,totalLen:=f.totalLen
      enqueuedMs:=env.later,persist:=f.persist }
    let s:={ s with
      queue:=Function.update s.queue i (some o)
      nextOffer:=s.nextOffer+1
      recvLog:=s.recvLog++[.offered o] }
    if s.recv.state≠.idle then s.notifyStatus conn .queued else s

def dropQueuedForConn (conn : UInt16) : Transfer:=
  {s with queue:=fun i=>(s.queue i).filter fun o=>o.conn≠conn}

def tryConsumePromptBudget (now : UInt32) : Bool × Transfer:=
  let s:=if now-s.promptWindowStartMs > kPromptWindowMs then
      {s with promptWindowStartMs:=now,promptsInWindow:=0}
    else s
  if s.promptsInWindow ≥ kMaxPromptsPerWindow then (false,s)
  else (true,{s with promptsInWindow:=s.promptsInWindow+1})

def rateLimitOk (conn : UInt16) (now : UInt32) : Bool × Transfer:=
  let found:=findSlot s.rate fun r=>r.any fun r=>r.conn=conn
  match found.or (findSlot s.rate Option.isNone) with
  | none=>(true,s)
  | some i=>
    let e:=(s.rate i).getD {conn:=conn,windowStartMs:=now,offers:=0}
    let e:=if now-e.windowStartMs > kOfferWindowMs then {e with windowStartMs:=now,offers:=0} else e
    if e.offers ≥ kMaxOffersPerWindow then (false,{s with rate:=Function.update s.rate i (some e)})
    else (true,{s with rate:=Function.update s.rate i (some {e with offers:=e.offers+1})})

def oldestOffer : Option (Fin kOfferQueueDepth):=
  (List.finRange kOfferQueueDepth).foldl (fun head i=>
    match s.queue i,head with
    | none,_=>head
    | some _,none=>some i
    | some o,some h=>if o.enqueuedMs < ((s.queue h).map Offer.enqueuedMs).getD 0 then some i else head) none

def dropOffer (i : Fin kOfferQueueDepth) : Transfer:={s with queue:=Function.update s.queue i none}

/-- The link of the receive record is one that a transfer waits for the encryption of. -/
def awaitPairing (conn : UInt16) : Transfer:=
  match s.links conn with
  | some link=>{s with pairing:=Function.update s.pairing link true}
  | none=>s

def accept (consent : Consent) (now : UInt32) : Transfer:=
  let s:=s.notifyStatus s.recv.conn .accept
  { s.awaitPairing s.recv.conn with
    recv:={s.recv with state:=.awaitingEncrypt,stateStartMs:=now}
    recvLog:=s.recvLog++(s.recv.offer.map fun o=>RecvEntry.accepted o consent).toList }

def takeOffer (i : Fin kOfferQueueDepth) (o : Offer) (now : UInt32) : Transfer:=
  { s.dropOffer i with
    recv:={ s.recv with
      conn:=o.conn,mime:=o.mime,peerName:=o.peerName,totalLen:=o.totalLen,persistent:=o.persist
      received:=0,lastProgress:=0,completeReceived:=false,failFlag:=false,failReason:=Reason.none
      stateStartMs:=now,offer:=some o } }

def promote (i : Fin kOfferQueueDepth) (o : Offer) (autoAccept : Bool) (now : UInt32) : Transfer:=
  let s:=s.takeOffer i o now
  if autoAccept then s.accept (.session (s.isSessionPeer o.link.peer)) now
  else {s with recv:={s.recv with state:=.awaitingConsent}}

def promoteNextOffer (now : UInt32) : Transfer:=
  match s.oldestOffer with
  | none=>s
  | some i=>
    match s.queue i with
    | none=>s
    | some o=>
      if now-o.enqueuedMs > kQueueWaitTimeoutMs then
        (s.notifyStatusByte o.conn .error Reason.timeout).dropOffer i
      else
        let autoAccept:=o.persist && (s.getPeerIdAddr o.conn).any s.isSessionPeer
        if autoAccept then s.promote i o true now
        else if now < s.quietUntilMs then (s.notifyStatus o.conn .busy).dropOffer i
        else
          let (ok,s):=s.tryConsumePromptBudget now
          if ok then s.promote i o false now else (s.notifyStatus o.conn .busy).dropOffer i

section Receiver

variable (crc32 : Bytes→UInt32)

def deliver (env : Env) : Transfer:=
  let data:=(s.recv.buf.getD []).take s.recv.totalLen
  if crc32 data≠s.recv.expectedCrc then s.teardownRecv true Reason.crcMismatch
  else if env.hasHandler ∨ env.deferred then
    let s:={s with recvLog:=s.recvLog++[RecvEntry.delivered data]}
    if env.delivers then
      let s:=(s.notifyStatus s.recv.conn .done).storeResult true false Reason.none s.recv.mime s.recv.peerName
      {s with recv:={s.recv with buf:=none,state:=.done,stateStartMs:=env.now}}
    else s.teardownRecv true Reason.badFrame
  else s.teardownRecv true Reason.badFrame

def tickRecv (env : Env) : Transfer:=
  match s.recv.state with
  | .idle=>s.promoteNextOffer env.now
  | .awaitingConsent=>
    if s.recv.failFlag then s.teardownRecv false s.recv.failReason
    else if env.now-s.recv.stateStartMs > kConsentTimeoutMs then s.teardownRecv true Reason.timeout
    else s
  | .awaitingEncrypt=>
    if s.recv.failFlag then s.teardownRecv true s.recv.failReason
    else if env.now-s.recv.stateStartMs > kEncryptTimeoutMs then s.teardownRecv true Reason.timeout
    else s
  | .receiving=>
    if s.recv.failFlag then s.teardownRecv true s.recv.failReason
    else if s.recv.completeReceived then s.deliver crc32 env
    else if env.now-s.recv.stateStartMs > kTransferIdleTimeoutMs then s.teardownRecv true Reason.timeout
    else s
  | .done=>
    if env.now-s.recv.stateStartMs > kDoneGraceMs then
      let conn:=s.recv.conn
      if conn≠noConn then s.resetRecv.call (.disconnect conn) else s.resetRecv
    else s
  | _=>s

end Receiver

def respondConsent (accept : Bool) (env : Env) : Transfer:=
  if s.recv.state≠.awaitingConsent then s
  else if s.recv.failFlag then s.teardownRecv false Reason.none
  else if accept then s.accept (.user s.shown) env.now
  else
    let s:=s.notifyStatusByte s.recv.conn .decline Reason.userDeclined
    {s with quietUntilMs:=env.now+kQuietCooldownMs}.teardownRecv false Reason.none

def onControlWrite (conn : UInt16) (link : Link) (data : Bytes) (env : Env) : Transfer:=
  if data=[] ∨ env.locked=false then s
  else if data.getD 0 0=abortOp then
    if s.recv.state≠.idle ∧ conn=s.recv.conn then s.failRecv Reason.disconnected else s
  else if data.getD 0 0≠offerOp then s
  else
    match parseOffer data with
    | .error reason=>s.notifyStatusByte conn .decline reason
    | .ok f=>
      if env.hasHandler=false ∧ env.canHandle=false then s.notifyStatusByte conn .decline Reason.noHandler
      else
        let (ok,s):=s.rateLimitOk conn env.now
        if ok then s.enqueueOffer conn link f env else s.notifyStatus conn .busy

def takeChunk (conn : UInt16) (payload : Bytes) (now : UInt32) : Transfer:=
  if s.recv.received > s.recv.totalLen ∨ payload.length > s.recv.totalLen-s.recv.received then s.failRecv Reason.badFrame
  else
    let received:=s.recv.received+payload.length
    let s:={ s with recv:={ s.recv with
      buf:=s.recv.buf.map fun buf=>
        buf.take s.recv.received++payload++buf.drop (s.recv.received+payload.length)
      received:=received
      stateStartMs:=now } }
    if kProgressStepBytes ≤ received-s.recv.lastProgress ∨ received=s.recv.totalLen then
      {s with recv:={s.recv with lastProgress:=received}}.notifyStatusU32 conn .progress (UInt32.ofNat received)
    else s

def onDataWrite (conn : UInt16) (data : Bytes) (env : Env) : Transfer:=
  if data=[] ∨ env.locked=false then s
  else if s.recv.state≠.receiving ∨ conn≠s.recv.conn then s
  else if data.getD 0 0=chunkOp then
    if data.length < kChunkHeaderLen then s.failRecv Reason.badFrame
    else s.takeChunk conn (data.drop kChunkHeaderLen) env.now
  else if data.getD 0 0=completeOp then
    if data.length < kCompleteLen then s.failRecv Reason.badFrame
    else if s.recv.received≠s.recv.totalLen then s.failRecv Reason.crcMismatch
    else {s with recv:={s.recv with expectedCrc:=rdU32 data 2,completeReceived:=true}}
  else s

def resetSend : Transfer:=
  {s with send:={peer:=s.send.peer,stateStartMs:=s.send.stateStartMs},interactiveReq:=false}

def teardownSend (ok : Bool) (reason : Reason) : Transfer:=
  let s:=s.storeResult ok true reason s.send.mime []
  let s:={s with sendLog:=s.sendLog++[SendEntry.result ok]}
  let conn:=s.send.conn
  let s:=s.resetSend
  if conn≠noConn then s.call (.disconnect conn) else s.call .cancelConnect

def failSend (reason : Reason) : Transfer:={s with send:={s.send with failFlag:=true,failReason:=reason}}

def mtuPayload (env : Env) : ℕ:=if env.mtu < 20 then 20 else env.mtu

def maxChunk (env : Env) : ℕ:=min (mtuPayload env-kChunkHeaderLen) (kFrameBufLen-kChunkHeaderLen)

def writeCharacteristic (attr : UInt16) (frame : Bytes) (rsp : Bool) (writes : List Bool) : Bool × List Bool × Transfer:=
  (writes.headD true,writes.tail,s.call (.write s.send.conn attr frame rsp (writes.headD true)))

def chunkSent (payload : Bytes) (chunk : ℕ) (now : UInt32) : Transfer:=
  { s with
    send:={s.send with sent:=s.send.sent+chunk,stateStartMs:=now}
    sendLog:=s.sendLog++[.chunk (s.links s.send.conn) payload] }

/-- The chunks from `sent` on, until the stack is congested, in at most so many rounds. -/
def streamLoop (env : Env) : ℕ → List Bool→Transfer → List Bool × Transfer
  | 0, writes, s=>(writes,s)
  | n+1, writes, s=>
    if s.send.sent < s.send.totalLen then
      let chunk:=min (maxChunk env) (s.send.totalLen-s.send.sent)
      let payload:=((s.send.buf.getD []).drop s.send.sent).take chunk
      let (accepted,writes,s):=s.writeCharacteristic s.send.dataHandle (chunkFrame payload) false writes
      if accepted then streamLoop env n writes (s.chunkSent payload chunk env.later) else (writes,s)
    else (writes,s)

def completeSent (now : UInt32) : Transfer:=
  { s with
    send:={s.send with completeWritten:=true,stateStartMs:=now}
    sendLog:=s.sendLog++[.complete (s.links s.send.conn) s.send.crc] }

def streamChunks (env : Env) : Transfer:=
  if s.send.buf=none then s
  else
    let (writes,s):=streamLoop env s.send.totalLen env.writes s
    if s.send.sent < s.send.totalLen then s
    else if s.send.completeWritten then s
    else
      let (accepted,_,s):=s.writeCharacteristic s.send.dataHandle (completeFrame s.send.crc) true writes
      if accepted then s.completeSent env.later else s

def offerName (env : Env) : Option Bytes:=
  let mtu:=min (mtuPayload env) kFrameBufLen
  let name:=(cstr env.beaconName).take kMaxNameLen
  if mtu < kOfferHeaderLen+s.send.mime.length+name.length then
    if mtu < kOfferHeaderLen+s.send.mime.length then none
    else some (name.take (mtu-kOfferHeaderLen-s.send.mime.length))
  else some name

def writeOffer (env : Env) : Transfer:=
  let s:=s.call (.enableNotifications s.send.conn s.send.statusCccd)
  match s.offerName env with
  | none=>s.teardownSend false Reason.badFrame
  | some name=>
    let (accepted,_,s):=s.writeCharacteristic s.send.ctrlHandle
      (offerFrame s.send.totalLen s.send.mime name s.send.persistent) true env.writes
    if accepted then {s with send:={s.send with state:=.offering,stateStartMs:=env.now}}
    else s.teardownSend false Reason.disconnected

def secureSend (env : Env) : Transfer:=
  let s:=s.call (.initiateSecurity s.send.conn)
  if env.secures then
    {s.awaitPairing s.send.conn with send:={s.send with state:=.awaitingEncrypt,stateStartMs:=env.now}}
  else s.teardownSend false Reason.pairFailed

def timeOut (limit : UInt32) (env : Env) : Transfer:=
  if env.now-s.send.stateStartMs > limit then s.teardownSend false Reason.timeout else s

def extendWait (now : UInt32) : Transfer:=
  if s.send.queuedFlag then {s with send:={s.send with queuedFlag:=false,stateStartMs:=now}} else s

def streamRest (env : Env) : Transfer:=
  if s.send.sent < s.send.totalLen ∨ s.send.completeWritten=false then s.streamChunks env else s

def tickSend (env : Env) : Transfer:=
  match s.send.state with
  | .pickingPeer=>s.timeOut kQueueWaitTimeoutMs env
  | .connecting=>
    if s.send.failFlag then s.teardownSend false s.send.failReason
    else if s.send.connectedFlag then
      let s:={s with send:={s.send with connectedFlag:=false}}
      let s:=s.call (.discover s.send.conn)
      if env.discovers then {s with send:={s.send with state:=.discovering,stateStartMs:=env.now}}
      else s.teardownSend false Reason.disconnected
    else s.timeOut kConnectTimeoutMs env
  | .discovering=>
    if s.send.failFlag then s.teardownSend false s.send.failReason
    else if s.send.discoveredFlag then {s with send:={s.send with discoveredFlag:=false}}.writeOffer env
    else s.timeOut kDiscoveryTimeoutMs env
  | .offering=>
    if s.send.failFlag then s.teardownSend false s.send.failReason
    else if s.send.acceptedFlag then {s with send:={s.send with acceptedFlag:=false}}.secureSend env
    else (s.extendWait env.now).timeOut kQueueWaitTimeoutMs env
  | .awaitingEncrypt=>
    if s.send.failFlag then s.teardownSend false s.send.failReason
    else if s.send.encOk then
      {s with send:={s.send with encOk:=false,state:=.streaming,stateStartMs:=env.now}}.streamChunks env
    else s.timeOut kEncryptTimeoutMs env
  | .streaming=>
    if s.send.failFlag then s.teardownSend false s.send.failReason
    else if s.send.doneFlag then s.teardownSend true Reason.none
    else (s.streamRest env).timeOut kTransferIdleTimeoutMs env
  | _=>s

def onConnect (conn : UInt16) (env : Env) : Transfer:=
  if env.locked ∧ s.send.state=.connecting ∧ s.send.conn=noConn then
    {s with send:={s.send with conn:=conn,connectedFlag:=true}}
  else s

def loseSend (conn : UInt16) : Transfer:=
  if s.send.state≠.idle ∧ conn=s.send.conn then s.failSend Reason.disconnected else s

def loseRecv (conn : UInt16) : Transfer:=
  if s.recv.state≠.idle ∧ conn=s.recv.conn then
    if s.recv.state=.done then s.resetRecv else s.failRecv Reason.disconnected
  else s

def onDisconnect (conn : UInt16) (env : Env) : Transfer:=
  if env.locked then (((s.forgetBondForConn conn).loseSend conn).loseRecv conn).dropQueuedForConn conn else s

def onServiceDiscovered (conn : UInt16) (svc : Option FoundService) (complete : Bool) (env : Env) : Transfer:=
  if env.locked=false ∨ s.send.state≠.discovering ∨ conn≠s.send.conn ∨ complete=false then s
  else
    match svc with
    | none=>s.failSend Reason.badFrame
    | some svc=>
      let s:={ s with send:={ s.send with
        ctrlHandle:=svc.ctrl,statusHandle:=svc.status,dataHandle:=svc.data
        statusCccd:=if svc.status=0 then 0 else svc.status+1 } }
      if svc.ctrl=0 ∨ svc.data=0 ∨ svc.status=0 then s.failSend Reason.badFrame
      else {s with send:={s.send with discoveredFlag:=true}}

def onNotification (conn : UInt16) (link : Link) (data : Bytes) (env : Env) : Transfer:=
  if env.locked=false ∨ s.send.state=.idle ∨ conn≠s.send.conn ∨ data=[] then s
  else
    match StatusOp.ofCode (data.getD 0 0) with
    | some .accept=>{s with send:={s.send with acceptedFlag:=true}}
    | some .decline=>s.failSend (if 2 ≤ data.length then data.getD 1 0 else Reason.userDeclined)
    | some .busy=>s.failSend Reason.busy
    | some .queued=>{s with send:={s.send with queuedFlag:=true}}
    | some .error=>s.failSend (if 2 ≤ data.length then data.getD 1 0 else Reason.none)
    | some .done=>{s with send:={s.send with doneFlag:=true},sendLog:=s.sendLog++[.done link]}
    | some .progress=>s
    | none=>s

def onWriteComplete (conn : UInt16) (status : ℤ) (env : Env) : Transfer:=
  if env.locked=false ∨ s.send.state=.idle ∨ conn≠s.send.conn then s
  else if status≠0 then s.failSend Reason.disconnected
  else s

/-- The pairing with the peer of a connection is to be forgotten, or remembered for the session. -/
def notePairing (conn : UInt16) (persistent : Bool) : Transfer:=
  match s.getPeerIdAddr conn with
  | some peer=>
    let s:=s.recordBond conn peer
    if persistent then s.rememberSessionPeer peer else s
  | none=>s

/-- The link of the receive record is encrypted, and there is a buffer for the payload. -/
def startReceiving (conn : UInt16) (now : UInt32) : Transfer:=
  let s:={ s with recv:={ s.recv with
    buf:=some (List.replicate s.recv.totalLen 0),received:=0,lastProgress:=0,completeReceived:=false } }
  let s:=s.notePairing conn s.recv.persistent
  {s with recv:={s.recv with state:=.receiving,stateStartMs:=now}}

def onEncChange (conn : UInt16) (status : ℤ) (env : Env) : Transfer:=
  if env.locked=false then s
  else if s.send.state=.awaitingEncrypt ∧ conn=s.send.conn then
    if status=0 then
      let s:=s.notePairing conn s.send.persistent
      {s with send:={s.send with encOk:=true}}
    else s.failSend Reason.pairFailed
  else if s.recv.state=.awaitingEncrypt ∧ conn=s.recv.conn then
    if status=0 then
      if env.allocates=false then {s with recv:={s.recv with buf:=none}}.failRecv Reason.tooLarge
      else s.startReceiving conn env.now
    else s.failRecv Reason.pairFailed
  else s

def connectTo (peer : PeerAddr) (now : UInt32) : Transfer:=
  { s with send:={ s.send with
    peer:=peer,sent:=0,completeWritten:=false
    connectedFlag:=false,discoveredFlag:=false,acceptedFlag:=false,queuedFlag:=false,encOk:=false
    doneFlag:=false,failFlag:=false
    conn:=noConn,state:=.connecting,stateStartMs:=now } }

def startConnecting (peer : PeerAddr) (env : Env) : Bool × Transfer:=
  let s:=(s.connectTo peer env.now).call (.connect peer)
  if env.connects then (true,s) else (false,s.teardownSend false Reason.disconnected)

def validMime (mime : Bytes) : Bool:=0 < (cstr mime).length ∧ (cstr mime).length ≤ kMaxMimeLen

section Sender

variable (crc32 : Bytes→UInt32)

def keepPayload (mime data : Bytes) (persistent : Bool) (env : Env) : Option Transfer:=
  if validMime mime=false ∨ data=[] ∨ kMaxPayloadBytes < data.length then none
  else if s.send.state≠.idle ∨ env.bleEnabled=false ∨ env.allocates=false then none
  else some { s with
    send:={ s.send with
      buf:=some data,totalLen:=data.length,sent:=0,crc:=crc32 data,mime:=(cstr mime).take kMaxMimeLen
      persistent:=persistent,completeWritten:=false }
    sendLog:=s.sendLog++[.started data] }

def sendTo (peer : PeerAddr) (mime data : Bytes) (persistent : Bool) (env : Env) : Bool × Transfer:=
  match s.keepPayload crc32 mime data persistent env with
  | some s=>s.startConnecting peer env
  | none=>(false,s)

def beginInteractiveSend (mime data : Bytes) (persistent : Bool) (env : Env) : Bool × Transfer:=
  match s.keepPayload crc32 mime data persistent env with
  | some s=>
    (true,{ s with
      send:={s.send with conn:=noConn,state:=.pickingPeer,stateStartMs:=env.now}
      interactiveReq:=true }.call .startScan)
  | none=>(false,s)

end Sender

def takeInteractiveRequest : Bool × Transfer:=(s.interactiveReq,{s with interactiveReq:=false})

def confirmInteractiveTarget (peer : PeerAddr) (env : Env) : Bool × Transfer:=
  if s.send.state≠.pickingPeer then (false,s) else (s.call .stopScan).startConnecting peer env

def cancelSend : Transfer:=if s.send.state=.idle then s else s.teardownSend false Reason.userDeclined

def consumeResult : Option TransferResult × Transfer:=(s.lastResult,{s with lastResult:=none})

def start : Transfer:={s with listening:=true}

def abandonRecv : Transfer:=if s.recv.state≠.idle then s.teardownRecv false Reason.disconnected else s

def abandonSend : Transfer:=if s.send.state≠.idle then s.teardownSend false Reason.disconnected else s

def stop (env : Env) : Transfer:={s.abandonRecv.abandonSend.forgetAllSessionPeers env with listening:=false}

def cleanupOnce (env : Env) : Transfer:=
  if s.sessionBondsCleaned=false ∧ env.bleEnabled then
    {s.cleanupStaleSessionBonds env with sessionBondsCleaned:=true}
  else s

def flushLedger (env : Env) : Transfer:=
  if s.ledgerDirty then {s with ledgerDirty:=false}.persistSessionLedger env else s

def tick (crc32 : Bytes→UInt32) (env : Env) : Transfer:=
  (((s.cleanupOnce env).flushLedger env).tickRecv crc32 env).tickSend env

end Transfer

/-- What happens to the service. Callbacks come with the link behind their handle. -/
inductive Event
  | linkUp (conn : UInt16) (peer : PeerAddr) (env : Env)
  | linkDown (conn : UInt16) (env : Env)
  | controlWrite (conn : UInt16) (data : Bytes) (env : Env)
  | dataWrite (conn : UInt16) (data : Bytes) (env : Env)
  | encChange (conn : UInt16) (status : ℤ) (paired : Bool) (env : Env)
  | serviceDiscovered (conn : UInt16) (svc : Option FoundService) (complete : Bool) (env : Env)
  | notification (conn : UInt16) (data : Bytes) (env : Env)
  | writeComplete (conn : UInt16) (status : ℤ) (env : Env)
  | showConsent
  | respondConsent (accept : Bool) (env : Env)
  | tick (env : Env)
  | sendTo (peer : PeerAddr) (mime data : Bytes) (persistent : Bool) (env : Env)
  | beginInteractiveSend (mime data : Bytes) (persistent : Bool) (env : Env)
  | takeInteractiveRequest
  | confirmInteractiveTarget (peer : PeerAddr) (env : Env)
  | cancelSend
  | consumeResult
  | start
  | stop (env : Env)
  | reboot

def dataEntries (link : Link) (data : Bytes) : List RecvEntry:=
  if data.getD 0 0=chunkOp ∧ kChunkHeaderLen ≤ data.length then [.chunk link (data.drop kChunkHeaderLen)]
  else if data.getD 0 0=completeOp ∧ kCompleteLen ≤ data.length then [.complete link (rdU32 data 2)]
  else []

namespace Transfer

variable (s : Transfer)

def hear (conn : UInt16) (callback : Link→Transfer→Transfer) : Transfer:=
  match s.links conn with
  | some link=>if s.listening then callback link s else s
  | none=>s

def linkUp (conn : UInt16) (peer : PeerAddr) (env : Env) : Transfer:=
  if conn=noConn ∨ (s.links conn).isSome then s
  else
    let s:={ s with
      links:=Function.update s.links conn (some {serial:=s.nextSerial,peer:=peer})
      nextSerial:=s.nextSerial+1 }
    if s.listening then s.onConnect conn env else s

def linkDown (conn : UInt16) (env : Env) : Transfer:=
  if (s.links conn).isSome then
    let s:={s with links:=Function.update s.links conn none}
    if s.listening then s.onDisconnect conn env else s
  else s

/-- The link is encrypted. If its peer paired for a transfer, the controller has a bond. -/
def encrypt (link : Link) (paired : Bool) : Transfer:=
  { s with
    recvLog:=s.recvLog++[.encrypted link]
    bonds:=if paired ∧ s.pairing link then {link:=link,boot:=s.boots}::(s.forgetBond link.peer).bonds
      else s.bonds }

def encChange (conn : UInt16) (status : ℤ) (paired : Bool) (env : Env) : Transfer:=
  match s.links conn with
  | some link=>
    let s:=if status=0 then s.encrypt link paired else s
    if s.listening then s.onEncChange conn status env else s
  | none=>s

def dataWrite (conn : UInt16) (data : Bytes) (env : Env) : Transfer:=
  match s.links conn with
  | some link=>
    let s:={s with recvLog:=s.recvLog++dataEntries link data}
    if s.listening then s.onDataWrite conn data env else s
  | none=>s

def showConsent : Transfer:=if s.recv.state=.awaitingConsent then {s with shown:=s.recv.offer} else s

/-- The badge is switched off and on again: the store of bonds and the ledger stay. -/
def reboot : Transfer:=
  {bonds:=s.bonds,ledger:=s.ledger,boots:=s.boots+1,nextSerial:=s.nextSerial,nextOffer:=s.nextOffer}

def step (crc32 : Bytes→UInt32) (s : Transfer) : Event→Transfer
  | .linkUp conn peer env=>s.linkUp conn peer env
  | .linkDown conn env=>s.linkDown conn env
  | .controlWrite conn data env=>s.hear conn fun link s=>s.onControlWrite conn link data env
  | .dataWrite conn data env=>s.dataWrite conn data env
  | .encChange conn status paired env=>s.encChange conn status paired env
  | .serviceDiscovered conn svc complete env=>s.hear conn fun _ s=>s.onServiceDiscovered conn svc complete env
  | .notification conn data env=>s.hear conn fun link s=>s.onNotification conn link data env
  | .writeComplete conn status env=>s.hear conn fun _ s=>s.onWriteComplete conn status env
  | .showConsent=>s.showConsent
  | .respondConsent accept env=>s.respondConsent accept env
  | .tick env=>s.tick crc32 env
  | .sendTo peer mime data persistent env=>(s.sendTo crc32 peer mime data persistent env).2
  | .beginInteractiveSend mime data persistent env=>(s.beginInteractiveSend crc32 mime data persistent env).2
  | .takeInteractiveRequest=>s.takeInteractiveRequest.2
  | .confirmInteractiveTarget peer env=>(s.confirmInteractiveTarget peer env).2
  | .cancelSend=>s.cancelSend
  | .consumeResult=>s.consumeResult.2
  | .start=>s.start
  | .stop env=>s.stop env
  | .reboot=>s.reboot

end Transfer

end CdcBadge.Msg
