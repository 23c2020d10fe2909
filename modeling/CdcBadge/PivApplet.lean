import CdcBadge.Apdu
import CdcBadge.PinManager

/-!
# The PIV applet

The APDU state machine over a backend that holds keys, PIN, management key and objects.
-/

namespace CdcBadge.Piv

open Handler
open Pin (PowerLost)

def insSelect : UInt8:=0xA4
def insGetData : UInt8:=0xCB
def insVerify : UInt8:=0x20
def insChangeReference : UInt8:=0x24
def insGeneralAuth : UInt8:=0x87
def insGenerateKeypair : UInt8:=0x47
def insPutData : UInt8:=0xDB
def insGetResponse : UInt8:=0xC0
def insGetMetadata : UInt8:=0xF7
def insSetMgmtKey : UInt8:=0xFF

def key9A : UInt8:=0x9A
def key9C : UInt8:=0x9C
def key9D : UInt8:=0x9D
def key9E : UInt8:=0x9E
def key9B : UInt8:=0x9B
def keyPin : UInt8:=0x80

def algEccP256 : UInt8:=0x11
def algAes128 : UInt8:=0x08
def algAes192 : UInt8:=0x0A
def algAes256 : UInt8:=0x0C

def tagWitness : ℕ:=0x80
def tagChallenge : ℕ:=0x81
def tagResponse : ℕ:=0x82
def tagExp : ℕ:=0x85
def tagDynAuth : ℕ:=0x7C
def tagDataObject : ℕ:=0x53
def tagTagList : ℕ:=0x5C
def tagAlgId : ℕ:=0xAC
def tagPubkey : ℕ:=0x7F49
def tagPubkeyPoint : ℕ:=0x86
def tagAid : ℕ:=0x4F
def tagApt : ℕ:=0x61
def tagAllocAuth : ℕ:=0x79
def tagAppLabel : ℕ:=0x50
def tagDiscovery : ℕ:=0x7E

def swOk : UInt16:=0x9000
def swWrongLength : UInt16:=0x6700
def swSecurityStatus : UInt16:=0x6982
def swAuthBlocked : UInt16:=0x6983
def swDataInvalid : UInt16:=0x6A80
def swFileNotFound : UInt16:=0x6A82
def swIncorrectP1P2 : UInt16:=0x6A86
def swRefNotFound : UInt16:=0x6A88
def swInsNotSupported : UInt16:=0x6D00

/-- `63Cx`, with the low nibble of the tries that are left. -/
def swPinRetries (retries : UInt8) : UInt16:=0x63C0 ||| (retries &&& 0x0F).toUInt16

/-- `61xx`: so many bytes are left, or more than 255. -/
def swMoreData (left : ℕ) : UInt16:=0x6100 ||| if 0xFF < left then 0 else UInt16.ofNat left

/-- `piv_state_t`. -/
structure PivState where
  version : UInt8:=0
  mgmtAlg : UInt8:=0
  mgmtIsDefault : UInt8:=0
  mgmtKey : ByteArr 32:=zeros 32
  guid : ByteArr 16:=zeros 16
  cccId : ByteArr 14:=zeros 14
  keyFlags : ByteArr 4:=zeros 4
  deriving DecidableEq

/-- `piv_backend_t`, over its own state. -/
structure Backend (β : Type) where
  keyPresent : UInt8→Handler PowerLost β Bool
  keySign : UInt8→ByteArr 32→Handler PowerLost β (Option (ByteArr 64))
  keyGenerate : UInt8→Handler PowerLost β (Option (ByteArr 65))
  keyPubkey : UInt8→Handler PowerLost β (Option (ByteArr 65))
  keyEcdh : ByteArr 65→Handler PowerLost β (Option (ByteArr 32))
  pinVerify : Bytes→Handler PowerLost β Bool
  pinRetries : β→UInt8
  pinBlocked : β→Bool
  mgmtEncrypt : ByteArr 16→Handler PowerLost β (Option (ByteArr 16))
  mgmtSetKey : UInt8→Bytes→Handler PowerLost β Bool
  stateLoad : Handler PowerLost β (Option PivState)
  objectLoad : ℕ→Handler PowerLost β (Option Bytes)
  objectStore : ℕ→Bytes→Handler PowerLost β Bool
  rng : Handler PowerLost β (Option (ByteArr 16))

/-- What a command answers. -/
structure Reply where
  data : Bytes:=[]
  sw : UInt16
  deriving DecidableEq

/-- `g_chain`: no chain is open while it is empty. -/
structure Chain where
  ins : UInt8:=0
  p1 : UInt8:=0
  p2 : UInt8:=0
  data : Bytes:=[]
  deriving DecidableEq

/-- The statics of the applet. -/
structure Session where
  pinVerified : Bool:=false
  mgmtAuthenticated : Bool:=false
  witnessValid : Bool:=false
  witness : ByteArr 16:=zeros 16
  chain : Chain:={}
  /-- What is left of a response. -/
  resp : Bytes:=[]
  deriving DecidableEq

/-- The applet and its backend, and the size of the response buffer of the running command. -/
structure Ctx (β : Type) where
  app : Session:={}
  be : β
  respMax : ℕ:=2048

abbrev PivM (β : Type):=Handler PowerLost (Ctx β)

def readTag : Bytes→Option (ℕ × Bytes)
  | []=>none
  | first::rest=>
    if first &&& 0x1F=0x1F then
      match rest with
      | []=>none
      | second::rest=>some (first.toNat*256+second.toNat,rest)
    else some (first.toNat,rest)

def readLen : Bytes→Option (ℕ × Bytes)
  | []=>none
  | first::rest=>
    if first < 0x80 then some (first.toNat,rest)
    else
      let nbytes:=(first &&& 0x7F).toNat
      if nbytes=0 ∨ 3 < nbytes ∨ rest.length < nbytes then none
      else some ((rest.take nbytes).foldl (fun len b=>len*256+b.toNat) 0,rest.drop nbytes)

def tlvScan : ℕ→Bytes → ℕ→Option Bytes
  | fuel+1, buf, tag=>
    match readTag buf with
    | none=>none
    | some (t,rest)=>
      match readLen rest with
      | none=>none
      | some (len,rest)=>
        if rest.length < len then none
        else if t=tag then some (rest.take len)
        else tlvScan fuel (rest.drop len) tag
  | 0, _, _=>none

def tlvFind (buf : Bytes) (tag : ℕ) : Option Bytes:=tlvScan buf.length buf tag

def tlvWriteTag (tag : ℕ) : Bytes:=
  if tag ≤ 0xFF then [UInt8.ofNat tag] else [UInt8.ofNat (tag/256),UInt8.ofNat tag]

def tlvWriteLen (len : ℕ) : Bytes:=
  if len < 0x80 then [UInt8.ofNat len]
  else if len ≤ 0xFF then [0x81,UInt8.ofNat len]
  else [0x82,UInt8.ofNat (len/256),UInt8.ofNat len]

/-- An item behind what a buffer of `cap` bytes holds, if there is room for it. -/
def tlvWrite (cap : ℕ) (buf : Bytes) (tag : ℕ) (value : Bytes) : Option Bytes:=
  let out:=buf++tlvWriteTag tag++tlvWriteLen value.length++value
  if cap < out.length then none else some out

def derInteger (bs : Bytes) : Bytes:=
  let digits:=(bs.take 31).dropWhile (· = 0)++bs.drop 31
  let content:=if digits.headD 0 &&& 0x80≠0 then 0x00::digits else digits
  [0x02,UInt8.ofNat content.length]++content

def derEncodeEcdsaSig (rs : ByteArr 64) : Bytes:=
  let body:=derInteger (rs.toList.take 32)++derInteger (rs.toList.drop 32)
  [0x30,UInt8.ofNat body.length]++body

def objCert9A : ℕ:=0x5FC105
def objCert9C : ℕ:=0x5FC10A
def objCert9D : ℕ:=0x5FC10B
def objCert9E : ℕ:=0x5FC101
def objChuid : ℕ:=0x5FC102
def objCcc : ℕ:=0x5FC107
def objDiscovery : ℕ:=0x7E

def pivAidFull : Bytes:=[0xA0,0x00,0x00,0x03,0x08,0x00,0x00,0x10,0x00,0x01,0x00]

def nistRid : Bytes:=[0xA0,0x00,0x00,0x03,0x08]

def certObjectToKeyRef (obj : ℕ) : UInt8:=
  if obj=objCert9A then key9A
  else if obj=objCert9C then key9C
  else if obj=objCert9D then key9D
  else if obj=objCert9E then key9E
  else 0

def tlvWrites (cap : ℕ) (items : List (ℕ × Bytes)) : Option Bytes:=
  items.foldlM (fun buf item=>tlvWrite cap buf item.1 item.2) []

/-- `CDC Badge PIV` -/
def appLabel : Bytes:=[0x43,0x44,0x43,0x20,0x42,0x61,0x64,0x67,0x65,0x20,0x50,0x49,0x56]

def buildSize : ℕ:=2600
def respBufferSize : ℕ:=2600
def chainBufferSize : ℕ:=2600
def bodySize : ℕ:=2200

def buildApt : Option Bytes:=do
  let alloc ← tlvWrites 16 [(tagAid,nistRid)]
  let inner ← tlvWrites 64 [(tagAid,pivAidFull),(tagAllocAuth,alloc),(tagAppLabel,appLabel),
    (tagAlgId,[0x80,0x01,algEccP256,0x06,0x01,0x00])]
  tlvWrites buildSize [(tagApt,inner)]

def fascn : Bytes:=
  [0xD4,0xE7,0x39,0xDA,0x73,0x9C,0xED,0x39,0xCE,0x73,0x9D,0x83,0x68,0x58,0x21,0x08,0x42,0x10,
    0x84,0x21,0xC8,0x42,0x10,0xC3,0xEB]

/-- `20351231` -/
def expiry : Bytes:=[0x32,0x30,0x33,0x35,0x31,0x32,0x33,0x31]

def buildChuid (guid : ByteArr 16) : Option Bytes:=
  tlvWrites bodySize [(0x30,fascn),(0x34,guid.toList),(0x35,expiry),(0x3E,[]),(0xFE,[])]

def buildCcc (cardId : ByteArr 14) : Option Bytes:=
  tlvWrites bodySize [(0xF0,[0xA0,0x00,0x00,0x01,0x16,0xFF,0x21]++cardId.toList),(0xF1,[0x21]),
    (0xF2,[0x21]),(0xF3,[]),(0xF4,[0x00]),(0xF5,[0x10]),(0xF6,[]),(0xF7,[]),(0xFA,[]),(0xFB,[]),
    (0xFC,[]),(0xFD,[]),(0xFE,[])]

def buildDiscovery : Option Bytes:=do
  let inner ← tlvWrites 32 [(tagAid,pivAidFull),(0x5F2F,[0x40,0x00])]
  tlvWrites buildSize [(tagDiscovery,inner)]

section Commands

variable {β : Type} (b : Backend β)

def appGets {α : Type} (f : Session → α) : PivM β α:=gets fun s=>f s.app

def updateApp (f : Session → Session) : PivM β Unit:=modify fun s=>{s with app:=f s.app}

def call {α : Type} (m : Handler PowerLost β α) : PivM β α:=zoom Ctx.be (fun be s=>{s with be}) m

def answerSw (sw : UInt16) : PivM β Reply:=pure {sw}

/-- `emit`: the head that the window takes, and the rest for `GET RESPONSE`. -/
def emit (payload : Bytes) (le : ℕ) : PivM β Reply:=do
  let respMax ← gets Ctx.respMax
  let window:=min (if le=0 then 256 else le) (respMax-2)
  if payload.length ≤ window then pure {data:=payload,sw:=swOk}
  else
    let rest:=(payload.drop window).take respBufferSize
    updateApp fun a=>{a with resp:=rest}
    pure {data:=payload.take window,sw:=swMoreData rest.length}

def emitBuilt (built : Option Bytes) (le : ℕ) (failed : UInt16) : PivM β Reply:=
  match built with
  | some payload=>emit payload le
  | none=>answerSw failed

def cmdGetResponse (a : Scard.Apdu) : PivM β Reply:=do
  let resp ← appGets (·.resp)
  let respMax ← gets Ctx.respMax
  if a.p1≠0x00 ∨ a.p2≠0x00 then answerSw swIncorrectP1P2
  else if resp=[] then answerSw swSecurityStatus
  else
    let want:=min (min (if a.le=0 then 256 else a.le) resp.length) (respMax-2)
    updateApp fun s=>{s with resp:=resp.drop want}
    pure { data:=resp.take want
           sw:=if resp.length-want=0 then swOk else swMoreData (resp.length-want) }

/-- A command with all its blocks put together. -/
structure Cmd where
  ins : UInt8
  p1 : UInt8
  p2 : UInt8
  data : Bytes
  le : ℕ

def cmdSelect (le : ℕ) : PivM β Reply:=do
  updateApp fun a=>{a with pinVerified:=false,mgmtAuthenticated:=false,witnessValid:=false}
  emitBuilt buildApt le swDataInvalid

def objectTag (data : Bytes) : Option ℕ:=
  match tlvFind data tagTagList with
  | none=>none
  | some tag=>
    if tag=[] ∨ 3 < tag.length then none else some (tag.foldl (fun obj byte=>obj*256+byte.toNat) 0)

def cmdGetData (c : Cmd) : PivM β Reply:=
  match objectTag c.data with
  | none=>answerSw swDataInvalid
  | some obj=>
    if obj=objDiscovery then emitBuilt buildDiscovery c.le swFileNotFound
    else do
      match ← call b.stateLoad with
      | none=>answerSw swFileNotFound
      | some st=>
        let body ← (if obj=objChuid then pure (buildChuid st.guid)
          else if obj=objCcc then pure (buildCcc st.cccId)
          else if certObjectToKeyRef obj≠0 then call (b.objectLoad obj)
          else pure none)
        match body with
        | none=>answerSw swFileNotFound
        | some body=>
          if body=[] then answerSw swFileNotFound
          else emitBuilt (tlvWrites buildSize [(tagDataObject,body)]) c.le swFileNotFound

/-- `63Cx` or, at zero, blocked. -/
def pinStatus : PivM β Reply:=do
  if ← gets fun s=>b.pinBlocked s.be then answerSw swAuthBlocked
  else answerSw (swPinRetries (← gets fun s=>b.pinRetries s.be))

def pinDigits (data : Bytes) : Bytes:=data.takeWhile (· ≠ 0xFF)

def isDigit (byte : UInt8) : Bool:=0x30 ≤ byte && byte ≤ 0x39

def cmdVerify (c : Cmd) : PivM β Reply:=do
  if c.p2≠keyPin then answerSw swRefNotFound
  else if c.p1=0xFF then
    updateApp fun a=>{a with pinVerified:=false}
    answerSw swOk
  else if c.data.length=0 then
    if ← appGets (·.pinVerified) then answerSw swOk else pinStatus b
  else if c.data.length≠8 then answerSw swDataInvalid
  else if ← gets fun s=>b.pinBlocked s.be then answerSw swAuthBlocked
  else if !(pinDigits c.data).all isDigit then answerSw swDataInvalid
  else if (pinDigits c.data).length=0 then answerSw swDataInvalid
  else if ← call (b.pinVerify (pinDigits c.data)) then
    updateApp fun a=>{a with pinVerified:=true}
    answerSw swOk
  else pinStatus b

def dynAuth (innerCap cap tag : ℕ) (value : Bytes) : Option Bytes:=do
  let tmpl ← tlvWrites innerCap [(tag,value)]
  tlvWrites cap [(tagDynAuth,tmpl)]

def answerBuilt (built : Option Bytes) (failed : UInt16) : PivM β Reply:=
  match built with
  | some payload=>pure {data:=payload,sw:=swOk}
  | none=>answerSw failed

def drawWitness : PivM β Reply:=do
  match ← call b.rng with
  | none=>answerSw swSecurityStatus
  | some witness=>
    updateApp fun a=>{a with witness}
    match ← call (b.mgmtEncrypt witness) with
    | none=>answerSw swSecurityStatus
    | some enc=>
      updateApp fun a=>{a with witnessValid:=true}
      answerBuilt (dynAuth 32 256 tagWitness enc.toList) swSecurityStatus

def answerWitness (witness challenge : Bytes) : PivM β Reply:=do
  if !(← appGets fun a=>a.witnessValid && a.witness.toList=witness) then
    updateApp fun a=>{a with witnessValid:=false}
    answerSw swSecurityStatus
  else
    match ← call (b.mgmtEncrypt (fit 16 challenge)) with
    | none=>answerSw swSecurityStatus
    | some enc=>
      updateApp fun a=>{a with mgmtAuthenticated:=true,witnessValid:=false}
      answerBuilt (dynAuth 32 256 tagResponse enc.toList) swSecurityStatus

def mgmtAuth (inner : Bytes) : PivM β Reply:=
  match tlvFind inner tagWitness, tlvFind inner tagChallenge with
  | some witness, none=>if witness=[] then drawWitness b else answerSw swDataInvalid
  | some witness, some challenge=>
    if witness.length=16 ∧ challenge.length=16 then answerWitness b witness challenge
    else answerSw swDataInvalid
  | none, _=>answerSw swDataInvalid

def pinGateForSign (a : Session) (keyRef : UInt8) : Bool:=
  if keyRef=key9E then true
  else if keyRef=key9A ∨ keyRef=key9C ∨ keyRef=key9D then a.pinVerified
  else false

def normalDigest (challenge : Bytes) : ByteArr 32:=
  if 32 ≤ challenge.length then fit 32 challenge
  else fit 32 (List.replicate (32-challenge.length) 0++challenge)

def agreeKey (point : Bytes) (le : ℕ) : PivM β Reply:=do
  if !(← appGets (·.pinVerified)) then answerSw swSecurityStatus
  else if point.length≠65 ∨ point.headD 0≠0x04 then answerSw swDataInvalid
  else
    match ← call (b.keyEcdh (fit 65 point)) with
    | none=>answerSw swSecurityStatus
    | some shared=>emitBuilt (dynAuth 40 buildSize tagResponse shared.toList) le swSecurityStatus

def signChallenge (keyRef : UInt8) (challenge : Bytes) (le : ℕ) : PivM β Reply:=do
  if !(← appGets fun a=>pinGateForSign a keyRef) then answerSw swSecurityStatus
  else if !(← call (b.keyPresent keyRef)) then answerSw swRefNotFound
  else
    match ← call (b.keySign keyRef (normalDigest challenge)) with
    | none=>answerSw swSecurityStatus
    | some rs=>
      -- 9C wants a VERIFY before every signature.
      when (keyRef=key9C) (updateApp fun a=>{a with pinVerified:=false})
      emitBuilt (dynAuth 96 buildSize tagResponse (derEncodeEcdsaSig rs)) le swSecurityStatus

def cmdGeneralAuth (c : Cmd) : PivM β Reply:=
  match tlvFind c.data tagDynAuth with
  | none=>answerSw swDataInvalid
  | some inner=>
    if c.p2=key9B then mgmtAuth b inner
    else if c.p1≠algEccP256 then answerSw swDataInvalid
    else
      match (if c.p2=key9D then tlvFind inner tagExp else none) with
      | some point=>agreeKey b point c.le
      | none=>
        match tlvFind inner tagChallenge with
        | none=>answerSw swDataInvalid
        | some challenge=>if challenge=[] then answerSw swDataInvalid else signChallenge b c.p2 challenge c.le

def isKeyRef (keyRef : UInt8) : Bool:=keyRef=key9A || keyRef=key9C || keyRef=key9D || keyRef=key9E

def pubkeyTemplate (cap : ℕ) (pub : ByteArr 65) : Option Bytes:=do
  let inner ← tlvWrites 80 [(tagPubkeyPoint,pub.toList)]
  tlvWrites cap [(tagPubkey,inner)]

def generateAlg (data : Bytes) : Option Bytes:=do
  tlvFind (← tlvFind data tagAlgId) 0x80

def cmdGenerate (c : Cmd) : PivM β Reply:=do
  if !(← appGets (·.mgmtAuthenticated)) then answerSw swSecurityStatus
  else if !isKeyRef c.p2 then answerSw swRefNotFound
  else if generateAlg c.data≠some [algEccP256] then answerSw swDataInvalid
  else
    match ← call (b.keyGenerate c.p2) with
    | none=>answerSw swSecurityStatus
    | some pub=>emitBuilt (pubkeyTemplate buildSize pub) c.le swSecurityStatus

def cmdPutData (c : Cmd) : PivM β Reply:=do
  if !(← appGets (·.mgmtAuthenticated)) then answerSw swSecurityStatus
  else
    match objectTag c.data, tlvFind c.data tagDataObject with
    | some obj, some body=>
      if certObjectToKeyRef obj≠0 then
        if ← call (b.objectStore obj body) then answerSw swOk else answerSw swSecurityStatus
      -- These two are the card's own.
      else if obj=objChuid ∨ obj=objCcc then answerSw swOk
      else answerSw swDataInvalid
    | _, _=>answerSw swDataInvalid

def cmdGetMetadata (c : Cmd) : PivM β Reply:=do
  match ← call b.stateLoad with
  | none=>answerSw swFileNotFound
  | some st=>
    if c.p2=key9B then
      emit ((tlvWrites buildSize [(0x01,[st.mgmtAlg]),(0x05,[st.mgmtIsDefault])]).getD []) c.le
    else if isKeyRef c.p2 then
      if !(← call (b.keyPresent c.p2)) then answerSw swRefNotFound
      else
        let pub ← call (b.keyPubkey c.p2)
        let items:=match pub with
          | some pub=>[(0x04,(tlvWrites 80 [(tagPubkeyPoint,pub.toList)]).getD [])]
          | none=>[]
        emit ((tlvWrites buildSize
          ([(0x01,[algEccP256]),(0x02,[0x01,0x01]),(0x03,[0x01])]++items)).getD []) c.le
    else answerSw swRefNotFound

def cmdSetMgmtKey (c : Cmd) : PivM β Reply:=do
  if !(← appGets (·.mgmtAuthenticated)) then answerSw swSecurityStatus
  else
    match c.data with
    | alg::keyRef::len::key=>
      if keyRef≠key9B then answerSw swDataInvalid
      else if key.length < len.toNat then answerSw swDataInvalid
      else if alg≠algAes128 ∧ alg≠algAes192 ∧ alg≠algAes256 then answerSw swDataInvalid
      else if ← call (b.mgmtSetKey alg (key.take len.toNat)) then answerSw swOk
      else answerSw swSecurityStatus
    | _=>answerSw swDataInvalid

def dispatch (c : Cmd) : PivM β Reply:=
  if c.ins=insSelect then cmdSelect c.le
  else if c.ins=insGetData then cmdGetData b c
  else if c.ins=insVerify then cmdVerify b c
  else if c.ins=insGeneralAuth then cmdGeneralAuth b c
  else if c.ins=insGenerateKeypair then cmdGenerate b c
  else if c.ins=insPutData then cmdPutData b c
  else if c.ins=insGetMetadata then cmdGetMetadata b c
  else if c.ins=insSetMgmtKey then cmdSetMgmtKey b c
  -- The PIN is the badge's, and changed only there.
  else if c.ins=insChangeReference then answerSw swSecurityStatus
  else answerSw swInsNotSupported

def Chain.extend (chain : Chain) (a : Scard.Apdu) : Except UInt16 Chain:=
  if a.ins≠chain.ins ∨ a.p1≠chain.p1 ∨ a.p2≠chain.p2 then .error swDataInvalid
  else if chainBufferSize < chain.data.length+a.data.length then .error swWrongLength
  else .ok {chain with data:=chain.data++a.data}

def Chain.complete (chain : Chain) (a : Scard.Apdu) : Except UInt16 Cmd:=
  if chain.data=[] then .ok {ins:=a.ins,p1:=a.p1,p2:=a.p2,data:=a.data,le:=a.le}
  else (chain.extend a).map fun c=>{ins:=a.ins,p1:=a.p1,p2:=a.p2,data:=c.data,le:=a.le}

def Chain.opened (chain : Chain) (a : Scard.Apdu) : Chain:=
  if chain.data=[] then {ins:=a.ins,p1:=a.p1,p2:=a.p2} else chain

def resetChain : PivM β Unit:=updateApp fun a=>{a with chain:={}}

def isGetResponse (a : Scard.Apdu) : Bool:=a.ins=insGetResponse && a.cla &&& 0xEF=0x00

def isChained (a : Scard.Apdu) : Bool:=a.cla &&& 0x10≠0

def processParsed (a : Scard.Apdu) : PivM β Reply:=do
  if isGetResponse a then cmdGetResponse a
  else
    let chain ← appGets (·.chain)
    if isChained a then
      match (chain.opened a).extend a with
      | .ok chain=>
        updateApp fun s=>{s with chain}
        answerSw swOk
      | .error sw=>
        resetChain
        answerSw sw
    else
      match chain.complete a with
      | .ok c=>
        let reply ← dispatch b c
        resetChain
        pure reply
      | .error sw=>
        resetChain
        answerSw sw

def processApdu (raw : Bytes) : PivM β Reply:=do
  if (← gets Ctx.respMax) < 2 then answerSw swInsNotSupported
  else
    match Scard.apduParse raw with
    | none=>answerSw swWrongLength
    | some a=>processParsed b a

def deselect : PivM β Unit:=modify fun s=>{s with app:={}}

end Commands

end CdcBadge.Piv
