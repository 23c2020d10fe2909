import CdcBadge.PinOperations
import CdcBadge.PivApplet

/-!
# The PIV backend

Three keys in slots of the chip and one in R-Memory, the record with the management key, and
the sweep of the slot range at power-on.
-/

namespace CdcBadge.Piv

open Handler
open Pin (Badge PowerLost LoadOutcome SaveOutcome)

def rmemHeaderMagic : UInt8:=0xCD
def rmemHeaderSize : ℕ:=22
def rmemNameLen : ℕ:=16
def rmemSlotSize : ℕ:=444

def headerFields (moduleId flags : UInt8) (name : Bytes) (payloadLen : ℕ) : Bytes:=
  [moduleId,flags]++(fit rmemNameLen (name.take (rmemNameLen-1))).toList ++
    [UInt8.ofNat payloadLen,UInt8.ofNat (payloadLen/256)]

def computeHeaderChecksum (fields : Bytes) : UInt8:=fields.foldl (· + ·) 0

def headered (moduleId flags : UInt8) (name payload : Bytes) : Bytes:=
  let fields:=headerFields moduleId flags name payload.length
  [rmemHeaderMagic,computeHeaderChecksum fields]++fields++payload

/-- The module id and the payload of what a slot holds, for a buffer of `payloadMax` bytes. -/
def readHeadered (payloadMax : ℕ) (data : Bytes) : SeReply (UInt8 × Bytes):=
  let payloadLen:=(data.getD 20 0).toNat+(data.getD 21 0).toNat*256
  if data.length < rmemHeaderSize then .error .error
  else if data.getD 0 0≠rmemHeaderMagic ∨ data.getD 1 0≠computeHeaderChecksum ((data.drop 2).take 20) then
    .error .error
  else if rmemSlotSize-rmemHeaderSize < payloadLen then .error .error
  else if data.length < rmemHeaderSize+payloadLen then .error .error
  else if 0 < payloadLen ∧ payloadMax < payloadLen then .error .invalidParam
  else .ok (data.getD 2 0,(data.drop rmemHeaderSize).take payloadLen)

/-- What comes with a command: what becomes of its calls, and what it draws. -/
structure Env where
  loads : List LoadOutcome:=[]
  saves : List SaveOutcome:=[]
  salts : List (ByteArr 8):=[]
  /-- The chip calls other than those of the PIN manager. -/
  calls : List SeOutcome:=[]
  /-- The accesses to NVS. -/
  nvs : List SeOutcome:=[]
  /-- Random bytes of the chip alone, missing where it gives none. -/
  strict : List (Option Bytes):=[]
  random : List Bytes:=[]
  secrets : List ℕ:=[]
  nonces : List ℕ:=[]

/-- `g_be`, what it rests on, and the certificates in NVS by the key they belong to. -/
structure Keys where
  badge : Badge
  state : PivState:={}
  stateLoaded : Bool:=false
  objects : UInt8→Option Bytes:=fun _=>none
  env : Env:={}

abbrev KeysM:=Handler PowerLost Keys

/-- The primitives that mbedtls adds: a scalar, its public point where it has one, and what is made with it. -/
structure PivCrypto extends Crypto where
  scalarPublic : ByteArr 32→Option (ByteArr 64)
  scalarSign : ByteArr 32 → ℕ→ByteArr 32→Option (ByteArr 64)
  scalarEcdh : ByteArr 32→ByteArr 65→Option (ByteArr 32)
  aesEncrypt : ByteArr 32→ByteArr 16→ByteArr 16
  ecdsaVerify_scalarSign : ∀ scalar publicKey nonce digest sig, scalarPublic scalar=some publicKey →
    scalarSign scalar nonce digest=some sig→ecdsaVerify publicKey digest sig=true

def PivCrypto.plain : PivCrypto where
  toCrypto:=Crypto.plain
  scalarPublic scalar:=some (fit 64 scalar.toList)
  scalarSign scalar _ digest:=some (fit 64 (digest.toList++(fit 64 scalar.toList).toList))
  scalarEcdh _ point:=some (fit 32 point.toList)
  aesEncrypt key block:=fit 16 (key.toList.take 8++block.toList)
  ecdsaVerify_scalarSign scalar publicKey nonce digest sig hpub hsig:=by
    cases hpub
    cases hsig
    exact beq_self_eq_true _

def onPins {α : Type} (m : Pin.PinM α) : KeysM α:=zoom Keys.badge (fun badge k=>{k with badge}) m

def nextCall : KeysM SeOutcome:=
  fun k=>(.ok (k.env.calls.headD .done),{k with env:={k.env with calls:=k.env.calls.tail}})

def nextNvs : KeysM SeOutcome:=
  fun k=>(.ok (k.env.nvs.headD .done),{k with env:={k.env with nvs:=k.env.nvs.tail}})

/-- `getRandomStrict`. -/
def nextStrict (n : ℕ) : KeysM (Option (ByteArr n)):=
  fun k=>(.ok ((k.env.strict.headD (some [])).map (fit n)),{k with env:={k.env with strict:=k.env.strict.tail}})

theorem bind_nextStrict {α : Type} {n : ℕ} (f : Option (ByteArr n)→KeysM α) (k : Keys) :
    (nextStrict n >>= f) k=f ((k.env.strict.headD (some [])).map (fit n))
      {k with env:={k.env with strict:=k.env.strict.tail}}:=rfl

/-- `getRandom`: the ESP's own generator stands in where the chip gives nothing. -/
def nextRandom (n : ℕ) : KeysM (ByteArr n):=
  fun k=>(.ok (fit n (k.env.random.headD [])),{k with env:={k.env with random:=k.env.random.tail}})

def nextSecret : KeysM ℕ:=
  fun k=>(.ok (k.env.secrets.headD 0),{k with env:={k.env with secrets:=k.env.secrets.tail}})

def nextNonce : KeysM ℕ:=
  fun k=>(.ok (k.env.nonces.headD 0),{k with env:={k.env with nonces:=k.env.nonces.tail}})

def seCall {α : Type} (call : Chip Bytes → SeReply α × Chip Bytes) : KeysM (SeReply α):=do
  onPins (Pin.seCall (← nextCall) call)

def rmemReadWithHeader (slot payloadMax : ℕ) : KeysM (SeReply (UInt8 × Bytes)):=do
  match ← seCall (Chip.rmemRead slot) with
  | .error e=>pure (.error e)
  | .ok data=>pure (readHeadered payloadMax data)

def rmemWriteWithHeader (slot : ℕ) (moduleId : UInt8) (name payload : Bytes) : KeysM (SeReply Unit):=do
  match ← seCall (Chip.rmemErase slot) with
  | .error e=>
    if e≠.slotEmpty then pure (.error e) else seCall (Chip.rmemWrite slot (headered moduleId 0 name payload))
  | .ok _=>seCall (Chip.rmemWrite slot (headered moduleId 0 name payload))

/-- A read into four bytes. A chip without short reads refuses it where the slot holds more. -/
def rmemSlotUsed (shortReads : Bool) (slot : ℕ) : KeysM Bool:=do
  match ← seCall (Chip.rmemRead slot) with
  | .error _=>pure false
  | .ok data=>pure ((shortReads || data.length ≤ 4) && 0 < data.length)

def eccSlotUsed (slot : ℕ) : KeysM Bool:=do
  match ← seCall (Chip.eccGetPublicKey slot) with
  | .error _=>pure false
  | .ok _=>pure true

def moduleIdPiv : UInt8:=9
def moduleIdFido2 : UInt8:=4

def eccStart : ℕ:=5
def rmemStart : ℕ:=5
def slotCount : ℕ:=4

def stateSlot : ℕ:=rmemStart
def slot9D : ℕ:=rmemStart+2

def eccSlotFor (keyRef : UInt8) : Option ℕ:=
  if keyRef=key9A then some eccStart
  else if keyRef=key9C then some (eccStart+1)
  else if keyRef=key9E then some (eccStart+3)
  else none

/-- `piv_state` -/
def stateName : Bytes:=[0x70,0x69,0x76,0x5F,0x73,0x74,0x61,0x74,0x65]

/-- `piv_9d` -/
def name9D : Bytes:=[0x70,0x69,0x76,0x5F,0x39,0x64]

def stateSize : ℕ:=69

def PivState.bytes (st : PivState) : Bytes:=
  [st.version,st.mgmtAlg,st.mgmtIsDefault]++st.mgmtKey.toList++st.guid.toList++st.cccId.toList ++
    st.keyFlags.toList

def PivState.ofBytes (data : Bytes) : PivState where
  version:=data.getD 0 0
  mgmtAlg:=data.getD 1 0
  mgmtIsDefault:=data.getD 2 0
  mgmtKey:=fit 32 (data.drop 3)
  guid:=fit 16 (data.drop 35)
  cccId:=fit 14 (data.drop 51)
  keyFlags:=fit 4 (data.drop 65)

/-- `0102030405060708`, four times. -/
def defaultMgmtKey : ByteArr 32:=fit 32 ((List.range 32).map fun i=>UInt8.ofNat (i % 8+1))

def stateSave : KeysM Bool:=do
  let st ← gets Keys.state
  match ← rmemWriteWithHeader stateSlot moduleIdPiv stateName st.bytes with
  | .ok _=>pure true
  | .error _=>pure false

def stateFirstSave : KeysM Bool:=do
  if !(← stateSave) then pure false
  else
    modify fun k=>{k with stateLoaded:=true}
    pure true

def stateInit : KeysM Bool:=do
  modify fun k=>{ k with state:=
    {version:=1,mgmtAlg:=algAes256,mgmtIsDefault:=1,mgmtKey:=defaultMgmtKey} }
  match ← nextStrict 16 with
  | none=>pure false
  | some guid=>
    match ← nextStrict 14 with
    | none=>pure false
    | some cccId=>
      -- The GUID is not to be zero.
      modify fun k=>{ k with state:={ k.state with
        guid:=fit 16 ((guid.toList.headD 0 ||| 0x01)::guid.toList.tail),cccId } }
      stateFirstSave

def validState (record : UInt8 × Bytes) : Bool:=
  record.2.length=stateSize && record.1=moduleIdPiv && (PivState.ofBytes record.2).version=1

def stateEnsure : KeysM Bool:=do
  if ← gets Keys.stateLoaded then pure true
  else
    match ← rmemReadWithHeader stateSlot stateSize with
    | .error _=>stateInit
    | .ok record=>
      if validState record then
        modify fun k=>{k with state:=PivState.ofBytes record.2,stateLoaded:=true}
        pure true
      else stateInit

section Callbacks

variable (cr : PivCrypto)

def load9dScalar : KeysM (Option (ByteArr 32)):=do
  match ← rmemReadWithHeader slot9D 97 with
  | .error _=>pure none
  | .ok (moduleId,blob)=>if blob.length < 32 ∨ moduleId≠moduleIdPiv then pure none else pure (some (fit 32 blob))

/-- `04`, X and Y. -/
def uncompressed (publicKey : ByteArr 64) : ByteArr 65:=fit 65 (0x04::publicKey.toList)

def cbKeyPresent (keyRef : UInt8) : KeysM Bool:=
  match eccSlotFor keyRef with
  | some slot=>eccSlotUsed slot
  | none=>if keyRef=key9D then do pure (← load9dScalar).isSome else pure false

/-- `ecdsaSignDigest`. -/
def ecdsaSignDigest (slot nonce : ℕ) (digest : ByteArr 32) (c : Chip Bytes) : SeReply (ByteArr 64) × Chip Bytes:=
  match Chip.eccSigningKey slot c with
  | (.error e,c)=>(.error e,c)
  | (.ok key,c)=>if key.curve=.p256 then (.ok (cr.ecdsaSign key nonce digest),c) else (.error .error,c)

def sign9d (digest : ByteArr 32) : KeysM (Option (ByteArr 64)):=do
  match ← load9dScalar with
  | none=>pure none
  | some scalar=>pure (cr.scalarSign scalar (← nextNonce) digest)

def cbKeySign (keyRef : UInt8) (digest : ByteArr 32) : KeysM (Option (ByteArr 64)):=
  match eccSlotFor keyRef with
  | some slot=>do
    match ← seCall (ecdsaSignDigest cr slot (← nextNonce) digest) with
    | .error _=>pure none
    | .ok sig=>pure (some sig)
  | none=>if keyRef=key9D then sign9d cr digest else pure none

def eccPubkey (slot : ℕ) : KeysM (Option (ByteArr 65)):=do
  match ← seCall (Chip.eccGetPublicKey slot) with
  | .error _=>pure none
  | .ok key=>pure (some (uncompressed (cr.publicKey key)))

def generateEcc (slot : ℕ) : KeysM (Option (ByteArr 65)):=do
  let _ ← seCall (Chip.eccDelete slot)
  match ← seCall (Chip.eccGenerate slot ⟨.p256,← nextSecret⟩) with
  | .error _=>pure none
  | .ok _=>eccPubkey cr slot

def generate9d : KeysM (Option (ByteArr 65)):=do
  match ← nextStrict 32 with
  | none=>pure none
  | some scalar=>
    match cr.scalarPublic scalar with
    | none=>pure none
    | some publicKey=>
      let pub:=uncompressed publicKey
      match ← rmemWriteWithHeader slot9D moduleIdPiv name9D (scalar.toList++pub.toList) with
      | .error _=>pure none
      | .ok _=>pure (some pub)

def cbKeyGenerate (keyRef : UInt8) : KeysM (Option (ByteArr 65)):=
  match eccSlotFor keyRef with
  | some slot=>generateEcc cr slot
  | none=>if keyRef=key9D then generate9d cr else pure none

def cbKeyPubkey (keyRef : UInt8) : KeysM (Option (ByteArr 65)):=
  match eccSlotFor keyRef with
  | some slot=>eccPubkey cr slot
  | none=>
    if keyRef=key9D then do
      match ← load9dScalar with
      | none=>pure none
      | some scalar=>pure ((cr.scalarPublic scalar).map uncompressed)
    else pure none

def cbKeyEcdh (peer : ByteArr 65) : KeysM (Option (ByteArr 32)):=do
  match ← load9dScalar with
  | none=>pure none
  | some scalar=>pure (if peer.toList.headD 0=0x04 then cr.scalarEcdh scalar peer else none)

def cbMgmtEncrypt (block : ByteArr 16) : KeysM (Option (ByteArr 16)):=do
  if !(← stateEnsure) then pure none
  else
    let st ← gets Keys.state
    pure (some (cr.aesEncrypt st.mgmtKey block))

def cbMgmtSetKey (alg : UInt8) (key : Bytes) : KeysM Bool:=do
  if !(← stateEnsure) then pure false
  else if alg≠algAes256 ∨ key.length≠32 then pure false
  else
    modify fun k=>{k with state:={k.state with mgmtKey:=fit 32 key,mgmtAlg:=alg,mgmtIsDefault:=0}}
    stateSave

def cbStateLoad : KeysM (Option PivState):=do
  if !(← stateEnsure) then pure none
  else
    let st ← gets Keys.state
    pure (some st)

def cbObjectLoad (obj : ℕ) : KeysM (Option Bytes):=
  if certObjectToKeyRef obj=0 then pure none
  else do
    match ← nextNvs with
    | .done=>gets fun k=>(k.objects (certObjectToKeyRef obj)).filter fun data=>data.length ≤ bodySize
    | .failed _ _=>pure none
    | .powerLost _=>stop ⟨⟩

def cbObjectStore (obj : ℕ) (data : Bytes) : KeysM Bool:=
  let store : KeysM Unit:=
    modify fun k=>{k with objects:=Function.update k.objects (certObjectToKeyRef obj) (some data)}
  if certObjectToKeyRef obj=0 then pure false
  else do
    match ← nextNvs with
    | .done=>store; pure true
    | .failed _ applied=>when applied store; pure false
    | .powerLost applied=>do
      when applied store
      stop ⟨⟩

/-- `g_backend`. -/
def pivBackend : Backend Keys where
  keyPresent:=cbKeyPresent
  keySign:=cbKeySign cr
  keyGenerate:=cbKeyGenerate cr
  keyPubkey:=cbKeyPubkey cr
  keyEcdh:=cbKeyEcdh cr
  pinVerify pin:=onPins (Pin.verifyBadgePin cr.toCrypto pin)
  pinRetries k:=k.badge.pm.badgeRetries
  pinBlocked k:=Pin.isBadgeBlocked k.badge.pm
  mgmtEncrypt:=cbMgmtEncrypt cr
  mgmtSetKey:=cbMgmtSetKey
  stateLoad:=cbStateLoad
  objectLoad:=cbObjectLoad
  objectStore:=cbObjectStore
  rng:=do pure (some (← nextRandom 16))

end Callbacks

def sweepRmem (slot : ℕ) : KeysM Unit:=do
  match ← rmemReadWithHeader slot 64 with
  | .error _=>pure ()
  | .ok (moduleId,_)=>when (moduleId=moduleIdFido2) (seCall (Chip.rmemErase slot))

def sweepEcc (shortReads : Bool) (slot : ℕ) : KeysM Unit:=do
  if ← rmemSlotUsed shortReads slot then pure ()
  else when (← eccSlotUsed slot) (seCall (Chip.eccDelete slot))

def cleanupFido2Orphans (shortReads : Bool) : KeysM Unit:=do
  (List.range' rmemStart slotCount).forM sweepRmem
  (List.range' eccStart slotCount).forM (sweepEcc shortReads)

def pivInit (shortReads : Bool) : KeysM Bool:=do
  modify fun k=>{k with stateLoaded:=false}
  cleanupFido2Orphans shortReads
  stateEnsure

/-- The applet and its backend; the applet is there once the backend has started. -/
structure Device where
  ctx : Ctx Keys
  on : Bool:=false

inductive DeviceOp
  | apdu (raw : Bytes)
  | deselect
  | boot
  /-- What the other modules do with the PIN manager and the chip. -/
  | others (badge : Badge)

structure DeviceInput where
  op : DeviceOp
  env : Env:={}

def pivSlot (slot : ℕ) : Bool:=rmemStart ≤ slot && slot < rmemStart+slotCount

def Keys.shared (k : Keys) (badge : Badge) : Keys:=
  { k with badge:={ badge with chip:=
    { ecc:=fun slot=>if pivSlot slot then k.badge.chip.ecc slot else badge.chip.ecc slot
      rmem:=fun slot=>if pivSlot slot then k.badge.chip.rmem slot else badge.chip.rmem slot } } }

def Keys.given (k : Keys) (e : Env) : Keys:=
  {k with env:=e,badge:={k.badge with loads:=e.loads,saves:=e.saves,salts:=e.salts}}

def Keys.powerCut (k : Keys) : Keys:={badge:=k.badge.reboot,objects:=k.objects,env:=k.env}

def Device.powerCut (d : Device) : Device:=
  {ctx:={app:={},be:=d.ctx.be.powerCut,respMax:=d.ctx.respMax},on:=false}

def Device.respond (cr : PivCrypto) (shortReads : Bool) (d : Device) (i : DeviceInput) : Option Reply × Device:=
  match i.op with
  | .apdu raw=>
    if !d.on then (none,d)
    else
      match processApdu (pivBackend cr) raw {d.ctx with be:=d.ctx.be.given i.env} with
      | (.ok reply,ctx)=>(some reply,{ctx,on:=true})
      | (.error _,ctx)=>(none,({ctx,on:=true} : Device).powerCut)
  | .deselect=>(none,{d with ctx:={d.ctx with app:={}}})
  | .boot=>
    match pivInit shortReads (d.powerCut.ctx.be.given i.env) with
    | (.ok on,be)=>(none,{ctx:={d.powerCut.ctx with be},on})
    | (.error _,be)=>(none,({ctx:={d.powerCut.ctx with be}} : Device).powerCut)
  | .others badge=>(none,{d with ctx:={d.ctx with be:=d.ctx.be.shared badge}})

end CdcBadge.Piv
