import CdcBadge.AuthenticatorData

/-! # authenticatorLargeBlobs, authenticatorConfig and the commands without parameters -/

namespace CdcBadge.Fido2

open Handler Cbor

def kLargeBlobEmpty : Bytes:=
  [0x80,0x76,0xbe,0x8b,0x52,0x8d,0x00,0x75,0xf7,0xaa,0xe9,0x8d,0x6f,0xa5,0x7a,0x6d,0x3c]

def fido2StorageLargeblobGet : Ctap (Option Bytes):=do
  match ← nextNvs with
  | .done=>gets fun w=>some (w.nvs.largeblob.getD kLargeBlobEmpty)
  | .notOpened=>pure (some kLargeBlobEmpty)
  | .failed _=>pure none

def fido2StorageLargeblobSet (data : Bytes) : Ctap Bool:=
  if data.length=0 ∨ kLargeBlobMaxArray < data.length then pure false
  else nvsWrite fun nvs=>{nvs with largeblob:=some data}

namespace LargeBlob

def reset (b : LargeBlob) : LargeBlob:={b with expected:=0,received:=0,active:=false}

/-- Begin a write of `totalLength` bytes. -/
def begin (totalLength : ℕ) (b : LargeBlob) : Except Status LargeBlob:=
  if kLargeBlobMaxArray < totalLength then .error .largeBlobStorageFull
  else if totalLength < kLargeBlobEmpty.length then .error .invalidLength
  else .ok {b with expected:=totalLength,received:=0,active:=true}

def append (offset : ℕ) (data : Bytes) (b : LargeBlob) : Except Status LargeBlob:=
  if !b.active then .error .invalidSeq
  else if offset≠b.received then .error .invalidSeq
  else if b.expected < offset+data.length then .error .invalidLength
  else .ok { b with
    buf:=b.buf.take offset++overwrite data (b.buf.drop offset)
    received:=b.received+data.length }

def complete (b : LargeBlob) : Bool:=b.active && b.received == b.expected

end LargeBlob

structure LargeBlobsParams where
  hasGet : Bool:=false
  hasSet : Bool:=false
  hasOffset : Bool:=false
  hasLength : Bool:=false
  getLen : ℕ:=0
  totalLen : ℕ:=0
  offset : ℕ:=0
  /-- The fragment that was read last. -/
  set : Bytes:=[]
  pinProto : ℕ:=0
  pinAuth : Bytes:=[]
  deriving DecidableEq

def parseLargeBlobsPair (p : LargeBlobsParams) : Read LargeBlobsParams:=do
  match ← readUint with
  | 0x01=>pure {p with getLen:=(← attempt readUint).getD p.getLen,hasGet:=true}
  | 0x02=>pure {p with set:=(← attempt (readBytes kLargeBlobMaxArray)).getD [],hasSet:=true}
  | 0x03=>pure {p with offset:=(← attempt readUint).getD p.offset,hasOffset:=true}
  | 0x04=>pure {p with totalLen:=(← attempt readUint).getD p.totalLen,hasLength:=true}
  | 0x05=>pure {p with pinAuth:=(← attempt (readBytes 64)).getD []}
  | 0x06=>pure {p with pinProto:=(← attempt readUint).getD p.pinProto}
  | _=>ignore p

def readLargeBlobsParams : Read LargeBlobsParams:=do
  let count ← readMap
  if count < 0 then stop ()
  else iterate count.toNat parseLargeBlobsPair {}

def abandonWrite {α : Type} (s : Status) : Ctap α:=do
  updateLargeBlob LargeBlob.reset
  fail s

def sessionStep (step : LargeBlob → Except Status LargeBlob) : Ctap Unit:=do
  match step (← gets (·.largeBlob)) with
  | .ok b=>updateLargeBlob fun _=>b
  | .error s=>abandonWrite s

def le32 (n : ℕ) : Bytes:=
  [UInt8.ofNat n,UInt8.ofNat (n/2^8),UInt8.ofNat (n/2^16),UInt8.ofNat (n/2^24)]

section Command

variable (cr : FidoCrypto)

def largeBlobsGet (p : LargeBlobsParams) : Ctap Bytes:=do
  let stored ← orFail .other (← fido2StorageLargeblobGet)
  -- The array is read into the buffer that a write in progress gathers in.
  updateLargeBlob fun b=>{b with buf:=overwrite stored b.buf}
  require (p.offset ≤ stored.length) .invalidLength
  let chunk:=(stored.drop p.offset).take p.getLen
  let w : Writer:={size:=← env (·.responseSize)}
  orFail .other (w.map 1 |>.uint 0x01 |>.bytes chunk).output

/-- What the `pinUvAuthParam` is computed over. -/
def LargeBlobsParams.message (p : LargeBlobsParams) : Bytes:=
  List.replicate 32 0xff++[0x0c,0x00]++le32 p.offset++(cr.sha256 p.set).toList

/-- A fragment is authorised on its own where a PIN is set. A refusal drops the write in progress. -/
def authorizeFragment (p : LargeBlobsParams) : Ctap Unit:=do
  when (← env (·.fido2Available)) do
    recover (verifyTokenOverMessage cr (p.message cr) (UInt8.ofNat p.pinProto) p.pinAuth permLargeBlobWrite)
      fun
        | .status s=>abandonWrite s
        | e=>stop e
    noteAct permLargeBlobWrite []

def storeLargeBlob : Ctap Unit:=do
  let b ← gets (·.largeBlob)
  let blob:=b.buf.take b.expected
  let sum:=(cr.sha256 (blob.take (b.expected-16))).toList.take 16
  if sum≠blob.drop (b.expected-16) then abandonWrite .integrityFailure
  else
    let ok ← fido2StorageLargeblobSet blob
    updateLargeBlob LargeBlob.reset
    require ok .other

/-- The first fragment begins a write, and a later one goes on where the last one ended. -/
def startFragment (p : LargeBlobsParams) : Ctap Unit:=
  if p.offset=0 then do
    require p.hasLength .invalidParameter
    sessionStep (LargeBlob.begin (p.totalLen % 2^32))
  else do
    let b ← gets (·.largeBlob)
    require (b.active && p.offset == b.received) .invalidSeq

def largeBlobsSet (p : LargeBlobsParams) : Ctap Bytes:=do
  startFragment p
  authorizeFragment cr p
  sessionStep (LargeBlob.append (p.offset % 2^32) p.set)
  when (← gets (·.largeBlob)).complete (storeLargeBlob cr)
  pure []

def largeBlobs (params : Bytes) : Ctap Bytes:=do
  initReader params
  let p ← orFail .invalidCbor (← cbor readLargeBlobsParams)
  require (p.hasGet != p.hasSet && p.hasOffset) .invalidParameter
  if p.hasGet then largeBlobsGet p else largeBlobsSet cr p

def configSubToggleAlwaysUv : ℕ:=0x02

def configSubSetMinPinLength : ℕ:=0x03

def badgePinMin : ℕ:=4

def badgePinMax : ℕ:=8

structure ConfigParams where
  subcmd : ℕ:=0
  hasSub : Bool:=false
  /-- The raw bytes of `subCommandParams`. -/
  subParams : Bytes:=[]
  pinProto : ℕ:=0
  pinAuth : Bytes:=[]
  deriving DecidableEq

def skipSpan : Read Bytes:=do
  let before ← gets (·.rest)
  trySkip
  let after ← gets (·.rest)
  pure (before.take (before.length-after.length))

def parseConfigPair (p : ConfigParams) : Read ConfigParams:=do
  match ← readUint with
  | 0x01=>pure {p with subcmd:=(← attempt readUint).getD p.subcmd,hasSub:=true}
  | 0x02=>pure {p with subParams:=← skipSpan}
  | 0x03=>pure {p with pinProto:=(← attempt readUint).getD p.pinProto}
  | 0x04=>pure {p with pinAuth:=(← attempt (readBytes 64)).getD []}
  | _=>ignore p

def readConfigParams : Read ConfigParams:=do
  let count ← readMap
  if count < 0 then stop ()
  else iterate count.toNat parseConfigPair {}

/-- A pair of `subCommandParams`: the new minimum, if one was read so far. The loop ends where a key
cannot be read. -/
def parseNewMinPair (newMin : Option ℕ) : Read (Option (Option ℕ)):=do
  match ← attempt readUint with
  | none=>pure none
  | some 0x01=>pure (some (some ((← attempt readUint).getD (newMin.getD 0))))
  | some _=>ignore (some newMin)

/-- The `newMinPINLength` of the raw parameters. -/
def readNewMin : Read (Option ℕ):=do
  let count ← attempt readMap
  iterateWhile (count.getD (-1)).toNat parseNewMinPair none

def runReader {α : Type} (m : Read α) (data : Bytes) : Option α:=
  match m {rest:=data} with
  | (.ok a,_)=>some a
  | (.error _,_)=>none

def configNewMin (subParams : Bytes) : Option ℕ:=(runReader readNewMin subParams).join

/-- What the `pinUvAuthParam` is computed over. -/
def ConfigParams.message (p : ConfigParams) : Bytes:=
  List.replicate 32 0xff++[0x0d,UInt8.ofNat p.subcmd]++p.subParams

def authorizeConfig (p : ConfigParams) : Ctap Unit:=do
  when (← env (·.fido2Available)) do
    require (p.subParams.length ≤ 256) .invalidLength
    verifyTokenOverMessage cr p.message (UInt8.ofNat p.pinProto) p.pinAuth permAuthnConfig
    noteAct permAuthnConfig []

def toggleAlwaysUv : Ctap Unit:=do
  let cur ← fido2StorageGetAlwaysUv
  require (← fido2StorageSetAlwaysUv (!cur)) .other

def pinStorageSetMinPinFloor (minLen : ℕ) : Ctap Unit:=
  modify fun w=>{w with minPinFloor:=UInt8.ofNat (max badgePinMin (min badgePinMax minLen))}

def setMinPinLength (newMin : ℕ) : Ctap Unit:=do
  let current ← fido2StorageGetMinPinLen
  require (max badgePinMin current.toNat ≤ newMin && newMin ≤ badgePinMax) .invalidParameter
  require (← fido2StorageSetMinPinLen (UInt8.ofNat newMin)) .other
  pinStorageSetMinPinFloor newMin

def runConfig (p : ConfigParams) : Ctap Bytes:=do
  if p.subcmd=configSubToggleAlwaysUv then
    toggleAlwaysUv
    pure []
  else
    setMinPinLength (← orFail .invalidParameter (configNewMin p.subParams))
    pure []

def parseConfigParams (params : Bytes) : Ctap ConfigParams:=do
  initReader params
  let p ← orFail .invalidCbor (← cbor readConfigParams)
  require p.hasSub .missingParameter
  require (p.subcmd != 0x01 && p.subcmd != 0xFF) .unsupportedOption
  require (p.subcmd == configSubToggleAlwaysUv || p.subcmd == configSubSetMinPinLength) .invalidParameter
  pure p

def config (params : Bytes) : Ctap Bytes:=do
  let p ← parseConfigParams params
  authorizeConfig cr p
  runConfig p

end Command

def selection : Ctap Bytes:=do
  requireUserPresence
  pure []

def fido2FactoryReset : Ctap Unit:=do
  (List.range fido2MaxCredentials).forM fun slot=>do
    when ((← gets (·.storage)).lookup slot).isSome (fido2StorageDeleteCredential slot)
  fido2StorageConfigReset
  pinStorageSetMinPinFloor 0

/-- Reset leaves the list that getNextAssertion goes on with, and the RP the token is bound to. -/
def reset : Ctap Bytes:=do
  require (← env (·.resetWindowOpen)) .notAllowed
  requireUserPresence
  fido2FactoryReset
  updateClientPin fun pin=>{pin with pinToken:=zeros 32,pinTokenValid:=false,tokenPermissions:=0}
  modify fun w=>{w with pinVerified:=false}
  pure []

def encodeTexts (texts : List String) (w : Writer) : Writer:=
  texts.foldl (fun w t=>w.text (ascii t)) (w.array texts.length)

def encodeOptions (options : List (String × Bool)) (w : Writer) : Writer:=
  options.foldl (fun w o=>w.text (ascii o.1) |>.bool o.2) (w.map options.length)

def encodeAlgorithm (alg : ℤ) (w : Writer) : Writer:=
  w.map 2 |>.text (ascii "alg") |>.int alg |>.text (ascii "type") |>.text (ascii "public-key")

def getInfo : Ctap Bytes:=do
  let w : Writer:={size:=← env (·.responseSize)}
  let alwaysUv ← fido2StorageGetAlwaysUv
  let minPin ← fido2StorageGetMinPinLen
  let w:=encodeTexts ["FIDO_2_0","FIDO_2_1","U2F_V2"] (w.map 12 |>.uint 0x01)
  let w:=encodeTexts ["appid","credProtect","appidExclude"] (w.uint 0x02)
  let w:=encodeOptions [("rk",true),("up",true),("uv",false),("plat",false),("alwaysUv",alwaysUv),
    ("credMgmt",true),("authnrCfg",true),("clientPin",true),("largeBlobs",true),
    ("pinUvAuthToken",true),("setMinPINLength",true),("makeCredUvNotRqd",true)]
    (w.uint 0x03 |>.bytes aaguid |>.uint 0x04)
  let w:=w.uint 0x05 |>.uint 1200 |>.uint 0x06 |>.array 1 |>.uint 2 |>.uint 0x07 |>.uint 8
    |>.uint 0x08 |>.uint credIdLen
  let w:=encodeTexts ["usb"] (w.uint 0x09)
  let w:=encodeAlgorithm (-8) (encodeAlgorithm (-7) (w.uint 0x0A |>.array 2))
  let w:=w.uint 0x0B |>.uint kLargeBlobMaxArray |>.uint 0x0D |>.uint (max badgePinMin minPin.toNat)
  orFail .other w.output

end CdcBadge.Fido2
