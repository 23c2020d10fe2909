import Mathlib.Tactic.Simps.Basic
import CdcBadge.Cbor
import CdcBadge.Crypto

/-!
# The memory of the FIDO2 module

The credentials on the chip and their cache, the state that CTAP2 commands leave for
later ones, and the world that a command runs in.
-/

namespace CdcBadge.Fido2

open Handler Cbor

def fido2MaxCredentials : ℕ:=32

def rpIdMaxLen : ℕ:=64

def userIdMaxLen : ℕ:=64

def userNameMaxLen : ℕ:=32

def credIdLen : ℕ:=64

def eccStart : ℕ:=9

def rmemStart : ℕ:=9

def slotCount : ℕ:=22

/-- What the chip's record and the cache both say about a credential. -/
structure CredInfo where
  rpIdHash : ByteArr 32
  rpId : Bytes
  userId : Bytes
  userName : Bytes
  resident : Bool
  credProtect : UInt8
  curve : EccCurve
  deriving DecidableEq

/-- `fido2_stored_cred_t`. -/
structure StoredCred extends CredInfo where
  signCount : UInt32
  credIdNonce : ByteArr 16
  deriving DecidableEq

/-- A valid entry of the cache. -/
structure CachedCred extends CredInfo where
  signCount : UInt32
  deriving DecidableEq

/-- A record with the magic header, or anything else. -/
inductive RmemContent
  | cred (stored : StoredCred)
  | other
  deriving DecidableEq

/-- `g_storage`. -/
structure Storage where
  creds : ℕ→Option CachedCred:=fun _=>none
  credCount : UInt8:=0
  authCounter : UInt32:=0
  counterLoaded : Bool:=false

/-- How the request that selected credentials for signing selected them: kept for stating properties. -/
structure Selection where
  /-- The request carried a verified `pinUvAuthParam`. -/
  uv : Bool:=false
  /-- The request named them by credential ID. -/
  byId : Bool:=false
  creds : List (ℕ × CredInfo):=[]
  deriving DecidableEq

/-- `g_ctap2`: what getNextAssertion goes on with. -/
structure Ctap2 where
  assertionCreds : List ℕ:=List.replicate fido2MaxCredentials 0
  assertionCount : UInt8:=0
  assertionIndex : UInt8:=0
  assertionRpIdHash : ByteArr 32:=zeros 32
  assertionClientDataHash : ByteArr 32:=zeros 32
  assertionUpDone : Bool:=false
  assertionIncludeUser : Bool:=false
  assertionAppidUsed : Bool:=false
  assertionSelection : Selection:={}

/-- What the holder of a token was granted, with the RP id as the request gave it: kept for
stating properties. -/
structure Grant where
  permissions : UInt8:=0
  rpId : Option Bytes:=none
  deriving DecidableEq

def pinRetriesMax : UInt8:=8

def pinUvRetriesMax : UInt8:=3

/-- `g_client_pin`. -/
structure ClientPin where
  initialized : Bool:=false
  ecdhKey : Option ℕ:=none
  pinToken : ByteArr 32:=zeros 32
  pinTokenValid : Bool:=false
  tokenPermissions : UInt8:=0
  tokenRpIdHash : ByteArr 32:=zeros 32
  tokenRpIdSet : Bool:=false
  pinRetries : UInt8:=0
  uvRetries : UInt8:=0
  grant : Grant:={}

/-- `g_cred_mgmt`. -/
structure CredMgmt where
  rpSlots : List ℕ:=List.replicate fido2MaxCredentials 0
  rpCount : UInt8:=0
  rpIndex : UInt8:=0
  credSlots : List ℕ:=List.replicate fido2MaxCredentials 0
  credCount : UInt8:=0
  credIndex : UInt8:=0
  currentRpIdHash : ByteArr 32:=zeros 32

def kLargeBlobMaxArray : ℕ:=1024

/-- `LargeBlobWriteSession` with the buffer it gathers in. -/
structure LargeBlob where
  expected : ℕ:=0
  received : ℕ:=0
  active : Bool:=false
  buf : Bytes:=List.replicate kLargeBlobMaxArray 0

/-- The keys of the NVS namespace `fido2`. -/
structure Nvs where
  counter : Option UInt32:=none
  largeblob : Option Bytes:=none
  alwaysUv : Option UInt8:=none
  minPin : Option UInt8:=none

/-- What becomes of an access to NVS. -/
inductive NvsOutcome
  | done
  | notOpened
  | failed (applied : Bool)
  deriving DecidableEq

/-- What a command meets: the outcomes of its calls to the chip and to NVS in order, the
random values it draws, and the answers of the user and of the PIN manager. The reader of
its parameters is kept here too. -/
structure Env where
  reader : Reader:={}
  se : List SeOutcome:=[]
  nvs : List NvsOutcome:=[]
  randomBytes : List Bytes:=[]
  secrets : List ℕ:=[]
  presence : Bool:=true
  resetWindowOpen : Bool:=true
  fido2Available : Bool:=true
  pinHashMatches : Bool:=true
  /-- The attestation certificate that `u2f_init_attestation` loads or builds. -/
  attestation : Option Bytes:=some []
  /-- The value of an uninitialised local variable. -/
  garbage : UInt8:=0
  /-- The capacity of the response buffer behind its status byte. -/
  responseSize : ℕ:=2047

/-- A signature made with a credential's key: kept for stating properties. -/
structure Signing where
  slot : ℕ
  cred : CachedCred
  /-- The content of the slot's R-Memory at that moment. -/
  record : Option RmemContent
  message : Bytes
  selection : Selection

/-- An act of a command on the strength of the token: the permission it takes and the RPs
whose data it returns or changes. Kept for stating properties. -/
structure Act where
  grant : Grant
  permission : UInt8
  rpIdHashes : List (ByteArr 32)

structure Badge where
  chip : Chip RmemContent
  nvs : Nvs:={}
  storage : Storage:={}
  ctap2 : Ctap2:={}
  clientPin : ClientPin:={}
  credMgmt : CredMgmt:={}
  largeBlob : LargeBlob:={}
  attestCert : Option Bytes:=none
  pinVerified : Bool:=false
  minPinFloor : UInt8:=4
  env : Env:={}
  signings : List Signing:=[]
  acts : List Act:=[]

@[simps] def Badge.given (w : Badge) (e : Env) : Badge:={w with env:=e}

@[simp] theorem Badge.given_given (w : Badge) (e e' : Env) : (w.given e).given e'=w.given e':=rfl

@[simp] theorem Badge.given_self (w : Badge) : w.given w.env=w:=rfl

/-- The CTAP status codes other than `CTAP2_OK` that the module answers. -/
inductive Status
  | invalidCommand | invalidParameter | invalidLength | invalidSeq
  | invalidCbor | missingParameter | largeBlobStorageFull | credentialExcluded
  | unsupportedAlgorithm | operationDenied | keyStoreFull | unsupportedOption | invalidOption
  | noCredentials | notAllowed | pinInvalid | pinBlocked | pinAuthInvalid | pinNotSet | pinRequired
  | integrityFailure | other
  deriving DecidableEq, Repr

/-- How a command ends without its normal response: a CTAP status, a U2F status word, or a loss of
power. -/
inductive Halt
  | status (s : Status)
  | statusWord (sw : UInt16)
  | powerLost
  deriving DecidableEq, Repr

abbrev Ctap:=Handler Halt Badge

def fail {α : Type} (s : Status) : Ctap α:=stop (.status s)

def require (b : Bool) (s : Status) : Ctap Unit:=check b (.status s)

section World

variable {α : Type}

def updateStorage (f : Storage → Storage) : Ctap Unit:=modify fun w=>{w with storage:=f w.storage}

def updateCtap2 (f : Ctap2 → Ctap2) : Ctap Unit:=modify fun w=>{w with ctap2:=f w.ctap2}

def updateClientPin (f : ClientPin → ClientPin) : Ctap Unit:=
  modify fun w=>{w with clientPin:=f w.clientPin}

def updateCredMgmt (f : CredMgmt → CredMgmt) : Ctap Unit:=modify fun w=>{w with credMgmt:=f w.credMgmt}

def updateLargeBlob (f : LargeBlob → LargeBlob) : Ctap Unit:=
  modify fun w=>{w with largeBlob:=f w.largeBlob}

def env (f : Env → α) : Ctap α:=gets fun w=>f w.env

def updateEnv (f : Env → Env) : Ctap Unit:=modify fun w=>w.given (f w.env)

def initReader (params : Bytes) : Ctap Unit:=updateEnv fun e=>{e with reader:={rest:=params}}

def cbor (m : Read α) : Ctap (Option α):=fun w=>
  match m w.env.reader with
  | (.ok a,r)=>(.ok (some a),w.given {w.env with reader:=r})
  | (.error _,r)=>(.ok none,w.given {w.env with reader:=r})

def seCall (call : Chip RmemContent → SeReply α × Chip RmemContent) : Ctap (SeReply α):=fun w=>
  let later:={w.env with se:=w.env.se.tail}
  match Chip.perform (w.env.se.headD .done) call w.chip with
  | (some reply,c)=>(.ok reply,{w with chip:=c}.given later)
  | (none,c)=>(.error .powerLost,{w with chip:=c}.given later)

def getRandom (n : ℕ) : Ctap (SeReply (ByteArr n)):=do
  let reply ← seCall fun c=>(.ok (),c)
  match reply with
  | .error e=>pure (.error e)
  | .ok ()=>
    let bytes ← env (·.randomBytes.headD [])
    updateEnv fun e=>{e with randomBytes:=e.randomBytes.tail}
    pure (.ok (fit n bytes))

def secureRandomFill (n : ℕ) : Ctap (ByteArr n):=do
  let bytes ← env (·.randomBytes.headD [])
  updateEnv fun e=>{e with randomBytes:=e.randomBytes.tail}
  pure (fit n bytes)

def freshSecret : Ctap ℕ:=do
  let secret ← env (·.secrets.headD 0)
  updateEnv fun e=>{e with secrets:=e.secrets.tail}
  pure secret

def nextNvs : Ctap NvsOutcome:=do
  let o ← env (·.nvs.headD .done)
  updateEnv fun e=>{e with nvs:=e.nvs.tail}
  pure o

def nvsWrite (f : Nvs→Nvs) : Ctap Bool:=do
  match ← nextNvs with
  | .done=>
    modify fun w=>{w with nvs:=f w.nvs}
    pure true
  | .notOpened=>pure false
  | .failed applied=>
    when applied (modify fun w=>{w with nvs:=f w.nvs} : Ctap Unit)
    pure false

def nvsRead (f : Nvs→Option α) : Ctap (Option α):=do
  match ← nextNvs with
  | .done=>gets fun w=>f w.nvs
  | _=>pure none

end World

/-- What the module takes from the chip and from mbedtls beyond hashing. -/
structure FidoCrypto extends Crypto where
  hmacSha256 : Bytes→Bytes→ByteArr 32
  /-- The signature that the chip makes over a message with a key and a nonce. -/
  chipSign : EccKey → ℕ→Bytes→ByteArr 64
  /-- The DER signature that mbedtls makes with an ephemeral key. -/
  softSign : ℕ → ℕ→Bytes→Bytes
  /-- The coordinates of the P-256 point of a private key. -/
  ecdhPublic : ℕ→ByteArr 64
  /-- The shared x coordinate, where the point is on the curve. -/
  ecdhShared : ℕ→ByteArr 32→ByteArr 32→Option (ByteArr 32)
  aesCbcDecrypt : ByteArr 32→ByteArr 16→Bytes→Bytes
  aesCbcEncrypt : ByteArr 32→ByteArr 16→Bytes→Bytes

/-- Primitives that can be computed with, over those of `Crypto.plain`: signatures repeat their message,
and encryption leaves its text as it is. -/
def FidoCrypto.plain : FidoCrypto where
  toCrypto:=Crypto.plain
  hmacSha256 key message:=fit 32 (UInt8.ofNat message.length::key.take 4++message)
  chipSign key _ message:=fit 64 (be32 (UInt32.ofNat key.secret)++message)
  softSign _ _ message:=message
  ecdhPublic secret:=fit 64 (be32 (UInt32.ofNat secret))
  ecdhShared _ x _:=some x
  aesCbcDecrypt _ _ text:=text
  aesCbcEncrypt _ _ text:=text

end CdcBadge.Fido2
