import CdcBadge.AuthenticatorData

/-! # authenticatorMakeCredential -/

namespace CdcBadge.Fido2

open Handler Cbor

def coseAlgEs256 : ℤ := -7

def coseAlgEddsa : ℤ := -8

structure MakeCredentialParams where
  clientDataHash : ByteArr 32:=zeros 32
  rpId : Bytes:=[]
  rpIdHash : ByteArr 32:=zeros 32
  /-- The text that the request gives for the RP id, before it is copied: kept for stating properties. -/
  rpIdText : Option Bytes:=none
  userId : Bytes:=List.replicate userIdMaxLen 0
  userIdLen : UInt8:=0
  userName : Bytes:=[]
  rk : Bool:=false
  credProtect : UInt8:=0
  alg : ℤ:=0
  optionUv : Bool:=false
  optionUp : Bool:=true
  appidExclude : Bytes:=[]
  hasAppidExclude : Bool:=false
  pinUvAuthParam : Bytes:=[]
  pinUvAuthProtocol : UInt8:=0
  hasClientData : Bool:=false
  hasRp : Bool:=false
  hasUser : Bool:=false
  hasAlg : Bool:=false

section Parse

variable (cr : FidoCrypto) (garbage : UInt8)

def parseRpMap : MakeCredentialParams→Read MakeCredentialParams:=
  textMap 16 fun key p=>
    if key=ascii "id" then do
      let p:=match ← attempt readTextItem with
        | some text=>{p with rpId:=copyText rpIdMaxLen text,rpIdText:=some text}
        | none=>p
      pure {p with rpIdHash:=cr.sha256 (cstr p.rpId),hasRp:=true}
    else ignore p

def parseUserMap : MakeCredentialParams→Read MakeCredentialParams:=
  textMap 16 fun key p=>
    if key=ascii "id" then do
      -- The length is that of an uninitialised variable where the read fails.
      match ← attempt (readBytes userIdMaxLen) with
      | some id=>
        pure {p with userId:=overwrite id p.userId,userIdLen:=UInt8.ofNat id.length,hasUser:=true}
      | none=>pure {p with userIdLen:=garbage,hasUser:=true}
    else if key=ascii "name" then do
      match ← attempt (readText userNameMaxLen) with
      | some name=>pure {p with userName:=name}
      | none=>pure p
    else ignore p

/-- The last `alg` of one entry. -/
def parsePubkeyCredParam (alg : ℤ) : Read ℤ:=do
  let count ← attempt readMap
  iterate (count.getD (-1)).toNat (textPair 8 fun key alg=>
    if key=ascii "alg" then do pure ((← attempt readInt).getD alg)
    else ignore alg) alg

def parsePubkeyCredParams (p : MakeCredentialParams) : Read MakeCredentialParams:=do
  let count ← readArray
  if count < 0 then stop ()
  else
    iterate count.toNat (fun p=>do
      let alg ← parsePubkeyCredParam 0
      if !p.hasAlg && (alg == coseAlgEs256 || alg == coseAlgEddsa) then
        pure {p with alg:=alg,hasAlg:=true}
      else pure p) p

def parseExtensionsMap : MakeCredentialParams→Read MakeCredentialParams:=
  textMap 16 fun key p=>
    if key=ascii "appidExclude" then do
      match ← attempt (readText 256) with
      | some text=>pure {p with appidExclude:=text,hasAppidExclude:=0 < text.length}
      | none=>pure p
    else if key=ascii "credProtect" then do
      match ← attempt readUint with
      | some level=>
        if 1 ≤ level ∧ level ≤ 3 then pure {p with credProtect:=UInt8.ofNat level} else pure p
      | none=>pure p
    else ignore p

def parseOptionsMap : MakeCredentialParams→Read MakeCredentialParams:=
  textMap 8 fun key p=>
    if key=ascii "rk" then do pure {p with rk:=(← attempt readBool).getD p.rk}
    else if key=ascii "uv" then do pure {p with optionUv:=(← attempt readBool).getD p.optionUv}
    else if key=ascii "up" then do pure {p with optionUp:=(← attempt readBool).getD p.optionUp}
    else ignore p

def parseMakeCredentialParam (p : MakeCredentialParams) : Read MakeCredentialParams:=do
  match ← readUint with
  | 0x01=>
    let hash ← readBytes 32
    if hash.length=32 then pure {p with clientDataHash:=fit 32 hash,hasClientData:=true} else stop ()
  | 0x02=>parseRpMap cr p
  | 0x03=>parseUserMap garbage p
  | 0x04=>parsePubkeyCredParams p
  | 0x06=>parseExtensionsMap p
  | 0x07=>parseOptionsMap p
  | 0x08=>
    match ← attempt (readBytes 64) with
    | some param=>pure {p with pinUvAuthParam:=param}
    | none=>pure p
  | 0x09=>
    match ← attempt readUint with
    | some protocol=>pure {p with pinUvAuthProtocol:=UInt8.ofNat protocol}
    | none=>pure p
  | _=>ignore p

def readMakeCredentialParams : Read MakeCredentialParams:=do
  let count ← readMap
  if count < 0 then stop ()
  else iterate count.toNat (parseMakeCredentialParam cr garbage) {}

end Parse

section Command

variable (cr : FidoCrypto)

def parseMakeCredentialParams (params : Bytes) : Ctap MakeCredentialParams:=do
  initReader params
  match ← cbor (readMakeCredentialParams cr (← env (·.garbage))) with
  | none=>fail .invalidCbor
  | some p=>
    require (p.hasClientData && p.hasRp && p.hasUser && p.hasAlg) .missingParameter
    pure p

def verifyPinUvAuth (p : MakeCredentialParams) : Ctap Bool:=
  verifyPinUvAuthParam cr permMakeCredential p.rpIdHash p.clientDataHash p.pinUvAuthProtocol p.pinUvAuthParam

def checkAppidExclude (p : MakeCredentialParams) : Ctap Unit:=do
  if !p.hasAppidExclude || (cstr p.appidExclude).isEmpty then pure ()
  else
    let found:=(← gets (·.storage)).findByRp (cr.sha256 (cstr p.appidExclude))
    updateCtap2 fun s=>{s with assertionCreds:=overwrite found s.assertionCreds}
    require found.isEmpty .credentialExcluded

def encodeAlgAndSig (sig : Bytes) (w : Writer) : Writer:=
  w.text (ascii "alg") |>.int coseAlgEs256 |>.text (ascii "sig") |>.bytes sig

def buildMakeCredentialResponsePacked (authData sig cert : Bytes) (size : ℕ) : Option Bytes:=
  let noAttestation:=sig.isEmpty && cert.isEmpty
  let w : Writer:={size:=size}
  let w:=w.map 3 |>.uint 0x01 |>.text (ascii (if noAttestation then "none" else "packed"))
    |>.uint 0x02 |>.bytes authData |>.uint 0x03
  let w:=if noAttestation then w.map 0
    else if !cert.isEmpty then encodeAlgAndSig sig (w.map 3) |>.text (ascii "x5c") |>.array 1 |>.bytes cert
    else encodeAlgAndSig sig (w.map 2)
  w.output

def toSignSize : ℕ:=512

/-- A request of a browser that asks which authenticator to use: nothing is stored. -/
def handleBrowserProbe (p : MakeCredentialParams) (uvVerified : Bool) : Ctap Bytes:=do
  requireUserPresence
  let dummyCredId ← secureRandomFill credIdLen
  let secret ← freshSecret
  let attestedCred ← orFail .other (buildAttestedCred dummyCredId.toList (cr.ecdhPublic secret) .p256)
  let authData:=buildAuthDataForCred p.rpIdHash attestedCred 0 uvVerified
  require (authData.length+32 ≤ toSignSize) .other
  let nonce ← freshSecret
  let sig:=cr.softSign secret nonce (authData++p.clientDataHash.toList)
  orFail .other (buildMakeCredentialResponsePacked authData sig [] (← env (·.responseSize)))

def isBrowserProbe (rpId : Bytes) : Bool:=
  cstr rpId == ascii "make.me.blink" || cstr rpId == ascii ".dummy"

def mcRollbackCredential {α : Type} (slot : ℕ) : Ctap α:=do
  let _ ← fido2StorageDeleteCredential slot
  fail .other

/-- Where a step gives no result, the new credential is deleted and the command fails. -/
def orRollback {α : Type} (slot : ℕ) : Option α → Ctap α
  | some a=>pure a
  | none=>mcRollbackCredential slot

def createCredentialAndRespond (p : MakeCredentialParams) (uvVerified : Bool) (curve : EccCurve) :
    Ctap Bytes:=do
  when uvVerified (noteAct permMakeCredential [p.rpIdHash])
  match ← fido2StorageCreateCredential cr p.rpId p.rpIdHash p.userId p.userIdLen p.userName p.rk
      p.credProtect curve with
  | none=>fail .keyStoreFull
  | some created=>
    let slot:=created.slot
    let attestedCred ← orRollback slot (buildAttestedCred created.credId created.pubkey curve)
    let authData:=buildAuthDataForCred p.rpIdHash attestedCred p.credProtect uvVerified
    let toSign ← orRollback slot
      (if authData.length+32 ≤ toSignSize then some (authData++p.clientDataHash.toList) else none)
    let cert ← orRollback slot (← u2fInitAttestation)
    let sig ← orRollback slot (← u2fAttestationSign cr toSign)
    orRollback slot (buildMakeCredentialResponsePacked authData sig cert (← env (·.responseSize)))

def curveOfAlg (alg : ℤ) : Option EccCurve:=
  if alg=coseAlgEs256 then some .p256
  else if alg=coseAlgEddsa then some .ed25519
  else none

def makeCredential (params : Bytes) : Ctap Bytes:=do
  let p ← parseMakeCredentialParams cr params
  checkAppidExclude cr p
  let uvVerified ← verifyPinUvAuth cr p
  let alwaysUv ← fido2StorageGetAlwaysUv
  require (!(alwaysUv && p.pinUvAuthParam.length == 0)) .pinRequired
  if isBrowserProbe p.rpId then handleBrowserProbe cr p uvVerified
  else match curveOfAlg p.alg with
    | none=>fail .unsupportedAlgorithm
    | some curve=>
      require (!p.optionUv) .unsupportedOption
      require p.optionUp .invalidOption
      requireUserPresence
      createCredentialAndRespond cr p uvVerified curve

end Command

end CdcBadge.Fido2
