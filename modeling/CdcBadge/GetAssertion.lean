import CdcBadge.AuthenticatorData

/-! # authenticatorGetAssertion and authenticatorGetNextAssertion -/

namespace CdcBadge.Fido2

open Handler Cbor

structure GetAssertionParams where
  rpId : Bytes:=[]
  rpIdHash : ByteArr 32:=zeros 32
  /-- The text that the request gives for the RP id, before it is copied: kept for stating properties. -/
  rpIdText : Option Bytes:=none
  clientDataHash : ByteArr 32:=zeros 32
  hasRp : Bool:=false
  hasClientData : Bool:=false
  allowListPresent : Bool:=false
  allowListSlots : List ℕ:=[]
  optionUv : Bool:=false
  optionUp : Bool:=true
  appid : Bytes:=[]
  hasAppid : Bool:=false
  appidHash : ByteArr 32:=zeros 32
  pinUvAuthParam : Bytes:=[]
  pinUvAuthProtocol : UInt8:=0

/-- The credential ID of one descriptor, cut off at the length of an ID and then taken only if it has
that length. -/
def gaParseAllowListCredential : Read Bytes:=do
  let id ← textMap 16 (fun key id=>
    if key=ascii "id" then do pure (some (← readBytes credIdLen))
    else ignore id) none
  match id with
  | some credId=>if credId.length=credIdLen then pure credId else stop ()
  | none=>stop ()

def GetAssertionParams.allow (p : GetAssertionParams) (slot : ℕ) : GetAssertionParams:=
  if slot∈p.allowListSlots ∨ fido2MaxCredentials ≤ p.allowListSlots.length then p
  else {p with allowListSlots:=p.allowListSlots++[slot]}

def gaParseAllowListEntry (p : GetAssertionParams) : Ctap GetAssertionParams:=do
  match ← cbor gaParseAllowListCredential with
  | none=>pure p
  | some credId=>
    match ← fido2StorageFindSlotByCredId credId with
    | none=>pure p
    | some slot=>pure (p.allow slot)

def gaParseAllowList (p : GetAssertionParams) : Ctap GetAssertionParams:=do
  let count ← orFail .invalidCbor (← cbor readArray)
  require (0 ≤ count) .invalidCbor
  iterate count.toNat gaParseAllowListEntry {p with allowListPresent:=true}

section Command

variable (cr : FidoCrypto)

def gaParseExtensions : GetAssertionParams→Read GetAssertionParams:=
  textMap 16 fun key p=>
    if key=ascii "appid" then do
      match ← attempt (readText 256) with
      | some text=>
        let p:={p with appid:=text,hasAppid:=0 < text.length}
        pure (if p.hasAppid then {p with appidHash:=cr.sha256 (cstr p.appid)} else p)
      | none=>pure p
    else ignore p

def gaParseOptions : GetAssertionParams→Read GetAssertionParams:=
  textMap 8 fun key p=>
    if key=ascii "uv" then do pure {p with optionUv:=(← attempt readBool).getD p.optionUv}
    else if key=ascii "up" then do pure {p with optionUp:=(← attempt readBool).getD p.optionUp}
    else ignore p

def gaParseParam (key : ℕ) (p : GetAssertionParams) : Read GetAssertionParams:=do
  match key with
  | 0x01=>
    let p:=match ← attempt readTextItem with
      | some text=>{p with rpId:=copyText rpIdMaxLen text,rpIdText:=some text}
      | none=>p
    pure {p with rpIdHash:=cr.sha256 (cstr p.rpId),hasRp:=true}
  | 0x02=>
    let hash ← readBytes 32
    if hash.length=32 then pure {p with clientDataHash:=fit 32 hash,hasClientData:=true} else stop ()
  | 0x04=>gaParseExtensions cr p
  | 0x05=>gaParseOptions p
  | 0x06=>
    match ← attempt (readBytes 32) with
    | some param=>pure {p with pinUvAuthParam:=param}
    | none=>pure p
  | 0x07=>
    match ← attempt readUint with
    | some protocol=>pure {p with pinUvAuthProtocol:=UInt8.ofNat protocol}
    | none=>pure p
  | _=>ignore p

def gaParsePair (p : GetAssertionParams) : Ctap GetAssertionParams:=do
  let key ← orFail .invalidCbor (← cbor readUint)
  if key=0x03 then gaParseAllowList p
  else orFail .invalidCbor (← cbor (gaParseParam cr key p))

def gaParseParams (params : Bytes) : Ctap GetAssertionParams:=do
  initReader params
  let count ← orFail .invalidCbor (← cbor readMap)
  require (0 ≤ count) .invalidCbor
  iterate count.toNat (gaParsePair cr) {}

def gaVerifyPinAuth (p : GetAssertionParams) : Ctap Bool:=
  verifyPinUvAuthParam cr permGetAssertion p.rpIdHash p.clientDataHash p.pinUvAuthProtocol p.pinUvAuthParam

/-- The credentials to sign with, and the hash that their signatures are made for. -/
structure AssertionCredentials where
  slots : List ℕ
  includeUser : Bool
  appidUsed : Bool
  hashInUse : ByteArr 32

def slotHasRp (rpIdHash : ByteArr 32) (slot : ℕ) : Ctap Bool:=do
  match ← fido2StorageGetCredential slot with
  | some info=>pure (info.rpIdHash == rpIdHash)
  | none=>pure false

/-- Level 3 asks for user verification, and level 2 for that or for the credential ID. -/
def protectAllows (credProtect : UInt8) (uvVerified allowList : Bool) : Bool:=
  !(3 ≤ credProtect && !uvVerified) && !(credProtect == 2 && !uvVerified && !allowList)

def gaCredProtectAllows (uvVerified allowList : Bool) (slot : ℕ) : Ctap Bool:=do
  match ← fido2StorageGetCredential slot with
  | some info=>pure (protectAllows info.credProtect uvVerified allowList)
  | none=>pure false

def GetAssertionParams.usesAllowList (p : GetAssertionParams) : Bool:=
  p.allowListPresent && !p.allowListSlots.isEmpty

def gaFindCandidates (p : GetAssertionParams) (rpIdHash : ByteArr 32) : Ctap (List ℕ):=do
  if p.usesAllowList then filterSlots (slotHasRp rpIdHash) p.allowListSlots
  else pure ((← gets (·.storage)).findByRpResident rpIdHash)

def gaFindCredentials (p : GetAssertionParams) (uvVerified : Bool) : Ctap AssertionCredentials:=do
  let rpSlots ← gaFindCandidates p p.rpIdHash
  let appidSlots ← (if p.hasAppid then gaFindCandidates p p.appidHash else pure [])
  let creds : AssertionCredentials:={
    slots:=if appidSlots.isEmpty then rpSlots else appidSlots
    includeUser:=!p.usesAllowList
    appidUsed:=!appidSlots.isEmpty
    hashInUse:=if appidSlots.isEmpty then p.rpIdHash else p.appidHash }
  let kept ← filterSlots (gaCredProtectAllows uvVerified p.usesAllowList) creds.slots
  pure {creds with slots:=kept}

def gaToSignSize : ℕ:=96

def gaSignAssertion (slot : ℕ) (authData : Bytes) (clientDataHash : ByteArr 32) (selection : Selection) :
    Ctap (ByteArr 64):=do
  require (authData.length ≤ gaToSignSize-32) .other
  orFail .other (← fido2StorageSignRaw cr slot (authData++clientDataHash.toList) selection)

def encodeAssertion (credId authData : Bytes) (signature : ByteArr 64) (w : Writer) : Writer:=
  w.uint 0x01 |>.map 2 |>.text (ascii "id") |>.bytes credId |>.text (ascii "type") |>.text (ascii "public-key")
    |>.uint 0x02 |>.bytes authData |>.uint 0x03 |>.bytes signature.toList

def encodeUser (cred : CachedCred) (w : Writer) : Writer:=
  let named:=!(cstr cred.userName).isEmpty
  let w:=w.map (if named then 2 else 1) |>.text (ascii "id") |>.bytes cred.userId
  if named then w.text (ascii "name") |>.text cred.userName else w

def gaBuildResponse (credId authData : Bytes) (signature : ByteArr 64) (cred : CachedCred)
    (includeUser : Bool) (totalCreds : ℕ) (size : ℕ) : Option Bytes:=
  let fields:=3+(if includeUser then 1 else 0)+(if 1 < totalCreds then 1 else 0)
  let w : Writer:={size:=size}
  let w:=encodeAssertion credId authData signature (w.map fields)
  let w:=if includeUser then encodeUser cred (w.uint 0x04) else w
  let w:=if 1 < totalCreds then w.uint 0x05 |>.uint totalCreds else w
  w.output

def selectionOf (p : GetAssertionParams) (uvVerified : Bool) (creds : AssertionCredentials) (s : Storage) :
    Selection:=
  { uv:=uvVerified
    byId:=p.usesAllowList
    creds:=creds.slots.filterMap fun slot=>(s.creds slot).map fun c=>(slot,c.toCredInfo) }

def saveAssertion (p : GetAssertionParams) (uvVerified : Bool) (creds : AssertionCredentials) : Ctap Unit:=do
  let storage ← gets (·.storage)
  updateCtap2 fun s=>{
    assertionCreds:=overwrite creds.slots s.assertionCreds
    assertionCount:=UInt8.ofNat creds.slots.length
    assertionIndex:=0
    assertionRpIdHash:=creds.hashInUse
    assertionClientDataHash:=p.clientDataHash
    assertionUpDone:=p.optionUp
    assertionIncludeUser:=creds.includeUser
    assertionAppidUsed:=creds.appidUsed
    assertionSelection:=selectionOf p uvVerified creds storage }

def appidExtension (appidUsed : Bool) : Bytes:=if appidUsed then buildAppidExtension else []

def getAssertion (params : Bytes) : Ctap Bytes:=do
  let p ← gaParseParams cr params
  require (p.hasRp && p.hasClientData) .missingParameter
  require (!p.optionUv) .unsupportedOption
  let uvVerified ← gaVerifyPinAuth cr p
  let alwaysUv ← fido2StorageGetAlwaysUv
  require (!(alwaysUv && !uvVerified)) .pinRequired
  let creds ← gaFindCredentials p uvVerified
  require (!creds.slots.isEmpty) .noCredentials
  when p.optionUp requireUserPresence
  saveAssertion p uvVerified creds
  let state ← gets (·.ctap2)
  let slot:=state.assertionCreds.getD 0 0
  let cred ← orFail .other (← fido2StorageGetCredential slot)
  when uvVerified (noteAct permGetAssertion [cred.rpIdHash])
  let signCount ← fido2StorageIncrementSignCount slot
  require (signCount != 0) .other
  let flags:=if p.optionUp then flagUp else 0
  let authData:=buildAuthenticatorData creds.hashInUse (if uvVerified then flags ||| flagUv else flags)
    signCount [] (appidExtension creds.appidUsed)
  let signature ← gaSignAssertion cr slot authData p.clientDataHash state.assertionSelection
  let credId ← orFail .other (← fido2StorageGetCredId slot)
  let response ← orFail .other (gaBuildResponse credId authData signature cred state.assertionIncludeUser
    state.assertionCount.toNat (← env (·.responseSize)))
  let _ ← fido2StorageCounterIncrement
  pure response

/-- The next credential of the saved list signs, without another look at the request. -/
def getNextAssertion : Ctap Bytes:=do
  require ((← gets (·.ctap2)).assertionCount != 0) .notAllowed
  updateCtap2 fun s=>{s with assertionIndex:=s.assertionIndex+1}
  let state ← gets (·.ctap2)
  require (state.assertionIndex < state.assertionCount) .notAllowed
  let slot:=state.assertionCreds.getD state.assertionIndex.toNat 0
  let _ ← orFail .other (← fido2StorageGetCredential slot)
  let signCount ← fido2StorageIncrementSignCount slot
  require (signCount != 0) .other
  let authData:=buildAuthenticatorData state.assertionRpIdHash (if state.assertionUpDone then flagUp else 0)
    signCount [] (appidExtension state.assertionAppidUsed)
  let signature ← gaSignAssertion cr slot authData state.assertionClientDataHash state.assertionSelection
  let credId ← orFail .other (← fido2StorageGetCredId slot)
  -- The writer's error is not looked at here.
  let w : Writer:={size:=← env (·.responseSize)}
  pure (encodeAssertion credId authData signature (w.map 3)).out

end Command

end CdcBadge.Fido2
