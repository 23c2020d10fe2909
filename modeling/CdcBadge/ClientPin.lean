import CdcBadge.AuthenticatorData

/-! # authenticatorClientPIN -/

namespace CdcBadge.Fido2

open Handler Cbor

section Command

variable (cr : FidoCrypto)

def clientPinInitEcdh : Ctap Unit:=do
  when (← gets (·.clientPin.ecdhKey)).isNone do
    let secret ← freshSecret
    updateClientPin fun pin=>{ pin with
      ecdhKey:=some secret,pinRetries:=pinRetriesMax,uvRetries:=pinUvRetriesMax }

def clientPinComputeSharedSecret (ecdhKey : Option ℕ) (x y : ByteArr 32) (protocol : UInt8) :
    Option (ByteArr 32):=do
  let z ← cr.ecdhShared (← ecdhKey) x y
  if protocol=1 then pure (cr.sha256 z.toList)
  else
    let prk:=cr.hmacSha256 (List.replicate 32 0) z.toList
    pure (cr.hmacSha256 prk.toList (ascii "CTAP2 AES key"++[0x01]))

def clientPinGetRetries : Ctap Bytes:=do
  let pin ← gets (·.clientPin)
  let w : Writer:={size:=← env (·.responseSize)}
  pure (w.map 2 |>.uint 0x03 |>.uint pin.pinRetries.toNat |>.uint 0x05 |>.uint pin.uvRetries.toNat).out

def clientPinGetKeyAgreement : Ctap Bytes:=do
  clientPinInitEcdh
  let secret:=(← gets (·.clientPin.ecdhKey)).getD 0
  let point:=(cr.ecdhPublic secret).toList
  let w : Writer:={size:=← env (·.responseSize)}
  pure (w.map 1 |>.uint 0x01 |>.map 5 |>.uint 1 |>.uint 2 |>.uint 3 |>.int (-25) |>.int (-1) |>.uint 1
    |>.int (-2) |>.bytes (point.take 32) |>.int (-3) |>.bytes (point.drop 32)).out

structure PinTokenParams where
  platformKeyX : Bytes:=List.replicate 32 0
  platformKeyY : Bytes:=List.replicate 32 0
  pinHashEnc : Bytes:=[]
  pinProtocol : UInt8:=2
  permissions : UInt8:=0
  rpId : Bytes:=[]
  /-- The text that the request gives for the RP id, before it is copied: kept for stating properties. -/
  rpIdText : Option Bytes:=none
  hasKey : Bool:=false
  hasPin : Bool:=false
  hasPermissions : Bool:=false

def parsePlatformKeyPair (p : PinTokenParams) : Read (Option PinTokenParams):=do
  match ← attempt readItem with
  | none=>pure none
  | some item=>
    match item.int? with
    | some (-2)=>
      match ← attempt (readBytes 32) with
      | some x=>
        let p:={p with platformKeyX:=overwrite x p.platformKeyX}
        pure (some (if x.length=32 then {p with hasKey:=true} else p))
      | none=>pure (some p)
    | some (-3)=>
      match ← attempt (readBytes 32) with
      | some y=>pure (some {p with platformKeyY:=overwrite y p.platformKeyY})
      | none=>pure (some p)
    | _=>ignore (some p)

def parsePlatformKey (p : PinTokenParams) : Read PinTokenParams:=do
  let count ← attempt readMap
  iterateWhile (count.getD (-1)).toNat parsePlatformKeyPair p

def parsePinProtocol (p : PinTokenParams) : Read PinTokenParams:=do
  match ← attempt readUint with
  | some protocol=>pure {p with pinProtocol:=UInt8.ofNat protocol}
  | none=>pure p

def parsePinHashEnc (p : PinTokenParams) : Read PinTokenParams:=do
  match ← attempt (readBytes 64) with
  | some enc=>
    let p:={p with pinHashEnc:=enc}
    pure (if enc.length=16 ∨ enc.length=32 ∨ enc.length=64 then {p with hasPin:=true} else p)
  | none=>pure p

def parsePinTokenPair (p : PinTokenParams) : Read (Option PinTokenParams):=do
  match ← attempt readItem with
  | none=>pure none
  | some item=>
    match item.int? with
    | some 0x01=>some <$> parsePinProtocol p
    | some 0x03=>some <$> parsePlatformKey p
    | some 0x06=>some <$> parsePinHashEnc p
    | _=>ignore (some p)

/-- What a pair of getPinUvAuthToken comes to: go on, leave the loop, or refuse the permissions. -/
inductive TokenPair
  | next (p : PinTokenParams)
  | leave
  | invalidPermissions

def parsePinUvAuthTokenPair (p : PinTokenParams) : Read TokenPair:=do
  match ← attempt readItem with
  | none=>pure .leave
  | some item=>
    match item.int? with
    | some 0x01=>.next <$> parsePinProtocol p
    | some 0x03=>.next <$> parsePlatformKey p
    | some 0x06=>.next <$> parsePinHashEnc p
    | some 0x09=>
      match ← attempt readUint with
      | some perm=>
        if perm=0 ∨ 0xFF < perm then pure .invalidPermissions
        else pure (.next {p with permissions:=UInt8.ofNat perm,hasPermissions:=true})
      | none=>pure (.next p)
    | some 0x0A=>
      match ← attempt readTextItem with
      -- The capacity given to the copy is one less than the size of the buffer.
      | some text=>pure (.next {p with rpId:=copyText (64-1) text,rpIdText:=some text})
      | none=>pure (.next p)
    | _=>ignore (.next p)

def parsePinUvAuthTokenPairs : ℕ→PinTokenParams→Read (Option PinTokenParams)
  | 0, p=>pure (some p)
  | n+1, p=>do
    match ← parsePinUvAuthTokenPair p with
    | .next p=>parsePinUvAuthTokenPairs n p
    | .leave=>pure (some p)
    | .invalidPermissions=>pure none

def requirePinUsable : Ctap Unit:=do
  require ((← gets (·.clientPin.pinRetries)) != 0) .pinBlocked
  require (← env (·.fido2Available)) .pinNotSet

/-- The hash that the platform sends, with an initialisation vector in front under protocol two.
Only whole blocks can be decrypted. -/
def decryptPinHash (sharedSecret : ByteArr 32) (p : PinTokenParams) : Option (ByteArr 16):=
  if p.pinProtocol=2 ∧ p.pinHashEnc.length=32 then
    some (fit 16 (cr.aesCbcDecrypt sharedSecret (fit 16 p.pinHashEnc) (p.pinHashEnc.drop 16)))
  else if p.pinHashEnc.length % 16=0 then
    some (fit 16 (cr.aesCbcDecrypt sharedSecret (zeros 16) p.pinHashEnc))
  else none

def verifyPinHash (_ : ByteArr 16) : Ctap Unit:=do
  if ← env (·.pinHashMatches) then
    updateClientPin fun pin=>{pin with pinRetries:=pinRetriesMax}
  else
    updateClientPin fun pin=>{pin with pinRetries:=pin.pinRetries-1}
    if (← gets (·.clientPin.pinRetries))=0 then fail .pinBlocked else fail .pinInvalid

def newPinToken : Ctap Unit:=do
  let token ← secureRandomFill 32
  updateClientPin fun pin=>{pin with pinToken:=token,pinTokenValid:=true}

def encryptToken (sharedSecret token : ByteArr 32) (protocol : UInt8) : Ctap Bytes:=do
  if protocol=2 then
    let iv ← secureRandomFill 16
    pure (iv.toList++cr.aesCbcEncrypt sharedSecret iv token.toList)
  else pure (cr.aesCbcEncrypt sharedSecret (zeros 16) token.toList)

def tokenResponse (encryptedToken : Bytes) : Ctap Bytes:=do
  let w : Writer:={size:=← env (·.responseSize)}
  pure (w.map 1 |>.uint 0x02 |>.bytes encryptedToken).out

def clientPinGetPinToken (params : Bytes) : Ctap Bytes:=do
  requirePinUsable
  initReader params
  let count ← orFail .invalidCbor (← cbor readMap)
  require (0 ≤ count) .invalidCbor
  let p ← orFail .invalidCbor (← cbor (iterateWhile count.toNat parsePinTokenPair {}))
  require (p.hasKey && p.hasPin) .missingParameter
  let sharedSecret ← orFail .other (clientPinComputeSharedSecret cr (← gets (·.clientPin.ecdhKey))
    (fit 32 p.platformKeyX) (fit 32 p.platformKeyY) p.pinProtocol)
  verifyPinHash (← orFail .other (decryptPinHash cr sharedSecret p))
  newPinToken
  let encryptedToken ← encryptToken cr sharedSecret (← gets (·.clientPin.pinToken)) p.pinProtocol
  let response ← tokenResponse encryptedToken
  updateClientPin fun pin=>{ pin with
    tokenPermissions:=0xFF,tokenRpIdSet:=false,grant:={permissions:=0xFF,rpId:=none} }
  pure response

def grantToken (p : PinTokenParams) : Ctap Unit:=
  updateClientPin fun pin=>
    let pin:={ pin with
      tokenPermissions:=p.permissions,grant:={permissions:=p.permissions,rpId:=p.rpIdText} }
    if (cstr p.rpId).isEmpty then {pin with tokenRpIdSet:=false}
    else {pin with tokenRpIdHash:=cr.sha256 (cstr p.rpId),tokenRpIdSet:=true}

def clientPinGetPinUvAuthToken (params : Bytes) : Ctap Bytes:=do
  requirePinUsable
  initReader params
  let count ← orFail .invalidCbor (← cbor readMap)
  require (0 ≤ count) .invalidCbor
  let pairs ← orFail .invalidCbor (← cbor (parsePinUvAuthTokenPairs count.toNat {}))
  let p ← orFail .invalidParameter pairs
  require (p.hasKey && p.hasPin) .missingParameter
  require p.hasPermissions .missingParameter
  let sharedSecret ← orFail .other (clientPinComputeSharedSecret cr (← gets (·.clientPin.ecdhKey))
    (fit 32 p.platformKeyX) (fit 32 p.platformKeyY) p.pinProtocol)
  verifyPinHash (← orFail .other (decryptPinHash cr sharedSecret p))
  newPinToken
  grantToken cr p
  let encryptedToken ← encryptToken cr sharedSecret (← gets (·.clientPin.pinToken)) p.pinProtocol
  tokenResponse encryptedToken

/-- The protocol and the sub-command of the request. The loop ends where a key cannot be read. -/
def parseClientPinPair (p : ℕ × ℕ) : Read (Option (ℕ × ℕ)):=do
  match ← attempt readUint with
  | none=>pure none
  | some 0x01=>pure (some ((← attempt readUint).getD p.1,p.2))
  | some 0x02=>pure (some (p.1,(← attempt readUint).getD p.2))
  | some _=>ignore (some p)

def clientPin (params : Bytes) : Ctap Bytes:=do
  when (!(← gets (·.clientPin.initialized))) (updateClientPin fun pin=>{ pin with
    pinRetries:=pinRetriesMax,uvRetries:=pinUvRetriesMax,initialized:=true })
  initReader params
  let count ← orFail .invalidCbor (← cbor readMap)
  require (0 ≤ count) .invalidCbor
  let (protocol,subCommand) ← orFail .invalidCbor
    (← cbor (iterateWhile count.toNat parseClientPinPair (0,0)))
  require (protocol == 0 || protocol == 2) .invalidParameter
  match subCommand with
  | 0x01=>clientPinGetRetries
  | 0x02=>clientPinGetKeyAgreement cr
  | 0x03=>fail .unsupportedOption
  | 0x04=>fail .unsupportedOption
  | 0x05=>clientPinGetPinToken cr params
  | 0x09=>clientPinGetPinUvAuthToken cr params
  | _=>fail .invalidCommand

end Command

end CdcBadge.Fido2
