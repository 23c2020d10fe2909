import CdcBadge.Fido2Storage

/-! # Authenticator data, attestation, and the checks that every command shares -/

namespace CdcBadge.Fido2

open Handler Cbor

def aaguid : Bytes:=
  [0xCD,0xCB,0xAD,0x6E,0x39,0xC3,0x00,0x01,0xBA,0xD6,0xE0,0x01,0x00,0x00,0x00,0x01]

def buildAuthenticatorData (rpIdHash : ByteArr 32) (flags : UInt8) (signCount : UInt32)
    (attestedCred ext : Bytes) : Bytes:=
  rpIdHash.toList++[if ext.isEmpty then flags else flags ||| 0x80]++be32 signCount++attestedCred++ext

def encodeCoseKey (curve : EccCurve) (pubkey : ByteArr 64) (w : Writer) : Writer:=
  match curve with
  | .ed25519=>w.coseKeyEd25519 (pubkey.toList.take 32)
  | .p256=>w.coseKeyP256 (pubkey.toList.take 32) (pubkey.toList.drop 32)

def attestedCredSize : ℕ:=256

def buildAttestedCred (credId : Bytes) (pubkey : ByteArr 64) (curve : EccCurve) : Option Bytes:=
  let head:=aaguid++[UInt8.ofNat (credId.length/256),UInt8.ofNat credId.length]++credId
  if attestedCredSize < head.length then none
  else
    (encodeCoseKey curve pubkey {size:=attestedCredSize-head.length}).output.map (head ++ ·)

def extSize : ℕ:=32

def buildCredProtectExtension (level : UInt8) : Bytes:=
  if level=0 then []
  else
    let w : Writer:={size:=extSize}
    (w.map 1 |>.text (ascii "credProtect") |>.uint level.toNat).output.getD []

def buildAppidExtension : Bytes:=
  let w : Writer:={size:=extSize}
  (w.map 1 |>.text (ascii "appid") |>.bool true).output.getD []

def flagUp : UInt8:=0x01

def flagUv : UInt8:=0x04

def flagAt : UInt8:=0x40

def buildAuthDataForCred (rpIdHash : ByteArr 32) (attestedCred : Bytes) (credProtect : UInt8)
    (uvVerified : Bool) : Bytes:=
  let flags:=flagUp ||| flagAt
  buildAuthenticatorData rpIdHash (if uvVerified then flags ||| flagUv else flags) 0 attestedCred
    (buildCredProtectExtension credProtect)

def u2fAttestSlot : ℕ:=0

def u2fInitAttestation : Ctap (Option Bytes):=do
  match ← gets (·.attestCert) with
  | some cert=>pure (some cert)
  | none=>
    match ← seCall (Chip.eccGetPublicKey u2fAttestSlot) with
    | .error _=>pure none
    | .ok key=>
      if key.curve≠.p256 then pure none
      else
        let cert ← env (·.attestation)
        modify fun w=>{w with attestCert:=cert}
        pure cert

/-- A DER INTEGER of a big-endian magnitude: leading zeros go, and a zero stands before a set top bit. -/
def encodeDerInteger (mpi : Bytes) : Bytes:=
  let digits:=match mpi.dropWhile (· == 0) with
    | []=>[0]
    | ds=>ds
  let digits:=if digits.headD 0 &&& 0x80≠0 then 0::digits else digits
  0x02::UInt8.ofNat digits.length::digits

def rawSigToDer (sig : ByteArr 64) : Bytes:=
  let body:=encodeDerInteger (sig.toList.take 32)++encodeDerInteger (sig.toList.drop 32)
  0x30::UInt8.ofNat body.length::body

section Crypto

variable (cr : FidoCrypto)

def u2fAttestSign (data : Bytes) : Ctap (Option Bytes):=do
  match ← seCall (signingKey .p256 u2fAttestSlot) with
  | .error _=>pure none
  | .ok key=>
    let nonce ← freshSecret
    pure (some (rawSigToDer (cr.chipSign key nonce data)))

def u2fAttestationSign (data : Bytes) : Ctap (Option Bytes):=do
  match ← u2fInitAttestation with
  | none=>pure none
  | some _=>u2fAttestSign cr data

def permMakeCredential : UInt8:=0x01

def permGetAssertion : UInt8:=0x02

def permCredMgmt : UInt8:=0x04

def permLargeBlobWrite : UInt8:=0x10

def permAuthnConfig : UInt8:=0x20

def ClientPin.permits (pin : ClientPin) (permission : UInt8) : Bool:=
  pin.tokenPermissions &&& permission != 0

def pinUvAuthParamMatches (token : ByteArr 32) (message : Bytes) (protocol : UInt8) (param : Bytes) : Bool:=
  let compareLen:=if protocol=2 then 32 else 16
  compareLen ≤ param.length &&
    param.take compareLen == (cr.hmacSha256 token.toList message).toList.take compareLen

/-- The check that makeCredential and getAssertion make of a `pinUvAuthParam`: whether the user is
verified. Without a parameter nothing is checked. -/
def verifyPinUvAuthParam (permission : UInt8) (rpIdHash clientDataHash : ByteArr 32) (protocol : UInt8)
    (param : Bytes) : Ctap Bool:=do
  if param.length=0 then pure false
  else
    let pin ← gets (·.clientPin)
    require pin.pinTokenValid .pinAuthInvalid
    require (pin.permits permission) .pinAuthInvalid
    require (!pin.tokenRpIdSet || pin.tokenRpIdHash == rpIdHash) .pinAuthInvalid
    require (pinUvAuthParamMatches cr pin.pinToken clientDataHash.toList protocol param) .pinAuthInvalid
    modify fun w=>{w with pinVerified:=true}
    pure true

/-- The check of the other commands. It does not ask for the RP the token is bound to. -/
def verifyTokenOverMessage (message : Bytes) (protocol : UInt8) (param : Bytes) (requiredPerm : UInt8) :
    Ctap Unit:=do
  let pin ← gets (·.clientPin)
  require pin.pinTokenValid .pinAuthInvalid
  require (requiredPerm == 0 || pin.permits requiredPerm) .pinAuthInvalid
  require (pinUvAuthParamMatches cr pin.pinToken message protocol param) .pinAuthInvalid

end Crypto

def noteAct (permission : UInt8) (rpIdHashes : List (ByteArr 32)) : Ctap Unit:=
  modify fun w=>{ w with acts:=w.acts ++
    [{grant:=w.clientPin.grant,permission:=permission,rpIdHashes:=rpIdHashes}] }

def waitForUserPresence : Ctap Bool:=env (·.presence)

def requireUserPresence : Ctap Unit:=do
  require (← waitForUserPresence) .operationDenied

def orFail {α : Type} (s : Status) : Option α → Ctap α
  | some a=>pure a
  | none=>fail s

def overwrite {α : Type} (data buffer : List α) : List α:=data++buffer.drop data.length

def textMap {α : Type} (keyLen : ℕ) (value : Bytes → α→Read α) (a : α) : Read α:=do
  let count ← readMap
  if count < 0 then stop ()
  else iterate count.toNat (textPair keyLen value) a

def ignore {α : Type} (a : α) : Read α:=do
  trySkip
  pure a

end CdcBadge.Fido2
