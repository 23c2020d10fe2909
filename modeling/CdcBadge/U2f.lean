import CdcBadge.AuthenticatorData

/-! # U2F register and authenticate -/

namespace CdcBadge.Fido2

open Handler Cbor

def u2fSwConditionsNotSatisfied : UInt16:=0x6985

def u2fSwWrongData : UInt16:=0x6A80

def u2fSwWrongLength : UInt16:=0x6700

def u2fSwClaNotSupported : UInt16:=0x6E00

def u2fSwInsNotSupported : UInt16:=0x6D00

def u2fSwWtf : UInt16:=0x6F00

def u2fKeyHandleSize : ℕ:=64

def u2fMaxEcSigSize : ℕ:=72

def u2fAuthCheckOnly : UInt8:=0x07

def u2fAuthEnforce : UInt8:=0x03

def failWord {α : Type} (sw : UInt16) : Ctap α:=stop (.statusWord sw)

def requireWord (b : Bool) (sw : UInt16) : Ctap Unit:=check b (.statusWord sw)

def orFailWord {α : Type} (sw : UInt16) : Option α → Ctap α
  | some a=>pure a
  | none=>failWord sw

def isDummyApplication (application : ByteArr 32) : Bool:=
  application.toList.all (· == application.toList.headD 0)

def hexDigit (n : ℕ) : UInt8:=UInt8.ofNat (if n < 10 then 0x30+n else 0x61+(n-10))

def u2fRpId (application : ByteArr 32) : Bytes:=
  ascii "U2F:"++(application.toList.take 4).flatMap fun b=>[hexDigit (b.toNat/16),hexDigit (b.toNat % 16)]

section Command

variable (cr : FidoCrypto)

def registrationData (challenge application : ByteArr 32) (keyHandle : Bytes) (pubkey : ByteArr 64) : Bytes:=
  [0x00]++application.toList++challenge.toList++keyHandle++[0x04]++pubkey.toList

def registrationHead (keyHandle : Bytes) (pubkey : ByteArr 64) : Bytes:=
  [0x05,0x04]++pubkey.toList++[UInt8.ofNat u2fKeyHandleSize]++keyHandle

/-- A browser asks which authenticator to use: the answer is random and nothing is stored. -/
def u2fRegisterDummy (challenge application : ByteArr 32) : Ctap Bytes:=do
  requireWord (← waitForUserPresence) u2fSwConditionsNotSatisfied
  let keyHandle ← orFailWord u2fSwWtf (← getRandom u2fKeyHandleSize).toOption
  let pubkey ← orFailWord u2fSwWtf (← getRandom 64).toOption
  let head:=registrationHead keyHandle.toList pubkey
  let cert:=(← gets (·.attestCert)).getD []
  requireWord (head.length+cert.length+u2fMaxEcSigSize+2 ≤ (← env (·.responseSize))) u2fSwWrongLength
  let sig ← orFailWord u2fSwWrongData
    (← u2fAttestSign cr (registrationData challenge application keyHandle.toList pubkey))
  pure (head++cert++sig++[0x90,0x00])

/-- Where a step gives no result, the new credential is deleted and the command fails. -/
def orUnregister {α : Type} (slot : ℕ) (sw : UInt16) : Option α → Ctap α
  | some a=>pure a
  | none=>do
    let _ ← fido2StorageDeleteCredential slot
    failWord sw

def u2fRegister (challenge application : ByteArr 32) : Ctap Bytes:=do
  if isDummyApplication application then u2fRegisterDummy cr challenge application
  else
    requireWord (← waitForUserPresence) u2fSwConditionsNotSatisfied
    let created ← orFailWord u2fSwWrongData (← fido2StorageCreateCredential cr (u2fRpId application)
      application [0] 1 (ascii "U2F") false 0 .p256)
    let slot:=created.slot
    let head:=registrationHead created.credId created.pubkey
    let cert ← orUnregister slot u2fSwWrongData (← u2fInitAttestation)
    let size ← env (·.responseSize)
    let _ ← orUnregister slot u2fSwWrongLength
      (if head.length+cert.length+u2fMaxEcSigSize+2 ≤ size then some () else none)
    let sig ← orUnregister slot u2fSwWrongData
      (← u2fAttestSign cr (registrationData challenge application created.credId created.pubkey))
    pure (head++cert++sig++[0x90,0x00])

def u2fAuthenticate (p1 : UInt8) (challenge application : ByteArr 32) (keyHandle : Bytes) : Ctap Bytes:=do
  requireWord (keyHandle.length == u2fKeyHandleSize) u2fSwWrongData
  let slot ← orFailWord u2fSwWrongData (← fido2StorageFindSlotByCredId keyHandle)
  let cred ← orFailWord u2fSwWrongData (← fido2StorageGetCredential slot)
  requireWord (cred.rpIdHash == application) u2fSwWrongData
  requireWord (p1 != u2fAuthCheckOnly) u2fSwConditionsNotSatisfied
  requireWord (p1 == u2fAuthEnforce) u2fSwWrongData
  requireWord (← waitForUserPresence) u2fSwConditionsNotSatisfied
  let counter ← fido2StorageIncrementSignCount slot
  requireWord (counter != 0) u2fSwConditionsNotSatisfied
  let _ ← fido2StorageCounterIncrement
  let info:=(← gets (·.storage)).lookup slot
  let signature ← orFailWord u2fSwWrongData (← fido2StorageSignRaw cr slot
    (application.toList++[0x01]++be32 counter++challenge.toList)
    {uv:=false,byId:=true,creds:=(info.map fun c=>(slot,c.toCredInfo)).toList})
  pure ([0x01]++be32 counter++signature.toList++[0x90,0x00])

def apduData (apdu : Bytes) : Bytes:=
  if apdu.getD 4 0=0 ∧ 6 < apdu.length then
    (apdu.drop 7).take ((apdu.getD 5 0).toNat*256+(apdu.getD 6 0).toNat)
  else (apdu.drop 5).take (apdu.getD 4 0).toNat

def u2fProcessApdu (apdu : Bytes) : Ctap Bytes:=do
  requireWord (4 ≤ apdu.length) u2fSwWrongLength
  requireWord (apdu.getD 0 0 == 0) u2fSwClaNotSupported
  let data:=apduData apdu
  match (apdu.getD 1 0).toNat with
  | 0x01=>
    requireWord (64 ≤ data.length) u2fSwWrongLength
    u2fRegister cr (fit 32 data) (fit 32 (data.drop 32))
  | 0x02=>
    requireWord (65 ≤ data.length) u2fSwWrongLength
    let keyHandleLen:=(data.getD 64 0).toNat
    requireWord (65+keyHandleLen ≤ data.length) u2fSwWrongLength
    u2fAuthenticate cr (apdu.getD 2 0) (fit 32 data) (fit 32 (data.drop 32)) ((data.drop 65).take keyHandleLen)
  | 0x03=>pure (ascii "U2F_V2"++[0x90,0x00])
  | _=>failWord u2fSwInsNotSupported

end Command

end CdcBadge.Fido2
