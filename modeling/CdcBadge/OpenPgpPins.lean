import CdcBadge.OpenPgpStorage

/-!
# The passwords of the OpenPGP card

`VERIFY`, `CHANGE REFERENCE DATA`, `RESET RETRY COUNTER`, the Resetting Code and the
KDF data object, and the end of the card's life and its return to the factory state.
-/

namespace CdcBadge.OpenPgp

open Handler
open Pin (Pw Badge)

/-- A command APDU after its blocks are put together. -/
structure Cmd where
  ins : UInt8
  p1 : UInt8
  p2 : UInt8
  data : Bytes
  le : ℕ
  /-- The data are in the chain buffer. Where they are empty, a command in one piece has no pointer to any. -/
  chained : Bool:=false

def kdfAlgoNone : UInt8:=0x00
def kdfAlgoPbkdf2 : UInt8:=0x03
def kdfHashNone : UInt8:=0x00
def kdfHashSha256 : UInt8:=0x08
def kdfHashSha512 : UInt8:=0x0A

/-- What the card uses of a KDF data object. -/
structure KdfDo where
  algo : UInt8:=kdfAlgoNone
  hash : UInt8:=kdfHashNone
  pw1Initial : Option Bytes:=none
  pw3Initial : Option Bytes:=none

/-- One inner tag. The iteration count and the salts are only checked for their lengths. -/
def kdfTag (tag : UInt8) (v : Bytes) (d : KdfDo) : Option KdfDo:=
  if tag=0x81 then
    if v=[kdfAlgoNone] ∨ v=[kdfAlgoPbkdf2] then some {d with algo:=v.headD 0} else none
  else if tag=0x82 then
    if v=[kdfHashNone] ∨ v=[kdfHashSha256] ∨ v=[kdfHashSha512] then some {d with hash:=v.headD 0}
    else none
  else if tag=0x83 then if v.length=4 then some d else none
  else if tag=0x84 ∨ tag=0x85 ∨ tag=0x86 then if v.length=8 then some d else none
  else if tag=0x87 then
    if v.length=32 ∨ v.length=64 then some {d with pw1Initial:=some v} else none
  else if tag=0x88 then
    if v.length=32 ∨ v.length=64 then some {d with pw3Initial:=some v} else none
  else none

def kdfTags : ℕ→Bytes→KdfDo→Option KdfDo
  | _, [], d=>some d
  | fuel+1, tag::len::rest, d=>
    if rest.length < len.toNat then none
    else (kdfTag tag (rest.take len.toNat) d).bind (kdfTags fuel (rest.drop len.toNat))
  | _, _, _=>none

def kdfDoParse (data : Bytes) : Option KdfDo:=kdfTags data.length data {}

def kdfHashLen (hash : UInt8) : UInt8:=if hash=kdfHashSha512 then 64 else 32

section Pins

variable (cr : GpgCrypto)

def verifyPw (pw : Pw) (pin : Bytes) : CardM Bool:=onPins (Pin.verifyPw cr.toCrypto pw pin)

def verifyPwRaw (pw : Pw) (data : Bytes) : CardM Bool:=onPins (Pin.verifyPinRaw cr.toCrypto pw data)

/-- `pin_storage_openpgp_change_pw1` and `pin_storage_openpgp_change_pw3`. -/
def changePw : Pw→Bytes → CardM Bool
  | .pw1, pin=>onPins (Pin.setPW1 cr.toCrypto pin)
  | .pw3, pin=>onPins (Pin.setPW3 cr.toCrypto pin)

def setPwRaw (pw : Pw) (data : Bytes) : CardM Bool:=onPins (Pin.setPwRaw cr.toCrypto pw data)

def resetPwRetries (pw : Pw) : CardM Unit:=onPins (Pin.resetPwRetries cr.toCrypto pw)

def pwRetries (pw : Pw) : CardM UInt8:=gets fun c=>pw.retries c.badge.pm

def retriesReply (pw : Pw) : CardM Reply:=do
  let retries ← pwRetries pw
  if retries=0 then apduSw swAuthMethodBlocked else apduSw (swRetries retries)

def cmdVerify (c : Cmd) : CardM Reply:=
  if c.p2=pw1Code1 ∨ c.p2=pw1Code2 then
    if c.data=[] then retriesReply .pw1
    else do
      let kdfActive ← appGets (·.kdfActive)
      if kdfActive ∨ c.data.length=32 ∨ c.data.length=64 then
        -- A reference of the key derivation function leaves no session PIN.
        if ← verifyPwRaw cr .pw1 c.data then
          updateApp fun a=>{a with pw1Verified:=true,sessionPin:=[]}
          apduSw swOk
        else retriesReply .pw1
      else if pinMaxLen < c.data.length then apduSw swWrongLength
      else if ← verifyPw cr .pw1 c.data then
        updateApp fun a=>{a with pw1Verified:=true,sessionPin:=cstr c.data}
        apduSw swOk
      else retriesReply .pw1
  else if c.p2=pw3Code then
    if c.data=[] then retriesReply .pw3
    else do
      let kdfActive ← appGets (·.kdfActive)
      if kdfActive ∨ c.data.length=32 ∨ c.data.length=64 then
        if ← verifyPwRaw cr .pw3 c.data then
          updateApp fun a=>{a with pw3Verified:=true}
          apduSw swOk
        else retriesReply .pw3
      else if pinMaxLen < c.data.length then apduSw swWrongLength
      else if ← verifyPw cr .pw3 c.data then
        updateApp fun a=>{a with pw3Verified:=true}
        apduSw swOk
      else retriesReply .pw3
  else apduSw swIncorrectP1P2

/-- `peek_verify_pin`: no counter is touched. -/
def peekVerifyPin (pw : Pw) (pin : Bytes) : CardM Bool:=do
  let pm ← gets (·.badge.pm)
  match Pin.computeKdfHash cr.toCrypto pm.iterations (cstr pin) (pw.salt pm) with
  | none=>pure false
  | some candidate=>pure (Pin.compareHash candidate (pw.hash pm))

def splitLengths (len minLen : ℕ) : List ℕ:=
  (List.range' minLen (len+1-2*minLen)).filter fun n=>n ≤ pinMaxLen ∧ len-n ≤ pinMaxLen

def tryChangePin (pw : Pw) (data : Bytes) : List ℕ → CardM Bool
  | []=>pure false
  | oldLen::rest=>do
    if ← peekVerifyPin cr pw (data.take oldLen) then
      if ← changePw cr pw (data.drop oldLen) then pure true else tryChangePin pw data rest
    else tryChangePin pw data rest

def changeRaw (pw : Pw) (verified : CardM Bool) (newRaw : Bytes) : CardM Reply:=do
  if ← verified then
    if ← setPwRaw cr pw newRaw then apduSw swOk else apduSw swWrongData
  else retriesReply pw

def newRawLen (len minLen : ℕ) : ℕ:=
  if minLen+64 ≤ len ∧ len-64 ≤ pinMaxLen then 64
  else if minLen+32 ≤ len ∧ len-32 ≤ pinMaxLen then 32
  else 0

def changeReferenceData (pw : Pw) (minLen : ℕ) (data : Bytes) : CardM Reply:=do
  let kdfActive ← appGets (·.kdfActive)
  let kdfPinLen ← appGets fun a=>a.kdfPinLen.toNat
  let newRaw:=newRawLen data.length minLen
  if kdfActive then
    if data.length≠2*kdfPinLen then apduSw swWrongLength
    else changeRaw cr pw (verifyPwRaw cr pw (data.take kdfPinLen)) (data.drop kdfPinLen)
  else if newRaw≠0 then
    changeRaw cr pw (verifyPw cr pw (data.take (data.length-newRaw))) (data.drop (data.length-newRaw))
  else if data.length < 2*minLen then apduSw swWrongLength
  else if (← pwRetries pw)=0 then apduSw swAuthMethodBlocked
  else
    -- The verification of an empty PIN pays for the search, whatever it answers.
    let _ ← verifyPw cr pw []
    if ← tryChangePin cr pw data (splitLengths data.length minLen) then apduSw swOk else retriesReply pw

def cmdChangeReferenceData (c : Cmd) : CardM Reply:=
  if c.data=[] then apduSw swWrongLength
  else if c.p2=pw1Code1 then changeReferenceData cr .pw1 pw1MinLen c.data
  else if c.p2=pw3Code then changeReferenceData cr .pw3 pw3MinLen c.data
  else apduSw swIncorrectP1P2

def computeRcHash (rc : Bytes) (salt : ByteArr 16) : Option (ByteArr 32):=
  if rc=[] ∨ pinMaxLen < rc.length then none
  else some (cr.sha256 (Pin.s2kStream (salt.toList++rc) rcKdfTotalBytes rcKdfTotalBytes))

def putDataRc (data : Bytes) : CardM Reply:=
  if data=[] then do
    updateApp fun a=>{a with rcSalt:=zeros 16,rcHash:=zeros 32,rcLen:=0,rcRetries:=3}
    saveStateToNvs cr
    apduSw swOk
  else if data.length < rcMinLen ∨ pinMaxLen < data.length then apduSw swWrongLength
  else do
    let salt ← randomFill 16
    match computeRcHash cr data salt with
    | none=>apduSw swUnknown
    | some hash=>
      updateApp fun a=>{a with rcSalt:=salt,rcHash:=hash,rcLen:=data.length,rcRetries:=3}
      saveStateToNvs cr
      apduSw swOk

/-- `RESET RETRY COUNTER` with the Resetting Code: it is compared before its counter is lowered. -/
def resetWithRc (data : Bytes) : CardM Reply:=do
  let rcLen ← appGets (·.rcLen)
  let salt ← appGets (·.rcSalt)
  if rcLen=0 then apduSw swConditionsNotSatisfied
  else if (← appGets (·.rcRetries))=0 then apduSw swAuthMethodBlocked
  else if data.length < rcLen+pw1MinLen ∨ pinMaxLen < data.length-rcLen then apduSw swWrongLength
  else
    match computeRcHash cr (data.take rcLen) salt with
    | none=>apduSw swUnknown
    | some inputHash=>
      if Pin.compareHash (← appGets (·.rcHash)) inputHash then
        if ← changePw cr .pw1 (data.drop rcLen) then
          resetPwRetries cr .pw1
          updateApp fun a=>{a with rcRetries:=3,pw1Verified:=false}
          saveStateToNvs cr
          apduSw swOk
        else apduSw swUnknown
      else
        updateApp fun a=>{a with rcRetries:=if 0 < a.rcRetries then a.rcRetries-1 else a.rcRetries}
        saveStateToNvs cr
        let retries ← appGets (·.rcRetries)
        if retries=0 then apduSw swAuthMethodBlocked else apduSw (swRetries retries)

/-- `RESET RETRY COUNTER` by the administrator. -/
def resetByAdmin (data : Bytes) : CardM Reply:=do
  let kdfActive ← appGets (·.kdfActive)
  if !(← appGets (·.pw3Verified)) then apduSw swSecurityNotSatisfied
  else if kdfActive ∨ data.length=32 ∨ data.length=64 then
    if ← setPwRaw cr .pw1 data then
      resetPwRetries cr .pw1
      updateApp fun a=>{a with pw1Verified:=false}
      apduSw swOk
    else apduSw swWrongLength
  else if data.length < pw1MinLen ∨ pinMaxLen < data.length then apduSw swWrongLength
  else if ← changePw cr .pw1 data then
    resetPwRetries cr .pw1
    updateApp fun a=>{a with pw1Verified:=false}
    apduSw swOk
  else apduSw swUnknown

def cmdResetRetryCounter (c : Cmd) : CardM Reply:=
  if c.p2≠pw1Code1 then apduSw swIncorrectP1P2
  else if c.p1=0x00 then resetWithRc cr c.data
  else if c.p1=0x02 then resetByAdmin cr c.data
  else apduSw swIncorrectP1P2

/-- A reference value that came with the data object; whether it was taken is ignored. -/
def setInitial (pw : Pw) : Option Bytes → CardM Unit
  | none=>pure ()
  | some v=>do let _ ← setPwRaw cr pw v; pure ()

def applyKdfDo (data : Bytes) : CardM Reply:=
  match kdfDoParse data with
  | none=>apduSw swWrongData
  | some d=>
    if 124 < data.length then apduSw swWrongLength
    else if d.algo=kdfAlgoNone then do
      updateApp fun a=>{a with kdfActive:=false,kdfPinLen:=0,kdfDo:=data}
      let _ ← changePw cr .pw1 Pin.defaultPw1
      let _ ← changePw cr .pw3 Pin.defaultPw3
      saveStateToNvs cr
      apduSw swOk
    else if d.hash≠kdfHashSha256 ∧ d.hash≠kdfHashSha512 then apduSw swWrongData
    else do
      updateApp fun a=>{a with kdfActive:=true,kdfPinLen:=kdfHashLen d.hash,kdfDo:=data}
      setInitial cr .pw1 d.pw1Initial
      setInitial cr .pw3 d.pw3Initial
      saveStateToNvs cr
      apduSw swOk

def eccDelete (r : Role) : CardM Unit:=do
  let _ ← seCall (Chip.eccDelete r.slot)
  pure ()

/-- `save_cardholder_cert`; an empty one is erased. -/
def saveCardholderCert (data : Bytes) : CardM Bool:=
  nvsWrite fun c=>{c with cert:=if data=[] then none else some data}

/-- `pin_storage_openpgp_reset`. -/
def pinStorageReset : CardM Bool:=do
  let ok1 ← changePw cr .pw1 Pin.defaultPw1
  let ok3 ← changePw cr .pw3 Pin.defaultPw3
  resetPwRetries cr .pw1
  resetPwRetries cr .pw3
  pure (ok1 && ok3)

def openpgpFactoryReset : CardM Unit:=do
  eccDelete .sig
  eccDelete .aut
  let _ ← gpgStorageDeleteDecPrivkey
  let _ ← gpgStorageDeleteRsaKey .sig
  let _ ← gpgStorageDeleteRsaKey .dec
  let _ ← gpgStorageDeleteRsaKey .aut
  let _ ← pinStorageReset cr
  let _ ← saveCardholderCert []
  updateApp fun a=>{a with toCardData:={},pw1Verified:=false,pw3Verified:=false}
  saveStateToNvs cr

def cmdTerminateDf (c : Cmd) : CardM Reply:=
  if c.p1≠0x00 ∨ c.p2≠0x00 then apduSw swIncorrectP1P2
  else do
    let bothBlocked:=(← pwRetries .pw1)=0 ∧ (← pwRetries .pw3)=0
    if !(← appGets (·.pw3Verified)) ∧ ¬bothBlocked then apduSw swSecurityNotSatisfied
    else
      updateApp fun a=>{a with cardTerminated:=true,pw1Verified:=false,pw3Verified:=false}
      saveStateToNvs cr
      apduSw swOk

def cmdActivateFile (c : Cmd) : CardM Reply:=
  if c.p1≠0x00 ∨ c.p2≠0x00 then apduSw swIncorrectP1P2
  else do
    if !(← appGets (·.cardTerminated)) then apduSw swOk
    else
      openpgpFactoryReset cr
      apduSw swOk

end Pins

end CdcBadge.OpenPgp
