import CdcBadge.PinManager

/-! # The operations of the PIN manager and the steps of a running badge -/

namespace CdcBadge.Pin

open Handler

section Operations

variable (cr : Crypto)

def init : PinM Bool:=do
  if ← pmGets (·.pinLoaded) then pure true
  else
    let loaded ← loadFromStorage cr
    let unreadable ← pmGets (·.storageUnreadable)
    if !loaded && unreadable then
      updatePm fun pm=>{pm with badgeRetries:=0}
      pure false
    else
      when (!loaded) do
        loadDefaults cr
        saveToStorage cr
      updatePm fun pm=>{ pm with
        pinLoaded:=true,badgeRetries:=if pm.badgeLockoutCount≠0 then 0 else 1 }
      startLockout
      pure true

/-- The operations that first make sure of a loaded record go on whatever `init` answers. -/
def ensureInit : PinM Unit:=do
  when (!(← pmGets (·.pinLoaded))) (init cr)

def verifyBadgePinHashCounted (hashIn : ByteArr 16) : PinM Bool:=do
  ensureInit cr
  checkAndResetExpiredLockout
  if (← pmGets (·.badgeRetries))=0 then pure false
  else
    updatePm fun pm=>{pm with badgeRetries:=pm.badgeRetries-1}
    if compareHash (← pmGets (·.badgeHash)) hashIn then
      updateTally fun _=>{}
      updatePm fun pm=>{pm with badgeRetries:=maxRetries,lockoutActive:=false,badgeLockoutCount:=0}
      when ((← pmGets (·.persistedBadgeLockoutCount))≠0) (saveToStorage cr)
      pure true
    else
      updateTally Tally.wrong
      when ((← pmGets (·.badgeRetries))=0) do
        updatePm fun pm=>{ pm with
          badgeLockoutCount:=if pm.badgeLockoutCount < 255 then pm.badgeLockoutCount+1
            else pm.badgeLockoutCount }
        updateTally Tally.lockout
        let _ ← saveToStorage cr
        startLockout
      pure false

def verifyBadgePin (pin : Bytes) : PinM Bool:=do
  ensureInit cr
  verifyBadgePinHashCounted cr (computeBadgeHash cr pin)

def pinStorageVerifyFido2Hash (hashIn : ByteArr 16) : PinM Bool:=do
  let _ ← init cr
  verifyBadgePinHashCounted cr hashIn

def digits (pin : Bytes) : Bool:=pin.all fun c=>0x30 ≤ c && c ≤ 0x39

def isDuressPin (pm : PinManager) (pin : Bytes) : Bool:=
  pm.duressSet && badgePinMin ≤ (cstr pin).length && (cstr pin).length ≤ badgePinMax &&
    match computeKdfHash cr pm.iterations (cstr pin) pm.duressSalt with
    | none=>false
    | some hash=>compareHash pm.duressHash hash

def setMinPinLengthFloor (minLen : UInt8) : PinM Unit:=
  updatePm fun pm=>{ pm with
    minPinFloor:=if minLen > 8 then 8 else if minLen < 4 then 4 else minLen }

def setBadgePin (newPin : Bytes) : PinM Bool:=do
  let pin:=cstr newPin
  let pm ← pmGets id
  if pin.length < max pm.minPinFloor.toNat badgePinMin ∨ badgePinMax < pin.length then pure false
  else if !digits pin then pure false
  else if pm.duressSet && isDuressPin cr pm newPin then pure false
  else
    updatePm fun pm=>{ pm with
      badgeHash:=computeBadgeHash cr newPin
      badgeRetries:=maxRetries
      badgeLockoutCount:=0
      lockoutActive:=false
      badgePinIsSet:=!compareHash (computeBadgeHash cr newPin) (computeBadgeHash cr defaultBadgePin) }
    let _ ← saveToStorage cr
    pure true

def changeBadgePin (currentPin newPin : Bytes) : PinM Bool:=do
  if ← verifyBadgePin cr currentPin then setBadgePin cr newPin else pure false

def resetBadgeRetries : PinM Unit:=do
  updatePm fun pm=>{pm with badgeRetries:=maxRetries,lockoutActive:=false}
  when ((← pmGets (·.badgeLockoutCount))≠0) do
    updatePm fun pm=>{pm with badgeLockoutCount:=0}
    saveToStorage cr

def setDuressPin (pin : Bytes) : PinM Bool:=do
  ensureInit cr
  let len:=(cstr pin).length
  if len < badgePinMin ∨ badgePinMax < len then pure false
  else if !digits (cstr pin) then pure false
  else if compareHash (← pmGets (·.badgeHash)) (computeBadgeHash cr pin) then pure false
  else
    let salt ← generateSalt
    updatePm fun pm=>{pm with duressSalt:=salt}
    match computeKdfHash cr (← pmGets (·.iterations)) (cstr pin) salt with
    | none=>pure false
    | some hash=>
      updatePm fun pm=>{pm with duressHash:=hash,duressSet:=true}
      let _ ← saveToStorage cr
      pure true

def clearDuressPin : PinM Bool:=do
  ensureInit cr
  if !(← pmGets (·.duressSet)) then pure true
  else
    updatePm fun pm=>{pm with duressSet:=false,duressSalt:=zeros 8,duressHash:=zeros 32}
    let _ ← saveToStorage cr
    pure true

/-- The two OpenPGP slots of `PinSlot`. -/
inductive Pw | pw1 | pw3 deriving DecidableEq, Repr

namespace Pw

def retries : Pw→PinManager→UInt8
  | .pw1, pm=>pm.pw1Retries
  | .pw3, pm=>pm.pw3Retries

def setRetries : Pw→UInt8→PinManager→PinManager
  | .pw1, n, pm=>{pm with pw1Retries:=n}
  | .pw3, n, pm=>{pm with pw3Retries:=n}

def mirror : Pw→PinManager→UInt8
  | .pw1, pm=>pm.persistedPw1Retries
  | .pw3, pm=>pm.persistedPw3Retries

def salt : Pw→PinManager→ByteArr 8
  | .pw1, pm=>pm.pw1Salt
  | .pw3, pm=>pm.pw3Salt

def setSalt : Pw→ByteArr 8→PinManager→PinManager
  | .pw1, x, pm=>{pm with pw1Salt:=x}
  | .pw3, x, pm=>{pm with pw3Salt:=x}

def hash : Pw→PinManager→ByteArr 32
  | .pw1, pm=>pm.pw1Hash
  | .pw3, pm=>pm.pw3Hash

def setHash : Pw→ByteArr 32→PinManager→PinManager
  | .pw1, x, pm=>{pm with pw1Hash:=x}
  | .pw3, x, pm=>{pm with pw3Hash:=x}

end Pw

def verifyPinRaw (pw : Pw) (data : Bytes) : PinM Bool:=do
  ensureInit cr
  let pm ← pmGets id
  if pw.retries pm=0 then pure false
  else match computeKdfHash cr pm.iterations data (pw.salt pm) with
    | none=>pure false
    | some inputHash=>
      let before:=pw.retries pm
      updatePm (pw.setRetries (before-1))
      -- The decrement is saved before the comparison whenever the chip holds more.
      let saved ← (if before-1 < pw.mirror pm then saveToStorage cr else pure true)
      if !saved then
        updatePm (pw.setRetries before)
        pure false
      else if compareHash (pw.hash pm) inputHash then
        updatePm (pw.setRetries maxRetries)
        when ((← pmGets pw.mirror)≠maxRetries) (saveToStorage cr)
        pure true
      else pure false

def verifyPw (pw : Pw) (pin : Bytes) : PinM Bool:=do
  ensureInit cr
  verifyPinRaw cr pw (cstr pin)

/-- A new reference value with a fresh salt and a full counter. A value that the KDF
does not take leaves the old hash. -/
def storePw (pw : Pw) (data : Bytes) : PinM Bool:=do
  let salt ← generateSalt
  updatePm (pw.setSalt salt)
  match computeKdfHash cr (← pmGets (·.iterations)) data salt with
  | none=>pure false
  | some hash=>
    updatePm (pw.setHash hash)
    updatePm (pw.setRetries maxRetries)
    let _ ← saveToStorage cr
    pure true

def setPw (pw : Pw) (minLen : ℕ) (newPin : Bytes) : PinM Bool:=do
  let len:=(cstr newPin).length
  if len < minLen ∨ pinMax < len then pure false else storePw cr pw (cstr newPin)

def setPwRaw (pw : Pw) (data : Bytes) : PinM Bool:=do
  if data.length≠32 ∧ data.length≠64 then pure false else storePw cr pw data

def resetPwRetries (pw : Pw) : PinM Unit:=do
  when ((← pmGets pw.retries) < maxRetries) do
    updatePm (pw.setRetries maxRetries)
    saveToStorage cr

def verifyPW1:=verifyPw cr .pw1
def verifyPW1Raw:=verifyPinRaw cr .pw1
def setPW1:=setPw cr .pw1 pw1Min
def setPW1Raw:=setPwRaw cr .pw1
def resetPW1Retries:=resetPwRetries cr .pw1
def verifyPW3:=verifyPw cr .pw3
def verifyPW3Raw:=verifyPinRaw cr .pw3
def setPW3:=setPw cr .pw3 pw3Min
def setPW3Raw:=setPwRaw cr .pw3
def resetPW3Retries:=resetPwRetries cr .pw3

def changePW1 (currentPin newPin : Bytes) : PinM Bool:=do
  if ← verifyPW1 cr currentPin then setPW1 cr newPin else pure false

def changePW3 (currentPin newPin : Bytes) : PinM Bool:=do
  if ← verifyPW3 cr currentPin then setPW3 cr newPin else pure false

end Operations

inductive PinOp
  | init
  | verifyBadgePin (pin : Bytes)
  | verifyBadgePinHashCounted (hashIn : ByteArr 16)
  | pinStorageVerifyFido2Hash (hashIn : ByteArr 16)
  | changeBadgePin (currentPin newPin : Bytes)
  | setBadgePin (newPin : Bytes)
  | setMinPinLengthFloor (minLen : UInt8)
  | resetBadgeRetries
  | startLockout
  | checkAndResetExpiredLockout
  | setDuressPin (pin : Bytes)
  | clearDuressPin
  | verifyPW1 (pin : Bytes)
  | verifyPW1Raw (data : Bytes)
  | changePW1 (currentPin newPin : Bytes)
  | setPW1 (newPin : Bytes)
  | setPW1Raw (data : Bytes)
  | resetPW1Retries
  | verifyPW3 (pin : Bytes)
  | verifyPW3Raw (data : Bytes)
  | changePW3 (currentPin newPin : Bytes)
  | setPW3 (newPin : Bytes)
  | setPW3Raw (data : Bytes)
  | resetPW3Retries
  | wait (ms : ℕ)
  | powerCycle
  deriving DecidableEq

/-- The operation, answering `true` where the source returns nothing. -/
def PinOp.run (cr : Crypto) : PinOp→PinM Bool
  | .init=>Pin.init cr
  | .verifyBadgePin pin=>Pin.verifyBadgePin cr pin
  | .verifyBadgePinHashCounted hashIn=>Pin.verifyBadgePinHashCounted cr hashIn
  | .pinStorageVerifyFido2Hash hashIn=>Pin.pinStorageVerifyFido2Hash cr hashIn
  | .changeBadgePin currentPin newPin=>Pin.changeBadgePin cr currentPin newPin
  | .setBadgePin newPin=>Pin.setBadgePin cr newPin
  | .setMinPinLengthFloor minLen=>do Pin.setMinPinLengthFloor minLen; pure true
  | .resetBadgeRetries=>do Pin.resetBadgeRetries cr; pure true
  | .startLockout=>do Pin.startLockout; pure true
  | .checkAndResetExpiredLockout=>do Pin.checkAndResetExpiredLockout; pure true
  | .setDuressPin pin=>Pin.setDuressPin cr pin
  | .clearDuressPin=>Pin.clearDuressPin cr
  | .verifyPW1 pin=>Pin.verifyPW1 cr pin
  | .verifyPW1Raw data=>Pin.verifyPW1Raw cr data
  | .changePW1 currentPin newPin=>Pin.changePW1 cr currentPin newPin
  | .setPW1 newPin=>Pin.setPW1 cr newPin
  | .setPW1Raw data=>Pin.setPW1Raw cr data
  | .resetPW1Retries=>do Pin.resetPW1Retries cr; pure true
  | .verifyPW3 pin=>Pin.verifyPW3 cr pin
  | .verifyPW3Raw data=>Pin.verifyPW3Raw cr data
  | .changePW3 currentPin newPin=>Pin.changePW3 cr currentPin newPin
  | .setPW3 newPin=>Pin.setPW3 cr newPin
  | .setPW3Raw data=>Pin.setPW3Raw cr data
  | .resetPW3Retries=>do Pin.resetPW3Retries cr; pure true
  | .wait ms=>do Handler.modify fun b=>{b with now:=b.now+ms}; pure true
  | .powerCycle=>stop ⟨⟩

/-- An operation with the outcomes of the loads and saves it makes and the salts it draws. -/
structure PinInput where
  op : PinOp
  loads : List LoadOutcome:=[]
  saves : List SaveOutcome:=[]
  salts : List (ByteArr 8):=[]

def Badge.reboot (b : Badge) : Badge:={b with pm:={},now:=0,tally:=b.tally.reboot}

def Badge.given (b : Badge) (i : PinInput) : Badge:=
  {b with loads:=i.loads,saves:=i.saves,salts:=i.salts}

def respond (cr : Crypto) (b : Badge) (i : PinInput) : Option Bool × Badge:=
  match i.op.run cr (b.given i) with
  | (.ok answer,b')=>(some answer,b')
  | (.error _,b')=>(none,b'.reboot)

def step (cr : Crypto) (b : Badge) (i : PinInput) : Badge:=(respond cr b i).2

end CdcBadge.Pin
