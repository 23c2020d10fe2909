import CdcBadge.Crypto
import CdcBadge.Runs

/-!
# The PIN manager

Badge PIN, PW1 and PW3 with their counters, the signed record in R-Memory slot 0,
and the operations on them. A step is one operation with what the chip makes of
its calls; power lost inside an operation starts the device again.
-/

namespace CdcBadge.Pin

open Handler

def badgePinMin : ℕ:=4
def badgePinMax : ℕ:=8
def pw1Min : ℕ:=6
def pw3Min : ℕ:=8
def pinMax : ℕ:=16
def rmemSlotPin : ℕ:=0
def attestationEccSlot : ℕ:=0
def kdfItersaltedS2k : UInt8:=0x03
def hashSha256 : UInt8:=0x08
def defaultIterations : UInt32:=100000
def maxRetries : UInt8:=3
def magic : UInt8:=0xE0
def payloadSize : ℕ:=147
def storageSize : ℕ:=211
def lockoutBaseMs : UInt32:=60000
def lockoutMaxShift : UInt8:=10

def defaultBadgePin : Bytes:=[0x31,0x32,0x33,0x34,0x35,0x36]

def defaultPw1 : Bytes:=defaultBadgePin

def defaultPw3 : Bytes:=[0x31,0x32,0x33,0x34,0x35,0x36,0x37,0x38]

/-- What the signed record holds. -/
structure PinRecord where
  badgeHash : ByteArr 16:=zeros 16
  badgeLockoutCount : UInt8:=0
  iterations : UInt32:=defaultIterations
  pw1Salt : ByteArr 8:=zeros 8
  pw3Salt : ByteArr 8:=zeros 8
  pw1Hash : ByteArr 32:=zeros 32
  pw3Hash : ByteArr 32:=zeros 32
  pw1Retries : UInt8:=maxRetries
  pw3Retries : UInt8:=maxRetries
  duressSet : Bool:=false
  duressSalt : ByteArr 8:=zeros 8
  duressHash : ByteArr 32:=zeros 32
  deriving DecidableEq

/-- The manager's memory as it is after power-on. -/
structure PinManager extends PinRecord where
  badgeRetries : UInt8:=maxRetries
  minPinFloor : UInt8:=4
  persistedBadgeLockoutCount : UInt8:=0
  persistedPw1Retries : UInt8:=maxRetries
  persistedPw3Retries : UInt8:=maxRetries
  pinLoaded : Bool:=false
  badgePinIsSet : Bool:=false
  storageUnreadable : Bool:=false
  lockoutStartMs : UInt32:=0
  lockoutActive : Bool:=false
  deriving DecidableEq

/-- What the chip makes of the calls of one `loadFromStorage`. -/
structure LoadOutcome where
  session : Bool:=true
  read : SeOutcome:=.done
  pubKey : SeOutcome:=.done
  deriving DecidableEq

/-- What the chip makes of the calls of one `saveToStorage`. -/
structure SaveOutcome where
  session : Bool:=true
  sign : SeOutcome:=.done
  nonce : ℕ:=0
  erase : SeOutcome:=.done
  write : SeOutcome:=.done
  deriving DecidableEq

/-- A count of compared badge PIN guesses, kept for stating properties. -/
structure Tally where
  /-- Wrong guesses since the last correct PIN. -/
  guesses : ℕ:=0
  /-- Those of them since the last lockout or power-on. -/
  pending : ℕ:=0
  /-- Those of them that were pending when power was cycled. -/
  forgotten : ℕ:=0
  /-- Power cycles since the last correct PIN. -/
  reboots : ℕ:=0
  deriving DecidableEq

namespace Tally

def wrong (t : Tally) : Tally:={t with guesses:=t.guesses+1,pending:=t.pending+1}

def lockout (t : Tally) : Tally:={t with pending:=0}

def reboot (t : Tally) : Tally:=
  {t with pending:=0,forgotten:=t.forgotten+t.pending,reboots:=t.reboots+1}

end Tally

/-- The manager with the chip, the time since power-on in milliseconds, and what is
left of the outcomes of the running operation. The last two fields are for stating
properties: the record and its replacement at the last save that reached the slot,
and the guesses compared. -/
structure Badge where
  pm : PinManager:={}
  chip : Chip Bytes
  now : ℕ:=0
  loads : List LoadOutcome:=[]
  saves : List SaveOutcome:=[]
  salts : List (ByteArr 8):=[]
  lastSave : Option (Option Bytes × Bytes):=none
  tally : Tally:={}

/-- Power was lost. -/
structure PowerLost
  deriving DecidableEq

abbrev PinM:=Handler PowerLost Badge

def updatePm (f : PinManager→PinManager) : PinM Unit:=modify fun b=>{b with pm:=f b.pm}

def pmGets {α : Type} (f : PinManager → α) : PinM α:=gets fun b=>f b.pm

def updateTally (f : Tally→Tally) : PinM Unit:=modify fun b=>{b with tally:=f b.tally}

def laterLoads : List LoadOutcome → List LoadOutcome
  | _::o::os=>o::os
  | os=>os

@[simp] theorem laterLoads_nil : laterLoads []=[]:=rfl

def nextLoad : PinM LoadOutcome:=
  fun b=>(.ok (b.loads.headD {}),{b with loads:=laterLoads b.loads})

def nextSave : PinM SaveOutcome:=
  fun b=>(.ok (b.saves.headD {}),{b with saves:=b.saves.tail})

def generateSalt : PinM (ByteArr 8):=
  fun b=>(.ok (b.salts.headD (zeros 8)),{b with salts:=b.salts.tail})

def seCall {α : Type} (o : SeOutcome) (call : Chip Bytes → SeReply α × Chip Bytes) : PinM (SeReply α):=
  fun b=>match Chip.perform o call b.chip with
    | (some reply,c)=>(.ok reply,{b with chip:=c})
    | (none,c)=>(.error ⟨⟩,{b with chip:=c})

def rmemRead (slot maxLen : ℕ) (c : Chip Bytes) : SeReply Bytes × Chip Bytes:=
  match Chip.rmemRead slot c with
  | (.ok data,c)=>if maxLen < data.length then (.error .invalidParam,c) else (.ok data,c)
  | reply=>reply

section Hashes

variable (cr : Crypto)

def computeBadgeHash (pin : Bytes) : ByteArr 16:=fit 16 (cr.sha256 (cstr pin)).toList

/-- The bytes the S2K loop hashes: `buffer` over and over, `remaining` bytes in all. -/
def s2kStream (buffer : Bytes) : ℕ → ℕ→Bytes
  | 0, _=>[]
  | fuel+1, remaining=>
    if remaining=0 then []
    else
      let chunk:=min remaining buffer.length
      buffer.take chunk++s2kStream buffer fuel (remaining-chunk)

def computeKdfHash (iterations : UInt32) (data : Bytes) (salt : ByteArr 8) : Option (ByteArr 32):=
  if 64 < data.length then none
  else some (cr.sha256 (s2kStream (salt.toList++data) iterations.toNat iterations.toNat))

end Hashes

def compareHash {n : ℕ} (h₁ h₂ : ByteArr n) : Bool:=
  (h₁.toList.zip h₂.toList).foldl (fun diff p=>diff ||| (p.1 ^^^ p.2)) 0 == 0

private theorem foldl_diff_eq_zero (l : List (UInt8 × UInt8)) (d : UInt8) :
    l.foldl (fun diff p=>diff ||| (p.1 ^^^ p.2)) d=0 ↔ d=0 ∧ ∀ p∈l, p.1=p.2:=by
  induction l generalizing d with
  | nil=>simp
  | cons p l ih=>
    rw [List.foldl_cons,ih]
    simp [and_assoc]

theorem compareHash_iff {n : ℕ} (h₁ h₂ : ByteArr n) : compareHash h₁ h₂=true ↔ h₁=h₂:=by
  obtain ⟨l₁,h₁⟩:=h₁
  obtain ⟨l₂,h₂⟩:=h₂
  simp only [compareHash,beq_iff_eq,List.Vector.toList,foldl_diff_eq_zero,true_and]
  constructor
  · intro h
    refine Subtype.ext (List.ext_getElem (h₁.trans h₂.symm) fun i hi hi'=>?_)
    have hlen : i < (l₁.zip l₂).length:=by
      rw [List.length_zip]
      exact lt_min hi hi'
    exact h (l₁[i],l₂[i]) (List.mem_iff_getElem.mpr ⟨i,hlen,by simp⟩)
  · intro h p hp
    cases h
    obtain ⟨i,hi,rfl⟩:=List.mem_iff_getElem.mp hp
    simp

def payload (r : PinRecord) : Bytes:=
  [magic]++r.badgeHash.toList++[r.badgeLockoutCount]++[kdfItersaltedS2k,hashSha256] ++
    be32 r.iterations++r.pw1Salt.toList++r.pw3Salt.toList++r.pw1Hash.toList++r.pw3Hash.toList ++
    [r.pw1Retries,r.pw3Retries,if r.duressSet then 0x01 else 0x00]++r.duressSalt.toList ++
    r.duressHash.toList

/-- The fields that `loadFromStorage` copies out of a stored record, one after the other. -/
def parsePayload (data : Bytes) : PinRecord:=
  let data:=data.drop 1
  let badgeHash:=fit 16 data
  let data:=data.drop 16
  let badgeLockoutCount:=data.getD 0 0
  -- The two KDF algorithm bytes are skipped.
  let data:=data.drop 3
  let iterations:=ofBe32 (data.getD 0 0) (data.getD 1 0) (data.getD 2 0) (data.getD 3 0)
  let data:=data.drop 4
  let pw1Salt:=fit 8 data
  let data:=data.drop 8
  let pw3Salt:=fit 8 data
  let data:=data.drop 8
  let pw1Hash:=fit 32 data
  let data:=data.drop 32
  let pw3Hash:=fit 32 data
  let data:=data.drop 32
  let pw1Retries:=data.getD 0 0
  let pw3Retries:=data.getD 1 0
  let duressSet:=data.getD 2 0 != 0
  let data:=data.drop 3
  let duressSalt:=fit 8 data
  let duressHash:=fit 32 (data.drop 8)
  { badgeHash,badgeLockoutCount,iterations,pw1Salt,pw3Salt,pw1Hash,pw3Hash,pw1Retries,pw3Retries,
    duressSet,duressSalt,duressHash }

section Storage

variable (cr : Crypto)

def verifyPayloadSignature (pubKey : SeOutcome) (payload : Bytes) (sig : ByteArr 64) : PinM Bool:=do
  match ← seCall pubKey (Chip.eccGetPublicKey attestationEccSlot) with
  | .error _=>pure false
  | .ok key=>
    if key.curve≠.p256 then pure false
    else pure (cr.ecdsaVerify (cr.publicKey key) (cr.sha256 payload) sig)

/-- The stored fields, with the mirrors in step and the badge PIN compared with the default. -/
def PinManager.load (pm : PinManager) (r : PinRecord) : PinManager:=
  { pm with
    toPinRecord:=r
    persistedBadgeLockoutCount:=r.badgeLockoutCount
    persistedPw1Retries:=r.pw1Retries
    persistedPw3Retries:=r.pw3Retries
    badgePinIsSet:=!compareHash r.badgeHash (computeBadgeHash cr defaultBadgePin) }

def loadFromStorage : PinM Bool:=do
  let o ← nextLoad
  if !o.session then pure false
  else
    updatePm fun pm=>{pm with storageUnreadable:=false}
    match ← seCall o.read (rmemRead rmemSlotPin storageSize) with
    | .error .slotEmpty=>pure false
    | .error _=>
      updatePm fun pm=>{pm with storageUnreadable:=true}
      pure false
    | .ok data=>
      if data.length≠storageSize ∨ data.head? ≠ some magic then pure false
      else
        let valid ← verifyPayloadSignature cr o.pubKey (data.take payloadSize) (fit 64 (data.drop payloadSize))
        if !valid then
          updatePm fun pm=>{pm with storageUnreadable:=true}
          pure false
        else
          updatePm fun pm=>pm.load cr (parsePayload data)
          pure true

/-- The chip signs the digest of `data` with the attestation key. -/
def attestationSign (data : Bytes) (nonce : ℕ) (c : Chip Bytes) : SeReply (ByteArr 64) × Chip Bytes:=
  match Chip.eccSigningKey attestationEccSlot c with
  | (.error e,c)=>(.error e,c)
  | (.ok key,c)=>
    if key.curve=.p256 then (.ok (cr.ecdsaSign key nonce (cr.sha256 data)),c) else (.error .error,c)

def noteSave (record : Bytes) : PinM Unit:=
  modify fun b=>{b with lastSave:=some (b.chip.rmem rmemSlotPin,record)}

/-- The end of `saveToStorage`: what the erase answers is ignored. -/
def replaceRecord (o : SaveOutcome) (record : Bytes) : PinM Bool:=do
  let _ ← seCall o.erase (Chip.rmemErase rmemSlotPin)
  match ← seCall o.write (Chip.rmemWrite rmemSlotPin record) with
  | .error _=>pure false
  | .ok _=>
    updatePm fun pm=>{ pm with
      persistedBadgeLockoutCount:=pm.badgeLockoutCount
      persistedPw1Retries:=pm.pw1Retries
      persistedPw3Retries:=pm.pw3Retries }
    pure true

def saveToStorage : PinM Bool:=do
  let o ← nextSave
  if !o.session then pure false
  else
    let data ← pmGets fun pm=>payload pm.toPinRecord
    if data.length≠payloadSize then pure false
    else
      match ← seCall o.sign (attestationSign cr data o.nonce) with
      | .error _=>pure false
      | .ok sig=>
        let record:=data++sig.toList
        noteSave record
        replaceRecord o record

def loadDefaults : PinM Unit:=do
  let pw1Salt ← generateSalt
  let pw3Salt ← generateSalt
  updatePm fun pm=>{ pm with
    badgeHash:=computeBadgeHash cr defaultBadgePin
    badgeRetries:=maxRetries
    badgeLockoutCount:=0
    pw1Salt:=pw1Salt
    pw3Salt:=pw3Salt
    -- The iteration count is reset only after the two hashes are computed.
    pw1Hash:=(computeKdfHash cr pm.iterations defaultPw1 pw1Salt).getD pm.pw1Hash
    pw3Hash:=(computeKdfHash cr pm.iterations defaultPw3 pw3Salt).getD pm.pw3Hash
    iterations:=defaultIterations
    pw1Retries:=maxRetries
    pw3Retries:=maxRetries
    badgePinIsSet:=false
    duressSet:=false
    duressSalt:=zeros 8
    duressHash:=zeros 32 }

end Storage

def lockoutDurationMs (lockoutCount : UInt8) : UInt32:=
  let shift:=if lockoutCount > 0 then lockoutCount-1 else 0
  lockoutBaseMs <<< (if shift > lockoutMaxShift then lockoutMaxShift else shift).toUInt32

def startLockout : PinM Unit:=
  modify fun b=>{b with pm:={b.pm with lockoutStartMs:=UInt32.ofNat b.now,lockoutActive:=true}}

def lockoutRemainingMs (pm : PinManager) (now : ℕ) : UInt32:=
  if !pm.lockoutActive then 0
  else
    let elapsed:=UInt32.ofNat now-pm.lockoutStartMs
    let duration:=lockoutDurationMs pm.badgeLockoutCount
    if elapsed ≥ duration then 0 else duration-elapsed

def isLockoutActive (pm : PinManager) (now : ℕ) : Bool:=
  pm.lockoutActive && lockoutRemainingMs pm now > 0

def isBadgeBlocked (pm : PinManager) : Bool:=pm.badgeRetries == 0

def checkAndResetExpiredLockout : PinM Unit:=do
  let active ← pmGets (·.lockoutActive)
  let remaining ← gets fun b=>lockoutRemainingMs b.pm b.now
  if !active then pure ()
  else if remaining > 0 then pure ()
  else updatePm fun pm=>{pm with lockoutActive:=false,badgeRetries:=maxRetries}

end CdcBadge.Pin
