import CdcBadge.Fido2State

/-! # The credential store: keys, records and their cache -/

namespace CdcBadge.Fido2

open Handler

def slots : List ℕ:=List.range (min slotCount fido2MaxCredentials)

def slotLogicalValid (slot : ℕ) : Bool:=slot < slotCount

def eccSlotForLogical (slot : ℕ) : ℕ:=eccStart+slot

def rmemSlotForLogical (slot : ℕ) : ℕ:=rmemStart+slot

def readRmemCredential (slot : ℕ) : Ctap (Option StoredCred):=do
  match ← seCall (Chip.rmemRead (rmemSlotForLogical slot)) with
  | .ok (.cred stored)=>pure (some stored)
  | _=>pure none

def eraseSlotData (slot : ℕ) : Ctap Unit:=do
  let _ ← seCall (Chip.eccDelete (eccSlotForLogical slot))
  let _ ← seCall (Chip.rmemErase (rmemSlotForLogical slot))

/-- A slot is erased before it is written. Whether the write succeeded is the answer. -/
def writeRmemCredential (slot : ℕ) (stored : StoredCred) : Ctap Bool:=do
  let _ ← seCall (Chip.rmemErase (rmemSlotForLogical slot))
  match ← seCall (Chip.rmemWrite (rmemSlotForLogical slot) (.cred stored)) with
  | .ok ()=>pure true
  | .error _=>pure false

def StoredCred.cached (stored : StoredCred) : CachedCred:=
  {stored.toCredInfo with signCount:=stored.signCount}

def Storage.setCred (s : Storage) (slot : ℕ) (c : Option CachedCred) : Storage:=
  {s with creds:=Function.update s.creds slot c}

def updateCacheFromStored (slot : ℕ) (stored : StoredCred) : Ctap Unit:=
  updateStorage fun s=>s.setCred slot (some stored.cached)

def fido2StorageCounterLoad : Ctap Unit:=do
  let counter ← nvsRead (·.counter)
  updateStorage fun s=>{s with authCounter:=counter.getD 0,counterLoaded:=true}

def fido2StorageCounterIncrement : Ctap Bool:=do
  when (!(← gets (·.storage.counterLoaded))) fido2StorageCounterLoad
  let newValue:=(← gets (·.storage.authCounter))+1
  if ← nvsWrite fun nvs=>{nvs with counter:=some newValue} then
    updateStorage fun s=>{s with authCounter:=newValue}
    pure true
  else pure false

def fido2StorageGetAlwaysUv : Ctap Bool:=do
  let v ← nvsRead (·.alwaysUv)
  pure (v.getD 0 != 0)

def fido2StorageSetAlwaysUv (enabled : Bool) : Ctap Bool:=
  nvsWrite fun nvs=>{nvs with alwaysUv:=some (if enabled then 1 else 0)}

def fido2StorageGetMinPinLen : Ctap UInt8:=do
  let v ← nvsRead (·.minPin)
  pure (v.getD 0)

def fido2StorageSetMinPinLen (minLen : UInt8) : Ctap Bool:=
  nvsWrite fun nvs=>{nvs with minPin:=some minLen}

def fido2StorageConfigReset : Ctap Unit:=do
  let _ ← nvsWrite fun nvs=>{nvs with largeblob:=none,alwaysUv:=none,minPin:=none}

def fido2StorageInit : Ctap Unit:=do
  updateStorage fun _=>{}
  fido2StorageCounterLoad
  slots.forM fun i=>do
    match ← readRmemCredential i with
    | some stored=>
      updateCacheFromStored i stored
      updateStorage fun s=>{s with credCount:=s.credCount+1}
    | none=>pure ()

namespace Storage

variable (s : Storage)

/-- `fido2_storage_slot_used`, with the entry. -/
def lookup (slot : ℕ) : Option CachedCred:=if slotLogicalValid slot then s.creds slot else none

def findFreeSlot : Option ℕ:=slots.find? fun i=>(s.creds i).isNone

def findByRp (rpIdHash : ByteArr 32) : List ℕ:=
  (slots.filter fun i=>(s.creds i).any fun c=>c.rpIdHash == rpIdHash).take fido2MaxCredentials

def findByRpResident (rpIdHash : ByteArr 32) : List ℕ:=
  (slots.filter fun i=>(s.creds i).any fun c=>c.resident && c.rpIdHash == rpIdHash).take fido2MaxCredentials

def isResident (slot : ℕ) : Bool:=(s.lookup slot).any fun c=>c.resident

def findByRpUser (rpIdHash : ByteArr 32) (userId : Bytes) (userIdLen : UInt8) : Option ℕ:=
  slots.find? fun i=>(s.creds i).any fun c=>
    c.rpIdHash == rpIdHash && c.userId.length == userIdLen.toNat && c.userId == userId.take userIdLen.toNat

end Storage

def credIdOf (slot : ℕ) (nonce : ByteArr 16) : Bytes:=
  UInt8.ofNat slot::nonce.toList++List.replicate 47 0

def fido2StorageGetCredId (slot : ℕ) : Ctap (Option Bytes):=do
  match (← gets (·.storage)).lookup slot with
  | none=>pure none
  | some _=>do
    match ← readRmemCredential slot with
    | none=>pure none
    | some stored=>pure (some (credIdOf slot stored.credIdNonce))

def fido2StorageFindSlotByCredId (credId : Bytes) : Ctap (Option ℕ):=do
  if credId.length≠credIdLen then pure none
  else
    let slot:=(credId.headD 0).toNat
    match ← fido2StorageGetCredId slot with
    | none=>pure none
    | some storedId=>pure (if storedId=credId then some slot else none)

def fido2StorageGetUser (slot : ℕ) : Ctap (Option (Bytes × Bytes)):=do
  match (← gets (·.storage)).lookup slot with
  | none=>pure none
  | some _=>do
    match ← readRmemCredential slot with
    | none=>pure none
    | some stored=>
      pure (some (stored.userId.take userIdMaxLen,(cstr stored.userName).take (userNameMaxLen-1)))

def fido2StorageGetCredential (slot : ℕ) : Ctap (Option CachedCred):=do
  match (← gets (·.storage)).lookup slot with
  | none=>pure none
  | some c=>do
    match ← fido2StorageGetUser slot with
    | none=>pure (some {c with userId:=[]})
    | some (userId,userName)=>pure (some {c with userId:=userId,userName:=userName})

/-- The slots for which the test answers `true`, in order. -/
def filterSlots (test : ℕ → Ctap Bool) : List ℕ → Ctap (List ℕ)
  | []=>pure []
  | slot::rest=>do
    let keep ← test slot
    let kept ← filterSlots test rest
    pure (if keep then slot::kept else kept)

/-- A new credential: its slot, its credential ID and its public key. -/
structure Created where
  slot : ℕ
  credId : Bytes
  pubkey : ByteArr 64

section Keys

variable (cr : FidoCrypto)

/-- Generate the key of a slot and write its record. A failure after the key was generated deletes
the key. -/
def generateInSlot (slot : ℕ) (rpId : Bytes) (rpIdHash : ByteArr 32) (userId userName : Bytes)
    (resident : Bool) (credProtect : UInt8) (curve : EccCurve) : Ctap (Option Created):=do
  let physSlot:=eccSlotForLogical slot
  let _ ← seCall (Chip.eccDelete physSlot)
  let secret ← freshSecret
  match ← seCall (Chip.eccGenerate physSlot {curve:=curve,secret:=secret}) with
  | .error _=>pure none
  | .ok ()=>do
    match ← seCall (Chip.eccGetPublicKey physSlot) with
    | .error _=>
      let _ ← seCall (Chip.eccDelete physSlot)
      pure none
    | .ok key=>do
      match ← getRandom 16 with
      | .error _=>
        let _ ← seCall (Chip.eccDelete physSlot)
        pure none
      | .ok nonce=>
        let stored : StoredCred:={
          rpIdHash:=rpIdHash
          rpId:=(cstr rpId).take (rpIdMaxLen-1)
          userId:=userId
          userName:=(cstr userName).take (userNameMaxLen-1)
          resident:=resident
          credProtect:=credProtect
          curve:=curve
          signCount:=0
          credIdNonce:=nonce }
        if ← writeRmemCredential slot stored then
          updateCacheFromStored slot stored
          updateStorage fun s=>{s with credCount:=s.credCount+1}
          pure (some {slot:=slot,credId:=credIdOf slot nonce,pubkey:=cr.publicKey key})
        else
          let _ ← seCall (Chip.eccDelete physSlot)
          pure none

/-- A credential of the same RP and user is replaced: its key and record are erased first. -/
def fido2StorageCreateCredential (rpId : Bytes) (rpIdHash : ByteArr 32) (userId : Bytes)
    (userIdLen : UInt8) (userName : Bytes) (resident : Bool) (credProtect : UInt8) (curve : EccCurve) :
    Ctap (Option Created):=do
  if userIdMaxLen < userIdLen.toNat then pure none
  else
    let storage ← gets (·.storage)
    match storage.findByRpUser rpIdHash userId userIdLen with
    | some slot=>
      eraseSlotData slot
      updateStorage fun s=>{s.setCred slot none with credCount:=s.credCount-1}
      generateInSlot cr slot rpId rpIdHash (userId.take userIdLen.toNat) userName resident credProtect curve
    | none=>
      match storage.findFreeSlot with
      | some slot=>
        generateInSlot cr slot rpId rpIdHash (userId.take userIdLen.toNat) userName resident credProtect curve
      | none=>pure none

def fido2StorageDeleteCredential (slot : ℕ) : Ctap Bool:=do
  match (← gets (·.storage)).lookup slot with
  | none=>pure false
  | some _=>
    eraseSlotData slot
    updateStorage fun s=>{s.setCred slot none with credCount:=s.credCount-1}
    pure true

def fido2StorageIncrementSignCount (slot : ℕ) : Ctap UInt32:=do
  match (← gets (·.storage)).lookup slot with
  | none=>pure 0
  | some c=>
    let newCount:=c.signCount+1
    updateStorage fun s=>s.setCred slot (some {c with signCount:=newCount})
    match ← readRmemCredential slot with
    | none=>pure newCount
    | some stored=>
      let _ ← writeRmemCredential slot {stored with signCount:=newCount}
      pure newCount

/-- `ecdsaSign` takes a P-256 key and `eddsaSign` an Ed25519 key. -/
def signingKey (curve : EccCurve) (slot : ℕ) (c : Chip RmemContent) : SeReply EccKey × Chip RmemContent:=
  match Chip.eccSigningKey slot c with
  | (.ok key,c)=>if key.curve=curve then (.ok key,c) else (.error .invalidParam,c)
  | reply=>reply

def noteSigning (slot : ℕ) (cred : CachedCred) (message : Bytes) (selection : Selection) : Ctap Unit:=
  modify fun w=>{ w with signings:=w.signings ++
    [{ slot:=slot,cred:=cred,record:=w.chip.rmem (rmemSlotForLogical slot),
       message:=message,selection:=selection }] }

/-- Sign a message with the key of a slot. `selection` is for the note of the signature only. -/
def fido2StorageSignRaw (slot : ℕ) (message : Bytes) (selection : Selection) :
    Ctap (Option (ByteArr 64)):=do
  match (← gets (·.storage)).lookup slot with
  | none=>pure none
  | some c=>do
    match ← seCall (signingKey c.curve (eccSlotForLogical slot)) with
    | .error _=>pure none
    | .ok key=>
      let nonce ← freshSecret
      noteSigning slot c message selection
      pure (some (cr.chipSign key nonce message))

def fido2StorageGetPubkey (slot : ℕ) : Ctap (Option (ByteArr 64)):=do
  if !slotLogicalValid slot then pure none
  else
    match ← seCall (Chip.eccGetPublicKey (eccSlotForLogical slot)) with
    | .error _=>pure none
    | .ok _=>do
      match ← seCall (Chip.eccGetPublicKey (eccSlotForLogical slot)) with
      | .error _=>pure none
      | .ok key=>pure (some (cr.publicKey key))

end Keys

end CdcBadge.Fido2
