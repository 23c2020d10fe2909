import CdcBadge.AuthenticatorData

/-! # authenticatorCredentialManagement -/

namespace CdcBadge.Fido2

open Handler Cbor

def credMgmtGetCredsMetadata : UInt8:=0x01

def credMgmtEnumerateRpsBegin : UInt8:=0x02

def credMgmtEnumerateRpsGetNext : UInt8:=0x03

def credMgmtEnumerateCredsBegin : UInt8:=0x04

def credMgmtEnumerateCredsGetNext : UInt8:=0x05

def credMgmtDeleteCredential : UInt8:=0x06

/-- The values that are read from `subCommandParams`. -/
structure CredMgmtSubParams where
  rpIdHash : Bytes:=List.replicate 32 0
  hasRpIdHash : Bool:=false
  credId : Bytes:=List.replicate credIdLen 0
  credIdLen : ℕ:=0
  hasCredId : Bool:=false
  deriving DecidableEq

structure CredMgmtParams where
  subcommand : UInt8:=0
  sub : CredMgmtSubParams:={}
  /-- The raw bytes of `subCommandParams`. -/
  subParams : Bytes:=[]
  pinProto : ℕ:=1
  pinAuth : Bytes:=[]
  deriving DecidableEq

/-- The bytes that a skip of the next item passes over, whether or not it succeeds. -/
def rawSpan : Read Bytes:=fun r=>
  let probe:=(trySkip r).2
  (.ok (r.rest.take (r.rest.length-probe.rest.length)),r)

def parseDescriptorPair (s : CredMgmtSubParams) : Read CredMgmtSubParams:=do
  match ← attempt (readText 16) with
  | none=>
    trySkip
    ignore s
  | some key=>
    if cstr key=ascii "id" then
      match ← attempt (readBytes credIdLen) with
      | some id=>pure {s with credId:=overwrite id s.credId,credIdLen:=id.length,hasCredId:=true}
      | none=>pure s
    else ignore s

/-- One pair of `subCommandParams`. -/
def parseSubParamPair (s : CredMgmtSubParams) : Read CredMgmtSubParams:=do
  match ← attempt readUint with
  | none=>
    trySkip
    ignore s
  | some 0x01=>
    match ← attempt (readBytes 32) with
    | some hash=>
      let s:={s with rpIdHash:=overwrite hash s.rpIdHash}
      pure (if hash.length=32 then {s with hasRpIdHash:=true} else s)
    | none=>pure s
  | some 0x02=>
    let count ← attempt readMap
    iterate (count.getD (-1)).toNat parseDescriptorPair s
  | some _=>ignore s

def parseSubParams (s : CredMgmtSubParams) : Read CredMgmtSubParams:=do
  let count ← attempt readMap
  iterate (count.getD (-1)).toNat parseSubParamPair s

def parseCredMgmtPair (p : CredMgmtParams) : Read CredMgmtParams:=do
  match ← attempt readUint with
  | none=>ignore p
  | some 0x01=>
    match ← attempt readUint with
    | some cmd=>pure {p with subcommand:=UInt8.ofNat cmd}
    | none=>pure p
  | some 0x02=>
    let span ← rawSpan
    let sub ← parseSubParams p.sub
    pure {p with sub:=sub,subParams:=span}
  | some 0x03=>pure {p with pinProto:=(← attempt readUint).getD p.pinProto}
  | some 0x04=>pure {p with pinAuth:=(← attempt (readBytes 32)).getD []}
  | some _=>ignore p

def readCredMgmtParams : Read CredMgmtParams:=do
  let count ← readMap
  if count < 1 then stop ()
  else iterate count.toNat parseCredMgmtPair {}

def allSlots : List ℕ:=List.range fido2MaxCredentials

section Command

variable (cr : FidoCrypto)

def credMgmtSlotHasKey (slot : ℕ) : Ctap Bool:=do
  pure (← fido2StorageGetPubkey cr slot).isSome

def residentCredential (slot : ℕ) : Ctap (Option CachedCred):=do
  if (← gets (·.storage)).isResident slot then fido2StorageGetCredential slot else pure none

/-- The RP hashes found, each with a slot that stands for it. A slot without a key on the chip is
passed over. -/
def credMgmtCountUniqueRps : List ℕ → List (ByteArr 32 × ℕ) → Ctap (List (ByteArr 32 × ℕ))
  | [], found=>pure found
  | slot::rest, found=>do
    match ← residentCredential slot with
    | none=>credMgmtCountUniqueRps rest found
    | some info=>
      let hasKey ← credMgmtSlotHasKey cr slot
      credMgmtCountUniqueRps rest
        (if hasKey && !(found.map Prod.fst).contains info.rpIdHash then found++[(info.rpIdHash,slot)]
          else found)

def slotHasRpAndKey (rpIdHash : ByteArr 32) (slot : ℕ) : Ctap Bool:=do
  match ← residentCredential slot with
  | none=>pure false
  | some info=>if info.rpIdHash=rpIdHash then credMgmtSlotHasKey cr slot else pure false

def credMgmtFindCredsForRp (rpIdHash : ByteArr 32) : Ctap (List ℕ):=
  filterSlots (slotHasRpAndKey cr rpIdHash) allSlots

def credMgmtEncodeRp (slot : ℕ) (total : Option ℕ) (w : Writer) : Ctap Writer:=do
  let info ← orFail .other (← fido2StorageGetCredential slot)
  noteAct permCredMgmt [info.rpIdHash]
  let w:=w.map (if total.isSome then 3 else 2) |>.uint 0x03 |>.map 1 |>.text (ascii "id") |>.text info.rpId
    |>.uint 0x04 |>.bytes info.rpIdHash.toList
  pure (match total with
    | some n=>w.uint 0x05 |>.uint n
    | none=>w)

def credMgmtEncodeCredential (slot : ℕ) (total : Option ℕ) (w : Writer) : Ctap Writer:=do
  let info ← orFail .other (← fido2StorageGetCredential slot)
  let credId ← orFail .other (← fido2StorageGetCredId slot)
  let pubkey ← orFail .other (← fido2StorageGetPubkey cr slot)
  noteAct permCredMgmt [info.rpIdHash]
  let named:=!(cstr info.userName).isEmpty
  let w:=w.map (if total.isSome then 5 else 4) |>.uint 0x06 |>.map (if named then 2 else 1)
    |>.text (ascii "id") |>.bytes info.userId
  let w:=if named then w.text (ascii "name") |>.text info.userName else w
  let w:=w.uint 0x07 |>.map 2 |>.text (ascii "id") |>.bytes credId |>.text (ascii "type")
    |>.text (ascii "public-key")
  let w:=encodeCoseKey info.curve pubkey (w.uint 0x08)
  let w:=match total with
    | some n=>w.uint 0x09 |>.uint n
    | none=>w
  pure (w.uint 0x0A |>.uint (if info.credProtect=0 then 1 else info.credProtect.toNat))

def Storage.residentRps (s : Storage) : List (ByteArr 32):=
  allSlots.filterMap fun slot=>((s.lookup slot).filter (·.resident)).map (·.rpIdHash)

def getCredsMetadata (w : Writer) : Ctap Writer:=do
  let storage ← gets (·.storage)
  noteAct permCredMgmt storage.residentRps
  let existing:=(allSlots.filter storage.isResident).length
  pure (w.map 2 |>.uint 0x01 |>.uint existing |>.uint 0x02 |>.uint (fido2MaxCredentials-existing))

def enumerateRpsBegin (w : Writer) : Ctap Writer:=do
  let found ← credMgmtCountUniqueRps cr allSlots []
  updateCredMgmt fun s=>{ s with
    rpSlots:=overwrite (found.map Prod.snd) s.rpSlots,rpCount:=UInt8.ofNat found.length,rpIndex:=0 }
  require (!found.isEmpty) .noCredentials
  noteAct permCredMgmt (found.map Prod.fst)
  let slot:=(← gets (·.credMgmt)).rpSlots.getD 0 0
  let w ← credMgmtEncodeRp slot (some found.length) w
  updateCredMgmt fun s=>{s with rpIndex:=1}
  pure w

def enumerateRpsGetNext (w : Writer) : Ctap Writer:=do
  let state ← gets (·.credMgmt)
  require (state.rpIndex < state.rpCount) .noCredentials
  let w ← credMgmtEncodeRp (state.rpSlots.getD state.rpIndex.toNat 0) none w
  updateCredMgmt fun s=>{s with rpIndex:=s.rpIndex+1}
  pure w

def enumerateCredsBegin (sub : CredMgmtSubParams) (w : Writer) : Ctap Writer:=do
  require sub.hasRpIdHash .missingParameter
  let rpIdHash:=fit 32 sub.rpIdHash
  updateCredMgmt fun s=>{s with currentRpIdHash:=rpIdHash}
  let found ← credMgmtFindCredsForRp cr rpIdHash
  updateCredMgmt fun s=>{ s with
    credSlots:=overwrite found s.credSlots,credCount:=UInt8.ofNat found.length,credIndex:=0 }
  require (!found.isEmpty) .noCredentials
  let slot:=(← gets (·.credMgmt)).credSlots.getD 0 0
  let w ← credMgmtEncodeCredential cr slot (some found.length) w
  updateCredMgmt fun s=>{s with credIndex:=1}
  pure w

def enumerateCredsGetNext (w : Writer) : Ctap Writer:=do
  let state ← gets (·.credMgmt)
  require (state.credIndex < state.credCount) .noCredentials
  let w ← credMgmtEncodeCredential cr (state.credSlots.getD state.credIndex.toNat 0) none w
  updateCredMgmt fun s=>{s with credIndex:=s.credIndex+1}
  pure w

def deleteCredential (sub : CredMgmtSubParams) : Ctap Bytes:=do
  require sub.hasCredId .missingParameter
  let slot ← orFail .noCredentials (← fido2StorageFindSlotByCredId (sub.credId.take sub.credIdLen))
  noteAct permCredMgmt ((((← gets (·.storage)).lookup slot).map (·.rpIdHash)).toList)
  require (← fido2StorageDeleteCredential slot) .other
  pure []

/-- The sub-command with its raw parameters is what the `pinUvAuthParam` is computed over. -/
def CredMgmtParams.message (p : CredMgmtParams) : Bytes:=p.subcommand::p.subParams

def CredMgmtParams.continues (p : CredMgmtParams) : Bool:=
  p.subcommand == credMgmtEnumerateRpsGetNext || p.subcommand == credMgmtEnumerateCredsGetNext

/-- A continuation asks for any token, and the other sub-commands for one that permits them. -/
def authorizeCredMgmt (p : CredMgmtParams) : Ctap Unit:=do
  if p.continues then require (← gets (·.clientPin)).pinTokenValid .pinAuthInvalid
  else
    require (p.subParams.length ≤ 256) .invalidLength
    verifyTokenOverMessage cr p.message (UInt8.ofNat p.pinProto) p.pinAuth permCredMgmt

def runCredMgmt (p : CredMgmtParams) : Ctap Bytes:=do
  let w : Writer:={size:=← env (·.responseSize)}
  if p.subcommand=credMgmtGetCredsMetadata then orFail .other (← getCredsMetadata w).output
  else if p.subcommand=credMgmtEnumerateRpsBegin then orFail .other (← enumerateRpsBegin cr w).output
  else if p.subcommand=credMgmtEnumerateRpsGetNext then orFail .other (← enumerateRpsGetNext w).output
  else if p.subcommand=credMgmtEnumerateCredsBegin then
    orFail .other (← enumerateCredsBegin cr p.sub w).output
  else if p.subcommand=credMgmtEnumerateCredsGetNext then
    orFail .other (← enumerateCredsGetNext cr w).output
  else if p.subcommand=credMgmtDeleteCredential then deleteCredential p.sub
  else fail .unsupportedOption

def parseCredMgmtParams (params : Bytes) : Ctap CredMgmtParams:=do
  initReader params
  orFail .invalidCbor (← cbor readCredMgmtParams)

def credManagement (params : Bytes) : Ctap Bytes:=do
  let p ← parseCredMgmtParams params
  authorizeCredMgmt cr p
  runCredMgmt cr p

end Command

end CdcBadge.Fido2
