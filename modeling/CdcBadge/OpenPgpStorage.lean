import Mathlib.Data.Nat.Log
import CdcBadge.OpenPgpState

/-!
# Key material outside the ECC slots

Records sealed under a key that is derived from the chip, the slot and a PIN, and the RSA
keys, whose records span two slots.
-/

namespace CdcBadge.OpenPgp

open Handler

def ofBe (bs : Bytes) : ℕ:=bs.foldl (fun n b=>n*256+b.toNat) 0

def toBe : ℕ → ℕ→Bytes
  | 0, _=>[]
  | len+1, n=>UInt8.ofNat (n/256^len)::toBe len n

/-- `mbedtls_mpi_size`. -/
def mpiSize (n : ℕ) : ℕ:=if n=0 then 0 else Nat.log 256 n+1

/-- `mbedtls_mpi_write_binary`: a number that does not fit is refused. -/
def mpiBytes (len n : ℕ) : Option Bytes:=if len < mpiSize n then none else some (toBe len n)

def magicSize : ℕ:=4
def nonceSize : ℕ:=12
def tagSize : ℕ:=16
def rmemSlotDecKey : ℕ:=2
def rmemSlotAesKey : ℕ:=3
def rsaRmemStart : ℕ:=131
def rsaSlotCap : ℕ:=444
def rsaBlobMax : ℕ:=560

def decKeyMagic : Bytes:=[0x45,0x43,0x44,0x48]

def aesKeyMagic : Bytes:=[0x41,0x45,0x53,0x31]

def rsaKeyMagic : Bytes:=[0x52,0x53,0x41,0x31]

def hkdfInfo : Bytes:=[0x47,0x50,0x47,0x2D,0x53,0x54,0x4F,0x52,0x41,0x47,0x45,0x2D,0x56,0x32]

def slotBytes (slot : ℕ) : Bytes:=[UInt8.ofNat (slot/256),UInt8.ofNat slot]

def buildAad (slot : ℕ) (magic : Bytes) : Bytes:=slotBytes slot++magic

section Storage

variable (dev : Device) (cr : GpgCrypto)

def rmemRead (slot maxLen : ℕ) : CardM (SeReply Bytes):=
  seCall fun c=>match Chip.rmemRead slot c with
    | (.ok data,c)=>
      if data.length ≤ maxLen then (.ok data,c)
      else if dev.shortReads then (.ok (data.take maxLen),c)
      else (.error .invalidParam,c)
    | reply=>reply

def storageKey (id : ByteArr 16) (slot : ℕ) (pin : Option Bytes) : ByteArr 32:=
  let pinHash:=match pin with
    | some p=>if cstr p=[] then [] else (cr.sha256 (cstr p)).toList
    | none=>[]
  cr.hkdf (slotBytes slot) (id.toList++pinHash) hkdfInfo

def deriveStorageKey (slot : ℕ) (pin : Option Bytes) : CardM (ByteArr 32):=do
  match ← seCall fun c=>(.ok (),c) with
  | .ok _=>pure (storageKey cr dev.chipId slot pin)
  | .error _=>pure (storageKey cr (zeros 16) slot pin)

def sealedRecord (key : ByteArr 32) (slot : ℕ) (magic nonce payload : Bytes) : Bytes:=
  let sealed:=cr.gcmSeal key nonce (buildAad slot magic) payload
  magic++nonce++sealed.1++sealed.2.toList

def saveSlotEncrypted (slot : ℕ) (magic payload : Bytes) (pin : Option Bytes) : CardM Bool:=do
  let key ← deriveStorageKey dev cr slot pin
  match ← nextRandom with
  | none=>pure false
  | some random=>
    let record:=sealedRecord cr key slot magic (fit nonceSize random).toList payload
    let _ ← seCall (Chip.rmemErase slot)
    match ← seCall (Chip.rmemWrite slot record) with
    | .ok _=>pure true
    | .error _=>pure false

def openRecord (key : ByteArr 32) (slot : ℕ) (magic : Bytes) (payloadLen : ℕ) (record : Bytes) : Option Bytes:=
  let ct:=record.drop (magicSize+nonceSize)
  cr.gcmOpen key ((record.drop magicSize).take nonceSize) (buildAad slot magic) (ct.take payloadLen)
    (fit tagSize (ct.drop payloadLen))

def loadSlotDecrypted (slot : ℕ) (magic : Bytes) (payloadLen : ℕ) (pin : Option Bytes) : CardM (Option Bytes):=do
  match ← rmemRead dev slot 128 with
  | .error _=>pure none
  | .ok record=>
    if record.length < magicSize+nonceSize+payloadLen+tagSize then pure none
    else if record.take magicSize≠magic then pure none
    else
      let key ← deriveStorageKey dev cr slot pin
      pure (openRecord cr key slot magic payloadLen record)

/-- A slot whose content starts with the magic marker behind `skip` bytes. -/
def hasRecord (slot skip maxLen : ℕ) (magic : Bytes) : CardM Bool:=do
  match ← rmemRead dev slot maxLen with
  | .error _=>pure false
  | .ok data=>
    if data.length < skip+magicSize then pure false
    else pure ((data.drop skip).take magicSize == magic)

def erased (slot : ℕ) : CardM Bool:=do
  match ← seCall (Chip.rmemErase slot) with
  | .ok _=>pure true
  | .error _=>pure false

def gpgStorageSaveDecPrivkey (privkey : ByteArr 32) (pin : Option Bytes) : CardM Bool:=
  saveSlotEncrypted dev cr rmemSlotDecKey decKeyMagic privkey.toList pin

def gpgStorageLoadDecPrivkey (pin : Option Bytes) : CardM (Option (ByteArr 32)):=do
  pure ((← loadSlotDecrypted dev cr rmemSlotDecKey decKeyMagic 32 pin).map (fit 32))

def gpgStorageHasDecPrivkey : CardM Bool:=hasRecord dev rmemSlotDecKey 0 64 decKeyMagic

def gpgStorageDeleteDecPrivkey : CardM Bool:=erased rmemSlotDecKey

def aesPayload (key : Bytes) : Bytes:=UInt8.ofNat key.length::(fit 32 key).toList

def gpgStorageSaveAesKey (key : Bytes) (pin : Option Bytes) : CardM Bool:=
  if key.length≠16 ∧ key.length≠32 then pure false
  else saveSlotEncrypted dev cr rmemSlotAesKey aesKeyMagic (aesPayload key) pin

def gpgStorageLoadAesKey (pin : Option Bytes) : CardM (Option Bytes):=do
  match ← loadSlotDecrypted dev cr rmemSlotAesKey aesKeyMagic 33 pin with
  | none=>pure none
  | some payload=>
    let len:=(payload.headD 0).toNat
    if len≠16 ∧ len≠32 then pure none else pure (some (payload.tail.take len))

def gpgStorageHasAesKey : CardM Bool:=hasRecord dev rmemSlotAesKey 0 4 aesKeyMagic

def rsaSlot0 (r : Role) : ℕ:=rsaRmemStart+2*r.index

def rsaRecord (key : ByteArr 32) (r : Role) (nonce blob : Bytes) : Bytes:=
  let body:=sealedRecord cr key (rsaSlot0 r) rsaKeyMagic nonce blob
  [UInt8.ofNat body.length,UInt8.ofNat (body.length/256)]++body

def gpgStorageSaveRsaKey (r : Role) (blob : Bytes) (pin : Option Bytes) : CardM Bool:=do
  if blob=[] ∨ rsaBlobMax < blob.length then pure false
  else
    let key ← deriveStorageKey dev cr (rsaSlot0 r) pin
    match ← nextRandom with
    | none=>pure false
    | some random=>
      let record:=rsaRecord cr key r (fit nonceSize random).toList blob
      let _ ← seCall (Chip.rmemErase (rsaSlot0 r))
      let _ ← seCall (Chip.rmemErase (rsaSlot0 r+1))
      match ← seCall (Chip.rmemWrite (rsaSlot0 r) (record.take rsaSlotCap)) with
      | .error _=>pure false
      | .ok _=>
        if record.length ≤ rsaSlotCap then pure true
        else
          match ← seCall (Chip.rmemWrite (rsaSlot0 r+1) (record.drop rsaSlotCap)) with
          | .ok _=>pure true
          | .error _=>pure false

def rsaEnvelope : ℕ:=magicSize+nonceSize+tagSize

/-- `s_rsa_record` -/
def rsaRecordSize : ℕ:=2+rsaBlobMax+rsaEnvelope

def openRsaRecord (key : ByteArr 32) (r : Role) (record : Bytes) : Option Bytes:=
  let body:=(record.headD 0).toNat+(record.getD 1 0).toNat*256
  openRecord cr key (rsaSlot0 r) rsaKeyMagic (body-rsaEnvelope) ((record.drop 2).take body)

def gpgStorageLoadRsaKey (r : Role) (pin : Option Bytes) : CardM (Option Bytes):=do
  match ← rmemRead dev (rsaSlot0 r) rsaRecordSize with
  | .error _=>pure none
  | .ok first=>
    if first.length < 2+rsaEnvelope then pure none
    else
      let body:=(first.headD 0).toNat+(first.getD 1 0).toNat*256
      if body < rsaEnvelope ∨ rsaRecordSize < 2+body then pure none
      else
        let record ← (if 2+body ≤ first.length then pure (some first)
          else do
            match ← rmemRead dev (rsaSlot0 r+1) (rsaRecordSize-first.length) with
            | .error _=>pure none
            | .ok rest=>pure (some (first++rest)) : CardM (Option Bytes))
        match record with
        | none=>pure none
        | some record=>
          if record.length < 2+body then pure none
          else if (record.drop 2).take magicSize≠rsaKeyMagic then pure none
          else if body=rsaEnvelope ∨ rsaBlobMax < body-rsaEnvelope then pure none
          else
            let key ← deriveStorageKey dev cr (rsaSlot0 r) pin
            pure (openRsaRecord cr key r record)

def gpgStorageHasRsaKey (r : Role) : CardM Bool:=hasRecord dev (rsaSlot0 r) 2 6 rsaKeyMagic

def gpgStorageDeleteRsaKey (r : Role) : CardM Bool:=do
  let a ← erased (rsaSlot0 r)
  let b ← erased (rsaSlot0 r+1)
  pure (a && b)

def be16Bytes (n : ℕ) : Bytes:=[UInt8.ofNat (n/256),UInt8.ofNat n]

/-- `mbedtls_rsa_get_len`. -/
def RsaKey.len (k : RsaKey) : ℕ:=mpiSize (k.p*k.q)

def rsaSerialize (k : RsaKey) : Option Bytes:=do
  let half:=k.len/2
  let eLen:=max (mpiSize k.e) 1
  if rsaBlobMax < 2+2+eLen+2+half+2+half then none
  else
    let e ← mpiBytes eLen k.e
    let p ← mpiBytes half k.p
    let q ← mpiBytes half k.q
    pure (be16Bytes (k.len*8)++be16Bytes eLen++e++be16Bytes half++p++be16Bytes half++q)

def readMpi (bs : Bytes) : Option (ℕ × Bytes):=
  if bs.length < 2 then none
  else
    let len:=ofBe (bs.take 2)
    if len=0 ∨ bs.length < 2+len then none
    else some (ofBe ((bs.drop 2).take len),bs.drop (2+len))

def rsaLoadCtx (blob : Bytes) : Option RsaKey:=do
  if blob.length < 2 then none
  else
    let (e,rest) ← readMpi (blob.drop 2)
    let (p,rest) ← readMpi rest
    let (q,_) ← readMpi rest
    if cr.rsaValid ⟨p,q,e⟩ then some ⟨p,q,e⟩ else none

def supportedBits (bits : ℕ) : Bool:=bits == 2048 || bits == 3072 || bits == 4096

def gpgRsaBlobBuild (nBits : UInt16) (e p q : Bytes) : Option Bytes:=
  if e=[] ∨ p=[] ∨ q=[] then none
  else
    let k : RsaKey:=⟨ofBe p,ofBe q,ofBe e⟩
    if !cr.rsaValid k then none
    else if supportedBits (k.len*8) && (nBits == 0 || nBits.toNat == k.len*8) then rsaSerialize k
    else none

def gpgRsaGenerate (nBits : UInt16) (secret : ℕ) : Option Bytes:=
  if !supportedBits nBits.toNat then none else (cr.rsaGenKey nBits.toNat secret).bind rsaSerialize

def gpgRsaBlobPublic (blob : Bytes) : Option (Bytes × Bytes):=do
  let k ← rsaLoadCtx cr blob
  let eLen:=max (mpiSize k.e) 1
  if 512 < k.len ∨ 8 < eLen then none
  else
    let n ← mpiBytes k.len (k.p*k.q)
    let e ← mpiBytes eLen k.e
    pure (n,e)

def gpgRsaSign (blob digestInfo : Bytes) : Option Bytes:=do
  if digestInfo=[] then none
  else
    let k ← rsaLoadCtx cr blob
    if 512 < k.len then none else cr.rsaPkcs1Sign k digestInfo

def gpgRsaDecrypt (blob ct : Bytes) : Option Bytes:=do
  let k ← rsaLoadCtx cr blob
  if ct.length≠k.len then none else cr.rsaPkcs1Decrypt k ct

end Storage

end CdcBadge.OpenPgp
