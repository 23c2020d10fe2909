import CdcBadge.Base64

/-!
# The encrypted backup file

Header, ciphertext and tag in Base64. An export opens the file of the last backup for writing, which empties it, and
then writes the new one.
-/

namespace CdcBadge.Backup

def magic : Bytes:=[67,68,67,66,65,75]
def containerVersion : UInt8:=1
def saltSize : ℕ:=16
def nonceSize : ℕ:=12
def tagSize : ℕ:=16
def kdfIterations : UInt32:=200000
def headerSize : ℕ:=6+1+4+saltSize+nonceSize
def maxPayload : ℕ:=256*1024
def maxContainer : ℕ:=maxPayload+headerSize+tagSize
def maxBase64 : ℕ:=(maxContainer+2)/3*4+1

def putU32le (v : UInt32) : Bytes:=[v.toUInt8,(v >>> 8).toUInt8,(v >>> 16).toUInt8,(v >>> 24).toUInt8]

def getU32le (p : Bytes) : UInt32:=
  (p.getD 0 0).toUInt32 ||| (p.getD 1 0).toUInt32 <<< 8 ||| (p.getD 2 0).toUInt32 <<< 16 ||| (p.getD 3 0).toUInt32 <<< 24

abbrev Passphrase:={p : Bytes // (0 : UInt8) ∉ p}

/-- PBKDF2, the sealing of AES-GCM into ciphertext and tag, and Base64. -/
structure Crypto (Key : Type) where
  deriveKey : Passphrase→Bytes→UInt32→Key
  gcmSeal : (key : Key)→(nonce aad plaintext : Bytes)→Bytes × Bytes
  encode : Bytes→Bytes
  decode : Bytes→Option Bytes

abbrev GcmOpen (Key : Type):=(key : Key)→(nonce aad ciphertext tag : Bytes)→Option Bytes

variable {Key : Type}

def header (salt : ByteArr saltSize) (nonce : ByteArr nonceSize) : Bytes:=
  magic++[containerVersion]++putU32le kdfIterations++salt.toList++nonce.toList

def openContainer (cr : Crypto Key) (gcmOpen : GcmOpen Key) (passphrase : Passphrase) (container : Bytes) (plaintextCap : ℕ)
    (derives : Bool) : Option Bytes:=
  if container.length < headerSize+tagSize then none
  else if container.take magic.length≠magic then none
  else if container.getD magic.length 0≠containerVersion then none
  else
    let iterations:=getU32le (container.drop 7)
    let salt:=(container.drop 11).take saltSize
    let nonce:=(container.drop 27).take nonceSize
    let ctLen:=container.length-headerSize-tagSize
    if plaintextCap < ctLen then none
    else if !derives then none
    else gcmOpen (cr.deriveKey passphrase salt iterations) nonce (container.take headerSize)
      ((container.drop headerSize).take ctLen) ((container.drop headerSize).drop ctLen)

def b64Decode (cr : Crypto Key) (src : Bytes) (dstCap : ℕ) : Option Bytes:=
  match cr.decode src with
  | none=>none
  | some dst=>if dstCap < dst.length then none else some dst

/-- Power stays, or is lost before the file is opened or after it. -/
inductive Power | kept | lostBefore | lostAfter
  deriving DecidableEq

/-- What an export is called with and meets. -/
structure ExportRun where
  passphrase : Passphrase
  /-- The document that the sections of the modules make, unless cJSON fails. -/
  payload : Option Bytes
  salt : ByteArr saltSize
  nonce : ByteArr nonceSize
  allocated : Bool:=true
  derives : Bool:=true
  seals : Bool:=true
  opens : Bool:=true
  power : Power:=.kept
  /-- What `fwrite` reports, and how much of the text is in the file in the end. -/
  written : ℕ
  stored : ℕ

/-- The document that sections are imported from; none where the import ends before. -/
def importFrom (cr : Crypto Key) (gcmOpen : GcmOpen Key) (file : Option Bytes) (passphrase : Passphrase)
    (allocated opens derives : Bool) : Option Bytes:=
  match file with
  | none=>none
  | some bytes=>
    if passphrase.val=[] then none
    else if !allocated then none
    else if !opens then none
    else match b64Decode cr (bytes.take (maxBase64-1)) maxContainer with
      | none=>none
      | some container=>openContainer cr gcmOpen passphrase container maxPayload derives

def restore (cr : Crypto Key) (gcmOpen : GcmOpen Key) (file : Option Bytes) (passphrase : Passphrase) : Option Bytes:=
  importFrom cr gcmOpen file passphrase true true true

end CdcBadge.Backup
