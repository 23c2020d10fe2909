import CdcBadge.OpenPgpCard
import CdcBadge.GpgRecvStore

/-!
# Key and signature packets

The packets that `xsig` builds for the export of keys, the input of the hashes that are
signed in them, and the signatures that the badge makes with its own key.
-/

namespace CdcBadge.OpenPgp

open Handler
open GpgRecv (RecvKey)

/-- `CDC_CURVE_ED25519` and `CDC_CURVE_P256`. -/
def curveCode : EccCurve→UInt8
  | .ed25519=>0
  | .p256=>1

def curveOfCode (code : UInt8) : EccCurve:=if code=0 then .ed25519 else .p256

/-- `buildPubkeyBody` -/
def buildPubkeyBody (key : RecvKey) : Option Bytes:=
  let curve:=curveOfCode key.curve
  if key.pubkeyLen.toNat < (if curve=.ed25519 then 32 else 64) then none
  else some (publicKeyBody curve key.pubkey.toList key.createdAt)

def sigAlgo : EccCurve→UInt8
  | .ed25519=>algoEddsa
  | .p256=>algoEcdsa

def kHashAlgoSha256 : UInt8:=0x08
def kSigTypeGenericCert : UInt8:=0x10
def kSigTypeSubkeyBinding : UInt8:=0x18

/-- `buildSigSubpackets` for the hashed area: the time of the signature. -/
def hashedSubpackets (createdAt : UInt32) : Bytes:=[0x05,0x02]++be32 createdAt

/-- `buildSigSubpackets` for the unhashed area: the issuer. -/
def issuerSubpacket (fp : ByteArr 20) : Bytes:=[0x09,0x10]++fp.toList.drop 12

/-- `buildBindingHashedSubpackets`: the time, and the key is for encryption. -/
def bindingSubpackets (createdAt : UInt32) : Bytes:=[0x05,0x02]++be32 createdAt++[0x02,0x1B,0x0C]

/-- `writeMpi`: zeros in front are left out. -/
def writeMpi (data : Bytes) : Bytes:=
  match data.dropWhile (· = 0) with
  | []=>[0x00,0x00]
  | high::rest=>be16Bytes (rest.length*8+Nat.log2 high.toNat+1)++high::rest

def sigHead (type algo : UInt8) (hashed : Bytes) : Bytes:=
  [0x04,type,algo,kHashAlgoSha256]++be16Bytes hashed.length++hashed

def sigTrailer (type algo : UInt8) (hashed : Bytes) : Bytes:=
  [0x04,0xFF]++be32 (UInt32.ofNat (sigHead type algo hashed).length)

def uidCertInput (pkBody userId : Bytes) (algo : UInt8) (createdAt : UInt32) : Bytes:=
  let hashed:=hashedSubpackets createdAt
  keyHashInput pkBody++0xB4::be32 (UInt32.ofNat userId.length)++userId ++
    sigHead kSigTypeGenericCert algo hashed++sigTrailer kSigTypeGenericCert algo hashed

/-- What is hashed for the binding of a subkey: `hashSubkeyBinding`. -/
def subkeyBindingInput (primary subkey : Bytes) (algo : UInt8) (createdAt : UInt32) : Bytes:=
  let hashed:=bindingSubpackets createdAt
  keyHashInput primary++keyHashInput subkey++sigHead kSigTypeSubkeyBinding algo hashed ++
    sigTrailer kSigTypeSubkeyBinding algo hashed

def sigBody (type algo : UInt8) (hashed : Bytes) (fp : ByteArr 20) (hash : ByteArr 32) (rs : ByteArr 64) : Bytes:=
  sigHead type algo hashed++be16Bytes (issuerSubpacket fp).length++issuerSubpacket fp++hash.toList.take 2 ++
    writeMpi (rs.toList.take 32)++writeMpi (rs.toList.drop 32)

def packet (tag : UInt8) (body : Bytes) : Bytes:=tag::0xFF::be32 (UInt32.ofNat body.length)++body

section Packets

variable (cr : GpgCrypto)

/-- `buildUidCertPacket` -/
def uidCertBody (pkBody userId : Bytes) (curve : EccCurve) (fp : ByteArr 20) (createdAt : UInt32)
    (rs : ByteArr 64) : Bytes:=
  sigBody kSigTypeGenericCert (sigAlgo curve) (hashedSubpackets createdAt) fp
    (cr.sha256 (uidCertInput pkBody userId (sigAlgo curve) createdAt)) rs

/-- `buildSubkeyBindingSigPacket` -/
def bindingBody (primary subkey : Bytes) (curve : EccCurve) (fp : ByteArr 20) (createdAt : UInt32)
    (rs : ByteArr 64) : Bytes:=
  sigBody kSigTypeSubkeyBinding (sigAlgo curve) (bindingSubpackets createdAt) fp
    (cr.sha256 (subkeyBindingInput primary subkey (sigAlgo curve) createdAt)) rs

/-- `gpg_status_t` -/
structure GpgStatus where
  fingerprint : ByteArr 20
  createdAt : UInt32
  signCount : UInt32
  curve : EccCurve
  userId : Bytes

/-- `openpgp_get_gen_time` -/
def CardData.genTimeOf (d : CardData) (r : Role) : UInt32:=
  let t:=(d.genTime r).toList
  ofBe32 (t.getD 0 0) (t.getD 1 0) (t.getD 2 0) (t.getD 3 0)

/-- `gpg_get_status`: a key that cannot be read is taken for an Ed25519 one. -/
def gpgGetStatus : CardM (Option GpgStatus):=do
  let d ← appGets (·.toCardData)
  if !openpgpHasAnyKey d then pure none
  else
    let curve:=match ← seGetPubkey .sig with
      | some key=>key.curve
      | none=>.ed25519
    pure (some { fingerprint:=d.fingerprint .sig,createdAt:=d.genTimeOf .sig,signCount:=d.sigCount,curve,
                 userId:=(cstr d.cardholderName).take 63 })

/-- A point that starts with `04` is taken for one with a prefix, and moved up in its zeroed buffer of 65 bytes. -/
def stripPrefix (curve : EccCurve) (point : Bytes) : Bytes:=
  if curve=.p256 ∧ point.head? = some 0x04 then point.drop 1++[0x00] else point

/-- `loadOwnSigKey` -/
def loadOwnSigKey : CardM (Option RecvKey):=do
  match ← gpgGetStatus with
  | none=>pure none
  | some status=>
    match ← seCall (Chip.eccGetPublicKey Role.sig.slot) with
    | .error _=>pure none
    | .ok key=>
      let len:=if key.curve=.ed25519 then 32 else 64
      pure (some {
        curve:=curveCode key.curve
        pubkey:=fit 64 ((stripPrefix key.curve (cr.publicKey key).toList).take len)
        pubkeyLen:=UInt8.ofNat len
        createdAt:=status.createdAt
        fingerprintV4:=status.fingerprint
        userId:=fit 64 (status.userId.take 63) })

/-- `gpgCrossSign` -/
def gpgCrossSign (target : RecvKey) (createdAt : UInt32) : CardM (Option (ByteArr 64)):=do
  match ← gpgGetStatus with
  | none=>pure none
  | some self=>
    match buildPubkeyBody target with
    | none=>pure none
    | some pkBody=>
      let hash:=(cr.sha256 (uidCertInput pkBody (cstr target.userId.toList) (sigAlgo self.curve) createdAt)).toList
      if self.curve=.ed25519 then eddsaSign cr Role.sig.slot hash else ecdsaSign cr Role.sig.slot hash

/-- `signSubkeyBinding` -/
def signSubkeyBinding (primary subkey : Bytes) (createdAt : UInt32) : CardM (Option (ByteArr 64)):=do
  match ← gpgGetStatus with
  | none=>pure none
  | some self=>
    let hash:=(cr.sha256 (subkeyBindingInput primary subkey (sigAlgo self.curve) createdAt)).toList
    if self.curve=.ed25519 then eddsaSign cr Role.sig.slot hash else ecdsaSign cr Role.sig.slot hash

/-- `buildCertSigPacket`: the badge certified the user id of the key. -/
def buildCertSigPacket (key : RecvKey) : CardM (Option Bytes):=do
  if key.sigLen≠64 then pure none
  else
    match ← gpgGetStatus with
    | none=>pure none
    | some self=>
      pure ((buildPubkeyBody key).map fun pkBody=>
        uidCertBody cr pkBody (cstr key.userId.toList) self.curve self.fingerprint key.sigCreatedAt key.mySignature)

end Packets

end CdcBadge.OpenPgp
