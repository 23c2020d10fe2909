import CdcBadge.PinOperations
import CdcBadge.Apdu

/-!
# The memory of the OpenPGP card

The statics of the card application, their record in flash, the key material in the secure
element, and how a command calls them. What the chip and the flash make of the calls of a
command, and the random numbers and key secrets it draws, come with the command.
-/

namespace CdcBadge.OpenPgp

open Handler
open Pin (PinM PowerLost Pw Badge LoadOutcome SaveOutcome attestationEccSlot)

def swOk : UInt16:=0x9000
def swFileTerminated : UInt16:=0x6285
def swWrongLength : UInt16:=0x6700
def swSecurityNotSatisfied : UInt16:=0x6982
def swAuthMethodBlocked : UInt16:=0x6983
def swConditionsNotSatisfied : UInt16:=0x6985
def swWrongData : UInt16:=0x6A80
def swFileNotFound : UInt16:=0x6A82
def swIncorrectP1P2 : UInt16:=0x6A86
def swReferencedDataNotFound : UInt16:=0x6A88
def swInsNotSupported : UInt16:=0x6D00
def swClaNotSupported : UInt16:=0x6E00
def swUnknown : UInt16:=0x6F00

/-- `63Cx`: a wrong value, with the tries that are left. -/
def swRetries (retries : UInt8) : UInt16:=0x63C0 ||| retries.toUInt16

def pw1Code1 : UInt8:=0x81
def pw1Code2 : UInt8:=0x82
def pw3Code : UInt8:=0x83

def pw1MinLen : ℕ:=6
def pw3MinLen : ℕ:=8
def rcMinLen : ℕ:=8
def pinMaxLen : ℕ:=32
def rcKdfTotalBytes : ℕ:=100000
def nvsSchemaV3 : UInt8:=3

/-- `key_type_t`. -/
inductive Role | sig | dec | aut deriving DecidableEq, Repr

namespace Role

def index : Role → ℕ
  | sig=>0
  | dec=>1
  | aut=>2

def slot : Role → ℕ
  | sig=>1
  | dec=>2
  | aut=>3

/-- `KEY_SIG`, `KEY_DEC` and `KEY_AUT`. -/
def keyRef : Role→UInt8
  | sig=>0xB6
  | dec=>0xB8
  | aut=>0xA4

end Role

/-- `role_index_for_key_ref`. -/
def roleForKeyRef (keyRef : UInt8) : Option Role:=
  if keyRef=0xB6 then some .sig
  else if keyRef=0xB8 then some .dec
  else if keyRef=0xA4 then some .aut
  else none

/-- What a command answers: the data and the status word behind them. -/
structure Reply where
  data : Bytes:=[]
  sw : UInt16
  deriving DecidableEq

def Reply.bytes (r : Reply) : Bytes:=r.data++[(r.sw >>> 8).toUInt8,r.sw.toUInt8]

/-- What makes a role an RSA role. -/
structure RsaAttr where
  isRsa : Bool:=false
  nBits : UInt16:=0
  eBits : UInt16:=0
  fmt : UInt8:=0
  deriving DecidableEq

/-- The statics that the flash record repeats, as they are after power-on. -/
structure CardData where
  cardTerminated : Bool:=false
  selectedCurveSig : EccCurve:=.ed25519
  selectedCurveAut : EccCurve:=.ed25519
  rcLen : ℕ:=0
  rcRetries : UInt8:=3
  rcSalt : ByteArr 16:=zeros 16
  rcHash : ByteArr 32:=zeros 32
  sigCount : UInt32:=0
  fingerprint : Role→ByteArr 20:=fun _=>zeros 20
  caFp : Role→ByteArr 20:=fun _=>zeros 20
  genTime : Role→ByteArr 4:=fun _=>zeros 4
  cardholderSex : UInt8:=0x39
  cardholderName : Bytes:=[]
  cardholderLang : Bytes:=[0x65,0x6E]
  cardholderUrl : Bytes:=[]
  cardholderLogin : Bytes:=[]
  rsa : Role→RsaAttr:=fun _=>{}
  kdfActive : Bool:=false
  kdfPinLen : UInt8:=0
  kdfDo : Bytes:=[]

def flag (b : Bool) : UInt8:=if b then 1 else 0

/-- `CDC_CURVE_P256` and `CDC_CURVE_ED25519`. -/
def curveByte : EccCurve→UInt8
  | .p256=>1
  | .ed25519=>0

def le16 (n : UInt16) : Bytes:=[n.toUInt8,(n >>> 8).toUInt8]

def le32 (n : UInt32) : Bytes:=(be32 n).reverse

def CardData.bytes (d : CardData) : Bytes:=
  [nvsSchemaV3,flag d.cardTerminated,curveByte d.selectedCurveSig,curveByte d.selectedCurveAut,
    UInt8.ofNat d.rcLen,d.rcRetries]++d.rcSalt.toList++d.rcHash.toList++le32 d.sigCount ++
    (perRole fun r=>(d.fingerprint r).toList)++(perRole fun r=>(d.caFp r).toList) ++
    (perRole fun r=>(d.genTime r).toList)++[d.cardholderSex]++(fit 40 d.cardholderName).toList ++
    (fit 8 d.cardholderLang).toList++(fit 64 d.cardholderUrl).toList++(fit 32 d.cardholderLogin).toList ++
    (perRole fun r=>[flag (d.rsa r).isRsa])++(perRole fun r=>le16 (d.rsa r).nBits) ++
    (perRole fun r=>le16 (d.rsa r).eBits)++(perRole fun r=>[(d.rsa r).fmt]) ++
    [flag d.kdfActive,d.kdfPinLen,UInt8.ofNat d.kdfDo.length]++(fit 124 d.kdfDo).toList
where
  perRole (f : Role→Bytes) : Bytes:=f .sig++f .dec++f .aut

/-- The salt and the hash of the Resetting Code are copied into the record only while there is one. -/
def CardData.stored (d : CardData) : CardData:=
  if 0 < d.rcLen then d else {d with rcSalt:=zeros 16,rcHash:=zeros 32}

def CardData.load (d stored : CardData) : CardData:=
  if 0 < stored.rcLen ∧ stored.rcLen ≤ pinMaxLen then stored
  else {stored with rcSalt:=d.rcSalt,rcHash:=d.rcHash,rcLen:=d.rcLen}

structure NvsRecord where
  schemaVersion : UInt8
  data : CardData
  sig : ByteArr 64

/-- `g_chain_*`. -/
structure Chain where
  ins : UInt8
  p1 : UInt8
  p2 : UInt8
  data : Bytes
  deriving DecidableEq

/-- The statics of `openpgp.cpp` and the pending user id of `gpg.cpp`. -/
structure Applet extends CardData where
  appSelected : Bool:=false
  pw1Verified : Bool:=false
  pw3Verified : Bool:=false
  /-- `s_session_pin`, as a C string. -/
  sessionPin : Bytes:=[]
  /-- What is left of a response that did not fit. -/
  resp : Bytes:=[]
  chain : Option Chain:=none
  pendingUserId : Bytes:=[]

/-- What comes with a command: what becomes of its calls, and what it draws. -/
structure Env where
  loads : List LoadOutcome:=[]
  saves : List SaveOutcome:=[]
  salts : List (ByteArr 8):=[]
  /-- The chip calls other than those of the PIN manager. -/
  calls : List SeOutcome:=[]
  /-- The flash accesses. -/
  nvs : List SeOutcome:=[]
  /-- Random bytes, missing where the chip gives none. -/
  random : List (Option Bytes):=[]
  secrets : List ℕ:=[]
  nonces : List ℕ:=[]
  time : UInt32:=0
  /-- The byte of the stack behind a public key that was read. -/
  stale : UInt8:=0
  respMax : ℕ:=4096

/-- The device as the card application sees it. -/
structure Card where
  badge : Badge
  app : Applet:={}
  nvs : Option NvsRecord:=none
  cert : Option Bytes:=none
  env : Env:={}
  on : Bool:=false

/-- What a device and its libraries are given once. -/
structure Device where
  aid : ByteArr 16
  chipId : ByteArr 16
  version : Bytes
  /-- A read into a buffer smaller than the content of a slot gives its front. -/
  shortReads : Bool

def Device.plain : Device:={aid:=zeros 16,chipId:=zeros 16,version:=[0x31],shortReads:=true}

/-- The primes and the public exponent of an RSA key. -/
structure RsaKey where
  p : ℕ
  q : ℕ
  e : ℕ
  deriving DecidableEq

/-- The primitives of the card application. A session key, a nonce and the associated data go into a seal. -/
structure GpgCrypto extends Crypto where
  eddsaSign : EccKey→Bytes→ByteArr 64
  sha1 : Bytes→ByteArr 20
  hkdf : Bytes→Bytes→Bytes→ByteArr 32
  gcmSeal : ByteArr 32→Bytes→Bytes→Bytes→Bytes × ByteArr 16
  gcmOpen : ByteArr 32→Bytes→Bytes→Bytes→ByteArr 16→Option Bytes
  gcmSeal_length : ∀ key nonce aad plain, (gcmSeal key nonce aad plain).1.length=plain.length
  gcmOpen_gcmSeal : ∀ key nonce aad plain,
    gcmOpen key nonce aad (gcmSeal key nonce aad plain).1 (gcmSeal key nonce aad plain).2=some plain
  /-- AES-CFB128, by key, initial vector and ciphertext. -/
  aesCfbDecrypt : Bytes→Bytes→Bytes→Bytes
  /-- The public point of a P-256 scalar, where it is one. -/
  ecdhPublic : ByteArr 32→Option (ByteArr 64)
  ecdhSecret : ByteArr 32→Bytes→Option (ByteArr 32)
  /-- The numbers make up a private key that `mbedtls_rsa_check_privkey` passes. -/
  rsaValid : RsaKey→Bool
  /-- A new key of so many bits. -/
  rsaGenKey : ℕ → ℕ→Option RsaKey
  rsaPkcs1Sign : RsaKey→Bytes→Option Bytes
  rsaPkcs1Decrypt : RsaKey→Bytes→Option Bytes

/-- Primitives that can be computed with: a seal shows its plaintext behind the key, and a shared secret the peer's
point. -/
def GpgCrypto.plain : GpgCrypto where
  toCrypto:=Crypto.plain
  eddsaSign key msg:=fit 64 (msg++be32 (UInt32.ofNat key.secret))
  sha1 msg:=fit 20 (UInt8.ofNat msg.length::msg)
  hkdf salt ikm _:=fit 32 (ikm.drop 16++salt)
  gcmSeal key _ _ plain:=(plain,fit 16 key.toList)
  gcmOpen key _ _ sealed tag:=if tag=fit 16 key.toList then some sealed else none
  gcmSeal_length _ _ _ _:=rfl
  gcmOpen_gcmSeal _ _ _ _:=if_pos rfl
  aesCfbDecrypt key _ ct:=ct++key
  ecdhPublic scalar:=some (fit 64 scalar.toList)
  ecdhSecret _ point:=some (fit 32 point)
  rsaValid _:=true
  rsaGenKey _ _:=none
  rsaPkcs1Sign _ digestInfo:=some digestInfo
  rsaPkcs1Decrypt _ ct:=some ct

abbrev CardM:=Handler PowerLost Card

def updateApp (f : Applet → Applet) : CardM Unit:=modify fun c=>{c with app:=f c.app}

def appGets {α : Type} (f : Applet → α) : CardM α:=gets fun c=>f c.app

@[simp] theorem appGets_bind {α β : Type} (f : Applet → α) (k : α → CardM β) (c : Card) :
    (appGets f >>= k) c=k (f c.app) c:=rfl

@[simp] theorem updateApp_bind {β : Type} (f : Applet → Applet) (k : Unit → CardM β) (c : Card) :
    (updateApp f >>= k) c=k () {c with app:=f c.app}:=rfl

def onPins {α : Type} (m : PinM α) : CardM α:=zoom Card.badge (fun b c=>{c with badge:=b}) m

def answer (data : Bytes) : CardM Reply:=pure {data:=data,sw:=swOk}

def apduSw (sw : UInt16) : CardM Reply:=pure {sw:=sw}

def nextCall : CardM SeOutcome:=
  fun c=>(.ok (c.env.calls.headD .done),{c with env:={c.env with calls:=c.env.calls.tail}})

def nextNvs : CardM SeOutcome:=
  fun c=>(.ok (c.env.nvs.headD .done),{c with env:={c.env with nvs:=c.env.nvs.tail}})

def nextRandom : CardM (Option Bytes):=
  fun c=>(.ok (c.env.random.headD (some [])),{c with env:={c.env with random:=c.env.random.tail}})

def nextSecret : CardM ℕ:=
  fun c=>(.ok (c.env.secrets.headD 0),{c with env:={c.env with secrets:=c.env.secrets.tail}})

def nextNonce : CardM ℕ:=
  fun c=>(.ok (c.env.nonces.headD 0),{c with env:={c.env with nonces:=c.env.nonces.tail}})

def seCall {α : Type} (call : Chip Bytes → SeReply α × Chip Bytes) : CardM (SeReply α):=do
  onPins (Pin.seCall (← nextCall) call)

def nvsWrite (f : Card → Card) : CardM Bool:=do
  match ← nextNvs with
  | .done=>modify f; pure true
  | .failed _ applied=>when applied (modify f); pure false
  | .powerLost applied=>do
    when applied (modify f : CardM Unit)
    stop ⟨⟩

def nvsRead {α : Type} (f : Card→Option α) : CardM (Option α):=do
  match ← nextNvs with
  | .done=>gets f
  | .failed _ _=>pure none
  | .powerLost _=>stop ⟨⟩

/-- `se_random_fill`: the ESP's own generator stands in where the chip gives nothing. -/
def randomFill (n : ℕ) : CardM (ByteArr n):=do
  pure (fit n ((← nextRandom).getD []))

section State

variable (cr : GpgCrypto)

/-- `save_state_to_nvs`: a failure is only logged. -/
def saveStateToNvs : CardM Unit:=do
  let data ← appGets fun a=>a.toCardData.stored
  match ← seCall (Pin.attestationSign cr.toCrypto data.bytes (← nextNonce)) with
  | .error _=>pure ()
  | .ok sig=>
    let _ ← nvsWrite fun c=>{c with nvs:=some {schemaVersion:=nvsSchemaV3,data,sig}}
    pure ()

def verifyStateSignature (data : CardData) (sig : ByteArr 64) : CardM Bool:=do
  match ← seCall (Chip.eccGetPublicKey attestationEccSlot) with
  | .error _=>pure false
  | .ok key=>
    if key.curve≠.p256 then pure false
    else pure (cr.ecdsaVerify (cr.publicKey key) (cr.sha256 data.bytes) sig)

def loadStateFromNvs : CardM Unit:=do
  match ← nvsRead (·.nvs) with
  | none=>pure ()
  | some record=>
    if record.schemaVersion≠nvsSchemaV3 then pure ()
    else if ← verifyStateSignature cr record.data record.sig then
      updateApp fun a=>{a with toCardData:=a.toCardData.load record.data}
    else pure ()

end State

/-- `session_wipe`. -/
def sessionWipe : CardM Unit:=updateApp fun a=>{a with sessionPin:=[]}

end CdcBadge.OpenPgp
