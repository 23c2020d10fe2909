import CdcBadge.OpenPgpKeys

/-!
# The OpenPGP card

Data objects, selection, the chaining of commands and of responses, and the steps of a
running device: an APDU, a deselection, an operation of the badge's own menus, power lost and
power on.
-/

namespace CdcBadge.OpenPgp

open Handler
open Pin (Pw)

def openPgpRid : Bytes:=[0xD2,0x76,0x00,0x01,0x24,0x01]

def respBufferSize : ℕ:=4096
def chainBufferSize : ℕ:=4096
def cardholderCertMax : ℕ:=2048

def histBytes : Bytes:=[0x00,0x31,0xC5,0x73,0xC0,0x01,0x80,0x05,0x90,0x00]

def extCapabilities : Bytes:=[0x7D,0x00,0x00,0x80,0x08,0x00,0x01,0x00,0x00,0x00]

def be24 (n : UInt32) : Bytes:=(be32 n).tail

/-- The tags of the objects that are stored as they come: a fixed size, or a text below a size. -/
inductive SimpleDo
  | name | langPref | url | login
  | fp (r : Role)
  | caFp (r : Role)
  | genTime (r : Role)
  deriving DecidableEq

namespace SimpleDo

def tag : SimpleDo → ℕ
  | name=>0x5B
  | langPref=>0x5F2D
  | url=>0x5F50
  | login=>0x5E
  | fp r=>0xC7+r.index
  | caFp r=>0xCA+r.index
  | genTime r=>0xCE+r.index

/-- `k_put_data_table`. -/
def table : List SimpleDo:=
  [name,langPref,url,login,fp .sig,fp .dec,fp .aut,caFp .sig,caFp .dec,caFp .aut,
    genTime .sig,genTime .dec,genTime .aut]

/-- `find_put_data_desc`. -/
def find? (tag : ℕ) : Option SimpleDo:=table.find? fun o=>o.tag=tag

def maxSize : SimpleDo → ℕ
  | name=>40
  | langPref=>8
  | url=>64
  | login=>32
  | fp _=>20
  | caFp _=>20
  | genTime _=>4

/-- `PUT_KIND_STRING_BOUNDED`. -/
def isText : SimpleDo→Bool
  | name | langPref | url | login=>true
  | _=>false

def get (d : CardData) : SimpleDo→Bytes
  | name=>cstr d.cardholderName
  | langPref=>cstr d.cardholderLang
  | url=>cstr d.cardholderUrl
  | login=>cstr d.cardholderLogin
  | fp r=>(d.fingerprint r).toList
  | caFp r=>(d.caFp r).toList
  | genTime r=>(d.genTime r).toList

def set (data : Bytes) (d : CardData) : SimpleDo → CardData
  | name=>{d with cardholderName:=data}
  | langPref=>{d with cardholderLang:=data}
  | url=>{d with cardholderUrl:=data}
  | login=>{d with cardholderLogin:=data}
  | fp r=>{d with fingerprint:=Function.update d.fingerprint r (fit 20 data)}
  | caFp r=>{d with caFp:=Function.update d.caFp r (fit 20 data)}
  | genTime r=>{d with genTime:=Function.update d.genTime r (fit 4 data)}

end SimpleDo

section Commands

variable (dev : Device) (cr : GpgCrypto)

def pwStatus (c : Card) : Bytes:=
  [0x01,UInt8.ofNat pinMaxLen,UInt8.ofNat pinMaxLen,UInt8.ofNat pinMaxLen,Pw.pw1.retries c.badge.pm,
    if 0 < c.app.rcLen then c.app.rcRetries else 0,Pw.pw3.retries c.badge.pm]

def buildDoAppRelated (c : Card) : Bytes:=
  let d:=c.app.toCardData
  let discret:=tlvBuild 0xC0 extCapabilities++tlvBuild 0xC1 (d.algoAttr .sig) ++
    tlvBuild 0xC2 (d.algoAttr .dec)++tlvBuild 0xC3 (d.algoAttr .aut)++tlvBuild 0xC4 (pwStatus c) ++
    tlvBuild 0xC5 (CardData.bytes.perRole fun r=>(d.fingerprint r).toList) ++
    tlvBuild 0xC6 (CardData.bytes.perRole fun r=>(d.caFp r).toList) ++
    tlvBuild 0xCD (CardData.bytes.perRole fun r=>(d.genTime r).toList)
  tlvBuild 0x6E (tlvBuild 0x4F dev.aid.toList++tlvBuild 0x5F52 histBytes++tlvBuild 0x73 discret)

def buildDoCardholder (d : CardData) : Bytes:=
  tlvBuild 0x65 (tlvBuild 0x5B (cstr d.cardholderName)++tlvBuild 0x5F2D (cstr d.cardholderLang) ++
    tlvBuild 0x5F35 [d.cardholderSex])

def plainDo (c : Card) (tag : ℕ) : Option Bytes:=
  let d:=c.app.toCardData
  if tag=0x4F then some dev.aid.toList
  else if tag=0x6E then some (buildDoAppRelated dev c)
  else if tag=0x65 then some (buildDoCardholder d)
  else if tag=0x5F52 then some histBytes
  else if tag=0xC0 then some extCapabilities
  else if tag=0xC1 then some (d.algoAttr .sig)
  else if tag=0xC2 then some (d.algoAttr .dec)
  else if tag=0xC3 then some (d.algoAttr .aut)
  else if tag=0xC4 then some (pwStatus c)
  else if tag=0x93 then some (be24 d.sigCount)
  else if tag=0x5F35 then some [d.cardholderSex]
  else if tag=0xD6 ∨ tag=0xD7 ∨ tag=0xD8 then some [0x00,0x20]
  else if tag=0x7A then some ([0x93,0x03]++be24 d.sigCount)
  else if tag=0xF9 then some (if d.kdfDo=[] then [0x81,0x01,kdfAlgoNone] else d.kdfDo)
  else (SimpleDo.find? tag).map fun o=>o.get d

def eccKeyPresent (r : Role) : CardM Bool:=do
  match ← seCall (Chip.eccGetPublicKey r.slot) with
  | .ok _=>pure true
  | .error _=>pure false

def keyInfo (r : Role) : CardM Bytes:=do
  let isRsa ← appGets fun a=>(a.rsa r).isRsa
  let present ← (if isRsa then gpgStorageHasRsaKey dev r
    else if r=.dec then gpgStorageHasDecPrivkey dev else eccKeyPresent r)
  pure [UInt8.ofNat (r.index+1),if present then 0x00 else 0x02]

/-- A payload that may exceed the window: its front now, and the rest for `GET RESPONSE`. -/
def respondChunked (payload : Bytes) (le : ℕ) : CardM Reply:=do
  let respMax ← gets fun c=>c.env.respMax
  let first:=min (if 0 < le ∧ le < payload.length then le else payload.length) (respMax-2)
  let remainder:=payload.length-first
  if remainder=0 then answer payload
  else if respBufferSize < remainder then apduSw swWrongLength
  else
    updateApp fun a=>{a with resp:=payload.drop first}
    pure {data:=payload.take first,sw:=0x6100 ||| if 0xFF < remainder then 0 else UInt16.ofNat remainder}

def cmdGetData (c : Cmd) : CardM Reply:=do
  let tag:=c.p1.toNat*256+c.p2.toNat
  if tag=0xDE then
    let sig ← keyInfo dev .sig
    let dec ← keyInfo dev .dec
    let aut ← keyInfo dev .aut
    buildResponse (sig++dec++aut)
  else if tag=0x7F21 then
    match ← nvsRead (·.cert) with
    | none=>apduSw swReferencedDataNotFound
    | some cert=>
      if cert=[] ∨ cardholderCertMax < cert.length then apduSw swReferencedDataNotFound
      else respondChunked cert c.le
  else
    match ← gets fun card=>plainDo dev card tag with
    | some data=>buildResponse data
    | none=>apduSw swReferencedDataNotFound

/-- `apply_put_data_desc`. -/
def putSimple (o : SimpleDo) (data : Bytes) : CardM Reply:=
  if (if o.isText then o.maxSize ≤ data.length else data.length≠o.maxSize) then apduSw swWrongLength
  else do
    updateData fun d=>o.set data d
    saveStateToNvs cr
    apduSw swOk

def putAesKey (data : Bytes) : CardM Reply:=
  if data.length≠16 ∧ data.length≠32 then apduSw swWrongLength
  else do
    if ← gpgStorageSaveAesKey dev cr data (← sessionPin) then apduSw swOk else apduSw swUnknown

def putCert (data : Bytes) : CardM Reply:=
  if cardholderCertMax < data.length then apduSw swWrongLength
  else do
    if ← saveCardholderCert data then apduSw swOk else apduSw swUnknown

def putSex (data : Bytes) : CardM Reply:=
  match data with
  | [sex]=>do
    updateData fun d=>{d with cardholderSex:=sex}
    saveStateToNvs cr
    apduSw swOk
  | _=>apduSw swWrongLength

def cmdPutData (c : Cmd) : CardM Reply:=do
  let tag:=c.p1.toNat*256+c.p2.toNat
  if !(← appGets (·.pw3Verified)) then apduSw swSecurityNotSatisfied
  else if tag=0x5F35 then putSex cr c.data
  else if tag=0xC1 then putDataAlgoAttr cr .sig c.data
  else if tag=0xC2 then putDataAlgoAttr cr .dec c.data
  else if tag=0xC3 then putDataAlgoAttr cr .aut c.data
  else if tag=0xD3 then putDataRc cr c.data
  else if tag=0xD5 then putAesKey dev cr c.data
  else if tag=0xF9 then
    -- `kdf_do_parse` refuses a null pointer.
    if c.data=[] ∧ c.chained=false then apduSw swWrongData else applyKdfDo cr c.data
  else if tag=0x7F21 then putCert c.data
  else
    match SimpleDo.find? tag with
    | some o=>putSimple cr o c.data
    | none=>apduSw swFileNotFound

def cmdSelect (data : Bytes) : CardM Reply:=do
  if data.take 6=openPgpRid then
    updateApp fun a=>{a with appSelected:=true,pw1Verified:=false,pw3Verified:=false}
    sessionWipe
    apduSw swOk
  else
    when (← appGets (·.appSelected)) sessionWipe
    apduSw swFileNotFound

/-- `apply_response_chaining`. -/
def applyResponseChaining (le : ℕ) (r : Reply) : CardM Reply:=
  if r.sw≠swOk then pure r
  else if le=0 ∨ r.data.length ≤ le then pure r
  else if respBufferSize < r.data.length-le then pure r
  else do
    let respMax ← gets fun c=>c.env.respMax
    updateApp fun a=>{a with resp:=r.data.drop le}
    if respMax < le+2 then pure r
    else
      let remainder:=r.data.length-le
      pure {data:=r.data.take le,sw:=0x6100 ||| if 0xFF < remainder then 0 else UInt16.ofNat remainder}

def cmdGetResponse (c : Cmd) : CardM Reply:=do
  let resp ← appGets (·.resp)
  let respMax ← gets fun card=>card.env.respMax
  if c.p1≠0x00 ∨ c.p2≠0x00 then apduSw swIncorrectP1P2
  else if resp=[] then apduSw swConditionsNotSatisfied
  else
    let want:=min (min (if 0 < c.le then c.le else 256) resp.length) (respMax-2)
    let rest:=resp.length-want
    updateApp fun a=>{a with resp:=resp.drop want}
    pure { data:=resp.take want
           sw:=if 0 < rest then 0x6100 ||| (if 0xFF < rest then 0 else UInt16.ofNat rest) else swOk }

/-- The handlers behind the checks of `dispatch`. -/
def runCommand (c : Cmd) : CardM Reply:=
  if c.ins=0xCA then cmdGetData dev c
  else if c.ins=0xDA then cmdPutData dev cr c
  else if c.ins=0xDB then cmdPutDataOdd dev cr c
  else if c.ins=0x20 then cmdVerify cr c
  else if c.ins=0x24 then cmdChangeReferenceData cr c
  else if c.ins=0x2C then cmdResetRetryCounter cr c
  else if c.ins=0x2A then
    if c.p1=0x9E ∧ c.p2=0x9A then cmdPsoCds dev cr c
    else if c.p1=0x80 ∧ c.p2=0x86 then cmdPsoDecipher dev cr c
    else apduSw swIncorrectP1P2
  else if c.ins=0x88 then cmdInternalAuthenticate dev cr c
  else if c.ins=0x22 then cmdManageSecurityEnv c
  else if c.ins=0x47 then cmdGenerateKeypair dev cr c
  else if c.ins=0x84 then do buildResponse (← randomFill (min (if 0 < c.le then c.le else 8) 255)).toList
  else if c.ins=0xF1 then buildResponse dev.version
  else if c.ins=0xE6 then cmdTerminateDf cr c
  else if c.ins=0x44 then cmdActivateFile cr c
  else apduSw swInsNotSupported

def dispatch (c : Cmd) : CardM Reply:=do
  if c.ins=0xA4 then cmdSelect c.data
  else if !(← appGets (·.appSelected)) then apduSw swConditionsNotSatisfied
  else if (← appGets (·.cardTerminated)) && c.ins != 0x44 then apduSw swFileTerminated
  else if c.ins=0xC0 then cmdGetResponse c
  else do applyResponseChaining c.le (← runCommand dev cr c)

def chainReset : CardM Unit:=updateApp fun a=>{a with chain:=none}

def Cmd.ofApdu (a : Scard.Apdu) (data : Bytes) : Cmd:={ins:=a.ins,p1:=a.p1,p2:=a.p2,data,le:=a.le}

/-- A block of a chain, after those that have come: the command, if this was the last block. -/
def acceptBlock (a : Scard.Apdu) (before : Bytes) : CardM (Except Reply Cmd):=do
  let data:=before++a.data
  if chainBufferSize < data.length then
    chainReset
    pure (.error {sw:=swWrongLength})
  else if a.cla &&& 0x10≠0 then
    updateApp fun s=>{s with chain:=some {ins:=a.ins,p1:=a.p1,p2:=a.p2,data}}
    pure (.error {sw:=swOk})
  else
    chainReset
    pure (.ok {Cmd.ofApdu a data with chained:=true})

def reassemble (a : Scard.Apdu) : CardM (Except Reply Cmd):=do
  if a.cla &&& 0xEF≠0 then
    chainReset
    pure (.error {sw:=swClaNotSupported})
  else
    match ← appGets (·.chain) with
    | none=>if a.cla &&& 0x10≠0 then acceptBlock a [] else pure (.ok (Cmd.ofApdu a a.data))
    | some chain=>
      if a.ins≠chain.ins ∨ a.p1≠chain.p1 ∨ a.p2≠chain.p2 then
        chainReset
        pure (.error {sw:=swWrongData})
      else acceptBlock a chain.data

def openpgpProcessApdu (raw : Bytes) : CardM Reply:=
  match Scard.apduParse raw with
  | none=>apduSw swWrongLength
  | some a=>do
    when (a.ins≠0xC0) (updateApp fun s=>{s with resp:=[]})
    match ← reassemble a with
    | .error reply=>pure reply
    | .ok c=>dispatch dev cr c

def openpgpDeselect : CardM Unit:=
  updateApp fun a=>{ a with
    appSelected:=false,pw1Verified:=false,pw3Verified:=false,sessionPin:=[],chain:=none,resp:=[] }

def openpgpHasAnyKey (d : CardData) : Bool:=
  d.fingerprint .sig != zeros 20 || d.fingerprint .dec != zeros 20 || d.fingerprint .aut != zeros 20

def openpgpSetKeyFingerprint (r : Role) (fp : ByteArr 20) (genTime : UInt32) : CardM Unit:=do
  updateData fun d=>{ d with fingerprint:=Function.update d.fingerprint r fp
                             genTime:=Function.update d.genTime r (fit 4 (be32 genTime)) }
  saveStateToNvs cr

def openpgpSetCardholderName (name : Bytes) : CardM Unit:=do
  updateData fun d=>{d with cardholderName:=(cstr name).take 39}
  saveStateToNvs cr

def mpi (bits : ℕ) (prefixByte : UInt8) (point : Bytes) : Bytes:=be16Bytes bits++prefixByte::point

def curveOid : EccCurve→Bytes
  | .ed25519=>0x09::oidEd25519
  | .p256=>0x08::oidP256

def publicKeyBody (curve : EccCurve) (pubkey : Bytes) (createdAt : UInt32) : Bytes:=
  0x04::be32 createdAt++match curve with
    | .ed25519=>algoEddsa::curveOid .ed25519++mpi 263 0x40 (pubkey.take 32)
    | .p256=>algoEcdsa::curveOid .p256++mpi 515 0x04 (pubkey.take 64)

def ecdhPublicKeyBody (pubkey : Bytes) (createdAt : UInt32) : Bytes:=
  0x04::be32 createdAt++algoEcdh::curveOid .p256++mpi 515 0x04 (pubkey.take 64)++[0x03,0x01,0x08,0x07]

/-- `99`, the length, and the body. -/
def keyHashInput (body : Bytes) : Bytes:=0x99::be16Bytes body.length++body

def fingerprintV4 (body : Bytes) : ByteArr 20:=cr.sha1 (keyHashInput body)

def seGetPubkey (r : Role) : CardM (Option EccKey):=do
  match ← seCall (Chip.eccGetPublicKey r.slot) with
  | .error _=>pure none
  | .ok key=>pure (some key)

/-- The end of `gpg_generate_key`: fingerprints and the pending name. -/
def publishKeys (dec : ByteArr 64) : CardM Bool:=do
  let createdAt ← gets fun c=>c.env.time
  match ← seGetPubkey .sig with
  | none=>pure false
  | some sig=>
    match ← seGetPubkey .aut with
    | none=>pure false
    | some aut=>
      let fp (k : EccKey):=fingerprintV4 cr (publicKeyBody k.curve (cr.publicKey k).toList createdAt)
      openpgpSetKeyFingerprint cr .sig (fp sig) createdAt
      openpgpSetKeyFingerprint cr .dec (fingerprintV4 cr (ecdhPublicKeyBody dec.toList createdAt)) createdAt
      openpgpSetKeyFingerprint cr .aut (fp aut) createdAt
      let userId ← appGets (·.pendingUserId)
      when (userId≠[]) (openpgpSetCardholderName cr userId)
      updateApp fun a=>{a with pendingUserId:=[]}
      pure true

/-- `gpg_generate_key`. The configured algorithms are not looked at. -/
def gpgGenerateKey (curve : EccCurve) : CardM Bool:=do
  let ready ← appGets fun a=>a.pendingUserId != [] || openpgpHasAnyKey a.toCardData
  if !ready then pure false
  else if !(← seGenerate Role.sig.slot curve) then pure false
  else if !(← seGenerate Role.aut.slot curve) then pure false
  else
    eccDelete .dec
    match ← generateDecKey dev cr with
    | none=>pure false
    | some dec=>publishKeys cr dec

def gpgSetPendingUserId (userId : Bytes) : CardM Bool:=
  if cstr userId=[] then pure false
  else do
    updateApp fun a=>{a with pendingUserId:=(cstr userId).take 63}
    pure true

def gpgReset : CardM Bool:=do
  openpgpFactoryReset cr
  updateApp fun a=>{a with pendingUserId:=[]}
  pure true

/-- `openpgp_init`: the PIN record, then the flash record. -/
def openpgpInit : CardM Unit:=do
  let _ ← onPins (Pin.init cr.toCrypto)
  loadStateFromNvs cr

inductive CardOp
  | apdu (raw : Bytes)
  | deselect
  | generateKey (curve : EccCurve)
  | setPendingUserId (userId : Bytes)
  | reset
  | powerOn
  | powerOff

def CardOp.run : CardOp → CardM (Option Reply)
  | .apdu raw=>do pure (some (← openpgpProcessApdu dev cr raw))
  | .deselect=>do openpgpDeselect; pure none
  | .generateKey curve=>do let _ ← gpgGenerateKey dev cr curve; pure none
  | .setPendingUserId userId=>do let _ ← gpgSetPendingUserId userId; pure none
  | .reset=>do let _ ← gpgReset cr; pure none
  | .powerOn=>do openpgpInit cr; pure none
  | .powerOff=>stop ⟨⟩

end Commands

structure CardInput where
  op : CardOp
  env : Env:={}

def newCard : Card where
  badge:={ chip:={ ecc:=fun slot=>if slot=Pin.attestationEccSlot then some ⟨.p256,1⟩ else none
                   rmem:=fun _=>none } }

def Card.powerCut (c : Card) : Card:={c with badge:=c.badge.reboot,app:={},on:=false}

def Card.given (c : Card) (e : Env) : Card:=
  {c with env:=e,badge:={c.badge with loads:=e.loads,saves:=e.saves,salts:=e.salts}}

/-- Nothing but power-on reaches a device that is off, and a device that is on is not switched on again. -/
def CardInput.reaches (i : CardInput) (c : Card) : Bool:=
  match i.op with
  | .powerOn=>!c.on
  | _=>c.on

def respond (dev : Device) (cr : GpgCrypto) (c : Card) (i : CardInput) : Option Reply × Card:=
  if !i.reaches c then (none,c)
  else
    match i.op.run dev cr (c.given i.env) with
    | (.ok reply,c')=>(reply,{c' with on:=true})
    | (.error _,c')=>(none,c'.powerCut)

def step (dev : Device) (cr : GpgCrypto) (c : Card) (i : CardInput) : Card:=(respond dev cr c i).2

theorem respond_apdu {dev : Device} {cr : GpgCrypto} {c : Card} {raw : Bytes} {e : Env} (hon : c.on=true) :
    respond dev cr c ⟨.apdu raw,e⟩=match openpgpProcessApdu dev cr raw (c.given e) with
      | (.ok reply,c')=>(some reply,{c' with on:=true})
      | (.error _,c')=>(none,c'.powerCut):=by
  have hreaches : (!CardInput.reaches ⟨.apdu raw,e⟩ c)=false:=by simp [CardInput.reaches,hon]
  unfold respond
  rw [hreaches]
  simp only [CardOp.run,bind_apply,Bool.false_eq_true,if_false]
  cases openpgpProcessApdu dev cr raw (c.given e) with
  | mk r c'=>cases r <;> rfl

end CdcBadge.OpenPgp
