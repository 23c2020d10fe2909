import CdcBadge.OpenPgpPins

/-!
# The keys of the OpenPGP card

Algorithm attributes, import and generation of keys, and the operations that use them.
-/

namespace CdcBadge.OpenPgp

open Handler

def algoRsa : UInt8:=0x01
def algoEcdh : UInt8:=0x12
def algoEcdsa : UInt8:=0x13
def algoEddsa : UInt8:=0x16

def oidP256 : Bytes:=[0x2A,0x86,0x48,0xCE,0x3D,0x03,0x01,0x07]
def oidEd25519 : Bytes:=[0x2B,0x06,0x01,0x04,0x01,0xDA,0x47,0x0F,0x01]
def oidX25519 : Bytes:=[0x2B,0x06,0x01,0x04,0x01,0x97,0x55,0x01,0x05,0x01]

/-- `algo_attr_curve_t`. -/
inductive AttrCurve | unknown | p256 | ed25519 | x25519 deriving DecidableEq, Repr

/-- `algo_attr_t`. -/
inductive AlgoAttr
  | rsa (nBits eBits : UInt16) (fmt : UInt8)
  | ecc (algoId : UInt8) (curve : AttrCurve)
  deriving DecidableEq

def classifyOid (oid : Bytes) : AttrCurve:=
  if oid=oidP256 then .p256
  else if oid=oidEd25519 then .ed25519
  else if oid=oidX25519 then .x25519
  else .unknown

def u16 (hi lo : UInt8) : UInt16:=(hi.toUInt16 <<< 8) ||| lo.toUInt16

/-- `algo_attr_parse`. A trailing `FF` tells the import format of an ECC key. -/
def algoAttrParse (bytes : Bytes) : Option AlgoAttr:=
  match bytes with
  | id::b::rest=>
    if id=algoRsa then
      match b::rest with
      | n₁::n₀::e₁::e₀::fmt::_=>
        let nBits:=u16 n₁ n₀
        let eBits:=u16 e₁ e₀
        if !supportedBits nBits.toNat ∨ eBits=0 ∨ 64 < eBits ∨ 3 < fmt then none
        else some (.rsa nBits eBits fmt)
      | _=>none
    else if id=algoEcdh ∨ id=algoEcdsa ∨ id=algoEddsa then
      let oid:=b::rest
      some (.ecc id (classifyOid (if oid.getLast? = some 0xFF then oid.dropLast else oid)))
    else none
  | _=>none

/-- `algo_attr_validate_role`. -/
def algoAttrValidateRole (attr : AlgoAttr) (role : Role) : Bool:=
  match attr, role with
  | .rsa .., _=>true
  | .ecc id _, .dec=>id == algoEcdh
  | .ecc id _, _=>id == algoEcdsa || id == algoEddsa

/-- `algo_attr_validate_capability`, with RSA supported. -/
def algoAttrValidateCapability (attr : AlgoAttr) : Bool:=
  match attr with
  | .rsa .. => true
  | .ecc id .p256=>id == algoEcdsa || id == algoEcdh
  | .ecc id .ed25519=>id == algoEddsa
  | .ecc _ _=>false

def be16Of (n : UInt16) : Bytes:=[(n >>> 8).toUInt8,n.toUInt8]

namespace CardData

variable (d : CardData)

def curveOf : Role → EccCurve
  | .sig=>d.selectedCurveSig
  | .dec=>.p256
  | .aut=>d.selectedCurveAut

def setCurve (curve : EccCurve) : Role → CardData
  | .sig=>{d with selectedCurveSig:=curve}
  | .dec=>d
  | .aut=>{d with selectedCurveAut:=curve}

def setRsa (r : Role) (attr : RsaAttr) : CardData:={d with rsa:=Function.update d.rsa r attr}

/-- `get_algo_attr`. -/
def algoAttr (r : Role) : Bytes:=
  let attr:=d.rsa r
  if attr.isRsa then
    algoRsa::be16Of attr.nBits++be16Of (if attr.eBits=0 then 32 else attr.eBits)++[attr.fmt]
  else
    match r, d.curveOf r with
    | .dec, _=>algoEcdh::oidP256
    | _, .p256=>algoEcdsa::oidP256
    | _, .ed25519=>algoEddsa::oidEd25519

def forgetKey (r : Role) : CardData:=
  { d with fingerprint:=Function.update d.fingerprint r (zeros 20)
           genTime:=Function.update d.genTime r (zeros 4) }

end CardData

def updateData (f : CardData → CardData) : CardM Unit:=
  updateApp fun a=>{a with toCardData:=f a.toCardData}

section Keys

variable (dev : Device) (cr : GpgCrypto)

/-- `wipe_role_key`. -/
def wipeRoleKey (r : Role) : CardM Unit:=do
  let _ ← gpgStorageDeleteRsaKey r
  match r with
  | .dec=>do let _ ← gpgStorageDeleteDecPrivkey; pure ()
  | r=>eccDelete r
  updateData fun d=>d.forgetKey r

def changeAttr (r : Role) (f : CardData → CardData) : CardM Reply:=do
  wipeRoleKey r
  updateData f
  saveStateToNvs cr
  apduSw swOk

def putDataAlgoAttr (r : Role) (data : Bytes) : CardM Reply:=
  match algoAttrParse data with
  | none=>apduSw swWrongData
  | some attr=>
    if !algoAttrValidateRole attr r then apduSw swWrongData
    else if !algoAttrValidateCapability attr then apduSw swWrongData
    else do
      let old ← appGets fun a=>a.rsa r
      match attr with
      | .rsa nBits eBits fmt=>
        -- Only another modulus size counts as a change.
        if old.isRsa ∧ old.nBits=nBits then apduSw swOk
        else changeAttr cr r fun d=>
          d.setRsa r {isRsa:=true,nBits,eBits:=if eBits=0 then 32 else eBits,fmt}
      | .ecc id curve=>
        if r=.dec then
          if curve≠.p256 ∨ id≠algoEcdh then apduSw swWrongData
          else if !old.isRsa then apduSw swOk
          else changeAttr cr r fun d=>d.setRsa r {old with isRsa:=false}
        else
          let newCurve:=if curve=.ed25519 then EccCurve.ed25519 else .p256
          let target ← appGets fun a=>a.curveOf r
          if !old.isRsa ∧ target=newCurve then apduSw swOk
          else changeAttr cr r fun d=>(d.setRsa r {old with isRsa:=false}).setCurve newCurve r

/-- `update_generation_timestamp`. A reference that names no role changes no time. -/
def updateGenerationTimestamp (keyRef : UInt8) : CardM Unit:=do
  let now ← gets fun c=>c.env.time
  match roleForKeyRef keyRef with
  | some r=>updateData fun d=>{d with genTime:=Function.update d.genTime r (fit 4 (be32 now))}
  | none=>pure ()
  saveStateToNvs cr

/-- `ehl_parse_one`: a tag, its value, and what is behind it. -/
def ehlParseOne (bs : Bytes) : Option (ℕ × Bytes × Bytes):=do
  let (tag,rest) ← (match bs with
    | []=>none
    | t::rest=>
      if t &&& 0x1F=0x1F then
        match rest with
        | []=>none
        | t'::rest=>some (t.toNat*256+t'.toNat,rest)
      else some (t.toNat,rest) : Option (ℕ × Bytes))
  let (len,rest) ← ehlLength rest
  if rest.length < len then none else some (tag,rest.take len,rest.drop len)
where
  ehlLength : Bytes→Option (ℕ × Bytes)
    | []=>none
    | b::rest=>
      if b < 0x80 then some (b.toNat,rest)
      else if b=0x81 then
        match rest with
        | []=>none
        | l::rest=>some (l.toNat,rest)
      else if b=0x82 then
        match rest with
        | l₁::l₀::rest=>some (l₁.toNat*256+l₀.toNat,rest)
        | _=>none
      else none

def parseRsaImport : ℕ→Bytes→Bytes→Option Bytes × Option Bytes × Option Bytes →
    Option (Bytes × Bytes × Bytes)
  | _, [], _, (some e,some p,some q)=>some (e,p,q)
  | fuel+1, t::tmpl, concat, (e,p,q)=>
    match ehlParseOne.ehlLength tmpl with
    | none=>none
    | some (len,tmpl)=>
      if concat.length < len then none
      else
        let val:=concat.take len
        parseRsaImport fuel tmpl (concat.drop len)
          (if t=0x91 then (some val,p,q) else if t=0x92 then (e,some val,q)
            else if t=0x93 then (e,p,some val) else (e,p,q))
  | _, _, _, _=>none

def collectImport : ℕ→Bytes→Option Bytes × Option Bytes→Option (Option Bytes × Option Bytes)
  | _, [], found=>some found
  | fuel+1, bs, (tmpl,concat)=>
    match ehlParseOne bs with
    | none=>none
    | some (tag,v,rest)=>
      collectImport fuel rest
        (if tag=0x7F48 then (some v,concat) else if tag=0x5F48 then (tmpl,some v) else (tmpl,concat))
  | 0, _, _=>none

def importRsa (r : Role) (tmpl : Option Bytes) (concat : Bytes) : CardM Reply:=do
  let nBits ← appGets fun a=>(a.rsa r).nBits
  match tmpl with
  | none=>apduSw swWrongData
  | some tmpl=>
    match parseRsaImport tmpl.length tmpl concat (none,none,none) with
    | none=>apduSw swWrongData
    | some (e,p,q)=>
      match gpgRsaBlobBuild cr nBits e p q with
      | none=>apduSw swWrongData
      | some blob=>
        if ← gpgStorageSaveRsaKey dev cr r blob none then
          updateGenerationTimestamp cr r.keyRef
          apduSw swOk
        else apduSw swUnknown

def eccImport (r : Role) (scalar : Bytes) (curve : EccCurve) : CardM Bool:=do
  match ← seCall (Chip.eccGenerate r.slot ⟨curve,ofBe scalar⟩) with
  | .ok _=>pure true
  | .error _=>pure false

def importEcc (r : Role) (concat : Bytes) : CardM Reply:=do
  if concat.length < 32 then apduSw swWrongData
  else
    let scalar:=concat.take 32
    let curve ← appGets fun a=>a.curveOf r
    let ok ← (if r=.dec then gpgStorageSaveDecPrivkey dev cr (fit 32 scalar) none else eccImport r scalar curve)
    if ok then
      updateGenerationTimestamp cr r.keyRef
      apduSw swOk
    else apduSw swUnknown

def cmdPutDataOdd (c : Cmd) : CardM Reply:=do
  if !(← appGets (·.pw3Verified)) then apduSw swSecurityNotSatisfied
  else if c.p1≠0x3F ∨ c.p2≠0xFF then apduSw swIncorrectP1P2
  else if c.data=[] then apduSw swWrongLength
  else
    match ehlParseOne c.data with
    | none=>apduSw swWrongData
    | some (tag,outer,_)=>
      if tag≠0x4D then apduSw swWrongData
      else
        match ehlParseOne outer with
        | none=>apduSw swWrongData
        | some (crt,_,inner)=>
          match roleForKeyRef (UInt8.ofNat crt) with
          | none=>apduSw swWrongData
          | some r=>
            match collectImport inner.length inner (none,none) with
            | none=>apduSw swWrongData
            | some (tmpl,concat)=>
              let concat:=concat.getD []
              if concat=[] then apduSw swWrongData
              else if (← appGets fun a=>(a.rsa r).isRsa) then importRsa dev cr r tmpl concat
              else importEcc dev cr r concat

def seGenerate (slot : ℕ) (curve : EccCurve) : CardM Bool:=do
  let key : EccKey:=⟨curve,← nextSecret⟩
  match ← seCall (Chip.eccGenerate slot key) with
  | .ok _=>pure true
  | .error _=>
    let _ ← seCall (Chip.eccDelete slot)
    match ← seCall (Chip.eccGenerate slot key) with
    | .ok _=>pure true
    | .error _=>pure false

def generateDecKey : CardM (Option (ByteArr 64)):=do
  let privkey ← randomFill 32
  match cr.ecdhPublic privkey with
  | none=>pure none
  | some point=>do
    if ← gpgStorageSaveDecPrivkey dev cr privkey none then pure (some point) else pure none

/-- `get_ecc_slot_for_key_ref` and `get_key_type_for_ref`: an unknown reference stands for SIG. -/
def keyTypeForRef (keyRef : UInt8) : Role:=(roleForKeyRef keyRef).getD .sig

def readPublicKey (r : Role) : CardM (Option (Bytes × EccCurve)):=do
  let stale ← gets fun c=>c.env.stale
  if r=.dec then
    if !(← gpgStorageHasDecPrivkey dev) then pure none
    else
      match ← gpgStorageLoadDecPrivkey dev cr none with
      | none=>pure none
      | some privkey=>pure ((cr.ecdhPublic privkey).map fun point=>(0x04::point.toList,EccCurve.p256))
  else
    match ← seCall (Chip.eccGetPublicKey r.slot) with
    | .error _=>pure none
    | .ok key=>pure (some ((cr.publicKey key).toList++[stale],key.curve))

/-- `encode_pubkey_with_prefix`: a point that starts with `04` is taken for one with its prefix. -/
def encodePubkeyWithPrefix (pubkey : Bytes) (curve : EccCurve) : Bytes:=
  match curve with
  | .p256=>if pubkey.head? = some 0x04 then pubkey.take 65 else 0x04::pubkey.take 64
  | .ed25519=>pubkey.take 32

def tlvWriteTag (tag : ℕ) : Bytes:=
  if 0xFF < tag then [UInt8.ofNat (tag/256),UInt8.ofNat tag] else [UInt8.ofNat tag]

def tlvWriteLen (len : ℕ) : Bytes:=
  if len < 128 then [UInt8.ofNat len]
  else if len < 256 then [0x81,UInt8.ofNat len]
  else [0x82,UInt8.ofNat (len/256),UInt8.ofNat len]

def tlvBuild (tag : ℕ) (value : Bytes) : Bytes:=tlvWriteTag tag++tlvWriteLen value.length++value

/-- The public-key data object `7F49 { 86 <point> }`. -/
def publicKeyDo (pubkey : Bytes) (curve : EccCurve) : Bytes:=
  tlvBuild 0x7F49 (tlvBuild 0x86 (encodePubkeyWithPrefix pubkey curve))

/-- `apdu_build_response`: what does not fit into the buffer is cut off. -/
def buildResponse (data : Bytes) : CardM Reply:=do
  let respMax ← gets fun c=>c.env.respMax
  pure {data:=data.take (respMax-2),sw:=swOk}

def buildRsaPubkeyFromStorage (r : Role) : CardM Reply:=do
  match ← gpgStorageLoadRsaKey dev cr r none with
  | none=>apduSw swReferencedDataNotFound
  | some blob=>
    match gpgRsaBlobPublic cr blob with
    | none=>apduSw swUnknown
    | some (n,e)=>buildResponse (tlvBuild 0x7F49 (tlvBuild 0x81 n++tlvBuild 0x82 e))

def reportPublicKey (r : Role) : CardM Reply:=do
  match ← readPublicKey dev cr r with
  | none=>apduSw swReferencedDataNotFound
  | some (pubkey,curve)=>buildResponse (publicKeyDo pubkey curve)

def generateRsa (r : Role) : CardM Reply:=do
  let nBits ← appGets fun a=>(a.rsa r).nBits
  match gpgRsaGenerate cr nBits (← nextSecret) with
  | none=>apduSw swUnknown
  | some blob=>
    if ← gpgStorageSaveRsaKey dev cr r blob none then
      updateGenerationTimestamp cr r.keyRef
      buildRsaPubkeyFromStorage dev cr r
    else apduSw swUnknown

def generateEcc (r : Role) (keyRef : UInt8) : CardM Reply:=do
  let curve ← appGets fun a=>a.curveOf r
  if r=.dec then
    match ← generateDecKey dev cr with
    | none=>apduSw swUnknown
    | some point=>
      updateGenerationTimestamp cr keyRef
      buildResponse (publicKeyDo (0x04::point.toList) .p256)
  else
    if ← seGenerate r.slot curve then
      updateGenerationTimestamp cr keyRef
      reportPublicKey dev cr r
    else apduSw swUnknown

def cmdGenerateKeypair (c : Cmd) : CardM Reply:=do
  let keyRef:=if 2 ≤ c.data.length then c.data.headD 0 else Role.sig.keyRef
  let r:=keyTypeForRef keyRef
  let isRsa ← appGets fun a=>(roleForKeyRef keyRef).any fun r=>(a.rsa r).isRsa
  let pw3Verified ← appGets (·.pw3Verified)
  if isRsa then
    if c.p1=0x80 then
      if !pw3Verified then apduSw swSecurityNotSatisfied else generateRsa dev cr r
    else buildRsaPubkeyFromStorage dev cr r
  else if c.p1=0x80 then
    if !pw3Verified then apduSw swSecurityNotSatisfied else generateEcc dev cr r keyRef
  else reportPublicKey dev cr r

/-- `Tropic01Element::ecdsaSign`: the message is hashed before the chip signs. An empty one is refused. -/
def ecdsaSign (slot : ℕ) (msg : Bytes) : CardM (Option (ByteArr 64)):=do
  if msg=[] then pure none
  else
    let nonce ← nextNonce
    match ← seCall (Chip.eccSigningKey slot) with
    | .error _=>pure none
    | .ok key=>if key.curve=.p256 then pure (some (cr.ecdsaSign key nonce (cr.sha256 msg))) else pure none

def eddsaSign (slot : ℕ) (msg : Bytes) : CardM (Option (ByteArr 64)):=do
  if msg=[] then pure none
  else
    match ← seCall (Chip.eccSigningKey slot) with
    | .error _=>pure none
    | .ok key=>if key.curve=.ed25519 then pure (some (cr.eddsaSign key msg)) else pure none

def rsaSignWith (r : Role) (data : Bytes) : CardM (Except UInt16 Bytes):=do
  match ← gpgStorageLoadRsaKey dev cr r none with
  | none=>pure (.error swConditionsNotSatisfied)
  | some blob=>
    match gpgRsaSign cr blob data with
    | none=>pure (.error swUnknown)
    | some sig=>pure (.ok sig)

def eccSignWith (r : Role) (checkLength : Bool) (data : Bytes) : CardM (Except UInt16 Bytes):=do
  match ← seCall (Chip.eccGetPublicKey r.slot) with
  | .error _=>pure (.error swConditionsNotSatisfied)
  | .ok key=>
    if key.curve=.p256 ∧ checkLength ∧ data.length≠32 then pure (.error swWrongData)
    else
      match ← (if key.curve=.p256 then ecdsaSign cr r.slot data else eddsaSign cr r.slot data) with
      | none=>pure (.error swUnknown)
      | some sig=>pure (.ok sig.toList)

def countSignature : CardM Unit:=do
  updateData fun d=>{d with sigCount:=d.sigCount+1}
  saveStateToNvs cr

def cmdPsoCds (c : Cmd) : CardM Reply:=do
  if !(← appGets (·.pw1Verified)) then apduSw swSecurityNotSatisfied
  else
    let isRsa ← appGets fun a=>(a.rsa .sig).isRsa
    match ← (if isRsa then rsaSignWith dev cr .sig c.data else eccSignWith cr .sig true c.data) with
    | .error sw=>apduSw sw
    | .ok sig=>
      countSignature cr
      buildResponse sig

/-- `INTERNAL AUTHENTICATE`: the challenge may have any length. -/
def cmdInternalAuthenticate (c : Cmd) : CardM Reply:=do
  if c.p1≠0x00 ∨ c.p2≠0x00 then apduSw swIncorrectP1P2
  else if !(← appGets (·.pw1Verified)) then apduSw swSecurityNotSatisfied
  else if c.data=[] then apduSw swWrongLength
  else
    let isRsa ← appGets fun a=>(a.rsa .aut).isRsa
    match ← (if isRsa then rsaSignWith dev cr .aut c.data else eccSignWith cr .aut false c.data) with
    | .error sw=>apduSw sw
    | .ok sig=>buildResponse sig

def sessionPin : CardM (Option Bytes):=appGets fun a=>if a.sessionPin=[] then none else some a.sessionPin

/-- `02 || IV || ciphertext`. -/
def cmdPsoDecipherAes (data : Bytes) : CardM Reply:=do
  let respMax ← gets fun c=>c.env.respMax
  if !(← gpgStorageHasAesKey dev) then apduSw swConditionsNotSatisfied
  else if data.length < 1+16+1 then apduSw swWrongData
  else
    let iv:=(data.drop 1).take 16
    let ct:=data.drop 17
    if respMax-2 < ct.length then apduSw swWrongLength
    else
      match ← gpgStorageLoadAesKey dev cr (← sessionPin) with
      | none=>apduSw swSecurityNotSatisfied
      | some key=>
        if 256 < ct.length then apduSw swWrongLength
        else buildResponse (cr.aesCfbDecrypt key iv ct)

def skipLength : Bytes→Option Bytes
  | []=>none
  | b::rest=>
    if b < 0x80 then some rest
    else if b=0x81 ∧ rest≠[] then some (rest.drop 1)
    else if b=0x82 ∧ 2 ≤ rest.length then some (rest.drop 2)
    else none

/-- The peer's point in `A6 { 7F49 { 86 <point> } }`. -/
def cipherDoPoint (data : Bytes) : Option Bytes:=do
  if data.length < 70 then none
  else
    match data with
    | 0xA6::rest=>
      match ← skipLength rest with
      | 0x7F::0x49::rest=>
        match ← skipLength rest with
        | 0x86::rest=>
          let (len,point) ← ehlParseOne.ehlLength rest
          if len≠65 ∨ point.length < len then none
          else if point.head? ≠ some 0x04 then none
          else some (point.take 65)
        | _=>none
      | _=>none
    | _=>none

def decipherRsa (data : Bytes) : CardM Reply:=do
  if data.length < 2 then apduSw swWrongData
  else
    match ← gpgStorageLoadRsaKey dev cr .dec none with
    | none=>apduSw swConditionsNotSatisfied
    | some blob=>
      match gpgRsaDecrypt cr blob (data.drop 1) with
      | none=>apduSw swUnknown
      | some plain=>buildResponse plain

def decipherEcdh (data : Bytes) : CardM Reply:=do
  if !(← gpgStorageHasDecPrivkey dev) then apduSw swConditionsNotSatisfied
  else
    match cipherDoPoint data with
    | none=>apduSw swWrongData
    | some point=>
      match ← gpgStorageLoadDecPrivkey dev cr none with
      | none=>apduSw swSecurityNotSatisfied
      | some privkey=>
        match cr.ecdhSecret privkey point with
        | none=>apduSw swUnknown
        | some secret=>buildResponse secret.toList

def cmdPsoDecipher (c : Cmd) : CardM Reply:=do
  if !(← appGets (·.pw1Verified)) then apduSw swSecurityNotSatisfied
  else if c.data=[] then apduSw swWrongData
  else if c.data.head? = some 0x02 then cmdPsoDecipherAes dev cr c.data
  else if (← appGets fun a=>(a.rsa .dec).isRsa) then decipherRsa dev cr c.data
  else decipherEcdh dev cr c.data

/-- `MANAGE SECURITY ENVIRONMENT`: references that match the roles are accepted, and nothing changes. -/
def cmdManageSecurityEnv (c : Cmd) : CardM Reply:=
  if c.p1≠0x41 then apduSw swIncorrectP1P2
  else
    match roleForKeyRef c.p2 with
    | none=>apduSw swIncorrectP1P2
    | some r=>
      match c.data with
      | []=>apduSw swWrongLength
      | 0x83::0x01::ref::_=>
        if ref≠1 ∧ ref≠2 ∧ ref≠3 then apduSw swWrongData
        else if ref.toNat≠r.index+1 then apduSw swConditionsNotSatisfied
        else apduSw swOk
      | _=>apduSw swWrongData

end Keys

end CdcBadge.OpenPgp
