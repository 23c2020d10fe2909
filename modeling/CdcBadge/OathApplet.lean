import CdcBadge.Apdu
import CdcBadge.PinManager

/-!
# The YKOATH applet

The APDU state machine over a backend that holds the credentials, the access key and the
device id.
-/

namespace CdcBadge.Oath

open Handler
open Pin (PowerLost)

def insPut : UInt8:=0x01
def insDelete : UInt8:=0x02
def insSetCode : UInt8:=0x03
def insReset : UInt8:=0x04
def insList : UInt8:=0xA1
def insCalculate : UInt8:=0xA2
def insValidate : UInt8:=0xA3
def insCalculateAll : UInt8:=0xA4
def insSendRemaining : UInt8:=0xA5

/-- The same byte as `CALCULATE ALL`; a SELECT has a P1 of 4. -/
def insIsoSelect : UInt8:=0xA4

def tagName : UInt8:=0x71
def tagNameList : UInt8:=0x72
def tagKey : UInt8:=0x73
def tagChallenge : UInt8:=0x74
def tagFullResp : UInt8:=0x75
def tagTruncResp : UInt8:=0x76
def tagHotp : UInt8:=0x77
def tagProperty : UInt8:=0x78
def tagVersion : UInt8:=0x79
def tagImf : UInt8:=0x7A
def tagAlgo : UInt8:=0x7B
def tagTouch : UInt8:=0x7C

def typeHotp : UInt8:=0x10
def typeTotp : UInt8:=0x20
def typeMask : UInt8:=0xF0
def algoMask : UInt8:=0x0F
def propTouch : UInt8:=0x02

def swOk : UInt16:=0x9000
def swNoSpace : UInt16:=0x6A84
def swAuthRequired : UInt16:=0x6982
def swWrongSyntax : UInt16:=0x6A80
def swNoSuchObject : UInt16:=0x6984
def swNotSatisfied : UInt16:=0x6985
def swWrongLength : UInt16:=0x6700
def swInsNotSupported : UInt16:=0x6D00

/-- `61xx`: so many bytes are left, or more than 255. -/
def swMore (left : ℕ) : UInt16:=0x6100 ||| if 0xFF < left then 0 else UInt16.ofNat left

def otypeTotp : UInt8:=0
def otypeHotp : UInt8:=1
def otypeCr : UInt8:=2
def oflagTouch : UInt8:=0x01

/-- `oath_meta_t` of a used slot, its texts without their NUL. -/
structure Meta where
  name : Bytes
  issuer : Bytes
  type : UInt8
  algorithm : UInt8
  digits : UInt8
  period : ℕ
  flags : UInt8
  deriving DecidableEq

/-- What `addRaw` is given. -/
structure Account where
  type : UInt8
  name : Bytes
  issuer : Bytes
  secret : Bytes
  digits : UInt8
  period : ℕ
  algorithm : UInt8
  counter : ℕ
  flags : UInt8
  deriving DecidableEq

/-- `oath_backend_t`, over its own state. -/
structure Backend (β : Type) where
  capacity : β → ℕ
  read : ℕ→Handler PowerLost β (Option Meta)
  calculate : ℕ→ByteArr 8→Handler PowerLost β (Option (ByteArr 4 × UInt8))
  addRaw : Account→Handler PowerLost β Bool
  remove : ℕ→Handler PowerLost β Bool
  wipeAll : Handler PowerLost β Unit
  devId : Handler PowerLost β (ByteArr 8)
  akeyGet : Handler PowerLost β (Option (ByteArr 16))
  akeySet : ByteArr 16→Handler PowerLost β Bool
  akeyClear : Handler PowerLost β Unit
  hmacSha1 : Bytes→Bytes→Handler PowerLost β (Option (ByteArr 20))
  rng : Handler PowerLost β (Option (ByteArr 8))
  touchOk : ℕ→Handler PowerLost β Bool

/-- What a command answers. -/
structure Reply where
  data : Bytes:=[]
  sw : UInt16
  deriving DecidableEq

/-- The statics of the applet. -/
structure Session where
  validated : Bool:=false
  selChallenge : ByteArr 8:=zeros 8
  challengeValid : Bool:=false
  /-- What is left of a response. -/
  resp : Bytes:=[]
  deriving DecidableEq

/-- The applet and its backend, and the size of the response buffer of the running command. -/
structure Ctx (β : Type) where
  app : Session:={}
  be : β
  respMax : ℕ:=2048

abbrev OathM (β : Type):=Handler PowerLost (Ctx β)

/-- An item behind what a buffer of `cap` bytes holds; one that does not fit is left out. -/
def putTlv (cap : ℕ) (buf : Bytes) (tag : UInt8) (val : Bytes) : Bytes:=
  if cap < buf.length+2+val.length ∨ 0xFF < val.length then buf
  else buf++[tag,UInt8.ofNat val.length]++val

def scanTlv : ℕ→Bytes→UInt8→Option Bytes
  | fuel+1, t::l::rest, tag=>
    if rest.length < l.toNat then none
    else if t=tag then some (rest.take l.toNat)
    else scanTlv fuel (rest.drop l.toNat) tag
  | _, _, _=>none

def findTlv (buf : Bytes) (tag : UInt8) : Option Bytes:=scanTlv buf.length buf tag

def slash : UInt8:=0x2F
def colon : UInt8:=0x3A

/-- `%u` -/
def decimal (n : ℕ) : Bytes:=(Nat.toDigits 10 n).map fun c=>UInt8.ofNat c.toNat

/-- `[period/]issuer:account`, with the period where it is not the default. -/
def buildYkName (m : Meta) : Bytes:=
  (if m.type=otypeTotp ∧ m.period≠0 ∧ m.period≠30 then decimal m.period++[slash] else []) ++
    (if m.issuer≠[] then m.issuer++[colon] else [])++m.name

def splitFirst (sep : UInt8) (text : Bytes) : Option (Bytes × Bytes):=
  if sep∈text then some (text.takeWhile (· ≠ sep),(text.dropWhile (· ≠ sep)).tail) else none

def isDigit (byte : UInt8) : Bool:=0x30 ≤ byte && byte ≤ 0x39

/-- `strtol`, which stops at the greatest `long`; a period of zero is not taken. -/
def periodOf (digits : Bytes) : ℕ:=
  let v:=min (digits.foldl (fun n byte=>n*10+(byte.toNat-0x30)) 0) 0x7FFFFFFF
  if 0 < v then v else 30

def nameSize : ℕ:=128
def issuerSize : ℕ:=33
def accountSize : ℕ:=17

def parsePeriod (text : Bytes) : ℕ × Bytes:=
  match splitFirst slash text with
  | some (digits,rest)=>if digits≠[] ∧ digits.all isDigit then (periodOf digits,rest) else (30,text)
  | none=>(30,text)

def parseYkName (name : Bytes) : Option (ℕ × Bytes × Bytes):=
  if nameSize ≤ name.length then none
  else
    let (period,rest):=parsePeriod (cstr name)
    let (issuer,account):=(splitFirst colon rest).getD ([],rest)
    if issuerSize ≤ issuer.length then none
    else if account=[] ∨ accountSize ≤ account.length then none
    else some (period,issuer,account)

def typeAlgoByte (m : Meta) : UInt8:=
  (if m.type=otypeHotp then typeHotp else typeTotp) ||| ((m.algorithm &&& 0x0F)+1)

def buildSize : ℕ:=4096
def respBufferSize : ℕ:=4096

section Commands

variable {β : Type} (b : Backend β)

def appGets {α : Type} (f : Session → α) : OathM β α:=gets fun s=>f s.app

def updateApp (f : Session → Session) : OathM β Unit:=modify fun s=>{s with app:=f s.app}

def call {α : Type} (m : Handler PowerLost β α) : OathM β α:=zoom Ctx.be (fun be s=>{s with be}) m

def answerSw (sw : UInt16) : OathM β Reply:=pure {sw}

/-- The head that the window takes, and the rest for `SEND REMAINING`. -/
def emit (payload : Bytes) (le : ℕ) : OathM β Reply:=do
  let respMax ← gets Ctx.respMax
  let window:=min (if le=0 then 256 else le) (respMax-2)
  if payload.length ≤ window then pure {data:=payload,sw:=swOk}
  else
    let rest:=(payload.drop window).take respBufferSize
    updateApp fun a=>{a with resp:=rest}
    pure {data:=payload.take window,sw:=swMore rest.length}

def cmdSendRemaining (a : Scard.Apdu) : OathM β Reply:=do
  let resp ← appGets (·.resp)
  let respMax ← gets Ctx.respMax
  if resp=[] then answerSw swNotSatisfied
  else
    let want:=min (min (if a.le=0 then 256 else a.le) resp.length) (respMax-2)
    updateApp fun s=>{s with resp:=resp.drop want}
    pure {data:=resp.take want,sw:=if 0 < resp.length-want then swMore (resp.length-want) else swOk}

def readShown (slot : ℕ) : OathM β (Option Meta):=do
  match ← call (b.read slot) with
  | none=>pure none
  | some m=>if m.type=otypeCr then pure none else pure (some m)

def findAmong (name : Bytes) : List ℕ→OathM β (Option ℕ)
  | []=>pure none
  | slot::slots=>do
    match ← readShown b slot with
    | none=>findAmong name slots
    | some m=>if buildYkName m=name then pure (some slot) else findAmong name slots

def findByYkName (name : Bytes) : OathM β (Option ℕ):=
  if nameSize ≤ name.length then pure none
  else do findAmong b name (List.range (← gets fun s=>b.capacity s.be))

/-- An access key locks the session, and the host is given a challenge. A random generator that fails leaves the old
one. -/
def lockSession : OathM β (ByteArr 8):=do
  match ← call b.rng with
  | some challenge=>updateApp fun a=>{a with selChallenge:=challenge,challengeValid:=true}
  | none=>updateApp fun a=>{a with challengeValid:=true}
  appGets (·.selChallenge)

def cmdSelect (le : ℕ) : OathM β Reply:=do
  let devid ← call b.devId
  let akey ← call b.akeyGet
  updateApp fun a=>{a with validated:=akey.isNone}
  let head:=putTlv buildSize (putTlv buildSize [] tagVersion [0x05,0x04,0x03]) tagName devid.toList
  if akey.isSome then
    let challenge ← lockSession b
    emit (putTlv buildSize (putTlv buildSize head tagChallenge challenge.toList) tagAlgo [0x21]) le
  else emit head le

/-- The account that a `PUT` describes. -/
def parsePut (data : Bytes) : Option Account:=do
  let name ← findTlv data tagName
  let key ← findTlv data tagKey
  match key with
  | typeAlgo::digits::secret=>
    if secret=[] ∨ 64 < secret.length then none
    else if typeAlgo &&& algoMask < 1 ∨ 3 < typeAlgo &&& algoMask then none
    else
      let (period,issuer,account) ← parseYkName name
      let prop:=(findTlv data tagProperty).getD []
      let imf:=(findTlv data tagImf).getD []
      some {
        type:=if typeAlgo &&& typeMask=typeHotp then otypeHotp else otypeTotp
        name:=account
        issuer
        secret
        digits
        period
        algorithm:=(typeAlgo &&& algoMask)-1
        counter:=if imf.length=4 then imf.foldl (fun n byte=>n*256+byte.toNat) 0 else 0
        flags:=if prop.headD 0 &&& propTouch≠0 then oflagTouch else 0 }
  | _=>none

def cmdPut (data : Bytes) : OathM β Reply:=
  match parsePut data with
  | none=>answerSw swWrongSyntax
  | some account=>do
    if ← call (b.addRaw account) then answerSw swOk else answerSw swNoSpace

def cmdDelete (data : Bytes) : OathM β Reply:=
  match findTlv data tagName with
  | none=>answerSw swWrongSyntax
  | some name=>do
    match ← findByYkName b name with
    | none=>answerSw swNoSuchObject
    | some slot=>if ← call (b.remove slot) then answerSw swOk else answerSw swNoSuchObject

def listEntry (buf : Bytes) (slot : ℕ) : OathM β Bytes:=do
  match ← readShown b slot with
  | none=>pure buf
  | some m=>pure (putTlv buildSize buf tagNameList (typeAlgoByte m::buildYkName m))

def cmdList (le : ℕ) : OathM β Reply:=do
  let cap ← gets fun s=>b.capacity s.be
  let payload ← (List.range cap).foldlM (listEntry b) []
  emit payload le

def truncItem (code : ByteArr 4 × UInt8) : Bytes:=code.2::code.1.toList

def challengeIn (data : Bytes) : Option (ByteArr 8):=
  match findTlv data tagChallenge with
  | some chal=>if chal.length=8 then some (fit 8 chal) else none
  | none=>none

def cmdCalculate (data : Bytes) (le : ℕ) : OathM β Reply:=
  match findTlv data tagName, challengeIn data with
  | some name, some chal=>do
    match ← findByYkName b name with
    | none=>answerSw swNoSuchObject
    | some slot=>
      match ← call (b.read slot) with
      | none=>answerSw swNoSuchObject
      | some m=>
        let released ← (if m.flags &&& oflagTouch≠0 then call (b.touchOk slot) else pure true)
        if !released then answerSw swNotSatisfied
        else
          match ← call (b.calculate slot chal) with
          | none=>answerSw swNoSuchObject
          | some code=>emit (putTlv buildSize [] tagTruncResp (truncItem code)) le
  | _, _=>answerSw swWrongSyntax

def calculateEntry (chal : ByteArr 8) (buf : Bytes) (slot : ℕ) : OathM β Bytes:=do
  match ← readShown b slot with
  | none=>pure buf
  | some m=>
    let buf:=putTlv buildSize buf tagName (buildYkName m)
    if m.type=otypeHotp then pure (putTlv buildSize buf tagHotp [])
    else if m.flags &&& oflagTouch≠0 then pure (putTlv buildSize buf tagTouch [])
    else
      match ← call (b.calculate slot chal) with
      | some code=>pure (putTlv buildSize buf tagTruncResp (truncItem code))
      | none=>pure (putTlv buildSize buf tagTouch [])

def cmdCalculateAll (data : Bytes) (le : ℕ) : OathM β Reply:=
  match challengeIn data with
  | none=>answerSw swWrongSyntax
  | some chal=>do
    let cap ← gets fun s=>b.capacity s.be
    let payload ← (List.range cap).foldlM (calculateEntry b chal) []
    emit payload le

def responseIn (data : Bytes) : Option Bytes:=
  match findTlv data tagFullResp with
  | some resp=>if resp.length=20 then some resp else none
  | none=>none

def setKey (key : ByteArr 16) (chal : ByteArr 8) (proof : Bytes) : OathM β Reply:=do
  match ← call (b.hmacSha1 key.toList chal.toList) with
  | none=>answerSw swNotSatisfied
  | some expect=>
    if expect.toList≠proof then answerSw swNotSatisfied
    else if ← call (b.akeySet key) then answerSw swOk
    else answerSw swNotSatisfied

def cmdSetCode (data : Bytes) : OathM β Reply:=
  match findTlv data tagKey with
  | none=>answerSw swWrongSyntax
  | some []=>do
    call b.akeyClear
    updateApp fun a=>{a with validated:=true}
    answerSw swOk
  | some (_::key)=>
    if key.length≠16 then answerSw swWrongSyntax
    else
      match challengeIn data, responseIn data with
      | some chal, some proof=>setKey b (fit 16 key) chal proof
      | _, _=>answerSw swWrongSyntax

/-- The host proves the access key over the challenge of the SELECT, and is proved it over its own. -/
def proveKey (akey : ByteArr 16) (proof : Bytes) (hostChal : ByteArr 8) (le : ℕ) : OathM β Reply:=do
  let challenge ← appGets (·.selChallenge)
  match ← call (b.hmacSha1 akey.toList challenge.toList) with
  | none=>answerSw swNotSatisfied
  | some expect=>
    if expect.toList≠proof then answerSw swWrongSyntax
    else
      match ← call (b.hmacSha1 akey.toList hostChal.toList) with
      | none=>answerSw swNotSatisfied
      | some reply=>
        updateApp fun a=>{a with validated:=true,challengeValid:=false}
        emit (putTlv buildSize [] tagFullResp reply.toList) le

def cmdValidate (data : Bytes) (le : ℕ) : OathM β Reply:=do
  match ← call b.akeyGet with
  | none=>answerSw swOk
  | some akey=>
    if !(← appGets (·.challengeValid)) then answerSw swNotSatisfied
    else
      match responseIn data, challengeIn data with
      | some proof, some hostChal=>proveKey b akey proof hostChal le
      | _, _=>answerSw swWrongSyntax

def cmdReset (a : Scard.Apdu) : OathM β Reply:=do
  if a.p1≠0xDE ∨ a.p2≠0xAD then answerSw swWrongSyntax
  else
    call b.wipeAll
    call b.akeyClear
    updateApp fun s=>{s with validated:=true,challengeValid:=false}
    answerSw swOk

def processParsed (a : Scard.Apdu) : OathM β Reply:=do
  if a.ins=insIsoSelect ∧ a.p1=0x04 then cmdSelect b a.le
  else if a.ins=insSendRemaining then cmdSendRemaining a
  else if a.ins=insReset then cmdReset b a
  else if a.ins=insValidate then cmdValidate b a.data a.le
  -- Everything else needs a validated session where there is an access key.
  else if !(← appGets (·.validated)) then answerSw swAuthRequired
  else if a.ins=insPut then cmdPut b a.data
  else if a.ins=insDelete then cmdDelete b a.data
  else if a.ins=insSetCode then cmdSetCode b a.data
  else if a.ins=insList then cmdList b a.le
  else if a.ins=insCalculate then cmdCalculate b a.data a.le
  else if a.ins=insCalculateAll then cmdCalculateAll b a.data a.le
  else answerSw swInsNotSupported

def processApdu (raw : Bytes) : OathM β Reply:=do
  if (← gets Ctx.respMax) < 2 then answerSw swInsNotSupported
  else
    match Scard.apduParse raw with
    | none=>answerSw swWrongLength
    | some a=>processParsed b a

def deselect : OathM β Unit:=modify fun s=>{s with app:={}}

end Commands

end CdcBadge.Oath
