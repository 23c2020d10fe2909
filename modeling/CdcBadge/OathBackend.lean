import CdcBadge.OathStore

/-!
# The backend of the YKOATH applet

The applet's callbacks over the store, over NVS, and over the touch prompt of the screen.
-/

namespace CdcBadge.OathBackend

open Handler
open Pin (PowerLost)
open Tropic OathStore
open Oath (Account Meta Backend)

/-- A confirmed touch releases one `CALCULATE` of its slot within this time. -/
def touchWindowUs : ℕ:=15*1000*1000

/-- The slot of the prompt on the screen, and the one that was confirmed. -/
structure Touch where
  promptSlot : Option ℕ:=none
  armedSlot : Option ℕ:=none
  armedUntilUs : ℕ:=0
  deriving DecidableEq

def onTouchConfirm (nowUs : ℕ) (t : Touch) : Touch:=
  {promptSlot:=none,armedSlot:=t.promptSlot,armedUntilUs:=nowUs+touchWindowUs}

def onTouchCancel (t : Touch) : Touch:={t with promptSlot:=none}

/-- The slot is armed: its touch was confirmed, not used yet, and in time. -/
def Touch.Armed (t : Touch) (nowUs slot : ℕ) : Prop:=t.armedSlot=some slot ∧ nowUs < t.armedUntilUs

instance (t : Touch) (nowUs slot : ℕ) : Decidable (t.Armed nowUs slot):=inferInstanceAs (Decidable (_ ∧ _))

def beTouchOk (nowUs slot : ℕ) (t : Touch) : Bool × Touch:=
  if t.Armed nowUs slot then (true,{t with armedSlot:=none})
  else (false,if t.promptSlot=none then {t with promptSlot:=some slot} else t)

/-- What becomes of the calls of a command, in order. -/
structure Env where
  reads : List SeOutcome:=[]
  calcs : List CalcOutcome:=[]
  lookups : List (ℕ → SeOutcome):=[]
  writes : List PayloadOutcome:=[]
  deletes : List DeleteOutcome:=[]
  /-- The accesses to the namespace `mod_2fa`. -/
  nvs : List SeOutcome:=[]
  /-- Random bytes, missing where none come. -/
  random : List (Option Bytes):=[]
  /-- Whether mbedtls computes the hash. -/
  hashes : List Bool:=[]

def Env.read1 (env : Env) : Env:={env with reads:=env.reads.tail}

def Env.calc1 (env : Env) : Env:={env with calcs:=env.calcs.tail}

structure Badge where
  store : Store
  touch : Touch:={}
  nowUs : ℕ:=0
  devId : Option (ByteArr 8):=none
  accessKey : Option (ByteArr 16):=none
  env : Env:={}

abbrev BadgeM:=Handler PowerLost Badge

def onStore {α : Type} (m : StoreM α) : BadgeM α:=zoom Badge.store (fun store b=>{b with store}) m

def nextRead : BadgeM SeOutcome:=
  fun b=>(.ok (b.env.reads.headD .done),{b with env:={b.env with reads:=b.env.reads.tail}})

def nextCalc : BadgeM CalcOutcome:=
  fun b=>(.ok (b.env.calcs.headD {}),{b with env:={b.env with calcs:=b.env.calcs.tail}})

def nextLookup : BadgeM (ℕ → SeOutcome):=
  fun b=>(.ok (b.env.lookups.headD fun _=>.done),{b with env:={b.env with lookups:=b.env.lookups.tail}})

def nextWrite : BadgeM PayloadOutcome:=
  fun b=>(.ok (b.env.writes.headD {}),{b with env:={b.env with writes:=b.env.writes.tail}})

def nextDelete : BadgeM DeleteOutcome:=
  fun b=>(.ok (b.env.deletes.headD {}),{b with env:={b.env with deletes:=b.env.deletes.tail}})

def nextNvs : BadgeM SeOutcome:=
  fun b=>(.ok (b.env.nvs.headD .done),{b with env:={b.env with nvs:=b.env.nvs.tail}})

def nextRandom (n : ℕ) : BadgeM (Option (ByteArr n)):=
  fun b=>(.ok ((b.env.random.headD (some [])).map (fit n)),{b with env:={b.env with random:=b.env.random.tail}})

def nextHash : BadgeM Bool:=
  fun b=>(.ok (b.env.hashes.headD true),{b with env:={b.env with hashes:=b.env.hashes.tail}})

def nvsRead {α : Type} (blob : Badge→Option α) : BadgeM (Option α):=do
  match ← nextNvs with
  | .done=>gets blob
  | .failed _ _=>pure none
  | .powerLost _=>stop ⟨⟩

def nvsWrite (write : Badge→Badge) : BadgeM Bool:=do
  match ← nextNvs with
  | .done=>do
    modify write
    pure true
  | .failed _ applied=>do
    modify fun b=>if applied then write b else b
    pure false
  | .powerLost applied=>do
    modify fun b=>if applied then write b else b
    stop ⟨⟩

def metaOf (e : OathEntry) : Meta where
  name:=e.name
  issuer:=e.issuer
  type:=e.type
  algorithm:=e.algorithm
  digits:=e.digits
  period:=e.period
  flags:=e.flags

section Calls

variable (hmac : Hmac) (mapSignature : UInt32)

def beRead (slot : ℕ) : BadgeM (Option Meta):=do
  pure ((← onStore (readAccount (← nextRead) slot)).map metaOf)

def beCalculate (slot : ℕ) (challenge : ByteArr 8) : BadgeM (Option (ByteArr 4 × UInt8)):=do
  onStore (calculateForChallenge hmac mapSignature (← nextCalc) slot challenge)

/-- An entry with the same account label is deleted first, and what becomes of that is not looked at. -/
def beAddRaw (a : Account) : BadgeM Bool:=do
  match ← onStore (findByName (← nextLookup) a.name) with
  | some existing=>do
    let _ ← onStore (deleteAccount (← nextDelete) existing)
    onStore (addAccountRaw mapSignature (← nextLookup) (← nextWrite) a)
  | none=>onStore (addAccountRaw mapSignature (← nextLookup) (← nextWrite) a)

def beRemove (slot : ℕ) : BadgeM Bool:=do
  onStore (deleteAccount (← nextDelete) slot)

def beWipeAll : BadgeM Unit:=
  (List.range capacity).forM fun slot=>do
    match ← onStore (readAccount (← nextRead) slot) with
    | none=>pure ()
    | some _=>do
      let _ ← beRemove slot
      pure ()

def fixedDevId : ByteArr 8:=fit 8 [0xA0,0xA1,0xA2,0xA3,0xA4,0xA5,0xA6,0xA7]

/-- The salt in NVS, put there at the first call; the first access opens the namespace. -/
def beDevId : BadgeM (ByteArr 8):=do
  match ← nextNvs with
  | .failed _ _=>pure fixedDevId
  | .powerLost _=>stop ⟨⟩
  | .done=>
    match ← nvsRead (·.devId) with
    | some devId=>pure devId
    | none=>do
      let devId:=(← nextRandom 8).getD fixedDevId
      let _ ← nvsWrite fun b=>{b with devId:=some devId}
      pure devId

def beAkeyGet : BadgeM (Option (ByteArr 16)):=nvsRead (·.accessKey)

def beAkeySet (key : ByteArr 16) : BadgeM Bool:=nvsWrite fun b=>{b with accessKey:=some key}

def beAkeyClear : BadgeM Unit:=do
  let _ ← nvsWrite fun b=>{b with accessKey:=none}
  pure ()

def beHmacSha1 (key data : Bytes) : BadgeM (Option (ByteArr 20)):=do
  if ← nextHash then pure (some (hmac .sha1 key data)) else pure none

def beTouch (slot : ℕ) : BadgeM Bool:=
  fun b=>(.ok (beTouchOk b.nowUs slot b.touch).1,{b with touch:=(beTouchOk b.nowUs slot b.touch).2})

/-- `oath_backend_install` -/
def backend : Backend Badge where
  capacity _:=capacity
  read:=beRead
  calculate:=beCalculate hmac mapSignature
  addRaw:=beAddRaw mapSignature
  remove:=beRemove
  wipeAll:=beWipeAll
  devId:=beDevId
  akeyGet:=beAkeyGet
  akeySet:=beAkeySet
  akeyClear:=beAkeyClear
  hmacSha1:=beHmacSha1 hmac
  rng:=nextRandom 8
  touchOk:=beTouch

theorem beRead_apply (slot : ℕ) (b : Badge) :
    beRead slot b=(((readAccount (b.env.reads.headD .done) slot b.store).1.map fun e=>e.map metaOf),
      {b with env:={b.env with reads:=b.env.reads.tail}}):=by
  have hstate:=readAccount_state (b.env.reads.headD .done) slot b.store
  have hcall : beRead slot b=match readAccount (b.env.reads.headD .done) slot b.store with
      | (.ok e,store)=>(.ok (e.map metaOf),{b with store,env:={b.env with reads:=b.env.reads.tail}})
      | (.error e,store)=>(.error e,{b with store,env:={b.env with reads:=b.env.reads.tail}}):=by
    simp only [beRead,onStore,nextRead,zoom,bind_apply]
    cases readAccount (b.env.reads.headD .done) slot b.store with
    | mk r store=>cases r <;> rfl
  rw [hcall]
  revert hstate
  cases readAccount (b.env.reads.headD .done) slot b.store with
  | mk r store=>
    rintro rfl
    cases r <;> rfl

theorem beCalculate_apply (slot : ℕ) (challenge : ByteArr 8) (b : Badge) :
    beCalculate hmac mapSignature slot challenge b =
      ((calculateForChallenge hmac mapSignature (b.env.calcs.headD {}) slot challenge b.store).1,
        { b with
          store:=(calculateForChallenge hmac mapSignature (b.env.calcs.headD {}) slot challenge b.store).2
          env:={b.env with calcs:=b.env.calcs.tail} }):=rfl

end Calls

end CdcBadge.OathBackend
