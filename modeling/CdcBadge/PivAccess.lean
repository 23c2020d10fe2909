import CdcBadge.PivApplet
import CdcBadge.Runs

/-!
# Access to the PIV keys and objects

What a session has been granted is read off the events behind it: a verified PIN, and a
mutual authentication with a witness of the session.
-/

namespace CdcBadge.Piv

open Handler
open Pin (PowerLost)

inductive Event
  | select
  | deselect
  | logout
  /-- A `VERIFY` with the right PIN. -/
  | verified
  /-- A `VERIFY` that failed or found the PIN blocked. -/
  | refused
  | signed (keyRef : UInt8)
  /-- A key agreement with 9D. -/
  | agreed
  /-- A witness was drawn. -/
  | drawn (witness : ByteArr 16)
  /-- A witness was returned with a challenge, and accepted or not. -/
  | answered (witness : Bytes) (ok : Bool)
  | generated
  | stored
  | keySet
  deriving DecidableEq

/-! What the events of a history, the newest first, grant. -/

def granted : List Event→Bool
  | []=>false
  | .verified::_=>true
  | .select::_ | .deselect::_ | .logout::_ | .refused::_=>false
  | _::h=>granted h

def fresh : List Event→Bool
  | []=>false
  | .verified::_=>true
  | .signed k::h=>k≠key9C && fresh h
  | _::h=>fresh h

def outstanding : List Event→Option (ByteArr 16)
  | []=>none
  | .drawn witness::_=>some witness
  | .answered _ _::_ | .select::_ | .deselect::_=>none
  | _::h=>outstanding h

/-- In this session a witness of the session was returned, for the first time, and accepted. -/
def authenticated : List Event→Bool
  | []=>false
  | .answered witness ok::h=>
    ok && (outstanding h).map List.Vector.toList=some witness || authenticated h
  | .select::_ | .deselect::_=>false
  | _::h=>authenticated h

def Event.allowed (h : List Event) : Event→Bool
  | .signed k=>k=key9E || granted h && (k≠key9C || fresh h)
  | .agreed=>granted h
  | .generated | .stored | .keySet=>authenticated h
  | _=>true

def lawful : List Event→Bool
  | []=>true
  | e::h=>e.allowed h && lawful h

theorem lawful_cons (e : Event) (h : List Event) : lawful (e::h)=(e.allowed h && lawful h):=rfl

section Logged

variable {β : Type}

abbrev Logged (β : Type):=β × List Event

def note (e : Event) : Handler PowerLost (Logged β) Unit:=modify fun s=>(s.1,e::s.2)

def lift {α : Type} (m : Handler PowerLost β α) : Handler PowerLost (Logged β) α:=
  zoom Prod.fst (fun be s=>(be,s.2)) m

def noteSome {α : Type} (m : Handler PowerLost β (Option α)) (e : α → Event) :
    Handler PowerLost (Logged β) (Option α):=do
  match ← lift m with
  | none=>pure none
  | some a=>
    note (e a)
    pure (some a)

def Backend.logged (b : Backend β) : Backend (Logged β) where
  keyPresent k:=lift (b.keyPresent k)
  keySign k digest:=noteSome (b.keySign k digest) fun _=>.signed k
  keyGenerate k:=do
    note .generated
    lift (b.keyGenerate k)
  keyPubkey k:=lift (b.keyPubkey k)
  keyEcdh point:=noteSome (b.keyEcdh point) fun _=>.agreed
  pinVerify pin:=do
    let ok ← lift (b.pinVerify pin)
    note (if ok then .verified else .refused)
    pure ok
  pinRetries s:=b.pinRetries s.1
  pinBlocked s:=b.pinBlocked s.1
  mgmtEncrypt block:=lift (b.mgmtEncrypt block)
  mgmtSetKey alg key:=do
    note .keySet
    lift (b.mgmtSetKey alg key)
  stateLoad:=lift b.stateLoad
  objectLoad obj:=lift (b.objectLoad obj)
  objectStore obj data:=do
    note .stored
    lift (b.objectStore obj data)
  rng:=noteSome b.rng .drawn

def returnedWitness (data : Bytes) : Option (Bytes × Bytes):=do
  let inner ← tlvFind data tagDynAuth
  let witness ← tlvFind inner tagWitness
  let challenge ← tlvFind inner tagChallenge
  if witness.length=16 ∧ challenge.length=16 then some (witness,challenge) else none

/-- What a command counts for, by its header, its data where it was put together, and its answer. -/
def commandEvents (ins p1 p2 : UInt8) (data : Option Bytes) (sw : UInt16) : List Event:=
  if ins=insSelect then [.select]
  else if ins=insVerify ∧ p2=keyPin then
    if p1=0xFF then [.logout] else if sw=swOk then [] else [.refused]
  else if ins=insGeneralAuth ∧ p2=key9B then
    match data.bind returnedWitness with
    | some (witness,_)=>[.answered witness (sw=swOk)]
    | none=>[]
  else []

def blockEvents (chain : Chain) (a : Scard.Apdu) (sw : UInt16) : List Event:=
  if isGetResponse a ∨ isChained a then []
  else commandEvents a.ins a.p1 a.p2 ((chain.complete a).toOption.map Cmd.data) sw

def apduEvents (s : Ctx (Logged β)) (raw : Bytes) (sw : UInt16) : List Event:=
  if s.respMax < 2 then []
  else
    match Scard.apduParse raw with
    | none=>[]
    | some a=>blockEvents s.app.chain a sw

/-- What comes to the device: an APDU, a deselection, power lost and back, and what others do to the backend. -/
inductive Op (β : Type)
  | apdu (raw : Bytes)
  | deselect
  | power
  | others (be : β)

def Ctx.noted (s : Ctx (Logged β)) (es : List Event) : Ctx (Logged β):={s with be:=(s.be.1,es++s.be.2)}

def Ctx.restarted (s : Ctx (Logged β)) : Ctx (Logged β):={s with app:={}}.noted [.deselect]

def step (b : Backend β) (s : Ctx (Logged β)) : Op β → Ctx (Logged β)
  | .apdu raw=>
    match processApdu b.logged raw s with
    | (.ok reply,s')=>s'.noted (apduEvents s raw reply.sw)
    | (.error _,s')=>s'.restarted
  | .deselect=>s.restarted
  | .power=>s.restarted
  | .others be=>{s with be:=(be,s.be.2)}

def start (be : β) (respMax : ℕ) : Ctx (Logged β):={be:=(be,[]),respMax}

def RightPin (b : Backend β) (be : β) (data : Bytes) : Prop:=
  data.length=8 ∧ b.pinBlocked be=false ∧ (pinDigits data).all isDigit=true ∧ (pinDigits data).length≠0 ∧
    (b.pinVerify (pinDigits data) be).1≠.ok false

/-- A `VERIFY` that is not to fail while the PIN is verified. -/
def Verifies (b : Backend β) (s : Ctx (Logged β)) (p1 : UInt8) (data : Bytes) : Prop:=
  s.app.pinVerified=true→p1=0xFF ∨ data=[] ∨ RightPin b s.be.1 data

def Encrypts (b : Backend β) (s : Ctx (Logged β)) (witness challenge : Bytes) : Prop:=
  s.app.witnessValid=true → s.app.witness.toList=witness→(b.mgmtEncrypt (fit 16 challenge) s.be.1).1≠.ok none

/-- The condition on a command that has been put together. -/
def Proper (b : Backend β) (c : Cmd) (s : Ctx (Logged β)) : Prop:=
  (c.ins=insVerify ∧ c.p2=keyPin→Verifies b s c.p1 c.data) ∧
  (c.ins=insGeneralAuth ∧ c.p2=key9B→∀ w∈returnedWitness c.data, Encrypts b s w.1 w.2)

def Ctx.Bare (s : Ctx (Logged β)) : Prop:=
  s.app.pinVerified=false ∧ s.app.mgmtAuthenticated=false ∧ s.app.witnessValid=false

/-- The condition on a final block: a `SELECT` or a `VERIFY` that is refused behind an open chain would take nothing
back. -/
def Revokes (b : Backend β) (s : Ctx (Logged β)) (a : Scard.Apdu) : Prop:=
  ((s.app.chain.complete a).toOption=none→(a.ins=insSelect → s.Bare) ∧
    (a.ins=insVerify ∧ a.p2=keyPin → s.app.pinVerified=false)) ∧
  ∀ c∈(s.app.chain.complete a).toOption, Proper b c s

def Clean (b : Backend β) (s : Ctx (Logged β)) : Op β→Prop
  | .apdu raw=>∀ a∈Scard.apduParse raw, isGetResponse a=false→isChained a=false→Revokes b s a
  | _=>True

structure Sound (s : Ctx (Logged β)) : Prop where
  pin : s.app.pinVerified=true → granted s.be.2=true ∧ fresh s.be.2=true
  auth : s.app.mgmtAuthenticated=true→authenticated s.be.2=true
  witness : s.app.witnessValid=true → outstanding s.be.2=some s.app.witness
  lawful : lawful s.be.2=true

variable {b : Backend β} {P : Ctx (Logged β)→Prop}

theorem Sound.of_same {s t : Ctx (Logged β)} (h : Sound s) (hpin : t.app.pinVerified=s.app.pinVerified)
    (hauth : t.app.mgmtAuthenticated=s.app.mgmtAuthenticated) (hvalid : t.app.witnessValid=s.app.witnessValid)
    (hwitness : t.app.witness=s.app.witness) (hhistory : t.be.2=s.be.2) : Sound t where
  pin:=by rw [hpin,hhistory]; exact h.pin
  auth:=by rw [hauth,hhistory]; exact h.auth
  witness:=by rw [hvalid,hhistory,hwitness]; exact h.witness
  lawful:=by rw [hhistory]; exact h.lawful

theorem Sound.of_bare {s : Ctx (Logged β)} (h : s.Bare) (hlawful : Piv.lawful s.be.2=true) : Sound s where
  pin hpin:=by rw [h.1] at hpin; contradiction
  auth hauth:=by rw [h.2.1] at hauth; contradiction
  witness hvalid:=by rw [h.2.2] at hvalid; contradiction
  lawful:=hlawful

def view (s : Ctx (Logged β)) : Bool × Bool × Bool × ByteArr 16 × List Event:=
  (s.app.pinVerified,s.app.mgmtAuthenticated,s.app.witnessValid,s.app.witness,s.be.2)

theorem Sound.of_view {s t : Ctx (Logged β)} (h : Sound s) (hview : view t=view s) : Sound t:=by
  simp only [view,Prod.mk.injEq] at hview
  obtain ⟨hpin,hauth,hvalid,hwitness,hhistory⟩:=hview
  exact h.of_same hpin hauth hvalid hwitness hhistory

theorem Sound.of_fixes {α : Type} {m : PivM (Logged β) α} (h : Fixes view m) : Keeps Sound m:=
  keeps_iff.mpr fun s hs=>hs.of_view (h.apply s)

theorem fixes_call {α : Type} (m : Handler PowerLost β α) : Fixes view (call (lift m)):=by
  intro x s hs
  unfold call lift zoom
  cases (m s.be.1).1 <;> exact hs

theorem fixes_emit (payload : Bytes) (le : ℕ) : Fixes view (emit payload le : PivM (Logged β) Reply):=by
  unfold emit
  refine Fixes.bind (Fixes.gets _) fun respMax=>Fixes.ite (Fixes.pure _) ?_
  exact Fixes.bind (Fixes.modify fun _=>rfl) fun _=>Fixes.pure _

theorem fixes_emitBuilt (built : Option Bytes) (le : ℕ) (failed : UInt16) :
    Fixes view (emitBuilt built le failed : PivM (Logged β) Reply):=by
  cases built with
  | none=>exact Fixes.pure _
  | some payload=>exact fixes_emit payload le

theorem fixes_cmdGetData (c : Cmd) : Fixes view (cmdGetData b.logged c):=by
  unfold cmdGetData
  cases objectTag c.data with
  | none=>exact Fixes.pure _
  | some obj=>
    refine Fixes.ite (fixes_emitBuilt _ _ _) (Fixes.bind (fixes_call _) fun st=>?_)
    cases st with
    | none=>exact Fixes.pure _
    | some st=>
      refine Fixes.bind (Fixes.ite (Fixes.pure _) (Fixes.ite (Fixes.pure _)
        (Fixes.ite (fixes_call _) (Fixes.pure _)))) fun body=>?_
      cases body with
      | none=>exact Fixes.pure _
      | some body=>exact Fixes.ite (Fixes.pure _) (fixes_emitBuilt _ _ _)

theorem fixes_cmdGetMetadata (c : Cmd) : Fixes view (cmdGetMetadata b.logged c):=by
  unfold cmdGetMetadata
  refine Fixes.bind (fixes_call _) fun st=>?_
  cases st with
  | none=>exact Fixes.pure _
  | some st=>
    refine Fixes.ite (fixes_emit _ _) (Fixes.ite (Fixes.bind (fixes_call _) fun present=>?_) (Fixes.pure _))
    exact Fixes.ite (Fixes.pure _) (Fixes.bind (fixes_call _) fun pub=>fixes_emit _ _)

theorem fixes_cmdGetResponse (a : Scard.Apdu) : Fixes view (cmdGetResponse a : PivM (Logged β) Reply):=by
  unfold cmdGetResponse
  refine Fixes.bind (Fixes.gets _) fun resp=>Fixes.bind (Fixes.gets _) fun respMax=>?_
  refine Fixes.ite (Fixes.pure _) (Fixes.ite (Fixes.pure _) ?_)
  exact Fixes.bind (Fixes.modify fun _=>rfl) fun _=>Fixes.pure _

theorem call_bind {γ α δ : Type} (m : Handler PowerLost γ α) (k : α→Handler PowerLost γ δ) :
    (call (m >>= k) : PivM γ δ)=call m >>= fun a=>call (k a):=by
  funext s
  simp only [call,zoom,bind_apply]
  cases m s.be with
  | mk r t=>cases r <;> rfl

theorem call_note (e : Event) :
    (call (note e) : PivM (Logged β) Unit)=Handler.modify fun s : Ctx (Logged β)=>s.noted [e]:=rfl

theorem noteSome_triple {α : Type} {m : Handler PowerLost β (Option α)} {e : α → Event}
    {Q : Option α → Ctx (Logged β)→Prop} (hview : ∀ s t, P s→view t=view s→P t) (hsound : ∀ s, P s → Sound s)
    (hnone : ∀ s, P s→Q none s) (hsome : ∀ a s, P s→Q (some a) (s.noted [e a])) :
    Triple P (call (noteSome m e)) Q fun _=>Sound:=by
  rw [noteSome,call_bind]
  refine Triple.bind (Q:=fun _=>P) ?_ fun r=>?_
  · have hkeeps : Keeps P (call (lift m)):=keeps_iff.mpr fun s hs=>hview _ _ hs ((fixes_call m).apply s)
    exact hkeeps.conseq (fun _ h=>h) (fun _ _ h=>h) fun _=>hsound
  · cases r with
    | none=>exact Triple.pure hnone
    | some a=>
      rw [call_bind,call_note]
      exact Triple.bind (Q:=fun _=>Q (some a)) (Triple.modify (hsome a)) fun _=>Triple.pure fun _ h=>h

theorem appGets_triple {γ α δ : Type} {P : Ctx γ→Prop} {f : Session → α} {k : α→PivM γ δ} {Q : δ → Ctx γ→Prop}
    {E : PowerLost → Ctx γ→Prop} (h : ∀ v, Triple (fun s=>P s ∧ f s.app=v) (k v) Q E) :
    Triple P (appGets f >>= k) Q E:=
  fun s hs=>h (f s.app) s ⟨hs,rfl⟩

theorem Sound.note_use {s : Ctx (Logged β)} (hs : Sound s) {e : Event}
    (he : e=.agreed ∨ e=.generated ∨ e=.stored ∨ e=.keySet) (hallowed : e.allowed s.be.2=true) :
    Sound (s.noted [e]):=by
  have hlawful : Piv.lawful (e::s.be.2)=true:=by rw [lawful_cons,hallowed,hs.lawful,Bool.and_self]
  rcases he with rfl | rfl | rfl | rfl <;> exact ⟨hs.pin,hs.auth,hs.witness,hlawful⟩

theorem keeps_noted_call {α : Type} {e : Event} (he : e=.agreed ∨ e=.generated ∨ e=.stored ∨ e=.keySet)
    (m : Handler PowerLost β α) :
    Triple (fun s : Ctx (Logged β)=>Sound s ∧ e.allowed s.be.2=true)
      (call (note e >>= fun _=>lift m) : PivM (Logged β) α) (fun _=>Sound) fun _=>Sound:=by
  rw [call_bind]
  refine Triple.bind (Q:=fun _=>Sound) ?_ fun _=>Sound.of_fixes (fixes_call m)
  rw [call_note]
  exact Triple.modify fun s hs=>hs.1.note_use he hs.2

theorem sound_cmdGenerate (c : Cmd) : Keeps Sound (cmdGenerate b.logged c):=by
  unfold cmdGenerate
  refine appGets_triple fun auth=>Triple.ite (fun _=>Triple.pure fun s hs=>hs.1) fun hauth=>?_
  refine Triple.ite (fun _=>Triple.pure fun s hs=>hs.1) fun _=>?_
  refine Triple.ite (fun _=>Triple.pure fun s hs=>hs.1) fun _=>Triple.bind (Q:=fun _=>Sound) ?_ fun pub=>?_
  · refine (keeps_noted_call (.inr (.inl rfl)) (b.keyGenerate c.p2)).conseq (fun s hs=>⟨hs.1,?_⟩)
      (fun _ _ h=>h) fun _ _ h=>h
    exact hs.1.auth (hs.2.trans (by simpa using hauth))
  · cases pub with
    | none=>exact Keeps.pure _
    | some pub=>exact Sound.of_fixes (fixes_emitBuilt _ _ _)

theorem sound_cmdPutData (c : Cmd) : Keeps Sound (cmdPutData b.logged c):=by
  unfold cmdPutData
  refine appGets_triple fun auth=>Triple.ite (fun _=>Triple.pure fun s hs=>hs.1) fun hauth=>?_
  cases objectTag c.data with
  | none=>exact Triple.pure fun s hs=>hs.1
  | some obj=>
    cases tlvFind c.data tagDataObject with
    | none=>exact Triple.pure fun s hs=>hs.1
    | some body=>
      refine Triple.ite (fun _=>Triple.bind (Q:=fun _=>Sound) ?_ fun ok=>?_) fun _=>?_
      · refine (keeps_noted_call (.inr (.inr (.inl rfl))) (b.objectStore obj body)).conseq (fun s hs=>⟨hs.1,?_⟩)
          (fun _ _ h=>h) fun _ _ h=>h
        exact hs.1.auth (hs.2.trans (by simpa using hauth))
      · exact Keeps.ite (fun _=>Keeps.pure _) fun _=>Keeps.pure _
      · exact Triple.ite (fun _=>Triple.pure fun s hs=>hs.1) fun _=>Triple.pure fun s hs=>hs.1

theorem sound_cmdSetMgmtKey (c : Cmd) : Keeps Sound (cmdSetMgmtKey b.logged c):=by
  unfold cmdSetMgmtKey
  refine appGets_triple fun auth=>Triple.ite (fun _=>Triple.pure fun s hs=>hs.1) fun hauth=>?_
  split
  · rename_i alg keyRef len key _
    refine Triple.ite (fun _=>Triple.pure fun s hs=>hs.1) fun _=>?_
    refine Triple.ite (fun _=>Triple.pure fun s hs=>hs.1) fun _=>?_
    refine Triple.ite (fun _=>Triple.pure fun s hs=>hs.1) fun _=>Triple.bind (Q:=fun _=>Sound) ?_ fun ok=>?_
    · refine (keeps_noted_call (.inr (.inr (.inr rfl))) (b.mgmtSetKey alg (key.take len.toNat))).conseq
        (fun s hs=>⟨hs.1,?_⟩) (fun _ _ h=>h) fun _ _ h=>h
      exact hs.1.auth (hs.2.trans (by simpa using hauth))
    · exact Keeps.ite (fun _=>Keeps.pure _) fun _=>Keeps.pure _
  · exact Triple.pure fun s hs=>hs.1

theorem sound_agreeKey (point : Bytes) (le : ℕ) : Keeps Sound (agreeKey b.logged point le):=by
  unfold agreeKey
  refine appGets_triple fun pin=>Triple.ite (fun _=>Triple.pure fun s hs=>hs.1) fun hpin=>?_
  refine Triple.ite (fun _=>Triple.pure fun s hs=>hs.1) fun _=>Triple.bind (Q:=fun _=>Sound) ?_ fun shared=>?_
  · refine noteSome_triple (fun s t hs hview=>⟨hs.1.of_view hview,?_⟩) (fun s hs=>hs.1) (fun s hs=>hs.1)
      fun _ s hs=>hs.1.note_use (.inl rfl) (hs.1.pin (hs.2.trans (by simpa using hpin))).1
    exact (congrArg Prod.fst hview).trans hs.2
  · cases shared with
    | none=>exact Keeps.pure _
    | some shared=>exact Sound.of_fixes (fixes_emitBuilt _ _ _)

theorem Sound.allowed_of_gate {s : Ctx (Logged β)} (hs : Sound s) {keyRef : UInt8}
    (hgate : pinGateForSign s.app keyRef=true) : (Event.signed keyRef).allowed s.be.2=true:=by
  change (decide (keyRef=key9E) || granted s.be.2 && (decide (keyRef≠key9C) || fresh s.be.2))=true
  simp only [pinGateForSign] at hgate
  by_cases h9E : keyRef=key9E
  · rw [decide_eq_true h9E,Bool.true_or]
  · rw [if_neg h9E] at hgate
    split at hgate
    · obtain ⟨hgranted,hfresh⟩:=hs.pin hgate
      rw [hgranted,hfresh,Bool.or_true,Bool.and_true,Bool.or_true]
    · contradiction

/-- With 9C the flag is behind the history until it is cleared. -/
def Signing (keyRef : UInt8) (rs : Option (ByteArr 64)) (s : Ctx (Logged β)) : Prop:=
  match rs with
  | none=>Sound s
  | some _=>Piv.lawful s.be.2=true ∧ (s.app.pinVerified=true → granted s.be.2=true ∧
      (keyRef≠key9C → fresh s.be.2=true)) ∧ (s.app.mgmtAuthenticated=true→authenticated s.be.2=true) ∧
      (s.app.witnessValid=true → outstanding s.be.2=some s.app.witness)

theorem sound_signChallenge (keyRef : UInt8) (challenge : Bytes) (le : ℕ) :
    Keeps Sound (signChallenge b.logged keyRef challenge le):=by
  unfold signChallenge
  refine appGets_triple fun gate=>Triple.ite (fun _=>Triple.pure fun s hs=>hs.1) fun hgate=>?_
  have hview : ∀ s t : Ctx (Logged β), (Sound s ∧ pinGateForSign s.app keyRef=gate)→view t=view s →
      Sound t ∧ pinGateForSign t.app keyRef=gate:=by
    intro s t hs hview
    refine ⟨hs.1.of_view hview,?_⟩
    have hpin : t.app.pinVerified=s.app.pinVerified:=congrArg Prod.fst hview
    rw [pinGateForSign,hpin]
    exact hs.2
  refine Triple.bind (Q:=fun _ s=>Sound s ∧ pinGateForSign s.app keyRef=gate) ?_ fun present=>
    Triple.ite (fun _=>Triple.pure fun s hs=>hs.1) fun _=>?_
  · have hkeeps:=keeps_iff.mpr fun s hs=>hview s _ hs ((fixes_call (b.keyPresent keyRef)).apply s)
    exact hkeeps.conseq (fun _ h=>h) (fun _ _ h=>h) fun _ _ h=>h.1
  refine Triple.bind (Q:=Signing keyRef) ?_ fun rs=>?_
  · refine noteSome_triple hview (fun s hs=>hs.1) (fun s hs=>hs.1) fun _ s hs=>?_
    have hallowed:=hs.1.allowed_of_gate (hs.2.trans (by simpa using hgate))
    refine ⟨?_,fun hpin=>⟨(hs.1.pin hpin).1,fun hne=>?_⟩,hs.1.auth,hs.1.witness⟩
    · change Piv.lawful (.signed keyRef::s.be.2)=true
      rw [lawful_cons,hallowed,hs.1.lawful,Bool.and_self]
    · change (decide (keyRef≠key9C) && fresh s.be.2)=true
      rw [(hs.1.pin hpin).2]
      simpa using hne
  · cases rs with
    | none=>exact Keeps.pure _
    | some rs=>
      refine Triple.bind (Q:=fun _=>Sound) ?_ fun _=>Sound.of_fixes (fixes_emitBuilt _ _ _)
      refine Triple.when (fun _=>Triple.modify fun s hs=>?_) fun hne s hs=>?_
      · exact ⟨fun h=>by contradiction,hs.2.2.1,hs.2.2.2,hs.1⟩
      · exact ⟨fun h=>⟨(hs.2.1 h).1,(hs.2.1 h).2 hne⟩,hs.2.2.1,hs.2.2.2,hs.1⟩

theorem keeps_of_view {α : Type} {m : PivM (Logged β) α} (h : Fixes view m)
    (hP : ∀ s t, P s→view t=view s→P t) : Keeps P m:=
  keeps_iff.mpr fun s hs=>hP s _ hs (h.apply s)

theorem sound_cmdSelect (le : ℕ) : Triple Sound (cmdSelect le : PivM (Logged β) Reply)
    (fun _ s=>s.Bare ∧ Piv.lawful s.be.2=true) fun _=>Sound:=by
  unfold cmdSelect
  refine Triple.bind (Q:=fun _ s=>s.Bare ∧ Piv.lawful s.be.2=true)
    (Triple.modify fun s hs=>⟨⟨rfl,rfl,rfl⟩,hs.lawful⟩) fun _=>?_
  refine (keeps_of_view (fixes_emitBuilt _ _ _) fun s t hs hview=>?_).conseq (fun _ h=>h) (fun _ _ h=>h)
    fun _ s hs=>Sound.of_bare hs.1 hs.2
  simp only [view,Prod.mk.injEq] at hview
  obtain ⟨hpin,hauth,hvalid,-,hhistory⟩:=hview
  exact ⟨⟨hpin.trans hs.1.1,hauth.trans hs.1.2.1,hvalid.trans hs.1.2.2⟩,hhistory ▸ hs.2⟩

/-- The outcome of a `VERIFY`: only an answer of 9000 leaves the PIN verified. -/
def Verified (p1 : UInt8) (reply : Reply) (s : Ctx (Logged β)) : Prop:=
  Sound s ∧ (p1=0xFF ∨ reply.sw≠swOk → s.app.pinVerified=false)

theorem verified_pinStatus (p1 : UInt8) :
    Triple (fun s=>Sound s ∧ s.app.pinVerified=false) (pinStatus b.logged) (Verified p1) fun _=>Sound:=by
  unfold pinStatus
  refine Triple.bind (Q:=fun _ s=>Sound s ∧ s.app.pinVerified=false) (Triple.gets fun _ h=>h) fun blocked=>?_
  refine Triple.ite (fun _=>Triple.pure fun s hs=>⟨hs.1,fun _=>hs.2⟩) fun _=>?_
  exact Triple.bind (Q:=fun _ s=>Sound s ∧ s.app.pinVerified=false) (Triple.gets fun _ h=>h) fun _=>
    Triple.pure fun s hs=>⟨hs.1,fun _=>hs.2⟩

theorem verified_refused {p1 : UInt8} {data : Bytes} (hp1 : p1≠0xFF) (hdata : data≠[]) (hsound : ∀ s, P s → Sound s) (hverifies : ∀ s, P s→Verifies b s p1 data)
    (hwrong : ∀ s, P s→¬ RightPin b s.be.1 data) (sw : UInt16) :
    Triple P (answerSw sw) (Verified p1) fun _=>Sound:=by
  refine Triple.pure fun s hs=>⟨hsound s hs,fun _=>?_⟩
  cases hpin : s.app.pinVerified with
  | false=>rfl
  | true=>
    rcases hverifies s hs hpin with h | h | h
    · exact absurd h hp1
    · exact absurd h hdata
    · exact absurd h (hwrong s hs)

theorem sound_pinVerify (p1 : UInt8) (data : Bytes) (hp1 : p1≠0xFF) (hdata : data.length=8) :
    Triple (fun s=>(Sound s ∧ Verifies b s p1 data) ∧ b.pinBlocked s.be.1=false)
      (call (b.logged.pinVerify (pinDigits data)))
      (fun ok s=>if ok then granted s.be.2=true ∧ fresh s.be.2=true ∧ Sound s
        else Sound s ∧ s.app.pinVerified=false) fun _=>Sound:=by
  intro s hs
  obtain ⟨⟨hsound,hverifies⟩,hblocked⟩:=hs
  have hcall : call (b.logged.pinVerify (pinDigits data)) s=match b.pinVerify (pinDigits data) s.be.1 with
      | (.ok ok,be)=>
        (.ok ok,({s with be:=(be,s.be.2)} : Ctx (Logged β)).noted [if ok then .verified else .refused])
      | (.error e,be)=>(.error e,{s with be:=(be,s.be.2)}):=by
    simp only [call,Backend.logged,zoom,lift,bind_apply]
    cases b.pinVerify (pinDigits data) s.be.1 with
    | mk r be=>cases r <;> rfl
  rw [hcall]
  cases hr : b.pinVerify (pinDigits data) s.be.1 with
  | mk r be=>cases r with
    | error e=>exact hsound.of_same rfl rfl rfl rfl rfl
    | ok ok=>cases ok with
      | true=>
        exact ⟨rfl,rfl,fun _=>⟨rfl,rfl⟩,hsound.auth,hsound.witness,hsound.lawful⟩
      | false=>
        have hpin : s.app.pinVerified=false:=by
          cases hpin : s.app.pinVerified with
          | false=>rfl
          | true=>
            rcases hverifies hpin with h | h | h
            · exact absurd h hp1
            · rw [h] at hdata; contradiction
            · exact absurd (congrArg Prod.fst hr) h.2.2.2.2
        exact ⟨⟨fun h=>absurd (hpin.symm.trans h) (by decide),hsound.auth,hsound.witness,hsound.lawful⟩,hpin⟩

theorem sound_cmdVerify (c : Cmd) (hp2 : c.p2=keyPin) :
    Triple (fun s=>Sound s ∧ Verifies b s c.p1 c.data) (cmdVerify b.logged c) (Verified c.p1) fun _=>Sound:=by
  unfold cmdVerify
  rw [if_neg (not_not.mpr hp2)]
  refine Triple.ite (fun _=>?_) fun hp1=>Triple.ite (fun hlen=>?_) fun hlen=>?_
  · refine Triple.bind (Q:=fun _ s=>Sound s ∧ s.app.pinVerified=false)
      (Triple.modify fun s hs=>⟨?_,rfl⟩) fun _=>Triple.pure fun s hs=>⟨hs.1,fun _=>hs.2⟩
    exact ⟨fun h=>by contradiction,hs.1.auth,hs.1.witness,hs.1.lawful⟩
  · refine appGets_triple fun pin=>Triple.ite (fun _=>Triple.pure fun s hs=>⟨hs.1.1,fun h=>?_⟩) fun hpin=>?_
    · rcases h with h | h
      · exact absurd h hp1
      · exact absurd rfl h
    · exact (verified_pinStatus c.p1).conseq (fun s hs=>⟨hs.1.1,hs.2.trans (by simpa using hpin)⟩)
        (fun _ _ h=>h) fun _ _ h=>h
  have hne : c.data≠[]:=fun h=>hlen (by rw [h]; rfl)
  refine Triple.ite (fun h8=>verified_refused hp1 hne (fun s hs=>hs.1) (fun s hs=>hs.2)
    (fun s hs h=>h8 h.1) _) fun h8=>?_
  refine Triple.bind (Q:=fun blocked s=>(Sound s ∧ Verifies b s c.p1 c.data) ∧ b.pinBlocked s.be.1=blocked)
    (Triple.gets fun s hs=>⟨hs,rfl⟩) fun blocked=>?_
  refine Triple.ite (fun hblocked=>verified_refused hp1 hne (fun s hs=>hs.1.1) (fun s hs=>hs.1.2)
    (fun s hs h=>?_) _) fun hblocked=>?_
  · exact absurd ((hs.2.trans hblocked).symm.trans h.2.1) (by decide)
  refine Triple.ite (fun hall=>verified_refused hp1 hne (fun s hs=>hs.1.1) (fun s hs=>hs.1.2)
    (fun s hs h=>?_) _) fun hall=>?_
  · rw [h.2.2.1] at hall
    contradiction
  refine Triple.ite (fun hdigits=>verified_refused hp1 hne (fun s hs=>hs.1.1) (fun s hs=>hs.1.2)
    (fun s hs h=>h.2.2.2.1 hdigits) _) fun hdigits=>?_
  refine Triple.bind ((sound_pinVerify c.p1 c.data hp1 (by simpa using h8)).conseq
    (fun s hs=>⟨hs.1,hs.2.trans (by simpa using hblocked)⟩) (fun _ _ h=>h) fun _ _ h=>h) fun ok=>?_
  cases ok with
  | true=>
    refine Triple.bind (Q:=fun _=>Sound) (Triple.modify fun s hs=>?_) fun _=>Triple.pure fun s hs=>⟨hs,fun h=>?_⟩
    · exact ⟨fun _=>⟨hs.1,hs.2.1⟩,hs.2.2.auth,hs.2.2.witness,hs.2.2.lawful⟩
    · rcases h with h | h
      · exact absurd h hp1
      · exact absurd rfl h
  | false=>exact verified_pinStatus c.p1

theorem tlvWrites_single {cap tag : ℕ} {value : Bytes} (htag : tag ≤ 0xFF) (hlen : value.length < 0x80)
    (hcap : value.length+2 ≤ cap) :
    tlvWrites cap [(tag,value)]=some (UInt8.ofNat tag::UInt8.ofNat value.length::value):=by
  have hwritten : tlvWrite cap [] tag value=some (UInt8.ofNat tag::UInt8.ofNat value.length::value):=by
    simp only [tlvWrite,tlvWriteTag,tlvWriteLen,if_pos htag,if_pos hlen,List.nil_append,List.cons_append]
    rw [if_neg (by simp only [List.length_cons]; omega)]
  simp only [tlvWrites,List.foldlM_cons,hwritten,List.foldlM_nil]
  rfl

theorem dynAuth_some {innerCap cap tag : ℕ} {value : Bytes} (htag : tag ≤ 0xFF) (hlen : value.length < 0x7E)
    (hinner : value.length+2 ≤ innerCap) (hcap : value.length+4 ≤ cap) :
    dynAuth innerCap cap tag value=some (UInt8.ofNat tagDynAuth::UInt8.ofNat (value.length+2) ::
      UInt8.ofNat tag::UInt8.ofNat value.length::value):=by
  unfold dynAuth
  rw [tlvWrites_single htag (by omega) hinner]
  exact tlvWrites_single (by decide) (by simp only [List.length_cons]; omega) (by simp only [List.length_cons]; omega)

theorem sound_answerBuilt (built : Option Bytes) (failed : UInt16) :
    Keeps Sound (answerBuilt built failed : PivM (Logged β) Reply):=by
  cases built <;> exact Keeps.pure _

/-- A witness that was drawn is the outstanding one before the session has it. -/
def Drawn (r : Option (ByteArr 16)) (s : Ctx (Logged β)) : Prop:=
  match r with
  | none=>Sound s
  | some witness=>outstanding s.be.2=some witness ∧
      (s.app.pinVerified=true → granted s.be.2=true ∧ fresh s.be.2=true) ∧
      (s.app.mgmtAuthenticated=true→authenticated s.be.2=true) ∧ Piv.lawful s.be.2=true

theorem sound_drawWitness : Keeps Sound (drawWitness b.logged):=by
  unfold drawWitness
  refine Triple.bind (Q:=Drawn) ?_ fun r=>?_
  · exact noteSome_triple (fun s t hs hview=>hs.of_view hview) (fun s hs=>hs) (fun s hs=>hs)
      fun witness s hs=>⟨rfl,hs.pin,hs.auth,hs.lawful⟩
  · cases r with
    | none=>exact Keeps.pure _
    | some witness=>
      refine Triple.bind (Q:=fun _ s=>Sound s ∧ outstanding s.be.2=some s.app.witness)
        (Triple.modify fun s hs=>⟨⟨hs.2.1,hs.2.2.1,fun _=>hs.1,hs.2.2.2⟩,hs.1⟩) fun _=>?_
      have hkeeps : Keeps (fun s=>Sound s ∧ outstanding s.be.2=some s.app.witness)
          (call (b.logged.mgmtEncrypt witness)):=by
        refine keeps_of_view (fixes_call _) fun s t hs hview=>⟨hs.1.of_view hview,?_⟩
        simp only [view,Prod.mk.injEq] at hview
        rw [hview.2.2.2.2,hview.2.2.2.1]
        exact hs.2
      refine Triple.bind (hkeeps.conseq (fun _ h=>h) (fun _ _ h=>h) fun _ _ h=>h.1) fun enc=>?_
      cases enc with
      | none=>exact Triple.pure fun s hs=>hs.1
      | some enc=>
        refine Triple.bind (Q:=fun _=>Sound) (Triple.modify fun s hs=>?_) fun _=>sound_answerBuilt _ _
        exact ⟨hs.1.pin,hs.1.auth,fun _=>hs.2,hs.1.lawful⟩

theorem sound_answerWitness (witness challenge : Bytes) :
    Triple (fun s=>Sound s ∧ Encrypts b s witness challenge) (answerWitness b.logged witness challenge)
      (fun reply s=>Sound (s.noted [.answered witness (reply.sw=swOk)])) fun _=>Sound:=by
  unfold answerWitness
  refine appGets_triple fun valid=>Triple.ite (fun hvalid=>?_) fun hvalid=>?_
  · refine Triple.bind (Q:=fun _ s=>Sound s ∧ s.app.witnessValid=false) (Triple.modify fun s hs=>⟨?_,rfl⟩) fun _=>
      Triple.pure fun s hs=>?_
    · exact ⟨hs.1.1.pin,hs.1.1.auth,fun h=>by contradiction,hs.1.1.lawful⟩
    · exact ⟨hs.1.pin,hs.1.auth,fun h=>absurd (hs.2.symm.trans h) (by decide),hs.1.lawful⟩
  · refine Triple.bind (Q:=fun enc s=>enc≠none ∧ Sound s ∧ s.app.witnessValid=true ∧
      s.app.witness.toList=witness) ?_ fun enc=>?_
    · intro s hs
      obtain ⟨⟨hsound,hencrypts⟩,hvalid'⟩:=hs
      obtain ⟨hv,hw⟩ : s.app.witnessValid=true ∧ s.app.witness.toList=witness:=by
        rw [hvalid'.symm.trans rfl] at hvalid
        simpa using hvalid
      have hsome:=hencrypts hv hw
      simp only [call,Backend.logged,lift,zoom]
      cases hr : b.mgmtEncrypt (fit 16 challenge) s.be.1 with
      | mk r be=>cases r with
        | error e=>exact hsound.of_same rfl rfl rfl rfl rfl
        | ok enc=>
          rw [hr] at hsome
          exact ⟨fun h=>hsome (by rw [h]),hsound.of_same rfl rfl rfl rfl rfl,hv,hw⟩
    · cases enc with
      | none=>exact Triple.pure fun s hs=>absurd rfl hs.1
      | some enc=>
        refine Triple.bind (Q:=fun _ s=>(s.app.pinVerified=true → granted s.be.2=true ∧ fresh s.be.2=true) ∧
          outstanding s.be.2=some s.app.witness ∧ s.app.witness.toList=witness ∧ s.app.witnessValid=false ∧
          Piv.lawful s.be.2=true) (Triple.modify fun s hs=>?_) fun _=>?_
        · exact ⟨hs.2.1.pin,hs.2.1.witness hs.2.2.1,hs.2.2.2,rfl,hs.2.1.lawful⟩
        · rw [dynAuth_some (by decide) (by simp) (by simp) (by simp)]
          refine Triple.pure fun s hs=>⟨hs.1,fun _=>?_,fun h=>absurd (hs.2.2.2.1.symm.trans h) (by decide),hs.2.2.2.2⟩
          change (decide (swOk=swOk) && decide ((outstanding s.be.2).map List.Vector.toList=some witness) ||
            authenticated s.be.2)=true
          rw [hs.2.1,Option.map_some,hs.2.2.1]
          simp

/-- The answer to a command leaves the session sound with what the command counts for. -/
def After (c : Cmd) (reply : Reply) (s : Ctx (Logged β)) : Prop:=
  Sound (s.noted (commandEvents c.ins c.p1 c.p2 (some c.data) reply.sw))

theorem After.of_none {c : Cmd} {reply : Reply} {s : Ctx (Logged β)} (hs : Sound s)
    (h : commandEvents c.ins c.p1 c.p2 (some c.data) reply.sw=[]) : After c reply s:=by
  unfold After
  rw [h]
  exact hs.of_same rfl rfl rfl rfl rfl

theorem Keeps.after {m : PivM (Logged β) Reply} (h : Keeps Sound m) {c : Cmd}
    (hc : ∀ sw, commandEvents c.ins c.p1 c.p2 (some c.data) sw=[])
    (hP : ∀ s, P s → Sound s) : Triple P m (After c) fun _=>Sound:=
  h.conseq hP (fun _ _ hs=>.of_none hs (hc _)) fun _ _ h=>h

theorem commandEvents_auth {p1 sw : _} {data : Bytes} :
    commandEvents insGeneralAuth p1 key9B (some data) sw=match returnedWitness data with
      | some (witness,_)=>[.answered witness (sw=swOk)]
      | none=>[]:=rfl

theorem returnedWitness_of {data inner : Bytes} (h : tlvFind data tagDynAuth=some inner) :
    returnedWitness data=match tlvFind inner tagWitness, tlvFind inner tagChallenge with
      | some witness, some challenge=>
        if witness.length=16 ∧ challenge.length=16 then some (witness,challenge) else none
      | _, _=>none:=by
  simp only [returnedWitness,h,Option.bind_eq_bind,Option.bind_some]
  cases tlvFind inner tagWitness with
  | none=>rfl
  | some witness=>cases tlvFind inner tagChallenge <;> rfl

theorem after_mgmtAuth (c : Cmd) (hins : c.ins=insGeneralAuth) (hp2 : c.p2=key9B) {inner : Bytes}
    (hinner : tlvFind c.data tagDynAuth=some inner) :
    Triple (fun s=>Sound s ∧ Proper b c s) (mgmtAuth b.logged inner) (After c) fun _=>Sound:=by
  have hreturned:=returnedWitness_of hinner
  have hevents : ∀ sw, commandEvents c.ins c.p1 c.p2 (some c.data) sw=match returnedWitness c.data with
      | some (witness,_)=>[.answered witness (sw=swOk)]
      | none=>[]:=fun sw=>by rw [hins,hp2,commandEvents_auth]
  unfold mgmtAuth
  cases hwitness : tlvFind inner tagWitness with
  | none=>
    refine Triple.pure fun s hs=>.of_none hs.1 ?_
    rw [hevents,hreturned,hwitness]
  | some witness=>
    cases hchallenge : tlvFind inner tagChallenge with
    | none=>
      have hnone : ∀ sw, commandEvents c.ins c.p1 c.p2 (some c.data) sw=[]:=fun sw=>by
        rw [hevents,hreturned,hwitness,hchallenge]
      exact Triple.ite (fun _=>Keeps.after sound_drawWitness hnone fun s hs=>hs.1) fun _=>
        Triple.pure fun s hs=>.of_none hs.1 (hnone _)
    | some challenge=>
      simp only [hwitness,hchallenge] at hreturned
      refine Triple.ite (fun hlen=>?_) fun hlen=>?_
      · rw [if_pos hlen] at hreturned
        refine (sound_answerWitness witness challenge).conseq (fun s hs=>⟨hs.1,?_⟩) (fun reply s hs=>?_)
          fun _ _ h=>h
        · exact hs.2.2 ⟨hins,hp2⟩ (witness,challenge) hreturned
        · rw [After,hevents,hreturned]
          exact hs
      · refine Triple.pure fun s hs=>.of_none hs.1 ?_
        rw [hevents,hreturned,if_neg hlen]

theorem after_cmdGeneralAuth (c : Cmd) (hins : c.ins=insGeneralAuth) :
    Triple (fun s=>Sound s ∧ Proper b c s) (cmdGeneralAuth b.logged c) (After c) fun _=>Sound:=by
  unfold cmdGeneralAuth
  cases hinner : tlvFind c.data tagDynAuth with
  | none=>
    refine Triple.pure fun s hs=>.of_none hs.1 ?_
    by_cases hp2 : c.p2=key9B
    · rw [hins,hp2,commandEvents_auth,returnedWitness,hinner]
      rfl
    · rw [hins,commandEvents,if_neg (by decide),if_neg fun h=>absurd h.1 (by decide),if_neg fun h=>hp2 h.2]
  | some inner=>
    refine Triple.ite (fun hp2=>after_mgmtAuth c hins hp2 hinner) fun hp2=>?_
    have hnone : ∀ sw, commandEvents c.ins c.p1 c.p2 (some c.data) sw=[]:=fun sw=>by
      rw [hins,commandEvents,if_neg (by decide),if_neg fun h=>absurd h.1 (by decide),if_neg fun h=>hp2 h.2]
    refine Keeps.after (Keeps.ite (fun _=>Keeps.pure _) fun _=>?_) hnone fun s hs=>hs.1
    split
    · exact sound_agreeKey _ _
    · split
      · exact Keeps.pure _
      · exact Keeps.ite (fun _=>Keeps.pure _) fun _=>sound_signChallenge _ _ _

theorem after_dispatch (c : Cmd) :
    Triple (fun s=>Sound s ∧ Proper b c s) (dispatch b.logged c) (After c) fun _=>Sound:=by
  unfold dispatch
  refine Triple.ite (fun hins=>?_) fun hselect=>Triple.ite (fun hins=>?_) fun _=>
    Triple.ite (fun hins=>?_) fun hverify=>Triple.ite (fun hins=>after_cmdGeneralAuth c hins) fun hauth=>?_
  · refine (sound_cmdSelect c.le).conseq (fun s hs=>hs.1) (fun reply s hs=>?_) fun _ _ h=>h
    rw [After,commandEvents,if_pos hins]
    exact .of_bare hs.1 hs.2
  · refine Keeps.after (Sound.of_fixes (fixes_cmdGetData c)) (fun sw=>?_) fun s hs=>hs.1
    rw [hins]
    rfl
  · by_cases hp2 : c.p2=keyPin
    · refine (sound_cmdVerify c hp2).conseq (fun s hs=>⟨hs.1,hs.2.1 ⟨hins,hp2⟩⟩) (fun reply s hs=>?_)
        fun _ _ h=>h
      rw [After,commandEvents,if_neg hselect,if_pos ⟨hins,hp2⟩]
      split
      · rename_i hp1
        exact ⟨fun h=>absurd ((hs.2 (.inl hp1)).symm.trans h) (by decide),hs.1.auth,hs.1.witness,hs.1.lawful⟩
      · split
        · exact hs.1.of_same rfl rfl rfl rfl rfl
        · rename_i hsw
          exact ⟨fun h=>absurd ((hs.2 (.inr hsw)).symm.trans h) (by decide),hs.1.auth,hs.1.witness,hs.1.lawful⟩
    · unfold cmdVerify
      rw [if_pos hp2]
      refine Triple.pure fun s hs=>.of_none hs.1 ?_
      rw [commandEvents,if_neg hselect,if_neg fun h=>hp2 h.2,if_neg fun h=>absurd (hins.symm.trans h.1) (by decide)]
  · have hnone : ∀ sw, commandEvents c.ins c.p1 c.p2 (some c.data) sw=[]:=fun sw=>by
      rw [commandEvents,if_neg hselect,if_neg fun h=>hverify h.1,if_neg fun h=>hauth h.1]
    refine Keeps.after ?_ hnone fun s hs=>hs.1
    refine Keeps.ite (fun _=>sound_cmdGenerate c) fun _=>Keeps.ite (fun _=>sound_cmdPutData c) fun _=>?_
    refine Keeps.ite (fun _=>Sound.of_fixes (fixes_cmdGetMetadata c)) fun _=>?_
    refine Keeps.ite (fun _=>sound_cmdSetMgmtKey c) fun _=>?_
    exact Keeps.ite (fun _=>Keeps.pure _) fun _=>Keeps.pure _

theorem Chain.complete_header {chain : Chain} {a : Scard.Apdu} {c : Cmd} (h : chain.complete a=.ok c) :
    c.ins=a.ins ∧ c.p1=a.p1 ∧ c.p2=a.p2 ∧ c.le=a.le:=by
  unfold Chain.complete at h
  split at h
  · cases h
    exact ⟨rfl,rfl,rfl,rfl⟩
  · cases he : chain.extend a with
    | error sw=>
      rw [he] at h
      contradiction
    | ok chain'=>
      rw [he] at h
      cases h
      exact ⟨rfl,rfl,rfl,rfl⟩

theorem sound_refused {s : Ctx (Logged β)} (hs : Sound s) {a : Scard.Apdu} {sw : UInt16}
    (hselect : a.ins=insSelect → s.Bare) (hverify : a.ins=insVerify ∧ a.p2=keyPin → s.app.pinVerified=false) :
    Sound (s.noted (commandEvents a.ins a.p1 a.p2 none sw)):=by
  unfold commandEvents
  split
  · rename_i hins
    exact .of_bare (hselect hins) hs.lawful
  · split
    · rename_i hpin
      have hflag:=hverify hpin
      split
      · exact ⟨fun h=>absurd (hflag.symm.trans h) (by decide),hs.auth,hs.witness,hs.lawful⟩
      · split
        · exact hs.of_same rfl rfl rfl rfl rfl
        · exact ⟨fun h=>absurd (hflag.symm.trans h) (by decide),hs.auth,hs.witness,hs.lawful⟩
    · split <;> exact hs.of_same rfl rfl rfl rfl rfl

theorem sound_resetChain : Keeps Sound (resetChain : PivM (Logged β) Unit):=
  Sound.of_fixes (Fixes.modify fun _=>rfl)

theorem sound_processParsed {s : Ctx (Logged β)} (hs : Sound s) (a : Scard.Apdu)
    (h : isGetResponse a=false→isChained a=false→Revokes b s a) :
    Triple (fun t=>t=s) (processParsed b.logged a)
      (fun reply t=>Sound (t.noted (blockEvents s.app.chain a reply.sw))) fun _=>Sound:=by
  have hquiet {m : PivM (Logged β) Reply} (hm : Keeps Sound m) (ha : isGetResponse a=true ∨ isChained a=true) :
      Triple (fun t=>t=s) m (fun reply t=>Sound (t.noted (blockEvents s.app.chain a reply.sw))) fun _=>Sound:=by
    refine hm.conseq (fun t ht=>ht ▸ hs) (fun reply t ht=>?_) fun _ _ h=>h
    rw [blockEvents,if_pos (by simpa using ha)]
    exact ht.of_same rfl rfl rfl rfl rfl
  unfold processParsed
  refine Triple.ite (fun hget=>hquiet (Sound.of_fixes (fixes_cmdGetResponse a)) (.inl hget)) fun hget=>?_
  refine appGets_triple fun chain=>Triple.named fun t ht=>?_
  obtain ⟨rfl,rfl⟩:=ht
  refine Triple.ite (fun hchained=>hquiet ?_ (.inr hchained)) fun hchained=>?_
  · cases (t.app.chain.opened a).extend a with
    | ok chain=>exact Keeps.bind (Sound.of_fixes (Fixes.modify fun _=>rfl)) fun _=>Keeps.pure _
    | error sw=>exact Keeps.bind sound_resetChain fun _=>Keeps.pure _
  have hrevokes:=h (by simpa using hget) (by simpa using hchained)
  have hevents : ∀ sw, blockEvents t.app.chain a sw =
      commandEvents a.ins a.p1 a.p2 ((t.app.chain.complete a).toOption.map Cmd.data) sw:=fun sw=>
    if_neg (by simp [hget,hchained])
  cases hc : t.app.chain.complete a with
  | error sw=>
    refine Triple.bind (Q:=fun _ u=>Sound (u.noted (blockEvents t.app.chain a sw))) (Triple.modify ?_) fun _=>
      Triple.pure fun u hu=>hu
    rintro u rfl
    obtain ⟨hselect,hverify⟩:=hrevokes.1 (by rw [hc]; rfl)
    rw [hevents,hc]
    exact (sound_refused hs hselect hverify).of_same rfl rfl rfl rfl rfl
  | ok c=>
    obtain ⟨hins,hp1,hp2,-⟩:=Chain.complete_header hc
    refine Triple.bind (Q:=After c) ((after_dispatch c).conseq ?_ (fun _ _ h=>h) fun _ _ h=>h) fun reply=>?_
    · rintro u rfl
      exact ⟨hs,hrevokes.2 c (by rw [hc]; rfl)⟩
    · refine Triple.bind (Q:=fun _ u=>Sound (u.noted (blockEvents t.app.chain a reply.sw)))
        (Triple.modify fun u hu=>?_) fun _=>Triple.pure fun u hu=>hu
      rw [hevents,hc,← hins,← hp1,← hp2]
      exact hu.of_same rfl rfl rfl rfl rfl

theorem Sound.restarted {s : Ctx (Logged β)} (hs : Sound s) : Sound s.restarted:=
  .of_bare ⟨rfl,rfl,rfl⟩ hs.lawful

theorem Sound.step {s : Ctx (Logged β)} (hs : Sound s) {op : Op β} (h : Clean b s op) : Sound (step b s op):=by
  cases op with
  | deselect=>exact hs.restarted
  | power=>exact hs.restarted
  | others be=>exact hs.of_same rfl rfl rfl rfl rfl
  | apdu raw=>
    have hprocess : Triple (fun t=>t=s) (processApdu b.logged raw)
        (fun reply t=>Sound (t.noted (apduEvents s raw reply.sw))) fun _=>Sound:=by
      unfold processApdu
      refine Triple.bind (Q:=fun respMax t=>t=s ∧ respMax=s.respMax)
        (Triple.gets fun t ht=>⟨ht,by rw [ht]⟩) fun respMax=>?_
      refine Triple.ite (fun hsmall=>Triple.pure ?_) fun hbig=>?_
      · rintro t ⟨rfl,rfl⟩
        rw [apduEvents,if_pos hsmall]
        exact hs.of_same rfl rfl rfl rfl rfl
      simp only [Clean] at h
      cases hparse : Scard.apduParse raw with
      | none=>
        refine Triple.pure ?_
        rintro t ⟨rfl,rfl⟩
        rw [apduEvents,if_neg hbig,hparse]
        exact hs.of_same rfl rfl rfl rfl rfl
      | some a=>
        refine (Triple.pre fun hmax=>?_ : Triple (fun t=>respMax=s.respMax ∧ t=s) _ _ _).conseq
          (fun t ht=>⟨ht.2,ht.1⟩) (fun _ _ h=>h) fun _ _ h=>h
        refine (sound_processParsed hs a (h a hparse)).conseq (fun _ h=>h) (fun reply t ht=>?_) fun _ _ h=>h
        rw [apduEvents,if_neg (hmax ▸ hbig),hparse]
        exact ht
    have hstep:=hprocess s rfl
    cases hr : processApdu b.logged raw s with
    | mk r t=>cases r with
      | ok reply=>
        rw [hr] at hstep
        simp only [Piv.step,hr]
        exact hstep
      | error e=>
        rw [hr] at hstep
        simp only [Piv.step,hr]
        exact Sound.restarted hstep

theorem sound_start (be : β) (respMax : ℕ) : Sound (start be respMax):=.of_bare ⟨rfl,rfl,rfl⟩ rfl

/-- Where every step of a run takes back what it should, nothing is done that was not granted. -/
theorem accesses_granted (b : Backend β) (be : β) (respMax : ℕ) (ops : List (Op β))
    (h : Runs.AlongRun (step b) (Clean b) (start be respMax) ops) :
    lawful (Runs.run (step b) (start be respMax) ops).be.2=true:=
  (Runs.run_invariant (I:=Sound) (fun _ _ hop hs=>Sound.step hs hop) (sound_start be respMax) h).lawful

end Logged

def Backend.plain : Backend Unit where
  keyPresent _:=pure true
  keySign _ digest:=pure (some (fit 64 digest.toList))
  keyGenerate _:=pure (some (zeros 65))
  keyPubkey _:=pure (some (zeros 65))
  keyEcdh _:=pure (some (zeros 32))
  pinVerify pin:=pure (pin=[0x31,0x32,0x33,0x34,0x35,0x36])
  pinRetries _:=3
  pinBlocked _:=false
  mgmtEncrypt block:=pure (some block)
  mgmtSetKey _ _:=pure true
  stateLoad:=pure (some {})
  objectLoad _:=pure none
  objectStore _ _:=pure true
  rng:=pure (some (zeros 16))

def verifyApdu (digits : Bytes) : Bytes:=[0x00,insVerify,0x00,keyPin,0x08]++digits++[0xFF,0xFF]

/-- `GENERAL AUTHENTICATE` with a digest of two bytes. -/
def signApdu (keyRef : UInt8) : Bytes:=[0x00,insGeneralAuth,algEccP256,keyRef,0x06,0x7C,0x04,0x81,0x02,0x01,0x02]

def drawApdu : Bytes:=[0x00,insGeneralAuth,algAes256,key9B,0x04,0x7C,0x02,0x80,0x00]

def answerApdu : Bytes:=
  [0x00,insGeneralAuth,algAes256,key9B,0x26,0x7C,0x24,0x80,0x10]++(zeros 16).toList++[0x81,0x10] ++
    (zeros 16).toList

def generateApdu : Bytes:=[0x00,insGenerateKeypair,0x00,key9A,0x05,0xAC,0x03,0x80,0x01,algEccP256]

section

variable {β : Type} (b : Backend β) (s : Ctx (Logged β))

instance (be : β) (data : Bytes) : Decidable (RightPin b be data):=inferInstanceAs (Decidable (_ ∧ _))

instance (p1 : UInt8) (data : Bytes) : Decidable (Verifies b s p1 data):=inferInstanceAs (Decidable (_ → _))

instance (witness challenge : Bytes) : Decidable (Encrypts b s witness challenge):=inferInstanceAs (Decidable (_ → _))

instance (c : Cmd) : Decidable (Proper b c s):=inferInstanceAs (Decidable (_ ∧ _))

instance : Decidable s.Bare:=inferInstanceAs (Decidable (_ ∧ _))

instance (a : Scard.Apdu) : Decidable (Revokes b s a):=inferInstanceAs (Decidable (_ ∧ _))

instance : (op : Op β)→Decidable (Clean b s op)
  | .apdu raw=>inferInstanceAs (Decidable (∀ a∈Scard.apduParse raw, _))
  | .deselect | .power | .others _=>.isTrue trivial

end

/-- PIN, a signature with 9C, the PIN again, a mutual authentication and a new key. -/
def grantedOps : List (Op Unit):=
  [.apdu (verifyApdu [0x31,0x32,0x33,0x34,0x35,0x36]),.apdu (signApdu key9C),
    .apdu (verifyApdu [0x31,0x32,0x33,0x34,0x35,0x36]),.apdu (signApdu key9A),.apdu drawApdu,.apdu answerApdu,
    .apdu generateApdu,.deselect]

theorem accesses_granted_plain :
    Event.generated∈(Runs.run (step Backend.plain) (start () 2048) grantedOps).be.2 ∧
      Event.signed key9C∈(Runs.run (step Backend.plain) (start () 2048) grantedOps).be.2 ∧
      lawful (Runs.run (step Backend.plain) (start () 2048) grantedOps).be.2=true:=
  ⟨by decide +kernel,by decide +kernel,accesses_granted Backend.plain () 2048 grantedOps (by decide +kernel)⟩

/-- After a wrong PIN the earlier one still stands. -/
theorem accesses_not_granted : ¬ ∀ ops : List (Op Unit),
    lawful (Runs.run (step Backend.plain) (start () 2048) ops).be.2=true:=fun h=>
  absurd (h [.apdu (verifyApdu [0x31,0x32,0x33,0x34,0x35,0x36]),
    .apdu (verifyApdu [0x31,0x32,0x33,0x34,0x35,0x37]),.apdu (signApdu key9A)]) (by decide +kernel)

end CdcBadge.Piv
