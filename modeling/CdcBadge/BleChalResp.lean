import Mathlib.Data.List.Nodup
import CdcBadge.Bytes
import CdcBadge.Runs

/-!
# Challenge-response over BLE

A peer writes a request, the tick takes it and prepares a response, and a dialog releases the
response where the entry requires touch. Request, response and dialog are kept apart. Beside the
machine stands a history that no code reads: the connections and requests by number, the
dialogs that were confirmed, and what was sent.
-/

namespace CdcBadge.BleChalResp

open Runs

def maxNameLen : ℕ:=16
def maxChallengeLen : ℕ:=128
def maxFrameLen : ℕ:=maxNameLen+1+maxChallengeLen
def invalidHandle : ℕ:=0xFFFF

/-- The entry that answers a request. -/
structure Entry where
  secret : Bytes
  touchRequired : Bool
  deriving DecidableEq

/-- A challenge, the number of its request and that of the connection that wrote it. -/
structure PendingChallenge where
  connHandle : ℕ
  name : Bytes
  challenge : Bytes
  request : ℕ
  connection : ℕ
  deriving DecidableEq

/-- A response to be confirmed, with the request and the entry it is for. -/
structure PendingConfirm where
  connHandle : ℕ
  response : Bytes
  request : ℕ
  connection : ℕ
  entry : Entry
  deriving DecidableEq

/-- How far the tick is, between its locks. -/
inductive Tick
  | idle
  | taken (r : PendingChallenge)
  | computed (c : PendingConfirm)
  | stored (entry : Entry) (request : ℕ)
  deriving DecidableEq

/-- A notification: for which request, made on which connection, and the connection it went out on. -/
structure Notification where
  request : ℕ
  made : ℕ
  sentOn : ℕ
  entry : Entry
  data : Bytes
  deriving DecidableEq

structure State where
  pending : Option PendingChallenge:=none
  confirm : Option PendingConfirm:=none
  tick : Tick:=.idle
  /-- The dialogs on screen, each by the request it was raised for. -/
  dialogs : List ℕ:=[]
  /-- The connection that is open under a handle. -/
  opened : ℕ→Option ℕ:=fun _=>none
  connections : ℕ:=0
  requests : ℕ:=0
  confirmed : List ℕ:=[]
  sent : List Notification:=[]

def notifyResponse (c : PendingConfirm) (s : State) : State:=
  if c.connHandle=invalidHandle then s
  else
    match s.opened c.connHandle with
    | some connection=>{s with sent:=⟨c.request,c.connection,connection,c.entry,c.response⟩::s.sent}
    | none=>s

def deliverConfirmedResponse (s : State) : State:=
  match s.confirm with
  | some c=>{notifyResponse c s with confirm:=none}
  | none=>s

def parseFrame (data : Bytes) : Option (Bytes × Bytes):=
  let name:=data.takeWhile (· != 0)
  if data=[] ∨ maxFrameLen < data.length then none
  else if name=[] ∨ maxNameLen < name.length ∨ data.length ≤ name.length then none
  else if maxChallengeLen < (data.drop (name.length+1)).length then none
  else some (name,data.drop (name.length+1))

def onChallengeWrite (connHandle : ℕ) (data : Bytes) (s : State) : State:=
  match s.opened connHandle, parseFrame data with
  | some connection, some (name,challenge)=>
    if s.pending.isSome ∨ s.confirm.isSome then s
    else {s with pending:=some ⟨connHandle,name,challenge,s.requests,connection⟩,requests:=s.requests+1}
  | _, _=>s

def connect (connHandle : ℕ) (s : State) : State:=
  match s.opened connHandle with
  | some _=>s
  | none=>{s with opened:=Function.update s.opened connHandle (some s.connections),connections:=s.connections+1}

def onDisconnect (connHandle : ℕ) (s : State) : State:=
  match s.opened connHandle with
  | none=>s
  | some _=>
    { s with opened:=Function.update s.opened connHandle none
             pending:=s.pending.filter fun r=>r.connHandle≠connHandle
             confirm:=s.confirm.filter fun c=>c.connHandle≠connHandle }

def take (s : State) : State:=
  match s.tick, s.pending, s.confirm with
  | .idle, some r, none=>{s with tick:=.taken r,pending:=none}
  | _, _, _=>s

def answer (request : ℕ) (yes : Bool) (s : State) : State:=
  if request∈s.dialogs then
    let s:={s with dialogs:=s.dialogs.erase request}
    if yes then deliverConfirmedResponse {s with confirmed:=request::s.confirmed} else {s with confirm:=none}
  else s

inductive Event
  | connect (connHandle : ℕ)
  | disconnect (connHandle : ℕ)
  | write (connHandle : ℕ) (data : Bytes)
  | take
  /-- The entry that the store finds for the name; `none` where it fails. -/
  | compute (entry : Option Entry)
  | store
  | finish
  | answer (request : ℕ) (yes : Bool)

section Machine

variable (hmac : Bytes→Bytes→Bytes)

def compute (entry : Option Entry) (s : State) : State:=
  match s.tick with
  | .taken r=>
    match entry with
    | some entry=>
      {s with tick:=.computed ⟨r.connHandle,hmac entry.secret r.challenge,r.request,r.connection,entry⟩}
    | none=>{s with tick:=.idle}
  | _=>s

def store (s : State) : State:=
  match s.tick with
  | .computed c=>{s with tick:=.stored c.entry c.request,confirm:=some c}
  | _=>s

def finish (s : State) : State:=
  match s.tick with
  | .stored entry request=>
    if entry.touchRequired then {s with tick:=.idle,dialogs:=request::s.dialogs}
    else {deliverConfirmedResponse s with tick:=.idle}
  | _=>s

def step (s : State) : Event → State
  | .connect connHandle=>connect connHandle s
  | .disconnect connHandle=>onDisconnect connHandle s
  | .write connHandle data=>onChallengeWrite connHandle data s
  | .take=>take s
  | .compute entry=>compute hmac entry s
  | .store=>store s
  | .finish=>finish s
  | .answer request yes=>answer request yes s

def Tick.request : Tick→Option ℕ
  | .taken r=>some r.request
  | .computed c=>some c.request
  | _=>none

def Tick.origin : Tick→Option (ℕ × ℕ)
  | .taken r=>some (r.connHandle,r.connection)
  | .computed c=>some (c.connHandle,c.connection)
  | _=>none

def live (s : State) : List ℕ:=
  s.pending.toList.map PendingChallenge.request++s.tick.request.toList ++
    s.confirm.toList.map PendingConfirm.request++s.sent.map Notification.request

def Stays (s : State) (connHandle connection : ℕ) : Prop:=
  s.opened connHandle=none ∨ s.opened connHandle=some connection

structure Sound (s : State) : Prop where
  once : (live s).Nodup
  below : ∀ request∈live s, request < s.requests
  pending : ∀ r∈s.pending, s.opened r.connHandle=some r.connection
  tick : ∀ connHandle connection, s.tick.origin=some (connHandle,connection) → Stays s connHandle connection
  confirm : ∀ c∈s.confirm, Stays s c.connHandle c.connection
  busy : s.tick.request≠none → s.confirm=none
  stored : ∀ entry request, s.tick=.stored entry request→∀ c∈s.confirm, c.entry=entry ∧ c.request=request
  sent : ∀ n∈s.sent, n.sentOn=n.made ∧ (n.entry.touchRequired=true→n.request∈s.confirmed)

/-- No connection comes up under a handle that a request in the tick or a held response still names, and a dialog is
answered only where no other request waits for an answer. -/
def Current (s : State) : Event→Prop
  | .connect connHandle=>s.opened connHandle=none →
    (∀ o∈s.tick.origin, o.1≠connHandle) ∧ ∀ c∈s.confirm, c.connHandle≠connHandle
  | .answer request _=>request∈s.dialogs→∀ c∈s.confirm, c.request=request
  | _=>True

/-- The requests of others wait on, and nothing goes out. -/
def Spared (s t : State) : Prop:=t.pending=s.pending ∧ t.confirm=s.confirm ∧ t.sent=s.sent

def Bound (s : State) : Event→Prop
  | .answer request yes=>(∀ c∈s.confirm, c.request≠request) → Spared s (answer request yes s)
  | .disconnect connHandle=>(∀ r∈s.pending, s.opened connHandle≠some r.connection) →
    (∀ c∈s.confirm, s.opened connHandle≠some c.connection) → Spared s (onDisconnect connHandle s)
  | .compute none=>Spared s (compute hmac none s)
  | _=>True

/-- What was sent went out once, on the connection that asked for it, and was confirmed where the entry requires it. -/
structure Rightful (s : State) : Prop where
  once : (s.sent.map Notification.request).Nodup
  bound : ∀ n∈s.sent, n.sentOn=n.made ∧ (n.entry.touchRequired=true→n.request∈s.confirmed)

variable {hmac} {s : State}

theorem sound_start : Sound {} where
  once:=List.nodup_nil
  below _ h:=absurd h List.not_mem_nil
  pending _ h:=by cases h
  tick _ _ h:=by cases h
  confirm _ h:=by cases h
  busy h:=absurd rfl h
  stored _ _ h:=by cases h
  sent _ h:=absurd h List.not_mem_nil

theorem Sound.rightful (h : Sound s) : Rightful s where
  once:=(List.nodup_append.mp h.once).2.1
  bound:=h.sent

/-- A response that is held goes out, if at all, on the connection that asked for it. -/
theorem Sound.deliver (h : Sound s) (hconfirmed : ∀ c∈s.confirm, c.entry.touchRequired=true → c.request∈s.confirmed) :
    Sound (deliverConfirmedResponse s):=by
  unfold deliverConfirmedResponse
  cases hc : s.confirm with
  | none=>exact h
  | some c=>
    have hlive : live s=s.pending.toList.map PendingChallenge.request++s.tick.request.toList ++
        (c.request::s.sent.map Notification.request):=by
      unfold live
      rw [hc]
      simp
    have hdropped : Sound {s with confirm:=none}:=by
      have hsub : (live {s with confirm:=none}).Sublist (live s):=by
        rw [hlive]
        unfold live
        simp
      exact ⟨h.once.sublist hsub,fun request hr=>h.below request (hsub.subset hr),h.pending,h.tick,
        fun _ hnone=>(by cases hnone),fun _=>rfl,fun _ _ _ _ hnone=>(by cases hnone),h.sent⟩
    unfold notifyResponse
    dsimp only
    split
    · exact hdropped
    · split
      · rename_i connection hopened
        have hlive' : live {s with sent:=⟨c.request,c.connection,connection,c.entry,c.response⟩::s.sent,confirm:=none} =
            live s:=by
          rw [hlive]
          unfold live
          simp
        refine ⟨by rw [hlive']; exact h.once,by rw [hlive']; exact h.below,h.pending,h.tick,
          fun _ hnone=>(by cases hnone),fun _=>rfl,fun _ _ _ _ hnone=>(by cases hnone),fun n hn=>?_⟩
        rcases List.mem_cons.mp hn with rfl | hold
        · refine ⟨?_,hconfirmed c hc⟩
          rcases h.confirm c hc with hnone | hsome
          · rw [hnone] at hopened
            cases hopened
          · rw [hsome] at hopened
            exact (Option.some.inj hopened).symm
        · exact h.sent n hold
      · exact hdropped

theorem Sound.connect (h : Sound s) {connHandle : ℕ} (hcurrent : Current s (.connect connHandle)) :
    Sound (connect connHandle s):=by
  unfold BleChalResp.connect
  split
  · exact h
  · rename_i hfree
    obtain ⟨htick,hconfirm⟩:=hcurrent hfree
    have hother {connHandle' : ℕ} (hne : connHandle'≠connHandle) :
        Function.update s.opened connHandle (some s.connections) connHandle'=s.opened connHandle':=
      Function.update_of_ne hne _ _
    refine ⟨h.once,h.below,fun r hr=>?_,fun connHandle' connection ho=>?_,fun c hc=>?_,h.busy,h.stored,h.sent⟩
    · have hopened:=h.pending r hr
      have hne : r.connHandle≠connHandle:=by
        intro heq
        rw [heq,hfree] at hopened
        cases hopened
      exact (hother hne).trans hopened
    · have hstays:=h.tick connHandle' connection ho
      unfold Stays
      rw [show ({s with opened:=_,connections:=_} : State).opened connHandle'=s.opened connHandle' from
        hother (htick _ ho)]
      exact hstays
    · have hstays:=h.confirm c hc
      unfold Stays
      rw [show ({s with opened:=_,connections:=_} : State).opened c.connHandle=s.opened c.connHandle from
        hother (hconfirm c hc)]
      exact hstays

theorem Sound.onDisconnect (h : Sound s) (connHandle : ℕ) : Sound (onDisconnect connHandle s):=by
  unfold BleChalResp.onDisconnect
  split
  · exact h
  · have hsub : (live { s with
        opened:=Function.update s.opened connHandle none
        pending:=s.pending.filter fun r=>r.connHandle≠connHandle
        confirm:=s.confirm.filter fun c=>c.connHandle≠connHandle }).Sublist (live s):=by
      unfold live
      refine List.Sublist.append (List.Sublist.append (List.Sublist.append ?_ (List.Sublist.refl _)) ?_) (List.Sublist.refl _)
      · cases s.pending with
        | none=>exact List.Sublist.refl _
        | some r=>by_cases hr : r.connHandle=connHandle <;> simp [hr]
      · cases s.confirm with
        | none=>exact List.Sublist.refl _
        | some c=>by_cases hc : c.connHandle=connHandle <;> simp [hc]
    have hstays {connHandle' connection : ℕ} (hs : Stays s connHandle' connection) :
        Function.update s.opened connHandle none connHandle'=none ∨
          Function.update s.opened connHandle none connHandle'=some connection:=by
      by_cases heq : connHandle'=connHandle
      · exact .inl (by rw [heq,Function.update_self])
      · rw [Function.update_of_ne heq]
        exact hs
    refine ⟨h.once.sublist hsub,fun request hr=>h.below request (hsub.subset hr),fun r hr=>?_,
      fun connHandle' connection ho=>hstays (h.tick connHandle' connection ho),fun c hc=>?_,fun hbusy=>?_,
      fun entry request ht c hc=>?_,h.sent⟩
    · obtain ⟨hr,hne⟩:=Option.mem_filter_iff.mp hr
      exact (Function.update_of_ne (by simpa using hne) _ _).trans (h.pending r hr)
    · obtain ⟨hc,-⟩:=Option.mem_filter_iff.mp hc
      exact hstays (h.confirm c hc)
    · rw [show s.confirm=none from h.busy hbusy]
      rfl
    · obtain ⟨hc,-⟩:=Option.mem_filter_iff.mp hc
      exact h.stored entry request ht c hc

theorem Sound.onChallengeWrite (h : Sound s) (connHandle : ℕ) (data : Bytes) : Sound (onChallengeWrite connHandle data s):=by
  unfold BleChalResp.onChallengeWrite
  split
  · rename_i connection name challenge hopened hparse
    split
    · exact h
    · rename_i hfree
      simp only [not_or,Bool.not_eq_true,Option.isSome_eq_false_iff,Option.isNone_iff_eq_none] at hfree
      have hlive : live { s with
          pending:=some ⟨connHandle,name,challenge,s.requests,connection⟩,requests:=s.requests+1 } =
          s.requests::live s:=by
        unfold live
        rw [hfree.1]
        simp
      refine ⟨?_,?_,?_,h.tick,h.confirm,h.busy,h.stored,h.sent⟩
      · rw [hlive]
        exact List.nodup_cons.mpr ⟨fun hmem=>absurd (h.below _ hmem) (Nat.lt_irrefl _),h.once⟩
      · rw [hlive]
        intro request hr
        rcases List.mem_cons.mp hr with rfl | hold
        · exact Nat.lt_succ_self _
        · exact Nat.lt_succ_of_lt (h.below request hold)
      · rintro r ⟨⟩
        exact hopened
  · exact h

theorem Sound.take (h : Sound s) : Sound (take s):=by
  unfold BleChalResp.take
  split
  · rename_i r htick hpending hconfirm
    have hlive : live {s with tick:=.taken r,pending:=none}=live s:=by
      unfold live
      rw [htick,hpending]
      simp [Tick.request]
    refine ⟨by rw [hlive]; exact h.once,by rw [hlive]; exact h.below,fun _ hnone=>(by cases hnone),?_,h.confirm,
      fun _=>hconfirm,fun _ _ ht=>(by cases ht),h.sent⟩
    rintro _ _ ⟨⟩
    exact .inr (h.pending r hpending)
  · exact h

theorem Sound.compute (h : Sound s) (entry : Option Entry) : Sound (compute hmac entry s):=by
  unfold BleChalResp.compute
  split
  · rename_i r htick
    cases entry with
    | none=>
      have hsub : (live {s with tick:=.idle}).Sublist (live s):=by
        unfold live
        rw [htick]
        simp [Tick.request]
      exact ⟨h.once.sublist hsub,fun request hr=>h.below request (hsub.subset hr),h.pending,fun _ _ ho=>(by cases ho),
        h.confirm,fun hbusy=>absurd rfl hbusy,fun _ _ ht=>(by cases ht),h.sent⟩
    | some entry=>
      have hlive : live { s with
          tick:=.computed ⟨r.connHandle,hmac entry.secret r.challenge,r.request,r.connection,entry⟩ }=live s:=by
        unfold live
        rw [htick]
        simp [Tick.request]
      refine ⟨by rw [hlive]; exact h.once,by rw [hlive]; exact h.below,h.pending,?_,h.confirm,
        fun _=>h.busy (by rw [htick]; exact Option.some_ne_none _),fun _ _ ht=>(by cases ht),h.sent⟩
      rintro _ _ ⟨⟩
      exact h.tick _ _ (by rw [htick]; rfl)
  · exact h

theorem Sound.store (h : Sound s) : Sound (store s):=by
  unfold BleChalResp.store
  split
  · rename_i c htick
    have hnone : s.confirm=none:=h.busy (by rw [htick]; exact Option.some_ne_none _)
    have hlive : live {s with tick:=.stored c.entry c.request,confirm:=some c}=live s:=by
      unfold live
      rw [htick,hnone]
      simp [Tick.request]
    refine ⟨by rw [hlive]; exact h.once,by rw [hlive]; exact h.below,h.pending,fun _ _ ho=>(by cases ho),?_,
      fun hbusy=>absurd rfl hbusy,?_,h.sent⟩
    · rintro _ ⟨⟩
      exact h.tick _ _ (by rw [htick]; rfl)
    · rintro _ _ ⟨⟩ _ ⟨⟩
      exact ⟨rfl,rfl⟩
  · exact h

theorem Sound.noTick (h : Sound s) : Sound {s with tick:=.idle}:=by
  have hsub : (live {s with tick:=.idle}).Sublist (live s):=by
    unfold live
    simp [Tick.request]
  exact ⟨h.once.sublist hsub,fun request hr=>h.below request (hsub.subset hr),h.pending,fun _ _ ho=>(by cases ho),
    h.confirm,fun hbusy=>absurd rfl hbusy,fun _ _ ht=>(by cases ht),h.sent⟩

theorem Sound.finish (h : Sound s) : Sound (finish s):=by
  unfold BleChalResp.finish
  split
  · rename_i entry request htick
    split
    · have hdone:=h.noTick
      exact ⟨hdone.once,hdone.below,hdone.pending,hdone.tick,hdone.confirm,hdone.busy,hdone.stored,hdone.sent⟩
    · rename_i htouch
      refine (h.deliver fun c hc hneeds=>?_).noTick
      obtain ⟨rfl,-⟩:=h.stored entry request htick c hc
      exact absurd hneeds htouch
  · exact h

theorem Sound.answer (h : Sound s) {request : ℕ} {yes : Bool} (hcurrent : Current s (.answer request yes)) :
    Sound (answer request yes s):=by
  unfold BleChalResp.answer
  split
  · rename_i hdialog
    dsimp only
    split
    · have hconfirmed : Sound {s with dialogs:=s.dialogs.erase request,confirmed:=request::s.confirmed}:=
        ⟨h.once,h.below,h.pending,h.tick,h.confirm,h.busy,h.stored,fun n hn=>
          ⟨(h.sent n hn).1,fun hneeds=>List.mem_cons_of_mem _ ((h.sent n hn).2 hneeds)⟩⟩
      refine hconfirmed.deliver fun c hc _=>?_
      rw [hcurrent hdialog c hc]
      exact List.mem_cons_self
    · have hsub : (live {s with dialogs:=s.dialogs.erase request,confirm:=none}).Sublist (live s):=by
        unfold live
        simp
      exact ⟨h.once.sublist hsub,fun r hr=>h.below r (hsub.subset hr),h.pending,h.tick,fun _ hnone=>(by cases hnone),
        fun _=>rfl,fun _ _ _ _ hnone=>(by cases hnone),h.sent⟩
  · exact h

theorem Sound.step (h : Sound s) {e : Event} (hcurrent : Current s e) : Sound (step hmac s e):=by
  cases e with
  | connect connHandle=>exact h.connect hcurrent
  | disconnect connHandle=>exact h.onDisconnect connHandle
  | write connHandle data=>exact h.onChallengeWrite connHandle data
  | take=>exact h.take
  | compute entry=>exact h.compute entry
  | store=>exact h.store
  | finish=>exact h.finish
  | answer request yes=>exact h.answer hcurrent

theorem Sound.bound (h : Sound s) {e : Event} (hcurrent : Current s e) : Bound hmac s e:=by
  cases e with
  | answer request yes=>
    intro hother
    unfold BleChalResp.answer
    split
    · rename_i hdialog
      cases hc : s.confirm with
      | some c=>exact absurd (hcurrent hdialog c hc) (hother c hc)
      | none=>
        cases yes
        · exact ⟨rfl,hc.symm,rfl⟩
        · simp only [if_true,deliverConfirmedResponse]
          exact ⟨rfl,hc.symm,rfl⟩
    · exact ⟨rfl,rfl,rfl⟩
  | disconnect connHandle=>
    intro hpending hconfirm
    unfold BleChalResp.onDisconnect
    split
    · exact ⟨rfl,rfl,rfl⟩
    · rename_i connection hopened
      refine ⟨?_,?_,rfl⟩
      · cases hr : s.pending with
        | none=>rfl
        | some r=>
          have hne : r.connHandle≠connHandle:=by
            rintro rfl
            exact hpending r hr (h.pending r hr)
          simp [hne]
      · cases hc : s.confirm with
        | none=>rfl
        | some c=>
          have hne : c.connHandle≠connHandle:=by
            rintro rfl
            rcases h.confirm c hc with hnone | hsome
            · rw [hnone] at hopened
              cases hopened
            · exact hconfirm c hc hsome
          simp [hne]
  | compute entry=>
    cases entry with
    | some entry=>trivial
    | none=>
      change Spared s (BleChalResp.compute hmac none s)
      unfold BleChalResp.compute
      split
      · exact ⟨rfl,rfl,rfl⟩
      · exact ⟨rfl,rfl,rfl⟩
  | connect connHandle=>trivial
  | write connHandle data=>trivial
  | take=>trivial
  | store=>trivial
  | finish=>trivial

end Machine

section Requests

instance (s : State) : (e : Event)→Decidable (Current s e)
  | .connect _=>by
    unfold Current
    infer_instance
  | .answer _ _=>by
    unfold Current
    infer_instance
  | .disconnect _ | .write _ _ | .take | .compute _ | .store | .finish=>.isTrue trivial

def plainHmac (secret data : Bytes) : Bytes:=secret++data

def touchEntry : Entry:={secret:=[0x0B],touchRequired:=true}

def challengeFrame : Bytes:=[0x61,0x00,0x01,0x02]

def requestEvents : List Event:=[.write 1 challengeFrame,.take,.compute (some touchEntry),.store,.finish]

def confirmedEvents : List Event:=.connect 1::requestEvents++[.answer 0 true]

end Requests

end CdcBadge.BleChalResp
