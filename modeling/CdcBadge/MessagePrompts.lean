import CdcBadge.MessageFrames
import CdcBadge.Runs

/-!
# How often the user is asked

A budget of prompts for each window and a quiet time after an answer of no. Windows follow each other without a gap, and the end
of the quiet time is a time of a clock that wraps.
-/

namespace CdcBadge.Msg

open Runs

namespace Transfer

def limits (s : Transfer) : UInt32 × UInt8 × UInt32:=(s.promptWindowStartMs,s.promptsInWindow,s.quietUntilMs)

/-- No prompt has come up, and the limits are as before. -/
structure Calm (s t : Transfer) : Prop where
  limits : t.limits=s.limits
  asking : t.recv.state=.awaitingConsent → s.recv.state=.awaitingConsent

section Calm

variable {s t u : Transfer} {crc32 : Bytes→UInt32}

theorem Calm.refl (s : Transfer) : Calm s s:=⟨rfl,id⟩

theorem Calm.trans (h : Calm s t) (h' : Calm t u) : Calm s u:=⟨h'.limits.trans h.limits,fun hu=>h.asking (h'.asking hu)⟩

theorem calm_of_exceptSend (h : t.exceptSend=s.exceptSend) : Calm s t:=by
  have hlimits : t.exceptSend.limits=s.exceptSend.limits:=congrArg Transfer.limits h
  have hrecv : t.exceptSend.recv=s.exceptSend.recv:=congrArg recv h
  exact ⟨hlimits,fun hasking=>(congrArg RecvSession.state hrecv).symm.trans hasking⟩

theorem calm_of_exceptBonds (h : t.exceptBonds=s.exceptBonds) : Calm s t:=by
  have hlimits : t.exceptBonds.limits=s.exceptBonds.limits:=congrArg Transfer.limits h
  have hrecv : t.exceptBonds.recv=s.exceptBonds.recv:=congrArg recv h
  exact ⟨hlimits,fun hasking=>(congrArg RecvSession.state hrecv).symm.trans hasking⟩

theorem calm_notifyFrame (conn : UInt16) (frame : Bytes) : Calm s (s.notifyFrame conn frame):=by
  unfold notifyFrame
  split <;> exact ⟨rfl,id⟩

theorem calm_notifyStatus (conn : UInt16) (op : StatusOp) : Calm s (s.notifyStatus conn op):=calm_notifyFrame _ _

theorem calm_notifyStatusByte (conn : UInt16) (op : StatusOp) (arg : UInt8) : Calm s (s.notifyStatusByte conn op arg):=
  calm_notifyFrame _ _

theorem calm_awaitPairing (conn : UInt16) : Calm s (s.awaitPairing conn):=by
  unfold awaitPairing
  split <;> exact ⟨rfl,id⟩

theorem calm_resetRecv : Calm s s.resetRecv:=⟨rfl,fun h=>by cases h⟩

theorem calm_teardownRecv (sendError : Bool) (reason : Reason) : Calm s (s.teardownRecv sendError reason):=by
  unfold teardownRecv notifyStatusByte notifyFrame
  dsimp only
  constructor
  · split_ifs <;> rfl
  · intro hasking
    split_ifs at hasking <;> cases hasking

theorem calm_enqueueOffer (conn : UInt16) (link : Link) (f : OfferFrame) (env : Env) : Calm s (s.enqueueOffer conn link f env):=by
  unfold enqueueOffer notifyStatus notifyFrame
  split
  · split <;> exact ⟨rfl,id⟩
  · dsimp only
    split_ifs <;> exact ⟨rfl,id⟩

theorem calm_rateLimitOk (conn : UInt16) (now : UInt32) : Calm s (s.rateLimitOk conn now).2:=by
  unfold rateLimitOk
  dsimp only
  split
  · exact .refl s
  · split <;> split <;> exact ⟨rfl,id⟩

theorem calm_accept (consent : Consent) (now : UInt32) : Calm s (s.accept consent now):=by
  unfold accept
  have hnotified:=calm_notifyStatus (s:=s) s.recv.conn .accept
  generalize s.notifyStatus s.recv.conn .accept=t at hnotified
  have hpairing:=calm_awaitPairing (s:=t) t.recv.conn
  exact ⟨hpairing.limits.trans hnotified.limits,fun h=>by cases h⟩

theorem calm_deliver (env : Env) : Calm s (s.deliver crc32 env):=by
  unfold deliver
  dsimp only
  split
  · exact calm_teardownRecv _ _
  · split
    · split
      · have hnotified:=calm_notifyStatus
          (s:={s with recvLog:=s.recvLog++[RecvEntry.delivered ((s.recv.buf.getD []).take s.recv.totalLen)]}) s.recv.conn .done
        exact ⟨hnotified.limits,fun h=>by cases h⟩
      · have hteardown:=calm_teardownRecv
          (s:={s with recvLog:=s.recvLog++[RecvEntry.delivered ((s.recv.buf.getD []).take s.recv.totalLen)]}) true Reason.badFrame
        exact ⟨hteardown.limits,hteardown.asking⟩
    · exact calm_teardownRecv _ _

theorem calm_tickRecv (env : Env) (hidle : s.recv.state≠.idle) : Calm s (s.tickRecv crc32 env):=by
  unfold tickRecv
  split
  · exact absurd ‹_› hidle
  · split_ifs
    · exact calm_teardownRecv _ _
    · exact calm_teardownRecv _ _
    · exact .refl s
  · split_ifs
    · exact calm_teardownRecv _ _
    · exact calm_teardownRecv _ _
    · exact .refl s
  · split_ifs
    · exact calm_teardownRecv _ _
    · exact calm_deliver _
    · exact calm_teardownRecv _ _
    · exact .refl s
  · dsimp only
    split_ifs
    · exact ⟨rfl,fun h=>by cases h⟩
    · exact calm_resetRecv
    · exact .refl s
  · exact .refl s

theorem calm_onControlWrite (conn : UInt16) (link : Link) (data : Bytes) (env : Env) : Calm s (s.onControlWrite conn link data env):=by
  unfold onControlWrite
  split
  · exact .refl s
  · split
    · split_ifs <;> exact ⟨rfl,id⟩
    · split
      · exact .refl s
      · split
        · exact calm_notifyStatusByte _ _ _
        · split
          · exact calm_notifyStatusByte _ _ _
          · have hrate:=calm_rateLimitOk (s:=s) conn env.now
            dsimp only
            split
            · exact hrate.trans (calm_enqueueOffer _ _ _ _)
            · exact hrate.trans (calm_notifyStatus _ _)

theorem calm_takeChunk (conn : UInt16) (payload : Bytes) (now : UInt32) : Calm s (s.takeChunk conn payload now):=by
  unfold takeChunk notifyStatusU32 notifyFrame
  dsimp only
  split_ifs <;> exact ⟨rfl,id⟩

theorem calm_onDataWrite (conn : UInt16) (data : Bytes) (env : Env) : Calm s (s.onDataWrite conn data env):=by
  unfold onDataWrite
  split_ifs
  · exact .refl s
  · exact .refl s
  · exact ⟨rfl,id⟩
  · exact calm_takeChunk _ _ _
  · exact ⟨rfl,id⟩
  · exact ⟨rfl,id⟩
  · exact ⟨rfl,id⟩
  · exact .refl s

theorem calm_loseRecv (conn : UInt16) : Calm s (s.loseRecv conn):=by
  unfold loseRecv
  split_ifs
  · exact calm_resetRecv
  · exact ⟨rfl,id⟩
  · exact .refl s

theorem calm_onDisconnect (conn : UInt16) (env : Env) : Calm s (s.onDisconnect conn env):=by
  unfold onDisconnect
  split
  · have hforgot:=calm_of_exceptBonds (exceptBonds_forgetBondForConn (s:=s) conn)
    have hlost:=(hforgot.trans (calm_of_exceptSend (exceptSend_loseSend conn))).trans (calm_loseRecv conn)
    exact ⟨hlost.limits,hlost.asking⟩
  · exact .refl s

theorem calm_startReceiving (conn : UInt16) (now : UInt32) : Calm s (s.startReceiving conn now):=by
  unfold startReceiving
  have hnoted:=calm_of_exceptBonds (exceptBonds_notePairing (s:={ s with recv:={ s.recv with
    buf:=some (List.replicate s.recv.totalLen 0),received:=0,lastProgress:=0,completeReceived:=false } }) conn s.recv.persistent)
  exact ⟨hnoted.limits,fun h=>by cases h⟩

theorem calm_onEncChange (conn : UInt16) (status : ℤ) (env : Env) : Calm s (s.onEncChange conn status env):=by
  unfold onEncChange
  split
  · exact .refl s
  · split
    · split
      · have hnoted:=calm_of_exceptBonds (exceptBonds_notePairing (s:=s) conn s.send.persistent)
        exact ⟨hnoted.limits,hnoted.asking⟩
      · exact ⟨rfl,id⟩
    · split
      · split
        · split
          · exact ⟨rfl,id⟩
          · exact calm_startReceiving _ _
        · exact ⟨rfl,id⟩
      · exact .refl s

theorem calm_abandon : Calm s s.abandonRecv.abandonSend:=by
  refine Calm.trans ?_ (calm_of_exceptSend exceptSend_abandonSend)
  unfold abandonRecv
  split
  · exact calm_teardownRecv _ _
  · exact .refl s

theorem calm_stop (env : Env) : Calm s (s.stop env):=by
  unfold stop
  have hforgot:=(calm_abandon (s:=s)).trans (calm_of_exceptBonds (exceptBonds_forgetAllSessionPeers env))
  exact ⟨hforgot.limits,hforgot.asking⟩

theorem calm_linkUp (conn : UInt16) (peer : PeerAddr) (env : Env) : Calm s (s.linkUp conn peer env):=by
  unfold linkUp onConnect
  split
  · exact .refl s
  · dsimp only
    split_ifs <;> exact ⟨rfl,id⟩

theorem calm_linkDown (conn : UInt16) (env : Env) : Calm s (s.linkDown conn env):=by
  unfold linkDown
  split
  · dsimp only
    split
    · have hlost:=calm_onDisconnect (s:={s with links:=Function.update s.links conn none}) conn env
      exact ⟨hlost.limits,hlost.asking⟩
    · exact ⟨rfl,id⟩
  · exact .refl s

theorem calm_encChange (conn : UInt16) (status : ℤ) (paired : Bool) (env : Env) : Calm s (s.encChange conn status paired env):=by
  unfold encChange
  split
  · rename_i link hlink
    have hencrypted : Calm s (if status=0 then s.encrypt link paired else s):=by
      split <;> exact ⟨rfl,id⟩
    generalize (if status=0 then s.encrypt link paired else s)=t at hencrypted
    dsimp only
    by_cases hlistening : t.listening=true
    · rw [if_pos hlistening]
      exact hencrypted.trans (calm_onEncChange _ _ _)
    · rw [if_neg hlistening]
      exact hencrypted
  · exact .refl s

theorem calm_dataWrite (conn : UInt16) (data : Bytes) (env : Env) : Calm s (s.dataWrite conn data env):=by
  unfold dataWrite
  split
  · rename_i link hlink
    dsimp only
    split
    · have hwritten:=calm_onDataWrite (s:={s with recvLog:=s.recvLog++dataEntries link data}) conn data env
      exact ⟨hwritten.limits,hwritten.asking⟩
    · exact ⟨rfl,id⟩
  · exact .refl s

/-- Only the clock of a tick, the user's answer and a reboot have to do with the limits. -/
def Aside : Event→Prop
  | .tick _ | .respondConsent _ _ | .reboot=>False
  | _=>True

theorem calm_step {e : Event} (h : Aside e) : Calm s (s.step crc32 e):=by
  cases e with
  | linkUp conn peer env=>exact calm_linkUp _ _ _
  | linkDown conn env=>exact calm_linkDown _ _
  | controlWrite conn data env=>
    dsimp only [Transfer.step]
    refine hear_cases (P:=fun t=>Calm s t) (.refl s) fun link _=>?_
    exact calm_onControlWrite conn link data env
  | dataWrite conn data env=>exact calm_dataWrite _ _ _
  | encChange conn status paired env=>exact calm_encChange _ _ _ _
  | showConsent=>
    show Calm s s.showConsent
    unfold showConsent
    split <;> exact ⟨rfl,id⟩
  | respondConsent accept env=>exact h.elim
  | tick env=>exact h.elim
  | serviceDiscovered | notification | writeComplete | sendTo | beginInteractiveSend | takeInteractiveRequest
  | confirmInteractiveTarget | cancelSend | consumeResult=>
    exact calm_of_exceptSend (exceptSend_step trivial)
  | start=>exact ⟨rfl,id⟩
  | stop env=>exact calm_stop _
  | reboot=>exact h.elim

end Calm

end Transfer

/-- The service with the milliseconds since it was started, the prompts that came up and the offers that were refused for
the quiet time, each with the last decline before it. -/
structure Watch where
  service : Transfer:={}
  uptime : ℕ:=0
  prompts : List (ℕ × Option ℕ):=[]
  refused : List (ℕ × Option ℕ):=[]
  declined : Option ℕ:=none

def clock (uptime : ℕ) : UInt32:=UInt32.ofNat uptime

def Event.stamped (now : UInt32) : Event → Event
  | .tick env=>.tick {env with now:=now}
  | .respondConsent accept env=>.respondConsent accept {env with now:=now}
  | e=>e

def Transfer.due (s : Transfer) (now : UInt32) : Bool:=
  decide (s.recv.state=.idle) && (s.oldestOffer.bind s.queue).any fun o=>
    !(decide (now-o.enqueuedMs > kQueueWaitTimeoutMs) || o.persist && (s.getPeerIdAddr o.conn).any s.isSessionPeer)

def Watch.notes (h : Watch) (uptime : ℕ) (service : Transfer) : Event→Watch
  | .tick _=>
    { h with
      service:=service
      uptime:=uptime
      prompts:=if h.service.recv.state≠.awaitingConsent ∧ service.recv.state=.awaitingConsent then (uptime,h.declined)::h.prompts
        else h.prompts
      refused:=if h.service.due (clock uptime)=true ∧ clock uptime < h.service.quietUntilMs then (uptime,h.declined)::h.refused
        else h.refused }
  | .respondConsent accept _=>
    { h with
      service:=service
      uptime:=uptime
      declined:=if accept=false ∧ h.service.recv.state=.awaitingConsent ∧ h.service.recv.failFlag=false then some uptime
        else h.declined }
  | .reboot=>{service:=service}
  | _=>
    { h with
      service:=service
      uptime:=uptime
      prompts:=if h.service.recv.state≠.awaitingConsent ∧ service.recv.state=.awaitingConsent then (uptime,h.declined)::h.prompts
        else h.prompts }

def watch (crc32 : Bytes→UInt32) (h : Watch) (x : ℕ × Event) : Watch:=
  h.notes (h.uptime+x.1) (h.service.step crc32 (x.2.stamped (clock (h.uptime+x.1)))) x.2

/-- The user is asked so often in any span at most, not in the quiet time, and offers are refused for it only while it lasts. -/
structure Throttles (h : Watch) : Prop where
  budget : ∀ t, (h.prompts.filter fun p=>t ≤ p.1 ∧ p.1 ≤ t+kPromptWindowMs.toNat).length ≤ kMaxPromptsPerWindow.toNat
  quiet : ∀ t d, (t,some d)∈h.prompts→d+kQuietCooldownMs.toNat ≤ t
  ends : ∀ t d, (t,d)∈h.refused→∃ d', d=some d' ∧ t < d'+kQuietCooldownMs.toNat

/-- The clock does not wrap between a moment in the quiet time of a decline and its end, nor shows a moment after it as one
before the end. -/
def OnClock (declined uptime : ℕ) : Prop:=
  if uptime < declined+kQuietCooldownMs.toNat then (declined+kQuietCooldownMs.toNat)/2^32=uptime/2^32
  else (declined+kQuietCooldownMs.toNat) % 2^32 ≤ uptime % 2^32

instance (declined uptime : ℕ) : Decidable (OnClock declined uptime):=
  inferInstanceAs (Decidable (if uptime < declined+kQuietCooldownMs.toNat then _=_ else _ ≤ _))

/-- When the user is to be asked, the clock does for the quiet time; and a prompt that opens a window comes a whole window
after the last one. -/
def Spaced (h : Watch) (x : ℕ × Event) : Prop:=
  match x.2 with
  | .tick _=>h.service.due (clock (h.uptime+x.1))=true →
    (∀ d∈h.declined, OnClock d (h.uptime+x.1)) ∧
      (¬clock (h.uptime+x.1) < h.service.quietUntilMs →
        clock (h.uptime+x.1)-h.service.promptWindowStartMs > kPromptWindowMs →
          ∀ p∈h.prompts, p.1+kPromptWindowMs.toNat < h.uptime+x.1)
  | _=>True

instance (h : Watch) : ∀ x, Decidable (Spaced h x)
  | (_,.tick _)=>inferInstanceAs (Decidable (_ → _))
  | (_,.linkUp ..) | (_,.linkDown ..) | (_,.controlWrite ..) | (_,.dataWrite ..) | (_,.encChange ..)
  | (_,.serviceDiscovered ..) | (_,.notification ..) | (_,.writeComplete ..) | (_,.showConsent) | (_,.respondConsent ..)
  | (_,.sendTo ..) | (_,.beginInteractiveSend ..) | (_,.takeInteractiveRequest) | (_,.confirmInteractiveTarget ..)
  | (_,.cancelSend) | (_,.consumeResult) | (_,.start) | (_,.stop ..) | (_,.reboot)=>inferInstanceAs (Decidable True)

namespace Transfer

/-- A tick leaves the limits alone, or refuses an offer for one of them, or asks the user. -/
inductive Promotes (s : Transfer) (now : UInt32) (t : Transfer) : Prop
  | idle (hdue : s.due now=false) (hcalm : Calm s t)
  | quiet (hdue : s.due now=true) (hquiet : now < s.quietUntilMs) (hcalm : Calm s t)
  | spent (hdue : s.due now=true) (hpassed : ¬now < s.quietUntilMs) (hcalm : Calm s t)
  | prompt (hdue : s.due now=true) (hpassed : ¬now < s.quietUntilMs) (hleft : (s.tryConsumePromptBudget now).1=true)
      (hlimits : t.limits=(s.tryConsumePromptBudget now).2.limits) (hstate : t.recv.state=.awaitingConsent)

section Tick

variable {s t : Transfer} {now : UInt32} {crc32 : Bytes→UInt32}

theorem calm_dropOffer (i : Fin kOfferQueueDepth) : Calm s (s.dropOffer i):=⟨rfl,id⟩

theorem calm_busy (conn : UInt16) (i : Fin kOfferQueueDepth) : Calm s ((s.notifyStatus conn .busy).dropOffer i):=
  (calm_notifyStatus _ _).trans (calm_dropOffer i)

theorem tryConsumePromptBudget_spent (h : (s.tryConsumePromptBudget now).1=false) : (s.tryConsumePromptBudget now).2=s:=by
  unfold tryConsumePromptBudget at h ⊢
  dsimp only at h ⊢
  by_cases hopen : now-s.promptWindowStartMs > kPromptWindowMs
  · rw [if_pos hopen] at h
    exact absurd h (by simp [kMaxPromptsPerWindow])
  · rw [if_neg hopen] at h ⊢
    by_cases hspent : s.promptsInWindow ≥ kMaxPromptsPerWindow
    · rw [if_pos hspent]
    · rw [if_neg hspent] at h
      cases h

theorem tryConsumePromptBudget_congr (h : t.limits=s.limits) : (t.tryConsumePromptBudget now).1=(s.tryConsumePromptBudget now).1 ∧
    (t.tryConsumePromptBudget now).2.limits=(s.tryConsumePromptBudget now).2.limits:=by
  obtain ⟨hstart,hcount,hquiet⟩ : t.promptWindowStartMs=s.promptWindowStartMs ∧ t.promptsInWindow=s.promptsInWindow ∧
      t.quietUntilMs=s.quietUntilMs:=by simpa [limits] using h
  unfold tryConsumePromptBudget
  rw [hstart]
  by_cases hopen : now-s.promptWindowStartMs > kPromptWindowMs
  · rw [if_pos hopen,if_pos hopen]
    dsimp only
    split_ifs
    · exact ⟨rfl,by simp [limits,hquiet]⟩
    · exact ⟨rfl,by simp [limits,hquiet]⟩
  · rw [if_neg hopen,if_neg hopen]
    dsimp only
    rw [hcount]
    split_ifs
    · exact ⟨rfl,h⟩
    · exact ⟨rfl,by simp [limits,hstart,hquiet]⟩

theorem due_of_queue {i : Fin kOfferQueueDepth} {o : Offer} (hidle : s.recv.state=.idle) (hoffer : s.oldestOffer=some i)
    (hqueue : s.queue i=some o) : s.due now =
      !(decide (now-o.enqueuedMs > kQueueWaitTimeoutMs) || o.persist && (s.getPeerIdAddr o.conn).any s.isSessionPeer):=by
  unfold due
  rw [decide_eq_true hidle,hoffer,Option.bind_some,hqueue]
  rfl

theorem promoteNextOffer_promotes (hidle : s.recv.state=.idle) : Promotes s now (s.promoteNextOffer now):=by
  unfold promoteNextOffer
  cases hoffer : s.oldestOffer with
  | none=>
    apply Promotes.idle _ (.refl s)
    unfold due
    rw [hoffer]
    simp
  | some i=>
    dsimp only
    cases hqueue : s.queue i with
    | none=>
      apply Promotes.idle _ (.refl s)
      unfold due
      rw [hoffer,Option.bind_some,hqueue]
      simp
    | some o=>
      have hdue : s.due now=_:=due_of_queue hidle hoffer hqueue
      dsimp only
      by_cases htimeout : now-o.enqueuedMs > kQueueWaitTimeoutMs
      · rw [if_pos htimeout]
        rw [decide_eq_true htimeout] at hdue
        exact .idle hdue ((calm_notifyStatusByte _ _ _).trans (calm_dropOffer i))
      · rw [if_neg htimeout]
        rw [decide_eq_false htimeout,Bool.false_or] at hdue
        by_cases htrusted : (o.persist && (s.getPeerIdAddr o.conn).any s.isSessionPeer)=true
        · rw [if_pos htrusted]
          rw [htrusted] at hdue
          apply Promotes.idle hdue
          unfold promote
          rw [if_pos rfl]
          have htaken : Calm s (s.takeOffer i o now):=⟨rfl,id⟩
          exact htaken.trans (calm_accept _ _)
        · rw [if_neg htrusted]
          rw [Bool.not_eq_true] at htrusted
          rw [htrusted] at hdue
          by_cases hquiet : now < s.quietUntilMs
          · rw [if_pos hquiet]
            exact .quiet hdue hquiet (calm_busy _ _)
          · rw [if_neg hquiet]
            cases hleft : (s.tryConsumePromptBudget now).1 with
            | false=>
              rw [if_neg Bool.false_ne_true,tryConsumePromptBudget_spent hleft]
              exact .spent hdue hquiet (calm_busy _ _)
            | true=>
              rw [if_pos rfl]
              exact .prompt hdue hquiet hleft rfl rfl

theorem prelude_eq (env : Env) : ∃ bonds ledger cleaned dirty, (s.cleanupOnce env).flushLedger env =
    {s with bonds:=bonds,ledger:=ledger,sessionBondsCleaned:=cleaned,ledgerDirty:=dirty}:=by
  have hfold : ∀ (peers : List PeerAddr) (t : Transfer), ∃ bonds, peers.foldl forgetBond t={t with bonds:=bonds}:=by
    intro peers
    induction peers with
    | nil=>exact fun t=>⟨t.bonds,rfl⟩
    | cons peer peers ih=>
      intro t
      obtain ⟨bonds,hbonds⟩:=ih (t.forgetBond peer)
      exact ⟨bonds,hbonds⟩
  have hcleanup : ∃ bonds ledger cleaned, s.cleanupOnce env =
      {s with bonds:=bonds,ledger:=ledger,sessionBondsCleaned:=cleaned}:=by
    unfold cleanupOnce cleanupStaleSessionBonds
    obtain ⟨bonds,hbonds⟩:=hfold s.ledger s
    rw [hbonds]
    dsimp only
    split_ifs <;> exact ⟨_,_,_,rfl⟩
  obtain ⟨bonds,ledger,cleaned,hcleaned⟩:=hcleanup
  rw [hcleaned]
  unfold flushLedger persistSessionLedger
  dsimp only
  split_ifs <;> exact ⟨_,_,_,_,rfl⟩

theorem Promotes.trans {u : Transfer} (h : Promotes s now t) (hcalm : Calm t u) (hstate : u.recv.state=t.recv.state) :
    Promotes s now u:=by
  cases h with
  | idle hdue h=>exact .idle hdue (h.trans hcalm)
  | quiet hdue hquiet h=>exact .quiet hdue hquiet (h.trans hcalm)
  | spent hdue hpassed h=>exact .spent hdue hpassed (h.trans hcalm)
  | prompt hdue hpassed hleft hlimits hasking=>
    exact .prompt hdue hpassed hleft (hcalm.limits.trans hlimits) (hstate.trans hasking)

theorem tick_promotes (env : Env) : Promotes s env.now (s.tick crc32 env):=by
  obtain ⟨bonds,ledger,cleaned,dirty,hprelude⟩:=s.prelude_eq env
  unfold tick
  rw [hprelude]
  have hsend : ∀ t : Transfer, (t.tickSend env).recv.state=t.recv.state:=by
    intro t
    have hrecv : (t.tickSend env).exceptSend.recv=t.exceptSend.recv:=congrArg recv (exceptSend_tickSend env)
    exact congrArg RecvSession.state hrecv
  refine Promotes.trans ?_ (calm_of_exceptSend (exceptSend_tickSend env)) (hsend _)
  by_cases hidle : s.recv.state=.idle
  · have htick : ∀ t : Transfer, t.recv.state=.idle→t.tickRecv crc32 env=t.promoteNextOffer env.now:=by
      intro t ht
      unfold tickRecv
      rw [ht]
    rw [htick {s with bonds:=bonds,ledger:=ledger,sessionBondsCleaned:=cleaned,ledgerDirty:=dirty} hidle]
    have hpromotes : Promotes {s with bonds:=bonds,ledger:=ledger,sessionBondsCleaned:=cleaned,ledgerDirty:=dirty} env.now _:=
      promoteNextOffer_promotes hidle
    cases hpromotes with
    | idle hdue hcalm=>exact .idle hdue ⟨hcalm.limits,hcalm.asking⟩
    | quiet hdue hquiet hcalm=>exact .quiet hdue hquiet ⟨hcalm.limits,hcalm.asking⟩
    | spent hdue hpassed hcalm=>exact .spent hdue hpassed ⟨hcalm.limits,hcalm.asking⟩
    | prompt hdue hpassed hleft hlimits hstate=>
      have hbudget : ∀ t : Transfer, t.limits=s.limits →
          (t.tryConsumePromptBudget env.now).1=(s.tryConsumePromptBudget env.now).1 ∧
            (t.tryConsumePromptBudget env.now).2.limits=(s.tryConsumePromptBudget env.now).2.limits:=
        fun _ ht=>tryConsumePromptBudget_congr ht
      obtain ⟨hsame,hlimitsSame⟩:=
        hbudget {s with bonds:=bonds,ledger:=ledger,sessionBondsCleaned:=cleaned,ledgerDirty:=dirty} rfl
      exact .prompt hdue hpassed (hsame.symm.trans hleft) (hlimits.trans hlimitsSame) hstate
  · have hdue : s.due env.now=false:=by
      unfold due
      rw [decide_eq_false hidle,Bool.false_and]
    have hcalm : ∀ t : Transfer, t.recv.state≠.idle → Calm t (t.tickRecv crc32 env):=fun t ht=>calm_tickRecv env ht
    have htick:=hcalm {s with bonds:=bonds,ledger:=ledger,sessionBondsCleaned:=cleaned,ledgerDirty:=dirty} hidle
    exact .idle hdue ⟨htick.limits,htick.asking⟩

end Tick

end Transfer

def AtMost (prompts : List (ℕ × Option ℕ)) : Prop:=
  ∀ t, (prompts.filter fun p=>t ≤ p.1 ∧ p.1 ≤ t+kPromptWindowMs.toNat).length ≤ kMaxPromptsPerWindow.toNat

/-- The prompts of the open window, which the counter counts, come a whole window after the ones before. -/
structure Windowed (count : UInt8) (prompts : List (ℕ × Option ℕ)) (new old : List (ℕ × Option ℕ)) : Prop where
  split : prompts=new++old
  counted : new.length=count.toNat
  bound : count ≤ kMaxPromptsPerWindow
  first : new=[] → old=[]
  apart : ∀ q∈new, ∀ p∈old, p.1+kPromptWindowMs.toNat < q.1
  before : AtMost old

structure Metered (h : Watch) : Prop where
  quietUntil : ∀ d, h.declined=some d→h.service.quietUntilMs=clock (d+kQuietCooldownMs.toNat)
  neverDeclined : h.declined=none→h.service.quietUntilMs=0
  window : ∃ new old, Windowed h.service.promptsInWindow h.prompts new old
  past : ∀ p∈h.prompts, p.1 ≤ h.uptime
  quiet : ∀ t d, (t,some d)∈h.prompts→d+kQuietCooldownMs.toNat ≤ t
  ends : ∀ t d, (t,d)∈h.refused→∃ d', d=some d' ∧ t < d'+kQuietCooldownMs.toNat

section Metered

variable {h : Watch} {crc32 : Bytes→UInt32} {count : UInt8} {prompts new old : List (ℕ × Option ℕ)}

theorem Windowed.atMost (h : Windowed count prompts new old) : AtMost prompts:=by
  intro t
  rw [h.split,List.filter_append,List.length_append]
  by_cases hnew : (new.filter fun q=>t ≤ q.1 ∧ q.1 ≤ t+kPromptWindowMs.toNat)=[]
  · rw [hnew,List.length_nil,Nat.zero_add]
    exact h.before t
  · -- A prompt of the open window in the span keeps the earlier ones out of it.
    obtain ⟨q,hq⟩:=List.exists_mem_of_ne_nil _ hnew
    obtain ⟨hqmem,hqspan⟩:=List.mem_filter.mp hq
    have hold : (old.filter fun p=>t ≤ p.1 ∧ p.1 ≤ t+kPromptWindowMs.toNat)=[]:=by
      apply List.filter_eq_nil_iff.mpr
      intro p hp hpspan
      have hapart:=h.apart q hqmem p hp
      simp only [decide_eq_true_eq] at hqspan hpspan
      omega
    rw [hold,List.length_nil,Nat.add_zero]
    calc (new.filter fun q=>t ≤ q.1 ∧ q.1 ≤ t+kPromptWindowMs.toNat).length ≤ new.length:=List.length_filter_le _ _
      _=count.toNat:=h.counted
      _ ≤ kMaxPromptsPerWindow.toNat:=UInt8.le_iff_toNat_le.mp h.bound

theorem Windowed.prompt (h : Windowed count prompts new old) {p : ℕ × Option ℕ} (hp : ∀ q∈prompts, q.1 ≤ p.1)
    (hleft : ¬count ≥ kMaxPromptsPerWindow) : Windowed (count+1) (p::prompts) (p::new) old:=by
  have hlt : count.toNat < kMaxPromptsPerWindow.toNat:=by
    rw [ge_iff_le,UInt8.le_iff_toNat_le] at hleft
    omega
  have hmax : kMaxPromptsPerWindow.toNat=5:=rfl
  have hcount : (count+1).toNat=count.toNat+1:=by
    rw [UInt8.toNat_add,UInt8.toNat_one]
    omega
  constructor
  · rw [h.split]
    rfl
  · rw [List.length_cons,h.counted,hcount]
  · rw [UInt8.le_iff_toNat_le,hcount]
    omega
  · intro hnil
    cases hnil
  · intro q hq r hr
    rcases List.mem_cons.mp hq with rfl | hq
    · -- The window has a prompt already, or there was none before.
      cases hnew : new with
      | nil=>
        rw [h.first hnew] at hr
        cases hr
      | cons first rest=>
        have hfirst : first∈new:=by
          rw [hnew]
          exact List.mem_cons_self
        have hmem : first∈prompts:=by
          rw [h.split]
          exact List.mem_append_left _ hfirst
        exact (h.apart first hfirst r hr).trans_le (hp first hmem)
    · exact h.apart q hq r hr
  · exact h.before

theorem Windowed.begin (h : Windowed count prompts new old) {p : ℕ × Option ℕ}
    (hp : ∀ q∈prompts, q.1+kPromptWindowMs.toNat < p.1) : Windowed 1 (p::prompts) [p] prompts:=by
  constructor
  · rfl
  · rfl
  · decide
  · intro hnil
    cases hnil
  · intro q hq r hr
    rw [List.mem_singleton.mp hq]
    exact hp r hr
  · exact h.atMost

theorem clock_lt {declined uptime : ℕ} (h : OnClock declined uptime) :
    clock uptime < clock (declined+kQuietCooldownMs.toNat) ↔ uptime < declined+kQuietCooldownMs.toNat:=by
  unfold clock
  rw [UInt32.lt_iff_toNat_lt,UInt32.toNat_ofNat',UInt32.toNat_ofNat']
  unfold OnClock at h
  split at h <;> omega

theorem Metered.throttles (hm : Metered h) : Throttles h:=by
  obtain ⟨new,old,hwindow⟩:=hm.window
  exact ⟨hwindow.atMost,hm.quiet,hm.ends⟩

theorem Metered.calm (hm : Metered h) {service : Transfer} {uptime : ℕ} (hcalm : h.service.Calm service) (huptime : h.uptime ≤ uptime) :
    Metered {h with service:=service,uptime:=uptime}:=by
  obtain ⟨hstart,hcount,hquiet⟩ : service.promptWindowStartMs=h.service.promptWindowStartMs ∧
      service.promptsInWindow=h.service.promptsInWindow ∧ service.quietUntilMs=h.service.quietUntilMs:=by
    simpa [Transfer.limits] using hcalm.limits
  constructor
  · exact fun d hd=>hquiet.trans (hm.quietUntil d hd)
  · exact fun hnone=>hquiet.trans (hm.neverDeclined hnone)
  · dsimp only
    rw [hcount]
    exact hm.window
  · exact fun p hp=>(hm.past p hp).trans huptime
  · exact hm.quiet
  · exact hm.ends

theorem not_asked {s t : Transfer} (hcalm : s.Calm t) : ¬(s.recv.state≠.awaitingConsent ∧ t.recv.state=.awaitingConsent):=
  fun h=>h.1 (hcalm.asking h.2)

theorem due_idle {s : Transfer} {now : UInt32} (hdue : s.due now=true) : s.recv.state=.idle:=by
  unfold Transfer.due at hdue
  rw [Bool.and_eq_true,decide_eq_true_eq] at hdue
  exact hdue.1

theorem Metered.quiet_iff (hm : Metered h) {uptime : ℕ} (hclock : ∀ d∈h.declined, OnClock d uptime) :
    clock uptime < h.service.quietUntilMs ↔ ∃ d, h.declined=some d ∧ uptime < d+kQuietCooldownMs.toNat:=by
  cases hdeclined : h.declined with
  | none=>
    rw [hm.neverDeclined hdeclined]
    simp
  | some d=>
    rw [hm.quietUntil d hdeclined,clock_lt (hclock d hdeclined)]
    simp

/-- The first prompt of a window is the only one it counts; any other is one more. -/
theorem Windowed.consume {s t : Transfer} {now : UInt32} {p : ℕ × Option ℕ} (hw : Windowed s.promptsInWindow prompts new old)
    (hleft : (s.tryConsumePromptBudget now).1=true) (hlimits : t.limits=(s.tryConsumePromptBudget now).2.limits)
    (hpast : ∀ q∈prompts, q.1 ≤ p.1)
    (hopens : now-s.promptWindowStartMs > kPromptWindowMs→∀ q∈prompts, q.1+kPromptWindowMs.toNat < p.1) :
    (∃ new old, Windowed t.promptsInWindow (p::prompts) new old) ∧ t.quietUntilMs=s.quietUntilMs:=by
  obtain ⟨-,hcount,hquiet⟩ : t.promptWindowStartMs=(s.tryConsumePromptBudget now).2.promptWindowStartMs ∧
      t.promptsInWindow=(s.tryConsumePromptBudget now).2.promptsInWindow ∧
      t.quietUntilMs=(s.tryConsumePromptBudget now).2.quietUntilMs:=by simpa [Transfer.limits] using hlimits
  rw [hcount,hquiet]
  unfold Transfer.tryConsumePromptBudget at hleft ⊢
  dsimp only at hleft ⊢
  by_cases hopen : now-s.promptWindowStartMs > kPromptWindowMs
  · have hfresh : ¬(0 : UInt8) ≥ kMaxPromptsPerWindow:=by decide
    rw [if_pos hopen,if_neg hfresh]
    exact ⟨⟨[p],prompts,hw.begin (hopens hopen)⟩,rfl⟩
  · rw [if_neg hopen] at hleft ⊢
    by_cases hspent : s.promptsInWindow ≥ kMaxPromptsPerWindow
    · rw [if_pos hspent] at hleft
      cases hleft
    · rw [if_neg hspent]
      exact ⟨⟨p::new,old,hw.prompt hpast hspent⟩,rfl⟩

theorem Metered.promotes (hm : Metered h) {elapsed : ℕ} {env : Env} {service : Transfer}
    (hpromotes : h.service.Promotes (clock (h.uptime+elapsed)) service) (hspaced : Spaced h (elapsed,.tick env)) :
    Metered (h.notes (h.uptime+elapsed) service (.tick env)):=by
  have huptime : h.uptime ≤ h.uptime+elapsed:=Nat.le_add_right _ _
  unfold Watch.notes
  dsimp only
  cases hpromotes with
  | idle hdue hcalm=>
    rw [if_neg (not_asked hcalm),hdue,if_neg (by simp)]
    exact hm.calm hcalm huptime
  | quiet hdue hquiet hcalm=>
    rw [if_neg (not_asked hcalm),if_pos ⟨hdue,hquiet⟩]
    have hcalmed:=hm.calm hcalm huptime
    refine ⟨hcalmed.quietUntil,hcalmed.neverDeclined,hcalmed.window,hcalmed.past,hcalmed.quiet,?_⟩
    intro t d hmem
    rcases List.mem_cons.mp hmem with hnew | hmem
    · obtain ⟨rfl,rfl⟩:=Prod.mk.inj hnew
      exact (hm.quiet_iff (hspaced hdue).1).mp hquiet
    · exact hm.ends t d hmem
  | spent hdue hpassed hcalm=>
    rw [if_neg (not_asked hcalm),if_neg (by simp [hpassed])]
    exact hm.calm hcalm huptime
  | prompt hdue hpassed hleft hlimits hstate=>
    have hidle : h.service.recv.state≠.awaitingConsent:=by
      rw [due_idle hdue]
      decide
    rw [if_pos ⟨hidle,hstate⟩,if_neg (by simp [hpassed])]
    obtain ⟨hclock,hopens⟩:=hspaced hdue
    obtain ⟨new,old,hwindow⟩:=hm.window
    have hpast : ∀ q∈h.prompts, q.1 ≤ h.uptime+elapsed:=fun q hq=>(hm.past q hq).trans huptime
    obtain ⟨hwindow,hquiet⟩:=hwindow.consume (p:=(h.uptime+elapsed,h.declined)) hleft hlimits hpast (hopens hpassed)
    constructor
    · exact fun d hd=>hquiet.trans (hm.quietUntil d hd)
    · exact fun hnone=>hquiet.trans (hm.neverDeclined hnone)
    · exact hwindow
    · intro q hq
      rcases List.mem_cons.mp hq with rfl | hq
      · exact le_refl _
      · exact hpast q hq
    · intro t d hmem
      rcases List.mem_cons.mp hmem with hnew | hmem
      · -- The quiet time of the last decline is over for the clock, and so it is.
        obtain ⟨rfl,hdeclined⟩:=Prod.mk.inj hnew
        by_contra hbefore
        exact hpassed ((hm.quiet_iff hclock).mpr ⟨d,hdeclined.symm,by omega⟩)
      · exact hm.quiet t d hmem
    · exact hm.ends

theorem clock_add (d : ℕ) (c : UInt32) : clock d+c=clock (d+c.toNat):=by
  apply UInt32.toNat_inj.mp
  unfold clock
  rw [UInt32.toNat_add,UInt32.toNat_ofNat',UInt32.toNat_ofNat']
  omega

theorem Metered.respondConsent (hm : Metered h) {elapsed : ℕ} {accept : Bool} {env : Env} :
    Metered (watch crc32 h (elapsed,.respondConsent accept env)):=by
  have huptime : h.uptime ≤ h.uptime+elapsed:=Nat.le_add_right _ _
  unfold watch Watch.notes Event.stamped
  dsimp only [Transfer.step]
  unfold Transfer.respondConsent
  by_cases hasking : h.service.recv.state=.awaitingConsent
  · rw [if_neg (not_not_intro hasking)]
    by_cases hfailed : h.service.recv.failFlag=true
    · rw [if_pos hfailed,if_neg (by simp [hfailed])]
      exact hm.calm (Transfer.calm_teardownRecv _ _) huptime
    · rw [if_neg hfailed]
      cases accept with
      | true=>
        rw [if_pos rfl,if_neg (by simp)]
        exact hm.calm (Transfer.calm_accept _ _) huptime
      | false=>
        rw [if_neg Bool.false_ne_true,if_pos ⟨rfl,hasking,by simpa using hfailed⟩]
        have hnotified:=Transfer.calm_notifyStatusByte (s:=h.service) h.service.recv.conn .decline Reason.userDeclined
        generalize h.service.notifyStatusByte h.service.recv.conn .decline Reason.userDeclined=s at hnotified
        have hteardown:=Transfer.calm_teardownRecv
          (s:={s with quietUntilMs:=clock (h.uptime+elapsed)+kQuietCooldownMs}) false Reason.none
        generalize Transfer.teardownRecv {s with quietUntilMs:=clock (h.uptime+elapsed)+kQuietCooldownMs} false Reason.none=t
          at hteardown
        obtain ⟨-,hcount,hquiet⟩ : t.promptWindowStartMs=h.service.promptWindowStartMs ∧
            t.promptsInWindow=h.service.promptsInWindow ∧ t.quietUntilMs=clock (h.uptime+elapsed)+kQuietCooldownMs:=by
          have hbefore:=hnotified.limits
          have hafter:=hteardown.limits
          simp only [Transfer.limits,Prod.mk.injEq] at hbefore hafter
          exact ⟨hafter.1.trans hbefore.1,hafter.2.1.trans hbefore.2.1,hafter.2.2⟩
        constructor
        · intro d hd
          obtain rfl:=Option.some.inj hd
          exact hquiet.trans (clock_add _ _)
        · intro hnone
          cases hnone
        · dsimp only
          rw [hcount]
          exact hm.window
        · exact fun p hp=>(hm.past p hp).trans huptime
        · exact hm.quiet
        · exact hm.ends
  · rw [if_pos hasking,if_neg (by simp [hasking])]
    exact hm.calm (.refl _) huptime

theorem Metered.boot (h : Watch) : Metered {service:=h.service.reboot}:=by
  constructor
  · intro d hd
    cases hd
  · exact fun _=>rfl
  · have hnone : (0 : UInt8) ≤ kMaxPromptsPerWindow:=by decide
    exact ⟨[],[],rfl,rfl,hnone,fun _=>rfl,by simp,fun t=>by simp⟩
  · simp
  · simp
  · simp

theorem Metered.aside (hm : Metered h) {elapsed : ℕ} {e : Event} (haside : Transfer.Aside e) :
    Metered (watch crc32 h (elapsed,e)):=by
  have hcalm : Transfer.Calm h.service (h.service.step crc32 e):=Transfer.calm_step haside
  have hcalmed:=hm.calm hcalm (Nat.le_add_right h.uptime elapsed)
  unfold watch
  cases e with
  | tick | respondConsent | reboot=>exact haside.elim
  | _=>
    unfold Watch.notes Event.stamped
    dsimp only
    rw [if_neg (not_asked hcalm)]
    exact hcalmed

theorem Metered.step (h : Watch) (x : ℕ × Event) (hspaced : Spaced h x) (hm : Metered h) : Metered (watch crc32 h x):=by
  obtain ⟨elapsed,e⟩:=x
  cases e with
  | tick env=>
    have hpromotes : h.service.Promotes (clock (h.uptime+elapsed))
        (h.service.tick crc32 {env with now:=clock (h.uptime+elapsed)}):=
      Transfer.tick_promotes {env with now:=clock (h.uptime+elapsed)}
    exact hm.promotes hpromotes hspaced
  | respondConsent accept env=>exact hm.respondConsent
  | reboot=>exact .boot h
  | _=>exact hm.aside trivial

end Metered

/-- In every run in which the clock does for the quiet time and the windows that open leave the earlier prompts a whole
window behind, the user is asked within the limits and kept from offers no longer than they say. -/
theorem prompts_throttled (crc32 : Bytes→UInt32) (xs : List (ℕ × Event)) (h : AlongRun (watch crc32) Spaced {} xs) :
    Throttles (run (watch crc32) {} xs):=by
  have hstart : Metered {}:=by
    constructor
    · intro d hd
      cases hd
    · exact fun _=>rfl
    · have hnone : (0 : UInt8) ≤ kMaxPromptsPerWindow:=by decide
      exact ⟨[],[],rfl,rfl,hnone,fun _=>rfl,by simp,fun t=>by simp⟩
    · simp
    · simp
    · simp
  exact (run_invariant Metered.step hstart h).throttles

def offersRun (uptime wait : ℕ) : List (ℕ × Event):=
  let peer : PeerAddr:={addr:=⟨[1,2,3,4,5,6],rfl⟩,addrType:=0}
  let frame : Bytes:=[offerOp,kProtocolVersion,1,0,0,0,1,0,0x74]
  let env (t : ℕ) : Env:={now:=clock t,later:=clock t}
  [(uptime,.start),(0,.linkUp 1 peer {}),(0,.controlWrite 1 frame (env uptime)),(0,.tick (env uptime)),
    (0,.respondConsent false (env uptime)),(wait,.controlWrite 1 frame (env (uptime+wait))),(0,.tick (env (uptime+wait)))]

/-- The offer after the decline is refused at once, and brings up a prompt when the quiet time is over. -/
theorem prompts_throttled_declined :
    Throttles (run (watch fun _=>0) {} (offersRun 40000 1)) ∧ Throttles (run (watch fun _=>0) {} (offersRun 40000 20000)) ∧
      (run (watch fun _=>0) {} (offersRun 40000 1)).refused=[(40001,some 40000)] ∧
      (run (watch fun _=>0) {} (offersRun 40000 20000)).prompts=[(60000,some 40000),(40000,none)]:=
  ⟨prompts_throttled _ _ (by decide +kernel),prompts_throttled _ _ (by decide +kernel),by decide +kernel,by decide +kernel⟩

/-- The quiet time of a decline shortly before the clock wraps is over at once. -/
theorem prompts_unthrottled : ¬∀ (crc32 : Bytes→UInt32) (xs : List (ℕ × Event)), Throttles (run (watch crc32) {} xs):=by
  intro hall
  have hquiet:=(hall (fun _=>0) (offersRun 4294957296 1)).quiet 4294957297 4294957296 (by decide +kernel)
  exact absurd hquiet (by decide)

end CdcBadge.Msg
