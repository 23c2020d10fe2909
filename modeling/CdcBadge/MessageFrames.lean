import CdcBadge.MessageTransfer

/-!
# Badge-to-badge messages: what leaves what alone

The service has two records, one of what is received and one of what is sent, and the
tables of its bonds. What works on one of them leaves the others as they are.
-/

namespace CdcBadge.Msg

/-- What the badge hears of a send, and what its user does about one. -/
def Event.OfSender : Event→Prop
  | .serviceDiscovered .. | .notification .. | .writeComplete .. | .sendTo .. | .beginInteractiveSend ..
  | .takeInteractiveRequest | .confirmInteractiveTarget .. | .cancelSend | .consumeResult=>True
  | _=>False

namespace Transfer

def essential (s : Transfer) : Transfer:={ s with
  calls:=[],lastResult:=none,rate:=fun _=>none
  promptWindowStartMs:=0,promptsInWindow:=0,quietUntilMs:=0 }

def exceptBonds (s : Transfer) : Transfer:={ s with
  calls:=[],lastResult:=none,bonded:=fun _=>none,sessionPeers:=fun _=>none,sessionBondsCleaned:=false,ledgerDirty:=false
  ledger:=[],bonds:=[],pairing:=fun _=>false }

def exceptSend (s : Transfer) : Transfer:={ s with
  calls:=[],lastResult:=none,send:={},interactiveReq:=false,sendLog:=[],pairing:=fun _=>false }

def exceptRecv (s : Transfer) : Transfer:={ s.essential with
  recv:={},queue:=fun _=>none,nextOffer:=0,shown:=none,recvLog:=[],pairing:=fun _=>false }

variable {s t : Transfer}

@[simp] theorem essential_call (c : BleCall) : (s.call c).essential=s.essential:=rfl

@[simp] theorem essential_notifyFrame (conn : UInt16) (frame : Bytes) : (s.notifyFrame conn frame).essential=s.essential:=by
  unfold notifyFrame
  split <;> rfl

@[simp] theorem essential_notifyStatus (conn : UInt16) (op : StatusOp) : (s.notifyStatus conn op).essential=s.essential:=
  essential_notifyFrame _ _

@[simp] theorem essential_notifyStatusByte (conn : UInt16) (op : StatusOp) (arg : UInt8) :
    (s.notifyStatusByte conn op arg).essential=s.essential:=
  essential_notifyFrame _ _

@[simp] theorem essential_notifyStatusU32 (conn : UInt16) (op : StatusOp) (v : UInt32) :
    (s.notifyStatusU32 conn op v).essential=s.essential:=
  essential_notifyFrame _ _

@[simp] theorem essential_rateLimitOk (conn : UInt16) (now : UInt32) : (s.rateLimitOk conn now).2.essential=s.essential:=by
  unfold rateLimitOk
  dsimp only
  split
  · rfl
  · split <;> split <;> rfl

@[simp] theorem essential_tryConsumePromptBudget (now : UInt32) : (s.tryConsumePromptBudget now).2.essential=s.essential:=by
  unfold tryConsumePromptBudget
  dsimp only
  split <;> split <;> rfl

@[simp] theorem exceptBonds_recordBond (conn : UInt16) (peer : PeerAddr) : (s.recordBond conn peer).exceptBonds=s.exceptBonds:=by
  unfold recordBond
  split <;> rfl

@[simp] theorem exceptBonds_rememberSessionPeer (peer : PeerAddr) : (s.rememberSessionPeer peer).exceptBonds=s.exceptBonds:=by
  unfold rememberSessionPeer
  split
  · rfl
  · split <;> rfl

@[simp] theorem exceptBonds_notePairing (conn : UInt16) (persistent : Bool) :
    (s.notePairing conn persistent).exceptBonds=s.exceptBonds:=by
  unfold notePairing
  split
  · dsimp only
    split <;> simp
  · rfl

@[simp] theorem exceptBonds_forgetBondForConn (conn : UInt16) : (s.forgetBondForConn conn).exceptBonds=s.exceptBonds:=by
  unfold forgetBondForConn
  split
  · rfl
  · split
    · split <;> rfl
    · rfl

theorem exceptBonds_foldl_forgetBond (peers : List PeerAddr) : (peers.foldl forgetBond s).exceptBonds=s.exceptBonds:=by
  induction peers generalizing s with
  | nil=>rfl
  | cons peer peers ih=>exact ih

@[simp] theorem exceptBonds_persistSessionLedger (env : Env) : (s.persistSessionLedger env).exceptBonds=s.exceptBonds:=by
  unfold persistSessionLedger
  split <;> rfl

@[simp] theorem exceptBonds_cleanup (env : Env) : (s.cleanupStaleSessionBonds env).exceptBonds=s.exceptBonds:=by
  unfold cleanupStaleSessionBonds
  split
  · dsimp only
    split <;> split <;> first | exact exceptBonds_foldl_forgetBond _ | rfl
  · rfl

theorem exceptBonds_cleanupOnce (env : Env) : (s.cleanupOnce env).exceptBonds=s.exceptBonds:=by
  unfold cleanupOnce
  split
  · exact exceptBonds_cleanup env
  · rfl

theorem exceptBonds_flushLedger (env : Env) : (s.flushLedger env).exceptBonds=s.exceptBonds:=by
  unfold flushLedger
  split
  · exact exceptBonds_persistSessionLedger env
  · rfl

@[simp] theorem exceptBonds_forgetAllSessionPeers (env : Env) : (s.forgetAllSessionPeers env).exceptBonds=s.exceptBonds:=by
  unfold forgetAllSessionPeers
  split
  · rfl
  · exact (exceptBonds_persistSessionLedger _).trans (exceptBonds_foldl_forgetBond _)

theorem send_of_exceptBonds (h : t.exceptBonds=s.exceptBonds) : t.send=s.send:=by
  have hsend : t.exceptBonds.send=s.exceptBonds.send:=congrArg send h
  exact hsend

theorem links_of_exceptSend (h : t.exceptSend=s.exceptSend) : t.links=s.links:=by
  have hlinks : t.exceptSend.links=s.exceptSend.links:=congrArg links h
  exact hlinks

@[simp] theorem exceptSend_failSend (reason : Reason) : (s.failSend reason).exceptSend=s.exceptSend:=rfl

@[simp] theorem exceptSend_teardownSend (ok : Bool) (reason : Reason) : (s.teardownSend ok reason).exceptSend=s.exceptSend:=by
  unfold teardownSend
  dsimp only
  split <;> rfl

@[simp] theorem exceptSend_streamLoop (env : Env) (n : ℕ) (writes : List Bool) :
    (streamLoop env n writes s).2.exceptSend=s.exceptSend:=by
  induction n generalizing s writes with
  | zero=>rfl
  | succ n ih=>
    unfold streamLoop
    split
    · dsimp only [writeCharacteristic]
      split
      · rw [ih]
        rfl
      · rfl
    · rfl

@[simp] theorem exceptSend_streamChunks (env : Env) : (s.streamChunks env).exceptSend=s.exceptSend:=by
  unfold streamChunks
  split
  · rfl
  · have hloop:=exceptSend_streamLoop (s:=s) env s.send.totalLen env.writes
    dsimp only [writeCharacteristic]
    split
    · exact hloop
    · split
      · exact hloop
      · split
        · exact hloop
        · exact hloop

@[simp] theorem exceptSend_writeOffer (env : Env) : (s.writeOffer env).exceptSend=s.exceptSend:=by
  unfold writeOffer
  dsimp only [writeCharacteristic]
  split
  · rw [exceptSend_teardownSend]
    rfl
  · split
    · rfl
    · rw [exceptSend_teardownSend]
      rfl

@[simp] theorem exceptSend_secureSend (env : Env) : (s.secureSend env).exceptSend=s.exceptSend:=by
  unfold secureSend
  dsimp only
  split
  · unfold awaitPairing
    split <;> rfl
  · rw [exceptSend_teardownSend]
    rfl

@[simp] theorem exceptSend_timeOut (limit : UInt32) (env : Env) : (s.timeOut limit env).exceptSend=s.exceptSend:=by
  unfold timeOut
  split <;> simp

theorem exceptSend_extendWait (now : UInt32) : (s.extendWait now).exceptSend=s.exceptSend:=by
  unfold extendWait
  split <;> rfl

theorem exceptSend_streamRest (env : Env) : (s.streamRest env).exceptSend=s.exceptSend:=by
  unfold streamRest
  split <;> simp

@[simp] theorem exceptSend_tickSend (env : Env) : (s.tickSend env).exceptSend=s.exceptSend:=by
  unfold tickSend
  split
  · simp
  · split
    · simp
    · split
      · dsimp only
        split
        · rfl
        · rw [exceptSend_teardownSend]
          rfl
      · simp
  · split
    · simp
    · split
      · rw [exceptSend_writeOffer]
        rfl
      · simp
  · split
    · simp
    · split
      · rw [exceptSend_secureSend]
        rfl
      · rw [exceptSend_timeOut,exceptSend_extendWait]
  · split
    · simp
    · split
      · rw [exceptSend_streamChunks]
        rfl
      · simp
  · split
    · simp
    · split
      · simp
      · rw [exceptSend_timeOut,exceptSend_streamRest]
  · rfl

theorem exceptSend_onConnect (conn : UInt16) (env : Env) : (s.onConnect conn env).exceptSend=s.exceptSend:=by
  unfold onConnect
  split <;> rfl

theorem exceptSend_loseSend (conn : UInt16) : (s.loseSend conn).exceptSend=s.exceptSend:=by
  unfold loseSend
  split <;> rfl

theorem exceptSend_onServiceDiscovered (conn : UInt16) (svc : Option FoundService) (complete : Bool) (env : Env) :
    (s.onServiceDiscovered conn svc complete env).exceptSend=s.exceptSend:=by
  unfold onServiceDiscovered
  split
  · rfl
  · split
    · rfl
    · dsimp only
      split <;> rfl

theorem exceptSend_onNotification (conn : UInt16) (link : Link) (data : Bytes) (env : Env) :
    (s.onNotification conn link data env).exceptSend=s.exceptSend:=by
  unfold onNotification
  split
  · rfl
  · split <;> rfl

theorem exceptSend_onWriteComplete (conn : UInt16) (status : ℤ) (env : Env) :
    (s.onWriteComplete conn status env).exceptSend=s.exceptSend:=by
  unfold onWriteComplete
  split
  · rfl
  · split <;> rfl

theorem exceptSend_startConnecting (peer : PeerAddr) (env : Env) : (s.startConnecting peer env).2.exceptSend=s.exceptSend:=by
  unfold startConnecting
  dsimp only
  split
  · rfl
  · rw [exceptSend_teardownSend]
    rfl

theorem exceptSend_keepPayload {mime data : Bytes} {persistent : Bool} {env : Env}
    (h : s.keepPayload crc32 mime data persistent env=some t) : t.exceptSend=s.exceptSend:=by
  unfold keepPayload at h
  split at h
  · cases h
  · split at h
    · cases h
    · cases h
      rfl

theorem exceptSend_sendTo (peer : PeerAddr) (mime data : Bytes) (persistent : Bool) (env : Env) :
    (s.sendTo crc32 peer mime data persistent env).2.exceptSend=s.exceptSend:=by
  unfold sendTo
  split
  · exact (exceptSend_startConnecting _ _).trans (exceptSend_keepPayload ‹_›)
  · rfl

theorem exceptSend_beginInteractiveSend (mime data : Bytes) (persistent : Bool) (env : Env) :
    (s.beginInteractiveSend crc32 mime data persistent env).2.exceptSend=s.exceptSend:=by
  unfold beginInteractiveSend
  cases hkeep : s.keepPayload crc32 mime data persistent env with
  | none=>rfl
  | some t=>
    have ht : t.exceptSend=s.exceptSend:=exceptSend_keepPayload hkeep
    exact ht

theorem exceptSend_confirmInteractiveTarget (peer : PeerAddr) (env : Env) :
    (s.confirmInteractiveTarget peer env).2.exceptSend=s.exceptSend:=by
  unfold confirmInteractiveTarget
  split
  · rfl
  · exact exceptSend_startConnecting (s:=s.call .stopScan) _ _

theorem exceptSend_cancelSend : s.cancelSend.exceptSend=s.exceptSend:=by
  unfold cancelSend
  split <;> simp

theorem exceptSend_abandonSend : s.abandonSend.exceptSend=s.exceptSend:=by
  unfold abandonSend
  split <;> simp

theorem hear_cases {P : Transfer→Prop} {conn : UInt16} {callback : Link→Transfer→Transfer} (h : P s)
    (hcall : ∀ link, s.links conn=some link→P (callback link s)) : P (s.hear conn callback):=by
  unfold hear
  split
  · split
    · exact hcall _ ‹_›
    · exact h
  · exact h

theorem exceptSend_step {e : Event} (he : e.OfSender) : (s.step crc32 e).exceptSend=s.exceptSend:=by
  have hheard (conn : UInt16) (callback : Link→Transfer→Transfer)
      (h : ∀ link, (callback link s).exceptSend=s.exceptSend) : (s.hear conn callback).exceptSend=s.exceptSend:=
    hear_cases (P:=fun t=>t.exceptSend=s.exceptSend) rfl fun link _=>h link
  cases e with
  | serviceDiscovered conn svc complete env=>
    exact hheard conn _ fun _=>exceptSend_onServiceDiscovered conn svc complete env
  | notification conn data env=>exact hheard conn _ fun link=>exceptSend_onNotification conn link data env
  | writeComplete conn status env=>exact hheard conn _ fun _=>exceptSend_onWriteComplete conn status env
  | sendTo peer mime data persistent env=>exact exceptSend_sendTo peer mime data persistent env
  | beginInteractiveSend mime data persistent env=>exact exceptSend_beginInteractiveSend mime data persistent env
  | takeInteractiveRequest | consumeResult=>rfl
  | confirmInteractiveTarget peer env=>exact exceptSend_confirmInteractiveTarget peer env
  | cancelSend=>exact exceptSend_cancelSend
  | linkUp | linkDown | controlWrite | dataWrite | encChange | showConsent | respondConsent | tick | start | stop | reboot=>
    exact he.elim

theorem exceptRecv_of_essential (h : t.essential=s.essential) : t.exceptRecv=s.exceptRecv:=by
  have hview : t.essential.exceptRecv=s.essential.exceptRecv:=congrArg exceptRecv h
  exact hview

theorem send_of_exceptRecv (h : t.exceptRecv=s.exceptRecv) : t.send=s.send:=by
  have hsend : t.exceptRecv.send=s.exceptRecv.send:=congrArg send h
  exact hsend

@[simp] theorem exceptRecv_notifyStatus (conn : UInt16) (op : StatusOp) :
    (s.notifyStatus conn op).exceptRecv=s.exceptRecv:=
  exceptRecv_of_essential (essential_notifyStatus _ _)

@[simp] theorem exceptRecv_notifyStatusByte (conn : UInt16) (op : StatusOp) (arg : UInt8) :
    (s.notifyStatusByte conn op arg).exceptRecv=s.exceptRecv:=
  exceptRecv_of_essential (essential_notifyStatusByte _ _ _)

@[simp] theorem exceptRecv_resetRecv : s.resetRecv.exceptRecv=s.exceptRecv:=rfl

@[simp] theorem exceptRecv_failRecv (reason : Reason) : (s.failRecv reason).exceptRecv=s.exceptRecv:=rfl

@[simp] theorem exceptRecv_dropOffer (i : Fin kOfferQueueDepth) : (s.dropOffer i).exceptRecv=s.exceptRecv:=rfl

@[simp] theorem exceptRecv_teardownRecv (sendError : Bool) (reason : Reason) :
    (s.teardownRecv sendError reason).exceptRecv=s.exceptRecv:=by
  have hnotified:=exceptRecv_notifyStatusByte (s:=s) s.recv.conn .error reason
  unfold teardownRecv
  dsimp only
  split
  · split
    · exact hnotified
    · rfl
  · split
    · exact hnotified
    · rfl

@[simp] theorem exceptRecv_enqueueOffer (conn : UInt16) (link : Link) (f : OfferFrame) (env : Env) :
    (s.enqueueOffer conn link f env).exceptRecv=s.exceptRecv:=by
  unfold enqueueOffer
  split
  · simp
  · dsimp only
    split
    · rw [exceptRecv_notifyStatus]
      rfl
    · rfl

theorem exceptRecv_accept (consent : Consent) (now : UInt32) : (s.accept consent now).exceptRecv=s.exceptRecv:=by
  have hnotified:=exceptRecv_notifyStatus (s:=s) s.recv.conn .accept
  unfold accept awaitPairing
  dsimp only
  split <;> exact hnotified

theorem exceptRecv_promote (i : Fin kOfferQueueDepth) (o : Offer) (autoAccept : Bool) (now : UInt32) :
    (s.promote i o autoAccept now).exceptRecv=s.exceptRecv:=by
  unfold promote
  dsimp only
  split
  · rw [exceptRecv_accept]
    rfl
  · rfl

theorem exceptRecv_promoteNextOffer (now : UInt32) : (s.promoteNextOffer now).exceptRecv=s.exceptRecv:=by
  unfold promoteNextOffer
  split
  · rfl
  · split
    · rfl
    · split
      · simp
      · dsimp only
        split
        · exact exceptRecv_promote _ _ _ _
        · split
          · simp
          · have hconsumed:=exceptRecv_of_essential (essential_tryConsumePromptBudget (s:=s) now)
            split
            · exact (exceptRecv_promote _ _ _ _).trans hconsumed
            · simp [hconsumed]

variable {crc32 : Bytes→UInt32}

theorem exceptRecv_deliver (env : Env) : (s.deliver crc32 env).exceptRecv=s.exceptRecv:=by
  unfold deliver
  dsimp only
  split
  · simp
  · split
    · split
      · unfold notifyStatus notifyFrame
        split <;> rfl
      · rw [exceptRecv_teardownRecv]
        rfl
    · simp

theorem exceptRecv_tickRecv (env : Env) : (s.tickRecv crc32 env).exceptRecv=s.exceptRecv:=by
  unfold tickRecv
  split
  · exact exceptRecv_promoteNextOffer _
  · split
    · simp
    · split <;> simp
  · split
    · simp
    · split <;> simp
  · split
    · simp
    · split
      · exact exceptRecv_deliver env
      · split <;> simp
  · split
    · dsimp only
      split <;> rfl
    · rfl
  · rfl

theorem exceptRecv_respondConsent (accept : Bool) (env : Env) :
    (s.respondConsent accept env).exceptRecv=s.exceptRecv:=by
  unfold respondConsent
  split
  · rfl
  · split
    · simp
    · split
      · exact exceptRecv_accept _ _
      · rw [exceptRecv_teardownRecv]
        generalize env.now+kQuietCooldownMs=quietUntil
        unfold notifyStatusByte notifyFrame
        split <;> rfl

theorem exceptRecv_onControlWrite (conn : UInt16) (link : Link) (data : Bytes) (env : Env) :
    (s.onControlWrite conn link data env).exceptRecv=s.exceptRecv:=by
  unfold onControlWrite
  split
  · rfl
  · split
    · split <;> rfl
    · split
      · rfl
      · split
        · simp
        · split
          · simp
          · have hlimited:=exceptRecv_of_essential (essential_rateLimitOk (s:=s) conn env.now)
            dsimp only
            split <;> simp [hlimited]

theorem exceptRecv_onDataWrite (conn : UInt16) (data : Bytes) (env : Env) :
    (s.onDataWrite conn data env).exceptRecv=s.exceptRecv:=by
  unfold onDataWrite
  split
  · rfl
  · split
    · rfl
    · split
      · split
        · rfl
        · unfold takeChunk
          dsimp only
          split
          · rfl
          · split
            · unfold notifyStatusU32 notifyFrame
              split <;> rfl
            · rfl
      · split
        · split
          · rfl
          · split <;> rfl
        · rfl

theorem exceptRecv_loseRecv (conn : UInt16) : (s.loseRecv conn).exceptRecv=s.exceptRecv:=by
  unfold loseRecv
  split
  · split <;> rfl
  · rfl

theorem exceptRecv_abandonRecv : s.abandonRecv.exceptRecv=s.exceptRecv:=by
  unfold abandonRecv
  split <;> simp

end Transfer

end CdcBadge.Msg
