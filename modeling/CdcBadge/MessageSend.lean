import CdcBadge.MessageFrames
import CdcBadge.Runs

/-!
# Badge-to-badge messages: what is sent

Every send that was started ends with one result, unless its peer says QUEUED again and
again, and a result is good only once the payload, its CRC and the peer's DONE have gone
over one link in this order. The sender believes a DONE whenever it comes, though, and
whoever is behind the handle: both have to be true of the run.
-/

namespace CdcBadge.Msg

open Runs

/-- The chunks of a send, with the links that they went over. -/
abbrev Chunks:=List (Option Link × Bytes)

def chunkEntries (chunks : Chunks) : List SendEntry:=chunks.map fun c=>.chunk c.1 c.2

/-- The payload went over one link, each byte once and in order, then its CRC, and then the peer said DONE. -/
def Whole (crc32 : Bytes→UInt32) (payload : Bytes) (es : List SendEntry) : Prop:=
  ∃ (link : Link) (chunks : List Bytes) (n : ℕ), es=chunkEntries (chunks.map fun c=>(some link,c)) ++
    .complete (some link) (crc32 payload)::List.replicate (n+1) (.done link) ∧ chunks.flatten=payload

def SendEntry.IsInner : SendEntry→Prop
  | .started _ | .result _=>False
  | _=>True

/-- One send after the other has been started and has ended, the good ones whole. -/
inductive Ended (crc32 : Bytes→UInt32) : List SendEntry→Prop
  | nil : Ended crc32 []
  | send {log es : List SendEntry} {payload : Bytes} {ok : Bool} : Ended crc32 log→(∀ e∈es, e.IsInner) →
      (ok=true→Whole crc32 payload es) → Ended crc32 (log++.started payload::es++[.result ok])

theorem isInner_chunkEntries (chunks : Chunks) : ∀ e∈chunkEntries chunks, e.IsInner:=by
  intro e he
  obtain ⟨c,-,rfl⟩:=List.mem_map.mp he
  trivial

theorem chunkEntries_append (chunks chunks' : Chunks) :
    chunkEntries (chunks++chunks')=chunkEntries chunks++chunkEntries chunks':=
  List.map_append

def Over (links : UInt16→Option Link) (conn : UInt16) (link : Option Link) : Prop:=
  ∀ l, links conn=some l→link=some l

/-- The payload is streamed as far as its record says. -/
structure Streamed (crc32 : Bytes→UInt32) (send : SendSession) (links : UInt16→Option Link) (payload : Bytes)
    (es : List SendEntry) (chunks : Chunks) : Prop where
  bytes : (chunks.map Prod.snd).flatten=payload.take send.sent
  carried : send.failFlag=false→∀ c∈chunks, Over links send.conn c.1
  streaming : send.completeWritten=false→es=chunkEntries chunks ∧ send.doneFlag=false
  completed : send.completeWritten=true → send.sent=send.totalLen ∧ ∃ link dones,
    es=chunkEntries chunks++.complete link (crc32 payload)::dones.map .done ∧
    (send.failFlag=false→Over links send.conn link ∧ ∀ l∈dones, link=some l ∧ ∀ c∈chunks, c.1=some l) ∧
    (send.doneFlag=true→dones≠[])

/-- The record is of this payload, and nothing of it was written before the streaming. -/
structure Progress (crc32 : Bytes→UInt32) (send : SendSession) (links : UInt16→Option Link) (payload : Bytes)
    (es : List SendEntry) : Prop where
  buf : send.buf=some payload
  totalLen : send.totalLen=payload.length
  bounded : payload.length ≤ kMaxPayloadBytes
  crc : send.crc=crc32 payload
  sent : send.sent ≤ send.totalLen
  early : send.state≠.streaming→es=[] ∧ send.sent=0 ∧ send.completeWritten=false ∧ send.doneFlag=false
  streamed : ∃ chunks, Streamed crc32 send links payload es chunks

section Progress

variable {crc32 : Bytes→UInt32} {send send' : SendSession} {links : UInt16→Option Link} {payload : Bytes}
  {es : List SendEntry}

theorem Progress.start (hbuf : send.buf=some payload) (htotal : send.totalLen=payload.length)
    (hbounded : payload.length ≤ kMaxPayloadBytes) (hcrc : send.crc=crc32 payload) (hsent : send.sent=0)
    (hcomplete : send.completeWritten=false) (hdone : send.doneFlag=false) :
    Progress crc32 send links payload [] where
  buf:=hbuf
  totalLen:=htotal
  bounded:=hbounded
  crc:=hcrc
  sent:=hsent ▸ Nat.zero_le _
  early _:=⟨rfl,hsent,hcomplete,hdone⟩
  streamed:=by
    refine ⟨[],by rw [hsent]; rfl,fun _ c hc=>absurd hc List.not_mem_nil,fun _=>⟨rfl,hdone⟩,fun hc=>?_⟩
    rw [hcomplete] at hc
    cases hc

def SendSession.part (send : SendSession) : Option Bytes × ℕ × UInt32 × ℕ × Bool × Bool:=
  (send.buf,send.totalLen,send.crc,send.sent,send.completeWritten,send.doneFlag)

theorem Progress.move (h : Progress crc32 send links payload es) (hpart : send'.part=send.part)
    (hkeeps : send.state=.streaming →
      send'.state=.streaming ∧ send'.conn=send.conn ∧ send'.failFlag=send.failFlag) :
    Progress crc32 send' links payload es:=by
  obtain ⟨hbuf,htotal,hcrc,hsent,hcomplete,hdone⟩ : send'.buf=send.buf ∧ send'.totalLen=send.totalLen ∧
      send'.crc=send.crc ∧ send'.sent=send.sent ∧ send'.completeWritten=send.completeWritten ∧
      send'.doneFlag=send.doneFlag:=by
    simpa only [SendSession.part,Prod.mk.injEq] using hpart
  by_cases hstate : send.state=.streaming
  · obtain ⟨hstate',hconn,hfail⟩:=hkeeps hstate
    obtain ⟨chunks,hbytes,hover,hstreaming,hcompleted⟩:=h.streamed
    refine ⟨hbuf.trans h.buf,htotal.trans h.totalLen,h.bounded,hcrc.trans h.crc,?_,
      fun hearly=>absurd hstate' hearly,chunks,?_,?_,?_,?_⟩
    · rw [hsent,htotal]
      exact h.sent
    · rw [hsent]
      exact hbytes
    · rw [hfail,hconn]
      exact hover
    · rw [hcomplete,hdone]
      exact hstreaming
    · rw [hcomplete,hsent,htotal,hfail,hconn,hdone]
      exact hcompleted
  · obtain ⟨rfl,hzero,hopen,hnot⟩:=h.early hstate
    exact .start (hbuf.trans h.buf) (htotal.trans h.totalLen) h.bounded (hcrc.trans h.crc) (hsent.trans hzero)
      (hcomplete.trans hopen) (hdone.trans hnot)

theorem Progress.fail (h : Progress crc32 send links payload es) (reason : Reason) :
    Progress crc32 {send with failFlag:=true,failReason:=reason} links payload es:=by
  obtain ⟨chunks,hstreamed⟩:=h.streamed
  refine ⟨h.buf,h.totalLen,h.bounded,h.crc,h.sent,h.early,chunks,hstreamed.bytes,?_,hstreamed.streaming,?_⟩
  · exact fun hfail=>absurd hfail (by simp)
  · intro hc
    obtain ⟨hsent,link,dones,hes,-,hdone⟩:=hstreamed.completed hc
    exact ⟨hsent,link,dones,hes,fun hfail=>absurd hfail (by simp),hdone⟩

theorem Progress.relink (h : Progress crc32 send links payload es) {links' : UInt16→Option Link}
    (hlinks : send.failFlag=false → send.state=.streaming→∀ l, links' send.conn=some l→links send.conn=some l) :
    Progress crc32 send links' payload es:=by
  by_cases hstate : send.state=.streaming
  · obtain ⟨chunks,hstreamed⟩:=h.streamed
    refine ⟨h.buf,h.totalLen,h.bounded,h.crc,h.sent,h.early,chunks,hstreamed.bytes,?_,hstreamed.streaming,?_⟩
    · exact fun hfail c hc l hl=>hstreamed.carried hfail c hc l (hlinks hfail hstate l hl)
    · intro hc
      obtain ⟨hsent,link,dones,hes,hover,hdone⟩:=hstreamed.completed hc
      exact ⟨hsent,link,dones,hes,fun hfail=>⟨fun l hl=>(hover hfail).1 l (hlinks hfail hstate l hl),
        (hover hfail).2⟩,hdone⟩
  · obtain ⟨rfl,hsent,hcomplete,hdone⟩:=h.early hstate
    exact .start h.buf h.totalLen h.bounded h.crc hsent hcomplete hdone

theorem Progress.inner (h : Progress crc32 send links payload es) : ∀ e∈es, e.IsInner:=by
  obtain ⟨chunks,hstreamed⟩:=h.streamed
  intro e he
  cases hc : send.completeWritten with
  | false=>
    obtain ⟨rfl,-⟩:=hstreamed.streaming hc
    exact isInner_chunkEntries chunks e he
  | true=>
    obtain ⟨-,link,dones,rfl,-⟩:=hstreamed.completed hc
    rcases List.mem_append.mp he with he | he
    · exact isInner_chunkEntries chunks e he
    · rcases List.mem_cons.mp he with rfl | he
      · trivial
      · obtain ⟨l,-,rfl⟩:=List.mem_map.mp he
        trivial

theorem Progress.whole (h : Progress crc32 send links payload es) (hfail : send.failFlag=false)
    (hdone : send.doneFlag=true) : Whole crc32 payload es:=by
  obtain ⟨chunks,hstreamed⟩:=h.streamed
  cases hc : send.completeWritten with
  | false=>
    obtain ⟨-,hnot⟩:=hstreamed.streaming hc
    exact absurd hdone (by simp [hnot])
  | true=>
    obtain ⟨hsent,link,dones,rfl,hover,hsome⟩:=hstreamed.completed hc
    obtain ⟨l,dones,rfl⟩:=List.exists_cons_of_ne_nil (hsome hdone)
    have hpeer:=(hover hfail).2
    obtain ⟨rfl,hchunks⟩:=hpeer l List.mem_cons_self
    refine ⟨l,chunks.map Prod.snd,dones.length,?_,?_⟩
    · have hsame : (chunks.map Prod.snd).map (fun c=>(some l,c))=chunks:=by
        rw [List.map_map]
        conv_rhs=>rw [← List.map_id chunks]
        exact List.map_congr_left fun c hc=>Prod.ext (hchunks c hc).symm rfl
      have hall : l::dones=List.replicate (dones.length+1) l:=by
        refine List.eq_replicate_of_mem fun l' hl'=>?_
        exact (Option.some.inj (hpeer l' hl').1).symm
      rw [hsame,hall,List.map_replicate]
    · rw [hstreamed.bytes,hsent,h.totalLen,List.take_length]

theorem Progress.chunk (h : Progress crc32 send links payload es) (hstate : send.state=.streaming)
    (hopen : send.completeWritten=false) {k : ℕ} (hk : k ≤ send.totalLen-send.sent) (now : UInt32) :
    Progress crc32 {send with sent:=send.sent+k,stateStartMs:=now} links payload
      (es++[.chunk (links send.conn) ((payload.drop send.sent).take k)]):=by
  obtain ⟨chunks,hstreamed⟩:=h.streamed
  have hsent:=h.sent
  obtain ⟨rfl,hdone⟩:=hstreamed.streaming hopen
  refine ⟨h.buf,h.totalLen,h.bounded,h.crc,by dsimp only; omega,fun hearly=>absurd hstate hearly,
    chunks++[(links send.conn,(payload.drop send.sent).take k)],?_,?_,?_,?_⟩
  · rw [List.map_append,List.flatten_append,hstreamed.bytes]
    dsimp only
    rw [List.take_add]
    simp
  · intro hfail c hc
    rcases List.mem_append.mp hc with hc | hc
    · exact hstreamed.carried hfail c hc
    · rw [List.mem_singleton.mp hc]
      exact fun l hl=>hl
  · exact fun _=>⟨(chunkEntries_append chunks [(links send.conn,(payload.drop send.sent).take k)]).symm,hdone⟩
  · exact fun hc=>absurd hc (by simp [hopen])

theorem Progress.complete (h : Progress crc32 send links payload es) (hstate : send.state=.streaming)
    (hopen : send.completeWritten=false) (hall : ¬send.sent < send.totalLen) (now : UInt32) :
    Progress crc32 {send with completeWritten:=true,stateStartMs:=now} links payload
      (es++[.complete (links send.conn) send.crc]):=by
  obtain ⟨chunks,hstreamed⟩:=h.streamed
  obtain ⟨rfl,hdone⟩:=hstreamed.streaming hopen
  refine ⟨h.buf,h.totalLen,h.bounded,h.crc,h.sent,fun hearly=>absurd hstate hearly,chunks,
    hstreamed.bytes,hstreamed.carried,fun hc=>absurd hc (by simp),fun _=>?_⟩
  refine ⟨le_antisymm h.sent (Nat.not_lt.mp hall),links send.conn,[],by rw [h.crc]; rfl,fun _=>?_,?_⟩
  · exact ⟨fun l hl=>hl,fun l hl=>absurd hl List.not_mem_nil⟩
  · exact fun hd=>absurd hd (by simp [hdone])

theorem Progress.peerDone (h : Progress crc32 send links payload es) (hcomplete : send.completeWritten=true)
    {link : Link} (hlink : links send.conn=some link) :
    Progress crc32 {send with doneFlag:=true} links payload (es++[.done link]):=by
  obtain ⟨chunks,hstreamed⟩:=h.streamed
  obtain ⟨hsent,link',dones,rfl,hover,-⟩:=hstreamed.completed hcomplete
  have hstate : send.state=.streaming:=by
    by_contra hearly
    exact absurd hcomplete (by simp [(h.early hearly).2.2.1])
  refine ⟨h.buf,h.totalLen,h.bounded,h.crc,h.sent,fun hearly=>absurd hstate hearly,chunks,
    hstreamed.bytes,hstreamed.carried,fun hc=>absurd hcomplete (by simp [show send.completeWritten=false from hc]),fun _=>?_⟩
  refine ⟨hsent,link',dones++[link],by simp,fun hfail=>⟨(hover hfail).1,fun l hl=>?_⟩,fun _=>by simp⟩
  rcases List.mem_append.mp hl with hl | hl
  · exact (hover hfail).2 l hl
  · rw [List.mem_singleton.mp hl]
    exact ⟨(hover hfail).1 link hlink,fun c hc=>hstreamed.carried hfail c hc link hlink⟩

end Progress

def SendState.UnderWay : SendState→Prop
  | .pickingPeer | .connecting | .discovering | .offering | .awaitingEncrypt | .streaming=>True
  | .idle | .done | .failed=>False

def SendState.limitMs : SendState→UInt32
  | .connecting=>kConnectTimeoutMs
  | .discovering=>kDiscoveryTimeoutMs
  | .awaitingEncrypt=>kEncryptTimeoutMs
  | .streaming=>kTransferIdleTimeoutMs
  | _=>kQueueWaitTimeoutMs

def SendState.stages : SendState → ℕ
  | .pickingPeer=>5
  | .connecting=>4
  | .discovering=>3
  | .offering=>2
  | .awaitingEncrypt=>1
  | _=>0

def SendSession.budget (send : SendSession) : ℕ:=
  send.state.stages+(send.totalLen-send.sent)+(if send.completeWritten then 0 else 1) +
    (if send.queuedFlag then 1 else 0)

namespace Transfer

def sender (s : Transfer) : Transfer where
  send:=s.send
  links:=s.links
  sendLog:=s.sendLog

/-- All sends have ended, or the last one is under way. -/
inductive SendSound (crc32 : Bytes→UInt32) (s : Transfer) : Prop
  | idle : s.send.state=.idle → s.send.doneFlag=false → Ended crc32 s.sendLog → SendSound crc32 s
  | underWay {log es : List SendEntry} {payload : Bytes} : s.send.state.UnderWay →
      s.sendLog=log++.started payload::es → Ended crc32 log→Progress crc32 s.send s.links payload es →
      SendSound crc32 s

def Takes (s : Transfer) (conn : UInt16) (data : Bytes) (env : Env) (op : StatusOp) : Prop:=
  s.listening=true ∧ env.locked=true ∧ s.send.state≠.idle ∧ conn=s.send.conn ∧ data≠[] ∧
    StatusOp.ofCode (data.getD 0 0)=some op

instance (s : Transfer) (conn : UInt16) (data : Bytes) (env : Env) (op : StatusOp) :
    Decidable (s.Takes conn data env op):=
  inferInstanceAs (Decidable (_ ∧ _))

/-- A DONE is taken after the COMPLETE only, and no link comes up behind the handle that the payload goes to. -/
def SendHeeds (s : Transfer) : Event→Prop
  | .linkUp conn _ _=>s.links conn=none → s.send.state=.streaming → s.send.failFlag=false → s.send.conn≠conn
  | .notification conn data env=>(s.links conn).isSome → s.Takes conn data env .done → s.send.completeWritten=true
  | _=>True

instance (s : Transfer) : DecidablePred s.SendHeeds
  | .linkUp .. => inferInstanceAs (Decidable (_ → _ → _ → _))
  | .notification .. => inferInstanceAs (Decidable (_ → _ → _))
  | .linkDown .. | .controlWrite .. | .dataWrite .. | .encChange .. | .serviceDiscovered .. | .writeComplete ..
  | .showConsent | .respondConsent .. | .tick .. | .sendTo .. | .beginInteractiveSend .. | .takeInteractiveRequest
  | .confirmInteractiveTarget .. | .cancelSend | .consumeResult | .start | .stop .. | .reboot=>.isTrue trivial

section Sends

variable {crc32 : Bytes→UInt32} {s t : Transfer}

theorem SendSound.congr (h : s.SendSound crc32) (ht : t.sender=s.sender) : t.SendSound crc32:=by
  have hs : s.sender.SendSound crc32:=by
    cases h with
    | idle hstate hdone hended=>exact .idle hstate hdone hended
    | underWay hstate hsplit hended hprogress=>exact .underWay hstate hsplit hended hprogress
  rw [← ht] at hs
  cases hs with
  | idle hstate hdone hended=>exact .idle hstate hdone hended
  | underWay hstate hsplit hended hprogress=>exact .underWay hstate hsplit hended hprogress

theorem send_of_sender (ht : t.sender=s.sender) : t.send=s.send:=by
  have hsend : t.sender.send=s.sender.send:=congrArg Transfer.send ht
  exact hsend

theorem SendSound.recvs (h : s.SendSound crc32) (ht : t.exceptRecv=s.exceptRecv) : t.SendSound crc32:=by
  have hview : t.exceptRecv.sender=s.exceptRecv.sender:=congrArg sender ht
  exact h.congr hview

theorem SendSound.bonds (h : s.SendSound crc32) (ht : t.exceptBonds=s.exceptBonds) : t.SendSound crc32:=by
  have hview : t.exceptBonds.sender=s.exceptBonds.sender:=congrArg sender ht
  exact h.congr hview

theorem maxChunk_pos (env : Env) : 0 < maxChunk env:=by
  have hmtu : 20 ≤ mtuPayload env:=by
    unfold mtuPayload
    split <;> omega
  have hframe : kFrameBufLen-kChunkHeaderLen=258:=rfl
  have hheader : kChunkHeaderLen=2:=rfl
  unfold maxChunk
  omega

/-- The send goes on from here: its log keeps to the payload, and its record is as it was or nearer to its end. -/
structure Streams (crc32 : Bytes→UInt32) (s t : Transfer) (payload : Bytes) (es : List SendEntry) : Prop where
  progress : ∃ es', t.sendLog=s.sendLog++es' ∧ Progress crc32 t.send s.links payload (es++es')
  state : t.send.state=.streaming
  budget : t.send=s.send ∨ t.send.budget < s.send.budget

theorem Streams.refl {payload : Bytes} {es : List SendEntry} (h : Progress crc32 s.send s.links payload es)
    (hstate : s.send.state=.streaming) (hsend : t.send=s.send) (hlog : t.sendLog=s.sendLog) :
    Streams crc32 s t payload es:=
  ⟨⟨[],by simp [hlog],by simpa [hsend] using h⟩,by rw [hsend]; exact hstate,.inl hsend⟩

theorem streams_loop {payload : Bytes} (env : Env) (n : ℕ) (writes : List Bool) {es : List SendEntry}
    (h : Progress crc32 s.send s.links payload es) (hstate : s.send.state=.streaming)
    (hopen : s.send.completeWritten=false) :
    Streams crc32 s (streamLoop env n writes s).2 payload es ∧
      (streamLoop env n writes s).2.send.completeWritten=false:=by
  induction n generalizing s writes es with
  | zero=>exact ⟨.refl h hstate rfl rfl,hopen⟩
  | succ n ih=>
    unfold streamLoop
    split
    · rename_i hrest
      dsimp only [writeCharacteristic]
      split
      · have hpos:=maxChunk_pos env
        have hchunk:=h.chunk hstate hopen (Nat.min_le_right (maxChunk env) (s.send.totalLen-s.send.sent)) env.later
        generalize hk : min (maxChunk env) (s.send.totalLen-s.send.sent)=k at hchunk ⊢
        have hbuf : (s.send.buf.getD [])=payload:=by rw [h.buf]; rfl
        rw [hbuf]
        generalize hs' : chunkSent _ _ _ _=s'
        have hsend : s'.send={s.send with sent:=s.send.sent+k,stateStartMs:=env.later}:=by rw [← hs']; rfl
        have hlinks : s'.links=s.links:=by rw [← hs']; rfl
        have hlog : s'.sendLog=s.sendLog++[.chunk (s.links s.send.conn) ((payload.drop s.send.sent).take k)]:=by
          rw [← hs']
          rfl
        rw [← hsend,← hlinks] at hchunk
        obtain ⟨⟨⟨es',hlog',hprogress⟩,hstate',hbudget⟩,hopen'⟩:=ih writes.tail hchunk
          (by rw [hsend]; exact hstate) (by rw [hsend]; exact hopen)
        have hnear : s'.send.budget < s.send.budget:=by
          rw [hsend]
          unfold SendSession.budget
          dsimp only
          omega
        refine ⟨⟨⟨[.chunk (s.links s.send.conn) ((payload.drop s.send.sent).take k)]++es',?_,?_⟩,hstate',?_⟩,hopen'⟩
        · rw [hlog',hlog,List.append_assoc]
        · rw [hlinks,List.append_assoc] at hprogress
          exact hprogress
        · rcases hbudget with hsame | hless
          · rw [hsame]
            exact .inr hnear
          · exact .inr (hless.trans hnear)
      · exact ⟨.refl h hstate rfl rfl,hopen⟩
    · exact ⟨.refl h hstate rfl rfl,hopen⟩

theorem streams_chunks {payload : Bytes} (env : Env) {es : List SendEntry}
    (h : Progress crc32 s.send s.links payload es) (hstate : s.send.state=.streaming)
    (hopen : s.send.completeWritten=false) : Streams crc32 s (s.streamChunks env) payload es:=by
  unfold Transfer.streamChunks
  split
  · exact .refl h hstate rfl rfl
  · have hlinks : (streamLoop env s.send.totalLen env.writes s).2.links=s.links:=
      links_of_exceptSend (exceptSend_streamLoop env s.send.totalLen env.writes)
    have hloop:=streams_loop env s.send.totalLen env.writes h hstate hopen
    generalize streamLoop env s.send.totalLen env.writes s=looped at hloop hlinks ⊢
    obtain ⟨writes,t⟩:=looped
    obtain ⟨hstreams,hopen'⟩:=hloop
    dsimp only [writeCharacteristic] at hlinks hstreams hopen' ⊢
    split
    · exact hstreams
    · rename_i hall
      split
      · exact hstreams
      · split
        · obtain ⟨⟨es',hlog,hprogress⟩,hstate',hbudget⟩:=hstreams
          have hcomplete:=hprogress.complete hstate' hopen' hall env.later
          refine ⟨⟨es'++[.complete (s.links t.send.conn) t.send.crc],?_,?_⟩,hstate',.inr ?_⟩
          · rw [← List.append_assoc,← hlog,← hlinks]
            rfl
          · rw [← List.append_assoc]
            exact hcomplete
          · have hnear : SendSession.budget {t.send with completeWritten:=true,stateStartMs:=env.later} <
                t.send.budget:=by
              unfold SendSession.budget
              dsimp only
              rw [hopen']
              simp
            rcases hbudget with hsame | hless
            · rw [← hsame]
              exact hnear
            · exact hnear.trans hless
        · exact ⟨hstreams.progress,hstreams.state,hstreams.budget⟩

theorem sender_teardownSend (ok : Bool) (reason : Reason) : (s.teardownSend ok reason).sender=sender { s with
    send:={peer:=s.send.peer,stateStartMs:=s.send.stateStartMs},sendLog:=s.sendLog++[.result ok] }:=by
  unfold teardownSend
  dsimp only
  split <;> rfl

theorem SendSound.teardownSend (h : s.SendSound crc32) (hbusy : s.send.state≠.idle) {ok : Bool}
    (hok : ok=true → s.send.failFlag=false ∧ s.send.doneFlag=true) (reason : Reason) :
    (s.teardownSend ok reason).SendSound crc32 ∧ (s.teardownSend ok reason).send.state=.idle:=by
  have hview:=sender_teardownSend (s:=s) ok reason
  have hstate : (s.teardownSend ok reason).send.state=.idle:=congrArg (fun t=>t.send.state) hview
  refine ⟨SendSound.congr ?_ hview,hstate⟩
  cases h with
  | idle hidle=>exact absurd hidle hbusy
  | underWay hunder hsplit hended hprogress=>
    refine .idle rfl rfl ?_
    dsimp only
    rw [hsplit]
    exact hended.send hprogress.inner fun h=>hprogress.whole (hok h).1 (hok h).2

theorem SendSound.underWay_of (h : s.SendSound crc32) (hbusy : s.send.state≠.idle) : s.send.state.UnderWay:=by
  cases h with
  | idle hidle=>exact absurd hidle hbusy
  | underWay hunder=>exact hunder

theorem SendSound.move (h : s.SendSound crc32) (hbusy : s.send.state≠.idle) (hunder : t.send.state.UnderWay)
    (hlinks : t.links=s.links) (hlog : t.sendLog=s.sendLog) (hpart : t.send.part=s.send.part)
    (hkeeps : s.send.state=.streaming →
      t.send.state=.streaming ∧ t.send.conn=s.send.conn ∧ t.send.failFlag=s.send.failFlag) :
    t.SendSound crc32:=by
  cases h with
  | idle hidle=>exact absurd hidle hbusy
  | underWay _ hsplit hended hprogress=>
    exact .underWay hunder (hlog.trans hsplit) hended (by rw [hlinks]; exact hprogress.move hpart hkeeps)

/-- A send has ended, or has so much less of its budget. -/
structure Spends (crc32 : Bytes→UInt32) (s t : Transfer) (spent : ℕ) : Prop where
  sound : t.SendSound crc32
  budget : t.send.state=.idle ∨ t.send.budget+spent ≤ s.send.budget

def overdue (s : Transfer) (env : Env) : ℕ:=if s.send.state.limitMs < env.now-s.send.stateStartMs then 1 else 0

theorem overdue_le (env : Env) : s.overdue env ≤ 1:=by
  unfold overdue
  split <;> omega

theorem SendSound.call (h : s.SendSound crc32) (c : BleCall) : (s.call c).SendSound crc32:=h.congr rfl

theorem Spends.teardown (h : t.SendSound crc32) (hbusy : t.send.state≠.idle) {ok : Bool}
    (hok : ok=true → t.send.failFlag=false ∧ t.send.doneFlag=true) (reason : Reason) (spent : ℕ) :
    Spends crc32 s (t.teardownSend ok reason) spent:=
  ⟨(h.teardownSend hbusy hok reason).1,.inl (h.teardownSend hbusy hok reason).2⟩

theorem Spends.failed (h : t.SendSound crc32) (hbusy : t.send.state≠.idle) (reason : Reason) (spent : ℕ) :
    Spends crc32 s (t.teardownSend false reason) spent:=
  .teardown h hbusy (fun h=>absurd h Bool.false_ne_true) reason spent

theorem Spends.advance (h : s.SendSound crc32) (hearly : s.send.state≠.streaming)
    (hsame : t.links=s.links ∧ t.sendLog=s.sendLog ∧ t.send.part=s.send.part ∧
      t.send.queuedFlag=s.send.queuedFlag)
    (hlater : t.send.state.UnderWay ∧ t.send.state.stages < s.send.state.stages) {spent : ℕ} (hspent : spent ≤ 1) :
    Spends crc32 s t spent:=by
  obtain ⟨hlinks,hlog,hpart,hqueued⟩:=hsame
  obtain ⟨hunder,hstages⟩:=hlater
  have hbusy : s.send.state≠.idle:=by
    intro hidle
    rw [hidle] at hstages
    exact Nat.not_lt_zero _ hstages
  refine ⟨h.move hbusy hunder hlinks hlog hpart fun hstate=>absurd hstate hearly,.inr ?_⟩
  have hlater : t.send.budget+1 ≤ s.send.budget:=by
    obtain ⟨-,htotal,-,hsent,hcomplete,-⟩ : t.send.buf=s.send.buf ∧ t.send.totalLen=s.send.totalLen ∧
        t.send.crc=s.send.crc ∧ t.send.sent=s.send.sent ∧ t.send.completeWritten=s.send.completeWritten ∧
        t.send.doneFlag=s.send.doneFlag:=by
      simpa only [SendSession.part,Prod.mk.injEq] using hpart
    unfold SendSession.budget
    rw [htotal,hsent,hcomplete,hqueued]
    omega
  omega

/-- The time of a send is up, or else it waits on, with less of its budget or as it was. -/
theorem Spends.timeOut (h : t.SendSound crc32) (hbusy : t.send.state≠.idle) {limit : UInt32} (env : Env)
    (hrest : t.send.budget < s.send.budget ∨
      t.send.budget=s.send.budget ∧ t.send.stateStartMs=s.send.stateStartMs ∧ s.send.state.limitMs=limit) :
    Spends crc32 s (t.timeOut limit env) (s.overdue env):=by
  have hdue:=overdue_le (s:=s) env
  unfold Transfer.timeOut
  split
  · exact .failed h hbusy _ _
  · rename_i hnot
    rcases hrest with hless | ⟨hsame,hstart,rfl⟩
    · exact ⟨h,.inr (by omega)⟩
    · refine ⟨h,.inr ?_⟩
      rw [hstart] at hnot
      rw [overdue,if_neg hnot,hsame,Nat.add_zero]

theorem Spends.writeOffer (h : s.SendSound crc32) (hstate : s.send.state=.discovering) (env : Env) {spent : ℕ}
    (hspent : spent ≤ 1) : Spends crc32 s (s.writeOffer env) spent:=by
  have hbusy : s.send.state≠.idle:=by rw [hstate]; decide
  unfold Transfer.writeOffer
  dsimp only [writeCharacteristic]
  split
  · exact .failed (h.call _) hbusy _ _
  · split
    · refine .advance h (by rw [hstate]; decide) ?_ ?_ hspent
      · exact ⟨rfl,rfl,rfl,rfl⟩
      · exact ⟨trivial,by rw [hstate]; exact Nat.lt_succ_self _⟩
    · exact .failed ((h.call _).call _) hbusy _ _

theorem links_awaitPairing (conn : UInt16) : (s.awaitPairing conn).links=s.links ∧
    (s.awaitPairing conn).send=s.send ∧ (s.awaitPairing conn).sendLog=s.sendLog:=by
  unfold awaitPairing
  split <;> exact ⟨rfl,rfl,rfl⟩

theorem Spends.secureSend (h : s.SendSound crc32) (hstate : s.send.state=.offering) (env : Env) {spent : ℕ}
    (hspent : spent ≤ 1) : Spends crc32 s (s.secureSend env) spent:=by
  have hbusy : s.send.state≠.idle:=by rw [hstate]; decide
  unfold Transfer.secureSend
  dsimp only
  split
  · obtain ⟨hlinks,hsend,hlog⟩:=links_awaitPairing (s:=s.call (.initiateSecurity s.send.conn)) s.send.conn
    refine .advance h (by rw [hstate]; decide) ?_ ?_ hspent
    · exact ⟨hlinks,hlog,rfl,rfl⟩
    · exact ⟨trivial,by rw [hstate]; exact Nat.lt_succ_self _⟩
  · exact .failed (h.call _) hbusy _ _

theorem SendSound.early (h : s.SendSound crc32) (hbusy : s.send.state≠.idle) (hearly : s.send.state≠.streaming) :
    s.send.sent=0 ∧ s.send.completeWritten=false ∧ s.send.doneFlag=false:=by
  cases h with
  | idle hidle=>exact absurd hidle hbusy
  | underWay _ _ _ hprogress=>exact (hprogress.early hearly).2

theorem SendSound.unfinished (h : s.SendSound crc32) (hbusy : s.send.state≠.idle)
    (hrest : s.send.sent < s.send.totalLen ∨ s.send.completeWritten=false) : s.send.completeWritten=false:=by
  cases h with
  | idle hidle=>exact absurd hidle hbusy
  | underWay _ _ _ hprogress=>
    rcases hrest with hless | hopen
    · obtain ⟨chunks,hstreamed⟩:=hprogress.streamed
      by_contra hcomplete
      have hall:=(hstreamed.completed (Bool.eq_true_of_not_eq_false hcomplete)).1
      omega
    · exact hopen

theorem SendSound.streamChunks (h : s.SendSound crc32) (hstate : s.send.state=.streaming)
    (hopen : s.send.completeWritten=false) (env : Env) :
    (s.streamChunks env).SendSound crc32 ∧ (s.streamChunks env).send.state=.streaming ∧
      ((s.streamChunks env).send=s.send ∨ (s.streamChunks env).send.budget < s.send.budget):=by
  cases h with
  | idle hidle=>exact absurd (hidle.symm.trans hstate) (by decide)
  | underWay _ hsplit hended hprogress=>
    obtain ⟨⟨es',hlog,hprogress'⟩,hstate',hbudget⟩:=streams_chunks env hprogress hstate hopen
    have hlinks : (s.streamChunks env).links=s.links:=links_of_exceptSend (exceptSend_streamChunks env)
    rw [hsplit,List.append_assoc,List.cons_append] at hlog
    rw [← hlinks] at hprogress'
    exact ⟨.underWay (by rw [hstate']; trivial) hlog hended hprogress',hstate',hbudget⟩

theorem Spends.tickSend (h : s.SendSound crc32) (hbusy : s.send.state≠.idle) (env : Env) :
    Spends crc32 s (s.tickSend env) (s.overdue env):=by
  have hunder:=h.underWay_of hbusy
  have hdue:=overdue_le (s:=s) env
  unfold Transfer.tickSend
  split
  · rename_i hstate
    exact .timeOut h hbusy env (.inr ⟨rfl,rfl,by rw [hstate]; rfl⟩)
  · rename_i hstate
    split
    · exact .failed h hbusy _ _
    · split
      · have hcall (c : BleCall) : ({s with send:={s.send with connectedFlag:=false}}.call c).SendSound crc32:=
          h.move hbusy hunder rfl rfl rfl fun hs=>⟨hs,rfl,rfl⟩
        dsimp only
        split
        · refine .advance h (by rw [hstate]; decide) ?_ ?_ hdue
          · exact ⟨rfl,rfl,rfl,rfl⟩
          · exact ⟨trivial,by rw [hstate]; exact Nat.lt_succ_self _⟩
        · exact .failed (hcall _) hbusy _ _
      · exact .timeOut h hbusy env (.inr ⟨rfl,rfl,by rw [hstate]; rfl⟩)
  · rename_i hstate
    split
    · exact .failed h hbusy _ _
    · split
      · have hcleared : SendSound crc32 {s with send:={s.send with discoveredFlag:=false}}:=
          h.move hbusy hunder rfl rfl rfl fun hs=>⟨hs,rfl,rfl⟩
        exact ⟨(writeOffer hcleared hstate env hdue).sound,(writeOffer hcleared hstate env hdue).budget⟩
      · exact .timeOut h hbusy env (.inr ⟨rfl,rfl,by rw [hstate]; rfl⟩)
  · rename_i hstate
    split
    · exact .failed h hbusy _ _
    · split
      · have hcleared : SendSound crc32 {s with send:={s.send with acceptedFlag:=false}}:=
          h.move hbusy hunder rfl rfl rfl fun hs=>⟨hs,rfl,rfl⟩
        exact ⟨(secureSend hcleared hstate env hdue).sound,(secureSend hcleared hstate env hdue).budget⟩
      · unfold extendWait
        split
        · rename_i hqueued
          have hcleared : SendSound crc32
              {s with send:={s.send with queuedFlag:=false,stateStartMs:=env.now}}:=
            h.move hbusy hunder rfl rfl rfl fun hs=>⟨hs,rfl,rfl⟩
          refine .timeOut hcleared hbusy env (.inl ?_)
          unfold SendSession.budget
          rw [if_pos hqueued]
          exact Nat.lt_succ_self _
        · exact .timeOut h hbusy env (.inr ⟨rfl,rfl,by rw [hstate]; rfl⟩)
  · rename_i hstate
    split
    · exact .failed h hbusy _ _
    · split
      · have hopen:=(h.early hbusy (by rw [hstate]; decide)).2.1
        have hstarted : SendSound crc32
            {s with send:={s.send with encOk:=false,state:=.streaming,stateStartMs:=env.now}}:=
          h.move hbusy trivial rfl rfl rfl fun hs=>absurd (hs.symm.trans hstate) (by decide)
        obtain ⟨hsound,-,hbudget⟩:=hstarted.streamChunks rfl hopen env
        have hnear : SendSession.budget {s.send with encOk:=false,state:=.streaming,stateStartMs:=env.now} <
            s.send.budget:=by
          unfold SendSession.budget
          rw [hstate]
          dsimp only [SendState.stages]
          omega
        refine ⟨hsound,.inr ?_⟩
        rcases hbudget with hsame | hless
        · rw [hsame]
          exact (Nat.add_le_add_left hdue _).trans (Nat.succ_le_of_lt hnear)
        · exact (Nat.add_le_add_left hdue _).trans (Nat.succ_le_of_lt (hless.trans hnear))
      · exact .timeOut h hbusy env (.inr ⟨rfl,rfl,by rw [hstate]; rfl⟩)
  · rename_i hstate
    split
    · exact .failed h hbusy _ _
    · rename_i hfail
      split
      · exact .teardown h hbusy (fun _=>⟨Bool.eq_false_iff.mpr hfail,‹_›⟩) _ _
      · unfold streamRest
        split
        · obtain ⟨hsound,hstate',hbudget⟩:=h.streamChunks hstate (h.unfinished hbusy ‹_›) env
          refine .timeOut hsound (by rw [hstate']; decide) env ?_
          rcases hbudget with hsame | hless
          · exact .inr ⟨by rw [hsame],by rw [hsame],by rw [hstate]; rfl⟩
          · exact .inl hless
        · exact .timeOut h hbusy env (.inr ⟨rfl,rfl,by rw [hstate]; rfl⟩)
  · refine absurd hunder fun hunder=>?_
    cases hstate : s.send.state <;> rw [hstate] at hunder <;> first | exact hunder | exact absurd hstate ‹_›

/-- What a step does: the sends stay sound, and one under way ends or keeps within its budget. -/
structure Steps (crc32 : Bytes→UInt32) (s t : Transfer) (spent gained : ℕ) : Prop where
  sound : t.SendSound crc32
  budget : s.send.state≠.idle→t.send.state=.idle ∨ t.send.budget+spent ≤ s.send.budget+gained

theorem Steps.of_sender (h : s.SendSound crc32) (ht : t.sender=s.sender) : Steps crc32 s t 0 0:=by
  have hbudget : t.send.budget=s.send.budget:=congrArg SendSession.budget (send_of_sender ht)
  exact ⟨h.congr ht,fun _=>.inr (by rw [hbudget])⟩

theorem Steps.of_exceptRecv (h : s.SendSound crc32) (ht : t.exceptRecv=s.exceptRecv) : Steps crc32 s t 0 0:=by
  have hview : t.exceptRecv.sender=s.exceptRecv.sender:=congrArg sender ht
  exact .of_sender h hview

theorem Steps.of_exceptBonds (h : s.SendSound crc32) (ht : t.exceptBonds=s.exceptBonds) : Steps crc32 s t 0 0:=by
  have hview : t.exceptBonds.sender=s.exceptBonds.sender:=congrArg sender ht
  exact .of_sender h hview

theorem Steps.move (h : s.SendSound crc32) (hbusy : s.send.state≠.idle)
    (hsame : t.links=s.links ∧ t.sendLog=s.sendLog ∧ t.send.part=s.send.part ∧ t.send.state=s.send.state ∧
      t.send.conn=s.send.conn ∧ t.send.failFlag=s.send.failFlag)
    {gained : ℕ} (hgained : t.send.budget ≤ s.send.budget+gained) : Steps crc32 s t 0 gained:=by
  obtain ⟨hlinks,hlog,hpart,hstate,hconn,hfail⟩:=hsame
  refine ⟨h.move hbusy ?_ hlinks hlog hpart ?_,fun _=>.inr hgained⟩
  · rw [hstate]
    exact h.underWay_of hbusy
  · intro hs
    exact ⟨hstate.trans hs,hconn,hfail⟩

theorem Steps.failSend (h : s.SendSound crc32) (hbusy : s.send.state≠.idle) (reason : Reason) :
    Steps crc32 s (s.failSend reason) 0 0:=by
  refine ⟨?_,fun _=>.inr le_rfl⟩
  cases h with
  | idle hidle=>exact absurd hidle hbusy
  | underWay hunder hsplit hended hprogress=>exact .underWay hunder hsplit hended (hprogress.fail reason)

theorem Steps.trans {u : Transfer} {gained : ℕ} (h : Steps crc32 s t 0 0) (h' : Steps crc32 t u 0 gained)
    (hbusy : t.send.state=.idle→u.send.state=.idle) : Steps crc32 s u 0 gained:=by
  refine ⟨h'.sound,fun hs=>?_⟩
  rcases h.budget hs with hidle | hless
  · exact .inl (hbusy hidle)
  · by_cases hidle : t.send.state=.idle
    · exact .inl (hbusy hidle)
    · rcases h'.budget hidle with hidle' | hless'
      · exact .inl hidle'
      · exact .inr (by omega)

/-- Links come and go, but none comes up behind the handle that a payload goes to. -/
theorem SendSound.relink (h : s.SendSound crc32) {links' : UInt16→Option Link} (serial : ℕ)
    (hlinks : s.send.failFlag=false → s.send.state=.streaming →
      ∀ l, links' s.send.conn=some l → s.links s.send.conn=some l) :
    SendSound crc32 {s with links:=links',nextSerial:=serial}:=by
  cases h with
  | idle hidle hdone hended=>exact .idle hidle hdone hended
  | underWay hunder hsplit hended hprogress=>exact .underWay hunder hsplit hended (hprogress.relink hlinks)

theorem Steps.linkUp (h : s.SendSound crc32) {conn : UInt16} {peer : PeerAddr} {env : Env}
    (hheeds : s.SendHeeds (.linkUp conn peer env)) : Steps crc32 s (s.linkUp conn peer env) 0 0:=by
  unfold Transfer.linkUp
  split
  · exact .of_sender h rfl
  · rename_i hfree
    have hnone : s.links conn=none:=by
      cases hlink : s.links conn with
      | none=>rfl
      | some link=>exact absurd (.inr (by rw [hlink]; rfl)) hfree
    have hup : SendSound crc32 { s with
        links:=Function.update s.links conn (some {serial:=s.nextSerial,peer:=peer})
        nextSerial:=s.nextSerial+1 }:=by
      refine h.relink _ fun hfail hstate l hl=>?_
      have hother : s.send.conn≠conn:=hheeds hnone hstate hfail
      rw [Function.update_of_ne hother] at hl
      exact hl
    dsimp only
    split
    · unfold Transfer.onConnect
      split
      · rename_i hconnects
        obtain ⟨-,hstate,-⟩:=hconnects
        have hbusy : s.send.state≠.idle:=by rw [hstate]; decide
        refine ⟨hup.move hbusy (hup.underWay_of hbusy) rfl rfl rfl ?_,fun _=>.inr le_rfl⟩
        exact fun hs=>absurd (hs.symm.trans hstate) (by decide)
      · exact ⟨hup,fun _=>.inr le_rfl⟩
    · exact ⟨hup,fun _=>.inr le_rfl⟩

theorem Steps.linkDown (h : s.SendSound crc32) (conn : UInt16) (env : Env) :
    Steps crc32 s (s.linkDown conn env) 0 0:=by
  unfold Transfer.linkDown
  split
  · have hdown : SendSound crc32 {s with links:=Function.update s.links conn none}:=by
      refine h.relink s.nextSerial fun _ _ l hl=>?_
      by_cases hconn : s.send.conn=conn
      · rw [hconn,Function.update_self] at hl
        cases hl
      · rw [Function.update_of_ne hconn] at hl
        exact hl
    dsimp only
    split
    · unfold Transfer.onDisconnect
      split
      · have hforgot : Steps crc32 s (forgetBondForConn {s with links:=Function.update s.links conn none} conn) 0 0:=by
          have hstep:=Steps.of_exceptBonds hdown (exceptBonds_forgetBondForConn conn)
          exact ⟨hstep.sound,hstep.budget⟩
        generalize forgetBondForConn {s with links:=Function.update s.links conn none} conn=t at hforgot ⊢
        have hlost : Steps crc32 s (t.loseSend conn) 0 0:=by
          unfold loseSend
          split
          · rename_i hmine
            exact hforgot.trans (.failSend hforgot.sound hmine.1 _) id
          · exact hforgot
        have hview : (((t.loseSend conn).loseRecv conn).dropQueuedForConn conn).exceptRecv=(t.loseSend conn).exceptRecv:=
          exceptRecv_loseRecv conn
        refine hlost.trans (.of_exceptRecv hlost.sound hview) fun hidle=>?_
        rw [send_of_exceptRecv hview]
        exact hidle
      · exact ⟨hdown,fun _=>.inr le_rfl⟩
    · exact ⟨hdown,fun _=>.inr le_rfl⟩
  · exact .of_sender h rfl

theorem Steps.onServiceDiscovered (h : s.SendSound crc32) (conn : UInt16) (svc : Option FoundService) (complete : Bool)
    (env : Env) : Steps crc32 s (s.onServiceDiscovered conn svc complete env) 0 0:=by
  unfold Transfer.onServiceDiscovered
  split
  · exact .of_sender h rfl
  · rename_i hactive
    have hstate : s.send.state=.discovering:=by
      by_contra hstate
      exact hactive (.inr (.inl hstate))
    have hbusy : s.send.state≠.idle:=by rw [hstate]; decide
    split
    · exact .failSend h hbusy _
    · rename_i svc
      have hfound : Steps crc32 s { s with send:={ s.send with
          ctrlHandle:=svc.ctrl,statusHandle:=svc.status,dataHandle:=svc.data
          statusCccd:=if svc.status=0 then 0 else svc.status+1 } } 0 0:=by
        refine .move h hbusy ?_ ?_
        · exact ⟨rfl,rfl,rfl,rfl,rfl,rfl⟩
        · exact le_rfl
      dsimp only
      split
      · exact hfound.trans (.failSend hfound.sound hbusy _) id
      · refine .move h hbusy ?_ ?_
        · exact ⟨rfl,rfl,rfl,rfl,rfl,rfl⟩
        · exact le_rfl

theorem Steps.onNotification (h : s.SendSound crc32) {conn : UInt16} {link : Link} (hlink : s.links conn=some link)
    {data : Bytes} {env : Env} (hlistening : s.listening=true)
    (hheeds : s.SendHeeds (.notification conn data env)) :
    Steps crc32 s (s.onNotification conn link data env) 0 (if s.Takes conn data env .queued then 1 else 0):=by
  unfold Transfer.onNotification
  split
  · exact ⟨h,fun _=>.inr (Nat.le_add_right _ _)⟩
  · rename_i hactive
    obtain ⟨hlocked,hbusy,hconn,hdata⟩ : env.locked=true ∧ s.send.state≠.idle ∧ conn=s.send.conn ∧ data≠[]:=by
      simpa only [not_or,not_not,ne_eq,Bool.not_eq_false] using hactive
    have htakes {op : StatusOp} (hop : StatusOp.ofCode (data.getD 0 0)=some op) : s.Takes conn data env op:=
      ⟨hlistening,hlocked,hbusy,hconn,hdata,hop⟩
    have hfails (reason : Reason) {gained : ℕ} : Steps crc32 s (s.failSend reason) 0 gained:=
      ⟨(Steps.failSend h hbusy reason).sound,fun _=>.inr (Nat.le_add_right _ _)⟩
    split
    · refine .move h hbusy ?_ ?_
      · exact ⟨rfl,rfl,rfl,rfl,rfl,rfl⟩
      · exact Nat.le_add_right _ _
    · exact hfails _
    · exact hfails _
    · rename_i hop
      rw [if_pos (htakes hop)]
      refine .move h hbusy ?_ ?_
      · exact ⟨rfl,rfl,rfl,rfl,rfl,rfl⟩
      · unfold SendSession.budget
        dsimp only
        rw [if_pos rfl]
        omega
    · exact hfails _
    · rename_i hop
      have hcomplete:=hheeds (by rw [hlink]; rfl) (htakes hop)
      refine ⟨?_,fun _=>.inr (Nat.le_add_right _ _)⟩
      cases h with
      | idle hidle=>exact absurd hidle hbusy
      | underWay hunder hsplit hended hprogress=>
        have hdone:=hprogress.peerDone hcomplete (hconn ▸ hlink)
        have hlog : s.sendLog++[.done link]=_:=congrArg (· ++ [SendEntry.done link]) hsplit
        rw [List.append_assoc,List.cons_append] at hlog
        exact .underWay hunder hlog hended hdone
    · exact ⟨h,fun _=>.inr (Nat.le_add_right _ _)⟩
    · exact ⟨h,fun _=>.inr (Nat.le_add_right _ _)⟩

theorem Steps.onWriteComplete (h : s.SendSound crc32) (conn : UInt16) (status : ℤ) (env : Env) :
    Steps crc32 s (s.onWriteComplete conn status env) 0 0:=by
  unfold Transfer.onWriteComplete
  split
  · exact .of_sender h rfl
  · rename_i hactive
    have hbusy : s.send.state≠.idle:=fun hidle=>hactive (.inr (.inl hidle))
    split
    · exact .failSend h hbusy _
    · exact .of_sender h rfl

theorem sender_startReceiving (conn : UInt16) (now : UInt32) : (s.startReceiving conn now).sender=s.sender:=by
  have hview:=congrArg sender (exceptBonds_notePairing (s:={ s with recv:={ s.recv with
    buf:=some (List.replicate s.recv.totalLen 0),received:=0,lastProgress:=0,completeReceived:=false } })
    conn s.recv.persistent)
  exact hview

theorem Steps.onEncChange (h : s.SendSound crc32) (conn : UInt16) (status : ℤ) (env : Env) :
    Steps crc32 s (s.onEncChange conn status env) 0 0:=by
  unfold Transfer.onEncChange
  split
  · exact .of_sender h rfl
  · split
    · rename_i hmine
      have hbusy : s.send.state≠.idle:=by rw [hmine.1]; decide
      split
      · have hview:=exceptBonds_notePairing (s:=s) conn s.send.persistent
        have hnoted:=Steps.of_exceptBonds h hview
        have hsend : (s.notePairing conn s.send.persistent).send=s.send:=send_of_exceptBonds hview
        have hbusy' : (s.notePairing conn s.send.persistent).send.state≠.idle:=by rw [hsend]; exact hbusy
        refine hnoted.trans (.move hnoted.sound hbusy' ?_ ?_) id
        · exact ⟨rfl,rfl,rfl,rfl,rfl,rfl⟩
        · exact le_rfl
      · exact .failSend h hbusy _
    · split
      · split
        · split
          · exact .of_sender h rfl
          · exact .of_sender h (sender_startReceiving conn env.now)
        · exact .of_sender h rfl
      · exact .of_sender h rfl

theorem Steps.encChange (h : s.SendSound crc32) (conn : UInt16) (status : ℤ) (paired : Bool) (env : Env) :
    Steps crc32 s (s.encChange conn status paired env) 0 0:=by
  unfold Transfer.encChange
  split
  · rename_i link _
    dsimp only
    split
    · have hencrypted : (s.encrypt link paired).SendSound crc32:=h.congr rfl
      split
      · exact ⟨(Steps.onEncChange hencrypted conn status env).sound,(Steps.onEncChange hencrypted conn status env).budget⟩
      · exact .of_sender h rfl
    · split
      · exact .onEncChange h conn status env
      · exact .of_sender h rfl
  · exact .of_sender h rfl

/-- The payload of a send is kept, and nothing of it is written. -/
structure Kept (crc32 : Bytes→UInt32) (s : Transfer) (payload : Bytes) : Prop where
  log : ∃ log, s.sendLog=log++[.started payload] ∧ Ended crc32 log
  buf : s.send.buf=some payload
  totalLen : s.send.totalLen=payload.length
  bounded : payload.length ≤ kMaxPayloadBytes
  crc : s.send.crc=crc32 payload

theorem Kept.startConnecting {payload : Bytes} (h : Kept crc32 s payload) (peer : PeerAddr) (env : Env) :
    (s.startConnecting peer env).2.SendSound crc32 ∧
      ((s.startConnecting peer env).2.send.state=.idle ∨
        (s.startConnecting peer env).2.send.budget=SendState.connecting.stages+payload.length+1):=by
  obtain ⟨log,hsplit,hended⟩:=h.log
  have hsound : ((s.connectTo peer env.now).call (.connect peer)).SendSound crc32:=
    .underWay trivial hsplit hended (.start h.buf h.totalLen h.bounded h.crc rfl rfl rfl)
  unfold Transfer.startConnecting
  dsimp only
  split
  · refine ⟨hsound,.inr ?_⟩
    unfold SendSession.budget
    dsimp only [call,connectTo]
    rw [h.totalLen]
    simp
  · have hends:=hsound.teardownSend nofun (fun h=>absurd h Bool.false_ne_true) Reason.disconnected
    exact ⟨hends.1,.inl hends.2⟩

theorem SendSound.keepPayload (h : s.SendSound crc32) {mime data : Bytes} {persistent : Bool} {env : Env}
    (ht : s.keepPayload crc32 mime data persistent env=some t) :
    s.send.state=.idle ∧ Kept crc32 t data ∧
      t.send.sent=0 ∧ t.send.completeWritten=false ∧ t.send.doneFlag=false:=by
  unfold Transfer.keepPayload at ht
  split at ht
  · cases ht
  · rename_i hvalid
    obtain ⟨-,hvalid⟩:=not_or.mp hvalid
    have hbounded : data.length ≤ kMaxPayloadBytes:=Nat.not_lt.mp (not_or.mp hvalid).2
    split at ht
    · cases ht
    · rename_i hready
      have hidle : s.send.state=.idle:=not_not.mp (not_or.mp hready).1
      cases ht
      cases h with
      | idle _ hdone hended=>exact ⟨hidle,⟨⟨s.sendLog,rfl,hended⟩,rfl,rfl,hbounded,rfl⟩,rfl,rfl,hdone⟩
      | underWay hunder=>
        rw [hidle] at hunder
        exact hunder.elim

theorem Steps.sendTo (h : s.SendSound crc32) (peer : PeerAddr) (mime data : Bytes) (persistent : Bool) (env : Env) :
    Steps crc32 s (s.sendTo crc32 peer mime data persistent env).2 0 0:=by
  unfold Transfer.sendTo
  cases hkeep : s.keepPayload crc32 mime data persistent env with
  | none=>exact .of_sender h rfl
  | some t=>
    obtain ⟨hidle,hkept,-⟩:=h.keepPayload hkeep
    exact ⟨(hkept.startConnecting peer env).1,fun hbusy=>absurd hidle hbusy⟩

theorem Steps.beginInteractiveSend (h : s.SendSound crc32) (mime data : Bytes) (persistent : Bool) (env : Env) :
    Steps crc32 s (s.beginInteractiveSend crc32 mime data persistent env).2 0 0:=by
  unfold Transfer.beginInteractiveSend
  cases hkeep : s.keepPayload crc32 mime data persistent env with
  | none=>exact .of_sender h rfl
  | some t=>
    obtain ⟨hidle,hkept,hsent,hopen,hdone⟩:=h.keepPayload hkeep
    obtain ⟨log,hsplit,hended⟩:=hkept.log
    refine ⟨.underWay trivial hsplit hended ?_,fun hbusy=>absurd hidle hbusy⟩
    exact .start hkept.buf hkept.totalLen hkept.bounded hkept.crc hsent hopen hdone

theorem Steps.confirmInteractiveTarget (h : s.SendSound crc32) (peer : PeerAddr) (env : Env) :
    Steps crc32 s (s.confirmInteractiveTarget peer env).2 0 0:=by
  unfold Transfer.confirmInteractiveTarget
  split
  · exact .of_sender h rfl
  · rename_i hpicking
    have hstate : s.send.state=.pickingPeer:=not_not.mp hpicking
    cases h with
    | idle hidle=>exact absurd (hidle.symm.trans hstate) (by decide)
    | underWay _ hsplit hended hprogress=>
      obtain ⟨rfl,hsent,hopen,-⟩:=hprogress.early (by rw [hstate]; decide)
      have hkept : Kept crc32 (s.call .stopScan) _:=
        ⟨⟨_,hsplit,hended⟩,hprogress.buf,hprogress.totalLen,hprogress.bounded,hprogress.crc⟩
      obtain ⟨hsound,hbudget⟩:=hkept.startConnecting peer env
      refine ⟨hsound,fun _=>hbudget.imp id fun hbudget=>?_⟩
      rw [hbudget]
      unfold SendSession.budget
      rw [hstate,hsent,hopen,hprogress.totalLen]
      dsimp only [SendState.stages]
      rw [if_neg Bool.false_ne_true]
      omega

theorem Steps.cancelSend (h : s.SendSound crc32) : Steps crc32 s s.cancelSend 0 0:=by
  unfold Transfer.cancelSend
  split
  · exact .of_sender h rfl
  · have hends:=h.teardownSend ‹_› (fun h=>absurd h Bool.false_ne_true) Reason.userDeclined
    exact ⟨hends.1,fun _=>.inl hends.2⟩

theorem Steps.tick (h : s.SendSound crc32) (env : Env) : Steps crc32 s (s.tick crc32 env) (s.overdue env) 0:=by
  have hview : (((s.cleanupOnce env).flushLedger env).tickRecv crc32 env).sender=s.sender:=by
    have hexcept : (((s.cleanupOnce env).flushLedger env).tickRecv crc32 env).exceptRecv =
        ((s.cleanupOnce env).flushLedger env).exceptRecv:=exceptRecv_tickRecv env
    have hrecv:=congrArg sender hexcept
    have hflush:=congrArg sender (exceptBonds_flushLedger (s:=s.cleanupOnce env) env)
    have hcleanup:=congrArg sender (exceptBonds_cleanupOnce (s:=s) env)
    exact hrecv.trans (hflush.trans hcleanup)
  unfold Transfer.tick
  generalize ((s.cleanupOnce env).flushLedger env).tickRecv crc32 env=t at hview ⊢
  have hsend : t.send=s.send:=send_of_sender hview
  have hsound:=h.congr hview
  by_cases hbusy : s.send.state=.idle
  · refine ⟨?_,fun hnot=>absurd hbusy hnot⟩
    have hidle : t.tickSend env=t:=by
      unfold Transfer.tickSend
      rw [hsend,hbusy]
    rw [hidle]
    exact hsound
  · have hspends:=Spends.tickSend hsound (by rw [hsend]; exact hbusy) env
    refine ⟨hspends.sound,fun _=>hspends.budget.imp id fun hless=>?_⟩
    have hdue : t.overdue env=s.overdue env:=by
      unfold overdue
      rw [hsend]
    rw [hdue,hsend] at hless
    exact hless

theorem Steps.stop (h : s.SendSound crc32) (env : Env) : Steps crc32 s (s.stop env) 0 0:=by
  have hrecv:=h.recvs exceptRecv_abandonRecv
  have hends : s.abandonRecv.abandonSend.SendSound crc32 ∧ s.abandonRecv.abandonSend.send.state=.idle:=by
    unfold abandonSend
    split
    · exact hrecv.teardownSend ‹_› (fun h=>absurd h Bool.false_ne_true) _
    · exact ⟨hrecv,not_not.mp ‹_›⟩
  have hview:=exceptBonds_forgetAllSessionPeers (s:=s.abandonRecv.abandonSend) env
  refine ⟨(hends.1.bonds hview).congr rfl,fun _=>.inl ?_⟩
  have hidle : (s.abandonRecv.abandonSend.forgetAllSessionPeers env).send.state=.idle:=by
    rw [send_of_exceptBonds hview]
    exact hends.2
  exact hidle

theorem sendSound_fresh (crc32 : Bytes→UInt32) (hsend : s.send={}) (hlog : s.sendLog=[]) : s.SendSound crc32:=
  .idle (by rw [hsend]) (by rw [hsend]) (by rw [hlog]; exact .nil)

def timesUp (s : Transfer) : Event → ℕ
  | .tick env=>s.overdue env
  | _=>0

theorem timesUp_le_one (s : Transfer) (e : Event) : s.timesUp e ≤ 1:=by
  cases e <;> first | exact overdue_le _ | exact Nat.zero_le _

def queuedTaken (s : Transfer) : Event → ℕ
  | .notification conn data env=>if s.Takes conn data env .queued then 1 else 0
  | _=>0

theorem Steps.hear (h : s.SendSound crc32) {conn : UInt16} {callback : Link→Transfer→Transfer} {gained : ℕ}
    (hcall : ∀ link, s.links conn=some link → s.listening=true → Steps crc32 s (callback link s) 0 gained) :
    Steps crc32 s (s.hear conn callback) 0 gained:=by
  have hsame : Steps crc32 s s 0 gained:=⟨h,fun _=>.inr (Nat.le_add_right _ _)⟩
  unfold Transfer.hear
  split
  · split
    · exact hcall _ ‹_› ‹_›
    · exact hsame
  · exact hsame

theorem Steps.step (h : s.SendSound crc32) {e : Event} (hheeds : s.SendHeeds e) :
    Steps crc32 s (Transfer.step crc32 s e) (s.timesUp e) (s.queuedTaken e):=by
  cases e with
  | linkUp conn peer env=>exact .linkUp h hheeds
  | linkDown conn env=>exact .linkDown h conn env
  | controlWrite conn data env=>
    dsimp only [Transfer.step]
    apply Steps.hear h
    exact fun _ _ _=>.of_exceptRecv h (exceptRecv_onControlWrite _ _ _ _)
  | dataWrite conn data env=>
    refine .of_exceptRecv h ?_
    dsimp only [Transfer.step]
    unfold Transfer.dataWrite
    split
    · dsimp only
      split
      · exact exceptRecv_onDataWrite _ _ _
      · rfl
    · rfl
  | encChange conn status paired env=>exact .encChange h conn status paired env
  | serviceDiscovered conn svc complete env=>
    dsimp only [Transfer.step]
    apply Steps.hear h
    exact fun _ _ _=>.onServiceDiscovered h conn svc complete env
  | notification conn data env=>
    dsimp only [Transfer.step]
    apply Steps.hear h
    exact fun link hlink hlistening=>.onNotification h hlink hlistening hheeds
  | writeComplete conn status env=>
    dsimp only [Transfer.step]
    apply Steps.hear h
    exact fun _ _ _=>.onWriteComplete h conn status env
  | showConsent=>
    refine .of_exceptRecv h ?_
    dsimp only [Transfer.step]
    unfold Transfer.showConsent
    split <;> rfl
  | respondConsent accept env=>exact .of_exceptRecv h (exceptRecv_respondConsent accept env)
  | tick env=>exact .tick h env
  | sendTo peer mime data persistent env=>exact .sendTo h peer mime data persistent env
  | beginInteractiveSend mime data persistent env=>exact .beginInteractiveSend h mime data persistent env
  | takeInteractiveRequest=>exact .of_sender h rfl
  | confirmInteractiveTarget peer env=>exact .confirmInteractiveTarget h peer env
  | cancelSend=>exact .cancelSend h
  | consumeResult=>exact .of_sender h rfl
  | start=>exact .of_sender h rfl
  | stop env=>exact .stop h env
  | reboot=>exact ⟨sendSound_fresh crc32 rfl rfl,fun _=>.inl rfl⟩

end Sends

end Transfer

/-- Each send that was started has had one result, but for one under way, and a good one only if the payload was
whole. -/
def OneResultEach (crc32 : Bytes→UInt32) (s : Transfer) : Prop:=∃ log, Ended crc32 log ∧
  (s.send.state=.idle ∧ s.sendLog=log ∨
    s.send.state≠.idle ∧ ∃ payload es, s.sendLog=log++.started payload::es ∧ ∀ e∈es, e.IsInner)

section Runs

variable {crc32 : Bytes→UInt32}

theorem Transfer.SendSound.oneResultEach {s : Transfer} (h : s.SendSound crc32) : OneResultEach crc32 s:=by
  cases h with
  | idle hidle _ hended=>exact ⟨_,hended,.inl ⟨hidle,rfl⟩⟩
  | underWay hunder hsplit hended hprogress=>
    refine ⟨_,hended,.inr ⟨?_,_,_,hsplit,hprogress.inner⟩⟩
    intro hidle
    rw [hidle] at hunder
    exact hunder

theorem Transfer.SendSound.budget_le {s : Transfer} (h : s.SendSound crc32) (hbusy : s.send.state≠.idle) :
    s.send.budget ≤ kMaxPayloadBytes+7:=by
  cases h with
  | idle hidle=>exact absurd hidle hbusy
  | underWay _ _ _ hprogress=>
    have hbounded:=hprogress.bounded
    have hstages : s.send.state.stages ≤ 5:=by cases s.send.state <;> decide
    unfold SendSession.budget
    rw [hprogress.totalLen]
    split <;> split <;> omega

/-- A send that is under way all along a run finds its time up no more often than it has budget for. -/
theorem timesUp_le {s : Transfer} {es : List Event} (h : s.SendSound crc32)
    (hheeds : AlongRun (Transfer.step crc32) Transfer.SendHeeds s es)
    (hbusy : AlongRun (Transfer.step crc32) (fun s _=>s.send.state≠.idle) s es) :
    sumAlong (Transfer.step crc32) Transfer.timesUp s es ≤
      s.send.budget+1+sumAlong (Transfer.step crc32) Transfer.queuedTaken s es:=by
  induction es generalizing s with
  | nil=>exact Nat.zero_le _
  | cons e es ih=>
    have hstep:=Transfer.Steps.step h hheeds.1
    have hrest:=ih hstep.sound hheeds.2 hbusy.2
    dsimp only [sumAlong]
    rcases hstep.budget hbusy.1 with hidle | hless
    · cases es with
      | nil=>
        have hone:=Transfer.timesUp_le_one s e
        dsimp only [sumAlong]
        omega
      | cons e' es=>exact absurd hidle hbusy.2.1
    · omega

/-- In every run in which a DONE is taken after the COMPLETE only and no link comes up behind the handle that a payload
goes to, each send has one result, good only for a payload that went whole, and one that is under way ends as soon as
its time has been up often enough, for which its peer's QUEUED gives it more time. -/
theorem sends_end_once (es : List Event) (hheeds : AlongRun (Transfer.step crc32) Transfer.SendHeeds {} es) :
    OneResultEach crc32 (run (Transfer.step crc32) {} es) ∧
      ∀ later, AlongRun (Transfer.step crc32) Transfer.SendHeeds (run (Transfer.step crc32) {} es) later →
        AlongRun (Transfer.step crc32) (fun s _=>s.send.state≠.idle) (run (Transfer.step crc32) {} es) later →
        sumAlong (Transfer.step crc32) Transfer.timesUp (run (Transfer.step crc32) {} es) later ≤
          kMaxPayloadBytes+8 +
            sumAlong (Transfer.step crc32) Transfer.queuedTaken (run (Transfer.step crc32) {} es) later:=by
  have hfresh : Transfer.SendSound crc32 {}:=Transfer.sendSound_fresh crc32 rfl rfl
  have hsound : Transfer.SendSound crc32 (run (Transfer.step crc32) {} es):=
    run_invariant (I:=Transfer.SendSound crc32) (fun _ _ hh h=>(Transfer.Steps.step h hh).sound) hfresh hheeds
  refine ⟨hsound.oneResultEach,fun later hlater hbusy=>?_⟩
  have htimes:=timesUp_le hsound hlater hbusy
  cases later with
  | nil=>exact Nat.zero_le _
  | cons e later=>
    have hbudget:=hsound.budget_le hbusy.1
    omega

end Runs

def target : PeerAddr:={addr:=zeros 6,addrType:=0}

def crcOf55 (_ : Bytes) : UInt32:=0xC9034AF6

def sendRun : List Event:=[.start,.sendTo target [0x74] [0x55] false {},.linkUp 1 target {}]

def acceptRun : List Event:=[
  .tick {},
  .serviceDiscovered 1 (some {ctrl:=2,status:=4,data:=7}) true {},
  .tick {},
  .notification 1 [0x01] {},
  .tick {},
  .encChange 1 0 true {}]

/-- The byte is streamed and the peer says DONE, or it stays silent until the time is up. -/
theorem sends_end_once_acceptRun :
    OneResultEach crcOf55
        (run (Transfer.step crcOf55) {} (sendRun++acceptRun++[.tick {},.notification 1 [0x04] {},.tick {}])) ∧
      .result true∈(run (Transfer.step crcOf55) {}
        (sendRun++acceptRun++[.tick {},.notification 1 [0x04] {},.tick {}])).sendLog ∧
      sumAlong (Transfer.step crcOf55) Transfer.timesUp (run (Transfer.step crcOf55) {} (sendRun++acceptRun))
        [.tick {},.tick {now:=8001}] ≤ kMaxPayloadBytes+8 +
          sumAlong (Transfer.step crcOf55) Transfer.queuedTaken (run (Transfer.step crcOf55) {} (sendRun++acceptRun))
            [.tick {},.tick {now:=8001}]:=
  ⟨(sends_end_once _ (by decide +kernel)).1,by decide +kernel,
    (sends_end_once (sendRun++acceptRun) (by decide +kernel)).2 _ (by decide +kernel) (by decide +kernel)⟩

theorem Ended.complete_of_true {crc32 : Bytes→UInt32} {log : List SendEntry} (h : Ended crc32 log)
    (hok : .result true∈log) : ∃ link crc, .complete link crc∈log:=by
  induction h with
  | nil=>cases hok
  | @send log es payload ok _ hinner hwhole ih=>
    have hcases : .result true∈log ∨ .result true∈es ∨ ok=true:=by simpa [or_assoc,eq_comm] using hok
    rcases hcases with hmem | hmem | hok
    · obtain ⟨link,crc,hcomplete⟩:=ih hmem
      exact ⟨link,crc,by simp [hcomplete]⟩
    · exact (hinner _ hmem).elim
    · obtain ⟨link,chunks,n,rfl,-⟩:=hwhole hok
      exact ⟨some link,crc32 payload,by simp⟩

/-- A peer that says DONE as soon as it is connected is believed, though nothing could be written to it. -/
theorem sends_nothing : ¬∀ es : List Event, OneResultEach crcOf55 (run (Transfer.step crcOf55) {} es):=by
  intro hall
  obtain ⟨log,hended,hlog⟩:=hall (sendRun++[.notification 1 [0x04] {}]++acceptRun ++
    [.tick {writes:=[false]},.tick {}])
  have hrun : (run (Transfer.step crcOf55) {} (sendRun++[.notification 1 [0x04] {}]++acceptRun ++
      [.tick {writes:=[false]},.tick {}])).sendLog =
      [.started [0x55],.done {serial:=0,peer:=target},.result true]:=by
    decide +kernel
  have hidle : (run (Transfer.step crcOf55) {} (sendRun++[.notification 1 [0x04] {}]++acceptRun ++
      [.tick {writes:=[false]},.tick {}])).send.state=.idle:=by
    decide +kernel
  rcases hlog with ⟨-,rfl⟩ | ⟨hbusy,-⟩
  · rw [hrun] at hended
    obtain ⟨link,crc,hcomplete⟩:=hended.complete_of_true (by simp)
    simp at hcomplete
  · exact hbusy hidle

end CdcBadge.Msg
