import CdcBadge.MessageFrames
import CdcBadge.Runs

/-!
# Badge-to-badge messages: what is received

A payload that a handler gets is the one that the peer of an accepted offer wrote over
its encrypted link, as long as none of its data is missed, a consent is about the offer
that it is taken for, and no other peer gets the handle that the receiver goes by. A
missed disconnect leaves the handle in the receive record, for the next peer behind it.
-/

namespace CdcBadge.Msg

open Runs

def RecvEntry.chunkOf (link : Link) : RecvEntry→Option Bytes
  | .chunk l payload=>if l=link then some payload else none
  | _=>none

def RecvEntry.completeOf (link : Link) : RecvEntry→Option UInt32
  | .complete l crc=>if l=link then some crc else none
  | _=>none

def chunksOf (link : Link) (log : List RecvEntry) : Bytes:=(log.filterMap (RecvEntry.chunkOf link)).flatten

def lastComplete (link : Link) (log : List RecvEntry) : Option UInt32:=
  (log.filterMap (RecvEntry.completeOf link)).getLast?

/-- The consent is one to this offer: the user said yes when asked about it, or it is persistent and its peer is a
session peer. -/
def Consent.To (o : Offer) : Consent→Prop
  | .user shown=>shown=some o
  | .session trusted=>o.persist=true ∧ trusted=true

def Undelivered (log : List RecvEntry) : Prop:=∀ d, RecvEntry.delivered d ∉ log

/-- The offer waits: nobody has accepted it. -/
structure Waiting (log : List RecvEntry) (o : Offer) : Prop where
  offered : .offered o∈log
  unaccepted : ∀ c, .accepted o c ∉ log

/-- The offer has been accepted, once, and nothing has been delivered since. -/
def Accepted (log : List RecvEntry) (o : Offer) : Prop:=
  ∃ l₁ c l₂, log=l₁++.accepted o c::l₂ ∧ Waiting l₁ o ∧ c.To o ∧ Undelivered l₂

/-- Since then the link of the offer was encrypted, and its peer has written these bytes after that, and this code. -/
def Written (log : List RecvEntry) (o : Offer) (data : Bytes) (crc : Option UInt32) : Prop:=
  ∃ l₁ l₂, log=l₁++.encrypted o.link::l₂ ∧ Accepted l₁ o ∧ Undelivered l₂ ∧
    chunksOf o.link l₂=data ∧ lastComplete o.link l₂=crc

/-- Every payload that was delivered was written whole by the peer of an accepted offer. -/
def Rightful (crc32 : Bytes→UInt32) (log : List RecvEntry) : Prop:=∀ before data after,
  log=before++.delivered data::after →
    ∃ o, Written before o data (some (crc32 data)) ∧ data.length=o.totalLen

section Log

variable {log es : List RecvEntry} {o : Offer} {data : Bytes} {crc : Option UInt32} {link : Link}

theorem chunksOf_append : chunksOf link (log++es)=chunksOf link log++chunksOf link es:=by
  simp [chunksOf]

theorem lastComplete_append : lastComplete link (log++es)=(lastComplete link es).or (lastComplete link log):=by
  rw [lastComplete,List.filterMap_append,List.getLast?_append]
  rfl

theorem undelivered_nil : Undelivered []:=fun _=>List.not_mem_nil

theorem Undelivered.append (h : Undelivered log) (hes : Undelivered es) : Undelivered (log++es):=by
  intro d hd
  rcases List.mem_append.mp hd with hd | hd
  · exact h d hd
  · exact hes d hd

theorem Waiting.append (h : Waiting log o) (hes : ∀ c, .accepted o c ∉ es) : Waiting (log++es) o where
  offered:=List.mem_append_left es h.offered
  unaccepted c hc:=by
    rcases List.mem_append.mp hc with hc | hc
    · exact h.unaccepted c hc
    · exact hes c hc

theorem Accepted.append (h : Accepted log o) (hes : Undelivered es) : Accepted (log++es) o:=by
  obtain ⟨l₁,c,l₂,rfl,hwaiting,hconsent,hundelivered⟩:=h
  exact ⟨l₁,c,l₂++es,by simp,hwaiting,hconsent,hundelivered.append hes⟩

theorem Written.append (h : Written log o data crc) (hes : Undelivered es) :
    Written (log++es) o (data++chunksOf o.link es) ((lastComplete o.link es).or crc):=by
  obtain ⟨l₁,l₂,rfl,haccepted,hundelivered,rfl,rfl⟩:=h
  exact ⟨l₁,l₂++es,by simp,haccepted,hundelivered.append hes,chunksOf_append,lastComplete_append⟩

theorem Waiting.accept (h : Waiting log o) {c : Consent} (hc : c.To o) : Accepted (log++[.accepted o c]) o:=
  ⟨log,c,[],rfl,h,hc,undelivered_nil⟩

theorem Accepted.encrypt (h : Accepted log o) : Written (log++[.encrypted o.link]) o [] none:=
  ⟨log,[],rfl,h,undelivered_nil,rfl,rfl⟩

theorem Accepted.before_encrypted (h : Accepted (log++[.encrypted link]) o) : Accepted log o:=by
  obtain ⟨l₁,c,l₂,hsplit,hwaiting,hconsent,hundelivered⟩:=h
  rcases List.eq_nil_or_concat l₂ with rfl | ⟨l₂,x,rfl⟩
  · obtain ⟨-,hlast⟩:=List.append_inj' hsplit rfl
    cases hlast
  · rw [List.concat_eq_append,← List.cons_append,← List.append_assoc] at hsplit
    obtain ⟨rfl,-⟩:=List.append_inj' hsplit rfl
    exact ⟨l₁,c,l₂,rfl,hwaiting,hconsent,fun d hd=>hundelivered d (by simp [hd])⟩

theorem Accepted.offered (h : Accepted log o) : .offered o∈log:=by
  obtain ⟨l₁,c,l₂,rfl,hwaiting,-,-⟩:=h
  exact List.mem_append_left _ hwaiting.offered

theorem Written.offered (h : Written log o data crc) : .offered o∈log:=by
  obtain ⟨l₁,l₂,rfl,haccepted,-,-,-⟩:=h
  exact List.mem_append_left _ haccepted.offered

theorem Written.accepted (h : Written log o data crc) :
    ∃ l₁ c l₂, log=l₁++.accepted o c::l₂ ∧ Waiting l₁ o ∧ Undelivered l₂:=by
  obtain ⟨_,l₃,rfl,⟨l₁,c,l₂,rfl,hwaiting,-,hundelivered⟩,hundelivered',-,-⟩:=h
  refine ⟨l₁,c,l₂++.encrypted o.link::l₃,by simp,hwaiting,fun d hd=>?_⟩
  rcases List.mem_append.mp hd with hd | hd
  · exact hundelivered d hd
  · exact hundelivered' d (by simpa using hd)

theorem Rightful.append {crc32 : Bytes→UInt32} (h : Rightful crc32 log) (hes : Undelivered es) :
    Rightful crc32 (log++es):=by
  intro before d after hsplit
  rcases List.append_eq_append_iff.mp hsplit with ⟨l,rfl,hes'⟩ | ⟨l,hlog,hafter⟩
  · exact absurd (by rw [hes']; simp) (hes d)
  · cases l with
    | nil=>
      rw [List.nil_append] at hafter
      exact absurd (by rw [← hafter]; simp) (hes d)
    | cons x l=>
      obtain ⟨rfl,rfl⟩:=List.cons.inj hafter
      exact h before d l hlog

theorem Rightful.deliver {crc32 : Bytes→UInt32} (h : Rightful crc32 log)
    (hwritten : Written log o data (some (crc32 data))) (hlen : data.length=o.totalLen) :
    Rightful crc32 (log++[.delivered data]):=by
  intro before d after hsplit
  rcases List.eq_nil_or_concat after with rfl | ⟨after,x,rfl⟩
  · obtain ⟨rfl,hd⟩:=List.append_inj' hsplit rfl
    cases hd
    exact ⟨o,hwritten,hlen⟩
  · rw [List.concat_eq_append,← List.cons_append,← List.append_assoc] at hsplit
    obtain ⟨rfl,-⟩:=List.append_inj' hsplit rfl
    exact h before d after rfl

end Log

namespace Transfer

def receiver (s : Transfer) : Transfer where
  recv:=s.recv
  queue:=s.queue
  links:=s.links
  nextSerial:=s.nextSerial
  nextOffer:=s.nextOffer
  recvLog:=s.recvLog

/-- Nobody else is behind the offer's handle, and its link has no other. -/
def Behind (links : UInt16→Option Link) (o : Offer) : Prop:=
  ∀ j link, links j=some link→(link=o.link ↔ j=o.conn)

/-- The record is of this offer. -/
structure Carries (recv : RecvSession) (links : UInt16→Option Link) (o : Offer) : Prop where
  offer : recv.offer=some o
  conn : recv.conn=o.conn
  totalLen : recv.totalLen=o.totalLen
  behind : Behind links o

/-- The bytes in the buffer are those that the peer has written. -/
structure Gathers (recv : RecvSession) (log : List RecvEntry) (o : Offer) (data : Bytes) : Prop where
  buf : ∃ buf, recv.buf=some buf ∧ buf.take recv.received=data
  received : data.length=recv.received
  written : Written log o data (if recv.completeReceived then some recv.expectedCrc else none)
  complete : recv.completeReceived=true → recv.received=recv.totalLen

/-- The record is as far as its offer, unless the transfer has failed. -/
def RecordHolds (s : Transfer) : Prop:=s.recv.failFlag=false →
  match s.recv.state with
  | .awaitingConsent=>∃ o, Carries s.recv s.links o ∧ Waiting s.recvLog o ∧ ∀ i, s.queue i≠some o
  | .awaitingEncrypt=>∃ o, Carries s.recv s.links o ∧ Accepted s.recvLog o
  | .receiving=>∃ o data, Carries s.recv s.links o ∧ Gathers s.recv s.recvLog o data
  | _=>True

/-- The links differ, the queued offers wait and nobody else is behind their handles, and the record holds. -/
structure RecvSound (crc32 : Bytes→UInt32) (s : Transfer) : Prop where
  links : ∀ i j link, s.links i=some link → s.links j=some link→i=j
  serials : ∀ i link, s.links i=some link→link.serial < s.nextSerial
  ids : ∀ o, .offered o∈s.recvLog → o.id < s.nextOffer ∧ o.link.serial < s.nextSerial
  accepted : ∀ o c, .accepted o c∈s.recvLog → .offered o∈s.recvLog
  queue : ∀ i o, s.queue i=some o→Behind s.links o ∧ Waiting s.recvLog o
  distinct : ∀ i j o, s.queue i=some o → s.queue j=some o→i=j
  record : s.RecordHolds
  rightful : Rightful crc32 s.recvLog

/-- The receiver still has to do with what is behind this handle. -/
def Held (s : Transfer) (conn : UInt16) : Prop:=
  (∃ i, (s.queue i).map Offer.conn=some conn) ∨
    (s.recv.conn=conn ∧ s.recv.failFlag=false ∧
      (s.recv.state=.awaitingConsent ∨ s.recv.state=.awaitingEncrypt ∨ s.recv.state=.receiving))

/-- No link comes up behind a handle that the receiver still has to do with, no data that it waits for is missed, and
the user says yes about the offer that waits. -/
def RecvHeeds (s : Transfer) : Event→Prop
  | .linkUp conn _ _=>s.links conn=none→¬s.Held conn
  | .dataWrite conn data env=>s.recv.state=.receiving → s.recv.conn=conn → s.recv.failFlag=false →
      ∀ link∈s.links conn, dataEntries link data≠[] → s.listening=true ∧ env.locked=true
  | .respondConsent accept _=>accept=true → s.recv.state=.awaitingConsent → s.recv.failFlag=false →
      s.shown=s.recv.offer
  | _=>True

instance (s : Transfer) (conn : UInt16) : Decidable (s.Held conn):=inferInstanceAs (Decidable (_ ∨ _))

instance (s : Transfer) : DecidablePred s.RecvHeeds
  | .linkUp .. => inferInstanceAs (Decidable (_→¬_))
  | .dataWrite .. => inferInstanceAs (Decidable (_ → _ → _ → _))
  | .respondConsent .. => inferInstanceAs (Decidable (_ → _ → _ → _))
  | .linkDown .. | .controlWrite .. | .encChange .. | .serviceDiscovered .. | .notification .. | .writeComplete ..
  | .showConsent | .tick .. | .sendTo .. | .beginInteractiveSend .. | .takeInteractiveRequest
  | .confirmInteractiveTarget .. | .cancelSend | .consumeResult | .start | .stop .. | .reboot=>.isTrue trivial

section Record

variable {crc32 : Bytes→UInt32} {s t : Transfer} {o : Offer} {link : Link} {conn : UInt16}

theorem RecvSound.congr (h : s.RecvSound crc32) (ht : t.receiver=s.receiver) : t.RecvSound crc32:=by
  have hs : s.receiver.RecvSound crc32:=⟨h.links,h.serials,h.ids,h.accepted,h.queue,h.distinct,h.record,h.rightful⟩
  rw [← ht] at hs
  exact ⟨hs.links,hs.serials,hs.ids,hs.accepted,hs.queue,hs.distinct,hs.record,hs.rightful⟩

theorem RecvSound.calls (h : s.RecvSound crc32) (ht : t.essential=s.essential) : t.RecvSound crc32:=by
  have hview : t.essential.receiver=s.essential.receiver:=congrArg receiver ht
  exact h.congr hview

theorem RecvSound.bonds (h : s.RecvSound crc32) (ht : t.exceptBonds=s.exceptBonds) : t.RecvSound crc32:=by
  have hview : t.exceptBonds.receiver=s.exceptBonds.receiver:=congrArg receiver ht
  exact h.congr hview

theorem RecvSound.sends (h : s.RecvSound crc32) (ht : t.exceptSend=s.exceptSend) : t.RecvSound crc32:=by
  have hview : t.exceptSend.receiver=s.exceptSend.receiver:=congrArg receiver ht
  exact h.congr hview

theorem Carries.behind_eq {recv : RecvSession} {links : UInt16→Option Link} (h : Carries recv links o)
    (hlink : links recv.conn=some link) : link=o.link:=
  (h.behind _ _ hlink).mpr h.conn

theorem RecvSound.setRecord (h : s.RecvSound crc32) (hlinks : t.links=s.links) (hserial : t.nextSerial=s.nextSerial)
    (hoffer : t.nextOffer=s.nextOffer) (hlog : t.recvLog=s.recvLog)
    (hqueue : ∀ i o, t.queue i=some o → s.queue i=some o) (hrecord : t.RecordHolds) : t.RecvSound crc32 where
  links:=by rw [hlinks]; exact h.links
  serials:=by rw [hlinks,hserial]; exact h.serials
  ids:=by rw [hlog,hserial,hoffer]; exact h.ids
  accepted:=by rw [hlog]; exact h.accepted
  queue i o hi:=by rw [hlinks,hlog]; exact h.queue i o (hqueue i o hi)
  distinct i j o hi hj:=h.distinct i j o (hqueue i o hi) (hqueue j o hj)
  record:=hrecord
  rightful:=by rw [hlog]; exact h.rightful

/-- Entries that neither offer, accept nor deliver are logged, and the record changes with them. -/
theorem RecvSound.note (h : s.RecvSound crc32) {r : RecvSession} {es : List RecvEntry} (hoffered : ∀ o, .offered o ∉ es)
    (haccepted : ∀ o c, .accepted o c ∉ es) (hdelivered : Undelivered es)
    (hrecord : RecordHolds {s with recv:=r,recvLog:=s.recvLog++es}) :
    RecvSound crc32 {s with recv:=r,recvLog:=s.recvLog++es} where
  links:=h.links
  serials:=h.serials
  ids o ho:=by
    rcases List.mem_append.mp ho with ho | ho
    · exact h.ids o ho
    · exact absurd ho (hoffered o)
  accepted o c ho:=by
    rcases List.mem_append.mp ho with ho | ho
    · exact List.mem_append_left es (h.accepted o c ho)
    · exact absurd ho (haccepted o c)
  queue i o hi:=⟨(h.queue i o hi).1,(h.queue i o hi).2.append (haccepted o)⟩
  distinct:=h.distinct
  record:=hrecord
  rightful:=h.rightful.append hdelivered

theorem RecordHolds.note (h : s.RecordHolds) {es : List RecvEntry} (haccepted : ∀ o c, .accepted o c ∉ es)
    (hdelivered : Undelivered es)
    (hquiet : s.recv.failFlag=false → s.recv.state=.receiving→∀ o, Carries s.recv s.links o →
      chunksOf o.link es=[] ∧ lastComplete o.link es=none) :
    RecordHolds {s with recvLog:=s.recvLog++es}:=by
  intro hfail
  have hholds:=h hfail
  dsimp only at hfail hholds ⊢
  cases hstate : s.recv.state <;> rw [hstate] at hholds <;> try trivial
  case awaitingConsent=>
    obtain ⟨o,hcarries,hwaiting,hqueue⟩:=hholds
    exact ⟨o,hcarries,hwaiting.append (haccepted o),hqueue⟩
  case awaitingEncrypt=>
    obtain ⟨o,hcarries,hacc⟩:=hholds
    exact ⟨o,hcarries,hacc.append hdelivered⟩
  case receiving=>
    obtain ⟨o,data,hcarries,hgathers⟩:=hholds
    obtain ⟨hchunks,hcomplete⟩:=hquiet hfail hstate o hcarries
    have hwritten:=hgathers.written.append hdelivered
    rw [hchunks,hcomplete,List.append_nil,Option.none_or] at hwritten
    exact ⟨o,data,hcarries,hgathers.buf,hgathers.received,hwritten,hgathers.complete⟩

theorem RecvSound.failRecv (h : s.RecvSound crc32) (reason : Reason) : (s.failRecv reason).RecvSound crc32:=
  h.setRecord rfl rfl rfl rfl (fun _ _ hi=>hi) fun hfail=>absurd hfail (by simp [Transfer.failRecv])

theorem RecvSound.resetRecv (h : s.RecvSound crc32) : s.resetRecv.RecvSound crc32:=
  h.setRecord rfl rfl rfl rfl (fun _ _ hi=>hi) fun _=>trivial

theorem receiver_teardownRecv (sendError : Bool) (reason : Reason) :
    (s.teardownRecv sendError reason).receiver=s.resetRecv.receiver:=by
  have hnotified:=congrArg (fun v=>v.resetRecv.receiver) (essential_notifyStatusByte (s:=s) s.recv.conn .error reason)
  unfold teardownRecv
  dsimp only
  split
  · split
    · exact hnotified
    · rfl
  · split
    · exact hnotified
    · rfl

theorem RecvSound.teardownRecv (h : s.RecvSound crc32) (sendError : Bool) (reason : Reason) :
    (s.teardownRecv sendError reason).RecvSound crc32:=
  h.resetRecv.congr (receiver_teardownRecv sendError reason)

theorem RecvSound.shrink (h : s.RecvSound crc32) {queue : Fin kOfferQueueDepth→Option Offer}
    (hqueue : ∀ i o, queue i=some o → s.queue i=some o) : RecvSound crc32 {s with queue:=queue}:=by
  refine h.setRecord rfl rfl rfl rfl hqueue fun hfail=>?_
  have hholds:=h.record hfail
  dsimp only at hfail hholds ⊢
  cases hstate : s.recv.state <;> rw [hstate] at hholds <;> try trivial
  obtain ⟨o,hcarries,hwaiting,hnot⟩:=hholds
  exact ⟨o,hcarries,hwaiting,fun i hi=>hnot i (hqueue i o hi)⟩

theorem RecvSound.dropQueuedForConn (h : s.RecvSound crc32) (conn : UInt16) :
    (s.dropQueuedForConn conn).RecvSound crc32:=
  h.shrink fun i o hi=>by
    obtain ⟨hi,-⟩:=Option.filter_eq_some_iff.mp hi
    exact hi

theorem queue_dropOffer {i j : Fin kOfferQueueDepth} (hj : (s.dropOffer i).queue j=some o) :
    j≠i ∧ s.queue j=some o:=by
  by_cases hji : j=i
  · subst hji
    simp [dropOffer] at hj
  · exact ⟨hji,by simpa [dropOffer,hji] using hj⟩

theorem RecvSound.dropOffer (h : s.RecvSound crc32) (i : Fin kOfferQueueDepth) : (s.dropOffer i).RecvSound crc32:=
  h.shrink fun _ _ hj=>(queue_dropOffer hj).2

theorem RecvSound.accept (h : s.RecvSound crc32) {c : Consent} {now : UInt32} (hcarries : Carries s.recv s.links o)
    (hwaiting : Waiting s.recvLog o) (hqueue : ∀ i, s.queue i≠some o) (hconsent : c.To o) :
    (s.accept c now).RecvSound crc32:=by
  have hview : (s.accept c now).receiver=Transfer.receiver { s with
      recv:={s.recv with state:=.awaitingEncrypt,stateStartMs:=now}
      recvLog:=s.recvLog++[.accepted o c] }:=by
    have hentry : (s.recv.offer.map fun o=>RecvEntry.accepted o c).toList=[.accepted o c]:=by
      rw [hcarries.offer]
      rfl
    rw [← hentry]
    unfold Transfer.accept notifyStatus notifyFrame awaitPairing
    split
    · dsimp only
      split <;> rfl
    · dsimp only [call]
      split <;> rfl
  refine RecvSound.congr ?_ hview
  have hundelivered : Undelivered [RecvEntry.accepted o c]:=by simp [Undelivered]
  exact {
    links:=h.links
    serials:=h.serials
    ids:=fun o' ho'=>h.ids o' (by simpa using ho')
    accepted:=fun o' c' ho'=>by
      rcases List.mem_append.mp ho' with ho' | ho'
      · exact List.mem_append_left _ (h.accepted o' c' ho')
      · obtain ⟨rfl,-⟩ : o'=o ∧ c'=c:=by simpa using ho'
        exact List.mem_append_left _ hwaiting.offered
    queue:=fun i o' hi=>⟨(h.queue i o' hi).1,(h.queue i o' hi).2.append fun c' hc'=>by
      obtain ⟨rfl,-⟩ : o'=o ∧ c'=c:=by simpa using hc'
      exact hqueue i hi⟩
    distinct:=h.distinct
    record:=fun _=>⟨o,⟨hcarries.offer,hcarries.conn,hcarries.totalLen,hcarries.behind⟩,hwaiting.accept hconsent⟩
    rightful:=h.rightful.append hundelivered }

theorem RecvSound.promote (h : s.RecvSound crc32) {i : Fin kOfferQueueDepth} (hi : s.queue i=some o)
    (hidle : s.recv.state=.idle) {autoAccept : Bool} {now : UInt32}
    (hauto : autoAccept=true → o.persist=true ∧ s.isSessionPeer o.link.peer=true) :
    (s.promote i o autoAccept now).RecvSound crc32:=by
  have hnot (j : Fin kOfferQueueDepth) : (s.takeOffer i o now).queue j≠some o:=fun hj=>
    (queue_dropOffer hj).1 (h.distinct j i o (queue_dropOffer hj).2 hi)
  have hcarries : Carries (s.takeOffer i o now).recv s.links o:=⟨rfl,rfl,rfl,(h.queue i o hi).1⟩
  have htaken : (s.takeOffer i o now).RecvSound crc32:=by
    refine h.setRecord rfl rfl rfl rfl (fun _ _ hj=>(queue_dropOffer hj).2) fun _=>?_
    have hstate : (s.takeOffer i o now).recv.state=.idle:=hidle
    rw [hstate]
    trivial
  unfold Transfer.promote
  dsimp only
  split
  · exact htaken.accept hcarries (h.queue i o hi).2 hnot (hauto ‹_›)
  · exact htaken.setRecord rfl rfl rfl rfl (fun _ _ hj=>hj) fun _=>
      ⟨o,⟨rfl,rfl,rfl,hcarries.behind⟩,(h.queue i o hi).2,hnot⟩

theorem RecvSound.promoteNextOffer (h : s.RecvSound crc32) (hidle : s.recv.state=.idle) (now : UInt32) :
    (s.promoteNextOffer now).RecvSound crc32:=by
  have hbusy (conn : UInt16) (i : Fin kOfferQueueDepth) : ((s.notifyStatus conn .busy).dropOffer i).RecvSound crc32:=
    (h.calls (essential_notifyStatus _ _)).dropOffer i
  unfold Transfer.promoteNextOffer
  split
  · exact h
  · split
    · exact h
    · rename_i i _ _ o hi
      split
      · exact (h.calls (essential_notifyStatusByte _ _ _)).dropOffer i
      · dsimp only
        split
        · rename_i hauto
          refine h.promote hi hidle fun _=>?_
          obtain ⟨hpersist,hpeer⟩:=(Bool.and_eq_true _ _).mp hauto
          obtain ⟨peer,hsome,hsession⟩:=(Option.any_eq_true _ _).mp hpeer
          obtain ⟨link,hlink,rfl⟩:=Option.map_eq_some_iff.mp hsome
          rw [← ((h.queue i o hi).1 _ _ hlink).mpr rfl]
          exact ⟨hpersist,hsession⟩
        · split
          · exact hbusy _ _
          · have hview:=essential_tryConsumePromptBudget (s:=s) now
            have hconsumed:=h.calls hview
            split
            · exact hconsumed.promote ((congrFun (congrArg Transfer.queue hview) i).trans hi)
                ((congrArg (fun t=>t.recv.state) hview).trans hidle)
                fun hauto=>absurd hauto Bool.false_ne_true
            · exact (hconsumed.calls (essential_notifyStatus _ _)).dropOffer i

theorem RecvSound.deliver (h : s.RecvSound crc32) (hstate : s.recv.state=.receiving) (hfail : s.recv.failFlag=false)
    (hcomplete : s.recv.completeReceived=true) (env : Env) : (s.deliver crc32 env).RecvSound crc32:=by
  unfold Transfer.deliver
  dsimp only
  split
  · exact h.teardownRecv _ _
  · rename_i hcrc
    split
    · have hholds:=h.record hfail
      rw [hstate] at hholds
      obtain ⟨o,data,hcarries,hgathers⟩:=hholds
      obtain ⟨buf,hbuf,hdata⟩:=hgathers.buf
      have hall : (s.recv.buf.getD []).take s.recv.totalLen=data:=by
        rw [hbuf,← hgathers.complete hcomplete]
        exact hdata
      have hlen : data.length=o.totalLen:=by rw [hgathers.received,hgathers.complete hcomplete,hcarries.totalLen]
      rw [hall] at hcrc ⊢
      have hwritten:=hgathers.written
      rw [if_pos hcomplete,← not_not.mp hcrc] at hwritten
      have hdelivered (r : RecvSession) (hr : r.state=.done ∨ r.state=.idle) :
          RecvSound crc32 {s with recv:=r,recvLog:=s.recvLog++[.delivered data]}:={
        links:=h.links
        serials:=h.serials
        ids:=fun o ho=>h.ids o (by simpa using ho)
        accepted:=fun o c ho=>List.mem_append_left _ (h.accepted o c (by simpa using ho))
        queue:=fun i o hi=>⟨(h.queue i o hi).1,(h.queue i o hi).2.append (by simp)⟩
        distinct:=h.distinct
        record:=fun _=>by
          rcases hr with hr | hr
          · rw [hr]
            trivial
          · rw [hr]
            trivial
        rightful:=h.rightful.deliver hwritten hlen }
      split
      · refine (hdelivered {s.recv with buf:=none,state:=.done,stateStartMs:=env.now} (.inl rfl)).congr ?_
        unfold notifyStatus notifyFrame
        split <;> rfl
      · exact (hdelivered {stateStartMs:=s.recv.stateStartMs} (.inr rfl)).congr (receiver_teardownRecv _ _)
    · exact h.teardownRecv _ _

theorem RecvSound.tickRecv (h : s.RecvSound crc32) (env : Env) : (s.tickRecv crc32 env).RecvSound crc32:=by
  unfold Transfer.tickRecv
  split
  · exact h.promoteNextOffer ‹_› _
  · split
    · exact h.teardownRecv _ _
    · split
      · exact h.teardownRecv _ _
      · exact h
  · split
    · exact h.teardownRecv _ _
    · split
      · exact h.teardownRecv _ _
      · exact h
  · split
    · exact h.teardownRecv _ _
    · split
      · exact h.deliver ‹_› (Bool.eq_false_iff.mpr ‹_›) ‹_› env
      · split
        · exact h.teardownRecv _ _
        · exact h
  · split
    · dsimp only
      split
      · exact h.resetRecv.calls (essential_call _)
      · exact h.resetRecv
    · exact h
  · exact h

theorem RecvSound.tick (h : s.RecvSound crc32) (env : Env) : (s.tick crc32 env).RecvSound crc32:=
  (((h.bonds (exceptBonds_cleanupOnce env)).bonds (exceptBonds_flushLedger env)).tickRecv env).sends (exceptSend_tickSend env)

theorem RecvSound.stop (h : s.RecvSound crc32) (env : Env) : (s.stop env).RecvSound crc32:=by
  have hrecv : s.abandonRecv.RecvSound crc32:=by
    unfold abandonRecv
    split
    · exact h.teardownRecv _ _
    · exact h
  exact ((hrecv.sends exceptSend_abandonSend).bonds (exceptBonds_forgetAllSessionPeers env)).congr rfl

theorem RecvSound.respondConsent (h : s.RecvSound crc32) {accept : Bool} {env : Env}
    (hheeds : s.RecvHeeds (.respondConsent accept env)) : (s.respondConsent accept env).RecvSound crc32:=by
  unfold Transfer.respondConsent
  split
  · exact h
  · rename_i hstate
    have hawaiting:=not_not.mp hstate
    split
    · exact h.teardownRecv _ _
    · have hfail : s.recv.failFlag=false:=Bool.eq_false_iff.mpr ‹_›
      split
      · rename_i haccept
        have hholds:=h.record hfail
        rw [hawaiting] at hholds
        obtain ⟨o,hcarries,hwaiting,hqueue⟩:=hholds
        have hshown : s.shown=some o:=(hheeds haccept hawaiting hfail).trans hcarries.offer
        exact h.accept hcarries hwaiting hqueue hshown
      · have hview:=essential_notifyStatusByte (s:=s) s.recv.conn .decline Reason.userDeclined
        generalize env.now+kQuietCooldownMs=quietUntil
        have hquiet : RecvSound crc32 { s.notifyStatusByte s.recv.conn .decline Reason.userDeclined with
            quietUntilMs:=quietUntil }:=(h.calls hview).congr rfl
        exact hquiet.teardownRecv _ _

theorem RecvSound.enqueueOffer (h : s.RecvSound crc32) (hlink : s.links conn=some link) (f : OfferFrame)
    (env : Env) : (s.enqueueOffer conn link f env).RecvSound crc32:=by
  unfold Transfer.enqueueOffer
  split
  · exact h.calls (essential_notifyStatus _ _)
  · rename_i i _
    dsimp only
    generalize ho : Offer.mk s.nextOffer link conn f.mime f.name f.totalLen env.later f.persist=o
    have hfresh (o' : Offer) (ho' : .offered o'∈s.recvLog) : o'≠o:=by
      rintro rfl
      exact absurd (h.ids _ ho').1 (by rw [← ho]; exact lt_irrefl _)
    have hbehind : Behind s.links o:=by
      subst ho
      intro j l hj
      constructor
      · rintro rfl
        exact h.links _ _ _ hj hlink
      · rintro rfl
        exact Option.some.inj (hj.symm.trans hlink)
    have hadded : RecvSound crc32 { s with
        queue:=Function.update s.queue i (some o),nextOffer:=s.nextOffer+1
        recvLog:=s.recvLog++[.offered o] }:={
      links:=h.links
      serials:=h.serials
      ids:=fun o' ho'=>by
        rcases List.mem_append.mp ho' with ho' | ho'
        · exact ⟨Nat.lt_succ_of_lt (h.ids o' ho').1,(h.ids o' ho').2⟩
        · obtain rfl : o'=o:=by simpa using ho'
          subst ho
          exact ⟨Nat.lt_succ_self _,h.serials _ _ hlink⟩
      accepted:=fun o' c ho'=>List.mem_append_left _ (h.accepted o' c (by simpa using ho'))
      queue:=fun j o' hj=>by
        by_cases hji : j=i
        · subst hji
          obtain rfl : o=o':=by simpa using hj
          refine ⟨hbehind,by simp,fun c hc=>?_⟩
          exact hfresh o (h.accepted o c (by simpa using hc)) rfl
        · have hj' : s.queue j=some o':=by simpa [hji] using hj
          exact ⟨(h.queue j o' hj').1,(h.queue j o' hj').2.append (by simp)⟩
      distinct:=fun j k o' hj hk=>by
        have hold (l : Fin kOfferQueueDepth) (hl : s.queue l=some o) : False:=
          hfresh o (h.queue l o hl).2.offered rfl
        by_cases hji : j=i
        · subst hji
          obtain rfl : o=o':=by simpa using hj
          by_contra hkj
          exact hold k (by simpa [Ne.symm hkj] using hk)
        · have hj' : s.queue j=some o':=by simpa [hji] using hj
          by_cases hki : k=i
          · subst hki
            obtain rfl : o=o':=by simpa using hk
            exact absurd hj' (hold j)
          · exact h.distinct j k o' hj' (by simpa [hki] using hk)
      record:=by
        have hnoted : RecordHolds {s with recvLog:=s.recvLog++[.offered o]}:=
          h.record.note (by simp) (by simp [Undelivered]) fun _ _ _ _=>⟨rfl,rfl⟩
        intro hfail
        have hholds:=hnoted hfail
        dsimp only at hfail hholds ⊢
        cases hstate : s.recv.state <;> rw [hstate] at hholds <;> try first | trivial | exact hholds
        obtain ⟨o',hcarries,hwaiting,hqueue⟩:=hholds
        refine ⟨o',hcarries,hwaiting,fun j hj=>?_⟩
        by_cases hji : j=i
        · subst hji
          obtain rfl : o=o':=by simpa using hj
          have hold:=h.record hfail
          rw [hstate] at hold
          obtain ⟨o',hcarries',hwaiting',-⟩:=hold
          obtain rfl : o'=o:=Option.some.inj (hcarries'.offer.symm.trans hcarries.offer)
          exact hfresh o' hwaiting'.offered rfl
        · exact hqueue j (by simpa [hji] using hj)
      rightful:=h.rightful.append (by simp [Undelivered]) }
    split
    · exact hadded.calls (essential_notifyStatus _ _)
    · exact hadded

theorem RecvSound.onControlWrite (h : s.RecvSound crc32) (hlink : s.links conn=some link)
    (data : Bytes) (env : Env) : (s.onControlWrite conn link data env).RecvSound crc32:=by
  unfold Transfer.onControlWrite
  split
  · exact h
  · split
    · split
      · exact h.failRecv _
      · exact h
    · split
      · exact h
      · split
        · exact h.calls (essential_notifyStatusByte _ _ _)
        · split
          · exact h.calls (essential_notifyStatusByte _ _ _)
          · have hview:=essential_rateLimitOk (s:=s) conn env.now
            have hlimited:=h.calls hview
            dsimp only
            split
            · exact hlimited.enqueueOffer ((congrFun (congrArg Transfer.links hview) conn).trans hlink) _ env
            · exact hlimited.calls (essential_notifyStatus _ _)

theorem RecvSound.linkUp (h : s.RecvSound crc32) {peer : PeerAddr} {env : Env}
    (hheeds : s.RecvHeeds (.linkUp conn peer env)) : (s.linkUp conn peer env).RecvSound crc32:=by
  unfold Transfer.linkUp
  split
  · exact h
  · rename_i hfree
    have hnone : s.links conn=none:=by
      cases hlink : s.links conn with
      | none=>rfl
      | some link=>exact absurd (.inr (by rw [hlink]; rfl)) hfree
    have hheld:=hheeds hnone
    have hbehind (o : Offer) (ho : .offered o∈s.recvLog) (hconn : o.conn≠conn) (hold : Behind s.links o) :
        Behind (Function.update s.links conn (some {serial:=s.nextSerial,peer:=peer})) o:=by
      intro j link hj
      by_cases hjc : j=conn
      · subst hjc
        obtain rfl : {serial:=s.nextSerial,peer:=peer}=link:=by simpa using hj
        have hserial : s.nextSerial≠o.link.serial:=(h.ids o ho).2.ne'
        constructor
        · intro heq
          exact absurd (congrArg Link.serial heq) hserial
        · intro heq
          exact absurd heq.symm hconn
      · exact hold j link (by simpa [hjc] using hj)
    have hup : RecvSound crc32 { s with
        links:=Function.update s.links conn (some {serial:=s.nextSerial,peer:=peer})
        nextSerial:=s.nextSerial+1 }:={
      links:=fun i j link hi hj=>by
        have hnew (k : UInt16) (hk : s.links k=some link) (hnext : {serial:=s.nextSerial,peer:=peer}=link) :
            False:=absurd (h.serials k link hk) (by rw [← hnext]; exact lt_irrefl _)
        by_cases hic : i=conn
        · by_cases hjc : j=conn
          · exact hic.trans hjc.symm
          · exact (hnew j (by simpa [hjc] using hj) (by simpa [hic] using hi)).elim
        · by_cases hjc : j=conn
          · exact (hnew i (by simpa [hic] using hi) (by simpa [hjc] using hj)).elim
          · exact h.links i j link (by simpa [hic] using hi) (by simpa [hjc] using hj)
      serials:=fun i link hi=>by
        by_cases hic : i=conn
        · subst hic
          obtain rfl : {serial:=s.nextSerial,peer:=peer}=link:=by simpa using hi
          exact Nat.lt_succ_self _
        · exact Nat.lt_succ_of_lt (h.serials i link (by simpa [hic] using hi))
      ids:=fun o ho=>⟨(h.ids o ho).1,Nat.lt_succ_of_lt (h.ids o ho).2⟩
      accepted:=h.accepted
      queue:=fun i o hi=>⟨hbehind o (h.queue i o hi).2.offered (fun hc=>hheld (.inl ⟨i,by rw [hi,← hc]; rfl⟩))
        (h.queue i o hi).1,(h.queue i o hi).2⟩
      distinct:=h.distinct
      record:=fun hfail=>by
        have hholds:=h.record hfail
        dsimp only at hfail hholds ⊢
        have hcarry {o : Offer} (ho : .offered o∈s.recvLog) (hc : Carries s.recv s.links o)
            (hactive : s.recv.state=.awaitingConsent ∨ s.recv.state=.awaitingEncrypt ∨ s.recv.state=.receiving) :
            Carries s.recv (Function.update s.links conn (some {serial:=s.nextSerial,peer:=peer})) o:=
          ⟨hc.offer,hc.conn,hc.totalLen,
            hbehind o ho (fun hconn=>hheld (.inr ⟨hc.conn.trans hconn,hfail,hactive⟩)) hc.behind⟩
        cases hstate : s.recv.state <;> rw [hstate] at hholds <;> try trivial
        case awaitingConsent=>
          obtain ⟨o,hcarries,hwaiting,hqueue⟩:=hholds
          exact ⟨o,hcarry hwaiting.offered hcarries (.inl hstate),hwaiting,hqueue⟩
        case awaitingEncrypt=>
          obtain ⟨o,hcarries,haccepted⟩:=hholds
          exact ⟨o,hcarry haccepted.offered hcarries (.inr (.inl hstate)),haccepted⟩
        case receiving=>
          obtain ⟨o,d,hcarries,hgathers⟩:=hholds
          exact ⟨o,d,hcarry hgathers.written.offered hcarries (.inr (.inr hstate)),hgathers⟩
      rightful:=h.rightful }
    dsimp only
    split
    · exact hup.sends (exceptSend_onConnect conn env)
    · exact hup

theorem RecvSound.unlink (h : s.RecvSound crc32) (conn : UInt16) :
    RecvSound crc32 {s with links:=Function.update s.links conn none}:=by
  have hsub {j : UInt16} {l : Link} (hj : Function.update s.links conn none j=some l) : s.links j=some l:=by
    by_cases hjc : j=conn
    · simp [hjc] at hj
    · simpa [hjc] using hj
  have hbehind {o : Offer} (hold : Behind s.links o) : Behind (Function.update s.links conn none) o:=
    fun j l hj=>hold j l (hsub hj)
  exact {
    links:=fun i j l hi hj=>h.links i j l (hsub hi) (hsub hj)
    serials:=fun i l hi=>h.serials i l (hsub hi)
    ids:=h.ids
    accepted:=h.accepted
    queue:=fun i o hi=>⟨hbehind (h.queue i o hi).1,(h.queue i o hi).2⟩
    distinct:=h.distinct
    record:=fun hfail=>by
      have hholds:=h.record hfail
      dsimp only at hfail hholds ⊢
      have hcarry {o : Offer} (hc : Carries s.recv s.links o) : Carries s.recv (Function.update s.links conn none) o:=
        ⟨hc.offer,hc.conn,hc.totalLen,hbehind hc.behind⟩
      cases hstate : s.recv.state <;> rw [hstate] at hholds <;> try trivial
      case awaitingConsent=>
        obtain ⟨o,hcarries,hrest⟩:=hholds
        exact ⟨o,hcarry hcarries,hrest⟩
      case awaitingEncrypt=>
        obtain ⟨o,hcarries,hrest⟩:=hholds
        exact ⟨o,hcarry hcarries,hrest⟩
      case receiving=>
        obtain ⟨o,d,hcarries,hrest⟩:=hholds
        exact ⟨o,d,hcarry hcarries,hrest⟩
    rightful:=h.rightful }

theorem RecvSound.loseRecv (h : s.RecvSound crc32) (conn : UInt16) : (s.loseRecv conn).RecvSound crc32:=by
  unfold Transfer.loseRecv
  split
  · split
    · exact h.resetRecv
    · exact h.failRecv _
  · exact h

theorem RecvSound.onDisconnect (h : s.RecvSound crc32) (conn : UInt16) (env : Env) :
    (s.onDisconnect conn env).RecvSound crc32:=by
  unfold Transfer.onDisconnect
  split
  · have hlost:=(h.bonds (exceptBonds_forgetBondForConn conn)).sends (exceptSend_loseSend conn)
    exact (hlost.loseRecv conn).dropQueuedForConn conn
  · exact h

theorem RecvSound.linkDown (h : s.RecvSound crc32) (conn : UInt16) (env : Env) :
    (s.linkDown conn env).RecvSound crc32:=by
  unfold Transfer.linkDown
  split
  · dsimp only
    split
    · exact (h.unlink conn).onDisconnect conn env
    · exact h.unlink conn
  · exact h

/-- The link of the record has been encrypted: what its peer writes counts from now on. -/
theorem RecvSound.startReceiving (h : s.RecvSound crc32) {log : List RecvEntry} (hlink : s.links s.recv.conn=some link)
    (hlog : s.recvLog=log++[.encrypted link]) (hstate : s.recv.state=.awaitingEncrypt) (now : UInt32) :
    (s.startReceiving s.recv.conn now).RecvSound crc32:=by
  have hview:=congrArg (fun v : Transfer=>
      receiver {v with recv:={v.recv with state:=.receiving,stateStartMs:=now}})
    (exceptBonds_notePairing (s:={ s with recv:={ s.recv with
      buf:=some (List.replicate s.recv.totalLen 0),received:=0,lastProgress:=0,completeReceived:=false } })
      s.recv.conn s.recv.persistent)
  refine RecvSound.congr ?_ hview
  refine h.setRecord rfl rfl rfl rfl (fun _ _ hi=>hi) fun hfail=>?_
  have hholds:=h.record hfail
  rw [hstate] at hholds
  obtain ⟨o,hcarries,haccepted⟩:=hholds
  have hpeer : link=o.link:=hcarries.behind_eq hlink
  rw [hlog] at haccepted
  have hwritten : Written s.recvLog o [] none:=by
    rw [hlog,hpeer]
    exact haccepted.before_encrypted.encrypt
  exact ⟨o,[],⟨hcarries.offer,hcarries.conn,hcarries.totalLen,hcarries.behind⟩,
    ⟨_,rfl,List.take_zero⟩,rfl,hwritten,fun hc=>absurd hc Bool.false_ne_true⟩

theorem RecvSound.onEncChange (h : s.RecvSound crc32) {status : ℤ} (hlink : s.links conn=some link)
    (hlog : status=0→∃ log, s.recvLog=log++[.encrypted link]) (env : Env) :
    (s.onEncChange conn status env).RecvSound crc32:=by
  unfold Transfer.onEncChange
  split
  · exact h
  · split
    · split
      · exact (h.bonds (exceptBonds_notePairing conn s.send.persistent)).congr rfl
      · exact h.sends (exceptSend_failSend _)
    · split
      · rename_i hrecv
        obtain ⟨hstate,rfl⟩:=hrecv
        split
        · rename_i hstatus
          split
          · exact h.setRecord rfl rfl rfl rfl (fun _ _ hi=>hi) fun hfail=>absurd hfail (by simp [Transfer.failRecv])
          · obtain ⟨log,hlog⟩:=hlog hstatus
            exact h.startReceiving hlink hlog hstate _
        · exact h.failRecv _
      · exact h

theorem RecvSound.encChange (h : s.RecvSound crc32) (conn : UInt16) (status : ℤ) (paired : Bool) (env : Env) :
    (s.encChange conn status paired env).RecvSound crc32:=by
  unfold Transfer.encChange
  split
  · rename_i link hlink
    dsimp only
    split
    · have hencrypted : (s.encrypt link paired).RecvSound crc32:=by
        have hundelivered : Undelivered [RecvEntry.encrypted link]:=by simp [Undelivered]
        exact (h.note (by simp) (by simp) hundelivered
          (h.record.note (by simp) hundelivered fun _ _ _ _=>⟨rfl,rfl⟩)).congr rfl
      split
      · exact hencrypted.onEncChange hlink (fun _=>⟨s.recvLog,rfl⟩) env
      · exact hencrypted
    · split
      · exact h.onEncChange hlink (fun hstatus=>absurd hstatus ‹_›) env
      · exact h
  · exact h

theorem RecvSound.takeChunk (h : s.RecvSound crc32) (hstate : s.recv.state=.receiving)
    (hfail : s.recv.failFlag=false) (hlink : s.links s.recv.conn=some link) (payload : Bytes) (now : UInt32) :
    RecvSound crc32
      ({s with recvLog:=s.recvLog++[RecvEntry.chunk link payload]}.takeChunk s.recv.conn payload now):=by
  have hundelivered : Undelivered [RecvEntry.chunk link payload]:=by simp [Undelivered]
  have hnoted (r : RecvSession) (hr : RecordHolds {s with recv:=r,recvLog:=s.recvLog++[.chunk link payload]}):=
    h.note (by simp) (by simp) hundelivered hr
  have hholds:=h.record hfail
  rw [hstate] at hholds
  obtain ⟨o,data,hcarries,hgathers⟩:=hholds
  obtain ⟨buf,hbuf,hdata⟩:=hgathers.buf
  have hpeer : link=o.link:=hcarries.behind_eq hlink
  unfold Transfer.takeChunk
  dsimp only
  split
  · exact hnoted {s.recv with failFlag:=true,failReason:=Reason.badFrame}
      fun hfailed=>absurd hfailed (by simp)
  · rename_i hfits
    have hwritten:=hgathers.written.append hundelivered
    have hchunks : chunksOf o.link [.chunk link payload]=payload:=by simp [chunksOf,RecvEntry.chunkOf,hpeer]
    have hcomplete : lastComplete o.link [.chunk link payload]=none:=rfl
    rw [hchunks,hcomplete,Option.none_or] at hwritten
    have htaken (lastProgress : ℕ) : RecvSound crc32 { s with
        recv:={ s.recv with
          buf:=s.recv.buf.map fun buf=>
            buf.take s.recv.received++payload++buf.drop (s.recv.received+payload.length)
          received:=s.recv.received+payload.length
          lastProgress:=lastProgress
          stateStartMs:=now }
        recvLog:=s.recvLog++[.chunk link payload] }:=by
      refine hnoted _ fun _=>?_
      dsimp only
      rw [hstate]
      refine ⟨o,data++payload,⟨hcarries.offer,hcarries.conn,hcarries.totalLen,hcarries.behind⟩,
        ⟨_,by rw [hbuf]; rfl,?_⟩,?_,hwritten,fun hc=>?_⟩
      · have hlen : (data++payload).length=s.recv.received+payload.length:=by
          rw [List.length_append,hgathers.received]
        dsimp only
        rw [hdata,← hlen,List.take_left]
      · rw [List.length_append,hgathers.received]
      · have hfull:=hgathers.complete hc
        dsimp only at hfull ⊢
        omega
    split
    · exact (htaken _).calls (essential_notifyStatusU32 _ _ _)
    · exact htaken _

theorem RecvSound.takeComplete (h : s.RecvSound crc32) (hstate : s.recv.state=.receiving)
    (hfail : s.recv.failFlag=false) (hlink : s.links s.recv.conn=some link) (crc : UInt32)
    (hfull : s.recv.received=s.recv.totalLen) : RecvSound crc32 { s with
      recv:={s.recv with expectedCrc:=crc,completeReceived:=true}
      recvLog:=s.recvLog++[.complete link crc] }:=by
  have hundelivered : Undelivered [RecvEntry.complete link crc]:=by simp [Undelivered]
  refine h.note (by simp) (by simp) hundelivered fun _=>?_
  have hholds:=h.record hfail
  dsimp only
  rw [hstate] at hholds ⊢
  obtain ⟨o,data,hcarries,hgathers⟩:=hholds
  have hpeer : link=o.link:=hcarries.behind_eq hlink
  have hwritten:=hgathers.written.append hundelivered
  have hchunks : chunksOf o.link [.complete link crc]=[]:=rfl
  have hcomplete : lastComplete o.link [.complete link crc]=some crc:=by
    simp [lastComplete,RecvEntry.completeOf,hpeer]
  rw [hchunks,hcomplete,Option.some_or,List.append_nil] at hwritten
  exact ⟨o,data,⟨hcarries.offer,hcarries.conn,hcarries.totalLen,hcarries.behind⟩,hgathers.buf,
    hgathers.received,hwritten,fun _=>hfull⟩

theorem completeOp_ne_chunkOp : completeOp≠chunkOp:=by decide

theorem RecvSound.onDataWrite (h : s.RecvSound crc32) (hstate : s.recv.state=.receiving)
    (hfail : s.recv.failFlag=false) (hlink : s.links s.recv.conn=some link) (data : Bytes) (env : Env)
    (hheard : dataEntries link data≠[]→env.locked=true) :
    RecvSound crc32 ({s with recvLog:=s.recvLog++dataEntries link data}.onDataWrite s.recv.conn data env):=by
  have hsilent (hnil : dataEntries link data=[]) : {s with recvLog:=s.recvLog++dataEntries link data}=s:=by
    rw [hnil,List.append_nil]
  unfold Transfer.onDataWrite
  split
  · rename_i hdeaf
    have hnil : dataEntries link data=[]:=by
      by_contra hne
      rcases hdeaf with hdata | hlocked
      · exact hne (by rw [hdata]; rfl)
      · exact absurd (hheard hne) (by rw [hlocked]; exact Bool.false_ne_true)
    rw [hsilent hnil]
    exact h
  · split
    · rename_i hother
      rcases hother with hother | hother
      · exact absurd hstate hother
      · exact absurd rfl hother
    · split
      · rename_i hchunk
        split
        · rename_i hshort
          have hnil : dataEntries link data=[]:=by
            rw [dataEntries,if_neg fun hc=>Nat.not_le.mpr hshort hc.2,
              if_neg fun hc=>completeOp_ne_chunkOp (hc.1.symm.trans hchunk)]
          rw [hsilent hnil]
          exact h.failRecv _
        · rename_i hlong
          have hentries : dataEntries link data=[.chunk link (data.drop kChunkHeaderLen)]:=
            if_pos ⟨hchunk,Nat.not_lt.mp hlong⟩
          rw [hentries]
          exact h.takeChunk hstate hfail hlink _ _
      · rename_i hchunk
        split
        · rename_i hcomplete
          split
          · rename_i hshort
            have hnil : dataEntries link data=[]:=by
              rw [dataEntries,if_neg fun hc=>hchunk hc.1,if_neg fun hc=>Nat.not_le.mpr hshort hc.2]
            rw [hsilent hnil]
            exact h.failRecv _
          · rename_i hlong
            have hentries : dataEntries link data=[.complete link (rdU32 data 2)]:=by
              rw [dataEntries,if_neg fun hc=>hchunk hc.1,if_pos ⟨hcomplete,Nat.not_lt.mp hlong⟩]
            rw [hentries]
            split
            · exact h.note (by simp) (by simp) (by simp [Undelivered]) fun hfailed=>absurd hfailed (by simp)
            · exact h.takeComplete hstate hfail hlink _ (not_not.mp ‹_›)
        · rename_i hcomplete
          have hnil : dataEntries link data=[]:=by
            rw [dataEntries,if_neg fun hc=>hchunk hc.1,if_neg fun hc=>hcomplete hc.1]
          rw [hsilent hnil]
          exact h

theorem RecvSound.onDataWrite_failed (h : s.RecvSound crc32) (hfail : s.recv.failFlag=true) (conn : UInt16)
    (data : Bytes) (env : Env) : (s.onDataWrite conn data env).RecvSound crc32:=by
  have hset (r : RecvSession) (hr : r.failFlag=true) : RecvSound crc32 {s with recv:=r}:=
    h.setRecord rfl rfl rfl rfl (fun _ _ hi=>hi) fun hfailed=>absurd hfailed (by simp [hr])
  unfold Transfer.onDataWrite
  split
  · exact h
  · split
    · exact h
    · split
      · split
        · exact h.failRecv _
        · unfold Transfer.takeChunk
          dsimp only
          split
          · exact h.failRecv _
          · split
            · refine RecvSound.calls ?_ (essential_notifyStatusU32 _ _ _)
              exact hset _ hfail
            · exact hset _ hfail
      · split
        · split
          · exact h.failRecv _
          · split
            · exact h.failRecv _
            · exact hset _ hfail
        · exact h

theorem dataEntries_other {l : Link} (hl : link≠l) (data : Bytes) :
    chunksOf l (dataEntries link data)=[] ∧ lastComplete l (dataEntries link data)=none:=by
  unfold dataEntries
  split
  · simp [chunksOf,lastComplete,RecvEntry.chunkOf,RecvEntry.completeOf,hl]
  · split
    · simp [chunksOf,lastComplete,RecvEntry.chunkOf,RecvEntry.completeOf,hl]
    · exact ⟨rfl,rfl⟩

theorem dataEntries_plain (data : Bytes) : ∀ e∈dataEntries link data,
    (∃ payload, e=.chunk link payload) ∨ ∃ crc, e=.complete link crc:=by
  intro e he
  unfold dataEntries at he
  split at he
  · exact .inl ⟨_,List.mem_singleton.mp he⟩
  · split at he
    · exact .inr ⟨_,List.mem_singleton.mp he⟩
    · cases he

theorem RecvSound.dataWrite (h : s.RecvSound crc32) {data : Bytes} {env : Env}
    (hheeds : s.RecvHeeds (.dataWrite conn data env)) : (s.dataWrite conn data env).RecvSound crc32:=by
  have hplain {link : Link} {e : RecvEntry} (he : e∈dataEntries link data):=dataEntries_plain data e he
  unfold Transfer.dataWrite
  split
  · rename_i link hlink
    dsimp only
    by_cases hmine : s.recv.state=.receiving ∧ s.recv.conn=conn ∧ s.recv.failFlag=false
    · obtain ⟨hstate,rfl,hfail⟩:=hmine
      have hheard:=hheeds hstate rfl hfail link hlink
      split
      · exact h.onDataWrite hstate hfail hlink data env fun hne=>(hheard hne).2
      · rename_i hdeaf
        have hnil : dataEntries link data=[]:=by
          by_contra hne
          exact hdeaf (hheard hne).1
        rw [hnil,List.append_nil]
        exact h
    · have hundelivered : Undelivered (dataEntries link data):=fun d hd=>by
        rcases hplain hd with ⟨_,heq⟩ | ⟨_,heq⟩ <;> cases heq
      have haccepted (o : Offer) (c : Consent) : .accepted o c ∉ dataEntries link data:=fun ho=>by
        rcases hplain ho with ⟨_,heq⟩ | ⟨_,heq⟩ <;> cases heq
      have hoffered (o : Offer) : .offered o ∉ dataEntries link data:=fun ho=>by
        rcases hplain ho with ⟨_,heq⟩ | ⟨_,heq⟩ <;> cases heq
      have hnoted : RecvSound crc32 {s with recvLog:=s.recvLog++dataEntries link data}:=by
        refine h.note hoffered haccepted hundelivered (h.record.note haccepted hundelivered ?_)
        intro hfail hstate o hcarries
        refine dataEntries_other (fun heq=>hmine ⟨hstate,?_,hfail⟩) data
        exact (hcarries.conn.trans ((hcarries.behind _ _ hlink).mp heq).symm)
      split
      · by_cases hfail : s.recv.failFlag=true
        · exact hnoted.onDataWrite_failed hfail conn data env
        · unfold Transfer.onDataWrite
          split
          · exact hnoted
          · rw [if_pos]
            · exact hnoted
            · by_contra hactive
              obtain ⟨hstate,hconn⟩:=not_or.mp hactive
              exact hmine ⟨not_not.mp hstate,(not_not.mp hconn).symm,Bool.eq_false_iff.mpr hfail⟩
      · exact hnoted
  · exact h

theorem recvSound_fresh (crc32 : Bytes→UInt32) {s : Transfer} (hlinks : s.links=fun _=>none)
    (hqueue : s.queue=fun _=>none) (hlog : s.recvLog=[]) (hrecv : s.recv={}) : s.RecvSound crc32 where
  links i j link hi:=by rw [hlinks] at hi; cases hi
  serials i link hi:=by rw [hlinks] at hi; cases hi
  ids o ho:=by rw [hlog] at ho; cases ho
  accepted o c ho:=by rw [hlog] at ho; cases ho
  queue i o hi:=by rw [hqueue] at hi; cases hi
  distinct i j o hi:=by rw [hqueue] at hi; cases hi
  record _:=by rw [hrecv]; trivial
  rightful before d after hsplit:=by
    rw [hlog] at hsplit
    exact absurd hsplit (by simp)

theorem RecvSound.step (h : s.RecvSound crc32) {e : Event} (hheeds : s.RecvHeeds e) :
    (Transfer.step crc32 s e).RecvSound crc32:=by
  cases e with
  | linkUp conn peer env=>exact h.linkUp hheeds
  | linkDown conn env=>exact h.linkDown conn env
  | controlWrite conn data env=>
    dsimp only [Transfer.step]
    refine hear_cases (P:=fun t=>t.RecvSound crc32) h fun link hlink=>?_
    exact h.onControlWrite hlink data env
  | dataWrite conn data env=>exact h.dataWrite hheeds
  | encChange conn status paired env=>exact h.encChange conn status paired env
  | showConsent=>
    refine h.congr ?_
    dsimp only [Transfer.step]
    unfold Transfer.showConsent
    split <;> rfl
  | respondConsent accept env=>exact h.respondConsent hheeds
  | tick env=>exact h.tick env
  | serviceDiscovered | notification | writeComplete | sendTo | beginInteractiveSend | takeInteractiveRequest
  | confirmInteractiveTarget | cancelSend | consumeResult=>
    exact h.sends (exceptSend_step trivial)
  | start=>exact h.congr rfl
  | stop env=>exact h.stop env
  | reboot=>exact recvSound_fresh crc32 rfl rfl rfl rfl

end Record

end Transfer

/-- For every order of offers, writes, encryption changes, disconnects, answers and ticks: as long as no link comes up
behind a handle that the receiver still has to do with, no data that it waits for is missed and the user says yes
about the offer that waits, a payload that is delivered was written whole, after its encryption, over the link of an
accepted offer. -/
theorem delivers_rightfully (crc32 : Bytes→UInt32) (es : List Event)
    (hheeds : AlongRun (Transfer.step crc32) Transfer.RecvHeeds {} es) :
    Rightful crc32 (run (Transfer.step crc32) {} es).recvLog:=by
  have hfresh : Transfer.RecvSound crc32 {}:=Transfer.recvSound_fresh crc32 rfl rfl rfl rfl
  have hsound:=run_invariant (I:=Transfer.RecvSound crc32) (fun _ _ hh h=>h.step hh) hfresh hheeds
  exact hsound.rightful

def peerA : PeerAddr:={addr:=zeros 6,addrType:=0}

def peerB : PeerAddr:={addr:=zeros 6,addrType:=1}

def crc55 (_ : Bytes) : UInt32:=0xC9034AF6

def acceptedRun (peer : PeerAddr) : List Event:=[
  .start,
  .linkUp 1 peer {},
  .controlWrite 1 [offerOp,kProtocolVersion,1,0,0,0,1,0,0x74] {},
  .tick {},
  .showConsent,
  .respondConsent true {}]

def writtenRun : List Event:=[
  .encChange 1 0 true {},
  .dataWrite 1 [chunkOp,0,0x55] {},
  .dataWrite 1 [completeOp,0,0xF6,0x4A,0x03,0xC9] {},
  .tick {}]

theorem delivers_rightfully_writtenRun :
    Rightful crc55 (run (Transfer.step crc55) {} (acceptedRun peerA++writtenRun)).recvLog ∧
      .delivered [0x55]∈(run (Transfer.step crc55) {} (acceptedRun peerA++writtenRun)).recvLog:=
  ⟨delivers_rightfully crc55 _ (by decide +kernel),by decide +kernel⟩

/-- The disconnect of the peer whose offer was accepted is missed, and the next one gets its handle. -/
def missedDisconnect : List Event:=[.linkDown 1 {locked:=false},.linkUp 1 peerB {}]

def offerA : Offer where
  id:=0
  link:={serial:=0,peer:=peerA}
  conn:=1
  mime:=[0x74]
  peerName:=[]
  totalLen:=1
  enqueuedMs:=0
  persist:=false

/-- The payload of a peer whose offers nobody accepted is delivered. -/
theorem delivers_unoffered : ¬∀ es : List Event, Rightful crc55 (run (Transfer.step crc55) {} es).recvLog:=by
  intro hall
  have hlog : (run (Transfer.step crc55) {} (acceptedRun peerA++missedDisconnect++writtenRun)).recvLog =
      [.offered offerA,.accepted offerA (.user (some offerA)),.encrypted {serial:=1,peer:=peerB},
        .chunk {serial:=1,peer:=peerB} [0x55],.complete {serial:=1,peer:=peerB} 0xC9034AF6] ++
      .delivered [0x55]::[]:=by
    decide +kernel
  obtain ⟨o,hwritten,-⟩:=hall _ _ _ _ hlog
  obtain ⟨l₁,c,l₂,haccepted,-,-⟩:=hwritten.accepted
  obtain ⟨rfl,-⟩ : o=offerA ∧ c=.user (some offerA):=by
    have hmem : RecvEntry.accepted o c∈l₁++.accepted o c::l₂:=by simp
    rw [← haccepted] at hmem
    simpa using hmem
  obtain ⟨k₁,k₂,hencrypted,-⟩:=hwritten
  have hmem : RecvEntry.encrypted offerA.link∈k₁++.encrypted offerA.link::k₂:=by simp
  rw [← hencrypted] at hmem
  exact absurd hmem (by decide)

end CdcBadge.Msg
