import CdcBadge.MessageFrames
import CdcBadge.Runs

/-!
# Badge-to-badge messages: the bonds that transfers leave

A bond that a transfer made is forgotten when its connection ends, or with the session of
its peer, and those of earlier boots are forgotten by the first tick. All this rests on two
tables that callbacks fill and on a ledger that a tick writes: a bond that none of them
knows of stays.
-/

namespace CdcBadge.Msg

open Runs

section FindSlot

variable {n : ℕ} {α : Type} {table : Fin n → α} {p : α→Bool}

theorem findSlot_some {i : Fin n} (h : findSlot table p=some i) : p (table i)=true:=
  List.find?_some (p:=fun i=>p (table i)) h

theorem findSlot_none (h : findSlot table p=none) (i : Fin n) : p (table i)=false:=by
  have hnot:=List.find?_eq_none.mp h i (List.mem_finRange i)
  simpa using hnot

theorem findSlot_isSome : (findSlot table p).isSome=true ↔ ∃ i, p (table i)=true:=by
  constructor
  · intro h
    obtain ⟨i,hi⟩:=Option.isSome_iff_exists.mp h
    exact ⟨i,findSlot_some hi⟩
  · rintro ⟨i,hi⟩
    by_contra hnone
    rw [Bool.not_eq_true,Option.isSome_eq_false_iff,Option.isNone_iff_eq_none] at hnone
    exact absurd hi (by rw [findSlot_none hnone i]; exact Bool.false_ne_true)

end FindSlot

variable {env : Env} {conn : UInt16} {peer : PeerAddr}

namespace Transfer

/-- The bonds of this boot are with session peers or over links that are up, and none of an earlier boot is left after
the cleanup. -/
structure Hygienic (s : Transfer) : Prop where
  forgotten : ∀ b∈s.bonds, b.boot=s.boots → s.isSessionPeer b.link.peer=true ∨ ∃ conn, s.links conn=some b.link
  cleaned : s.sessionBondsCleaned=true→∀ b∈s.bonds, b.boot=s.boots

/-- The callback will find this bond when the link goes down. -/
def Recorded (s : Transfer) (b : Bond) : Prop:=
  s.isSessionPeer b.link.peer=true ∨
    ∃ conn, s.links conn=some b.link ∧ ∃ i, s.bonded i=some {conn:=conn,peer:=b.link.peer}

/-- The peer behind a handle is one of the session, or has an entry for the handle. -/
def Known (s : Transfer) (conn : UInt16) (peer : PeerAddr) : Prop:=
  s.isSessionPeer peer=true ∨ ∃ i, s.bonded i=some {conn:=conn,peer:=peer}

/-- The bonds are recorded, but for one, each handle once, and those of earlier boots are in the ledger. -/
structure BondSound (exempt : Option Bond) (s : Transfer) : Prop where
  boots : ∀ b∈s.bonds, b.boot ≤ s.boots
  recorded : ∀ b∈s.bonds, some b≠exempt→b.boot=s.boots → s.Recorded b
  ledger : ∀ b∈s.bonds, b.boot≠s.boots → s.sessionBondsCleaned=false ∧ b.link.peer∈s.ledger
  unique : ∀ i j x y, s.bonded i=some x → s.bonded j=some y→x.conn=y.conn→i=j

/-- The service records the peer of an encryption that succeeds. -/
def Records (s : Transfer) (conn : UInt16) (env : Env) : Prop:=
  s.listening=true ∧ env.locked=true ∧
    ((s.send.state=.awaitingEncrypt ∧ conn=s.send.conn) ∨
      (s.recv.state=.awaitingEncrypt ∧ conn=s.recv.conn ∧ env.allocates=true)) ∧
    ∃ i, ∀ b∈s.bonded i, b.conn=conn

/-- No disconnect is missed of a link with a bond that is not a session peer's, no pairing of a transfer goes without
record, and the ledger has every bond when the badge goes off and keeps it until the cleanup, which reads it. -/
def BondHeeds (s : Transfer) : Event→Prop
  | .linkDown conn env=>∀ b∈s.bonds, s.links conn=some b.link → s.isSessionPeer b.link.peer=false →
      s.listening=true ∧ env.locked=true
  | .encChange conn status paired env=>status=0→paired=true→∀ link∈s.links conn, s.pairing link=true →
      s.Known conn link.peer ∨ s.Records conn env
  | .tick env=>s.sessionBondsCleaned=false→∀ b∈s.bonds, b.boot≠s.boots →
      if env.bleEnabled then env.nvsOpens=true ∧ env.nvsReads=true
      else s.ledgerDirty=true→env.nvsOpens=true→env.nvsKeeps=true → s.isSessionPeer b.link.peer=true
  | .stop env=>s.sessionBondsCleaned=false→∀ b∈s.bonds, b.boot≠s.boots → s.sessionPeerList≠[] →
      env.nvsOpens=true→env.nvsKeeps=true → s.isSessionPeer b.link.peer=true
  | .reboot=>∀ b∈s.bonds, b.link.peer∈s.ledger
  | _=>True

instance (s : Transfer) (conn : UInt16) (peer : PeerAddr) : Decidable (s.Known conn peer):=
  inferInstanceAs (Decidable (_ ∨ _))

instance (s : Transfer) (conn : UInt16) (env : Env) : Decidable (s.Records conn env):=
  inferInstanceAs (Decidable (_ ∧ _))

instance (s : Transfer) : DecidablePred s.BondHeeds
  | .linkDown .. => inferInstanceAs (Decidable (∀ b∈s.bonds, _ → _ → _))
  | .encChange conn _ _ env=>
    inferInstanceAs (Decidable (_ → _→∀ link∈s.links conn, _ → s.Known conn link.peer ∨ s.Records conn env))
  | .tick env=>inferInstanceAs (Decidable (_→∀ b∈s.bonds, _→if env.bleEnabled then _ else _))
  | .stop .. => inferInstanceAs (Decidable (_→∀ b∈s.bonds, _ → _ → _ → _ → _))
  | .reboot=>inferInstanceAs (Decidable (∀ b∈s.bonds, b.link.peer∈s.ledger))
  | .linkUp .. | .controlWrite .. | .dataWrite .. | .serviceDiscovered .. | .notification .. | .writeComplete ..
  | .showConsent | .respondConsent .. | .sendTo .. | .beginInteractiveSend .. | .takeInteractiveRequest
  | .confirmInteractiveTarget .. | .cancelSend | .consumeResult | .start=>.isTrue trivial

def keeper (s : Transfer) : Transfer where
  bonds:=s.bonds
  bonded:=s.bonded
  sessionPeers:=s.sessionPeers
  sessionBondsCleaned:=s.sessionBondsCleaned
  ledger:=s.ledger
  links:=s.links
  boots:=s.boots

section Bonds

variable {exempt : Option Bond} {s t : Transfer} {b : Bond} {link : Link}

theorem BondSound.hygienic (h : s.BondSound none) : s.Hygienic where
  forgotten b hb hboot:=by
    rcases h.recorded b hb nofun hboot with hsession | ⟨conn,hlink,-⟩
    · exact .inl hsession
    · exact .inr ⟨conn,hlink⟩
  cleaned hcleaned b hb:=by
    by_contra hboot
    have hnot:=(h.ledger b hb hboot).1
    rw [hcleaned] at hnot
    cases hnot

theorem BondSound.congr (h : s.BondSound exempt) (ht : t.keeper=s.keeper) : t.BondSound exempt:=by
  have hs : s.keeper.BondSound exempt:=⟨h.boots,h.recorded,h.ledger,h.unique⟩
  rw [← ht] at hs
  exact ⟨hs.boots,hs.recorded,hs.ledger,hs.unique⟩

theorem keeper_of_exceptSend (ht : t.exceptSend=s.exceptSend) : t.keeper=s.keeper:=by
  have hview : t.exceptSend.keeper=s.exceptSend.keeper:=congrArg keeper ht
  exact hview

theorem keeper_of_exceptRecv (ht : t.exceptRecv=s.exceptRecv) : t.keeper=s.keeper:=by
  have hview : t.exceptRecv.keeper=s.exceptRecv.keeper:=congrArg keeper ht
  exact hview

theorem BondSound.sends (h : s.BondSound exempt) (ht : t.exceptSend=s.exceptSend) : t.BondSound exempt:=
  h.congr (keeper_of_exceptSend ht)

theorem BondSound.recvs (h : s.BondSound exempt) (ht : t.exceptRecv=s.exceptRecv) : t.BondSound exempt:=
  h.congr (keeper_of_exceptRecv ht)

theorem isSessionPeer_iff : s.isSessionPeer peer=true ↔ ∃ i, s.sessionPeers i=some peer:=by
  rw [isSessionPeer,findSlot_isSome]
  simp

theorem mem_sessionPeerList : peer∈s.sessionPeerList ↔ s.isSessionPeer peer=true:=by
  rw [isSessionPeer_iff,sessionPeerList,List.mem_filterMap]
  simp

theorem isSessionPeer_remember (other : PeerAddr) (h : s.isSessionPeer peer=true) :
    (s.rememberSessionPeer other).isSessionPeer peer=true:=by
  obtain ⟨i,hi⟩:=isSessionPeer_iff.mp h
  unfold rememberSessionPeer
  split
  · exact h
  · split
    · rename_i j hj
      have hfree:=findSlot_some hj
      refine isSessionPeer_iff.mpr ⟨i,?_⟩
      have hne : i≠j:=by
        rintro rfl
        rw [hi] at hfree
        cases hfree
      dsimp only
      rw [Function.update_of_ne hne]
      exact hi
    · exact h

theorem rememberSessionPeer_eq (peer : PeerAddr) : ∃ sessionPeers ledgerDirty,
    s.rememberSessionPeer peer={s with sessionPeers:=sessionPeers,ledgerDirty:=ledgerDirty}:=by
  unfold rememberSessionPeer
  split
  · exact ⟨_,_,rfl⟩
  · split <;> exact ⟨_,_,rfl⟩

theorem BondSound.remember (h : s.BondSound exempt) (peer : PeerAddr) :
    (s.rememberSessionPeer peer).BondSound exempt:=by
  have hsession (b : Bond) (hb : s.isSessionPeer b.link.peer=true):=isSessionPeer_remember peer hb
  obtain ⟨sessionPeers,ledgerDirty,heq⟩:=rememberSessionPeer_eq (s:=s) peer
  rw [heq] at hsession ⊢
  refine ⟨h.boots,fun b hb hne hboot=>?_,h.ledger,h.unique⟩
  exact (h.recorded b hb hne hboot).imp (hsession b) id

/-- Where an entry for the handle is set and no other place has one, the others stay and each handle is there once. -/
theorem update_bonded (i : Fin 2) (conn : UInt16) (peer : PeerAddr)
    (hunique : ∀ i j x y, s.bonded i=some x → s.bonded j=some y→x.conn=y.conn→i=j)
    (hhere : ∀ x, s.bonded i=some x→x.conn=conn) (hother : ∀ j y, s.bonded j=some y→y.conn=conn→j=i) :
    let bonded:=Function.update s.bonded i (some {conn:=conn,peer:=peer})
    (∀ j x, s.bonded j=some x→x.conn≠conn→bonded j=some x) ∧
      (∀ j k x y, bonded j=some x→bonded k=some y→x.conn=y.conn→j=k):=by
  have hnew {j : Fin 2} {x : BondRef} (hj : j≠i)
      (hx : Function.update s.bonded i (some {conn:=conn,peer:=peer}) j=some x) : s.bonded j=some x:=by
    rw [Function.update_of_ne hj] at hx
    exact hx
  have hset {x : BondRef} (hx : Function.update s.bonded i (some {conn:=conn,peer:=peer}) i=some x) :
      x.conn=conn:=by
    rw [Function.update_self] at hx
    exact (congrArg BondRef.conn (Option.some.inj hx)).symm
  constructor
  · intro j x hx hne
    have hj : j≠i:=by
      rintro rfl
      exact hne (hhere x hx)
    rw [Function.update_of_ne hj]
    exact hx
  · intro j k x y hx hy hconn
    by_cases hj : j=i
    · by_cases hk : k=i
      · exact hj.trans hk.symm
      · rw [hj] at hx
        exact absurd (hother k y (hnew hk hy) (hconn.symm.trans (hset hx))) hk
    · by_cases hk : k=i
      · rw [hk] at hy
        exact absurd (hother j x (hnew hj hx) (hconn.trans (hset hy))) hj
      · exact hunique j k x y (hnew hj hx) (hnew hk hy) hconn

/-- An entry for the handle is set: others stay, and there is one where there was one or a free place. -/
theorem recordBond_spec (hunique : ∀ i j x y, s.bonded i=some x → s.bonded j=some y→x.conn=y.conn→i=j)
    (conn : UInt16) (peer : PeerAddr) :
    ∃ bonded, s.recordBond conn peer={s with bonded:=bonded} ∧
      (∀ i x, s.bonded i=some x→x.conn≠conn→bonded i=some x) ∧
      (∀ i j x y, bonded i=some x→bonded j=some y→x.conn=y.conn→i=j) ∧
      ((∃ i, ∀ x∈s.bonded i, x.conn=conn)→∃ i, bonded i=some {conn:=conn,peer:=peer}):=by
  unfold recordBond
  cases hfound : findSlot s.bonded fun b=>b.any fun b=>b.conn=conn with
  | some i=>
    obtain ⟨x,hx,hconn⟩:=(Option.any_eq_true _ _).mp (findSlot_some hfound)
    have hconn : x.conn=conn:=of_decide_eq_true hconn
    obtain ⟨hstay,hunique'⟩:=update_bonded i conn peer hunique
      (fun y hy=>by rw [← Option.some.inj (hx.symm.trans hy)]; exact hconn)
      (fun j y hy hyconn=>hunique j i y x hy hx (hyconn.trans hconn.symm))
    exact ⟨_,rfl,hstay,hunique',fun _=>⟨i,Function.update_self ..⟩⟩
  | none=>
    have hnone (j : Fin 2) (y : BondRef) (hy : s.bonded j=some y) : y.conn≠conn:=by
      have hnot:=findSlot_none hfound j
      rw [hy] at hnot
      simpa using hnot
    cases hfree : findSlot s.bonded Option.isNone with
    | some i=>
      have hempty:=Option.isNone_iff_eq_none.mp (findSlot_some hfree)
      obtain ⟨hstay,hunique'⟩:=update_bonded i conn peer hunique
        (fun y hy=>absurd (hempty.symm.trans hy) nofun) (fun j y hy hyconn=>absurd hyconn (hnone j y hy))
      exact ⟨_,rfl,hstay,hunique',fun _=>⟨i,Function.update_self ..⟩⟩
    | none=>
      refine ⟨s.bonded,rfl,fun _ _ hx _=>hx,hunique,fun ⟨i,hi⟩=>?_⟩
      cases hx : s.bonded i with
      | none=>exact absurd (findSlot_none hfree i) (by rw [hx]; decide)
      | some x=>exact absurd (hi x hx) (hnone i x hx)

/-- The peer behind a handle is recorded: the bonds that were recorded are so still. -/
theorem BondSound.notePairing (h : s.BondSound exempt) (hlink : s.links conn=some link)
    (persistent : Bool) : (s.notePairing conn persistent).BondSound exempt ∧
      ((s.Known conn link.peer ∨ ∃ i, ∀ x∈s.bonded i, x.conn=conn) →
        (s.notePairing conn persistent).Known conn link.peer):=by
  obtain ⟨bonded,hrecord,hstay,hunique,hset⟩:=recordBond_spec h.unique conn link.peer
  have hsound : BondSound exempt {s with bonded:=bonded}:=by
    refine ⟨h.boots,fun b hb hne hboot=>?_,h.ledger,hunique⟩
    rcases h.recorded b hb hne hboot with hsession | ⟨conn',hlink',i,hi⟩
    · exact .inl hsession
    · by_cases hconn : conn'=conn
      · subst hconn
        obtain rfl : b.link=link:=Option.some.inj (hlink'.symm.trans hlink)
        refine .inr ⟨conn',hlink',hset ⟨i,fun x hx=>?_⟩⟩
        rw [← Option.some.inj (hi.symm.trans hx)]
      · exact .inr ⟨conn',hlink',i,hstay i _ hi hconn⟩
  have hknown (hk : s.Known conn link.peer ∨ ∃ i, ∀ x∈s.bonded i, x.conn=conn) :
      Known {s with bonded:=bonded} conn link.peer:=by
    rcases hk with (hsession | ⟨i,hi⟩) | hfree
    · exact .inl hsession
    · refine .inr (hset ⟨i,fun x hx=>?_⟩)
      rw [← Option.some.inj (hi.symm.trans hx)]
    · exact .inr (hset hfree)
  have hpeer : s.getPeerIdAddr conn=some link.peer:=by rw [getPeerIdAddr,hlink]; rfl
  unfold Transfer.notePairing
  rw [hpeer]
  dsimp only
  rw [hrecord]
  split
  · refine ⟨hsound.remember link.peer,fun hk=>(hknown hk).imp (isSessionPeer_remember link.peer) fun hentry=>?_⟩
    obtain ⟨sessionPeers,ledgerDirty,heq⟩:=rememberSessionPeer_eq (s:={s with bonded:=bonded}) link.peer
    rw [heq]
    exact hentry
  · exact ⟨hsound,hknown⟩

theorem BondSound.onEncChange (h : s.BondSound exempt) (hlink : s.links conn=some link) (status : ℤ)
    (env : Env) : (s.onEncChange conn status env).BondSound exempt ∧
      (status=0 → s.Known conn link.peer ∨ s.Records conn env →
        (s.onEncChange conn status env).Known conn link.peer):=by
  unfold Transfer.onEncChange
  split
  · rename_i hdeaf
    refine ⟨h,fun _ hk=>hk.elim id fun hrecords=>?_⟩
    rw [hrecords.2.1] at hdeaf
    cases hdeaf
  · split
    · split
      · obtain ⟨hsound,hknown⟩:=h.notePairing hlink s.send.persistent
        refine ⟨hsound.congr rfl,fun _ hk=>hknown (hk.imp id fun hrecords=>hrecords.2.2.2)⟩
      · exact ⟨h.sends (exceptSend_failSend _),fun hstatus=>absurd hstatus ‹_›⟩
    · rename_i hsend
      split
      · split
        · split
          · rename_i hfull
            refine ⟨h.congr rfl,fun _ hk=>hk.elim id fun hrecords=>?_⟩
            rcases hrecords.2.2.1 with hmine | ⟨-,-,hallocates⟩
            · exact absurd hmine hsend
            · rw [hallocates] at hfull
              cases hfull
          · have hbuffered : BondSound exempt { s with recv:={ s.recv with
                buf:=some (List.replicate s.recv.totalLen 0),received:=0,lastProgress:=0
                completeReceived:=false } }:=h.congr rfl
            obtain ⟨hsound,hknown⟩:=hbuffered.notePairing hlink s.recv.persistent
            exact ⟨hsound.congr rfl,fun _ hk=>hknown (hk.imp id fun hrecords=>hrecords.2.2.2)⟩
        · exact ⟨h.recvs (exceptRecv_failRecv _),fun hstatus=>absurd hstatus ‹_›⟩
      · rename_i hrecv
        refine ⟨h,fun _ hk=>hk.elim id fun hrecords=>?_⟩
        rcases hrecords.2.2.1 with hmine | ⟨hstate,hconn,-⟩
        · exact absurd hmine hsend
        · exact absurd ⟨hstate,hconn⟩ hrecv

theorem links_notePairing (conn : UInt16) (persistent : Bool) : (s.notePairing conn persistent).links=s.links:=by
  have hlinks : (s.notePairing conn persistent).exceptBonds.links=s.exceptBonds.links:=
    congrArg links (exceptBonds_notePairing conn persistent)
  exact hlinks

theorem links_onEncChange (conn : UInt16) (status : ℤ) (env : Env) :
    (s.onEncChange conn status env).links=s.links:=by
  unfold Transfer.onEncChange
  split
  · rfl
  · split
    · split
      · exact links_notePairing _ _
      · rfl
    · split
      · split
        · split
          · rfl
          · exact links_notePairing (s:={s with recv:=_}) conn s.recv.persistent
        · rfl
      · rfl

theorem BondSound.pair (h : s.BondSound none) {paired : Bool} (hpairs : paired=true ∧ s.pairing link=true) :
    (s.encrypt link paired).BondSound (some {link:=link,boot:=s.boots}):=by
  have hbonds : (s.encrypt link paired).bonds={link:=link,boot:=s.boots}::(s.forgetBond link.peer).bonds:=
    if_pos hpairs
  have hold {b : Bond} (hb : b∈(s.forgetBond link.peer).bonds) : b∈s.bonds:=List.mem_of_mem_filter hb
  refine ⟨fun b hb=>?_,fun b hb hne hboot=>?_,fun b hb hboot=>?_,h.unique⟩
  · rw [hbonds] at hb
    rcases List.mem_cons.mp hb with rfl | hb
    · exact le_rfl
    · exact h.boots b (hold hb)
  · rw [hbonds] at hb
    rcases List.mem_cons.mp hb with rfl | hb
    · exact absurd rfl hne
    · exact h.recorded b (hold hb) nofun hboot
  · rw [hbonds] at hb
    rcases List.mem_cons.mp hb with rfl | hb
    · exact absurd rfl hboot
    · exact h.ledger b (hold hb) hboot

theorem BondSound.known (h : s.BondSound (some b)) (hlink : s.links conn=some b.link)
    (hknown : s.Known conn b.link.peer) : s.BondSound none:=by
  refine ⟨h.boots,fun b' hb' _ hboot=>?_,h.ledger,h.unique⟩
  by_cases hb : b'=b
  · rw [hb]
    exact hknown.imp id fun hentry=>⟨conn,hlink,hentry⟩
  · exact h.recorded b' hb' (fun heq=>hb (Option.some.inj heq)) hboot

theorem BondSound.encChange (h : s.BondSound none) {status : ℤ} {paired : Bool}
    (hheeds : s.BondHeeds (.encChange conn status paired env)) :
    (s.encChange conn status paired env).BondSound none:=by
  unfold Transfer.encChange
  split
  · rename_i link hlink
    dsimp only
    split
    · rename_i hstatus
      by_cases hpairs : paired=true ∧ s.pairing link=true
      · have hpaired:=h.pair hpairs
        have hknown : s.Known conn link.peer ∨ s.Records conn env:=hheeds hstatus hpairs.1 link hlink hpairs.2
        split
        · obtain ⟨hsound,hknows⟩:=hpaired.onEncChange hlink status env
          refine hsound.known ?_ (hknows hstatus hknown)
          rw [links_onEncChange]
          exact hlink
        · rename_i hdeaf
          refine hpaired.known hlink (hknown.elim id fun hrecords=>absurd hrecords.1 hdeaf)
      · have hsame : (s.encrypt link paired).keeper=s.keeper:=by
          unfold encrypt
          rw [if_neg hpairs]
          rfl
        have hencrypted:=h.congr hsame
        split
        · exact (hencrypted.onEncChange hlink status env).1
        · exact hencrypted
    · split
      · exact (h.onEncChange hlink status env).1
      · exact h
  · exact h

theorem BondSound.linkUp (h : s.BondSound none) (conn : UInt16) (peer : PeerAddr) (env : Env) :
    (s.linkUp conn peer env).BondSound none:=by
  unfold Transfer.linkUp
  split
  · exact h
  · rename_i hfree
    have hup : BondSound none { s with
        links:=Function.update s.links conn (some {serial:=s.nextSerial,peer:=peer})
        nextSerial:=s.nextSerial+1 }:=by
      refine ⟨h.boots,fun b hb hne hboot=>?_,h.ledger,h.unique⟩
      refine (h.recorded b hb hne hboot).imp id fun ⟨conn',hlink,hentry⟩=>⟨conn',?_,hentry⟩
      have hother : conn'≠conn:=by
        rintro rfl
        exact hfree (.inr (by rw [hlink]; rfl))
      dsimp only
      rw [Function.update_of_ne hother]
      exact hlink
    dsimp only
    split
    · exact hup.sends (exceptSend_onConnect conn env)
    · exact hup

theorem BondSound.unlink (h : s.BondSound none) (conn : UInt16)
    (hsession : ∀ b∈s.bonds, s.links conn=some b.link → s.isSessionPeer b.link.peer=true) :
    BondSound none {s with links:=Function.update s.links conn none}:=by
  refine ⟨h.boots,fun b hb hne hboot=>?_,h.ledger,h.unique⟩
  rcases h.recorded b hb hne hboot with hknown | ⟨conn',hlink,hentry⟩
  · exact .inl hknown
  · by_cases hconn : conn'=conn
    · exact .inl (hsession b hb (hconn ▸ hlink))
    · refine .inr ⟨conn',?_,hentry⟩
      dsimp only
      rw [Function.update_of_ne hconn]
      exact hlink

theorem mem_forgetBond : b∈(s.forgetBond peer).bonds ↔ b∈s.bonds ∧ b.link.peer≠peer:=by
  simp [forgetBond]

theorem BondSound.disconnected (h : s.BondSound none) (conn : UInt16) :
    (forgetBondForConn {s with links:=Function.update s.links conn none} conn).BondSound none:=by
  have hup {conn' : UInt16} {l : Link} (hconn : conn'≠conn) (hlink : s.links conn'=some l) :
      Function.update s.links conn none conn'=some l:=by
    rw [Function.update_of_ne hconn]
    exact hlink
  unfold forgetBondForConn
  cases hfound : findSlot s.bonded fun b=>b.any fun b=>b.conn=conn with
  | none=>
    refine ⟨h.boots,fun b hb hne hboot=>?_,h.ledger,h.unique⟩
    refine (h.recorded b hb hne hboot).imp id fun ⟨conn',hlink,i,hi⟩=>?_
    by_cases hconn : conn'=conn
    · have hnot:=findSlot_none hfound i
      rw [hi] at hnot
      simp [hconn] at hnot
    · exact ⟨conn',hup hconn hlink,i,hi⟩
  | some i=>
    obtain ⟨x,hx,hconn⟩:=(Option.any_eq_true _ _).mp (findSlot_some hfound)
    have hconn : x.conn=conn:=of_decide_eq_true hconn
    dsimp only
    rw [hx]
    dsimp only
    -- Of the bonds that stay, none is the one of the entry, unless its peer is one of the session.
    have hends (bonds : List Bond) (hsub : ∀ b∈bonds, b∈s.bonds)
        (hpeer : ∀ b∈bonds, s.isSessionPeer x.peer=false→b.link.peer≠x.peer) : BondSound none { s with
          links:=Function.update s.links conn none,bonds:=bonds
          bonded:=Function.update s.bonded i none }:=by
      refine ⟨fun b hb=>h.boots b (hsub b hb),fun b hb hne hboot=>?_,fun b hb=>h.ledger b (hsub b hb),?_⟩
      · rcases h.recorded b (hsub b hb) hne hboot with hsession | ⟨conn',hlink,j,hj⟩
        · exact .inl hsession
        · by_cases hsame : conn'=conn
          · obtain rfl:=h.unique i j _ _ hx hj (hconn.trans hsame.symm)
            have hx':=Option.some.inj (hx.symm.trans hj)
            refine .inl ?_
            by_contra hsession
            refine hpeer b hb ?_ ?_
            · rw [hx']
              exact Bool.eq_false_iff.mpr hsession
            · rw [hx']
          · refine .inr ⟨conn',hup hsame hlink,j,?_⟩
            have hji : j≠i:=by
              rintro rfl
              exact hsame ((congrArg BondRef.conn (Option.some.inj (hj.symm.trans hx))).trans hconn)
            dsimp only
            rw [Function.update_of_ne hji]
            exact hj
      · intro j k y z hy hz
        have hold {j : Fin 2} {y : BondRef} (hy : Function.update s.bonded i none j=some y) : s.bonded j=some y:=by
          by_cases hj : j=i
          · rw [hj,Function.update_self] at hy
            cases hy
          · rw [Function.update_of_ne hj] at hy
            exact hy
        exact h.unique j k y z (hold hy) (hold hz)
    split
    · rename_i hsession
      refine hends s.bonds (fun _ hb=>hb) fun b _ hnot=>absurd hsession ?_
      have hnot : isSessionPeer {s with links:=Function.update s.links conn none} x.peer=false:=hnot
      rw [hnot]
      exact Bool.false_ne_true
    · exact hends _ (fun b hb=>(mem_forgetBond.mp hb).1) fun b hb _=>(mem_forgetBond.mp hb).2

theorem BondSound.linkDown (h : s.BondSound none)
    (hheeds : s.BondHeeds (.linkDown conn env)) : (s.linkDown conn env).BondSound none:=by
  unfold Transfer.linkDown
  split
  · have hunheard (hdeaf : ¬(s.listening=true ∧ env.locked=true)) :
        BondSound none {s with links:=Function.update s.links conn none}:=by
      refine h.unlink conn fun b hb hlink=>?_
      by_contra hsession
      exact hdeaf (hheeds b hb hlink (Bool.eq_false_iff.mpr hsession))
    dsimp only
    split
    · unfold Transfer.onDisconnect
      split
      · exact ((h.disconnected conn).sends (exceptSend_loseSend conn)).recvs (exceptRecv_loseRecv conn)
      · exact hunheard fun hheard=>‹¬env.locked=true› hheard.2
    · exact hunheard fun hheard=>‹¬s.listening=true› hheard.1
  · exact h

theorem foldl_forgetBond (peers : List PeerAddr) :
    peers.foldl forgetBond s={s with bonds:=s.bonds.filter fun b=>b.link.peer ∉ peers}:=by
  induction peers generalizing s with
  | nil=>simp
  | cons peer peers ih=>
    rw [List.foldl_cons,ih]
    simp [forgetBond,List.filter_filter,Bool.and_comm]

theorem BondSound.cleanupOnce (h : s.BondSound none)
    (hreads : s.sessionBondsCleaned=false→env.bleEnabled=true→∀ b∈s.bonds, b.boot≠s.boots →
      env.nvsOpens=true ∧ env.nvsReads=true) : (s.cleanupOnce env).BondSound none:=by
  unfold Transfer.cleanupOnce
  split
  · rename_i hfirst
    -- No bond of an earlier boot is left, or there was none.
    have hcleaned (bonds : List Bond) (ledger : List PeerAddr) (hsub : ∀ b∈bonds, b∈s.bonds)
        (hnew : ∀ b∈bonds, b.boot≠s.boots→b.link.peer ∉ s.ledger) : BondSound none { s with
          bonds:=bonds,ledger:=ledger,sessionBondsCleaned:=true }:=by
      refine ⟨fun b hb=>h.boots b (hsub b hb),fun b hb=>h.recorded b (hsub b hb),fun b hb hboot=>?_,h.unique⟩
      exact absurd (h.ledger b (hsub b hb) hboot).2 (hnew b hb hboot)
    have hunread (hnot : ¬(env.nvsOpens=true ∧ env.nvsReads=true)) (b : Bond) (hb : b∈s.bonds)
        (hboot : b.boot≠s.boots) : b.link.peer ∉ s.ledger:=
      absurd (hreads hfirst.1 hfirst.2 b hb hboot) hnot
    unfold cleanupStaleSessionBonds
    split
    · have hfilter : ∀ b∈s.bonds.filter (fun b=>b.link.peer ∉ s.ledger), b∈s.bonds ∧ b.link.peer ∉ s.ledger:=
        fun b hb=>by simpa using List.mem_filter.mp hb
      have hread (ledger : List PeerAddr):=hcleaned (s.bonds.filter fun b=>b.link.peer ∉ s.ledger) ledger
        (fun b hb=>(hfilter b hb).1) fun b hb _=>(hfilter b hb).2
      have hkept (hnot : ¬env.nvsReads=true) (ledger : List PeerAddr):=
        hcleaned s.bonds ledger (fun _ hb=>hb) (hunread fun hboth=>hnot hboth.2)
      dsimp only
      rw [foldl_forgetBond]
      split
      · split
        · exact hread []
        · exact hkept ‹_› []
      · split
        · exact hread s.ledger
        · exact hkept ‹_› s.ledger
    · rename_i hnot
      exact hcleaned s.bonds s.ledger (fun _ hb=>hb) (hunread fun hboth=>hnot hboth.1)
  · exact h

theorem BondSound.flushLedger (h : s.BondSound none)
    (hold : ∀ b∈s.bonds, b.boot≠s.boots → s.ledgerDirty=true→env.nvsOpens=true→env.nvsKeeps=true →
      s.isSessionPeer b.link.peer=true) : (s.flushLedger env).BondSound none:=by
  unfold Transfer.flushLedger
  split
  · rename_i hdirty
    unfold persistSessionLedger
    split
    · rename_i hkept
      refine ⟨h.boots,h.recorded,fun b hb hboot=>⟨(h.ledger b hb hboot).1,?_⟩,h.unique⟩
      exact mem_sessionPeerList.mpr (hold b hb hboot hdirty hkept.1 hkept.2)
    · exact h.congr rfl
  · exact h

theorem BondSound.tick {crc32 : Bytes→UInt32} (h : s.BondSound none) (hheeds : s.BondHeeds (.tick env)) :
    (s.tick crc32 env).BondSound none:=by
  have hcleaned : (s.cleanupOnce env).BondSound none:=by
    refine h.cleanupOnce fun hfirst hble b hb hboot=>?_
    have hreads:=hheeds hfirst b hb hboot
    rw [if_pos hble] at hreads
    exact hreads
  have hflushed : ((s.cleanupOnce env).flushLedger env).BondSound none:=by
    refine hcleaned.flushLedger fun b hb hboot=>?_
    have hnot:=(hcleaned.ledger b hb hboot).1
    by_cases hfirst : s.sessionBondsCleaned=false ∧ env.bleEnabled=true
    · have hdone : (s.cleanupOnce env).sessionBondsCleaned=true:=by
        unfold Transfer.cleanupOnce
        rw [if_pos hfirst]
      rw [hdone] at hnot
      cases hnot
    · have hsame : s.cleanupOnce env=s:=if_neg hfirst
      rw [hsame] at hb hboot hnot ⊢
      have hkeeps:=hheeds hnot b hb hboot
      rw [if_neg fun hble=>hfirst ⟨hnot,hble⟩] at hkeeps
      exact hkeeps
  exact (hflushed.recvs (exceptRecv_tickRecv env)).sends (exceptSend_tickSend env)

theorem BondSound.forgetAll (h : s.BondSound none)
    (hold : ∀ b∈s.bonds, b.boot≠s.boots → s.sessionPeerList≠[]→env.nvsOpens=true→env.nvsKeeps=true →
      s.isSessionPeer b.link.peer=true) : (s.forgetAllSessionPeers env).BondSound none:=by
  unfold forgetAllSessionPeers
  split
  · exact h
  · rename_i hsome
    have hfilter : ∀ b∈s.bonds.filter (fun b=>b.link.peer ∉ s.sessionPeerList),
        b∈s.bonds ∧ s.isSessionPeer b.link.peer=false:=fun b hb=>by
      obtain ⟨hb,hnot⟩:=List.mem_filter.mp hb
      refine ⟨hb,Bool.eq_false_iff.mpr fun hsession=>?_⟩
      exact absurd (mem_sessionPeerList.mpr hsession) (of_decide_eq_true hnot)
    have hforgot (ledger : List PeerAddr) (hledger : ∀ b∈s.bonds, s.isSessionPeer b.link.peer=false →
        b.boot≠s.boots→b.link.peer∈ledger) : BondSound none { s with
          bonds:=s.bonds.filter fun b=>b.link.peer ∉ s.sessionPeerList,sessionPeers:=fun _=>none
          ledger:=ledger,ledgerDirty:=false }:=by
      refine ⟨fun b hb=>h.boots b (hfilter b hb).1,fun b hb hne hboot=>?_,fun b hb hboot=>?_,h.unique⟩
      · rcases h.recorded b (hfilter b hb).1 hne hboot with hsession | hentry
        · exact absurd hsession (by rw [(hfilter b hb).2]; exact Bool.false_ne_true)
        · exact .inr hentry
      · exact ⟨(h.ledger b (hfilter b hb).1 hboot).1,hledger b (hfilter b hb).1 (hfilter b hb).2 hboot⟩
    dsimp only
    rw [foldl_forgetBond]
    unfold persistSessionLedger
    split
    · rename_i hkept
      refine hforgot _ fun b hb hnot hboot=>?_
      rw [hold b hb hboot hsome hkept.1 hkept.2] at hnot
      cases hnot
    · exact hforgot s.ledger fun b hb _ hboot=>(h.ledger b hb hboot).2

theorem BondSound.stop (h : s.BondSound none) (hheeds : s.BondHeeds (.stop env)) :
    (s.stop env).BondSound none:=by
  have hview : s.abandonRecv.abandonSend.keeper=s.keeper:=
    (keeper_of_exceptSend exceptSend_abandonSend).trans (keeper_of_exceptRecv exceptRecv_abandonRecv)
  have hheeds' : s.abandonRecv.abandonSend.BondHeeds (.stop env):=by
    have hkept : s.keeper.BondHeeds (.stop env):=hheeds
    rw [← hview] at hkept
    exact hkept
  have hforgot:=(h.congr hview).forgetAll fun b hb hboot=>hheeds' ((h.congr hview).ledger b hb hboot).1 b hb hboot
  exact hforgot.congr rfl

theorem bondSound_fresh (hbonds : s.bonds=[]) (hbonded : s.bonded=fun _=>none) : s.BondSound none where
  boots b hb:=by rw [hbonds] at hb; cases hb
  recorded b hb:=by rw [hbonds] at hb; cases hb
  ledger b hb:=by rw [hbonds] at hb; cases hb
  unique i j x y hi:=by rw [hbonded] at hi; cases hi

theorem BondSound.reboot (h : s.BondSound none) (hheeds : s.BondHeeds .reboot) : s.reboot.BondSound none where
  boots b hb:=Nat.le_succ_of_le (h.boots b hb)
  recorded b hb _ hboot:=absurd (h.boots b hb) (by rw [hboot]; exact Nat.not_succ_le_self _)
  ledger b hb _:=⟨rfl,hheeds b hb⟩
  unique i j x y hi:=by cases hi

theorem BondSound.step {crc32 : Bytes→UInt32} (h : s.BondSound none) {e : Event} (hheeds : s.BondHeeds e) :
    (Transfer.step crc32 s e).BondSound none:=by
  cases e with
  | linkUp conn peer env=>exact h.linkUp conn peer env
  | linkDown conn env=>exact h.linkDown hheeds
  | controlWrite conn data env=>
    dsimp only [Transfer.step]
    refine hear_cases (P:=fun t=>t.BondSound none) h fun link _=>?_
    exact h.recvs (exceptRecv_onControlWrite conn link data env)
  | dataWrite conn data env=>
    refine h.recvs ?_
    dsimp only [Transfer.step]
    unfold Transfer.dataWrite
    split
    · dsimp only
      split
      · exact exceptRecv_onDataWrite _ _ _
      · rfl
    · rfl
  | encChange conn status paired env=>exact h.encChange hheeds
  | showConsent=>
    refine h.recvs ?_
    dsimp only [Transfer.step]
    unfold Transfer.showConsent
    split <;> rfl
  | respondConsent accept env=>exact h.recvs (exceptRecv_respondConsent accept env)
  | tick env=>exact h.tick hheeds
  | serviceDiscovered | notification | writeComplete | sendTo | beginInteractiveSend | takeInteractiveRequest
  | confirmInteractiveTarget | cancelSend | consumeResult=>
    exact h.sends (exceptSend_step trivial)
  | start=>exact h.congr rfl
  | stop env=>exact h.stop hheeds
  | reboot=>exact h.reboot hheeds

end Bonds

end Transfer

/-- In every run in which no disconnect of a bond that is no session peer's is missed, no pairing of a transfer goes
without record, and the ledger has every bond when the badge goes off and keeps it until the cleanup, which reads it,
the bonds that are left are with session peers or over links that are up, and of this boot after the cleanup. -/
theorem bonds_hygienic (crc32 : Bytes→UInt32) (es : List Event)
    (hheeds : AlongRun (Transfer.step crc32) Transfer.BondHeeds {} es) :
    (run (Transfer.step crc32) {} es).Hygienic:=by
  have hfresh : Transfer.BondSound none {}:=Transfer.bondSound_fresh rfl rfl
  have hsound:=run_invariant (I:=Transfer.BondSound none) (fun _ _ hh h=>h.step hh) hfresh hheeds
  exact hsound.hygienic

def partner : PeerAddr:={addr:=zeros 6,addrType:=0}

def anyCrc (_ : Bytes) : UInt32:=0

def pairedRun (nameByte : UInt8) : List Event:=[
  .start,
  .linkUp 1 partner {},
  .controlWrite 1 [offerOp,kProtocolVersion,1,0,0,0,1,nameByte,0x74] {},
  .tick {},
  .showConsent,
  .respondConsent true {},
  .encChange 1 0 true {}]

/-- A peer of the session is in the ledger before the badge goes off, and forgotten after that. -/
theorem bonds_hygienic_ledger :
    (run (Transfer.step anyCrc) {} (pairedRun 0x80++[.tick {},.reboot,.tick {}])).Hygienic ∧
      (run (Transfer.step anyCrc) {} (pairedRun 0x80++[.tick {}])).bonds≠[] ∧
      (run (Transfer.step anyCrc) {} (pairedRun 0x80++[.tick {},.reboot,.tick {}])).bonds=[]:=
  ⟨bonds_hygienic anyCrc _ (by decide +kernel),by decide +kernel,by decide +kernel⟩

/-- The badge goes off in the middle of a transfer: no ledger knows of the bond, and it stays after the cleanup. -/
theorem bonds_outlive_crash : ¬∀ es : List Event, (run (Transfer.step anyCrc) {} es).Hygienic:=by
  intro hall
  have hcleaned:=(hall (pairedRun 0++[.tick {},.reboot,.tick {}])).cleaned (by decide +kernel)
  exact absurd hcleaned (by decide +kernel)

end CdcBadge.Msg
