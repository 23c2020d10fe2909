import CdcBadge.CtaphidChannels

/-!
# Resynchronisation by INIT

INIT is handled on a record of its own, and what that clears is not the slot. A channel
that was assembling a message goes on with it after INIT, and its next init packet is
answered CHANNEL_BUSY.
-/

namespace CdcBadge.Ctaphid

open Runs

section Broadcast

variable {s : State} {cid : UInt32} {m : Message} {p : Packet} {env : Env}

def NoBroadcast (s : State) : Prop:=∀ i, (s.channels i).cid≠broadcastCid

theorem NoBroadcast.congr {t : State} (h : NoBroadcast s) (hcid : ∀ i, (t.channels i).cid=(s.channels i).cid) :
    NoBroadcast t:=
  fun i=>hcid i ▸ h i

theorem NoBroadcast.alloc {t : State} {i : Fin 8} (h : NoBroadcast s) (hcid : cid≠broadcastCid)
    (halloc : allocChannel cid s=some (i,t)) : NoBroadcast t:=by
  rcases allocChannel_cases halloc with ⟨-,rfl⟩ | ⟨-,rfl⟩
  · exact h
  · intro j
    by_cases hj : j=i
    · subst hj
      rw [modifyChannel_self]
      exact hcid
    · rw [modifyChannel_other hj]
      exact h j

theorem NoBroadcast.sendError (h : NoBroadcast s) (error : UInt8) : NoBroadcast (sendError cid error s):=by
  by_cases hkept : findChannel cid s≠none ∨ cid=0 ∨ cid=broadcastCid ∨ allocChannel cid s=none
  · exact h.congr (cid_of_assemblies (sendError_assemblies error hkept))
  · simp only [not_or,not_not] at hkept
    obtain ⟨hfind,hzero,hb,halloc⟩:=hkept
    obtain ⟨⟨i,t⟩,ht⟩:=Option.ne_none_iff_exists'.mp halloc
    have hsend : Ctaphid.sendError cid error s=prepareResponseOn i cid cmdError [error] t:=by
      simp only [Ctaphid.sendError,hfind,if_pos (And.intro hzero hb),ht]
    rw [hsend]
    exact (h.alloc hb ht).congr (cid_of_assemblies (prepareResponseOn_assemblies _ _ _ _ _))

theorem skipReserved_ne (cid : UInt32) : skipReserved cid≠broadcastCid:=by
  unfold skipReserved
  split
  · decide
  · rename_i h
    exact fun hb=>h (.inr hb)

theorem NoBroadcast.handleInit (h : NoBroadcast s) : NoBroadcast (handleInit m s):=by
  unfold Ctaphid.handleInit
  split
  · exact h.sendError _
  · have hinit : NoBroadcast (initCid m.cid {s with cancelled:=false}).2 ∧
        (initCid m.cid {s with cancelled:=false}).1≠broadcastCid:=by
      unfold initCid
      split
      · exact ⟨h,skipReserved_ne _⟩
      · exact ⟨h,‹_›⟩
    dsimp only
    cases halloc : allocChannel (initCid m.cid {s with cancelled:=false}).1
        (initCid m.cid {s with cancelled:=false}).2 with
    | none=>exact hinit.1.sendError _
    | some it=>exact (hinit.1.alloc hinit.2 halloc).congr (cid_of_assemblies (prepareResponseOn_assemblies _ _ _ _ _))

theorem NoBroadcast.packet (h : NoBroadcast s) : NoBroadcast (processPacket p env s).1:=by
  have hrate : NoBroadcast (rateLimit env.now s).2:=h.congr (cid_of_assemblies (rateLimit_assemblies env.now s))
  cases hfind : findChannel p.cid s with
  | some i=>
    exact h.congr fun j=>(processPacket_other hfind ((findChannel_some hfind).1 ▸ h i) j).1
  | none=>
    have hnone : findChannel p.cid (rateLimit env.now s).2=none:=
      (findChannel_congr (cid_of_assemblies (rateLimit_assemblies env.now s))).trans hfind
    cases hlimit : (rateLimit env.now s).1 with
    | true=>
      rw [processPacket_limited hlimit]
      exact hrate
    | false=>
      have hrun:=processPacket_run (p:=p) hlimit
      generalize processPacket p env s=r at hrun
      cases hrun with
      | opened hp=>exact hrate.handleInit
      | refused hp error=>exact hrate.sendError error
      | outOfSequence hp hk=>exact absurd (hnone.symm.trans hk) (by simp)
      | assembled hp hk hf=>exact absurd (hnone.symm.trans hk) (by simp)

theorem NoBroadcast.step (h : NoBroadcast s) (e : Event) : NoBroadcast (step s e):=by
  cases e with
  | packet p env=>exact h.packet
  | getResponsePacket=>exact h.congr (cid_of_assemblies (getResponsePacket_assemblies s))
  | checkTimeout now=>exact h.congr (checkTimeout_cid now s)

/-- The state after any events from power-on. -/
def Reachable (s : State) : Prop:=∃ es, s=run Ctaphid.step {} es

theorem Reachable.noBroadcast (h : Reachable s) : NoBroadcast s:=by
  obtain ⟨es,rfl⟩:=h
  refine run_invariant (P:=fun _ _=>True) (fun s e _ hs=>hs.step e) ?_ (alongRun_true _ _)
  exact fun _=>(by decide : (0 : UInt32)≠broadcastCid)

end Broadcast

/-- An event that is none of the channel's: a packet on another identifier that holds a slot, a packet sent, or a look
for timeouts that finds none. -/
def Bystander (c : UInt32) (s : State) : Event→Prop
  | .packet p _=>p.cid≠c ∧ findChannel p.cid s≠none
  | .getResponsePacket=>True
  | .checkTimeout now=>∀ i, (s.channels i).active=true→¬now-(s.channels i).lastActivity > msgTimeoutMs

/-- Nothing of a message is left in the channel, and the init packet starts a new one. -/
structure Resynchronised (q : Packet) (env : Env) (i : Fin 8) (s : State) : Prop where
  discarded : (s.channels i).active=false
  starts : processPacket q env s =
    processIfComplete i env ((rateLimit env.now s).2.modifyChannel i (Channel.start q env.noted))

def AnswersBusy (q : Packet) (env : Env) (s : State) : Prop:=
  processPacket q env s=(sendError q.cid errChannelBusy (rateLimit env.now s).2,none)

section Resync

variable {s : State} {c : UInt32} {i : Fin 8} {p q : Packet} {env : Env}

theorem checkTimeout_none {now : UInt32} (h : Bystander c s (.checkTimeout now)) : checkTimeout now s=s:=by
  unfold checkTimeout
  induction slots with
  | nil=>rfl
  | cons j js ih=>
    rw [List.foldl_cons]
    dsimp only
    rw [if_neg,ih]
    intro hj
    rw [Bool.and_eq_true,decide_eq_true_iff] at hj
    exact h j hj.1 hj.2

theorem bystander_step (hs : NoBroadcast s) (hslot : findChannel c s=some i) {e : Event} (he : Bystander c s e) :
    findChannel c (step s e)=some i ∧ (step s e).assemblies i=s.assemblies i:=by
  cases e with
  | packet p env=>
    obtain ⟨hp,hknown⟩:=he
    obtain ⟨j,hj⟩:=Option.ne_none_iff_exists'.mp hknown
    have hcid : p.cid≠broadcastCid:=(findChannel_some hj).1 ▸ hs j
    have hij : i≠j:=by
      rintro rfl
      exact hp ((findChannel_some hj).1.symm.trans (findChannel_some hslot).1)
    refine ⟨?_,(processPacket_other hj hcid i).2 hij⟩
    rw [← hslot]
    exact findChannel_congr fun k=>(processPacket_other hj hcid k).1
  | getResponsePacket=>
    have hsame:=getResponsePacket_assemblies s
    exact ⟨(findChannel_congr (cid_of_assemblies hsame)).trans hslot,congrFun hsame i⟩
  | checkTimeout now=>
    rw [step,checkTimeout_none he]
    exact ⟨hslot,rfl⟩

theorem bystander_run (hs : NoBroadcast s) (hslot : findChannel c s=some i) {es : List Event}
    (hes : AlongRun step (Bystander c) s es) :
    findChannel c (run step s es)=some i ∧ (run step s es).assemblies i=s.assemblies i:=by
  induction es generalizing s with
  | nil=>exact ⟨hslot,rfl⟩
  | cons e es ih=>
    obtain ⟨hnext,hsame⟩:=bystander_step hs hslot hes.1
    obtain ⟨hend,hrest⟩:=ih (hs.step e) hnext hes.2
    exact ⟨hend,hrest.trans hsame⟩

theorem init_assemblies (hs : NoBroadcast s) (hslot : findChannel p.cid s=some i) (hp : p.opens)
    (hlimit : (rateLimit env.now s).1=false) : (step s (.packet p env)).assemblies=s.assemblies:=by
  have hrate:=rateLimit_assemblies env.now s
  have ht : findChannel p.cid (rateLimit env.now s).2=some i:=
    (findChannel_congr (cid_of_assemblies hrate)).trans hslot
  have hcid : p.cid≠broadcastCid:=(findChannel_some hslot).1 ▸ hs i
  have hrun:=processPacket_run (p:=p) hlimit
  rw [step]
  generalize processPacket p env s=r at hrun
  cases hrun with
  | opened=>exact (handleInit_assemblies (m:=p.initMessage) ht hcid).trans hrate
  | refused hn=>exact absurd hp hn
  | outOfSequence hn=>exact absurd hp hn
  | assembled hn=>exact absurd hp hn

/-- An init packet on an idle channel starts a message; on an active one it is answered CHANNEL_BUSY. -/
theorem processPacket_init (hslot : findChannel q.cid s=some i) (hinit : q.isInit=true) (hsize : q.bcnt ≤ maxMsgSize)
    (hcmd : q.cmd≠cmdInit) (hlimit : (rateLimit env.now s).1=false) :
    processPacket q env s =
      if (s.channels i).active then (sendError q.cid errChannelBusy (rateLimit env.now s).2,none)
      else processIfComplete i env ((rateLimit env.now s).2.modifyChannel i (Channel.start q env.noted)):=by
  have hrate:=rateLimit_assemblies env.now s
  have ht : findChannel q.cid (rateLimit env.now s).2=some i:=
    (findChannel_congr (cid_of_assemblies hrate)).trans hslot
  rw [processPacket_accepted hlimit,if_pos hinit,processInitPacket,if_neg (not_lt.mpr hsize),if_neg hcmd,ht]
  dsimp only
  rw [active_of_assemblies hrate]

/-- After INIT on a channel and traffic of other channels, the channel is resynchronised exactly if it was idle
before; otherwise its next init packet is answered CHANNEL_BUSY. -/
theorem resynchronised_iff (hs : Reachable s) (hslot : findChannel p.cid s=some i) (hp : p.opens)
    (hlimit : (rateLimit env.now s).1=false) {es : List Event}
    (hes : AlongRun step (Bystander p.cid) (step s (.packet p env)) es) {env' : Env} (hq : q.cid=p.cid)
    (hinit : q.isInit=true) (hsize : q.bcnt ≤ maxMsgSize) (hcmd : q.cmd≠cmdInit)
    (hlimit' : (rateLimit env'.now (run step (step s (.packet p env)) es)).1=false) :
    (Resynchronised q env' i (run step (step s (.packet p env)) es) ↔ (s.channels i).active=false) ∧
      ((s.channels i).active=true → AnswersBusy q env' (run step (step s (.packet p env)) es)):=by
  have hfree:=hs.noBroadcast
  have hsame:=init_assemblies hfree hslot hp hlimit
  have hnext : findChannel p.cid (step s (.packet p env))=some i:=
    (findChannel_congr (cid_of_assemblies hsame)).trans hslot
  obtain ⟨hend,hkept⟩:=bystander_run (hfree.step _) hnext hes
  generalize run step (step s (.packet p env)) es=t at hend hkept hlimit'
  have hactive : (t.channels i).active=(s.channels i).active:=by
    have h:=congrArg Channel.active (hkept.trans (congrFun hsame i))
    exact h
  have hfind : findChannel q.cid t=some i:=by rw [hq]; exact hend
  have hanswer:=processPacket_init hfind hinit hsize hcmd hlimit'
  rw [hactive] at hanswer
  refine ⟨⟨fun h=>hactive ▸ h.discarded,fun hidle=>⟨hactive.trans hidle,?_⟩⟩,fun hbusy=>?_⟩
  · rw [hanswer,hidle,if_neg (by simp)]
  · rw [AnswersBusy,hanswer,hbusy,if_pos rfl]

end Resync

def longPing (cid : UInt32) : Packet:=buildInitPacket cid cmdPing 100 (List.replicate 57 0xA5)

def halfway : State:=run step {} [.packet (initRequest broadcastCid) {},.packet (longPing 1) {}]

theorem reachable_halfway : Reachable halfway:=⟨_,rfl⟩

theorem resynchronised_iff_halfway :
    (Resynchronised (emptyPing 1) {} 0
        (run step (step halfway (.packet (initRequest 1) {})) [.getResponsePacket,.checkTimeout 0]) ↔
      (halfway.channels 0).active=false) ∧
      ((halfway.channels 0).active=true → AnswersBusy (emptyPing 1) {}
        (run step (step halfway (.packet (initRequest 1) {})) [.getResponsePacket,.checkTimeout 0])):=by
  have hidentifier : (emptyPing 1).cid=(initRequest 1).cid:=by decide
  have hquiet : Bystander (initRequest 1).cid
      (step (step halfway (.packet (initRequest 1) {})) .getResponsePacket) (.checkTimeout 0):=by
    unfold Bystander
    decide +kernel
  have hes : AlongRun step (Bystander (initRequest 1).cid) (step halfway (.packet (initRequest 1) {}))
      [.getResponsePacket,.checkTimeout 0]:=⟨trivial,hquiet,trivial⟩
  exact resynchronised_iff reachable_halfway (by decide +kernel) (by decide) (by decide +kernel) hes
    hidentifier (by decide) (by decide) (by decide) (by decide +kernel)

/-- INIT on a channel halfway through a message, and the next init packet is answered CHANNEL_BUSY. -/
theorem resynchronised_busy : ¬ ∀ (s : State) (p q : Packet) (env env' : Env) (i : Fin 8), Reachable s →
    findChannel p.cid s=some i→p.opens → 8 ≤ p.bcnt→(rateLimit env.now s).1=false→q.cid=p.cid →
    q.isInit=true→q.bcnt ≤ maxMsgSize→q.cmd≠cmdInit→(rateLimit env'.now (step s (.packet p env))).1=false →
    Resynchronised q env' i (step s (.packet p env)):=by
  intro h
  have hidle:=(h halfway (initRequest 1) (emptyPing 1) {} {} 0 reachable_halfway (by decide +kernel) (by decide)
    (by decide) (by decide +kernel) (by decide) (by decide) (by decide) (by decide) (by decide +kernel)).discarded
  revert hidle
  decide +kernel

end CdcBadge.Ctaphid
