import CdcBadge.CtaphidLimits
import CdcBadge.CtaphidIdentity

/-!
# Which channel makes room

A full table gives up the idle channel with the lowest activity stamp. The stamp is written when a
packet starts or continues a message, and by nothing else: an INIT leaves its channel with the stamp of
whoever had the slot before.
-/

namespace CdcBadge.Ctaphid

open Runs

def State.stamp (s : State) (i : Fin 8) : UInt32:=(s.channels i).lastActivity

/-- The packet starts or continues the message of its channel. -/
def TakesPart (p : Packet) (s : State) (i : Fin 8) : Prop:=
  findChannel p.cid s=some i ∧
    (p.isInit=true ∧ p.bcnt ≤ maxMsgSize ∧ p.cmd≠cmdInit ∧ (s.channels i).active=false ∨
      p.isInit=false ∧ (s.channels i).active=true ∧ p.seq=(s.channels i).seq)

instance (p : Packet) (s : State) (i : Fin 8) : Decidable (TakesPart p s i):=inferInstanceAs (Decidable (_ ∧ _))

section Stamps

variable {s t : State} {i j : Fin 8} {cid : UInt32} {m : Message} {env : Env} {p : Packet}

theorem modifyChannel_stamp {f : Channel → Channel} (hf : (f (s.channels i)).lastActivity=(s.channels i).lastActivity) :
    (s.modifyChannel i f).stamp j=s.stamp j:=by
  unfold State.stamp
  by_cases hj : j=i
  · subst hj
    rw [modifyChannel_self,hf]
  · rw [modifyChannel_other hj]

@[simp] theorem prepareResponseOn_stamp (cmd : UInt8) (data : Bytes) :
    (prepareResponseOn i cid cmd data s).stamp j=s.stamp j:=modifyChannel_stamp rfl

@[simp] theorem prepareResponse_stamp (cmd : UInt8) (data : Bytes) : (prepareResponse cid cmd data s).stamp j=s.stamp j:=by
  unfold prepareResponse
  split
  · rfl
  · exact prepareResponseOn_stamp _ _

theorem allocChannel_stamp (h : allocChannel cid s=some (i,t)) : t.stamp j=s.stamp j:=by
  rcases allocChannel_cases h with ⟨-,rfl⟩ | ⟨-,rfl⟩
  · rfl
  · exact modifyChannel_stamp rfl

@[simp] theorem sendError_stamp (error : UInt8) : (sendError cid error s).stamp j=s.stamp j:=
  sendError_frame allocChannel_stamp (prepareResponseOn_stamp _ _) error

theorem handleInit_stamp : (handleInit m s).stamp j=s.stamp j:=by
  unfold handleInit
  split
  · exact sendError_stamp _
  · have hcid : (initCid m.cid {s with cancelled:=false}).2.stamp j=s.stamp j:=by
      unfold initCid
      split <;> rfl
    generalize initCid m.cid {s with cancelled:=false}=x at hcid
    obtain ⟨newCid,u⟩:=x
    dsimp only at hcid ⊢
    cases halloc : allocChannel newCid u with
    | none=>exact (sendError_stamp _).trans hcid
    | some it=>
      obtain ⟨k,t⟩:=it
      exact ((prepareResponseOn_stamp _ _).trans (allocChannel_stamp halloc)).trans hcid

theorem dispatch_stamp : (dispatch m env s).stamp j=s.stamp j:=by
  unfold dispatch
  split_ifs
  · exact handleInit_stamp
  · exact prepareResponse_stamp _ _
  · exact prepareResponse_stamp _ _
  · rfl
  · unfold handleCbor
    split_ifs
    · exact sendError_stamp _
    · split
      · exact sendError_stamp _
      · exact prepareResponseOn_stamp (s:={s with cancelled:=env.cancelled}) _ _
  · exact prepareResponse_stamp (s:={s with cancelled:=env.cancelled}) _ _
  · exact sendError_stamp _

theorem processIfComplete_stamp : (processIfComplete i env s).1.stamp j=s.stamp j:=by
  unfold processIfComplete
  dsimp only
  split
  · exact (modifyChannel_stamp rfl).trans dispatch_stamp
  · rfl

theorem rateLimit_channels (now : UInt32) (s : State) : (rateLimit now s).2.channels=s.channels:=by
  unfold rateLimit
  split <;> rfl

theorem takesPart_congr (h : t.channels=s.channels) : TakesPart p t i ↔ TakesPart p s i:=by
  unfold TakesPart findChannel
  rw [h]

theorem stamped_assembly {f : Channel → Channel} (hf : ∀ ch, (f ch).lastActivity=env.noted) :
    (processIfComplete i env (s.modifyChannel i f)).1.stamp j=if j=i then env.noted else s.stamp j:=by
  rw [processIfComplete_stamp]
  unfold State.stamp
  by_cases hj : j=i
  · subst hj
    rw [modifyChannel_self,hf,if_pos rfl]
  · rw [modifyChannel_other hj,if_neg hj]

/-- A packet that is not dropped stamps the slot whose message it takes part in, and no other. -/
theorem accepted_stamp (h : (rateLimit env.now s).1=false) :
    (processPacket p env s).1.stamp j=if TakesPart p s j then env.noted else s.stamp j:=by
  have hsame : ∀ j, (rateLimit env.now s).2.stamp j=s.stamp j:=by
    intro j
    unfold State.stamp
    rw [rateLimit_channels]
  have hif : (if TakesPart p s j then env.noted else s.stamp j) =
      if TakesPart p (rateLimit env.now s).2 j then env.noted else (rateLimit env.now s).2.stamp j:=by
    rw [hsame j]
    exact if_congr (takesPart_congr (rateLimit_channels env.now s)).symm rfl rfl
  rw [hif,processPacket_accepted h]
  generalize (rateLimit env.now s).2=u
  have hkept : (∀ i, ¬TakesPart p u i)→∀ {v : State}, v.stamp j=u.stamp j →
      v.stamp j=if TakesPart p u j then env.noted else u.stamp j:=by
    intro hno v hv
    rw [if_neg (hno j),hv]
  have htaken : ∀ {i : Fin 8}, TakesPart p u i→(TakesPart p u j ↔ j=i):=by
    intro i hi
    constructor
    · intro hj
      exact Option.some.inj (hj.1.symm.trans hi.1)
    · rintro rfl
      exact hi
  cases hinit : p.isInit with
  | true=>
    rw [if_pos rfl]
    unfold processInitPacket
    split
    · rename_i hsize
      refine hkept ?_ (sendError_stamp _)
      rintro i ⟨-,⟨-,hle,-⟩ | ⟨hcont,-⟩⟩
      · omega
      · rw [hinit] at hcont
        cases hcont
    · split
      · rename_i hsize hcmd
        refine hkept ?_ dispatch_stamp
        rintro i ⟨-,⟨-,-,hne,-⟩ | ⟨hcont,-⟩⟩
        · exact hne hcmd
        · rw [hinit] at hcont
          cases hcont
      · rename_i hsize hcmd
        cases hfind : findChannel p.cid u with
        | none=>
          refine hkept ?_ (sendError_stamp _)
          rintro i ⟨hi,-⟩
          rw [hfind] at hi
          cases hi
        | some i=>
          dsimp only
          split
          · rename_i hactive
            refine hkept ?_ (sendError_stamp _)
            rintro k ⟨hk,⟨-,-,-,hidle⟩ | ⟨hcont,-⟩⟩
            · cases (show some i=some k from hfind.symm.trans hk)
              rw [hactive] at hidle
              cases hidle
            · rw [hinit] at hcont
              cases hcont
          · rename_i hactive
            have htakes : TakesPart p u i:=
              ⟨hfind,Or.inl ⟨hinit,not_lt.mp hsize,hcmd,by simpa using hactive⟩⟩
            rw [stamped_assembly fun _=>rfl]
            simp only [htaken htakes]
  | false=>
    rw [if_neg (by simp)]
    unfold processContPacket
    cases hfind : findChannel p.cid u with
    | none=>
      refine hkept ?_ (sendError_stamp _)
      rintro i ⟨hi,-⟩
      rw [hfind] at hi
      cases hi
    | some i=>
      have hother : ∀ k, TakesPart p u k→k=i ∧ (u.channels i).active=true ∧ p.seq=(u.channels i).seq:=by
        rintro k ⟨hk,⟨hopen,-⟩ | ⟨-,hactive,hseq⟩⟩
        · rw [hinit] at hopen
          cases hopen
        · cases (show some i=some k from hfind.symm.trans hk)
          exact ⟨rfl,hactive,hseq⟩
      dsimp only
      split
      · rename_i hidle
        refine hkept ?_ (sendError_stamp _)
        intro k hk
        have:=(hother k hk).2.1
        rw [this] at hidle
        cases hidle
      · rename_i hactive
        split
        · rename_i hseq
          refine hkept ?_ ((sendError_stamp _).trans (modifyChannel_stamp rfl))
          intro k hk
          exact hseq (hother k hk).2.2
        · rename_i hseq
          have htakes : TakesPart p u i:=
            ⟨hfind,Or.inr ⟨hinit,by simpa using hactive,not_not.mp hseq⟩⟩
          rw [stamped_assembly fun _=>rfl]
          simp only [htaken htakes]

theorem getResponsePacket_stamp : (getResponsePacket s).2.stamp j=s.stamp j:=
  getResponsePacket_frame (g:=fun s=>s.stamp j) rfl (modifyChannel_stamp rfl)

theorem checkTimeout_stamp (now : UInt32) : (checkTimeout now s).stamp j=s.stamp j:=
  checkTimeout_frame (g:=fun s=>s.stamp j) (sendError_stamp _) (modifyChannel_stamp rfl) now

end Stamps

/-- Neither in the middle of a message nor owed a response. -/
def State.idle (s : State) (i : Fin 8) : Prop:=(s.channels i).active=false ∧ (s.channels i).response.pending=false

/-- What the search has come to over some slots: nothing, where every idle one has the last stamp, or an idle one with
the lowest. -/
def Oldest (s : State) (seen : List (Fin 8)) (best : Option (Fin 8) × UInt32) : Prop:=
  best.1=none ∧ best.2=0xFFFFFFFF ∧ (∀ j∈seen, s.idle j → s.stamp j=0xFFFFFFFF) ∨
    ∃ i, best.1=some i ∧ best.2=s.stamp i ∧ s.idle i ∧ ∀ j∈seen, s.idle j → s.stamp i ≤ s.stamp j

theorem oldest_step {s : State} {seen : List (Fin 8)} {best : Option (Fin 8) × UInt32} (h : Oldest s seen best) (k : Fin 8) :
    Oldest s (seen++[k])
      (if !(s.channels k).active && !(s.channels k).response.pending && (s.channels k).lastActivity < best.2 then
        (some k,(s.channels k).lastActivity) else best):=by
  have hlast : ∀ x : UInt32, ¬x < 0xFFFFFFFF→x=0xFFFFFFFF:=by
    intro x hx
    have hmax : x.toNat < 2^32:=x.toNat_lt
    have hlow : ¬x.toNat < 4294967295:=hx
    apply UInt32.toNat_inj.mp
    show x.toNat=4294967295
    omega
  by_cases hidle : s.idle k
  · by_cases hlower : s.stamp k < best.2
    · have htaken : (!(s.channels k).active && !(s.channels k).response.pending &&
          decide ((s.channels k).lastActivity < best.2))=true:=by
        have hstamp : (s.channels k).lastActivity < best.2:=hlower
        simp [hidle.1,hidle.2,hstamp]
      rw [if_pos htaken]
      refine Or.inr ⟨k,rfl,rfl,hidle,?_⟩
      intro j hj hjidle
      rcases List.mem_append.mp hj with hj | hj
      · rcases h with ⟨-,-,hnone⟩ | ⟨i,-,hbest,-,hmin⟩
        · rw [hnone j hj hjidle]
          have hmax : (s.stamp k).toNat < 2^32:=(s.stamp k).toNat_lt
          show (s.stamp k).toNat ≤ 4294967295
          omega
        · rw [hbest] at hlower
          exact UInt32.le_trans (UInt32.le_of_lt hlower) (hmin j hj hjidle)
      · rw [List.mem_singleton.mp hj]
        exact UInt32.le_refl _
    · have hkept : ¬(!(s.channels k).active && !(s.channels k).response.pending &&
          decide ((s.channels k).lastActivity < best.2))=true:=by
        intro htaken
        simp only [Bool.and_eq_true,decide_eq_true_eq] at htaken
        exact hlower htaken.2
      rw [if_neg hkept]
      rcases h with ⟨hnone,hbest,hall⟩ | ⟨i,hi,hbest,hiidle,hmin⟩
      · refine Or.inl ⟨hnone,hbest,?_⟩
        intro j hj hjidle
        rcases List.mem_append.mp hj with hj | hj
        · exact hall j hj hjidle
        · rw [List.mem_singleton.mp hj]
          rw [hbest] at hlower
          exact hlast _ hlower
      · refine Or.inr ⟨i,hi,hbest,hiidle,?_⟩
        intro j hj hjidle
        rcases List.mem_append.mp hj with hj | hj
        · exact hmin j hj hjidle
        · rw [List.mem_singleton.mp hj]
          rw [hbest] at hlower
          exact UInt32.not_lt.mp hlower
  · have hkept : ¬(!(s.channels k).active && !(s.channels k).response.pending &&
        decide ((s.channels k).lastActivity < best.2))=true:=by
      intro htaken
      simp only [Bool.and_eq_true,Bool.not_eq_true'] at htaken
      exact hidle htaken.1
    rw [if_neg hkept]
    have hrest : ∀ j∈seen++[k], s.idle j→j∈seen:=by
      intro j hj hjidle
      rcases List.mem_append.mp hj with hj | hj
      · exact hj
      · exact absurd (List.mem_singleton.mp hj ▸ hjidle) hidle
    rcases h with ⟨hnone,hbest,hall⟩ | ⟨i,hi,hbest,hiidle,hmin⟩
    · exact Or.inl ⟨hnone,hbest,fun j hj hjidle=>hall j (hrest j hj hjidle) hjidle⟩
    · exact Or.inr ⟨i,hi,hbest,hiidle,fun j hj hjidle=>hmin j (hrest j hj hjidle) hjidle⟩

theorem oldest_fold {s : State} (is seen : List (Fin 8)) {best : Option (Fin 8) × UInt32} (h : Oldest s seen best) :
    Oldest s (seen++is)
      (is.foldl (fun oldest i=>
        let ch:=s.channels i
        if !ch.active && !ch.response.pending && ch.lastActivity < oldest.2 then (some i,ch.lastActivity)
        else oldest) best):=by
  induction is generalizing seen best with
  | nil=>simpa using h
  | cons i is ih=>
    rw [List.foldl_cons,List.append_cons]
    exact ih (seen++[i]) (oldest_step h i)

/-- The slot that is given up is idle and has the lowest stamp of the idle ones; none is only where all of these have
the last stamp there is. -/
theorem oldestIdle_spec (s : State) :
    (∀ i, oldestIdle s=some i → s.idle i ∧ ∀ j, s.idle j → s.stamp i ≤ s.stamp j) ∧
      (oldestIdle s=none→∀ j, s.idle j → s.stamp j=0xFFFFFFFF):=by
  have hnone : Oldest s [] (none,0xFFFFFFFF):=Or.inl ⟨rfl,rfl,fun _ hj=>absurd hj List.not_mem_nil⟩
  have hfold:=oldest_fold slots [] hnone
  rw [List.nil_append] at hfold
  change Oldest s slots _ at hfold
  constructor
  · intro i hi
    rcases hfold with ⟨hnone,-⟩ | ⟨k,hk,-,hidle,hmin⟩
    · have : oldestIdle s=none:=hnone
      rw [this] at hi
      cases hi
    · have hki : k=i:=Option.some.inj ((show oldestIdle s=some k from hk).symm.trans hi)
      subst hki
      exact ⟨hidle,fun j hj=>hmin j (mem_slots j) hj⟩
  · intro hnone j hj
    rcases hfold with ⟨-,-,hall⟩ | ⟨k,hk,-⟩
    · exact hall j (mem_slots j) hj
    · rw [show oldestIdle s=some k from hk] at hnone
      cases hnone

/-- An event with its times in milliseconds since the start; the clock that the code reads has 32 bits. -/
inductive TimedEvent
  | packet (p : Packet) (now noted : ℕ) (reply : Bytes) (cancelled : Bool)
  | getResponsePacket
  | checkTimeout (now : ℕ)

def TimedEvent.event : TimedEvent → Event
  | .packet p now noted reply cancelled=>
    .packet p {now:=UInt32.ofNat now,noted:=UInt32.ofNat noted,reply:=reply,cancelled:=cancelled}
  | .getResponsePacket=>.getResponsePacket
  | .checkTimeout now=>.checkTimeout (UInt32.ofNat now)

/-- The slot of the channel that a packet is on: of the one that INIT hands out, else of the one it names. -/
def concerned (s : State) (e : Event) (cid : UInt32) : Option (Fin 8):=
  match assigned s e with
  | some c=>findChannel c (step s e)
  | none=>(findChannel cid s).or (findChannel cid (step s e))

def stampsSlot (s : State) (p : Packet) (now : UInt32) (i : Fin 8) : Bool:=
  !(rateLimit now s).1 && decide (TakesPart p s i)

/-- The state with what the code does not keep: when the last packet on each slot's channel came. -/
structure History where
  state : State:={}
  seen : Fin 8 → ℕ:=fun _=>0
  /-- The last packet on the channel started or continued a message. -/
  kept : Fin 8→Bool:=fun _=>true

def History.step (h : History) (e : TimedEvent) : History:=
  let h':={h with state:=Ctaphid.step h.state e.event}
  match e with
  | .packet p now noted _ _=>
    match concerned h.state e.event p.cid with
    | none=>h'
    | some i=>
      let stamps:=stampsSlot h.state p (UInt32.ofNat now) i
      { h' with
        seen:=Function.update h.seen i (if stamps then noted else now)
        kept:=Function.update h.kept i stamps }
  | _=>h'

/-- A full table gives up an idle channel that no idle one has been still for longer than, if there is an idle one. -/
structure EvictsOldest (h : History) : Prop where
  oldest : ∀ cid i t, findChannel cid h.state=none→allocChannel cid h.state=some (i,t) →
    h.state.idle i ∧ ∀ j, h.state.idle j→h.seen i ≤ h.seen j
  evicts : ∀ cid, (∃ j, h.state.idle j)→allocChannel cid h.state≠none

/-- The last packet on every idle channel started or continued a message, all of them within one turn of the clock and
one of them before its last millisecond. -/
structure Stamped (h : History) : Prop where
  kept : ∀ j, h.state.idle j→h.kept j=true
  turn : ∀ i j, h.state.idle i→h.state.idle j→h.seen i/2^32=h.seen j/2^32
  before : (∃ j, h.state.idle j)→∃ j, h.state.idle j ∧ h.seen j % 2^32≠2^32-1

def State.full (s : State) : Prop:=∀ i, (s.channels i).cid≠0

instance (s : State) : Decidable s.full:=inferInstanceAs (Decidable (∀ _, _))

/-- The stamp of a slot is the time of its channel's last packet, where that packet is one that stamps. -/
def StampsSeen (h : History) : Prop:=∀ j, h.kept j=true→h.state.stamp j=UInt32.ofNat (h.seen j)

theorem concerned_takesPart {s : State} {p : Packet} {env : Env} {i : Fin 8} (h : TakesPart p s i) :
    concerned s (.packet p env) p.cid=some i:=by
  have hnot : ¬p.opens:=by
    rintro ⟨hinit,-,hcmd⟩
    rcases h.2 with ⟨-,-,hne,-⟩ | ⟨hcont,-⟩
    · exact hne hcmd
    · rw [hinit] at hcont
      cases hcont
  have hnone : assigned s (.packet p env)=none:=if_neg fun hopens=>hnot hopens.2
  rw [concerned,hnone,h.1]
  rfl

theorem packet_stamp (p : Packet) (env : Env) (s : State) (j : Fin 8) :
    (processPacket p env s).1.stamp j=if stampsSlot s p env.now j then env.noted else s.stamp j:=by
  unfold stampsSlot
  cases hlimit : (rateLimit env.now s).1 with
  | true=>
    rw [processPacket_limited hlimit]
    unfold State.stamp
    rw [rateLimit_channels]
    rfl
  | false=>
    rw [accepted_stamp hlimit]
    simp

theorem StampsSeen.step {h : History} (hseen : StampsSeen h) (e : TimedEvent) : StampsSeen (h.step e):=by
  cases e with
  | getResponsePacket=>
    intro j hj
    exact getResponsePacket_stamp.trans (hseen j hj)
  | checkTimeout now=>
    intro j hj
    exact (checkTimeout_stamp _).trans (hseen j hj)
  | packet p now noted reply cancelled=>
    have hstamp:=packet_stamp p
      {now:=UInt32.ofNat now,noted:=UInt32.ofNat noted,reply:=reply,cancelled:=cancelled} h.state
    have hother : ∀ j, concerned h.state (TimedEvent.packet p now noted reply cancelled).event p.cid≠some j →
        stampsSlot h.state p (UInt32.ofNat now) j=false:=by
      intro j hj
      by_contra hstamps
      rw [Bool.not_eq_false,stampsSlot,Bool.and_eq_true,decide_eq_true_eq] at hstamps
      exact hj (concerned_takesPart hstamps.2)
    intro j hj
    dsimp only [History.step] at hj ⊢
    cases hconcerned : concerned h.state (TimedEvent.packet p now noted reply cancelled).event p.cid with
    | none=>
      rw [hconcerned] at hj
      have hno:=hother j (by simp [hconcerned])
      refine (hstamp j).trans ?_
      rw [hno]
      exact hseen j hj
    | some i=>
      rw [hconcerned] at hj
      dsimp only at hj ⊢
      refine (hstamp j).trans ?_
      by_cases hji : j=i
      · subst hji
        rw [Function.update_self] at hj ⊢
        rw [hj]
        rfl
      · rw [Function.update_of_ne hji] at hj ⊢
        have hno:=hother j (by rw [hconcerned]; exact fun heq=>hji (Option.some.inj heq).symm)
        rw [hno]
        exact hseen j hj

/-- In a full table an identifier that holds no slot gets the slot of the oldest idle channel. -/
theorem allocChannel_full {s : State} {cid : UInt32} (hfull : s.full) (hfind : findChannel cid s=none) :
    allocChannel cid s=(oldestIdle s).map fun i=>(i,s.modifyChannel i (initChannelSlot cid)):=by
  have hfree : (slots.find? fun i=>(s.channels i).cid == 0)=none:=by
    rw [List.find?_eq_none]
    intro i _
    simpa using hfull i
  unfold allocChannel
  rw [hfind,hfree]

/-- In every full table of a run, the channel that is still for the longest makes room if every idle channel was last
heard of by a packet that stamps it. -/
theorem evictsOldest {es : List TimedEvent} (hfull : (run History.step {} es).state.full)
    (hstamped : Stamped (run History.step {} es)) : EvictsOldest (run History.step {} es):=by
  have hseen : StampsSeen (run History.step {} es):=
    run_invariant (P:=fun _ _=>True) (fun _ e _ hinv=>hinv.step e) (fun _ _=>rfl) (alongRun_true _ _)
  generalize run History.step {} es=h at hfull hstamped hseen
  have hstamp : ∀ j, h.state.idle j→(h.state.stamp j).toNat=h.seen j % 2^32:=by
    intro j hj
    rw [hseen j (hstamped.kept j hj)]
    exact UInt32.toNat_ofNat'
  obtain ⟨hsome,hnone⟩:=oldestIdle_spec h.state
  constructor
  · intro cid i t hfind halloc
    rw [allocChannel_full hfull hfind,Option.map_eq_some_iff] at halloc
    obtain ⟨k,hk,heq⟩:=halloc
    cases heq
    obtain ⟨hidle,hmin⟩:=hsome _ hk
    refine ⟨hidle,?_⟩
    intro j hj
    have hle : (h.state.stamp i).toNat ≤ (h.state.stamp j).toNat:=hmin j hj
    rw [hstamp i hidle,hstamp j hj] at hle
    have hturn:=hstamped.turn i j hidle hj
    omega
  · intro cid hidle halloc
    cases hfind : findChannel cid h.state with
    | some i=>
      rw [allocChannel_known hfind] at halloc
      cases halloc
    | none=>
      rw [allocChannel_full hfull hfind,Option.map_eq_none_iff] at halloc
      obtain ⟨j,hj,hbefore⟩:=hstamped.before hidle
      have hlast:=hstamp j hj
      rw [hnone halloc j hj] at hlast
      exact hbefore hlast.symm

def initAt (now : ℕ) : List TimedEvent:=[.packet (initRequest broadcastCid) now now [] false,.getResponsePacket]

def pingAt (cid : UInt32) (now : ℕ) : List TimedEvent:=[.packet (emptyPing cid) now now [] false,.getResponsePacket]

def eightPings : List TimedEvent:=
  (List.range 8).flatMap (fun k=>initAt (k+1))++(List.range 8).flatMap fun k=>pingAt (UInt32.ofNat (k+1)) (k+11)

instance (s : State) (i : Fin 8) : Decidable (s.idle i):=inferInstanceAs (Decidable (_ ∧ _))

theorem evictsOldest_eightPings : EvictsOldest (run History.step {} eightPings):=by
  have hidle : ∀ j, (run History.step {} eightPings).seen j=j.val+11:=by decide +kernel
  refine evictsOldest (by decide +kernel) ⟨by decide +kernel,?_,?_⟩
  · intro i j _ _
    rw [hidle i,hidle j]
    omega
  · rintro ⟨j,hj⟩
    refine ⟨j,hj,?_⟩
    rw [hidle j]
    omega

/-- Nine INITs: the ninth channel gets the slot of the first with its stamp, and is the next to make room. -/
theorem not_evictsOldest :
    ¬∀ es : List TimedEvent, (run History.step {} es).state.full → EvictsOldest (run History.step {} es):=by
  intro h
  have hnine:=h ((List.range 9).flatMap fun k=>initAt (k+1)) (by decide +kernel)
  have hchosen : oldestIdle (run History.step {} ((List.range 9).flatMap fun k=>initAt (k+1))).state=some 0:=by
    decide +kernel
  have hfind : findChannel 99 (run History.step {} ((List.range 9).flatMap fun k=>initAt (k+1))).state=none:=by
    decide +kernel
  have halloc:=allocChannel_full (by decide +kernel) hfind
  rw [hchosen] at halloc
  have hlater:=(hnine.oldest _ _ _ hfind halloc).2 1 (by decide +kernel)
  exact absurd hlater (by decide +kernel)

end CdcBadge.Ctaphid
