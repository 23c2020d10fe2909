import CdcBadge.CtaphidLimits
import CdcBadge.CtaphidMessages

/-!
# What a CANCEL takes away

CTAP2 keeps one cancel flag for all channels. CANCEL sets it, INIT, CBOR and a prompt for the
user's presence clear it, and while it is set every look for a packet drops the response that it
was to send, whoever that response is for.
-/

namespace CdcBadge.Ctaphid

open Runs

/-- The handling of the message clears the flag. -/
def Message.endsCancel (m : Message) (env : Env) : Prop:=
  m.cmd=cmdInit ∧ 8 ≤ m.len ∨ (m.cmd=cmdCbor ∧ 1 ≤ m.len ∨ m.cmd=cmdMsg) ∧ env.cancelled=false

def Message.setsCancel (m : Message) (env : Env) (s : State) : Prop:=
  m.cmd=cmdCancel ∨ (m.cmd=cmdCbor ∨ m.cmd=cmdMsg ∧ s.cancelled=false) ∧ env.cancelled=true

def EndsCancel (s : State) : Event→Prop
  | .packet p env=>∃ m, (processPacket p env s).2=some m ∧ m.endsCancel env
  | _=>False

def NoCancel (s : State) : Event→Prop
  | .packet p env=>∀ m, (processPacket p env s).2=some m→¬m.setsCancel env s
  | _=>True

section Flag

variable {s t : State} {i : Fin 8} {cid : UInt32} {m : Message} {env : Env} {p : Packet}

theorem cancelled_of_aside (h : t.aside=s.aside) : t.cancelled=s.cancelled:=by
  have : t.aside.cancelled=s.aside.cancelled:=by rw [h]
  exact this

theorem handleInit_cancelled : (handleInit m s).cancelled=if 8 ≤ m.len then false else s.cancelled:=by
  rcases handleInit_aside (m:=m) (s:=s) with ⟨h,hshort⟩ | ⟨hlong,h⟩
  · rw [if_neg (not_le.mpr hshort)]
    exact cancelled_of_aside h
  · rw [if_pos hlong]
    have : (handleInit m s).aside.cancelled=false:=by rw [h]
    exact this

theorem handleCbor_cancelled (h : findChannel m.cid s=some i) :
    (handleCbor m env s).cancelled=if 1 ≤ m.len then env.cancelled else s.cancelled:=by
  unfold handleCbor
  by_cases hlen : m.len < 1
  · rw [if_pos hlen,if_neg (by omega)]
    exact cancelled_of_aside (sendError_aside _)
  · rw [if_neg hlen,if_pos (by omega),h]
    rfl

theorem dispatch_cancelled (h : findChannel m.cid s=some i) (hquiet : ¬m.setsCancel env s) :
    (m.endsCancel env→(dispatch m env s).cancelled=false) ∧
      (¬m.endsCancel env→(dispatch m env s).cancelled=s.cancelled):=by
  have hdistinct : cmdInit≠cmdCbor ∧ cmdInit≠cmdMsg ∧ cmdPing≠cmdInit ∧ cmdPing≠cmdCbor ∧ cmdPing≠cmdMsg ∧
      cmdWink≠cmdInit ∧ cmdWink≠cmdCbor ∧ cmdWink≠cmdMsg ∧ cmdCbor≠cmdInit ∧ cmdCbor≠cmdMsg ∧
      cmdMsg≠cmdInit ∧ cmdMsg≠cmdCbor:=by decide
  unfold Message.endsCancel
  unfold Message.setsCancel at hquiet
  unfold dispatch
  by_cases hinit : m.cmd=cmdInit
  · rw [if_pos hinit,handleInit_cancelled]
    by_cases hlen : 8 ≤ m.len <;> simp [hinit,hdistinct,hlen]
  · rw [if_neg hinit]
    by_cases hping : m.cmd=cmdPing
    · rw [if_pos hping,cancelled_of_aside (prepareResponse_aside _ _)]
      simp [hping,hdistinct]
    · rw [if_neg hping]
      by_cases hwink : m.cmd=cmdWink
      · rw [if_pos hwink,cancelled_of_aside (prepareResponse_aside _ _)]
        simp [hwink,hdistinct]
      · rw [if_neg hwink]
        by_cases hcancel : m.cmd=cmdCancel
        · exact absurd (Or.inl hcancel) hquiet
        · rw [if_neg hcancel]
          by_cases hcbor : m.cmd=cmdCbor
          · have hclear : env.cancelled=false:=by
              by_contra hset
              exact hquiet (Or.inr ⟨Or.inl hcbor,by simpa using hset⟩)
            rw [if_pos hcbor,handleCbor_cancelled h]
            by_cases hlen : 1 ≤ m.len <;> simp [hcbor,hdistinct,hclear,hlen]
          · rw [if_neg hcbor]
            by_cases hmsg : m.cmd=cmdMsg
            · have hkept : (handleMsg m env s).cancelled=env.cancelled:=
                cancelled_of_aside (s:={s with cancelled:=env.cancelled}) (prepareResponse_aside _ _)
              rw [if_pos hmsg,hkept]
              cases hset : env.cancelled with
              | false=>simp [hmsg]
              | true=>
                have hs : s.cancelled=true:=by
                  by_contra hs
                  exact hquiet (Or.inr ⟨Or.inr ⟨hmsg,by simpa using hs⟩,hset⟩)
                simp [hmsg,hdistinct,hs]
            · rw [if_neg hmsg,cancelled_of_aside (sendError_aside _)]
              simp [hinit,hcbor,hmsg]

theorem processPacket_cancelled (hquiet : ∀ m, (processPacket p env s).2=some m→¬m.setsCancel env s) :
    ((∃ m, (processPacket p env s).2=some m ∧ m.endsCancel env)→(processPacket p env s).1.cancelled=false) ∧
      ((¬∃ m, (processPacket p env s).2=some m ∧ m.endsCancel env) →
        (processPacket p env s).1.cancelled=s.cancelled):=by
  have hrate : (rateLimit env.now s).2.cancelled=s.cancelled:=by
    unfold rateLimit
    split <;> rfl
  cases hlimit : (rateLimit env.now s).1 with
  | true=>
    rw [processPacket_limited hlimit]
    exact ⟨(by rintro ⟨m,hm,-⟩; cases hm),fun _=>hrate⟩
  | false=>
    have hrun:=processPacket_run (p:=p) hlimit
    have hcids:=cid_of_assemblies (rateLimit_assemblies env.now s)
    generalize processPacket p env s=r at hquiet hrun
    have hnone : ∀ {u : State}, u.cancelled=s.cancelled →
        ((∃ m, (none : Option Message)=some m ∧ m.endsCancel env)→u.cancelled=false) ∧
          ((¬∃ m, (none : Option Message)=some m ∧ m.endsCancel env)→u.cancelled=s.cancelled):=
      fun h=>⟨(by rintro ⟨m,hm,-⟩; cases hm),fun _=>h⟩
    cases hrun with
    | opened hp=>
      have hcmd : p.initMessage.cmd=cmdInit:=hp.2.2
      have hother : cmdInit≠cmdCbor ∧ cmdInit≠cmdMsg:=by decide
      have hends : (∃ m, some p.initMessage=some m ∧ m.endsCancel env) ↔ 8 ≤ p.initMessage.len:=by
        simp [Message.endsCancel,hcmd,hother]
      rw [hends,handleInit_cancelled,hrate]
      exact ⟨fun h=>if_pos h,fun h=>if_neg h⟩
    | refused hp error=>exact hnone ((cancelled_of_aside (sendError_aside _)).trans hrate)
    | outOfSequence hp hfind=>exact hnone ((cancelled_of_aside (sendError_aside _)).trans hrate)
    | @assembled i hp hfind f hf=>
      generalize hu : (rateLimit env.now s).2.modifyChannel i f=u at hquiet ⊢
      have hcancelled : u.cancelled=s.cancelled:=by rw [← hu]; exact hrate
      unfold processIfComplete at hquiet ⊢
      dsimp only at hquiet ⊢
      split
      · rename_i hcomplete
        rw [if_pos hcomplete] at hquiet
        have hslot : (u.channels i).cid=p.cid:=by
          rw [← hu,modifyChannel_self,hf]
          exact (findChannel_some hfind).1
        have hknown : findChannel (u.channels i).message.cid u=some i:=by
          show findChannel (u.channels i).cid u=some i
          rw [hslot,← hfind,← hu]
          exact findChannel_congr (modifyChannel_cid (hf _))
        have hquiet' : ¬(u.channels i).message.setsCancel env u:=by
          intro hsets
          refine hquiet _ rfl ?_
          unfold Message.setsCancel at hsets ⊢
          rwa [hcancelled] at hsets
        obtain ⟨hend,hkeep⟩:=dispatch_cancelled hknown hquiet'
        constructor
        · rintro ⟨m,hm,hends⟩
          cases hm
          exact hend hends
        · intro hno
          exact (hkeep fun hends=>hno ⟨_,rfl,hends⟩).trans hcancelled
      · exact hnone hcancelled

theorem step_cancelled {e : Event} (hquiet : NoCancel s e) :
    (EndsCancel s e→(step s e).cancelled=false) ∧ (¬EndsCancel s e→(step s e).cancelled=s.cancelled):=by
  cases e with
  | packet p env=>exact processPacket_cancelled hquiet
  | getResponsePacket=>exact ⟨False.elim,fun _=>getResponsePacket_frame rfl rfl⟩
  | checkTimeout now=>exact ⟨False.elim,fun _=>cancelled_of_aside (checkTimeout_aside now)⟩

theorem run_cancelled {es : List Event} (hquiet : AlongRun step NoCancel s es) :
    (Sometime step EndsCancel s es→(run step s es).cancelled=false) ∧
      (¬Sometime step EndsCancel s es→(run step s es).cancelled=s.cancelled):=by
  induction es generalizing s with
  | nil=>exact ⟨False.elim,fun _=>rfl⟩
  | cons e es ih=>
    obtain ⟨hend,hkeep⟩:=step_cancelled hquiet.1
    obtain ⟨hendTail,hkeepTail⟩:=ih hquiet.2
    constructor
    · intro hsome
      by_cases htail : Sometime step EndsCancel (step s e) es
      · exact hendTail htail
      · exact (hkeepTail htail).trans (hend (hsome.resolve_right htail))
    · intro hnever
      exact (hkeepTail fun h=>hnever (Or.inr h)).trans (hkeep fun h=>hnever (Or.inl h))

end Flag

def Cancels (a : UInt32) (s : State) (e : Event) : Prop:=∃ m, handled s e=some m ∧ m.cmd=cmdCancel ∧ m.cid=a

def Asks (a : UInt32) (s : State) (e : Event) : Prop:=
  ∃ m, handled s e=some m ∧ m.cid=a ∧ (m.cmd=cmdPing ∨ m.cmd=cmdWink ∨ m.cmd=cmdMsg ∨ m.cmd=cmdCbor)

/-- The slot whose response the next look for a packet takes up. -/
def Picked (s : State) (i : Fin 8) : Prop:=∃ t, pickNextResponseChannel s=some (i,t)

/-- A look for a packet finds none, and the response that the slot had to send is gone. -/
def Loses (s : State) (i : Fin 8) : Prop:=
  (s.channels i).response.pending=true ∧ (getResponsePacket s).1=none ∧
    ((getResponsePacket s).2.channels i).response.pending=false

/-- After these events the slot's response is for another channel, or for a request that `a` has made in them. -/
def Spared (a : UInt32) (s : State) (es : List Event) (i : Fin 8) : Prop:=
  ((run step s es).channels i).response.cid≠a ∨ findChannel a (run step s es)=some i ∧ Sometime step (Asks a) s es

/-- The CANCEL changes no response, and none but what it may take is lost in the events after it. -/
structure CancelIsolated (a : UInt32) (s : State) (e : Event) (es : List Event) : Prop where
  kept : ∀ i, ((step s e).channels i).response=(s.channels i).response
  spares : ∀ fs i, fs++[.getResponsePacket] <+: es → Spared a (step s e) fs i→¬Loses (run step (step s e) fs) i

section Losing

variable {s : State} {i : Fin 8} {a : UInt32} {e : Event}

theorem loses_iff : Loses s i ↔ s.cancelled=true ∧ Picked s i:=by
  unfold Loses Picked getResponsePacket
  cases hpick : pickNextResponseChannel s with
  | none=>
    have hfind : (fromCursor s).find? (fun i=>(s.channels i).response.pending)=none:=by
      simpa [pickNextResponseChannel] using hpick
    have hidle : (s.channels i).response.pending=false:=by
      simpa using List.find?_eq_none.mp hfind i (mem_fromCursor s i)
    simp [hidle]
  | some it=>
    obtain ⟨k,t⟩:=it
    have hfind : (fromCursor s).find? (fun i=>(s.channels i).response.pending)=some k ∧
        t={s with responseRrIndex:=(k.val+1) % 8}:=by
      unfold pickNextResponseChannel at hpick
      obtain ⟨j,hj,hjt⟩:=Option.map_eq_some_iff.mp hpick
      cases hjt
      exact ⟨hj,rfl⟩
    obtain ⟨hk,rfl⟩:=hfind
    have hpending : (s.channels k).response.pending=true:=by simpa using List.find?_some hk
    cases hcancelled : s.cancelled with
    | false=>simp
    | true=>
      by_cases hik : i=k
      · subst hik
        simp [hpending]
      · have hother : k≠i:=Ne.symm hik
        simp [modifyChannel_other hik,hother]

theorem cancels_step (h : Cancels a s e) :
    (step s e).cancelled=true ∧ ∀ i, ((step s e).channels i).response=(s.channels i).response:=by
  obtain ⟨m,hm,hcmd,-⟩:=h
  have hinit : cmdCancel≠cmdInit ∧ cmdCancel≠cmdPing ∧ cmdCancel≠cmdWink:=by decide
  cases e with
  | getResponsePacket=>cases hm
  | checkTimeout now=>cases hm
  | packet p env=>
    have hrate : ∀ i, ((rateLimit env.now s).2.channels i).response=(s.channels i).response:=by
      intro i
      unfold rateLimit
      split <;> rfl
    have hcomplete : ∀ (i : Fin 8) (f : Channel → Channel), (∀ ch, (f ch).response=ch.response) →
        (processIfComplete i env ((rateLimit env.now s).2.modifyChannel i f)).2=some m →
        (processIfComplete i env ((rateLimit env.now s).2.modifyChannel i f)).1.cancelled=true ∧
          ∀ j, ((processIfComplete i env ((rateLimit env.now s).2.modifyChannel i f)).1.channels j).response =
            (s.channels j).response:=by
      intro i f hf hmessage
      have hkept : ∀ j, (((rateLimit env.now s).2.modifyChannel i f).channels j).response=(s.channels j).response:=by
        intro j
        by_cases hj : j=i
        · subst hj
          rw [modifyChannel_self,hf,hrate]
        · rw [modifyChannel_other hj,hrate]
      generalize (rateLimit env.now s).2.modifyChannel i f=u at hmessage hkept ⊢
      unfold processIfComplete at hmessage ⊢
      dsimp only at hmessage ⊢
      split at hmessage
      · rename_i hlen
        rw [if_pos hlen]
        have hcancel : (u.channels i).message.cmd=cmdCancel:=(Option.some.inj hmessage) ▸ hcmd
        have hdispatch : dispatch (u.channels i).message env u={u with cancelled:=true}:=by
          unfold dispatch
          simp [hcancel,hinit]
        rw [hdispatch]
        refine ⟨rfl,?_⟩
        intro j
        by_cases hj : j=i
        · subst hj
          rw [modifyChannel_self]
          exact hkept j
        · rw [modifyChannel_other hj]
          exact hkept j
      · cases hmessage
    have hm : (processPacket p env s).2=some m:=hm
    show (processPacket p env s).1.cancelled=true ∧
      ∀ i, ((processPacket p env s).1.channels i).response=(s.channels i).response
    cases hlimit : (rateLimit env.now s).1 with
    | true=>
      rw [processPacket_limited hlimit] at hm
      cases hm
    | false=>
      rw [processPacket_accepted hlimit] at hm ⊢
      split at hm
      · rename_i hisInit
        rw [if_pos hisInit]
        unfold processInitPacket at hm ⊢
        split at hm
        · cases hm
        · rename_i hsize
          rw [if_neg hsize]
          split at hm
          · rename_i hpinit
            cases hm
            exact absurd (hcmd.symm.trans hpinit) hinit.1
          · rename_i hpinit
            rw [if_neg hpinit]
            cases hfind : findChannel p.cid (rateLimit env.now s).2 with
            | none=>
              rw [hfind] at hm
              cases hm
            | some i=>
              rw [hfind] at hm
              dsimp only at hm ⊢
              split at hm
              · cases hm
              · rename_i hbusy
                rw [if_neg hbusy]
                exact hcomplete i _ (fun _=>rfl) hm
      · rename_i hisInit
        rw [if_neg hisInit]
        unfold processContPacket at hm ⊢
        cases hfind : findChannel p.cid (rateLimit env.now s).2 with
        | none=>
          rw [hfind] at hm
          cases hm
        | some i=>
          rw [hfind] at hm
          dsimp only at hm ⊢
          split at hm
          · cases hm
          · rename_i hactive
            rw [if_neg hactive]
            split at hm
            · cases hm
            · rename_i hseq
              rw [if_neg hseq]
              exact hcomplete i _ (fun _=>rfl) hm

/-- A CANCEL stays with its channel exactly where the flag has been cleared before every response that it must spare. -/
theorem cancel_isolated {es : List Event} (hcancel : Cancels a s e) (hquiet : AlongRun step NoCancel (step s e) es) :
    CancelIsolated a s e es ↔
      ∀ fs i, fs++[.getResponsePacket] <+: es → Spared a (step s e) fs i→Picked (run step (step s e) fs) i →
        Sometime step EndsCancel (step s e) fs:=by
  obtain ⟨hset,hkept⟩:=cancels_step hcancel
  have hflag : ∀ fs, fs++[Event.getResponsePacket] <+: es →
      ((run step (step s e) fs).cancelled=true ↔ ¬Sometime step EndsCancel (step s e) fs):=by
    rintro fs ⟨rest,rfl⟩
    rw [List.append_assoc] at hquiet
    obtain ⟨hend,hkeep⟩:=run_cancelled (alongRun_append.mp hquiet).1
    constructor
    · intro hcancelled hsome
      rw [hend hsome] at hcancelled
      cases hcancelled
    · intro hnever
      rw [hkeep hnever,hset]
  constructor
  · intro h fs i hfs hspared hpicked
    by_contra hnever
    exact h.spares fs i hfs hspared (loses_iff.mpr ⟨(hflag fs hfs).mpr hnever,hpicked⟩)
  · intro h
    refine ⟨hkept,?_⟩
    intro fs i hfs hspared hloses
    obtain ⟨hcancelled,hpicked⟩:=loses_iff.mp hloses
    exact (hflag fs hfs).mp hcancelled (h fs i hfs hspared hpicked)

end Losing

def cancelRequest (cid : UInt32) : Packet:=buildInitPacket cid cmdCancel 0 []

def pingOwed : List Event:=twoInits++[.getResponsePacket,.getResponsePacket,.packet (emptyPing 2) {}]

theorem cancels_pingOwed : Cancels 1 (run step {} pingOwed) (.packet (cancelRequest 1) {}):=
  ⟨{cid:=1,cmd:=cmdCancel,len:=0,data:=[]},by decide +kernel,rfl,rfl⟩

/-- An INIT between the CANCEL and the look for a packet clears the flag. -/
theorem cancel_isolated_pingOwed :
    CancelIsolated 1 (run step {} pingOwed) (.packet (cancelRequest 1) {})
      [.packet (initRequest 1) {},.getResponsePacket]:=by
  have hhandled : handled (step (run step {} pingOwed) (.packet (cancelRequest 1) {})) (.packet (initRequest 1) {}) =
      some (initRequest 1).initMessage:=by decide +kernel
  have hinit : (initRequest 1).initMessage.cmd=cmdInit ∧ (initRequest 1).initMessage.len=8:=by decide +kernel
  have hother : cmdInit≠cmdCancel ∧ cmdInit≠cmdCbor ∧ cmdInit≠cmdMsg:=by decide
  refine (@cancel_isolated _ _ _ [.packet (initRequest 1) {},.getResponsePacket] cancels_pingOwed ⟨?_,trivial,trivial⟩).mpr ?_
  · intro m hm hsets
    cases (show some (initRequest 1).initMessage=some m from hhandled.symm.trans hm)
    simp [Message.setsCancel,hinit.1,hother] at hsets
  · rintro (_ | ⟨x,fs⟩) i ⟨rest,hfront⟩ _ _
    · simp at hfront
    · simp only [List.cons_append,List.cons.injEq] at hfront
      rw [hfront.1]
      exact Or.inl ⟨_,hhandled,Or.inl ⟨hinit.1,hinit.2.ge⟩⟩

/-- The CANCEL of channel 1 loses the PING's answer on channel 2. -/
theorem cancel_not_isolated :
    ¬∀ (a : UInt32) (s : State) (e : Event) (es : List Event), Reachable s → Cancels a s e →
      AlongRun step NoCancel (step s e) es → CancelIsolated a s e es:=by
  intro h
  have hisolated:=h 1 _ _ [.getResponsePacket] ⟨pingOwed,rfl⟩ cancels_pingOwed ⟨trivial,trivial⟩
  refine hisolated.spares [] 1 ⟨[],rfl⟩ (Or.inl (by decide +kernel)) ?_
  exact ⟨by decide +kernel,by decide +kernel,by decide +kernel⟩

end CdcBadge.Ctaphid
