import CdcBadge.CtaphidChannels

/-!
# Which identifiers the transport hands out

Every identifier that holds a slot has been handed out in an INIT response, and the
broadcast INIT hands out one that holds none, as long as the host neither addresses an
identifier that it was never given nor names one that the counter has yet to reach.
-/

namespace CdcBadge.Ctaphid

open Runs

/-- The identifier that `handle_init` answers with. -/
def initAssigns (m : Message) (s : State) : Option UInt32:=
  if m.len < 8 then none
  else
    let (newCid,s):=initCid m.cid {s with cancelled:=false}
    (allocChannel newCid s).map fun _=>newCid

def assigned (s : State) : Event→Option UInt32
  | .packet p env=>
    let (limited,s):=rateLimit env.now s
    if limited=false ∧ p.opens then initAssigns p.initMessage s else none
  | _=>none

def handedOut : State → List Event → List UInt32
  | _, []=>[]
  | s, e::es=>(assigned s e).toList++handedOut (step s e) es

section NextCid

variable {s t : State} {i : Fin 8} {cid : UInt32} {m : Message} {env : Env}

@[simp] theorem prepareResponseOn_nextCid (cmd : UInt8) (data : Bytes) :
    (prepareResponseOn i cid cmd data s).nextCid=s.nextCid:=rfl

@[simp] theorem prepareResponse_nextCid (cmd : UInt8) (data : Bytes) :
    (prepareResponse cid cmd data s).nextCid=s.nextCid:=by
  unfold prepareResponse
  split <;> rfl

theorem allocChannel_nextCid (h : allocChannel cid s=some (i,t)) : t.nextCid=s.nextCid:=by
  rcases allocChannel_cases h with ⟨-,rfl⟩ | ⟨-,rfl⟩ <;> rfl

@[simp] theorem sendError_nextCid (error : UInt8) : (sendError cid error s).nextCid=s.nextCid:=
  sendError_frame allocChannel_nextCid rfl error

/-- INIT moves the counter for the broadcast identifier alone, and whenever it hands out one for it. -/
theorem handleInit_nextCid :
    (handleInit m s).nextCid=s.nextCid ∧ (m.cid=broadcastCid→initAssigns m s=none) ∨
      m.cid=broadcastCid ∧ (handleInit m s).nextCid=(allocateCid s).2.nextCid:=by
  by_cases hshort : m.len < 8
  · rw [handleInit,if_pos hshort,initAssigns,if_pos hshort]
    exact .inl ⟨sendError_nextCid _,fun _=>rfl⟩
  · have hcid : (initCid m.cid {s with cancelled:=false}).2.nextCid=s.nextCid ∧ (m.cid=broadcastCid →
        initAssigns m s=none) ∨ m.cid=broadcastCid ∧
          (initCid m.cid {s with cancelled:=false}).2.nextCid=(allocateCid s).2.nextCid:=by
      unfold initCid
      split
      · exact .inr ⟨‹_›,rfl⟩
      · exact .inl ⟨rfl,fun hb=>absurd hb ‹_›⟩
    rw [handleInit,if_neg hshort]
    dsimp only
    cases halloc : allocChannel (initCid m.cid {s with cancelled:=false}).1
        (initCid m.cid {s with cancelled:=false}).2 with
    | none=>simpa using hcid
    | some it=>
      obtain ⟨i,t⟩:=it
      have ht:=allocChannel_nextCid halloc
      dsimp only
      rw [prepareResponseOn_nextCid,ht]
      exact hcid

theorem dispatch_nextCid (h : m.cid≠broadcastCid) : (dispatch m env s).nextCid=s.nextCid:=by
  unfold dispatch
  split_ifs
  · exact (handleInit_nextCid.resolve_right fun hinit=>h hinit.1).1
  · exact prepareResponse_nextCid _ _
  · exact prepareResponse_nextCid _ _
  · rfl
  · unfold handleCbor
    split_ifs
    · exact sendError_nextCid _
    · split
      · exact sendError_nextCid _
      · rfl
  · exact prepareResponse_nextCid _ _
  · exact sendError_nextCid _

@[simp] theorem rateLimit_nextCid (now : UInt32) : (rateLimit now s).2.nextCid=s.nextCid:=by
  unfold rateLimit
  split <;> rfl

theorem processIfComplete_nextCid (h : (s.channels i).cid≠broadcastCid) :
    (processIfComplete i env s).1.nextCid=s.nextCid:=by
  unfold processIfComplete
  dsimp only
  split
  · exact dispatch_nextCid (m:=(s.channels i).message) h
  · rfl

theorem processPacket_nextCid (env : Env) {p : Packet} (h : ∀ i, (s.channels i).cid≠broadcastCid) :
    (processPacket p env s).1.nextCid=s.nextCid ∧ (p.cid=broadcastCid→assigned s (.packet p env)=none) ∨
      (p.opens ∧ p.cid=broadcastCid) ∧ (processPacket p env s).1.nextCid=(allocateCid s).2.nextCid:=by
  have hnext:=rateLimit_nextCid (s:=s) env.now
  have hcid:=cid_of_assemblies (rateLimit_assemblies env.now s)
  cases hlimit : (rateLimit env.now s).1 with
  | true=>
    rw [processPacket_limited hlimit]
    exact .inl ⟨hnext,fun _=>if_neg fun ha=>absurd (ha.1.symm.trans hlimit) (by simp)⟩
  | false=>
    have hrun:=processPacket_run (p:=p) hlimit
    generalize processPacket p env s=r at hrun
    cases hrun with
    | opened hp=>
      have hassigned : assigned s (.packet p env)=initAssigns p.initMessage (rateLimit env.now s).2:=if_pos ⟨hlimit,hp⟩
      rw [hassigned]
      rcases handleInit_nextCid (m:=p.initMessage) (s:=(rateLimit env.now s).2) with ⟨hn,ha⟩ | ⟨hb,hn⟩
      · exact .inl ⟨hn.trans hnext,ha⟩
      · exact .inr ⟨⟨hp,hb⟩,by rw [hn]; simp only [allocateCid,hnext]⟩
    | refused hp error=>exact .inl ⟨(sendError_nextCid _).trans hnext,fun _=>if_neg fun ha=>hp ha.2⟩
    | @outOfSequence i hp hfind=>
      refine .inl ⟨(sendError_nextCid _).trans hnext,fun hb=>?_⟩
      exact absurd ((hcid i).symm.trans ((findChannel_some hfind).1.trans hb)) (h i)
    | @assembled i hp hfind f hf=>
      refine .inl ⟨?_,fun _=>if_neg fun ha=>hp ha.2⟩
      rw [processIfComplete_nextCid,modifyChannel_nextCid,hnext]
      rw [modifyChannel_self,hf,hcid]
      exact h i

end NextCid

section Cids

variable {s t : State} {i : Fin 8} {m : Message} {env : Env} {p : Packet}

/-- `handle_init` gives a slot to the identifier that it answers with, or to none. -/
theorem handleInit_cid (h : 8 ≤ m.len) (j : Fin 8) :
    ((handleInit m s).channels j).cid=(s.channels j).cid ∨
      initAssigns m s=some ((handleInit m s).channels j).cid:=by
  have hcids : ∀ j, ((initCid m.cid {s with cancelled:=false}).2.channels j).cid=(s.channels j).cid:=by
    unfold initCid
    split <;> exact fun _=>rfl
  rw [handleInit,initAssigns,if_neg (Nat.not_lt.mpr h),if_neg (Nat.not_lt.mpr h)]
  dsimp only
  cases halloc : allocChannel (initCid m.cid {s with cancelled:=false}).1
      (initCid m.cid {s with cancelled:=false}).2 with
  | none=>
    have hnone : m.cid=broadcastCid ∨
        allocChannel m.cid (initCid m.cid {s with cancelled:=false}).2=none:=by
      by_cases hb : m.cid=broadcastCid
      · exact .inl hb
      · refine .inr ?_
        rw [initCid,if_neg hb] at halloc ⊢
        exact halloc
    refine .inl ((cid_of_assemblies (sendError_assemblies _ ?_) j).trans (hcids j))
    rcases hnone with hb | hn
    · exact .inr (.inr (.inl hb))
    · exact .inr (.inr (.inr hn))
  | some it=>
    obtain ⟨i,t⟩:=it
    dsimp only
    rw [cid_of_assemblies (prepareResponseOn_assemblies _ _ _ _ _) j]
    rcases allocChannel_cases halloc with ⟨-,rfl⟩ | ⟨-,rfl⟩
    · exact .inl (hcids j)
    · by_cases hj : j=i
      · subst hj
        exact .inr (by rw [modifyChannel_self]; rfl)
      · rw [modifyChannel_other hj]
        exact .inl (hcids j)

/-- The host addresses 0, the broadcast identifier or one that holds a slot, or it opens one that the counter has
passed. -/
def Familiar (s : State) : Event→Prop
  | .packet p env=>(rateLimit env.now s).1=true ∨ p.cid=0 ∨ p.cid=broadcastCid ∨ findChannel p.cid s≠none ∨
      p.opens ∧ 8 ≤ p.bcnt ∧ p.cid < s.nextCid
  | _=>True

theorem processPacket_cid (h : ∀ i, (s.channels i).cid≠broadcastCid) (hfamiliar : Familiar s (.packet p env))
    (j : Fin 8) :
    ((processPacket p env s).1.channels j).cid=(s.channels j).cid ∨
      assigned s (.packet p env)=some ((processPacket p env s).1.channels j).cid:=by
  have hcid:=cid_of_assemblies (rateLimit_assemblies env.now s)
  cases hfind : findChannel p.cid s with
  | some i=>
    have hb : p.cid≠broadcastCid:=(findChannel_some hfind).1 ▸ h i
    exact .inl (processPacket_other hfind hb j).1
  | none=>
    have hnone : findChannel p.cid (rateLimit env.now s).2=none:=(findChannel_congr hcid).trans hfind
    cases hlimit : (rateLimit env.now s).1 with
    | true=>
      rw [processPacket_limited hlimit]
      exact .inl (hcid j)
    | false=>
      -- An error is on an identifier that gets no slot.
      have herror : ∀ error, ¬(p.opens ∧ 8 ≤ p.bcnt) →
          ((sendError p.cid error (rateLimit env.now s).2).channels j).cid=(s.channels j).cid:=by
        intro error hshort
        refine (cid_of_assemblies (sendError_assemblies _ ?_) j).trans (hcid j)
        rcases hfamiliar with hl | h0 | hb | hk | hn
        · exact absurd (hl.symm.trans hlimit) (by simp)
        · exact .inr (.inl h0)
        · exact .inr (.inr (.inl hb))
        · exact absurd hfind hk
        · exact absurd ⟨hn.1,hn.2.1⟩ hshort
      have hrun:=processPacket_run (p:=p) hlimit
      generalize processPacket p env s=r at hrun
      cases hrun with
      | opened hp=>
        rw [assigned]
        dsimp only
        rw [if_pos ⟨hlimit,hp⟩,← hcid j]
        by_cases hlen : 8 ≤ p.bcnt
        · exact handleInit_cid hlen j
        · have hshort : p.initMessage.len < 8:=not_le.mp hlen
          rw [handleInit,if_pos hshort,hcid j]
          exact .inl (herror _ fun ha=>hlen ha.2)
      | refused hp error=>exact .inl (herror error fun ha=>hp ha.1)
      | outOfSequence hp hk=>exact absurd (hnone.symm.trans hk) (by simp)
      | assembled hp hk hf=>exact absurd (hnone.symm.trans hk) (by simp)

/-- What is handed out is the next identifier of the counter, or the one that the packet names. -/
theorem assigned_packet {c : UInt32} (h : assigned s (.packet p env)=some c) :
    p.opens ∧ c=if p.cid=broadcastCid then skipReserved s.nextCid else p.cid:=by
  have hnext:=rateLimit_nextCid (s:=s) env.now
  unfold assigned at h
  dsimp only at h
  split at h
  · rename_i hopens
    refine ⟨hopens.2,?_⟩
    unfold initAssigns at h
    split at h
    · cases h
    · dsimp only at h
      obtain ⟨_,-,rfl⟩:=Option.map_eq_some_iff.mp h
      show (initCid p.cid _).1=_
      unfold initCid
      split
      · rw [← hnext]
        rfl
      · rfl
  · cases h

theorem processIfComplete_message (h : (processIfComplete i env s).2=some m) : m=(s.channels i).message:=by
  unfold processIfComplete at h
  dsimp only at h
  split at h
  · exact (Option.some.inj h).symm
  · cases h

theorem handled_cid (h : (processPacket p env s).2=some m) (hm : m.cmd≠cmdInit) :
    ∃ i, (s.channels i).cid=m.cid ∧ m.cid≠0:=by
  have hcid:=cid_of_assemblies (rateLimit_assemblies env.now s)
  cases hlimit : (rateLimit env.now s).1 with
  | true=>
    rw [processPacket_limited hlimit] at h
    cases h
  | false=>
    have hrun:=processPacket_run (p:=p) hlimit
    revert h
    generalize processPacket p env s=r at hrun
    intro h
    cases hrun with
    | opened hp=>
      cases h
      exact absurd hp.2.2 hm
    | refused hp error=>cases h
    | outOfSequence hp hk=>cases h
    | @assembled i hp hk f hf=>
      obtain ⟨hslot,hzero⟩:=findChannel_some hk
      have hmessage : m.cid=p.cid:=by
        rw [processIfComplete_message h,Channel.message,modifyChannel_self,hf,hslot]
      rw [hmessage]
      exact ⟨i,(hcid i).symm.trans hslot,hzero⟩

theorem checkTimeout_nextCid (now : UInt32) (s : State) : (checkTimeout now s).nextCid=s.nextCid:=
  checkTimeout_frame (sendError_nextCid _) rfl now

end Cids

def Event.opensChannel : Event→Bool
  | .packet p _=>decide (p.opens ∧ p.cid=broadcastCid)
  | _=>false

/-- Identifiers below the counter hold the slots, all of them handed out, after `n` broadcast INITs. -/
structure Issued (s : State) (given : List UInt32) (n : ℕ) : Prop where
  pos : 0 < s.nextCid.toNat
  next : s.nextCid.toNat ≤ n+1
  below : ∀ i, (s.channels i).cid < s.nextCid
  given : ∀ i, (s.channels i).cid≠0→(s.channels i).cid∈given

theorem issued_initial : Issued {} [] 0:=
  ⟨by decide,by decide,fun _=>(by decide : (0 : UInt32) < 1),fun _ h=>absurd rfl h⟩

theorem skipReserved_lt {cid : UInt32} (h : cid.toNat < 2^32-1) (hpos : 0 < cid.toNat) : skipReserved cid=cid:=by
  unfold skipReserved
  refine if_neg ?_
  rintro (rfl | rfl)
  · simp at hpos
  · exact absurd h (by decide)

variable {given : List UInt32}

theorem Issued.ne_broadcast {s : State} {n : ℕ} (h : Issued s given n) (hn : n < 2^32-2)
    (i : Fin 8) : (s.channels i).cid≠broadcastCid:=by
  intro hb
  have hbelow:=UInt32.lt_iff_toNat_lt.mp (h.below i)
  have hnext:=h.next
  rw [hb,show broadcastCid.toNat=2^32-1 from rfl] at hbelow
  omega

theorem Issued.allocateCid {s : State} {n : ℕ} (h : Issued s given n) (hn : n+1 < 2^32-2) :
    (allocateCid s).2.nextCid.toNat=s.nextCid.toNat+1:=by
  have hpos:=h.pos
  have hnext:=h.next
  have hsucc : (s.nextCid+1).toNat=s.nextCid.toNat+1:=by
    rw [UInt32.toNat_add,UInt32.toNat_one,Nat.mod_eq_of_lt (by omega)]
  simp only [Ctaphid.allocateCid]
  rw [skipReserved_lt (by omega) hpos,skipReserved_lt (by omega) (by omega),hsucc]

theorem Issued.congr {s t : State} {given more : List UInt32} {n k : ℕ} (h : Issued s given n)
    (hcid : ∀ i, (t.channels i).cid=(s.channels i).cid) (hnext : t.nextCid=s.nextCid) :
    Issued t (given++more) (n+k):=by
  refine ⟨hnext ▸ h.pos,?_,fun i=>?_,fun i hi=>?_⟩
  · have:=h.next
    rw [hnext]
    omega
  · rw [hcid,hnext]
    exact h.below i
  · rw [hcid] at hi ⊢
    exact List.mem_append_left _ (h.given i hi)

theorem Issued.step {s : State} {n : ℕ} (h : Issued s given n) {e : Event} (he : Familiar s e)
    (hn : n+(if e.opensChannel then 1 else 0) < 2^32-2) :
    Issued (step s e) (given++(assigned s e).toList) (n+if e.opensChannel then 1 else 0):=by
  have hfree:=h.ne_broadcast (by omega)
  cases e with
  | getResponsePacket=>
    refine h.congr (cid_of_assemblies (getResponsePacket_assemblies s)) ?_
    unfold Ctaphid.step getResponsePacket pickNextResponseChannel
    cases (fromCursor s).find? fun i=>(s.channels i).response.pending with
    | none=>rfl
    | some i=>
      dsimp only [Option.map_some]
      split <;> rfl
  | checkTimeout now=>exact h.congr (checkTimeout_cid now s) (checkTimeout_nextCid now s)
  | packet p env=>
    have hcid:=processPacket_cid hfree he
    have hpos:=h.pos
    have hmem : ∀ i, ((processPacket p env s).1.channels i).cid≠0 →
        ((processPacket p env s).1.channels i).cid∈given++(assigned s (.packet p env)).toList:=by
      intro i hi
      rcases hcid i with hsame | hnew
      · rw [hsame] at hi ⊢
        exact List.mem_append_left _ (h.given i hi)
      · rw [hnew]
        simp
    rcases processPacket_nextCid env (p:=p) hfree with ⟨hnext,hnone⟩ | ⟨hopens,hnext⟩
    · refine ⟨hnext ▸ hpos,?_,fun i=>?_,hmem⟩
      · have:=h.next
        show (processPacket p env s).1.nextCid.toNat ≤ _
        rw [hnext]
        omega
      · show ((processPacket p env s).1.channels i).cid < (processPacket p env s).1.nextCid
        rw [hnext]
        rcases hcid i with hsame | hnew
        · rw [hsame]
          exact h.below i
        · -- The host names an identifier of its own.
          have hb : p.cid≠broadcastCid:=fun hb=>by simp [hnone hb] at hnew
          obtain ⟨-,hc⟩:=assigned_packet hnew
          rw [if_neg hb] at hc
          rw [hc]
          rcases he with hl | h0 | hbr | hk | hnamed
          · simp [assigned,hl] at hnew
          · rw [h0]
            exact UInt32.lt_iff_toNat_lt.mpr hpos
          · exact absurd hbr hb
          · obtain ⟨j,hj⟩:=Option.ne_none_iff_exists'.mp hk
            rw [← (findChannel_some hj).1]
            exact h.below j
          · exact hnamed.2.2
    · have hcount : (Event.packet p env).opensChannel=true:=decide_eq_true hopens
      rw [hcount,if_pos rfl] at hn ⊢
      have hsucc:=h.allocateCid hn
      have hle:=h.next
      refine ⟨?_,?_,fun i=>?_,hmem⟩
      · show 0 < (processPacket p env s).1.nextCid.toNat
        rw [hnext,hsucc]
        omega
      · show (processPacket p env s).1.nextCid.toNat ≤ _
        rw [hnext,hsucc]
        omega
      · show ((processPacket p env s).1.channels i).cid < (processPacket p env s).1.nextCid
        rw [UInt32.lt_iff_toNat_lt,hnext,hsucc]
        rcases hcid i with hsame | hnew
        · rw [hsame]
          have:=UInt32.lt_iff_toNat_lt.mp (h.below i)
          omega
        · obtain ⟨-,hc⟩:=assigned_packet hnew
          rw [hc,if_pos hopens.2,skipReserved_lt (by omega) hpos]
          omega

theorem issued_run {s : State} {n : ℕ} (h : Issued s given n) {es : List Event}
    (hes : AlongRun step Familiar s es) (hn : n+es.countP Event.opensChannel < 2^32-2) :
    Issued (run step s es) (given++handedOut s es) (n+es.countP Event.opensChannel):=by
  induction es generalizing s given n with
  | nil=>simpa [handedOut] using h
  | cons e es ih=>
    rw [List.countP_cons] at hn ⊢
    have hstep:=h.step hes.1 (by omega)
    have hrest:=ih hstep hes.2 (by omega)
    rw [List.append_assoc] at hrest
    rwa [run_cons,handedOut,Nat.add_comm (es.countP _),← Nat.add_assoc]

/-- After these events, a message other than INIT is handled only on an identifier that was handed out, and a
broadcast INIT is answered with an identifier that holds no slot. -/
structure KeepsIdentity (es : List Event) (e : Event) : Prop where
  handled : ∀ m, handled (run step {} es) e=some m→m.cmd≠cmdInit→m.cid∈handedOut {} es
  fresh : ∀ p env c, e=.packet p env→p.cid=broadcastCid→assigned (run step {} es) e=some c →
    ∀ i, ((run step {} es).channels i).cid≠c

/-- The channel identifiers are kept apart in runs of familiar packets with fewer broadcast INITs than there are
identifiers. -/
theorem identity_kept (es : List Event) (e : Event) (hes : AlongRun step Familiar {} es)
    (hn : es.countP Event.opensChannel < 2^32-2) : KeepsIdentity es e:=by
  have h:=issued_run issued_initial hes (by omega)
  rw [List.nil_append,Nat.zero_add] at h
  constructor
  · intro m hm hcmd
    cases e with
    | packet p env=>
      obtain ⟨i,hslot,hzero⟩:=handled_cid hm hcmd
      rw [← hslot] at hzero ⊢
      exact h.given i hzero
    | getResponsePacket=>cases hm
    | checkTimeout now=>cases hm
  · rintro p env c rfl hb hassigned i rfl
    have hnext:=h.next
    have hpos:=h.pos
    obtain ⟨-,hc⟩:=assigned_packet hassigned
    rw [if_pos hb,skipReserved_lt (by omega) hpos] at hc
    exact absurd (h.below i) (by rw [hc]; exact UInt32.lt_irrefl _)

/-- A broadcast INIT, answered, and a PING on the identifier of the answer. -/
theorem identity_kept_ping :
    KeepsIdentity [.packet (initRequest broadcastCid) {},.getResponsePacket] (.packet (emptyPing 1) {}):=
  identity_kept _ _ ⟨.inr (.inr (.inl (by decide))),trivial,trivial⟩ (by decide)

/-- A PING on an identifier that was never handed out is refused, but the next one is handled; and an identifier that
the host names in an INIT is handed out once more. -/
theorem identity_lost :
    (¬ ∀ es e m, handled (run step {} es) e=some m→m.cmd≠cmdInit→m.cid∈handedOut {} es) ∧
      ¬ ∀ es p env c, p.cid=broadcastCid→assigned (run step {} es) (.packet p env)=some c →
        ∀ i, ((run step {} es).channels i).cid≠c:=by
  constructor
  · intro h
    have hhandled : (handled (run step {} [.packet (emptyPing 77) {}]) (.packet (emptyPing 77) {})).map
        (fun m=>(m.cmd,m.cid))=some (cmdPing,77):=by decide +kernel
    obtain ⟨m,hm,hfields⟩:=Option.map_eq_some_iff.mp hhandled
    obtain ⟨hcmd,hcid⟩:=Prod.ext_iff.mp hfields
    have hmem:=h _ _ m hm (by rw [show m.cmd=cmdPing from hcmd]; decide)
    rw [show m.cid=77 from hcid] at hmem
    revert hmem
    decide +kernel
  · intro h
    have hassigned : assigned (run step {} [.packet (initRequest 1) {}]) (.packet (initRequest broadcastCid) {}) =
        some 1:=by decide +kernel
    exact h _ _ _ _ (by decide) hassigned 0 (by decide +kernel)

end CdcBadge.Ctaphid
