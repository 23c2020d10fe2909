import CdcBadge.Ctaphid

/-!
# Channels and what they have assembled

Responses, errors and INIT leave alone what a channel has assembled, as long as the
packet is on an identifier that holds a slot. So INIT does not end the assembly of its
channel, and what it was meant to resynchronise stays busy.
-/

namespace CdcBadge.Ctaphid

open Runs

def Channel.assembly (ch : Channel) : Channel:={ch with response:={},lastActivity:=0}

def State.assemblies (s : State) (i : Fin 8) : Channel:=(s.channels i).assembly

section Slots

variable {s t : State} {i j : Fin 8} {cid : UInt32} {f : Channel → Channel}

@[simp] theorem modifyChannel_self : (s.modifyChannel i f).channels i=f (s.channels i):=by
  simp [State.modifyChannel]

theorem modifyChannel_other (h : j≠i) : (s.modifyChannel i f).channels j=s.channels j:=by
  simp [State.modifyChannel,h]

@[simp] theorem modifyChannel_nextCid : (s.modifyChannel i f).nextCid=s.nextCid:=rfl

theorem modifyChannel_assemblies (h : (f (s.channels i)).assembly=(s.channels i).assembly) :
    (s.modifyChannel i f).assemblies=s.assemblies:=by
  funext j
  by_cases hj : j=i
  · subst hj
    simp only [State.assemblies,modifyChannel_self,h]
  · simp only [State.assemblies,modifyChannel_other hj]

theorem cid_of_assemblies (h : t.assemblies=s.assemblies) (i : Fin 8) : (t.channels i).cid=(s.channels i).cid:=by
  have hi:=congrArg Channel.cid (congrFun h i)
  exact hi

theorem active_of_assemblies (h : t.assemblies=s.assemblies) (i : Fin 8) :
    (t.channels i).active=(s.channels i).active:=by
  have hi:=congrArg Channel.active (congrFun h i)
  exact hi

theorem findChannel_congr (h : ∀ i, (t.channels i).cid=(s.channels i).cid) :
    findChannel cid t=findChannel cid s:=by
  simp only [findChannel,h]

theorem mem_slots (i : Fin 8) : i∈slots:=List.mem_finRange i

theorem findChannel_some (h : findChannel cid s=some i) : (s.channels i).cid=cid ∧ cid≠0:=by
  unfold findChannel at h
  split at h
  · cases h
  · rename_i hcid
    have hfound:=List.find?_some h
    exact ⟨by simpa using hfound,hcid⟩

theorem findChannel_none (h : findChannel cid s=none) (hcid : cid≠0) (i : Fin 8) : (s.channels i).cid≠cid:=by
  rw [findChannel,if_neg hcid,List.find?_eq_none] at h
  simpa using h i (mem_slots i)

theorem allocChannel_cases (h : allocChannel cid s=some (i,t)) :
    findChannel cid s=some i ∧ t=s ∨
      findChannel cid s=none ∧ t=s.modifyChannel i (initChannelSlot cid):=by
  unfold allocChannel at h
  cases hfind : findChannel cid s with
  | some j=>
    rw [hfind] at h
    cases h
    exact .inl ⟨rfl,rfl⟩
  | none=>
    rw [hfind] at h
    refine .inr ⟨rfl,?_⟩
    cases hfree : slots.find? fun i=>(s.channels i).cid == 0 with
    | some j=>
      rw [hfree] at h
      cases h
      rfl
    | none=>
      rw [hfree,Option.map_eq_some_iff] at h
      obtain ⟨j,-,h⟩:=h
      cases h
      rfl

theorem allocChannel_known (h : findChannel cid s=some i) : allocChannel cid s=some (i,s):=by
  rw [allocChannel,h]

end Slots

section Frames

variable {s : State} {i : Fin 8} {cid : UInt32} {m : Message} {env : Env}

@[simp] theorem prepareResponseOn_assemblies (i : Fin 8) (cid : UInt32) (cmd : UInt8) (data : Bytes) (s : State) :
    (prepareResponseOn i cid cmd data s).assemblies=s.assemblies:=
  modifyChannel_assemblies rfl

@[simp] theorem prepareResponse_assemblies (cid : UInt32) (cmd : UInt8) (data : Bytes) (s : State) :
    (prepareResponse cid cmd data s).assemblies=s.assemblies:=by
  unfold prepareResponse
  split
  · rfl
  · exact prepareResponseOn_assemblies _ _ _ _ _

section Frames

variable {α : Type} {g : State → α}

/-- What neither a new channel nor a response moves, an error does not move. -/
theorem sendError_frame (halloc : ∀ {cid s i t}, allocChannel cid s=some (i,t)→ g t=g s)
    (hresponse : ∀ {i cid cmd data s}, g (prepareResponseOn i cid cmd data s)=g s) (error : UInt8) :
    g (sendError cid error s)=g s:=by
  unfold sendError
  cases findChannel cid s with
  | some i=>exact hresponse
  | none=>
    cases hslot : if cid≠0 ∧ cid≠broadcastCid then allocChannel cid s else none with
    | none=>
      dsimp only
      split
      · exact hresponse
      · rfl
    | some it=>
      rw [Option.ite_none_right_eq_some] at hslot
      exact hresponse.trans (halloc hslot.2)

theorem checkTimeout_frame (herror : ∀ {cid error s}, g (sendError cid error s)=g s)
    (hstop : ∀ {i s}, g (s.modifyChannel i stopAssembly)=g s) (now : UInt32) : g (checkTimeout now s)=g s:=by
  unfold checkTimeout
  induction slots generalizing s with
  | nil=>rfl
  | cons i is ih=>
    rw [List.foldl_cons,ih]
    dsimp only
    split
    · exact hstop.trans herror
    · rfl

theorem getResponsePacket_frame (hcursor : ∀ {s n}, g {s with responseRrIndex:=n}=g s)
    (hchannel : ∀ {i s} {r : Channel → Response}, g (s.modifyChannel i fun ch=>{ch with response:=r ch})=g s) :
    g (getResponsePacket s).2=g s:=by
  unfold getResponsePacket pickNextResponseChannel
  cases (fromCursor s).find? fun i=>(s.channels i).response.pending with
  | none=>rfl
  | some i=>
    dsimp only [Option.map_some]
    split
    · exact (hchannel (r:=fun ch=>{ch.response with pending:=false,offset:=0,len:=0})).trans hcursor
    · exact (hchannel (r:=fun _=>_)).trans hcursor

end Frames

theorem sendError_assemblies (error : UInt8)
    (h : findChannel cid s≠none ∨ cid=0 ∨ cid=broadcastCid ∨ allocChannel cid s=none) :
    (sendError cid error s).assemblies=s.assemblies:=by
  unfold sendError
  cases hfind : findChannel cid s with
  | some i=>exact prepareResponseOn_assemblies _ _ _ _ _
  | none=>
    have hslot : (if cid≠0 ∧ cid≠broadcastCid then allocChannel cid s else none)=none:=by
      rcases h with h | h | h | h
      · exact absurd hfind h
      · exact if_neg fun hcid=>hcid.1 h
      · exact if_neg fun hcid=>hcid.2 h
      · rw [h,ite_self]
    dsimp only
    rw [hslot]
    dsimp only
    split
    · exact prepareResponseOn_assemblies _ _ _ _ _
    · rfl

theorem handleInit_assemblies (h : findChannel m.cid s=some i) (hcid : m.cid≠broadcastCid) :
    (handleInit m s).assemblies=s.assemblies:=by
  unfold handleInit
  split
  · exact sendError_assemblies _ (.inl (by simp [h]))
  · rw [initCid,if_neg hcid]
    dsimp only
    rw [allocChannel_known (s:={s with cancelled:=false}) h]
    exact prepareResponseOn_assemblies _ _ _ _ _

theorem dispatch_assemblies (env : Env) (h : findChannel m.cid s=some i) (hcid : m.cid≠broadcastCid) :
    (dispatch m env s).assemblies=s.assemblies:=by
  have hknown : findChannel m.cid s≠none:=by simp [h]
  unfold dispatch
  split_ifs
  · exact handleInit_assemblies h hcid
  · exact prepareResponse_assemblies _ _ _ _
  · exact prepareResponse_assemblies _ _ _ _
  · rfl
  · unfold handleCbor
    split_ifs
    · exact sendError_assemblies _ (.inl hknown)
    · rw [h]
      exact prepareResponseOn_assemblies _ _ _ _ _
  · exact prepareResponse_assemblies _ _ _ _
  · exact sendError_assemblies _ (.inl hknown)

@[simp] theorem rateLimit_assemblies (now : UInt32) (s : State) : (rateLimit now s).2.assemblies=s.assemblies:=by
  unfold rateLimit
  split <;> rfl

theorem dispatch_cid (h : findChannel m.cid s=some i) (hcid : m.cid≠broadcastCid) (j : Fin 8) :
    ((dispatch m env s).channels j).cid=(s.channels j).cid:=
  cid_of_assemblies (dispatch_assemblies env h hcid) j

theorem modifyChannel_cid {f : Channel → Channel} (h : (f (s.channels i)).cid=(s.channels i).cid) (j : Fin 8) :
    ((s.modifyChannel i f).channels j).cid=(s.channels j).cid:=by
  by_cases hj : j=i
  · subst hj
    rw [modifyChannel_self,h]
  · rw [modifyChannel_other hj]

/-- A slot's message is handled without a change to any identifier or to the other slots' assemblies. -/
theorem processIfComplete_other (env : Env) (h : findChannel (s.channels i).cid s=some i) (hcid : (s.channels i).cid≠broadcastCid)
    (j : Fin 8) :
    ((processIfComplete i env s).1.channels j).cid=(s.channels j).cid ∧
      (j≠i→(processIfComplete i env s).1.assemblies j=s.assemblies j):=by
  unfold processIfComplete
  dsimp only
  split
  · rw [modifyChannel_cid rfl]
    refine ⟨dispatch_cid (m:=(s.channels i).message) h hcid j,fun hj=>?_⟩
    rw [State.assemblies,modifyChannel_other hj]
    exact congrFun (dispatch_assemblies (m:=(s.channels i).message) env h hcid) j
  · exact ⟨rfl,fun _=>rfl⟩

/-- A channel is changed without a change to any identifier, and its message handled if it is complete. -/
theorem processIfComplete_modify {f : Channel → Channel} (h : findChannel cid s=some i) (hcid : cid≠broadcastCid)
    (hf : ∀ ch, (f ch).cid=ch.cid) (j : Fin 8) :
    ((processIfComplete i env (s.modifyChannel i f)).1.channels j).cid=(s.channels j).cid ∧
      (j≠i→(processIfComplete i env (s.modifyChannel i f)).1.assemblies j=s.assemblies j):=by
  have hsame : ∀ j, ((s.modifyChannel i f).channels j).cid=(s.channels j).cid:=modifyChannel_cid (hf _)
  have hslot : ((s.modifyChannel i f).channels i).cid=cid:=(hsame i).trans (findChannel_some h).1
  have hfind : findChannel ((s.modifyChannel i f).channels i).cid (s.modifyChannel i f)=some i:=by
    rw [hslot,findChannel_congr hsame,h]
  obtain ⟨hcids,hother⟩:=processIfComplete_other env hfind (by rwa [hslot]) j
  refine ⟨hcids.trans (hsame j),fun hj=>?_⟩
  rw [hother hj,State.assemblies,State.assemblies,modifyChannel_other hj]

end Frames

/-- The message that `handle_init` gets. -/
def Packet.initMessage (p : Packet) : Message:=
  {cid:=p.cid,cmd:=p.cmd,len:=p.bcnt,data:=p.initData.take p.bcnt}

/-- A packet whose message `handle_init` gets. -/
def Packet.opens (p : Packet) : Prop:=p.isInit=true ∧ p.bcnt ≤ maxMsgSize ∧ p.cmd=cmdInit

instance (p : Packet) : Decidable p.opens:=inferInstanceAs (Decidable (_ ∧ _ ∧ _))

/-- What a packet that is not dropped can come to. -/
inductive PacketRun (p : Packet) (env : Env) (s : State) : State × Option Message→Prop
  | opened (hp : p.opens) : PacketRun p env s (handleInit p.initMessage s,some p.initMessage)
  | refused (hp : ¬p.opens) (error : UInt8) : PacketRun p env s (sendError p.cid error s,none)
  | outOfSequence {i : Fin 8} (hp : ¬p.opens) (hfind : findChannel p.cid s=some i) :
      PacketRun p env s (sendError p.cid errInvalidSeq (s.modifyChannel i stopAssembly),none)
  | assembled {i : Fin 8} (hp : ¬p.opens) (hfind : findChannel p.cid s=some i) {f : Channel → Channel}
      (hf : ∀ ch, (f ch).cid=ch.cid) : PacketRun p env s (processIfComplete i env (s.modifyChannel i f))

section Packets

variable {s : State} {i : Fin 8} {p : Packet} {env : Env}

theorem processInitPacket_run (hinit : p.isInit=true) : PacketRun p env s (processInitPacket p env s):=by
  unfold processInitPacket
  split_ifs with hsize hcmd
  · exact .refused (fun hp=>not_lt.mpr hp.2.1 hsize) _
  · have hdispatch : dispatch p.initMessage env s=handleInit p.initMessage s:=if_pos hcmd
    have hrun : PacketRun p env s (handleInit p.initMessage s,some p.initMessage):=
      .opened ⟨hinit,not_lt.mp hsize,hcmd⟩
    rwa [← hdispatch] at hrun
  · have hp : ¬p.opens:=fun hp=>hcmd hp.2.2
    cases hfind : findChannel p.cid s with
    | none=>exact .refused hp _
    | some i=>
      dsimp only
      split
      · exact .refused hp _
      · exact .assembled hp hfind fun _=>rfl

theorem processContPacket_run (hinit : p.isInit=false) : PacketRun p env s (processContPacket p env s):=by
  have hp : ¬p.opens:=fun hp=>absurd (hinit.symm.trans hp.1) (by simp)
  unfold processContPacket
  cases hfind : findChannel p.cid s with
  | none=>exact .refused hp _
  | some i=>
    dsimp only
    split_ifs
    · exact .refused hp _
    · exact .outOfSequence hp hfind
    · exact .assembled hp hfind fun _=>rfl

theorem processPacket_limited (h : (rateLimit env.now s).1=true) :
    processPacket p env s=((rateLimit env.now s).2,none):=by
  unfold processPacket
  cases hr : rateLimit env.now s with
  | mk limited t=>
    rw [hr] at h
    subst h
    rfl

theorem processPacket_accepted (h : (rateLimit env.now s).1=false) :
    processPacket p env s=if p.isInit then processInitPacket p env (rateLimit env.now s).2
      else processContPacket p env (rateLimit env.now s).2:=by
  unfold processPacket
  cases hr : rateLimit env.now s with
  | mk limited t=>
    rw [hr] at h
    subst h
    rfl

theorem processPacket_run (h : (rateLimit env.now s).1=false) :
    PacketRun p env (rateLimit env.now s).2 (processPacket p env s):=by
  rw [processPacket_accepted h]
  cases hinit : p.isInit with
  | true=>exact processInitPacket_run hinit
  | false=>exact processContPacket_run hinit

/-- A packet on an identifier that holds a slot changes no identifier and no other slot's assembly. -/
theorem PacketRun.other {r : State × Option Message} (h : PacketRun p env s r) (hfind : findChannel p.cid s=some i)
    (hcid : p.cid≠broadcastCid) (j : Fin 8) :
    (r.1.channels j).cid=(s.channels j).cid ∧ (j≠i → r.1.assemblies j=s.assemblies j):=by
  have hknown : findChannel p.cid s≠none:=by simp [hfind]
  have hkeep : ∀ {t : State}, t.assemblies=s.assemblies →
      (t.channels j).cid=(s.channels j).cid ∧ (j≠i→t.assemblies j=s.assemblies j):=
    fun ht=>⟨cid_of_assemblies ht j,fun _=>congrFun ht j⟩
  cases h with
  | opened hp=>exact hkeep (handleInit_assemblies (m:=p.initMessage) hfind hcid)
  | refused hp error=>exact hkeep (sendError_assemblies error (.inl hknown))
  | @outOfSequence k hp hk=>
    obtain rfl : k=i:=Option.some.inj (hk.symm.trans hfind)
    have hmod : ∀ j, ((s.modifyChannel k stopAssembly).channels j).cid=(s.channels j).cid:=modifyChannel_cid rfl
    have herror : (sendError p.cid errInvalidSeq (s.modifyChannel k stopAssembly)).assemblies =
        (s.modifyChannel k stopAssembly).assemblies:=
      sendError_assemblies _ (.inl (by rwa [findChannel_congr hmod]))
    refine ⟨(cid_of_assemblies herror j).trans (hmod j),fun hj=>?_⟩
    rw [congrFun herror j,State.assemblies,modifyChannel_other hj]
    rfl
  | @assembled k hp hk f hf=>
    obtain rfl : k=i:=Option.some.inj (hk.symm.trans hfind)
    exact processIfComplete_modify hfind hcid hf j

theorem processPacket_other (hfind : findChannel p.cid s=some i) (hcid : p.cid≠broadcastCid) (j : Fin 8) :
    ((processPacket p env s).1.channels j).cid=(s.channels j).cid ∧
      (j≠i→(processPacket p env s).1.assemblies j=s.assemblies j):=by
  have hrate:=rateLimit_assemblies env.now s
  have hcids:=cid_of_assemblies hrate
  cases h : (rateLimit env.now s).1 with
  | true=>
    rw [processPacket_limited h]
    exact ⟨hcids j,fun _=>congrFun hrate j⟩
  | false=>
    obtain ⟨hsame,hother⟩:=(processPacket_run (p:=p) h).other ((findChannel_congr hcids).trans hfind) hcid j
    exact ⟨hsame.trans (hcids j),fun hj=>(hother hj).trans (congrFun hrate j)⟩

end Packets

@[simp] theorem getResponsePacket_assemblies (s : State) : (getResponsePacket s).2.assemblies=s.assemblies:=
  getResponsePacket_frame rfl (modifyChannel_assemblies rfl)

theorem checkTimeout_cid (now : UInt32) (s : State) (j : Fin 8) :
    ((checkTimeout now s).channels j).cid=(s.channels j).cid:=by
  unfold checkTimeout
  induction slots generalizing s with
  | nil=>rfl
  | cons i is ih=>
    rw [List.foldl_cons]
    dsimp only
    split
    · have hknown : findChannel (s.channels i).cid s≠none ∨ (s.channels i).cid=0 ∨
          (s.channels i).cid=broadcastCid ∨ allocChannel (s.channels i).cid s=none:=by
        by_cases hzero : (s.channels i).cid=0
        · exact .inr (.inl hzero)
        · exact .inl fun hnone=>findChannel_none hnone hzero i rfl
      rw [ih,modifyChannel_cid rfl]
      exact cid_of_assemblies (sendError_assemblies _ hknown) j
    · exact ih s

def initRequest (cid : UInt32) : Packet:=buildInitPacket cid cmdInit 8 (List.replicate 8 0x5A)

def emptyPing (cid : UInt32) : Packet:=buildInitPacket cid cmdPing 0 []

end CdcBadge.Ctaphid
