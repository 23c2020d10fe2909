import CdcBadge.CtaphidResponses
import CdcBadge.CtaphidResync

/-!
# Messages from the host

Each channel's packets are messages cut into init and continuation packets. However
those of the channels are interleaved, each message is handled once, whole and on its
own channel; only INIT, which is handled at its first packet, must fit in that packet.
-/

namespace CdcBadge.Ctaphid

open Runs

/-- The packets that carry these messages one after the other on a channel. -/
inductive Carries (c : UInt32) : List Packet → List Message→Prop
  | nil : Carries c [] []
  | cons {cmd : UInt8} {data : Bytes} {p : Packet} {qs ps : List Packet} {ms : List Message}
      (hlen : data.length ≤ maxMsgSize) (hfragments : Fragments c cmd data p qs) (hrest : Carries c ps ms) :
      Carries c (p::(qs++ps)) ({cid:=c,cmd:=cmd,len:=data.length,data:=data}::ms)

def packetsOn (c : UInt32) (es : List Event) : List Packet:=
  es.filterMap fun
    | .packet p _=>if p.cid=c then some p else none
    | _=>none

def handledIn : State → List Event → List Message
  | _, []=>[]
  | s, e::es=>(handled s e).toList++handledIn (step s e) es

/-- A packet on a channel that holds a slot, within the rate limit; a packet sent; or a look for timeouts that finds
none. -/
def Undisturbed (s : State) : Event→Prop
  | .packet p env=>findChannel p.cid s≠none ∧ (rateLimit env.now s).1=false
  | .getResponsePacket=>True
  | .checkTimeout now=>∀ i, (s.channels i).active=true→¬now-(s.channels i).lastActivity > msgTimeoutMs

/-- The event leaves what the slots of other identifiers have assembled. -/
def SparesOthers (s : State) (e : Event) : Prop:=
  ∀ i, (∀ p env, e=.packet p env→(s.channels i).cid≠p.cid)→(step s e).assemblies i=s.assemblies i

section Content

variable {c : UInt32} {cmd : UInt8} {data : Bytes} {p : Packet} {qs : List Packet} {k : ℕ}

theorem flatMap_drop {α β : Type} {f : α → List β} {n : ℕ} (hf : ∀ a, (f a).length=n) (k : ℕ) (l : List α) :
    (l.flatMap f).drop (k*n)=(l.drop k).flatMap f:=by
  induction k generalizing l with
  | zero=>simp
  | succ k ih=>cases l with
    | nil=>simp
    | cons a l=>
      have hlen : (k+1)*n=(f a).length+k*n:=by rw [hf,Nat.succ_mul,Nat.add_comm]
      rw [List.flatMap_cons,hlen,List.drop_append,Nat.add_sub_cancel_left,List.drop_of_length_le (by omega),
        List.nil_append,ih,List.drop_succ_cons]

theorem initData_length (p : Packet) : p.initData.length=initDataSize:=by
  simp [Packet.initData,initDataSize]

theorem contData_length (p : Packet) : p.contData.length=contDataSize:=by
  simp [Packet.contData,contDataSize]

theorem Fragments.initData_take (h : Fragments c cmd data p qs) :
    p.initData.take (min data.length initDataSize)=data.take (min data.length initDataSize):=by
  have hcontent:=congrArg (List.take (min data.length initDataSize)) h.content
  rw [List.take_take,List.take_append_of_le_length (by rw [initData_length]; omega)] at hcontent
  rw [← hcontent]
  congr 1
  omega

theorem Fragments.contData_take (h : Fragments c cmd data p qs) (hk : k < qs.length) {n : ℕ} (hn : n ≤ contDataSize)
    (hfit : initDataSize+k*contDataSize+n ≤ data.length) :
    qs[k].contData.take n=(data.drop (initDataSize+k*contDataSize)).take n:=by
  have hcontent:=congrArg (fun l=>(l.drop (initDataSize+k*contDataSize)).take n) h.content
  rw [← hcontent,List.drop_take,List.take_take,← initData_length p,List.drop_append,Nat.add_sub_cancel_left,
    List.drop_of_length_le (by omega),List.nil_append,flatMap_drop contData_length,← List.getElem_cons_drop hk,
    List.flatMap_cons,List.take_append_of_le_length (by rw [contData_length]; omega)]
  congr 1
  rw [initData_length]
  omega

theorem copyAt_take {buffer : Bytes} (data : Bytes) {offset : ℕ} (h : (buffer.take offset).length=offset) :
    (copyAt buffer offset data).take (offset+data.length)=buffer.take offset++data:=by
  rw [copyAt,List.append_assoc,← List.append_assoc]
  rw [List.take_append_of_le_length (by rw [List.length_append,h]),List.take_of_length_le (by rw [List.length_append,h])]

end Content

/-- The slot has taken the init packet of a message and the first continuation packets. -/
structure Assembled (c : UInt32) (cmd : UInt8) (data : Bytes) (k : ℕ) (ch : Channel) : Prop where
  active : ch.active=true
  cid : ch.cid=c
  cmd : ch.cmd=cmd
  bcnt : ch.bcnt=data.length
  seq : ch.seq=k
  offset : ch.offset=min data.length (initDataSize+k*contDataSize)
  content : ch.buffer.take ch.offset=data.take ch.offset

/-- What a slot is waiting for: nothing, messages from their first packet on, or first the rest of one message. -/
inductive Awaits (c : UInt32) (ch : Channel) : List Packet → List Message→Prop
  | silent : Awaits c ch [] []
  | idle {ps : List Packet} {ms : List Message} (hactive : ch.active=false) (hrest : Carries c ps ms) : Awaits c ch ps ms
  | midway {cmd : UInt8} {data : Bytes} {p : Packet} {qs ps : List Packet} {ms : List Message} {k : ℕ}
      (hassembled : Assembled c cmd data k ch) (hlen : data.length ≤ maxMsgSize)
      (hfragments : Fragments c cmd data p qs) (hk : k < qs.length) (hrest : Carries c ps ms) :
      Awaits c ch (qs.drop k++ps) ({cid:=c,cmd:=cmd,len:=data.length,data:=data}::ms)

section Assembly

variable {c : UInt32} {cmd : UInt8} {data : Bytes} {p : Packet} {qs : List Packet} {k : ℕ} {ch : Channel} {noted : UInt32}

theorem assembled_start (h : Fragments c cmd data p qs) (hcid : ch.cid=c) : Assembled c cmd data 0 (ch.start p noted):=by
  have hbcnt : p.bcnt=data.length:=h.init.2.2.2
  refine ⟨rfl,hcid,h.init.2.2.1,hbcnt,rfl,?_,?_⟩
  · rw [Nat.zero_mul,Nat.add_zero,← hbcnt]
    rfl
  · have hcopy : (p.initData.take (min p.bcnt initDataSize)).length=min p.bcnt initDataSize:=by
      rw [List.length_take,initData_length]
      omega
    have hempty : (ch.buffer.take 0).length=0:=by simp
    have htake:=copyAt_take (p.initData.take (min p.bcnt initDataSize)) hempty
    rw [hcopy,Nat.zero_add,List.take_zero,List.nil_append,hbcnt,h.initData_take] at htake
    simp only [Channel.start,hbcnt]
    rw [h.initData_take]
    exact htake

theorem assembled_proceed (hch : Assembled c cmd data k ch) (hlen : data.length ≤ maxMsgSize)
    (h : Fragments c cmd data p qs) (hk : k < qs.length) :
    Assembled c cmd data (k+1) (ch.proceed qs[k] noted):=by
  have hmore : initDataSize+k*contDataSize < data.length:=(lt_contCount _ k).mp (h.count ▸ hk)
  have hoffset : ch.offset=initDataSize+k*contDataSize:=by rw [hch.offset,min_eq_right hmore.le]
  have hcopy : min (ch.bcnt-ch.offset) contDataSize =
      min (data.length-(initDataSize+k*contDataSize)) contDataSize:=by rw [hch.bcnt,hoffset]
  generalize hn : min (data.length-(initDataSize+k*contDataSize)) contDataSize=n at hcopy
  have hchunk : qs[k].contData.take n=(data.drop ch.offset).take n:=by
    rw [hoffset]
    exact h.contData_take hk (by omega) (by omega)
  have hnew : initDataSize+k*contDataSize+n=min data.length (initDataSize+(k+1)*contDataSize):=by
    rw [Nat.succ_mul]
    omega
  refine ⟨hch.active,hch.cid,hch.cmd,hch.bcnt,?_,?_,?_⟩
  · have hseq : (ch.seq+1) % 256=k+1:=by
      rw [hch.seq]
      simp only [maxMsgSize,initDataSize,contDataSize] at hlen hmore
      omega
    exact hseq
  · have hoffset' : (ch.proceed qs[k] noted).offset=ch.offset+min (ch.bcnt-ch.offset) contDataSize:=rfl
    rw [hoffset',hcopy,hoffset,hnew]
  · have hlength : (qs[k].contData.take n).length=n:=by
      rw [List.length_take,contData_length]
      omega
    have hfront : (ch.buffer.take ch.offset).length=ch.offset:=by
      rw [hch.content,List.length_take,hoffset]
      omega
    have htake:=copyAt_take (qs[k].contData.take n) hfront
    rw [hlength,hch.content,hchunk,← List.take_add] at htake
    simp only [Channel.proceed,hcopy]
    rw [hchunk]
    exact htake

theorem assembled_assembly : Assembled c cmd data k ch.assembly ↔ Assembled c cmd data k ch:=by
  constructor
  · rintro ⟨hactive,hcid,hcmd,hbcnt,hseq,hoffset,hcontent⟩
    exact ⟨hactive,hcid,hcmd,hbcnt,hseq,hoffset,hcontent⟩
  · rintro ⟨hactive,hcid,hcmd,hbcnt,hseq,hoffset,hcontent⟩
    exact ⟨hactive,hcid,hcmd,hbcnt,hseq,hoffset,hcontent⟩

end Assembly

section Steps

variable {s : State} {c : UInt32} {i : Fin 8} {cmd : UInt8} {data : Bytes} {p q : Packet} {qs ps : List Packet}
  {ms : List Message} {k : ℕ} {env : Env}

theorem processIfComplete_slot (env : Env) (hslot : findChannel c s=some i) (hcid : c≠broadcastCid) :
    processIfComplete i env s=((processIfComplete i env s).1,
      if (s.channels i).offset ≥ (s.channels i).bcnt then some (s.channels i).message else none) ∧
    (processIfComplete i env s).1.assemblies i =
      if (s.channels i).offset ≥ (s.channels i).bcnt then (clearChannel (s.channels i)).assembly
      else (s.channels i).assembly:=by
  have hself : (s.channels i).message.cid=c:=(findChannel_some hslot).1
  unfold processIfComplete
  dsimp only
  split
  · refine ⟨rfl,?_⟩
    have hsame:=congrFun (dispatch_assemblies (m:=(s.channels i).message) env (by rw [hself]; exact hslot)
      (by rwa [hself])) i
    rw [State.assemblies,modifyChannel_self]
    exact congrArg clearChannel hsame
  · exact ⟨rfl,rfl⟩

/-- A slot that has taken so many packets of a message either handles it, or waits for the rest. -/
theorem processIfComplete_awaits (hslot : findChannel c s=some i) (hcid : c≠broadcastCid)
    (hch : Assembled c cmd data k (s.channels i)) (hlen : data.length ≤ maxMsgSize) (h : Fragments c cmd data p qs)
    (hrest : Carries c ps ms) :
    ∃ rest, {cid:=c,cmd:=cmd,len:=data.length,data:=data}::ms =
        (processIfComplete i env s).2.toList++rest ∧
      Awaits c ((processIfComplete i env s).1.assemblies i) (qs.drop k++ps) rest:=by
  obtain ⟨hhandled,hafter⟩:=processIfComplete_slot env hslot hcid
  have hcount:=lt_contCount data.length k
  rw [← h.count] at hcount
  by_cases hdone : k < qs.length
  · have hopen : ¬(s.channels i).offset ≥ (s.channels i).bcnt:=by
      have hmore:=hcount.mp hdone
      rw [hch.offset,hch.bcnt]
      omega
    rw [if_neg hopen] at hhandled hafter
    rw [hhandled]
    refine ⟨_,rfl,?_⟩
    rw [hafter]
    exact .midway (assembled_assembly.mpr hch) hlen h hdone hrest
  · have hoffset : (s.channels i).offset=data.length:=by
      rw [hch.offset]
      have hall:=mt hcount.mpr hdone
      omega
    have hmessage : (s.channels i).message={cid:=c,cmd:=cmd,len:=data.length,data:=data}:=by
      have hcontent:=hch.content
      rw [hoffset,List.take_length] at hcontent
      rw [Channel.message,hch.cid,hch.cmd,hch.bcnt,hcontent]
    have hcomplete : (s.channels i).offset ≥ (s.channels i).bcnt:=by rw [hoffset,hch.bcnt]
    rw [if_pos hcomplete] at hhandled hafter
    rw [hhandled,hmessage,hafter,List.drop_of_length_le (not_lt.mp hdone)]
    exact ⟨ms,rfl,.idle rfl hrest⟩

theorem processPacket_cont (hslot : findChannel q.cid s=some i) (hinit : q.isInit=false)
    (hactive : (s.channels i).active=true) (hseq : q.seq=(s.channels i).seq)
    (hlimit : (rateLimit env.now s).1=false) :
    processPacket q env s =
      processIfComplete i env ((rateLimit env.now s).2.modifyChannel i (Channel.proceed q env.noted)):=by
  have hrate:=rateLimit_assemblies env.now s
  have hsame : ((rateLimit env.now s).2.channels i).seq=(s.channels i).seq:=by
    have h:=congrArg Channel.seq (congrFun hrate i)
    exact h
  rw [processPacket_accepted hlimit,hinit,if_neg (by simp),processContPacket,
    (findChannel_congr (cid_of_assemblies hrate)).trans hslot]
  dsimp only
  rw [active_of_assemblies hrate,hactive,hsame,if_neg (by simp),if_neg (not_not.mpr hseq)]

theorem handled_init (hp : p.opens) (hlimit : (rateLimit env.now s).1=false) :
    (processPacket p env s).2=some p.initMessage:=by
  have hrun:=processPacket_run (p:=p) hlimit
  generalize processPacket p env s=r at hrun
  cases hrun with
  | opened=>rfl
  | refused hn=>exact absurd hp hn
  | outOfSequence hn=>exact absurd hp hn
  | assembled hn=>exact absurd hp hn

theorem Fragments.initMessage (h : Fragments c cmd data p qs) (hfit : data.length ≤ initDataSize) :
    p.initMessage={cid:=c,cmd:=cmd,len:=data.length,data:=data} ∧ qs=[]:=by
  obtain ⟨hcid,-,hcmd,hbcnt⟩:=h.init
  constructor
  · have htake:=h.initData_take
    rw [min_eq_left hfit,List.take_length] at htake
    rw [Packet.initMessage,hcid,hcmd,hbcnt,htake]
  · apply List.eq_nil_of_length_eq_zero
    rw [h.count,contCount,Nat.sub_eq_zero_of_le hfit]
    rfl

/-- A packet that the channel waits for is taken, and completes the message of which it is the last. -/
theorem packet_awaited (hs : NoBroadcast s) (hslot : findChannel c s=some i) (hlimit : (rateLimit env.now s).1=false)
    (hawaits : Awaits c (s.assemblies i) (p::ps) ms) (hinit : ∀ m∈ms, m.cmd=cmdInit→m.len ≤ initDataSize)
    (hp : p.cid=c) :
    ∃ rest, ms=(handled s (.packet p env)).toList++rest ∧
      Awaits c ((step s (.packet p env)).assemblies i) ps rest:=by
  have hfind : findChannel p.cid s=some i:=by rw [hp]; exact hslot
  have hcid : c≠broadcastCid:=(findChannel_some hslot).1 ▸ hs i
  have hrate:=rateLimit_assemblies env.now s
  have htaken : ∀ {f : Channel → Channel}, (∀ ch, (f ch).cid=ch.cid) →
      findChannel c ((rateLimit env.now s).2.modifyChannel i f)=some i:=by
    intro f hf
    rw [← hslot]
    exact findChannel_congr fun j=>(modifyChannel_cid (hf _) j).trans (cid_of_assemblies hrate j)
  rw [handled,step]
  generalize hpackets : p::ps=packets at hawaits
  cases hawaits with
  | silent=>cases hpackets
  | idle hidle hrest=>
    cases hrest with
    | nil=>cases hpackets
    | @cons cmd data p' qs ps' ms hlen hfragments hrest=>
      obtain ⟨rfl,rfl⟩:=List.cons.inj hpackets
      obtain ⟨-,hisInit,hpcmd,hbcnt⟩:=hfragments.init
      by_cases hcmd : cmd=cmdInit
      · have hopens : p.opens:=⟨hisInit,by rw [hbcnt]; exact hlen,hpcmd.trans hcmd⟩
        obtain ⟨hmessage,rfl⟩:=hfragments.initMessage (hinit _ List.mem_cons_self hcmd)
        refine ⟨ms,by rw [handled_init hopens hlimit,hmessage]; rfl,?_⟩
        have hkept:=congrFun (init_assemblies hs hfind hopens hlimit) i
        rw [step] at hkept
        rw [hkept]
        exact .idle hidle hrest
      · have hstart:=processPacket_init hfind hisInit (by rw [hbcnt]; exact hlen) (by rwa [hpcmd]) hlimit
        rw [if_neg (by rw [show (s.channels i).active=false from hidle]; simp)] at hstart
        rw [hstart]
        refine processIfComplete_awaits (k:=0) (htaken fun _=>rfl) hcid ?_ hlen hfragments hrest
        rw [modifyChannel_self]
        exact assembled_start hfragments ((cid_of_assemblies hrate i).trans (findChannel_some hslot).1)
  | @midway cmd data p' qs ps' ms k hassembled hlen hfragments hk hrest=>
    rw [← List.getElem_cons_drop hk,List.cons_append] at hpackets
    obtain ⟨rfl,rfl⟩:=List.cons.inj hpackets
    have hchannel : Assembled c cmd data k (s.channels i):=assembled_assembly.mp hassembled
    have hrated : Assembled c cmd data k ((rateLimit env.now s).2.channels i):=
      assembled_assembly.mp (by rw [← State.assemblies,hrate]; exact hassembled)
    obtain ⟨-,hcont,hseq⟩:=hfragments.conts k hk
    rw [processPacket_cont hfind hcont hchannel.active (hseq.trans hchannel.seq.symm) hlimit]
    refine processIfComplete_awaits (htaken fun _=>rfl) hcid ?_ hlen hfragments hrest
    rw [modifyChannel_self]
    exact assembled_proceed hrated hlen hfragments hk

end Steps

section Run

variable {s : State} {c : UInt32} {e : Event} {es : List Event} {p : Packet} {env : Env} {m : Message} {ms : List Message}

theorem handled_packet (h : handled s (.packet p env)=some m) : m.cid=p.cid:=by
  rw [handled] at h
  cases hlimit : (rateLimit env.now s).1 with
  | true=>
    rw [processPacket_limited hlimit] at h
    cases h
  | false=>
    have hrun:=processPacket_run (p:=p) hlimit
    generalize processPacket p env s=r at hrun h
    cases hrun with
    | opened=>
      cases h
      rfl
    | refused=>cases h
    | outOfSequence=>cases h
    | @assembled i hp hfind f hf=>
      unfold processIfComplete at h
      dsimp only at h
      split at h
      · cases h
        exact (modifyChannel_cid (hf _) i).trans (findChannel_some hfind).1
      · cases h

theorem Undisturbed.bystander (he : Undisturbed s e) (hp : ∀ p env, e=.packet p env→p.cid≠c) : Bystander c s e:=by
  cases e with
  | packet p env=>exact ⟨hp p env rfl,he.1⟩
  | getResponsePacket=>trivial
  | checkTimeout now=>exact he

theorem Undisturbed.cid (hs : NoBroadcast s) (he : Undisturbed s e) (i : Fin 8) :
    ((step s e).channels i).cid=(s.channels i).cid:=by
  cases e with
  | packet p env=>
    obtain ⟨j,hj⟩:=Option.ne_none_iff_exists'.mp he.1
    exact (processPacket_other hj ((findChannel_some hj).1 ▸ hs j) i).1
  | getResponsePacket=>exact cid_of_assemblies (getResponsePacket_assemblies s) i
  | checkTimeout now=>exact checkTimeout_cid now s i

theorem Awaits.nothing {ch : Channel} (h : Awaits c ch [] ms) : ms=[]:=by
  generalize hpackets : ([] : List Packet)=packets at h
  cases h with
  | silent=>rfl
  | idle hactive hrest=>
    subst hpackets
    cases hrest with
    | nil=>rfl
  | midway hassembled hlen hfragments hk hrest=>
    have hnil:=congrArg List.length hpackets
    rw [List.length_append,List.length_drop,List.length_nil] at hnil
    omega

theorem handledIn_channel (hs : NoBroadcast s) (hes : AlongRun step Undisturbed s es)
    (hinit : ∀ m∈ms, m.cmd=cmdInit→m.len ≤ initDataSize)
    (hawaits : ∃ ch, (∀ i, findChannel c s=some i → s.assemblies i=ch) ∧ Awaits c ch (packetsOn c es) ms) :
    (handledIn s es).filter (·.cid=c)=ms:=by
  induction es generalizing s ms with
  | nil=>
    obtain ⟨ch,-,hawaits⟩:=hawaits
    rw [hawaits.nothing]
    rfl
  | cons e es ih=>
    obtain ⟨he,hes⟩:=hes
    obtain ⟨ch,hch,hawaits⟩:=hawaits
    have hsame : findChannel c (step s e)=findChannel c s:=findChannel_congr (he.cid hs)
    rw [handledIn,List.filter_append]
    by_cases hmine : ∃ p env, e=.packet p env ∧ p.cid=c
    · obtain ⟨p,env,rfl,hp⟩:=hmine
      obtain ⟨i,hslot⟩:=Option.ne_none_iff_exists'.mp he.1
      rw [hp] at hslot
      have hpackets : packetsOn c (.packet p env::es)=p::packetsOn c es:=by simp [packetsOn,hp]
      rw [hpackets,← hch i hslot] at hawaits
      obtain ⟨rest,rfl,hnext⟩:=packet_awaited hs hslot he.2 hawaits hinit hp
      have hown : (handled s (.packet p env)).toList.filter (·.cid=c)=(handled s (.packet p env)).toList:=by
        rw [List.filter_eq_self]
        intro m hm
        rw [Option.mem_toList] at hm
        simpa using (handled_packet hm).trans hp
      rw [hown,ih (hs.step _) hes (fun m hm=>hinit m (List.mem_append_right _ hm))]
      refine ⟨_,fun j hj=>?_,hnext⟩
      rw [hsame,hslot] at hj
      cases hj
      rfl
    · have hother : ∀ p env, e=.packet p env→p.cid≠c:=fun p env he hp=>hmine ⟨p,env,he,hp⟩
      have hpackets : packetsOn c (e::es)=packetsOn c es:=by
        cases e with
        | packet p env=>simp [packetsOn,hother p env rfl]
        | getResponsePacket=>rfl
        | checkTimeout now=>rfl
      have hnone : (handled s e).toList.filter (·.cid=c)=[]:=by
        rw [List.filter_eq_nil_iff]
        intro m hm
        rw [Option.mem_toList] at hm
        cases e with
        | packet p env=>simpa [handled_packet hm] using hother p env rfl
        | getResponsePacket=>cases hm
        | checkTimeout now=>cases hm
      rw [hpackets] at hawaits
      rw [hnone,List.nil_append,ih (hs.step _) hes hinit]
      refine ⟨ch,fun j hj=>?_,hawaits⟩
      rw [hsame] at hj
      rw [(bystander_step hs hj (he.bystander hother)).2,hch j hj]

theorem Undisturbed.sparesOthers (hs : NoBroadcast s) (he : Undisturbed s e) : SparesOthers s e:=by
  intro j hj
  cases e with
  | packet p env=>
    obtain ⟨i,hi⟩:=Option.ne_none_iff_exists'.mp he.1
    have hcid:=(findChannel_some hi).1
    refine (processPacket_other hi (hcid ▸ hs i) j).2 fun hji=>?_
    subst hji
    exact hj p env rfl hcid
  | getResponsePacket=>exact congrFun (getResponsePacket_assemblies s) j
  | checkTimeout now=>rw [step,checkTimeout_none (c:=0) he]

end Run

/-- However the packets of the allocated channels' messages are interleaved, each channel handles its messages, each
once, in order and whole, and no packet touches what another channel has assembled. -/
theorem messages_handled {s : State} (hs : Reachable s) {es : List Event} (hes : AlongRun step Undisturbed s es)
    {messages : UInt32 → List Message} (hcarries : ∀ c, Carries c (packetsOn c es) (messages c))
    (hidle : ∀ c i, findChannel c s=some i→messages c≠[]→(s.channels i).active=false)
    (hinit : ∀ c, ∀ m∈messages c, m.cmd=cmdInit→m.len ≤ initDataSize) :
    (∀ c, (handledIn s es).filter (·.cid=c)=messages c) ∧ AlongRun step SparesOthers s es:=by
  constructor
  · intro c
    refine handledIn_channel hs.noBroadcast hes (hinit c) ?_
    cases hslot : findChannel c s with
    | none=>exact ⟨{},fun i hi=>absurd hi (by simp),.idle rfl (hcarries c)⟩
    | some i=>
      refine ⟨s.assemblies i,fun j hj=>by rw [Option.some.inj hj],?_⟩
      by_cases hnone : messages c=[]
      · have hcarries:=hcarries c
        rw [hnone] at hcarries ⊢
        generalize packetsOn c es=ps at hcarries
        cases hcarries
        exact .silent
      · exact .idle (hidle c i hslot hnone) (hcarries c)
  · refine AlongRun.of_invariant (I:=NoBroadcast) ?_ hs.noBroadcast hes
    exact fun s e he hs=>⟨he.sparesOthers hs,hs.step e⟩

def twoChannels : State:=run step {} twoInits

theorem idle_twoChannels : ∀ i, (twoChannels.channels i).active=false:=by decide +kernel

theorem carries_one (c : UInt32) (cmd : UInt8) (data : Bytes) (hcmd : cmd &&& 0x7F=cmd)
    (hlen : data.length ≤ maxMsgSize) :
    Carries c (fragment c cmd data 0::contFragments c cmd data (contCount data.length))
      [{cid:=c,cmd:=cmd,len:=data.length,data:=data}]:=by
  have hfragments:=fragments c cmd hlen
  rw [hcmd] at hfragments
  have hone:=Carries.cons hlen hfragments .nil
  rwa [List.append_nil] at hone

def twoPings : List Event:=
  [.packet (fragment 1 cmdPing (List.replicate 60 7) 0) {},.packet (emptyPing 2) {},.getResponsePacket,
    .packet (fragment 1 cmdPing (List.replicate 60 7) 1) {}]

def pings (c : UInt32) : List Message:=
  if c=1 then [{cid:=1,cmd:=cmdPing,len:=60,data:=List.replicate 60 7}]
  else if c=2 then [{cid:=2,cmd:=cmdPing,len:=0,data:=[]}]
  else []

theorem carries_pings (c : UInt32) : Carries c (packetsOn c twoPings) (pings c):=by
  by_cases h1 : c=1
  · subst h1
    exact carries_one 1 cmdPing (List.replicate 60 7) (by decide) (by decide)
  · by_cases h2 : c=2
    · subst h2
      exact carries_one 2 cmdPing [] (by decide) (by decide)
    · have hping : (emptyPing 2).cid=2:=buildInitPacket_cid _ _ _ _
      have hnone : packetsOn c twoPings=[]:=by
        simp [packetsOn,twoPings,fragment_cid,hping,Ne.symm h1,Ne.symm h2]
      rw [hnone,pings,if_neg h1,if_neg h2]
      exact .nil

theorem messages_handled_pings :
    (∀ c, (handledIn twoChannels twoPings).filter (·.cid=c)=pings c) ∧
      AlongRun step SparesOthers twoChannels twoPings:=by
  have hes : AlongRun step Undisturbed twoChannels twoPings:=
    ⟨⟨by decide +kernel,by decide +kernel⟩,⟨by decide +kernel,by decide +kernel⟩,trivial,
      ⟨by decide +kernel,by decide +kernel⟩,trivial⟩
  refine messages_handled ⟨_,rfl⟩ hes carries_pings (fun _ i _ _=>idle_twoChannels i) ?_
  intro c m hm hcmd
  unfold pings at hm
  split_ifs at hm <;> simp only [List.mem_singleton,List.not_mem_nil] at hm <;> subst hm <;> revert hcmd <;> decide

def longInit : List Event:=
  [.packet (fragment 1 cmdInit (List.replicate 58 7) 0) {},.packet (fragment 1 cmdInit (List.replicate 58 7) 1) {}]

/-- An INIT of 58 bytes on an allocated channel is handled without its last byte. -/
theorem messages_handled_longInit : ¬ ∀ (s : State) (es : List Event) (messages : UInt32 → List Message), Reachable s →
    AlongRun step Undisturbed s es→(∀ c, Carries c (packetsOn c es) (messages c)) →
    (∀ c i, findChannel c s=some i→messages c≠[]→(s.channels i).active=false) →
    ∀ c, (handledIn s es).filter (·.cid=c)=messages c:=by
  intro h
  have hes : AlongRun step Undisturbed twoChannels longInit:=
    ⟨⟨by decide +kernel,by decide +kernel⟩,⟨by decide +kernel,by decide +kernel⟩,trivial⟩
  let messages (c : UInt32) : List Message:=
    if c=1 then [{cid:=1,cmd:=cmdInit,len:=58,data:=List.replicate 58 7}] else []
  have hcarries : ∀ c, Carries c (packetsOn c longInit) (messages c):=by
    intro c
    by_cases h1 : c=1
    · subst h1
      exact carries_one 1 cmdInit (List.replicate 58 7) (by decide) (by decide)
    · have hnone : packetsOn c longInit=[]:=by simp [packetsOn,longInit,fragment_cid,Ne.symm h1]
      have hmessages : messages c=[]:=if_neg h1
      rw [hnone,hmessages]
      exact .nil
  have hwhole:=h twoChannels longInit messages ⟨_,rfl⟩ hes hcarries (fun _ i _ _=>idle_twoChannels i) 1
  revert hwhole
  decide +kernel

end CdcBadge.Ctaphid
