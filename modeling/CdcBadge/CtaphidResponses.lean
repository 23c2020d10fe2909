import CdcBadge.CtaphidChannels
import Mathlib.Algebra.BigOperators.Group.Finset.Piecewise
import Mathlib.Algebra.Order.BigOperators.Group.Finset

/-!
# Responses on their way to the host

However the packets of the pending responses are interleaved, those of one response
are an init packet and continuation packets numbered from 0 that carry its bytes, and
after finitely many calls all of them are sent.
-/

namespace CdcBadge.Ctaphid

open Runs

def contCount (len : ℕ) : ℕ:=(len-initDataSize+(contDataSize-1))/contDataSize

/-- A message cut into an init packet and continuation packets, with anything behind its last byte. -/
structure Fragments (cid : UInt32) (cmd : UInt8) (data : Bytes) (p : Packet) (qs : List Packet) : Prop where
  init : p.cid=cid ∧ p.isInit=true ∧ p.cmd=cmd ∧ p.bcnt=data.length
  conts : ∀ j (h : j < qs.length), qs[j].cid=cid ∧ qs[j].isInit=false ∧ qs[j].seq=j
  content : (p.initData++qs.flatMap Packet.contData).take data.length=data
  count : qs.length=contCount data.length

def fragment (cid : UInt32) (cmd : UInt8) (data : Bytes) : ℕ→Packet
  | 0=>buildInitPacket cid cmd data.length data
  | k+1=>buildContPacket cid (UInt8.ofNat k) (data.drop (initDataSize+k*contDataSize))

section Padding

variable {α : Type} (a : α)

theorem takeD_add (m n : ℕ) (l : List α) : l.takeD (m+n) a=l.takeD m a++(l.drop m).takeD n a:=by
  induction m generalizing l with
  | zero=>simp
  | succ m ih=>rw [Nat.succ_add,List.takeD_succ,List.takeD_succ,ih,List.drop_tail,List.cons_append]

theorem takeD_take (n : ℕ) (l : List α) : (l.take n).takeD n a=l.takeD n a:=by
  induction n generalizing l with
  | zero=>simp
  | succ n ih=>cases l with
    | nil=>simp
    | cons b l=>rw [List.take_succ_cons,List.takeD_succ,List.takeD_succ,List.tail_cons,List.tail_cons,ih]; rfl

theorem take_takeD {n : ℕ} (l : List α) (h : l.length ≤ n) : (l.takeD n a).take l.length=l:=by
  obtain ⟨m,rfl⟩:=Nat.exists_eq_add_of_le h
  rw [takeD_add,List.takeD_eq_take _ le_rfl,List.take_length,List.take_left]

end Padding

section Decoding

variable (cid : UInt32) (cmd seq : UInt8) (data : Bytes) (n : ℕ)

theorem top_bit (b : UInt8) : (b ||| 0x80) &&& 0x80=0x80 ∧ (b ||| 0x80) &&& 0x7F=b &&& 0x7F ∧
    (b &&& 0x7F) &&& 0x80=0:=by
  simp only [← UInt8.toBitVec_inj]
  refine ⟨?_,?_,?_⟩ <;>
  · apply BitVec.eq_of_getLsbD_eq
    intro i hi
    interval_cases i <;> simp

theorem buildInitPacket_cid : (buildInitPacket cid cmd n data).cid=cid:=ofBe32_be32 cid

theorem buildInitPacket_isInit : (buildInitPacket cid cmd n data).isInit=true:=by
  have h : (buildInitPacket cid cmd n data).byte 4=cmd ||| 0x80:=rfl
  rw [Packet.isInit,h,(top_bit cmd).1]
  rfl

theorem buildInitPacket_cmd : (buildInitPacket cid cmd n data).cmd=cmd &&& 0x7F:=(top_bit cmd).2.1

theorem buildInitPacket_bcnt (h : n < 65536) : (buildInitPacket cid cmd n data).bcnt=n:=by
  have hbytes : (buildInitPacket cid cmd n data).bcnt =
      (UInt8.ofNat (n/256)).toNat*256+(UInt8.ofNat n).toNat:=rfl
  rw [hbytes,UInt8.toNat_ofNat',UInt8.toNat_ofNat']
  omega

theorem buildInitPacket_initData : (buildInitPacket cid cmd n data).initData=data.takeD initDataSize 0:=by
  rw [← takeD_take]
  rfl

theorem buildContPacket_cid : (buildContPacket cid seq data).cid=cid:=ofBe32_be32 cid

theorem buildContPacket_isInit : (buildContPacket cid seq data).isInit=false:=by
  have h : (buildContPacket cid seq data).byte 4=seq &&& 0x7F:=rfl
  rw [Packet.isInit,h,(top_bit seq).2.2]
  rfl

theorem buildContPacket_seq (h : seq.toNat < 128) : (buildContPacket cid seq data).seq=seq.toNat:=by
  have hbyte : (buildContPacket cid seq data).seq=((seq &&& 0x7F) &&& 0x7F).toNat:=rfl
  have hmask : (0x7F : UInt8).toNat=2^7-1:=rfl
  rw [hbyte,UInt8.toNat_and,UInt8.toNat_and,hmask,Nat.and_two_pow_sub_one_eq_mod,
    Nat.and_two_pow_sub_one_eq_mod,Nat.mod_mod,Nat.mod_eq_of_lt h]

theorem buildContPacket_contData : (buildContPacket cid seq data).contData=data.takeD contDataSize 0:=by
  rw [← takeD_take]
  rfl

end Decoding

section Fragment

variable {cid : UInt32} {cmd : UInt8} {data : Bytes}

theorem fragment_cid (k : ℕ) : (fragment cid cmd data k).cid=cid:=by
  cases k with
  | zero=>exact buildInitPacket_cid _ _ _ _
  | succ k=>exact buildContPacket_cid _ _ _

def contFragments (cid : UInt32) (cmd : UInt8) (data : Bytes) (n : ℕ) : List Packet:=
  (List.range n).map fun k=>fragment cid cmd data (k+1)

theorem fragment_content (n : ℕ) :
    (fragment cid cmd data 0).initData++(contFragments cid cmd data n).flatMap Packet.contData =
      data.takeD (initDataSize+n*contDataSize) 0:=by
  induction n with
  | zero=>simp [contFragments,fragment,buildInitPacket_initData]
  | succ n ih=>
    have hlast : contFragments cid cmd data (n+1) =
        contFragments cid cmd data n++[fragment cid cmd data (n+1)]:=by
      simp [contFragments,List.range_succ]
    rw [hlast,List.flatMap_append,← List.append_assoc,ih,Nat.succ_mul,← Nat.add_assoc,
      takeD_add 0 (initDataSize+n*contDataSize)]
    simp [fragment,buildContPacket_contData]

theorem fragments (cid : UInt32) (cmd : UInt8) (h : data.length ≤ maxMsgSize) : Fragments cid (cmd &&& 0x7F) data (fragment cid cmd data 0)
    (contFragments cid cmd data (contCount data.length)) where
  init:=⟨buildInitPacket_cid _ _ _ _,buildInitPacket_isInit _ _ _ _,buildInitPacket_cmd _ _ _ _,
    buildInitPacket_bcnt _ _ _ _ (by simp only [maxMsgSize] at h; omega)⟩
  conts:=by
    intro j hj
    have hcount : j < contCount data.length:=by simpa [contFragments] using hj
    have hseq : (UInt8.ofNat j).toNat=j:=by
      rw [UInt8.toNat_ofNat']
      simp only [contCount,maxMsgSize,initDataSize,contDataSize] at hcount h
      omega
    have hnth : (contFragments cid cmd data (contCount data.length))[j]=fragment cid cmd data (j+1):=by
      simp [contFragments]
    rw [hnth]
    refine ⟨fragment_cid _,buildContPacket_isInit _ _ _,?_⟩
    rw [fragment,buildContPacket_seq,hseq]
    simp only [contCount,maxMsgSize,initDataSize,contDataSize] at hcount h
    omega
  content:=by
    rw [fragment_content]
    apply take_takeD
    simp only [contCount,initDataSize,contDataSize]
    omega
  count:=by simp [contFragments]

end Fragment

/-- The response as it was left for sending, and what of it is sent. -/
structure Prepared (r : Response) : Prop where
  unsent : r.offset=0
  len_le : r.len ≤ maxMsgSize
  buffer_length : r.buffer.length=maxMsgSize

def Response.data (r : Response) : Bytes:=r.buffer.take r.len

def Response.owed (r : Response) : ℕ:=if r.pending then contCount r.len+1 else 0

def Response.packet (r : Response) (k : ℕ) : Packet:=fragment r.cid r.cmd r.data k

def Response.after (r : Response) : ℕ→Response
  | 0=>r
  | k+1=>{r with offset:=min r.len (initDataSize+k*contDataSize),pending:=decide (k+1 < r.owed)}

section Response

variable {r : Response} {k : ℕ}

theorem Prepared.data_length (h : Prepared r) : r.data.length=r.len:=by
  rw [Response.data,List.length_take,h.buffer_length,min_eq_left h.len_le]

theorem after_pending (r : Response) (k : ℕ) : (r.after k).pending=decide (k < r.owed):=by
  cases k with
  | zero=>
    unfold Response.after Response.owed
    cases r.pending <;> simp
  | succ k=>rfl

theorem owed_pos (h : k < r.owed) : r.pending=true ∧ k ≤ contCount r.len:=by
  unfold Response.owed at h
  split at h
  · exact ⟨‹_›,by omega⟩
  · omega

theorem lt_contCount (len k : ℕ) : k < contCount len ↔ initDataSize+k*contDataSize < len:=by
  simp only [contCount,initDataSize,contDataSize]
  omega

theorem next_first (h : r.offset=0) : r.next=(buildInitPacket r.cid r.cmd r.len r.data,
    { r with
      offset:=min r.len initDataSize
      pending:=r.pending && decide (min r.len initDataSize < r.len) }):=by
  rw [Response.next,if_pos h,h]
  rfl

theorem next_later (h : r.offset≠0) : r.next =
    (buildContPacket r.cid (UInt8.ofNat ((r.offset-initDataSize)/contDataSize)) (r.data.drop r.offset),
      { r with
        offset:=r.offset+min (r.len-r.offset) contDataSize
        pending:=r.pending && decide (r.offset+min (r.len-r.offset) contDataSize < r.len) }):=by
  rw [Response.next,if_neg h,Response.data,List.drop_take]

theorem next_after (hr : Prepared r) (hk : k < r.owed) : (r.after k).next=(r.packet k,r.after (k+1)):=by
  obtain ⟨hpending,hcount⟩:=owed_pos hk
  have howed : r.owed=contCount r.len+1:=if_pos hpending
  have hmore : ∀ j, min r.len (initDataSize+j*contDataSize) < r.len ↔ j+1 < r.owed:=by
    intro j
    rw [howed,Nat.add_lt_add_iff_right,lt_contCount]
    omega
  cases k with
  | zero=>
    have hmore:=hmore 0
    rw [Nat.zero_mul,Nat.add_zero] at hmore
    rw [Response.after,next_first hr.unsent,Response.packet,fragment,hr.data_length,Response.after]
    simp only [hpending,hmore,Bool.true_and,Nat.zero_mul,Nat.add_zero]
  | succ k=>
    have hlen : initDataSize+k*contDataSize < r.len:=(lt_contCount _ k).mp (by omega)
    have hoffset : (r.after (k+1)).offset=initDataSize+k*contDataSize:=min_eq_right hlen.le
    have hseq : (initDataSize+k*contDataSize-initDataSize)/contDataSize=k:=by
      rw [Nat.add_sub_cancel_left]
      exact Nat.mul_div_cancel k (by decide)
    have hnext : initDataSize+k*contDataSize+min (r.len-(initDataSize+k*contDataSize)) contDataSize =
        min r.len (initDataSize+(k+1)*contDataSize):=by
      rw [Nat.succ_mul]
      omega
    have hstill : (r.after (k+1)).pending=true:=by rw [after_pending,decide_eq_true hk]
    rw [next_later (by rw [hoffset]; simp [initDataSize]),hoffset,hstill,hseq]
    simp only [Response.after,hnext,hmore,Bool.true_and]
    rfl

end Response

def slotSent (s : State) : Option (Fin 8 × Packet):=
  match pickNextResponseChannel s, (getResponsePacket s).1 with
  | some (i,_), some packet=>some (i,packet)
  | _, _=>none

def sent : State → ℕ → List (Fin 8 × Packet)
  | _, 0=>[]
  | s, n+1=>(slotSent s).toList++sent (getResponsePacket s).2 n

def ofSlot (i : Fin 8) (sent : List (Fin 8 × Packet)) : List Packet:=(sent.filter (·.1=i)).map Prod.snd

def withCid (c : UInt32) (sent : List (Fin 8 × Packet)) : List Packet:=(sent.map Prod.snd).filter (·.cid=c)

def Delivers (r : Response) (sentBy : ℕ → List Packet) : Prop:=
  ∃ p qs, Fragments r.cid (r.cmd &&& 0x7F) r.data p qs ∧ (∀ n, sentBy n <+: p::qs) ∧
    ∃ N, ∀ n ≥ N, sentBy n=p::qs

def State.after (s : State) (ks : Fin 8 → ℕ) (cursor : ℕ) : State:=
  { s with
    channels:=fun i=>{s.channels i with response:=(s.channels i).response.after (ks i)}
    responseRrIndex:=cursor }

def AllPrepared (s : State) : Prop:=∀ i, (s.channels i).response.pending=true→Prepared (s.channels i).response

def State.owed (s : State) (i : Fin 8) : ℕ:=(s.channels i).response.owed

section Sending

variable {s : State} {ks : Fin 8 → ℕ} {cursor : ℕ}

theorem mem_fromCursor (s : State) (i : Fin 8) : i∈fromCursor s:=by
  rw [fromCursor,List.mem_map]
  have hlt : (i.val+7*s.responseRrIndex) % 8 < 8:=Nat.mod_lt _ (by decide)
  refine ⟨⟨_,hlt⟩,mem_slots _,Fin.ext ?_⟩
  simp only [Fin.val_ofNat]
  omega

def advance (ks : Fin 8 → ℕ) (i j : Fin 8) : ℕ:=ks j+if j=i then 1 else 0

theorem after_advance (i : Fin 8) : (s.after ks cursor).modifyChannel i
    (fun ch=>{ch with response:=(s.channels i).response.after (ks i+1)})=s.after (advance ks i) cursor:=by
  simp only [State.modifyChannel,State.after,State.mk.injEq,true_and,and_true]
  funext j
  by_cases hj : j=i
  · subst hj
    simp [advance]
  · simp [advance,hj]

theorem getResponsePacket_after (ks : Fin 8 → ℕ) (cursor : ℕ) (hs : AllPrepared s) (hcancel : s.cancelled=false) :
    ((∀ i, s.owed i ≤ ks i) ∧ slotSent (s.after ks cursor)=none ∧
        (getResponsePacket (s.after ks cursor)).2=s.after ks cursor) ∨
      ∃ i cursor', ks i < s.owed i ∧
        slotSent (s.after ks cursor)=some (i,(s.channels i).response.packet (ks i)) ∧
        (getResponsePacket (s.after ks cursor)).2=s.after (advance ks i) cursor':=by
  have hpending : ∀ i, ((s.after ks cursor).channels i).response.pending=decide (ks i < s.owed i):=
    fun i=>after_pending _ _
  cases hfind : (fromCursor (s.after ks cursor)).find? fun i=>((s.after ks cursor).channels i).response.pending with
  | none=>
    have hpick : pickNextResponseChannel (s.after ks cursor)=none:=by
      rw [pickNextResponseChannel,hfind,Option.map_none]
    have hget : getResponsePacket (s.after ks cursor)=(none,s.after ks cursor):=by rw [getResponsePacket,hpick]
    refine .inl ⟨fun i=>?_,by rw [slotSent,hpick],by rw [hget]⟩
    have hi:=List.find?_eq_none.mp hfind i (mem_fromCursor _ i)
    rw [hpending,decide_eq_true_iff,not_lt] at hi
    exact hi
  | some i=>
    have hi : ks i < s.owed i:=by simpa [hpending] using List.find?_some hfind
    have hpick : pickNextResponseChannel (s.after ks cursor)=some (i,s.after ks ((i.val+1) % 8)):=by
      rw [pickNextResponseChannel,hfind,Option.map_some]
      rfl
    have hnext:=next_after (hs i (owed_pos hi).1) hi
    have hget : getResponsePacket (s.after ks cursor)=(some ((s.channels i).response.packet (ks i)),
        s.after (advance ks i) ((i.val+1) % 8)):=by
      have hslot : ((s.after ks ((i.val+1) % 8)).channels i).response=(s.channels i).response.after (ks i):=rfl
      rw [getResponsePacket,hpick]
      simp only [hslot,hnext]
      rw [if_neg (by simp [State.after,hcancel]),after_advance]
    refine .inr ⟨i,(i.val+1) % 8,hi,?_,by rw [hget]⟩
    rw [slotSent,hpick,hget]

@[simp] theorem ofSlot_nil (i : Fin 8) : ofSlot i []=[]:=rfl

theorem ofSlot_cons (i j : Fin 8) (p : Packet) (l : List (Fin 8 × Packet)) :
    ofSlot i ((j,p)::l)=if j=i then p::ofSlot i l else ofSlot i l:=by
  unfold ofSlot
  split <;> simp [*]

theorem sent_after (ks : Fin 8 → ℕ) (cursor : ℕ) (hs : AllPrepared s) (hcancel : s.cancelled=false) (hks : ∀ i, ks i ≤ s.owed i) (n : ℕ) :
    ∃ ks' cursor', run step (s.after ks cursor) (List.replicate n .getResponsePacket)=s.after ks' cursor' ∧
      (∀ i, ks i ≤ ks' i ∧ ks' i ≤ s.owed i) ∧
      (∀ i, ofSlot i (sent (s.after ks cursor) n) =
        (List.range' (ks i) (ks' i-ks i)).map (s.channels i).response.packet) ∧
      ((∀ i, s.owed i ≤ ks' i) ∨ ∑ i, ks' i=∑ i, ks i+n):=by
  induction n generalizing ks cursor with
  | zero=>exact ⟨ks,cursor,rfl,fun i=>⟨le_rfl,hks i⟩,fun i=>by simp [sent],.inr rfl⟩
  | succ n ih=>
    rcases getResponsePacket_after ks cursor hs hcancel with
      ⟨hall,hnone,hsame⟩ | ⟨i,cursor₁,hi,hslot,hnext⟩
    · obtain ⟨ks',cursor',hrun,hbounds,hsent,-⟩:=ih ks cursor hks
      refine ⟨ks',cursor',?_,hbounds,?_,.inl fun i=>(hall i).trans (hbounds i).1⟩
      · rw [List.replicate_succ,run_cons,step,hsame,hrun]
      · intro i
        rw [sent,hnone,hsame,Option.toList_none,List.nil_append,hsent]
    · have hks₁ : ∀ j, advance ks i j ≤ s.owed j:=by
        intro j
        have hj:=hks j
        unfold advance
        split
        · subst j
          omega
        · omega
      have hone : ∑ j, advance ks i j = ∑ j, ks j+1:=by simp [advance,Finset.sum_add_distrib]
      obtain ⟨ks',cursor',hrun,hbounds,hsent,hdone⟩:=ih (advance ks i) cursor₁ hks₁
      refine ⟨ks',cursor',?_,fun j=>⟨(Nat.le_add_right _ _).trans (hbounds j).1,(hbounds j).2⟩,?_,?_⟩
      · rw [List.replicate_succ,run_cons,step,hnext,hrun]
      · intro j
        have hj:=(hbounds j).1
        rw [sent,hslot,hnext,Option.toList_some,List.singleton_append,ofSlot_cons,hsent]
        by_cases hij : i=j
        · subst hij
          have hadvance : advance ks i i=ks i+1:=by simp [advance]
          rw [hadvance] at hj ⊢
          have hrange : ks' i-ks i=ks' i-(ks i+1)+1:=by omega
          rw [if_pos rfl,hrange,List.range'_succ,List.map_cons]
        · have hadvance : advance ks i j=ks j:=by simp [advance,Ne.symm hij]
          rw [if_neg hij,hadvance]
      · rcases hdone with hdone | hdone
        · exact .inl hdone
        · right
          omega

theorem sent_slots (hs : AllPrepared s) (hcancel : s.cancelled=false) (n : ℕ) :
    ∃ ks cursor, run step s (List.replicate n .getResponsePacket)=s.after ks cursor ∧
      (∀ i, ks i ≤ s.owed i ∧ ofSlot i (sent s n)=(List.range (ks i)).map (s.channels i).response.packet) ∧
      (∑ i, s.owed i < n→∀ i, ks i=s.owed i):=by
  obtain ⟨ks,cursor,hrun,hbounds,hsent,hdone⟩:=
    sent_after (fun _=>0) s.responseRrIndex hs hcancel (fun i=>Nat.zero_le _) n
  refine ⟨ks,cursor,hrun,fun i=>⟨(hbounds i).2,?_⟩,fun hn i=>?_⟩
  · rw [List.range_eq_range']
    exact hsent i
  · have hle : ∑ i, ks i ≤ ∑ i, s.owed i:=Finset.sum_le_sum fun i _=>(hbounds i).2
    rcases hdone with hdone | hdone
    · exact le_antisymm (hbounds i).2 (hdone i)
    · rw [Finset.sum_const_zero] at hdone
      omega

theorem owed_packets {r : Response} (h : r.pending=true) (hr : Prepared r) : (List.range r.owed).map r.packet =
    fragment r.cid r.cmd r.data 0::contFragments r.cid r.cmd r.data (contCount r.data.length):=by
  rw [Response.owed,if_pos h,List.range_succ_eq_map,List.map_cons,List.map_map,hr.data_length]
  rfl

theorem slot_delivered (hs : AllPrepared s) (hcancel : s.cancelled=false) {i : Fin 8}
    (hi : (s.channels i).response.pending=true) :
    Delivers (s.channels i).response fun n=>ofSlot i (sent s n):=by
  have hdata : (s.channels i).response.data.length ≤ maxMsgSize:=(hs i hi).data_length ▸ (hs i hi).len_le
  have howed : s.owed i=(s.channels i).response.owed:=rfl
  refine ⟨_,_,fragments _ _ hdata,fun n=>?_,∑ i, s.owed i+1,fun n hn=>?_⟩
  · obtain ⟨ks,-,-,hslots,-⟩:=sent_slots hs hcancel n
    obtain ⟨hle,hsent⟩:=hslots i
    have htake : List.range (ks i)=(List.range (s.owed i)).take (ks i):=by rw [List.take_range,min_eq_left hle]
    dsimp only
    rw [hsent,htake,List.map_take,howed,owed_packets hi (hs i hi)]
    exact List.take_prefix _ _
  · obtain ⟨ks,-,-,hslots,hall⟩:=sent_slots hs hcancel n
    dsimp only
    rw [(hslots i).2,hall (by omega) i,howed,owed_packets hi (hs i hi)]

theorem sent_cid (hs : AllPrepared s) (hcancel : s.cancelled=false) {n : ℕ} {i : Fin 8} {p : Packet}
    (h : (i,p)∈sent s n) :
    (s.channels i).response.pending=true ∧ p.cid=(s.channels i).response.cid:=by
  obtain ⟨ks,-,-,hslots,-⟩:=sent_slots hs hcancel n
  obtain ⟨hle,hsent⟩:=hslots i
  have hp : p∈ofSlot i (sent s n):=by
    rw [ofSlot,List.mem_map]
    exact ⟨(i,p),by simpa using h,rfl⟩
  rw [hsent,List.mem_map] at hp
  obtain ⟨k,hk,rfl⟩:=hp
  exact ⟨(owed_pos ((List.mem_range.mp hk).trans_le hle)).1,fragment_cid k⟩

end Sending

/-- From any pending responses, sending alone: each is sent whole, in order and once; the packets with an identifier
that one response is addressed to are that response's; and after finitely many calls none is pending. -/
theorem responses_delivered {s : State} (hs : AllPrepared s) (hcancel : s.cancelled=false) :
    (∀ i, (s.channels i).response.pending=true→Delivers (s.channels i).response fun n=>ofSlot i (sent s n)) ∧
      (∀ i, (s.channels i).response.pending=true →
        (∀ j, (s.channels j).response.pending=true→(s.channels j).response.cid=(s.channels i).response.cid →
          j=i) →
        Delivers (s.channels i).response fun n=>withCid (s.channels i).response.cid (sent s n)) ∧
      (∀ c, (∀ i, (s.channels i).response.pending=true→(s.channels i).response.cid≠c) →
        ∀ n, withCid c (sent s n)=[]) ∧
      ∃ N, ∀ n ≥ N, hasResponse (run step s (List.replicate n .getResponsePacket))=false:=by
  refine ⟨fun i hi=>slot_delivered hs hcancel hi,fun i hi honly=>?_,fun c hc n=>?_,
    ∑ i, s.owed i+1,fun n hn=>?_⟩
  · have hsame : ∀ n, withCid (s.channels i).response.cid (sent s n)=ofSlot i (sent s n):=by
      intro n
      rw [withCid,ofSlot,List.filter_map]
      congr 1
      apply List.filter_congr
      rintro ⟨j,p⟩ hj
      obtain ⟨hpending,hcid⟩:=sent_cid hs hcancel hj
      rw [Function.comp_apply,decide_eq_decide]
      dsimp only
      rw [hcid]
      constructor
      · exact honly j hpending
      · rintro rfl
        rfl
    simp only [hsame]
    exact slot_delivered hs hcancel hi
  · rw [withCid,List.filter_eq_nil_iff]
    intro p hp
    obtain ⟨⟨j,q⟩,hj,rfl⟩:=List.mem_map.mp hp
    obtain ⟨hpending,hcid⟩:=sent_cid hs hcancel hj
    simpa [hcid] using hc j hpending
  · obtain ⟨ks,cursor,hrun,-,hall⟩:=sent_slots hs hcancel n
    rw [hrun,hasResponse,List.any_eq_false]
    intro i _
    have hi:=after_pending (s.channels i).response (ks i)
    rw [hall (by omega) i,State.owed,decide_eq_false (lt_irrefl _)] at hi
    simp [State.after,hall (by omega) i,State.owed,hi]

instance (r : Response) : Decidable (Prepared r):=
  decidable_of_iff (r.offset=0 ∧ r.len ≤ maxMsgSize ∧ r.buffer.length=maxMsgSize)
    ⟨fun ⟨ho,hl,hb⟩=>⟨ho,hl,hb⟩,fun ⟨ho,hl,hb⟩=>⟨ho,hl,hb⟩⟩

def twoInits : List Event:=[.packet (initRequest broadcastCid) {},.packet (initRequest broadcastCid) {}]

theorem prepared_twoInits : AllPrepared (run step {} twoInits):=by
  unfold AllPrepared
  decide +kernel

theorem responses_delivered_twoInits : let s:=run step {} twoInits
    (∀ i, (s.channels i).response.pending=true→Delivers (s.channels i).response fun n=>ofSlot i (sent s n)) ∧
      (∀ i, (s.channels i).response.pending=true →
        (∀ j, (s.channels j).response.pending=true→(s.channels j).response.cid=(s.channels i).response.cid →
          j=i) →
        Delivers (s.channels i).response fun n=>withCid (s.channels i).response.cid (sent s n)) ∧
      (∀ c, (∀ i, (s.channels i).response.pending=true→(s.channels i).response.cid≠c) →
        ∀ n, withCid c (sent s n)=[]) ∧
      ∃ N, ∀ n ≥ N, hasResponse (run step s (List.replicate n .getResponsePacket))=false:=
  responses_delivered prepared_twoInits (by decide +kernel)

/-- The answers to two broadcast INITs are two init packets with the broadcast identifier. -/
theorem responses_shareCid : ¬ ∀ es : List Event, let s:=run step {} es
    AllPrepared s → s.cancelled=false →
    ∀ i, (s.channels i).response.pending=true →
      Delivers (s.channels i).response fun n=>withCid (s.channels i).response.cid (sent s n):=by
  intro h
  have hfirst : ((run step {} twoInits).channels 0).response.pending=true:=by decide +kernel
  obtain ⟨p,qs,hfragments,hfront,-⟩:=h twoInits prepared_twoInits (by decide +kernel) 0 hfirst
  have hinits : ∃ q₀ q₁, withCid ((run step {} twoInits).channels 0).response.cid (sent (run step {} twoInits) 2) =
      [q₀,q₁] ∧ q₁.isInit=true:=⟨_,_,rfl,by decide +kernel⟩
  obtain ⟨q₀,q₁,htwo,hinit⟩:=hinits
  have htwo':=hfront 2
  dsimp only at htwo'
  rw [htwo,List.cons_prefix_cons] at htwo'
  obtain ⟨-,rest,rfl⟩:=htwo'
  have hcont:=(hfragments.conts 0 (by simp)).2.1
  simp [hinit] at hcont

end CdcBadge.Ctaphid
