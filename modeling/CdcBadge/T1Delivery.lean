import CdcBadge.T1State

/-!
# A response on its way over a T=1 link

The card's blocks and the reader's R-blocks travel in order, and any of them may be lost
or damaged. An R-block only renumbers the next chunk: what was sent and lost is not sent
again, and the chunk after it goes out in its place.
-/

namespace CdcBadge.T1

open Runs

/-- The reader knows the N(S) that it expects, and keeps the information fields that it has accepted. -/
structure Reader where
  expected : UInt8
  accepted : Bytes:=[]

/-- The two ends, and the blocks on the way in both directions. The card's layer above decodes blocks before it feeds
them. -/
structure Link where
  card : State
  reader : Reader
  toReader : List Bytes:=[]
  toCard : List Block:=[]

inductive Event
  | cardSends (outCap : ℕ)
  | readerTakes
  | readerFindsDamaged
  | loseToReader
  | readerAsks
  | cardTakes
  | cardFindsDamaged (blk : Block)
  | loseToCard

def ask (err : UInt8) (l : Link) : Link:=
  { l with toCard:=l.toCard++[{
      nad:=cardNad
      pcb:=rPcb l.reader.expected err
      kind:=.r l.reader.expected err
      inf:=[]
      edcOk:=true
      useCrc:=l.card.useCrc }] }

/-- The reader accepts the chunk that it expects, and acknowledges it if more follow. -/
def accept (blk : Block) (l : Link) : Link:=
  match blk.kind with
  | .i ns more=>
    if ns≠l.reader.expected then ask rOtherErr l
    else
      let l:={l with reader:={expected:=flip ns,accepted:=l.reader.accepted++blk.inf}}
      if more then ask rOk l else l
  | .r _ _=>ask rOk l
  | .s _=>l

def step (l : Link) : Event → Link
  | .cardSends outCap=>
    let (out,card):=nextOutbound outCap l.card
    {l with card:=card,toReader:=if out=[] then l.toReader else l.toReader++[out]}
  | .readerTakes=>
    match l.toReader with
    | []=>l
    | out::rest=>
      match decode l.card.useCrc out with
      | .error _=>ask rEdcErr {l with toReader:=rest}
      | .ok blk=>if !blk.edcOk then ask rEdcErr {l with toReader:=rest} else accept blk {l with toReader:=rest}
  | .readerFindsDamaged=>
    match l.toReader with
    | []=>l
    | _::rest=>ask rEdcErr {l with toReader:=rest}
  | .loseToReader=>{l with toReader:=l.toReader.tail}
  | .readerAsks=>
    -- The reader has waited in vain.
    if l.toReader=[] ∧ l.toCard=[] then ask rOtherErr l else l
  | .cardTakes=>
    match l.toCard with
    | []=>l
    | blk::rest=>{l with card:=(feed blk l.card).2,toCard:=rest}
  | .cardFindsDamaged blk=>
    match l.toCard with
    | []=>l
    | _::rest=>{l with card:=(feed {blk with edcOk:=false} l.card).2,toCard:=rest}
  | .loseToCard=>{l with toCard:=l.toCard.tail}

def start (card : State) : Link:={card:=card,reader:={expected:=card.nsSend}}

/-- The chunk at hand arrives, and an R-block that the card takes for a pending response names the N(S) of the next
chunk. -/
def Orderly (l : Link) : Event→Prop
  | .readerFindsDamaged | .loseToReader=>∀ out∈l.toReader.head?, ¬IsChunk l.card.useCrc out
  | .cardTakes=>l.card.respPending=true→∀ blk∈l.toCard.head?, ∀ nr err, blk.kind=.r nr err→nr=l.card.nsSend
  | _=>True

/-- What the reader has accepted is the beginning of the response, and all of it once nothing is left to send. -/
structure Delivered (resp : Bytes) (l : Link) : Prop where
  accepted : l.reader.accepted <+: resp
  complete : l.card.respPending=false→(∀ out∈l.toReader, ¬IsChunk l.card.useCrc out)→l.reader.accepted=resp

/-- The chunks on the way are numbered from the one that the reader expects to before the one that the card sends next,
and carry these bytes. -/
inductive OnTheWay (useCrc : Bool) : UInt8 → List Bytes→UInt8→Bytes→Prop
  | nil (ns : UInt8) : OnTheWay useCrc ns [] ns []
  | chunk {ns ns' : UInt8} {more : Bool} {out inf : Bytes} {outs : List Bytes} {blk : Block}
      (hdecode : decode useCrc out=.ok blk) (hkind : blk.kind=.i ns more) (hok : blk.edcOk=true)
      (hrest : OnTheWay useCrc (flip ns) outs ns' inf) : OnTheWay useCrc ns (out::outs) ns' (blk.inf++inf)
  | reply {ns ns' : UInt8} {out inf : Bytes} {outs : List Bytes} (hout : ¬IsChunk useCrc out)
      (hrest : OnTheWay useCrc ns outs ns' inf) : OnTheWay useCrc ns (out::outs) ns' inf

section OnTheWay

variable {useCrc : Bool} {ns ns' ns'' : UInt8} {outs outs' : List Bytes} {inf inf' : Bytes}

theorem OnTheWay.append (h : OnTheWay useCrc ns outs ns' inf) (h' : OnTheWay useCrc ns' outs' ns'' inf') :
    OnTheWay useCrc ns (outs++outs') ns'' (inf++inf'):=by
  induction h with
  | nil=>exact h'
  | chunk hdecode hkind hok _ ih=>
    rw [List.append_assoc]
    exact .chunk hdecode hkind hok (ih h')
  | reply hout _ ih=>exact .reply hout (ih h')

theorem OnTheWay.nothing (h : OnTheWay useCrc ns outs ns' inf) (hnone : ∀ out∈outs, ¬IsChunk useCrc out) : inf=[]:=by
  induction h with
  | nil=>rfl
  | chunk hdecode hkind hok _ ih=>exact absurd ⟨_,_,_,hdecode,hkind⟩ (hnone _ List.mem_cons_self)
  | reply hout _ ih=>exact ih fun out hmem=>hnone out (List.mem_cons_of_mem _ hmem)

end OnTheWay

/-- The response is what is accepted, what is on the way and what is not sent yet. -/
structure InOrder (resp : Bytes) (l : Link) : Prop where
  sound : Sound l.card
  queued : l.card.resp=resp
  sent_le : l.card.respSent ≤ resp.length
  done : l.card.respPending=false→l.card.respSent=resp.length
  onTheWay : ∃ inf, OnTheWay l.card.useCrc l.reader.expected l.toReader l.card.nsSend inf ∧
    l.reader.accepted++inf=resp.take l.card.respSent
  asks : ∀ blk∈l.toCard, ∃ nr err, blk.kind=.r nr err

section Steps

variable {resp : Bytes} {l : Link} {blk : Block} {err : UInt8} {outCap : ℕ}

theorem InOrder.delivered (h : InOrder resp l) : Delivered resp l:=by
  obtain ⟨inf,honTheWay,hsent⟩:=h.onTheWay
  constructor
  · exact (List.prefix_append _ _).trans (hsent ▸ List.take_prefix _ _)
  · intro hpending hnone
    rw [honTheWay.nothing hnone,List.append_nil,h.done hpending,List.take_length] at hsent
    exact hsent

theorem InOrder.ask (h : InOrder resp l) (err : UInt8) : InOrder resp (ask err l) where
  sound:=h.sound
  queued:=h.queued
  sent_le:=h.sent_le
  done:=h.done
  onTheWay:=h.onTheWay
  asks:=by
    intro blk hblk
    rcases List.mem_append.mp hblk with hblk | hblk
    · exact h.asks blk hblk
    · rw [List.mem_singleton] at hblk
      rw [hblk]
      exact ⟨_,_,rfl⟩

theorem readerTakes_reply {out : Bytes} {rest : List Bytes} (hline : l.toReader=out::rest)
    (hout : ¬IsChunk l.card.useCrc out) : step l .readerTakes={l with toReader:=rest} ∨
      ∃ err, step l .readerTakes=ask err {l with toReader:=rest}:=by
  rw [step,hline]
  dsimp only
  cases hdecode : decode l.card.useCrc out with
  | error e=>exact .inr ⟨_,rfl⟩
  | ok blk=>
    dsimp only
    split
    · exact .inr ⟨_,rfl⟩
    · unfold accept
      split
      · exact absurd ⟨_,_,_,hdecode,‹_›⟩ hout
      · exact .inr ⟨_,rfl⟩
      · exact .inl rfl

theorem InOrder.tail {out : Bytes} {rest : List Bytes} (h : InOrder resp l) (hline : l.toReader=out::rest)
    (hout : ¬IsChunk l.card.useCrc out) : InOrder resp {l with toReader:=rest}:=by
  obtain ⟨inf,honTheWay,hsent⟩:=h.onTheWay
  rw [hline] at honTheWay
  refine ⟨h.sound,h.queued,h.sent_le,h.done,⟨inf,?_,hsent⟩,h.asks⟩
  cases honTheWay with
  | chunk hdecode hkind=>exact absurd ⟨_,_,_,hdecode,hkind⟩ hout
  | reply _ hrest=>exact hrest

theorem InOrder.cardSends (h : InOrder resp l) : InOrder resp (step l (.cardSends outCap)):=by
  obtain ⟨inf,honTheWay,hsent⟩:=h.onTheWay
  have hsound:=h.sound.nextOutbound outCap
  have hcases:=nextOutbound_cases outCap h.sound.ifsd
  rw [step]
  generalize nextOutbound outCap l.card=r at hcases hsound
  cases hcases with
  | nothing=>exact ⟨hsound,h.queued,h.sent_le,h.done,⟨inf,honTheWay,hsent⟩,h.asks⟩
  | control hcontrol=>
    dsimp only
    rw [if_neg hcontrol]
    have hreply:=honTheWay.append (.reply h.sound.control (.nil _))
    rw [List.append_nil] at hreply
    exact ⟨hsound,h.queued,h.sent_le,h.done,⟨inf,hreply,hsent⟩,h.asks⟩
  | drained hdone=>
    refine ⟨hsound,h.queued,h.sent_le,fun _=>?_,⟨inf,honTheWay,hsent⟩,h.asks⟩
    rw [h.queued] at hdone
    exact le_antisymm h.sent_le hdone
  | @chunk hpending chunkLen hpos hle out hout=>
    have hne : out≠[]:=by
      obtain ⟨-,-,rfl⟩:=encodeI_ok hout
      simp
    dsimp only
    rw [if_neg hne]
    rw [h.queued] at hle
    have hchunk:=honTheWay.append (.chunk (decode_encodeI hout) rfl rfl (.nil _))
    rw [List.append_nil] at hchunk
    refine ⟨hsound,h.queued,?_,?_,⟨_,hchunk,?_⟩,h.asks⟩
    · dsimp only
      omega
    · intro hdone
      dsimp only at hdone ⊢
      rw [decide_eq_false_iff_not,h.queued] at hdone
      have hsent_le:=h.sent_le
      omega
    · dsimp only
      rw [← List.append_assoc,hsent,h.queued,List.take_add]

theorem InOrder.readerTakes (h : InOrder resp l) : InOrder resp (step l .readerTakes):=by
  cases hline : l.toReader with
  | nil=>
    rw [step,hline]
    exact h
  | cons out rest=>
    obtain ⟨inf,honTheWay,hsent⟩:=h.onTheWay
    rw [hline] at honTheWay
    cases honTheWay with
    | @chunk _ _ more _ inf _ blk hdecode hkind hok hrest=>
      have haccepted : InOrder resp { l with
          toReader:=rest
          reader:={expected:=flip l.reader.expected,accepted:=l.reader.accepted++blk.inf} }:=by
        refine ⟨h.sound,h.queued,h.sent_le,h.done,⟨inf,hrest,?_⟩,h.asks⟩
        rw [← hsent,List.append_assoc]
      rw [step,hline]
      dsimp only
      rw [hdecode]
      dsimp only
      rw [hok,Bool.not_true,if_neg Bool.false_ne_true,accept,hkind]
      dsimp only
      rw [if_neg (not_not.mpr rfl)]
      split
      · exact haccepted.ask rOk
      · exact haccepted
    | reply hout hrest=>
      have htail:=h.tail hline hout
      rcases readerTakes_reply hline hout with hstep | ⟨err,hstep⟩
      · rw [hstep]
        exact htail
      · rw [hstep]
        exact htail.ask err

theorem InOrder.damaged (h : InOrder resp l) (hok : blk.edcOk=false) {rest : List Block}
    (hrest : ∀ b∈rest, b∈l.toCard) : InOrder resp {l with card:=(feed blk l.card).2,toCard:=rest}:=by
  rw [feed_damaged hok]
  exact ⟨h.sound.encodeRblock _ _,h.queued,h.sent_le,h.done,h.onTheWay,fun b hb=>h.asks b (hrest b hb)⟩

theorem InOrder.cardTakes (h : InOrder resp l) (he : Orderly l .cardTakes) : InOrder resp (step l .cardTakes):=by
  rw [step]
  cases hline : l.toCard with
  | nil=>exact h
  | cons blk rest=>
    have hrest : ∀ b∈rest, b∈l.toCard:=fun b hb=>hline ▸ List.mem_cons_of_mem _ hb
    obtain ⟨nr,err,hkind⟩:=h.asks blk (hline ▸ List.mem_cons_self)
    dsimp only
    cases hok : blk.edcOk with
    | false=>exact h.damaged hok hrest
    | true=>
      have hsame : (feed blk l.card).2=l.card:=by
        rw [feed,hkind]
        dsimp only
        rw [handleRblock_ok hok]
        split
        · rename_i hpending
          rw [he hpending blk (by rw [hline]; rfl) nr err hkind]
        · rfl
      rw [hsame]
      exact ⟨h.sound,h.queued,h.sent_le,h.done,h.onTheWay,fun b hb=>h.asks b (hrest b hb)⟩

theorem InOrder.step (h : InOrder resp l) {e : Event} (he : Orderly l e) : InOrder resp (step l e):=by
  cases e with
  | cardSends outCap=>exact h.cardSends
  | readerTakes=>exact h.readerTakes
  | readerFindsDamaged=>
    rw [T1.step]
    cases hline : l.toReader with
    | nil=>exact h
    | cons out rest=>exact (h.tail hline (he out (by rw [hline]; rfl))).ask rEdcErr
  | loseToReader=>
    rw [T1.step]
    cases hline : l.toReader with
    | nil=>
      rw [List.tail_nil,← hline]
      exact h
    | cons out rest=>exact h.tail hline (he out (by rw [hline]; rfl))
  | readerAsks=>
    rw [T1.step]
    split
    · exact h.ask rOtherErr
    · exact h
  | cardTakes=>exact h.cardTakes he
  | cardFindsDamaged blk=>
    rw [T1.step]
    cases hline : l.toCard with
    | nil=>exact h
    | cons out rest=>exact h.damaged rfl fun b hb=>hline ▸ List.mem_cons_of_mem _ hb
  | loseToCard=>
    exact ⟨h.sound,h.queued,h.sent_le,h.done,h.onTheWay,fun b hb=>h.asks b (List.mem_of_mem_tail hb)⟩

theorem InOrder.start {card card' : State} (hcard : Sound card) (hqueue : queueResponse resp card=(true,card')) :
    InOrder resp (start card'):=by
  unfold queueResponse at hqueue
  split_ifs at hqueue
  · cases hqueue
  · obtain ⟨-,rfl⟩:=Prod.mk.inj hqueue
    refine ⟨⟨hcard.ifsd,hcard.control⟩,rfl,Nat.zero_le _,fun hpending=>?_,⟨[],.nil _,rfl⟩,by simp [T1.start]⟩
    have hnil : resp.length=0:=by simpa [T1.start] using hpending
    exact hnil.symm

end Steps

/-- After every run in which the chunks arrive and R-blocks name the N(S) of the next chunk, the reader has accepted the
beginning of the response, and all of it once nothing is left to send. -/
theorem response_delivered {card card' : State} (hcard : Reachable card) {resp : Bytes}
    (hqueue : queueResponse resp card=(true,card')) {es : List Event} (hes : AlongRun step Orderly (start card') es) :
    Delivered resp (run step (start card') es):=by
  have horder : InOrder resp (run step (start card') es):=
    run_invariant (I:=InOrder resp) (fun _ _ he h=>h.step he) (InOrder.start hcard.sound hqueue) hes
  exact horder.delivered

/-- No chunk is on the way, and none will be. -/
structure Quiet (l : Link) : Prop where
  sound : Sound l.card
  done : l.card.respPending=false
  noChunk : ∀ out∈l.toReader, ¬IsChunk l.card.useCrc out
  asks : ∀ blk∈l.toCard, ∃ nr err, blk.kind=.r nr err

section Quiet

variable {l : Link}

theorem Quiet.ask (h : Quiet l) (err : UInt8) : Quiet (ask err l) where
  sound:=h.sound
  done:=h.done
  noChunk:=h.noChunk
  asks:=by
    intro blk hblk
    rcases List.mem_append.mp hblk with hblk | hblk
    · exact h.asks blk hblk
    · rw [List.mem_singleton] at hblk
      rw [hblk]
      exact ⟨_,_,rfl⟩

theorem Quiet.tail {out : Bytes} {rest : List Bytes} (h : Quiet l) (hline : l.toReader=out::rest) :
    Quiet {l with toReader:=rest}:=
  ⟨h.sound,h.done,fun out hout=>h.noChunk out (hline ▸ List.mem_cons_of_mem _ hout),h.asks⟩

theorem Quiet.feed {blk b : Block} {rest : List Block} (h : Quiet l) (hline : l.toCard=b::rest)
    (hblk : blk.edcOk=false ∨ blk=b) : Quiet {l with card:=(feed blk l.card).2,toCard:=rest}:=by
  have hrest : ∀ b∈rest, ∃ nr err, b.kind=.r nr err:=fun b hb=>h.asks b (hline ▸ List.mem_cons_of_mem _ hb)
  cases hok : blk.edcOk with
  | false=>
    rw [feed_damaged hok]
    exact ⟨h.sound.encodeRblock _ _,h.done,h.noChunk,hrest⟩
  | true=>
    obtain rfl : blk=b:=hblk.resolve_left (by simp [hok])
    obtain ⟨nr,err,hkind⟩:=h.asks blk (hline ▸ List.mem_cons_self)
    have hsame : (T1.feed blk l.card).2=l.card:=by
      rw [T1.feed,hkind]
      dsimp only
      rw [handleRblock_ok hok,h.done,if_neg Bool.false_ne_true]
    rw [hsame]
    exact ⟨h.sound,h.done,h.noChunk,hrest⟩

theorem Quiet.cardSends (h : Quiet l) (outCap : ℕ) : Quiet (step l (.cardSends outCap)) ∧
    (step l (.cardSends outCap)).reader.accepted=l.reader.accepted:=by
  have hsound:=h.sound.nextOutbound outCap
  have hcases:=nextOutbound_cases outCap h.sound.ifsd
  rw [step]
  generalize nextOutbound outCap l.card=r at hcases hsound
  cases hcases with
  | nothing=>exact ⟨⟨hsound,h.done,h.noChunk,h.asks⟩,rfl⟩
  | control hcontrol=>
    dsimp only
    rw [if_neg hcontrol]
    refine ⟨⟨hsound,h.done,fun out hout=>?_,h.asks⟩,rfl⟩
    rcases List.mem_append.mp hout with hout | hout
    · exact h.noChunk out hout
    · rw [List.mem_singleton.mp hout]
      exact h.sound.control
  | drained=>exact ⟨⟨hsound,rfl,h.noChunk,h.asks⟩,rfl⟩
  | chunk hpending=>exact absurd (hpending.symm.trans h.done) (by simp)

theorem Quiet.step (h : Quiet l) (e : Event) :
    Quiet (step l e) ∧ (step l e).reader.accepted=l.reader.accepted:=by
  cases e with
  | cardSends outCap=>exact h.cardSends outCap
  | readerTakes=>
    cases hline : l.toReader with
    | nil=>
      rw [T1.step,hline]
      exact ⟨h,rfl⟩
    | cons out rest=>
      rcases readerTakes_reply hline (h.noChunk out (hline ▸ List.mem_cons_self)) with hstep | ⟨err,hstep⟩
      · rw [hstep]
        exact ⟨h.tail hline,rfl⟩
      · rw [hstep]
        exact ⟨(h.tail hline).ask err,rfl⟩
  | readerFindsDamaged=>
    rw [T1.step]
    cases hline : l.toReader with
    | nil=>exact ⟨h,rfl⟩
    | cons out rest=>exact ⟨(h.tail hline).ask rEdcErr,rfl⟩
  | loseToReader=>
    exact ⟨⟨h.sound,h.done,fun out hout=>h.noChunk out (List.mem_of_mem_tail hout),h.asks⟩,rfl⟩
  | readerAsks=>
    rw [T1.step]
    split
    · exact ⟨h.ask rOtherErr,rfl⟩
    · exact ⟨h,rfl⟩
  | cardTakes=>
    rw [T1.step]
    cases hline : l.toCard with
    | nil=>exact ⟨h,rfl⟩
    | cons b rest=>exact ⟨h.feed hline (.inr rfl),rfl⟩
  | cardFindsDamaged blk=>
    rw [T1.step]
    cases hline : l.toCard with
    | nil=>exact ⟨h,rfl⟩
    | cons b rest=>exact ⟨h.feed hline (.inl rfl),rfl⟩
  | loseToCard=>exact ⟨⟨h.sound,h.done,h.noChunk,fun b hb=>h.asks b (List.mem_of_mem_tail hb)⟩,rfl⟩

theorem Quiet.run (h : Quiet l) (es : List Event) : (run T1.step l es).reader.accepted=l.reader.accepted:=by
  induction es generalizing l with
  | nil=>rfl
  | cons e es ih=>
    obtain ⟨hnext,hsame⟩:=h.step e
    rw [run_cons,ih hnext,hsame]

end Quiet

def twoChunks : Bytes:=List.replicate 32 1++[2]

def twoChunksCard : State:=(queueResponse twoChunks (init false)).2

theorem response_delivered_twoChunks : Delivered twoChunks
    (run step (start twoChunksCard) [.cardSends 259,.readerTakes,.cardTakes,.cardSends 259,.readerTakes]):=by
  have hasked : ((run step (start twoChunksCard) [.cardSends 259,.readerTakes]).toCard.head?).map Block.kind =
      some (.r 1 0):=by decide +kernel
  have hnext : Orderly (run step (start twoChunksCard) [.cardSends 259,.readerTakes]) .cardTakes:=by
    intro _ blk hblk nr err hkind
    rw [Option.mem_def] at hblk
    rw [hblk,Option.map_some,hkind] at hasked
    cases hasked
    decide +kernel
  have hes : AlongRun step Orderly (start twoChunksCard)
      [.cardSends 259,.readerTakes,.cardTakes,.cardSends 259,.readerTakes]:=
    ⟨trivial,trivial,hnext,trivial,trivial,trivial⟩
  exact response_delivered (⟨false,[],rfl⟩ : Reachable (init false)) rfl hes

/-- The first chunk is lost and asked for, and the second goes out in its place; a last chunk that is lost is never sent
again, whatever comes after it. -/
theorem response_lost :
    (¬ ∀ (card card' : State) (resp : Bytes) (es : List Event), Reachable card →
      queueResponse resp card=(true,card')→(run step (start card') es).reader.accepted <+: resp) ∧
    ∃ (card card' : State) (resp : Bytes), Reachable card ∧ queueResponse resp card=(true,card') ∧ resp≠[] ∧
      ∀ es, (run step (start card') (.cardSends 259::.loseToReader::es)).reader.accepted=[]:=by
  constructor
  · intro h
    have hfront:=h (init false) twoChunksCard twoChunks
      [.cardSends 259,.loseToReader,.readerAsks,.cardTakes,.cardSends 259,.readerTakes] ⟨false,[],rfl⟩ rfl
    revert hfront
    decide +kernel
  · refine ⟨init false,(queueResponse [1] (init false)).2,[1],⟨false,[],rfl⟩,rfl,by decide,fun es=>?_⟩
    have hlost : let l:=run step (start (queueResponse [1] (init false)).2) [.cardSends 259,.loseToReader]
        l.card.ifsd ≤ 255 ∧ l.card.control=[] ∧ l.card.respPending=false ∧ l.toReader=[] ∧ l.toCard=[]:=by
      decide +kernel
    obtain ⟨hifsd,hcontrol,hdone,hline,hasks⟩:=hlost
    have hquiet : Quiet (run step (start (queueResponse [1] (init false)).2) [.cardSends 259,.loseToReader]):=by
      refine ⟨⟨hifsd,?_⟩,hdone,?_,?_⟩
      · rw [hcontrol]
        exact not_isChunk_nil _
      · rw [hline]
        exact fun _ hout=>absurd hout (by simp)
      · rw [hasks]
        exact fun _ hblk=>absurd hblk (by simp)
    exact hquiet.run es

end CdcBadge.T1
