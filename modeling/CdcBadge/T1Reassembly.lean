import CdcBadge.T1State

/-!
# Commands put together from I-blocks

A command that is ready consists of the fields of the I-blocks of its chain, in their order. Blocks that are damaged,
out of sequence or sent again leave it alone.
-/

namespace CdcBadge.T1

open Runs

/-- A chain as the layer above can follow it. -/
structure History where
  card : State
  /-- The fields of the I-blocks that were accepted into the current chain. -/
  chain : List Bytes:=[]
  /-- The chain was completed, and the next accepted block begins another one. -/
  complete : Bool:=false
  /-- The number of the last I-block that was accepted since the last resynchronisation. -/
  last : Option UInt8:=none

def InSequence (blk : Block) (s : State) : Prop:=blk.edcOk=true ∧ ∃ more, blk.kind=.i s.nsExpected more

instance (blk : Block) (s : State) : Decidable (InSequence blk s):=
  match h : blk.kind with
  | .i ns more=>
    decidable_of_iff (blk.edcOk=true ∧ ns=s.nsExpected) (by
      unfold InSequence
      rw [h]
      simp)
  | .r _ _=>.isFalse (by
      rintro ⟨-,more,hkind⟩
      rw [h] at hkind
      cases hkind)
  | .s _=>.isFalse (by
      rintro ⟨-,more,hkind⟩
      rw [h] at hkind
      cases hkind)

/-- The block is an intact request of the reader to give up the chain. -/
def Drops (blk : Block) : Prop:=blk.edcOk=true ∧ (blk.kind=.s sAbortReq ∨ blk.kind=.s sResynchReq)

instance (blk : Block) : Decidable (Drops blk):=inferInstanceAs (Decidable (_ ∧ _))

def Resynchs (blk : Block) : Prop:=blk.edcOk=true ∧ blk.kind=.s sResynchReq

instance (blk : Block) : Decidable (Resynchs blk):=inferInstanceAs (Decidable (_ ∧ _))

/-- The block is accepted: the card completes the command or asks for more of it. -/
def Accepts (blk : Block) (s : State) : Prop:=
  InSequence blk s ∧ ((feed blk s).1=.apduReady ∨ (feed blk s).1=.waitMore)

instance (blk : Block) (s : State) : Decidable (Accepts blk s):=inferInstanceAs (Decidable (_ ∧ _))

def watch (h : History) : Call→History
  | .feed blk=>
    let card:=(feed blk h.card).2
    if Accepts blk h.card then
      { card:=card
        chain:=(if h.complete then [] else h.chain)++[blk.inf]
        complete:=decide ((feed blk h.card).1=.apduReady)
        last:=some h.card.nsExpected }
    else if InSequence blk h.card ∨ Drops blk then
      {h with card:=card,chain:=[],complete:=false,last:=if Resynchs blk then none else h.last}
    else {h with card:=card}
  | c=>{h with card:=call h.card c}

/-- The command is what was accepted of its chain, and blocks that are bad or sent again do not change it. -/
structure Reassembles (h : History) : Prop where
  ready : ∀ blk, (feed blk h.card).1=.apduReady→(feed blk h.card).2.apdu=(watch h (.feed blk)).chain.flatten
  damaged : ∀ blk, blk.edcOk=false→(feed blk h.card).2.apdu=h.card.apdu
  outOfSequence : ∀ blk ns more, blk.kind=.i ns more→ns≠h.card.nsExpected→(feed blk h.card).2.apdu=h.card.apdu
  repeated : ∀ blk ns more, blk.kind=.i ns more→h.last=some ns→(feed blk h.card).2.apdu=h.card.apdu

/-- The buffer holds what was accepted of the current chain. -/
structure Follows (h : History) : Prop where
  flat : h.card.apdu=h.chain.flatten
  progress : h.card.apduInProgress=true→h.complete=false
  idle : h.card.apduInProgress=false→h.complete=true ∨ h.chain=[]
  last : ∀ ns, h.last=some ns→ns≠h.card.nsExpected

section Steps

variable {s : State} {blk : Block} {h : History}

theorem handleIblock_other {ns : UInt8} {more : Bool} (hkind : blk.kind=.i ns more) (hother : ¬InSequence blk s) :
    ∃ err, feed blk s=(.needOut,encodeRblock s.nsExpected err s):=by
  unfold feed
  rw [hkind]
  dsimp only
  unfold handleIblock
  cases hok : blk.edcOk with
  | false=>exact ⟨rEdcErr,rfl⟩
  | true=>
    have hns : ns≠s.nsExpected:=by
      rintro rfl
      exact hother ⟨hok,more,hkind⟩
    refine ⟨rOtherErr,?_⟩
    rw [if_neg (by simp),if_pos hns]

/-- What an I-block in sequence comes to: it is too much for the buffer, or it is appended. -/
inductive Continues (blk : Block) (s : State) : Feed × State→Prop
  | aborted : Continues blk s (.needOut,dropApdu (encodeSblockResponse sAbortResp [] s))
  | more (control : Bytes) : Continues blk s (.waitMore,{ s with
      apdu:=(if s.apduInProgress then s.apdu else [])++blk.inf,apduInProgress:=true,nsExpected:=flip s.nsExpected
      control:=control })
  | ready : Continues blk s (.apduReady,{ s with
      apdu:=(if s.apduInProgress then s.apdu else [])++blk.inf,apduInProgress:=false,nsExpected:=flip s.nsExpected })

theorem feed_inSequence (hin : InSequence blk s) : Continues blk s (feed blk s):=by
  obtain ⟨hok,more,hkind⟩:=hin
  unfold feed
  rw [hkind]
  dsimp only
  unfold handleIblock
  rw [hok,if_neg (by simp),if_neg (by simp)]
  dsimp only
  by_cases hroom : (if s.apduInProgress then s.apdu else []).length+blk.inf.length > maxApduLen
  · rw [if_pos hroom]
    exact .aborted
  · rw [if_neg hroom]
    cases more with
    | true=>exact .more _
    | false=>exact .ready

theorem feed_drops (hdrops : Drops blk) : (feed blk s).1=.needOut ∧ (feed blk s).2.apdu=[] ∧
    (feed blk s).2.apduInProgress=false ∧ (feed blk s).2.nsExpected=if Resynchs blk then 0 else s.nsExpected:=by
  obtain ⟨hok,hkind | hkind⟩:=hdrops
  · have hno : ¬Resynchs blk:=by
      rintro ⟨-,hkind'⟩
      rw [hkind] at hkind'
      revert hkind'
      decide
    have hfeed : feed blk s=(.needOut,encodeSblockResponse sAbortResp [] (dropResponse (dropApdu s))):=by
      unfold feed
      rw [hkind]
      dsimp only
      unfold handleSblock
      rw [hok,if_neg (by simp),if_neg (by decide),if_pos rfl]
    rw [hfeed,if_neg hno]
    exact ⟨rfl,rfl,rfl,rfl⟩
  · have hfeed : feed blk s=(.needOut,encodeSblockResponse sResynchResp []
        (dropResponse (dropApdu {s with nsSend:=0,nsExpected:=0}))):=by
      unfold feed
      rw [hkind]
      dsimp only
      unfold handleSblock
      rw [hok,if_neg (by simp),if_neg (by decide),if_neg (by decide),if_neg (by decide),if_pos rfl]
    rw [hfeed,if_pos ⟨hok,hkind⟩]
    exact ⟨rfl,rfl,rfl,rfl⟩

theorem feed_other (hin : ¬InSequence blk s) (hdrops : ¬Drops blk) : (feed blk s).1≠.apduReady ∧ (feed blk s).2.apdu=s.apdu ∧
    (feed blk s).2.apduInProgress=s.apduInProgress ∧ (feed blk s).2.nsExpected=s.nsExpected:=by
  cases hok : blk.edcOk with
  | false=>
    rw [feed_damaged hok]
    exact ⟨by simp,rfl,rfl,rfl⟩
  | true=>
    cases hkind : blk.kind with
    | i ns more=>
      obtain ⟨err,hfeed⟩:=handleIblock_other hkind hin
      rw [hfeed]
      exact ⟨by simp,rfl,rfl,rfl⟩
    | r nr err=>
      unfold feed
      rw [hkind]
      dsimp only
      unfold handleRblock
      rw [hok,if_neg (by simp)]
      split_ifs <;> exact ⟨by simp,rfl,rfl,rfl⟩
    | s subtype=>
      unfold feed
      rw [hkind]
      dsimp only
      unfold handleSblock
      rw [hok,if_neg (by simp)]
      split_ifs with hifs habort hwtx hresynch
      · split <;> exact ⟨by simp,rfl,rfl,rfl⟩
      · exact absurd ⟨hok,Or.inl (by rw [hkind,habort])⟩ hdrops
      · exact ⟨by simp,rfl,rfl,rfl⟩
      · exact absurd ⟨hok,Or.inr (by rw [hkind,hresynch])⟩ hdrops
      · exact ⟨by simp,rfl,rfl,rfl⟩

theorem flip_ne (bit : UInt8) : bit≠flip bit:=by
  unfold flip
  split_ifs with hbit
  · exact hbit
  · rw [not_not.mp hbit]
    decide

theorem Follows.begun (hf : Follows h) :
    (if h.card.apduInProgress then h.card.apdu else [])=(if h.complete then [] else h.chain).flatten:=by
  cases hprogress : h.card.apduInProgress with
  | true=>
    rw [hf.progress hprogress]
    exact hf.flat
  | false=>
    rcases hf.idle hprogress with hcomplete | hempty
    · rw [hcomplete]
      rfl
    · rw [hempty,if_neg (by simp),ite_self]
      rfl

theorem Follows.accepted (hf : Follows h) (haccepts : Accepts blk h.card) :
    (feed blk h.card).2.apdu=((if h.complete then [] else h.chain)++[blk.inf]).flatten ∧
      (feed blk h.card).2.nsExpected=flip h.card.nsExpected ∧
      ((feed blk h.card).2.apduInProgress=true ↔ (feed blk h.card).1≠.apduReady):=by
  obtain ⟨hin,houtcome⟩:=haccepts
  have hcontinues:=feed_inSequence hin
  rw [List.flatten_append,List.flatten_singleton,← hf.begun]
  generalize feed blk h.card=r at hcontinues houtcome
  cases hcontinues with
  | aborted=>simp at houtcome
  | more control=>exact ⟨rfl,rfl,by simp⟩
  | ready=>exact ⟨rfl,rfl,by simp⟩

theorem Follows.feed (hf : Follows h) (blk : Block) : Follows (watch h (.feed blk)):=by
  unfold watch
  dsimp only
  by_cases haccepts : Accepts blk h.card
  · obtain ⟨hapdu,hns,hprogress⟩:=hf.accepted haccepts
    rw [if_pos haccepts]
    constructor
    · exact hapdu
    · intro hopen
      exact decide_eq_false (hprogress.mp hopen)
    · intro hclosed
      left
      by_contra hnot
      have hopen:=hprogress.mpr (by simpa using hnot)
      rw [hclosed] at hopen
      cases hopen
    · rintro ns hlast
      obtain rfl:=Option.some.inj hlast
      rw [hns]
      exact flip_ne _
  · rw [if_neg haccepts]
    by_cases hbreaks : InSequence blk h.card ∨ Drops blk
    · rw [if_pos hbreaks]
      -- An I-block in sequence that is not accepted aborts the chain.
      have hempty : (T1.feed blk h.card).2.apdu=[] ∧ (T1.feed blk h.card).2.apduInProgress=false ∧
          (T1.feed blk h.card).2.nsExpected=if Resynchs blk then 0 else h.card.nsExpected:=by
        rcases hbreaks with hin | hdrops
        · have hno : ¬Resynchs blk:=by
            rintro ⟨-,hkind⟩
            obtain ⟨-,more,hkind'⟩:=hin
            rw [hkind] at hkind'
            cases hkind'
          have hcontinues:=feed_inSequence hin
          rw [if_neg hno]
          have hrefused : ¬((T1.feed blk h.card).1=.apduReady ∨ (T1.feed blk h.card).1=.waitMore):=fun h=>haccepts ⟨hin,h⟩
          generalize T1.feed blk h.card=r at hcontinues hrefused
          cases hcontinues with
          | aborted=>exact ⟨rfl,rfl,rfl⟩
          | more control=>exact absurd (Or.inr rfl) hrefused
          | ready=>exact absurd (Or.inl rfl) hrefused
        · exact (feed_drops hdrops).2
      obtain ⟨hapdu,hprogress,hns⟩:=hempty
      constructor
      · exact hapdu
      · intro hopen
        exact absurd (hprogress.symm.trans hopen) (by simp)
      · exact fun _=>Or.inr rfl
      · intro ns hlast
        dsimp only at hlast ⊢
        rw [hns]
        split_ifs at hlast ⊢ with hresynch
        exact hf.last ns hlast
    · obtain ⟨hin,hdrops⟩:=not_or.mp hbreaks
      obtain ⟨-,hapdu,hprogress,hns⟩:=feed_other hin hdrops
      rw [if_neg hbreaks]
      constructor
      · exact hapdu.trans hf.flat
      · exact fun hopen=>hf.progress (hprogress ▸ hopen)
      · exact fun hclosed=>hf.idle (hprogress ▸ hclosed)
      · intro ns hlast
        rw [hns]
        exact hf.last ns hlast

theorem Follows.respond (hf : Follows h) {card : State} (hapdu : card.apdu=h.card.apdu)
    (hprogress : card.apduInProgress=h.card.apduInProgress) (hns : card.nsExpected=h.card.nsExpected) :
    Follows {h with card:=card}:=by
  constructor
  · exact hapdu.trans hf.flat
  · exact fun hopen=>hf.progress (hprogress ▸ hopen)
  · exact fun hclosed=>hf.idle (hprogress ▸ hclosed)
  · intro ns hlast
    rw [hns]
    exact hf.last ns hlast

theorem nextOutbound_apdu (outCap : ℕ) (s : State) : (nextOutbound outCap s).2.apdu=s.apdu ∧
    (nextOutbound outCap s).2.apduInProgress=s.apduInProgress ∧ (nextOutbound outCap s).2.nsExpected=s.nsExpected:=by
  unfold nextOutbound
  split
  · split <;> exact ⟨rfl,rfl,rfl⟩
  · split
    · exact ⟨rfl,rfl,rfl⟩
    · dsimp only
      split
      · exact ⟨rfl,rfl,rfl⟩
      · split <;> exact ⟨rfl,rfl,rfl⟩

theorem Follows.watch (hf : Follows h) (c : Call) : Follows (watch h c):=by
  cases c with
  | feed blk=>exact hf.feed blk
  | queueResponse resp=>
    apply hf.respond <;>
    · unfold call queueResponse
      dsimp only
      split_ifs <;> rfl
  | nextOutbound outCap=>
    obtain ⟨hapdu,hprogress,hns⟩:=nextOutbound_apdu outCap h.card
    exact hf.respond hapdu hprogress hns

theorem Follows.reassembled (hf : Follows h) : Reassembles h:=by
  have hother : ∀ blk ns more, blk.kind=.i ns more→ns≠h.card.nsExpected→(T1.feed blk h.card).2.apdu=h.card.apdu:=by
    intro blk ns more hkind hns
    refine (feed_other ?_ ?_).2.1
    · rintro ⟨-,more',hkind'⟩
      rw [hkind] at hkind'
      exact hns (Kind.i.inj hkind').1
    · rintro ⟨-,hkind' | hkind'⟩
      · rw [hkind] at hkind'
        cases hkind'
      · rw [hkind] at hkind'
        cases hkind'
  constructor
  · intro blk hready
    have hin : InSequence blk h.card:=by
      by_contra hin
      by_cases hdrops : Drops blk
      · rw [(feed_drops hdrops).1] at hready
        cases hready
      · exact (feed_other hin hdrops).1 hready
    have haccepts : Accepts blk h.card:=⟨hin,Or.inl hready⟩
    unfold T1.watch
    dsimp only
    rw [if_pos haccepts]
    exact (hf.accepted haccepts).1
  · intro blk hok
    rw [feed_damaged hok]
    rfl
  · exact hother
  · exact fun blk ns more hkind hlast=>hother blk ns more hkind (hf.last ns hlast)

end Steps

theorem follows_start (useCrc : Bool) : Follows {card:=init useCrc} where
  flat:=rfl
  progress:=fun _=>rfl
  idle:=fun _=>Or.inr rfl
  last:=fun _ h=>by cases h

/-- However blocks and calls follow each other, a command that is ready is the concatenation of what was accepted. -/
theorem reassembles (useCrc : Bool) (calls : List Call) : Reassembles (run watch {card:=init useCrc} calls):=
  (run_invariant (P:=fun _ _=>True) (fun _ c _ hf=>hf.watch c) (follows_start useCrc) (alongRun_true _ _)).reassembled

end CdcBadge.T1
