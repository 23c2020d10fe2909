import CdcBadge.CtaphidChannels

/-!
# The rate limit of the transport

What of the state lies beside the channels, and who changes it. The counter of a rate window has
eight bits and is counted up for every packet of the window, so it starts again from 0 at the 256th.
-/

namespace CdcBadge.Ctaphid

open Runs

def State.aside (s : State) : State:={s with channels:=fun _=>{}}

section Aside

variable {s t : State} {i : Fin 8} {cid : UInt32} {m : Message} {env : Env} {p : Packet}

theorem nextCid_of_aside (h : t.aside=s.aside) : t.nextCid=s.nextCid:=by
  have : t.aside.nextCid=s.aside.nextCid:=by rw [h]
  exact this

@[simp] theorem prepareResponse_aside (cmd : UInt8) (data : Bytes) : (prepareResponse cid cmd data s).aside=s.aside:=by
  unfold prepareResponse
  split <;> rfl

theorem allocChannel_aside (h : allocChannel cid s=some (i,t)) : t.aside=s.aside:=by
  rcases allocChannel_cases h with ⟨-,rfl⟩ | ⟨-,rfl⟩ <;> rfl

@[simp] theorem sendError_aside (error : UInt8) : (sendError cid error s).aside=s.aside:=
  sendError_frame allocChannel_aside rfl error

theorem checkTimeout_aside (now : UInt32) : (checkTimeout now s).aside=s.aside:=
  checkTimeout_frame (sendError_aside _) rfl now

/-- INIT with its eight bytes ends a cancel; of the rest it can move the counter of the identifiers. -/
theorem handleInit_aside :
    (handleInit m s).aside=s.aside ∧ m.len < 8 ∨
      8 ≤ m.len ∧ (handleInit m s).aside={s.aside with cancelled:=false,nextCid:=(handleInit m s).nextCid}:=by
  by_cases hshort : m.len < 8
  · rw [handleInit,if_pos hshort]
    exact Or.inl ⟨sendError_aside _,hshort⟩
  · refine Or.inr ⟨not_lt.mp hshort,?_⟩
    rw [handleInit,if_neg hshort]
    dsimp only
    have hcid : (initCid m.cid {s with cancelled:=false}).2.aside =
        {s.aside with cancelled:=false,nextCid:=(initCid m.cid {s with cancelled:=false}).2.nextCid}:=by
      unfold initCid
      split <;> rfl
    generalize initCid m.cid {s with cancelled:=false}=x at hcid
    obtain ⟨newCid,u⟩:=x
    dsimp only at hcid ⊢
    cases halloc : allocChannel newCid u with
    | none=>
      have herror : (sendError m.cid errOther u).aside=u.aside:=sendError_aside _
      have hnext : (sendError m.cid errOther u).nextCid=u.nextCid:=nextCid_of_aside herror
      dsimp only
      rw [herror,hcid,hnext]
    | some it=>
      obtain ⟨j,t⟩:=it
      have ht:=allocChannel_aside halloc
      have hnext : t.nextCid=u.nextCid:=nextCid_of_aside ht
      show t.aside={s.aside with cancelled:=false,nextCid:=t.nextCid}
      rw [ht,hcid,hnext]

def State.rate (s : State) : UInt32 × UInt8:=(s.rateWindowStart,s.rateCmdCount)

theorem rate_of_aside (h : t.aside=s.aside) : t.rate=s.rate:=by
  have : t.aside.rate=s.aside.rate:=by rw [h]
  exact this

theorem dispatch_rate : (dispatch m env s).rate=s.rate:=by
  unfold dispatch
  split_ifs
  · rcases handleInit_aside (m:=m) (s:=s) with ⟨h,-⟩ | ⟨-,h⟩
    · exact rate_of_aside h
    · have : (handleInit m s).aside.rate=s.aside.rate:=by rw [h]; rfl
      exact this
  · exact rate_of_aside (prepareResponse_aside _ _)
  · exact rate_of_aside (prepareResponse_aside _ _)
  · rfl
  · unfold handleCbor
    split_ifs
    · exact rate_of_aside (sendError_aside _)
    · split
      · exact rate_of_aside (sendError_aside _)
      · rfl
  · exact rate_of_aside (s:={s with cancelled:=env.cancelled}) (prepareResponse_aside _ _)
  · exact rate_of_aside (sendError_aside _)

theorem processIfComplete_rate : (processIfComplete i env s).1.rate=s.rate:=by
  unfold processIfComplete
  dsimp only
  split
  · exact dispatch_rate
  · rfl

theorem processPacket_rate : (processPacket p env s).1.rate=(rateLimit env.now s).2.rate:=by
  cases hlimit : (rateLimit env.now s).1 with
  | true=>rw [processPacket_limited hlimit]
  | false=>
    have hrun:=processPacket_run (p:=p) hlimit
    generalize processPacket p env s=r at hrun
    cases hrun with
    | opened hp=>
      have : (dispatch p.initMessage env (rateLimit env.now s).2).rate=(rateLimit env.now s).2.rate:=dispatch_rate
      rwa [show dispatch p.initMessage env (rateLimit env.now s).2=handleInit p.initMessage (rateLimit env.now s).2 from
        if_pos hp.2.2] at this
    | refused hp error=>exact rate_of_aside (sendError_aside _)
    | outOfSequence hp hfind=>exact rate_of_aside (sendError_aside _)
    | assembled hp hfind hf=>exact processIfComplete_rate

@[simp] theorem getResponsePacket_rate : (getResponsePacket s).2.rate=s.rate:=getResponsePacket_frame rfl rfl

@[simp] theorem checkTimeout_rate (now : UInt32) : (checkTimeout now s).rate=s.rate:=
  rate_of_aside (checkTimeout_aside now)

end Aside

def opensWindow (s : State) : Event→Bool
  | .packet _ env=>decide (env.now-s.rateWindowStart ≥ rateLimitWindowMs)
  | _=>false

def arrived (_ : State) : Event → ℕ
  | .packet _ _=>1
  | _=>0

def processed (s : State) : Event → ℕ
  | .packet _ env=>if (rateLimit env.now s).1 then 0 else 1
  | _=>0

/-- The events from the opening of a window, or from the start of the transport, up to before the next opening. -/
def Window (s : State) (es : List Event) : Prop:=
  s={} ∧ AlongRun step (fun s e=>opensWindow s e=false) s es ∨
    ∃ e rest, es=e::rest ∧ opensWindow s e=true ∧
      AlongRun step (fun s e=>opensWindow s e=false) (step s e) rest

/-- How many of the first `n` packets of a window pass the comparison with the limit. -/
def passed (n : ℕ) : ℕ:=(List.range n).countP fun k=>decide (UInt8.ofNat (k+1) ≤ rateLimitMaxCmds)

theorem passed_succ (n : ℕ) :
    passed (n+1)=passed n+if UInt8.ofNat (n+1) ≤ rateLimitMaxCmds then 1 else 0:=by
  unfold passed
  rw [List.range_succ,List.countP_append,List.countP_singleton]
  simp

theorem passed_mono {m n : ℕ} (h : m ≤ n) : passed m ≤ passed n:=by
  induction h with
  | refl=>exact le_refl _
  | step h ih=>
    rw [passed_succ]
    omega

theorem passed_le_iff (n : ℕ) : passed n ≤ rateLimitMaxCmds.toNat ↔ n ≤ 255:=by
  have hlimit : passed 255=rateLimitMaxCmds.toNat:=by decide +kernel
  have hover : passed 256=rateLimitMaxCmds.toNat+1:=by decide +kernel
  constructor
  · intro h
    by_contra hlong
    have:=passed_mono (show 256 ≤ n by omega)
    omega
  · intro h
    have:=passed_mono h
    omega

theorem window_step {s : State} {e : Event} {n : ℕ} (he : opensWindow s e=false) (hcount : s.rateCmdCount=UInt8.ofNat n) :
    (step s e).rateCmdCount=UInt8.ofNat (n+arrived s e) ∧ passed n+processed s e=passed (n+arrived s e):=by
  cases e with
  | packet p env=>
    have hwithin : ¬env.now-s.rateWindowStart ≥ rateLimitWindowMs:=by simpa [opensWindow] using he
    have hcounted : s.rateCmdCount+1=UInt8.ofNat (n+1):=by
      rw [hcount,UInt8.ofNat_add]
      rfl
    have hlimit : rateLimit env.now s =
        (decide (UInt8.ofNat (n+1) > rateLimitMaxCmds),{s with rateCmdCount:=UInt8.ofNat (n+1)}):=by
      unfold rateLimit
      rw [if_neg hwithin,hcounted]
    constructor
    · have hrate : (processPacket p env s).1.rate.2=(rateLimit env.now s).2.rate.2:=congrArg Prod.snd processPacket_rate
      rw [hlimit] at hrate
      exact hrate
    · show passed n+(if (rateLimit env.now s).1 then 0 else 1)=passed (n+1)
      rw [passed_succ,hlimit]
      generalize UInt8.ofNat (n+1)=count
      by_cases hpass : count ≤ rateLimitMaxCmds
      · simp [hpass]
      · simp [hpass,UInt8.not_le.mp hpass]
  | getResponsePacket=>exact ⟨(congrArg Prod.snd (getResponsePacket_rate (s:=s))).trans hcount,rfl⟩
  | checkTimeout now=>exact ⟨(congrArg Prod.snd (checkTimeout_rate (s:=s) now)).trans hcount,rfl⟩

theorem window_run {s : State} {es : List Event} {n : ℕ}
    (hes : AlongRun step (fun s e=>opensWindow s e=false) s es) (hcount : s.rateCmdCount=UInt8.ofNat n) :
    passed n+sumAlong step processed s es=passed (n+sumAlong step arrived s es):=by
  induction es generalizing s n with
  | nil=>rfl
  | cons e es ih=>
    obtain ⟨hnext,hpassed⟩:=window_step hes.1 hcount
    have htail:=ih hes.2 hnext
    rw [Nat.add_assoc] at htail
    simp only [sumAlong]
    omega

theorem window_opened {s : State} {e : Event} (he : opensWindow s e=true) :
    (step s e).rateCmdCount=UInt8.ofNat 1 ∧ processed s e=1 ∧ arrived s e=1:=by
  cases e with
  | packet p env=>
    have hopens : env.now-s.rateWindowStart ≥ rateLimitWindowMs:=by simpa [opensWindow] using he
    have hlimit : rateLimit env.now s=(false,{s with rateWindowStart:=env.now,rateCmdCount:=1}):=if_pos hopens
    refine ⟨?_,?_,rfl⟩
    · have hrate : (processPacket p env s).1.rate.2=(rateLimit env.now s).2.rate.2:=congrArg Prod.snd processPacket_rate
      rw [hlimit] at hrate
      exact hrate
    · show (if (rateLimit env.now s).1 then 0 else 1)=1
      rw [hlimit]
      rfl
  | getResponsePacket=>cases he
  | checkTimeout now=>cases he

theorem window_processed {s : State} {es : List Event} (h : Window s es) :
    sumAlong step processed s es=passed (sumAlong step arrived s es):=by
  rcases h with ⟨rfl,hes⟩ | ⟨e,rest,rfl,he,hrest⟩
  · have hcount:=window_run (n:=0) hes rfl
    simpa [passed] using hcount
  · obtain ⟨hcount,hprocessed,harrived⟩:=window_opened he
    have htail:=window_run hrest hcount
    have hfirst : passed 1=1:=by decide
    simp only [sumAlong,hprocessed,harrived]
    omega

theorem window_limited {s : State} {es : List Event} (h : Window s es) :
    sumAlong step processed s es ≤ rateLimitMaxCmds.toNat ↔ sumAlong step arrived s es ≤ 255:=by
  rw [window_processed h]
  exact passed_le_iff _

theorem window_limited_pings :
    sumAlong step processed {} [.packet (emptyPing 1) {now:=1000},.packet (emptyPing 1) {now:=1001}] ≤
        rateLimitMaxCmds.toNat ↔
      sumAlong step arrived {} [.packet (emptyPing 1) {now:=1000},.packet (emptyPing 1) {now:=1001}] ≤ 255:=by
  apply window_limited
  exact Or.inr ⟨_,_,rfl,by decide +kernel,by decide +kernel,trivial⟩

def flood (n : ℕ) : List Event:=List.replicate n (.packet (emptyPing 1) {})

theorem flood_window (n : ℕ) : Window {} (flood n):=by
  have hrun : ∀ (n : ℕ) (s : State), s.rateWindowStart=0 →
      AlongRun step (fun s e=>opensWindow s e=false) s (flood n):=by
    intro n
    induction n with
    | zero=>
      intro s _
      trivial
    | succ n ih=>
      intro s hstart
      have hquiet : opensWindow s (.packet (emptyPing 1) {})=false:=by
        unfold opensWindow
        rw [hstart]
        decide
      refine ⟨hquiet,ih _ ?_⟩
      have hrate : (processPacket (emptyPing 1) {} s).1.rate.1=(rateLimit 0 s).2.rate.1:=congrArg Prod.fst processPacket_rate
      have hkept : (rateLimit 0 s).2.rateWindowStart=s.rateWindowStart:=by
        have hwithin : ¬(0 : UInt32)-s.rateWindowStart ≥ rateLimitWindowMs:=by simpa [opensWindow] using hquiet
        unfold rateLimit
        rw [if_neg hwithin]
      exact hrate.trans (hkept.trans hstart)
  exact Or.inl ⟨rfl,hrun n {} rfl⟩

/-- Of 256 packets in one window 201 are processed. -/
theorem window_unlimited :
    ¬∀ (s : State) (es : List Event), Window s es → sumAlong step processed s es ≤ rateLimitMaxCmds.toNat:=by
  intro h
  have hmany:=h {} (flood 256) (flood_window 256)
  have harrived : ∀ (n : ℕ) (s : State), sumAlong step arrived s (flood n)=n:=by
    intro n
    induction n with
    | zero=>
      intro s
      rfl
    | succ n ih=>
      intro s
      show 1+sumAlong step arrived _ (flood n)=n+1
      rw [ih]
      omega
  rw [window_processed (flood_window 256),harrived,passed_le_iff] at hmany
  omega

end CdcBadge.Ctaphid
