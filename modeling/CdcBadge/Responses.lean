import CdcBadge.Handler
import CdcBadge.Windows

/-!
# Commands that answer through a window

A command comes to an answer without looking at the window of its response nor at what an
earlier one left. A payload then goes out through the window, and its rest is kept for later.
-/

namespace CdcBadge.Responses

open Handler Windows

variable {ε σ V α R S : Type} {payload : List α}

/-- A part of a state that can be read and set. -/
structure Port (σ V : Type) where
  get : σ→V
  set : V → σ → σ
  get_set : ∀ v s, get (set v s)=v
  set_set : ∀ v w s, set v (set w s)=set v s
  set_get : ∀ s, set (get s) s=s

/-- The handler neither reads nor writes what the port shows. -/
def Blind (p : Port σ V) (m : Handler ε σ α) : Prop:=∀ s v, m (p.set v s)=((m s).1,p.set v (m s).2)

section Blind

variable {p : Port σ V} {β : Type}

theorem Blind.pure (a : α) : Blind p (pure a : Handler ε σ α):=fun _ _=>rfl

theorem Blind.bind {m : Handler ε σ α} {k : α→Handler ε σ β} (hm : Blind p m) (hk : ∀ a, Blind p (k a)) :
    Blind p (m >>= k):=by
  intro s v
  rw [bind_apply,bind_apply,hm s v]
  cases m s with
  | mk r t=>cases r with
    | ok a=>exact hk a t v
    | error e=>rfl

theorem Blind.gets {f : σ → α} (h : ∀ v s, f (p.set v s)=f s) : Blind p (gets f : Handler ε σ α):=by
  intro s v
  rw [gets_apply,gets_apply,h]

theorem Blind.modify {f : σ → σ} (h : ∀ v s, f (p.set v s)=p.set v (f s)) : Blind p (modify f : Handler ε σ Unit):=by
  intro s v
  rw [modify_apply,modify_apply,h]

theorem Blind.ite {c : Prop} [Decidable c] {m n : Handler ε σ α} (hm : Blind p m) (hn : Blind p n) :
    Blind p (if c then m else n):=by
  split
  · exact hm
  · exact hn

theorem Blind.when {c : Prop} [Decidable c] {m : Handler ε σ α} (hm : Blind p m) : Blind p (when c m):=
  Blind.ite (Blind.bind hm fun _=>Blind.pure _) (Blind.pure _)

theorem Blind.zoom {τ : Type} {get : σ → τ} {set : τ → σ → σ} (m : Handler ε τ α) (hget : ∀ v s, get (p.set v s)=get s)
    (hset : ∀ t v s, set t (p.set v s)=p.set v (set t s)) : Blind p (zoom get set m):=by
  intro s v
  unfold Handler.zoom
  rw [hget,hset]

theorem Blind.get_eq {m : Handler ε σ α} (hm : Blind p m) (s : σ) : p.get (m s).2=p.get s:=by
  have h:=congrArg (fun r=>p.get r.2) (hm s (p.get s))
  rw [p.set_get] at h
  simpa only [p.get_set] using h

end Blind

/-- How responses go out: the room for one and what is left of the last, the status words, and the size of the buffer
that takes the rest. -/
structure Channel (σ R S : Type) (α : Type) where
  port : Port σ (ℕ × List α)
  code : Code S
  size : ℕ
  reply : List α → S→R
  data : R → List α
  status : R → S
  data_reply : ∀ payload sw, data (reply payload sw)=payload
  status_reply : ∀ payload sw, status (reply payload sw)=sw

/-- What a command comes to. -/
inductive Outcome (α S : Type)
  | answer (sw : S)
  | built (payload : List α)

namespace Channel

variable (c : Channel σ R S α)

def window (room le : ℕ) : ℕ:=min (if le=0 then 256 else le) (room-2)

def emit (payload : List α) (le : ℕ) : Handler ε σ R:=do
  let (room,_) ← gets c.port.get
  if payload.length ≤ window room le then pure (c.reply payload c.code.done)
  else
    let rest:=(payload.drop (window room le)).take c.size
    modify (c.port.set (room,rest))
    pure (c.reply (payload.take (window room le)) (c.code.more rest.length))

def finish (le : ℕ) : Outcome α S→Handler ε σ R
  | .answer sw=>pure (c.reply [] sw)
  | .built payload=>c.emit payload le

/-- For every Le the command comes to the same: a status, or a payload that the buffer takes. -/
def Uniform (m : ℕ→Handler ε σ R) : Prop:=
  ∃ core : Handler ε σ (Outcome α S), Blind c.port core ∧ (∀ le, m le=core >>= c.finish le) ∧
    ∀ s payload, (core s).1=.ok (.built payload)→payload.length ≤ c.size

def whole (m : ℕ→Handler ε σ R) (s : σ) : Except ε R:=(m (c.size+1) (c.port.set (c.size+3,[]) s)).1

section Uniform

variable {c} {β : Type}

theorem Uniform.answer (sw : S) : c.Uniform fun _=>(pure (c.reply [] sw) : Handler ε σ R):=
  ⟨pure (.answer sw),Blind.pure _,fun _=>rfl,nofun⟩

theorem Uniform.emit (h : payload.length ≤ c.size) :
    c.Uniform fun le=>(c.emit payload le : Handler ε σ R):=by
  refine ⟨pure (.built payload),Blind.pure _,fun _=>rfl,fun s payload' h'=>?_⟩
  cases h'
  exact h

theorem Uniform.bind_of {q : β→Prop} {m : Handler ε σ β} {k : β → ℕ→Handler ε σ R} (hm : Blind c.port m)
    (hq : ∀ s a t, m s=(.ok a,t)→q a) (hk : ∀ a, q a → c.Uniform (k a)) :
    c.Uniform fun le=>m >>= fun a=>k a le:=by
  have hcore (a : β) : ∃ core : Handler ε σ (Outcome α S), Blind c.port core ∧
      (q a→∀ le, k a le=core >>= c.finish le) ∧
      ∀ s payload, (core s).1=.ok (.built payload)→payload.length ≤ c.size:=by
    by_cases ha : q a
    · obtain ⟨core,hblind,heq,hout⟩:=hk a ha
      exact ⟨core,hblind,fun _=>heq,hout⟩
    · refine ⟨Pure.pure (.built []),Blind.pure _,fun h=>absurd h ha,fun s payload h=>?_⟩
      cases h
      exact Nat.zero_le _
  choose core hblind heq hout using hcore
  refine ⟨m >>= core,Blind.bind hm hblind,fun le=>?_,fun s payload h=>?_⟩
  · rw [bind_assoc]
    funext s
    dsimp only
    rw [bind_apply,bind_apply]
    cases hr : m s with
    | mk r t=>cases r with
      | ok a=>
        dsimp only
        rw [heq a (hq s a t hr) le]
      | error e=>rfl
  · rw [bind_apply] at h
    cases hr : m s with
    | mk r t=>
      rw [hr] at h
      cases r with
      | ok a=>exact hout a t payload h
      | error e=>cases h

theorem Uniform.bind {m : Handler ε σ β} {k : β → ℕ→Handler ε σ R} (hm : Blind c.port m)
    (hk : ∀ a, c.Uniform (k a)) : c.Uniform fun le=>m >>= fun a=>k a le:=
  Uniform.bind_of (q:=fun _=>True) hm (fun _ _ _ _=>trivial) fun a _=>hk a

/-- The instance may mention the Le where the condition was unfolded from the command. -/
theorem Uniform.ite {q : Prop} {d : ℕ→Decidable q} {m n : ℕ→Handler ε σ R} (hm : q → c.Uniform m)
    (hn : ¬q → c.Uniform n) : c.Uniform fun le=>@ite _ q (d le) (m le) (n le):=by
  by_cases h : q
  · simp only [if_pos h]
    exact hm h
  · simp only [if_neg h]
    exact hn h

theorem emit_front {payload : List α} (h : payload.length ≤ c.size) (le : ℕ) (s : σ) : ∃ n t,
    (c.emit payload le s : Except ε R × σ) =
      (.ok (c.reply (payload.take n) (c.code.status (payload.length-n))),t) ∧
    (n < payload.length → c.port.get t=((c.port.get s).1,payload.drop n)):=by
  unfold emit
  rw [bind_gets]
  dsimp only
  by_cases hfits : payload.length ≤ window (c.port.get s).1 le
  · rw [if_pos hfits]
    exact ⟨payload.length,s,by simp,fun hlt=>absurd hlt (Nat.lt_irrefl _)⟩
  · rw [if_neg hfits,bind_modify]
    have hrest : (payload.drop (window (c.port.get s).1 le)).take c.size=payload.drop (window (c.port.get s).1 le):=
      List.take_of_length_le (by rw [List.length_drop]; omega)
    rw [hrest,List.length_drop,← c.code.status_pos (by omega)]
    exact ⟨_,_,rfl,fun _=>c.port.get_set _ _⟩

theorem emit_fits {le : ℕ} {s : σ} (h : payload.length ≤ window (c.port.get s).1 le) :
    (c.emit payload le s : Except ε R × σ)=(.ok (c.reply payload c.code.done),s):=by
  unfold emit
  rw [bind_gets]
  dsimp only
  rw [if_pos h]
  rfl

theorem emit_status (payload : List α) (le : ℕ) (s : σ) : ∃ r t, (c.emit payload le s : Except ε R × σ)=(.ok r,t) ∧
    (c.status r=c.code.done ↔ payload.length ≤ window (c.port.get s).1 le):=by
  unfold emit
  rw [bind_gets]
  dsimp only
  by_cases hfits : payload.length ≤ window (c.port.get s).1 le
  · rw [if_pos hfits]
    exact ⟨_,_,rfl,iff_of_true (c.status_reply _ _) hfits⟩
  · rw [if_neg hfits,bind_modify]
    refine ⟨_,_,rfl,iff_of_false ?_ hfits⟩
    rw [c.status_reply]
    exact c.code.more_ne_done _

theorem emit_long {le room : ℕ} (h : window room le < payload.length) (s : σ) (x y : List α) :
    (c.emit payload le (c.port.set (room,x) s) : Except ε R × σ)=c.emit payload le (c.port.set (room,y) s):=by
  unfold emit
  rw [bind_gets,bind_gets,c.port.get_set,c.port.get_set]
  dsimp only
  rw [if_neg (by omega),bind_modify,bind_modify,c.port.set_set,c.port.set_set]

variable {m : ℕ→Handler ε σ R}

theorem window_whole (h : payload.length ≤ c.size) : payload.length ≤ window (c.size+3) (c.size+1):=by
  unfold window
  rw [if_neg (by omega)]
  omega

/-- The cases of a command: it stops, it answers a status, or it builds a payload. -/
theorem Uniform.cases (h : c.Uniform m) (s : σ) : ∃ t, c.port.get t=c.port.get s ∧
    ((∃ e, c.whole m s=.error e ∧ ∀ le v, m le (c.port.set v s)=(.error e,c.port.set v t)) ∨
      (∃ sw, c.whole m s=.ok (c.reply [] sw) ∧ ∀ le v, m le (c.port.set v s)=(.ok (c.reply [] sw),c.port.set v t)) ∨
      ∃ payload, payload.length ≤ c.size ∧ c.whole m s=.ok (c.reply payload c.code.done) ∧
        ∀ le v, m le (c.port.set v s)=c.emit payload le (c.port.set v t)):=by
  obtain ⟨core,hblind,heq,hsize⟩:=h
  have hrun (le : ℕ) (v : ℕ × List α) : m le (c.port.set v s)=match (core s).1 with
      | .ok o=>c.finish le o (c.port.set v (core s).2)
      | .error e=>(.error e,c.port.set v (core s).2):=by
    rw [heq le,bind_apply,hblind s v]
    cases (core s).1 <;> rfl
  refine ⟨(core s).2,hblind.get_eq s,?_⟩
  cases hr : (core s).1 with
  | error e=>
    simp only [hr] at hrun
    exact .inl ⟨e,by rw [whole,hrun],hrun⟩
  | ok o=>
    simp only [hr] at hrun
    cases o with
    | answer sw=>exact .inr (.inl ⟨sw,by rw [whole,hrun]; rfl,hrun⟩)
    | built payload=>
      have hlen:=hsize s payload hr
      refine .inr (.inr ⟨payload,hlen,?_,hrun⟩)
      rw [whole,hrun]
      change (c.emit payload (c.size+1) (c.port.set (c.size+3,[]) (core s).2)).1=_
      rw [emit_fits (by rw [c.port.get_set]; exact window_whole hlen)]

/-- A payload that a command builds goes out with its front, and its rest is kept. -/
theorem Uniform.front (h : c.Uniform m) {s : σ} (hwhole : c.whole m s=.ok (c.reply payload c.code.done))
    (le : ℕ) : ∃ n t, m le s=(.ok (c.reply (payload.take n) (c.code.status (payload.length-n))),t) ∧
      (n < payload.length → c.port.get t=((c.port.get s).1,payload.drop n)):=by
  obtain ⟨t,hget,⟨e,he,-⟩ | ⟨sw,hsw,hrun⟩ | ⟨built,hlen,hbuilt,hrun⟩⟩:=h.cases s
  · cases he.symm.trans hwhole
  · have hreply:=Except.ok.inj (hsw.symm.trans hwhole)
    have hdata:=congrArg c.data hreply
    have hstatus:=congrArg c.status hreply
    rw [c.data_reply,c.data_reply] at hdata
    rw [c.status_reply,c.status_reply] at hstatus
    subst hdata hstatus
    have hsame:=hrun le (c.port.get s)
    rw [c.port.set_get] at hsame
    exact ⟨0,_,hsame,fun hlt=>absurd hlt (Nat.lt_irrefl 0)⟩
  · have hdata:=congrArg c.data (Except.ok.inj (hbuilt.symm.trans hwhole))
    rw [c.data_reply,c.data_reply] at hdata
    subst hdata
    obtain ⟨n,t',hemit,hrest⟩:=@emit_front ε _ _ _ _ c built hlen le t
    have hsame:=hrun le (c.port.get s)
    rw [c.port.set_get,← hget,c.port.set_get,hemit] at hsame
    rw [← hget]
    exact ⟨n,t',hsame,hrest⟩

/-- The command puts a rest of its own in the place of what was left, or it stops. -/
def Replaces (c : Channel σ R S α) (m : ℕ→Handler ε σ R) (le : ℕ) (s : σ) : Prop:=
  match c.whole m s with
  | .ok r=>window (c.port.get s).1 le < (c.data r).length
  | .error _=>True

/-- A command that replaces what was left answers and goes on the same whatever that was. -/
theorem Uniform.replaces (h : c.Uniform m) {le : ℕ} {s : σ} (hreplaces : c.Replaces m le s) :
    (∃ e t, ∀ x, m le (c.port.set ((c.port.get s).1,x) s)=(.error e,c.port.set ((c.port.get s).1,x) t)) ∨
      ∀ x y, m le (c.port.set ((c.port.get s).1,x) s)=m le (c.port.set ((c.port.get s).1,y) s):=by
  unfold Replaces at hreplaces
  obtain ⟨t,-,⟨e,he,hrun⟩ | ⟨sw,hsw,-⟩ | ⟨payload,-,hbuilt,hrun⟩⟩:=h.cases s
  · exact .inl ⟨e,t,fun x=>hrun le _⟩
  · rw [hsw] at hreplaces
    simp only [c.data_reply,List.length_nil,Nat.not_lt_zero] at hreplaces
  · rw [hbuilt] at hreplaces
    simp only [c.data_reply] at hreplaces
    refine .inr fun x y=>?_
    rw [hrun,hrun]
    exact emit_long hreplaces t x y

theorem Uniform.leaves (h : c.Uniform m) {le : ℕ} {s : σ} (hreplaces : ¬c.Replaces m le s) :
    ∃ r t, ∀ x, m le (c.port.set ((c.port.get s).1,x) s)=(.ok r,c.port.set ((c.port.get s).1,x) t):=by
  unfold Replaces at hreplaces
  obtain ⟨t,-,⟨e,he,-⟩ | ⟨sw,-,hrun⟩ | ⟨payload,-,hbuilt,hrun⟩⟩:=h.cases s
  · rw [he] at hreplaces
    exact absurd trivial hreplaces
  · exact ⟨_,t,fun x=>hrun le _⟩
  · rw [hbuilt] at hreplaces
    simp only [c.data_reply,Nat.not_lt] at hreplaces
    refine ⟨c.reply payload c.code.done,t,fun x=>?_⟩
    rw [hrun,emit_fits (by rw [c.port.get_set]; exact hreplaces)]

end Uniform

end Channel

/-- A machine that can be asked for what is left of a response. -/
structure Reader (σ ι α S : Type) where
  code : Code S
  respond : σ → ι→Option (List α × S) × σ
  pending : σ → List α
  withPending : List α → σ → σ
  Read : ι→Prop
  refused : S
  withPending_pending : ∀ s, withPending (pending s) s=s
  read : ∀ s i, Read i→∃ n s', 0 < n ∧ pending s'=(pending s).drop n ∧ respond s i =
    (some (if pending s=[] then ([],refused) else ((pending s).take n,code.status ((pending s).length-n))),s')

namespace Reader

variable {ι : Type} {r : Reader σ ι α S} {s t : σ} {i : ι}

theorem serves (r : Reader σ ι α S) : r.code.Serves r.respond (fun pending s=>r.pending s=pending) r.Read:=by
  rintro pending s i rfl hne hi
  obtain ⟨n,s',hn,hpending,hrespond⟩:=r.read s i hi
  rw [if_neg hne] at hrespond
  exact ⟨n,s',hn,hrespond,hpending⟩

theorem delivered [DecidableEq S] {n : ℕ}
    (hfirst : r.respond s i=(some (payload.take n,r.code.status (payload.length-n)),t))
    (hrest : n < payload.length → r.pending t=payload.drop n) : r.code.Delivered r.respond r.Read payload s i:=
  fun _ his=>Code.reads_first r.serves hfirst hrest his

/-- The answers to inputs one after the other. -/
def answers (r : Reader σ ι α S) : σ → List ι → List (Option (List α × S))
  | _, []=>[]
  | s, i::is=>(r.respond s i).1::answers r (r.respond s i).2 is

/-- An input and whatever comes behind it are answered as if nothing had been left before. -/
def Forgotten (r : Reader σ ι α S) (s : σ) (i : ι) : Prop:=
  ∀ later, r.answers s (i::later)=r.answers (r.withPending [] s) (i::later)

theorem withPending_nil (h : r.pending s=[]) : r.withPending [] s=s:=by
  have hsame:=r.withPending_pending s
  rwa [h] at hsame

theorem read_empty (h : r.pending s=[]) (hi : r.Read i) : (r.respond s i).1=some ([],r.refused):=by
  obtain ⟨n,s',-,-,hrespond⟩:=r.read s i hi
  rw [hrespond,if_pos h]

theorem read_some (h : r.pending s≠[]) (hi : r.Read i) : (r.respond s i).1≠some ([],r.refused):=by
  obtain ⟨n,s',hn,-,hrespond⟩:=r.read s i hi
  rw [hrespond,if_neg h]
  intro heq
  have hdata : (r.pending s).take n=[]:=congrArg Prod.fst (Option.some.inj heq)
  rcases List.take_eq_nil_iff.mp hdata with hzero | hnil
  · omega
  · exact h hnil

theorem forgotten_left {get : ι} (hget : r.Read get) (hleft : r.pending (r.respond s i).2=r.pending s)
    (hnone : r.pending (r.respond (r.withPending [] s) i).2=[]) : r.Forgotten s i ↔ r.pending s=[]:=by
  constructor
  · intro h
    by_contra hpending
    have hanswers:=h [get]
    simp only [answers,List.cons.injEq,and_true] at hanswers
    have hsame:=hanswers.2.trans (read_empty hnone hget)
    exact read_some (by rw [hleft]; exact hpending) hget hsame
  · intro hpending later
    rw [withPending_nil hpending]

theorem forgotten_same (h : r.respond s i=r.respond (r.withPending [] s) i) : r.Forgotten s i:=by
  intro later
  rw [answers,answers,h]

end Reader

end CdcBadge.Responses
