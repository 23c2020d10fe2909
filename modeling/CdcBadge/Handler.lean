import Mathlib.Data.Nat.Notation
import Mathlib.Logic.Basic
import Mathlib.Tactic.Basic

/-!
# Handlers: stateful computations that may stop

A handler runs on a state and either returns or stops with an error. The state
reached so far is kept when it stops, as the memory of a device is when a command
fails halfway. The rules below are stated for arbitrary states and errors.
-/

namespace CdcBadge

/-- A computation on states `σ` that returns an `α` or stops with an `ε`. -/
def Handler (ε σ α : Type) : Type:=σ → Except ε α × σ

namespace Handler

variable {ε σ α β : Type} {m : Handler ε σ α} {k : α→Handler ε σ β} {body : α→Handler ε σ α}

instance : Monad (Handler ε σ) where
  pure a:=fun s=>(.ok a,s)
  bind m k:=fun s=>match m s with
    | (.ok a,t)=>k a t
    | (.error e,t)=>(.error e,t)

def stop (e : ε) : Handler ε σ α:=fun s=>(.error e,s)

def gets (f : σ → α) : Handler ε σ α:=fun s=>(.ok (f s),s)

def modify (f : σ → σ) : Handler ε σ Unit:=fun s=>(.ok (),f s)

def check (b : Bool) (e : ε) : Handler ε σ Unit:=if b then pure () else stop e

/-- Run a handler for its effect where the condition holds. -/
def when (c : Prop) [Decidable c] (m : Handler ε σ α) : Handler ε σ Unit:=
  if c then m >>= fun _=>pure () else pure ()

/-- Run a handler whose failure is not acted on: `none` where it stops. -/
def attempt (m : Handler ε σ α) : Handler ε σ (Option α):=fun s=>match m s with
  | (.ok a,t)=>(.ok (some a),t)
  | (.error _,t)=>(.ok none,t)

/-- Go on with `k` where the handler stops. -/
def recover (m : Handler ε σ α) (k : ε→Handler ε σ α) : Handler ε σ α:=fun s=>match m s with
  | (.ok a,t)=>(.ok a,t)
  | (.error e,t)=>k e t

/-- A loop of `n` rounds. -/
def iterate : ℕ→(α→Handler ε σ α) → α→Handler ε σ α
  | 0, _, a=>pure a
  | n+1, body, a=>body a >>= iterate n body

/-- A loop of at most `n` rounds, left where a round answers `none`. -/
def iterateWhile : ℕ→(α→Handler ε σ (Option α)) → α→Handler ε σ α
  | 0, _, a=>pure a
  | n+1, body, a=>body a >>= fun
    | some b=>iterateWhile n body b
    | none=>pure a

def zoom {τ : Type} (get : σ → τ) (set : τ → σ → σ) (m : Handler ε τ α) : Handler ε σ α:=
  fun s=>((m (get s)).1,set (m (get s)).2 s)

@[simp] theorem pure_apply (a : α) (s : σ) : (pure a : Handler ε σ α) s=(.ok a,s):=rfl

@[simp] theorem stop_apply (e : ε) (s : σ) : (stop e : Handler ε σ α) s=(.error e,s):=rfl

@[simp] theorem gets_apply (f : σ → α) (s : σ) : (gets f : Handler ε σ α) s=(.ok (f s),s):=rfl

@[simp] theorem modify_apply (f : σ → σ) (s : σ) : (modify f : Handler ε σ Unit) s=(.ok (),f s):=rfl

theorem bind_apply (m : Handler ε σ α) (k : α→Handler ε σ β) (s : σ) :
    (m >>= k) s=match m s with
      | (.ok a,t)=>k a t
      | (.error e,t)=>(.error e,t):=rfl

@[simp] theorem bind_pure_left (a : α) (k : α→Handler ε σ β) : (pure a >>= k)=k a:=rfl

@[simp] theorem bind_stop (e : ε) (k : α→Handler ε σ β) : (stop e >>= k)=stop e:=rfl

@[simp] theorem bind_gets (f : σ → α) (k : α→Handler ε σ β) (s : σ) :
    (gets f >>= k) s=k (f s) s:=rfl

@[simp] theorem bind_modify (f : σ → σ) (k : Unit→Handler ε σ β) (s : σ) :
    (modify f >>= k) s=k () (f s):=rfl

theorem bind_of_ok {s t : σ} {a : α}
    (h : m s=(.ok a,t)) : (m >>= k) s=k a t:=by
  rw [bind_apply,h]

theorem bind_of_error {s t : σ} {e : ε}
    (h : m s=(.error e,t)) : (m >>= k) s=(.error e,t):=by
  rw [bind_apply,h]

theorem bind_assoc {γ : Type} (m : Handler ε σ α) (k : α→Handler ε σ β) (l : β→Handler ε σ γ) :
    (m >>= k >>= l)=m >>= fun a=>k a >>= l:=by
  funext s
  simp only [bind_apply]
  cases m s with
  | mk r t=>cases r <;> rfl

theorem bind_pure_state (m : Handler ε σ α) (f : α → β) (s : σ) : ((m >>= fun a=>pure (f a)) s).2=(m s).2:=by
  rw [bind_apply]
  cases m s with
  | mk r t=>cases r <;> rfl

theorem bind_ite_pure_state (m : Handler ε σ Bool) (x y : β) (s : σ) :
    ((m >>= fun b=>if b=true then pure x else pure y) s).2=(m s).2:=by
  rw [bind_apply]
  match m s with
  | (.error _,_)=>rfl
  | (.ok true,_)=>rfl
  | (.ok false,_)=>rfl

/-- A sequence returns exactly when its first part returns and its second part
returns from the state reached. -/
theorem bind_ok {s s' : σ} {b : β} :
    (m >>= k) s=(.ok b,s') ↔ ∃ a t, m s=(.ok a,t) ∧ k a t=(.ok b,s'):=by
  rw [bind_apply]
  constructor
  · intro h
    cases hm : m s with
    | mk r t=>cases r with
      | ok a=>exact ⟨a,t,rfl,by simpa [hm] using h⟩
      | error e=>simp [hm] at h
  · rintro ⟨a,t,hm,hk⟩
    simpa [hm] using hk

/-- From every state with `P`, the handler returns with `Q` or stops with `E`. -/
def Triple (P : σ→Prop) (m : Handler ε σ α) (Q : α → σ→Prop) (E : ε → σ→Prop) : Prop:=
  ∀ s, P s→match m s with
    | (.ok a,t)=>Q a t
    | (.error e,t)=>E e t

section Rules

variable {P P' : σ→Prop} {Q : α → σ→Prop} {R : β → σ→Prop} {E E' : ε → σ→Prop}

theorem Triple.ok (h : Triple P m Q E) {s t : σ} {a : α} (hs : P s)
    (hm : m s=(.ok a,t)) : Q a t:=by
  simpa [hm] using h s hs

theorem Triple.error (h : Triple P m Q E) {s t : σ} {e : ε} (hs : P s)
    (hm : m s=(.error e,t)) : E e t:=by
  simpa [hm] using h s hs

theorem Triple.state {S : σ→Prop} (h : Triple P m (fun _=>S) fun _=>S) {s : σ}
    (hs : P s) : S (m s).2:=by
  have h':=h s hs
  revert h'
  cases m s with
  | mk r t=>cases r <;> exact id

theorem Triple.pure {a : α} (h : ∀ s, P s→Q a s) : Triple P (pure a) Q E:=
  fun s hs=>h s hs

theorem Triple.stop {e : ε} (h : ∀ s, P s → E e s) : Triple P (stop e : Handler ε σ α) Q E:=
  fun s hs=>h s hs

theorem Triple.gets {f : σ → α} (h : ∀ s, P s→Q (f s) s) : Triple P (gets f) Q E:=
  fun s hs=>h s hs

theorem Triple.modify {f : σ → σ} {Q : Unit → σ→Prop} (h : ∀ s, P s→Q () (f s)) :
    Triple P (modify f) Q E:=
  fun s hs=>h s hs

theorem Triple.check {b : Bool} {e : ε} {Q : Unit → σ→Prop}
    (h : ∀ s, P s→b=true→Q () s) (he : ∀ s, P s→b=false → E e s) :
    Triple P (check b e) Q E:=by
  intro s hs
  cases b with
  | true=>exact h s hs rfl
  | false=>exact he s hs rfl

theorem Triple.bind
    (hm : Triple P m Q E) (hk : ∀ a, Triple (Q a) (k a) R E) : Triple P (m >>= k) R E:=by
  intro s hs
  have h:=hm s hs
  rw [bind_apply]
  cases e : m s with
  | mk r t=>cases r with
    | ok a=>rw [e] at h; exact hk a t h
    | error _=>rw [e] at h; exact h

theorem Triple.conseq {Q' : α → σ→Prop} (h : Triple P m Q E)
    (hP : ∀ s, P' s→P s) (hQ : ∀ a s, Q a s→Q' a s) (hE : ∀ e s, E e s → E' e s) :
    Triple P' m Q' E':=by
  intro s hs
  have h':=h s (hP s hs)
  cases e : m s with
  | mk r t=>cases r with
    | ok a=>rw [e] at h'; exact hQ a t h'
    | error x=>rw [e] at h'; exact hE x t h'

theorem Triple.of_ok (h : ∀ s a t, P s→m s=(.ok a,t)→Q a t) :
    Triple P m Q fun _ _=>True:=by
  intro s hs
  cases e : m s with
  | mk r t=>cases r with
    | ok a=>exact h s a t hs e
    | error _=>trivial

theorem Triple.and {Q' : α → σ→Prop} (h : Triple P m Q E) (h' : Triple P' m Q' E') :
    Triple (fun s=>P s ∧ P' s) m (fun a s=>Q a s ∧ Q' a s) (fun e s=>E e s ∧ E' e s):=by
  intro s hs
  have h₁:=h s hs.1
  have h₂:=h' s hs.2
  cases e : m s with
  | mk r t=>cases r with
    | ok a=>rw [e] at h₁ h₂; exact ⟨h₁,h₂⟩
    | error x=>rw [e] at h₁ h₂; exact ⟨h₁,h₂⟩

theorem Triple.pre {φ : Prop} (h : φ→Triple P m Q E) :
    Triple (fun s=>φ ∧ P s) m Q E:=
  fun s hs=>h hs.1 s hs.2

theorem Triple.named (h : ∀ s, P s→Triple (fun t=>t=s) m Q E) : Triple P m Q E:=
  fun s hs=>h s hs s rfl

theorem Triple.ite {c : Prop} [Decidable c] {m n : Handler ε σ α}
    (hm : c→Triple P m Q E) (hn : ¬c→Triple P n Q E) :
    Triple P (if c then m else n) Q E:=by
  split
  · exact hm ‹_›
  · exact hn ‹_›

theorem Triple.when {c : Prop} [Decidable c] {Q : Unit → σ→Prop}
    (hm : c→Triple P m (fun _=>Q ()) E) (hn : ¬c→∀ s, P s→Q () s) : Triple P (when c m) Q E:=
  Triple.ite (fun hc=>Triple.bind (hm hc) fun _=>Triple.pure fun _ h=>h) fun hc=>Triple.pure (hn hc)

theorem Triple.iterate {I : α → σ→Prop} {E : ε → σ→Prop}
    (h : ∀ a, Triple (I a) (body a) I E) (n : ℕ) (a : α) : Triple (I a) (iterate n body a) I E:=by
  induction n generalizing a with
  | zero=>exact Triple.pure fun _ h=>h
  | succ n ih=>exact Triple.bind (h a) fun b=>ih b

theorem Triple.recover {k : ε→Handler ε σ α} {E : ε → σ→Prop}
    (hm : Triple P m Q E) (hk : ∀ e, Triple (E e) (k e) Q E') : Triple P (recover m k) Q E':=by
  intro s hs
  have h:=hm s hs
  unfold Handler.recover
  cases e : m s with
  | mk r t=>cases r with
    | ok a=>rw [e] at h; exact h
    | error x=>rw [e] at h; exact hk x t h

theorem Triple.zoom {τ : Type} {get : σ → τ} {set : τ → σ → σ} {m : Handler ε τ α} {P : τ→Prop}
    {Q : α → τ→Prop} {E : ε → τ→Prop} {P' : σ→Prop} {Q' : α → σ→Prop} {E' : ε → σ→Prop}
    (h : Triple P m Q E) (hP : ∀ s, P' s→P (get s)) (hQ : ∀ s a t, P' s→Q a t→Q' a (set t s))
    (hE : ∀ s e t, P' s → E e t → E' e (set t s)) : Triple P' (zoom get set m) Q' E':=by
  intro s hs
  have h':=h (get s) (hP s hs)
  unfold Handler.zoom
  cases e : m (get s) with
  | mk r t=>cases r with
    | ok a=>rw [e] at h'; exact hQ s a t hs h'
    | error x=>rw [e] at h'; exact hE s x t hs h'

end Rules

/-- Every state with `P` is left in a state with `P`, whether the handler returns or stops. -/
def Keeps (P : σ→Prop) (m : Handler ε σ α) : Prop:=Triple P m (fun _=>P) (fun _=>P)

section Keeps

variable {P Q : σ→Prop}

theorem keeps_iff : Keeps P m ↔ ∀ s, P s→P (m s).2:=by
  refine ⟨fun h s hs=>h.state hs,fun h s hs=>?_⟩
  have h':=h s hs
  revert h'
  cases m s with
  | mk r t=>cases r <;> exact id

theorem Keeps.pure (a : α) : Keeps P (pure a : Handler ε σ α):=fun _ h=>h

theorem Keeps.stop (e : ε) : Keeps P (stop e : Handler ε σ α):=fun _ h=>h

theorem Keeps.gets (f : σ → α) : Keeps P (gets f : Handler ε σ α):=fun _ h=>h

theorem Keeps.check (b : Bool) (e : ε) : Keeps P (check b e : Handler ε σ Unit):=
  Triple.check (fun _ h _=>h) (fun _ h _=>h)

theorem Keeps.modify {f : σ → σ} (h : ∀ s, P s→P (f s)) : Keeps P (modify f : Handler ε σ Unit):=h

theorem Keeps.bind (hm : Keeps P m)
    (hk : ∀ a, Keeps P (k a)) : Keeps P (m >>= k):=
  Triple.bind hm hk

theorem Keeps.ite {c : Prop} [Decidable c] {m n : Handler ε σ α} (hm : c→Keeps P m)
    (hn : ¬c→Keeps P n) : Keeps P (if c then m else n):=
  Triple.ite hm hn

theorem Keeps.when {c : Prop} [Decidable c] (hm : c→Keeps P m) :
    Keeps P (when c m):=
  Keeps.ite (fun hc=>Keeps.bind (hm hc) fun _=>Keeps.pure _) fun _=>Keeps.pure _

theorem Keeps.iterate (h : ∀ a, Keeps P (body a)) (n : ℕ) (a : α) :
    Keeps P (iterate n body a):=
  Triple.iterate (I:=fun _=>P) h n a

theorem Keeps.forM_mem {l : List β} {f : β→Handler ε σ PUnit} (h : ∀ b∈l, Keeps P (f b)) : Keeps P (l.forM f):=by
  induction l with
  | nil=>exact Keeps.pure _
  | cons b l ih=>exact Keeps.bind (h b List.mem_cons_self) fun _=>ih fun a ha=>h a (List.mem_cons_of_mem b ha)

theorem Keeps.forM {l : List β} {f : β→Handler ε σ PUnit} (h : ∀ b, Keeps P (f b)) : Keeps P (l.forM f):=
  Keeps.forM_mem fun b _=>h b

theorem Keeps.recover {k : ε→Handler ε σ α} (hm : Keeps P m)
    (hk : ∀ e, Keeps P (k e)) : Keeps P (recover m k):=
  Triple.recover hm hk

theorem Keeps.and (h : Keeps P m) (h' : Keeps Q m) :
    Keeps (fun s=>P s ∧ Q s) m:=by
  rw [keeps_iff] at *
  exact fun s hs=>⟨h s hs.1,h' s hs.2⟩

end Keeps

/-- The handler leaves this part of the state as it was, whether it returns or stops. -/
def Fixes {V : Type} (v : σ→V) (m : Handler ε σ α) : Prop:=∀ x, Keeps (fun s=>v s=x) m

section Fixes

variable {V : Type} {v : σ→V}

theorem Fixes.apply (h : Fixes v m) (s : σ) : v (m s).2=v s:=
  keeps_iff.mp (h (v s)) s rfl

theorem Fixes.pure (a : α) : Fixes v (pure a : Handler ε σ α):=fun _=>Keeps.pure a

theorem Fixes.stop (e : ε) : Fixes v (stop e : Handler ε σ α):=fun _=>Keeps.stop e

theorem Fixes.gets (f : σ → α) : Fixes v (gets f : Handler ε σ α):=fun _=>Keeps.gets f

theorem Fixes.check (b : Bool) (e : ε) : Fixes v (check b e : Handler ε σ Unit):=fun _=>Keeps.check b e

theorem Fixes.modify {f : σ → σ} (h : ∀ s, v (f s)=v s) : Fixes v (modify f : Handler ε σ Unit):=
  fun _=>Keeps.modify fun s hs=>(h s).trans hs

theorem Fixes.bind (hm : Fixes v m) (hk : ∀ a, Fixes v (k a)) :
    Fixes v (m >>= k):=
  fun x=>Keeps.bind (hm x) fun a=>hk a x

theorem Fixes.ite {c : Prop} [Decidable c] {m n : Handler ε σ α} (hm : Fixes v m) (hn : Fixes v n) :
    Fixes v (if c then m else n):=
  fun x=>Keeps.ite (fun _=>hm x) fun _=>hn x

theorem Fixes.when {c : Prop} [Decidable c] (hm : Fixes v m) : Fixes v (when c m):=
  fun x=>Keeps.when fun _=>hm x

theorem Fixes.iterate (h : ∀ a, Fixes v (body a)) (n : ℕ) (a : α) :
    Fixes v (iterate n body a):=
  fun x=>Keeps.iterate (fun a=>h a x) n a

end Fixes

end Handler

end CdcBadge
