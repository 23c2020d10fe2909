import CdcBadge.CborHeads

/-!
# Reads that go on and reads that stop

A parser that ignores a failed read goes on with a reader in its error state, which takes nothing more. It is
compared here with a decoder that stops at the first failure.
-/

namespace CdcBadge.Cbor

open Handler

variable {α β γ : Type} {k : α→Read β}

def Sticky (m : Read α) : Prop:=Keeps (fun r : Reader=>r.error=true) m

theorem Sticky.attempt {m : Read α} (hm : Sticky m) : Sticky (attempt m):=by
  refine keeps_iff.mpr fun r hr=>?_
  have h:=keeps_iff.mp hm r hr
  revert h
  unfold Handler.attempt
  cases m r with
  | mk result s=>cases result <;> exact id

/-- The read succeeds with the flag clear, or fails and leaves it set. -/
structure Honest (m : Read α) : Prop where
  flags : Flags m
  clean : ∀ {r a r'}, m r=(.ok a,r') → r'.error=false

theorem Honest.bind {m : Read α} (hm : Honest m) (hk : ∀ a, Honest (k a) ∨ ∃ b, k a=pure b) :
    Honest (m >>= k):=by
  constructor
  · refine hm.flags.bind fun a=>?_
    rcases hk a with h | ⟨b,h⟩
    · exact h.flags
    · rw [h]
      exact Flags.pure b
  · intro r b r' h
    obtain ⟨a,s,ha,hb⟩:=bind_ok.mp h
    rcases hk a with h | ⟨c,h⟩
    · exact h.clean hb
    · rw [h] at hb
      cases hb
      exact hm.clean ha

/-- What the decoder's outcome leaves for the read's: to go through to the same place, or to leave the flag set. -/
def Matches : Except Unit β × Reader → Except Unit α × Reader→Prop
  | (.ok _,r'), m=>r'.error=false ∧ ∃ a, m=(.ok a,r')
  | (.error _,_), m=>m.2.error=true

/-- As `Matches`, for a read that may also fail where the decoder goes through. -/
def Accords : Except Unit β × Reader → Except Unit α × Reader→Prop
  | (.ok _,r'), m=>r'.error=false ∧ m.2=r'
  | (.error _,_), m=>m.2.error=true

def Steps (m : Read α) (d : Read β) : Prop:=∀ r : Reader, r.error=false→Matches (d r) (m r)

def Follows (m : Read α) (d : Read β) : Prop:=∀ r : Reader, r.error=false → Accords (d r) (m r)

theorem Steps.pure (a : α) (b : β) : Steps (pure a) (pure b):=fun _ hr=>⟨hr,a,rfl⟩

theorem Honest.attempt {m : Read α} {k : Option α→Read β} {l : α→Read γ} (hm : Honest m)
    (hk : ∀ o, ∃ b, k o=Pure.pure b) (hl : ∀ a, ∃ c, l a=Pure.pure c) : Steps (attempt m >>= k) (m >>= l):=by
  intro r hr
  rw [bind_apply,bind_apply]
  unfold Handler.attempt
  cases hread : m r with
  | mk result r'=>
    cases result with
    | error e=>
      obtain ⟨b,hb⟩:=hk none
      dsimp only
      rw [hb]
      exact hm.flags.error hread
    | ok a=>
      obtain ⟨b,hb⟩:=hk (some a)
      obtain ⟨c,hc⟩:=hl a
      dsimp only
      rw [hb,hc]
      exact ⟨hm.clean hread,b,rfl⟩

theorem Steps.iterate {body : α→Read α} {d : Read Unit} (hbody : ∀ a, Steps (body a) d) (hsticky : ∀ a, Sticky (body a))
    (n : ℕ) (a : α) : Steps (iterate n body a) (iterate n (fun _=>d) ()):=by
  induction n generalizing a with
  | zero=>exact Steps.pure a ()
  | succ n ih=>
    intro r hr
    have hfirst:=hbody a r hr
    show Matches ((d >>= fun _=>Handler.iterate n (fun _=>d) ()) r) ((body a >>= Handler.iterate n body) r)
    cases hd : d r with
    | mk result s=>
      rw [hd] at hfirst
      cases result with
      | ok u=>
        obtain ⟨hs,b,hb⟩:=hfirst
        rw [bind_of_ok hd,bind_of_ok hb]
        exact ih b s hs
      | error e=>
        have herror : (body a r).2.error=true:=hfirst
        rw [bind_of_error hd]
        show ((body a >>= Handler.iterate n body) r).2.error=true
        rw [bind_apply]
        cases hround : body a r with
        | mk result t=>
          rw [hround] at herror
          cases result with
          | error e'=>exact herror
          | ok b=>exact keeps_iff.mp (Keeps.iterate hsticky n b) t herror

theorem iterate_succ_last {ε σ : Type} {body : α→Handler ε σ α} (n : ℕ) (a : α) :
    iterate (n+1) body a=iterate n body a >>= body:=by
  induction n generalizing a with
  | zero=>
    show (body a >>= fun b=>Pure.pure b)=Pure.pure a >>= body
    rw [bind_pure_left]
    funext s
    rw [bind_apply]
    cases body a s with
    | mk result t=>cases result <;> rfl
  | succ n ih=>
    show (body a >>= iterate (n+1) body)=(body a >>= iterate n body) >>= body
    rw [Handler.bind_assoc]
    exact congrArg (body a >>= ·) (funext ih)

section Parsers

variable {ε σ : Type} (rd : σ→Reader)

/-- A handler that returns has taken its reader where the decoder takes it. -/
def Tracks (m : Handler ε σ α) (d : Read β) : Prop:=
  ∀ s a t, (rd s).error=false→m s=(.ok a,t) → Accords (d (rd s)) ((.ok a : Except Unit α),rd t)

/-- A handler that returns has left the error flag as it found it set. -/
def KeepsError (m : Handler ε σ α) : Prop:=∀ s a t, (rd s).error=true→m s=(.ok a,t)→(rd t).error=true

variable {rd}

theorem Tracks.iterate {body : α→Handler ε σ α} {d : Read Unit} (hbody : ∀ a, Tracks rd (body a) d)
    (hkeeps : ∀ a, KeepsError rd (body a)) (n : ℕ) (a : α) : Tracks rd (iterate n body a) (iterate n (fun _=>d) ()):=by
  induction n generalizing a with
  | zero=>
    intro s b t hs h
    cases h
    exact ⟨hs,rfl⟩
  | succ n ih=>
    intro s c t hs h
    obtain ⟨b,u,hfirst,hrest⟩:=bind_ok.mp h
    have hstep:=hbody a s b u hs hfirst
    show Accords ((d >>= fun _=>Handler.iterate n (fun _=>d) ()) (rd s)) _
    cases hd : d (rd s) with
    | mk result r'=>
      rw [hd] at hstep
      cases result with
      | ok v=>
        obtain ⟨hr',rfl⟩:=hstep
        rw [bind_of_ok hd]
        exact ih b u c t hr' hrest
      | error e=>
        rw [bind_of_error hd]
        have hkept : ∀ (n : ℕ) (b : α) (u : σ), (rd u).error=true→Handler.iterate n body b u=(.ok c,t) →
            (rd t).error=true:=by
          intro n
          induction n with
          | zero=>
            intro b u hu h
            cases h
            exact hu
          | succ n ih=>
            intro b u hu h
            obtain ⟨b',u',hround,h⟩:=bind_ok.mp h
            exact ih b' u' (hkeeps b u b' u' hu hround) h
        exact hkept n b u hstep hrest

/-- A loop of rounds that a reader in its error state stops: it returns at the place where the decoder's loop ends, or
the decoder fails in the last round. -/
theorem Tracks.run {body : α→Handler ε σ α} {d : Read Unit} (hbody : ∀ a, Tracks rd (body a) d)
    (hstops : ∀ a s b t, (rd s).error=true→body a s≠(.ok b,t)) {n : ℕ} {a b : α} {s t : σ}
    (hs : (rd s).error=false) (h : Handler.iterate n body a s=(.ok b,t)) :
    (rd t).error=false ∧ Handler.iterate n (fun _=>d) () (rd s)=(.ok (),rd t) ∨
      (rd t).error=true ∧ ∃ m a' s', n=m+1 ∧ Handler.iterate m body a s=(.ok a',s') ∧ (rd s').error=false ∧
        Handler.iterate m (fun _=>d) () (rd s)=(.ok (),rd s') ∧ (d (rd s')).1=.error () ∧ body a' s'=(.ok b,t):=by
  induction n generalizing b t with
  | zero=>
    cases h
    exact Or.inl ⟨hs,rfl⟩
  | succ n ih=>
    rw [iterate_succ_last] at h
    obtain ⟨a',s',hfirst,hlast⟩:=bind_ok.mp h
    rcases ih hfirst with ⟨hs',hd⟩ | ⟨herror,-⟩
    · have hstep:=hbody a' s' b t hs' hlast
      cases hend : d (rd s') with
      | mk result r'=>
        rw [hend] at hstep
        cases result with
        | ok u=>
          obtain ⟨hr',ht⟩:=hstep
          have ht : rd t=r':=ht
          refine Or.inl ⟨by rw [ht]; exact hr',?_⟩
          rw [iterate_succ_last,bind_of_ok hd,hend,ht]
        | error e=>
          exact Or.inr ⟨hstep,n,a',s',rfl,hfirst,hs',hd,by rw [hend],hlast⟩
    · exact absurd hlast (hstops a' s' b t herror)

end Parsers

end CdcBadge.Cbor
