import CdcBadge.Handler

/-!
# Two runs of one handler

From related states a handler comes to the same result and to related states, where it looks
only at what the relation makes equal.
-/

namespace CdcBadge.Handler

variable {ε σ α β : Type}

/-- From related states the handler comes to the same result, and to related states. -/
def Paired (R : σ → σ→Prop) (m : Handler ε σ α) : Prop:=
  ∀ s t, R s t→(m s).1=(m t).1 ∧ R (m s).2 (m t).2

section Paired

variable {R : σ → σ→Prop}

theorem Paired.pure (a : α) : Paired R (pure a : Handler ε σ α):=fun _ _ h=>⟨rfl,h⟩

theorem Paired.stop (e : ε) : Paired R (stop e : Handler ε σ α):=fun _ _ h=>⟨rfl,h⟩

theorem Paired.bind {m : Handler ε σ α} {k : α→Handler ε σ β} (hm : Paired R m) (hk : ∀ a, Paired R (k a)) :
    Paired R (m >>= k):=by
  intro s t h
  obtain ⟨hresult,hstates⟩:=hm s t h
  rw [bind_apply,bind_apply]
  revert hresult hstates
  cases m s with
  | mk r s'=>
    cases m t with
    | mk r' t'=>
      rintro (rfl : r=r') hstates
      cases r with
      | ok a=>exact hk a s' t' hstates
      | error e=>exact ⟨rfl,hstates⟩

theorem Paired.ite {c : Prop} [Decidable c] {m n : Handler ε σ α} (hm : Paired R m) (hn : Paired R n) :
    Paired R (if c then m else n):=by
  split
  · exact hm
  · exact hn

end Paired

end CdcBadge.Handler
