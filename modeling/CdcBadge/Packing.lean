import CdcBadge.Handler
import CdcBadge.Runs

/-!
# Packing a bounded buffer

A loop appends what each round has to a buffer of bounded size, and a round may leave some of
it out. The buffer ends with everything exactly where no round leaves anything out and
everything fits.
-/

namespace CdcBadge.Packing

open Handler Runs

variable {ε σ ν α κ : Type}

/-- The rounds append at most their part, and all of it exactly where they are good and there is room. -/
structure Packs (cap : ℕ) (D : κ→Prop) (I : σ→Prop) (view : σ → ν) (after : ν → κ → ν) (Good : ν → κ→Prop)
    (part : κ → List α) (f : List α → κ→Handler ε σ (List α)) : Prop where
  bound : ∀ {buf out : List α} {k : κ} {s t : σ}, D k → I s→buf.length ≤ cap → f buf k s=(.ok out,t) →
    I t ∧ out.length ≤ cap ∧ out.length ≤ buf.length+(part k).length ∧
      (out.length=buf.length+(part k).length→Good (view s) k ∧ out=buf++part k ∧ view t=after (view s) k)
  good : ∀ {buf : List α} {k : κ} {s : σ}, D k → I s→Good (view s) k→buf.length+(part k).length ≤ cap →
    ∃ t, f buf k s=(.ok (buf++part k),t) ∧ I t ∧ view t=after (view s) k

variable {cap : ℕ} {D : κ→Prop} {I : σ→Prop} {view : σ → ν} {after : ν → κ → ν} {Good : ν → κ→Prop} {part : κ → List α}
  {f : List α → κ→Handler ε σ (List α)}

theorem Packs.full (h : Packs cap D I view after Good part f) {ks : List κ} {buf out : List α} {s t : σ} (hks : ∀ k∈ks, D k) (hs : I s)
    (hbuf : buf.length ≤ cap) (hrun : ks.foldlM f buf s=(.ok out,t)) :
    I t ∧ out.length ≤ cap ∧ out.length ≤ buf.length+(ks.flatMap part).length ∧
      (out.length=buf.length+(ks.flatMap part).length →
        AlongRun after Good (view s) ks ∧ out=buf++ks.flatMap part):=by
  induction ks generalizing buf s with
  | nil=>
    obtain ⟨rfl,rfl⟩ : buf=out ∧ s=t:=by
      cases hrun
      exact ⟨rfl,rfl⟩
    exact ⟨hs,hbuf,by simp,fun _=>⟨trivial,by simp⟩⟩
  | cons k ks ih=>
    rw [List.foldlM_cons] at hrun
    obtain ⟨mid,u,hfirst,hrest⟩:=bind_ok.mp hrun
    obtain ⟨hu,hmid,hmidle,hmidfull⟩:=h.bound (hks k List.mem_cons_self) hs hbuf hfirst
    obtain ⟨ht,hout,houtle,houtfull⟩:=ih (fun j hj=>hks j (List.mem_cons_of_mem k hj)) hu hmid hrest
    rw [List.flatMap_cons,List.length_append]
    refine ⟨ht,hout,by omega,fun hlen=>?_⟩
    obtain ⟨hgood,hmideq,hview⟩:=hmidfull (by omega)
    obtain ⟨halong,houteq⟩:=houtfull (by omega)
    rw [hview] at halong
    exact ⟨⟨hgood,halong⟩,by rw [houteq,hmideq,List.append_assoc]⟩

theorem Packs.run (h : Packs cap D I view after Good part f) {ks : List κ} {buf : List α} {s : σ} (hks : ∀ k∈ks, D k) (hs : I s)
    (hgood : AlongRun after Good (view s) ks) (hfits : buf.length+(ks.flatMap part).length ≤ cap) :
    ∃ t, ks.foldlM f buf s=(.ok (buf++ks.flatMap part),t):=by
  induction ks generalizing buf s with
  | nil=>exact ⟨s,by simp⟩
  | cons k ks ih=>
    rw [List.flatMap_cons,List.length_append] at hfits
    have hroom : buf.length+(part k).length ≤ cap:=by omega
    obtain ⟨u,hfirst,hu,hview⟩:=h.good (hks k List.mem_cons_self) hs hgood.1 hroom
    have hrest : AlongRun after Good (view u) ks:=by
      rw [hview]
      exact hgood.2
    have hlater : (buf++part k).length+(ks.flatMap part).length ≤ cap:=by
      rw [List.length_append]
      omega
    obtain ⟨t,hrun⟩:=ih (fun j hj=>hks j (List.mem_cons_of_mem k hj)) hu hrest hlater
    refine ⟨t,?_⟩
    rw [List.foldlM_cons,bind_of_ok hfirst,hrun,List.flatMap_cons,List.append_assoc]

theorem Packs.iff (h : Packs cap D I view after Good part f) (ks : List κ) {s : σ} (hks : ∀ k∈ks, D k) (hs : I s) :
    (∃ t, ks.foldlM f [] s=(.ok (ks.flatMap part),t)) ↔
      AlongRun after Good (view s) ks ∧ (ks.flatMap part).length ≤ cap:=by
  constructor
  · rintro ⟨t,hrun⟩
    obtain ⟨-,hcap,-,hfull⟩:=h.full hks hs (Nat.zero_le _) hrun
    exact ⟨(hfull (by simp)).1,hcap⟩
  · rintro ⟨hgood,hfits⟩
    have hroom : ([] : List α).length+(ks.flatMap part).length ≤ cap:=by simpa using hfits
    simpa using h.run hks hs hgood hroom

end CdcBadge.Packing
