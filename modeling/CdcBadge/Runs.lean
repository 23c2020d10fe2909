import Mathlib.Data.List.Induction

/-!
# Runs of a deterministic machine

The state after a list of inputs, and the induction that carries an invariant
along it when every input meets a condition in the state it arrives in.
-/

namespace CdcBadge.Runs

variable {σ ι : Type} (step : σ → ι → σ)

/-- The state reached from `s` by the inputs in order. -/
def run (s : σ) (is : List ι) : σ:=is.foldl step s

/-- `P` holds of every input of the run in the state it arrives in. -/
def AlongRun (P : σ → ι→Prop) : σ → List ι→Prop
  | _, []=>True
  | s, i::is=>P s i ∧ AlongRun P (step s i) is

/-- `P` holds of some input of the run in the state it arrives in. -/
def Sometime (P : σ → ι→Prop) : σ → List ι→Prop
  | _, []=>False
  | s, i::is=>P s i ∨ Sometime P (step s i) is

def sumAlong (f : σ → ι → ℕ) : σ → List ι → ℕ
  | _, []=>0
  | s, i::is=>f s i+sumAlong f (step s i) is

variable {step}

@[simp] theorem run_nil (s : σ) : run step s []=s:=rfl

@[simp] theorem run_cons (s : σ) (i : ι) (is : List ι) : run step s (i::is)=run step (step s i) is:=rfl

theorem run_append (s : σ) (is js : List ι) : run step s (is++js)=run step (run step s is) js:=
  List.foldl_append

variable {P Q : σ → ι→Prop} {I : σ→Prop} {is : List ι}

theorem AlongRun.mono {s : σ} (h : AlongRun step P s is) (hPQ : ∀ s i, P s i→Q s i) :
    AlongRun step Q s is:=by
  induction is generalizing s with
  | nil=>trivial
  | cons i is ih=>exact ⟨hPQ s i h.1,ih h.2⟩

theorem alongRun_append {s : σ} {is js : List ι} :
    AlongRun step P s (is++js) ↔ AlongRun step P s is ∧ AlongRun step P (run step s is) js:=by
  induction is generalizing s with
  | nil=>simp [AlongRun]
  | cons i is ih=>simp [AlongRun,ih,and_assoc]

/-- An invariant that every input meeting `P` preserves holds at the end of the run. -/
theorem run_invariant (hstep : ∀ s i, P s i → I s → I (step s i)) {s : σ}
    (hs : I s) (h : AlongRun step P s is) : I (run step s is):=by
  induction is generalizing s with
  | nil=>exact hs
  | cons i is ih=>exact ih (hstep s i h.1 hs) h.2

/-- What every input meeting `P` does from a state with the invariant, every input of the run does. -/
theorem AlongRun.of_invariant (hstep : ∀ s i, P s i → I s→Q s i ∧ I (step s i)) {s : σ} (hs : I s) (h : AlongRun step P s is) : AlongRun step Q s is:=by
  induction is generalizing s with
  | nil=>trivial
  | cons i is ih=>
    obtain ⟨hq,hinv⟩:=hstep s i h.1 hs
    exact ⟨hq,ih hinv h.2⟩

/-- Where `Q` is what `P` asks and `P` keeps the invariant, a run that meets one meets the other. -/
theorem alongRun_iff (hstep : ∀ s i, I s→(Q s i ↔ P s i) ∧ (P s i → I (step s i))) {s : σ} (hs : I s) :
    AlongRun step Q s is ↔ AlongRun step P s is:=by
  induction is generalizing s with
  | nil=>rfl
  | cons i is ih=>
    obtain ⟨hiff,hinv⟩:=hstep s i hs
    constructor
    · rintro ⟨hi,hrest⟩
      have hp:=hiff.mp hi
      exact ⟨hp,(ih (hinv hp)).mp hrest⟩
    · rintro ⟨hi,hrest⟩
      exact ⟨hiff.mpr hi,(ih (hinv hi)).mpr hrest⟩

/-- What was off and is on was switched on by some input, and has been on since. -/
theorem exists_switch {p : σ→Bool} {s : σ} (hs : p s=false) (h : p (run step s is)=true) :
    ∃ before i after, is=before++i::after ∧ p (run step s before)=false ∧
      ∀ later, later <+: after→p (run step s (before++i::later))=true:=by
  induction is using List.reverseRecOn with
  | nil=>
    rw [run_nil,hs] at h
    cases h
  | append_singleton is j ih=>
    cases hj : p (run step s is) with
    | false=>
      refine ⟨is,j,[],rfl,hj,fun later hlater=>?_⟩
      rw [List.prefix_nil.mp hlater]
      exact h
    | true=>
      obtain ⟨before,i,after,rfl,hoff,hon⟩:=ih hj
      refine ⟨before,i,after++[j],by simp,hoff,fun later hlater=>?_⟩
      rcases List.prefix_concat_iff.mp hlater with rfl | hlater
      · simpa using h
      · exact hon later hlater

theorem alongRun_true (s : σ) (is : List ι) : AlongRun step (fun _ _=>True) s is:=by
  induction is generalizing s with
  | nil=>trivial
  | cons i is ih=>exact ⟨trivial,ih (step s i)⟩

instance [∀ s i, Decidable (P s i)] (s : σ) (is : List ι) : Decidable (AlongRun step P s is):=
  decidableAlongRun s is
where
  decidableAlongRun : ∀ (s : σ) (is : List ι), Decidable (AlongRun step P s is)
    | _, []=>.isTrue trivial
    | s, _::is=>@instDecidableAnd _ _ inferInstance (decidableAlongRun (step s _) is)

end CdcBadge.Runs
