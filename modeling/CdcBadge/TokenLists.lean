import Mathlib.Algebra.Order.BigOperators.Group.List
import Mathlib.Algebra.Order.Group.Nat
import Mathlib.Algebra.Order.Ring.Nat

/-!
# Sets kept as text

A set of words written one after the other with a separator between them. Words are
found again by scanning for what lies between separators.
-/

namespace CdcBadge.TokenLists

variable {α : Type} [DecidableEq α] (sep : α)

/-- What a scan of the text stops at: separators are skipped, and a word ends at the next one. -/
def tokens (text : List α) : List (List α):=(text.splitOn sep).filter (· ≠ [])

def joined (text word : List α) : List α:=if text=[] then word else text++sep::word

def weight (words : List (List α)) : ℕ:=(words.map fun word=>word.length+1).sum

variable {sep} {text word : List α}

@[simp] theorem tokens_nil : tokens sep ([] : List α)=[]:=by simp [tokens]

theorem tokens_word (hword : sep ∉ word) (hne : word≠[]) : tokens sep word=[word]:=by
  have hsplit : word.splitOn sep=[word]:=
    List.splitOnP_eq_singleton fun c hc=>beq_eq_false_iff_ne.mpr fun heq=>hword (heq ▸ hc)
  rw [tokens,hsplit]
  simp [hne]

theorem tokens_joined (hword : sep ∉ word) (hne : word≠[]) : tokens sep (joined sep text word)=tokens sep text++[word]:=by
  unfold joined
  split
  · rename_i hempty
    rw [tokens_word hword hne,hempty,tokens_nil,List.nil_append]
  · have hsplit : (text++sep::word).splitOn sep=text.splitOn sep++word.splitOn sep:=
      List.splitOnP_append_cons text word (beq_self_eq_true sep)
    rw [tokens,hsplit,List.filter_append]
    exact congrArg (tokens sep text ++ ·) (tokens_word hword hne)

omit [DecidableEq α] in
theorem joined_length : (joined sep text word).length=text.length+(if text=[] then 0 else 1)+word.length:=by
  unfold joined
  split
  · simp [*]
  · rw [List.length_append,List.length_cons]
    omega

theorem splitOn_cons (c : α) (text : List α) :
    (c::text).splitOn sep =
      if c == sep then []::text.splitOn sep else (text.splitOn sep).modifyHead (List.cons c):=
  List.splitOnP_cons_eq_if_modifyHead c text

theorem weight_splitOn : weight (text.splitOn sep)=text.length+1:=by
  induction text with
  | nil=>simp [weight]
  | cons c text ih=>
    rw [splitOn_cons]
    split
    · simp only [weight,List.map_cons,List.sum_cons,List.length_nil,List.length_cons] at ih ⊢
      omega
    · cases hsplit : text.splitOn sep with
      | nil=>exact absurd hsplit (List.splitOnP_ne_nil _ _)
      | cons word words=>
        rw [hsplit] at ih
        simp only [weight,List.modifyHead_cons,List.map_cons,List.sum_cons,List.length_cons] at ih ⊢
        omega

theorem weight_tokens_le : weight (tokens sep text) ≤ text.length+1:=by
  have hsplit : weight (text.splitOn sep)=text.length+1:=weight_splitOn
  rw [← hsplit]
  exact (List.filter_sublist.map fun word : List α=>word.length+1).sum_le_sum fun _ _=>Nat.zero_le _

theorem not_mem_splitOn : ∀ word∈text.splitOn sep, sep ∉ word:=by
  induction text with
  | nil=>simp
  | cons c text ih=>
    rw [splitOn_cons]
    split
    · simpa using ih
    · rename_i hc
      have hne : sep≠c:=fun heq=>hc (beq_iff_eq.mpr heq.symm)
      cases hsplit : text.splitOn sep with
      | nil=>exact absurd hsplit (List.splitOnP_ne_nil _ _)
      | cons first words=>
        rw [hsplit] at ih
        simpa [hne] using ih

theorem token_spec (h : word∈tokens sep text) : sep ∉ word ∧ word≠[]:=by
  obtain ⟨hsplit,hne⟩:=List.mem_filter.mp h
  exact ⟨not_mem_splitOn word hsplit,by simpa using hne⟩

end CdcBadge.TokenLists
