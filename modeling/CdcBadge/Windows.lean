import Mathlib.Data.List.Basic

/-!
# A sequence read in windows

A machine answers every read with the front of what is pending and a status that tells how
much is left. The reader goes on until the status says that nothing is.
-/

namespace CdcBadge.Windows

variable {α S σ ι : Type}

/-- How a status tells what is left. -/
structure Code (S : Type) where
  done : S
  more : ℕ → S
  more_ne_done : ∀ n, more n≠done

namespace Code

variable (code : Code S)

def status (left : ℕ) : S:=if left=0 then code.done else code.more left

@[simp] theorem status_zero : code.status 0=code.done:=rfl

theorem status_pos {left : ℕ} (h : 0 < left) : code.status left=code.more left:=if_neg (by omega)

/-- The answers are windows of the payload one behind the other, each with what is left behind it. -/
inductive Delivers : List α → List (List α × S)→Prop
  | pending (payload : List α) : Delivers payload []
  | last (payload : List α) : Delivers payload [(payload,code.done)]
  | window (front : List α) {rest : List α} {rs : List (List α × S)} (hrest : rest≠[])
      (h : Delivers rest rs) : Delivers (front++rest) ((front,code.more rest.length)::rs)

variable {code} [DecidableEq S]

variable (code) in
def reads (respond : σ → ι→Option (List α × S) × σ) : σ → List ι → List (List α × S)
  | _, []=>[]
  | s, i::is=>
    match respond s i with
    | (some r,s')=>r::if r.2=code.done then [] else reads respond s' is
    | (none,_)=>[]

variable {respond : σ → ι→Option (List α × S) × σ} {Pending : List α → σ→Prop} {Read : ι→Prop}

variable (code respond Pending Read) in
/-- A read takes some of what is pending, and leaves the rest. -/
def Serves : Prop:=∀ pending s i, Pending pending s→pending≠[]→Read i→∃ n s', 0 < n ∧
  respond s i=(some (pending.take n,code.status (pending.length-n)),s') ∧ Pending (pending.drop n) s'

theorem reads_cons {payload : List α} {n : ℕ} {s s' : σ} {i : ι} {is : List ι} {enough : Prop}
    (hreply : respond s i=(some (payload.take n,code.status (payload.length-n)),s'))
    (hrest : n < payload.length → code.Delivers (payload.drop n) (code.reads respond s' is) ∧
      (enough→((code.reads respond s' is).map Prod.fst).flatten=payload.drop n)) :
    code.Delivers payload (code.reads respond s (i::is)) ∧
      (enough→((code.reads respond s (i::is)).map Prod.fst).flatten=payload):=by
  rw [reads,hreply]
  by_cases hn : n < payload.length
  · obtain ⟨hdelivers,hall⟩:=hrest hn
    have hdrop : payload.drop n≠[]:=by
      rw [ne_eq,List.drop_eq_nil_iff]
      omega
    rw [status_pos _ (by omega)]
    simp only [code.more_ne_done,if_false]
    constructor
    · have hwindow : code.Delivers _ _:=Delivers.window (payload.take n) hdrop hdelivers
      rwa [List.take_append_drop,List.length_drop] at hwindow
    · intro henough
      rw [List.map_cons,List.flatten_cons,hall henough,List.take_append_drop]
  · have htake : payload.take n=payload:=List.take_of_length_le (by omega)
    have hleft : payload.length-n=0:=by omega
    simp only [hleft,htake,status_zero,if_true]
    exact ⟨.last _,fun _=>by simp⟩

theorem reads_pending (h : Serves code respond Pending Read) {pending : List α} (hne : pending≠[]) {s : σ}
    (hs : Pending pending s) {is : List ι} (his : ∀ i∈is, Read i) :
    code.Delivers pending (code.reads respond s is) ∧
      (pending.length ≤ is.length→((code.reads respond s is).map Prod.fst).flatten=pending):=by
  induction is generalizing pending s with
  | nil=>
    refine ⟨.pending _,fun hlen=>?_⟩
    have hpos:=List.length_pos_of_ne_nil hne
    simp only [List.length_nil] at hlen
    omega
  | cons i is ih=>
    obtain ⟨n,s',hn,hreply,hs'⟩:=h pending s i hs hne (his i (by simp))
    refine reads_cons hreply fun hlt=>?_
    have hdrop : pending.drop n≠[]:=by
      rw [ne_eq,List.drop_eq_nil_iff]
      omega
    obtain ⟨hdelivers,hall⟩:=ih hdrop hs' fun j hj=>his j (by simp [hj])
    refine ⟨hdelivers,fun hlen=>hall ?_⟩
    rw [List.length_drop]
    simp only [List.length_cons] at hlen
    omega

theorem reads_first (h : Serves code respond Pending Read) {payload : List α} {n : ℕ} {s s' : σ} {i : ι}
    (hfirst : respond s i=(some (payload.take n,code.status (payload.length-n)),s'))
    (hs : n < payload.length→Pending (payload.drop n) s') {is : List ι} (his : ∀ i∈is, Read i) :
    code.Delivers payload (code.reads respond s (i::is)) ∧
      (payload.length ≤ is.length→((code.reads respond s (i::is)).map Prod.fst).flatten=payload):=by
  refine reads_cons hfirst fun hlt=>?_
  have hdrop : payload.drop n≠[]:=by
    rw [ne_eq,List.drop_eq_nil_iff]
    omega
  obtain ⟨hdelivers,hall⟩:=reads_pending h hdrop (hs hlt) his
  refine ⟨hdelivers,fun hlen=>hall ?_⟩
  rw [List.length_drop]
  omega

variable (code respond Read) in
/-- An answer and the reads behind it deliver a payload: each states what is left, and together they are the payload once
there are enough of them. -/
def Delivered (payload : List α) (s : σ) (first : ι) : Prop:=
  ∀ is : List ι, (∀ i∈is, Read i) → code.Delivers payload (code.reads respond s (first::is)) ∧
    (payload.length ≤ is.length→((code.reads respond s (first::is)).map Prod.fst).flatten=payload)

end Code

end CdcBadge.Windows
