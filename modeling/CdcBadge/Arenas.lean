import Mathlib.Data.List.Basic
import Mathlib.Logic.Function.Basic
import Mathlib.Tactic.Common

/-!
# Compact arenas

Blocks are taken one after another from the start of a memory. Freeing one closes the gap
it leaves: what lies above moves down, so the blocks that are left fill the used part
again, and each keeps its content.
-/

namespace CdcBadge.Arenas

structure Block where
  off : ℕ
  size : ℕ

def Block.Covers (b : Block) (a : ℕ) : Prop:=b.off ≤ a ∧ a < b.off+b.size

def Block.Apart (b c : Block) : Prop:=b.off+b.size ≤ c.off ∨ c.off+c.size ≤ b.off

/-- Where a block lies once the gap at `b` is closed. -/
def Block.closing (b c : Block) : Block:={c with off:=if b.off < c.off then c.off-b.size else c.off}

variable {κ α : Type}

/-- The blocks fill the first `used` cells, and no two meet. -/
structure Packed (blocks : κ→Option Block) (used : ℕ) : Prop where
  inside : ∀ k b, blocks k=some b → 0 < b.size ∧ b.off+b.size ≤ used
  apart : ∀ j k b c, blocks j=some b→blocks k=some c→j≠k→b.Apart c
  filled : ∀ a < used, ∃ k b, blocks k=some b ∧ b.Covers a

def readAt (mem : ℕ → α) (b : Block) : List α:=(List.range b.size).map fun i=>mem (b.off+i)

/-- `memcpy` of the data to `off`. -/
def write (mem : ℕ → α) (off : ℕ) (data : List α) (a : ℕ) : α:=
  if h : off ≤ a ∧ a < off+data.length then data[a-off] else mem a

/-- `memmove` of what is used above `b` down to where `b` starts. -/
def closeGap (mem : ℕ → α) (used : ℕ) (b : Block) (a : ℕ) : α:=
  if b.off ≤ a ∧ a < used-b.size then mem (a+b.size) else mem a

/-- A packed arena whose blocks hold the given contents. -/
structure Holding (blocks : κ→Option Block) (used : ℕ) (mem : ℕ → α) (content : κ→Option (List α)) : Prop
    extends Packed blocks used where
  stored : ∀ k, (blocks k).map (readAt mem)=content k

theorem readAt_congr {mem mem' : ℕ → α} {b c : Block} (hsize : b.size=c.size)
    (h : ∀ i < b.size, mem (b.off+i)=mem' (c.off+i)) : readAt mem b=readAt mem' c:=by
  unfold readAt
  rw [← hsize]
  exact List.map_congr_left fun i hi=>h i (List.mem_range.mp hi)

theorem readAt_write {mem : ℕ → α} {b : Block} {data : List α} (hsize : data.length=b.size) :
    readAt (write mem b.off data) b=data:=by
  apply List.ext_getElem
  · simp [readAt,hsize]
  · intro i h₁ h₂
    simp [readAt,write,h₂]

theorem readAt_write_apart {mem : ℕ → α} {b c : Block} {data : List α} (hsize : data.length=b.size) (h : b.Apart c) :
    readAt (write mem b.off data) c=readAt mem c:=by
  apply readAt_congr rfl
  intro i hi
  unfold write
  rw [dif_neg]
  unfold Block.Apart at h
  omega

theorem readAt_closeGap {mem : ℕ → α} {used : ℕ} {b c : Block} (h : b.Apart c) (hb : 0 < b.size)
    (hc : c.off+c.size ≤ used) : readAt (closeGap mem used b) (b.closing c)=readAt mem c:=by
  apply readAt_congr (b:=b.closing c) (c:=c) rfl
  intro i hi
  have hi' : i < c.size:=hi
  unfold Block.Apart at h
  unfold closeGap Block.closing
  dsimp only
  by_cases habove : b.off < c.off
  · rw [if_pos habove,if_pos (by omega)]
    congr 1
    omega
  · rw [if_neg habove,if_neg (by omega)]

theorem closing_lt {b c d : Block} (hbc : b.Apart c) (hbd : b.Apart d) (hb : 0 < b.size) (hc : 0 < c.size)
    (h : c.off < d.off) : (b.closing c).off < (b.closing d).off:=by
  unfold Block.Apart at *
  unfold Block.closing
  dsimp only
  split <;> split <;> omega

theorem Packed.empty : Packed (fun _ : κ=>none) 0:=⟨nofun,nofun,nofun⟩

section

variable [DecidableEq κ] {blocks : κ→Option Block} {used : ℕ} {k : κ} {b : Block} {mem : ℕ → α}
  {content : κ→Option (List α)} {data : List α}

def taken (blocks : κ→Option Block) (k : κ) (b : Block) : κ→Option Block:=Function.update blocks k (some b)

def freed (blocks : κ→Option Block) (k : κ) (b : Block) : κ→Option Block:=
  Function.update (fun j=>(blocks j).map b.closing) k none

theorem taken_eq {j : κ} {c : Block} (h : taken blocks k b j=some c) : j=k ∧ c=b ∨ j≠k ∧ blocks j=some c:=by
  unfold taken at h
  by_cases hj : j=k
  · rw [hj,Function.update_self] at h
    exact .inl ⟨hj,(Option.some.inj h).symm⟩
  · rw [Function.update_of_ne hj] at h
    exact .inr ⟨hj,h⟩

theorem freed_eq {j : κ} {c : Block} (h : freed blocks k b j=some c) : j≠k ∧ ∃ d, blocks j=some d ∧ c=b.closing d:=by
  unfold freed at h
  by_cases hj : j=k
  · rw [hj,Function.update_self] at h
    cases h
  · rw [Function.update_of_ne hj] at h
    obtain ⟨d,hd,rfl⟩:=Option.map_eq_some_iff.mp h
    exact ⟨hj,d,hd,rfl⟩

theorem Packed.take (h : Packed blocks used) (hk : blocks k=none) {size : ℕ} (hsize : 0 < size) :
    Packed (taken blocks k ⟨used,size⟩) (used+size):=by
  constructor
  · intro j c hc
    obtain ⟨-,rfl⟩ | ⟨-,hc⟩:=taken_eq hc
    · exact ⟨hsize,Nat.le_refl _⟩
    · have:=h.inside j c hc
      omega
  · intro i j c d hc hd hne
    unfold Block.Apart
    obtain ⟨rfl,rfl⟩ | ⟨-,hc'⟩:=taken_eq hc <;> obtain ⟨rfl,rfl⟩ | ⟨-,hd'⟩:=taken_eq hd
    · exact absurd rfl hne
    · exact .inr (h.inside j d hd').2
    · exact .inl (h.inside i c hc').2
    · exact h.apart i j c d hc' hd' hne
  · intro a ha
    by_cases hold : a < used
    · obtain ⟨j,c,hc,hcover⟩:=h.filled a hold
      refine ⟨j,c,?_,hcover⟩
      have hj : j≠k:=fun heq=>by rw [heq,hk] at hc; cases hc
      exact (Function.update_of_ne hj _ _).trans hc
    · exact ⟨k,⟨used,size⟩,Function.update_self _ _ _,by unfold Block.Covers; dsimp only; omega⟩

/-- Closing the gap: above it every block moves by its size, and each used cell is covered by what was above. -/
theorem Packed.free (h : Packed blocks used) (hk : blocks k=some b) : Packed (freed blocks k b) (used-b.size):=by
  have hb:=h.inside k b hk
  have hsplit : ∀ j c, blocks j=some c→j≠k→b.Apart c:=fun j c hc hj=>h.apart k j b c hk hc hj.symm
  constructor
  · intro j c hc
    obtain ⟨hj,d,hd,rfl⟩:=freed_eq hc
    have hin:=h.inside j d hd
    have hapart:=hsplit j d hd hj
    unfold Block.Apart at hapart
    unfold Block.closing
    refine ⟨hin.1,?_⟩
    split <;> dsimp only <;> omega
  · intro i j c d hc hd hne
    obtain ⟨hi,c',hc',rfl⟩:=freed_eq hc
    obtain ⟨hj,d',hd',rfl⟩:=freed_eq hd
    have hcd:=h.apart i j c' d' hc' hd' hne
    have hbc:=hsplit i c' hc' hi
    have hbd:=hsplit j d' hd' hj
    unfold Block.Apart at hcd hbc hbd ⊢
    unfold Block.closing
    dsimp only
    split <;> split <;> omega
  · intro a ha
    have hat (x : ℕ) (hx : x < used) (hout : ¬b.Covers x) : ∃ j c, freed blocks k b j=some (b.closing c) ∧ c.Covers x ∧ b.Apart c:=by
      obtain ⟨j,c,hc,hcover⟩:=h.filled x hx
      have hj : j≠k:=fun heq=>by
        rw [heq,hk] at hc
        cases hc
        exact hout hcover
      exact ⟨j,c,by rw [freed,Function.update_of_ne hj,hc,Option.map_some],hcover,hsplit j c hc hj⟩
    by_cases hbelow : a < b.off
    · obtain ⟨j,c,hc,hcover,hapart⟩:=hat a (by omega) (by unfold Block.Covers; omega)
      refine ⟨j,_,hc,?_⟩
      unfold Block.Covers Block.Apart Block.closing at *
      dsimp only
      split <;> omega
    · obtain ⟨j,c,hc,hcover,hapart⟩:=hat (a+b.size) (by omega) (by unfold Block.Covers; omega)
      refine ⟨j,_,hc,?_⟩
      unfold Block.Covers Block.Apart Block.closing at *
      dsimp only
      split <;> omega

theorem Holding.put (h : Holding blocks used mem content) (hk : blocks k=some b) (hsize : data.length=b.size) :
    Holding blocks used (write mem b.off data) (Function.update content k (some data)):=by
  refine ⟨h.toPacked,fun j=>?_⟩
  by_cases hj : j=k
  · rw [hj,hk,Function.update_self,Option.map_some,readAt_write hsize]
  · rw [Function.update_of_ne hj,← h.stored j]
    cases hc : blocks j with
    | none=>rfl
    | some c=>exact congrArg some (readAt_write_apart hsize (h.apart k j b c hk hc (Ne.symm hj)))

theorem Holding.take (h : Holding blocks used mem content) (hk : blocks k=none) (hdata : 0 < data.length) :
    Holding (taken blocks k ⟨used,data.length⟩) (used+data.length) (write mem used data)
      (Function.update content k (some data)):=by
  have hpacked:=h.toPacked.take hk hdata
  have hat : taken blocks k ⟨used,data.length⟩ k=some ⟨used,data.length⟩:=Function.update_self _ _ _
  refine ⟨hpacked,fun j=>?_⟩
  by_cases hj : j=k
  · rw [hj,hat,Function.update_self,Option.map_some]
    exact congrArg some (readAt_write (b:=⟨used,data.length⟩) rfl)
  · rw [taken,Function.update_of_ne hj,Function.update_of_ne hj,← h.stored j]
    cases hc : blocks j with
    | none=>rfl
    | some c=>exact congrArg some (readAt_write_apart (b:=⟨used,data.length⟩) rfl (.inr (h.inside j c hc).2))

theorem Holding.free (h : Holding blocks used mem content) (hk : blocks k=some b) :
    Holding (freed blocks k b) (used-b.size) (closeGap mem used b) (Function.update content k none):=by
  refine ⟨h.toPacked.free hk,fun j=>?_⟩
  by_cases hj : j=k
  · rw [hj,freed,Function.update_self,Function.update_self]
    rfl
  · rw [freed,Function.update_of_ne hj,Function.update_of_ne hj,← h.stored j]
    cases hc : blocks j with
    | none=>rfl
    | some c=>
      exact congrArg some (readAt_closeGap (h.apart k j b c hk hc (Ne.symm hj)) (h.inside k b hk).1 (h.inside j c hc).2)

end

end CdcBadge.Arenas
