import Mathlib.Data.List.Perm.Basic
import Mathlib.Data.List.Nodup

/-!
# Values under names

A finite store of values under names, each of which stands for one value. Writing replaces
the value of a name as a whole, and the entries come in no particular order.
-/

namespace CdcBadge

structure NamedBlobs (N V : Type) where
  entries : List (N × V):=[]
  nodup : (entries.map Prod.fst).Nodup:=by simp

namespace NamedBlobs

variable {N V : Type} [DecidableEq N]

def read (s : NamedBlobs N V) (name : N) : Option V:=(s.entries.find? fun e=>e.1=name).map Prod.snd

def values (s : NamedBlobs N V) : List V:=s.entries.map Prod.snd

def erase (s : NamedBlobs N V) (name : N) : NamedBlobs N V where
  entries:=s.entries.filter fun e=>e.1≠name
  nodup:=s.nodup.sublist (List.filter_sublist.map _)

def write (s : NamedBlobs N V) (name : N) (v : V) : NamedBlobs N V where
  entries:=(name,v)::(s.erase name).entries
  nodup:=by
    rw [List.map_cons,List.nodup_cons]
    exact ⟨by simp [erase],(s.erase name).nodup⟩

variable {s : NamedBlobs N V} {name : N} {v : V} {e : N × V}

@[simp] theorem mem_erase : e∈(s.erase name).entries ↔ e∈s.entries ∧ e.1≠name:=by simp [erase]

@[simp] theorem mem_write : e∈(s.write name v).entries ↔ e=(name,v) ∨ e∈s.entries ∧ e.1≠name:=by
  simp [write]

theorem read_none : s.read name=none ↔ ∀ e∈s.entries, e.1≠name:=by
  unfold read
  rw [Option.map_eq_none_iff,List.find?_eq_none]
  simp

theorem read_of_mem (he : e∈s.entries) : s.read e.1=some e.2:=by
  obtain ⟨entries,hnodup⟩:=s
  unfold read
  dsimp only at hnodup he ⊢
  induction entries with
  | nil=>cases he
  | cons e' entries ih=>
    obtain ⟨hnot,hnodup⟩:=List.nodup_cons.mp hnodup
    rcases List.mem_cons.mp he with rfl | he
    · rw [List.find?_cons_of_pos (by simp)]
      rfl
    · have hne : e'.1≠e.1:=fun h=>hnot (by rw [h]; exact List.mem_map_of_mem he)
      rw [List.find?_cons_of_neg (by simpa using hne)]
      exact ih hnodup he

theorem length_erase_le : (s.erase name).entries.length ≤ s.entries.length:=List.length_filter_le _ _

theorem length_write_le {n : ℕ} (hs : s.entries.length ≤ n) (hroom : s.read name≠none ∨ s.entries.length < n) :
    (s.write name v).entries.length ≤ n:=by
  change (s.erase name).entries.length+1 ≤ n
  rcases hroom with hread | hlt
  · have hex : ∃ e∈s.entries, e.1=name:=by
      by_contra hcon
      exact hread (read_none.mpr fun e he hname=>hcon ⟨e,he,hname⟩)
    obtain ⟨e,he,hname⟩:=hex
    have hlt : (s.erase name).entries.length < s.entries.length:=
      List.length_filter_lt_length_iff_exists.mpr ⟨e,he,by simpa using hname⟩
    omega
  · have hle : (s.erase name).entries.length ≤ s.entries.length:=length_erase_le
    omega

end NamedBlobs

end CdcBadge
