import Mathlib.Data.List.Basic

/-!
# Codecs that refuse

A parser reads values from words, a builder writes words for values, and either may refuse. The words that
the builder gives back and the values that the parser gives back are in bijection. Items with a tag and a length of one byte each are read one after the other.
-/

namespace CdcBadge.Codecs

/-- A parser and a builder between the words `σ` and the values `α`. -/
structure Codec (σ α ε : Type) where
  parse : σ → Except ε α
  build : α → Except ε σ

namespace Codec

variable {σ α ε : Type} (c : Codec σ α ε)

/-- The word is the one that is built for what it is parsed as. -/
def Canonical (s : σ) : Prop:=∃ a, c.parse s=.ok a ∧ c.build a=.ok s

variable {c} {s t : σ} {a : α}

theorem canonical_iff (ha : c.parse s=.ok a) : c.Canonical s ↔ c.build a=.ok s:=by
  constructor
  · rintro ⟨b,hb,hs⟩
    cases ha.symm.trans hb
    exact hs
  · exact fun hs=>⟨a,ha,hs⟩

theorem Canonical.unique (hs : c.Canonical s) (ht : c.Canonical t) (ha : c.parse s=.ok a)
    (hb : c.parse t=.ok a) : s=t:=by
  have h:=((canonical_iff ha).mp hs).symm.trans ((canonical_iff hb).mp ht)
  cases h
  rfl

end Codec

abbrev Item:=UInt8 × List UInt8

def Item.encode (item : Item) : List UInt8:=item.1::UInt8.ofNat item.2.length::item.2

def encodeAll (items : List Item) : List UInt8:=items.flatMap Item.encode

def split : ℕ → List UInt8→Option (List Item)
  | _, []=>some []
  | fuel+1, tag::len::rest=>
    if rest.length < len.toNat then none
    else (split fuel (rest.drop len.toNat)).map fun items=>(tag,rest.take len.toNat)::items
  | _, _=>none

def readItems {α ε : Type} (take : Item → α → Except ε α) (cut : ε) : ℕ → List UInt8 → α → Except ε α
  | _, [], a=>.ok a
  | fuel+1, tag::len::rest, a=>
    if rest.length < len.toNat then .error cut
    else (take (tag,rest.take len.toNat) a).bind (readItems take cut fuel (rest.drop len.toNat))
  | _, _, _=>.error cut

section Items

variable {α ε : Type} {items : List Item} {bs : List UInt8} {fuel : ℕ}

@[simp] theorem encodeAll_nil : encodeAll []=[]:=rfl

@[simp] theorem encodeAll_cons (item : Item) : encodeAll (item::items)=item.encode++encodeAll items:=rfl

theorem Item.encode_length (item : Item) : item.encode.length=item.2.length+2:=rfl

theorem length_le_encodeAll (items : List Item) : items.length ≤ (encodeAll items).length:=by
  induction items with
  | nil=>exact Nat.le_refl _
  | cons item items ih=>
    rw [encodeAll_cons,List.length_append,item.encode_length,List.length_cons]
    omega

theorem split_encodeAll (hfuel : items.length ≤ fuel) (hlen : ∀ item∈items, item.2.length < 256) :
    split fuel (encodeAll items)=some items:=by
  induction items generalizing fuel with
  | nil=>cases fuel <;> rfl
  | cons item items ih=>
    obtain ⟨tag,value⟩:=item
    obtain ⟨fuel,rfl⟩ : ∃ n, fuel=n+1:=⟨fuel-1,by simp at hfuel; omega⟩
    have hvalue : (UInt8.ofNat value.length).toNat=value.length:=by
      rw [UInt8.toNat_ofNat']
      exact Nat.mod_eq_of_lt (hlen _ List.mem_cons_self)
    have hrest:=ih (Nat.le_of_succ_le_succ hfuel) fun item h=>hlen item (List.mem_cons_of_mem _ h)
    simp only [encodeAll_cons,Item.encode,List.cons_append,split,hvalue,List.length_append]
    rw [if_neg (by omega),List.drop_left,List.take_left,hrest]
    rfl

theorem encodeAll_of_split (h : split fuel bs=some items) :
    encodeAll items=bs ∧ ∀ item∈items, item.2.length < 256:=by
  induction fuel generalizing bs items with
  | zero=>
    cases bs with
    | nil=>
      cases h
      exact ⟨rfl,by simp⟩
    | cons b bs=>simp [split] at h
  | succ fuel ih=>
    rcases bs with _ | ⟨tag,_ | ⟨len,rest⟩⟩
    · cases h
      exact ⟨rfl,by simp⟩
    · cases h
    · simp only [split] at h
      by_cases hcut : rest.length < len.toNat
      · rw [if_pos hcut] at h
        cases h
      · rw [if_neg hcut,Option.map_eq_some_iff] at h
        obtain ⟨items,hitems,rfl⟩:=h
        obtain ⟨hrest,hshort⟩:=ih hitems
        have htake : (rest.take len.toNat).length=len.toNat:=by
          rw [List.length_take]
          omega
        constructor
        · simp [Item.encode,htake,hrest]
        · rintro item hitem
          rcases List.mem_cons.mp hitem with rfl | hitem
          · have hbyte:=len.toNat_lt
            simpa [htake] using hbyte
          · exact hshort item hitem

/-- A string is read as the items that it splits into, and the items are taken up in order. -/
theorem readItems_ok_iff {take : Item → α → Except ε α} {cut : ε} {a b : α} :
    readItems take cut fuel bs a=.ok b ↔
      ∃ items, split fuel bs=some items ∧ items.foldlM (fun a item=>take item a) a=.ok b:=by
  induction fuel generalizing bs a with
  | zero=>
    cases bs with
    | nil=>simp [readItems,split,pure,Except.pure]
    | cons b' bs=>simp [readItems,split]
  | succ fuel ih=>
    rcases bs with _ | ⟨tag,_ | ⟨len,rest⟩⟩
    · simp [readItems,split,pure,Except.pure]
    · simp [readItems,split]
    · by_cases hcut : rest.length < len.toNat
      · simp [readItems,split,hcut]
      · simp only [readItems,split,if_neg hcut]
        cases htake : take (tag,rest.take len.toNat) a with
        | error e=>
          simp only [Except.bind,reduceCtorEq,false_iff,Option.map_eq_some_iff]
          rintro ⟨_,⟨items,-,rfl⟩,hfold⟩
          simp [List.foldlM_cons,htake,bind,Except.bind] at hfold
        | ok c=>
          simp only [Except.bind,ih,Option.map_eq_some_iff]
          constructor
          · rintro ⟨items,hitems,hfold⟩
            refine ⟨_,⟨items,hitems,rfl⟩,?_⟩
            simpa [List.foldlM_cons,htake,bind,Except.bind] using hfold
          · rintro ⟨_,⟨items,hitems,rfl⟩,hfold⟩
            refine ⟨items,hitems,?_⟩
            simpa [List.foldlM_cons,htake,bind,Except.bind] using hfold

end Items

end CdcBadge.Codecs
