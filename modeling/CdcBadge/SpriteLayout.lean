import CdcBadge.SpriteArena

/-!
# Layout of the sprite arena

Every call keeps the arena packed and the slots pointing at it. A call that takes a block,
one that writes a block again and one that frees blocks are each settled once.
-/

namespace CdcBadge.Sprites

open Arenas Runs

variable {x : Watched} {st : SpriteStore} {i : Fin 8} {p : Part} {b : Block} {s : Slot} {data : Bytes}
  {written : ℕ→Part→Option Bytes}

theorem findSlot_some {handle : ℕ} (h : st.findSlot handle=some i) : handle≠0 ∧ (st.slots i).handle=handle:=by
  unfold SpriteStore.findSlot at h
  by_cases hzero : handle=0
  · rw [if_pos hzero] at h
    cases h
  · rw [if_neg hzero] at h
    exact ⟨hzero,by simpa using List.find?_some h⟩

theorem block_moved {off bytes : ℕ} : (s.moved off bytes).block p=(s.block p).map (Block.closing ⟨off,bytes⟩):=by
  unfold Slot.moved
  by_cases hzero : s.handle=0
  · rw [if_pos hzero]
    cases p <;> simp [Slot.block,hzero]
  · rw [if_neg hzero]
    cases p <;> simp only [Slot.block,hzero,if_false,false_or]
    · rfl
    · by_cases hmask : s.hasMask=false
      · simp [hmask]
      · simp [hmask,Block.closing]
    · by_cases hdur : s.hasDur=false
      · simp [hdur]
      · simp [hdur,Block.closing]

theorem moved_handle {off bytes : ℕ} : (s.moved off bytes).handle=s.handle:=by
  unfold Slot.moved
  split <;> rfl

theorem Slot.Shaped.moved (h : s.Shaped) (hb : 0 < b.size) (hapart : ∀ q c, s.block q=some c → 0 < c.size ∧ b.Apart c) :
    (s.moved b.off b.size).Shaped:=by
  by_cases hzero : s.handle=0
  · rwa [Slot.moved,if_pos hzero]
  have hsheet:=hapart .sheet ⟨s.sheetOff,s.bytes⟩ (if_neg hzero)
  rw [Slot.moved,if_neg hzero]
  refine ⟨h.bytes,h.small,h.held,h.frame,fun hmask=>?_,fun hdur=>?_⟩
  · have hmask' : s.hasMask=true:=hmask
    have hb':=hapart .mask ⟨s.maskOff,s.bytes⟩ (by simp [Slot.block,hzero,hmask'])
    simpa [hmask',Block.closing] using closing_lt hsheet.2 hb'.2 hb hsheet.1 (h.mask hmask')
  · have hdur' : s.hasDur=true:=hdur
    have hb':=hapart .dur ⟨s.durOff,s.frameCount.toNat*2⟩ (by simp [Slot.block,hzero,hdur'])
    simpa [hdur',Block.closing] using closing_lt hsheet.2 hb'.2 hb hsheet.1 (h.dur hdur')

/-- The invariant: `Sound`, with what it says of each slot in use instead of each handle. -/
structure Watched.Inv (x : Watched) : Prop where
  packed : Packed x.store.blocks x.store.arenaUsed
  room : x.store.arenaUsed ≤ x.store.arenaCap
  unique : ∀ i j, (x.store.slots i).handle=(x.store.slots j).handle→(x.store.slots i).handle≠0→i=j
  armed : ∀ i, (x.store.slots i).handle≠0→x.store.hasArena=true
  shaped : ∀ i, (x.store.slots i).handle≠0→(x.store.slots i).Shaped
  reads : ∀ i, (x.store.slots i).handle≠0→∀ p, x.store.content (i,p)=x.written (x.store.slots i).handle p
  next : 0 < x.store.nextHandle

theorem holding_content (h : Packed st.blocks st.arenaUsed) : Holding st.blocks st.arenaUsed st.arena st.content:=
  ⟨h,fun _=>rfl⟩

/-- A slot gets a block of new data at the end of what is used. -/
theorem Watched.Inv.take (hx : x.Inv) (st : SpriteStore) (i : Fin 8) (p : Part) (s : Slot) (data : Bytes)
    (row : Part→Option Bytes)
    (hslots : st.slots=Function.update x.store.slots i s) (harena : st.arena=write x.store.arena x.store.arenaUsed data)
    (hused : st.arenaUsed=x.store.arenaUsed+data.length) (hroom : st.arenaUsed ≤ st.arenaCap)
    (harmed : st.hasArena=true) (hnext : 0 < st.nextHandle) (hfree : x.store.blocks (i,p)=none)
    (hblock : s.block p=some ⟨x.store.arenaUsed,data.length⟩) (hrest : ∀ q, q≠p → s.block q=x.store.blocks (i,q))
    (hdata : 0 < data.length) (hshaped : s.Shaped) (hhandle : ∀ j, j≠i→(x.store.slots j).handle≠s.handle)
    (hrow : ∀ q, q≠p→x.store.content (i,q)=row q) :
    Watched.Inv ⟨st,Function.update x.written s.handle (Function.update row p (some data))⟩:=by
  have hother : ∀ j, j≠i → st.slots j=x.store.slots j:=fun j hj=>by rw [hslots,Function.update_of_ne hj]
  have hself : st.slots i=s:=by rw [hslots,Function.update_self]
  have hblocks : st.blocks=taken x.store.blocks (i,p) ⟨x.store.arenaUsed,data.length⟩:=by
    funext ⟨j,q⟩
    unfold taken
    by_cases hj : j=i
    · rw [hj]
      change (st.slots i).block q=_
      rw [hself]
      by_cases hq : q=p
      · rw [hq,Function.update_self,hblock]
      · rw [Function.update_of_ne (by simp [hq]),hrest q hq]
    · rw [Function.update_of_ne (by simp [hj])]
      exact congrArg (Slot.block · q) (hother j hj)
  have hholding:=(holding_content hx.packed).take hfree hdata
  rw [← hblocks,← harena,← hused] at hholding
  refine ⟨hholding.toPacked,hroom,fun j k hjk hlive=>?_,fun j hlive=>harmed,fun j hlive=>?_,fun j hlive q=>?_,hnext⟩
  · dsimp only at hjk hlive
    by_cases hj : j=i <;> by_cases hk : k=i
    · exact hj.trans hk.symm
    · rw [hj,hself,hother k hk] at hjk
      exact absurd hjk.symm (hhandle k hk)
    · rw [hk,hself,hother j hj] at hjk
      exact absurd hjk (hhandle j hj)
    · rw [hother j hj] at hjk hlive
      rw [hother k hk] at hjk
      exact hx.unique j k hjk hlive
  · dsimp only at hlive ⊢
    by_cases hj : j=i
    · rwa [hj,hself]
    · rw [hother j hj] at hlive ⊢
      exact hx.shaped j hlive
  · dsimp only at hlive ⊢
    refine (hholding.stored (j,q)).trans ?_
    by_cases hj : j=i
    · rw [hj,hself,Function.update_self]
      by_cases hq : q=p
      · rw [hq,Function.update_self,Function.update_self]
      · rw [Function.update_of_ne (by simp [hq]),Function.update_of_ne hq,hrow q hq]
    · rw [hother j hj] at hlive ⊢
      rw [Function.update_of_ne (by simp [hj]),Function.update_of_ne (hhandle j hj),hx.reads j hlive q]

/-- The data of a block is written again. -/
theorem Watched.Inv.put (hx : x.Inv) (hblock : x.store.blocks (i,p)=some b) (hsize : data.length=b.size) :
    Watched.Inv ⟨{x.store with arena:=write x.store.arena b.off data},Function.update x.written (x.store.slots i).handle
      (Function.update (x.written (x.store.slots i).handle) p (some data))⟩:=by
  have hholding:=(holding_content hx.packed).put hblock hsize
  refine ⟨hx.packed,hx.room,hx.unique,hx.armed,hx.shaped,fun j hlive q=>?_,hx.next⟩
  refine (hholding.stored (j,q)).trans ?_
  dsimp only at hlive ⊢
  by_cases hj : j=i
  · subst hj
    rw [Function.update_self]
    by_cases hq : q=p
    · rw [hq,Function.update_self,Function.update_self]
    · rw [Function.update_of_ne (by simp [hq]),Function.update_of_ne hq,hx.reads j hlive q]
  · rw [Function.update_of_ne (by simp [hj]),Function.update_of_ne fun h=>hj (hx.unique j i h hlive),hx.reads j hlive q]

/-- The blocks while slot `i` has given some up that are not freed yet. -/
def overlay (st : SpriteStore) (i : Fin 8) (rest : Part→Option Block) (k : Fin 8 × Part) : Option Block:=
  if k.1=i ∧ (rest k.2).isSome then rest k.2 else st.blocks k

/-- On the way through the frees of a call: slot `i` still has to free `rest`. -/
structure Freeing (x : Watched) (i : Fin 8) (st : SpriteStore) (rest : Part→Option Block)
    (content : Fin 8 × Part→Option Bytes) : Prop where
  holding : Holding (overlay st i rest) st.arenaUsed st.arena content
  given : ∀ q, rest q≠none→(st.slots i).block q=none
  handles : ∀ j, (st.slots j).handle≠0→(st.slots j).handle=(x.store.slots j).handle
  room : st.arenaUsed ≤ st.arenaCap
  armed : st.hasArena=x.store.hasArena
  next : 0 < st.nextHandle
  shaped : ∀ j, (st.slots j).handle≠0→(st.slots j).Shaped

variable {rest : Part→Option Block} {content : Fin 8 × Part→Option Bytes}

/-- One `arenaFree`: the blocks still to be freed lie below, so their offsets stay valid. -/
theorem Freeing.free (h : Freeing x i st rest content) (hp : rest p=some b)
    (hlow : ∀ q c, q≠p → rest q=some c → c.off ≤ b.off) :
    Freeing x i (st.arenaFree b.off b.size) (Function.update rest p none) (Function.update content (i,p) none):=by
  have hat : overlay st i rest (i,p)=some b:=by simp [overlay,hp]
  have hb:=(h.holding.inside _ _ hat).1
  have hfree:=h.holding.free hat
  have hst : st.arenaFree b.off b.size={st with
      arena:=closeGap st.arena st.arenaUsed b
      arenaUsed:=st.arenaUsed-b.size
      slots:=fun j=>(st.slots j).moved b.off b.size}:=if_neg (Nat.pos_iff_ne_zero.mp hb)
  have hover : overlay (st.arenaFree b.off b.size) i (Function.update rest p none)=freed (overlay st i rest) (i,p) b:=by
    funext ⟨j,q⟩
    have hmoved : (st.arenaFree b.off b.size).blocks (j,q)=(st.blocks (j,q)).map b.closing:=by
      rw [hst]
      exact block_moved
    unfold freed overlay
    dsimp only
    by_cases hj : j=i
    · subst hj
      by_cases hq : q=p
      · subst hq
        have hnone : st.blocks (j,q)=none:=h.given q (by rw [hp]; exact Option.some_ne_none b)
        rw [Function.update_self,Function.update_self,if_neg (by simp),hmoved,hnone]
        rfl
      · rw [Function.update_of_ne hq,Function.update_of_ne (by simp [hq])]
        cases hc : rest q with
        | none=>simpa using hmoved
        | some c=>simp [Block.closing,not_lt.mpr (hlow q c hq hc)]
    · have hne : (j,q)≠(i,p):=fun heq=>hj (congrArg Prod.fst heq)
      rw [if_neg fun h=>hj h.1,Function.update_of_ne hne,if_neg fun h=>hj h.1]
      exact hmoved
  rw [← hover] at hfree
  rw [hst] at hfree ⊢
  refine ⟨hfree,fun q hq=>?_,fun j hlive=>?_,Nat.le_trans (Nat.sub_le _ _) h.room,h.armed,h.next,fun j hlive=>?_⟩
  · have hq' : rest q≠none:=fun hnone=>by
      by_cases hqp : q=p
      · rw [hqp,Function.update_self] at hq
        exact hq rfl
      · rw [Function.update_of_ne hqp] at hq
        exact hq hnone
    rw [block_moved,h.given q hq']
    rfl
  · dsimp only at hlive ⊢
    rw [moved_handle] at hlive ⊢
    exact h.handles j hlive
  · dsimp only at hlive ⊢
    rw [moved_handle] at hlive
    refine (h.shaped j hlive).moved hb fun q c hc=>?_
    have hkeep : overlay st i rest (j,q)=some c:=by
      unfold overlay
      rw [if_neg]
      · exact hc
      · rintro ⟨rfl,hsome⟩
        have hnone:=h.given q (Option.isSome_iff_ne_none.mp hsome)
        rw [hc] at hnone
        cases hnone
    refine ⟨(h.holding.inside _ _ hkeep).1,h.holding.apart _ _ _ _ hat hkeep ?_⟩
    rintro ⟨⟩
    have hnone:=h.given p (by rw [hp]; exact Option.some_ne_none b)
    rw [hc] at hnone
    cases hnone

theorem Freeing.inv (h : Freeing x i st (fun _=>none) content) (hx : x.Inv)
    (hreads : ∀ j, (st.slots j).handle≠0→∀ p, content (j,p)=written (x.store.slots j).handle p) :
    Watched.Inv ⟨st,written⟩:=by
  have hover : overlay st i (fun _=>none)=st.blocks:=funext fun k=>if_neg (by simp)
  have hholding:=hover ▸ h.holding
  refine ⟨hholding.toPacked,h.room,fun j k hjk hlive=>?_,fun j hlive=>?_,h.shaped,fun j hlive p=>?_,h.next⟩
  · dsimp only at hjk hlive
    have hj:=h.handles j hlive
    have hk:=h.handles k (hjk ▸ hlive)
    rw [hj,hk] at hjk
    exact hx.unique j k hjk (hj ▸ hlive)
  · exact h.armed.trans (hx.armed j (h.handles j hlive ▸ hlive))
  · dsimp only at hlive ⊢
    rw [h.handles j hlive,← hreads j hlive p]
    exact hholding.stored (j,p)

/-- Slot `i` gives up the blocks of `rest` and keeps the others. -/
theorem Watched.Inv.freeing (hx : x.Inv) (i : Fin 8) (s : Slot) (rest : Part→Option Block) (hrest : ∀ q, rest q≠none → rest q=x.store.blocks (i,q) ∧ s.block q=none)
    (hkeep : ∀ q, rest q=none → s.block q=x.store.blocks (i,q)) (hshaped : s.handle≠0 → s.Shaped)
    (hhandle : s.handle≠0 → s.handle=(x.store.slots i).handle) :
    Freeing x i {x.store with slots:=Function.update x.store.slots i s} rest x.store.content:=by
  have hslot : ∀ j, j≠i→(Function.update x.store.slots i s) j=x.store.slots j:=fun j hj=>Function.update_of_ne hj _ _
  have hover : overlay {x.store with slots:=Function.update x.store.slots i s} i rest=x.store.blocks:=by
    funext ⟨j,q⟩
    unfold overlay
    dsimp only
    by_cases hj : j=i
    · subst hj
      by_cases hq : rest q=none
      · rw [if_neg (by simp [hq]),← hkeep q hq]
        exact congrArg (Slot.block · q) (Function.update_self _ _ _)
      · rw [if_pos ⟨rfl,Option.isSome_iff_ne_none.mpr hq⟩,(hrest q hq).1]
    · rw [if_neg (by simp [hj])]
      exact congrArg (Slot.block · q) (hslot j hj)
  refine ⟨hover ▸ holding_content hx.packed,fun q hq=>?_,fun j hlive=>?_,hx.room,rfl,hx.next,fun j hlive=>?_⟩
  · dsimp only
    rw [Function.update_self]
    exact (hrest q hq).2
  · dsimp only at hlive ⊢
    by_cases hj : j=i
    · rw [hj,Function.update_self] at hlive ⊢
      exact hhandle hlive
    · rw [hslot j hj]
  · dsimp only at hlive ⊢
    by_cases hj : j=i
    · rw [hj,Function.update_self] at hlive ⊢
      exact hshaped hlive
    · rw [hslot j hj] at hlive ⊢
      exact hx.shaped j hlive

end CdcBadge.Sprites
