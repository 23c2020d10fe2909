import CdcBadge.SpriteLayout

/-!
# Runs of the sprite store

The layout of the arena after any calls: what `create`, `setMask`, `setFrameDurations` and
`destroy` each do to it, and the sheet whose size does not fit in 32 bits.
-/

namespace CdcBadge.Sprites

open Arenas Runs

variable {x : Watched} {st : SpriteStore} {i : Fin 8} {handle : ℕ}

theorem arenaAlloc_granted {n : ℕ} (hg : st.Grants n) (hc : st.Counted n) :
    st.arenaAlloc n=(some st.arenaUsed,{st with arenaUsed:=st.arenaUsed+n}):=by
  unfold SpriteStore.arenaAlloc
  rw [if_neg (by simpa [hg.1] using hg.2),if_pos hc.1,Nat.mod_eq_of_lt hc.2]

theorem arenaAlloc_refused {n : ℕ} (hg : ¬st.Grants n) : st.arenaAlloc n=(none,st):=by
  unfold SpriteStore.arenaAlloc
  rw [if_pos]
  unfold SpriteStore.Grants at hg
  cases harena : st.hasArena with
  | false=>exact .inl rfl
  | true=>exact .inr (Nat.lt_of_not_le fun hle=>hg ⟨harena,hle⟩)

theorem granted_room {n : ℕ} (hg : st.Grants n) (hc : st.Counted n) : st.arenaUsed+n ≤ st.arenaCap:=by
  have hle:=hg.2
  rwa [Nat.mod_eq_of_lt hc.2] at hle

theorem durationBytes_length (ms : List UInt16) : (durationBytes ms).length=ms.length*2:=by
  induction ms with
  | nil=>rfl
  | cons d ms ih=>
    simp only [durationBytes,List.flatMap_cons,List.length_append,List.length_cons,List.length_nil] at ih ⊢
    omega

theorem written_sheet (hx : x.Inv) (hlive : (x.store.slots i).handle≠0) :
    ((x.written (x.store.slots i).handle .sheet).getD []).length=(x.store.slots i).bytes:=by
  rw [← hx.reads i hlive,SpriteStore.content,SpriteStore.blocks,Slot.block,if_neg hlive]
  simp [readAt]

def durBlock (s : Slot) : Block:=⟨s.durOff,s.frameCount.toNat*2⟩

/-- Taking the durations off a sprite before or after their block is freed comes to the same. -/
theorem arenaFree_drop (hlive : (st.slots i).handle≠0) (hpos : 0 < (st.slots i).frameCount.toNat*2) :
    let freed:=st.arenaFree (st.slots i).durOff ((st.slots i).frameCount.toNat*2)
    {freed with slots:=Function.update freed.slots i {freed.slots i with hasDur:=false}} =
      SpriteStore.arenaFree {st with slots:=Function.update st.slots i {st.slots i with hasDur:=false}}
        (durBlock (st.slots i)).off (durBlock (st.slots i)).size:=by
  intro freed
  have hne:=Nat.pos_iff_ne_zero.mp hpos
  have hslots : Function.update (fun j=>(st.slots j).moved (st.slots i).durOff ((st.slots i).frameCount.toNat*2)) i
      {(st.slots i).moved (st.slots i).durOff ((st.slots i).frameCount.toNat*2) with hasDur:=false} =
      fun j=>((Function.update st.slots i {st.slots i with hasDur:=false}) j).moved (st.slots i).durOff
        ((st.slots i).frameCount.toNat*2):=by
    funext j
    by_cases hj : j=i
    · subst hj
      rw [Function.update_self,Function.update_self]
      simp [Slot.moved,hlive]
    · rw [Function.update_of_ne hj,Function.update_of_ne hj]
  dsimp only at hslots
  simp only [freed,SpriteStore.arenaFree,durBlock,if_neg hne,hslots]
  exact (if_neg hne).symm

theorem Watched.Inv.create {w h frameCount : UInt16} {data : Option Bytes} (hx : x.Inv)
    (hheeds : Heeds x (.create w h frameCount data)) : (x.step (.create w h frameCount data)).Inv:=by
  have hstay : ∀ r, r ≤ 0→x.store.create w h frameCount data=(r,x.store) →
      (x.step (.create w h frameCount data)).Inv:=fun r hr heq=>by
    rw [Watched.step,heq]
    simpa [not_lt.mpr hr] using hx
  cases data with
  | none=>exact hstay 0 le_rfl rfl
  | some data=>
    by_cases hbad : w=0 ∨ h=0 ∨ frameCount=0 ∨ maxFrames < frameCount
    · exact hstay 0 le_rfl (by simp only [SpriteStore.create,if_pos hbad])
    have hgood : w≠0 ∧ h≠0 ∧ frameCount≠0 ∧ frameCount ≤ maxFrames:=by simpa [not_or] using hbad
    cases hfree : x.store.freeSlot with
    | none=>exact hstay (-1) (by decide) (by simp only [SpriteStore.create,if_neg hbad,hfree])
    | some i=>
      by_cases hlen : sheetBytes w h frameCount % 2^32=0 ∨ data.length < sheetBytes w h frameCount % 2^32
      · exact hstay 0 le_rfl (by simp only [SpriteStore.create,if_neg hbad,hfree,if_pos hlen])
      by_cases hg : x.store.Grants (sheetBytes w h frameCount % 2^32)
      swap
      · exact hstay (-1) (by decide)
          (by simp only [SpriteStore.create,if_neg hbad,hfree,if_neg hlen,arenaAlloc_refused hg])
      obtain ⟨hsize,hcounted,hfresh⟩:=hheeds _ rfl (by omega) hgood.1 hgood.2.1 hgood.2.2.1 hgood.2.2.2
        (by simp [hfree]) ⟨data,rfl,by omega⟩ hg
      rw [Nat.mod_eq_of_lt hsize] at hlen hg hcounted
      have hzero : (x.store.slots i).handle=0:=by simpa using List.find?_some hfree
      have htaken : (data.take (sheetBytes w h frameCount)).length=sheetBytes w h frameCount:=by
        rw [List.length_take]
        omega
      have hinv:=hx.take
        {x.store with
          arenaUsed:=x.store.arenaUsed+sheetBytes w h frameCount
          arena:=write x.store.arena x.store.arenaUsed (data.take (sheetBytes w h frameCount))
          slots:=Function.update x.store.slots i
            {handle:=x.store.nextHandle,sheetOff:=x.store.arenaUsed,bytes:=sheetBytes w h frameCount,w,h,frameCount}
          nextHandle:=if 0xFFFF < x.store.nextHandle+1 then 1 else x.store.nextHandle+1}
        i .sheet {handle:=x.store.nextHandle,sheetOff:=x.store.arenaUsed,bytes:=sheetBytes w h frameCount,w,h,frameCount}
        (data.take (sheetBytes w h frameCount)) (fun _=>none) rfl rfl (by rw [htaken]) (granted_room hg hcounted) hg.1 (by dsimp only; split <;> omega)
        (by simp [SpriteStore.blocks,Slot.block,hzero])
        (by rw [htaken]; exact if_neg (Nat.pos_iff_ne_zero.mp hx.next))
        (fun q hq=>by cases q <;> simp [SpriteStore.blocks,Slot.block,hzero] at hq ⊢) (by omega)
        ⟨rfl,hsize,by dsimp only; omega,UInt16.pos_iff_ne_zero.mpr hgood.2.2.1,nofun,nofun⟩ (fun j _=>hfresh j)
        (fun q _=>by cases q <;> simp [SpriteStore.content,SpriteStore.blocks,Slot.block,hzero])
      have hpos : (0 : ℤ) < x.store.nextHandle:=Int.natCast_pos.mpr hx.next
      unfold Watched.step
      simp only [SpriteStore.create,if_neg hbad,hfree,Nat.mod_eq_of_lt hsize,if_neg hlen,arenaAlloc_granted hg hcounted,
        hpos,if_true,Int.toNat_natCast,Option.map_some]
      exact hinv

theorem Watched.Inv.setMask {mask : Option Bytes} (hx : x.Inv) (hheeds : Heeds x (.setMask handle mask)) :
    (x.step (.setMask handle mask)).Inv:=by
  have hstay : x.store.setMask handle mask=(false,x.store)→(x.step (.setMask handle mask)).Inv:=fun heq=>by
    rw [Watched.step,heq]
    exact hx
  cases hfind : x.store.findSlot handle with
  | none=>exact hstay (by simp only [SpriteStore.setMask,hfind])
  | some i=>
    obtain ⟨hlive,rfl⟩:=findSlot_some hfind
    have hsheet:=written_sheet hx hlive
    cases mask with
    | none=>exact hstay (by simp only [SpriteStore.setMask,hfind])
    | some mask=>
      by_cases hlen : mask.length < (x.store.slots i).bytes
      · exact hstay (by simp only [SpriteStore.setMask,hfind,if_pos hlen])
      have htaken : (mask.take (x.store.slots i).bytes).length=(x.store.slots i).bytes:=by
        rw [List.length_take]
        omega
      by_cases hmask : (x.store.slots i).hasMask=true
      · have hput:=hx.put (i:=i) (p:=.mask) (b:=⟨(x.store.slots i).maskOff,(x.store.slots i).bytes⟩)
          (by simp [SpriteStore.blocks,Slot.block,hlive,hmask]) htaken
        unfold Watched.step
        simp only [SpriteStore.setMask,hfind,if_neg hlen,if_pos hmask,if_true,Option.map_some,hsheet]
        exact hput
      have hnone:=Bool.eq_false_of_not_eq_true hmask
      by_cases hg : x.store.Grants (x.store.slots i).bytes
      swap
      · exact hstay (by simp only [SpriteStore.setMask,hfind,if_neg hlen,if_neg hmask,arenaAlloc_refused hg])
      have hcounted:=hheeds i hfind hnone ⟨mask,rfl,Nat.le_of_not_lt hlen⟩ hg
      have hshaped:=hx.shaped i hlive
      have hbelow:=(hx.packed.inside (i,.sheet) ⟨(x.store.slots i).sheetOff,(x.store.slots i).bytes⟩ (if_neg hlive))
      have hinv:=hx.take
        {x.store with
          arenaUsed:=x.store.arenaUsed+(x.store.slots i).bytes
          arena:=write x.store.arena x.store.arenaUsed (mask.take (x.store.slots i).bytes)
          slots:=Function.update x.store.slots i {x.store.slots i with maskOff:=x.store.arenaUsed,hasMask:=true}}
        i .mask {x.store.slots i with maskOff:=x.store.arenaUsed,hasMask:=true} (mask.take (x.store.slots i).bytes)
        (x.written (x.store.slots i).handle) rfl rfl (by rw [htaken]) (granted_room hg hcounted) hg.1 hx.next
        (by simp [SpriteStore.blocks,Slot.block,hnone]) (by rw [htaken]; simp [Slot.block,hlive])
        (fun q hq=>by cases q <;> simp [SpriteStore.blocks,Slot.block] at hq ⊢) (by rw [htaken]; exact hshaped.held)
        ⟨hshaped.bytes,hshaped.small,hshaped.held,hshaped.frame,fun _=>by dsimp only at hbelow ⊢; omega,hshaped.dur⟩
        (fun j hj h=>hj (hx.unique j i h (h ▸ hlive))) (fun q _=>hx.reads i hlive q)
      unfold Watched.step
      simp only [SpriteStore.setMask,hfind,if_neg hlen,if_neg hmask,arenaAlloc_granted hg hcounted,if_true,Option.map_some,
        hsheet]
      exact hinv

theorem Watched.Inv.setFrameDurations {count : UInt16} {ms : Option (Fin count.toNat→UInt16)} (hx : x.Inv)
    (hheeds : Heeds x (.setFrameDurations handle count ms)) : (x.step (.setFrameDurations handle count ms)).Inv:=by
  have hstay : x.store.setFrameDurations handle count ms=(false,x.store) →
      (x.step (.setFrameDurations handle count ms)).Inv:=fun heq=>by
    rw [Watched.step,heq]
    exact hx
  cases hfind : x.store.findSlot handle with
  | none=>exact hstay (by simp only [SpriteStore.setFrameDurations,hfind])
  | some i=>
    obtain ⟨hlive,rfl⟩:=findSlot_some hfind
    have hshaped:=hx.shaped i hlive
    have hbelow:=(hx.packed.inside (i,.sheet) ⟨(x.store.slots i).sheetOff,(x.store.slots i).bytes⟩ (if_neg hlive))
    by_cases hcount : count=0
    · cases hdur : (x.store.slots i).hasDur with
      | false=>
        have hnone : x.written (x.store.slots i).handle .dur=none:=by
          rw [← hx.reads i hlive,SpriteStore.content,SpriteStore.blocks,Slot.block,if_pos (.inr hdur)]
          rfl
        unfold Watched.step
        simp only [SpriteStore.setFrameDurations,hfind,if_pos hcount,hdur,Bool.false_eq_true,if_false,if_true]
        rw [← hnone,Function.update_eq_self,Function.update_eq_self]
        exact hx
      | true=>
        have hblock : x.store.blocks (i,.dur)=some (durBlock (x.store.slots i)):=by
          simp [SpriteStore.blocks,Slot.block,durBlock,hlive,hdur]
        have hstart:=hx.freeing i {x.store.slots i with hasDur:=false}
          (Function.update (fun _=>none) .dur (some (durBlock (x.store.slots i))))
          (fun q hq=>by cases q <;> simp [Slot.block,hblock] at hq ⊢)
          (fun q hq=>by cases q <;> simp [SpriteStore.blocks,Slot.block] at hq ⊢)
          (fun _=>⟨hshaped.bytes,hshaped.small,hshaped.held,hshaped.frame,hshaped.mask,fun h=>Bool.noConfusion h⟩) fun _=>rfl
        have hend:=hstart.free (p:=.dur) (Function.update_self _ _ _) fun q c hq hc=>by
          rw [Function.update_of_ne hq] at hc
          cases hc
        rw [Function.update_idem,Function.update_eq_self] at hend
        unfold Watched.step
        simp only [SpriteStore.setFrameDurations,hfind,if_pos hcount,hdur,if_true]
        have hpos : 0 < (x.store.slots i).frameCount.toNat*2:=(hx.packed.inside _ _ hblock).1
        rw [arenaFree_drop hlive hpos]
        refine hend.inv hx fun j hj q=>?_
        have hj' : (x.store.slots j).handle≠0:=hend.handles j hj ▸ hj
        by_cases hji : j=i
        · rw [hji,Function.update_self]
          by_cases hq : q=.dur
          · rw [hq,Function.update_self,Function.update_self]
          · rw [Function.update_of_ne (by simp [hq]),Function.update_of_ne hq,hx.reads i hlive q]
        · rw [Function.update_of_ne (by simp [hji]),Function.update_of_ne fun h=>hji (hx.unique j i h hj'),hx.reads j hj' q]
    cases ms with
    | none=>exact hstay (by simp only [SpriteStore.setFrameDurations,hfind,if_neg hcount])
    | some ms=>
      by_cases hsame : count≠(x.store.slots i).frameCount
      · exact hstay (by simp only [SpriteStore.setFrameDurations,hfind,if_neg hcount,if_pos hsame])
      have hframes : count=(x.store.slots i).frameCount:=not_not.mp hsame
      have hlen : (durationBytes (List.ofFn ms)).length=count.toNat*2:=by
        rw [durationBytes_length,List.length_ofFn]
      by_cases hdur : (x.store.slots i).hasDur=true
      · have hput:=hx.put (i:=i) (p:=.dur) (b:=⟨(x.store.slots i).durOff,(x.store.slots i).frameCount.toNat*2⟩)
          (by simp [SpriteStore.blocks,Slot.block,hlive,hdur]) (hlen.trans (by rw [hframes]))
        unfold Watched.step
        simp only [SpriteStore.setFrameDurations,hfind,if_neg hcount,if_neg hsame,if_pos hdur,if_true,Option.map_some]
        exact hput
      have hnone:=Bool.eq_false_of_not_eq_true hdur
      by_cases hg : x.store.Grants (count.toNat*2)
      swap
      · exact hstay (by simp only [SpriteStore.setFrameDurations,hfind,if_neg hcount,if_neg hsame,if_neg hdur,
          arenaAlloc_refused hg])
      have hcounted:=hheeds i hfind hnone hcount hframes (Option.some_ne_none ms) hg
      have hpos : 0 < count.toNat:=UInt16.pos_iff_ne_zero.mpr hcount
      have hinv:=hx.take
        {x.store with
          arenaUsed:=x.store.arenaUsed+count.toNat*2
          arena:=write x.store.arena x.store.arenaUsed (durationBytes (List.ofFn ms))
          slots:=Function.update x.store.slots i {x.store.slots i with durOff:=x.store.arenaUsed,hasDur:=true}}
        i .dur {x.store.slots i with durOff:=x.store.arenaUsed,hasDur:=true} (durationBytes (List.ofFn ms))
        (x.written (x.store.slots i).handle) rfl rfl (by rw [hlen]) (granted_room hg hcounted) hg.1 hx.next
        (by simp [SpriteStore.blocks,Slot.block,hnone]) (by rw [hlen]; simp [Slot.block,hlive,hframes])
        (fun q hq=>by cases q <;> simp [SpriteStore.blocks,Slot.block] at hq ⊢) (by omega)
        ⟨hshaped.bytes,hshaped.small,hshaped.held,hshaped.frame,hshaped.mask,fun _=>by dsimp only at hbelow ⊢; omega⟩
        (fun j hj h=>hj (hx.unique j i h (h ▸ hlive))) (fun q _=>hx.reads i hlive q)
      unfold Watched.step
      simp only [SpriteStore.setFrameDurations,hfind,if_neg hcount,if_neg hsame,if_neg hdur,arenaAlloc_granted hg hcounted,
        if_true,Option.map_some]
      exact hinv

theorem freeBlocks_two {b c : Block} (h : b.off < c.off) :
    SpriteStore.freeBlocks 2 [b,c] st=(st.arenaFree c.off c.size).arenaFree b.off b.size:=by
  simp [SpriteStore.freeBlocks,highest,h]

/-- The lowest block comes first in the list, so a block already freed, which is left at offset 0, is not taken again. -/
theorem freeBlocks_three {b c d : Block} (hc : b.off < c.off) (hd : b.off < d.off) :
    SpriteStore.freeBlocks 3 [b,c,d] st=if c.off < d.off
      then ((st.arenaFree d.off d.size).arenaFree c.off c.size).arenaFree b.off b.size
      else ((st.arenaFree c.off c.size).arenaFree d.off d.size).arenaFree b.off b.size:=by
  by_cases h : c.off < d.off <;> simp [SpriteStore.freeBlocks,highest,List.range',hc,hd,h]

/-- The frees of `destroy` leave slot `i` without blocks. -/
theorem Watched.Inv.freed (hx : x.Inv) (hlive : (x.store.slots i).handle≠0) :
    let s:=x.store.slots i
    let blocks:=[⟨s.sheetOff,s.bytes⟩]++(if s.hasMask then [⟨s.maskOff,s.bytes⟩] else [])++
      (if s.hasDur then [⟨s.durOff,s.frameCount.toNat*2⟩] else [])
    Freeing x i (.freeBlocks blocks.length blocks {x.store with slots:=Function.update x.store.slots i {}}) (fun _=>none)
      fun k=>if k.1=i then none else x.store.content k:=by
  intro s blocks
  have hshaped:=hx.shaped i hlive
  have hstart:=hx.freeing i {} s.block (fun q _=>⟨rfl,by cases q <;> rfl⟩)
    (fun q hq=>by rw [SpriteStore.blocks,hq]; cases q <;> rfl) (fun h=>absurd rfl h) fun h=>absurd rfl h
  have hsheet : s.block .sheet=some ⟨s.sheetOff,s.bytes⟩:=if_neg hlive
  have hnone : ∀ q, s.block q=none→x.store.content (i,q)=none:=fun q hq=>by
    rw [SpriteStore.content,SpriteStore.blocks,hq]
    rfl
  have hclose : ∀ {st rest content}, Freeing x i st rest content→(∀ q, rest q=none)→(∀ q, content (i,q)=none) →
      (∀ j q, j≠i → content (j,q)=x.store.content (j,q)) →
      Freeing x i st (fun _=>none) fun k=>if k.1=i then none else x.store.content k:=by
    intro st rest content h hrest hself hother
    have hcontent : content=fun k=>if k.1=i then none else x.store.content k:=by
      funext ⟨j,q⟩
      by_cases hj : j=i
      · exact (hj ▸ hself q).trans (if_pos hj).symm
      · exact (hother j q hj).trans (if_neg hj).symm
    rw [← hcontent]
    exact (funext hrest : rest=fun _=>none) ▸ h
  cases hmask : s.hasMask with
  | false=>
    have hnomask : s.block .mask=none:=if_pos (.inr hmask)
    cases hdur : s.hasDur with
    | false=>
      have hnodur : s.block .dur=none:=if_pos (.inr hdur)
      have hblocks : blocks=[⟨s.sheetOff,s.bytes⟩]:=by simp [blocks,hmask,hdur]
      rw [hblocks]
      refine hclose (hstart.free hsheet fun q c hq hc=>?_) (fun q=>?_) (fun q=>?_) fun j q hj=>by simp [hj]
      · cases q <;> simp [hnomask,hnodur] at hq hc
      · cases q <;> simp [hnomask,hnodur]
      · cases q <;> simp [hnone,hnomask,hnodur]
    | true=>
      have hlow:=hshaped.dur hdur
      have hdurs : s.block .dur=some (durBlock s):=by simp [Slot.block,durBlock,hdur,s,hlive]
      have hblocks : blocks=[⟨s.sheetOff,s.bytes⟩,durBlock s]:=by simp [blocks,durBlock,hmask,hdur]
      rw [hblocks,List.length_cons,List.length_cons,List.length_nil,freeBlocks_two hlow]
      refine hclose ((hstart.free hdurs fun q c hq hc=>?_).free (p:=.sheet) (by simpa using hsheet) fun q c hq hc=>?_)
        (fun q=>?_) (fun q=>?_) fun j q hj=>by simp [hj]
      · cases q <;> simp [hsheet,hnomask] at hq hc
        exact hc ▸ hlow.le
      · cases q <;> simp [hnomask] at hq hc
      · cases q <;> simp [hnomask]
      · cases q <;> simp [hnone,hnomask]
  | true=>
    have hlowmask:=hshaped.mask hmask
    have hmasks : s.block .mask=some ⟨s.maskOff,s.bytes⟩:=by simp [Slot.block,hmask,s,hlive]
    cases hdur : s.hasDur with
    | false=>
      have hnodur : s.block .dur=none:=if_pos (.inr hdur)
      have hblocks : blocks=[⟨s.sheetOff,s.bytes⟩,⟨s.maskOff,s.bytes⟩]:=by simp [blocks,hmask,hdur]
      rw [hblocks,List.length_cons,List.length_cons,List.length_nil,freeBlocks_two hlowmask]
      refine hclose ((hstart.free hmasks fun q c hq hc=>?_).free (p:=.sheet) (by simpa using hsheet) fun q c hq hc=>?_)
        (fun q=>?_) (fun q=>?_) fun j q hj=>by simp [hj]
      · cases q <;> simp [hsheet,hnodur] at hq hc
        exact hc ▸ hlowmask.le
      · cases q <;> simp [hnodur] at hq hc
      · cases q <;> simp [hnodur]
      · cases q <;> simp [hnone,hnodur]
    | true=>
      have hlow:=hshaped.dur hdur
      have hdurs : s.block .dur=some (durBlock s):=by simp [Slot.block,durBlock,hdur,s,hlive]
      have hblocks : blocks=[⟨s.sheetOff,s.bytes⟩,⟨s.maskOff,s.bytes⟩,durBlock s]:=by
        simp [blocks,durBlock,hmask,hdur]
      rw [hblocks,List.length_cons,List.length_cons,List.length_cons,List.length_nil,freeBlocks_three hlowmask hlow]
      by_cases horder : s.maskOff < (durBlock s).off
      · rw [if_pos horder]
        refine hclose (((hstart.free hdurs fun q c hq hc=>?_).free (p:=.mask) (by simpa using hmasks) fun q c hq hc=>?_).free
          (p:=.sheet) (by simpa using hsheet) fun q c hq hc=>?_) (fun q=>?_) (fun q=>?_) fun j q hj=>by simp [hj]
        · cases q <;> simp [hsheet,hmasks] at hq hc
          · exact hc ▸ hlow.le
          · exact hc ▸ horder.le
        · cases q <;> simp [hsheet] at hq hc
          exact hc ▸ hlowmask.le
        all_goals cases q <;> simp at *
      · rw [if_neg horder]
        refine hclose (((hstart.free hmasks fun q c hq hc=>?_).free (p:=.dur) (by simpa using hdurs) fun q c hq hc=>?_).free
          (p:=.sheet) (by simpa using hsheet) fun q c hq hc=>?_) (fun q=>?_) (fun q=>?_) fun j q hj=>by simp [hj]
        · cases q <;> simp [hsheet,hdurs] at hq hc
          · exact hc ▸ hlowmask.le
          · exact hc ▸ Nat.le_of_not_lt horder
        · cases q <;> simp [hsheet] at hq hc
          exact hc ▸ hlow.le
        all_goals cases q <;> simp at *

theorem Watched.Inv.destroy (hx : x.Inv) : (x.step (.destroy handle)).Inv:=by
  unfold Watched.step
  cases hfind : x.store.findSlot handle with
  | none=>
    simp only [SpriteStore.destroy,hfind,Bool.false_eq_true,if_false]
    exact hx
  | some i=>
    obtain ⟨hlive,rfl⟩:=findSlot_some hfind
    have hfreed:=hx.freed hlive
    simp only [SpriteStore.destroy,hfind,if_true]
    refine hfreed.inv hx fun j hj q=>?_
    have hj' : (x.store.slots j).handle≠0:=hfreed.handles j hj ▸ hj
    by_cases hji : j=i
    · rw [if_pos hji,hji,Function.update_self]
    · rw [if_neg hji,Function.update_of_ne fun h=>hji (hx.unique j i h hj'),hx.reads j hj' q]

/-- A store over a new arena. -/
def Watched.start (buf : Option (ℕ→UInt8)) (cap : ℕ) : Watched:={store:=SpriteStore.setArena {} buf cap}

theorem packed_emptied (hslots : st.slots=fun _=>{}) (hused : st.arenaUsed=0) : Packed st.blocks st.arenaUsed:=by
  have hblocks : st.blocks=fun _=>none:=by
    funext ⟨j,p⟩
    unfold SpriteStore.blocks
    rw [hslots]
    cases p <;> rfl
  rw [hblocks,hused]
  exact .empty

theorem Watched.Inv.step (hx : x.Inv) {c : Call} (h : Heeds x c) : (x.step c).Inv:=by
  cases c with
  | create w height frameCount data=>exact hx.create h
  | setMask handle mask=>exact hx.setMask h
  | setFrameDurations handle count ms=>exact hx.setFrameDurations h
  | destroy handle=>exact hx.destroy
  | reset=>
    exact ⟨packed_emptied rfl rfl,Nat.zero_le _,fun _ _ _ h=>absurd rfl h,fun _ h=>absurd rfl h,fun _ h=>absurd rfl h,
      fun _ h=>absurd rfl h,hx.next⟩

theorem findSlot_setFrame {frame : UInt16} (hfind : st.findSlot handle=some i) (hframe : frame < (st.slots i).frameCount) :
    (st.setFrame handle frame).2={st with slots:=Function.update st.slots i {st.slots i with curFrame:=frame}} ∧
      (st.setFrame handle frame).2.findSlot handle=some i:=by
  have heq : (st.setFrame handle frame).2={st with slots:=Function.update st.slots i {st.slots i with curFrame:=frame}}:=by
    simp only [SpriteStore.setFrame,hfind,if_neg (UInt16.not_le.mpr hframe)]
  have hhandles : ∀ j, (Function.update st.slots i {st.slots i with curFrame:=frame} j).handle=(st.slots j).handle:=by
    intro j
    by_cases hj : j=i
    · rw [hj,Function.update_self]
    · rw [Function.update_of_ne hj]
  refine ⟨heq,?_⟩
  rw [heq,← hfind]
  unfold SpriteStore.findSlot
  simp only [hhandles]

theorem frame_within {s : Slot} (hs : s.Shaped) {frame : UInt16} (hframe : frame < s.frameCount) (start : ℕ) :
    Within (start+frameBytes s*frame.toNat % 2^32) (frameBytes s) start s.bytes:=by
  have hle : frameBytes s*(frame.toNat+1) ≤ frameBytes s*s.frameCount.toNat:=Nat.mul_le_mul_left _ hframe
  rw [← hs.bytes,Nat.mul_succ] at hle
  have hsmall:=hs.small
  have hfits : frameBytes s*frame.toNat < 2^32:=by omega
  rw [Nat.mod_eq_of_lt hfits]
  exact ⟨by omega,by omega⟩

theorem Watched.Inv.sound (hx : x.Inv) : x.Sound:=by
  refine ⟨hx.packed,hx.room,hx.unique,fun handle i hfind p=>?_,fun handle i frame hfind hframe=>?_⟩
  · obtain ⟨hlive,rfl⟩:=findSlot_some hfind
    exact hx.reads i hlive p
  · obtain ⟨hlive,rfl⟩:=findSlot_some hfind
    have hshaped:=hx.shaped i hlive
    obtain ⟨heq,hfound⟩:=findSlot_setFrame hfind hframe
    dsimp only
    unfold SpriteStore.frameView
    rw [hfound,heq]
    dsimp only
    rw [hx.armed i hlive,Function.update_self,if_pos rfl]
    refine ⟨_,rfl,frame_within hshaped hframe _,by cases (x.store.slots i).hasMask <;> rfl,fun m hm=>?_⟩
    by_cases hmask : (x.store.slots i).hasMask=true
    · dsimp only at hm
      rw [if_pos hmask] at hm
      cases hm
      exact frame_within hshaped hframe _
    · dsimp only at hm
      rw [if_neg hmask] at hm
      cases hm

/-- In every run of calls that meet the condition, the blocks of the live sprites tile the used part of the arena, each
part of each sprite reads back as it was written last, and every frame lies inside its sprite's blocks. -/
theorem sprite_arena {buf : Option (ℕ→UInt8)} {cap : ℕ} {cs : List Call}
    (h : AlongRun Watched.step Heeds (Watched.start buf cap) cs) : (run Watched.step (Watched.start buf cap) cs).Sound:=by
  have hstart : (Watched.start buf cap).Inv:=
    ⟨packed_emptied rfl rfl,Nat.zero_le _,fun _ _ _ h=>absurd rfl h,fun _ h=>absurd rfl h,fun _ h=>absurd rfl h,
      fun _ h=>absurd rfl h,Nat.one_pos⟩
  exact (run_invariant (fun _ _ h hx=>hx.step h) hstart h).sound

/-- Two frames of eight by two and a mask for them, and the sprite goes again. -/
theorem sprite_arena_destroyed : (run Watched.step (Watched.start (some fun _=>0) 65536)
    [.create 8 2 2 (some [1,2,3,4]),.setMask 1 (some [5,6,7,8]),.destroy 1]).Sound:=by
  apply sprite_arena
  refine ⟨?_,?_,trivial,trivial⟩
  · intro bytes hbytes _ _ _ _ _ _ _ _
    subst hbytes
    exact ⟨by decide,⟨by decide,by decide⟩,fun i=>by revert i; decide⟩
  · intro i hfind hmask hlen hgrants
    clear hfind hmask hlen hgrants
    exact ⟨by decide,by revert i; decide +kernel⟩

/-- A sheet of `2^32+64` bytes is taken for one of 64: its second frame lies far beyond the arena. -/
theorem sprite_size_wraps :
    ¬(run Watched.step (Watched.start (some fun _=>0) 65536) [.create 64520 16642 32 (some (List.replicate 64 0xFF))]).Sound:=by
  intro h
  obtain ⟨v,hv,⟨-,hin⟩,-⟩:=h.frames 1 0 1 (by decide +kernel) (by decide +kernel)
  have hview : ((run Watched.step (Watched.start (some fun _=>0) 65536) [.create 64520 16642 32
      (some (List.replicate 64 0xFF))]).store.setFrame 1 1).2.frameView 1=some ⟨134217730,none,64520,16642⟩:=by
    decide +kernel
  obtain rfl:=Option.some.inj (hv.symm.trans hview)
  revert hin
  decide +kernel

end CdcBadge.Sprites
