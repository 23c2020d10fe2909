import CdcBadge.Arenas
import CdcBadge.Bytes
import CdcBadge.Runs

/-!
# The sprite arena

A store of sprites over one arena of pixels. A sprite owns up to three blocks of it: the
sheet of its frames, a mask of the same size and the durations of its frames. Destroying a
sprite, or taking its durations away, closes the gap and points what lies above again.
-/

namespace CdcBadge.Sprites

open Arenas Runs

structure Slot where
  handle : ℕ:=0
  sheetOff : ℕ:=0
  maskOff : ℕ:=0
  durOff : ℕ:=0
  bytes : ℕ:=0
  w : UInt16:=0
  h : UInt16:=0
  frameCount : UInt16:=0
  curFrame : UInt16:=0
  hasMask : Bool:=false
  hasDur : Bool:=false

/-- The arena is the memory from `arena_` on; without one `hasArena` is false. -/
structure SpriteStore where
  slots : Fin 8 → Slot:=fun _=>{}
  hasArena : Bool:=false
  arena : ℕ→UInt8:=fun _=>0
  arenaCap : ℕ:=0
  arenaUsed : ℕ:=0
  nextHandle : ℕ:=1

def maxFrames : UInt16:=32

def frameBytes (s : Slot) : ℕ:=(s.w.toNat+7)/8*s.h.toNat

/-- What the sheet of a sprite takes; the code computes it in 32 bits. -/
def sheetBytes (w h frameCount : UInt16) : ℕ:=(w.toNat+7)/8*h.toNat*frameCount.toNat

def durationBytes (ms : List UInt16) : Bytes:=ms.flatMap fun d : UInt16=>[d.toUInt8,(d >>> 8).toUInt8]

/-- The offsets of one slot after `arenaFree`. -/
def Slot.moved (s : Slot) (off bytes : ℕ) : Slot:=
  if s.handle=0 then s
  else {s with
    sheetOff:=if off < s.sheetOff then s.sheetOff-bytes else s.sheetOff
    maskOff:=if s.hasMask ∧ off < s.maskOff then s.maskOff-bytes else s.maskOff
    durOff:=if s.hasDur ∧ off < s.durOff then s.durOff-bytes else s.durOff}

/-- The blocks that `destroy` frees highest first: the first of the highest ones. -/
def highest (blocks : List Block) : ℕ:=
  (List.range' 1 (blocks.length-1)).foldl
    (fun hi j=>if (blocks.getD hi ⟨0,0⟩).off < (blocks.getD j ⟨0,0⟩).off then j else hi) 0

structure FrameView where
  data : ℕ
  mask : Option ℕ
  w : UInt16
  h : UInt16
  deriving DecidableEq

namespace SpriteStore

def setArena (st : SpriteStore) (buf : Option (ℕ→UInt8)) (cap : ℕ) : SpriteStore:=
  {st with
    hasArena:=buf.isSome
    arena:=buf.getD st.arena
    arenaCap:=if buf.isSome then cap else 0
    arenaUsed:=0
    slots:=fun _=>{}}

def findSlot (st : SpriteStore) (handle : ℕ) : Option (Fin 8):=
  if handle=0 then none else (List.finRange 8).find? fun i=>(st.slots i).handle=handle

def freeSlot (st : SpriteStore) : Option (Fin 8):=(List.finRange 8).find? fun i=>(st.slots i).handle=0

/-- `none` is a negative offset: what starts at `2^31` is taken and reported as refused. -/
def arenaAlloc (st : SpriteStore) (bytes : ℕ) : Option ℕ × SpriteStore:=
  if st.hasArena=false ∨ st.arenaCap < (st.arenaUsed+bytes) % 2^32 then (none,st)
  else (if st.arenaUsed < 2^31 then some st.arenaUsed else none,{st with arenaUsed:=(st.arenaUsed+bytes) % 2^32})

def arenaFree (st : SpriteStore) (off bytes : ℕ) : SpriteStore:=
  if bytes=0 then st
  else {st with
    arena:=closeGap st.arena st.arenaUsed ⟨off,bytes⟩
    arenaUsed:=st.arenaUsed-bytes
    slots:=fun i=>(st.slots i).moved off bytes}

def create (st : SpriteStore) (w h frameCount : UInt16) (data : Option Bytes) : ℤ × SpriteStore:=
  match data with
  | none=>(0,st)
  | some data=>
    if w=0 ∨ h=0 ∨ frameCount=0 ∨ maxFrames < frameCount then (0,st)
    else match st.freeSlot with
      | none=>(-1,st)
      | some free=>
        let bytes:=sheetBytes w h frameCount % 2^32
        if bytes=0 ∨ data.length < bytes then (0,st)
        else match st.arenaAlloc bytes with
          | (none,st)=>(-1,st)
          | (some off,st)=>(st.nextHandle,{st with
              arena:=write st.arena off (data.take bytes)
              slots:=Function.update st.slots free {handle:=st.nextHandle,sheetOff:=off,bytes,w,h,frameCount}
              nextHandle:=if 0xFFFF < st.nextHandle+1 then 1 else st.nextHandle+1})

def setMask (st : SpriteStore) (handle : ℕ) (mask : Option Bytes) : Bool × SpriteStore:=
  match st.findSlot handle, mask with
  | some i, some mask=>
    let s:=st.slots i
    if mask.length < s.bytes then (false,st)
    else if s.hasMask then (true,{st with arena:=write st.arena s.maskOff (mask.take s.bytes)})
    else match st.arenaAlloc s.bytes with
      | (none,st)=>(false,st)
      | (some off,st)=>(true,{st with
          arena:=write st.arena off (mask.take s.bytes)
          slots:=Function.update st.slots i {s with maskOff:=off,hasMask:=true}})
  | _, _=>(false,st)

/-- `ms` points to `count` durations, or is null. -/
def setFrameDurations (st : SpriteStore) (handle : ℕ) (count : UInt16) (ms : Option (Fin count.toNat→UInt16)) :
    Bool × SpriteStore:=
  match st.findSlot handle with
  | none=>(false,st)
  | some i=>
    let s:=st.slots i
    if count=0 then
      if s.hasDur then
        let st:=st.arenaFree s.durOff (s.frameCount.toNat*2)
        (true,{st with slots:=Function.update st.slots i {st.slots i with hasDur:=false}})
      else (true,st)
    else match ms with
      | none=>(false,st)
      | some ms=>
        if count≠s.frameCount then (false,st)
        else if s.hasDur then (true,{st with arena:=write st.arena s.durOff (durationBytes (List.ofFn ms))})
        else match st.arenaAlloc (count.toNat*2) with
          | (none,st)=>(false,st)
          | (some off,st)=>(true,{st with
              arena:=write st.arena off (durationBytes (List.ofFn ms))
              slots:=Function.update st.slots i {s with durOff:=off,hasDur:=true}})

def freeBlocks : ℕ → List Block → SpriteStore → SpriteStore
  | 0, _, st=>st
  | n+1, blocks, st=>
    let hi:=highest blocks
    let b:=blocks.getD hi ⟨0,0⟩
    freeBlocks n (blocks.set hi ⟨0,0⟩) (st.arenaFree b.off b.size)

def destroy (st : SpriteStore) (handle : ℕ) : Bool × SpriteStore:=
  match st.findSlot handle with
  | none=>(false,st)
  | some i=>
    let s:=st.slots i
    let blocks:=[⟨s.sheetOff,s.bytes⟩]++(if s.hasMask then [⟨s.maskOff,s.bytes⟩] else [])++
      (if s.hasDur then [⟨s.durOff,s.frameCount.toNat*2⟩] else [])
    (true,freeBlocks blocks.length blocks {st with slots:=Function.update st.slots i {}})

def reset (st : SpriteStore) : SpriteStore:={st with arenaUsed:=0,slots:=fun _=>{}}

def setFrame (st : SpriteStore) (handle : ℕ) (frame : UInt16) : Bool × SpriteStore:=
  match st.findSlot handle with
  | none=>(false,st)
  | some i=>
    if (st.slots i).frameCount ≤ frame then (false,st)
    else (true,{st with slots:=Function.update st.slots i {st.slots i with curFrame:=frame}})

/-- The addresses are offsets in the arena. -/
def frameView (st : SpriteStore) (handle : ℕ) : Option FrameView:=
  match st.findSlot handle with
  | none=>none
  | some i=>
    let s:=st.slots i
    let at':=frameBytes s*s.curFrame.toNat % 2^32
    if st.hasArena then some ⟨s.sheetOff+at',if s.hasMask then some (s.maskOff+at') else none,s.w,s.h⟩ else none

end SpriteStore

/-- The three blocks a sprite may own. -/
inductive Part
  | sheet | mask | dur
  deriving DecidableEq

def Slot.block (s : Slot) : Part→Option Block
  | .sheet=>if s.handle=0 then none else some ⟨s.sheetOff,s.bytes⟩
  | .mask=>if s.handle=0 ∨ s.hasMask=false then none else some ⟨s.maskOff,s.bytes⟩
  | .dur=>if s.handle=0 ∨ s.hasDur=false then none else some ⟨s.durOff,s.frameCount.toNat*2⟩

/-- What is fixed about a slot in use: its sheet has the size of its frames and is its lowest block. -/
structure Slot.Shaped (s : Slot) : Prop where
  bytes : s.bytes=frameBytes s*s.frameCount.toNat
  small : s.bytes < 2^32
  held : 0 < s.bytes
  frame : s.curFrame < s.frameCount
  mask : s.hasMask=true → s.sheetOff < s.maskOff
  dur : s.hasDur=true → s.sheetOff < s.durOff

def SpriteStore.blocks (st : SpriteStore) (k : Fin 8 × Part) : Option Block:=(st.slots k.1).block k.2

def SpriteStore.content (st : SpriteStore) (k : Fin 8 × Part) : Option Bytes:=(st.blocks k).map (readAt st.arena)

inductive Call
  | create (w h frameCount : UInt16) (data : Option Bytes)
  | setMask (handle : ℕ) (mask : Option Bytes)
  | setFrameDurations (handle : ℕ) (count : UInt16) (ms : Option (Fin count.toNat→UInt16))
  | destroy (handle : ℕ)
  | reset

/-- The store, and by handle what its client wrote last to each part of a sprite. -/
structure Watched where
  store : SpriteStore
  written : ℕ→Part→Option Bytes:=fun _ _=>none

def Watched.step (x : Watched) : Call→Watched
  | .create w h frameCount data=>
    let (r,st):=x.store.create w h frameCount data
    {store:=st,written:=if 0 < r then Function.update x.written r.toNat
      (Function.update (fun _=>none) .sheet (data.map (·.take (sheetBytes w h frameCount)))) else x.written}
  | .setMask handle mask=>
    let (ok,st):=x.store.setMask handle mask
    {store:=st,written:=if ok then Function.update x.written handle (Function.update (x.written handle) .mask
      (mask.map (·.take ((x.written handle .sheet).getD []).length))) else x.written}
  | .setFrameDurations handle count ms=>
    let (ok,st):=x.store.setFrameDurations handle count ms
    {store:=st,written:=if ok then Function.update x.written handle (Function.update (x.written handle) .dur
      (if count=0 then none else ms.map fun ms=>durationBytes (List.ofFn ms))) else x.written}
  | .destroy handle=>
    let (ok,st):=x.store.destroy handle
    {store:=st,written:=if ok then Function.update x.written handle fun _=>none else x.written}
  | .reset=>{store:=x.store.reset}

/-- The frame at `off` lies inside the block at `start`. -/
def Within (off size start bytes : ℕ) : Prop:=start ≤ off ∧ off+size ≤ start+bytes

structure Watched.Sound (x : Watched) : Prop where
  packed : Packed x.store.blocks x.store.arenaUsed
  room : x.store.arenaUsed ≤ x.store.arenaCap
  unique : ∀ i j, (x.store.slots i).handle=(x.store.slots j).handle→(x.store.slots i).handle≠0→i=j
  reads : ∀ handle i, x.store.findSlot handle=some i→∀ p, x.store.content (i,p)=x.written handle p
  frames : ∀ handle i frame, x.store.findSlot handle=some i → frame < (x.store.slots i).frameCount →
    let s:=x.store.slots i
    ∃ v, (x.store.setFrame handle frame).2.frameView handle=some v ∧ Within v.data (frameBytes s) s.sheetOff s.bytes ∧
      v.mask.isSome=s.hasMask ∧ ∀ m∈v.mask, Within m (frameBytes s) s.maskOff s.bytes

/-- A request for so many bytes that `arenaAlloc` grants. -/
def SpriteStore.Grants (st : SpriteStore) (bytes : ℕ) : Prop:=
  st.hasArena=true ∧ (st.arenaUsed+bytes) % 2^32 ≤ st.arenaCap

def SpriteStore.Counted (st : SpriteStore) (bytes : ℕ) : Prop:=st.arenaUsed < 2^31 ∧ st.arenaUsed+bytes < 2^32

/-- The condition on a call: what a granted request takes is counted without a wrap, and a new sprite has a size
that 32 bits hold and a handle that no live sprite has. -/
def Heeds (x : Watched) : Call→Prop
  | .create w h frameCount data=>∀ bytes, bytes=sheetBytes w h frameCount % 2^32 → 0 < bytes→w≠0→h≠0 →
    frameCount≠0 → frameCount ≤ maxFrames→x.store.freeSlot≠none→(∃ d, data=some d ∧ bytes ≤ d.length) →
    x.store.Grants bytes → sheetBytes w h frameCount < 2^32 ∧ x.store.Counted bytes ∧
      ∀ i, (x.store.slots i).handle≠x.store.nextHandle
  | .setMask handle mask=>∀ i, x.store.findSlot handle=some i→(x.store.slots i).hasMask=false →
    (∃ m, mask=some m ∧ (x.store.slots i).bytes ≤ m.length)→x.store.Grants (x.store.slots i).bytes →
    x.store.Counted (x.store.slots i).bytes
  | .setFrameDurations handle count ms=>∀ i, x.store.findSlot handle=some i→(x.store.slots i).hasDur=false →
    count≠0 → count=(x.store.slots i).frameCount→ms≠none→x.store.Grants (count.toNat*2) →
    x.store.Counted (count.toNat*2)
  | .destroy _ | .reset=>True

end CdcBadge.Sprites
