import CdcBadge.OathStore
import CdcBadge.Runs

/-!
# Chip and cache along a run

The store writes a record to the chip and then its entry to the cache, and looks at the outcome
of the first only. Runs of the store, of reboots and of rebuilds, with NVS losing what it
holds in between.
-/

namespace CdcBadge.MetadataCache

open Handler Runs
open Pin (PowerLost)
open Tropic OathStore
open Oath (Account otypeCr otypeHotp)

structure Badge where
  store : Store
  on : Bool

inductive Event
  | add (reads : ℕ → SeOutcome) (o : PayloadOutcome) (a : Account)
  | update (o : PayloadOutcome) (slot : ℕ) (a : Account)
  | calculate (o : CalcOutcome) (slot : ℕ) (challenge : ByteArr 8)
  | generate (o : CalcOutcome) (time : Option ℕ) (slot : ℕ)
  | delete (o : DeleteOutcome) (slot : ℕ)
  | rebuild (session : Bool) (o : RebuildOutcome)
  | powerOff
  | boot (read save : SeOutcome)
  /-- NVS loses the header, or is left with another one. -/
  | headerLost (header : Option CacheHeader)
  /-- NVS loses a chunk, or is left with an older one. -/
  | chunkLost (chunkIndex : ℕ) (chunk : Option Chunk)

def Badge.perform {α : Type} (m : StoreM α) (b : Badge) : Badge:=
  if b.on then {store:=(m b.store).2,on:=(m b.store).1.isOk} else b

section Machine

variable (hmac : Hmac) (mapSignature : UInt32)

def step (b : Badge) : Event→Badge
  | .add reads o a=>b.perform (addAccountRaw mapSignature reads o a)
  | .update o slot a=>b.perform (updateAccount mapSignature o slot a)
  | .calculate o slot challenge=>b.perform (calculateForChallenge hmac mapSignature o slot challenge)
  | .generate o time slot=>b.perform (generateCode hmac mapSignature o time slot)
  | .delete o slot=>b.perform (deleteAccount o slot)
  | .rebuild session o=>b.perform (Tropic.rebuild mapSignature session o)
  | .powerOff=>{b with on:=false}
  | .boot read save=>Badge.perform (init mapSignature read save) {b with on:=true}
  | .headerLost header=>{b with store:={b.store with header}}
  | .chunkLost chunkIndex chunk=>
    {b with store:={b.store with chunks:=Function.update b.store.chunks chunkIndex chunk}}

def owned (s : Store) (slot : ℕ) : Bool:=
  match s.chip.rmem slot with
  | some (.record r)=>r.moduleId == moduleId2fa
  | _=>false

def shown (s : Store) (slot : ℕ) : Bool:=isShown (cached s slot)

def Sure (reads : ℕ → SeOutcome) : Prop:=∀ c < 3, (reads c).powered=true → reads c=.done

/-- The slots that `forEachSlot` visits. -/
def visits (reads : ℕ → SeOutcome) (s : Store) : Option (List ℕ):=
  match (forEachSlot moduleId2fa reads slots2fa.start slots2fa.last s).1 with
  | .ok entries=>some (entries.map Prod.fst)
  | .error _=>none

def rebuildFinds (s : Store) : Option (List ℕ):=
  visits (fun _=>.done) (Tropic.rebuild mapSignature true {} s).2

structure Faithful (b : Badge) : Prop where
  free : ∀ reads slot t, Sure reads → findFreeSlot slots2fa reads b.store=(.ok (some slot),t) →
    owned b.store slot=false
  visits : b.on=true→b.store.cacheValid=true→∀ reads found, Sure reads→visits reads b.store=some found →
    rebuildFinds mapSignature b.store=some found

/-- An entry that is added overwrites no other. -/
def Spares (b : Badge) : Event→Prop
  | .add reads o a=>∀ slot, owned b.store slot=true →
      (step hmac mapSignature b (.add reads o a)).store.chip.rmem slot=b.store.chip.rmem slot
  | _=>True

/-- A chunk is put back as it was read but for one entry. -/
def Updates (o : UpdateOutcome) : Prop:=o.read=.done ∧ o.save.applied=true

def Spoils (o : UpdateOutcome) : Prop:=o.read≠.done ∧ o.read.powered=true ∧ o.save.applied=true

/-- A record of the module does not go without another taking its place, does not come without its entry, and no
chunk is put back that was not read. -/
structure WriteIntact (owned : Bool) (o : PayloadOutcome) : Prop where
  lost : owned=true → o.chip.erase.applied=true → o.chip.reached=true ∧ o.chip.write.applied=true
  hidden : owned=false → o.chip.reached=true → o.chip.write.applied=true →
    o.chip.write=.done ∧ o.cache.header=.done ∧ Updates o.cache
  spoiled : o.chip.reached=true → o.chip.write=.done → o.cache.header=.done→¬Spoils o.cache

structure DeleteIntact (owned : Bool) (o : DeleteOutcome) : Prop where
  stale : owned=true → o.erase.applied=true → o.erase=.done ∧ Updates o.cache
  spoiled : o.erase=.done→¬Spoils o.cache

def Intact (b : Badge) : Event→Prop
  | .add reads o _=>Sure reads ∧ WriteIntact false o
  | .update o slot _=>WriteIntact (owned b.store (31+slot)) o
  | .calculate o slot _=>WriteIntact (owned b.store (31+slot)) o.write
  | .generate o _ slot=>WriteIntact (owned b.store (31+slot)) o.write
  | .delete o slot=>DeleteIntact (owned b.store (31+slot)) o
  | .rebuild _ o=>∀ slot∈slots, owned b.store slot=true→(o.reads slot).powered=true → o.reads slot=.done
  | .powerOff=>True
  | .boot _ _=>True
  | .headerLost _=>True
  | .chunkLost chunkIndex chunk=>∀ slot∈slots, slot/chunkSlots=chunkIndex →
      isShown ((chunk.getD fun _=>{}) (slot % chunkSlots))=owned b.store slot

end Machine

/-- The cache shows the slots that the chip holds. -/
def Agrees (s : Store) : Prop:=∀ slot∈slots, shown s slot=owned s slot

variable {reads : ℕ → SeOutcome}

section Agreement

variable {s t : Store} {slot : ℕ}

theorem Agrees.congr (hs : Agrees s) (hrmem : t.chip.rmem=s.chip.rmem) (hchunks : t.chunks=s.chunks) : Agrees t:=by
  intro slot hslot
  have h:=hs slot hslot
  unfold shown owned cached entryAt loaded at *
  rw [hchunks,hrmem]
  exact h

theorem owned_put_other {other : ℕ} (h : other≠slot) (content : Option (Content Payload)) :
    owned (s.put slot content) other=owned s other:=by
  unfold owned
  rw [Storage.put_other h]

theorem shown_put (content : Option (Content Payload)) (other : ℕ) : shown (s.put slot content) other=shown s other:=rfl

theorem isShown_entryOf (flags : UInt8) (name : Bytes) : isShown (entryOf moduleId2fa flags name)=true:=by
  have hbits : ∀ b : BitVec 8, (b ||| 1#8) &&& 1#8≠0#8:=by decide
  have hused : (flags ||| flagUsed) &&& flagUsed≠0:=by
    intro h
    exact hbits flags.toBitVec (congrArg UInt8.toBitVec h)
  simp [isShown,isEntryUsed,entryOf,hused]

theorem Agrees.put (hs : Agrees s) {content : Option (Content Payload)} (h : owned (s.put slot content) slot=owned s slot) :
    Agrees (s.put slot content):=by
  intro other hother
  rw [shown_put,hs other hother]
  by_cases heq : other=slot
  · rw [heq,h]
  · rw [owned_put_other heq]

theorem Agrees.setCached {content : Option (Content Payload)} {entry : CacheEntry} (hs : Agrees s)
    (h : isShown entry=owned (s.put slot content) slot) : Agrees ((s.put slot content).setCached .done slot entry):=by
  intro other hother
  have howned : owned ((s.put slot content).setCached .done slot entry) other=owned (s.put slot content) other:=rfl
  rw [howned,shown,cached_setCached]
  by_cases heq : other=slot
  · rw [if_pos heq,heq,h]
  · rw [if_neg heq,owned_put_other heq]
    exact hs other hother

theorem owned_put (content : Option (Content Payload)) :
    owned (s.put slot content) slot=match content with
      | some (.record r)=>r.moduleId == moduleId2fa
      | _=>false:=by
  unfold owned
  rw [Storage.put_self]

theorem owned_written {o : PayloadOutcome} {a : Account} (hintact : WriteIntact (owned s slot) o)
    (hrefused : ¬o.Taken (s.chip.rmem slot)) :
    owned (s.put slot (written o.chip (s.chip.rmem slot) (recordOf a))) slot=owned s slot:=by
  rw [owned_put]
  unfold written
  by_cases hnew : (o.chip.reached && o.chip.write.applied &&
      (if o.chip.erase.applied=true then none else s.chip.rmem slot).isNone)=true
  · rw [if_pos hnew]
    simp only [Bool.and_eq_true] at hnew
    obtain ⟨⟨hreached,happlied⟩,hempty⟩:=hnew
    cases howned : owned s slot with
    | true=>rfl
    | false=>
      exfalso
      obtain ⟨hwrite,-⟩:=hintact.hidden howned hreached happlied
      refine hrefused ⟨hreached,hwrite,?_⟩
      by_cases herase : o.chip.erase.applied=true
      · exact Or.inl herase
      · exact Or.inr (by simpa [herase] using hempty)
  · rw [if_neg hnew]
    by_cases herase : o.chip.erase.applied=true
    · cases howned : owned s slot with
      | false=>simp [herase]
      | true=>
        obtain ⟨hreached,happlied⟩:=hintact.lost howned herase
        exact absurd (by simp [hreached,happlied,herase]) hnew
    · simp only [herase]
      unfold owned
      cases s.chip.rmem slot with
      | none=>rfl
      | some c=>cases c <;> rfl

theorem Agrees.writePayload {mapSignature : UInt32} (hs : Agrees s) (hslot : slot∈slots) (a : Account)
    {o : PayloadOutcome} (hintact : WriteIntact (owned s slot) o) :
    Agrees (OathStore.writePayload mapSignature o slot a s).2:=by
  by_cases htaken : o.Taken (s.chip.rmem slot)
  · rw [writePayload_taken hslot htaken]
    obtain ⟨hreached,hdone,-⟩:=htaken
    have hnew : owned (s.put slot (some (stored a))) slot=true:=by
      rw [owned_put]
      rfl
    obtain ⟨hchip,hchunks⟩:=writeSlot_state (slot_allowed hslot) mapSignature o.cache a.name a.flags
      (s.put slot (some (stored a)))
    split at hchunks
    · rename_i hset
      obtain ⟨hheader,hpowered,hsaved⟩:=hset
      have hread : o.cache.read=.done:=by
        by_contra hread
        exact hintact.spoiled hreached hdone hheader ⟨hread,hpowered,hsaved⟩
      rw [hread] at hchunks
      have hshown : isShown (entryOf moduleId2fa a.flags a.name)=owned (s.put slot (some (stored a))) slot:=by
        rw [isShown_entryOf,hnew]
      exact (hs.setCached hshown).congr (congrArg Chip.rmem hchip) hchunks
    · rename_i hset
      have howned : owned s slot=true:=by
        by_contra howned
        have happlied : o.chip.write.applied=true:=by
          rw [hdone]
          rfl
        obtain ⟨-,hheader,hread,hsaved⟩:=hintact.hidden (by simpa using howned) hreached happlied
        have hpowered : o.cache.read.powered=true:=by
          rw [hread]
          rfl
        exact hset ⟨hheader,hpowered,hsaved⟩
      exact (hs.put (hnew.trans howned.symm)).congr (congrArg Chip.rmem hchip) hchunks
  · rw [writePayload_refused hslot htaken]
    exact hs.put (owned_written hintact htaken)

theorem Agrees.deleteAccount (hs : Agrees s) {o : DeleteOutcome} (hintact : DeleteIntact (owned s (31+slot)) o) :
    Agrees (OathStore.deleteAccount o slot s).2:=by
  cases hphys : toPhysicalSlot slot with
  | none=>
    unfold OathStore.deleteAccount
    rw [hphys]
    exact hs
  | some physSlot=>
    obtain ⟨rfl,hslot⟩:=toPhysicalSlot_some hphys
    have hgone : owned (s.put (31+slot) none) (31+slot)=false:=by
      rw [owned_put]
    by_cases herase : o.erase=.done
    · rw [deleteAccount_erased hphys herase,eraseSlot_state hslot]
      split
      · rename_i hset
        have hread : o.cache.read=.done:=by
          by_contra hread
          exact hintact.spoiled herase ⟨hread,hset⟩
        rw [hread]
        exact hs.setCached hgone.symm
      · rename_i hset
        refine hs.put (hgone.trans ?_)
        by_contra howned
        have happlied : o.erase.applied=true:=by
          rw [herase]
          rfl
        obtain ⟨-,hread,hsaved⟩:=hintact.stale (by simpa using Ne.symm howned) happlied
        refine hset ⟨?_,hsaved⟩
        rw [hread]
        rfl
    · rw [deleteAccount_refused hphys herase]
      split
      · rename_i herased
        refine hs.put (hgone.trans ?_)
        by_contra howned
        exact herase (hintact.stale (by simpa using Ne.symm howned) herased).1
      · rw [Storage.put_id]
        exact hs

def ReadsOwned (o : RebuildOutcome) (s : Store) : Prop:=
  ∀ slot∈slots, owned s slot=true→(o.reads slot).powered=true → o.reads slot=.done

variable {o : RebuildOutcome}

theorem isShown_default : isShown {}=false:=rfl

theorem scanSlot_store (o : RebuildOutcome) (slot : ℕ) (s : Store) : (scanSlot o slot s).2=s:=by
  have hread:=rmemReadWithHeader_store (o.reads slot) slot s
  unfold scanSlot
  split
  · rfl
  · rw [bind_apply]
    generalize rmemReadWithHeader (o.reads slot) slot s=x at hread
    obtain ⟨reply,t⟩:=x
    obtain rfl : t=s:=hread
    match reply with
    | .error _=>rfl
    | .ok (.ok _)=>rfl
    | .ok (.error _)=>
      refine (bind_pure_state _ _ _).trans ?_
      rw [seCall_state,Chip.rmemRead_chip,ite_self]

theorem scanSlot_shown (hreads : ReadsOwned o s) (hslot : slot∈slots) {e : CacheEntry} {t : Store}
    (h : scanSlot o slot s=(.ok e,t)) : isShown e=owned s slot:=by
  have hzero : slot≠0:=by
    have:=mem_slots.mp hslot
    omega
  unfold scanSlot at h
  rw [if_neg hzero,bind_apply] at h
  cases hread : o.reads slot with
  | done=>
    rw [hread,rmemReadWithHeader_done (slot_lt hslot)] at h
    unfold owned
    cases hcontent : s.chip.rmem slot with
    | none=>
      simp only [hcontent,bind_ok] at h
      obtain ⟨a,u,-,hpure⟩:=h
      cases hpure
      rfl
    | some c=>
      cases c with
      | invalid=>
        simp only [hcontent,bind_ok] at h
        obtain ⟨a,u,-,hpure⟩:=h
        cases hpure
        rfl
      | record r=>
        simp only [hcontent] at h
        cases h
        by_cases hid : r.moduleId=moduleId2fa
        · rw [hid,slot_allowed hslot,if_pos rfl,isShown_entryOf]
          exact (beq_iff_eq.mpr hid).symm
        · have hmodule : (r.moduleId == moduleId2fa)=false:=by simpa using hid
          dsimp only
          rw [hmodule]
          split
          · simp [isShown,entryOf,hmodule]
          · exact isShown_default
  | failed e' applied=>
    have hnone : owned s slot=false:=by
      by_contra howned
      have:=hreads slot hslot (by simpa using howned) (by rw [hread]; rfl)
      rw [hread] at this
      cases this
    rw [hread] at h
    have herror : (rmemReadWithHeader (.failed e' applied) slot s)=(.ok (.error e'),s):=by
      cases applied <;> simp [rmemReadWithHeader,bind_apply,seCall,Chip.perform]
    simp only [herror,bind_ok] at h
    obtain ⟨a,u,-,hpure⟩:=h
    cases hpure
    rw [hnone]
    rfl
  | powerLost applied=>
    rw [hread] at h
    have hlost : (rmemReadWithHeader (.powerLost applied) slot s).1=.error ⟨⟩:=by
      simp [rmemReadWithHeader,bind_apply,seCall,Chip.perform]
    generalize rmemReadWithHeader (.powerLost applied) slot s=x at h hlost
    obtain ⟨reply,u⟩:=x
    obtain rfl : reply=_:=hlost
    cases h

theorem scanSlots_shown (hreads : ReadsOwned o s) (base : ℕ) (is : List ℕ) {chunk entries : Chunk} {t : Store}
    (h : scanSlots o base is chunk s=(.ok entries,t)) {i : ℕ} (hslot : base+i∈slots)
    (hi : i∈is ∨ isShown (chunk i)=owned s (base+i)) : isShown (entries i)=owned s (base+i):=by
  induction is generalizing chunk with
  | nil=>
    cases h
    exact hi.resolve_left List.not_mem_nil
  | cons j is ih=>
    unfold scanSlots at h
    obtain ⟨entry,u,hscan,hrest⟩:=bind_ok.mp h
    obtain rfl : u=s:=(congrArg Prod.snd hscan).symm.trans (scanSlot_store o (base+j) s)
    refine ih hrest ?_
    by_cases hij : i=j
    · right
      subst hij
      rw [Function.update_self]
      exact scanSlot_shown hreads hslot hscan
    · rcases hi with hmem | hshown
      · exact Or.inl ((List.mem_cons.mp hmem).resolve_left hij)
      · right
        rw [Function.update_of_ne hij]
        exact hshown

theorem scanSlots_store (o : RebuildOutcome) (base : ℕ) (is : List ℕ) (chunk : Chunk) (s : Store) :
    (scanSlots o base is chunk s).2=s:=by
  induction is generalizing chunk with
  | nil=>rfl
  | cons i is ih=>
    have hscan:=scanSlot_store o (base+i) s
    unfold scanSlots
    rw [bind_apply]
    generalize scanSlot o (base+i) s=x at hscan
    obtain ⟨entry,t⟩:=x
    obtain rfl : t=s:=hscan
    cases entry with
    | error _=>rfl
    | ok e=>exact ih _

theorem Agrees.saveChunk (hs : Agrees s) (save : SeOutcome) (c : ℕ) {entries : Chunk}
    (h : ∀ i < chunkSlots, c*chunkSlots+i∈slots→isShown (entries i)=owned s (c*chunkSlots+i)) :
    Agrees (Tropic.saveChunk save c entries s).2:=by
  unfold Tropic.saveChunk
  rw [nvsSet_state]
  split
  · intro slot hslot
    unfold shown cached entryAt loaded
    simp only [if_true]
    by_cases hc : slot/chunkSlots=c
    · subst hc
      have hpos : slot/chunkSlots*chunkSlots+slot % chunkSlots=slot:=by
        unfold chunkSlots
        omega
      have hentry:=h (slot % chunkSlots) (Nat.mod_lt slot (by decide)) (by rwa [hpos])
      rw [hpos] at hentry
      simp only [Function.update_self,Option.getD_some]
      exact hentry
    · rw [Function.update_of_ne hc]
      exact hs slot hslot
  · exact hs

theorem Agrees.rebuildChunks (hs : Agrees s) (hreads : ReadsOwned o s) (chunks : List ℕ) :
    Agrees (Tropic.rebuildChunks o chunks s).2 ∧ (Tropic.rebuildChunks o chunks s).2.chip=s.chip:=by
  induction chunks generalizing s with
  | nil=>exact ⟨hs,rfl⟩
  | cons c chunks ih=>
    have hstore:=scanSlots_store o (c*chunkSlots) (List.range chunkSlots) (fun _=>{}) s
    unfold Tropic.rebuildChunks
    rw [bind_apply]
    cases hscan : scanSlots o (c*chunkSlots) (List.range chunkSlots) (fun _=>{}) s with
    | mk reply t=>
      obtain rfl : t=s:=by rwa [hscan] at hstore
      cases reply with
      | error _=>exact ⟨hs,rfl⟩
      | ok entries=>
        have hsaved:=hs.saveChunk (o.saves c) c fun i hi hslot=>
          scanSlots_shown hreads (c*chunkSlots) (List.range chunkSlots) hscan hslot (Or.inl (List.mem_range.mpr hi))
        have hchip : (Tropic.saveChunk (o.saves c) c entries t).2.chip=t.chip:=by
          unfold Tropic.saveChunk
          rw [nvsSet_state]
          split <;> rfl
        dsimp only
        rw [bind_apply]
        generalize Tropic.saveChunk (o.saves c) c entries t=x at hsaved hchip
        obtain ⟨saved,u⟩:=x
        match saved with
        | .error _=>exact ⟨hsaved,hchip⟩
        | .ok false=>exact ⟨hsaved,hchip⟩
        | .ok true=>
          have hreads' : ReadsOwned o u:=by
            intro slot hslot howned
            refine hreads slot hslot ?_
            unfold owned at *
            rwa [← hchip]
          obtain ⟨hrest,hchip'⟩:=ih hsaved hreads'
          exact ⟨hrest,hchip'.trans hchip⟩

theorem Agrees.rebuild (mapSignature : UInt32) (hs : Agrees s) (session : Bool) (hreads : ReadsOwned o s) :
    Agrees (Tropic.rebuild mapSignature session o s).2 ∧ (Tropic.rebuild mapSignature session o s).2.chip=s.chip:=by
  unfold Tropic.rebuild
  cases session with
  | false=>exact ⟨hs,rfl⟩
  | true=>
    have hchunks:=hs.rebuildChunks hreads (List.range ((rmemMax+1)/chunkSlots))
    simp only [Bool.not_true,Bool.false_eq_true,if_false]
    rw [bind_apply]
    generalize Tropic.rebuildChunks o (List.range ((rmemMax+1)/chunkSlots)) s=x at hchunks
    obtain ⟨done,t⟩:=x
    match done with
    | .error _=>exact hchunks
    | .ok false=>exact hchunks
    | .ok true=>
      obtain ⟨hchip,hkept⟩:=saveHeader_state mapSignature o.header t
      simp only [Bool.not_true,Bool.false_eq_true,if_false]
      rw [bind_apply]
      generalize saveHeader mapSignature o.header t=y at hchip hkept
      obtain ⟨saved,u⟩:=y
      have hu : Agrees u:=hchunks.1.congr (congrArg Chip.rmem hchip) hkept
      cases saved with
      | error _=>exact ⟨hu,hchip.trans hchunks.2⟩
      | ok b=>exact ⟨hu.congr rfl rfl,hchip.trans hchunks.2⟩

theorem keeps_saveHeader (mapSignature : UInt32) (save : SeOutcome) :
    Keeps Agrees (saveHeader mapSignature save : StoreM Bool):=by
  apply keeps_iff.mpr
  intro s hs
  obtain ⟨hchip,hkept⟩:=saveHeader_state mapSignature save s
  exact hs.congr (congrArg Chip.rmem hchip) hkept

theorem keeps_loadHeader (mapSignature : UInt32) (read : SeOutcome) :
    Keeps Agrees (loadHeader mapSignature read : StoreM Bool):=by
  refine Keeps.bind ?_ fun _=>Keeps.pure _
  apply keeps_iff.mpr
  intro s hs
  cases read <;> exact hs

theorem keeps_init (mapSignature : UInt32) (read save : SeOutcome) :
    Keeps Agrees (Tropic.init mapSignature read save : StoreM Unit):=by
  have hmark (valid : Bool) : Keeps Agrees (Handler.modify fun s=>{s with cacheValid:=valid} : StoreM Unit):=
    Keeps.modify fun _ hs=>hs.congr rfl rfl
  refine Keeps.bind (hmark false) fun _=>?_
  refine Keeps.bind (keeps_loadHeader mapSignature read) fun _=>?_
  refine Keeps.ite (fun _=>hmark true) fun _=>?_
  refine Keeps.bind (keeps_saveHeader mapSignature save) fun _=>?_
  exact Keeps.ite (fun _=>hmark true) fun _=>Keeps.pure _

section Operations

variable {mapSignature : UInt32}

theorem entryAt_sure (hsure : Sure reads) (hpowered : ∀ c < 3, (reads c).powered=true)
    (hslot : slot∈slots) : entryAt reads s slot=cached s slot:=by
  have hc : slot/chunkSlots < 3:=by
    have:=mem_slots.mp hslot
    unfold chunkSlots
    omega
  rw [entryAt_done,if_pos (hsure _ hc (hpowered _ hc))]

theorem findFreeSlot_free (hs : Agrees s) (hsure : Sure reads) {slot : ℕ}
    (h : (findFreeSlot slots2fa reads s).1=.ok (some slot)) : slot∈slots ∧ owned s slot=false:=by
  by_cases hpowered : ∀ c < 3, (reads c).powered=true
  · rw [findFreeSlot_powered hpowered] at h
    have hfind:=Except.ok.inj h
    have hslot:=List.mem_of_find?_eq_some hfind
    have hfree:=List.find?_some hfind
    rw [entryAt_sure hsure hpowered hslot] at hfree
    exact ⟨hslot,by simpa [shown,← hs slot hslot] using hfree⟩
  · push Not at hpowered
    obtain ⟨c,hc,hoff⟩:=hpowered
    rw [findFreeSlot_unpowered hc (by simpa using hoff)] at h
    cases h

theorem addAccountRaw_cases (mapSignature : UInt32) (reads : ℕ → SeOutcome) (o : PayloadOutcome) (a : Account) (s : Store) :
    (addAccountRaw mapSignature reads o a s).2=s ∨
      ∃ slot a', (findFreeSlot slots2fa reads s).1=.ok (some slot) ∧
        addAccountRaw mapSignature reads o a s=OathStore.writePayload mapSignature o slot a' s:=by
  have hstate : (findFreeSlot slots2fa reads s).2=s:=findFreeSlot_state
  unfold addAccountRaw
  split
  · exact Or.inl rfl
  · split
    · exact Or.inl rfl
    · cases validateOathParams a with
      | none=>exact Or.inl rfl
      | some a'=>
        dsimp only
        rw [bind_apply]
        generalize findFreeSlot slots2fa reads s=x at hstate
        obtain ⟨found,t⟩:=x
        obtain rfl : t=s:=hstate
        match found with
        | .error _=>exact Or.inl rfl
        | .ok none=>exact Or.inl rfl
        | .ok (some slot)=>exact Or.inr ⟨slot,a',rfl,rfl⟩

theorem Agrees.addAccountRaw (hs : Agrees s) {o : PayloadOutcome} (hsure : Sure reads)
    (hintact : WriteIntact false o) (a : Account) : Agrees (OathStore.addAccountRaw mapSignature reads o a s).2:=by
  rcases addAccountRaw_cases mapSignature reads o a s with hsame | ⟨slot,a',hfound,hwrite⟩
  · rw [hsame]
    exact hs
  · obtain ⟨hslot,hfree⟩:=findFreeSlot_free hs hsure hfound
    rw [hwrite]
    exact hs.writePayload hslot a' (hfree ▸ hintact)

theorem Agrees.updateAccount (hs : Agrees s) {o : PayloadOutcome} {slot : ℕ}
    (hintact : WriteIntact (owned s (31+slot)) o) (a : Account) :
    Agrees (OathStore.updateAccount mapSignature o slot a s).2:=by
  unfold OathStore.updateAccount
  split
  · exact hs
  · cases validateOathParams a with
    | none=>exact hs
    | some a'=>
      cases hphys : toPhysicalSlot slot with
      | none=>exact hs
      | some physSlot=>
        obtain ⟨rfl,hslot⟩:=toPhysicalSlot_some hphys
        dsimp only
        split
        · exact hs
        · exact hs.writePayload hslot a' hintact

theorem Agrees.persistCounter (hs : Agrees s) {o : PayloadOutcome} {slot : ℕ}
    (hintact : WriteIntact (owned s (31+slot)) o) (e : OathEntry) (counter : ℕ) :
    Agrees (OathStore.persistCounter mapSignature o slot e counter s).2:=by
  unfold OathStore.persistCounter
  cases hphys : toPhysicalSlot slot with
  | none=>exact hs
  | some physSlot=>
    obtain ⟨rfl,hslot⟩:=toPhysicalSlot_some hphys
    exact hs.writePayload hslot _ hintact

theorem Agrees.calculateForChallenge {hmac : Hmac} (hs : Agrees s) {o : CalcOutcome} {slot : ℕ}
    (hintact : WriteIntact (owned s (31+slot)) o.write) (challenge : ByteArr 8) :
    Agrees (OathStore.calculateForChallenge hmac mapSignature o slot challenge s).2:=by
  have hread:=readAccount_state o.read slot s
  unfold OathStore.calculateForChallenge
  rw [bind_apply]
  generalize readAccount o.read slot s=x at hread
  obtain ⟨reply,t⟩:=x
  obtain rfl : t=s:=hread
  match reply with
  | .error _=>exact hs
  | .ok none=>exact hs
  | .ok (some e)=>
    dsimp only
    split
    · exact hs
    · split
      · rw [bind_ite_pure_state]
        exact hs.persistCounter hintact e (nextCounter e.counter)
      · exact hs

theorem Agrees.generateCode {hmac : Hmac} (hs : Agrees s) {o : CalcOutcome} {slot : ℕ}
    (hintact : WriteIntact (owned s (31+slot)) o.write) (time : Option ℕ) :
    Agrees (OathStore.generateCode hmac mapSignature o time slot s).2:=by
  have hread:=readAccount_state o.read slot s
  unfold OathStore.generateCode
  rw [bind_apply]
  generalize readAccount o.read slot s=x at hread
  obtain ⟨reply,t⟩:=x
  obtain rfl : t=s:=hread
  match reply with
  | .error _=>exact hs
  | .ok none=>exact hs
  | .ok (some e)=>
    dsimp only
    split
    · rw [bind_ite_pure_state]
      exact hs.persistCounter hintact e (nextCounter e.counter)
    · exact hs

theorem Agrees.step (hmac : Hmac) {b : Badge} (hb : Agrees b.store) {e : Event} (hintact : Intact b e) :
    Agrees (step hmac mapSignature b e).store:=by
  have hperform {α : Type} {m : StoreM α} {b : Badge} (hb : Agrees b.store) (hm : Agrees (m b.store).2) :
      Agrees (b.perform m).store:=by
    unfold Badge.perform
    split
    · exact hm
    · exact hb
  cases e with
  | add reads o a=>exact hperform hb (hb.addAccountRaw hintact.1 hintact.2 a)
  | update o slot a=>exact hperform hb (hb.updateAccount hintact a)
  | calculate o slot challenge=>exact hperform hb (hb.calculateForChallenge hintact challenge)
  | generate o time slot=>exact hperform hb (hb.generateCode hintact time)
  | delete o slot=>exact hperform hb (hb.deleteAccount hintact)
  | rebuild session o=>exact hperform hb (hb.rebuild _ session hintact).1
  | powerOff=>exact hb
  | boot read save=>exact hperform hb (keeps_iff.mp (keeps_init mapSignature read save) b.store hb)
  | headerLost header=>exact hb.congr rfl rfl
  | chunkLost chunkIndex chunk=>
    intro slot hslot
    by_cases hc : slot/chunkSlots=chunkIndex
    · have hentry:=hintact slot hslot hc
      subst hc
      simp only [MetadataCache.step,shown,cached,entryAt,loaded,if_true,Function.update_self]
      exact hentry
    · simp only [MetadataCache.step,shown,cached,entryAt,loaded,if_true,Function.update_of_ne hc]
      exact hb slot hslot

theorem visits_agrees (hs : Agrees s) (hsure : Sure reads) {found : List ℕ}
    (h : visits reads s=some found) : found=slots.filter (owned s):=by
  unfold visits at h
  by_cases hpowered : ∀ c < 3, (reads c).powered=true
  · rw [forEachSlot_powered hpowered] at h
    obtain rfl:=Option.some.inj h
    rw [List.map_map]
    have hid : Prod.fst ∘ (fun slot=>(slot,entryAt reads s slot))=id:=rfl
    rw [hid,List.map_id]
    apply List.filter_congr
    intro slot hslot
    rw [entryAt_sure hsure hpowered hslot]
    exact hs slot hslot
  · push Not at hpowered
    obtain ⟨c,hc,hoff⟩:=hpowered
    rw [forEachSlot_unpowered hc (by simpa using hoff)] at h
    cases h

theorem visits_done (hs : Agrees s) : visits (fun _=>.done) s=some (slots.filter (owned s)):=by
  have hsure : Sure fun _=>.done:=fun _ _ _=>rfl
  cases h : visits (fun _=>.done) s with
  | some found=>rw [visits_agrees hs hsure h]
  | none=>
    unfold visits at h
    rw [forEachSlot_powered fun _ _=>rfl] at h
    cases h

theorem Agrees.faithful {b : Badge} (hb : Agrees b.store) : Faithful mapSignature b where
  free reads slot t hsure h:=(findFreeSlot_free hb hsure (congrArg Prod.fst h)).2
  visits _ _ reads found hsure h:=by
    have hreads : ReadsOwned {} b.store:=fun _ _ _ _=>rfl
    obtain ⟨hagrees,hchip⟩:=hb.rebuild mapSignature true hreads
    have howned : owned (Tropic.rebuild mapSignature true {} b.store).2=owned b.store:=by
      funext slot
      unfold owned
      rw [hchip]
    rw [rebuildFinds,visits_done hagrees,howned,visits_agrees hb hsure h]

theorem addAccountRaw_other (hs : Agrees s) (hsure : Sure reads) (o : PayloadOutcome) (a : Account)
    (howned : owned s slot=true) :
    (OathStore.addAccountRaw mapSignature reads o a s).2.chip.rmem slot=s.chip.rmem slot:=by
  rcases addAccountRaw_cases mapSignature reads o a s with hsame | ⟨free,a',hfound,hwrite⟩
  · rw [hsame]
  · obtain ⟨hfree,hunowned⟩:=findFreeSlot_free hs hsure hfound
    have hne : slot≠free:=by
      intro h
      rw [h,hunowned] at howned
      cases howned
    rw [hwrite]
    by_cases htaken : o.Taken (s.chip.rmem free)
    · rw [writePayload_taken hfree htaken,(writeSlot_state (slot_allowed hfree) mapSignature o.cache a'.name a'.flags _).1,
        Storage.put_other hne]
    · rw [writePayload_refused hfree htaken,Storage.put_other hne]

theorem Agrees.spares (hmac : Hmac) {b : Badge} (hb : Agrees b.store) {e : Event} (hintact : Intact b e) :
    Spares hmac mapSignature b e:=by
  cases e with
  | add reads o a=>
    intro slot howned
    show (b.perform (OathStore.addAccountRaw mapSignature reads o a)).store.chip.rmem slot=_
    unfold Badge.perform
    split
    · exact addAccountRaw_other hb hintact.1 o a howned
    · rfl
  | _=>trivial

end Operations

end Agreement

def InStep (b : Badge) : Prop:=Agrees b.store

/-- Where no step of a run parts the cache from the chip, a slot that is found free is free, a valid cache visits what
a rebuild finds, and nothing is overwritten. -/
theorem cache_faithful (hmac : Hmac) (mapSignature : UInt32) (b : Badge) (es : List Event) (hb : InStep b)
    (h : AlongRun (step hmac mapSignature) Intact b es) :
    Faithful mapSignature (run (step hmac mapSignature) b es) ∧
      AlongRun (step hmac mapSignature) (Spares hmac mapSignature) b es:=by
  have hboth (b : Badge) (e : Event) (hintact : Intact b e) (hb : InStep b) :
      Spares hmac mapSignature b e ∧ InStep (step hmac mapSignature b e):=
    ⟨Agrees.spares hmac hb hintact,Agrees.step hmac hb hintact⟩
  constructor
  · exact Agrees.faithful (run_invariant (I:=InStep) (fun b e hintact hb=>(hboth b e hintact hb).2) hb h)
  · exact AlongRun.of_invariant (I:=InStep) hboth hb h

def plainHmac : Hmac:=fun a key data=>fit a.digestSize (key++data)

def blank : Badge where
  store:={chip:={ecc:=fun _=>none,rmem:=fun _=>none}}
  on:=true

def account : Account where
  type:=0
  name:=[0x61]
  issuer:=[]
  secret:=[1]
  digits:=6
  period:=30
  algorithm:=0
  counter:=0
  flags:=0

theorem cache_faithful_added :
    Faithful 0 (run (step plainHmac 0) blank [.boot .done .done,.add (fun _=>.done) {} account]) ∧
      AlongRun (step plainHmac 0) (Spares plainHmac 0) blank [.boot .done .done,.add (fun _=>.done) {} account]:=
  cache_faithful plainHmac 0 blank _ (fun _ _=>by simp [shown,cached,entryAt,loaded,owned,blank,isShown_default])
    ⟨trivial,⟨fun _ _ _=>rfl,(by simp),fun _ _ _=>⟨rfl,rfl,rfl,rfl⟩,fun _ _ _ hspoils=>hspoils.1 rfl⟩,trivial⟩

def erasedEvents : List Event:=
  [.boot .done .done,.add (fun _=>.done) {} account,.powerOff,.headerLost none,.chunkLost 0 none,.boot .done .done]

theorem cache_unfaithful : ¬ ∀ es, Faithful 0 (run (step plainHmac 0) blank es):=by
  intro h
  have hfree:=(h erasedEvents).free (fun _=>.done) 31 (run (step plainHmac 0) blank erasedEvents).store
    (fun _ _ _=>rfl) (Prod.ext (by decide +kernel) findFreeSlot_state)
  exact absurd hfree (by decide +kernel)

end CdcBadge.MetadataCache
