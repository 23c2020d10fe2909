import CdcBadge.HostApiSe

/-!
# What a call does to the slots of the pool

The search for a name's slot changes nothing, and whatever a call changes lies in one slot: the one
that carries the name it was called under, or one that was given to that name.
-/

namespace CdcBadge.Plugin

open Handler Tropic
open Pin (PowerLost)

def headerRead (env : HostEnv) (s : Store) (slot : ℕ) : Option Name:=
  if env.scan slot=.done then
    match s.rmem slot with
    | some (.record r)=>some r.name
    | _=>none
  else none

def mappingRead (env : HostEnv) (s : Store) (slot : ℕ) : Option Name:=
  if env.nvsGet slot=.done then s.eccMap slot else none

def standing (read : ℕ→Option Name) (declared : Name→Bool) (slot : ℕ) : Bool:=(read slot).any declared

theorem rmemPool_lt {slot : ℕ} (h : slot∈rmemPool) : slot < Chip.rmemSlotCount:=by
  have hpool : ∀ slot∈rmemPool, slot < Chip.rmemSlotCount:=by decide
  exact hpool slot h

theorem eccPool_lt {slot : ℕ} (h : slot∈eccPool) : slot < Chip.eccSlotCount:=by
  have hpool : ∀ slot∈eccPool, slot < Chip.eccSlotCount:=by decide
  exact hpool slot h

theorem rmemPool_sorted : rmemPool.Pairwise (· < ·):=by decide

theorem eccPool_sorted : eccPool.Pairwise (· < ·):=by decide

/-- A search that changes nothing, and answers as `read` says where it answers. -/
def Looks (look : ℕ→HostM (Option Name)) (read : ℕ→Option Name) (s : Store) (slot : ℕ) : Prop:=
  look slot s=(.ok (read slot),s) ∨ look slot s=(.error ⟨⟩,s)

/-- What the loop over the pool comes to: the name's own slot, or the first one that does not stand. -/
structure Scanned (read : ℕ→Option Name) (declared : Name→Bool) (name : Name) (slots : List ℕ) (first : Option ℕ)
    (answer : Option ℕ × Option ℕ) : Prop where
  found : ∀ slot, answer.1=some slot → slot∈slots ∧ read slot=some name
  absent : answer.1=none→∀ slot∈slots, read slot≠some name
  free : answer.1=none→answer.2=first.or (slots.find? fun slot=>!standing read declared slot)

theorem scanPool_cons {look : ℕ→HostM (Option Name)} {read : ℕ→Option Name} {slot : ℕ} {s : Store}
    (hlook : look slot s=(.ok (read slot),s)) (declared : Name→Bool) (name : Name) (slots : List ℕ) (first : Option ℕ) :
    scanPool look declared name (slot::slots) first s =
      (match read slot with
        | none=>scanPool look declared name slots (first.or (some slot))
        | some held=>
          if held=name then pure (some slot,first)
          else if declared held then scanPool look declared name slots first
          else scanPool look declared name slots (first.or (some slot)) : HostM (Option ℕ × Option ℕ)) s:=by
  conv_lhs=>unfold scanPool
  exact bind_of_ok hlook

theorem scanPool_spec {look : ℕ→HostM (Option Name)} {read : ℕ→Option Name} {declared : Name→Bool} {name : Name}
    {s : Store} {slots : List ℕ} (hlook : ∀ slot∈slots, Looks look read s slot) (first : Option ℕ) :
    scanPool look declared name slots first s=(.error ⟨⟩,s) ∨
      ∃ answer, scanPool look declared name slots first s=(.ok answer,s) ∧
        Scanned read declared name slots first answer:=by
  induction slots generalizing first with
  | nil=>exact Or.inr ⟨(none,first),rfl,(by intro _ h; cases h),(by simp),(by simp)⟩
  | cons slot slots ih=>
    have hrest : ∀ slot∈slots, Looks look read s slot:=fun other hother=>hlook other (List.mem_cons_of_mem _ hother)
    have hgo : ∀ (next : Option ℕ),
        read slot≠some name →
        (next=if standing read declared slot then first else first.or (some slot)) →
        scanPool look declared name (slot::slots) first s=scanPool look declared name slots next s →
        scanPool look declared name (slot::slots) first s=(.error ⟨⟩,s) ∨
          ∃ answer, scanPool look declared name (slot::slots) first s=(.ok answer,s) ∧
            Scanned read declared name (slot::slots) first answer:=by
      intro next hother hnext hscan
      rw [hscan]
      rcases ih hrest next with herror | ⟨answer,hanswer,hscanned⟩
      · exact Or.inl herror
      · right
        refine ⟨answer,hanswer,?_,?_,?_⟩
        · intro found hfound
          have h:=hscanned.found found hfound
          exact ⟨List.mem_cons_of_mem _ h.1,h.2⟩
        · intro hnone
          exact List.forall_mem_cons.mpr ⟨hother,hscanned.absent hnone⟩
        · intro hnone
          rw [hscanned.free hnone,hnext,List.find?_cons]
          cases hstanding : standing read declared slot <;> cases first <;> simp
    rcases hlook slot List.mem_cons_self with hok | herror
    · have hscan:=scanPool_cons hok declared name slots first
      cases hread : read slot with
      | none=>
        apply hgo (first.or (some slot)) (by simp [hread]) (by simp [standing,hread])
        rw [hscan,hread]
      | some held=>
        by_cases hname : held=name
        · right
          rw [hscan,hread]
          refine ⟨(some slot,first),by simp [hname],?_,(by intro h; cases h),by intro h; cases h⟩
          rintro found ⟨⟩
          exact ⟨List.mem_cons_self,by rw [hread,hname]⟩
        · cases hdeclared : declared held with
          | true=>
            apply hgo first (by simp [hread,hname]) (by simp [standing,hread,hdeclared])
            rw [hscan,hread]
            simp [hname,hdeclared]
          | false=>
            apply hgo (first.or (some slot)) (by simp [hread,hname]) (by simp [standing,hread,hdeclared])
            rw [hscan,hread]
            simp [hname,hdeclared]
    · left
      conv_lhs=>unfold scanPool
      exact bind_of_error herror

/-- What a name that has no slot yet is given is free: whatever lies in a slot stands, or a slot before it is free. -/
def Spares (pool : List ℕ) (held : ℕ→Prop) (read : ℕ→Option Name) (declared : Name→Bool) (name : Name) : Prop:=
  (∃ slot∈pool, read slot=some name) ∨
    ∀ slot∈pool, held slot → standing read declared slot=false →
      ∃ earlier∈pool, earlier < slot ∧ ¬held earlier ∧ standing read declared earlier=false

theorem Scanned.taken {read : ℕ→Option Name} {declared : Name→Bool} {name : Name} {pool : List ℕ} {slot : ℕ}
    {held : ℕ→Prop} (h : Scanned read declared name pool none (none,some slot)) (hsorted : pool.Pairwise (· < ·))
    (hspares : Spares pool held read declared name) : slot∈pool ∧ ¬held slot:=by
  have hfind : pool.find? (fun slot=>!standing read declared slot)=some slot:=(h.free rfl).symm
  obtain ⟨hfree,before,after,hpool,hbefore⟩:=List.find?_eq_some_iff_append.mp hfind
  have hmem : slot∈pool:=by simp [hpool]
  refine ⟨hmem,?_⟩
  intro hheld
  rcases hspares with ⟨own,hown,hread⟩ | hspares
  · exact h.absent rfl own hown hread
  · obtain ⟨earlier,hearlier,hlt,-,hstanding⟩:=hspares slot hmem hheld (by simpa using hfree)
    rw [hpool] at hearlier hsorted
    rcases List.mem_append.mp hearlier with hin | hin
    · have:=hbefore earlier hin
      simp [hstanding] at this
    · have hafter : slot ≤ earlier:=by
        rcases List.mem_cons.mp hin with rfl | hin
        · exact le_refl _
        · exact le_of_lt (List.rel_of_pairwise_cons (List.pairwise_append.mp hsorted).2.1 hin)
      omega

section Accesses

variable {env : HostEnv} {s : Store} {slot : ℕ}

theorem rmemReadWithHeader_apply {st : Storage Owned} (hslot : slot < Chip.rmemSlotCount) (o : SeOutcome) :
    rmemReadWithHeader o slot st =
      (match o with
        | .powerLost _=>.error ⟨⟩
        | .failed e _=>.ok (.error e)
        | .done=>.ok (match st.chip.rmem slot with
          | none=>.error .slotEmpty
          | some .invalid=>.error .error
          | some (.record r)=>.ok r),st):=by
  unfold rmemReadWithHeader
  rw [bind_apply]
  cases hcontent : st.chip.rmem slot with
  | none=>cases o <;> simp [seCall,Chip.perform,Chip.rmemRead_none hslot hcontent]
  | some c=>cases c <;> cases o <;> simp [seCall,Chip.perform,Chip.rmemRead_some hslot hcontent]

theorem rmemRead_spec (hslot : slot < Chip.rmemSlotCount) (o : SeOutcome) :
    onStorage (rmemReadWithHeader o slot) s=(.error ⟨⟩,s) ∨
      ∃ reply, onStorage (rmemReadWithHeader o slot) s=(.ok reply,s) ∧
        ∀ r, reply=.ok r ↔ o=.done ∧ s.rmem slot=some (.record r):=by
  unfold onStorage zoom Store.rmem
  rw [rmemReadWithHeader_apply hslot]
  cases o with
  | done=>rcases s.storage.chip.rmem slot with _ | _ | r <;> simp
  | failed e applied=>simp
  | powerLost applied=>simp

theorem headerNameAt_looks (hslot : slot < Chip.rmemSlotCount) :
    Looks (fun slot=>headerNameAt (env.scan slot) slot) (headerRead env s) s slot:=by
  show headerNameAt (env.scan slot) slot s=_ ∨ headerNameAt (env.scan slot) slot s=_
  unfold headerNameAt
  rcases rmemRead_spec (s:=s) hslot (env.scan slot) with herror | ⟨reply,hreply,hok⟩
  · exact Or.inr (bind_of_error herror)
  · left
    rw [bind_of_ok hreply]
    cases reply with
    | ok r=>
      obtain ⟨hdone,hcontent⟩:=(hok r).mp rfl
      simp [headerRead,hdone,hcontent]
    | error e=>
      have hnone : headerRead env s slot=none:=by
        unfold headerRead
        split
        · rename_i hdone
          split
          · rename_i r hcontent
            cases (hok r).mpr ⟨hdone,hcontent⟩
          · rfl
        · rfl
      simp [hnone]

theorem nvsGetStr_looks : Looks (fun slot=>nvsGetStr (env.nvsGet slot) slot) (mappingRead env s) s slot:=by
  show nvsGetStr (env.nvsGet slot) slot s=_ ∨ nvsGetStr (env.nvsGet slot) slot s=_
  unfold mappingRead
  cases env.nvsGet slot with
  | done=>exact Or.inl rfl
  | failed e applied=>exact Or.inl rfl
  | powerLost applied=>exact Or.inr rfl

theorem headerRead_some {name : Name} (h : headerRead env s slot=some name) :
    ∃ r, s.rmem slot=some (.record r) ∧ r.name=name:=by
  unfold headerRead at h
  split at h
  · split at h
    · rename_i r hcontent
      exact ⟨r,hcontent,by simpa using h⟩
    · cases h
  · cases h

theorem mappingRead_some {name : Name} (h : mappingRead env s slot=some name) : s.eccMap slot=some name:=by
  unfold mappingRead at h
  split at h
  · exact h
  · cases h

end Accesses

/-- Two stores that agree on everything but one ECC slot and what is noted of it. -/
structure AtSlot (slot : ℕ) (s t : Store) : Prop where
  rmem : ∀ i, t.rmem i=s.rmem i
  ecc : ∀ other≠slot, t.ecc other=s.ecc other
  eccMap : ∀ other≠slot, t.eccMap other=s.eccMap other
  maker : ∀ other≠slot, t.maker other=s.maker other

theorem AtSlot.refl (slot : ℕ) (s : Store) : AtSlot slot s s:=
  ⟨fun _=>rfl,fun _ _=>rfl,fun _ _=>rfl,fun _ _=>rfl⟩

theorem AtSlot.trans {slot : ℕ} {s t u : Store} (h : AtSlot slot s t) (h' : AtSlot slot t u) : AtSlot slot s u where
  rmem i:=(h'.rmem i).trans (h.rmem i)
  ecc other hother:=(h'.ecc other hother).trans (h.ecc other hother)
  eccMap other hother:=(h'.eccMap other hother).trans (h.eccMap other hother)
  maker other hother:=(h'.maker other hother).trans (h.maker other hother)

/-- A change to one slot: what lay in it carried the name of the call, and so does what lies in it afterwards. -/
inductive Change (p : Instance) (name : Name) (s : Store) : Store→Prop
  | unchanged : Change p name s s
  | record {slot : ℕ} {content : Option (Content Owned)} (hslot : slot∈rmemPool) (hname : name∈p.manifest.rmem)
      (hold : ∀ r, s.rmem slot=some (.record r) → r.name=name)
      (hnew : ∀ r, content=some (.record r) →
        s.rmem slot=some (.record r) ∨ r.name=name ∧ r.payload.creator=p.id) :
      Change p name s {s with storage:=s.storage.put slot content}
  | key {slot : ℕ} {t : Store} (hslot : slot∈eccPool) (hname : name∈p.manifest.ecc) (hat : AtSlot slot s t)
      (hold : ∀ key, s.ecc slot=some key → s.eccMap slot=some name)
      (hmap : t.eccMap slot=s.eccMap slot ∨ t.eccMap slot=none ∨ t.eccMap slot=some name)
      (hnew : ∀ key, t.ecc slot=some key →
        s.ecc slot=some key ∧ t.maker slot=s.maker slot ∨
          t.maker slot=some ⟨p.id,name⟩ ∧ t.eccMap slot=some name) :
      Change p name s t

def Replied (p : Instance) (name : Name) (s : Store) : HostReply→Prop
  | .data slot r=>slot∈rmemPool ∧ name∈p.manifest.rmem ∧ s.rmem slot=some (.record r) ∧ r.name=name
  | .nameUsed (some slot)=>
    slot∈rmemPool ∧ name∈p.manifest.rmem ∧ ∃ r, s.rmem slot=some (.record r) ∧ r.name=name
  | .pubkey slot key | .signature slot key _=>
    slot∈eccPool ∧ name∈p.manifest.ecc ∧ s.ecc slot=some key ∧ s.eccMap slot=some name
  | .exists (some slot)=>
    slot∈eccPool ∧ name∈p.manifest.ecc ∧ (∃ key, s.ecc slot=some key) ∧ s.eccMap slot=some name
  | _=>True

def Does (p : Instance) (name : Name) (s : Store) (x : Except PowerLost HostReply × Store) : Prop:=
  (∀ reply, x.1=.ok reply→Replied p name s reply) ∧ Change p name s x.2

section Does

variable {p : Instance} {name : Name} {s t : Store}

theorem Does.ok {reply : HostReply} (hreply : Replied p name s reply) (hchange : Change p name s t) :
    Does p name s (.ok reply,t):=by
  refine ⟨?_,hchange⟩
  rintro _ ⟨⟩
  exact hreply

theorem Does.rc (code : HostRc) : Does p name s (.ok (.rc code),s):=Does.ok trivial .unchanged

theorem Does.stopped (hchange : Change p name s t) : Does p name s (.error ⟨⟩,t):=
  ⟨fun _ h=>(by cases h),hchange⟩

theorem Does.rcOf (reply : SeReply Unit) (hchange : Change p name s t) : Does p name s (.ok (rcOf reply),t):=by
  refine Does.ok ?_ hchange
  cases reply <;> trivial

end Does

section Records

variable {env : HostEnv} {d : Disk} {p : Instance} {name : Name} {s : Store}

variable (env d name s) in
theorem scanPluginPool_spec :
    scanPluginPool env d name s=(.error ⟨⟩,s) ∨
      ∃ answer, scanPluginPool env d name s=(.ok answer,s) ∧
        Scanned (headerRead env s) (anyInstalledDeclares Manifest.rmem env.manifests d) name rmemPool none answer:=
  scanPool_spec (fun _ hslot=>headerNameAt_looks (rmemPool_lt hslot)) none

theorem mem_of_activeDeclares {names : Manifest → List Name} (h : ¬(!activeDeclares names p name)=true) :
    name∈names p.manifest:=by
  simpa [activeDeclares] using h

theorem does_scan {k : Option ℕ × Option ℕ→HostM HostReply}
    (hk : ∀ answer,
      Scanned (headerRead env s) (anyInstalledDeclares Manifest.rmem env.manifests d) name rmemPool none answer →
        Does p name s (k answer s)) :
    Does p name s ((scanPluginPool env d name >>= k) s):=by
  rcases scanPluginPool_spec env d name s with herror | ⟨answer,hscan,hscanned⟩
  · rw [bind_of_error herror]
    exact Does.stopped .unchanged
  · rw [bind_of_ok hscan]
    exact hk answer hscanned

theorem onStorage_apply {α : Type} (m : StorageM Owned α) :
    onStorage m s=((m s.storage).1,{s with storage:=(m s.storage).2}):=rfl

theorem named_of_headerRead {slot : ℕ} (h : headerRead env s slot=some name) (r : Record Owned)
    (hr : s.rmem slot=some (.record r)) : r.name=name:=by
  obtain ⟨held,hheld,hname⟩:=headerRead_some h
  rw [hheld] at hr
  cases hr
  exact hname

theorem hostRmemReadNamed_does (len : ℕ) : Does p name s (hostRmemReadNamed env d p name len s):=by
  unfold hostRmemReadNamed
  split
  · exact Does.rc _
  · rename_i hdeclares
    apply does_scan
    rintro ⟨_ | slot,reclaimable⟩ hscanned
    · exact Does.rc _
    · obtain ⟨hslot,hread⟩:=hscanned.found slot rfl
      show Does p name s ((onStorage (rmemReadWithHeader env.access slot) >>= _) s)
      rcases rmemRead_spec (s:=s) (rmemPool_lt hslot) env.access with herror | ⟨reply,hreply,hok⟩
      · rw [bind_of_error herror]
        exact Does.stopped .unchanged
      · rw [bind_of_ok hreply]
        cases reply with
        | error e=>exact Does.rc _
        | ok r=>
          have hr : s.rmem slot=some (.record r):=((hok r).mp rfl).2
          dsimp only
          split
          · exact Does.rc _
          · exact Does.ok ⟨hslot,mem_of_activeDeclares hdeclares,hr,named_of_headerRead hread r hr⟩ .unchanged

theorem hostRmemNameUsed_does : Does p name s (hostRmemNameUsed env d p name s):=by
  unfold hostRmemNameUsed
  split
  · exact Does.ok trivial .unchanged
  · rename_i hdeclares
    apply does_scan
    rintro ⟨_ | slot,reclaimable⟩ hscanned
    · exact Does.ok trivial .unchanged
    · obtain ⟨hslot,hread⟩:=hscanned.found slot rfl
      exact Does.ok ⟨hslot,mem_of_activeDeclares hdeclares,headerRead_some hread⟩ .unchanged

theorem hostRmemEraseNamed_does : Does p name s (hostRmemEraseNamed env d p name s):=by
  unfold hostRmemEraseNamed
  split
  · exact Does.rc _
  · rename_i hdeclares
    apply does_scan
    rintro ⟨_ | slot,reclaimable⟩ hscanned
    · exact Does.rc _
    · obtain ⟨hslot,hread⟩:=hscanned.found slot rfl
      have hchange : Change p name s
          {s with storage:=s.storage.put slot (if env.access.applied then none else s.storage.chip.rmem slot)}:=by
        refine .record hslot (mem_of_activeDeclares hdeclares) (named_of_headerRead hread) ?_
        intro r hr
        left
        split at hr
        · cases hr
        · exact hr
      show Does p name s ((onStorage (seCall env.access (Chip.rmemErase slot)) >>= _) s)
      rw [bind_apply,onStorage_apply,seCall_erase (rmemPool_lt hslot)]
      cases replied env.access (.ok ()) with
      | none=>exact Does.stopped hchange
      | some reply=>exact Does.rcOf reply hchange

theorem headerName_of_short (hcstr : cstr name=name) (hshort : name.length ≤ nameMax) : headerName name=name:=by
  unfold headerName
  rw [hcstr]
  exact List.take_of_length_le hshort

/-- A slot is written where it carries the name, or where it is given to the name with no record in it. -/
theorem hostRmemWriteNamed_does (hcstr : cstr name=name)
    (hspares : name∈p.manifest.rmem →
      Spares rmemPool (fun slot=>∃ r, s.rmem slot=some (.record r)) (headerRead env s)
        (anyInstalledDeclares Manifest.rmem env.manifests d) name) (buf : Bytes) :
    Does p name s (hostRmemWriteNamed env d p name buf s):=by
  unfold hostRmemWriteNamed
  split
  · exact Does.rc _
  · rename_i hvalid
    have hshort : name.length ≤ nameMax:=by
      simp only [Bool.or_eq_true,decide_eq_true_eq,not_or,not_lt] at hvalid
      exact hvalid.2
    split
    · exact Does.rc _
    · rename_i hdeclares
      have hname:=mem_of_activeDeclares hdeclares
      apply does_scan
      rintro ⟨existing,reclaimable⟩ hscanned
      dsimp only
      cases htarget : existing.or reclaimable with
      | none=>exact Does.rc _
      | some target=>
        have hslot : target∈rmemPool ∧ ∀ r, s.rmem target=some (.record r) → r.name=name:=by
          cases existing with
          | some slot=>
            cases htarget
            obtain ⟨hslot,hread⟩:=hscanned.found target rfl
            exact ⟨hslot,named_of_headerRead hread⟩
          | none=>
            cases htarget
            obtain ⟨hslot,hempty⟩:=hscanned.taken rmemPool_sorted (hspares hname)
            exact ⟨hslot,fun r hr=>absurd ⟨r,hr⟩ hempty⟩
        dsimp only
        split
        · exact Does.rc _
        · have hchange : Change p name s
              { s with storage:=s.storage.put target (written env.write (s.storage.chip.rmem target)
                ⟨plgPoolModuleId,0,name,⟨p.id,buf.take (buf.length % 2^16)⟩⟩) }:=by
            refine .record hslot.1 hname hslot.2 ?_
            intro r hr
            rcases written_cases env.write (s.storage.chip.rmem target)
              ⟨plgPoolModuleId,0,name,⟨p.id,buf.take (buf.length % 2^16)⟩⟩ with h | h | h
            · rw [h] at hr
              cases hr
              exact Or.inr ⟨headerName_of_short hcstr hshort,rfl⟩
            · rw [h] at hr
              cases hr
            · exact Or.inl (h.symm.trans hr)
          rw [← rmemWriteWithHeader_state (rmemPool_lt hslot.1)] at hchange
          rw [bind_apply,onStorage_apply]
          revert hchange
          cases rmemWriteWithHeader env.write target
            ⟨plgPoolModuleId,0,name,⟨p.id,buf.take (buf.length % 2^16)⟩⟩ s.storage with
          | mk reply st=>
            intro hchange
            cases reply with
            | error e=>exact Does.stopped hchange
            | ok reply=>exact Does.rcOf reply hchange

end Records

section Keys

variable {env : HostEnv} {d : Disk} {p : Instance} {name : Name} {s t : Store} {slot : ℕ}

variable (env d name s) in
theorem eccSearch_spec :
    scanPool (fun slot=>nvsGetStr (env.nvsGet slot) slot) (anyInstalledDeclares Manifest.ecc env.manifests d) name
        eccPool none s=(.error ⟨⟩,s) ∨
      ∃ answer, scanPool (fun slot=>nvsGetStr (env.nvsGet slot) slot)
          (anyInstalledDeclares Manifest.ecc env.manifests d) name eccPool none s=(.ok answer,s) ∧
        Scanned (mappingRead env s) (anyInstalledDeclares Manifest.ecc env.manifests d) name eccPool none answer:=
  scanPool_spec (fun _ _=>nvsGetStr_looks) none

variable (env d name s) in
theorem resolveEccSlot_find :
    resolveEccSlot env d name false s=(.error ⟨⟩,s) ∨
      ∃ found, resolveEccSlot env d name false s=(.ok found,s) ∧
        ∀ slot, found=some slot → slot∈eccPool ∧ s.eccMap slot=some name:=by
  unfold resolveEccSlot
  split
  · exact Or.inr ⟨none,rfl,by intro _ h; cases h⟩
  · rcases eccSearch_spec env d name s with herror | ⟨answer,hscan,hscanned⟩
    · exact Or.inl (bind_of_error herror)
    · right
      rw [bind_of_ok hscan]
      match answer, hscanned with
      | (some slot,_), hscanned=>
        obtain ⟨hslot,hread⟩:=hscanned.found slot rfl
        refine ⟨some slot,rfl,?_⟩
        rintro _ ⟨⟩
        exact ⟨hslot,mappingRead_some hread⟩
      | (none,some _), _=>exact ⟨none,rfl,by intro _ h; cases h⟩
      | (none,none), _=>exact ⟨none,rfl,by intro _ h; cases h⟩

/-- What it comes to that a slot is the name's: it holds the name's own key or none, and no key has changed. -/
structure Assigned (slot : ℕ) (name : Name) (s : Store) (x : Except PowerLost (Option ℕ) × Store) : Prop where
  hold : ∀ key, s.ecc slot=some key → s.eccMap slot=some name
  at_slot : AtSlot slot s x.2
  ecc : x.2.ecc slot=s.ecc slot
  maker : x.2.maker slot=s.maker slot
  mapped : x.2.eccMap slot=s.eccMap slot ∨ x.2.eccMap slot=some name
  answer : ∀ found, x.1=.ok (some found) → found=slot ∧ x.2.eccMap slot=some name

def Store.map (s : Store) (slot : ℕ) (name : Option Name) : Store:=
  {s with eccMap:=Function.update s.eccMap slot name}

theorem Store.map_at (slot : ℕ) (name : Option Name) : AtSlot slot s (s.map slot name) where
  rmem _:=rfl
  ecc _ _:=rfl
  eccMap other hother:=by simp [Store.map,hother]
  maker _ _:=rfl

@[simp] theorem Store.map_self (slot : ℕ) (name : Option Name) : (s.map slot name).eccMap slot=name:=by
  simp [Store.map]

theorem eccDelete_at (hslot : slot < Chip.eccSlotCount) (o : SeOutcome) :
    AtSlot slot s (onStorage (seCall o (Chip.eccDelete slot)) s).2 ∧
      (onStorage (seCall o (Chip.eccDelete slot)) s).2.eccMap=s.eccMap ∧
      (onStorage (seCall o (Chip.eccDelete slot)) s).2.maker=s.maker ∧
      ((onStorage (seCall o (Chip.eccDelete slot)) s).2.ecc slot=s.ecc slot ∨
        (onStorage (seCall o (Chip.eccDelete slot)) s).2.ecc slot=none):=by
  rw [onStorage_apply,seCall_state]
  cases happlied : o.applied with
  | true=>
    have hchip : (if true=true then (Chip.eccDelete slot s.storage.chip).2 else s.storage.chip) =
        {s.storage.chip with ecc:=Function.update s.storage.chip.ecc slot none}:=by
      simp [Chip.eccDelete,Nat.not_le.mpr hslot]
    rw [hchip]
    refine ⟨⟨fun _=>rfl,?_,fun _ _=>rfl,fun _ _=>rfl⟩,rfl,rfl,Or.inr ?_⟩
    · intro other hother
      simp [Store.ecc,hother]
    · simp [Store.ecc]
  | false=>exact ⟨AtSlot.refl slot s,rfl,rfl,Or.inl rfl⟩

theorem claimEccSlot_assigned (hslot : slot < Chip.eccSlotCount) (hempty : s.ecc slot=none) :
    Assigned slot name s (claimEccSlot env slot name s):=by
  have hold : ∀ key, s.ecc slot=some key → s.eccMap slot=some name:=by
    intro key hkey
    rw [hempty] at hkey
    cases hkey
  have hkept : ∀ (r : Except PowerLost (Option ℕ)), (∀ found, r≠.ok (some found)) → Assigned slot name s (r,s):=
    fun r hr=>⟨hold,AtSlot.refl slot s,rfl,rfl,Or.inl rfl,fun found hfound=>absurd hfound (hr found)⟩
  have hmapped : ∀ (r : Except PowerLost (Option ℕ)), (∀ found, r≠.ok (some found)) →
      Assigned slot name s (r,s.map slot (some name)):=
    fun r hr=>⟨hold,Store.map_at slot _,rfl,rfl,Or.inr (by simp),fun found hfound=>absurd hfound (hr found)⟩
  show Assigned slot name s ((nvsPut env.nvsSet slot (some name) >>= _) s)
  cases hset : env.nvsSet with
  | powerLost applied=>cases applied; exacts [hkept _ (by simp),hmapped _ (by simp)]
  | failed e applied=>cases applied; exacts [hkept _ (by simp),hmapped _ (by simp)]
  | done=>
    rw [bind_of_ok (show nvsPut .done slot (some name) s=(.ok true,s.map slot (some name)) from rfl)]
    show Assigned slot name s ((nvsCommit env.nvsCommit >>= _) (s.map slot (some name)))
    cases hcommit : env.nvsCommit with
    | powerLost applied=>exact hmapped _ (by simp)
    | failed e applied=>exact hmapped _ (by simp)
    | done=>
      rw [bind_of_ok (show nvsCommit .done (s.map slot (some name))=(.ok true,s.map slot (some name)) from rfl)]
      show Assigned slot name s ((onStorage (seCall env.wipe (Chip.eccDelete slot)) >>= fun _=>pure (some slot))
        (s.map slot (some name)))
      obtain ⟨hat,hmap,hmaker,hecc⟩:=eccDelete_at (s:=s.map slot (some name)) hslot env.wipe
      rw [bind_apply]
      revert hat hmap hmaker hecc
      cases onStorage (seCall env.wipe (Chip.eccDelete slot)) (s.map slot (some name)) with
      | mk reply t=>
        intro hat hmap hmaker hecc
        have hnone : t.ecc slot=s.ecc slot:=by
          rcases hecc with h | h
          · exact h
          · exact h.trans hempty.symm
        have hname : t.eccMap slot=some name:=(congrFun hmap slot).trans (Store.map_self slot _)
        have hsame : t.maker slot=s.maker slot:=congrFun hmaker slot
        cases reply with
        | error e=>
          exact ⟨hold,(Store.map_at slot _).trans hat,hnone,hsame,Or.inr hname,fun _ h=>by cases h⟩
        | ok reply=>
          refine ⟨hold,(Store.map_at slot _).trans hat,hnone,hsame,Or.inr hname,?_⟩
          rintro found ⟨⟩
          exact ⟨rfl,hname⟩

/-- With assignment nothing changes either where no slot is found, and else the slot is the name's. -/
theorem resolveEccSlot_assign
    (hspares : Spares eccPool (fun slot=>s.ecc slot≠none) (mappingRead env s)
      (anyInstalledDeclares Manifest.ecc env.manifests d) name) :
    ((resolveEccSlot env d name true s).2=s ∧ ∀ found, (resolveEccSlot env d name true s).1≠.ok (some found)) ∨
      ∃ slot∈eccPool, Assigned slot name s (resolveEccSlot env d name true s):=by
  unfold resolveEccSlot
  split
  · exact Or.inl ⟨rfl,by intro _ h; cases h⟩
  · rcases eccSearch_spec env d name s with herror | ⟨answer,hscan,hscanned⟩
    · rw [bind_of_error herror]
      exact Or.inl ⟨rfl,by intro _ h; cases h⟩
    · rw [bind_of_ok hscan]
      match answer, hscanned with
      | (some slot,_), hscanned=>
        obtain ⟨hslot,hread⟩:=hscanned.found slot rfl
        have hmap:=mappingRead_some hread
        refine Or.inr ⟨slot,hslot,fun _ _=>hmap,AtSlot.refl slot s,rfl,rfl,Or.inl rfl,?_⟩
        rintro found ⟨⟩
        exact ⟨rfl,hmap⟩
      | (none,some slot), hscanned=>
        have hfirst : Scanned (mappingRead env s) (anyInstalledDeclares Manifest.ecc env.manifests d) name eccPool none
            (none,some slot):=hscanned
        obtain ⟨hslot,hempty⟩:=hfirst.taken eccPool_sorted hspares
        exact Or.inr ⟨slot,hslot,claimEccSlot_assigned (eccPool_lt hslot) (not_not.mp hempty)⟩
      | (none,none), _=>exact Or.inl ⟨rfl,by intro _ h; cases h⟩

theorem generateKey_spec (hslot : slot < Chip.eccSlotCount) (o : SeOutcome) (key : EccKey) (maker : Maker) :
    AtSlot slot s (generateKey o slot key maker s).2 ∧ (generateKey o slot key maker s).2.eccMap=s.eccMap ∧
      ∀ new, (generateKey o slot key maker s).2.ecc slot=some new →
        s.ecc slot=some new ∧ (generateKey o slot key maker s).2.maker slot=s.maker slot ∨
          s.ecc slot=none ∧ (generateKey o slot key maker s).2.maker slot=some maker:=by
  unfold generateKey
  dsimp only
  rw [seCall_state]
  cases hold : s.ecc slot with
  | some old=>
    have hchip : (Chip.eccGenerate slot key s.storage.chip).2=s.storage.chip:=by
      have hheld : s.storage.chip.ecc slot=some old:=hold
      simp [Chip.eccGenerate,Nat.not_le.mpr hslot,hheld]
    rw [hchip,ite_self]
    refine ⟨AtSlot.refl slot s,rfl,?_⟩
    intro new hnew
    exact Or.inl ⟨hold.symm.trans hnew,rfl⟩
  | none=>
    have hchip : (Chip.eccGenerate slot key s.storage.chip).2 =
        {s.storage.chip with ecc:=Function.update s.storage.chip.ecc slot (some key)}:=by
      have hheld : s.storage.chip.ecc slot=none:=hold
      simp [Chip.eccGenerate,Nat.not_le.mpr hslot,hheld]
    rw [hchip]
    refine ⟨⟨?_,?_,fun _ _=>rfl,?_⟩,rfl,?_⟩
    · intro i
      cases o.applied <;> rfl
    · intro other hother
      cases o.applied <;> simp [Store.ecc,hother]
    · intro other hother
      simp [hother]
    · intro new _
      exact Or.inr ⟨rfl,by simp⟩

theorem hostEccGenerate_does
    (hspares : name∈p.manifest.ecc →
      Spares eccPool (fun slot=>s.ecc slot≠none) (mappingRead env s)
        (anyInstalledDeclares Manifest.ecc env.manifests d) name) (curve : EccCurve) :
    Does p name s (hostEccGenerate env d p name curve s):=by
  unfold hostEccGenerate
  split
  · exact Does.rc _
  · split
    · exact Does.rc _
    · rename_i hdeclares
      have hname:=mem_of_activeDeclares hdeclares
      have hresolve:=resolveEccSlot_assign (hspares hname)
      rw [bind_apply]
      revert hresolve
      cases resolveEccSlot env d name true s with
      | mk reply t=>
        intro hresolve
        rcases hresolve with ⟨ht,hnone⟩ | ⟨slot,hslot,h⟩
        · have htt : t=s:=ht
          subst htt
          match reply, hnone with
          | .error _, _=>exact Does.stopped .unchanged
          | .ok none, _=>exact Does.rc _
          | .ok (some found), hnone=>exact absurd rfl (hnone found)
        · have hkept : Change p name s t:=by
            refine .key hslot hname h.at_slot h.hold ?_ ?_
            · rcases h.mapped with hmap | hmap
              · exact Or.inl hmap
              · exact Or.inr (Or.inr hmap)
            · intro key hkey
              exact Or.inl ⟨h.ecc.symm.trans hkey,h.maker⟩
          match reply, h with
          | .error _, _=>exact Does.stopped hkept
          | .ok none, _=>exact Does.ok trivial hkept
          | .ok (some found), h=>
            obtain ⟨rfl,hmap⟩:=h.answer found rfl
            obtain ⟨hat,hsame,hnew⟩:=
              generateKey_spec (s:=t) (eccPool_lt hslot) env.access ⟨curve,env.secret⟩ ⟨p.id,name⟩
            show Does p name s ((generateKey env.access found ⟨curve,env.secret⟩ ⟨p.id,name⟩ >>= _) t)
            rw [bind_apply]
            revert hat hsame hnew
            cases generateKey env.access found ⟨curve,env.secret⟩ ⟨p.id,name⟩ t with
            | mk reply u=>
              intro hat hsame hnew
              have hmapped : u.eccMap found=some name:=(congrFun hsame found).trans hmap
              have hchange : Change p name s u:=by
                refine .key hslot hname (h.at_slot.trans hat) h.hold (Or.inr (Or.inr hmapped)) ?_
                intro key hkey
                rcases hnew key hkey with ⟨hold,hmaker⟩ | ⟨-,hmaker⟩
                · exact Or.inl ⟨h.ecc.symm.trans hold,hmaker.trans h.maker⟩
                · exact Or.inr ⟨hmaker,hmapped⟩
              cases reply with
              | error e=>exact Does.stopped hchange
              | ok reply=>exact Does.rcOf reply hchange

/-- A call that goes on from the search for the name's key does what it does from there. -/
theorem does_resolve {k : Option ℕ→HostM HostReply}
    (hk : ∀ found, (∀ slot, found=some slot → slot∈eccPool ∧ s.eccMap slot=some name) →
      Does p name s (k found s)) :
    Does p name s ((resolveEccSlot env d name false >>= k) s):=by
  rcases resolveEccSlot_find env d name s with herror | ⟨found,hfound,hmap⟩
  · rw [bind_of_error herror]
    exact Does.stopped .unchanged
  · rw [bind_of_ok hfound]
    exact hk found hmap

theorem onNamedKey_does {call : ℕ→HostM HostReply}
    (hcall : ∀ slot∈eccPool, name∈p.manifest.ecc → s.eccMap slot=some name→Does p name s (call slot s)) :
    Does p name s (onNamedKey env d p name call s):=by
  unfold onNamedKey
  split
  · exact Does.rc _
  · rename_i hdeclares
    apply does_resolve
    rintro (_ | slot) hfound
    · exact Does.rc _
    · obtain ⟨hslot,hmap⟩:=hfound slot rfl
      exact hcall slot hslot (mem_of_activeDeclares hdeclares) hmap

/-- A read of the chip's key slots changes nothing, and the key it answers with lies in the slot. -/
theorem keyRead_spec {call : Chip (Content Owned) → SeReply EccKey × Chip (Content Owned)} (o : SeOutcome)
    (hcall : ∀ c, (call c).2=c ∧ ∀ key, (call c).1=.ok key → c.ecc slot=some key) :
    onStorage (seCall o call) s=(.error ⟨⟩,s) ∨
      ∃ reply, onStorage (seCall o call) s=(.ok reply,s) ∧ ∀ key, reply=.ok key → s.ecc slot=some key:=by
  obtain ⟨hchip,hkey⟩:=hcall s.storage.chip
  have hstate : (onStorage (seCall o call) s).2=s:=by
    rw [onStorage_apply,seCall_state,hchip,ite_self]
  have hreply : (onStorage (seCall o call) s).1=(seCall o call s.storage).1:=rfl
  cases o with
  | done=>exact Or.inr ⟨_,Prod.ext hreply hstate,hkey⟩
  | failed e applied=>exact Or.inr ⟨.error e,Prod.ext hreply hstate,fun _ h=>by cases h⟩
  | powerLost applied=>exact Or.inl (Prod.ext hreply hstate)

theorem eccGetPublicKey_reads (c : Chip (Content Owned)) :
    (Chip.eccGetPublicKey slot c).2=c ∧ ∀ key, (Chip.eccGetPublicKey slot c).1=.ok key → c.ecc slot=some key:=by
  unfold Chip.eccGetPublicKey
  split
  · exact ⟨rfl,fun _ h=>by cases h⟩
  · cases c.ecc slot with
    | none=>exact ⟨rfl,fun _ h=>by cases h⟩
    | some key=>exact ⟨rfl,by rintro _ ⟨⟩; rfl⟩

theorem eccSigningKey_reads (c : Chip (Content Owned)) :
    (Chip.eccSigningKey slot c).2=c ∧ ∀ key, (Chip.eccSigningKey slot c).1=.ok key → c.ecc slot=some key:=by
  unfold Chip.eccSigningKey
  split
  · exact ⟨rfl,fun _ h=>by cases h⟩
  · cases c.ecc slot with
    | none=>exact ⟨rfl,fun _ h=>by cases h⟩
    | some key=>exact ⟨rfl,by rintro _ ⟨⟩; rfl⟩

theorem hostEccPubkey_does : Does p name s (hostEccPubkey env d p name s):=by
  apply onNamedKey_does
  intro slot hslot hname hmap
  show Does p name s ((onStorage (seCall env.access (Chip.eccGetPublicKey slot)) >>= _) s)
  rcases keyRead_spec (s:=s) env.access eccGetPublicKey_reads with herror | ⟨reply,hreply,hkey⟩
  · rw [bind_of_error herror]
    exact Does.stopped .unchanged
  · rw [bind_of_ok hreply]
    cases reply with
    | error e=>exact Does.rc _
    | ok key=>exact Does.ok ⟨hslot,hname,hkey key rfl,hmap⟩ .unchanged

theorem hostEccExists_does : Does p name s (hostEccExists env d p name s):=by
  unfold hostEccExists
  split
  · exact Does.ok trivial .unchanged
  · rename_i hdeclares
    apply does_resolve
    rintro (_ | slot) hfound
    · exact Does.ok trivial .unchanged
    · obtain ⟨hslot,hmap⟩:=hfound slot rfl
      show Does p name s ((onStorage (seCall env.access (Chip.eccGetPublicKey slot)) >>= _) s)
      rcases keyRead_spec (s:=s) env.access eccGetPublicKey_reads with herror | ⟨reply,hreply,hkey⟩
      · rw [bind_of_error herror]
        exact Does.stopped .unchanged
      · rw [bind_of_ok hreply]
        cases reply with
        | error e=>exact Does.ok trivial .unchanged
        | ok key=>exact Does.ok ⟨hslot,mem_of_activeDeclares hdeclares,⟨key,hkey key rfl⟩,hmap⟩ .unchanged

theorem hostSign_does (msg : Bytes) : Does p name s (hostSign env d p name msg s):=by
  apply onNamedKey_does
  intro slot hslot hname hmap
  cases msg with
  | nil=>exact Does.rc _
  | cons first rest=>
    show Does p name s ((onStorage (seCall env.access (Chip.eccSigningKey slot)) >>= _) s)
    rcases keyRead_spec (s:=s) env.access eccSigningKey_reads with herror | ⟨reply,hreply,hkey⟩
    · rw [bind_of_error herror]
      exact Does.stopped .unchanged
    · rw [bind_of_ok hreply]
      cases reply with
      | error e=>exact Does.rc _
      | ok key=>exact Does.ok ⟨hslot,hname,hkey key rfl,hmap⟩ .unchanged

variable (env) in
theorem freeEccMapping_state (slot : ℕ) :
    (freeEccMapping env slot s).2=s ∨ (freeEccMapping env slot s).2=s.map slot none:=by
  have hcommit : ∀ t, ((nvsCommit env.freeCommit >>= fun _=>pure ()) t : Except PowerLost Unit × Store).2=t:=by
    intro t
    cases hc : env.freeCommit <;> rfl
  unfold freeEccMapping
  split
  · exact Or.inl rfl
  · show ((nvsPut env.nvsErase slot none >>= fun _=>nvsCommit env.freeCommit >>= fun _=>pure ()) s).2=s ∨ _
    cases ho : env.nvsErase with
    | done=>
      rw [bind_of_ok (show nvsPut .done slot none s=(.ok true,s.map slot none) from rfl)]
      exact Or.inr (hcommit _)
    | failed e applied=>
      cases applied with
      | true=>
        rw [bind_of_ok (show nvsPut (.failed e true) slot none s=(.ok false,s.map slot none) from rfl)]
        exact Or.inr (hcommit _)
      | false=>
        rw [bind_of_ok (show nvsPut (.failed e false) slot none s=(.ok false,s) from rfl)]
        exact Or.inl (hcommit _)
    | powerLost applied=>cases applied <;> [exact Or.inl rfl; exact Or.inr rfl]

theorem hostEccDelete_does : Does p name s (hostEccDelete env d p name s):=by
  apply onNamedKey_does
  intro slot hslot hname hmap
  obtain ⟨hat,hsame,hmaker,hecc⟩:=eccDelete_at (s:=s) (eccPool_lt hslot) env.access
  have hkey : ∀ t : Store, t.ecc slot=s.ecc slot ∨ t.ecc slot=none→t.maker slot=s.maker slot →
      ∀ key, t.ecc slot=some key →
        s.ecc slot=some key ∧ t.maker slot=s.maker slot ∨ t.maker slot=some ⟨p.id,name⟩ ∧ t.eccMap slot=some name:=by
    intro t ht hmaker key hkey
    rcases ht with h | h
    · exact Or.inl ⟨h.symm.trans hkey,hmaker⟩
    · rw [h] at hkey
      cases hkey
  show Does p name s ((onStorage (seCall env.access (Chip.eccDelete slot)) >>= _) s)
  rw [bind_apply]
  revert hat hsame hmaker hecc
  cases onStorage (seCall env.access (Chip.eccDelete slot)) s with
  | mk reply t=>
    intro hat hsame hmaker hecc
    have hdeleted : Change p name s t:=by
      refine .key hslot hname hat (fun _ _=>hmap) (Or.inl (congrFun hsame slot)) ?_
      exact hkey t hecc (congrFun hmaker slot)
    have hfreed : Change p name s (t.map slot none):=by
      refine .key hslot hname (hat.trans (Store.map_at slot none)) (fun _ _=>hmap) (Or.inr (Or.inl (by simp))) ?_
      exact hkey (t.map slot none) hecc (congrFun hmaker slot)
    cases reply with
    | error e=>exact Does.stopped hdeleted
    | ok reply=>
      show Does p name s ((freeEccMapping env slot >>= fun _=>pure (rcOf reply)) t)
      have hstate:=freeEccMapping_state env (s:=t) slot
      rw [bind_apply]
      revert hstate
      cases freeEccMapping env slot t with
      | mk freed u=>
        intro hstate
        have hchange : Change p name s u:=by
          rcases hstate with h | h
          · rw [show u=t from h]
            exact hdeleted
          · rw [show u=t.map slot none from h]
            exact hfreed
        cases freed with
        | error e=>exact Does.stopped hchange
        | ok _=>exact Does.rcOf reply hchange

end Keys

/-- What a call under a name needs of the slots: those that make something take a free slot for it. -/
def CallSpares (env : HostEnv) (d : Disk) (s : Store) (p : Instance) (name : Name) : HostCall→Prop
  | .rmemWrite _=>name∈p.manifest.rmem →
    Spares rmemPool (fun slot=>∃ r, s.rmem slot=some (.record r)) (headerRead env s)
      (anyInstalledDeclares Manifest.rmem env.manifests d) name
  | .eccGenerate _=>name∈p.manifest.ecc →
    Spares eccPool (fun slot=>s.ecc slot≠none) (mappingRead env s)
      (anyInstalledDeclares Manifest.ecc env.manifests d) name
  | _=>True

theorem hostCall_does {env : HostEnv} {d : Disk} {p : Instance} {name : Name} {s : Store} (c : HostCall)
    (hspares : CallSpares env d s p (cstr name) c) : Does p (cstr name) s (hostCall env d p name c s):=by
  cases c with
  | rmemRead len=>exact hostRmemReadNamed_does len
  | rmemWrite buf=>exact hostRmemWriteNamed_does (cstr_cstr name) hspares buf
  | rmemErase=>exact hostRmemEraseNamed_does
  | rmemNameUsed=>exact hostRmemNameUsed_does
  | eccGenerate curve=>exact hostEccGenerate_does hspares curve
  | eccImport=>exact Does.rc _
  | eccPubkey=>exact hostEccPubkey_does
  | eccDelete=>exact hostEccDelete_does
  | eccExists=>exact hostEccExists_does
  | ecdsaSign msg=>exact hostSign_does msg
  | eddsaSign msg=>exact hostSign_does msg

end CdcBadge.Plugin
