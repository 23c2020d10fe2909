import CdcBadge.PluginManager
import CdcBadge.PluginSlots
import CdcBadge.Runs

/-!
# Whose keys and records a plugin reaches

A key or record belongs to the plugin that made it, and the badge knows this only by its name. Where
no load takes a name that another plugin's key, record or instance goes by, and nothing that lies in the pool
is taken for free, every call of a run stays with what the calling plugin made.
-/

namespace CdcBadge.Plugin.Isolation

open Handler Tropic Runs Manager
open Cbor (ascii)

def caller (b : Badge) : Event→Option (Instance × Name)
  | .call place _ name _=>(b.instanceAt place).map fun p=>(p,cstr name)
  | _=>none

def reply (b : Badge) : Event→Option HostReply
  | .call place env name c=>
    match b.instanceAt place with
    | none=>none
    | some p=>(hostCall env b.disk p name c b.store).1.toOption
  | _=>none

def recordOf : HostReply→Option ℕ
  | .data slot _=>some slot
  | .nameUsed slot=>slot
  | _=>none

def keyOf : HostReply→Option ℕ
  | .pubkey slot _=>some slot
  | .signature slot _ _=>some slot
  | .exists slot=>slot
  | _=>none

/-- A step reads, signs with, overwrites and erases only what the calling plugin has made, and takes no key or
record of an installed plugin for another name. -/
structure Secluded (b : Badge) (e : Event) : Prop where
  reads : ∀ told slot, reply b e=some told → recordOf told=some slot →
    ∃ p name r, caller b e=some (p,name) ∧ b.store.rmem slot=some (.record r) ∧ r.payload.creator=p.id
  signs : ∀ told slot, reply b e=some told→keyOf told=some slot →
    ∃ p name m, caller b e=some (p,name) ∧ b.store.maker slot=some m ∧ m.id=p.id
  records : ∀ slot r, b.store.rmem slot=some (.record r)→(b.step e).store.rmem slot≠some (.record r) →
    ∃ p name, caller b e=some (p,name) ∧ r.payload.creator=p.id ∧
      (r.payload.creator∈listInstalledIds b.disk → r.name=name)
  keys : ∀ slot key, b.store.ecc slot=some key→(b.step e).store.ecc slot≠some key →
    ∃ p name m, caller b e=some (p,name) ∧ b.store.maker slot=some m ∧ m.id=p.id ∧
      (m.id∈listInstalledIds b.disk→m.name=name)
  mapping : ∀ slot key name, b.store.ecc slot=some key→(b.step e).store.eccMap slot=some name →
    b.store.eccMap slot≠some name →
      ∃ m, b.store.maker slot=some m ∧ (m.id∈listInstalledIds b.disk→m.name=name)

/-- No name of the manifest is the name of another plugin's record, key or instance. -/
structure Clear (b : Badge) (id : Id) (mf : Manifest) : Prop where
  records : ∀ slot∈rmemPool, ∀ r, b.store.rmem slot=some (.record r) → r.payload.creator≠id → r.name ∉ mf.rmem
  keys : ∀ slot∈eccPool, ∀ key m, b.store.ecc slot=some key→b.store.maker slot=some m→m.id≠id →
    m.name ∉ mf.ecc
  instances : ∀ p∈b.live, p.id≠id →
    (∀ name∈mf.rmem, name ∉ p.manifest.rmem) ∧ ∀ name∈mf.ecc, name ∉ p.manifest.ecc

/-- A load with the checks, where it is not refused, takes no name of another plugin. -/
def LoadsClear (b : Badge) (id : Id) (reads : Reads) : Prop:=
  ∀ mf, getManifest reads b.disk id=some mf→passes b id reads mf=true → Clear b id mf

/-- A load takes no name that something of another plugin goes by, and a call that needs a free slot finds one
that is free. -/
def Meets (b : Badge) : Event→Prop
  | .startPlugin id reads _ _=>isLoaded b id=false → LoadsClear (leaveActive b) id reads
  | .autoload id reads _=>isLoaded b id=false → LoadsClear b id reads
  | .activateForMessageType id reads _=>isLoaded b id=false → LoadsClear b id reads
  | .uploadBinary id renamed reads _ _=>renamed=true→isRunningInBackground b id=true →
    ∀ mf, getManifest reads b.disk id=some mf→mf.background=true → Clear b id mf
  | .call place env name c=>∀ p, b.instanceAt place=some p → CallSpares env b.disk b.store p (cstr name) c
  | _=>True

/-- Whatever lies in the pool has a name that no instance of another plugin declares; the mapping of a key is its name. -/
structure Sound (b : Badge) : Prop where
  records : ∀ slot∈rmemPool, ∀ r, b.store.rmem slot=some (.record r) →
    ∀ p∈b.live, p.id≠r.payload.creator → r.name ∉ p.manifest.rmem
  keys : ∀ slot∈eccPool, ∀ key, b.store.ecc slot=some key →
    ∃ m, b.store.maker slot=some m ∧ (∀ name, b.store.eccMap slot=some name→name=m.name) ∧
      ∀ p∈b.live, p.id≠m.id→m.name ∉ p.manifest.ecc
  apart : ∀ p∈b.live, ∀ q∈b.live, p.id≠q.id →
    (∀ name∈p.manifest.rmem, name ∉ q.manifest.rmem) ∧ ∀ name∈p.manifest.ecc, name ∉ q.manifest.ecc

/-- A step of the manager that loads nothing: every instance was there before, with its id and manifest. -/
structure Keeps (b b' : Badge) : Prop where
  store : b'.store=b.store
  live : ∀ p'∈b'.live, ∃ p∈b.live, p.id=p'.id ∧ p.manifest=p'.manifest

theorem Keeps.refl (b : Badge) : Keeps b b:=⟨rfl,fun p hp=>⟨p,hp,rfl,rfl⟩⟩

theorem Keeps.of_subset {b b' : Badge} (hstore : b'.store=b.store) (hlive : b'.live ⊆ b.live) : Keeps b b':=
  ⟨hstore,fun p hp=>⟨p,hlive hp,rfl,rfl⟩⟩

theorem Keeps.trans {b b' b'' : Badge} (h : Keeps b b') (h' : Keeps b' b'') : Keeps b b'':=by
  refine ⟨h'.store.trans h.store,?_⟩
  intro p hp
  obtain ⟨q,hq,hqid,hqmf⟩:=h'.live p hp
  obtain ⟨r,hr,hrid,hrmf⟩:=h.live q hq
  exact ⟨r,hr,hrid.trans hqid,hrmf.trans hqmf⟩

theorem Sound.keeps {b b' : Badge} (hb : Sound b) (h : Keeps b b') : Sound b':=by
  refine ⟨?_,?_,?_⟩
  · rw [h.store]
    intro slot hslot r hr p' hp' hid
    obtain ⟨p,hp,hpid,hpmf⟩:=h.live p' hp'
    rw [← hpmf]
    exact hb.records slot hslot r hr p hp (hpid ▸ hid)
  · rw [h.store]
    intro slot hslot key hkey
    obtain ⟨m,hm,hmap,hlive⟩:=hb.keys slot hslot key hkey
    refine ⟨m,hm,hmap,?_⟩
    intro p' hp' hid
    obtain ⟨p,hp,hpid,hpmf⟩:=h.live p' hp'
    rw [← hpmf]
    exact hlive p hp (hpid ▸ hid)
  · intro p' hp' q' hq' hid
    obtain ⟨p,hp,hpid,hpmf⟩:=h.live p' hp'
    obtain ⟨q,hq,hqid,hqmf⟩:=h.live q' hq'
    rw [← hpmf,← hqmf]
    exact hb.apart p hp q hq (by rwa [hpid,hqid])

theorem mem_live {b : Badge} {p : Instance} :
    p∈b.live ↔ b.active=some p ∨ p∈b.background ∨ ∃ foreground, (p,foreground)∈b.starting:=by
  simp [Badge.live]

theorem Keeps.of_mem {b b' : Badge} (hstore : b'.store=b.store)
    (hlive : ∀ p, (b'.active=some p ∨ p∈b'.background ∨ ∃ foreground, (p,foreground)∈b'.starting) →
      b.active=some p ∨ p∈b.background ∨ ∃ foreground, (p,foreground)∈b.starting) : Keeps b b':=
  Keeps.of_subset hstore fun p hp=>mem_live.mpr (hlive p (mem_live.mp hp))

theorem Sound.load {b : Badge} {id : Id} {mf : Manifest} (hb : Sound b) (hclear : Clear b id mf)
    (loads foreground : Bool) : Sound (load b id loads foreground mf):=by
  unfold Manager.load
  cases loads with
  | false=>exact hb
  | true=>
    have hlive : ∀ p, p∈({b with starting:=b.starting++[(⟨id,mf,false⟩,foreground)]} : Badge).live ↔
        p∈b.live ∨ p=⟨id,mf,false⟩:=by
      intro p
      simp only [mem_live,List.mem_append,List.mem_singleton,Prod.mk.injEq]
      constructor
      · rintro (h | h | ⟨f,h | h⟩)
        · exact Or.inl (Or.inl h)
        · exact Or.inl (Or.inr (Or.inl h))
        · exact Or.inl (Or.inr (Or.inr ⟨f,h⟩))
        · exact Or.inr h.1
      · rintro ((h | h | ⟨f,h⟩) | h)
        · exact Or.inl h
        · exact Or.inr (Or.inl h)
        · exact Or.inr (Or.inr ⟨f,Or.inl h⟩)
        · exact Or.inr (Or.inr ⟨foreground,Or.inr ⟨h,rfl⟩⟩)
    refine ⟨?_,?_,?_⟩
    · intro slot hslot r hr p hp hid
      rcases (hlive p).mp hp with hp | rfl
      · exact hb.records slot hslot r hr p hp hid
      · exact hclear.records slot hslot r hr (Ne.symm hid)
    · intro slot hslot key hkey
      obtain ⟨m,hm,hmap,hothers⟩:=hb.keys slot hslot key hkey
      refine ⟨m,hm,hmap,?_⟩
      intro p hp hid
      rcases (hlive p).mp hp with hp | rfl
      · exact hothers p hp hid
      · exact hclear.keys slot hslot key m hkey hm (Ne.symm hid)
    · intro p hp q hq hid
      rcases (hlive p).mp hp with hp | rfl
      · rcases (hlive q).mp hq with hq | rfl
        · exact hb.apart p hp q hq hid
        · obtain ⟨hrmem,hecc⟩:=hclear.instances p hp hid
          exact ⟨fun name h h'=>hrmem name h' h,fun name h h'=>hecc name h' h⟩
      · rcases (hlive q).mp hq with hq | rfl
        · exact hclear.instances q hq (Ne.symm hid)
        · exact absurd rfl hid

section Steps

variable {b : Badge} {id : Id}

theorem leaveActive_keeps : Keeps b (leaveActive b):=by
  unfold leaveActive
  cases hactive : b.active with
  | none=>exact Keeps.refl b
  | some p=>
    dsimp only
    split
    · refine Keeps.of_mem (by rfl) ?_
      rintro q (h | h | h)
      · cases h
      · rcases List.mem_append.mp h with h | h
        · exact Or.inr (Or.inl h)
        · cases List.mem_singleton.mp h
          exact Or.inl hactive
      · exact Or.inr (Or.inr h)
    · refine Keeps.of_mem (by rfl) ?_
      rintro q (h | h | h)
      · cases h
      · exact Or.inr (Or.inl h)
      · exact Or.inr (Or.inr h)

variable (id) in
theorem promote_keeps (entered : Bool) : Keeps b (promote b id entered):=by
  unfold promote
  cases hfind : b.background.find? (·.id == id) with
  | none=>exact Keeps.refl b
  | some p=>
    have hp : p∈b.background:=List.mem_of_find?_eq_some hfind
    dsimp only
    cases entered with
    | true=>
      refine Keeps.of_mem (by rfl) ?_
      rintro q (h | h | h)
      · cases h
        exact Or.inr (Or.inl hp)
      · exact Or.inr (Or.inl (List.mem_of_mem_eraseP h))
      · exact Or.inr (Or.inr h)
    | false=>
      refine Keeps.of_mem (by rfl) ?_
      rintro q (h | h | h)
      · exact Or.inl h
      · rcases List.mem_append.mp h with h | h
        · exact Or.inr (Or.inl (List.mem_of_mem_eraseP h))
        · cases List.mem_singleton.mp h
          exact Or.inr (Or.inl hp)
      · exact Or.inr (Or.inr h)

theorem started_keeps (k : ℕ) (succeeds : Bool) : Keeps b (started b k succeeds):=by
  unfold started
  cases hget : b.starting[k]? with
  | none=>exact Keeps.refl b
  | some entry=>
    obtain ⟨p,foreground⟩:=entry
    have hp : (p,foreground)∈b.starting:=List.mem_of_getElem? hget
    have hrest : ∀ q f, (q,f)∈b.starting.eraseIdx k→(q,f)∈b.starting:=fun q f h=>List.mem_of_mem_eraseIdx h
    dsimp only
    split
    · refine Keeps.of_mem (by rfl) ?_
      rintro q (h | h | ⟨f,h⟩)
      · exact Or.inl h
      · exact Or.inr (Or.inl h)
      · exact Or.inr (Or.inr ⟨f,hrest q f h⟩)
    · split
      · refine Keeps.of_mem (by rfl) ?_
        rintro q (h | h | ⟨f,h⟩)
        · cases h
          exact Or.inr (Or.inr ⟨foreground,hp⟩)
        · exact Or.inr (Or.inl h)
        · exact Or.inr (Or.inr ⟨f,hrest q f h⟩)
      · refine Keeps.of_mem (by rfl) ?_
        rintro q (h | h | ⟨f,h⟩)
        · exact Or.inl h
        · rcases List.mem_append.mp h with h | h
          · exact Or.inr (Or.inl h)
          · cases List.mem_singleton.mp h
            exact Or.inr (Or.inr ⟨foreground,hp⟩)
        · exact Or.inr (Or.inr ⟨f,hrest q f h⟩)

theorem unloadFromRam_keeps : Keeps b (unloadFromRam b id):=by
  unfold unloadFromRam
  split
  · refine Keeps.of_mem (by rfl) ?_
    rintro q (h | h)
    · cases h
    · exact Or.inr h
  · refine Keeps.of_mem (by rfl) ?_
    rintro q (h | h | h)
    · exact Or.inl h
    · exact Or.inr (Or.inl (List.mem_of_mem_eraseP h))
    · exact Or.inr (Or.inr h)

variable (id) in
theorem underLock_keeps (locked : Bool) : Keeps b (underLock b locked (unloadFromRam · id)):=by
  unfold underLock
  split
  · exact unloadFromRam_keeps
  · exact Keeps.refl b

theorem handleTrap_keeps (place : Place) : Keeps b (handleTrap b place):=by
  cases place with
  | active=>
    refine Keeps.of_mem (by rfl) ?_
    rintro q (h | h)
    · cases h
    · exact Or.inr h
  | background k=>
    refine Keeps.of_mem (by rfl) ?_
    rintro q (h | h | h)
    · exact Or.inl h
    · exact Or.inr (Or.inl (List.mem_of_mem_eraseIdx h))
    · exact Or.inr (Or.inr h)
  | starting k=>exact Keeps.refl b

theorem setResident_keeps (on : Bool) (place : Place) : Keeps b (setResident b on place):=by
  refine ⟨by cases place <;> rfl,?_⟩
  intro q hq
  cases place with
  | active=>
    rw [mem_live] at hq
    rcases hq with h | h
    · cases hactive : b.active with
      | none=>
        rw [setResident,hactive] at h
        cases h
      | some p=>
        rw [setResident,hactive] at h
        cases h
        exact ⟨p,mem_live.mpr (Or.inl hactive),rfl,rfl⟩
    · exact ⟨q,mem_live.mpr (Or.inr h),rfl,rfl⟩
  | background k=>
    rw [mem_live] at hq
    rcases hq with h | h | h
    · exact ⟨q,mem_live.mpr (Or.inl h),rfl,rfl⟩
    · obtain ⟨i,hi⟩:=List.mem_iff_getElem?.mp h
      rw [setResident,List.getElem?_modify] at hi
      cases hold : b.background[i]? with
      | none=>simp [hold] at hi
      | some p=>
        have hp : p∈b.live:=mem_live.mpr (Or.inr (Or.inl (List.mem_of_getElem? hold)))
        refine ⟨p,hp,?_⟩
        by_cases hk : k=i
        · simp [hold,hk] at hi
          exact ⟨by rw [← hi],by rw [← hi]⟩
        · simp [hold,hk] at hi
          exact ⟨by rw [hi],by rw [hi]⟩
    · exact ⟨q,mem_live.mpr (Or.inr (Or.inr h)),rfl,rfl⟩
  | starting k=>
    rw [mem_live] at hq
    rcases hq with h | h | ⟨f,h⟩
    · exact ⟨q,mem_live.mpr (Or.inl h),rfl,rfl⟩
    · exact ⟨q,mem_live.mpr (Or.inr (Or.inl h)),rfl,rfl⟩
    · obtain ⟨i,hi⟩:=List.mem_iff_getElem?.mp h
      rw [setResident,List.getElem?_modify] at hi
      cases hold : b.starting[i]? with
      | none=>simp [hold] at hi
      | some entry=>
        have hp : entry.1∈b.live:=mem_live.mpr (Or.inr (Or.inr ⟨entry.2,List.mem_of_getElem? hold⟩))
        refine ⟨entry.1,hp,?_⟩
        by_cases hk : k=i
        · simp [hold,hk] at hi
          exact ⟨by rw [← hi.1],by rw [← hi.1]⟩
        · simp [hold,hk] at hi
          exact ⟨by rw [hi],by rw [hi]⟩

theorem reboot_keeps : Keeps b (reboot b):=by
  refine Keeps.of_mem (by rfl) ?_
  rintro q (h | h | ⟨f,h⟩) <;> cases h

theorem disk_keeps (disk : Disk) : Keeps b {b with disk}:=Keeps.of_mem (by rfl) fun _ h=>h

theorem uninstallPlugin_keeps (locked binaryRemoved metaRemoved : Bool) :
    Keeps b (uninstallPlugin b id locked binaryRemoved metaRemoved):=
  (underLock_keeps _ locked).trans (disk_keeps _)

theorem setPluginDisabled_keeps (disabled locked : Bool) (reads : Reads) :
    Keeps b (setPluginDisabled b id disabled locked reads):=by
  unfold setPluginDisabled
  split
  · exact Keeps.refl b
  · dsimp only
    split
    · exact (disk_keeps _).trans (underLock_keeps _ locked)
    · exact disk_keeps _

theorem instanceAt_live {place : Place} {p : Instance} (h : b.instanceAt place=some p) : p∈b.live:=by
  rw [mem_live]
  cases place with
  | active=>exact Or.inl h
  | background k=>exact Or.inr (Or.inl (List.mem_of_getElem? h))
  | starting k=>
    obtain ⟨⟨q,f⟩,hget,rfl⟩:=Option.map_eq_some_iff.mp h
    exact Or.inr (Or.inr ⟨f,List.mem_of_getElem? hget⟩)

end Steps

section Calls

variable {b : Badge} {p : Instance} {name : Name} {t : Store}

theorem Sound.record_creator (hb : Sound b) (hp : p∈b.live) {slot : ℕ} (hslot : slot∈rmemPool) {r : Record Owned}
    (hr : b.store.rmem slot=some (.record r)) (hname : r.name∈p.manifest.rmem) : r.payload.creator=p.id:=by
  by_contra hne
  exact hb.records slot hslot r hr p hp (Ne.symm hne) hname

/-- A key that is mapped to a name which a live plugin declares is that plugin's, under that name. -/
theorem Sound.key_maker (hb : Sound b) (hp : p∈b.live) {slot : ℕ} (hslot : slot∈eccPool) {key : EccKey}
    (hkey : b.store.ecc slot=some key) (hmap : b.store.eccMap slot=some name) (hname : name∈p.manifest.ecc) :
    b.store.maker slot=some ⟨p.id,name⟩:=by
  obtain ⟨m,hm,hmapped,hothers⟩:=hb.keys slot hslot key hkey
  have hmname : name=m.name:=hmapped name hmap
  have hid : m.id=p.id:=by
    by_contra hne
    exact hothers p hp (Ne.symm hne) (hmname ▸ hname)
  rw [hm,hmname,← hid]

theorem Sound.change (hb : Sound b) (hp : p∈b.live) (hchange : Change p name b.store t) :
    Sound {b with store:=t}:=by
  cases hchange with
  | unchanged=>exact hb
  | @record slot content hslot hname hold hnew=>
    refine ⟨?_,?_,hb.apart⟩
    · intro other hother r hr q hq hid
      by_cases hsame : other=slot
      · subst hsame
        have hcontent : content=some (.record r):=by
          have : (b.store.storage.put other content).chip.rmem other=some (.record r):=hr
          rwa [Storage.put_self] at this
        rcases hnew r hcontent with h | ⟨hrname,hcreator⟩
        · exact hb.records other hother r h q hq hid
        · rw [hrname]
          exact (hb.apart p hp q hq (by rw [← hcreator]; exact Ne.symm hid)).1 name hname
      · have hkept : b.store.rmem other=some (.record r):=by
          have : (b.store.storage.put slot content).chip.rmem other=some (.record r):=hr
          rwa [Storage.put_other hsame] at this
        exact hb.records other hother r hkept q hq hid
    · intro other hother key hkey
      exact hb.keys other hother key hkey
  | @key slot _ hslot hname hat hold hmap hnew=>
    refine ⟨?_,?_,hb.apart⟩
    · intro other hother r hr q hq hid
      exact hb.records other hother r ((hat.rmem other).symm.trans hr) q hq hid
    · intro other hother key hkey
      by_cases hsame : other=slot
      · subst hsame
        rcases hnew key hkey with ⟨hkept,hmaker⟩ | ⟨hmaker,hmapped⟩
        · have howner:=hb.key_maker hp hslot hkept (hold key hkept) hname
          refine ⟨⟨p.id,name⟩,hmaker.trans howner,?_,?_⟩
          · intro other hother
            have hother : t.eccMap _=some other:=hother
            rcases hmap with h | h | h
            · rw [h,hold key hkept] at hother
              exact (Option.some.inj hother).symm
            · rw [h] at hother
              cases hother
            · rw [h] at hother
              exact (Option.some.inj hother).symm
          · intro q hq hid
            exact (hb.apart p hp q hq (Ne.symm hid)).2 name hname
        · refine ⟨⟨p.id,name⟩,hmaker,?_,?_⟩
          · intro other hother
            have hother : t.eccMap _=some other:=hother
            rw [hmapped] at hother
            exact (Option.some.inj hother).symm
          · intro q hq hid
            exact (hb.apart p hp q hq (Ne.symm hid)).2 name hname
      · have hkept : b.store.ecc other=some key:=(hat.ecc other hsame).symm.trans hkey
        obtain ⟨m,hm,hmapped,hothers⟩:=hb.keys other hother key hkept
        refine ⟨m,(hat.maker other hsame).trans hm,?_,hothers⟩
        intro n hn
        exact hmapped n ((hat.eccMap other hsame).symm.trans hn)

theorem Sound.changed_record (hb : Sound b) (hp : p∈b.live) (hchange : Change p name b.store t) {slot : ℕ}
    {r : Record Owned} (hr : b.store.rmem slot=some (.record r)) (hgone : t.rmem slot≠some (.record r)) :
    r.payload.creator=p.id ∧ r.name=name:=by
  cases hchange with
  | unchanged=>exact absurd hr hgone
  | @record changed content hslot hname hold hnew=>
    by_cases hsame : slot=changed
    · subst hsame
      have hrname:=hold r hr
      exact ⟨hb.record_creator hp hslot hr (hrname ▸ hname),hrname⟩
    · exact absurd ((Storage.put_other hsame content).trans hr) hgone
  | key hslot hname hat hold hmap hnew=>exact absurd ((hat.rmem slot).trans hr) hgone

theorem Sound.changed_key (hb : Sound b) (hp : p∈b.live) (hchange : Change p name b.store t) {slot : ℕ} {key : EccKey}
    (hkey : b.store.ecc slot=some key) (hgone : t.ecc slot≠some key) :
    b.store.maker slot=some ⟨p.id,name⟩:=by
  cases hchange with
  | unchanged=>exact absurd hkey hgone
  | record hslot hname hold hnew=>exact absurd hkey hgone
  | @key changed _ hslot hname hat hold hmap hnew=>
    by_cases hsame : slot=changed
    · subst hsame
      exact hb.key_maker hp hslot hkey (hold key hkey) hname
    · exact absurd ((hat.ecc slot hsame).trans hkey) hgone

theorem changed_mapping (hchange : Change p name b.store t) {slot : ℕ} {key : EccKey} {other : Name}
    (hkey : b.store.ecc slot=some key) (hmap : t.eccMap slot=some other) : b.store.eccMap slot=some other:=by
  cases hchange with
  | unchanged=>exact hmap
  | record hslot hname hold hnew=>exact hmap
  | @key changed _ hslot hname hat hold hmapped hnew=>
    by_cases hsame : slot=changed
    · subst hsame
      rcases hmapped with h | h | h
      · exact h.symm.trans hmap
      · rw [h] at hmap
        cases hmap
      · exact (hold key hkey).trans (h.symm.trans hmap)
    · exact (hat.eccMap slot hsame).symm.trans hmap

end Calls

theorem Secluded.of_store {b : Badge} {e : Event} (hstore : (b.step e).store=b.store) (hreply : reply b e=none) :
    Secluded b e where
  reads told slot h:=by rw [hreply] at h; cases h
  signs told slot h:=by rw [hreply] at h; cases h
  records slot r hr hgone:=absurd (hstore ▸ hr) hgone
  keys slot key hkey hgone:=absurd (hstore ▸ hkey) hgone
  mapping slot key name _ hmap hother:=absurd (hstore ▸ hmap) hother

variable {reads : Reads}

theorem Sound.loadChecked {b : Badge} {id : Id} (hb : Sound b) (hclear : LoadsClear b id reads)
    (loads foreground : Bool) : Sound (loadChecked b id reads loads foreground):=by
  unfold Manager.loadChecked
  cases hmf : getManifest reads b.disk id with
  | none=>exact hb
  | some mf=>
    dsimp only
    split
    · rename_i hpasses
      exact hb.load (hclear mf hmf hpasses) loads foreground
    · exact hb

theorem load_store (b : Badge) (id : Id) (loads foreground : Bool) (mf : Manifest) :
    (load b id loads foreground mf).store=b.store:=by
  unfold load
  split <;> rfl

theorem loadChecked_store (b : Badge) (id : Id) (reads : Reads) (loads foreground : Bool) :
    (loadChecked b id reads loads foreground).store=b.store:=by
  unfold loadChecked
  split
  · rfl
  · split
    · exact load_store b id loads foreground _
    · rfl

theorem isLoaded_of_left {b : Badge} {id : Id} (hactive : ¬isActive b id=true)
    (hbackground : ¬isRunningInBackground (leaveActive b) id=true) : isLoaded b id=false:=by
  have hkept : isRunningInBackground b id=true→isRunningInBackground (leaveActive b) id=true:=by
    intro h
    obtain ⟨p,hp,hid⟩:=List.any_eq_true.mp h
    refine List.any_eq_true.mpr ⟨p,?_,hid⟩
    unfold leaveActive
    split
    · exact hp
    · split
      · exact List.mem_append_left _ hp
      · exact hp
  have hnot : ¬isRunningInBackground b id=true:=fun h=>hbackground (hkept h)
  simp [isLoaded,hactive,hnot]

theorem startPlugin_sound {b : Badge} {id : Id} {loads entered : Bool} (hb : Sound b)
    (h : isLoaded b id=false → LoadsClear (leaveActive b) id reads) :
    Sound (startPlugin b id reads loads entered) ∧ (startPlugin b id reads loads entered).store=b.store:=by
  unfold startPlugin
  split
  · exact ⟨hb,rfl⟩
  · split
    · exact ⟨hb,rfl⟩
    · rename_i hactive
      have hleft : Keeps b (leaveActive b):=leaveActive_keeps
      dsimp only
      split
      · have hpromoted:=hleft.trans (promote_keeps id entered)
        exact ⟨hb.keeps hpromoted,hpromoted.store⟩
      · rename_i hbackground
        refine ⟨(hb.keeps hleft).loadChecked (h (isLoaded_of_left hactive hbackground)) loads true,?_⟩
        rw [loadChecked_store,hleft.store]

theorem autoload_sound {b : Badge} {id : Id} {loads : Bool} (hb : Sound b)
    (h : isLoaded b id=false → LoadsClear b id reads) :
    Sound (autoload b id reads loads) ∧ (autoload b id reads loads).store=b.store:=by
  unfold autoload
  split
  · exact ⟨hb,rfl⟩
  · split
    · exact ⟨hb,rfl⟩
    · rename_i hload
      simp only [Bool.or_eq_true,not_or,Bool.not_eq_true] at hload
      exact ⟨hb.loadChecked (h hload.2) loads false,loadChecked_store b id reads loads false⟩

theorem activateForMessageType_sound {b : Badge} {id : Id} {loads : Bool} (hb : Sound b)
    (h : isLoaded b id=false → LoadsClear b id reads) :
    Sound (activateForMessageType b id reads loads) ∧ (activateForMessageType b id reads loads).store=b.store:=by
  unfold activateForMessageType
  split
  · exact ⟨hb,rfl⟩
  · rename_i hload
    simp only [Bool.or_eq_true,not_or,Bool.not_eq_true] at hload
    exact ⟨hb.loadChecked (h hload.1) loads false,loadChecked_store b id reads loads false⟩

theorem Clear.keeps {b b' : Badge} {id : Id} {mf : Manifest} (h : Clear b id mf) (hkeeps : Keeps b b') : Clear b' id mf:=by
  refine ⟨?_,?_,?_⟩
  · rw [hkeeps.store]
    exact h.records
  · rw [hkeeps.store]
    exact h.keys
  · intro p' hp' hid
    obtain ⟨p,hp,hpid,hpmf⟩:=hkeeps.live p' hp'
    rw [← hpmf]
    exact h.instances p hp (by rwa [hpid])

theorem uploadBinary_sound {b : Badge} {id : Id} {renamed : Bool} {unlocked loads : Bool} (hb : Sound b)
    (h : renamed=true→isRunningInBackground b id=true →
      ∀ mf, getManifest reads b.disk id=some mf→mf.background=true → Clear b id mf) :
    Sound (uploadBinary b id renamed reads unlocked loads) ∧
      (uploadBinary b id renamed reads unlocked loads).store=b.store:=by
  unfold uploadBinary
  cases renamed with
  | false=>exact ⟨hb.keeps (disk_keeps _),rfl⟩
  | true=>
    have hdisk : Keeps b {b with disk:={b.disk with binaries:=b.disk.binaries.filter (· ≠ id)++[id]}}:=
      disk_keeps _
    dsimp only
    rw [if_pos rfl]
    unfold reloadBackgroundPlugin
    split
    · exact ⟨hb.keeps hdisk,hdisk.store⟩
    · split
      · exact ⟨hb.keeps hdisk,hdisk.store⟩
      · rename_i mf hmf
        split
        · exact ⟨hb.keeps hdisk,hdisk.store⟩
        · rename_i hbackground
          split
          · exact ⟨hb.keeps hdisk,hdisk.store⟩
          · rename_i hrunning
            have hrunning' : ¬(!isRunningInBackground b id)=true:=hrunning
            have hclear : Clear b id mf:=h rfl (by simpa using hrunning') mf hmf (by simpa using hbackground)
            have hunloaded:=hdisk.trans (underLock_keeps id unlocked)
            refine ⟨(hb.keeps hunloaded).load (hclear.keeps hunloaded) loads false,?_⟩
            rw [load_store,hunloaded.store]

theorem call_sound {b : Badge} {place : Place} {env : HostEnv} {name : Name} {c : HostCall} (hb : Sound b)
    (h : ∀ p, b.instanceAt place=some p → CallSpares env b.disk b.store p (cstr name) c) :
    Sound (call b place env name c) ∧ Secluded b (.call place env name c):=by
  cases hplace : b.instanceAt place with
  | none=>
    have hstep : b.step (.call place env name c)=b:=by
      simp [Badge.step,call,hplace]
    refine ⟨?_,Secluded.of_store (by rw [hstep]) (by simp [reply,hplace])⟩
    rw [show call b place env name c=b from hstep]
    exact hb
  | some p=>
    have hp:=instanceAt_live hplace
    obtain ⟨htold,hchange⟩:=hostCall_does c (h p hplace)
    have hcaller : caller b (.call place env name c)=some (p,cstr name):=by
      simp [caller,hplace]
    have hreply : reply b (.call place env name c)=(hostCall env b.disk p name c b.store).1.toOption:=by
      simp [reply,hplace]
    have hstep : Sound (call b place env name c) ∧
        (call b place env name c).store=(hostCall env b.disk p name c b.store).2:=by
      have hafter:=hb.change hp hchange
      unfold call
      rw [hplace]
      dsimp only
      revert hafter
      cases hostCall env b.disk p name c b.store with
      | mk r t=>
        intro hafter
        cases r with
        | ok r=>exact ⟨hafter,rfl⟩
        | error e=>exact ⟨hafter.keeps reboot_keeps,rfl⟩
    have hstore : (b.step (.call place env name c)).store=(hostCall env b.disk p name c b.store).2:=hstep.2
    have htold' : ∀ told, reply b (.call place env name c)=some told→Replied p (cstr name) b.store told:=by
      intro told ht
      rw [hreply] at ht
      apply htold
      revert ht
      cases (hostCall env b.disk p name c b.store).1 with
      | ok r=>
        intro ht
        rw [Option.some.inj ht]
      | error e=>
        intro ht
        cases ht
    refine ⟨hstep.1,?_,?_,?_,?_,?_⟩
    · intro told slot ht hrecord
      have hreplied:=htold' told ht
      cases told with
      | data at' r=>
        cases hrecord
        obtain ⟨hslot,hname,hr,hrname⟩:=hreplied
        exact ⟨p,cstr name,r,hcaller,hr,hb.record_creator hp hslot hr (hrname ▸ hname)⟩
      | nameUsed at'=>
        cases hrecord
        obtain ⟨hslot,hname,r,hr,hrname⟩:=hreplied
        exact ⟨p,cstr name,r,hcaller,hr,hb.record_creator hp hslot hr (hrname ▸ hname)⟩
      | _=>cases hrecord
    · intro told slot ht hkey
      have hreplied:=htold' told ht
      cases told with
      | pubkey at' key=>
        cases hkey
        obtain ⟨hslot,hname,hheld,hmap⟩:=hreplied
        exact ⟨p,cstr name,_,hcaller,hb.key_maker hp hslot hheld hmap hname,rfl⟩
      | signature at' key msg=>
        cases hkey
        obtain ⟨hslot,hname,hheld,hmap⟩:=hreplied
        exact ⟨p,cstr name,_,hcaller,hb.key_maker hp hslot hheld hmap hname,rfl⟩
      | «exists» at'=>
        cases hkey
        obtain ⟨hslot,hname,⟨key,hheld⟩,hmap⟩:=hreplied
        exact ⟨p,cstr name,_,hcaller,hb.key_maker hp hslot hheld hmap hname,rfl⟩
      | _=>cases hkey
    · intro slot r hr hgone
      rw [hstore] at hgone
      obtain ⟨hcreator,hrname⟩:=hb.changed_record hp hchange hr hgone
      exact ⟨p,cstr name,hcaller,hcreator,fun _=>hrname⟩
    · intro slot key hkey hgone
      rw [hstore] at hgone
      exact ⟨p,cstr name,_,hcaller,hb.changed_key hp hchange hkey hgone,rfl,fun _=>rfl⟩
    · intro slot key other hkey hmap hother
      rw [hstore] at hmap
      exact absurd (changed_mapping hchange hkey hmap) hother

/-- Every step that meets the condition keeps the invariant and stays with the caller's own. -/
theorem Sound.step {b : Badge} {e : Event} (h : Meets b e) (hb : Sound b) : Secluded b e ∧ Sound (b.step e):=by
  have hquiet : ∀ {b' : Badge}, b.step e=b' → reply b e=none→Keeps b b' → Secluded b e ∧ Sound (b.step e):=by
    intro b' hstep hreply hkeeps
    refine ⟨Secluded.of_store (by rw [hstep,hkeeps.store]) hreply,?_⟩
    rw [hstep]
    exact hb.keeps hkeeps
  have hloads : ∀ {b' : Badge}, b.step e=b' → reply b e=none → Sound b' ∧ b'.store=b.store →
      Secluded b e ∧ Sound (b.step e):=by
    intro b' hstep hreply hsound
    refine ⟨Secluded.of_store (by rw [hstep,hsound.2]) hreply,?_⟩
    rw [hstep]
    exact hsound.1
  cases e with
  | startPlugin id reads loads entered=>exact hloads rfl rfl (startPlugin_sound hb h)
  | started k succeeds=>exact hquiet rfl rfl (started_keeps k succeeds)
  | autoload id reads loads=>exact hloads rfl rfl (autoload_sound hb h)
  | activateForMessageType id reads loads=>exact hloads rfl rfl (activateForMessageType_sound hb h)
  | stopActivePlugin=>exact hquiet rfl rfl leaveActive_keeps
  | unloadFromRam id=>exact hquiet rfl rfl unloadFromRam_keeps
  | handleTrap place=>exact hquiet rfl rfl (handleTrap_keeps place)
  | uninstallPlugin id locked binaryRemoved metaRemoved=>
    exact hquiet rfl rfl (uninstallPlugin_keeps locked binaryRemoved metaRemoved)
  | uploadMeta id content renamed=>exact hquiet rfl rfl (disk_keeps _)
  | uploadBinary id renamed reads unlocked loads=>exact hloads rfl rfl (uploadBinary_sound hb h)
  | setPluginDisabled id disabled locked reads=>exact hquiet rfl rfl (setPluginDisabled_keeps disabled locked reads)
  | setResident place on=>exact hquiet rfl rfl (setResident_keeps on place)
  | reboot=>exact hquiet rfl rfl reboot_keeps
  | call place env name c=>
    obtain ⟨hsound,hsecluded⟩:=call_sound hb h
    exact ⟨hsecluded,hsound⟩

/-- A badge that no plugin has run on yet. -/
structure Fresh (b : Badge) : Prop where
  live : b.live=[]
  records : ∀ slot∈rmemPool, b.store.rmem slot=none
  keys : ∀ slot∈eccPool, b.store.ecc slot=none

theorem Fresh.sound {b : Badge} (h : Fresh b) : Sound b:=by
  refine ⟨?_,?_,?_⟩
  · intro slot hslot r hr
    rw [h.records slot hslot] at hr
    cases hr
  · intro slot hslot key hkey
    rw [h.keys slot hslot] at hkey
    cases hkey
  · rw [h.live]
    intro p hp
    cases hp

theorem plugins_secluded {b : Badge} {es : List Event} (hb : Fresh b) (h : AlongRun Badge.step Meets b es) :
    AlongRun Badge.step Secluded b es:=
  AlongRun.of_invariant (fun _ _ hmeets hsound=>hsound.step hmeets) hb.sound h

/-- The plugin `a`, which keeps a record. -/
def idA : Id:=ascii "a"

/-- The plugin `b`, which runs in the background. -/
def idB : Id:=ascii "b"

def manifestA : Manifest:={rmem:=[ascii "seed"],nvsNamespace:=ascii "plg_a"}

def manifestB (names : List Name) : Manifest:=
  {rmem:=names,nvsNamespace:=ascii "plg_b",background:=true}

def twoPlugins : Badge where
  disk:=
    { binaries:=[idA,idB]
      metas:=fun id=>if id=idA then some (some manifestA) else if id=idB then some (some (manifestB [])) else none
      disabled:=fun _=>false }
  store:={storage:={chip:={ecc:=fun _=>none,rmem:=fun _=>none}}}

theorem twoPlugins_fresh : Fresh twoPlugins:=⟨rfl,fun _ _=>rfl,fun _ _=>rfl⟩

/-- `a` is started, keeps its record and is stopped. -/
def recordKept : List Event:=
  [.startPlugin idA (fun _=>true) true true,.started 0 true,.call .active {} (ascii "seed") (.rmemWrite [1,2,3]),
    .stopActivePlugin]

/-- `b` goes to the background, gets a manifest with the name of that record, and is loaded anew with a new binary. -/
def reloadedOver : List Event:=
  [.startPlugin idB (fun _=>true) true true,.started 0 true,.setResident .active true,.stopActivePlugin,
    .uploadMeta idB (some (manifestB [ascii "seed"])) true,.uploadBinary idB true (fun _=>true) true true,
    .started 0 true]

theorem plugins_secluded_recordKept : AlongRun Badge.step Secluded twoPlugins recordKept:=by
  apply plugins_secluded twoPlugins_fresh
  refine ⟨?_,trivial,?_,trivial,trivial⟩
  · intro _ mf _ _
    refine ⟨?_,?_,?_⟩
    · intro slot _ r hr
      cases hr
    · intro slot _ key m hkey
      cases hkey
    · intro p hp
      cases hp
  · intro p _ _
    right
    rintro slot _ ⟨r,hr⟩
    cases hr

/-- After the reload the plugin `b` reads the record of `a`. -/
theorem plugins_not_secluded :
    ¬∀ (b : Badge) (es : List Event), Fresh b → AlongRun Badge.step Secluded b es:=by
  intro h
  have hrun:=h twoPlugins (recordKept++reloadedOver++[.call (.background 0) {} (ascii "seed") (.rmemRead 16)])
    twoPlugins_fresh
  obtain ⟨-,hlast,-⟩:=alongRun_append.mp hrun
  generalize hstate : run Badge.step twoPlugins (recordKept++reloadedOver)=b at hlast
  have hreply : reply b (.call (.background 0) {} (ascii "seed") (.rmemRead 16)) =
      some (.data 501 ⟨plgPoolModuleId,0,ascii "seed",⟨idA,[1,2,3]⟩⟩):=by
    rw [← hstate]
    decide +kernel
  have hcaller : (caller b (.call (.background 0) {} (ascii "seed") (.rmemRead 16))).map (·.1.id)=some idB:=by
    rw [← hstate]
    decide +kernel
  have hrecord : b.store.rmem 501=some (.record ⟨plgPoolModuleId,0,ascii "seed",⟨idA,[1,2,3]⟩⟩):=by
    rw [← hstate]
    decide +kernel
  obtain ⟨p,name,r,hp,hr,hcreator⟩:=hlast.reads _ 501 hreply rfl
  rw [hp] at hcaller
  rw [hrecord] at hr
  cases hr
  have hid : p.id=idB:=Option.some.inj hcaller
  rw [hid] at hcreator
  exact absurd hcreator (by decide)

end CdcBadge.Plugin.Isolation
