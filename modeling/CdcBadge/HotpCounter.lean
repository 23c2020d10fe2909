import Mathlib.Data.List.Pairwise
import CdcBadge.OathStore
import CdcBadge.Runs

/-!
# The HOTP counter

`generateCode` on the device's screen and `CALCULATE` from the host each read a record, rewrite
it with the next counter and then release a code. Their accesses to the chip come in any order,
but for the erase and the write of one rewrite, for which the bus is held.
-/

namespace CdcBadge.HotpCounter

open Handler Runs Tropic OathStore
open Oath (Account otypeHotp)

inductive Path | screen | host deriving DecidableEq

/-- Where a path is: before its read, its erase, its write or its release. -/
inductive Progress
  | started
  | read (e : OathEntry)
  | erased (e : OathEntry)
  | persisted (e : OathEntry)
  deriving DecidableEq

structure Task where
  path : Path
  slot : ℕ
  progress : Progress
  deriving DecidableEq

inductive Code
  | screen (number : ℕ)
  | host (code : ByteArr 4 × UInt8)
  deriving DecidableEq

structure Release where
  slot : ℕ
  counter : ℕ
  code : Code
  deriving DecidableEq

/-- The chip, the calls under way, the one that holds the bus, and the codes released so far. -/
structure State where
  chip : Chip (Content Payload)
  tasks : ℕ→Option Task:=fun _=>none
  bus : Option ℕ:=none
  released : List Release:=[]

inductive Event
  | start (task : ℕ) (path : Path) (slot : ℕ)
  /-- The next access of a path, or its release. -/
  | next (task : ℕ) (o : SeOutcome) (hmacOk : Bool)
  | powerOff

def State.lost (s : State) (c : Chip (Content Payload)) : State:={s with chip:=c,tasks:=fun _=>none,bus:=none}

def State.setTask (s : State) (task : ℕ) (t : Option Task) : State:={s with tasks:=Function.update s.tasks task t}

section Machine

variable (hmac : Hmac)

/-- The code of a credential for a counter; the host is given none where the hash fails. -/
def codeOf (path : Path) (hmacOk : Bool) (e : OathEntry) (counter : ℕ) : Option Code:=
  match path with
  | .screen=>some (.screen (generate hmac hmacOk e.secret counter e.digits e.algorithm))
  | .host=>(truncatedOf hmac {hmac:=hmacOk} e counter).map .host

def stepRead (s : State) (task : ℕ) (t : Task) (o : SeOutcome) : State:=
  match toPhysicalSlot t.slot with
  | none=>s.setTask task none
  | some physSlot=>
    match Chip.perform o (Chip.rmemRead physSlot) s.chip with
    | (none,c)=>s.lost c
    | (some (.ok (.record r)),_)=>
      match accountOf r with
      | some e=>s.setTask task (if e.type=otypeHotp then some {t with progress:=.read e} else none)
      | none=>s.setTask task none
    | _=>s.setTask task none

def stepErase (s : State) (task : ℕ) (t : Task) (e : OathEntry) (o : SeOutcome) : State:=
  match Chip.perform o (Chip.rmemErase (31+t.slot)) s.chip with
  | (none,c)=>s.lost c
  | (some reply,c)=>
    if reply=.ok () ∨ reply=.error .slotEmpty then
      {s.setTask task (some {t with progress:=.erased e}) with chip:=c,bus:=some task}
    else {s.setTask task none with chip:=c}

def stepWrite (s : State) (task : ℕ) (t : Task) (e : OathEntry) (o : SeOutcome) : State:=
  match Chip.perform o (Chip.rmemWrite (31+t.slot) (stored (e.account (nextCounter e.counter)))) s.chip with
  | (none,c)=>s.lost c
  | (some reply,c)=>
    { s.setTask task (if reply=.ok () then some {t with progress:=.persisted e} else none) with
      chip:=c
      bus:=none }

def stepRelease (s : State) (task : ℕ) (t : Task) (e : OathEntry) (hmacOk : Bool) : State:=
  { s.setTask task none with
    released:=s.released ++
      ((codeOf hmac t.path hmacOk e e.counter).map fun code=>⟨t.slot,e.counter,code⟩).toList }

def step (s : State) : Event → State
  | .start task path slot=>if s.tasks task=none then s.setTask task (some ⟨path,slot,.started⟩) else s
  | .next task o hmacOk=>
    -- Another path waits for the bus.
    if s.bus≠none ∧ s.bus≠some task then s
    else
      match s.tasks task with
      | none=>s
      | some t=>
        match t.progress with
        | .started=>stepRead s task t o
        | .read e=>stepErase s task t e o
        | .erased e=>stepWrite s task t e o
        | .persisted e=>stepRelease hmac s task t e hmacOk
  | .powerOff=>s.lost s.chip

end Machine

def Task.InWindow (t : Task) : Prop:=t.progress≠.started

/-- What became of the credentials of a chip. -/
structure Used (hmac : Hmac) (c₀ : Chip (Content Payload)) (s : State) : Prop where
  increasing : ∀ slot, (s.released.filter (·.slot=slot)).Pairwise fun a b=>a.counter < b.counter
  codes : ∀ r∈s.released, ∃ e path hmacOk, credential c₀ r.slot=some e ∧ e.type=otypeHotp ∧
    codeOf hmac path hmacOk e r.counter=some r.code
  kept : s.bus=none→∀ slot e, credential c₀ slot=some e→∃ counter, e.counter ≤ counter ∧
    (e.type≠otypeHotp → counter=e.counter) ∧ credential s.chip slot=some (withCounter e counter)

def Blocked (s : State) (task : ℕ) : Prop:=s.bus≠none ∧ s.bus≠some task

/-- Nobody reads while another path is between its read and its release for that slot, a counter has a successor, what
is erased is written again, and power stays on in between. -/
def Orderly (s : State) : Event→Prop
  | .start _ _ _=>True
  | .next task o _=>Blocked s task ∨
    match s.tasks task with
    | none=>True
    | some t=>
      match t.progress with
      | .started=>(∀ i u, i≠task → s.tasks i=some u→u.slot=t.slot→¬u.InWindow) ∧
          ∀ e, credential s.chip t.slot=some e→e.type=otypeHotp→e.counter+1 < 2^64
      | .read _=>o.applied=true → o=.done ∨ o=.failed .slotEmpty true
      | .erased _=>o.applied=true ∨ s.chip.rmem (31+t.slot)≠none
      | .persisted _=>True
  | .powerOff=>∀ i t e, s.tasks i=some t→t.progress=.erased e → s.chip.rmem (31+t.slot)≠none

/-- What a call under way knows of a credential whose counter stands at `n`. -/
def Task.Fits (e : OathEntry) (n : ℕ) (released : List Release) (t : Task) : Prop:=
  match t.progress with
  | .started=>True
  | .read f=>f=withCounter e n ∧ e.type=otypeHotp ∧ n+1 < 2^64
  | .erased f=>f=withCounter e n ∧ e.type=otypeHotp ∧ n+1 < 2^64
  | .persisted f=>∃ m, f=withCounter e m ∧ e.type=otypeHotp ∧ m < n ∧ ∀ r∈released, r.slot=t.slot → r.counter < m

/-- The counter of a credential stands at `n`, on the chip or in the hands of the path that erased the record. -/
structure Standing (s : State) (slot : ℕ) (e : OathEntry) (n : ℕ) : Prop where
  bound : e.counter ≤ n
  fixed : e.type≠otypeHotp→n=e.counter
  content : credential s.chip slot=some (withCounter e n) ∨ s.chip.rmem (31+slot)=none ∧
    ∃ i t, s.tasks i=some t ∧ t.slot=slot ∧ t.progress=.erased (withCounter e n)
  tasks : ∀ i t, s.tasks i=some t→t.slot=slot→t.Fits e n s.released
  below : ∀ r∈s.released, r.slot=slot → r.counter < n

structure Kept (hmac : Hmac) (c₀ : Chip (Content Payload)) (s : State) : Prop where
  bus : ∀ i, s.bus=some i ↔ ∃ t e, s.tasks i=some t ∧ t.progress=.erased e
  alone : ∀ i j t u, s.tasks i=some t → s.tasks j=some u→t.slot=u.slot→t.InWindow→u.InWindow→i=j
  standing : ∀ slot e, credential c₀ slot=some e→∃ n, Standing s slot e n
  quiet : ∀ slot, credential c₀ slot=none → credential s.chip slot=none ∧
    ∀ i t, s.tasks i=some t→t.slot=slot→¬t.InWindow
  increasing : ∀ slot, (s.released.filter (·.slot=slot)).Pairwise fun a b=>a.counter < b.counter
  codes : ∀ r∈s.released, ∃ e path hmacOk, credential c₀ r.slot=some e ∧ e.type=otypeHotp ∧
    codeOf hmac path hmacOk e r.counter=some r.code

variable {hmac : Hmac} {c₀ : Chip (Content Payload)} {s : State}

theorem Kept.used (h : Kept hmac c₀ s) : Used hmac c₀ s where
  increasing:=h.increasing
  codes:=h.codes
  kept hbus slot e he:=by
    obtain ⟨n,hn⟩:=h.standing slot e he
    refine ⟨n,hn.bound,hn.fixed,?_⟩
    rcases hn.content with hcontent | ⟨-,i,t,ht,-,hprogress⟩
    · exact hcontent
    · have hheld:=(h.bus i).mpr ⟨t,_,ht,hprogress⟩
      rw [hbus] at hheld
      cases hheld

theorem setTask_some {task i : ℕ} {t : Option Task} {u : Task} :
    (s.setTask task t).tasks i=some u ↔ i=task ∧ t=some u ∨ i≠task ∧ s.tasks i=some u:=by
  unfold State.setTask
  by_cases hi : i=task
  · simp [hi]
  · simp [hi]

theorem Kept.lost (h : Kept hmac c₀ s)
    (hpresent : ∀ i t e, s.tasks i=some t→t.progress=.erased e → s.chip.rmem (31+t.slot)≠none) :
    Kept hmac c₀ (s.lost s.chip) where
  bus i:=by
    constructor
    · intro hbus
      cases hbus
    · rintro ⟨t,e,ht,-⟩
      cases ht
  alone i j t u ht:=by cases ht
  standing slot e he:=by
    obtain ⟨n,hn⟩:=h.standing slot e he
    refine ⟨n,hn.bound,hn.fixed,?_,?_,hn.below⟩
    · rcases hn.content with hcontent | ⟨hnone,i,t,ht,rfl,hprogress⟩
      · exact Or.inl hcontent
      · exact absurd hnone (hpresent i t _ ht hprogress)
    · intro i t ht
      cases ht
  quiet slot hnone:=by
    refine ⟨(h.quiet slot hnone).1,?_⟩
    intro i t ht
    cases ht
  increasing:=h.increasing
  codes:=h.codes

theorem Kept.setIdle (h : Kept hmac c₀ s) {task : ℕ} {t : Option Task} (hbus : s.bus≠some task)
    (hidle : ∀ u, t=some u→¬u.InWindow) : Kept hmac c₀ (s.setTask task t) where
  bus i:=by
    rw [show (s.setTask task t).bus=s.bus from rfl,h.bus i]
    constructor
    · rintro ⟨u,e,hu,hprogress⟩
      have hi : i≠task:=by
        rintro rfl
        exact hbus ((h.bus i).mpr ⟨u,e,hu,hprogress⟩)
      exact ⟨u,e,setTask_some.mpr (Or.inr ⟨hi,hu⟩),hprogress⟩
    · rintro ⟨u,e,hu,hprogress⟩
      rcases setTask_some.mp hu with ⟨-,hu⟩ | ⟨-,hu⟩
      · exact absurd (by simp [Task.InWindow,hprogress]) (hidle u hu)
      · exact ⟨u,e,hu,hprogress⟩
  alone i j u v hu hv hslot hin hin':=by
    rcases setTask_some.mp hu with ⟨-,hu⟩ | ⟨-,hu⟩
    · exact absurd hin (hidle u hu)
    · rcases setTask_some.mp hv with ⟨-,hv⟩ | ⟨-,hv⟩
      · exact absurd hin' (hidle v hv)
      · exact h.alone i j u v hu hv hslot hin hin'
  standing slot e he:=by
    obtain ⟨n,hn⟩:=h.standing slot e he
    refine ⟨n,hn.bound,hn.fixed,?_,?_,hn.below⟩
    · rcases hn.content with hcontent | ⟨hnone,i,u,hu,hslot,hprogress⟩
      · exact Or.inl hcontent
      · have hi : i≠task:=by
          rintro rfl
          exact hbus ((h.bus i).mpr ⟨u,_,hu,hprogress⟩)
        exact Or.inr ⟨hnone,i,u,setTask_some.mpr (Or.inr ⟨hi,hu⟩),hslot,hprogress⟩
    · intro i u hu hslot
      rcases setTask_some.mp hu with ⟨-,hu⟩ | ⟨-,hu⟩
      · have hstarted:=hidle u hu
        simp only [Task.InWindow,ne_eq,not_not] at hstarted
        simp [Task.Fits,hstarted]
      · exact hn.tasks i u hu hslot
  quiet slot hnone:=by
    refine ⟨(h.quiet slot hnone).1,?_⟩
    intro i u hu hslot
    rcases setTask_some.mp hu with ⟨-,hu⟩ | ⟨-,hu⟩
    · exact hidle u hu
    · exact (h.quiet slot hnone).2 i u hu hslot
  increasing:=h.increasing
  codes:=h.codes

section Credentials

variable {c d : Chip (Content Payload)} {slot : ℕ} {e : OathEntry}

theorem credential_put (h : credential c slot=some e) (n : ℕ) :
    credential {d with rmem:=Function.update d.rmem (31+slot) (some (stored (e.account n)))} slot =
      some (withCounter e n):=by
  obtain ⟨hphys,-,r,-,hr⟩:=credential_some h
  unfold credential
  rw [hphys]
  simp only [Function.update_self,stored]
  exact accountOf_stored hr n

end Credentials

section Steps

variable {u : State} {task : ℕ} {t : Task}

theorem Standing.frame {slot n : ℕ} {e : OathEntry} (h : Standing s slot e n)
    (hrmem : u.chip.rmem (31+slot)=s.chip.rmem (31+slot))
    (htasks : ∀ i v, v.slot=slot→(u.tasks i=some v ↔ s.tasks i=some v))
    (hreleased : ∀ r, r.slot=slot→(r∈u.released ↔ r∈s.released)) : Standing u slot e n where
  bound:=h.bound
  fixed:=h.fixed
  content:=by
    rcases h.content with hcontent | ⟨hnone,i,v,hv,hslot,hprogress⟩
    · exact Or.inl ((credential_congr hrmem).trans hcontent)
    · exact Or.inr ⟨hrmem.trans hnone,i,v,(htasks i v hslot).mpr hv,hslot,hprogress⟩
  tasks i v hv hslot:=by
    have hfits:=h.tasks i v ((htasks i v hslot).mp hv) hslot
    unfold Task.Fits at *
    split
    · trivial
    · simpa [*] using hfits
    · simpa [*] using hfits
    · rename_i f hf
      simp only [hf] at hfits
      obtain ⟨m,hfm,htype,hmn,hbehind⟩:=hfits
      exact ⟨m,hfm,htype,hmn,fun r hr hrs=>hbehind r ((hreleased r (hrs.trans hslot)).mp hr) hrs⟩
  below r hr hslot:=h.below r ((hreleased r hslot).mp hr) hslot

/-- A step of one path touches the slot, the call and the releases of that path only. -/
theorem Kept.moved (h : Kept hmac c₀ s) {next : Option Task}
    (htasks : u.tasks=(s.setTask task next).tasks) (ht : s.tasks task=some t) (hnext : ∀ v, next=some v→v.slot=t.slot)
    (hrmem : ∀ slot, slot≠t.slot→u.chip.rmem (31+slot)=s.chip.rmem (31+slot))
    (hreleased : ∀ r, r.slot≠t.slot→(r∈u.released ↔ r∈s.released))
    (hbus : ∀ i, u.bus=some i ↔ ∃ v e, u.tasks i=some v ∧ v.progress=.erased e)
    (halone : ∀ i v, i≠task → s.tasks i=some v→v.slot=t.slot→¬v.InWindow)
    (hcredential : credential c₀ t.slot≠none)
    (hstanding : ∀ e, credential c₀ t.slot=some e→∃ n, Standing u t.slot e n)
    (hincreasing : ∀ slot, (u.released.filter (·.slot=slot)).Pairwise fun a b=>a.counter < b.counter)
    (hcodes : ∀ r∈u.released, ∃ e path hmacOk, credential c₀ r.slot=some e ∧ e.type=otypeHotp ∧
      codeOf hmac path hmacOk e r.counter=some r.code) : Kept hmac c₀ u where
  bus:=hbus
  alone i j v w hv hw hslot hin hin':=by
    rcases setTask_some.mp (htasks ▸ hv) with ⟨rfl,hv⟩ | ⟨hi,hv⟩
    · rcases setTask_some.mp (htasks ▸ hw) with ⟨rfl,-⟩ | ⟨hj,hw⟩
      · rfl
      · exact absurd hin' (halone j w hj hw (hslot.symm.trans (hnext v hv)))
    · rcases setTask_some.mp (htasks ▸ hw) with ⟨rfl,hw⟩ | ⟨hj,hw⟩
      · exact absurd hin (halone i v hi hv (hslot.trans (hnext w hw)))
      · exact h.alone i j v w hv hw hslot hin hin'
  standing slot e he:=by
    by_cases hslot : slot=t.slot
    · subst hslot
      exact hstanding e he
    · obtain ⟨n,hn⟩:=h.standing slot e he
      refine ⟨n,hn.frame (hrmem slot hslot) ?_ fun r hr=>hreleased r (hr ▸ hslot)⟩
      intro i v hv
      rw [htasks,setTask_some]
      constructor
      · rintro (⟨-,hnew⟩ | ⟨-,hold⟩)
        · exact absurd (hv.symm.trans (hnext v hnew)) hslot
        · exact hold
      · intro hold
        refine Or.inr ⟨?_,hold⟩
        rintro rfl
        rw [ht] at hold
        cases hold
        exact hslot hv.symm
  quiet slot hnone:=by
    have hslot : slot≠t.slot:=by
      rintro rfl
      exact hcredential hnone
    obtain ⟨hchip,hidle⟩:=h.quiet slot hnone
    refine ⟨(credential_congr (hrmem slot hslot)).trans hchip,?_⟩
    intro i v hv hvs
    rcases setTask_some.mp (htasks ▸ hv) with ⟨-,hnew⟩ | ⟨-,hold⟩
    · exact absurd (hvs.symm.trans (hnext v hnew)) hslot
    · exact hidle i v hold hvs
  increasing:=hincreasing
  codes:=hcodes

theorem Kept.no_erased (h : Kept hmac c₀ s) (hbus : s.bus=none) {i : ℕ} {v : Task} (hv : s.tasks i=some v) (e : OathEntry) :
    v.progress≠.erased e:=by
  intro hprogress
  have hheld:=(h.bus i).mpr ⟨v,e,hv,hprogress⟩
  rw [hbus] at hheld
  cases hheld

theorem Kept.present (h : Kept hmac c₀ s) (hbus : s.bus=none) {slot n : ℕ} {e : OathEntry} (hn : Standing s slot e n) :
    credential s.chip slot=some (withCounter e n):=by
  rcases hn.content with hcontent | ⟨-,i,v,hv,-,hprogress⟩
  · exact hcontent
  · exact absurd hprogress (h.no_erased hbus hv _)

theorem Kept.of_window (h : Kept hmac c₀ s) (ht : s.tasks task=some t) (hin : t.InWindow) :
    credential c₀ t.slot≠none:=fun hnone=>(h.quiet t.slot hnone).2 task t ht rfl hin

theorem Kept.others (h : Kept hmac c₀ s) (ht : s.tasks task=some t) (hin : t.InWindow) (i : ℕ) (v : Task) (hi : i≠task)
    (hv : s.tasks i=some v) (hslot : v.slot=t.slot) : ¬v.InWindow:=
  fun hin'=>hi (h.alone i task v t hv ht hslot hin' hin)

theorem fits_started {v : Task} (h : ¬v.InWindow) (e : OathEntry) (n : ℕ) (released : List Release) : v.Fits e n released:=by
  simp only [Task.InWindow,ne_eq,not_not] at h
  simp [Task.Fits,h]

theorem Kept.read (h : Kept hmac c₀ s) (ht : s.tasks task=some t) (hbus : s.bus=none)
    (halone : ∀ i v, i≠task → s.tasks i=some v→v.slot=t.slot→¬v.InWindow) {e : OathEntry}
    (he : credential s.chip t.slot=some e) (htype : e.type=otypeHotp) (hnext : e.counter+1 < 2^64) :
    Kept hmac c₀ (s.setTask task (some {t with progress:=.read e})):=by
  refine h.moved rfl ht ?_ ?_ ?_ ?_ ?_ ?_ ?_ ?_ ?_
  · rintro v ⟨⟩
    rfl
  · intro slot _
    rfl
  · intro r _
    rfl
  · intro i
    constructor
    · intro hheld
      exact absurd hheld (by simp [State.setTask,hbus])
    · rintro ⟨v,f,hv,hprogress⟩
      rcases setTask_some.mp hv with ⟨-,hv⟩ | ⟨-,hv⟩
      · cases hv
        cases hprogress
      · exact absurd hprogress (h.no_erased hbus hv f)
  · exact halone
  · intro hnone
    rw [(h.quiet t.slot hnone).1] at he
    cases he
  · intro e₀ he₀
    obtain ⟨n,hn⟩:=h.standing t.slot e₀ he₀
    have hpresent:=h.present hbus hn
    rw [he] at hpresent
    obtain rfl:=Option.some.inj hpresent
    refine ⟨n,hn.bound,hn.fixed,Or.inl he,?_,hn.below⟩
    intro i v hv hslot
    rcases setTask_some.mp hv with ⟨-,hv⟩ | ⟨-,hv⟩
    · cases hv
      exact ⟨rfl,htype,hnext⟩
    · exact hn.tasks i v hv hslot
  · exact h.increasing
  · exact h.codes

theorem Kept.erased (h : Kept hmac c₀ s) (ht : s.tasks task=some t) (hbus : s.bus=none) {e : OathEntry}
    (hprogress : t.progress=.read e) {c : Chip (Content Payload)}
    (hc : c=s.chip ∨ c={s.chip with rmem:=Function.update s.chip.rmem (31+t.slot) none}) :
    Kept hmac c₀ {s.setTask task (some {t with progress:=.erased e}) with chip:=c,bus:=some task}:=by
  have hin : t.InWindow:=by simp [Task.InWindow,hprogress]
  refine h.moved rfl ht ?_ ?_ ?_ ?_ ?_ ?_ ?_ ?_ ?_
  · rintro v ⟨⟩
    rfl
  · intro slot hslot
    rcases hc with rfl | rfl
    · rfl
    · exact Function.update_of_ne (by omega) _ _
  · intro r _
    rfl
  · intro i
    constructor
    · rintro ⟨⟩
      exact ⟨_,e,setTask_some.mpr (Or.inl ⟨rfl,rfl⟩),rfl⟩
    · rintro ⟨v,f,hv,hf⟩
      rcases setTask_some.mp hv with ⟨rfl,-⟩ | ⟨-,hv⟩
      · rfl
      · exact absurd hf (h.no_erased hbus hv f)
  · exact h.others ht hin
  · exact h.of_window ht hin
  · intro e₀ he₀
    obtain ⟨n,hn⟩:=h.standing t.slot e₀ he₀
    have hfits:=hn.tasks task t ht rfl
    simp only [Task.Fits,hprogress] at hfits
    obtain ⟨rfl,htype,hnext⟩:=hfits
    refine ⟨n,hn.bound,hn.fixed,?_,?_,hn.below⟩
    · rcases hc with rfl | rfl
      · exact Or.inl (h.present hbus hn)
      · exact Or.inr ⟨Function.update_self _ _ _,task,_,setTask_some.mpr (Or.inl ⟨rfl,rfl⟩),rfl,rfl⟩
    · intro i v hv hslot
      rcases setTask_some.mp hv with ⟨-,hv⟩ | ⟨-,hv⟩
      · cases hv
        exact ⟨rfl,htype,hnext⟩
      · exact hn.tasks i v hv hslot
  · exact h.increasing
  · exact h.codes

theorem Kept.bus_free (h : Kept hmac c₀ s) (hheld : s.bus=some task) {next : Option Task}
    (hnext : ∀ v e, next=some v→v.progress≠.erased e) {u : State} (hbus : u.bus=none)
    (htasks : u.tasks=(s.setTask task next).tasks) (i : ℕ) :
    u.bus=some i ↔ ∃ v e, u.tasks i=some v ∧ v.progress=.erased e:=by
  constructor
  · intro hi
    rw [hbus] at hi
    cases hi
  · rintro ⟨v,e,hv,hprogress⟩
    rcases setTask_some.mp (htasks ▸ hv) with ⟨-,hv⟩ | ⟨hi,hv⟩
    · exact absurd hprogress (hnext v e hv)
    · have:=(h.bus i).mpr ⟨v,e,hv,hprogress⟩
      rw [hheld] at this
      exact absurd (Option.some.inj this).symm hi

theorem Kept.written (h : Kept hmac c₀ s) (ht : s.tasks task=some t) (hheld : s.bus=some task) {e : OathEntry}
    (hprogress : t.progress=.erased e) {next : Option Task}
    (hnext : next=none ∨ next=some {t with progress:=.persisted e}) :
    Kept hmac c₀ { s.setTask task next with
      chip:={ s.chip with
        rmem:=Function.update s.chip.rmem (31+t.slot) (some (stored (e.account (nextCounter e.counter)))) }
      bus:=none }:=by
  have hin : t.InWindow:=by simp [Task.InWindow,hprogress]
  refine h.moved rfl ht ?_ ?_ ?_ ?_ ?_ ?_ ?_ ?_ ?_
  · rintro v rfl
    rcases hnext with hnext | hnext
    · cases hnext
    · cases hnext
      rfl
  · intro slot hslot
    exact Function.update_of_ne (by omega) _ _
  · intro r _
    rfl
  · refine h.bus_free hheld ?_ rfl rfl
    rintro v f rfl
    rcases hnext with hnext | hnext
    · cases hnext
    · cases hnext
      exact Progress.noConfusion
  · exact h.others ht hin
  · exact h.of_window ht hin
  · intro e₀ he₀
    obtain ⟨n,hn⟩:=h.standing t.slot e₀ he₀
    have hfits:=hn.tasks task t ht rfl
    simp only [Task.Fits,hprogress] at hfits
    obtain ⟨rfl,htype,hbound⟩:=hfits
    have hcounter : nextCounter (withCounter e₀ n).counter=n+1:=Nat.mod_eq_of_lt hbound
    have hbelow (r : Release) (hr : r∈s.released) (hslot : r.slot=t.slot) : r.counter < n:=hn.below r hr hslot
    refine ⟨n+1,by have:=hn.bound; omega,fun hne=>absurd htype hne,Or.inl ?_,?_,?_⟩
    · rw [hcounter]
      exact credential_put he₀ (n+1)
    · intro i v hv hslot
      rcases setTask_some.mp hv with ⟨-,hv⟩ | ⟨hi,hv⟩
      · rcases hnext with rfl | rfl
        · cases hv
        · cases hv
          exact ⟨n,rfl,htype,Nat.lt_succ_self n,hbelow⟩
      · exact fits_started (h.others ht hin i v hi hv hslot) e₀ (n+1) _
    · intro r hr hslot
      exact Nat.lt_succ_of_lt (hbelow r hr hslot)
  · exact h.increasing
  · exact h.codes

/-- A write that finds the slot occupied, or has no effect there, leaves the record. -/
theorem Kept.unwritten (h : Kept hmac c₀ s) (ht : s.tasks task=some t) (hheld : s.bus=some task) {e : OathEntry}
    (hprogress : t.progress=.erased e) (hpresent : s.chip.rmem (31+t.slot)≠none) :
    Kept hmac c₀ {s.setTask task none with bus:=none}:=by
  have hin : t.InWindow:=by simp [Task.InWindow,hprogress]
  refine h.moved rfl ht ?_ ?_ ?_ ?_ ?_ ?_ ?_ ?_ ?_
  · rintro v ⟨⟩
  · intro slot _
    rfl
  · intro r _
    rfl
  · exact h.bus_free hheld (by rintro v f ⟨⟩) rfl rfl
  · exact h.others ht hin
  · exact h.of_window ht hin
  · intro e₀ he₀
    obtain ⟨n,hn⟩:=h.standing t.slot e₀ he₀
    refine ⟨n,hn.bound,hn.fixed,Or.inl ?_,?_,hn.below⟩
    · rcases hn.content with hcontent | ⟨hnone,-⟩
      · exact hcontent
      · exact absurd hnone hpresent
    · intro i v hv hslot
      rcases setTask_some.mp hv with ⟨-,hv⟩ | ⟨hi,hv⟩
      · cases hv
      · exact hn.tasks i v hv hslot
  · exact h.increasing
  · exact h.codes

theorem Kept.release (h : Kept hmac c₀ s) (ht : s.tasks task=some t) (hbus : s.bus=none) {e : OathEntry}
    (hprogress : t.progress=.persisted e) (hmacOk : Bool) : Kept hmac c₀ (stepRelease hmac s task t e hmacOk):=by
  have hin : t.InWindow:=by simp [Task.InWindow,hprogress]
  obtain ⟨e₀,he₀⟩:=Option.ne_none_iff_exists'.mp (h.of_window ht hin)
  obtain ⟨n,hn⟩:=h.standing t.slot e₀ he₀
  have hfits:=hn.tasks task t ht rfl
  simp only [Task.Fits,hprogress] at hfits
  obtain ⟨m,rfl,htype,hmn,hbehind⟩:=hfits
  have hnew (r : Release)
      (hr : r∈((codeOf hmac t.path hmacOk (withCounter e₀ m) m).map fun code=>(⟨t.slot,m,code⟩ : Release)).toList) :
      r.slot=t.slot ∧ r.counter=m ∧ codeOf hmac t.path hmacOk e₀ m=some r.code:=by
    simp only [Option.mem_toList,Option.map_eq_some_iff] at hr
    obtain ⟨code,hcode,rfl⟩:=hr
    exact ⟨rfl,rfl,hcode⟩
  unfold stepRelease
  refine h.moved rfl ht ?_ ?_ ?_ ?_ ?_ ?_ ?_ ?_ ?_
  · rintro v ⟨⟩
  · intro slot _
    rfl
  · intro r hr
    simp only [List.mem_append,or_iff_left_iff_imp]
    intro hr'
    exact absurd (hnew r hr').1 hr
  · intro i
    rw [show ∀ l, ({s.setTask task none with released:=l} : State).bus=s.bus from fun _=>rfl,hbus]
    constructor
    · rintro ⟨⟩
    · rintro ⟨v,f,hv,hf⟩
      rcases setTask_some.mp hv with ⟨-,hv⟩ | ⟨-,hv⟩
      · cases hv
      · exact absurd hf (h.no_erased hbus hv f)
  · exact h.others ht hin
  · exact h.of_window ht hin
  · intro e₁ he₁
    rw [he₀] at he₁
    obtain rfl:=Option.some.inj he₁
    refine ⟨n,hn.bound,hn.fixed,Or.inl (h.present hbus hn),?_,?_⟩
    · intro i v hv hslot
      rcases setTask_some.mp hv with ⟨-,hv⟩ | ⟨hi,hv⟩
      · cases hv
      · exact fits_started (h.others ht hin i v hi hv hslot) e₀ n _
    · intro r hr hslot
      rcases List.mem_append.mp hr with hr | hr
      · exact hn.below r hr hslot
      · rw [(hnew r hr).2.1]
        exact hmn
  · intro slot
    rw [List.filter_append,List.pairwise_append]
    refine ⟨h.increasing slot,?_,?_⟩
    · apply List.Pairwise.filter
      cases codeOf hmac t.path hmacOk (withCounter e₀ m) (withCounter e₀ m).counter <;> simp
    · intro a ha b hb
      simp only [List.mem_filter,decide_eq_true_eq] at ha hb
      obtain ⟨hslot,hcounter,-⟩:=hnew b hb.1
      rw [hcounter]
      exact hbehind a ha.1 (ha.2.trans (hb.2.symm.trans hslot))
  · intro r hr
    rcases List.mem_append.mp hr with hr | hr
    · exact h.codes r hr
    · obtain ⟨hslot,hcounter,hcode⟩:=hnew r hr
      exact ⟨e₀,t.path,hmacOk,hslot ▸ he₀,htype,hcounter ▸ hcode⟩

theorem stepRead_cases (s : State) (task : ℕ) (t : Task) (o : SeOutcome) :
    stepRead s task t o=s.setTask task none ∨ stepRead s task t o=s.lost s.chip ∨
      ∃ e, credential s.chip t.slot=some e ∧ e.type=otypeHotp ∧
        stepRead s task t o=s.setTask task (some {t with progress:=.read e}):=by
  unfold stepRead credential
  cases hphys : toPhysicalSlot t.slot with
  | none=>exact Or.inl rfl
  | some physSlot=>
    have hlt:=slot_lt (toPhysicalSlot_some hphys).2
    rw [← (toPhysicalSlot_some hphys).1] at hlt
    cases o with
    | failed e applied=>exact Or.inl rfl
    | powerLost applied=>
      refine Or.inr (Or.inl ?_)
      simp [Chip.perform]
    | done=>
      cases hcontent : s.chip.rmem physSlot with
      | none=>simp [Chip.perform,Chip.rmemRead_none hlt hcontent]
      | some content=>
        simp only [Chip.perform,Chip.rmemRead_some hlt hcontent]
        cases content with
        | invalid=>exact Or.inl rfl
        | record r=>
          dsimp only
          cases hr : accountOf r with
          | none=>exact Or.inl rfl
          | some e=>
            by_cases htype : e.type=otypeHotp
            · exact Or.inr (Or.inr ⟨e,by rw [hcontent]; exact hr,htype,by simp [htype]⟩)
            · exact Or.inl (by simp [htype])

theorem Kept.stepRead (h : Kept hmac c₀ s) (ht : s.tasks task=some t) (hbus : s.bus=none)
    (halone : ∀ i v, i≠task → s.tasks i=some v→v.slot=t.slot→¬v.InWindow)
    (hnext : ∀ e, credential s.chip t.slot=some e→e.type=otypeHotp→e.counter+1 < 2^64) (o : SeOutcome) :
    Kept hmac c₀ (stepRead s task t o):=by
  rcases stepRead_cases s task t o with hend | hlost | ⟨e,he,htype,hread⟩
  · rw [hend]
    exact h.setIdle (by simp [hbus]) (by rintro v ⟨⟩)
  · rw [hlost]
    exact h.lost fun i v e hv hprogress=>absurd hprogress (h.no_erased hbus hv e)
  · rw [hread]
    exact h.read ht hbus halone he htype (hnext e he htype)

theorem Kept.stepErase (h : Kept hmac c₀ s) (ht : s.tasks task=some t) (hbus : s.bus=none) {e : OathEntry}
    (hprogress : t.progress=.read e) {o : SeOutcome} (ho : o.applied=true → o=.done ∨ o=.failed .slotEmpty true) :
    Kept hmac c₀ (stepErase s task t e o):=by
  have hin : t.InWindow:=by simp [Task.InWindow,hprogress]
  obtain ⟨e₀,he₀⟩:=Option.ne_none_iff_exists'.mp (h.of_window ht hin)
  have hlt:=slot_lt (credential_some he₀).2.1
  have hend : Kept hmac c₀ {s.setTask task none with chip:=s.chip}:=
    h.setIdle (by simp [hbus]) (by rintro v ⟨⟩)
  unfold HotpCounter.stepErase
  cases o with
  | done=>
    simp only [Chip.perform,Chip.rmemErase_lt hlt,true_or,if_true]
    exact h.erased ht hbus hprogress (Or.inr rfl)
  | powerLost applied=>
    cases applied with
    | true=>simp [SeOutcome.applied] at ho
    | false=>
      exact h.lost fun i v f hv hf=>absurd hf (h.no_erased hbus hv f)
  | failed err applied=>
    cases applied with
    | true=>
      have hempty : err=.slotEmpty:=by simpa [SeOutcome.applied] using ho
      simp only [Chip.perform,Chip.rmemErase_lt hlt,hempty,or_true,if_true]
      exact h.erased ht hbus hprogress (Or.inr rfl)
    | false=>
      by_cases hempty : err=.slotEmpty
      · simp only [Chip.perform,hempty,or_true,if_true]
        exact h.erased ht hbus hprogress (Or.inl rfl)
      · have hreply : ¬((.error err : SeReply Unit)=.ok () ∨ (.error err : SeReply Unit)=.error .slotEmpty):=by
          simp [hempty]
        simp only [Chip.perform,if_neg hreply]
        exact hend

theorem Kept.stepWrite (h : Kept hmac c₀ s) (ht : s.tasks task=some t) {e : OathEntry}
    (hprogress : t.progress=.erased e) {o : SeOutcome} (ho : o.applied=true ∨ s.chip.rmem (31+t.slot)≠none) :
    Kept hmac c₀ (stepWrite s task t e o):=by
  have hin : t.InWindow:=by simp [Task.InWindow,hprogress]
  have hheld : s.bus=some task:=(h.bus task).mpr ⟨t,e,ht,hprogress⟩
  obtain ⟨e₀,he₀⟩:=Option.ne_none_iff_exists'.mp (h.of_window ht hin)
  have hlt:=slot_lt (credential_some he₀).2.1
  unfold HotpCounter.stepWrite
  cases hcontent : s.chip.rmem (31+t.slot) with
  | none=>
    have happlied : o.applied=true:=ho.resolve_right (not_not_intro hcontent)
    cases o with
    | done=>
      simp only [Chip.perform,Chip.rmemWrite_none hlt hcontent,if_true]
      exact h.written ht hheld hprogress (Or.inr rfl)
    | failed err applied=>
      obtain rfl : applied=true:=happlied
      simp only [Chip.perform,Chip.rmemWrite_none hlt hcontent,if_true]
      exact h.written ht hheld hprogress (Or.inl rfl)
    | powerLost applied=>
      obtain rfl : applied=true:=happlied
      have hwritten:=h.written ht hheld hprogress (Or.inl rfl)
      simp only [Chip.perform,Chip.rmemWrite_none hlt hcontent,if_true]
      exact hwritten.lost fun i v f hv hf=>absurd hf (hwritten.no_erased rfl hv f)
  | some content=>
    have hpresent : s.chip.rmem (31+t.slot)≠none:=by simp [hcontent]
    have hend:=h.unwritten ht hheld hprogress hpresent
    have hlost : Kept hmac c₀ (s.lost s.chip):=by
      apply h.lost
      intro i v f hv hf
      have hholder:=(h.bus i).mpr ⟨v,f,hv,hf⟩
      rw [hheld] at hholder
      obtain rfl:=Option.some.inj hholder
      rw [ht] at hv
      cases hv
      exact hpresent
    cases o with
    | done=>
      simp only [Chip.perform,Chip.rmemWrite_some hlt hcontent]
      exact hend
    | failed err applied=>
      simp only [Chip.perform,Chip.rmemWrite_some hlt hcontent,ite_self]
      exact hend
    | powerLost applied=>
      simp only [Chip.perform,Chip.rmemWrite_some hlt hcontent,ite_self]
      exact hlost

theorem Kept.step (h : Kept hmac c₀ s) {ev : Event} (horderly : Orderly s ev) : Kept hmac c₀ (step hmac s ev):=by
  cases ev with
  | start task path slot=>
    unfold HotpCounter.step
    dsimp only
    split
    · rename_i hnone
      refine h.setIdle ?_ ?_
      · intro hheld
        obtain ⟨v,e,hv,-⟩:=(h.bus task).mp hheld
        rw [hnone] at hv
        cases hv
      · rintro v ⟨⟩
        simp [Task.InWindow]
    · exact h
  | powerOff=>exact h.lost horderly
  | next task o hmacOk=>
    unfold HotpCounter.step
    dsimp only
    split
    · exact h
    · rename_i hfree
      have horderly:=horderly.resolve_left hfree
      cases ht : s.tasks task with
      | none=>exact h
      | some t=>
        rw [ht] at horderly
        have hbus (hne : ∀ e, t.progress≠.erased e) : s.bus=none:=by
          by_contra hsome
          have hheld : s.bus=some task:=by
            by_contra hother
            exact hfree ⟨hsome,hother⟩
          obtain ⟨v,e,hv,hprogress⟩:=(h.bus task).mp hheld
          rw [ht] at hv
          cases hv
          exact hne e hprogress
        dsimp only
        cases hprogress : t.progress with
        | started=>
          simp only [hprogress] at horderly
          exact h.stepRead ht (hbus (by simp [hprogress])) horderly.1 horderly.2 o
        | read e=>
          simp only [hprogress] at horderly
          exact h.stepErase ht (hbus (by simp [hprogress])) hprogress horderly
        | erased e=>
          simp only [hprogress] at horderly
          exact h.stepWrite ht hprogress horderly
        | persisted e=>exact h.release ht (hbus (by simp [hprogress])) hprogress hmacOk

end Steps

def start (c : Chip (Content Payload)) : State:={chip:=c}

theorem kept_start (hmac : Hmac) (c : Chip (Content Payload)) : Kept hmac c (start c) where
  bus i:=by simp [start]
  alone i j t u ht:=by cases ht
  standing slot e he:=by
    refine ⟨e.counter,le_refl _,fun _=>rfl,Or.inl he,?_,?_⟩
    · intro i t ht
      cases ht
    · intro r hr
      cases hr
  quiet slot hnone:=by
    refine ⟨hnone,?_⟩
    intro i t ht
    cases ht
  increasing slot:=List.Pairwise.nil
  codes r hr:=by cases hr

/-- Where paths do not overlap on a slot and no rewrite is cut short, every counter is used once, in order, and every
credential stays. -/
theorem counters_used_once (hmac : Hmac) (c : Chip (Content Payload)) (es : List Event)
    (h : AlongRun (step hmac) Orderly (start c) es) : Used hmac c (run (step hmac) (start c) es):=
  Kept.used (run_invariant (I:=Kept hmac c) (fun _ _ horderly hk=>hk.step horderly) (kept_start hmac c) h)

def plainHmac : Hmac:=fun a key data=>fit a.digestSize (key++data)

def hotpAccount : Account where
  type:=otypeHotp
  name:=[0x61]
  issuer:=[]
  secret:=[1]
  digits:=6
  period:=30
  algorithm:=0
  counter:=0
  flags:=0

def hotpChip : Chip (Content Payload) where
  ecc _:=none
  rmem slot:=if slot=31 then some (stored hotpAccount) else none

def hostEvents : List Event:=
  [.start 0 .host 0,.next 0 .done true,.next 0 .done true,.next 0 .done true,.next 0 .done true]

theorem counters_used_once_host : Used plainHmac hotpChip (run (step plainHmac) (start hotpChip) hostEvents):=by
  apply counters_used_once
  have hread : ∀ i u, i≠0→(step plainHmac (start hotpChip) (.start 0 .host 0)).tasks i=some u→u.slot=0 →
      ¬u.InWindow:=by
    intro i u hi hu
    simp [step,start,State.setTask,hi] at hu
  have hcounter : ∀ e, credential hotpChip 0=some e→e.type=otypeHotp→e.counter+1 < 2^64:=by
    rintro e he -
    cases he
    decide
  exact ⟨trivial,Or.inr ⟨hread,hcounter⟩,Or.inr fun _=>Or.inl rfl,Or.inr (Or.inl rfl),Or.inr trivial,trivial⟩

def overlapEvents : List Event:=
  [.start 0 .screen 0,.start 1 .host 0,.next 0 .done true,.next 1 .done true,
    .next 0 .done true,.next 0 .done true,.next 0 .done true,.next 1 .done true,.next 1 .done true,.next 1 .done true]

theorem counter_used_twice : ¬ ∀ es, Used plainHmac hotpChip (run (step plainHmac) (start hotpChip) es):=by
  intro h
  have hincreasing:=(h overlapEvents).increasing 0
  have hcounters : ((run (step plainHmac) (start hotpChip) overlapEvents).released.filter (·.slot=0)).map (·.counter) =
      [0,0]:=by
    decide +kernel
  rw [← List.pairwise_map (R:=(· < ·)),hcounters] at hincreasing
  simp at hincreasing

def single (c : Chip (Content Payload)) (t : Option Task) (bus : Option ℕ) : State:=
  {chip:=c,tasks:=Function.update (fun _=>none) 0 t,bus}

def rewriteEvents (o : WriteOutcome) (hmacOk : Bool) : List Event:=
  [.next 0 o.erase hmacOk,.next 0 o.write hmacOk,.next 0 .done hmacOk]

section Single

variable (hmac : Hmac) (c : Chip (Content Payload)) {path : Path} {slot : ℕ} {e : OathEntry}

theorem step_single (t : Task) (bus : Option ℕ) (hbus : bus=none ∨ bus=some 0) (o : SeOutcome) (hmacOk : Bool) :
    step hmac (single c (some t) bus) (.next 0 o hmacOk) =
      match t.progress with
      | .started=>stepRead (single c (some t) bus) 0 t o
      | .read e=>stepErase (single c (some t) bus) 0 t e o
      | .erased e=>stepWrite (single c (some t) bus) 0 t e o
      | .persisted e=>stepRelease hmac (single c (some t) bus) 0 t e hmacOk:=by
  rcases hbus with rfl | rfl <;> simp [step,single]

theorem run_idle {s : State} (hs : s.tasks 0=none) (l : List (SeOutcome × Bool)) :
    run (step hmac) s (l.map fun p=>.next 0 p.1 p.2)=s:=by
  induction l with
  | nil=>rfl
  | cons p l ih=>
    have hidle : step hmac s (.next 0 p.1 p.2)=s:=by simp [step,hs]
    rw [List.map_cons,run_cons,hidle,ih]

theorem setTask_single (t u : Option Task) (bus : Option ℕ) (c' : Chip (Content Payload)) (bus' : Option ℕ) :
    {(single c t bus).setTask 0 u with chip:=c',bus:=bus'}=single c' u bus':=by
  simp [single,State.setTask]

theorem reached_iff (o : WriteOutcome) :
    o.reached=true ↔ replied o.erase (.ok ())=some (.ok ()) ∨ replied o.erase (.ok ())=some (.error .slotEmpty):=by
  unfold WriteOutcome.reached replied
  rcases o.erase with _ | ⟨_ | _,_⟩ | _ <;> simp

theorem write_single (hslot : 31+slot∈slots) (o : SeOutcome) (hmacOk : Bool) :
    (run (step hmac) (single c (some ⟨path,slot,.erased e⟩) (some 0)) [.next 0 o hmacOk,.next 0 .done hmacOk]).chip =
      { c with
        rmem:=Function.update c.rmem (31+slot)
          (if o.applied && (c.rmem (31+slot)).isNone then some (stored (e.account (nextCounter e.counter)))
            else c.rmem (31+slot)) }:=by
  rw [run_cons,step_single hmac c _ (some 0) (Or.inr rfl)]
  dsimp only
  unfold stepWrite
  rw [show (single c (some ⟨path,slot,.erased e⟩) (some 0)).chip=c from rfl,perform_write (slot_lt hslot)]
  cases replied o (if (c.rmem (31+slot)).isNone then .ok () else .error .slotOccupied) with
  | none=>exact congrArg State.chip (run_idle hmac rfl [(.done,hmacOk)])
  | some reply=>
    dsimp only
    rw [setTask_single]
    by_cases hreply : reply=.ok ()
    · rw [if_pos hreply,run_cons,step_single hmac _ _ none (Or.inl rfl)]
      rfl
    · rw [if_neg hreply]
      exact congrArg State.chip (run_idle hmac rfl [(.done,hmacOk)])

theorem rewrite_single (hslot : 31+slot∈slots) (o : WriteOutcome) (hmacOk : Bool) :
    (run (step hmac) (single c (some ⟨path,slot,.read e⟩) none) (rewriteEvents o hmacOk)).chip =
      { c with
        rmem:=Function.update c.rmem (31+slot)
          (written o (c.rmem (31+slot)) (recordOf (e.account (nextCounter e.counter)))) }:=by
  have hreached:=reached_iff o
  unfold rewriteEvents written
  rw [run_cons,step_single hmac c _ none (Or.inl rfl)]
  dsimp only
  unfold stepErase
  rw [show (single c (some ⟨path,slot,.read e⟩) none).chip=c from rfl,perform_erase (slot_lt hslot)]
  cases hreply : replied o.erase (.ok ()) with
  | none=>
    have hstop : o.reached=false:=by simpa [hreply] using hreached
    rw [hstop]
    exact congrArg State.chip (run_idle hmac rfl [(o.write,hmacOk),(.done,hmacOk)])
  | some reply=>
    rw [hreply] at hreached
    simp only [Option.some.injEq] at hreached
    dsimp only
    by_cases hgoes : reply=.ok () ∨ reply=.error .slotEmpty
    · rw [if_pos hgoes,setTask_single,write_single hmac _ hslot,hreached.mpr hgoes]
      simp [stored]
    · have hstop : o.reached=false:=by simpa [hgoes] using hreached
      rw [if_neg hgoes,hstop]
      exact congrArg State.chip (run_idle hmac rfl [(o.write,hmacOk),(.done,hmacOk)])

end Single

/-- On its own, a path of the machine leaves the chip as `CALCULATE` does on an HOTP credential. -/
theorem alone_chip (hmac : Hmac) (mapSignature : UInt32) (o : CalcOutcome) (store : Store) (slot : ℕ) (challenge : ByteArr 8)
    {e : OathEntry} (he : credential store.chip slot=some e) (htype : e.type=otypeHotp) :
    (run (step hmac) (start store.chip) (.start 0 .host slot::.next 0 o.read o.hmac::rewriteEvents o.write.chip o.hmac)).chip =
      (calculateForChallenge hmac mapSignature o slot challenge store).2.chip:=by
  obtain ⟨hphys,hslot,r,hcontent,hr⟩:=credential_some he
  have hlt:=slot_lt hslot
  cases hread : o.read with
  | failed err applied=>
    unfold calculateForChallenge
    rw [hread,bind_of_ok (readAccount_failed err applied slot store)]
    simp [rewriteEvents,run,step,start,stepRead,hphys,Chip.perform,State.setTask]
  | powerLost applied=>
    unfold calculateForChallenge
    rw [hread,bind_of_error (readAccount_lost applied hphys store)]
    simp [rewriteEvents,run,step,start,stepRead,hphys,Chip.perform,State.setTask,State.lost]
  | done=>
    have hstart : run (step hmac) (start store.chip) [.start 0 .host slot,.next 0 .done o.hmac] =
        single store.chip (some ⟨.host,slot,.read e⟩) none:=by
      simp [run,step,start,single,stepRead,hphys,Chip.perform,State.setTask,Chip.rmemRead_some hlt hcontent,hr,htype]
    have hsplit (l : List Event) : run (step hmac) (start store.chip) (.start 0 .host slot::.next 0 .done o.hmac::l) =
        run (step hmac) (run (step hmac) (start store.chip) [.start 0 .host slot,.next 0 .done o.hmac]) l:=rfl
    rw [calculate_hotp hmac mapSignature challenge he htype hread,hsplit,hstart,rewrite_single hmac _ hslot]
    by_cases htaken : o.write.Taken (store.chip.rmem (31+slot))
    · obtain ⟨hreached,hdone,hempty⟩:=htaken
      rw [writePayload_taken hslot ⟨hreached,hdone,hempty⟩,(writeSlot_state (slot_allowed hslot) _ _ _ _ _).1,
        written_ok hreached hdone hempty]
      rfl
    · rw [writePayload_refused hslot htaken]
      rfl

theorem alone_chip_hotp :
    (run (step plainHmac) (start hotpChip) (.start 0 .host 0::.next 0 .done true::rewriteEvents {} true)).chip =
      (calculateForChallenge plainHmac 0 {} 0 (zeros 8) {chip:=hotpChip}).2.chip:=
  alone_chip plainHmac 0 {} {chip:=hotpChip} 0 (zeros 8) rfl rfl

end CdcBadge.HotpCounter
