import CdcBadge.DisabledList
import CdcBadge.ModuleErrors

/-!
# Switching USB services

A core service keeps its choice in NVS under its own id; the service of a module is on where the module
is not on the list of disabled modules. A full list keeps a module on that was switched off, and a
conflict is seen only from the side that names it, and only with a service that runs.
-/

namespace CdcBadge.Modules

open Runs
open ModuleErrors (ServiceState getElem?_idxOf)

theorem lawful_bytes : LawfulBEq Bytes:=inferInstance

attribute [local instance] lawful_bytes

/-- `UsbServiceState`. -/
inductive UsbState
  | off | on | suspended | unavailable
  deriving DecidableEq

inductive ToggleResult
  | ok | budgetFull | slotBusy | busy | failed | notFound
  deriving DecidableEq

/-- `UsbServiceDesc`; a core service has no `moduleName`, and its three callbacks. -/
structure ServiceDesc where
  id : Bytes
  moduleName : Option Bytes
  conflictsWith : Option Bytes
  deriving DecidableEq

/-- The registered services; a module registers one, under its own name. -/
structure Services where
  descs : List ServiceDesc
  ids : (descs.map ServiceDesc.id).Nodup
  modules : ∀ s∈descs, ∀ t∈descs, s.moduleName≠none → s.moduleName=t.moduleName → s=t

def Services.find (svc : Services) (id : Bytes) : Option ServiceDesc:=svc.descs.find? fun s=>s.id=id

/-- What the callback, the module and the budget make of a request; `enable` is the state after a callback that succeeds. -/
structure Outcome where
  enable : Option {state : UsbState // state≠.off}
  start : Bool
  slotError : Bool
  budgetFits : Bool
  hidSlotsFull : Bool

/-- The states that the core services that are on, and the enabled modules, are found in. -/
structure Found where
  core : Bytes → {state : UsbState // state≠.off}
  modules : Bytes → ServiceState

/-- The answers of the core services, their choices in NVS, and the modules. -/
structure Usb where
  core : Bytes→UsbState
  persisted : Bytes→Option Bool
  list : DisabledList
  modules : Bytes → ServiceState

namespace Usb

variable (defaultEnabled : Bytes→Bool) (r : Registered) (svc : Services) (u : Usb)

def stateOf (s : ServiceDesc) : UsbState:=
  match s.moduleName with
  | none=>u.core s.id
  | some name=>
    if name ∉ r.names then .unavailable
    else if u.list.isModuleEnabled r (r.names.idxOf name) then if u.modules name=.started then .on else .unavailable
    else .off

def setModuleEnabled (name : Bytes) (enabled : Bool) : Usb:=
  {u with list:=u.list.setModuleEnabled r (r.names.idxOf name) enabled true}

def startModule (name : Bytes) (o : Outcome) : Bool × Usb:=
  if o.slotError then (false,u)
  else if u.modules name=.initialized ∨ u.modules name=.stopped then
    if o.start then (true,{u with modules:=Function.update u.modules name .started}) else (false,u)
  else (true,u)

def toggleModuleService (name : Bytes) (enabled : Bool) (o : Outcome) : ToggleResult × Usb:=
  if name ∉ r.names then (.failed,u)
  else if enabled then
    let started:=(u.setModuleEnabled r name true).startModule name o
    if started.1 then (.ok,started.2)
    else (if !o.slotError && o.hidSlotsFull then .budgetFull else .failed,started.2.setModuleEnabled r name false)
  else
    let stopped:=if u.modules name=.started then {u with modules:=Function.update u.modules name .stopped} else u
    (.ok,stopped.setModuleEnabled r name false)

def toggleCoreService (id : Bytes) (enabled : Bool) (o : Outcome) : ToggleResult × Usb:=
  let persist (state : UsbState):=
    {u with core:=Function.update u.core id state,persisted:=Function.update u.persisted id (some enabled)}
  if enabled then
    match o.enable with
    | none=>(if o.budgetFits then .failed else .budgetFull,u)
    | some state=>(.ok,persist state)
  else (.ok,persist .off)

/-- What `setEnabled` answers on the states it finds. -/
def answered (s : ServiceDesc) (enabled : Bool) : Option ToggleResult:=
  if u.stateOf r s=.suspended then some .busy
  else if u.stateOf r s=(if enabled then .on else .off) then some .ok
  else if enabled && (s.conflictsWith.bind svc.find).any (fun other=>u.stateOf r other=.on) then some .slotBusy
  else none

def setEnabled (id : Bytes) (enabled : Bool) (o : Outcome) : ToggleResult × Usb:=
  match svc.find id with
  | none=>(.notFound,u)
  | some s=>
    match u.answered r svc s enabled with
    | some result=>(result,u)
    | none=>
      match s.moduleName with
      | some name=>u.toggleModuleService r name enabled o
      | none=>u.toggleCoreService s.id enabled o

/-- A module that is not enabled does not run. -/
def settle (f : Found) : Usb:=
  { u with
    core:=fun id=>if u.core id=.off then .off else f.core id
    modules:=fun name=>
      if isModuleEnabledByName u.list.disabledModules.val name ∨ f.modules name≠.started then f.modules name else .stopped }

/-- The state after a start: a core service that is stored as off is disabled when it registers. -/
def reboot (f : Found) : Usb:=
  ({ u with
     core:=fun id=>if u.persisted id=some false then .off else .on
     list:=u.list.loadDisabledList defaultEnabled r true true }).settle f

inductive Event
  | setEnabled (id : Bytes) (enabled : Bool) (o : Outcome)
  | settle (f : Found)
  | reboot (f : Found)

def step : Event→Usb
  | .setEnabled id enabled o=>(u.setEnabled r svc id enabled o).2
  | .settle f=>u.settle f
  | .reboot f=>u.reboot defaultEnabled r f

/-- Whether a service is switched on, operational or not. -/
def enabled (s : ServiceDesc) : Bool:=
  match s.moduleName with
  | none=>u.core s.id≠.off
  | some name=>r.names.contains name && isModuleEnabledByName u.list.disabledModules.val name

def Conflict (s t : ServiceDesc) : Prop:=s.conflictsWith=some t.id ∨ t.conflictsWith=some s.id

def Apart : Prop:=
  ∀ s∈svc.descs, ∀ t∈svc.descs, s≠t → Conflict s t→u.enabled r s=true→u.enabled r t=false

/-- What is answered with Ok holds now and after a start; after another answer the choice is as before, or off. -/
def Agrees (v : Usb) (s : ServiceDesc) (enabled : Bool) (result : ToggleResult) : Prop:=
  ∀ f, if result=.ok then v.enabled r s=enabled ∧ (v.reboot defaultEnabled r f).enabled r s=enabled
    else (v.reboot defaultEnabled r f).enabled r s=false ∨
      (v.reboot defaultEnabled r f).enabled r s=(u.reboot defaultEnabled r f).enabled r s

def Right : Event→Prop
  | .setEnabled id enabled o=>
    (∀ s∈svc.find id, u.Agrees defaultEnabled r (u.setEnabled r svc id enabled o).2 s enabled (u.setEnabled r svc id enabled o).1) ∧
      (u.setEnabled r svc id enabled o).2.Apart r svc
  | e=>(u.step defaultEnabled r svc e).Apart r svc

def comesUp (s : ServiceDesc) (o : Outcome) : Bool:=
  match s.moduleName with
  | none=>o.enable.isSome
  | some name=>r.names.contains name && (u.startModule name o).1

/-- The list has room for a module that is switched off, or that was off and does not start. -/
def Room (s : ServiceDesc) (enabled : Bool) (o : Outcome) : Prop:=
  ∀ name∈r.names, s.moduleName=some name→(enabled=true→u.enabled r s=false ∧ u.comesUp r s o=false) →
    (if enabled then removeNameFromList u.list.disabledModules name else u.list.disabledModules).val.length+name.length+2 <
      maxDisabledListSize

/-- There is room, and where a service comes up, no service is on that it has a conflict with. -/
def Heeds : Event→Prop
  | .setEnabled id enabled o=>∀ s∈svc.find id, u.answered r svc s enabled=none→u.Room r s enabled o ∧
    (enabled=true→u.comesUp r s o=true→∀ t∈svc.descs, t≠s → Conflict s t→u.enabled r t=false)
  | _=>True

end Usb

section Lists

variable {defaultEnabled : Bytes→Bool} {r : Registered} {d : DisabledList} {index : ℕ} {name : Bytes}

/-- A start finds the list that is in memory. -/
def Kept (defaultEnabled : Bytes→Bool) (r : Registered) (d : DisabledList) : Prop:=
  d.reloaded defaultEnabled r true=d.disabledModules

theorem kept_save (d : DisabledList) : Kept defaultEnabled r (d.save true):=by
  simp [Kept,DisabledList.save,DisabledList.reloaded,DisabledList.found,d.disabledModules.property]

theorem kept_setModuleEnabled (h : Kept defaultEnabled r d) (index : ℕ) (enabled : Bool) :
    Kept defaultEnabled r (d.setModuleEnabled r index enabled true):=by
  unfold DisabledList.setModuleEnabled
  repeat' split
  all_goals first | exact h | exact kept_save _

theorem kept_loadDisabledList (d : DisabledList) : Kept defaultEnabled r (d.loadDisabledList defaultEnabled r true true):=by
  unfold DisabledList.loadDisabledList
  split
  · rename_i list hfound
    have hagain : (({d with disabledModules:=list} : DisabledList).found true)=some list:=hfound
    rw [Kept,DisabledList.reloaded,hagain]
    rfl
  · rename_i hfound
    dsimp only
    split
    · rw [Kept,DisabledList.reloaded]
      exact congrArg (Option.getD · _) hfound
    · exact kept_save _

theorem setModuleEnabled_room (h : r.names[index]? = some name) (hname : comma ∉ name ∧ name≠[]) (enabled : Bool)
    (hroom : enabled=false→d.disabledModules.val.length+name.length+2 < maxDisabledListSize) (other : Bytes) :
    isModuleEnabledByName (d.setModuleEnabled r index enabled true).disabledModules.val other =
      if other=name then enabled else isModuleEnabledByName d.disabledModules.val other:=
  setModuleEnabled_byName h hname.1 true (fun hoff _=>⟨hname.2,hroom hoff⟩) other

theorem setModuleEnabled_refused (h : r.names[index]? = some name) (hon : isModuleEnabledByName d.disabledModules.val name=true)
    (hlong : ¬d.disabledModules.val.length+name.length+2 < maxDisabledListSize) : d.setModuleEnabled r index false true=d:=by
  have hrefused : addNameToList d.disabledModules name=none:=dif_neg hlong
  simp [DisabledList.setModuleEnabled,h,hon,hrefused]

theorem setModuleEnabled_off (h : r.names[index]? = some name) (hoff : isModuleEnabledByName d.disabledModules.val name=false) :
    (d.setModuleEnabled r index true true).disabledModules=removeNameFromList d.disabledModules name:=by
  simp [DisabledList.setModuleEnabled,h,hoff]

end Lists

namespace Usb

variable {defaultEnabled : Bytes→Bool} {r : Registered} {svc : Services} {u v : Usb} {s : ServiceDesc} {on : Bool}

/-- The choices in memory are those that a start finds. -/
structure Level (defaultEnabled : Bytes→Bool) (r : Registered) (u : Usb) : Prop where
  list : Kept defaultEnabled r u.list
  core : ∀ id, u.core id=.off ↔ u.persisted id=some false

theorem enabled_settle (f : Found) (s : ServiceDesc) : (u.settle f).enabled r s=u.enabled r s:=by
  unfold enabled
  cases s.moduleName with
  | none=>by_cases hoff : u.core s.id=.off <;> simp [settle,hoff,(f.core s.id).property]
  | some name=>rfl

theorem level_settle (h : Level defaultEnabled r u) (f : Found) : Level defaultEnabled r (u.settle f):=by
  refine ⟨h.list,fun id=>?_⟩
  by_cases hoff : u.core id=.off
  · simpa [settle,hoff] using (h.core id).mp hoff
  · simpa [settle,hoff,(f.core id).property] using mt (h.core id).mpr hoff

theorem level_reboot (u : Usb) (f : Found) : Level defaultEnabled r (u.reboot defaultEnabled r f):=
  level_settle ⟨kept_loadDisabledList _,fun id=>by by_cases hoff : u.persisted id=some false <;> simp [hoff]⟩ f

theorem enabled_reboot (h : Level defaultEnabled r u) (f : Found) (s : ServiceDesc) :
    (u.reboot defaultEnabled r f).enabled r s=u.enabled r s:=by
  refine (enabled_settle f s).trans ?_
  unfold enabled
  cases s.moduleName with
  | none=>by_cases hoff : u.persisted s.id=some false <;> simp [hoff,h.core]
  | some name=>
    dsimp only
    rw [loadDisabledList_list,h.list]

/-- What a request does: the service is on or off after it, and the others are as they were. -/
structure Moved (defaultEnabled : Bytes→Bool) (r : Registered) (svc : Services) (u v : Usb) (s : ServiceDesc)
    (on : Bool) : Prop where
  level : Level defaultEnabled r v
  self : v.enabled r s=on
  others : ∀ t∈svc.descs, t≠s→v.enabled r t=u.enabled r t

theorem Moved.apart_iff (h : Moved defaultEnabled r svc u v s on) (hs : s∈svc.descs) (hu : u.Apart r svc) :
    v.Apart r svc ↔ (on=true→∀ t∈svc.descs, t≠s → Conflict s t→u.enabled r t=false):=by
  constructor
  · intro hv hon t ht hne hconflict
    rw [← h.others t ht hne]
    exact hv s hs t ht hne.symm hconflict (h.self.trans hon)
  · intro hon a ha b hb hab hconflict ha'
    by_cases has : a=s
    · subst has
      rw [h.others b hb hab.symm]
      exact hon (h.self.symm.trans ha') b hb hab.symm hconflict
    · rw [h.others a ha has] at ha'
      by_cases hbs : b=s
      · subst hbs
        by_contra hb'
        rw [hon (h.self.symm.trans (by simpa using hb')) a ha has hconflict.symm] at ha'
        cases ha'
      · rw [h.others b hb hbs]
        exact hu a ha b hb hab hconflict ha'

theorem moved_module (on : Bool) (hs : s∈svc.descs) {name : Bytes} (hname : s.moduleName=some name) (hmem : name∈r.names)
    (hu : Level defaultEnabled r u) {d : DisabledList} (hv : v.core=u.core ∧ v.persisted=u.persisted ∧ v.list=d)
    (hkept : Kept defaultEnabled r d) (hlist : ∀ other, isModuleEnabledByName d.disabledModules.val other =
      if other=name then on else isModuleEnabledByName u.list.disabledModules.val other) :
    Moved defaultEnabled r svc u v s on:=by
  obtain ⟨hcore,hpersisted,rfl⟩:=hv
  refine ⟨⟨hkept,by rw [hcore,hpersisted]; exact hu.core⟩,?_,fun t ht hne=>?_⟩
  · simp [enabled,hname,hlist,hmem]
  · unfold enabled
    cases hother : t.moduleName with
    | none=>
      dsimp only
      rw [hcore]
    | some other=>
      have hne' : other≠name:=by
        rintro rfl
        exact hne (svc.modules t ht s hs (by simp [hother]) (hother.trans hname.symm))
      dsimp only
      rw [hlist,if_neg hne']

theorem moved_core (hs : s∈svc.descs) (hname : s.moduleName=none) (hu : Level defaultEnabled r u) {state : UsbState}
    (hstate : state=.off ↔ on=false) :
    Moved defaultEnabled r svc u
      {u with core:=Function.update u.core s.id state,persisted:=Function.update u.persisted s.id (some on)} s on:=by
  refine ⟨⟨hu.list,fun id=>?_⟩,?_,fun t ht hne=>?_⟩
  · by_cases hid : id=s.id
    · subst hid
      simp [hstate]
    · simpa [hid] using hu.core id
  · cases on <;> simp [enabled,hname,hstate]
  · unfold enabled
    cases t.moduleName with
    | none=>
      have hid : t.id≠s.id:=fun hid=>hne (List.inj_on_of_nodup_map svc.ids ht hs hid)
      simp [hid]
    | some other=>rfl

theorem startModule_keeps (u : Usb) (name : Bytes) (o : Outcome) : (u.startModule name o).2.core=u.core ∧
    (u.startModule name o).2.persisted=u.persisted ∧ (u.startModule name o).2.list=u.list:=by
  unfold startModule
  repeat' split
  all_goals exact ⟨rfl,rfl,rfl⟩

variable (hnames : ∀ name∈r.names, comma ∉ name ∧ name≠[]) (hu : u.Level defaultEnabled r) {enabled : Bool}
include hnames hu

theorem toggleModuleService_spec (hs : s∈svc.descs) {name : Bytes} (hname : s.moduleName=some name) (hmem : name∈r.names) (hanswer : u.answered r svc s enabled=none) (o : Outcome) :
    ∃ on, Moved defaultEnabled r svc u (u.toggleModuleService r name enabled o).2 s on ∧
      (((u.toggleModuleService r name enabled o).1=.ok ∧ (enabled=true→u.comesUp r s o=true) ∧
          (on=enabled ↔ u.Room r s enabled o)) ∨
        ((u.toggleModuleService r name enabled o).1≠.ok ∧ u.comesUp r s o=false ∧
          (on=false ∨ on=u.enabled r s ↔ u.Room r s enabled o))):=by
  have hat:=getElem?_idxOf hmem
  have hself : u.enabled r s=isModuleEnabledByName u.list.disabledModules.val name:=by simp [Usb.enabled,hname,hmem]
  have hup : u.comesUp r s o=(u.startModule name o).1:=by simp [comesUp,hname,hmem]
  have hroom : u.Room r s enabled o ↔ ((enabled=true→u.enabled r s=false ∧ u.comesUp r s o=false) →
      (if enabled then removeNameFromList u.list.disabledModules name else u.list.disabledModules).val.length+name.length+2 <
        maxDisabledListSize):=by
    constructor
    · exact fun h=>h name hmem hname
    · rintro h other - hother
      cases hname.symm.trans hother
      exact h
  unfold toggleModuleService
  rw [if_neg (not_not.mpr hmem),hroom]
  cases enabled with
  | false=>
    have hon : isModuleEnabledByName u.list.disabledModules.val name=true:=by
      by_contra hoff
      simp [answered,stateOf,hname,hmem,isModuleEnabled_at hat,hoff] at hanswer
    have hmoved (on : Bool):=moved_module (v:=((if u.modules name=.started then
        {u with modules:=Function.update u.modules name .stopped} else u).setModuleEnabled r name false)) on hs hname hmem hu
      (by split <;> exact ⟨rfl,rfl,rfl⟩) (kept_setModuleEnabled hu.list (r.names.idxOf name) false)
    by_cases hfits : u.list.disabledModules.val.length+name.length+2 < maxDisabledListSize
    · exact ⟨false,hmoved false (setModuleEnabled_room hat (hnames name hmem) false fun _=>hfits),.inl ⟨rfl,nofun,by simpa using hfits⟩⟩
    · refine ⟨true,hmoved true fun other=>?_,.inl ⟨rfl,nofun,by simpa using hfits⟩⟩
      rw [setModuleEnabled_refused hat hon hfits]
      split <;> simp [*]
  | true=>
    obtain ⟨d,hd⟩ : ∃ d, u.list.setModuleEnabled r (r.names.idxOf name) true true=d:=⟨_,rfl⟩
    have hfirst:=hd ▸ setModuleEnabled_room (d:=u.list) hat (hnames name hmem) true nofun
    have hkept : Kept defaultEnabled r d:=hd ▸ kept_setModuleEnabled hu.list (r.names.idxOf name) true
    have hkeeps:=startModule_keeps (u.setModuleEnabled r name true) name o
    rw [show (u.setModuleEnabled r name true).list=d from hd] at hkeeps
    have hstarted : ((u.setModuleEnabled r name true).startModule name o).1=u.comesUp r s o:=by
      rw [hup]
      unfold startModule setModuleEnabled
      dsimp only
      repeat' split
      all_goals rfl
    dsimp only
    rw [if_pos rfl,if_pos rfl,hstarted]
    cases hcomes : u.comesUp r s o with
    | true=>exact ⟨true,moved_module true hs hname hmem hu hkeeps hkept hfirst,.inl ⟨rfl,fun _=>rfl,by simp⟩⟩
    | false=>
      have hmoved (on : Bool):=moved_module (v:=((u.setModuleEnabled r name true).startModule name o).2.setModuleEnabled r name false)
        on hs hname hmem hu ⟨hkeeps.1,hkeeps.2.1,congrArg (DisabledList.setModuleEnabled r · _ _ _) hkeeps.2.2⟩
        (kept_setModuleEnabled hkept (r.names.idxOf name) false)
      have hfailed : (if !o.slotError && o.hidSlotsFull then ToggleResult.budgetFull else .failed)≠.ok:=by split <;> decide
      have hback : isModuleEnabledByName d.disabledModules.val name=true:=by rw [hfirst,if_pos rfl]
      have hoff (h : u.enabled r s=false) : d.disabledModules=removeNameFromList u.list.disabledModules name:=
        hd ▸ setModuleEnabled_off hat (hself.symm.trans h)
      by_cases hfits : d.disabledModules.val.length+name.length+2 < maxDisabledListSize
      · refine ⟨false,hmoved false fun other=>?_,.inr ⟨hfailed,rfl,iff_of_true (.inl rfl) fun h=>?_⟩⟩
        · rw [setModuleEnabled_room hat (hnames name hmem) false fun _=>hfits,hfirst]
          split <;> rfl
        · rwa [← hoff (h rfl).1]
      · refine ⟨true,hmoved true fun other=>?_,.inr ⟨hfailed,rfl,?_⟩⟩
        · rw [setModuleEnabled_refused hat hback hfits,hfirst]
        · cases hbefore : u.enabled r s with
          | true=>simp
          | false=>
            rw [hoff hbefore] at hfits
            simpa using hfits

theorem setEnabled_spec {id : Bytes} (hfind : svc.find id=some s) (hanswer : u.answered r svc s enabled=none)
    (o : Outcome) : ∃ on, Moved defaultEnabled r svc u (u.setEnabled r svc id enabled o).2 s on ∧
      (((u.setEnabled r svc id enabled o).1=.ok ∧ (enabled=true→u.comesUp r s o=true) ∧
          (on=enabled ↔ u.Room r s enabled o)) ∨
        ((u.setEnabled r svc id enabled o).1≠.ok ∧ u.comesUp r s o=false ∧
          (on=false ∨ on=u.enabled r s ↔ u.Room r s enabled o))):=by
  have hs : s∈svc.descs:=List.mem_of_find?_eq_some hfind
  have hstill : Moved defaultEnabled r svc u u s (u.enabled r s):=⟨hu,rfl,fun _ _ _=>rfl⟩
  unfold setEnabled
  rw [hfind]
  dsimp only
  rw [hanswer]
  cases hname : s.moduleName with
  | none=>
    have hroom (enabled : Bool) : u.Room r s enabled o:=fun _ _ h=>by rw [hname] at h; cases h
    cases enabled with
    | false=>exact ⟨false,moved_core hs hname hu (by simp),.inl ⟨rfl,nofun,iff_of_true rfl (hroom _)⟩⟩
    | true=>
      dsimp only [toggleCoreService]
      rw [if_pos rfl]
      cases ho : o.enable with
      | none=>exact ⟨_,hstill,.inr ⟨by dsimp only; split <;> decide,by simp [comesUp,hname,ho],iff_of_true (.inr rfl) (hroom _)⟩⟩
      | some state=>
        exact ⟨true,moved_core hs hname hu (by simp [state.property]),
          .inl ⟨rfl,fun _=>by simp [comesUp,hname,ho],iff_of_true rfl (hroom _)⟩⟩
  | some name=>
    dsimp only
    by_cases hmem : name∈r.names
    · exact toggleModuleService_spec hnames hu hs hname hmem hanswer o
    · have hroom : u.Room r s enabled o:=by
        rintro other hother h -
        cases hname.symm.trans h
        exact absurd hother hmem
      rw [toggleModuleService,if_pos hmem]
      exact ⟨_,hstill,.inr ⟨nofun,by simp [comesUp,hname,hmem],iff_of_true (.inr rfl) hroom⟩⟩

omit hnames hu in
theorem answered_ok (h : u.answered r svc s enabled=some .ok) : u.enabled r s=enabled:=by
  have hstate : u.stateOf r s=if enabled then .on else .off:=by
    by_contra hstate
    unfold answered at h
    rw [if_neg hstate] at h
    split_ifs at h <;> cases h
  unfold stateOf at hstate
  unfold Usb.enabled
  cases hname : s.moduleName with
  | none=>
    rw [hname] at hstate
    dsimp only at hstate ⊢
    cases enabled <;> simp [hstate]
  | some name=>
    rw [hname] at hstate
    dsimp only at hstate ⊢
    by_cases hmem : name∈r.names
    · rw [isModuleEnabled_at (getElem?_idxOf hmem)] at hstate
      cases hon : isModuleEnabledByName u.list.disabledModules.val name <;> cases enabled <;>
        by_cases hstarted : u.modules name=.started <;> simp_all
    · cases enabled <;> simp_all

omit hnames hu in
theorem apart_congr (h : ∀ s, v.enabled r s=u.enabled r s) : v.Apart r svc ↔ u.Apart r svc:=by simp only [Apart,h]

omit hnames in
theorem agrees_iff (hv : v.Level defaultEnabled r) {result : ToggleResult} :
    u.Agrees defaultEnabled r v s enabled result ↔
      if result=.ok then v.enabled r s=enabled else v.enabled r s=false ∨ v.enabled r s=u.enabled r s:=by
  unfold Agrees
  simp only [enabled_reboot hv,enabled_reboot hu,and_self]
  exact ⟨fun h=>h ⟨fun _=>⟨.on,nofun⟩,fun _=>.started⟩,fun h _=>h⟩

theorem step_iff (hapart : u.Apart r svc) (e : Event) :
    (u.Right defaultEnabled r svc e ↔ u.Heeds r svc e) ∧ (u.step defaultEnabled r svc e).Level defaultEnabled r:=by
  cases e with
  | settle f=>exact ⟨iff_of_true ((apart_congr (enabled_settle f)).mpr hapart) trivial,level_settle hu f⟩
  | reboot f=>exact ⟨iff_of_true ((apart_congr (enabled_reboot hu f)).mpr hapart) trivial,level_reboot u f⟩
  | setEnabled id enabled o=>
    cases hfind : svc.find id with
    | none=>
      have hrun : u.setEnabled r svc id enabled o=(.notFound,u):=by simp [setEnabled,hfind]
      simp [Right,Heeds,step,hfind,hrun,hapart,hu]
    | some s=>
      simp only [Right,Heeds,step,hfind,Option.mem_def,Option.some.injEq,forall_eq']
      cases hanswer : u.answered r svc s enabled with
      | some result=>
        have hrun : u.setEnabled r svc id enabled o=(result,u):=by simp [setEnabled,hfind,hanswer]
        rw [hrun,agrees_iff hu hu]
        refine ⟨iff_of_true ⟨?_,hapart⟩ nofun,hu⟩
        split
        · rename_i hok
          exact answered_ok (hanswer.trans (congrArg some hok))
        · exact .inr rfl
      | none=>
        obtain ⟨on,hmoved,hresult⟩:=setEnabled_spec hnames hu hfind hanswer o
        refine ⟨?_,hmoved.level⟩
        rw [agrees_iff hu hmoved.level,hmoved.self,hmoved.apart_iff (List.mem_of_find?_eq_some hfind) hapart]
        rcases hresult with ⟨hok,hup,hroom⟩ | ⟨hok,hup,hroom⟩
        · rw [if_pos hok,hroom]
          refine ⟨fun h _=>⟨h.1,fun hon _=>h.2 ((hroom.mpr h.1).trans hon)⟩,fun h=>?_⟩
          obtain ⟨h1,h2⟩:=h rfl
          exact ⟨h1,fun hon=>h2 ((hroom.mpr h1).symm.trans hon) (hup ((hroom.mpr h1).symm.trans hon))⟩
        · rw [if_neg hok,hroom]
          refine ⟨fun h _=>⟨h.1,fun _ h=>by rw [hup] at h; cases h⟩,fun h=>⟨(h rfl).1,fun hon t ht hne hconflict=>?_⟩⟩
          rcases hroom.mpr (h rfl).1 with hoff | hsame
          · rw [hoff] at hon
            cases hon
          · exact hapart s (List.mem_of_find?_eq_some hfind) t ht hne.symm hconflict (hsame.symm.trans hon)

end Usb

/-- From a start on with no two services on that conflict, every answer agrees with the choices and no two such services
are ever on, exactly where each request finds room on the list and each service that comes up no conflict. -/
theorem usb_services (defaultEnabled : Bytes→Bool) (r : Registered) (svc : Services) (hnames : ∀ name∈r.names, comma ∉ name ∧ name≠[])
    (u : Usb) (f : Found) (hstart : (u.reboot defaultEnabled r f).Apart r svc) (events : List Usb.Event) :
    AlongRun (Usb.step defaultEnabled r svc) (Usb.Right defaultEnabled r svc) (u.reboot defaultEnabled r f) events ↔
      AlongRun (Usb.step defaultEnabled r svc) (Usb.Heeds r svc) (u.reboot defaultEnabled r f) events:=by
  have hinv : (u.reboot defaultEnabled r f).Level defaultEnabled r ∧ (u.reboot defaultEnabled r f).Apart r svc:=
    ⟨Usb.level_reboot u f,hstart⟩
  apply alongRun_iff (I:=fun v=>v.Level defaultEnabled r ∧ v.Apart r svc) ?_ hinv
  intro v e hv
  obtain ⟨hiff,hlevel⟩:=Usb.step_iff hnames hv.1 hv.2 e
  refine ⟨hiff,fun he=>⟨hlevel,?_⟩⟩
  have hright:=hiff.mpr he
  cases e with
  | setEnabled id enabled o=>exact hright.2
  | settle f=>exact hright
  | reboot f=>exact hright

def keyboard : ServiceDesc:=⟨"kbd".toUTF8.toList,some "mod_usbhid".toUTF8.toList,some "otphid".toUTF8.toList⟩

def otpHid : ServiceDesc:=⟨"otphid".toUTF8.toList,some "mod_otphid".toUTF8.toList,some "kbd".toUTF8.toList⟩

def usbShipped : Services where
  descs:=[⟨"cdc".toUTF8.toList,none,none⟩,keyboard,otpHid]
  ids:=by decide +kernel
  modules:=by decide +kernel

theorem length_noneOff : ([] : Bytes).length < maxDisabledListSize:=by decide

/-- A badge in whose flash some modules are off. -/
def storedOff (off : List Bytes) : Usb:=⟨fun _=>.on,fun _=>none,⟨⟨[],length_noneOff⟩,some (List.intercalate [comma] off)⟩,fun _=>.initialized⟩

def steady : Found:=⟨fun _=>⟨.on,nofun⟩,fun _=>.started⟩

def started : Outcome:=⟨none,true,false,true,false⟩

theorem usb_services_shipped :
    AlongRun (Usb.step (fun _=>true) shipped usbShipped) (Usb.Right (fun _=>true) shipped usbShipped)
        ((storedOff ["mod_otphid".toUTF8.toList]).reboot (fun _=>true) shipped steady) [.setEnabled keyboard.id false started] ↔
      AlongRun (Usb.step (fun _=>true) shipped usbShipped) (Usb.Heeds shipped usbShipped)
        ((storedOff ["mod_otphid".toUTF8.toList]).reboot (fun _=>true) shipped steady) [.setEnabled keyboard.id false started]:=
  usb_services _ shipped usbShipped (by decide +kernel) _ steady (by unfold Usb.Apart Usb.Conflict; decide +kernel) _

/-- With twelve modules off the list has no room for another, and the keyboard stays on. -/
def mostOff : Usb:=
  (storedOff (shipped.names.filter (· ∉ ["mod_usbhid".toUTF8.toList,"mod_msc".toUTF8.toList]))).reboot (fun _=>true) shipped steady

theorem usb_service_stays_on : ¬AlongRun (Usb.step (fun _=>true) shipped usbShipped) (Usb.Right (fun _=>true) shipped usbShipped)
    mostOff [.setEnabled keyboard.id false started]:=by
  intro h
  have hagrees:=h.1.1 keyboard (by decide +kernel) steady
  rw [if_pos (by decide +kernel)] at hagrees
  exact absurd hagrees.1 (by decide +kernel)

end CdcBadge.Modules
