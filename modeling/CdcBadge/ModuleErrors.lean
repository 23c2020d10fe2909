import CdcBadge.Bytes
import CdcBadge.Runs

/-!
# Errors of modules

The registry keeps modules and their errors in two arrays. When a module is taken out, the
modules behind it move up and their errors do not, so an error can pass to the next module.
-/

namespace CdcBadge.ModuleErrors

open Runs

def maxModules : ℕ:=16

/-- `ServiceState`. -/
inductive ServiceState
  | uninitialized | initialized | started | stopped | error
  deriving DecidableEq

/-- The registry: the names of `modules_`, `moduleErrors_`, and the states the modules are in. -/
structure Registry where
  names : List Bytes
  distinct : names.Nodup
  count_le : names.length ≤ maxModules
  moduleErrors : ℕ→Option Bytes
  states : Bytes → ServiceState

/-- What a module's `init()` or `start()` returns, and the state it leaves the module in. -/
structure Outcome where
  ok : Bool
  state : ServiceState

namespace Registry

variable (r : Registry)

/-- `setModuleError`: no message is stored as an empty one, and a long one is cut. -/
def setModuleError (index : ℕ) (message : Option Bytes) : Registry:=
  if maxModules ≤ index then r
  else {r with moduleErrors:=Function.update r.moduleErrors index (some ((message.getD []).take 95))}

def clearModuleError (index : ℕ) : Registry:=
  if maxModules ≤ index then r else {r with moduleErrors:=Function.update r.moduleErrors index none}

def setState (name : Bytes) (state : ServiceState) : Registry:={r with states:=Function.update r.states name state}

/-- `getModuleSlotError`; `hasModuleSlotError` is whether there is one. -/
def getModuleSlotError (index : ℕ) : Option Bytes:=if r.names.length ≤ index then none else r.moduleErrors index

def reportModuleError (name : Bytes) (message : Option Bytes) : Registry:=
  if name∈r.names then
    let stopped:=if r.states name=.started then r.setState name .stopped else r
    stopped.setModuleError (r.names.idxOf name) message
  else r

def add (name : Bytes) (h : ¬(maxModules ≤ r.names.length ∨ name∈r.names)) : Registry:=
  { r with
    names:=r.names++[name]
    distinct:=r.distinct.append (List.nodup_singleton name) (by simpa using fun h'=>h (Or.inr h'))
    count_le:=by simpa [Nat.succ_le_iff] using Nat.lt_of_not_le fun h'=>h (Or.inl h') }

/-- `registerModule`; `slotError` is the error that `applySlotRequest` reports for the module, if any. -/
def registerModule (name : Bytes) (state : ServiceState) (slotError : Option Bytes) : Registry:=
  if h : maxModules ≤ r.names.length ∨ name∈r.names then r
  else
    let cleared:=((r.add name h).setState name state).clearModuleError r.names.length
    match slotError with
    | some message=>cleared.reportModuleError name (some message)
    | none=>cleared

/-- `unregisterModule`: the modules behind it move up. -/
def unregisterModule (name : Bytes) : Registry:=
  { r with names:=r.names.erase name,distinct:=r.distinct.erase name
           count_le:=List.length_erase_le.trans r.count_le }

def clearModuleErrorByName (name : Bytes) : Registry:=
  if name∈r.names then r.clearModuleError (r.names.idxOf name) else r

def retryModule (index : ℕ) (init start : Outcome) : Bool × Registry:=
  match r.names[index]? with
  | none=>(false,r)
  | some name=>
    let cleared:=r.clearModuleError index
    let initialised:=if r.states name=.uninitialized then cleared.setState name init.state else cleared
    if r.states name=.uninitialized ∧ init.ok=false then
      (false,initialised.reportModuleError name (some "Init failed on retry".toUTF8.toList))
    else if start.ok=false then
      (false,(initialised.setState name start.state).reportModuleError name (some "Start failed on retry".toUTF8.toList))
    else (true,initialised.setState name start.state)

/-- What `startModule` does with a module that is not blocked. -/
def goOn (name : Bytes) (start : Outcome) : Bool × Registry:=
  if r.states name=.initialized ∨ r.states name=.stopped then (start.ok,r.setState name start.state) else (true,r)

def startModule (index : ℕ) (start : Outcome) : Bool × Registry:=
  match r.names[index]? with
  | none=>(false,r)
  | some name=>if (r.getModuleSlotError index).isSome then (false,r) else r.goOn name start

end Registry

/-- The calls, with what the modules answer. -/
inductive Call
  | registerModule (name : Bytes) (state : ServiceState) (slotError : Option Bytes)
  | unregisterModule (name : Bytes)
  | reportModuleError (name : Bytes) (message : Option Bytes)
  | clearModuleErrorByName (name : Bytes)
  | retryModule (index : ℕ) (init start : Outcome)

def Registry.call (r : Registry) : Call→Registry
  | .registerModule name state slotError=>r.registerModule name state slotError
  | .unregisterModule name=>r.unregisterModule name
  | .reportModuleError name message=>r.reportModuleError name message
  | .clearModuleErrorByName name=>r.clearModuleErrorByName name
  | .retryModule index init start=>(r.retryModule index init start).2

/-- The registry, and the modules of which an error was reported that has not been cleared since. -/
structure Watched where
  registry : Registry
  failed : Bytes→Bool

def Watched.failedAfter (w : Watched) : Call→Bytes→Bool
  | .registerModule name _ slotError=>
    if maxModules ≤ w.registry.names.length ∨ name∈w.registry.names then w.failed
    else Function.update w.failed name slotError.isSome
  | .unregisterModule name=>Function.update w.failed name false
  | .reportModuleError name _=>if name∈w.registry.names then Function.update w.failed name true else w.failed
  | .clearModuleErrorByName name=>Function.update w.failed name false
  | .retryModule index init start=>
    match w.registry.names[index]? with
    | none=>w.failed
    | some name=>Function.update w.failed name (!(w.registry.retryModule index init start).1)

def Watched.step (w : Watched) (c : Call) : Watched:=⟨w.registry.call c,w.failedAfter c⟩

/-- A module has a message exactly if it has failed itself, and it is kept from starting by that alone. -/
structure Watched.Own (w : Watched) : Prop where
  message : ∀ index name, w.registry.names[index]? = some name →
    (w.registry.getModuleSlotError index).isSome=w.failed name
  blocked : ∀ index name, w.registry.names[index]? = some name→∀ start, w.failed name=true →
    w.registry.startModule index start=(false,w.registry)
  free : ∀ index name, w.registry.names[index]? = some name→∀ start, w.failed name=false →
    w.registry.startModule index start=w.registry.goOn name start

/-- Where a module is taken out, each module behind it has an error exactly if the one before it has. -/
def Watched.Level (w : Watched) (c : Call) : Prop:=
  ∀ name∈w.registry.names, c=.unregisterModule name→∀ index, w.registry.names.idxOf name ≤ index →
    index+1 < w.registry.names.length →
      (w.registry.moduleErrors index).isSome=(w.registry.moduleErrors (index+1)).isSome

/-- A module has an error in the array exactly if it is one of those that failed. -/
def Tells (names : List Bytes) (errors : ℕ→Option Bytes) (failed : Bytes→Bool) : Prop:=
  ∀ index name, names[index]? = some name→(errors index).isSome=failed name

section Steps

variable {names : List Bytes} {errors : ℕ→Option Bytes} {failed : Bytes→Bool} {r : Registry} {name : Bytes} {index : ℕ}

theorem Tells.update (h : Tells names errors failed) (hnodup : names.Nodup) (hat : names[index]? = some name)
    (error : Option Bytes) :
    Tells names (Function.update errors index error) (Function.update failed name error.isSome):=by
  intro i other hother
  by_cases hi : i=index
  · subst hi
    obtain rfl:=Option.some.inj (hother.symm.trans hat)
    rw [Function.update_self,Function.update_self]
  · have hne : other≠name:=by
      rintro rfl
      obtain ⟨hlt,-⟩:=List.getElem?_eq_some_iff.mp hother
      exact hi ((List.getElem?_inj hlt hnodup).mp (hother.trans hat.symm))
    rw [Function.update_of_ne hi,Function.update_of_ne hne]
    exact h i other hother

theorem getElem?_idxOf (h : name∈names) : names[names.idxOf name]? = some name:=by
  have hlt:=List.idxOf_lt_length_of_mem h
  rw [List.getElem?_eq_getElem hlt,List.getElem_idxOf hlt]

theorem idxOf_at (hat : names[index]? = some name) (hnodup : names.Nodup) : names.idxOf name=index:=by
  obtain ⟨hlt,rfl⟩:=List.getElem?_eq_some_iff.mp hat
  exact hnodup.idxOf_getElem index hlt

theorem lt_maxModules (hat : r.names[index]? = some name) : index < maxModules:=
  (List.getElem?_eq_some_iff.mp hat).1.trans_le r.count_le

theorem reportModuleError_spec (hat : r.names[index]? = some name) (message : Option Bytes) :
    (r.reportModuleError name message).names=r.names ∧
      ∃ text, (r.reportModuleError name message).moduleErrors=Function.update r.moduleErrors index (some text):=by
  unfold Registry.reportModuleError
  rw [if_pos (List.mem_of_getElem? hat),idxOf_at hat r.distinct]
  unfold Registry.setModuleError
  rw [if_neg (Nat.not_le.mpr (lt_maxModules hat))]
  dsimp only
  split
  · exact ⟨rfl,_,rfl⟩
  · exact ⟨rfl,_,rfl⟩

theorem clearModuleError_eq (hat : r.names[index]? = some name) :
    r.clearModuleError index={r with moduleErrors:=Function.update r.moduleErrors index none}:=
  if_neg (Nat.not_le.mpr (lt_maxModules hat))

theorem retryModule_spec (hat : r.names[index]? = some name) (init start : Outcome) :
    (r.retryModule index init start).2.names=r.names ∧
      ∃ error, (r.retryModule index init start).2.moduleErrors=Function.update r.moduleErrors index error ∧
        error.isSome = !(r.retryModule index init start).1:=by
  have hreport (t : Registry) (hnames : t.names=r.names) (herrors : t.moduleErrors=Function.update r.moduleErrors index none)
      (message : Option Bytes) : (t.reportModuleError name message).names=r.names ∧ ∃ text,
        (t.reportModuleError name message).moduleErrors=Function.update r.moduleErrors index (some text):=by
    obtain ⟨hkept,text,htext⟩:=reportModuleError_spec (hnames ▸ hat) message
    rw [herrors,Function.update_idem] at htext
    exact ⟨hkept.trans hnames,text,htext⟩
  unfold Registry.retryModule
  rw [hat]
  dsimp only
  rw [clearModuleError_eq hat]
  generalize hinit : (if r.states name=.uninitialized then _ else _ : Registry)=t
  have ht : t.names=r.names ∧ t.moduleErrors=Function.update r.moduleErrors index none:=by
    rw [← hinit]
    split <;> exact ⟨rfl,rfl⟩
  split
  · obtain ⟨hnames,text,htext⟩:=hreport t ht.1 ht.2 _
    exact ⟨hnames,some text,htext,rfl⟩
  · split
    · obtain ⟨hnames,text,htext⟩:=hreport (t.setState name start.state) ht.1 ht.2 _
      exact ⟨hnames,some text,htext,rfl⟩
    · exact ⟨ht.1,none,ht.2,rfl⟩

theorem own_iff {w : Watched} : w.Own ↔ Tells w.registry.names w.registry.moduleErrors w.failed:=by
  have hmessage : ∀ index name, w.registry.names[index]? = some name →
      w.registry.getModuleSlotError index=w.registry.moduleErrors index:=
    fun index name hat=>if_neg (Nat.not_le.mpr (List.getElem?_eq_some_iff.mp hat).1)
  constructor
  · intro h index name hat
    rw [← hmessage index name hat]
    exact h.message index name hat
  · intro h
    have hown : ∀ index name, w.registry.names[index]? = some name →
        (w.registry.getModuleSlotError index).isSome=w.failed name:=by
      intro index name hat
      rw [hmessage index name hat]
      exact h index name hat
    refine ⟨hown,fun index name hat start hfailed=>?_,fun index name hat start hfree=>?_⟩
    · rw [Registry.startModule,hat]
      exact if_pos ((hown index name hat).trans hfailed)
    · rw [Registry.startModule,hat]
      exact if_neg (by rw [hown index name hat,hfree]; decide)

theorem tells_registerModule (h : Tells r.names r.moduleErrors failed) (state : ServiceState) (slotError : Option Bytes)
    (hroom : ¬(maxModules ≤ r.names.length ∨ name∈r.names)) :
    Tells (r.registerModule name state slotError).names (r.registerModule name state slotError).moduleErrors
      (Function.update failed name slotError.isSome):=by
  rw [not_or] at hroom
  have hlast : (r.names++[name])[r.names.length]? = some name:=by simp
  have hadded : Tells (r.names++[name]) (Function.update r.moduleErrors r.names.length none)
      (Function.update failed name false):=by
    intro i other hother
    rcases Nat.lt_or_ge i r.names.length with hlt | hge
    · rw [List.getElem?_append_left hlt] at hother
      have hne : other≠name:=fun heq=>hroom.2 (heq ▸ List.mem_of_getElem? hother)
      rw [Function.update_of_ne hlt.ne,Function.update_of_ne hne]
      exact h i other hother
    · obtain rfl : i=r.names.length:=by
        have hbound:=(List.getElem?_eq_some_iff.mp hother).1
        simp only [List.length_append,List.length_singleton] at hbound
        omega
      obtain rfl:=Option.some.inj (hother.symm.trans hlast)
      simp
  unfold Registry.registerModule
  rw [dif_neg (not_or.mpr hroom)]
  dsimp only
  generalize hcleared : Registry.clearModuleError _ r.names.length=t
  have ht : t.names=r.names++[name] ∧ t.moduleErrors=Function.update r.moduleErrors r.names.length none:=by
    rw [← hcleared,clearModuleError_eq (r:=(r.add name _).setState name state) hlast]
    exact ⟨rfl,rfl⟩
  rw [← ht.1] at hlast
  rw [← ht.1,← ht.2] at hadded
  cases slotError with
  | none=>exact hadded
  | some message=>
    dsimp only
    obtain ⟨hnames,text,herrors⟩:=reportModuleError_spec hlast (some message)
    rw [hnames,herrors]
    have htold:=hadded.update t.distinct hlast (some text)
    rw [Function.update_idem] at htold
    exact htold

theorem tells_unregisterModule (h : Tells r.names r.moduleErrors failed) (hname : name∈r.names) :
    Tells (r.unregisterModule name).names r.moduleErrors (Function.update failed name false) ↔
      ∀ i, r.names.idxOf name ≤ i→i+1 < r.names.length →
        (r.moduleErrors i).isSome=(r.moduleErrors (i+1)).isSome:=by
  have hne : ∀ (i : ℕ) other, (r.names.erase name)[i]? = some other → other≠name:=by
    rintro i other hother rfl
    exact r.distinct.not_mem_erase (List.mem_of_getElem? hother)
  have herase : ∀ i : ℕ, (r.names.erase name)[i]? = if i < r.names.idxOf name then r.names[i]? else r.names[i+1]?:=by
    intro i
    rw [List.erase_eq_eraseIdx_of_idxOf rfl,List.getElem?_eraseIdx]
  constructor
  · intro htold i hle hlt
    have hnext : r.names[i+1]? = some r.names[i+1]:=List.getElem?_eq_getElem hlt
    have hmoved : (r.names.erase name)[i]? = some r.names[i+1]:=by
      rw [herase,if_neg (Nat.not_lt.mpr hle),hnext]
    have hbefore:=h (i+1) _ hnext
    have hafter:=htold i _ hmoved
    rw [Function.update_of_ne (hne i _ hmoved)] at hafter
    exact hafter.trans hbefore.symm
  · intro hlevel i other hother
    rw [Function.update_of_ne (hne i other hother)]
    have hat:=hother
    rw [Registry.unregisterModule,herase] at hat
    split at hat
    · exact h i other hat
    · rename_i hge
      have hlt:=(List.getElem?_eq_some_iff.mp hat).1
      exact (hlevel i (Nat.not_lt.mp hge) hlt).trans (h (i+1) other hat)

theorem own_step {w : Watched} (hw : w.Own) (c : Call) : (w.step c).Own ↔ w.Level c:=by
  rw [own_iff] at hw ⊢
  have hlevel (hc : ∀ name, c≠.unregisterModule name) (htold : Tells (w.registry.call c).names
      (w.registry.call c).moduleErrors (w.failedAfter c)) : Tells (w.step c).registry.names (w.step c).registry.moduleErrors
      (w.step c).failed ↔ w.Level c:=
    iff_of_true htold fun name _ h=>absurd h (hc name)
  cases c with
  | registerModule name state slotError=>
    apply hlevel fun _ h=>Call.noConfusion h
    by_cases hroom : maxModules ≤ w.registry.names.length ∨ name∈w.registry.names
    · have hsame : w.registry.registerModule name state slotError=w.registry:=dif_pos hroom
      simpa [Registry.call,Watched.failedAfter,hsame,hroom] using hw
    · rw [Watched.failedAfter,if_neg hroom]
      exact tells_registerModule hw state slotError hroom
  | unregisterModule name=>
    by_cases hname : name∈w.registry.names
    · refine (tells_unregisterModule hw hname).trans ⟨?_,fun h=>h name hname rfl⟩
      rintro h _ _ ⟨⟩
      exact h
    · refine iff_of_true ?_ fun other hother h=>absurd (by cases h; exact hother) hname
      intro i other hother
      have hsame : (w.registry.unregisterModule name).names=w.registry.names:=List.erase_of_not_mem hname
      have hat : w.registry.names[i]? = some other:=hsame ▸ hother
      have hne : other≠name:=fun heq=>hname (heq ▸ List.mem_of_getElem? hat)
      exact (hw i other hat).trans (Function.update_of_ne hne _ _).symm
  | reportModuleError name message=>
    apply hlevel fun _ h=>Call.noConfusion h
    by_cases hname : name∈w.registry.names
    · obtain ⟨hnames,text,herrors⟩:=reportModuleError_spec (getElem?_idxOf hname) message
      rw [Registry.call,hnames,herrors,Watched.failedAfter,if_pos hname]
      exact hw.update w.registry.distinct (getElem?_idxOf hname) (some text)
    · have hsame : w.registry.reportModuleError name message=w.registry:=if_neg hname
      rw [Registry.call,hsame,Watched.failedAfter,if_neg hname]
      exact hw
  | clearModuleErrorByName name=>
    apply hlevel fun _ h=>Call.noConfusion h
    by_cases hname : name∈w.registry.names
    · rw [Registry.call,Registry.clearModuleErrorByName,if_pos hname,clearModuleError_eq (getElem?_idxOf hname)]
      exact hw.update w.registry.distinct (getElem?_idxOf hname) none
    · rw [Registry.call,Registry.clearModuleErrorByName,if_neg hname]
      intro i other hother
      have hne : other≠name:=fun heq=>hname (heq ▸ List.mem_of_getElem? hother)
      exact (hw i other hother).trans (Function.update_of_ne hne _ _).symm
  | retryModule index init start=>
    apply hlevel fun _ h=>Call.noConfusion h
    rw [Registry.call,Watched.failedAfter]
    cases hat : w.registry.names[index]? with
    | none=>
      have hsame : w.registry.retryModule index init start=(false,w.registry):=by
        rw [Registry.retryModule,hat]
      rw [hsame]
      exact hw
    | some name=>
      obtain ⟨hnames,error,herrors,hfails⟩:=retryModule_spec hat init start
      dsimp only
      rw [hnames,herrors,← hfails]
      exact hw.update w.registry.distinct hat error

end Steps

def Registry.empty : Registry:=⟨[],List.nodup_nil,Nat.zero_le _,fun _=>none,fun _=>.uninitialized⟩

/-- Along a run from boot, modules have the errors that were reported for them, and are kept from starting by these,
exactly where a module is only taken out if each module behind it has an error as the one before it has. -/
theorem module_errors_iff (cs : List Call) :
    AlongRun Watched.step (fun w c=>(w.step c).Own) ⟨.empty,fun _=>false⟩ cs ↔
      AlongRun Watched.step Watched.Level ⟨.empty,fun _=>false⟩ cs:=by
  have hstart : Watched.Own ⟨.empty,fun _=>false⟩:=own_iff.mpr fun index name hat=>by cases hat
  apply alongRun_iff ?_ hstart
  intro w c hw
  exact ⟨own_step hw c,(own_step hw c).mpr⟩

/-- The first of two modules fails and is taken out, and the second is kept from starting by its error. -/
def passedOn : List Call:=
  [.registerModule [1] .initialized none,.registerModule [2] .initialized none,.reportModuleError [1] none,
    .unregisterModule [1]]

theorem module_error_passes_on :
    ¬AlongRun Watched.step (fun w c=>(w.step c).Own) ⟨.empty,fun _=>false⟩ passedOn:=by
  intro h
  have hmessage:=h.2.2.2.1.message 0 [2] (by decide +kernel)
  revert hmessage
  decide +kernel

end CdcBadge.ModuleErrors
