import CdcBadge.Bytes
import CdcBadge.Runs
import CdcBadge.TokenLists

/-!
# The list of disabled modules

The module registry keeps the names of the modules that are switched off as one text with
commas, in a buffer of 128 bytes and in NVS. A module that no longer fits on the list stays
enabled, and `toggleModuleEnabled` says all the same that it is off.
-/

namespace CdcBadge.Modules

open Runs TokenLists

def comma : UInt8:=0x2C

def maxModules : ℕ:=16

def maxDisabledListSize : ℕ:=128

/-- A text in a buffer of `n` bytes, without its terminator. -/
abbrev CText (n : ℕ):={text : Bytes // text.length < n}

/-- The names of the registered modules, in their order. -/
structure Registered where
  names : List Bytes
  distinct : names.Nodup
  count_le : names.length ≤ maxModules

/-- What the registry holds on disabled modules: `disabledModules_`, and the text stored in NVS. -/
structure DisabledList where
  disabledModules : CText maxDisabledListSize
  stored : Option Bytes

/-- `isModuleEnabledByName`. -/
def isModuleEnabledByName (list name : Bytes) : Bool:=
  if name=[] ∨ list=[] then true
  else !(tokens comma list).contains name

def separate {capacity : ℕ} (tmp : CText capacity) : CText capacity:=
  if h : tmp.val≠[] ∧ tmp.val.length+1 < capacity then ⟨tmp.val++[comma],by simpa using h.2⟩ else tmp

/-- What `removeNameFromList` does with a token, `tmp` being what is written so far. -/
def keepToken {capacity : ℕ} (name : Bytes) (tmp : CText capacity) (token : Bytes) : CText capacity:=
  if token=name then tmp
  else if h : (separate tmp).val.length+token.length < capacity then ⟨(separate tmp).val++token,by simpa using h⟩
  else separate tmp

def removeNameFromList {capacity : ℕ} (list : CText capacity) (name : Bytes) : CText capacity:=
  (tokens comma list.val).foldl (keepToken name) ⟨[],(Nat.zero_le _).trans_lt list.property⟩

/-- `addNameToList`; `none` where the list is full. -/
def addNameToList {capacity : ℕ} (list : CText capacity) (name : Bytes) : Option (CText capacity):=
  if h : list.val.length+name.length+2 < capacity then
    some ⟨joined comma list.val name,by rw [joined_length]; split <;> omega⟩
  else none

section Registry

variable (defaultEnabled : Bytes→Bool) (r : Registered)

/-- The names that are off by the build's `MODULE_DEFAULT_MAP`, up to one that does not fit. -/
def defaultList (list : CText maxDisabledListSize) : List Bytes → CText maxDisabledListSize
  | []=>list
  | name::names=>
    if defaultEnabled name then defaultList list names
    else if h : list.val.length+((if list.val=[] then 0 else 1)+name.length+1) ≤ maxDisabledListSize then
      defaultList ⟨joined comma list.val name,by rw [joined_length]; omega⟩ names
    else list

/-- `saveDisabledList`, and whether NVS takes it. -/
def DisabledList.save (d : DisabledList) (saved : Bool) : DisabledList:=
  if saved then {d with stored:=some d.disabledModules.val} else d

/-- The text that `loadDisabledList` finds, where NVS can be read and it fits the buffer. -/
def DisabledList.found (d : DisabledList) (readable : Bool) : Option (CText maxDisabledListSize):=
  if readable then d.stored.bind fun text=>if h : text.length < maxDisabledListSize then some ⟨text,h⟩ else none
  else none

def DisabledList.loadDisabledList (d : DisabledList) (readable saved : Bool) : DisabledList:=
  match d.found readable with
  | some list=>{d with disabledModules:=list}
  | none=>
    let d:={d with disabledModules:=defaultList defaultEnabled ⟨[],by decide⟩ r.names}
    if d.disabledModules.val=[] then d else d.save saved

def DisabledList.isModuleEnabled (d : DisabledList) (index : ℕ) : Bool:=
  match r.names[index]? with
  | some name=>isModuleEnabledByName d.disabledModules.val name
  | none=>false

def DisabledList.setModuleEnabled (d : DisabledList) (index : ℕ) (enabled saved : Bool) : DisabledList:=
  match r.names[index]? with
  | none=>d
  | some name=>
    if enabled=isModuleEnabledByName d.disabledModules.val name then d
    else if enabled then {d with disabledModules:=removeNameFromList d.disabledModules name}.save saved
    else match addNameToList d.disabledModules name with
      | none=>d
      | some list=>{d with disabledModules:=list}.save saved

def DisabledList.toggleModuleEnabled (d : DisabledList) (index : ℕ) (saved : Bool) : Bool × DisabledList:=
  if index < r.names.length then
    let wasEnabled:=d.isModuleEnabled r index
    (!wasEnabled,d.setModuleEnabled r index (!wasEnabled) saved)
  else (false,d)

/-- What can be asked of the registry, with what NVS makes of it. -/
inductive ListCall
  | setModuleEnabled (index : ℕ) (enabled saved : Bool)
  | toggleModuleEnabled (index : ℕ) (saved : Bool)
  | reload (readable saved : Bool)

/-- The registry, and the state that was last asked for of each module; at first, the one it reports. -/
structure Watched where
  list : DisabledList
  wanted : ℕ→Bool

def Watched.request (w : Watched) : ListCall→Option (ℕ × Bool)
  | .setModuleEnabled index enabled _=>some (index,enabled)
  | .toggleModuleEnabled index _=>some (index,!w.list.isModuleEnabled r index)
  | .reload _ _=>none

def Watched.call (w : Watched) : ListCall→DisabledList
  | .setModuleEnabled index enabled saved=>w.list.setModuleEnabled r index enabled saved
  | .toggleModuleEnabled index saved=>(w.list.toggleModuleEnabled r index saved).2
  | .reload readable saved=>w.list.loadDisabledList defaultEnabled r readable saved

def Watched.step (w : Watched) (c : ListCall) : Watched where
  list:=w.call defaultEnabled r c
  wanted:=match w.request r c with
    | some (index,enabled)=>Function.update w.wanted index enabled
    | none=>w.wanted

/-- After the call every module is reported as last asked for, no other module is changed, and a toggle
returns what is reported. -/
structure Watched.Right (w : Watched) (c : ListCall) : Prop where
  reported : ∀ index < r.names.length,
    (w.step defaultEnabled r c).list.isModuleEnabled r index=(w.step defaultEnabled r c).wanted index
  others : ∀ index < r.names.length, (∀ enabled, w.request r c≠some (index,enabled)) →
    (w.step defaultEnabled r c).list.isModuleEnabled r index=w.list.isModuleEnabled r index
  toggled : ∀ index saved, c=.toggleModuleEnabled index saved →
    (w.list.toggleModuleEnabled r index saved).1=(w.step defaultEnabled r c).list.isModuleEnabled r index

def DisabledList.reloaded (d : DisabledList) (readable : Bool) : CText maxDisabledListSize:=
  (d.found readable).getD (defaultList defaultEnabled ⟨[],by decide⟩ r.names)

/-- There is room on the list for a module that is to be disabled, and it has a name; and a reload finds a list that
names the same modules as the one in memory. -/
structure Watched.HasRoom (w : Watched) (c : ListCall) : Prop where
  room : ∀ index name, w.request r c=some (index,false) → r.names[index]? = some name →
    isModuleEnabledByName w.list.disabledModules.val name=true →
      name≠[] ∧ w.list.disabledModules.val.length+name.length+2 < maxDisabledListSize
  reload : ∀ readable saved, c=.reload readable saved→∀ name∈r.names,
    isModuleEnabledByName (w.list.reloaded defaultEnabled r readable).val name =
      isModuleEnabledByName w.list.disabledModules.val name

end Registry

section Lists

variable {capacity : ℕ} {list : CText capacity} {name other : Bytes}

theorem enabledByName_iff : isModuleEnabledByName list.val name=true ↔ name=[] ∨ name ∉ tokens comma list.val:=by
  unfold isModuleEnabledByName
  split
  · rename_i h
    rcases h with rfl | h
    · simp
    · simp [h]
  · rename_i h
    rw [not_or] at h
    simp [h.1]

theorem keepToken_foldl (words : List Bytes) (tmp : CText capacity) (hwords : ∀ word∈words, comma ∉ word ∧ word≠[])
    (hroom : tmp.val.length+(if tmp.val=[] then 0 else 1)+weight words ≤ capacity) :
    tokens comma (words.foldl (keepToken name) tmp).val=tokens comma tmp.val++words.filter (· ≠ name):=by
  induction words generalizing tmp with
  | nil=>simp
  | cons word words ih=>
    have hrest : ∀ word∈words, comma ∉ word ∧ word≠[]:=fun w hw=>hwords w (List.mem_cons_of_mem _ hw)
    obtain ⟨hcomma,hne⟩:=hwords word List.mem_cons_self
    have hweight : weight (word::words)=word.length+1+weight words:=by simp [weight]
    rw [hweight] at hroom
    rw [List.foldl_cons]
    by_cases hname : word=name
    · have hkept : keepToken name tmp word=tmp:=if_pos hname
      rw [hkept,ih tmp hrest (by omega),List.filter_cons_of_neg (by simpa using hname)]
    · have hkept : (keepToken name tmp word).val=joined comma tmp.val word:=by
        have hlt : (separate tmp).val.length+word.length < capacity ∧
            (separate tmp).val++word=joined comma tmp.val word:=by
          unfold separate joined
          by_cases hempty : tmp.val=[]
          · rw [dif_neg fun h=>h.1 hempty,if_pos hempty,hempty]
            rw [if_pos hempty,hempty] at hroom
            exact ⟨by simp only [List.length_nil] at hroom ⊢; omega,rfl⟩
          · rw [if_neg hempty] at hroom
            rw [dif_pos ⟨hempty,by omega⟩,if_neg hempty]
            exact ⟨by simp only [List.length_append,List.length_singleton]; omega,by simp⟩
        unfold keepToken
        rw [if_neg hname,dif_pos hlt.1]
        exact hlt.2
      have hlength : (keepToken name tmp word).val.length=tmp.val.length+(if tmp.val=[] then 0 else 1)+word.length:=by
        rw [hkept,joined_length]
      have hsome : (keepToken name tmp word).val≠[]:=by
        rw [hkept]
        unfold joined
        split <;> simp [hne]
      rw [ih _ hrest (by rw [hlength,if_neg hsome]; omega),hkept,tokens_joined hcomma hne,
        List.filter_cons_of_pos (by simpa using hname),List.append_assoc,List.singleton_append]

theorem tokens_removeNameFromList : tokens comma (removeNameFromList list name).val=(tokens comma list.val).filter (· ≠ name):=by
  have hweight : weight (tokens comma list.val) ≤ list.val.length+1:=weight_tokens_le
  have hsize:=list.property
  unfold removeNameFromList
  rw [keepToken_foldl _ _ (fun word hword=>token_spec hword) (by simpa using hweight.trans hsize)]
  simp

theorem enabled_removeNameFromList :
    isModuleEnabledByName (removeNameFromList list name).val other=true ↔
      other=name ∨ isModuleEnabledByName list.val other=true:=by
  rw [enabledByName_iff,enabledByName_iff,tokens_removeNameFromList]
  by_cases hsame : other=name
  · simp [hsame]
  · simp [hsame]

theorem enabled_addNameToList {added : CText capacity} (h : addNameToList list name=some added) (hcomma : comma ∉ name)
    (hne : name≠[]) :
    isModuleEnabledByName added.val other=true ↔ other≠name ∧ isModuleEnabledByName list.val other=true:=by
  unfold addNameToList at h
  split at h
  · cases h
    rw [enabledByName_iff,enabledByName_iff,tokens_joined hcomma hne]
    by_cases hsame : other=name
    · simp [hsame,hne]
    · simp [hsame]
  · cases h

end Lists

section Calls

variable {defaultEnabled : Bytes→Bool} {r : Registered} {d : DisabledList} {w : Watched} {index : ℕ} {name : Bytes}

@[simp] theorem save_disabledModules (d : DisabledList) (saved : Bool) : (d.save saved).disabledModules=d.disabledModules:=by
  cases saved <;> rfl

theorem isModuleEnabled_at (h : r.names[index]? = some name) (d : DisabledList) :
    d.isModuleEnabled r index=isModuleEnabledByName d.disabledModules.val name:=by
  rw [DisabledList.isModuleEnabled,h]

theorem setModuleEnabled_byName (h : r.names[index]? = some name) (hcomma : comma ∉ name) {enabled : Bool} (saved : Bool)
    (hroom : enabled=false→isModuleEnabledByName d.disabledModules.val name=true →
      name≠[] ∧ d.disabledModules.val.length+name.length+2 < maxDisabledListSize) (other : Bytes) :
    isModuleEnabledByName (d.setModuleEnabled r index enabled saved).disabledModules.val other =
      if other=name then enabled else isModuleEnabledByName d.disabledModules.val other:=by
  unfold DisabledList.setModuleEnabled
  rw [h]
  dsimp only
  by_cases hsame : enabled=isModuleEnabledByName d.disabledModules.val name
  · rw [if_pos hsame]
    split
    · rename_i hother
      rw [hother,hsame]
    · rfl
  rw [if_neg hsame,Bool.eq_iff_iff]
  cases enabled with
  | true=>
    rw [if_pos rfl,save_disabledModules,enabled_removeNameFromList]
    split <;> simp [*]
  | false=>
    obtain ⟨hne,hfits⟩:=hroom rfl (by simpa using hsame)
    have hadded : addNameToList d.disabledModules name=some _:=dif_pos hfits
    rw [if_neg (by decide),hadded]
    dsimp only
    rw [save_disabledModules,enabled_addNameToList hadded hcomma hne]
    split <;> simp [*]

theorem setModuleEnabled_full (h : r.names[index]? = some name) (saved : Bool)
    (henabled : isModuleEnabledByName d.disabledModules.val name=true)
    (hfull : ¬(name≠[] ∧ d.disabledModules.val.length+name.length+2 < maxDisabledListSize)) :
    (d.setModuleEnabled r index false saved).isModuleEnabled r index=true:=by
  rw [isModuleEnabled_at h]
  by_cases hne : name=[]
  · exact if_pos (Or.inl hne)
  · have hrefused : addNameToList d.disabledModules name=none:=dif_neg fun hfits=>hfull ⟨hne,hfits⟩
    unfold DisabledList.setModuleEnabled
    rw [h]
    dsimp only
    rw [henabled,if_neg (by decide),if_neg (by decide),hrefused]
    exact henabled

theorem loadDisabledList_list (d : DisabledList) (readable saved : Bool) :
    (d.loadDisabledList defaultEnabled r readable saved).disabledModules=d.reloaded defaultEnabled r readable:=by
  unfold DisabledList.loadDisabledList DisabledList.reloaded
  cases d.found readable with
  | some list=>rfl
  | none=>
    dsimp only
    split
    · rfl
    · exact save_disabledModules _ _

theorem toggleModuleEnabled_eq (d : DisabledList) (index : ℕ) (saved : Bool) :
    (d.toggleModuleEnabled r index saved).2=d.setModuleEnabled r index (!d.isModuleEnabled r index) saved:=by
  unfold DisabledList.toggleModuleEnabled
  split
  · rfl
  · rename_i hindex
    have hnone : r.names[index]? = none:=List.getElem?_eq_none (Nat.le_of_not_lt hindex)
    simp [DisabledList.setModuleEnabled,hnone]

/-- Every module is reported as last asked for. -/
def Watched.Told (r : Registered) (w : Watched) : Prop:=
  ∀ index < r.names.length, w.list.isModuleEnabled r index=w.wanted index

variable (defaultEnabled) in
theorem call_request {c : ListCall} {enabled : Bool} (h : w.request r c=some (index,enabled)) :
    ∃ saved, w.call defaultEnabled r c=w.list.setModuleEnabled r index enabled saved:=by
  cases c with
  | setModuleEnabled index enabled saved=>
    cases h
    exact ⟨saved,rfl⟩
  | toggleModuleEnabled index saved=>
    cases h
    exact ⟨saved,toggleModuleEnabled_eq _ _ _⟩
  | reload readable saved=>cases h

variable (hcomma : ∀ name∈r.names, comma ∉ name)
include hcomma

theorem reported_step (hw : w.Told r) {c : ListCall} (hc : w.HasRoom defaultEnabled r c) (i : ℕ) (hi : i < r.names.length) :
    (w.step defaultEnabled r c).list.isModuleEnabled r i=(w.step defaultEnabled r c).wanted i ∧
      ((∀ enabled, w.request r c≠some (i,enabled)) →
        (w.step defaultEnabled r c).list.isModuleEnabled r i=w.list.isModuleEnabled r i):=by
  have hat : r.names[i]? = some r.names[i]:=List.getElem?_eq_getElem hi
  unfold Watched.step
  rw [isModuleEnabled_at hat,isModuleEnabled_at hat]
  have htold:=(isModuleEnabled_at hat w.list).symm.trans (hw i hi)
  cases hrequest : w.request r c with
  | none=>
    obtain ⟨readable,saved,rfl⟩ : ∃ readable saved, c=.reload readable saved:=by
      cases c with
      | reload readable saved=>exact ⟨readable,saved,rfl⟩
      | setModuleEnabled index enabled saved=>cases hrequest
      | toggleModuleEnabled index saved=>cases hrequest
    have hsame:=hc.reload readable saved rfl _ (List.getElem_mem hi)
    dsimp only [Watched.call]
    rw [loadDisabledList_list,hsame]
    exact ⟨htold,fun _=>rfl⟩
  | some request=>
    obtain ⟨index,enabled⟩:=request
    obtain ⟨saved,hcall⟩:=call_request defaultEnabled hrequest
    dsimp only
    rw [hcall]
    cases hindex : r.names[index]? with
    | none=>
      have hother : i≠index:=by
        rintro rfl
        rw [hat] at hindex
        cases hindex
      rw [DisabledList.setModuleEnabled,hindex,Function.update_of_ne hother]
      exact ⟨htold,fun _=>rfl⟩
    | some name=>
      have hroom : enabled=false → _:=fun henabled=>hc.room index name (henabled ▸ hrequest) hindex
      rw [setModuleEnabled_byName hindex (hcomma name (List.mem_of_getElem? hindex)) saved hroom]
      by_cases hother : i=index
      · subst hother
        obtain rfl:=Option.some.inj (hat.symm.trans hindex)
        rw [if_pos rfl,Function.update_self]
        exact ⟨rfl,fun h=>absurd rfl (h enabled)⟩
      · have hname : r.names[i]≠name:=by
          rintro rfl
          exact hother ((List.getElem?_inj hi r.distinct).mp (hat.trans hindex.symm))
        rw [if_neg hname,Function.update_of_ne hother]
        exact ⟨htold,fun _=>rfl⟩

theorem right_iff (hw : w.Told r) (c : ListCall) : w.Right defaultEnabled r c ↔ w.HasRoom defaultEnabled r c:=by
  constructor
  · intro h
    refine ⟨fun index name hrequest hindex henabled=>?_,?_⟩
    · obtain ⟨saved,hcall⟩:=call_request defaultEnabled hrequest
      have hlt : index < r.names.length:=(List.getElem?_eq_some_iff.mp hindex).1
      have hreported:=h.reported index hlt
      unfold Watched.step at hreported
      rw [hrequest,hcall] at hreported
      by_contra hfull
      rw [setModuleEnabled_full hindex saved henabled hfull] at hreported
      simp at hreported
    · rintro readable saved rfl name hmem
      obtain ⟨i,hi,rfl⟩:=List.getElem_of_mem hmem
      have hat : r.names[i]? = some r.names[i]:=List.getElem?_eq_getElem hi
      have hsame:=h.others i hi fun _ h=>by cases h
      rw [isModuleEnabled_at hat,isModuleEnabled_at hat] at hsame
      rw [← hsame]
      exact congrArg (fun list=>isModuleEnabledByName list.val _) (loadDisabledList_list _ _ _).symm
  · intro hc
    refine ⟨fun i hi=>(reported_step hcomma hw hc i hi).1,fun i hi=>(reported_step hcomma hw hc i hi).2,?_⟩
    rintro index saved rfl
    by_cases hindex : index < r.names.length
    · rw [(reported_step hcomma hw hc index hindex).1]
      simp [DisabledList.toggleModuleEnabled,hindex,Watched.step,Watched.request]
    · simp [DisabledList.toggleModuleEnabled,hindex,DisabledList.isModuleEnabled]

end Calls

def Watched.start (r : Registered) (d : DisabledList) : Watched:=⟨d,d.isModuleEnabled r⟩

/-- Along a run, modules are reported as last asked for and toggles return what is reported, exactly where there is
room on the list for every module that is disabled and every reload finds the list that was left. -/
theorem disabled_list_iff (defaultEnabled : Bytes→Bool) (r : Registered) (hcomma : ∀ name∈r.names, comma ∉ name)
    (d : DisabledList) (cs : List ListCall) :
    AlongRun (Watched.step defaultEnabled r) (Watched.Right defaultEnabled r) (Watched.start r d) cs ↔
      AlongRun (Watched.step defaultEnabled r) (Watched.HasRoom defaultEnabled r) (Watched.start r d) cs:=by
  have hstart : (Watched.start r d).Told r:=fun _ _=>rfl
  apply alongRun_iff ?_ hstart
  intro w c hw
  exact ⟨right_iff hcomma hw c,fun hc i hi=>(reported_step hcomma hw hc i hi).1⟩

/-- The modules of `module_defaults.h`. -/
def shipped : Registered where
  names:=["mod_2fa","mod_fido2","mod_password","mod_gpg","mod_piv","mod_sao","mod_vcard","mod_ble_serial",
    "mod_nvsedit","mod_blehid","mod_usbhid","mod_otphid","mod_vfat","mod_msc"].map fun s=>s.toUTF8.toList
  distinct:=by decide +kernel
  count_le:=by decide

theorem disabled_list_shipped :
    AlongRun (Watched.step (fun _=>true) shipped) (Watched.Right (fun _=>true) shipped)
        (.start shipped ⟨⟨[],by decide⟩,none⟩) [.toggleModuleEnabled 3 true] ↔
      AlongRun (Watched.step (fun _=>true) shipped) (Watched.HasRoom (fun _=>true) shipped)
        (.start shipped ⟨⟨[],by decide⟩,none⟩) [.toggleModuleEnabled 3 true]:=
  disabled_list_iff _ shipped (by decide +kernel) _ _

def switchOff : List ListCall:=(List.range 12).map (.toggleModuleEnabled · true)++[.toggleModuleEnabled 12 true]

theorem disabled_list_full : ¬AlongRun (Watched.step (fun _=>true) shipped) (Watched.Right (fun _=>true) shipped)
    (.start shipped ⟨⟨[],by decide⟩,none⟩) switchOff:=by
  intro h
  have htoggled:=(alongRun_append.mp h).2.1.toggled 12 true rfl
  revert htoggled
  decide +kernel

end CdcBadge.Modules
