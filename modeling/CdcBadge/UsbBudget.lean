import CdcBadge.Bytes
import CdcBadge.Runs

/-!
# The USB endpoint budget

Interfaces, the serial console and mass storage share the endpoints of one controller.
Every call that takes endpoints looks at the budget; the limit on the number of interfaces
is looked at when one is registered, and not when one is resumed.
-/

namespace CdcBadge.UsbBudget

open Runs

inductive UsbHidInterface
  | fido | keyboard | ccid
  deriving DecidableEq

inductive UsbInterfaceClass
  | hid | ccid
  deriving DecidableEq

/-- What the budget reads of a `UsbInterfaceSpec`. -/
structure UsbInterfaceSpec where
  cls : UsbInterfaceClass:=.hid
  hasOut : Bool:=false

structure EpUsage where
  inEps : ℕ
  outEps : ℕ

def EpUsage.add (u v : EpUsage) : EpUsage:=⟨u.inEps+v.inEps,u.outEps+v.outEps⟩

/-- Within `USB_EP_BUDGET_MAX_IN` and `USB_EP_BUDGET_MAX_OUT`. -/
def EpUsage.Within (u : EpUsage) : Prop:=u.inEps ≤ 4 ∧ u.outEps ≤ 6

instance (u : EpUsage) : Decidable u.Within:=inferInstanceAs (Decidable (_ ∧ _))

/-- `usb_ep_budget_fits`; the sums are far below 256. -/
def usbEpBudgetFits (used need : EpUsage) : Bool:=decide (used.add need).Within

def cdcUsage : EpUsage:=⟨2,1⟩

def mscUsage : EpUsage:=⟨1,1⟩

def maxActiveHid : ℕ:=2

structure InterfaceEntry where
  active : Bool:=false
  suspended : Bool:=false
  owner : Option Bytes:=none
  spec : UsbInterfaceSpec:={}

def InterfaceEntry.present (e : InterfaceEntry) : Bool:=e.active && !e.suspended

structure UsbManager where
  activeMask : UInt8:=0
  needsReplug : Bool:=false
  cdcEnabled : Bool:=true
  mscActive : Bool:=false
  mscOwner : Option Bytes:=none
  entries : UsbHidInterface → InterfaceEntry:=fun _=>{}

/-- The bit of an interface in the mask, `1u << idx`. -/
def UsbHidInterface.bit : UsbHidInterface→UInt8
  | .fido=>1
  | .keyboard=>2
  | .ccid=>4

/-- The sum over `entries_`. -/
def total (f : UsbHidInterface → ℕ) : ℕ:=f .fido+f .keyboard+f .ccid

def interfaceEndpoints (spec : UsbInterfaceSpec) : EpUsage:=
  if spec.cls=.ccid then ⟨1,1⟩ else ⟨1,if spec.hasOut then 1 else 0⟩

def InterfaceEntry.usage (e : InterfaceEntry) : EpUsage:=if e.present then interfaceEndpoints e.spec else ⟨0,0⟩

/-- The two names are there and differ, as a `strcmp` behind null checks finds. -/
def otherOwner (owner name : Option Bytes) : Bool:=
  match owner, name with
  | some owner, some name=>owner≠name
  | _, _=>false

namespace UsbManager

variable (m : UsbManager)

def activeHidCount : ℕ:=total fun i=>if (m.entries i).present then 1 else 0

def cdcInUse : EpUsage:=if m.cdcEnabled then cdcUsage else ⟨0,0⟩

def mscInUse : EpUsage:=if m.mscActive then mscUsage else ⟨0,0⟩

def endpointsInUse : EpUsage where
  inEps:=m.cdcInUse.inEps+total (fun i=>(m.entries i).usage.inEps)+m.mscInUse.inEps
  outEps:=m.cdcInUse.outEps+total (fun i=>(m.entries i).usage.outEps)+m.mscInUse.outEps

def setEntry (i : UsbHidInterface) (e : InterfaceEntry) : UsbManager:={m with entries:=Function.update m.entries i e}

/-- `applyConfiguration`; `replug` is whether the stack fails or asks for a replug. -/
def applyConfiguration (apply replug : Bool) : UsbManager:=if apply then {m with needsReplug:=replug} else m

def registerInterface (i : UsbHidInterface) (moduleName : Option Bytes) (spec : UsbInterfaceSpec) (replug : Bool) :
    Bool × UsbManager:=
  if (m.entries i).active then
    ((m.entries i).owner.isSome && moduleName.isSome && !otherOwner (m.entries i).owner moduleName,m)
  else if maxActiveHid ≤ m.activeHidCount then (false,m)
  else if !usbEpBudgetFits m.endpointsInUse (interfaceEndpoints spec) then (false,m)
  else
    let registered:=m.setEntry i {active:=true,suspended:=(m.entries i).suspended,owner:=moduleName,spec}
    (true,{registered with activeMask:=m.activeMask ||| i.bit}.applyConfiguration true replug)

def unregisterInterface (i : UsbHidInterface) (moduleName : Option Bytes) (apply replug : Bool) : UsbManager:=
  if !(m.entries i).active then m
  else if otherOwner (m.entries i).owner moduleName then m
  else {m.setEntry i {} with activeMask:=m.activeMask &&& ~~~i.bit}.applyConfiguration apply replug

def suspendInterface (i : UsbHidInterface) (apply replug : Bool) : Bool × UsbManager:=
  if !(m.entries i).active || (m.entries i).suspended then (false,m)
  else
    let suspended:=m.setEntry i {m.entries i with suspended:=true}
    (true,{suspended with activeMask:=m.activeMask &&& ~~~i.bit}.applyConfiguration apply replug)

def resumeInterface (i : UsbHidInterface) (apply replug : Bool) : Bool × UsbManager:=
  if !(m.entries i).active || !(m.entries i).suspended then (false,m)
  else if !usbEpBudgetFits m.endpointsInUse (interfaceEndpoints (m.entries i).spec) then (false,m)
  else
    let resumed:=m.setEntry i {m.entries i with suspended:=false}
    (true,{resumed with activeMask:=m.activeMask ||| i.bit}.applyConfiguration apply replug)

def setCdcEnabled (on : Bool) : Bool × UsbManager:=
  if m.cdcEnabled=on then (true,m)
  else if on && !usbEpBudgetFits m.endpointsInUse cdcUsage then (false,m)
  else (true,{m with cdcEnabled:=on})

def registerMassStorage (owner : Option Bytes) : Bool × UsbManager:=
  if m.mscActive then (m.mscOwner.isSome && owner.isSome && !otherOwner m.mscOwner owner,m)
  else if !usbEpBudgetFits m.endpointsInUse mscUsage then (false,m)
  else (true,{m with mscActive:=true,mscOwner:=owner})

def unregisterMassStorage (owner : Option Bytes) : UsbManager:=
  if !m.mscActive then m
  else if otherOwner m.mscOwner owner then m
  else {m with mscActive:=false,mscOwner:=none}

end UsbManager

inductive Call
  | registerInterface (i : UsbHidInterface) (moduleName : Option Bytes) (spec : UsbInterfaceSpec) (replug : Bool)
  | unregisterInterface (i : UsbHidInterface) (moduleName : Option Bytes) (apply replug : Bool)
  | suspendInterface (i : UsbHidInterface) (apply replug : Bool)
  | resumeInterface (i : UsbHidInterface) (apply replug : Bool)
  | setCdcEnabled (on : Bool)
  | registerMassStorage (owner : Option Bytes)
  | unregisterMassStorage (owner : Option Bytes)

/-- What a call returns, `true` for those that return nothing, and what it leaves. -/
def UsbManager.call (m : UsbManager) : Call→Bool × UsbManager
  | .registerInterface i moduleName spec replug=>m.registerInterface i moduleName spec replug
  | .unregisterInterface i moduleName apply replug=>(true,m.unregisterInterface i moduleName apply replug)
  | .suspendInterface i apply replug=>m.suspendInterface i apply replug
  | .resumeInterface i apply replug=>m.resumeInterface i apply replug
  | .setCdcEnabled on=>m.setCdcEnabled on
  | .registerMassStorage owner=>m.registerMassStorage owner
  | .unregisterMassStorage owner=>(true,m.unregisterMassStorage owner)

def UsbManager.step (m : UsbManager) (c : Call) : UsbManager:=(m.call c).2

def UsbManager.ForOther (m : UsbManager) : Call→Prop
  | .registerInterface i moduleName _ _ | .unregisterInterface i moduleName _ _=>
    (m.entries i).active=true ∧ otherOwner (m.entries i).owner moduleName=true
  | .registerMassStorage owner | .unregisterMassStorage owner=>m.mscActive=true ∧ otherOwner m.mscOwner owner=true
  | _=>False

def maskOf (present : UsbHidInterface→Bool) : UInt8:=
  (if present .fido then 1 else 0) ||| (if present .keyboard then 2 else 0) ||| (if present .ccid then 4 else 0)

/-- Endpoints and interfaces are within their limits, and the mask names the interfaces of the descriptor. -/
structure UsbManager.InBudget (m : UsbManager) : Prop where
  endpoints : m.endpointsInUse.Within
  count : m.activeHidCount ≤ maxActiveHid
  mask : m.activeMask=maskOf fun i=>(m.entries i).present

/-- What a call leaves is within the limits; one that returns `false` or names another owner changes nothing. -/
structure UsbManager.Right (m : UsbManager) (c : Call) : Prop where
  inBudget : (m.step c).InBudget
  refused : (m.call c).1=false→m.step c=m
  other : m.ForOther c→m.step c=m

/-- An interface that can be resumed is resumed only below the limit on their number. -/
def UsbManager.Below (m : UsbManager) (c : Call) : Prop:=
  ∀ i apply replug, c=.resumeInterface i apply replug→(m.entries i).active=true→(m.entries i).suspended=true →
    usbEpBudgetFits m.endpointsInUse (interfaceEndpoints (m.entries i).spec)=true→m.activeHidCount < maxActiveHid

section Entries

variable {m : UsbManager} {i : UsbHidInterface} {e : InterfaceEntry}

theorem total_setEntry (g : InterfaceEntry → ℕ) :
    total (fun j=>g ((m.setEntry i e).entries j))+g (m.entries i)=total (fun j=>g (m.entries j))+g e:=by
  cases i <;> simp [total,UsbManager.setEntry,Function.update] <;> omega

theorem maskOf_setEntry : maskOf (fun j=>((m.setEntry i e).entries j).present) =
    if e.present then maskOf (fun j=>(m.entries j).present) ||| i.bit
    else maskOf (fun j=>(m.entries j).present) &&& ~~~i.bit:=by
  have hbits : ∀ x y z b : Bool, ∀ i : UsbHidInterface,
      maskOf (Function.update (fun | .fido=>x | .keyboard=>y | .ccid=>z) i b) =
        if b then maskOf (fun | .fido=>x | .keyboard=>y | .ccid=>z) ||| i.bit
        else maskOf (fun | .fido=>x | .keyboard=>y | .ccid=>z) &&& ~~~i.bit:=by
    intro x y z b i
    cases i <;> revert x y z b <;> decide
  have hpresent:=hbits (m.entries .fido).present (m.entries .keyboard).present (m.entries .ccid).present e.present i
  unfold maskOf at hpresent ⊢
  cases i <;> simpa [UsbManager.setEntry,Function.update] using hpresent

/-- An interface that is not registered is not suspended. -/
def UsbManager.Clean (m : UsbManager) : Prop:=∀ i, (m.entries i).active=false→(m.entries i).suspended=false

theorem clean_setEntry (h : m.Clean) (he : e.active=false→e.suspended=false) : (m.setEntry i e).Clean:=by
  intro j
  by_cases hj : j=i
  · subst hj
    simpa [UsbManager.setEntry] using he
  · simpa [UsbManager.setEntry,hj] using h j

def UsbManager.rewritten (m : UsbManager) (i : UsbHidInterface) (e : InterfaceEntry) (mask : UInt8) : UsbManager:=
  {m.setEntry i e with activeMask:=mask}

theorem usage_rewritten (mask : UInt8) :
    (m.rewritten i e mask).endpointsInUse.inEps+(m.entries i).usage.inEps=m.endpointsInUse.inEps+e.usage.inEps ∧
      (m.rewritten i e mask).endpointsInUse.outEps+(m.entries i).usage.outEps=m.endpointsInUse.outEps+e.usage.outEps:=by
  have hin:=total_setEntry (m:=m) (i:=i) (e:=e) fun e=>e.usage.inEps
  have hout:=total_setEntry (m:=m) (i:=i) (e:=e) fun e=>e.usage.outEps
  have hcdc : (m.rewritten i e mask).cdcInUse=m.cdcInUse:=rfl
  have hmsc : (m.rewritten i e mask).mscInUse=m.mscInUse:=rfl
  have hentries : (m.rewritten i e mask).entries=(m.setEntry i e).entries:=rfl
  unfold UsbManager.endpointsInUse
  rw [hcdc,hmsc,hentries]
  dsimp only
  omega

theorem count_rewritten (mask : UInt8) : (m.rewritten i e mask).activeHidCount+(if (m.entries i).present then 1 else 0) =
    m.activeHidCount+(if e.present then 1 else 0):=
  total_setEntry fun e=>if e.present then 1 else 0

theorem inBudget_removed (h : m.InBudget) (he : e.present=false) :
    (m.rewritten i e (m.activeMask &&& ~~~i.bit)).InBudget:=by
  have habsent : ¬e.present=true:=by simp [he]
  have husage : e.usage=⟨0,0⟩:=if_neg habsent
  obtain ⟨hin,hout⟩:=usage_rewritten (m:=m) (i:=i) (e:=e) (m.activeMask &&& ~~~i.bit)
  have hcount:=count_rewritten (m:=m) (i:=i) (e:=e) (m.activeMask &&& ~~~i.bit)
  have hle:=h.count
  obtain ⟨hfitsIn,hfitsOut⟩:=h.endpoints
  simp only [husage,if_neg habsent] at hin hout hcount
  refine ⟨⟨by omega,by omega⟩,by omega,?_⟩
  refine (congrArg (· &&& ~~~i.bit) h.mask).trans (Eq.symm ?_)
  exact maskOf_setEntry.trans (if_neg habsent)

theorem inBudget_added (h : m.InBudget) (hi : (m.entries i).present=false) (he : e.present=true)
    (hfits : usbEpBudgetFits m.endpointsInUse (interfaceEndpoints e.spec)=true) :
    (m.rewritten i e (m.activeMask ||| i.bit)).InBudget ↔ m.activeHidCount < maxActiveHid:=by
  have habsent : ¬(m.entries i).present=true:=by simp [hi]
  have hold : (m.entries i).usage=⟨0,0⟩:=if_neg habsent
  have husage : e.usage=interfaceEndpoints e.spec:=if_pos he
  obtain ⟨hin,hout⟩:=usage_rewritten (m:=m) (i:=i) (e:=e) (m.activeMask ||| i.bit)
  have hcount:=count_rewritten (m:=m) (i:=i) (e:=e) (m.activeMask ||| i.bit)
  obtain ⟨hfitsIn,hfitsOut⟩:=of_decide_eq_true hfits
  simp only [hold,husage,if_neg habsent,if_pos he,EpUsage.add] at hin hout hcount hfitsIn hfitsOut
  constructor
  · intro hbudget
    have hle:=hbudget.count
    omega
  · intro hlt
    refine ⟨⟨by omega,by omega⟩,by omega,?_⟩
    refine (congrArg (· ||| i.bit) h.mask).trans (Eq.symm ?_)
    exact maskOf_setEntry.trans (if_pos he)

theorem inBudget_applyConfiguration {apply replug : Bool} : (m.applyConfiguration apply replug).InBudget ↔ m.InBudget:=by
  cases apply
  · exact Iff.rfl
  · exact ⟨fun h=>⟨h.endpoints,h.count,h.mask⟩,fun h=>⟨h.endpoints,h.count,h.mask⟩⟩

theorem clean_applyConfiguration {apply replug : Bool} : (m.applyConfiguration apply replug).Clean ↔ m.Clean:=by
  cases apply <;> rfl

end Entries

/-- Within the limits, and with nothing suspended that is not registered. -/
def UsbManager.Sound (m : UsbManager) : Prop:=m.InBudget ∧ m.Clean

section Steps

variable {m : UsbManager}

/-- What a call that keeps everything within the limits does is right, and so is one that changes nothing. -/
theorem right_of_kept {c : Call} (hm : m.Sound) (hkept : m.step c=m) : m.Right c ∧ (m.step c).Sound:=by
  rw [hkept]
  exact ⟨⟨hkept.symm ▸ hm.1,fun _=>hkept,fun _=>hkept⟩,hm⟩

theorem right_of_changed {c : Call} (hsound : (m.step c).Sound) (hok : (m.call c).1=true) (hother : ¬m.ForOther c) :
    m.Right c ∧ (m.step c).Sound:=
  ⟨⟨hsound.1,fun h=>absurd (hok.symm.trans h) (by decide),fun h=>absurd h hother⟩,hsound⟩

theorem right_call (hm : m.Sound) (c : Call) (hc : ∀ i apply replug, c≠.resumeInterface i apply replug) :
    m.Right c ∧ (m.step c).Sound:=by
  cases c with
  | registerInterface i moduleName spec replug=>
    by_cases hactive : (m.entries i).active=true
    · exact right_of_kept hm (congrArg Prod.snd (if_pos hactive))
    by_cases hfull : maxActiveHid ≤ m.activeHidCount
    · exact right_of_kept hm (congrArg Prod.snd ((if_neg hactive).trans (if_pos hfull)))
    by_cases hfits : usbEpBudgetFits m.endpointsInUse (interfaceEndpoints spec)=true
    · have hcall : m.call (.registerInterface i moduleName spec replug)=(true,(m.rewritten i
          {active:=true,suspended:=(m.entries i).suspended,owner:=moduleName,spec} (m.activeMask ||| i.bit)).applyConfiguration
            true replug):=
        (if_neg hactive).trans ((if_neg hfull).trans (if_neg (by simp [hfits])))
      have hsuspended:=hm.2 i (by simpa using hactive)
      refine right_of_changed ?_ (congrArg Prod.fst hcall) fun h=>hactive h.1
      rw [UsbManager.step,hcall]
      dsimp only
      constructor
      · have habsent : (m.entries i).present=false:=by simp [InterfaceEntry.present,hactive]
        have hadded:=inBudget_added (e:={active:=true,suspended:=(m.entries i).suspended,owner:=moduleName,spec}) hm.1
          habsent (by simp [InterfaceEntry.present,hsuspended]) hfits
        exact inBudget_applyConfiguration.mpr (hadded.mpr (Nat.lt_of_not_le hfull))
      · exact clean_applyConfiguration.mpr (clean_setEntry (m:=m) hm.2 fun _=>hsuspended)
    · exact right_of_kept hm
        (congrArg Prod.snd ((if_neg hactive).trans ((if_neg hfull).trans (if_pos (by simp [hfits])))))
  | unregisterInterface i moduleName apply replug=>
    by_cases hactive : (m.entries i).active=true
    swap
    · exact right_of_kept hm (if_pos (by simp [hactive]))
    by_cases hother : otherOwner (m.entries i).owner moduleName=true
    · exact right_of_kept hm ((if_neg (by simp [hactive])).trans (if_pos hother))
    · have hstep : m.step (.unregisterInterface i moduleName apply replug) =
          (m.rewritten i {} (m.activeMask &&& ~~~i.bit)).applyConfiguration apply replug:=
        (if_neg (by simp [hactive])).trans (if_neg hother)
      refine right_of_changed ?_ rfl fun h=>hother h.2
      rw [hstep]
      exact ⟨inBudget_applyConfiguration.mpr (inBudget_removed hm.1 rfl),
        clean_applyConfiguration.mpr (clean_setEntry hm.2 fun _=>rfl)⟩
  | suspendInterface i apply replug=>
    by_cases hrefused : (!(m.entries i).active || (m.entries i).suspended)=true
    · exact right_of_kept hm (congrArg Prod.snd (if_pos hrefused))
    · have hcall : m.call (.suspendInterface i apply replug)=(true,(m.rewritten i {m.entries i with suspended:=true}
          (m.activeMask &&& ~~~i.bit)).applyConfiguration apply replug):=if_neg hrefused
      refine right_of_changed ?_ (congrArg Prod.fst hcall) id
      rw [UsbManager.step,hcall]
      constructor
      · exact inBudget_applyConfiguration.mpr (inBudget_removed hm.1 (by simp [InterfaceEntry.present]))
      · refine clean_applyConfiguration.mpr (clean_setEntry hm.2 fun hinactive=>?_)
        exact absurd (by simp [show (m.entries i).active=false from hinactive]) hrefused
  | resumeInterface i apply replug=>exact absurd rfl (hc i apply replug)
  | setCdcEnabled on=>
    by_cases hsame : m.cdcEnabled=on
    · exact right_of_kept hm (congrArg Prod.snd (if_pos hsame))
    by_cases hrefused : (on && !usbEpBudgetFits m.endpointsInUse cdcUsage)=true
    · exact right_of_kept hm (congrArg Prod.snd ((if_neg hsame).trans (if_pos hrefused)))
    · have hcall : m.call (.setCdcEnabled on)=(true,{m with cdcEnabled:=on}):=(if_neg hsame).trans (if_neg hrefused)
      refine right_of_changed ?_ (congrArg Prod.fst hcall) id
      rw [UsbManager.step,hcall]
      refine ⟨⟨?_,hm.1.count,hm.1.mask⟩,hm.2⟩
      have hendpoints:=hm.1.endpoints
      cases on with
      | true=>
        have hoff : m.cdcEnabled=false:=by simpa using hsame
        have hfits:=of_decide_eq_true (by simpa using hrefused : usbEpBudgetFits m.endpointsInUse cdcUsage=true)
        simp only [EpUsage.Within,EpUsage.add,UsbManager.endpointsInUse,UsbManager.cdcInUse,UsbManager.mscInUse,hoff,
          cdcUsage] at hfits ⊢
        simp at hfits ⊢
        omega
      | false=>
        simp only [EpUsage.Within,UsbManager.endpointsInUse,UsbManager.cdcInUse,UsbManager.mscInUse] at hendpoints ⊢
        simp
        omega
  | registerMassStorage owner=>
    by_cases hactive : m.mscActive=true
    · exact right_of_kept hm (congrArg Prod.snd (if_pos hactive))
    by_cases hfits : usbEpBudgetFits m.endpointsInUse mscUsage=true
    · have hcall : m.call (.registerMassStorage owner)=(true,{m with mscActive:=true,mscOwner:=owner}):=
        (if_neg hactive).trans (if_neg (by simp [hfits]))
      refine right_of_changed ?_ (congrArg Prod.fst hcall) fun h=>hactive h.1
      rw [UsbManager.step,hcall]
      refine ⟨⟨?_,hm.1.count,hm.1.mask⟩,hm.2⟩
      have hwithin:=of_decide_eq_true hfits
      simp only [EpUsage.Within,EpUsage.add,UsbManager.endpointsInUse,UsbManager.cdcInUse,UsbManager.mscInUse,hactive,
        mscUsage] at hwithin ⊢
      simp at hwithin ⊢
      omega
    · exact right_of_kept hm (congrArg Prod.snd ((if_neg hactive).trans (if_pos (by simp [hfits]))))
  | unregisterMassStorage owner=>
    by_cases hactive : m.mscActive=true
    swap
    · exact right_of_kept hm (if_pos (by simp [hactive]))
    by_cases hother : otherOwner m.mscOwner owner=true
    · exact right_of_kept hm ((if_neg (by simp [hactive])).trans (if_pos hother))
    · have hstep : m.step (.unregisterMassStorage owner)={m with mscActive:=false,mscOwner:=none}:=
        (if_neg (by simp [hactive])).trans (if_neg hother)
      refine right_of_changed ?_ rfl fun h=>hother h.2
      rw [hstep]
      refine ⟨⟨?_,hm.1.count,hm.1.mask⟩,hm.2⟩
      have hendpoints:=hm.1.endpoints
      simp only [EpUsage.Within,UsbManager.endpointsInUse,UsbManager.cdcInUse,UsbManager.mscInUse] at hendpoints ⊢
      simp
      omega

theorem right_step (hm : m.Sound) (c : Call) : (m.Right c ↔ m.Below c) ∧ (m.Below c→(m.step c).Sound):=by
  by_cases hc : ∃ i apply replug, c=.resumeInterface i apply replug
  swap
  · push Not at hc
    obtain ⟨hright,hsound⟩:=right_call hm c hc
    exact ⟨iff_of_true hright fun i apply replug h=>absurd h (hc i apply replug),fun _=>hsound⟩
  obtain ⟨i,apply,replug,rfl⟩:=hc
  by_cases hsuspended : (m.entries i).active=true ∧ (m.entries i).suspended=true
  swap
  · obtain ⟨hright,hsound⟩:=right_of_kept (c:=.resumeInterface i apply replug) hm
      (congrArg Prod.snd (if_pos (by simpa [imp_iff_not_or] using hsuspended)))
    refine ⟨iff_of_true hright ?_,fun _=>hsound⟩
    rintro _ _ _ ⟨⟩ hactive h
    exact absurd ⟨hactive,h⟩ hsuspended
  by_cases hfits : usbEpBudgetFits m.endpointsInUse (interfaceEndpoints (m.entries i).spec)=true
  swap
  · obtain ⟨hright,hsound⟩:=right_of_kept (c:=.resumeInterface i apply replug) hm
      (congrArg Prod.snd ((if_neg (by simp [hsuspended])).trans (if_pos (by simp [hfits]))))
    refine ⟨iff_of_true hright ?_,fun _=>hsound⟩
    rintro _ _ _ ⟨⟩ _ _ h
    exact absurd h hfits
  have hcall : m.call (.resumeInterface i apply replug)=(true,(m.rewritten i {m.entries i with suspended:=false}
      (m.activeMask ||| i.bit)).applyConfiguration apply replug):=
    (if_neg (by simp [hsuspended])).trans (if_neg (by simp [hfits]))
  have hbudget : (m.step (.resumeInterface i apply replug)).InBudget ↔ m.activeHidCount < maxActiveHid:=by
    rw [UsbManager.step,hcall,inBudget_applyConfiguration]
    exact inBudget_added hm.1 (by simp [InterfaceEntry.present,hsuspended]) (by simp [InterfaceEntry.present,hsuspended])
      hfits
  have hclean : (m.step (.resumeInterface i apply replug)).Clean:=by
    rw [UsbManager.step,hcall]
    exact clean_applyConfiguration.mpr (clean_setEntry hm.2 fun _=>rfl)
  have hbelow : m.Below (.resumeInterface i apply replug) ↔ m.activeHidCount < maxActiveHid:=by
    constructor
    · exact fun h=>h i apply replug rfl hsuspended.1 hsuspended.2 hfits
    · rintro h _ _ _ ⟨⟩ _ _ _
      exact h
  rw [hbelow]
  constructor
  · exact ⟨fun h=>hbudget.mp h.inBudget,
      fun h=>(right_of_changed ⟨hbudget.mpr h,hclean⟩ (congrArg Prod.fst hcall) id).1⟩
  · exact fun h=>⟨hbudget.mpr h,hclean⟩

end Steps

/-- Along a run from boot the budget is kept, and refused calls and those of others change nothing, exactly where an
interface that can be resumed is resumed only below the limit on their number. -/
theorem usb_budget_iff (cs : List Call) :
    AlongRun UsbManager.step UsbManager.Right {} cs ↔ AlongRun UsbManager.step UsbManager.Below {} cs:=by
  have hstart : UsbManager.Sound {}:=⟨⟨by decide,by decide,by decide⟩,fun _ _=>rfl⟩
  apply alongRun_iff ?_ hstart
  exact fun m c hm=>right_step hm c

/-- Without the console there are endpoints for three interfaces, and the third one comes back from suspension. -/
def threeActive : List Call:=
  [.setCdcEnabled false,.registerInterface .fido (some [1]) {hasOut:=true} false,
    .registerInterface .keyboard (some [2]) {} false,.suspendInterface .fido true false,
    .registerInterface .ccid (some [3]) {cls:=.ccid} false,.resumeInterface .fido true false]

theorem usb_limit_passed : ¬AlongRun UsbManager.step UsbManager.Right {} threeActive:=by
  intro h
  have hcount:=h.2.2.2.2.2.1.inBudget.count
  revert hcount
  decide +kernel

end CdcBadge.UsbBudget
