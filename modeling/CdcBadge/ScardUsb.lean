import CdcBadge.Runs
import Mathlib.Tactic.SplitIfs

/-!
# References on the CCID interface

The applet modules share one USB interface. The first reference brings it up and the last one takes it down, behind a gate
that keeps it out of the descriptor. The count of the references is a byte.
-/

namespace CdcBadge.ScardUsb

open Runs

/-- The static variables, and whether the USB manager has the CCID interface for `cdc_scard`. -/
structure State where
  refcount : UInt8:=0
  enabled : Bool:=true
  registered : Bool:=false
  active : Bool:=false

/-- The USB manager keeps an interface that the owner has already, and otherwise may refuse it. -/
def registerInterface (accepted : Bool) (s : State) : Bool × State:=
  if s.active || accepted then (true,{s with active:=true,registered:=true}) else (false,s)

def unregisterInterface (s : State) : State:=
  if !s.registered then s else {s with active:=false,registered:=false}

def acquire (ccidInit accepted : Bool) (s : State) : Bool × State:=
  if s.refcount > 0 then (true,{s with refcount:=s.refcount+1})
  else if !ccidInit then (false,s)
  else if s.enabled && !(registerInterface accepted s).1 then (false,(registerInterface accepted s).2)
  else (true,{if s.enabled then (registerInterface accepted s).2 else s with refcount:=1})

def release (s : State) : State:=
  if s.refcount=0 then s
  else
    let s:={s with refcount:=s.refcount-1}
    if s.refcount=0 then unregisterInterface s else s

def setEnabled (on accepted : Bool) (s : State) : Bool × State:=
  if s.enabled=on then (true,s)
  else if on then
    if s.refcount > 0 then
      if !(registerInterface accepted s).1 then (false,(registerInterface accepted s).2)
      else (true,{(registerInterface accepted s).2 with enabled:=true})
    else (true,{s with enabled:=true})
  else (true,unregisterInterface {s with enabled:=false})

inductive Call
  | acquire (ccidInit accepted : Bool)
  | release
  | setEnabled (on accepted : Bool)

/-- The interface, and how many successful acquires have not been released. -/
structure Watched where
  usb : State:={}
  held : ℕ:=0

def watch (w : Watched) : Call→Watched
  | .acquire ccidInit accepted=>
    let (ok,usb):=acquire ccidInit accepted w.usb
    {usb:=usb,held:=if ok then w.held+1 else w.held}
  | .release=>{usb:=release w.usb,held:=w.held-1}
  | .setEnabled on accepted=>{w with usb:=(setEnabled on accepted w.usb).2}

/-- The interface is registered while it is enabled and held, and an acquire that fails is not counted. -/
structure Counts (w : Watched) : Prop where
  active : w.usb.active=true ↔ w.usb.enabled=true ∧ 0 < w.held
  failed : ∀ ccidInit accepted, (acquire ccidInit accepted w.usb).1=false →
    (acquire ccidInit accepted w.usb).2.refcount=w.usb.refcount

def Countable (w : Watched) : Call→Prop
  | .acquire _ _=>w.usb.refcount≠255
  | _=>True

instance (w : Watched) : ∀ c, Decidable (Countable w c)
  | .acquire _ _=>inferInstanceAs (Decidable (_≠_))
  | .release=>inferInstanceAs (Decidable True)
  | .setEnabled _ _=>inferInstanceAs (Decidable True)

/-- The count is right, and the interface is registered as the flags say. -/
structure Sound (w : Watched) : Prop where
  held : w.usb.refcount.toNat=w.held
  registered : w.usb.registered=w.usb.active
  active : w.usb.active=true ↔ w.usb.enabled=true ∧ w.usb.refcount≠0

section Steps

variable {w : Watched} {ccidInit accepted on : Bool}

theorem pos_iff {n : UInt8} : n > 0 ↔ n≠0:=by
  rw [gt_iff_lt,UInt8.lt_iff_toNat_lt,ne_eq,← UInt8.toNat_inj]
  simp only [UInt8.toNat_zero]
  omega

theorem Sound.acquire (h : Sound w) (hcountable : w.usb.refcount≠255) : Sound (watch w (.acquire ccidInit accepted)):=by
  obtain ⟨⟨refcount,enabled,registered,active⟩,held⟩:=w
  obtain ⟨hheld,hregistered,hactive⟩:=h
  dsimp only at hheld hregistered hactive hcountable
  subst hregistered
  unfold watch ScardUsb.acquire
  dsimp only
  by_cases hcount : refcount=0
  · subst hcount
    obtain rfl : held=0:=hheld.symm
    have hidle : registered=false:=by simpa using hactive
    subst hidle
    cases ccidInit <;> cases enabled <;> cases accepted <;> constructor <;> simp [registerInterface]
  · have hsucc : (refcount+1).toNat=refcount.toNat+1:=by
      have hlt:=refcount.toNat_lt
      have hne : refcount.toNat≠255:=fun heq=>hcountable (UInt8.toNat_inj.mp heq)
      rw [UInt8.toNat_add,UInt8.toNat_one]
      omega
    rw [if_pos (pos_iff.mpr hcount)]
    constructor
    · dsimp only
      rw [if_pos rfl,hsucc,hheld]
    · rfl
    · have hnext : refcount+1≠0:=by
        intro heq
        rw [heq] at hsucc
        simp at hsucc
      dsimp only
      rw [hactive]
      simp [hcount,hnext]

theorem Sound.release (h : Sound w) : Sound (watch w .release):=by
  obtain ⟨⟨refcount,enabled,registered,active⟩,held⟩:=w
  obtain ⟨hheld,hregistered,hactive⟩:=h
  dsimp only at hheld hregistered hactive
  subst hregistered
  unfold watch ScardUsb.release
  dsimp only
  by_cases hcount : refcount=0
  · rw [if_pos hcount]
    subst hcount
    obtain rfl : held=0:=hheld.symm
    exact ⟨rfl,rfl,hactive⟩
  · have hpos : 0 < refcount.toNat:=by
      rw [← UInt8.toNat_inj,UInt8.toNat_zero] at hcount
      omega
    have hpred : (refcount-1).toNat=refcount.toNat-1:=by
      have hle : 1 ≤ refcount:=UInt8.le_iff_toNat_le.mpr hpos
      rw [UInt8.toNat_sub_of_le _ _ hle]
      rfl
    rw [if_neg hcount]
    by_cases hlast : refcount-1=0
    · rw [if_pos hlast]
      unfold unregisterInterface
      cases registered <;> constructor <;> simp_all
    · rw [if_neg hlast]
      constructor
      · dsimp only
        rw [hpred,hheld]
      · rfl
      · dsimp only
        rw [hactive]
        simp [hcount,hlast]

theorem Sound.setEnabled (h : Sound w) : Sound (watch w (.setEnabled on accepted)):=by
  obtain ⟨⟨refcount,enabled,registered,active⟩,held⟩:=w
  obtain ⟨hheld,hregistered,hactive⟩:=h
  dsimp only at hheld hregistered hactive
  subst hregistered
  unfold watch ScardUsb.setEnabled
  dsimp only
  by_cases hcount : refcount=0
  · have hnone : ¬refcount > 0:=fun hpos=>pos_iff.mp hpos hcount
    rw [if_neg hnone]
    cases on <;> cases enabled <;> cases registered <;> constructor <;> simp_all [unregisterInterface]
  · rw [if_pos (pos_iff.mpr hcount)]
    cases on <;> cases enabled <;> cases registered <;> cases accepted <;> constructor <;>
      simp_all [unregisterInterface,registerInterface]

theorem Sound.counts (h : Sound w) : Counts w:=by
  constructor
  · rw [h.active,← h.held,ne_eq,← UInt8.toNat_inj,UInt8.toNat_zero,Nat.pos_iff_ne_zero]
  · intro ccidInit accepted hfailed
    unfold ScardUsb.acquire registerInterface at hfailed ⊢
    split_ifs at hfailed ⊢ <;> simp_all

end Steps

/-- In a run that takes no reference while 255 are held, the interface is registered exactly while it is enabled and held. -/
theorem counts_run {calls : List Call} (hcalls : AlongRun watch Countable {} calls) : Counts (run watch {} calls):=by
  have hsound : Sound (run watch {} calls):=by
    apply run_invariant (I:=Sound) ?_ ⟨rfl,rfl,by simp⟩ hcalls
    intro w c hcountable h
    cases c with
    | acquire ccidInit accepted=>exact h.acquire hcountable
    | release=>exact h.release
    | setEnabled on accepted=>exact h.setEnabled
  exact hsound.counts

theorem counts_run_closed : Counts (run watch {} [.acquire true true,.acquire true false,.setEnabled false true,.release]):=
  counts_run (by decide)

/-- After 256 references are taken and given back, the interface is still registered. -/
theorem not_counts_wrapped : ¬∀ calls, Counts (run watch {} calls):=by
  intro h
  have hactive:=(h (List.replicate 256 (.acquire true true)++List.replicate 256 .release)).active
  revert hactive
  decide +kernel

end CdcBadge.ScardUsb
