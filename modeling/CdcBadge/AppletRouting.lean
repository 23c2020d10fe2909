import CdcBadge.Applets

/-!
# Which applet a SELECT reaches

Applets come and go, and the table is closed up when one leaves. The indices follow their applets, and a SELECT reaches the
applet with the longest AID that its data begin with. A registration can make another applet the default.
-/

namespace CdcBadge.Scard

open Runs

namespace Dispatcher

def currentName (s : Dispatcher) : Option String:=(s.at? s.current).map Applet.name

def defaultName (s : Dispatcher) : Option String:=(s.at? s.default).map Applet.name

/-- A registered applet with the longest AID that the data begin with. -/
structure Longest (s : Dispatcher) (data : Bytes) (a : Applet) : Prop where
  mem : a∈s.applets
  fits : a.aid <+: data
  longest : ∀ b∈s.applets, b.aid <+: data→b.aid.length ≤ a.aid.length

/-- The applet with the longest AID answers and is selected; without one the selected applet answers, or nobody. -/
def Reaches (s : Dispatcher) (data : Bytes) (r : Reply × Dispatcher) : Prop:=
  (∃ a, s.Longest data a ∧ r.1=.applet a.name ∧ r.2.currentName=some a.name) ∨
    (∀ a∈s.applets, ¬a.aid <+: data) ∧
      r.1=(s.currentName.map Reply.applet).getD (.statusWord fileNotFound) ∧ r.2.currentName=s.currentName

/-- Names are unique, the indices follow their applets, and a SELECT by DF name goes by the longest AID. -/
structure Routes (s : Dispatcher) : Prop where
  names : (s.applets.map Applet.name).Nodup
  current : ∀ i, s.current=some i→∃ a∈s.applets, s.currentName=some a.name
  default : ∀ i, s.default=some i→∃ a∈s.applets, s.defaultName=some a.name
  registered : ∀ applet makeDefault, (s.register applet makeDefault).2.currentName=s.currentName ∧
    (s.register applet makeDefault).2.defaultName =
      if (s.register applet makeDefault).1 && makeDefault then applet.bind Descriptor.name else s.defaultName
  unregistered : ∀ name, (s.unregister (some name)).currentName=(if s.currentName=some name then none else s.currentName) ∧
    (s.unregister (some name)).defaultName=if s.defaultName=some name then none else s.defaultName
  select : ∀ cmd respMax data, 2 ≤ respMax → selectedAid cmd=some data → s.Reaches data (s.dispatchApdu cmd (some respMax))

/-- The default index keeps its applet through every registration and unregistration but that applet's own. -/
def KeepsDefault (s : Dispatcher) : Prop:=
  (∀ applet makeDefault a, s.defaultName=some a→(s.register applet makeDefault).2.defaultName=some a) ∧
    ∀ name a, s.defaultName=some a→name≠a→(s.unregister (some name)).defaultName=some a

/-- Every applet of the table has an AID. -/
structure Registered (s : Dispatcher) : Prop where
  wellFormed : s.WellFormed
  aids : ∀ a∈s.applets, a.aid≠[]

section Steps

variable {s : Dispatcher} {index : Option ℕ} {name : String} {i : ℕ}

/-- What the search has found among the first applets. -/
structure Found (s : Dispatcher) (data : Bytes) (n : ℕ) (best : Option ℕ × ℕ) : Prop where
  nothing : best.1=none→best.2=0
  found : ∀ i, best.1=some i→∃ a, s.applets[i]? = some a ∧ a.aid <+: data ∧ a.aid.length=best.2
  longest : ∀ j < n, ∀ b, s.applets[j]? = some b→b.aid <+: data→b.aid.length ≤ best.2

theorem found_range (s : Dispatcher) (data : Bytes) (n : ℕ) : s.Found data n ((List.range n).foldl
    (fun (best : Option ℕ × ℕ) i=>
      match s.applets[i]? with
      | some a=>if a.aid <+: data ∧ best.2 < a.aid.length then (some i,a.aid.length) else best
      | none=>best) (none,0)):=by
  induction n with
  | zero=>exact ⟨fun _=>rfl,(fun i hi=>by cases hi),fun j hj=>absurd hj (Nat.not_lt_zero j)⟩
  | succ n ih=>
    rw [List.range_succ,List.foldl_append,List.foldl_cons,List.foldl_nil]
    generalize (List.range n).foldl _ (none,0)=best at ih
    cases hget : s.applets[n]? with
    | none=>
      refine ⟨ih.nothing,ih.found,?_⟩
      intro j hj b hb hfits
      rcases Nat.lt_succ_iff_lt_or_eq.mp hj with hlt | rfl
      · exact ih.longest j hlt b hb hfits
      · rw [hget] at hb
        cases hb
    | some a=>
      dsimp only
      by_cases hbetter : a.aid <+: data ∧ best.2 < a.aid.length
      · rw [if_pos hbetter]
        refine ⟨(fun h=>by cases h),?_,?_⟩
        · rintro i hi
          obtain rfl:=Option.some.inj hi
          exact ⟨a,hget,hbetter.1,rfl⟩
        · intro j hj b hb hfits
          rcases Nat.lt_succ_iff_lt_or_eq.mp hj with hlt | rfl
          · exact (ih.longest j hlt b hb hfits).trans hbetter.2.le
          · rw [hget] at hb
            obtain rfl:=Option.some.inj hb
            exact le_rfl
      · rw [if_neg hbetter]
        refine ⟨ih.nothing,ih.found,?_⟩
        intro j hj b hb hfits
        rcases Nat.lt_succ_iff_lt_or_eq.mp hj with hlt | rfl
        · exact ih.longest j hlt b hb hfits
        · rw [hget] at hb
          obtain rfl:=Option.some.inj hb
          exact Nat.not_lt.mp fun hlt=>hbetter ⟨hfits,hlt⟩

theorem findAppletByAid_longest {data : Bytes} (h : s.findAppletByAid data=some i) :
    ∃ a, s.applets[i]? = some a ∧ s.Longest data a:=by
  obtain ⟨-,hsome,hlongest⟩:=s.found_range data s.applets.length
  obtain ⟨a,hget,hfits,hlength⟩:=hsome i h
  refine ⟨a,hget,List.mem_of_getElem? hget,hfits,?_⟩
  intro b hb hbfits
  obtain ⟨j,hj⟩:=List.mem_iff_getElem?.mp hb
  rw [hlength]
  exact hlongest j (List.getElem?_eq_some_iff.mp hj).1 b hj hbfits

theorem Registered.findAppletByAid_none (h : s.Registered) {data : Bytes} (hnone : s.findAppletByAid data=none) :
    ∀ a∈s.applets, ¬a.aid <+: data:=by
  intro a ha hfits
  obtain ⟨hzero,-,hlongest⟩:=s.found_range data s.applets.length
  obtain ⟨j,hj⟩:=List.mem_iff_getElem?.mp ha
  have hlength:=hlongest j (List.getElem?_eq_some_iff.mp hj).1 a hj hfits
  rw [hzero hnone] at hlength
  exact h.aids a ha (List.length_eq_zero_iff.mp (Nat.le_zero.mp hlength))

theorem at?_lt (hindex : ∀ i, index=some i→i < s.applets.length) (hi : index=some i) : ∃ a∈s.applets, s.at? index=some a:=by
  have hlt:=hindex i hi
  refine ⟨s.applets[i],List.getElem_mem hlt,?_⟩
  rw [hi]
  exact List.getElem?_eq_getElem hlt

theorem getElem?_added {applets : List Applet} (added : Applet) (hindex : ∀ i, index=some i→i < applets.length) :
    (index.bind fun i=>(applets++[added])[i]?)=index.bind fun i=>applets[i]?:=by
  cases index with
  | none=>rfl
  | some i=>exact List.getElem?_append_left (hindex i rfl)

/-- An index that does not denote the applet that leaves denotes the same applet as before. -/
theorem getElem?_compact {applets : List Applet} (hne : index≠some i) :
    ((compact i index).bind fun k=>(applets.eraseIdx i)[k]?)=index.bind fun k=>applets[k]?:=by
  cases index with
  | none=>rfl
  | some k=>
    have hki : k≠i:=fun heq=>hne (congrArg some heq)
    show (applets.eraseIdx i)[if i < k then k-1 else k]? = applets[k]?
    rw [List.getElem?_eraseIdx]
    split_ifs with hlt hprev hprev
    · omega
    · rw [Nat.sub_add_cancel (by omega)]
    · rfl
    · omega

theorem WellFormed.denotes_iff (h : s.WellFormed) (hi : s.applets.findIdx? (fun a=>a.name=name)=some i) :
    (s.at? index).map Applet.name=some name ↔ index=some i:=by
  obtain ⟨a,hget,hname⟩:=findIdx_name hi
  constructor
  · intro hdenotes
    obtain ⟨b,hb,hbname⟩:=Option.map_eq_some_iff.mp hdenotes
    obtain ⟨k,rfl,hk⟩:=Option.bind_eq_some_iff.mp hb
    rw [h.index_unique hk hget (hbname.trans hname.symm)]
  · rintro rfl
    show s.applets[i]?.map Applet.name=some name
    rw [hget,← hname]
    rfl

theorem not_denotes (hnone : s.applets.findIdx? (fun a=>a.name=name)=none) : (s.at? index).map Applet.name≠some name:=by
  intro hdenotes
  obtain ⟨b,hb,hname⟩:=Option.map_eq_some_iff.mp hdenotes
  obtain ⟨k,-,hk⟩:=Option.bind_eq_some_iff.mp hb
  have hnot:=List.findIdx?_eq_none_iff.mp hnone b (List.mem_of_getElem? hk)
  simp [hname] at hnot

theorem WellFormed.compact_name (h : s.WellFormed) (hi : s.applets.findIdx? (fun a=>a.name=name)=some i) :
    ((compact i (if index=some i then none else index)).bind fun k=>(s.applets.eraseIdx i)[k]?).map Applet.name =
      if (s.at? index).map Applet.name=some name then none else (s.at? index).map Applet.name:=by
  by_cases hindex : index=some i
  · rw [if_pos hindex,if_pos ((h.denotes_iff hi).mpr hindex)]
    rfl
  · rw [if_neg hindex,if_neg (mt (h.denotes_iff hi).mp hindex),getElem?_compact hindex]
    rfl

theorem Registered.unregistered (h : s.Registered) (name : String) :
    (s.unregister (some name)).currentName=(if s.currentName=some name then none else s.currentName) ∧
      (s.unregister (some name)).defaultName=if s.defaultName=some name then none else s.defaultName:=by
  unfold currentName defaultName Dispatcher.unregister
  dsimp only
  cases hi : s.applets.findIdx? fun a=>a.name=name with
  | none=>
    dsimp only
    rw [if_neg (not_denotes hi),if_neg (not_denotes hi)]
    exact ⟨rfl,rfl⟩
  | some i=>exact ⟨h.wellFormed.compact_name hi,h.wellFormed.compact_name hi⟩

/-- A registration is refused, or it adds an applet with an AID at the end of the table. -/
theorem register_cases (applet : Option Descriptor) (makeDefault : Bool) : s.register applet makeDefault=(false,s) ∨
    ∃ name aid deselect, applet.bind Descriptor.name=some name ∧ aid≠[] ∧ s.register applet makeDefault=(true,{ s with
      applets:=s.applets++[{name:=name,aid:=aid,deselect:=deselect}]
      default:=if makeDefault then some s.applets.length else s.default }):=by
  unfold Dispatcher.register
  split
  · rename_i name aid deselect
    by_cases haid : aid=[]
    · rw [if_pos haid]
      exact .inl rfl
    rw [if_neg haid]
    by_cases hname : (s.applets.any fun a=>a.name=name)=true
    · rw [if_pos hname]
      exact .inl rfl
    rw [if_neg hname]
    by_cases hfull : scardMaxApplets ≤ s.applets.length
    · rw [if_pos hfull]
      exact .inl rfl
    rw [if_neg hfull]
    exact .inr ⟨name,aid,deselect,rfl,haid,rfl⟩
  · exact .inl rfl

theorem Registered.registered (h : s.Registered) (applet : Option Descriptor) (makeDefault : Bool) :
    (s.register applet makeDefault).2.currentName=s.currentName ∧
      (s.register applet makeDefault).2.defaultName =
        if (s.register applet makeDefault).1 && makeDefault then applet.bind Descriptor.name else s.defaultName:=by
  rcases s.register_cases applet makeDefault with hrefused | ⟨name,aid,deselect,hname,-,hadded⟩
  · rw [hrefused]
    exact ⟨rfl,rfl⟩
  · rw [hadded]
    constructor
    · exact congrArg (Option.map Applet.name) (getElem?_added _ h.wellFormed.current)
    · cases makeDefault with
      | false=>exact congrArg (Option.map Applet.name) (getElem?_added _ h.wellFormed.default)
      | true=>
        rw [hname]
        show (s.applets++[({name:=name,aid:=aid,deselect:=deselect} : Applet)])[s.applets.length]?.map Applet.name=some name
        rw [List.getElem?_concat_length]
        rfl

theorem forward_at (index : Option ℕ) : (s.forward index).2.currentName=s.currentName:=by
  obtain ⟨happlets,hcurrent,-⟩:=s.forward_table index
  unfold currentName at?
  rw [happlets,hcurrent]

theorem Registered.reaches (h : s.Registered) {cmd data : Bytes} {respMax : ℕ} (hmax : 2 ≤ respMax)
    (hselect : selectedAid cmd=some data) : s.Reaches data (s.dispatchApdu cmd (some respMax)):=by
  unfold Dispatcher.dispatchApdu
  dsimp only
  rw [if_neg (by omega),hselect]
  by_cases hempty : s.applets=[]
  · rw [if_pos hempty]
    right
    have hat : s.at? s.current=none:=by
      unfold at?
      rw [hempty]
      cases s.current <;> rfl
    refine ⟨?_,?_,rfl⟩
    · rw [hempty]
      exact fun a ha=>absurd ha List.not_mem_nil
    · unfold currentName
      rw [hat]
      rfl
  · rw [if_neg hempty]
    dsimp only
    cases hfound : s.findAppletByAid data with
    | none=>
      right
      refine ⟨h.findAppletByAid_none hfound,?_,forward_at _⟩
      dsimp only
      rw [forward_reply]
      unfold currentName
      cases s.at? s.current <;> rfl
    | some i=>
      left
      obtain ⟨a,hget,hlongest⟩:=findAppletByAid_longest hfound
      refine ⟨a,hlongest,?_⟩
      dsimp only
      have hsame : ∀ t : Dispatcher, t.applets=s.applets→({t with current:=some i} : Dispatcher).at? (some i)=some a:=by
        intro t ht
        show t.applets[i]? = some a
        rw [ht,hget]
      have hat : ({(if s.current≠some i then s.note (s.deselectCall s.current) else s) with current:=some i} : Dispatcher).at?
          (some i)=some a:=by
        apply hsame
        split_ifs <;> rfl
      constructor
      · rw [forward_reply,hat]
        rfl
      · rw [forward_at]
        exact congrArg (Option.map Applet.name) hat

theorem Registered.routed (h : s.Registered) : s.Routes:=by
  constructor
  · exact h.wellFormed.names
  · intro i hi
    obtain ⟨a,ha,hat⟩:=at?_lt h.wellFormed.current hi
    exact ⟨a,ha,congrArg (Option.map Applet.name) hat⟩
  · intro i hi
    obtain ⟨a,ha,hat⟩:=at?_lt h.wellFormed.default hi
    exact ⟨a,ha,congrArg (Option.map Applet.name) hat⟩
  · exact h.registered
  · exact h.unregistered
  · exact fun cmd respMax data hmax hselect=>h.reaches hmax hselect

theorem dispatchApdu_applets (cmd : Bytes) (resp : Option ℕ) : (s.dispatchApdu cmd resp).2.applets=s.applets:=by
  unfold Dispatcher.dispatchApdu
  split
  · rfl
  · split_ifs
    · rfl
    · rfl
    · split
      · split
        · rw [(forward_table _).1]
          dsimp only
          split_ifs <;> rfl
        · exact (forward_table _).1
      · exact (forward_table _).1

theorem Registered.step (h : s.Registered) (e : CardEvent) : (s.step e).Registered:=by
  refine ⟨h.wellFormed.step e,?_⟩
  cases e with
  | register applet makeDefault=>
    rcases s.register_cases applet makeDefault with hrefused | ⟨name,aid,deselect,-,haid,hadded⟩
    · rw [Dispatcher.step,hrefused]
      exact h.aids
    · rw [Dispatcher.step,hadded]
      intro a ha
      rcases List.mem_append.mp ha with ha | ha
      · exact h.aids a ha
      · obtain rfl:=List.mem_singleton.mp ha
        exact haid
  | unregister name=>
    rw [Dispatcher.step]
    unfold Dispatcher.unregister
    split
    · exact h.aids
    · split
      · exact h.aids
      · exact fun a ha=>h.aids a (List.mem_of_mem_eraseIdx ha)
  | dispatchApdu cmd resp=>
    intro a ha
    rw [Dispatcher.step,dispatchApdu_applets] at ha
    exact h.aids a ha
  | reset=>exact h.aids

end Steps

/-- After any registrations, unregistrations, APDUs and resets the names are unique, the indices follow their applets, and a
SELECT goes by the longest AID. -/
theorem routes (es : List CardEvent) : (run step ({} : Dispatcher) es).Routes:=by
  have hregistered : (run step ({} : Dispatcher) es).Registered:=by
    apply run_invariant (I:=Registered) (fun s e _ h=>h.step e) ?_ (alongRun_true _ _)
    exact ⟨wellFormed_start,fun a ha=>absurd ha List.not_mem_nil⟩
  exact hregistered.routed

/-- A second default takes the place of the first, which stays registered. -/
theorem not_keepsDefault : ¬∀ es, (run step ({} : Dispatcher) es).Routes ∧ (run step ({} : Dispatcher) es).KeepsDefault:=by
  intro h
  have hkeeps:=(h [.register (some alpha) true]).2.1 (some beta) true "alpha" (by decide +kernel)
  revert hkeeps
  decide +kernel

end Dispatcher

end CdcBadge.Scard
