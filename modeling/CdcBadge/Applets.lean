import Mathlib.Data.List.Induction
import CdcBadge.Apdu
import CdcBadge.Runs

/-!
# The applets of the card

The dispatcher keeps a table of applets, which of them is selected and which answers
before a SELECT. The calls that it makes to their functions are noted. It deselects the
applet that was selected, and no other that processed an APDU.
-/

namespace CdcBadge.Scard

open Runs

def scardMaxApplets : ℕ:=4

/-- `scard_applet_t` as a module passes it. Of its functions it matters here whether they are there. -/
structure Descriptor where
  name : Option String
  aid : Option Bytes
  processApdu : Bool
  deselect : Bool

/-- An applet of the table. -/
structure Applet where
  name : String
  aid : Bytes
  deselect : Bool
  deriving DecidableEq

/-- A call to a function of an applet, or the end of a call to the dispatcher. -/
inductive Call
  | processed (name : String)
  | deselected (name : String)
  | unregistered (name : String)
  | reset
  deriving DecidableEq

/-- The table with the calls so far: `none` where an index is −1. -/
structure Dispatcher where
  applets : List Applet:=[]
  current : Option ℕ:=none
  default : Option ℕ:=none
  calls : List Call:=[]
  deriving DecidableEq

/-- The answer to an APDU: a length that says there is none, a status word, or what an applet answers. -/
inductive Reply
  | negative
  | statusWord (sw : UInt16)
  | applet (name : String)
  deriving DecidableEq

def fileNotFound : UInt16:=0x6A82

namespace Dispatcher

variable (s : Dispatcher)

def note (cs : List Call) : Dispatcher:={s with calls:=s.calls++cs}

def at? (index : Option ℕ) : Option Applet:=index.bind fun i=>s.applets[i]?

def deselectCall (index : Option ℕ) : List Call:=
  match s.at? index with
  | some a=>if a.deselect then [.deselected a.name] else []
  | none=>[]

def register (applet : Option Descriptor) (makeDefault : Bool) : Bool × Dispatcher:=
  match applet with
  | some {name:=some name,aid:=some aid,processApdu:=true,deselect:=deselect}=>
    if aid=[] then (false,s)
    else if s.applets.any fun a=>a.name=name then (false,s)
    else if scardMaxApplets ≤ s.applets.length then (false,s)
    else
      (true,{ s with
        applets:=s.applets++[{name:=name,aid:=aid,deselect:=deselect}]
        default:=if makeDefault then some s.applets.length else s.default })
  | _=>(false,s)

/-- An index after the entry `i` has been taken from the table. -/
def compact (i : ℕ) (index : Option ℕ) : Option ℕ:=index.map fun k=>if i < k then k-1 else k

def unregister (name : Option String) : Dispatcher:=
  match name with
  | none=>s
  | some name=>
    match s.applets.findIdx? fun a=>a.name=name with
    | none=>s
    | some i=>
      { applets:=s.applets.eraseIdx i
        current:=compact i (if s.current=some i then none else s.current)
        default:=compact i (if s.default=some i then none else s.default)
        calls:=s.calls++(if s.current=some i then s.deselectCall (some i) else [])++[.unregistered name] }

def findAppletByAid (data : Bytes) : Option ℕ:=
  ((List.range s.applets.length).foldl (fun (best : Option ℕ × ℕ) i=>
    match s.applets[i]? with
    | some a=>if a.aid <+: data ∧ best.2 < a.aid.length then (some i,a.aid.length) else best
    | none=>best) (none,0)).1

def forward (index : Option ℕ) : Reply × Dispatcher:=
  match s.at? index with
  | some a=>(.applet a.name,s.note [.processed a.name])
  | none=>(.statusWord fileNotFound,s)

def selectedAid (cmd : Bytes) : Option Bytes:=
  match apduParse cmd with
  | some apdu=>if apdu.cla=0x00 ∧ apdu.ins=0xA4 ∧ apdu.p1=0x04 then some apdu.data else none
  | none=>none

def dispatchApdu (cmd : Bytes) (resp : Option ℕ) : Reply × Dispatcher:=
  match resp with
  | none=>(.negative,s)
  | some respMax=>
    if respMax < 2 then (.negative,s)
    else if s.applets=[] then (.statusWord fileNotFound,s)
    else
      match selectedAid cmd with
      | some aid=>
        match s.findAppletByAid aid with
        | some i=>
          let s:=if s.current≠some i then s.note (s.deselectCall s.current) else s
          {s with current:=some i}.forward (some i)
        | none=>s.forward s.current
      | none=>s.forward (s.current.or s.default)

def reset : Dispatcher:={s with current:=none,calls:=s.calls++s.deselectCall s.current++[.reset]}

end Dispatcher

/-- A call to the dispatcher. -/
inductive CardEvent
  | register (applet : Option Descriptor) (makeDefault : Bool)
  | unregister (name : Option String)
  | dispatchApdu (cmd : Bytes) (resp : Option ℕ)
  | reset

def Dispatcher.step (s : Dispatcher) : CardEvent→Dispatcher
  | .register applet makeDefault=>(s.register applet makeDefault).2
  | .unregister name=>s.unregister name
  | .dispatchApdu cmd resp=>(s.dispatchApdu cmd resp).2
  | .reset=>s.reset

/-- The call ends the time that an applet may have after it processed an APDU: another applet processes one, or
the card is reset or the applet unregistered. -/
def Call.Ends (a : String) : Call→Prop
  | .processed b=>b≠a
  | .deselected _=>False
  | .unregistered b=>b=a
  | .reset=>True

/-- An applet that has processed an APDU is deselected before its time ends. -/
def Isolated (cs : List Call) : Prop:=∀ before a between (x : Call) after,
  cs=before++.processed a::(between++x::after)→x.Ends a → .deselected a∈between

def dirty (a : String) (cs : List Call) : Bool:=
  cs.foldl (fun d x=>if x=.processed a then true else if x=.deselected a then false else d) false

/-- The applet is selected, and it can be deselected. -/
def Dispatcher.Selected (s : Dispatcher) (a : String) : Prop:=
  ∃ applet, s.at? s.current=some applet ∧ applet.name=a ∧ applet.deselect=true

def Dispatcher.target (s : Dispatcher) (cmd : Bytes) (resp : Option ℕ) : Option String:=
  match (s.dispatchApdu cmd resp).1 with
  | .applet a=>some a
  | _=>none

/-- Whoever has processed an APDU since it was last deselected, and is to be left now, is the selected applet and
can be deselected. -/
def Dispatcher.Tracked (s : Dispatcher) : CardEvent→Prop
  | .register _ _=>True
  | .unregister name=>∀ a, name=some a→(s.applets.any fun b=>b.name=a)=true→dirty a s.calls=true →
      s.Selected a
  | .dispatchApdu cmd resp=>∀ a b, s.target cmd resp=some b→dirty a s.calls=true→a≠b → s.Selected a
  | .reset=>∀ a, dirty a s.calls=true → s.Selected a

section Calls

variable {a : String} {cs : List Call} {x : Call}

theorem dirty_snoc : dirty a (cs++[x]) =
    if x=.processed a then true else if x=.deselected a then false else dirty a cs:=by
  simp [dirty]

theorem dirty_iff : dirty a cs=true ↔
    ∃ before between, cs=before++.processed a::between ∧ .deselected a ∉ between:=by
  induction cs using List.reverseRecOn with
  | nil=>simp [dirty]
  | append_singleton cs x ih=>
    rw [dirty_snoc]
    constructor
    · intro h
      split at h
      · subst x
        exact ⟨cs,[],rfl,List.not_mem_nil⟩
      · split at h
        · cases h
        · obtain ⟨before,between,rfl,hnot⟩:=ih.mp h
          refine ⟨before,between++[x],by simp,?_⟩
          rw [List.mem_append,List.mem_singleton]
          rintro (hmem | rfl)
          · exact hnot hmem
          · contradiction
    · rintro ⟨before,between,hcs,hnot⟩
      rcases List.eq_nil_or_concat between with rfl | ⟨between,y,rfl⟩
      · obtain ⟨-,hx⟩:=List.append_inj' hcs rfl
        cases hx
        rw [if_pos rfl]
      · rw [List.concat_eq_append,← List.cons_append,← List.append_assoc] at hcs
        obtain ⟨rfl,hx⟩:=List.append_inj' hcs rfl
        cases hx
        rw [List.concat_eq_append,List.mem_append,List.mem_singleton,not_or] at hnot
        split
        · rfl
        · rw [if_neg (Ne.symm hnot.2)]
          exact ih.mpr ⟨before,between,rfl,hnot.1⟩

theorem isolated_snoc : Isolated (cs++[x]) ↔ Isolated cs ∧ ∀ a, dirty a cs=true→¬x.Ends a:=by
  constructor
  · intro h
    constructor
    · intro before a between y after hcs hends
      exact h before a between y (after++[x]) (by simp [hcs]) hends
    · intro a hdirty hends
      obtain ⟨before,between,rfl,hnot⟩:=dirty_iff.mp hdirty
      exact hnot (h before a between x [] (by simp) hends)
  · rintro ⟨h,hlast⟩ before a between y after hcs hends
    rcases List.eq_nil_or_concat after with rfl | ⟨after,z,rfl⟩
    · have hsplit : before++.processed a::(between++[y])=(before++.processed a::between)++[y]:=by simp
      rw [hsplit] at hcs
      obtain ⟨rfl,hx⟩:=List.append_inj' hcs rfl
      cases hx
      by_contra hnot
      exact hlast a (dirty_iff.mpr ⟨before,between,rfl,hnot⟩) hends
    · have hsplit : before++.processed a::(between++y::after.concat z) =
          (before++.processed a::(between++y::after))++[z]:=by simp
      rw [hsplit] at hcs
      obtain ⟨rfl,-⟩:=List.append_inj' hcs rfl
      exact h before a between y after rfl hends

theorem isolated_nil : Isolated []:=by
  intro before a between x after hcs
  simp at hcs

theorem isolated_deselected {b : String} : Isolated (cs++[.deselected b]) ↔ Isolated cs:=by
  rw [isolated_snoc]
  exact and_iff_left fun _ _ h=>h

end Calls

namespace Dispatcher

variable {s : Dispatcher} {a : String}

theorem isolated_deselectCall {index : Option ℕ} {cs : List Call} :
    Isolated (cs++s.deselectCall index) ↔ Isolated cs:=by
  unfold deselectCall
  split
  · split
    · exact isolated_deselected
    · rw [List.append_nil]
  · rw [List.append_nil]

theorem dirty_deselectCall {cs : List Call} :
    dirty a (cs++s.deselectCall s.current)=true ↔ dirty a cs=true ∧ ¬s.Selected a:=by
  have hselected : s.Selected a ↔ Call.deselected a∈s.deselectCall s.current:=by
    unfold Selected deselectCall
    cases s.at? s.current with
    | none=>simp
    | some applet=>
      simp only [Option.some.injEq,exists_eq_left']
      cases applet.deselect with
      | false=>simp
      | true=>simpa using eq_comm
  rw [hselected]
  unfold deselectCall
  split
  · split
    · rw [dirty_snoc,List.mem_singleton,if_neg Call.noConfusion]
      by_cases ha : Call.deselected a=.deselected ‹Applet›.name
      · rw [if_pos ha.symm]
        simp [ha]
      · rw [if_neg (Ne.symm ha)]
        simp [ha]
    · simp
  · simp

theorem forward_calls (index : Option ℕ) : (s.forward index).2.calls =
    s.calls++((s.at? index).map fun applet=>Call.processed applet.name).toList:=by
  unfold forward
  cases s.at? index with
  | none=>simp
  | some applet=>rfl

theorem forward_reply (index : Option ℕ) : (s.forward index).1 =
    ((s.at? index).map fun applet=>Reply.applet applet.name).getD (.statusWord fileNotFound):=by
  unfold forward
  cases s.at? index <;> rfl

theorem ends_processed {b : String} : (Call.processed b).Ends a ↔ a≠b:=ne_comm

/-- An APDU goes to the selected applet, or to the default applet while none is selected. -/
theorem isolated_forward {index : Option ℕ} (hindex : s.current=none ∨ index=s.current) :
    Isolated (s.forward index).2.calls ↔ Isolated s.calls ∧
      ∀ a b, (s.forward index).1=.applet b→dirty a s.calls=true→a≠b → s.Selected a:=by
  rw [forward_calls,forward_reply]
  cases hat : s.at? index with
  | none=>simp
  | some applet=>
    rw [Option.map_some,Option.toList_some,isolated_snoc]
    refine and_congr_right fun _=>?_
    have hnot : ∀ a, a≠applet.name→¬s.Selected a:=by
      rintro a ha ⟨selected,hselected,rfl,-⟩
      rcases hindex with hnone | rfl
      · rw [hnone] at hselected
        cases hselected
      · rw [hat] at hselected
        cases hselected
        exact ha rfl
    constructor
    · intro h a b hb hdirty hab
      cases hb
      exact absurd (ends_processed.mpr hab) (h a hdirty)
    · intro h a hdirty hends
      have hab:=ends_processed.mp hends
      exact hnot a hab (h a applet.name rfl hdirty hab)

theorem isolated_select {i : ℕ} : Isolated ({s.note (s.deselectCall s.current) with current:=some i}.forward (some i)).2.calls ↔
    Isolated s.calls ∧ ∀ a b, ({s.note (s.deselectCall s.current) with current:=some i}.forward (some i)).1=.applet b →
      dirty a s.calls=true→a≠b → s.Selected a:=by
  rw [forward_calls,forward_reply]
  cases ({s.note (s.deselectCall s.current) with current:=some i} : Dispatcher).at? (some i) with
  | none=>simpa [note] using isolated_deselectCall
  | some applet=>
    rw [Option.map_some,Option.toList_some,isolated_snoc]
    dsimp only [note]
    rw [isolated_deselectCall]
    refine and_congr_right fun _=>?_
    constructor
    · intro h a b hb hdirty hab
      cases hb
      by_contra hnot
      exact h a (dirty_deselectCall.mpr ⟨hdirty,hnot⟩) (ends_processed.mpr hab)
    · intro h a hdirty hends
      obtain ⟨hdirty,hnot⟩:=dirty_deselectCall.mp hdirty
      exact hnot (h a applet.name rfl hdirty (ends_processed.mp hends))

theorem target_eq_some {cmd : Bytes} {resp : Option ℕ} {b : String} :
    s.target cmd resp=some b ↔ (s.dispatchApdu cmd resp).1=.applet b:=by
  unfold target
  split
  · rename_i hreply
    rw [hreply,Option.some.injEq,Reply.applet.injEq]
  · rename_i hnot
    exact iff_of_false (by simp) fun hreply=>hnot b hreply

theorem isolated_dispatchApdu {cmd : Bytes} {resp : Option ℕ} :
    Isolated (s.dispatchApdu cmd resp).2.calls ↔ Isolated s.calls ∧ s.Tracked (.dispatchApdu cmd resp):=by
  have hsame : ∀ reply : Reply, (∀ b, reply≠.applet b)→(Isolated s.calls ↔ Isolated s.calls ∧
      ∀ a b, reply=.applet b→dirty a s.calls=true→a≠b → s.Selected a):=fun reply hreply=>
    (and_iff_left fun a b hb=>absurd hb (hreply b)).symm
  simp only [Tracked,target_eq_some]
  unfold dispatchApdu
  split
  · exact hsame _ fun b=>Reply.noConfusion
  · split
    · exact hsame _ fun b=>Reply.noConfusion
    · split
      · exact hsame _ fun b=>Reply.noConfusion
      · split
        · split
          · dsimp only
            split
            · exact isolated_select
            · rename_i hcurrent
              rw [not_not] at hcurrent
              rw [← hcurrent]
              exact isolated_forward (.inr rfl)
          · exact isolated_forward (.inr rfl)
        · cases hcurrent : s.current with
          | none=>exact isolated_forward (.inl hcurrent)
          | some i=>exact isolated_forward (.inr hcurrent.symm)

theorem isolated_reset : Isolated s.reset.calls ↔ Isolated s.calls ∧ s.Tracked .reset:=by
  unfold reset Tracked
  dsimp only
  rw [isolated_snoc,isolated_deselectCall]
  refine and_congr_right fun _=>forall_congr' fun a=>?_
  rw [dirty_deselectCall,Call.Ends,not_true_eq_false,imp_false,not_and_not_right]

theorem register_calls (applet : Option Descriptor) (makeDefault : Bool) :
    (s.register applet makeDefault).2.calls=s.calls:=by
  unfold register
  split
  · split_ifs <;> rfl
  · rfl

/-- The table is not overfull, its names differ and its indices are in it. -/
structure WellFormed (s : Dispatcher) : Prop where
  count : s.applets.length ≤ scardMaxApplets
  names : (s.applets.map Applet.name).Nodup
  current : ∀ i, s.current=some i→i < s.applets.length
  default : ∀ i, s.default=some i→i < s.applets.length

theorem WellFormed.congr {t : Dispatcher} (h : s.WellFormed) (happlets : t.applets=s.applets)
    (hcurrent : ∀ i, t.current=some i→i < s.applets.length) (hdefault : t.default=s.default) : t.WellFormed where
  count:=by rw [happlets]; exact h.count
  names:=by rw [happlets]; exact h.names
  current:=by rw [happlets]; exact hcurrent
  default:=by rw [happlets,hdefault]; exact h.default

theorem WellFormed.register (h : s.WellFormed) (applet : Option Descriptor) (makeDefault : Bool) :
    (s.register applet makeDefault).2.WellFormed:=by
  unfold Dispatcher.register
  split
  · rename_i name aid deselect
    split
    · exact h
    split
    · exact h
    split
    · exact h
    rename_i hname hfull
    have hlength : ∀ added : Applet, (s.applets++[added]).length=s.applets.length+1:=fun _=>by simp
    constructor
    · rw [hlength]
      omega
    · rw [List.map_append,List.nodup_append]
      refine ⟨h.names,List.nodup_singleton _,?_⟩
      rintro n hn m hm rfl
      obtain ⟨b,hb,rfl⟩:=List.mem_map.mp hn
      have hsame : b.name=name:=List.mem_singleton.mp hm
      exact hname (List.any_eq_true.mpr ⟨b,hb,decide_eq_true hsame⟩)
    · intro i hi
      rw [hlength]
      exact Nat.lt_succ_of_lt (h.current i hi)
    · intro i hi
      rw [hlength]
      dsimp only at hi
      split at hi
      · cases hi
        exact Nat.lt_succ_self _
      · exact Nat.lt_succ_of_lt (h.default i hi)
  · exact h

theorem compact_lt {i n : ℕ} {index : Option ℕ} (hi : i < n)
    (hindex : ∀ k, index=some k→k < n) : ∀ k, compact i (if index=some i then none else index)=some k→k < n-1:=by
  intro k hk
  obtain ⟨j,hj,rfl⟩:=Option.map_eq_some_iff.mp hk
  split at hj
  · cases hj
  · rename_i hne
    have hlt:=hindex j hj
    have hji : j≠i:=by
      rintro rfl
      exact hne hj
    split
    · omega
    · omega

theorem findIdx_name {name : String} {i : ℕ} (hi : s.applets.findIdx? (fun a=>a.name=name)=some i) :
    ∃ applet, s.applets[i]? = some applet ∧ applet.name=name:=by
  obtain ⟨hlt,hname,-⟩:=List.findIdx?_eq_some_iff_getElem.mp hi
  exact ⟨_,List.getElem?_eq_getElem hlt,by simpa using hname⟩

theorem WellFormed.unregister (h : s.WellFormed) (name : Option String) : (s.unregister name).WellFormed:=by
  unfold Dispatcher.unregister
  split
  · exact h
  · split
    · exact h
    · rename_i i hi
      obtain ⟨applet,hget,-⟩:=findIdx_name hi
      have hlt : i < s.applets.length:=(List.getElem?_eq_some_iff.mp hget).1
      have hlength : (s.applets.eraseIdx i).length=s.applets.length-1:=List.length_eraseIdx_of_lt hlt
      constructor
      · have:=h.count
        rw [hlength]
        omega
      · exact h.names.sublist ((List.eraseIdx_sublist _ _).map _)
      · rw [hlength]
        exact compact_lt hlt h.current
      · rw [hlength]
        exact compact_lt hlt h.default

theorem forward_table (index : Option ℕ) : (s.forward index).2.applets=s.applets ∧
    (s.forward index).2.current=s.current ∧ (s.forward index).2.default=s.default:=by
  unfold forward
  split <;> exact ⟨rfl,rfl,rfl⟩

theorem findAppletByAid_lt {aid : Bytes} {i : ℕ} (h : s.findAppletByAid aid=some i) : i < s.applets.length:=by
  have hfold : ∀ (is : List ℕ) (best : Option ℕ × ℕ), (∀ k, best.1=some k→k < s.applets.length) →
      ∀ k, (is.foldl (fun (best : Option ℕ × ℕ) i=>
        match s.applets[i]? with
        | some a=>if a.aid <+: aid ∧ best.2 < a.aid.length then (some i,a.aid.length) else best
        | none=>best) best).1=some k→k < s.applets.length:=by
    intro is
    induction is with
    | nil=>exact fun best hbest=>hbest
    | cons j is ih=>
      intro best hbest
      refine ih _ fun k hk=>?_
      dsimp only at hk
      split at hk
      · rename_i a ha
        split at hk
        · cases hk
          exact (List.getElem?_eq_some_iff.mp ha).1
        · exact hbest k hk
      · exact hbest k hk
  exact hfold _ _ (fun k hk=>by cases hk) i h

theorem WellFormed.dispatchApdu (h : s.WellFormed) (cmd : Bytes) (resp : Option ℕ) :
    (s.dispatchApdu cmd resp).2.WellFormed:=by
  have hforward : ∀ (t : Dispatcher) (index : Option ℕ), t.WellFormed→(t.forward index).2.WellFormed:=by
    intro t index ht
    obtain ⟨happlets,hcurrent,hdefault⟩:=t.forward_table index
    exact ht.congr happlets (by rw [hcurrent]; exact ht.current) hdefault
  unfold Dispatcher.dispatchApdu
  split
  · exact h
  · split
    · exact h
    · split
      · exact h
      · split
        · split
          · rename_i i hfound
            have hselected : ∀ k, some i=some k→k < s.applets.length:=by
              intro k hk
              cases hk
              exact findAppletByAid_lt hfound
            refine hforward _ _ ?_
            split
            · exact h.congr rfl hselected rfl
            · exact h.congr rfl hselected rfl
          · exact hforward _ _ h
        · exact hforward _ _ h

theorem WellFormed.step (h : s.WellFormed) (e : CardEvent) : (s.step e).WellFormed:=by
  cases e with
  | register applet makeDefault=>exact h.register applet makeDefault
  | unregister name=>exact h.unregister name
  | dispatchApdu cmd resp=>exact h.dispatchApdu cmd resp
  | reset=>exact h.congr rfl (fun _ hi=>by cases hi) rfl

theorem wellFormed_start : ({} : Dispatcher).WellFormed where
  count:=Nat.zero_le _
  names:=List.nodup_nil
  current _ hi:=by cases hi
  default _ hi:=by cases hi

theorem WellFormed.index_unique (h : s.WellFormed) {i j : ℕ} {a b : Applet} (hi : s.applets[i]? = some a)
    (hj : s.applets[j]? = some b) (hname : a.name=b.name) : i=j:=by
  obtain ⟨hi,rfl⟩:=List.getElem?_eq_some_iff.mp hi
  obtain ⟨hj,rfl⟩:=List.getElem?_eq_some_iff.mp hj
  have hi' : i < (s.applets.map Applet.name).length:=by rwa [List.length_map]
  have hj' : j < (s.applets.map Applet.name).length:=by rwa [List.length_map]
  have hsame : (s.applets.map Applet.name)[i]=(s.applets.map Applet.name)[j]:=by
    rw [List.getElem_map,List.getElem_map,hname]
  exact h.names.getElem_inj_iff.mp hsame

theorem isolated_unregister (h : s.WellFormed) (name : Option String) :
    Isolated (s.unregister name).calls ↔ Isolated s.calls ∧ s.Tracked (.unregister name):=by
  unfold Dispatcher.unregister Tracked
  split
  · exact (and_iff_left fun a ha=>by cases ha).symm
  · rename_i name
    split
    · rename_i hnone
      refine (and_iff_left fun a ha hany=>?_).symm
      cases ha
      obtain ⟨b,hb,hname⟩:=List.any_eq_true.mp hany
      have hnot:=List.findIdx?_eq_none_iff.mp hnone b hb
      exact absurd hname (by simp [hnot])
    · rename_i i hi
      obtain ⟨applet,hget,hname⟩:=findIdx_name hi
      have hany : (s.applets.any fun b=>b.name=name)=true:=
        List.any_eq_true.mpr ⟨applet,List.mem_of_getElem? hget,decide_eq_true hname⟩
      have htracked : (∀ a, some name=some a→(s.applets.any fun b=>b.name=a)=true →
          dirty a s.calls=true → s.Selected a) ↔ (dirty name s.calls=true → s.Selected name):=by
        constructor
        · exact fun ht=>ht name rfl hany
        · rintro ht a ha -
          cases ha
          exact ht
      have hends : ∀ cs : List Call, (∀ a, dirty a cs=true→¬(Call.unregistered name).Ends a) ↔ ¬dirty name cs=true:=by
        intro cs
        constructor
        · exact fun hcs hdirty=>hcs name hdirty rfl
        · rintro hcs a hdirty rfl
          exact hcs hdirty
      refine Iff.trans ?_ (and_congr_right fun _=>htracked.symm)
      dsimp only
      split
      · rename_i hcurrent
        rw [← hcurrent,isolated_snoc,isolated_deselectCall,hends,dirty_deselectCall,not_and_not_right]
      · rename_i hcurrent
        rw [List.append_nil,isolated_snoc,hends]
        refine and_congr_right fun _=>⟨fun hclean hdirty=>absurd hdirty hclean,fun ht hdirty=>?_⟩
        obtain ⟨selected,hselected,hsame,-⟩:=ht hdirty
        obtain ⟨k,hk,hat⟩:=Option.bind_eq_some_iff.mp hselected
        have hki:=h.index_unique hat hget (hsame.trans hname.symm)
        exact hcurrent (by rw [hk,hki])

theorem isolated_step (h : s.WellFormed) (e : CardEvent) :
    Isolated (s.step e).calls ↔ Isolated s.calls ∧ s.Tracked e:=by
  cases e with
  | register applet makeDefault=>
    rw [step,register_calls,Tracked,and_true]
  | unregister name=>exact isolated_unregister h name
  | dispatchApdu cmd resp=>exact isolated_dispatchApdu
  | reset=>exact isolated_reset

theorem isolated_run (h : s.WellFormed) (es : List CardEvent) :
    Isolated (run step s es).calls ↔ Isolated s.calls ∧ AlongRun step Tracked s es:=by
  induction es generalizing s with
  | nil=>exact (and_iff_left trivial).symm
  | cons e es ih=>rw [run_cons,ih (h.step e),isolated_step h,AlongRun,and_assoc]

/-- The applets of a run are isolated exactly when each step that leaves an applet behind leaves the selected one. -/
theorem applets_isolated_iff (es : List CardEvent) :
    Isolated (run step ({} : Dispatcher) es).calls ↔ AlongRun step Tracked ({} : Dispatcher) es:=by
  rw [isolated_run wellFormed_start]
  exact and_iff_right isolated_nil

end Dispatcher

def alpha : Descriptor where
  name:=some "alpha"
  aid:=some [0xD2,0x76,0x00,0x01,0x24,0x01]
  processApdu:=true
  deselect:=true

def beta : Descriptor where
  name:=some "beta"
  aid:=some [0xA0,0x00,0x00,0x03,0x08]
  processApdu:=true
  deselect:=true

def defaultTraffic : List CardEvent:=
  [.register (some alpha) true,.register (some beta) false,
    .dispatchApdu [0x00,0xCA,0x00,0x4F,0x00] (some 64),
    .dispatchApdu [0x00,0xA4,0x04,0x00,0x05,0xA0,0x00,0x00,0x03,0x08] (some 64)]

/-- The default applet is not deselected before the other processes its SELECT. -/
theorem applets_not_isolated : ¬Isolated (run Dispatcher.step {} defaultTraffic).calls:=by
  have hcalls : (run Dispatcher.step {} defaultTraffic).calls=[.processed "alpha",.processed "beta"]:=by
    decide +kernel
  intro h
  have hdeselected:=h [] "alpha" [] (.processed "beta") [] hcalls (by decide : "beta"≠"alpha")
  cases hdeselected

end CdcBadge.Scard
