import Mathlib.Data.List.Nodup
import CdcBadge.OathBackend
import CdcBadge.Runs

/-!
# Touch confirmations

`CALCULATE` and `CALCULATE ALL` call by call, while the device edits its store, its user answers
the prompt and time passes. Beside the variables of the code stands a history that no code reads:
for which credential a prompt was raised, the confirmations by number, and the codes given out.
-/

namespace CdcBadge.OathTouch

open Handler Runs Tropic OathStore OathBackend
open Oath (Account otypeTotp otypeHotp otypeCr oflagTouch buildYkName nameSize)

/-- A confirmation: its number, its time and the credential its prompt was raised for. -/
structure Confirmation where
  number : ℕ
  timeUs : ℕ
  entry : OathEntry
  deriving DecidableEq

/-- What a command does next: look at a slot for the name, read the slot it found, ask for a touch, or calculate. -/
inductive Job
  | idle
  | looking (name : Bytes) (challenge : ByteArr 8) (slot : ℕ)
  | found (challenge : ByteArr 8) (slot : ℕ)
  | touching (challenge : ByteArr 8) (slot : ℕ) (e : OathEntry)
  | computing (challenge : ByteArr 8) (slot : ℕ) (e : OathEntry) (used : Option (Confirmation × ℕ))
  | listing (challenge : ByteArr 8) (slot : ℕ)
  | listed (challenge : ByteArr 8) (slot : ℕ) (e : OathEntry)
  deriving DecidableEq

/-- A code that a command was given, the credential it is of, and the confirmation used up for it and when. -/
structure Release where
  entry : OathEntry
  code : ByteArr 4 × UInt8
  used : Option (Confirmation × ℕ)
  all : Bool
  deriving DecidableEq

structure State where
  store : Store
  touch : Touch:={}
  nowUs : ℕ:=0
  job : Job:=.idle
  promptFor : Option OathEntry:=none
  armedBy : Option Confirmation:=none
  confirmations : ℕ:=0
  released : List Release:=[]

inductive Event
  | calculate (name : Bytes) (challenge : ByteArr 8)
  | calculateAll (challenge : ByteArr 8)
  /-- The next call of the command that runs. -/
  | next (read : SeOutcome) (calculation : CalcOutcome)
  | confirm
  | cancel
  /-- An edit of the device or of another command leaves this in a slot. -/
  | edit (slot : ℕ) (content : Option (Content Payload))
  | wait (us : ℕ)

def flagged (e : OathEntry) : Bool:=e.flags &&& oflagTouch≠0

section Machine

variable (hmac : Hmac) (mapSignature : UInt32)

def State.lost (s : State) (store : Store) : State:=
  {s with store,touch:={},job:=.idle,promptFor:=none,armedBy:=none}

def State.reading (s : State) (o : SeOutcome) (slot : ℕ) (k : Option OathEntry→Job) : State:=
  match (readAccount o slot s.store).1 with
  | .ok e=>{s with job:=k e}
  | .error _=>s.lost s.store

def State.calculating (s : State) (o : CalcOutcome) (slot : ℕ) (challenge : ByteArr 8) (used : Option (Confirmation × ℕ))
    (all : Bool) (job : Job) : State:=
  match calculateForChallenge hmac mapSignature o slot challenge s.store with
  | (.error _,store)=>s.lost store
  | (.ok none,store)=>{s with store,job}
  | (.ok (some code),store)=>
    { s with
      store
      job
      released:=s.released++((credential s.store.chip slot).map fun entry=>⟨entry,code,used,all⟩).toList }

def answersTo (name : Bytes) (e : OathEntry) : Bool:=e.type != otypeCr && buildYkName (metaOf e) == name

/-- The slots whose code `CALCULATE ALL` asks for. -/
def listable (e : OathEntry) : Bool:=e.type != otypeCr && e.type != otypeHotp && !flagged e

def asking (s : State) (challenge : ByteArr 8) (slot : ℕ) (e : OathEntry) : State:=
  if (beTouchOk s.nowUs slot s.touch).1 then
    { s with
      touch:=(beTouchOk s.nowUs slot s.touch).2
      job:=.computing challenge slot e (s.armedBy.map fun c=>(c,s.nowUs)) }
  else
    { s with
      touch:=(beTouchOk s.nowUs slot s.touch).2
      job:=.idle
      promptFor:=if s.touch.promptSlot=none then some e else s.promptFor }

def next (s : State) (read : SeOutcome) (calculation : CalcOutcome) : State:=
  match s.job with
  | .idle=>s
  | .looking name challenge slot=>
    if capacity ≤ slot then {s with job:=.idle}
    else s.reading read slot fun e=>
      if e.any (answersTo name) then .found challenge slot else .looking name challenge (slot+1)
  | .found challenge slot=>s.reading read slot fun
    | none=>.idle
    | some e=>if flagged e then .touching challenge slot e else .computing challenge slot e none
  | .touching challenge slot e=>asking s challenge slot e
  | .computing challenge slot _ used=>s.calculating hmac mapSignature calculation slot challenge used false .idle
  | .listing challenge slot=>
    if capacity ≤ slot then {s with job:=.idle}
    else s.reading read slot fun
      | none=>.listing challenge (slot+1)
      | some e=>if listable e then .listed challenge slot e else .listing challenge (slot+1)
  | .listed challenge slot _=>s.calculating hmac mapSignature calculation slot challenge none true (.listing challenge (slot+1))

def step (s : State) : Event → State
  | .calculate name challenge=>
    if s.job=.idle ∧ name.length < nameSize then {s with job:=.looking name challenge 0} else s
  | .calculateAll challenge=>if s.job=.idle then {s with job:=.listing challenge 0} else s
  | .next read calculation=>next hmac mapSignature s read calculation
  | .confirm=>
    { s with
      touch:=onTouchConfirm s.nowUs s.touch
      promptFor:=none
      armedBy:=s.promptFor.map fun entry=>⟨s.confirmations,s.nowUs,entry⟩
      confirmations:=s.confirmations+1 }
  | .cancel=>{s with touch:=onTouchCancel s.touch,promptFor:=none}
  | .edit slot content=>{s with store:=s.store.put (31+slot) content}
  | .wait us=>{s with nowUs:=s.nowUs+us}

end Machine

def usedUp (released : List Release) : List ℕ:=released.filterMap fun r=>r.used.map fun p=>p.1.number

/-- Every code of a credential that requires touch has a confirmation of its own, given for it in time. -/
structure Confirmed (released : List Release) : Prop where
  touched : ∀ r∈released, r.all=false → flagged r.entry=true→∃ c usedUs, r.used=some (c,usedUs) ∧
    c.entry.secret=r.entry.secret ∧ c.timeUs ≤ usedUs ∧ usedUs < c.timeUs+touchWindowUs
  once : (usedUp released).Nodup
  all : ∀ r∈released, r.all=true → flagged r.entry=false

/-- The credential that a command has read and not calculated yet. -/
def Job.Holds (j : Job) (slot : ℕ) (e : OathEntry) : Prop:=
  match j with
  | .touching _ k f=>k=slot ∧ f=e
  | .computing _ k f _=>k=slot ∧ f=e
  | .listed _ k f=>k=slot ∧ f=e
  | _=>False

/-- No edit puts another secret into a slot whose prompt is up, whose touch is armed, or that a command has read. -/
def Spares (s : State) : Event→Prop
  | .edit slot content=>∀ f, credential (s.store.put (31+slot) content).chip slot=some f →
      (∀ p, s.touch.promptSlot=some slot → s.promptFor=some p → f.secret=p.secret) ∧
      (∀ c, s.touch.Armed s.nowUs slot → s.armedBy=some c → f.secret=c.entry.secret) ∧
      ∀ e, s.job.Holds slot e → f.secret=e.secret ∧ flagged f=flagged e
  | _=>True

def Job.spent (j : Job) : List ℕ:=
  match j with
  | .computing _ _ _ (some (c,_))=>[c.number]
  | _=>[]

/-- The command holds neither a confirmation nor a credential. -/
def Job.Free : Job→Prop
  | .touching _ _ _=>False
  | .computing _ _ _ _=>False
  | .listed _ _ _=>False
  | _=>True

def Covers (e : OathEntry) (used : Option (Confirmation × ℕ)) : Prop:=
  ∃ c usedUs, used=some (c,usedUs) ∧ c.entry.secret=e.secret ∧ c.timeUs ≤ usedUs ∧ usedUs < c.timeUs+touchWindowUs

structure Sound (s : State) : Prop where
  confirmed : Confirmed s.released
  spent : (usedUp s.released++s.job.spent).Nodup
  numbered : ∀ n∈usedUp s.released++s.job.spent, n < s.confirmations
  prompt : ∀ slot, s.touch.promptSlot=some slot→∃ p, s.promptFor=some p ∧
    ∀ f, credential s.store.chip slot=some f → f.secret=p.secret
  armed : ∀ slot, s.touch.Armed s.nowUs slot→∃ c, s.armedBy=some c ∧ c.timeUs ≤ s.nowUs ∧
    s.touch.armedUntilUs=c.timeUs+touchWindowUs ∧ ∀ f, credential s.store.chip slot=some f → f.secret=c.entry.secret
  fresh : ∀ c, s.touch.armedSlot≠none → s.armedBy=some c →
    c.number < s.confirmations ∧ c.number ∉ usedUp s.released++s.job.spent
  held : ∀ slot e, s.job.Holds slot e→∀ f, credential s.store.chip slot=some f →
    f.secret=e.secret ∧ flagged f=flagged e
  promptHeld : ∀ slot e p, s.job.Holds slot e → s.touch.promptSlot=some slot → s.promptFor=some p→p.secret=e.secret
  armedHeld : ∀ slot e c, s.job.Holds slot e → s.touch.Armed s.nowUs slot → s.armedBy=some c → c.entry.secret=e.secret
  computing : ∀ challenge slot e used, s.job=.computing challenge slot e used → flagged e=true → Covers e used
  unflagged : ∀ challenge slot e, s.job=.listed challenge slot e → flagged e=false

variable {hmac : Hmac} {mapSignature : UInt32} {s : State}

theorem usedUp_append (released : List Release) (r : Release) :
    usedUp (released++[r])=usedUp released++(r.used.map fun p=>p.1.number).toList:=by
  unfold usedUp
  cases hused : r.used <;> simp [List.filterMap_append,hused]

section Free

variable {j : Job}

theorem Job.Free.spent (h : j.Free) : j.spent=[]:=by cases j <;> first | rfl | exact h.elim

theorem Job.Free.holds (h : j.Free) (slot : ℕ) (e : OathEntry) : ¬j.Holds slot e:=by cases j <;> simp_all [Free,Holds]

theorem Job.Free.computing (h : j.Free) (challenge : ByteArr 8) (slot : ℕ) (e : OathEntry)
    (used : Option (Confirmation × ℕ)) : j≠.computing challenge slot e used:=by
  rintro rfl
  exact h

theorem Job.Free.listed (h : j.Free) (challenge : ByteArr 8) (slot : ℕ) (e : OathEntry) : j≠.listed challenge slot e:=by
  rintro rfl
  exact h

end Free

/-- A command that holds no confirmation, and only what its slot holds, is where it stood. -/
theorem Sound.withJob (h : Sound s) {j : Job} (hspent : j.spent=[])
    (hheld : ∀ slot e, j.Holds slot e → credential s.store.chip slot=some e)
    (hcomputing : ∀ challenge slot e used, j=.computing challenge slot e used → flagged e=false)
    (hlisted : ∀ challenge slot e, j=.listed challenge slot e → flagged e=false) : Sound {s with job:=j} where
  confirmed:=h.confirmed
  spent:=by
    rw [hspent,List.append_nil]
    exact h.confirmed.once
  numbered n hn:=by
    rw [hspent,List.append_nil] at hn
    exact h.numbered n (List.mem_append_left _ hn)
  prompt:=h.prompt
  armed:=h.armed
  fresh c harmed hc:=by
    obtain ⟨hlt,hnot⟩:=h.fresh c harmed hc
    refine ⟨hlt,?_⟩
    rw [hspent,List.append_nil]
    exact fun hmem=>hnot (List.mem_append_left _ hmem)
  held slot e hholds f hf:=by
    rw [hheld slot e hholds] at hf
    cases hf
    exact ⟨rfl,rfl⟩
  promptHeld slot e p hholds hprompt hp:=by
    obtain ⟨q,hq,hsecret⟩:=h.prompt slot hprompt
    rw [hp] at hq
    cases hq
    exact (hsecret e (hheld slot e hholds)).symm
  armedHeld slot e c hholds harmed hc:=by
    obtain ⟨d,hd,-,-,hsecret⟩:=h.armed slot harmed
    rw [hc] at hd
    cases hd
    exact (hsecret e (hheld slot e hholds)).symm
  computing challenge slot e used hj hflagged:=by
    rw [hcomputing challenge slot e used hj] at hflagged
    cases hflagged
  unflagged:=hlisted

theorem Sound.free (h : Sound s) {j : Job} (hj : j.Free) : Sound {s with job:=j}:=
  h.withJob hj.spent (fun slot e hholds=>absurd hholds (hj.holds slot e))
    (fun challenge slot e used heq=>absurd heq (hj.computing challenge slot e used))
    fun challenge slot e heq=>absurd heq (hj.listed challenge slot e)

theorem Sound.lost (h : Sound s) (store : Store) : Sound (s.lost store) where
  confirmed:=h.confirmed
  spent:=(h.free (j:=.idle) trivial).spent
  numbered:=(h.free (j:=.idle) trivial).numbered
  prompt slot hprompt:=by cases hprompt
  armed slot harmed:=by cases harmed.1
  fresh c harmed:=absurd rfl harmed
  held slot e hholds:=hholds.elim
  promptHeld slot e p hholds:=hholds.elim
  armedHeld slot e c hholds:=hholds.elim
  computing challenge slot e used hj:=by cases hj
  unflagged challenge slot e hj:=by cases hj

/-- The store changes, and what is asked for, confirmed or read is the same credential still. -/
theorem Sound.withStore (h : Sound s) {store : Store}
    (hprompt : ∀ slot p f, s.touch.promptSlot=some slot → s.promptFor=some p → credential store.chip slot=some f →
      f.secret=p.secret)
    (harmed : ∀ slot c f, s.touch.Armed s.nowUs slot → s.armedBy=some c → credential store.chip slot=some f →
      f.secret=c.entry.secret)
    (hheld : ∀ slot e f, s.job.Holds slot e → credential store.chip slot=some f →
      f.secret=e.secret ∧ flagged f=flagged e) : Sound {s with store} where
  confirmed:=h.confirmed
  spent:=h.spent
  numbered:=h.numbered
  prompt slot hslot:=by
    obtain ⟨p,hp,-⟩:=h.prompt slot hslot
    exact ⟨p,hp,fun f=>hprompt slot p f hslot hp⟩
  armed slot hslot:=by
    obtain ⟨c,hc,htime,huntil,-⟩:=h.armed slot hslot
    exact ⟨c,hc,htime,huntil,fun f=>harmed slot c f hslot hc⟩
  fresh:=h.fresh
  held slot e hholds f:=hheld slot e f hholds
  promptHeld:=h.promptHeld
  armedHeld:=h.armedHeld
  computing:=h.computing
  unflagged:=h.unflagged

section Steps

variable {read : SeOutcome} {slot : ℕ} {challenge : ByteArr 8}

theorem readAccount_reply {store : Store} {k : Option OathEntry} (h : (readAccount read slot store).1=.ok k) :
    k=none ∨ k=credential store.chip slot:=by
  cases read with
  | done=>
    rw [readAccount_done] at h
    exact Or.inr (Except.ok.inj h).symm
  | failed e applied=>
    rw [readAccount_failed] at h
    exact Or.inl (Except.ok.inj h).symm
  | powerLost applied=>
    cases hphys : toPhysicalSlot slot with
    | none=>
      unfold readAccount at h
      rw [hphys] at h
      exact Or.inl (Except.ok.inj h).symm
    | some physSlot=>
      rw [readAccount_lost applied hphys] at h
      cases h

variable (challenge) in
theorem Sound.reading (h : Sound s) {k : Option OathEntry→Job} (hnone : (k none).Free)
    (hsome : ∀ e, (k (some e)).Free ∨ k (some e)=.touching challenge slot e ∨
      flagged e=false ∧ (k (some e)=.computing challenge slot e none ∨ k (some e)=.listed challenge slot e)) :
    Sound (s.reading read slot k):=by
  unfold State.reading
  split
  · rename_i found hfound
    cases found with
    | none=>exact h.free hnone
    | some e=>
      have he : credential s.store.chip slot=some e:=by
        rcases readAccount_reply hfound with hcase | hcase
        · cases hcase
        · exact hcase.symm
      have hheld (i : ℕ) (f : OathEntry) (hholds : slot=i ∧ e=f) : credential s.store.chip i=some f:=by
        obtain ⟨rfl,rfl⟩:=hholds
        exact he
      rcases hsome e with hfree | hk | ⟨hflag,hk | hk⟩
      · exact h.free hfree
      · rw [hk]
        exact h.withJob rfl hheld (by rintro _ _ _ _ ⟨⟩) (by rintro _ _ _ ⟨⟩)
      · rw [hk]
        refine h.withJob rfl hheld ?_ (by rintro _ _ _ ⟨⟩)
        rintro _ _ _ _ ⟨⟩
        exact hflag
      · rw [hk]
        refine h.withJob rfl hheld (by rintro _ _ _ _ ⟨⟩) ?_
        rintro _ _ _ ⟨⟩
        exact hflag
  · exact h.lost s.store

variable (hmac mapSignature) in
theorem Sound.calculated (h : Sound s) (o : CalcOutcome) (slot : ℕ) (challenge : ByteArr 8) :
    Sound {s with store:=(calculateForChallenge hmac mapSignature o slot challenge s.store).2}:=by
  have hbefore (i : ℕ) (f : OathEntry)
      (hf : credential (calculateForChallenge hmac mapSignature o slot challenge s.store).2.chip i=some f) :
      ∃ g, credential s.store.chip i=some g ∧ f.secret=g.secret ∧ flagged f=flagged g:=by
    obtain ⟨g,hg,m,rfl⟩:=calculate_credential hmac mapSignature o challenge s.store slot i hf
    exact ⟨g,hg,rfl,rfl⟩
  apply h.withStore
  · intro i p f hprompt hp hf
    obtain ⟨g,hg,hsecret,-⟩:=hbefore i f hf
    obtain ⟨q,hq,hsame⟩:=h.prompt i hprompt
    rw [hp] at hq
    cases hq
    exact hsecret.trans (hsame g hg)
  · intro i c f harmed hc hf
    obtain ⟨g,hg,hsecret,-⟩:=hbefore i f hf
    obtain ⟨d,hd,-,-,hsame⟩:=h.armed i harmed
    rw [hc] at hd
    cases hd
    exact hsecret.trans (hsame g hg)
  · intro i e f hholds hf
    obtain ⟨g,hg,hsecret,hflags⟩:=hbefore i f hf
    obtain ⟨hsame,hflag⟩:=h.held i e hholds g hg
    exact ⟨hsecret.trans hsame,hflags.trans hflag⟩

theorem Sound.released (h : Sound s) {job : Job} {used : Option (Confirmation × ℕ)} {all : Bool} {entry : OathEntry}
    {code : ByteArr 4 × UInt8} (hspent : (used.map fun p=>p.1.number).toList=s.job.spent) (hfree : job.Free)
    (htouched : all=false → flagged entry=true → Covers entry used) (hall : all=true → flagged entry=false) :
    Sound {s with job,released:=s.released++[⟨entry,code,used,all⟩]} where
  confirmed:={
    touched:=by
      intro r hr
      rcases List.mem_append.mp hr with hr | hr
      · exact h.confirmed.touched r hr
      · rw [List.mem_singleton.mp hr]
        exact htouched
    once:=by
      rw [usedUp_append,hspent]
      exact h.spent
    all:=by
      intro r hr
      rcases List.mem_append.mp hr with hr | hr
      · exact h.confirmed.all r hr
      · rw [List.mem_singleton.mp hr]
        exact hall }
  spent:=by
    rw [usedUp_append,hspent,hfree.spent,List.append_nil]
    exact h.spent
  numbered:=by
    rw [usedUp_append,hspent,hfree.spent,List.append_nil]
    exact h.numbered
  prompt:=h.prompt
  armed:=h.armed
  fresh c harmed hc:=by
    rw [usedUp_append,hspent,hfree.spent,List.append_nil]
    exact h.fresh c harmed hc
  held i e hholds:=absurd hholds (hfree.holds i e)
  promptHeld i e p hholds:=absurd hholds (hfree.holds i e)
  armedHeld i e c hholds:=absurd hholds (hfree.holds i e)
  computing challenge i e used heq:=absurd heq (hfree.computing challenge i e used)
  unflagged challenge i e heq:=absurd heq (hfree.listed challenge i e)

theorem Sound.calculating (h : Sound s) (o : CalcOutcome) {used : Option (Confirmation × ℕ)} {all : Bool} {job : Job}
    (hspent : (used.map fun p=>p.1.number).toList=s.job.spent) (hfree : job.Free)
    (htouched : ∀ f, credential s.store.chip slot=some f→all=false → flagged f=true → Covers f used)
    (hall : ∀ f, credential s.store.chip slot=some f→all=true → flagged f=false) :
    Sound (s.calculating hmac mapSignature o slot challenge used all job):=by
  have hstore:=h.calculated hmac mapSignature o slot challenge
  have hcode (code : ByteArr 4 × UInt8) (store : Store):=
    @calculate_some slot hmac mapSignature o challenge s.store store code
  unfold State.calculating
  revert hstore hcode
  generalize calculateForChallenge hmac mapSignature o slot challenge s.store=reply
  intro hstore hcode
  match reply with
  | (.error _,store)=>exact h.lost store
  | (.ok none,store)=>
    exact hstore.free hfree
  | (.ok (some code),store)=>
    obtain ⟨f,hf⟩:=hcode code store rfl
    dsimp only
    rw [hf]
    exact hstore.released hspent hfree (htouched f hf) (hall f hf)

theorem Sound.asking (h : Sound s) {e : OathEntry} (hjob : s.job=.touching challenge slot e) :
    Sound (asking s challenge slot e):=by
  have hholds : s.job.Holds slot e:=by
    rw [hjob]
    exact ⟨rfl,rfl⟩
  have hspent : s.job.spent=[]:=by rw [hjob]; rfl
  unfold OathTouch.asking
  split
  · rename_i hok
    have harmed : s.touch.Armed s.nowUs slot:=by
      by_contra hnot
      simp [beTouchOk,hnot] at hok
    obtain ⟨c,hc,htime,huntil,-⟩:=h.armed slot harmed
    obtain ⟨hlt,hnew⟩:=h.fresh c (by simp [harmed.1]) hc
    rw [hspent,List.append_nil] at hnew
    have htouch : (beTouchOk s.nowUs slot s.touch).2={s.touch with armedSlot:=none}:=by simp [beTouchOk,harmed]
    have hcovers : Covers e (some (c,s.nowUs)):=by
      refine ⟨c,s.nowUs,rfl,h.armedHeld slot e c hholds harmed hc,htime,?_⟩
      rw [← huntil]
      exact harmed.2
    rw [htouch,hc]
    constructor
    case confirmed=>exact h.confirmed
    case spent=>
      show (usedUp s.released++[c.number]).Nodup
      rw [List.nodup_append]
      refine ⟨h.confirmed.once,List.nodup_singleton _,?_⟩
      rintro n hn m hm rfl
      rw [List.mem_singleton.mp hm] at hn
      exact hnew hn
    case numbered=>
      intro n hn
      rcases List.mem_append.mp hn with hn | hn
      · exact h.numbered n (List.mem_append_left _ hn)
      · rw [List.mem_singleton.mp hn]
        exact hlt
    case prompt=>exact h.prompt
    case armed=>rintro i ⟨⟨⟩,-⟩
    case fresh=>
      intro d hd
      exact absurd rfl hd
    case held=>
      rintro i f ⟨rfl,rfl⟩
      exact h.held slot e hholds
    case promptHeld=>
      rintro i f p ⟨rfl,rfl⟩
      exact h.promptHeld slot e p hholds
    case armedHeld=>rintro i f d - ⟨⟨⟩,-⟩
    case computing=>
      intro challenge' i f used heq hflagged
      cases heq
      exact hcovers
    case unflagged=>
      intro challenge' i f heq
      cases heq
  · rename_i hok
    have hnot : ¬s.touch.Armed s.nowUs slot:=by
      intro harmed
      simp [beTouchOk,harmed] at hok
    have hidle:=h.free (j:=.idle) trivial
    by_cases hprompt : s.touch.promptSlot=none
    · have htouch : (beTouchOk s.nowUs slot s.touch).2={s.touch with promptSlot:=some slot}:=by
        simp [beTouchOk,hnot,hprompt]
      rw [htouch,if_pos hprompt]
      constructor
      case confirmed=>exact hidle.confirmed
      case spent=>exact hidle.spent
      case numbered=>exact hidle.numbered
      case prompt=>
        rintro i ⟨⟩
        exact ⟨e,rfl,fun f hf=>(h.held slot e hholds f hf).1⟩
      case armed=>exact hidle.armed
      case fresh=>exact hidle.fresh
      case held=>exact fun i f hf=>hf.elim
      case promptHeld=>exact fun i f p hf=>hf.elim
      case armedHeld=>exact fun i f c hf=>hf.elim
      case computing=>rintro _ _ _ _ ⟨⟩
      case unflagged=>rintro _ _ _ ⟨⟩
    · have htouch : (beTouchOk s.nowUs slot s.touch).2=s.touch:=by simp [beTouchOk,hnot,hprompt]
      rw [htouch,if_neg hprompt]
      exact hidle

theorem Sound.next (h : Sound s) (read : SeOutcome) (calculation : CalcOutcome) :
    Sound (next hmac mapSignature s read calculation):=by
  unfold OathTouch.next
  cases hjob : s.job with
  | idle=>exact h
  | looking name challenge slot=>
    dsimp only
    split
    · exact h.free trivial
    · refine h.reading challenge ?_ ?_
      · split <;> trivial
      · intro e
        left
        split <;> trivial
  | found challenge slot=>
    refine h.reading challenge trivial ?_
    intro e
    dsimp only
    cases hflag : flagged e with
    | true=>exact Or.inr (Or.inl rfl)
    | false=>exact Or.inr (Or.inr ⟨rfl,Or.inl rfl⟩)
  | touching challenge slot e=>exact h.asking hjob
  | computing challenge slot e used=>
    have hholds : s.job.Holds slot e:=by
      rw [hjob]
      exact ⟨rfl,rfl⟩
    refine h.calculating calculation ?_ trivial ?_ ?_
    · rw [hjob]
      rcases used with _ | ⟨c,usedUs⟩ <;> rfl
    · intro f hf _ hflagged
      obtain ⟨hsecret,hflag⟩:=h.held slot e hholds f hf
      rw [hflag] at hflagged
      obtain ⟨c,usedUs,hused,hsame,htime⟩:=h.computing challenge slot e used hjob hflagged
      exact ⟨c,usedUs,hused,hsame.trans hsecret.symm,htime⟩
    · rintro f - ⟨⟩
  | listing challenge slot=>
    dsimp only
    split
    · exact h.free trivial
    · refine h.reading challenge trivial ?_
      intro e
      dsimp only
      split
      · rename_i hlistable
        simp only [listable,Bool.and_eq_true,Bool.not_eq_true'] at hlistable
        exact Or.inr (Or.inr ⟨hlistable.2,Or.inr rfl⟩)
      · exact Or.inl trivial
  | listed challenge slot e=>
    have hholds : s.job.Holds slot e:=by
      rw [hjob]
      exact ⟨rfl,rfl⟩
    refine h.calculating calculation ?_ trivial ?_ ?_
    · rw [hjob]
      rfl
    · rintro f - ⟨⟩
    · intro f hf _
      rw [(h.held slot e hholds f hf).2]
      exact h.unflagged challenge slot e hjob

theorem Sound.step (h : Sound s) {ev : Event} (hspares : Spares s ev) : Sound (step hmac mapSignature s ev):=by
  cases ev with
  | calculate name challenge=>
    unfold OathTouch.step
    dsimp only
    split
    · exact h.free trivial
    · exact h
  | calculateAll challenge=>
    unfold OathTouch.step
    dsimp only
    split
    · exact h.free trivial
    · exact h
  | next read calculation=>exact h.next read calculation
  | confirm=>
    constructor
    case confirmed=>exact h.confirmed
    case spent=>exact h.spent
    case numbered=>exact fun n hn=>(h.numbered n hn).trans (Nat.lt_succ_self _)
    case prompt=>rintro i ⟨⟩
    case armed=>
      rintro i ⟨harmed,-⟩
      obtain ⟨p,hp,hsecret⟩:=h.prompt i harmed
      exact ⟨⟨s.confirmations,s.nowUs,p⟩,by simp [OathTouch.step,hp],le_refl _,rfl,hsecret⟩
    case fresh=>
      intro c _ hc
      obtain ⟨p,-,rfl⟩:=Option.map_eq_some_iff.mp hc
      exact ⟨Nat.lt_succ_self _,fun hmem=>lt_irrefl _ (h.numbered _ hmem)⟩
    case held=>exact h.held
    case promptHeld=>rintro i e p - ⟨⟩
    case armedHeld=>
      rintro i e c hholds ⟨harmed,-⟩ hc
      obtain ⟨p,hp,rfl⟩:=Option.map_eq_some_iff.mp hc
      exact h.promptHeld i e p hholds harmed hp
    case computing=>exact h.computing
    case unflagged=>exact h.unflagged
  | cancel=>
    constructor
    case confirmed=>exact h.confirmed
    case spent=>exact h.spent
    case numbered=>exact h.numbered
    case prompt=>rintro i ⟨⟩
    case armed=>exact h.armed
    case fresh=>exact h.fresh
    case held=>exact h.held
    case promptHeld=>rintro i e p - ⟨⟩
    case armedHeld=>exact h.armedHeld
    case computing=>exact h.computing
    case unflagged=>exact h.unflagged
  | edit slot content=>
    apply h.withStore
    · intro i p f hprompt hp hf
      by_cases hi : i=slot
      · subst hi
        exact (hspares f hf).1 p hprompt hp
      · rw [credential_put_other hi] at hf
        obtain ⟨q,hq,hsame⟩:=h.prompt i hprompt
        rw [hp] at hq
        cases hq
        exact hsame f hf
    · intro i c f harmed hc hf
      by_cases hi : i=slot
      · subst hi
        exact (hspares f hf).2.1 c harmed hc
      · rw [credential_put_other hi] at hf
        obtain ⟨d,hd,-,-,hsame⟩:=h.armed i harmed
        rw [hc] at hd
        cases hd
        exact hsame f hf
    · intro i e f hholds hf
      by_cases hi : i=slot
      · subst hi
        exact (hspares f hf).2.2 e hholds
      · rw [credential_put_other hi] at hf
        exact h.held i e hholds f hf
  | wait us=>
    have hbefore (i : ℕ) (harmed : s.touch.Armed (s.nowUs+us) i) : s.touch.Armed s.nowUs i:=
      ⟨harmed.1,(Nat.le_add_right _ _).trans_lt harmed.2⟩
    constructor
    case confirmed=>exact h.confirmed
    case spent=>exact h.spent
    case numbered=>exact h.numbered
    case prompt=>exact h.prompt
    case armed=>
      intro i harmed
      obtain ⟨c,hc,htime,hrest⟩:=h.armed i (hbefore i harmed)
      exact ⟨c,hc,htime.trans (Nat.le_add_right _ _),hrest⟩
    case fresh=>exact h.fresh
    case held=>exact h.held
    case promptHeld=>exact h.promptHeld
    case armedHeld=>exact fun i e c hholds harmed=>h.armedHeld i e c hholds (hbefore i harmed)
    case computing=>exact h.computing
    case unflagged=>exact h.unflagged

end Steps

def start (store : Store) : State:={store}

theorem sound_start (store : Store) : Sound (start store) where
  confirmed:=⟨by rintro _ ⟨⟩,List.nodup_nil,by rintro _ ⟨⟩⟩
  spent:=List.nodup_nil
  numbered n hn:=by cases hn
  prompt slot hprompt:=by cases hprompt
  armed slot harmed:=by cases harmed.1
  fresh c harmed:=absurd rfl harmed
  held slot e hholds:=hholds.elim
  promptHeld slot e p hholds:=hholds.elim
  armedHeld slot e c hholds:=hholds.elim
  computing challenge slot e used hj:=by cases hj
  unflagged challenge slot e hj:=by cases hj

/-- Where no slot gets another secret between its prompt and its code, every code has a confirmation of its own. -/
theorem touches_confirmed (hmac : Hmac) (mapSignature : UInt32) (store : Store) (es : List Event)
    (h : AlongRun (step hmac mapSignature) Spares (start store) es) :
    Confirmed (run (step hmac mapSignature) (start store) es).released:=
  Sound.confirmed (run_invariant (I:=Sound) (fun _ _ hspares hs=>hs.step hspares) (sound_start store) h)

def plainHmac : Hmac:=fun a key data=>fit a.digestSize (key++data)

def touchAccount (name secret : Bytes) : Account where
  type:=otypeTotp
  name:=name
  issuer:=[]
  secret:=secret
  digits:=6
  period:=30
  algorithm:=0
  counter:=0
  flags:=oflagTouch

def holding (a : Account) : Store where
  chip:={ecc:=fun _=>none,rmem:=fun slot=>if slot=31 then some (stored a) else none}

def askEvents (name : Bytes) (challenge : ByteArr 8) : List Event:=
  .calculate name challenge::List.replicate 3 (.next .done {})

def touchEvents : List Event:=
  askEvents [0x61] (zeros 8)++[.confirm,.wait 1]++askEvents [0x61] (zeros 8)++[.next .done {}]

theorem touches_confirmed_once :
    Confirmed (run (step plainHmac 0) (start (holding (touchAccount [0x61] [1]))) touchEvents).released:=by
  apply touches_confirmed
  exact ⟨trivial,trivial,trivial,trivial,trivial,trivial,trivial,trivial,trivial,trivial,trivial,trivial⟩

/-- While the screen asks for one credential, its slot gets another, whose code is then given out. -/
def swapEvents : List Event:=
  askEvents [0x61] (zeros 8)++[.edit 0 none,.edit 0 (some (stored (touchAccount [0x62] [2]))),.confirm] ++
    askEvents [0x62] (zeros 8)++[.next .done {}]

theorem touch_moved : ¬ ∀ es, Confirmed (run (step plainHmac 0) (start (holding (touchAccount [0x61] [1]))) es).released:=by
  intro h
  have hconfirmed:=h swapEvents
  have hreleased : ((run (step plainHmac 0) (start (holding (touchAccount [0x61] [1]))) swapEvents).released.map
      fun r=>(r.entry.secret,r.used.map (·.1.entry.secret),r.all,flagged r.entry)) =
      [([2],some [1],false,true)]:=by
    decide +kernel
  revert hconfirmed hreleased
  generalize (run (step plainHmac 0) (start (holding (touchAccount [0x61] [1]))) swapEvents).released=released
  intro hconfirmed hreleased
  obtain ⟨r,rfl,hr⟩:=List.map_eq_singleton_iff.mp hreleased
  simp only [Prod.mk.injEq] at hr
  obtain ⟨hsecret,hused,hall,hflag⟩:=hr
  obtain ⟨c,usedUs,hc,hsame,-⟩:=hconfirmed.touched r (List.mem_singleton_self r) hall hflag
  rw [hc] at hused
  rw [Option.map_some,Option.some.injEq,hsame,hsecret] at hused
  cases hused

end CdcBadge.OathTouch
