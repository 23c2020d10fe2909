import CdcBadge.PluginFeatures

/-!
# Where payloads and statuses of feature jobs go

The handler of a job is looked up by the name of its feature alone. As long as the only handler of that name
is the resolved provider's, and payloads are asked for only by the plugin that they are being delivered to,
every payload goes to the provider and every status to the caller.
-/

namespace CdcBadge.Plugin.Feature

open Runs

def Delivery.isStatusOf (u : ℕ) : Delivery→Bool
  | .status v _ _ _=>u == v
  | _=>false

/-- Payloads reach the provider that was resolved for them, and each accepted use has at most one status, which reaches
the instance that made it. -/
structure Routed (s : State) : Prop where
  handed : ∀ u p a n, Delivery.handed u p a n∈s.log→∃ x, s.uses[u]? = some x ∧ p.id=x.provider
  consumed : ∀ u p bytes, Delivery.consumed u p bytes∈s.log →
    ∃ x, s.uses[u]? = some x ∧ p.id=x.provider ∧ bytes <+: x.data
  status : ∀ u p a st, Delivery.status u p a st∈s.log →
    ∃ x, s.uses[u]? = some x ∧ p.serial=x.caller.serial ∧ a=x.statusActionId
  once : ∀ u, s.log.countP (Delivery.isStatusOf u) ≤ 1

/-- The provider answers, fails to start or to have a handler, or unloads with the job in hand. -/
def EndsJob (s : State) : Event→Prop
  | .result ptr _=>s.job.st=.delivered ∧ s.job.deliveredTo=some ptr ∧ (s.findPlugin ptr).isSome
  | .pumpStarted started=>∃ feature id, s.pump=.starting feature id ∧
      (started=false ∨ s.findHandlerByFeature feature=none)
  | .unload ptr=>s.job.st=.delivered ∧ s.job.deliveredTo=some ptr
  | _=>False

/-- The slot returns to idle, and the caller, if it is still loaded and asked for a status, gets one. -/
def Settles (s : State) (e : Event) : Prop:=
  EndsJob s e→(step s e).job.st=.idle ∧
    ∀ p∈s.plugins, s.job.caller=some p.ptr→p.listed=true → s.job.statusActionId≠0 →
      ∃ st, (step s e).log=s.log++[.status s.job.use p s.job.statusActionId st]

/-- The only handler for the feature of the job in hand is one of the provider that was resolved for it. -/
def Owned (s : State) : Prop:=
  s.job.st≠.idle→∀ i, ∀ h∈s.handlers i, h.feature=s.job.feature →
    (∃ p∈s.plugins, p.ptr=h.plugin ∧ p.id=s.job.providerId) ∧
      ∀ j, ∀ h'∈s.handlers j, h'.feature=s.job.feature→j=i

instance (s : State) : Decidable (Owned s):=by
  unfold Owned
  exact @instDecidableForall _ _ inferInstance inferInstance

/-- A payload is asked for only by the plugin that it is being delivered to, before it answers. -/
def AsksOwn (s : State) : Event→Prop
  | .consume ptr _ _=>s.current=none ∨ s.pump=.delivering ptr ∧ s.job.st=.delivered
  | _=>True

instance (s : State) (e : Event) : Decidable (AsksOwn s e):=by
  cases e <;> unfold AsksOwn <;> infer_instance

def Proper (s : State) (e : Event) : Prop:=Owned s ∧ AsksOwn s e

instance (s : State) (e : Event) : Decidable (Proper s e):=inferInstanceAs (Decidable (_ ∧ _))

/-- The caller of the job is the instance whose use it is. -/
structure Called (s : State) (c : ℕ) : Prop where
  busy : s.job.st≠.idle
  apart : s.job.callerId≠s.job.providerId
  plugin : ∃ p∈s.plugins, p.ptr=c ∧ p.id=s.job.callerId ∧
    ∃ x, s.uses[s.job.use]? = some x ∧ p.serial=x.caller.serial ∧ s.job.statusActionId=x.statusActionId

structure Sound (s : State) : Prop where
  named : ∀ p∈s.plugins, p.id≠[]
  ptrs : (s.plugins.map (·.ptr)).Nodup
  held : ∀ i h, s.handlers i=some h→∃ p∈s.plugins, p.ptr=h.plugin
  use : s.job.st≠.idle→∃ x, s.uses[s.job.use]? = some x ∧ x.provider=s.job.providerId ∧ x.data=s.job.data
  unanswered : s.job.st≠.idle → s.log.countP (Delivery.isStatusOf s.job.use)=0
  caller : ∀ c, s.job.caller=some c → Called s c
  delivered : s.job.st=.delivered →
    ∃ i h, s.handlers i=some h ∧ h.feature=s.job.feature ∧ s.job.deliveredTo=some h.plugin
  delivering : ∀ q, s.pump=.delivering q → s.job.st=.delivered →
    s.current=some ⟨s.job.feature,s.job.data.length,s.job.use⟩ ∧ s.job.deliveredTo=some q
  current : s.current≠none→∃ q, s.pump=.delivering q
  starting : ∀ f id, s.pump=.starting f id → s.job.st=.stashed ∧ s.job.feature=f
  known : ∀ u, s.uses.length ≤ u → s.log.countP (Delivery.isStatusOf u)=0

section Searches

variable {s t : State} {ptr : ℕ} {p : Loaded} {feature : Name} {i : Fin maxHandlers}

theorem findPlugin_some (h : s.findPlugin ptr=some p) : p∈s.plugins ∧ p.ptr=ptr:=
  ⟨List.mem_of_find?_eq_some h,by simpa using List.find?_some h⟩

theorem dispatchTarget_some (h : s.dispatchTarget ptr=some p) : p∈s.plugins ∧ p.listed=true ∧ p.ptr=ptr:=by
  have hfound:=List.find?_some h
  simp only [Bool.and_eq_true,beq_iff_eq] at hfound
  exact ⟨List.mem_of_find?_eq_some h,hfound⟩

theorem Sound.same (h : Sound s) {q : Loaded} (hp : p∈s.plugins) (hq : q∈s.plugins) (heq : p.ptr=q.ptr) : p=q:=
  List.inj_on_of_nodup_map h.ptrs hp hq heq

theorem Sound.dispatchTarget (h : Sound s) (hp : p∈s.plugins) (hlisted : p.listed=true) :
    s.dispatchTarget p.ptr=some p:=by
  cases hfound : s.dispatchTarget p.ptr with
  | none=>
    unfold State.dispatchTarget at hfound
    rw [List.find?_eq_none] at hfound
    exact absurd (by simp [hlisted]) (hfound p hp)
  | some q=>
    obtain ⟨hq,-,hptr⟩:=dispatchTarget_some hfound
    rw [h.same hq hp hptr]

theorem findHandlerByFeature_some (h : s.findHandlerByFeature feature=some i) :
    ∃ x, s.handlers i=some x ∧ x.feature=feature:=by
  have hfound:=List.find?_some h
  rw [Option.any_eq_true] at hfound
  obtain ⟨x,hx,hfeature⟩:=hfound
  exact ⟨x,hx,by simpa using hfeature⟩

theorem findHandlerByFeature_none (h : s.findHandlerByFeature feature=none) {x : FeatureHandler}
    (hx : s.handlers i=some x) : x.feature≠feature:=by
  unfold State.findHandlerByFeature at h
  rw [List.find?_eq_none] at h
  have:=h i (List.mem_finRange i)
  rw [hx] at this
  simpa using this

end Searches

section Log

variable {s t : State}

theorem Routed.congr (h : Routed s) (huses : t.uses=s.uses) (hlog : t.log=s.log) : Routed t:=by
  obtain ⟨hhanded,hconsumed,hstatus,honce⟩:=h
  constructor
  · rw [huses,hlog]
    exact hhanded
  · rw [huses,hlog]
    exact hconsumed
  · rw [huses,hlog]
    exact hstatus
  · rw [hlog]
    exact honce

/-- What `Routed` says of one delivery. -/
def State.Routes (s : State) : Delivery→Prop
  | .handed u p _ _=>∃ x, s.uses[u]? = some x ∧ p.id=x.provider
  | .consumed u p bytes=>∃ x, s.uses[u]? = some x ∧ p.id=x.provider ∧ bytes <+: x.data
  | .status u p a _=>∃ x, s.uses[u]? = some x ∧ p.serial=x.caller.serial ∧ a=x.statusActionId

theorem Routed.note (h : Routed s) {d : Delivery} (hd : s.Routes d)
    (hfirst : ∀ u, d.isStatusOf u=true→s.log.countP (Delivery.isStatusOf u)=0) : Routed (s.note d):=by
  have hlog : ∀ {e}, e∈(s.note d).log→e∈s.log ∨ e=d:=fun hmem=>
    (List.mem_append.mp hmem).imp_right List.mem_singleton.mp
  constructor
  · intro u p a n hmem
    rcases hlog hmem with hmem | rfl
    · exact h.handed u p a n hmem
    · exact hd
  · intro u p bytes hmem
    rcases hlog hmem with hmem | rfl
    · exact h.consumed u p bytes hmem
    · exact hd
  · intro u p a st hmem
    rcases hlog hmem with hmem | rfl
    · exact h.status u p a st hmem
    · exact hd
  · intro u
    show (s.log++_).countP _ ≤ 1
    rw [List.countP_append,List.countP_singleton]
    split
    · rename_i hstatus
      rw [hfirst u hstatus]
    · exact h.once u

theorem reportToCaller_cases (s : State) (job : FeatureJob) (st : ℤ) :
    s.reportToCaller job st=s ∨ ∃ c p, job.caller=some c ∧ s.dispatchTarget c=some p ∧
      s.reportToCaller job st=s.note (.status job.use p job.statusActionId st):=by
  unfold State.reportToCaller
  cases hcaller : job.caller with
  | none=>exact Or.inl rfl
  | some c=>
    dsimp only
    split_ifs
    · exact Or.inl rfl
    · cases htarget : s.dispatchTarget c with
      | none=>exact Or.inl rfl
      | some p=>exact Or.inr ⟨c,p,rfl,htarget,rfl⟩

def State.unlogged (s : State) : State:={s with log:=[]}

theorem reportToCaller_unlogged (s : State) (job : FeatureJob) (st : ℤ) :
    (s.reportToCaller job st).unlogged=s.unlogged:=by
  rcases reportToCaller_cases s job st with h | ⟨c,p,-,-,h⟩
  · rw [h]
  · rw [h]
    rfl

section Frame

variable (s : State) (job : FeatureJob) (st : ℤ)

@[simp] theorem reportToCaller_plugins : (s.reportToCaller job st).plugins=s.plugins:=by
  show (s.reportToCaller job st).unlogged.plugins=s.plugins
  rw [reportToCaller_unlogged]
  rfl

@[simp] theorem reportToCaller_handlers : (s.reportToCaller job st).handlers=s.handlers:=by
  show (s.reportToCaller job st).unlogged.handlers=s.handlers
  rw [reportToCaller_unlogged]
  rfl

@[simp] theorem reportToCaller_job : (s.reportToCaller job st).job=s.job:=by
  show (s.reportToCaller job st).unlogged.job=s.job
  rw [reportToCaller_unlogged]
  rfl

@[simp] theorem reportToCaller_current : (s.reportToCaller job st).current=s.current:=by
  show (s.reportToCaller job st).unlogged.current=s.current
  rw [reportToCaller_unlogged]
  rfl

@[simp] theorem reportToCaller_pump : (s.reportToCaller job st).pump=s.pump:=by
  show (s.reportToCaller job st).unlogged.pump=s.pump
  rw [reportToCaller_unlogged]
  rfl

@[simp] theorem reportToCaller_uses : (s.reportToCaller job st).uses=s.uses:=by
  show (s.reportToCaller job st).unlogged.uses=s.uses
  rw [reportToCaller_unlogged]
  rfl

end Frame

/-- The end of a job: its caller's status is the first, and the only one that the log gains. -/
theorem Sound.answered (h : Sound s) (hr : Routed s) (hbusy : s.job.st≠.idle) {s₀ : State} (hplugins : s₀.plugins=s.plugins)
    (huses : s₀.uses=s.uses) (hlog : s₀.log=s.log) (st : ℤ) :
    Routed (s₀.reportToCaller s.job st) ∧
      (∀ u, s.uses.length ≤ u→(s₀.reportToCaller s.job st).log.countP (Delivery.isStatusOf u)=0) ∧
      ∀ p∈s.plugins, s.job.caller=some p.ptr→p.listed=true → s.job.statusActionId≠0 →
        (s₀.reportToCaller s.job st).log=s.log++[.status s.job.use p s.job.statusActionId st]:=by
  obtain ⟨x,hx,hprovider,-⟩:=h.use hbusy
  have hr₀ : Routed s₀:=hr.congr huses hlog
  have hshort : s.job.use < s.uses.length:=(List.getElem?_eq_some_iff.mp hx).1
  refine ⟨?_,?_,?_⟩
  · rcases reportToCaller_cases s₀ s.job st with hsame | ⟨c,p,hcaller,htarget,hsent⟩
    · rw [hsame]
      exact hr₀
    · obtain ⟨hp,-,hptr⟩:=dispatchTarget_some htarget
      obtain ⟨-,-,q,hq,hqptr,-,y,hy,hserial,haction⟩:=h.caller c hcaller
      rw [hplugins] at hp
      have hpq : p=q:=h.same hp hq (hptr.trans hqptr.symm)
      subst hpq
      rw [hsent]
      refine hr₀.note ⟨y,by rw [huses]; exact hy,hserial,haction⟩ fun u hu=>?_
      rw [eq_of_beq hu,hlog]
      exact h.unanswered hbusy
  · intro u hu
    rcases reportToCaller_cases s₀ s.job st with hsame | ⟨c,p,-,-,hsent⟩
    · rw [hsame,hlog]
      exact h.known u hu
    · rw [hsent]
      show (s₀.log++_).countP _=0
      have hno : Delivery.isStatusOf u (.status s.job.use p s.job.statusActionId st)=false:=by
        have hne : u≠s.job.use:=by omega
        simpa [Delivery.isStatusOf] using hne
      rw [List.countP_append,hlog,h.known u hu,List.countP_singleton,hno]
      rfl
  · intro p hp hcaller hlisted haction
    obtain ⟨-,-,q,hq,hqptr,hqid,-⟩:=h.caller p.ptr hcaller
    have hpq : q=p:=h.same hq hp hqptr
    subst hpq
    have hp₀ : q∈s₀.plugins:=by rwa [hplugins]
    have hloaded : s₀.isLoaded s.job.callerId=true:=by
      unfold State.isLoaded
      rw [List.any_eq_true]
      exact ⟨q,hp₀,by simp [hlisted,hqid]⟩
    have htarget : s₀.dispatchTarget q.ptr=some q:=by
      have hsame : s₀.dispatchTarget q.ptr=s.dispatchTarget q.ptr:=by
        unfold State.dispatchTarget
        rw [hplugins]
      rw [hsame]
      exact h.dispatchTarget hp hlisted
    have hnamed : s.job.callerId.isEmpty=false:=by
      rw [← hqid]
      simpa using h.named q hp
    unfold State.reportToCaller
    rw [hcaller]
    simp only [hnamed,hloaded,htarget,haction,decide_false,Bool.not_true,Bool.or_self,Bool.false_eq_true,if_false]
    exact congrArg (· ++ _) hlog

theorem Sound.idle (h : Sound s) (hplugins : t.plugins.Sublist s.plugins) (hjob : t.job={})
    (hheld : ∀ i x, t.handlers i=some x→∃ p∈t.plugins, p.ptr=x.plugin)
    (hcurrent : t.current≠none→∃ q, t.pump=.delivering q) (hstarting : ∀ f id, t.pump≠.starting f id)
    (hknown : ∀ u, t.uses.length ≤ u→t.log.countP (Delivery.isStatusOf u)=0) : Sound t:=by
  have hidle : t.job.st=.idle:=by rw [hjob]
  constructor
  · exact fun p hp=>h.named p (hplugins.subset hp)
  · exact h.ptrs.sublist (hplugins.map _)
  · exact hheld
  · exact fun hbusy=>absurd hidle hbusy
  · exact fun hbusy=>absurd hidle hbusy
  · intro c hc
    rw [hjob] at hc
    cases hc
  · intro hdelivered
    rw [hidle] at hdelivered
    cases hdelivered
  · intro q _ hdelivered
    rw [hidle] at hdelivered
    cases hdelivered
  · exact hcurrent
  · exact fun f id hpump=>absurd hpump (hstarting f id)
  · exact hknown

theorem Sound.ended (h : Sound s) (hr : Routed s) (hbusy : s.job.st≠.idle) (s₀ : State) (hplugins₀ : s₀.plugins=s.plugins)
    (huses₀ : s₀.uses=s.uses) (hlog₀ : s₀.log=s.log) (st : ℤ) (hplugins : t.plugins.Sublist s.plugins) (hjob : t.job={})
    (huses : t.uses=s.uses) (hlog : t.log=(s₀.reportToCaller s.job st).log)
    (hheld : ∀ i x, t.handlers i=some x→∃ p∈t.plugins, p.ptr=x.plugin)
    (hcurrent : t.current≠none→∃ q, t.pump=.delivering q) (hstarting : ∀ f id, t.pump≠.starting f id) :
    Sound t ∧ Routed t ∧ t.job.st=.idle ∧
      ∀ p∈s.plugins, s.job.caller=some p.ptr→p.listed=true → s.job.statusActionId≠0 →
        ∃ st, t.log=s.log++[.status s.job.use p s.job.statusActionId st]:=by
  obtain ⟨hrouted,hknown,hsent⟩:=h.answered hr hbusy hplugins₀ huses₀ hlog₀ st
  refine ⟨?_,?_,by rw [hjob],?_⟩
  · apply h.idle hplugins hjob hheld hcurrent hstarting
    rw [huses,hlog]
    exact hknown
  · apply hrouted.congr _ hlog
    rw [huses,reportToCaller_uses,huses₀]
  · intro p hp hcaller hlisted haction
    exact ⟨st,hlog.trans (hsent p hp hcaller hlisted haction)⟩

end Log

/-- What a step leaves. -/
structure Kept (s : State) (e : Event) : Prop where
  sound : Sound (step s e)
  routed : Routed (step s e)
  settles : Settles s e

section Steps

variable {s : State}

theorem Sound.handler (h : Sound s) (howned : Owned s) (hdelivered : s.job.st=.delivered) :
    ∃ i x, s.findHandlerByFeature s.job.feature=some i ∧ s.handlers i=some x ∧ s.job.deliveredTo=some x.plugin:=by
  obtain ⟨i,x,hx,hfeature,hto⟩:=h.delivered hdelivered
  cases hfound : s.findHandlerByFeature s.job.feature with
  | none=>exact absurd hfeature (findHandlerByFeature_none hfound hx)
  | some j=>
    obtain ⟨y,hy,hyfeature⟩:=findHandlerByFeature_some hfound
    have hbusy : s.job.st≠.idle:=by rw [hdelivered]; decide
    obtain rfl:=(howned hbusy i x hx hfeature).2 j y hy hyfeature
    exact ⟨j,x,rfl,hx,hto⟩

theorem kept_result (h : Sound s) (hr : Routed s) (howned : Owned s) (ptr : ℕ) (status : ℤ) : Kept s (.result ptr status):=by
  have hsame : (s.result ptr status).2=s ∨
      s.job.st=.delivered ∧ (s.result ptr status).2=s.freeJob.reportToCaller s.job status:=by
    unfold State.result
    split
    · exact Or.inl rfl
    · split_ifs with hst
      · exact Or.inl rfl
      · split
        · exact Or.inl rfl
        · split_ifs
          · exact Or.inl rfl
          · exact Or.inr ⟨not_not.mp hst,rfl⟩
  have hends : EndsJob s (.result ptr status)→(s.result ptr status).2=s.freeJob.reportToCaller s.job status:=by
    rintro ⟨hdelivered,hto,hp⟩
    obtain ⟨i,x,hfound,hx,hto'⟩:=h.handler howned hdelivered
    obtain ⟨p,hp⟩:=Option.isSome_iff_exists.mp hp
    have hptr : x.plugin=ptr:=Option.some.inj (hto'.symm.trans hto)
    unfold State.result
    rw [hp]
    dsimp only
    rw [if_neg (by simpa using hdelivered),hfound]
    dsimp only
    rw [if_neg (by simp [hx,hptr])]
  rcases hsame with hsame | ⟨hdelivered,hfreed⟩
  · refine ⟨by show Sound (s.result ptr status).2; rwa [hsame],by show Routed (s.result ptr status).2; rwa [hsame],?_⟩
    intro hend
    have hdelivered : s.job.st=.delivered:=hend.1
    have hfreed:=congrArg State.job (hends hend)
    rw [hsame,reportToCaller_job] at hfreed
    rw [hfreed] at hdelivered
    cases hdelivered
  · have hbusy : s.job.st≠.idle:=by rw [hdelivered]; decide
    have hstep : step s (.result ptr status)=s.freeJob.reportToCaller s.job status:=hfreed
    have hended:=h.ended hr hbusy s.freeJob rfl rfl rfl status (t:=s.freeJob.reportToCaller s.job status)
      (by rw [reportToCaller_plugins]; rfl) (by rw [reportToCaller_job]; rfl) (by rw [reportToCaller_uses]; rfl) rfl
    rw [← hstep] at hended
    obtain ⟨hsound,hrouted,hidle,hsent⟩:=hended
      (by rw [hstep,reportToCaller_handlers,reportToCaller_plugins]; exact h.held)
      (by rw [hstep,reportToCaller_current,reportToCaller_pump]; exact h.current) (by
        intro f id hstarting
        rw [hstep,reportToCaller_pump] at hstarting
        rw [(h.starting f id hstarting).1] at hdelivered
        cases hdelivered)
    exact ⟨hsound,hrouted,fun _=>⟨hidle,hsent⟩⟩

theorem Sound.noted (h : Sound s) {d : Delivery} (hd : ∀ u, d.isStatusOf u=false) : Sound (s.note d):=by
  have hcount : ∀ u, (s.note d).log.countP (Delivery.isStatusOf u)=s.log.countP (Delivery.isStatusOf u):=by
    intro u
    show (s.log++[d]).countP _=_
    rw [List.countP_append,List.countP_singleton,hd u]
    rfl
  constructor
  · exact h.named
  · exact h.ptrs
  · exact h.held
  · exact h.use
  · intro hbusy
    rw [hcount]
    exact h.unanswered hbusy
  · intro c hc
    obtain ⟨hbusy,hapart,hplugin⟩:=h.caller c hc
    exact ⟨hbusy,hapart,hplugin⟩
  · exact h.delivered
  · exact h.delivering
  · exact h.current
  · exact h.starting
  · intro u hu
    rw [hcount]
    exact h.known u hu

theorem kept_consume (h : Sound s) (hr : Routed s) (howned : Owned s) (ptr bufSize : ℕ) (garbage : Bytes)
    (hown : AsksOwn s (.consume ptr bufSize garbage)) : Kept s (.consume ptr bufSize garbage):=by
  have hsettles : Settles s (.consume ptr bufSize garbage):=fun hend=>hend.elim
  have hstep : step s (.consume ptr bufSize garbage)=s.consume ptr bufSize garbage:=rfl
  have hnone : s.consume ptr bufSize garbage=s→Kept s (.consume ptr bufSize garbage):=by
    intro hsame
    rw [hsame] at hstep
    exact ⟨by rwa [hstep],by rwa [hstep],hsettles⟩
  rcases hown with hcurrent | ⟨hpump,hdelivered⟩
  · apply hnone
    unfold State.consume
    rw [hcurrent]
    cases s.findPlugin ptr <;> rfl
  · obtain ⟨hcurrent,hto⟩:=h.delivering ptr hpump hdelivered
    cases hfound : s.findPlugin ptr with
    | none=>
      apply hnone
      unfold State.consume
      rw [hfound]
    | some p=>
      have hbusy : s.job.st≠.idle:=by rw [hdelivered]; decide
      obtain ⟨hp,hptr⟩:=findPlugin_some hfound
      obtain ⟨i,y,hy,hfeature,hto'⟩:=h.delivered hdelivered
      obtain ⟨⟨q,hq,hqptr,hqid⟩,-⟩:=howned hbusy i y hy hfeature
      have hplugin : y.plugin=ptr:=Option.some.inj (hto'.symm.trans hto)
      have hpq : p=q:=h.same hp hq (by rw [hptr,hqptr,hplugin])
      obtain ⟨x,hx,hprovider,hdata⟩:=h.use hbusy
      have hread : s.consume ptr bufSize garbage
          = s.note (.consumed s.job.use p (s.job.data.take (min s.job.data.length bufSize))):=by
        unfold State.consume
        rw [hfound,hcurrent]
        dsimp only
        rw [if_pos ⟨hdelivered,rfl⟩]
      rw [hread] at hstep
      constructor
      · rw [hstep]
        exact h.noted fun u=>rfl
      · rw [hstep]
        refine hr.note ⟨x,hx,?_,?_⟩ fun u hu=>by cases hu
        · rw [hpq,hqid,hprovider]
        · rw [hdata]
          exact List.take_prefix _ _
      · exact hsettles

theorem kept_pumpBegin (h : Sound s) (hr : Routed s) : Kept s .pumpBegin:=by
  have hsettles : Settles s .pumpBegin:=fun hend=>hend.elim
  have hstep : step s .pumpBegin=s.pumpBegin:=rfl
  unfold State.pumpBegin at hstep
  split_ifs at hstep with hbegin
  · obtain ⟨hresting,hstashed⟩:=hbegin
    constructor
    · rw [hstep]
      obtain ⟨hnamed,hptrs,hheld,huse,hunanswered,hcaller,hdelivered,-,hcurrent,-,hknown⟩:=h
      constructor
      · exact hnamed
      · exact hptrs
      · exact hheld
      · exact huse
      · exact hunanswered
      · intro c hc
        obtain ⟨hbusy,hapart,hplugin⟩:=hcaller c hc
        exact ⟨hbusy,hapart,hplugin⟩
      · exact hdelivered
      · intro q hq
        cases hq
      · intro hset
        obtain ⟨q,hq⟩:=hcurrent hset
        rw [hresting] at hq
        cases hq
      · intro f id hpump
        cases hpump
        exact ⟨hstashed,rfl⟩
      · exact hknown
    · rw [hstep]
      exact hr.congr rfl rfl
    · exact hsettles
  · exact ⟨by rwa [hstep],by rwa [hstep],hsettles⟩

theorem kept_pumpEnd (h : Sound s) (hr : Routed s) : Kept s .pumpEnd:=by
  have hsettles : Settles s .pumpEnd:=fun hend=>hend.elim
  have hstep : step s .pumpEnd=s.pumpEnd:=rfl
  unfold State.pumpEnd at hstep
  split at hstep
  · constructor
    · rw [hstep]
      obtain ⟨hnamed,hptrs,hheld,huse,hunanswered,hcaller,hdelivered,-,-,-,hknown⟩:=h
      constructor
      · exact hnamed
      · exact hptrs
      · exact hheld
      · exact huse
      · exact hunanswered
      · intro c hc
        obtain ⟨hbusy,hapart,hplugin⟩:=hcaller c hc
        exact ⟨hbusy,hapart,hplugin⟩
      · exact hdelivered
      · intro q hq
        cases hq
      · intro hset
        exact absurd rfl hset
      · intro f id hpump
        cases hpump
      · exact hknown
    · rw [hstep]
      exact hr.congr rfl rfl
    · exact hsettles
  · exact ⟨by rwa [hstep],by rwa [hstep],hsettles⟩

theorem Sound.plugins_kept (h : Sound s) {ps : List Loaded} (n : ℕ) (index : List (Name × Id)) (hnamed : ∀ p∈ps, p.id≠[])
    (hptrs : (ps.map (·.ptr)).Nodup)
    (hkept : ∀ p∈s.plugins, ∃ q∈ps, q.ptr=p.ptr ∧ q.id=p.id ∧ q.serial=p.serial) :
    Sound {s with plugins:=ps,nextSerial:=n,index:=index}:=by
  constructor
  · exact hnamed
  · exact hptrs
  · intro i x hx
    obtain ⟨p,hp,hptr⟩:=h.held i x hx
    obtain ⟨q,hq,hqptr,-,-⟩:=hkept p hp
    exact ⟨q,hq,hqptr.trans hptr⟩
  · exact h.use
  · exact h.unanswered
  · intro c hc
    obtain ⟨hbusy,hapart,p,hp,hptr,hid,x,hx,hserial,haction⟩:=h.caller c hc
    obtain ⟨q,hq,hqptr,hqid,hqserial⟩:=hkept p hp
    exact ⟨hbusy,hapart,q,hq,hqptr.trans hptr,hqid.trans hid,x,hx,hqserial.trans hserial,haction⟩
  · exact h.delivered
  · exact h.delivering
  · exact h.current
  · exact h.starting
  · exact h.known

theorem kept_load (h : Sound s) (hr : Routed s) (ptr : ℕ) (id : Id) (provides : List Name) : Kept s (.load ptr id provides):=by
  have hsettles : Settles s (.load ptr id provides):=fun hend=>hend.elim
  have hstep : step s (.load ptr id provides)=s.load ptr id provides:=rfl
  unfold State.load at hstep
  split_ifs at hstep with hrefused
  · exact ⟨by rwa [hstep],by rwa [hstep],hsettles⟩
  · obtain ⟨hid,hfree⟩:=not_or.mp hrefused
    have hfresh : ∀ p∈s.plugins, p.ptr≠ptr:=by
      intro p hp hptr
      apply hfree
      unfold State.findPlugin
      rw [List.find?_isSome]
      exact ⟨p,hp,by simp [hptr]⟩
    constructor
    · rw [hstep]
      apply h.plugins_kept
      · intro p hp
        rcases List.mem_append.mp hp with hp | hp
        · exact h.named p hp
        · cases List.mem_singleton.mp hp
          exact hid
      · rw [List.map_append,List.nodup_append]
        refine ⟨h.ptrs,by simp,?_⟩
        intro q hq q' hq'
        obtain ⟨p,hp,rfl⟩:=List.mem_map.mp hq
        obtain rfl : q'=ptr:=by simpa using hq'
        exact hfresh p hp
      · exact fun p hp=>⟨p,List.mem_append_left _ hp,rfl,rfl,rfl⟩
    · rw [hstep]
      exact hr.congr rfl rfl
    · exact hsettles

theorem kept_list (h : Sound s) (hr : Routed s) (ptr : ℕ) (listed : Bool) : Kept s (.list ptr listed):=by
  have hfields : ∀ p : Loaded, (if p.ptr=ptr then {p with listed:=listed} else p).ptr=p.ptr
      ∧ (if p.ptr=ptr then {p with listed:=listed} else p).id=p.id
      ∧ (if p.ptr=ptr then {p with listed:=listed} else p).serial=p.serial:=by
    intro p
    split_ifs <;> exact ⟨rfl,rfl,rfl⟩
  constructor
  · apply h.plugins_kept
    · intro p hp
      obtain ⟨q,hq,rfl⟩:=List.mem_map.mp hp
      rw [(hfields q).2.1]
      exact h.named q hq
    · rw [List.map_map]
      have hsame : ((fun p : Loaded=>p.ptr) ∘ fun p=>if p.ptr=ptr then {p with listed:=listed} else p)
          = fun p=>p.ptr:=by
        funext p
        exact (hfields p).1
      rw [hsame]
      exact h.ptrs
    · exact fun p hp=>⟨_,List.mem_map_of_mem hp,hfields p⟩
  · exact hr.congr rfl rfl
  · exact fun hend=>hend.elim

theorem kept_refresh (h : Sound s) (hr : Routed s) (installed : List Installed) : Kept s (.refresh installed):=
  ⟨h.plugins_kept _ _ h.named h.ptrs fun p hp=>⟨p,hp,rfl,rfl,rfl⟩,hr.congr rfl rfl,fun hend=>hend.elim⟩

theorem use_cases (s : State) (ptr : ℕ) (feature : Name) (payload : Option Bytes) (action : UInt32)
    (contended allocated : Bool) : (s.use ptr feature payload action contended allocated).2=s ∨
      ∃ data caller provider, s.findPlugin ptr=some caller ∧ provider≠caller.id ∧ s.job.st=.idle ∧
        (s.use ptr feature payload action contended allocated).2={ s with
          job:={ st:=.stashed,feature:=feature,providerId:=provider,caller:=some ptr,callerId:=caller.id,
                 statusActionId:=action,data:=data,use:=s.uses.length }
          uses:=s.uses++[{caller:=caller,provider:=provider,statusActionId:=action,data:=data}] }:=by
  unfold State.use
  split
  · exact Or.inl rfl
  · cases payload with
    | none=>exact Or.inl rfl
    | some data=>
      dsimp only
      split
      · exact Or.inl rfl
      · cases hcaller : s.findPlugin ptr with
        | none=>exact Or.inl rfl
        | some caller=>
          dsimp only
          cases s.featureProviderId feature contended with
          | none=>exact Or.inl rfl
          | some provider=>
            dsimp only
            split_ifs with hnamed hself hmemory hbusy
            · exact Or.inl rfl
            · exact Or.inl rfl
            · exact Or.inl rfl
            · exact Or.inl rfl
            · exact Or.inr ⟨data,caller,provider,rfl,hself,not_not.mp hbusy,rfl⟩

theorem Routed.use (h : Routed s) (x : Use) (job : FeatureJob) :
    Routed {s with job:=job,uses:=s.uses++[x]}:=by
  have hlater : ∀ (u : ℕ) y, s.uses[u]? = some y→(s.uses++[x])[u]? = some y:=by
    intro u y hy
    rw [List.getElem?_append_left (List.getElem?_eq_some_iff.mp hy).1]
    exact hy
  constructor
  · intro u p a n hmem
    obtain ⟨y,hy,hp⟩:=h.handed u p a n hmem
    exact ⟨y,hlater u y hy,hp⟩
  · intro u p bytes hmem
    obtain ⟨y,hy,hp⟩:=h.consumed u p bytes hmem
    exact ⟨y,hlater u y hy,hp⟩
  · intro u p a st hmem
    obtain ⟨y,hy,hp⟩:=h.status u p a st hmem
    exact ⟨y,hlater u y hy,hp⟩
  · exact h.once

theorem kept_use (h : Sound s) (hr : Routed s) (ptr : ℕ) (feature : Name) (payload : Option Bytes) (action : UInt32)
    (contended allocated : Bool) : Kept s (.use ptr feature payload action contended allocated):=by
  have hsettles : Settles s (.use ptr feature payload action contended allocated):=fun hend=>hend.elim
  have hstep : step s (.use ptr feature payload action contended allocated)
      = (s.use ptr feature payload action contended allocated).2:=rfl
  rcases use_cases s ptr feature payload action contended allocated with hsame | ⟨data,caller,provider,hcaller,hself,hidle,hnew⟩
  · rw [hsame] at hstep
    exact ⟨by rwa [hstep],by rwa [hstep],hsettles⟩
  · rw [hnew] at hstep
    obtain ⟨hmem,hptr⟩:=findPlugin_some hcaller
    constructor
    · rw [hstep]
      constructor
      · exact h.named
      · exact h.ptrs
      · exact h.held
      · exact fun _=>⟨_,List.getElem?_concat_length,rfl,rfl⟩
      · exact fun _=>h.known _ le_rfl
      · intro c hc
        obtain rfl:=Option.some.inj hc
        exact ⟨by simp,hself.symm,caller,hmem,hptr,rfl,_,List.getElem?_concat_length,rfl,rfl⟩
      · intro hdelivered
        cases hdelivered
      · intro q _ hdelivered
        cases hdelivered
      · exact h.current
      · intro f id hpump
        rw [(h.starting f id hpump).1] at hidle
        cases hidle
      · intro u hu
        rw [List.length_append] at hu
        exact h.known u (by omega)
    · rw [hstep]
      exact hr.use _ _
    · exact hsettles

/-- A registration takes a free slot, or the one that the plugin has for the feature. -/
theorem registerHandler_cases (s : State) (ptr : ℕ) (feature : Name) (action : UInt32) :
    (s.registerHandler ptr feature action).2=s ∨ ∃ i, (∃ p∈s.plugins, p.ptr=ptr) ∧
      (∀ x, s.handlers i=some x→x.plugin=ptr ∧ x.feature=feature) ∧
      (s.registerHandler ptr feature action).2
        = {s with handlers:=Function.update s.handlers i (some ⟨ptr,feature,action⟩)}:=by
  unfold State.registerHandler
  split
  · exact Or.inl rfl
  · cases hplugin : s.findPlugin ptr with
    | none=>exact Or.inl rfl
    | some p=>
      dsimp only
      split
      · exact Or.inl rfl
      · obtain ⟨hp,hptr⟩:=findPlugin_some hplugin
        cases hown : s.findHandler ptr feature with
        | some i=>
          refine Or.inr ⟨i,⟨p,hp,hptr⟩,?_,rfl⟩
          intro x hx
          have hfound:=List.find?_some hown
          rw [hx] at hfound
          simpa using hfound
        | none=>
          rw [Option.none_or]
          cases hempty : State.handlerSlots.find? fun i=>(s.handlers i).isNone with
          | none=>exact Or.inl rfl
          | some i=>
            refine Or.inr ⟨i,⟨p,hp,hptr⟩,?_,rfl⟩
            intro x hx
            have hfound:=List.find?_some hempty
            rw [hx] at hfound
            cases hfound

theorem kept_register (h : Sound s) (hr : Routed s) (ptr : ℕ) (feature : Name) (action : UInt32) :
    Kept s (.register ptr feature action):=by
  have hsettles : Settles s (.register ptr feature action):=fun hend=>hend.elim
  have hstep : step s (.register ptr feature action)=(s.registerHandler ptr feature action).2:=rfl
  rcases registerHandler_cases s ptr feature action with hsame | ⟨i,hplugin,hslot,hset⟩
  · rw [hsame] at hstep
    exact ⟨by rwa [hstep],by rwa [hstep],hsettles⟩
  · rw [hset] at hstep
    constructor
    · rw [hstep]
      constructor
      · exact h.named
      · exact h.ptrs
      · intro j x hx
        dsimp only at hx
        by_cases hj : j=i
        · subst hj
          rw [Function.update_self] at hx
          obtain rfl:=Option.some.inj hx
          exact hplugin
        · exact h.held j x (by rwa [Function.update_of_ne hj] at hx)
      · exact h.use
      · exact h.unanswered
      · intro c hc
        obtain ⟨hbusy,hapart,hcaller⟩:=h.caller c hc
        exact ⟨hbusy,hapart,hcaller⟩
      · intro hdelivered
        obtain ⟨j,x,hx,hfeature,hto⟩:=h.delivered hdelivered
        by_cases hj : j=i
        · subst hj
          obtain ⟨hxplugin,hxfeature⟩:=hslot x hx
          refine ⟨j,⟨ptr,feature,action⟩,Function.update_self ..,?_,?_⟩
          · exact hxfeature.symm.trans hfeature
          · rw [← hxplugin]
            exact hto
        · exact ⟨j,x,(Function.update_of_ne hj _ _).trans hx,hfeature,hto⟩
      · exact h.delivering
      · exact h.current
      · exact h.starting
      · exact h.known
    · rw [hstep]
      exact hr.congr rfl rfl
    · exact hsettles

theorem kept_pumpStarted (h : Sound s) (hr : Routed s) (howned : Owned s) (started : Bool) : Kept s (.pumpStarted started):=by
  have hstep : step s (.pumpStarted started)=s.pumpStarted started:=rfl
  by_cases hpump : ∃ feature id, s.pump=.starting feature id
  · obtain ⟨feature,id,hpump⟩:=hpump
    obtain ⟨hstashed,hfeature⟩:=h.starting feature id hpump
    have hbusy : s.job.st≠.idle:=by rw [hstashed]; decide
    have hnotset : s.current=none:=by
      by_contra hset
      obtain ⟨q,hq⟩:=h.current hset
      rw [hpump] at hq
      cases hq
    unfold State.pumpStarted at hstep
    rw [hpump] at hstep
    dsimp only at hstep
    rw [if_neg (by simpa using hstashed)] at hstep
    cases hhandler : if started then s.findHandlerByFeature feature else none with
    | none=>
      rw [hhandler] at hstep
      have hended:=h.ended hr hbusy s.freeJob rfl rfl rfl statusError (t:=step s (.pumpStarted started))
      rw [hstep] at hended
      obtain ⟨hsound,hrouted,hidle,hsent⟩:=hended (by simp [State.freeJob]) (by simp [State.freeJob])
        (by simp [State.freeJob]) rfl
        (by simpa [State.freeJob] using h.held) (by simp [State.freeJob,hnotset]) (by simp)
      rw [← hstep] at hsound hrouted hidle hsent
      exact ⟨hsound,hrouted,fun _=>⟨hidle,hsent⟩⟩
    | some i=>
      have hstarted : started=true:=by
        cases started with
        | true=>rfl
        | false=>cases hhandler
      rw [if_pos hstarted] at hhandler
      have hsettles : Settles s (.pumpStarted started):=by
        rintro ⟨f,id',hpump',hfails⟩
        rw [hpump] at hpump'
        cases hpump'
        rcases hfails with hfails | hfails
        · rw [hstarted] at hfails
          cases hfails
        · rw [hhandler] at hfails
          cases hfails
      obtain ⟨x,hx,hxfeature⟩:=findHandlerByFeature_some hhandler
      rw [if_pos hstarted,hhandler] at hstep
      dsimp only at hstep
      rw [hx] at hstep
      dsimp only at hstep
      have hsound : Sound { s with
          job:={s.job with st:=.delivered,deliveredTo:=some x.plugin}
          current:=some ⟨s.job.feature,s.job.data.length,s.job.use⟩
          pump:=.delivering x.plugin }:=by
        constructor
        · exact h.named
        · exact h.ptrs
        · exact h.held
        · exact fun _=>h.use hbusy
        · exact fun _=>h.unanswered hbusy
        · intro c hc
          obtain ⟨-,hapart,hplugin⟩:=h.caller c hc
          exact ⟨by simp,hapart,hplugin⟩
        · exact fun _=>⟨i,x,hx,hxfeature.trans hfeature.symm,rfl⟩
        · intro q hq _
          cases hq
          exact ⟨rfl,rfl⟩
        · exact fun _=>⟨x.plugin,rfl⟩
        · intro f id' hpump'
          cases hpump'
        · exact h.known
      cases htarget : s.dispatchTarget x.plugin with
      | none=>
        rw [htarget] at hstep
        dsimp only at hstep
        exact ⟨by rwa [hstep],by rw [hstep]; exact hr.congr rfl rfl,hsettles⟩
      | some p=>
        rw [htarget] at hstep
        dsimp only at hstep
        constructor
        · rw [hstep]
          exact hsound.noted fun u=>rfl
        · rw [hstep]
          obtain ⟨y,hy,hprovider,-⟩:=h.use hbusy
          obtain ⟨⟨q,hq,hqptr,hqid⟩,-⟩:=howned hbusy i x hx (hxfeature.trans hfeature.symm)
          obtain ⟨hp,-,hptr⟩:=dispatchTarget_some htarget
          have hpq : p=q:=h.same hp hq (hptr.trans hqptr.symm)
          have hrouted : Routed { s with
              job:={s.job with st:=.delivered,deliveredTo:=some x.plugin}
              current:=some ⟨s.job.feature,s.job.data.length,s.job.use⟩
              pump:=.delivering x.plugin }:=hr.congr rfl rfl
          refine hrouted.note ⟨y,hy,?_⟩ fun u hu=>by cases hu
          rw [hpq,hqid,hprovider]
        · exact hsettles
  · have hsame : s.pumpStarted started=s:=by
      unfold State.pumpStarted
      cases hp : s.pump with
      | resting=>rfl
      | starting f id=>exact absurd ⟨f,id,hp⟩ hpump
      | delivering q=>rfl
    rw [hsame] at hstep
    exact ⟨by rwa [hstep],by rwa [hstep],fun ⟨f,id,hp,_⟩=>absurd ⟨f,id,hp⟩ hpump⟩

theorem Sound.orphaned (h : Sound s) : Sound {s with job:={s.job with caller:=none,callerId:=[],statusActionId:=0}}:=by
  constructor
  · exact h.named
  · exact h.ptrs
  · exact h.held
  · exact h.use
  · exact h.unanswered
  · intro c hc
    cases hc
  · exact h.delivered
  · exact h.delivering
  · exact h.current
  · exact h.starting
  · exact h.known

/-- A plugin that neither calls nor handles what is delivered leaves with its handlers. -/
theorem Sound.gone (h : Sound s) (ptr : ℕ) (hcaller : s.job.caller≠some ptr)
    (hprovider : s.job.st=.delivered → s.job.deliveredTo≠some ptr) :
    Sound { s with
      handlers:=fun i=>(s.handlers i).filter (·.plugin != ptr)
      plugins:=s.plugins.filter (·.ptr != ptr) }:=by
  constructor
  · exact fun p hp=>h.named p (List.mem_of_mem_filter hp)
  · exact h.ptrs.sublist (List.filter_sublist.map _)
  · intro i x hx
    obtain ⟨hx,hother⟩:=Option.filter_eq_some_iff.mp hx
    obtain ⟨p,hp,hptr⟩:=h.held i x hx
    exact ⟨p,List.mem_filter.mpr ⟨hp,by rw [hptr]; exact hother⟩,hptr⟩
  · exact h.use
  · exact h.unanswered
  · intro c hc
    obtain ⟨hbusy,hapart,p,hp,hptr,hrest⟩:=h.caller c hc
    have hother : p.ptr≠ptr:=by
      intro heq
      exact hcaller (hc.trans (congrArg some (hptr.symm.trans heq)))
    exact ⟨hbusy,hapart,p,List.mem_filter.mpr ⟨hp,by simpa using hother⟩,hptr,hrest⟩
  · intro hdelivered
    obtain ⟨i,x,hx,hfeature,hto⟩:=h.delivered hdelivered
    have hother : x.plugin≠ptr:=fun heq=>hprovider hdelivered (by rw [← heq]; exact hto)
    exact ⟨i,x,Option.filter_eq_some_iff.mpr ⟨hx,by simpa using hother⟩,hfeature,hto⟩
  · exact h.delivering
  · exact h.current
  · exact h.starting
  · exact h.known

theorem Sound.apart (h : Sound s) (howned : Owned s) (hdelivered : s.job.st=.delivered) {c : ℕ}
    (hcaller : s.job.caller=some c) : s.job.deliveredTo≠some c:=by
  intro hto
  obtain ⟨hbusy,hapart,p,hp,hptr,hid,-⟩:=h.caller c hcaller
  obtain ⟨i,x,hx,hfeature,hto'⟩:=h.delivered hdelivered
  obtain ⟨⟨q,hq,hqptr,hqid⟩,-⟩:=howned hbusy i x hx hfeature
  have hplugin : x.plugin=c:=Option.some.inj (hto'.symm.trans hto)
  have hpq : p=q:=h.same hp hq (by rw [hptr,hqptr,hplugin])
  exact hapart (by rw [← hid,hpq,hqid])

theorem Sound.unhandled (h : Sound s) (howned : Owned s) (hdelivered : s.job.st=.delivered) {ptr : ℕ}
    (hto : s.job.deliveredTo=some ptr) {t : State} (ht : t.handlers=fun i=>(s.handlers i).filter (·.plugin != ptr)) :
    t.findHandlerByFeature s.job.feature=none:=by
  cases hfound : t.findHandlerByFeature s.job.feature with
  | none=>rfl
  | some j=>
    obtain ⟨y,hy,hyfeature⟩:=findHandlerByFeature_some hfound
    rw [ht] at hy
    obtain ⟨hy,hother⟩:=Option.filter_eq_some_iff.mp hy
    obtain ⟨i,x,hx,hfeature,hto'⟩:=h.delivered hdelivered
    have hbusy : s.job.st≠.idle:=by rw [hdelivered]; decide
    obtain rfl:=(howned hbusy i x hx hfeature).2 j y hy hyfeature
    obtain rfl:=Option.some.inj (hx.symm.trans hy)
    obtain rfl:=Option.some.inj (hto'.symm.trans hto)
    simp at hother

theorem kept_unload (h : Sound s) (hr : Routed s) (howned : Owned s) (ptr : ℕ) : Kept s (.unload ptr):=by
  obtain ⟨t,ht⟩ : ∃ t : State, t={s with handlers:=fun i=>(s.handlers i).filter (·.plugin != ptr)}:=⟨_,rfl⟩
  have hstep : step s (.unload ptr)={s.onUnload ptr with plugins:=(s.onUnload ptr).plugins.filter (·.ptr != ptr)}:=rfl
  have hleave : s.onUnload ptr=if s.job.st=.idle then t
      else if s.job.caller=some ptr then {t with job:={t.job with caller:=none,callerId:=[],statusActionId:=0}}
      else if s.job.st=.delivered ∧ t.findHandlerByFeature s.job.feature=none then t.freeJob.reportToCaller s.job statusError
      else t:=by
    rw [ht]
    rfl
  rw [hleave] at hstep
  split_ifs at hstep with hidle hcaller hprovider
  · have hnocaller : s.job.caller≠some ptr:=fun hcaller=>(h.caller ptr hcaller).busy hidle
    have hundelivered : s.job.st≠.delivered:=by rw [hidle]; decide
    rw [ht] at hstep
    constructor
    · rw [hstep]
      exact h.gone ptr hnocaller fun hdelivered=>absurd hdelivered hundelivered
    · rw [hstep]
      exact hr.congr rfl rfl
    · exact fun hend=>absurd hend.1 hundelivered
  · rw [ht] at hstep
    constructor
    · rw [hstep]
      apply h.orphaned.gone ptr
      · exact fun hnone=>by cases hnone
      · exact fun hdelivered=>h.apart howned hdelivered hcaller
    · rw [hstep]
      exact hr.congr rfl rfl
    · exact fun hend=>absurd hend.2 (h.apart howned hend.1 hcaller)
  · obtain ⟨hdelivered,-⟩:=hprovider
    have hbusy : s.job.st≠.idle:=by rw [hdelivered]; decide
    have hplugins : t.plugins=s.plugins:=by rw [ht]
    have huses : t.uses=s.uses:=by rw [ht]
    have hlog : t.log=s.log:=by rw [ht]
    have hhandlers : t.handlers=fun i=>(s.handlers i).filter (·.plugin != ptr):=by rw [ht]
    have hcurrent : t.current=s.current:=by rw [ht]
    have hpump : t.pump=s.pump:=by rw [ht]
    have hended:=h.ended hr hbusy t.freeJob hplugins huses hlog statusError (t:=step s (.unload ptr))
    rw [hstep] at hended
    obtain ⟨hsound,hrouted,hidle,hsent⟩:=hended
      (by simp [State.freeJob,hplugins]) (by simp [State.freeJob]) (by simpa [State.freeJob] using huses)
      rfl (by
        intro i x hx
        simp only [reportToCaller_handlers,State.freeJob,hhandlers] at hx
        obtain ⟨hx,hother⟩:=Option.filter_eq_some_iff.mp hx
        obtain ⟨p,hp,hptr⟩:=h.held i x hx
        refine ⟨p,?_,hptr⟩
        simp only [reportToCaller_plugins,State.freeJob,hplugins]
        exact List.mem_filter.mpr ⟨hp,by rw [hptr]; exact hother⟩)
      (by simpa [State.freeJob,hcurrent,hpump] using h.current) (by
        intro f id hstarting
        simp only [reportToCaller_pump,State.freeJob,hpump] at hstarting
        rw [(h.starting f id hstarting).1] at hdelivered
        cases hdelivered)
    rw [← hstep] at hsound hrouted hidle hsent
    exact ⟨hsound,hrouted,fun _=>⟨hidle,hsent⟩⟩
  · have hhandlers : t.handlers=fun i=>(s.handlers i).filter (·.plugin != ptr):=by rw [ht]
    have hother : s.job.st=.delivered → s.job.deliveredTo≠some ptr:=
      fun hdelivered hto=>hprovider ⟨hdelivered,h.unhandled howned hdelivered hto hhandlers⟩
    rw [ht] at hstep
    constructor
    · rw [hstep]
      exact h.gone ptr hcaller hother
    · rw [hstep]
      exact hr.congr rfl rfl
    · exact fun hend=>absurd hend.2 (hother hend.1)

theorem kept (h : Sound s) (hr : Routed s) (e : Event) (hproper : Proper s e) : Kept s e:=by
  obtain ⟨howned,hasks⟩:=hproper
  cases e with
  | load ptr id provides=>exact kept_load h hr ptr id provides
  | list ptr listed=>exact kept_list h hr ptr listed
  | unload ptr=>exact kept_unload h hr howned ptr
  | refresh installed=>exact kept_refresh h hr installed
  | use ptr feature payload action contended allocated=>exact kept_use h hr ptr feature payload action contended allocated
  | register ptr feature action=>exact kept_register h hr ptr feature action
  | consume ptr bufSize garbage=>exact kept_consume h hr howned ptr bufSize garbage hasks
  | result ptr status=>exact kept_result h hr howned ptr status
  | pumpBegin=>exact kept_pumpBegin h hr
  | pumpStarted started=>exact kept_pumpStarted h hr howned started
  | pumpEnd=>exact kept_pumpEnd h hr

end Steps

theorem sound_start : Sound {} ∧ Routed {}:=by
  refine ⟨?_,?_⟩ <;> constructor <;> simp

/-- In every run in which handlers belong to the provider that was resolved and payloads are asked for by the plugin that
they are delivered to, payloads and statuses go where they should. -/
theorem routesFeatures (es : List Event) (h : AlongRun step Proper {} es) :
    Routed (run step {} es) ∧ AlongRun step Settles {} es:=by
  constructor
  · exact (run_invariant (I:=fun s=>Sound s ∧ Routed s) (fun s e hproper hs=>
      let hkept:=kept hs.1 hs.2 e hproper
      ⟨hkept.sound,hkept.routed⟩) sound_start h).2
  · exact h.of_invariant (I:=fun s=>Sound s ∧ Routed s) (fun s e hproper hs=>
      let hkept:=kept hs.1 hs.2 e hproper
      ⟨hkept.settles,hkept.sound,hkept.routed⟩) sound_start

def mapFeature : Name := "map".toUTF8.toList

/-- Plugin 1 uses the feature that plugins 2 and 3 provide; the index resolves it to plugin 2. -/
def mapPlugins : List Event:=
  [.load 1 [65] [],.list 1 true,.load 2 [66] [mapFeature],.list 2 true,.load 3 [67] [mapFeature],.list 3 true,
    .refresh [⟨[65],false,some []⟩,⟨[66],false,some [mapFeature]⟩,⟨[67],false,some [mapFeature]⟩]]

def mapRun : List Event:=
  mapPlugins++[.register 2 mapFeature 20,.use 1 mapFeature (some [1,2,3]) 10 false true,.pumpBegin,.pumpStarted true,
    .consume 2 2 [],.result 2 0,.pumpEnd]

theorem routesFeatures_mapRun : Routed (run step {} mapRun) ∧ AlongRun step Settles {} mapRun:=
  routesFeatures mapRun (by decide +kernel)

/-- A plugin that has registered a handler first gets the payload of another provider. -/
theorem not_routesFeatures : ¬∀ es, Routed (run step {} es) ∧ AlongRun step Settles {} es:=by
  intro h
  let es:=mapPlugins++[.register 3 mapFeature 30,.register 2 mapFeature 20,.use 1 mapFeature (some [1,2,3]) 10 false true,
    .pumpBegin,.pumpStarted true]
  have hhanded:=(h es).1.handed 0 ⟨3,[67],[mapFeature],true,2⟩ 30 3
  have hlog : Delivery.handed 0 ⟨3,[67],[mapFeature],true,2⟩ 30 3∈(run step {} es).log:=by decide +kernel
  obtain ⟨x,hx,hprovider⟩:=hhanded hlog
  have hfirst : (run step {} es).uses[0]?.map Use.provider=some [66]:=by decide +kernel
  rw [hx] at hfirst
  rw [Option.map_some,Option.some.injEq] at hfirst
  rw [hfirst] at hprovider
  revert hprovider
  decide

end CdcBadge.Plugin.Feature
