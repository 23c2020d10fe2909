import CdcBadge.PivMgmtKey
import CdcBadge.PivReading

/-!
# The certificates

A `PUT DATA` is the only command that changes what `GET DATA` finds, and it changes the object that it
names. What is stored can be read again as long as it is not larger than what `GET DATA` takes.
-/

namespace CdcBadge.Piv

open Handler Responses Windows
open Pin (PowerLost)

def Keys.shown (k : Keys) (obj : ℕ) : Option Bytes:=
  (if obj=objChuid then buildChuid k.state.guid
    else if obj=objCcc then buildCcc k.state.cccId
    else if certObjectToKeyRef obj≠0 then (k.objects (certObjectToKeyRef obj)).filter fun data=>data.length ≤ bodySize
    else none).filter fun body=>body≠[]

def objectPayload (obj : ℕ) (body : Option Bytes) : Option Bytes:=
  if obj=objDiscovery then buildDiscovery
  else body.map fun body=>tlvWriteTag tagDataObject++tlvWriteLen body.length++body

/-- The object that a `PUT DATA` stores, with its body. -/
def putOf (c : Cmd) : Option (ℕ × Bytes):=
  if c.ins=insPutData then
    match objectTag c.data, tlvFind c.data tagDataObject with
    | some obj, some body=>if certObjectToKeyRef obj≠0 then some (obj,body) else none
    | _, _=>none
  else none

theorem tlvWriteLen_length (len : ℕ) : (tlvWriteLen len).length ≤ 3:=by
  unfold tlvWriteLen
  split
  · exact Nat.le_add_left 1 2
  · split
    · exact Nat.le_add_left 2 1
    · exact Nat.le_refl 3

variable {body : Bytes}

theorem tlvWrites_body (h : body.length ≤ bodySize) :
    tlvWrites buildSize [(tagDataObject,body)]=some (tlvWriteTag tagDataObject++tlvWriteLen body.length++body):=by
  have hlen:=tlvWriteLen_length body.length
  have hbody : bodySize=2200:=rfl
  have hbuild : buildSize=2600:=rfl
  have htag : (tlvWriteTag tagDataObject).length=1:=rfl
  change tlvWrite buildSize [] tagDataObject body >>= pure=_
  unfold tlvWrite
  rw [List.nil_append,if_neg (by simp only [List.length_append]; omega)]
  rfl

variable {k : Keys}

theorem shown_cert {obj : ℕ} (h : certObjectToKeyRef obj≠0) :
    k.shown obj=((k.objects (certObjectToKeyRef obj)).filter fun data=>data.length ≤ bodySize).filter fun body=>body≠[]:=by
  unfold Keys.shown
  rw [if_neg (by rintro rfl; exact h rfl),if_neg (by rintro rfl; exact h rfl),if_pos h]

theorem shown_length {obj : ℕ} (h : k.shown obj=some body) :
    body≠[] ∧ body.length ≤ bodySize:=by
  unfold Keys.shown at h
  obtain ⟨hfound,hne⟩:=Option.filter_eq_some_iff.mp h
  refine ⟨by simpa using hne,?_⟩
  split_ifs at hfound
  · exact tlvWrites_length hfound
  · exact tlvWrites_length hfound
  · simpa using (Option.filter_eq_some_iff.mp hfound).2

theorem certObjectToKeyRef_inj {obj obj' : ℕ} (h : certObjectToKeyRef obj≠0)
    (heq : certObjectToKeyRef obj'=certObjectToKeyRef obj) : obj'=obj:=by
  unfold certObjectToKeyRef at h heq
  split_ifs at h heq <;> first | exact absurd heq (by decide) | simp_all

def Backend.storeless {β : Type} (b : Backend β) : Backend β:={b with objectStore:=fun _ _=>pure false}

theorem dispatch_storeless {β : Type} {b : Backend β} {c : Cmd} (h : c.ins≠insPutData) :
    dispatch b.storeless c=dispatch b c:=by
  simp only [dispatch,h,if_false]
  rfl

/-- The record is loaded, and these are the objects. -/
def Shows (shown : ℕ→Option Bytes) (k : Keys) : Prop:=k.stateLoaded=true ∧ k.shown=shown

theorem aside_shows (shown : ℕ→Option Bytes) : Aside (Shows shown):=⟨fun _ _ h=>h,fun _ _ h=>h⟩

theorem shows_dispatch {cr : PivCrypto} {shown : ℕ→Option Bytes} {c : Cmd} (h : c.ins≠insPutData) :
    Keeps (fun s : Ctx Keys=>Shows shown s.be) (dispatch (pivBackend cr) c):=by
  rw [← dispatch_storeless h]
  refine (aside_shows shown).within.dispatch (keeps_stateEnsure fun _ hk=>hk.1) (fun pin=>?_) (fun _ _=>Keeps.pure _)
    (fun k state hk=>?_) c
  · exact keeps_iff.mpr fun k hk=>hk
  · exact hk

theorem objects_pivInit (shortReads : Bool) : Fixes Keys.objects (pivInit shortReads):=by
  intro objects
  have hP : Aside fun k=>k.objects=objects:=⟨fun _ _ h=>h,fun _ _ h=>h⟩
  exact hP.within.pivInit (fun _ _ _ h=>h) shortReads

def Keys.stored (k : Keys) (obj : ℕ) (body : Bytes) : Keys:=
  {k with objects:=Function.update k.objects (certObjectToKeyRef obj) (some body)}

theorem shown_stored {obj : ℕ} (h : certObjectToKeyRef obj≠0) (hne : body≠[])
    (hlen : body.length ≤ bodySize) : (k.stored obj body).shown=Function.update k.shown obj (some body):=by
  funext obj'
  by_cases hobj : obj'=obj
  · rw [hobj,Function.update_self,shown_cert h]
    simp [Keys.stored,hne,hlen]
  · rw [Function.update_of_ne hobj]
    by_cases hcert : certObjectToKeyRef obj'=0
    · unfold Keys.shown
      simp only [hcert,ne_eq,not_true_eq_false,if_false]
      rfl
    · have hother : certObjectToKeyRef obj'≠certObjectToKeyRef obj:=fun heq=>hobj (certObjectToKeyRef_inj h heq)
      have hobjects : (k.stored obj body).objects (certObjectToKeyRef obj')=k.objects (certObjectToKeyRef obj'):=
        Function.update_of_ne hother _ _
      rw [shown_cert hcert,shown_cert hcert,hobjects]

theorem dispatch_put {β : Type} {b : Backend β} {c : Cmd} (h : c.ins=insPutData) : dispatch b c=cmdPutData b c:=by
  simp only [dispatch,h]
  rfl

/-- Without the management key, or for an object that is not kept in NVS, nothing is written. -/
theorem cmdPutData_other {cr : PivCrypto} {s : Ctx Keys} {c : Cmd} (hins : c.ins=insPutData)
    (h : s.app.mgmtAuthenticated=false ∨ putOf c=none) :
    ∃ reply, cmdPutData (pivBackend cr) c s=(.ok reply,s) ∧ (putOf c=none ∨ reply.sw≠swOk):=by
  unfold cmdPutData appGets
  rw [bind_gets]
  by_cases hauth : s.app.mgmtAuthenticated=true
  · have hput:=h.resolve_left (by rw [hauth]; decide)
    have hnone:=hput
    unfold putOf at hput
    rw [if_pos hins] at hput
    rw [if_neg (by simp [hauth])]
    cases hobj : objectTag c.data with
    | none=>exact ⟨_,rfl,.inl hnone⟩
    | some obj=>cases hbody : tlvFind c.data tagDataObject with
      | none=>exact ⟨_,rfl,.inl hnone⟩
      | some body=>
        rw [hobj,hbody] at hput
        dsimp only at hput ⊢
        by_cases hcert : certObjectToKeyRef obj=0
        · rw [if_neg (not_not.mpr hcert)]
          split <;> exact ⟨_,rfl,.inl hnone⟩
        · rw [if_pos hcert] at hput
          contradiction
  · rw [if_pos (by simpa using hauth)]
    exact ⟨_,rfl,.inr (by decide)⟩

theorem cmdPutData_put {cr : PivCrypto} {s : Ctx Keys} {c : Cmd} {obj : ℕ} {body : Bytes}
    (hauth : s.app.mgmtAuthenticated=true) (h : putOf c=some (obj,body)) :
    certObjectToKeyRef obj≠0 ∧ cmdPutData (pivBackend cr) c s=match cbObjectStore obj body s.be with
      | (.ok ok,be)=>(.ok {sw:=if ok then swOk else swSecurityStatus},{s with be})
      | (.error e,be)=>(.error e,{s with be}):=by
  unfold putOf at h
  have hins : c.ins=insPutData:=by
    by_contra hne
    rw [if_neg hne] at h
    contradiction
  rw [if_pos hins] at h
  unfold cmdPutData appGets
  rw [bind_gets,if_neg (by simp [hauth])]
  cases hobj : objectTag c.data with
  | none=>
    rw [hobj] at h
    contradiction
  | some obj'=>cases hbody : tlvFind c.data tagDataObject with
    | none=>
      rw [hobj,hbody] at h
      contradiction
    | some body'=>
      rw [hobj,hbody] at h
      dsimp only at h ⊢
      by_cases hcert : certObjectToKeyRef obj'=0
      · rw [if_neg (not_not.mpr hcert)] at h
        contradiction
      · rw [if_pos hcert] at h
        cases h
        refine ⟨hcert,?_⟩
        have hcall : call ((pivBackend cr).objectStore obj body) s =
            ((cbObjectStore obj body s.be).1,{s with be:=(cbObjectStore obj body s.be).2}):=rfl
        rw [if_pos hcert,bind_apply,hcall]
        cases cbObjectStore obj body s.be with
        | mk r be=>cases r with
          | ok ok=>cases ok <;> rfl
          | error e=>rfl

/-- A write that comes through leaves a body that can be read again, any other leaves the object. -/
def WritesBack (body : Bytes) : SeOutcome→Prop
  | .done=>body≠[] ∧ body.length ≤ bodySize
  | .failed _ applied=>applied=false
  | .powerLost applied=>applied=false

def shownAfter (shown : ℕ→Option Bytes) (c : Cmd) (sw : UInt16) : ℕ→Option Bytes:=
  match putOf c with
  | some (obj,body)=>if sw=swOk then Function.update shown obj (some body) else shown
  | none=>shown

theorem shows_cbObjectStore {shown : ℕ→Option Bytes} {obj : ℕ} (hk : Shows shown k)
    (hcert : certObjectToKeyRef obj≠0) (h : WritesBack body (k.env.nvs.headD .done)) :
    match cbObjectStore obj body k with
    | (.ok true,k')=>Shows (Function.update shown obj (some body)) k'
    | (_,k')=>Shows shown k':=by
  set k' : Keys:={k with env:={k.env with nvs:=k.env.nvs.tail}} with hk'
  have hnext : Shows shown k':=hk
  unfold cbObjectStore
  rw [if_neg hcert]
  change match (match (k.env.nvs.headD .done : SeOutcome) with
    | .done=>(do modify fun k=>k.stored obj body; pure true : KeysM Bool)
    | .failed _ applied=>do when applied (modify fun k=>k.stored obj body); pure false
    | .powerLost applied=>do
      when applied (modify fun k=>k.stored obj body)
      stop ⟨⟩) k' with
    | (.ok true,k')=>Shows (Function.update shown obj (some body)) k'
    | (_,k')=>Shows shown k'
  cases ho : k.env.nvs.headD .done with
  | done=>
    rw [ho] at h
    exact ⟨hnext.1,by rw [shown_stored hcert h.1 h.2,hnext.2]⟩
  | failed e applied=>
    rw [ho] at h
    cases h
    exact hnext
  | powerLost applied=>
    rw [ho] at h
    cases h
    exact hnext

def LeavesShown (shown : ℕ→Option Bytes) (after : UInt16 → ℕ→Option Bytes) : Except PowerLost Reply × Ctx Keys→Prop
  | (.ok reply,t)=>Shows (after reply.sw) t.be
  | (.error _,t)=>Shows shown t.be

theorem shows_cmdPutData {cr : PivCrypto} {shown : ℕ→Option Bytes} {s : Ctx Keys} (hs : Shows shown s.be) {c : Cmd}
    (hins : c.ins=insPutData) (h : s.app.mgmtAuthenticated=true→∀ obj body, putOf c=some (obj,body) →
      WritesBack body (s.be.env.nvs.headD .done)) :
    LeavesShown shown (shownAfter shown c) (cmdPutData (pivBackend cr) c s):=by
  by_cases hother : s.app.mgmtAuthenticated=false ∨ putOf c=none
  · obtain ⟨reply,hrun,hreply⟩:=@cmdPutData_other cr s c hins hother
    rw [hrun]
    change Shows (shownAfter shown c reply.sw) s.be
    unfold shownAfter
    rcases hreply with hnone | hsw
    · rw [hnone]
      exact hs
    · cases putOf c with
      | none=>exact hs
      | some put=>
        dsimp only
        rw [if_neg hsw]
        exact hs
  · obtain ⟨hauth,hput⟩:=not_or.mp hother
    have hauth' : s.app.mgmtAuthenticated=true:=by simpa using hauth
    obtain ⟨⟨obj,body⟩,hsome⟩:=Option.ne_none_iff_exists'.mp hput
    obtain ⟨hcert,hrun⟩:=@cmdPutData_put cr s c obj body hauth' hsome
    have hstore:=shows_cbObjectStore hs hcert (h hauth' obj body hsome)
    rw [hrun]
    unfold LeavesShown shownAfter
    rw [hsome]
    cases hr : cbObjectStore obj body s.be with
    | mk r be=>
      rw [hr] at hstore
      cases r with
      | error e=>exact hstore
      | ok ok=>cases ok with
        | true=>exact hstore
        | false=>exact hstore

/-- A device and what its `GET DATA` commands are to find. -/
structure CertWatch where
  dev : Device
  view : ℕ→Option Bytes

/-- A certificate changes with a `PUT DATA` that succeeds and with nothing else; the identifiers are made at a first boot. -/
def CertWatch.step (cr : PivCrypto) (shortReads : Bool) (w : CertWatch) (i : DeviceInput) : CertWatch where
  dev:=(w.dev.respond cr shortReads i).2
  view:=match i.op, (w.dev.respond cr shortReads i).1 with
    | .apdu raw, some reply=>match commandOf w.dev.ctx raw with
      | some c=>shownAfter w.view c reply.sw
      | none=>w.view
    | .boot, _=>fun obj=>
      if certObjectToKeyRef obj≠0 then w.view obj else (w.dev.respond cr shortReads i).2.ctx.be.shown obj
    | _, _=>w.view

/-- The condition on a step: a `PUT DATA` that writes has a body that can be read again, and a write that fails has no
effect. -/
def Storable (w : CertWatch) (i : DeviceInput) : Prop:=
  match i.op with
  | .apdu raw=>w.dev.on=true→w.dev.ctx.app.mgmtAuthenticated=true→∀ c∈commandOf w.dev.ctx raw,
    ∀ put∈putOf c, WritesBack put.2 (i.env.nvs.headD .done)
  | _=>True

structure CertWatch.Kept (w : CertWatch) : Prop where
  certs : ∀ obj, certObjectToKeyRef obj≠0→w.dev.ctx.be.shown obj=w.view obj
  shows : w.dev.on=true → Shows w.view w.dev.ctx.be

theorem loaded_pivInit {shortReads : Bool} {d : Device} {e : Env} (h : pivInit shortReads (d.bootKeys e)=(.ok true,k)) :
    k.stateLoaded=true:=by
  have hloaded : (cleanupFido2Orphans shortReads (d.bootKeys e)).2.stateLoaded=false:=(cleanup_loaded shortReads).apply _
  have hinit : pivInit shortReads (d.bootKeys e)=(cleanupFido2Orphans shortReads >>= fun _=>stateEnsure) (d.bootKeys e):=
    rfl
  rw [hinit,bind_apply] at h
  cases hc : cleanupFido2Orphans shortReads (d.bootKeys e) with
  | mk r k'=>
    rw [hc] at h hloaded
    cases r with
    | error e=>cases h
    | ok u=>exact (holds_stateEnsure_none hloaded k h).loaded

section Steps

variable {cr : PivCrypto} {shortReads : Bool} {w : CertWatch}

theorem certs_of_objects {k k' : Keys} (h : k'.objects=k.objects) {obj : ℕ} (hcert : certObjectToKeyRef obj≠0) :
    k'.shown obj=k.shown obj:=by
  rw [shown_cert hcert,shown_cert hcert,h]

theorem certs_powerCut (k : Keys) {obj : ℕ} (hcert : certObjectToKeyRef obj≠0) : k.powerCut.shown obj=k.shown obj:=by
  have hobjects : k.powerCut.objects=k.objects:=rfl
  exact certs_of_objects hobjects hcert

theorem CertWatch.Kept.boot (hw : w.Kept) (e : Env) : (w.step cr shortReads ⟨.boot,e⟩).Kept:=by
  have hobjects : (pivInit shortReads (w.dev.bootKeys e)).2.objects=w.dev.ctx.be.objects:=
    (objects_pivInit shortReads).apply (w.dev.bootKeys e)
  unfold CertWatch.step
  rw [respond_boot]
  cases hr : pivInit shortReads (w.dev.bootKeys e) with
  | mk r k=>
    rw [hr] at hobjects
    have hcerts : ∀ obj, certObjectToKeyRef obj≠0→k.shown obj=w.view obj:=fun obj hcert=>
      (certs_of_objects hobjects hcert).trans (hw.certs obj hcert)
    cases r with
    | error e=>
      refine ⟨fun obj hcert=>?_,fun hoff=>by cases hoff⟩
      change k.powerCut.shown obj=if certObjectToKeyRef obj≠0 then w.view obj else _
      rw [if_pos hcert,← hcerts obj hcert]
      exact certs_powerCut k hcert
    | ok on=>
      have hview (obj : ℕ) : k.shown obj=if certObjectToKeyRef obj≠0 then w.view obj else k.shown obj:=by
        by_cases hcert : certObjectToKeyRef obj=0
        · rw [if_neg (not_not.mpr hcert)]
        · rw [if_pos hcert,hcerts obj hcert]
      refine ⟨fun obj _=>hview obj,fun hon=>⟨loaded_pivInit (by rw [hr,show on=true from hon]),funext hview⟩⟩

theorem CertWatch.Kept.apdu (hw : w.Kept) {raw : Bytes} {e : Env} (hon : w.dev.on=true)
    (h : Storable w ⟨.apdu raw,e⟩) : (w.step cr shortReads ⟨.apdu raw,e⟩).Kept:=by
  set s : Ctx Keys:={w.dev.ctx with be:=w.dev.ctx.be.given e} with hs
  have hshows : Shows w.view s.be:=hw.shows hon
  have hprocess : LeavesShown w.view (fun sw=>match commandOf w.dev.ctx raw with
      | some c=>shownAfter w.view c sw
      | none=>w.view) (processApdu (pivBackend cr) raw s):=by
    have hcommand : commandOf s raw=commandOf w.dev.ctx raw:=rfl
    cases hc : commandOf w.dev.ctx raw with
    | none=>
      obtain ⟨reply,app,hrun,-⟩:=@processApdu_other _ (pivBackend cr) s raw (hcommand.trans hc)
      rw [hrun]
      exact hshows
    | some c=>
      rw [processApdu_command (hcommand.trans hc),bind_apply]
      have hdispatch : LeavesShown w.view (shownAfter w.view c) (dispatch (pivBackend cr) c s):=by
        by_cases hins : c.ins=insPutData
        · rw [dispatch_put hins]
          exact shows_cmdPutData hshows hins fun hauth obj body hput=>h hon hauth c hc (obj,body) hput
        · have hkeeps:=keeps_iff.mp (@shows_dispatch cr w.view c hins) s hshows
          have hnone : putOf c=none:=if_neg hins
          unfold LeavesShown shownAfter
          rw [hnone]
          cases hr : dispatch (pivBackend cr) c s with
          | mk r t=>
            rw [hr] at hkeeps
            cases r <;> exact hkeeps
      cases hr : dispatch (pivBackend cr) c s with
      | mk r t=>
        rw [hr] at hdispatch
        cases r <;> exact hdispatch
  unfold CertWatch.step
  rw [respond_apdu hon]
  cases hr : processApdu (pivBackend cr) raw s with
  | mk r t=>
    rw [hr] at hprocess
    cases r with
    | ok reply=>exact ⟨fun obj _=>congrFun hprocess.2 obj,fun _=>hprocess⟩
    | error e=>
      refine ⟨fun obj hcert=>?_,fun hoff=>by cases hoff⟩
      change t.be.powerCut.shown obj=w.view obj
      rw [← hprocess.2]
      exact certs_powerCut t.be hcert

theorem CertWatch.Kept.step (hw : w.Kept) {i : DeviceInput} (h : Storable w i) : (w.step cr shortReads i).Kept:=by
  obtain ⟨op,e⟩:=i
  cases op with
  | apdu raw=>
    by_cases hon : w.dev.on=true
    · exact hw.apdu hon h
    · have hrespond : w.dev.respond cr shortReads ⟨.apdu raw,e⟩=(none,w.dev):=by
        simp only [Device.respond]
        rw [if_pos (by simpa using hon)]
      unfold CertWatch.step
      rw [hrespond]
      exact hw
  | deselect=>exact ⟨hw.certs,hw.shows⟩
  | boot=>exact hw.boot e
  | others badge=>exact ⟨hw.certs,hw.shows⟩

end Steps

/-- Where its read of NVS comes through, a `GET DATA` of the object delivers this payload, or finds none. -/
def Finds (cr : PivCrypto) (d : Device) (obj : ℕ) (payload : Option Bytes) : Prop:=
  ∀ (e : Env) (i : Bytes × ℕ) (c : Cmd), e.nvs.headD .done=.done →
    commandIn {d.ctx with be:=d.ctx.be.given e} i=some c → c.ins=insGetData → objectTag c.data=some obj →
    match payload with
    | some payload=>responseCode.Delivered (exchange (pivBackend cr)) IsGet payload {d.ctx with be:=d.ctx.be.given e} i
    | none=>(exchange (pivBackend cr) {d.ctx with be:=d.ctx.be.given e} i).1=some ([],swFileNotFound)

section Gets

variable {cr : PivCrypto} {s : Ctx Keys} {c : Cmd} {obj : ℕ}

theorem answer_body {β : Type} {raw : Option Bytes} (hlen : ∀ body∈raw, body.length ≤ bodySize) (hobj : obj≠objDiscovery)
    (le : ℕ) : (match raw with
      | none=>answerSw swFileNotFound
      | some body=>
        if body=[] then answerSw swFileNotFound
        else emitBuilt (tlvWrites buildSize [(tagDataObject,body)]) le swFileNotFound : PivM β Reply) =
      emitBuilt (objectPayload obj (raw.filter fun body=>body≠[])) le swFileNotFound:=by
  unfold objectPayload
  rw [if_neg hobj]
  cases raw with
  | none=>rfl
  | some body=>
    by_cases hne : body=[]
    · simp [hne,emitBuilt,Option.filter]
    · simp [hne,tlvWrites_body (hlen body rfl),Option.filter]

theorem dispatch_getData (hloaded : s.be.stateLoaded=true) (hnvs : s.be.env.nvs.headD .done=.done)
    (hins : c.ins=insGetData) (hobj : objectTag c.data=some obj) : ∃ be,
    dispatch (pivBackend cr) c s=emitBuilt (objectPayload obj (s.be.shown obj)) c.le swFileNotFound {s with be}:=by
  have hdispatch : dispatch (pivBackend cr) c=cmdGetData (pivBackend cr) c:=by
    simp only [dispatch,hins]
    rfl
  rw [hdispatch]
  unfold cmdGetData
  rw [hobj]
  dsimp only
  by_cases hdiscovery : obj=objDiscovery
  · rw [if_pos hdiscovery,objectPayload,if_pos hdiscovery]
    exact ⟨s.be,rfl⟩
  have hload : call (pivBackend cr).stateLoad s=(.ok (some s.be.state),s):=by
    change ((cbStateLoad s.be).1,{s with be:=(cbStateLoad s.be).2})=_
    unfold cbStateLoad stateEnsure
    simp only [bind_apply,gets_apply,hloaded,if_true,pure_apply,Bool.not_true,Bool.false_eq_true,if_false]
  have hbody : ∃ be raw, (if obj=objChuid then pure (buildChuid s.be.state.guid)
      else if obj=objCcc then pure (buildCcc s.be.state.cccId)
      else if certObjectToKeyRef obj≠0 then call ((pivBackend cr).objectLoad obj)
      else pure none : PivM Keys (Option Bytes)) s=(.ok raw,{s with be}) ∧
        (∀ body∈raw, body.length ≤ bodySize) ∧ (raw.filter fun body=>body≠[])=s.be.shown obj:=by
    unfold Keys.shown
    by_cases hchuid : obj=objChuid
    · rw [if_pos hchuid,if_pos hchuid]
      exact ⟨s.be,_,rfl,fun body h=>tlvWrites_length h,rfl⟩
    by_cases hccc : obj=objCcc
    · rw [if_neg hchuid,if_neg hchuid,if_pos hccc,if_pos hccc]
      exact ⟨s.be,_,rfl,fun body h=>tlvWrites_length h,rfl⟩
    by_cases hcert : certObjectToKeyRef obj=0
    · rw [if_neg hchuid,if_neg hchuid,if_neg hccc,if_neg hccc,if_neg (not_not.mpr hcert),if_neg (not_not.mpr hcert)]
      exact ⟨s.be,none,rfl,by simp,rfl⟩
    · rw [if_neg hchuid,if_neg hchuid,if_neg hccc,if_neg hccc,if_pos hcert,if_pos hcert]
      have hrun : cbObjectLoad obj s.be =
          (.ok ((s.be.objects (certObjectToKeyRef obj)).filter fun data=>data.length ≤ bodySize),
            {s.be with env:={s.be.env with nvs:=s.be.env.nvs.tail}}):=by
        have hnext : nextNvs s.be=(.ok .done,{s.be with env:={s.be.env with nvs:=s.be.env.nvs.tail}}):=by
          unfold nextNvs
          rw [hnvs]
        unfold cbObjectLoad
        rw [if_neg hcert,bind_of_ok hnext]
        rfl
      refine ⟨(cbObjectLoad obj s.be).2,_,?_,fun body h=>?_,rfl⟩
      · change ((cbObjectLoad obj s.be).1,{s with be:=(cbObjectLoad obj s.be).2})=_
        rw [hrun]
      · simpa using (Option.filter_eq_some_iff.mp h).2
  obtain ⟨be,raw,hrun,hlen,hshown⟩:=hbody
  refine ⟨be,?_⟩
  rw [if_neg hdiscovery,bind_of_ok hload]
  dsimp only
  rw [bind_of_ok hrun,← hshown,← answer_body hlen hdiscovery]
  cases raw <;> rfl

theorem objectPayload_length {obj : ℕ} {payload : Bytes} (h : objectPayload obj (k.shown obj)=some payload) :
    payload.length ≤ respBufferSize:=by
  unfold objectPayload at h
  by_cases hdiscovery : obj=objDiscovery
  · rw [if_pos hdiscovery] at h
    revert payload
    decide
  · rw [if_neg hdiscovery] at h
    obtain ⟨body,hbody,rfl⟩:=Option.map_eq_some_iff.mp h
    exact tlvWrites_length (tlvWrites_body (shown_length hbody).2)

theorem finds_of_shows {cr : PivCrypto} {d : Device} {view : ℕ→Option Bytes} (h : Shows view d.ctx.be) (obj : ℕ) :
    Finds cr d obj (objectPayload obj (view obj)):=by
  intro e i c hnvs hc hins hobj
  have hget (le : ℕ) (v : ℕ × Bytes):=@dispatch_getData cr (port.set v {d.ctx with be:=d.ctx.be.given e})
    {c with le} obj h.1 hnvs hins hobj
  have hshown : (d.ctx.be.given e).shown obj=view obj:=congrFun h.2 obj
  cases hpayload : objectPayload obj (view obj) with
  | some payload=>
    refine delivered hc ?_
    obtain ⟨be,hrun⟩:=hget (respBufferSize+1) (respBufferSize+3,[])
    have hlen : payload.length ≤ respBufferSize:=objectPayload_length ((congrArg _ hshown).trans hpayload)
    have hwindow : payload.length ≤ Channel.window (respBufferSize+3) (respBufferSize+1):=
      (channel (β:=Keys)).window_whole hlen
    unfold builds Channel.whole
    refine (congrArg Prod.fst hrun).trans ?_
    change (emitBuilt (objectPayload obj ((d.ctx.be.given e).shown obj)) _ _ _).1=_
    rw [hshown,hpayload,emitBuilt,emit_channel,Channel.emit_fits hwindow]
    rfl
  | none=>
    obtain ⟨be,hrun⟩:=hget c.le (i.2,d.ctx.app.resp)
    have hnone : dispatch (pivBackend cr) c {({d.ctx with be:=d.ctx.be.given e} : Ctx Keys) with respMax:=i.2} =
        (.ok {sw:=swFileNotFound},{d.ctx with be,respMax:=i.2}):=by
      refine hrun.trans ?_
      change emitBuilt (objectPayload obj ((d.ctx.be.given e).shown obj)) _ _ _=_
      rw [hshown,hpayload]
      rfl
    rw [exchange_command hc,hnone]

end Gets

/-- What a device that is on answers to every `GET DATA`. -/
def Served (cr : PivCrypto) (w : CertWatch) : Prop:=
  w.dev.on=true→∀ obj, Finds cr w.dev obj (objectPayload obj (w.view obj))

def CertWatch.start (keys : Keys) (respMax : ℕ) : CertWatch where
  dev:={ctx:={be:=keys,respMax}}
  view:=keys.shown

/-- In a run whose writes can all be read back, `GET DATA` answers with the body of the last `PUT DATA` that succeeded. -/
theorem certificates_read_back (cr : PivCrypto) (shortReads : Bool) (keys : Keys) (respMax : ℕ) (is : List DeviceInput)
    (h : Runs.AlongRun (CertWatch.step cr shortReads) Storable (CertWatch.start keys respMax) is) :
    Served cr (Runs.run (CertWatch.step cr shortReads) (CertWatch.start keys respMax) is):=by
  have hstart : (CertWatch.start keys respMax).Kept:=⟨fun obj _=>rfl,nofun⟩
  have hkept : (Runs.run (CertWatch.step cr shortReads) (CertWatch.start keys respMax) is).Kept:=
    Runs.run_invariant (I:=CertWatch.Kept) (fun _ _ hi hw=>hw.step hi) hstart h
  exact fun hon obj=>finds_of_shows (hkept.shows hon) obj

instance (body : Bytes) : (o : SeOutcome)→Decidable (WritesBack body o)
  | .done=>inferInstanceAs (Decidable (_ ∧ _))
  | .failed _ _=>inferInstanceAs (Decidable (_=_))
  | .powerLost _=>inferInstanceAs (Decidable (_=_))

instance (w : CertWatch) : (i : DeviceInput)→Decidable (Storable w i)
  | ⟨.apdu _,_⟩=>inferInstanceAs (Decidable (_ → _ → _))
  | ⟨.deselect,_⟩ | ⟨.boot,_⟩ | ⟨.others _,_⟩=>inferInstanceAs (Decidable True)

/-- `PUT DATA` of the certificate of 9A. -/
def putCertApdu (body : Bytes) : Bytes:=
  let data:=[0x5C,0x03,0x5F,0xC1,0x05,0x53]++tlvWriteLen body.length++body
  [0x00,insPutData,0x3F,0xFF,0x00,UInt8.ofNat (data.length/256),UInt8.ofNat data.length]++data

def getCertApdu : Bytes:=[0x00,insGetData,0x3F,0xFF,0x05,0x5C,0x03,0x5F,0xC1,0x05,0x00]

def putCertInputs (body : Bytes) : List DeviceInput:=
  [⟨.boot,{}⟩,⟨.apdu drawApdu,{}⟩,⟨.apdu answerApdu,{}⟩,⟨.apdu (putCertApdu body),{}⟩]

theorem certificates_read_back_put :
    let w:=Runs.run (CertWatch.step .plain true) (CertWatch.start blankKeys 2048) (putCertInputs [0x70,0x01,0xAB])
    w.dev.on=true ∧ w.view objCert9A=some [0x70,0x01,0xAB] ∧ Served .plain w:=
  ⟨by decide +kernel,by decide +kernel,certificates_read_back .plain true blankKeys 2048 _ (by decide +kernel)⟩

theorem not_delivers_notFound (payload : Bytes) : ¬responseCode.Delivers payload [([],swFileNotFound)]:=by
  intro h
  generalize hrs : [(([] : Bytes),swFileNotFound)]=rs at h
  cases h with
  | pending=>cases hrs
  | last=>
    have hsw : swFileNotFound=swOk:=(Prod.ext_iff.mp (List.cons.inj hrs).1).2
    exact absurd hsw (by decide)
  | @window front rest rs hrest h=>
    have hsw : swFileNotFound=swMoreData rest.length:=(Prod.ext_iff.mp (List.cons.inj hrs).1).2
    have hhigh : swFileNotFound >>> 8=0x61:=hsw ▸ swMoreData_high rest.length
    exact absurd hhigh (by decide)

/-- A certificate of 2201 bytes is acknowledged and cannot be read. -/
theorem certificate_lost : ¬ ∀ is : List DeviceInput,
    Served .plain (Runs.run (CertWatch.step .plain true) (CertWatch.start blankKeys 2048) is):=by
  intro h
  obtain ⟨w,hw⟩ : ∃ w, w=Runs.run (CertWatch.step .plain true) (CertWatch.start blankKeys 2048)
      (putCertInputs (List.replicate 2201 0xAB)):=⟨_,rfl⟩
  have hserved : Served .plain w:=by
    rw [hw]
    exact h _
  have hview : w.view objCert9A=some (List.replicate 2201 0xAB):=by
    rw [hw]
    decide +kernel
  have hon : w.dev.on=true:=by
    rw [hw]
    decide +kernel
  obtain ⟨s,hs⟩ : ∃ s : Ctx Keys, s={w.dev.ctx with be:=w.dev.ctx.be.given {}}:=⟨_,rfl⟩
  have hcommand : (commandIn s (getCertApdu,2048)).map (fun c=>(c.ins,objectTag c.data)) =
      some (insGetData,some objCert9A):=by
    rw [hs,hw]
    decide +kernel
  have hreply : (exchange (pivBackend .plain) s (getCertApdu,2048)).1=some ([],swFileNotFound):=by
    rw [hs,hw]
    decide +kernel
  obtain ⟨c,hc,hfields⟩:=Option.map_eq_some_iff.mp hcommand
  obtain ⟨hins,hobj⟩:=Prod.ext_iff.mp hfields
  have hanswers:=hserved hon objCert9A {} (getCertApdu,2048) c rfl (hs ▸ hc) hins hobj
  rw [hview,← hs] at hanswers
  have hdelivers:=(hanswers [] (by simp)).1
  have hreads : responseCode.reads (exchange (pivBackend .plain)) s [(getCertApdu,2048)]=[([],swFileNotFound)]:=by
    unfold Code.reads
    cases hr : exchange (pivBackend .plain) s (getCertApdu,2048) with
    | mk r t=>
      rw [hr] at hreply
      cases hreply
      rfl
  rw [hreads] at hdelivers
  exact not_delivers_notFound _ hdelivers

end CdcBadge.Piv
