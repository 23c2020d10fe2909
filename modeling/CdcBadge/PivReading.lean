import CdcBadge.PivFrames
import CdcBadge.Responses

/-!
# Reading PIV responses

A payload goes out in the windows of a command and of the `GET RESPONSE` commands behind it.
-/

namespace CdcBadge.Piv

open Handler Responses Windows
open Pin (PowerLost)

section Commands

variable {β : Type} {b : Backend β}

def port : Port (Ctx β) (ℕ × Bytes) where
  get s:=(s.respMax,s.app.resp)
  set v s:={s with respMax:=v.1,app:={s.app with resp:=v.2}}
  get_set _ _:=rfl
  set_set _ _ _:=rfl
  set_get _:=rfl

def responseCode : Code UInt16 where
  done:=swOk
  more:=swMoreData
  more_ne_done:=swMoreData_ne_ok

def channel : Channel (Ctx β) Reply UInt16 UInt8 where
  port:=port
  code:=responseCode
  size:=respBufferSize
  reply data sw:={data,sw}
  data:=Reply.data
  status:=Reply.sw
  data_reply _ _:=rfl
  status_reply _ _:=rfl

theorem emit_channel (payload : Bytes) (le : ℕ) : (emit payload le : PivM β Reply)=channel.emit payload le:=by
  funext s
  unfold emit Channel.emit
  rw [bind_gets,bind_gets]
  change _=(if payload.length ≤ Channel.window s.respMax le then (_ : PivM β Reply) else _) s
  by_cases hfits : payload.length ≤ Channel.window s.respMax le
  · rw [if_pos hfits]
    exact congrFun (if_pos hfits) s
  · rw [if_neg hfits]
    exact congrFun (if_neg hfits) s

theorem uniform_answerSw (sw : UInt16) : channel.Uniform fun _=>(answerSw sw : PivM β Reply):=Channel.Uniform.answer sw

theorem uniform_emitBuilt {built : Option Bytes} (h : ∀ payload∈built, payload.length ≤ respBufferSize) (failed : UInt16) :
    channel.Uniform fun le=>(emitBuilt built le failed : PivM β Reply):=by
  cases built with
  | none=>exact uniform_answerSw failed
  | some payload=>
    simp only [emitBuilt,emit_channel]
    exact Channel.Uniform.emit (h payload rfl)

theorem blind_appGets {α : Type} {f : Session → α} (h : ∀ a resp, f {a with resp}=f a) :
    Blind port (appGets f : PivM β α):=
  Blind.gets fun _ _=>h _ _

theorem blind_updateApp {f : Session → Session} (h : ∀ a resp, f {a with resp}={f a with resp}) :
    Blind port (updateApp f : PivM β Unit):=
  Blind.modify fun v s=>by
    change ({s with respMax:=v.1,app:=f {s.app with resp:=v.2}} : Ctx β)=_
    rw [h]
    rfl

theorem blind_call {α : Type} (m : Handler PowerLost β α) : Blind port (call m : PivM β α):=
  Blind.zoom m (fun _ _=>rfl) fun _ _ _=>rfl

theorem uniform_pinStatus : channel.Uniform fun _=>pinStatus b:=by
  refine Channel.Uniform.bind (Blind.gets fun _ _=>rfl) fun _=>Channel.Uniform.ite (fun _=>uniform_answerSw _) fun _=>?_
  exact Channel.Uniform.bind (Blind.gets fun _ _=>rfl) fun _=>uniform_answerSw _

theorem uniform_cmdVerify (c : Cmd) : channel.Uniform fun _=>cmdVerify b c:=by
  unfold cmdVerify
  refine Channel.Uniform.ite (fun _=>uniform_answerSw _) fun _=>Channel.Uniform.ite (fun _=>?_) fun _=>?_
  · exact Channel.Uniform.bind (blind_updateApp fun _ _=>rfl) fun _=>uniform_answerSw _
  refine Channel.Uniform.ite (fun _=>?_) fun _=>Channel.Uniform.ite (fun _=>uniform_answerSw _) fun _=>?_
  · refine Channel.Uniform.bind (blind_appGets fun _ _=>rfl) fun _=>?_
    exact Channel.Uniform.ite (fun _=>uniform_answerSw _) fun _=>uniform_pinStatus
  refine Channel.Uniform.bind (Blind.gets fun _ _=>rfl) fun _=>Channel.Uniform.ite (fun _=>uniform_answerSw _) fun _=>?_
  refine Channel.Uniform.ite (fun _=>uniform_answerSw _) fun _=>Channel.Uniform.ite (fun _=>uniform_answerSw _) fun _=>?_
  refine Channel.Uniform.bind (blind_call _) fun _=>Channel.Uniform.ite (fun _=>?_) fun _=>uniform_pinStatus
  exact Channel.Uniform.bind (blind_updateApp fun _ _=>rfl) fun _=>uniform_answerSw _

theorem uniform_cmdGetData (c : Cmd) : channel.Uniform fun le=>cmdGetData b {c with le}:=by
  unfold cmdGetData
  dsimp only
  cases objectTag c.data with
  | none=>exact uniform_answerSw _
  | some obj=>
    refine Channel.Uniform.ite (fun _=>uniform_emitBuilt (by decide) _) fun _=>?_
    refine Channel.Uniform.bind (blind_call _) fun st=>?_
    cases st with
    | none=>exact uniform_answerSw _
    | some st=>
      refine Channel.Uniform.bind ?_ fun body=>?_
      · exact Blind.ite (Blind.pure _) (Blind.ite (Blind.pure _) (Blind.ite (blind_call _) (Blind.pure _)))
      · cases body with
        | none=>exact uniform_answerSw _
        | some body=>
          exact Channel.Uniform.ite (fun _=>uniform_answerSw _) fun _=>uniform_emitBuilt (fun _=>tlvWrites_length) _

theorem uniform_cmdGenerate (c : Cmd) : channel.Uniform fun le=>cmdGenerate b {c with le}:=by
  unfold cmdGenerate
  dsimp only
  refine Channel.Uniform.bind (blind_appGets fun _ _=>rfl) fun _=>Channel.Uniform.ite (fun _=>uniform_answerSw _) fun _=>?_
  refine Channel.Uniform.ite (fun _=>uniform_answerSw _) fun _=>Channel.Uniform.ite (fun _=>uniform_answerSw _) fun _=>?_
  refine Channel.Uniform.bind (blind_call _) fun pub=>?_
  cases pub with
  | none=>exact uniform_answerSw _
  | some pub=>
    refine uniform_emitBuilt (fun payload h=>?_) _
    obtain ⟨inner,-,hpayload⟩:=Option.bind_eq_some_iff.mp h
    exact tlvWrites_length hpayload

theorem uniform_cmdPutData (c : Cmd) : channel.Uniform fun _=>cmdPutData b c:=by
  unfold cmdPutData
  refine Channel.Uniform.bind (blind_appGets fun _ _=>rfl) fun _=>Channel.Uniform.ite (fun _=>uniform_answerSw _) fun _=>?_
  cases objectTag c.data with
  | none=>exact uniform_answerSw _
  | some obj=>cases tlvFind c.data tagDataObject with
    | none=>exact uniform_answerSw _
    | some body=>
      refine Channel.Uniform.ite (fun _=>Channel.Uniform.bind (blind_call _) fun _=>?_) fun _=>?_
      · exact Channel.Uniform.ite (fun _=>uniform_answerSw _) fun _=>uniform_answerSw _
      · exact Channel.Uniform.ite (fun _=>uniform_answerSw _) fun _=>uniform_answerSw _

theorem metadata_length (items : List (ℕ × Bytes)) : ((tlvWrites buildSize items).getD []).length ≤ respBufferSize:=by
  cases h : tlvWrites buildSize items with
  | none=>exact Nat.zero_le _
  | some payload=>exact tlvWrites_length h

theorem uniform_emit {payload : Bytes} (h : payload.length ≤ respBufferSize) :
    channel.Uniform fun le=>(emit payload le : PivM β Reply):=by
  simp only [emit_channel]
  exact Channel.Uniform.emit h

theorem uniform_cmdGetMetadata (c : Cmd) : channel.Uniform fun le=>cmdGetMetadata b {c with le}:=by
  unfold cmdGetMetadata
  dsimp only
  refine Channel.Uniform.bind (blind_call _) fun st=>?_
  cases st with
  | none=>exact uniform_answerSw _
  | some st=>
    refine Channel.Uniform.ite (fun _=>uniform_emit (metadata_length _)) fun _=>?_
    refine Channel.Uniform.ite (fun _=>?_) fun _=>uniform_answerSw _
    refine Channel.Uniform.bind (blind_call _) fun _=>Channel.Uniform.ite (fun _=>uniform_answerSw _) fun _=>?_
    exact Channel.Uniform.bind (blind_call _) fun pub=>uniform_emit (metadata_length _)

theorem uniform_cmdSetMgmtKey (c : Cmd) : channel.Uniform fun _=>cmdSetMgmtKey b c:=by
  unfold cmdSetMgmtKey
  refine Channel.Uniform.bind (blind_appGets fun _ _=>rfl) fun _=>Channel.Uniform.ite (fun _=>uniform_answerSw _) fun _=>?_
  rcases c.data with _ | ⟨alg,_ | ⟨keyRef,_ | ⟨len,key⟩⟩⟩
  · exact uniform_answerSw _
  · exact uniform_answerSw _
  · exact uniform_answerSw _
  refine Channel.Uniform.ite (fun _=>uniform_answerSw _) fun _=>Channel.Uniform.ite (fun _=>uniform_answerSw _) fun _=>?_
  refine Channel.Uniform.ite (fun _=>uniform_answerSw _) fun _=>Channel.Uniform.bind (blind_call _) fun _=>?_
  exact Channel.Uniform.ite (fun _=>uniform_answerSw _) fun _=>uniform_answerSw _

theorem uniform_agreeKey (point : Bytes) : channel.Uniform fun le=>agreeKey b point le:=by
  unfold agreeKey
  refine Channel.Uniform.bind (blind_appGets fun _ _=>rfl) fun _=>Channel.Uniform.ite (fun _=>uniform_answerSw _) fun _=>?_
  refine Channel.Uniform.ite (fun _=>uniform_answerSw _) fun _=>Channel.Uniform.bind (blind_call _) fun shared=>?_
  cases shared with
  | none=>exact uniform_answerSw _
  | some shared=>exact uniform_emitBuilt (fun _=>dynAuth_length) _

theorem uniform_signChallenge (keyRef : UInt8) (challenge : Bytes) :
    channel.Uniform fun le=>signChallenge b keyRef challenge le:=by
  unfold signChallenge
  refine Channel.Uniform.bind (blind_appGets fun _ _=>rfl) fun _=>Channel.Uniform.ite (fun _=>uniform_answerSw _) fun _=>?_
  refine Channel.Uniform.bind (blind_call _) fun _=>Channel.Uniform.ite (fun _=>uniform_answerSw _) fun _=>?_
  refine Channel.Uniform.bind (blind_call _) fun rs=>?_
  cases rs with
  | none=>exact uniform_answerSw _
  | some rs=>
    exact Channel.Uniform.bind (Blind.when (blind_updateApp fun _ _=>rfl)) fun _=>
      uniform_emitBuilt (fun _=>dynAuth_length) _

/-- The mutual authentication answers at once, whatever the Le. -/
def Cmd.mutual (c : Cmd) : Prop:=c.ins=insGeneralAuth ∧ c.p2=key9B

theorem uniform_challenge (inner : Bytes) (keyRef : UInt8) :
    channel.Uniform fun le=>(match tlvFind inner tagChallenge with
      | none=>answerSw swDataInvalid
      | some challenge=>
        if challenge=[] then answerSw swDataInvalid else signChallenge b keyRef challenge le : PivM β Reply):=by
  cases tlvFind inner tagChallenge with
  | none=>exact uniform_answerSw _
  | some challenge=>exact Channel.Uniform.ite (fun _=>uniform_answerSw _) fun _=>uniform_signChallenge _ challenge

theorem uniform_cmdGeneralAuth {c : Cmd} (h : c.p2≠key9B) : channel.Uniform fun le=>cmdGeneralAuth b {c with le}:=by
  unfold cmdGeneralAuth
  dsimp only
  cases tlvFind c.data tagDynAuth with
  | none=>exact uniform_answerSw _
  | some inner=>
    simp only [if_neg h]
    refine Channel.Uniform.ite (fun _=>uniform_answerSw _) fun _=>?_
    by_cases h9D : c.p2=key9D
    · simp only [if_pos h9D]
      cases tlvFind inner tagExp with
      | some point=>exact uniform_agreeKey point
      | none=>exact uniform_challenge inner c.p2
    · simp only [if_neg h9D]
      exact uniform_challenge inner c.p2

theorem uniform_dispatch {c : Cmd} (h : ¬c.mutual) : channel.Uniform fun le=>dispatch b {c with le}:=by
  unfold dispatch
  dsimp only
  refine Channel.Uniform.ite (fun _=>?_) fun _=>?_
  · exact Channel.Uniform.bind (blind_updateApp fun _ _=>rfl) fun _=>uniform_emitBuilt (by decide) _
  refine Channel.Uniform.ite (fun _=>uniform_cmdGetData c) fun _=>Channel.Uniform.ite (fun _=>uniform_cmdVerify c) fun _=>?_
  refine Channel.Uniform.ite (fun hins=>uniform_cmdGeneralAuth fun hp2=>h ⟨hins,hp2⟩) fun _=>?_
  refine Channel.Uniform.ite (fun _=>uniform_cmdGenerate c) fun _=>?_
  refine Channel.Uniform.ite (fun _=>uniform_cmdPutData c) fun _=>?_
  refine Channel.Uniform.ite (fun _=>uniform_cmdGetMetadata c) fun _=>?_
  refine Channel.Uniform.ite (fun _=>uniform_cmdSetMgmtKey c) fun _=>?_
  exact Channel.Uniform.ite (fun _=>uniform_answerSw _) fun _=>uniform_answerSw _

theorem blind_answerBuilt (built : Option Bytes) (failed : UInt16) : Blind port (answerBuilt built failed : PivM β Reply):=by
  cases built <;> exact Blind.pure _

theorem blind_mgmtAuth (inner : Bytes) : Blind port (mgmtAuth b inner):=by
  unfold mgmtAuth
  split
  · refine Blind.ite (Blind.bind (blind_call _) fun witness=>?_) (Blind.pure _)
    cases witness with
    | none=>exact Blind.pure _
    | some witness=>
      refine Blind.bind (blind_updateApp fun _ _=>rfl) fun _=>Blind.bind (blind_call _) fun enc=>?_
      cases enc with
      | none=>exact Blind.pure _
      | some enc=>exact Blind.bind (blind_updateApp fun _ _=>rfl) fun _=>blind_answerBuilt _ _
  · refine Blind.ite (Blind.bind (blind_appGets fun _ _=>rfl) fun _=>Blind.ite ?_ ?_) (Blind.pure _)
    · exact Blind.bind (blind_updateApp fun _ _=>rfl) fun _=>Blind.pure _
    · refine Blind.bind (blind_call _) fun enc=>?_
      cases enc with
      | none=>exact Blind.pure _
      | some enc=>exact Blind.bind (blind_updateApp fun _ _=>rfl) fun _=>blind_answerBuilt _ _
  · exact Blind.pure _

theorem dispatch_mutual {c : Cmd} (h : c.mutual) :
    dispatch b c=match tlvFind c.data tagDynAuth with
      | none=>answerSw swDataInvalid
      | some inner=>mgmtAuth b inner:=by
  obtain ⟨hins,hp2⟩:=h
  have hdispatch : dispatch b c=cmdGeneralAuth b c:=by
    simp only [dispatch,hins]
    rfl
  rw [hdispatch]
  unfold cmdGeneralAuth
  cases tlvFind c.data tagDynAuth with
  | none=>rfl
  | some inner=>exact if_pos hp2

theorem blind_mutual {c : Cmd} (h : c.mutual) : Blind port (dispatch b c):=by
  rw [dispatch_mutual h]
  split
  · exact Blind.pure _
  · exact blind_mgmtAuth _

end Commands

section Exchanges

variable {β : Type} {b : Backend β}

/-- An APDU and the size of its response buffer. An applet that loses its power starts again. -/
def exchange (b : Backend β) (s : Ctx β) (i : Bytes × ℕ) : Option (Bytes × UInt16) × Ctx β:=
  match processApdu b i.1 {s with respMax:=i.2} with
  | (.ok reply,t)=>(some (reply.data,reply.sw),t)
  | (.error _,t)=>(none,{t with app:={}})

/-- A `GET RESPONSE` with any Le, into a buffer that has room for data. -/
def IsGet (i : Bytes × ℕ) : Prop:=
  2 < i.2 ∧ ∃ a, Scard.apduParse i.1=some a ∧ isGetResponse a=true ∧ a.p1=0x00 ∧ a.p2=0x00

def commandIn (s : Ctx β) (i : Bytes × ℕ) : Option Cmd:=commandOf {s with respMax:=i.2} i.1

def builds (b : Backend β) (s : Ctx β) (c : Cmd) : Except PowerLost Reply:=
  channel.whole (fun le=>dispatch b {c with le}) s

theorem exchange_get {s : Ctx β} {i : Bytes × ℕ} (h : IsGet i) : ∃ n, 0 < n ∧
    exchange b s i=(some (if s.app.resp=[] then ([],swSecurityStatus)
      else (s.app.resp.take n,responseCode.status (s.app.resp.length-n))),
        {s with respMax:=i.2,app:={s.app with resp:=s.app.resp.drop n}}):=by
  obtain ⟨hmax,a,hparse,hget,hp1,hp2⟩:=h
  have hprocess : processApdu b i.1 {s with respMax:=i.2}=cmdGetResponse a {s with respMax:=i.2}:=by
    unfold processApdu
    rw [bind_gets,if_neg (by change ¬i.2 < 2; omega),hparse]
    simp only [processParsed]
    rw [if_pos hget]
  unfold exchange
  rw [hprocess]
  unfold cmdGetResponse appGets
  rw [bind_gets,bind_gets,if_neg (by simp [hp1,hp2])]
  by_cases hresp : s.app.resp=[]
  · rw [if_pos hresp]
    have hdrop : s.app.resp.drop 1=s.app.resp:=by rw [hresp,List.drop_nil]
    refine ⟨1,by omega,?_⟩
    rw [if_pos hresp,hdrop]
    rfl
  · rw [if_neg hresp]
    have hpos:=List.length_pos_of_ne_nil hresp
    have hle : 0 < (if a.le=0 then 256 else a.le):=by split <;> omega
    refine ⟨min (min (if a.le=0 then 256 else a.le) s.app.resp.length) (i.2-2),by omega,?_⟩
    rw [if_neg hresp]
    rfl

def reader (b : Backend β) : Reader (Ctx β) (Bytes × ℕ) UInt8 UInt16 where
  code:=responseCode
  respond:=exchange b
  pending s:=s.app.resp
  withPending resp s:={s with app:={s.app with resp}}
  Read:=IsGet
  refused:=swSecurityStatus
  withPending_pending _:=rfl
  read s i hi:=by
    obtain ⟨n,hn,hexchange⟩:=@exchange_get β b s i hi
    exact ⟨n,_,hn,rfl,hexchange⟩

theorem exchange_command {s : Ctx β} {i : Bytes × ℕ} {c : Cmd} (h : commandIn s i=some c) :
    exchange b s i=match dispatch b c {s with respMax:=i.2} with
      | (.ok reply,t)=>(some (reply.data,reply.sw),{t with app:={t.app with chain:={}}})
      | (.error _,t)=>(none,{t with app:={}}):=by
  unfold exchange
  rw [processApdu_command h,bind_apply]
  cases dispatch b c {s with respMax:=i.2} with
  | mk r t=>cases r <;> rfl

theorem dispatch_mutual_le {c : Cmd} (h : c.mutual) (le : ℕ) : dispatch b {c with le}=dispatch b c:=by
  rw [dispatch_mutual h,dispatch_mutual (show ({c with le} : Cmd).mutual from h)]

theorem delivered {s : Ctx β} {i : Bytes × ℕ} {c : Cmd} {payload : Bytes} (hc : commandIn s i=some c)
    (hbuilds : builds b s c=.ok {data:=payload,sw:=swOk}) :
    responseCode.Delivered (exchange b) IsGet payload s i:=by
  have hfront : ∃ n t, dispatch b c {s with respMax:=i.2} =
      (.ok {data:=payload.take n,sw:=responseCode.status (payload.length-n)},t) ∧
        (n < payload.length→t.app.resp=payload.drop n):=by
    by_cases hmutual : c.mutual
    · have hblind:=blind_mutual (b:=b) hmutual {s with respMax:=i.2} (respBufferSize+3,[])
      have hsame : (dispatch b c {s with respMax:=i.2}).1=.ok {data:=payload,sw:=swOk}:=by
        have hwhole : (dispatch b {c with le:=respBufferSize+1} (port.set (respBufferSize+3,[]) s)).1 =
            .ok {data:=payload,sw:=swOk}:=hbuilds
        rw [dispatch_mutual_le hmutual] at hwhole
        exact (congrArg Prod.fst hblind).symm.trans hwhole
      refine ⟨payload.length,_,Prod.ext (hsame.trans ?_) rfl,fun hlt=>absurd hlt (Nat.lt_irrefl _)⟩
      simp
      rfl
    · obtain ⟨n,t,hrun,hrest⟩:=(uniform_dispatch (b:=b) hmutual).front (s:={s with respMax:=i.2}) hbuilds c.le
      exact ⟨n,t,hrun,fun hlt=>congrArg Prod.snd (hrest hlt)⟩
  obtain ⟨n,t,hrun,hrest⟩:=hfront
  have hfirst : exchange b s i=(some (payload.take n,responseCode.status (payload.length-n)),
      {t with app:={t.app with chain:={}}}):=by
    rw [exchange_command hc,hrun]
  exact Reader.delivered (r:=reader b) hfirst hrest

/-- The exchange completes a command that has a rest of its own, or stops. -/
def Replaces (b : Backend β) (s : Ctx β) (i : Bytes × ℕ) : Prop:=
  ∃ c∈commandIn s i, match builds b s c with
    | .ok reply=>¬c.mutual ∧ Channel.window i.2 c.le < reply.data.length
    | .error _=>True

def anyGet : Bytes × ℕ:=([0x00,insGetResponse,0x00,0x00],2048)

theorem isGet_any : IsGet anyGet:=⟨by decide,_,rfl,rfl,rfl,rfl⟩

section Forgetting

variable {s : Ctx β} {i : Bytes × ℕ} {c : Cmd}

def given (s : Ctx β) (i : Bytes × ℕ) (resp : Bytes) : Ctx β:=port.set (i.2,resp) s

theorem exchange_given (hc : commandIn s i=some c) (x : Bytes) :
    (reader b).respond ((reader b).withPending x s) i=match dispatch b c (given s i x) with
      | (.ok reply,t)=>(some (reply.data,reply.sw),{t with app:={t.app with chain:={}}})
      | (.error _,t)=>(none,{t with app:={}}):=
  exchange_command (s:=(reader b).withPending x s) hc

theorem forgotten_leaves (hc : commandIn s i=some c)
    (h : ∃ r t, ∀ x, dispatch b c (given s i x)=(.ok r,port.set (i.2,x) t)) :
    (reader b).Forgotten s i ↔ s.app.resp=[]:=by
  obtain ⟨r,t,hrun⟩:=h
  have hresp (x : Bytes) : ((reader b).respond ((reader b).withPending x s) i).2.app.resp=x:=by
    rw [exchange_given hc,hrun]
    rfl
  exact Reader.forgotten_left isGet_any (hresp s.app.resp) (hresp [])

theorem forgotten_stops (hc : commandIn s i=some c)
    (h : ∃ e t, ∀ x, dispatch b c (given s i x)=(.error e,port.set (i.2,x) t)) : (reader b).Forgotten s i:=by
  obtain ⟨e,t,hrun⟩:=h
  have hrespond (x : Bytes) : (reader b).respond ((reader b).withPending x s) i =
      (none,{t with respMax:=i.2,app:={}}):=by
    rw [exchange_given hc,hrun]
    rfl
  exact Reader.forgotten_same ((hrespond s.app.resp).trans (hrespond []).symm)

theorem forgotten_mutual (hc : commandIn s i=some c) (h : c.mutual) :
    (reader b).Forgotten s i ↔ s.app.resp=[] ∨ ∃ e, builds b s c=.error e:=by
  have hblind : ∀ x, dispatch b c (given s i x)=((dispatch b c s).1,port.set (i.2,x) (dispatch b c s).2):=fun x=>
    blind_mutual h s (i.2,x)
  have hbuilds : builds b s c=(dispatch b c s).1:=by
    change (dispatch b {c with le:=respBufferSize+1} (port.set (respBufferSize+3,[]) s)).1=_
    rw [dispatch_mutual_le h,blind_mutual h s]
  rw [hbuilds]
  cases hr : (dispatch b c s).1 with
  | error e=>exact iff_of_true (forgotten_stops hc ⟨e,_,fun x=>by rw [hblind,hr]⟩) (.inr ⟨e,rfl⟩)
  | ok reply=>
    rw [forgotten_leaves hc ⟨reply,_,fun x=>by rw [hblind,hr]⟩]
    simp

theorem forgotten_command (hc : commandIn s i=some c) (h : ¬c.mutual) :
    (reader b).Forgotten s i ↔ s.app.resp=[] ∨ channel.Replaces (fun le=>dispatch b {c with le}) c.le (given s i s.app.resp):=by
  have huniform:=uniform_dispatch (b:=b) h
  by_cases hown : channel.Replaces (fun le=>dispatch b {c with le}) c.le (given s i s.app.resp)
  · refine iff_of_true ?_ (.inr hown)
    rcases huniform.replaces hown with hstops | hsame
    · exact forgotten_stops hc hstops
    · have hdispatch : dispatch b c (given s i s.app.resp)=dispatch b c (given s i []):=hsame s.app.resp []
      have hfrom:=exchange_given (b:=b) hc s.app.resp
      rw [hdispatch,← exchange_given hc] at hfrom
      exact Reader.forgotten_same hfrom
  · rw [forgotten_leaves hc (huniform.leaves hown)]
    exact (or_iff_left hown).symm

/-- An exchange that is no `GET RESPONSE` forgets what was left exactly where there was nothing, or where it completes a
command with a rest of its own, or stops. -/
theorem forgotten_iff (hother : ∀ a, Scard.apduParse i.1=some a→isGetResponse a=false) :
    (reader b).Forgotten s i ↔ s.app.resp=[] ∨ Replaces b s i:=by
  unfold Replaces
  cases hc : commandIn s i with
  | none=>
    have hleaves (x : Bytes) : ((reader b).respond ((reader b).withPending x s) i).2.app.resp=x:=by
      obtain ⟨reply,app,hprocess,hresp⟩:=@processApdu_other β b (given s i x) i.1 hc
      change (exchange b ((reader b).withPending x s) i).2.app.resp=x
      unfold exchange
      rw [show processApdu b i.1 {(reader b).withPending x s with respMax:=i.2}=_ from hprocess]
      exact hresp hother
    rw [show (reader b).Forgotten s i ↔ _ from Reader.forgotten_left isGet_any (hleaves s.app.resp) (hleaves [])]
    simp [reader]
  | some c=>
    simp only [Option.mem_def,Option.some.injEq,exists_eq_left']
    by_cases h : c.mutual
    · rw [forgotten_mutual hc h]
      cases builds b s c with
      | error e=>exact iff_of_true (.inr ⟨e,rfl⟩) (.inr trivial)
      | ok reply=>simp [h]
    · have hbuilds : channel.whole (fun le=>dispatch b {c with le}) (given s i s.app.resp)=builds b s c:=rfl
      rw [forgotten_command hc h,Channel.Replaces,hbuilds]
      cases builds b s c with
      | error e=>simp
      | ok reply=>
        simp only [h,not_false_eq_true,true_and]
        rfl

end Forgetting

end Exchanges

end CdcBadge.Piv
