import CdcBadge.OathApplet
import CdcBadge.PivReading

/-!
# Reading YKOATH responses

A payload goes out in the windows of a command and of the `SEND REMAINING` commands behind it.
-/

namespace CdcBadge.Oath

open Handler Responses Windows
open Pin (PowerLost)

section Commands

variable {β : Type} {b : Backend β}

def port : Port (Ctx β) (ℕ × Bytes) where
  get s:=(s.respMax,s.app.resp)
  set v s:={s with respMax:=v.1,app:={s.app with resp:=v.2}}
  get_set _ _:=rfl
  set_set _ _ _:=rfl
  set_get _:=rfl

theorem swMore_ne_ok (left : ℕ) : swMore left≠swOk:=Piv.swMoreData_ne_ok left

def responseCode : Code UInt16 where
  done:=swOk
  more:=swMore
  more_ne_done:=swMore_ne_ok

def channel : Channel (Ctx β) Reply UInt16 UInt8 where
  port:=port
  code:=responseCode
  size:=respBufferSize
  reply data sw:={data,sw}
  data:=Reply.data
  status:=Reply.sw
  data_reply _ _:=rfl
  status_reply _ _:=rfl

theorem emit_channel (payload : Bytes) (le : ℕ) : (emit payload le : OathM β Reply)=channel.emit payload le:=by
  funext s
  unfold emit Channel.emit
  rw [bind_gets,bind_gets]
  change _=(if payload.length ≤ Channel.window s.respMax le then (_ : OathM β Reply) else _) s
  by_cases hfits : payload.length ≤ Channel.window s.respMax le
  · rw [if_pos hfits]
    exact congrFun (if_pos hfits) s
  · rw [if_neg hfits]
    exact congrFun (if_neg hfits) s

theorem putTlv_length {buf : Bytes} (h : buf.length ≤ buildSize) (tag : UInt8) (val : Bytes) :
    (putTlv buildSize buf tag val).length ≤ buildSize:=by
  unfold putTlv
  split
  · exact h
  · rename_i hroom
    simp only [List.length_append,List.length_cons,List.length_nil]
    omega

theorem putTlv_first_length (tag : UInt8) (val : Bytes) : (putTlv buildSize [] tag val).length ≤ buildSize:=
  putTlv_length (Nat.zero_le _) tag val

/-- The buffer never holds more than its size. -/
def Sized (m : Bytes→OathM β Bytes) : Prop:=
  ∀ buf, buf.length ≤ buildSize→Triple (fun _=>True) (m buf) (fun out _=>out.length ≤ buildSize) fun _ _=>True

theorem sized_pure {buf : Bytes} (h : buf.length ≤ buildSize) :
    Triple (fun _=>True) (pure buf : OathM β Bytes) (fun out _=>out.length ≤ buildSize) fun _ _=>True:=
  Triple.pure fun _ _=>h

theorem triple_any {α : Type} (m : OathM β α) : Triple (fun _=>True) m (fun _ _=>True) fun _ _=>True:=
  Triple.of_ok fun _ _ _ _ _=>trivial

theorem sized_listEntry (slot : ℕ) : Sized fun buf=>listEntry b buf slot:=by
  intro buf hbuf
  refine Triple.bind (triple_any _) fun m=>?_
  cases m with
  | none=>exact sized_pure hbuf
  | some m=>exact sized_pure (putTlv_length hbuf _ _)

theorem sized_calculateEntry (chal : ByteArr 8) (slot : ℕ) : Sized fun buf=>calculateEntry b chal buf slot:=by
  intro buf hbuf
  refine Triple.bind (triple_any _) fun m=>?_
  cases m with
  | none=>exact sized_pure hbuf
  | some m=>
    have hname:=putTlv_length hbuf tagName (buildYkName m)
    refine Triple.ite (fun _=>sized_pure (putTlv_length hname _ _)) fun _=>?_
    refine Triple.ite (fun _=>sized_pure (putTlv_length hname _ _)) fun _=>?_
    refine Triple.bind (triple_any _) fun code=>?_
    cases code with
    | some code=>exact sized_pure (putTlv_length hname _ _)
    | none=>exact sized_pure (putTlv_length hname _ _)

theorem sized_foldlM {f : Bytes → ℕ→OathM β Bytes} (h : ∀ slot, Sized fun buf=>f buf slot) (slots : List ℕ) :
    Sized fun buf=>slots.foldlM f buf:=by
  induction slots with
  | nil=>exact fun buf hbuf=>sized_pure hbuf
  | cons slot slots ih=>
    intro buf hbuf
    simp only [List.foldlM_cons]
    exact Triple.bind (h slot buf hbuf) fun out=>fun s hs=>ih out hs s trivial

theorem uniform_answerSw (sw : UInt16) : channel.Uniform fun _=>(answerSw sw : OathM β Reply):=Channel.Uniform.answer sw

theorem uniform_emit {payload : Bytes} (h : payload.length ≤ respBufferSize) :
    channel.Uniform fun le=>(emit payload le : OathM β Reply):=by
  simp only [emit_channel]
  exact Channel.Uniform.emit h

theorem blind_appGets {α : Type} {f : Session → α} (h : ∀ a resp, f {a with resp}=f a) :
    Blind port (appGets f : OathM β α):=
  Blind.gets fun _ _=>h _ _

theorem blind_updateApp {f : Session → Session} (h : ∀ a resp, f {a with resp}={f a with resp}) :
    Blind port (updateApp f : OathM β Unit):=
  Blind.modify fun v s=>by
    change ({s with respMax:=v.1,app:=f {s.app with resp:=v.2}} : Ctx β)=_
    rw [h]
    rfl

theorem blind_call {α : Type} (m : Handler PowerLost β α) : Blind port (call m : OathM β α):=
  Blind.zoom m (fun _ _=>rfl) fun _ _ _=>rfl

theorem blind_capacity : Blind port (gets fun s : Ctx β=>b.capacity s.be : OathM β ℕ):=Blind.gets fun _ _=>rfl

theorem blind_readShown (slot : ℕ) : Blind port (readShown b slot):=by
  refine Blind.bind (blind_call _) fun m=>?_
  cases m with
  | none=>exact Blind.pure _
  | some m=>exact Blind.ite (Blind.pure _) (Blind.pure _)

theorem blind_findAmong (name : Bytes) (slots : List ℕ) : Blind port (findAmong b name slots):=by
  induction slots with
  | nil=>exact Blind.pure _
  | cons slot slots ih=>
    refine Blind.bind (blind_readShown slot) fun m=>?_
    cases m with
    | none=>exact ih
    | some m=>exact Blind.ite (Blind.pure _) ih

theorem blind_findByYkName (name : Bytes) : Blind port (findByYkName b name):=
  Blind.ite (Blind.pure _) (Blind.bind blind_capacity fun _=>blind_findAmong name _)

theorem blind_foldlM {f : Bytes → ℕ→OathM β Bytes} (h : ∀ buf slot, Blind port (f buf slot)) (slots : List ℕ)
    (buf : Bytes) : Blind port (slots.foldlM f buf):=by
  induction slots generalizing buf with
  | nil=>exact Blind.pure _
  | cons slot slots ih=>
    simp only [List.foldlM_cons]
    exact Blind.bind (h buf slot) fun out=>ih out

theorem blind_listEntry (buf : Bytes) (slot : ℕ) : Blind port (listEntry b buf slot):=by
  refine Blind.bind (blind_readShown slot) fun m=>?_
  cases m <;> exact Blind.pure _

theorem blind_calculateEntry (chal : ByteArr 8) (buf : Bytes) (slot : ℕ) : Blind port (calculateEntry b chal buf slot):=by
  refine Blind.bind (blind_readShown slot) fun m=>?_
  cases m with
  | none=>exact Blind.pure _
  | some m=>
    refine Blind.ite (Blind.pure _) (Blind.ite (Blind.pure _) (Blind.bind (blind_call _) fun code=>?_))
    cases code <;> exact Blind.pure _

theorem blind_lockSession : Blind port (lockSession b):=by
  refine Blind.bind (blind_call _) fun challenge=>?_
  cases challenge with
  | none=>exact Blind.bind (blind_updateApp fun _ _=>rfl) fun _=>blind_appGets fun _ _=>rfl
  | some challenge=>exact Blind.bind (blind_updateApp fun _ _=>rfl) fun _=>blind_appGets fun _ _=>rfl

theorem uniform_cmdSelect : channel.Uniform fun le=>cmdSelect b le:=by
  unfold cmdSelect
  refine Channel.Uniform.bind (blind_call _) fun devid=>Channel.Uniform.bind (blind_call _) fun akey=>?_
  have hhead:=putTlv_length (putTlv_first_length tagVersion [0x05,0x04,0x03]) tagName devid.toList
  refine Channel.Uniform.bind (blind_updateApp fun _ _=>rfl) fun _=>Channel.Uniform.ite (fun _=>?_) fun _=>?_
  · refine Channel.Uniform.bind blind_lockSession fun challenge=>?_
    exact uniform_emit (putTlv_length (putTlv_length hhead _ _) _ _)
  · exact uniform_emit hhead

theorem uniform_cmdPut (data : Bytes) : channel.Uniform fun _=>cmdPut b data:=by
  unfold cmdPut
  cases parsePut data with
  | none=>exact uniform_answerSw _
  | some account=>
    refine Channel.Uniform.bind (blind_call _) fun _=>?_
    exact Channel.Uniform.ite (fun _=>uniform_answerSw _) fun _=>uniform_answerSw _

theorem uniform_cmdDelete (data : Bytes) : channel.Uniform fun _=>cmdDelete b data:=by
  unfold cmdDelete
  cases findTlv data tagName with
  | none=>exact uniform_answerSw _
  | some name=>
    refine Channel.Uniform.bind (blind_findByYkName name) fun slot=>?_
    cases slot with
    | none=>exact uniform_answerSw _
    | some slot=>
      refine Channel.Uniform.bind (blind_call _) fun _=>?_
      exact Channel.Uniform.ite (fun _=>uniform_answerSw _) fun _=>uniform_answerSw _

theorem uniform_cmdList : channel.Uniform fun le=>cmdList b le:=by
  unfold cmdList
  refine Channel.Uniform.bind blind_capacity fun cap=>?_
  refine Channel.Uniform.bind_of (q:=fun payload=>payload.length ≤ buildSize) (blind_foldlM blind_listEntry _ _)
    (fun s payload t h=>?_) fun payload h=>uniform_emit h
  exact (sized_foldlM sized_listEntry _ [] (Nat.zero_le _)).ok trivial h

theorem uniform_cmdCalculateAll (data : Bytes) : channel.Uniform fun le=>cmdCalculateAll b data le:=by
  unfold cmdCalculateAll
  cases challengeIn data with
  | none=>exact uniform_answerSw _
  | some chal=>
    refine Channel.Uniform.bind blind_capacity fun cap=>?_
    refine Channel.Uniform.bind_of (q:=fun payload=>payload.length ≤ buildSize)
      (blind_foldlM (blind_calculateEntry chal) _ _) (fun s payload t h=>?_) fun payload h=>uniform_emit h
    exact (sized_foldlM (sized_calculateEntry chal) _ [] (Nat.zero_le _)).ok trivial h

theorem uniform_cmdCalculate (data : Bytes) : channel.Uniform fun le=>cmdCalculate b data le:=by
  unfold cmdCalculate
  cases findTlv data tagName with
  | none=>exact uniform_answerSw _
  | some name=>cases challengeIn data with
    | none=>exact uniform_answerSw _
    | some chal=>
      refine Channel.Uniform.bind (blind_findByYkName name) fun slot=>?_
      cases slot with
      | none=>exact uniform_answerSw _
      | some slot=>
        refine Channel.Uniform.bind (blind_call _) fun m=>?_
        cases m with
        | none=>exact uniform_answerSw _
        | some m=>
          refine Channel.Uniform.bind (Blind.ite (blind_call _) (Blind.pure _)) fun _=>?_
          refine Channel.Uniform.ite (fun _=>uniform_answerSw _) fun _=>?_
          refine Channel.Uniform.bind (blind_call _) fun code=>?_
          cases code with
          | none=>exact uniform_answerSw _
          | some code=>exact uniform_emit (putTlv_first_length _ _)

theorem uniform_cmdSetCode (data : Bytes) : channel.Uniform fun _=>cmdSetCode b data:=by
  unfold cmdSetCode
  cases findTlv data tagKey with
  | none=>exact uniform_answerSw _
  | some key=>cases key with
    | nil=>
      refine Channel.Uniform.bind (blind_call _) fun _=>?_
      exact Channel.Uniform.bind (blind_updateApp fun _ _=>rfl) fun _=>uniform_answerSw _
    | cons algo key=>
      refine Channel.Uniform.ite (fun _=>uniform_answerSw _) fun _=>?_
      cases challengeIn data with
      | none=>exact uniform_answerSw _
      | some chal=>cases responseIn data with
        | none=>exact uniform_answerSw _
        | some proof=>
          refine Channel.Uniform.bind (blind_call _) fun expect=>?_
          cases expect with
          | none=>exact uniform_answerSw _
          | some expect=>
            refine Channel.Uniform.ite (fun _=>uniform_answerSw _) fun _=>Channel.Uniform.bind (blind_call _) fun _=>?_
            exact Channel.Uniform.ite (fun _=>uniform_answerSw _) fun _=>uniform_answerSw _

theorem uniform_cmdValidate (data : Bytes) : channel.Uniform fun le=>cmdValidate b data le:=by
  unfold cmdValidate
  refine Channel.Uniform.bind (blind_call _) fun akey=>?_
  cases akey with
  | none=>exact uniform_answerSw _
  | some akey=>
    refine Channel.Uniform.bind (blind_appGets fun _ _=>rfl) fun _=>Channel.Uniform.ite (fun _=>uniform_answerSw _) fun _=>?_
    cases responseIn data with
    | none=>exact uniform_answerSw _
    | some proof=>cases challengeIn data with
      | none=>exact uniform_answerSw _
      | some hostChal=>
        refine Channel.Uniform.bind (blind_appGets fun _ _=>rfl) fun _=>Channel.Uniform.bind (blind_call _) fun expect=>?_
        cases expect with
        | none=>exact uniform_answerSw _
        | some expect=>
          refine Channel.Uniform.ite (fun _=>uniform_answerSw _) fun _=>Channel.Uniform.bind (blind_call _) fun reply=>?_
          cases reply with
          | none=>exact uniform_answerSw _
          | some reply=>
            exact Channel.Uniform.bind (blind_updateApp fun _ _=>rfl) fun _=>uniform_emit (putTlv_first_length _ _)

theorem uniform_cmdReset (a : Scard.Apdu) : channel.Uniform fun _=>cmdReset b a:=by
  unfold cmdReset
  refine Channel.Uniform.ite (fun _=>uniform_answerSw _) fun _=>Channel.Uniform.bind (blind_call _) fun _=>?_
  exact Channel.Uniform.bind (blind_call _) fun _=>Channel.Uniform.bind (blind_updateApp fun _ _=>rfl) fun _=>
    uniform_answerSw _

/-- `SEND REMAINING`, and not a SELECT. -/
def isSendRemaining (a : Scard.Apdu) : Bool:=a.ins=insSendRemaining

theorem uniform_processParsed {a : Scard.Apdu} (h : isSendRemaining a=false) :
    channel.Uniform fun le=>processParsed b {a with le}:=by
  unfold processParsed
  dsimp only
  refine Channel.Uniform.ite (fun _=>uniform_cmdSelect) fun _=>?_
  refine Channel.Uniform.ite (fun hins=>absurd hins (by simpa [isSendRemaining] using h)) fun _=>?_
  refine Channel.Uniform.ite (fun _=>uniform_cmdReset a) fun _=>?_
  refine Channel.Uniform.ite (fun _=>uniform_cmdValidate _) fun _=>?_
  refine Channel.Uniform.bind (blind_appGets fun _ _=>rfl) fun _=>Channel.Uniform.ite (fun _=>uniform_answerSw _) fun _=>?_
  refine Channel.Uniform.ite (fun _=>uniform_cmdPut _) fun _=>Channel.Uniform.ite (fun _=>uniform_cmdDelete _) fun _=>?_
  refine Channel.Uniform.ite (fun _=>uniform_cmdSetCode _) fun _=>Channel.Uniform.ite (fun _=>uniform_cmdList) fun _=>?_
  refine Channel.Uniform.ite (fun _=>uniform_cmdCalculate _) fun _=>?_
  exact Channel.Uniform.ite (fun _=>uniform_cmdCalculateAll _) fun _=>uniform_answerSw _

end Commands

section Exchanges

variable {β : Type} {b : Backend β} {s : Ctx β} {i : Bytes × ℕ} {a : Scard.Apdu}

/-- An APDU and the size of its response buffer. An applet that loses its power starts again. -/
def exchange (b : Backend β) (s : Ctx β) (i : Bytes × ℕ) : Option (Bytes × UInt16) × Ctx β:=
  match processApdu b i.1 {s with respMax:=i.2} with
  | (.ok reply,t)=>(some (reply.data,reply.sw),t)
  | (.error _,t)=>(none,{t with app:={}})

def parsed (i : Bytes × ℕ) : Option Scard.Apdu:=if i.2 < 2 then none else Scard.apduParse i.1

/-- A `SEND REMAINING` with any Le, into a buffer that has room for data. -/
def IsSend (i : Bytes × ℕ) : Prop:=2 < i.2 ∧ ∃ a∈parsed i, isSendRemaining a=true

def builds (b : Backend β) (s : Ctx β) (a : Scard.Apdu) : Except PowerLost Reply:=
  channel.whole (fun le=>processParsed b {a with le}) s

theorem exchange_parsed (h : parsed i=some a) : exchange b s i=match processParsed b a {s with respMax:=i.2} with
    | (.ok reply,t)=>(some (reply.data,reply.sw),t)
    | (.error _,t)=>(none,{t with app:={}}):=by
  unfold parsed at h
  split at h
  · cases h
  · rename_i hmax
    unfold exchange processApdu
    rw [bind_gets,if_neg hmax,h]

theorem exchange_unparsed (h : parsed i=none) : (exchange b s i).2.app=s.app:=by
  unfold parsed at h
  unfold exchange processApdu
  rw [bind_gets]
  split at h
  · rename_i hmax
    rw [if_pos hmax]
    rfl
  · rename_i hmax
    rw [if_neg hmax,h]
    rfl

theorem exchange_send (h : IsSend i) : ∃ n, 0 < n ∧
    exchange b s i=(some (if s.app.resp=[] then ([],swNotSatisfied)
      else (s.app.resp.take n,responseCode.status (s.app.resp.length-n))),
        {s with respMax:=i.2,app:={s.app with resp:=s.app.resp.drop n}}):=by
  obtain ⟨hmax,a,hparsed,hsend⟩:=h
  have hins : a.ins=insSendRemaining:=by simpa [isSendRemaining] using hsend
  have hprocess : processParsed b a=cmdSendRemaining a:=by
    unfold processParsed
    rw [if_neg (by simp [hins,insSendRemaining,insIsoSelect]),if_pos hins]
  rw [exchange_parsed hparsed,hprocess]
  unfold cmdSendRemaining appGets
  rw [bind_gets,bind_gets]
  by_cases hresp : s.app.resp=[]
  · rw [if_pos hresp]
    have hdrop : s.app.resp.drop 1=s.app.resp:=by rw [hresp,List.drop_nil]
    refine ⟨1,by omega,?_⟩
    rw [if_pos hresp,hdrop]
    rfl
  · rw [if_neg hresp]
    have hpos:=List.length_pos_of_ne_nil hresp
    have hle : 0 < (if a.le=0 then 256 else a.le):=by split <;> omega
    set n:=min (min (if a.le=0 then 256 else a.le) s.app.resp.length) (i.2-2) with hn
    refine ⟨n,by omega,?_⟩
    have hstatus : (if 0 < s.app.resp.length-n then swMore (s.app.resp.length-n) else swOk) =
        responseCode.status (s.app.resp.length-n):=by
      rcases Nat.eq_zero_or_pos (s.app.resp.length-n) with hzero | hmore
      · rw [hzero]
        rfl
      · rw [if_pos hmore,responseCode.status_pos hmore]
        rfl
    rw [if_neg hresp,← hstatus]
    rfl

def reader (b : Backend β) : Reader (Ctx β) (Bytes × ℕ) UInt8 UInt16 where
  code:=responseCode
  respond:=exchange b
  pending s:=s.app.resp
  withPending resp s:={s with app:={s.app with resp}}
  Read:=IsSend
  refused:=swNotSatisfied
  withPending_pending _:=rfl
  read s i hi:=by
    obtain ⟨n,hn,hexchange⟩:=@exchange_send β b s i hi
    exact ⟨n,_,hn,rfl,hexchange⟩

theorem delivered {payload : Bytes} (ha : parsed i=some a) (hother : isSendRemaining a=false)
    (hbuilds : builds b s a=.ok {data:=payload,sw:=swOk}) :
    responseCode.Delivered (exchange b) IsSend payload s i:=by
  obtain ⟨n,t,hrun,hrest⟩:=(uniform_processParsed (b:=b) hother).front (s:={s with respMax:=i.2}) hbuilds a.le
  have hfirst : exchange b s i=(some (payload.take n,responseCode.status (payload.length-n)),t):=by
    rw [exchange_parsed ha,show processParsed b a _=_ from hrun]
    rfl
  exact Reader.delivered (r:=reader b) hfirst fun hlt=>congrArg Prod.snd (hrest hlt)

/-- The exchange is a command that has a rest of its own, or stops. -/
def Replaces (b : Backend β) (s : Ctx β) (i : Bytes × ℕ) : Prop:=
  ∃ a∈parsed i, match builds b s a with
    | .ok reply=>Channel.window i.2 a.le < reply.data.length
    | .error _=>True

def anySend : Bytes × ℕ:=([0x00,insSendRemaining,0x00,0x00],2048)

theorem isSend_any : IsSend anySend:=⟨by decide,_,rfl,rfl⟩

def given (s : Ctx β) (i : Bytes × ℕ) (resp : Bytes) : Ctx β:=port.set (i.2,resp) s

theorem exchange_given (ha : parsed i=some a) (x : Bytes) :
    (reader b).respond ((reader b).withPending x s) i=match processParsed b a (given s i x) with
      | (.ok reply,t)=>(some (reply.data,reply.sw),t)
      | (.error _,t)=>(none,{t with app:={}}):=
  exchange_parsed (s:=(reader b).withPending x s) ha

/-- An exchange that is no `SEND REMAINING` forgets what was left exactly where there was nothing, or where it is a command
with a rest of its own, or stops. -/
theorem forgotten_iff (hother : ∀ a, Scard.apduParse i.1=some a→isSendRemaining a=false) :
    (reader b).Forgotten s i ↔ s.app.resp=[] ∨ Replaces b s i:=by
  unfold Replaces
  cases ha : parsed i with
  | none=>
    have hleaves (x : Bytes) : ((reader b).respond ((reader b).withPending x s) i).2.app.resp=x:=by
      rw [show ((reader b).respond ((reader b).withPending x s) i).2.app=_ from exchange_unparsed ha]
      rfl
    rw [show (reader b).Forgotten s i ↔ _ from Reader.forgotten_left isSend_any (hleaves s.app.resp) (hleaves [])]
    simp [reader]
  | some a=>
    have hsend : isSendRemaining a=false:=by
      refine hother a ?_
      unfold parsed at ha
      split at ha
      · cases ha
      · exact ha
    have huniform:=uniform_processParsed (b:=b) hsend
    have hreplaces : channel.Replaces (fun le=>processParsed b {a with le}) a.le (given s i s.app.resp) ↔
        ∃ a'∈some a, match builds b s a' with
          | .ok reply=>Channel.window i.2 a'.le < reply.data.length
          | .error _=>True:=by
      have hbuilds : channel.whole (fun le=>processParsed b {a with le}) (given s i s.app.resp)=builds b s a:=rfl
      simp only [Option.mem_def,Option.some.injEq,exists_eq_left']
      rw [Channel.Replaces,hbuilds]
      cases builds b s a <;> rfl
    rw [← hreplaces]
    by_cases hown : channel.Replaces (fun le=>processParsed b {a with le}) a.le (given s i s.app.resp)
    · refine iff_of_true ?_ (.inr hown)
      rcases huniform.replaces hown with ⟨e,t,hrun⟩ | hsame
      · have hrespond (x : Bytes) : (reader b).respond ((reader b).withPending x s) i =
            (none,{t with respMax:=i.2,app:={}}):=by
          rw [exchange_given ha,show processParsed b a (given s i x)=_ from hrun x]
          rfl
        exact Reader.forgotten_same ((hrespond s.app.resp).trans (hrespond []).symm)
      · have hprocess : processParsed b a (given s i s.app.resp)=processParsed b a (given s i []):=hsame s.app.resp []
        have hfrom:=exchange_given (b:=b) (s:=s) ha s.app.resp
        rw [hprocess,← exchange_given ha] at hfrom
        exact Reader.forgotten_same hfrom
    · obtain ⟨reply,t,hrun⟩:=huniform.leaves hown
      have hresp (x : Bytes) : ((reader b).respond ((reader b).withPending x s) i).2.app.resp=x:=by
        rw [exchange_given ha,show processParsed b a (given s i x)=_ from hrun x]
        rfl
      rw [show (reader b).Forgotten s i ↔ _ from Reader.forgotten_left isSend_any (hresp s.app.resp) (hresp [])]
      exact (or_iff_left hown).symm

end Exchanges

end CdcBadge.Oath
