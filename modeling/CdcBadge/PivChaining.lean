import CdcBadge.PairedRuns
import CdcBadge.PivAccess
import CdcBadge.PivFrames

/-!
# Command chaining of the PIV applet

A command that comes in blocks is answered as the command in one piece is, since no command
looks at the chain. A SELECT goes through the chain as every other command does.
-/

namespace CdcBadge.Piv

open Handler
open Pin (PowerLost)

def Session.closed (a : Session) : Session:={a with chain:={}}

def Ctx.closed {β : Type} (s : Ctx β) : Ctx β:={s with app:=s.app.closed}

def SameButChain {β : Type} (s t : Ctx β) : Prop:=s.closed=t.closed

section Commands

variable {β α : Type} {b : Backend β}

namespace SameButChain

variable {s t : Ctx β}

theorem app (h : SameButChain s t) : s.app.closed=t.app.closed:=congrArg Ctx.app h

theorem be (h : SameButChain s t) : s.be=t.be:=by
  have hclosed : s.closed.be=t.closed.be:=congrArg Ctx.be h
  exact hclosed

theorem respMax (h : SameButChain s t) : s.respMax=t.respMax:=by
  have hclosed : s.closed.respMax=t.closed.respMax:=congrArg Ctx.respMax h
  exact hclosed

theorem mk (hbe : s.be=t.be) (hresp : s.respMax=t.respMax) (happ : s.app.closed=t.app.closed) : SameButChain s t:=by
  unfold SameButChain Ctx.closed
  rw [hbe,hresp,happ]

end SameButChain

theorem paired_call (m : Handler PowerLost β α) : Paired SameButChain (call m : PivM β α):=by
  intro s t h
  unfold call Handler.zoom
  rw [h.be]
  exact ⟨rfl,.mk rfl h.respMax h.app⟩

theorem paired_gets {f : Ctx β → α} (hf : ∀ s t : Ctx β, SameButChain s t → f s=f t) :
    Paired SameButChain (gets f : PivM β α):=
  fun s t h=>⟨congrArg Except.ok (hf s t h),h⟩

theorem paired_appGets {f : Session → α} (hf : ∀ a, f a=f a.closed) : Paired SameButChain (appGets f : PivM β α):=by
  apply paired_gets
  intro s t h
  rw [hf s.app,h.app,← hf]

theorem paired_updateApp {f : Session → Session} (hf : ∀ a, (f a).closed=(f a.closed).closed) :
    Paired SameButChain (updateApp f : PivM β Unit):=by
  intro s t h
  refine ⟨rfl,.mk h.be h.respMax ?_⟩
  change (f s.app).closed=(f t.app).closed
  rw [hf s.app,h.app,← hf]

theorem paired_emit (payload : Bytes) (le : ℕ) : Paired SameButChain (emit payload le : PivM β Reply):=by
  apply Paired.bind (paired_gets fun _ _ h=>h.respMax) fun _=>?_
  apply Paired.ite (Paired.pure _)
  exact Paired.bind (paired_updateApp fun _=>rfl) fun _=>Paired.pure _

theorem paired_emitBuilt (built : Option Bytes) (le : ℕ) (failed : UInt16) :
    Paired SameButChain (emitBuilt built le failed : PivM β Reply):=by
  cases built with
  | none=>exact Paired.pure _
  | some payload=>exact paired_emit payload le

theorem paired_answerBuilt (built : Option Bytes) (failed : UInt16) :
    Paired SameButChain (answerBuilt built failed : PivM β Reply):=by
  cases built <;> exact Paired.pure _

theorem paired_pinStatus : Paired SameButChain (pinStatus b):=by
  apply Paired.bind (paired_gets fun _ _ h=>congrArg b.pinBlocked h.be) fun _=>?_
  apply Paired.ite (Paired.pure _)
  exact Paired.bind (paired_gets fun _ _ h=>congrArg b.pinRetries h.be) fun _=>Paired.pure _

theorem paired_cmdSelect (le : ℕ) : Paired SameButChain (cmdSelect le : PivM β Reply):=
  Paired.bind (paired_updateApp fun _=>rfl) fun _=>paired_emitBuilt _ _ _

theorem paired_cmdVerify (c : Cmd) : Paired SameButChain (cmdVerify b c):=by
  unfold cmdVerify
  apply Paired.ite (Paired.pure _)
  apply Paired.ite
  · exact Paired.bind (paired_updateApp fun _=>rfl) fun _=>Paired.pure _
  apply Paired.ite
  · apply Paired.bind (paired_appGets fun _=>rfl) fun _=>?_
    exact Paired.ite (Paired.pure _) paired_pinStatus
  apply Paired.ite (Paired.pure _)
  apply Paired.bind (paired_gets fun _ _ h=>congrArg b.pinBlocked h.be) fun _=>?_
  apply Paired.ite (Paired.pure _)
  apply Paired.ite (Paired.pure _)
  apply Paired.ite (Paired.pure _)
  apply Paired.bind (paired_call _) fun _=>?_
  apply Paired.ite _ paired_pinStatus
  exact Paired.bind (paired_updateApp fun _=>rfl) fun _=>Paired.pure _

theorem paired_drawWitness : Paired SameButChain (drawWitness b):=by
  apply Paired.bind (paired_call _) fun witness=>?_
  cases witness with
  | none=>exact Paired.pure _
  | some witness=>
    apply Paired.bind (paired_updateApp fun _=>rfl) fun _=>?_
    apply Paired.bind (paired_call _) fun enc=>?_
    cases enc with
    | none=>exact Paired.pure _
    | some enc=>exact Paired.bind (paired_updateApp fun _=>rfl) fun _=>paired_answerBuilt _ _

theorem paired_answerWitness (witness challenge : Bytes) : Paired SameButChain (answerWitness b witness challenge):=by
  apply Paired.bind (paired_appGets fun _=>rfl) fun _=>?_
  apply Paired.ite
  · exact Paired.bind (paired_updateApp fun _=>rfl) fun _=>Paired.pure _
  · apply Paired.bind (paired_call _) fun enc=>?_
    cases enc with
    | none=>exact Paired.pure _
    | some enc=>exact Paired.bind (paired_updateApp fun _=>rfl) fun _=>paired_answerBuilt _ _

theorem paired_mgmtAuth (inner : Bytes) : Paired SameButChain (mgmtAuth b inner):=by
  unfold mgmtAuth
  split
  · exact Paired.ite paired_drawWitness (Paired.pure _)
  · exact Paired.ite (paired_answerWitness _ _) (Paired.pure _)
  · exact Paired.pure _

theorem paired_agreeKey (point : Bytes) (le : ℕ) : Paired SameButChain (agreeKey b point le):=by
  apply Paired.bind (paired_appGets fun _=>rfl) fun _=>?_
  apply Paired.ite (Paired.pure _)
  apply Paired.ite (Paired.pure _)
  apply Paired.bind (paired_call _) fun shared=>?_
  cases shared with
  | none=>exact Paired.pure _
  | some shared=>exact paired_emitBuilt _ _ _

theorem paired_signChallenge (keyRef : UInt8) (challenge : Bytes) (le : ℕ) :
    Paired SameButChain (signChallenge b keyRef challenge le):=by
  apply Paired.bind (paired_appGets fun _=>rfl) fun _=>?_
  apply Paired.ite (Paired.pure _)
  apply Paired.bind (paired_call _) fun _=>?_
  apply Paired.ite (Paired.pure _)
  apply Paired.bind (paired_call _) fun rs=>?_
  cases rs with
  | none=>exact Paired.pure _
  | some rs=>
    apply Paired.bind _ fun _=>paired_emitBuilt _ _ _
    apply Paired.ite _ (Paired.pure _)
    exact Paired.bind (paired_updateApp fun _=>rfl) fun _=>Paired.pure _

theorem paired_cmdGeneralAuth (c : Cmd) : Paired SameButChain (cmdGeneralAuth b c):=by
  unfold cmdGeneralAuth
  split
  · exact Paired.pure _
  · apply Paired.ite (paired_mgmtAuth _)
    apply Paired.ite (Paired.pure _)
    split
    · exact paired_agreeKey _ _
    · split
      · exact Paired.pure _
      · exact Paired.ite (Paired.pure _) (paired_signChallenge _ _ _)

theorem paired_cmdGenerate (c : Cmd) : Paired SameButChain (cmdGenerate b c):=by
  apply Paired.bind (paired_appGets fun _=>rfl) fun _=>?_
  apply Paired.ite (Paired.pure _)
  apply Paired.ite (Paired.pure _)
  apply Paired.ite (Paired.pure _)
  apply Paired.bind (paired_call _) fun pub=>?_
  cases pub with
  | none=>exact Paired.pure _
  | some pub=>exact paired_emitBuilt _ _ _

theorem paired_cmdGetData (c : Cmd) : Paired SameButChain (cmdGetData b c):=by
  unfold cmdGetData
  split
  · exact Paired.pure _
  · apply Paired.ite (paired_emitBuilt _ _ _)
    apply Paired.bind (paired_call _) fun st=>?_
    cases st with
    | none=>exact Paired.pure _
    | some st=>
      apply Paired.bind
      · apply Paired.ite (Paired.pure _)
        apply Paired.ite (Paired.pure _)
        exact Paired.ite (paired_call _) (Paired.pure _)
      · intro body
        cases body with
        | none=>exact Paired.pure _
        | some body=>exact Paired.ite (Paired.pure _) (paired_emitBuilt _ _ _)

theorem paired_cmdPutData (c : Cmd) : Paired SameButChain (cmdPutData b c):=by
  apply Paired.bind (paired_appGets fun _=>rfl) fun _=>?_
  apply Paired.ite (Paired.pure _)
  split
  · apply Paired.ite
    · exact Paired.bind (paired_call _) fun _=>Paired.ite (Paired.pure _) (Paired.pure _)
    · exact Paired.ite (Paired.pure _) (Paired.pure _)
  · exact Paired.pure _

theorem paired_cmdGetMetadata (c : Cmd) : Paired SameButChain (cmdGetMetadata b c):=by
  apply Paired.bind (paired_call _) fun st=>?_
  cases st with
  | none=>exact Paired.pure _
  | some st=>
    apply Paired.ite (paired_emit _ _)
    apply Paired.ite _ (Paired.pure _)
    apply Paired.bind (paired_call _) fun _=>?_
    apply Paired.ite (Paired.pure _)
    exact Paired.bind (paired_call _) fun _=>paired_emit _ _

theorem paired_cmdSetMgmtKey (c : Cmd) : Paired SameButChain (cmdSetMgmtKey b c):=by
  apply Paired.bind (paired_appGets fun _=>rfl) fun _=>?_
  apply Paired.ite (Paired.pure _)
  split
  · apply Paired.ite (Paired.pure _)
    apply Paired.ite (Paired.pure _)
    apply Paired.ite (Paired.pure _)
    exact Paired.bind (paired_call _) fun _=>Paired.ite (Paired.pure _) (Paired.pure _)
  · exact Paired.pure _

theorem paired_dispatch (c : Cmd) : Paired SameButChain (dispatch b c):=by
  unfold dispatch
  apply Paired.ite (paired_cmdSelect _)
  apply Paired.ite (paired_cmdGetData c)
  apply Paired.ite (paired_cmdVerify c)
  apply Paired.ite (paired_cmdGeneralAuth c)
  apply Paired.ite (paired_cmdGenerate c)
  apply Paired.ite (paired_cmdPutData c)
  apply Paired.ite (paired_cmdGetMetadata c)
  apply Paired.ite (paired_cmdSetMgmtKey c)
  exact Paired.ite (Paired.pure _) (Paired.pure _)

end Commands

/-- The bytes are an APDU of this class with the command's header, data and Le. -/
def Says (raw : Bytes) (cla : UInt8) (c : Cmd) : Prop:=
  ∃ a, Scard.apduParse raw=some a ∧ a.cla=cla ∧ ({ins:=a.ins,p1:=a.p1,p2:=a.p2,data:=a.data,le:=a.le} : Cmd)=c

/-- Blocks with the chaining bit that carry these data. -/
inductive Blocks (cla : UInt8) (c : Cmd) : List Bytes→Bytes→Prop
  | nil : Blocks cla c [] []
  | cons {raw data rest : Bytes} {raws : List Bytes} {le : ℕ} (hraw : Says raw (cla ||| 0x10) {c with data:=data,le:=le})
    (h : Blocks cla c raws rest) : Blocks cla c (raw::raws) (data++rest)

/-- A command in one piece, and in blocks before a last one. -/
structure Split (cla : UInt8) (c : Cmd) (raws : List Bytes) (last whole : Bytes) : Prop where
  base : cla &&& 0x10=0
  whole : Says whole cla c
  parts : ∃ before data, Blocks cla c raws before ∧ Says last cla {c with data:=data} ∧ c.data=before++data

section Blocks

variable {β : Type} {b : Backend β} {cla : UInt8} {c : Cmd} {s : Ctx β} {raw before data : Bytes} {raws : List Bytes}

variable (b) in
def sends : List Bytes→PivM β Unit
  | []=>pure ()
  | raw::raws=>do
    let _ ← processApdu b raw
    sends raws

/-- A chain holds the data of a command's blocks. -/
def Carries (c : Cmd) (before : Bytes) (chain : Chain) : Prop:=
  chain.data=before ∧ (before≠[] → chain.ins=c.ins ∧ chain.p1=c.p1 ∧ chain.p2=c.p2)

theorem Carries.opened {a : Scard.Apdu} {chain : Chain} (h : Carries c before chain) (hins : a.ins=c.ins) (hp1 : a.p1=c.p1)
    (hp2 : a.p2=c.p2) : chain.opened a=⟨a.ins,a.p1,a.p2,before⟩:=by
  obtain ⟨rfl,hheader⟩:=h
  unfold Chain.opened
  by_cases hempty : chain.data=[]
  · rw [if_pos hempty,hempty]
  · obtain ⟨hins',hp1',hp2'⟩:=hheader hempty
    rw [if_neg hempty,hins,hp1,hp2,← hins',← hp1',← hp2']

theorem block_class (cla : UInt8) : (cla ||| 0x10) &&& 0x10≠0 ∧ (cla ||| 0x10) &&& 0xEF=cla &&& 0xEF:=by
  revert cla
  exact forall_byte (by decide +kernel)

/-- A `GET RESPONSE` of the card, whatever its chaining bit. -/
def IsGetResponse (cla : UInt8) (c : Cmd) : Prop:=c.ins=insGetResponse ∧ cla &&& 0xEF=0x00

theorem isGetResponse_iff {a : Scard.Apdu} (hins : a.ins=c.ins) (hcla : a.cla &&& 0xEF=cla &&& 0xEF) :
    isGetResponse a=true ↔ IsGetResponse cla c:=by
  unfold isGetResponse IsGetResponse
  rw [hins,hcla]
  simp

theorem process_block {le : ℕ} (hsize : ¬s.respMax < 2) (hget : ¬IsGetResponse cla c)
    (hraw : Says raw (cla ||| 0x10) {c with data:=data,le:=le}) (hholds : Carries c before s.app.chain)
    (hlen : (before++data).length ≤ chainBufferSize) :
    processApdu b raw s =
      (.ok {sw:=swOk},{s with app:={s.app with chain:=⟨c.ins,c.p1,c.p2,before++data⟩}}):=by
  obtain ⟨a,hparse,hcla,hcmd⟩:=hraw
  obtain ⟨hins,hp1,hp2,hdata,-⟩:=Cmd.mk.inj hcmd
  obtain ⟨hchained,hclass⟩:=block_class cla
  unfold processApdu
  rw [bind_gets,if_neg hsize,hparse]
  change processParsed b a s=_
  have hiff : isGetResponse a=true ↔ IsGetResponse cla c:=isGetResponse_iff hins (by rw [hcla,hclass])
  have hget' : ¬isGetResponse a=true:=hiff.not.mpr hget
  have hchained' : isChained a=true:=by simp [isChained,hcla,hchained]
  have hextend : (s.app.chain.opened a).extend a=.ok ⟨c.ins,c.p1,c.p2,before++data⟩:=by
    rw [hholds.opened hins hp1 hp2]
    unfold Chain.extend
    rw [if_neg (by simp),hdata,← List.length_append,if_neg (Nat.not_lt.mpr hlen),hins,hp1,hp2]
  unfold processParsed
  rw [if_neg hget']
  simp only [appGets,bind_gets]
  rw [if_pos hchained',hextend]
  rfl

theorem sends_blocks {rest : Bytes} (hsize : ¬s.respMax < 2) (hget : ¬IsGetResponse cla c) (h : Blocks cla c raws rest)
    (hholds : Carries c before s.app.chain) (hlen : (before++rest).length ≤ chainBufferSize) :
    ∃ chain, sends b raws s=(.ok (),{s with app:={s.app with chain}}) ∧ Carries c (before++rest) chain:=by
  induction h generalizing s before with
  | nil=>exact ⟨s.app.chain,rfl,by rwa [List.append_nil]⟩
  | @cons raw data rest raws le hraw h ih=>
    rw [← List.append_assoc] at hlen ⊢
    have hfits : (before++data).length ≤ chainBufferSize:=by
      rw [List.length_append] at hlen
      omega
    have hblock : processApdu b raw s=_:=process_block hsize hget hraw hholds hfits
    have hnext : Carries c (before++data) ⟨c.ins,c.p1,c.p2,before++data⟩:=⟨rfl,fun _=>⟨rfl,rfl,rfl⟩⟩
    obtain ⟨chain,hsends,hchain⟩:=
      ih (s:={s with app:={s.app with chain:=⟨c.ins,c.p1,c.p2,before++data⟩}}) hsize hnext hlen
    refine ⟨chain,?_,hchain⟩
    unfold sends
    rw [bind_of_ok hblock,hsends]

theorem commandOf_last (hsize : ¬s.respMax < 2) (hget : ¬IsGetResponse cla c) (hbase : cla &&& 0x10=0)
    (hraw : Says raw cla {c with data:=data}) (hholds : Carries c before s.app.chain)
    (hlen : (before++data).length ≤ chainBufferSize) : commandOf s raw=some {c with data:=before++data}:=by
  obtain ⟨a,hparse,hcla,hcmd⟩:=hraw
  obtain ⟨hins,hp1,hp2,hdata,hle⟩:=Cmd.mk.inj hcmd
  have hiff : isGetResponse a=true ↔ IsGetResponse cla c:=isGetResponse_iff hins (by rw [hcla])
  have hget' : ¬isGetResponse a=true:=hiff.not.mpr hget
  have hchained : ¬isChained a=true:=by simp [isChained,hcla,hbase]
  unfold commandOf
  rw [if_neg hsize,hparse,Option.bind_some,if_neg (not_or.mpr ⟨hget',hchained⟩)]
  unfold Chain.complete
  obtain ⟨hbefore,hheader⟩:=hholds
  by_cases hempty : s.app.chain.data=[]
  · rw [if_pos hempty,← hbefore,hempty,List.nil_append,← hcmd]
    rfl
  · obtain ⟨hins',hp1',hp2'⟩:=hheader (hbefore ▸ hempty)
    have hextend : s.app.chain.extend a=.ok {s.app.chain with data:=before++data}:=by
      unfold Chain.extend
      rw [if_neg (by simp [hins,hp1,hp2,hins',hp1',hp2']),hbefore,hdata,← List.length_append,
        if_neg (Nat.not_lt.mpr hlen)]
    rw [if_neg hempty,hextend,hins,hp1,hp2,hle]
    rfl

/-- The same answer, and the same card once the command is through. A chain that is open when power is lost is lost
with it. -/
structure SameOutcome (x y : Except PowerLost Reply × Ctx β) : Prop where
  answer : x.1=y.1
  card : SameButChain x.2 y.2
  done : ∀ reply, x.1=.ok reply→x.2=y.2

theorem dispatch_outcome {t : Ctx β} (c : Cmd) (h : SameButChain s t) :
    SameOutcome ((dispatch b c >>= fun reply=>resetChain >>= fun _=>pure reply) s)
      ((dispatch b c >>= fun reply=>resetChain >>= fun _=>pure reply) t):=by
  obtain ⟨hanswer,hcard⟩:=paired_dispatch (b:=b) c s t h
  rw [bind_apply,bind_apply]
  revert hanswer hcard
  cases dispatch b c s with
  | mk r s'=>
    cases dispatch b c t with
    | mk r' t'=>
      rintro (rfl : r=r') (hcard : s'.closed=t'.closed)
      cases r with
      | ok reply=>exact ⟨rfl,congrArg Ctx.closed hcard,fun _ _=>hcard⟩
      | error e=>
        refine ⟨rfl,hcard,fun reply hreply=>?_⟩
        cases hreply

theorem process_small (hsize : s.respMax < 2) (raw : Bytes) : processApdu b raw s=(.ok {sw:=swInsNotSupported},s):=by
  unfold processApdu
  rw [bind_gets,if_pos hsize]
  rfl

theorem sends_small (hsize : s.respMax < 2) (raws : List Bytes) : sends b raws s=(.ok (),s):=by
  induction raws with
  | nil=>rfl
  | cons raw raws ih=>
    unfold sends
    rw [bind_of_ok (process_small hsize raw),ih]

/-- However its data are split, a command is answered as the command in one piece is. -/
theorem Split.outcome {last whole : Bytes} (h : Split cla c raws last whole) (hclosed : s.app.chain.data=[])
    (hlen : c.data.length ≤ chainBufferSize) (hget : ¬IsGetResponse cla c) :
    SameOutcome ((sends b raws >>= fun _=>processApdu b last) s) (processApdu b whole s):=by
  by_cases hsize : s.respMax < 2
  · rw [bind_of_ok (sends_small hsize raws),process_small hsize,process_small hsize]
    exact ⟨rfl,rfl,fun _ _=>rfl⟩
  · obtain ⟨before,data,hblocks,hlast,hdata⟩:=h.parts
    have hholds : Carries c [] s.app.chain:=⟨hclosed,fun hne=>absurd rfl hne⟩
    rw [hdata,List.length_append] at hlen
    have hbefore : ([]++before).length ≤ chainBufferSize:=by
      rw [List.nil_append]
      omega
    obtain ⟨chain,hsends,hchain⟩:=sends_blocks (b:=b) hsize hget hblocks hholds hbefore
    rw [List.nil_append] at hchain
    have hfits : (before++data).length ≤ chainBufferSize:=by rwa [List.length_append]
    have hcomplete : commandOf {s with app:={s.app with chain}} last=some {c with data:=before++data}:=
      commandOf_last hsize hget h.base hlast hchain hfits
    have hwhole : commandOf s whole=some {c with data:=[]++c.data}:=
      commandOf_last hsize hget h.base h.whole hholds (by rw [List.nil_append,hdata]; exact hfits)
    rw [bind_of_ok hsends,processApdu_command hcomplete,processApdu_command hwhole,List.nil_append,← hdata]
    exact dispatch_outcome c rfl

/-- What a `GET RESPONSE` answers, and what it leaves to be read. -/
def getReply (c : Cmd) (s : Ctx β) : Reply × Bytes:=
  let resp:=s.app.resp
  if c.p1≠0x00 ∨ c.p2≠0x00 then ({sw:=swIncorrectP1P2},resp)
  else if resp=[] then ({sw:=swSecurityStatus},resp)
  else
    let want:=min (min (if c.le=0 then 256 else c.le) resp.length) (s.respMax-2)
    ({data:=resp.take want,sw:=if resp.length-want=0 then swOk else swMoreData (resp.length-want)},
      resp.drop want)

theorem process_get {k : UInt8} (hsize : ¬s.respMax < 2) (hins : c.ins=insGetResponse) (hclass : k &&& 0xEF=0)
    (hraw : Says raw k c) :
    processApdu b raw s=(.ok (getReply c s).1,{s with app:={s.app with resp:=(getReply c s).2}}):=by
  obtain ⟨a,hparse,rfl,rfl⟩:=hraw
  have hget : isGetResponse a=true:=by
    simp only [isGetResponse,Bool.and_eq_true,decide_eq_true_eq]
    exact ⟨hins,hclass⟩
  unfold processApdu
  rw [bind_gets,if_neg hsize,hparse]
  change processParsed b a s=_
  unfold processParsed
  rw [if_pos hget]
  unfold cmdGetResponse getReply
  simp only [appGets,bind_gets]
  by_cases hp : a.p1≠0x00 ∨ a.p2≠0x00
  · rw [if_pos hp,if_pos hp]
    rfl
  · rw [if_neg hp,if_neg hp]
    by_cases hempty : s.app.resp=[]
    · rw [if_pos hempty,if_pos hempty]
      rfl
    · rw [if_neg hempty,if_neg hempty]
      rfl

theorem getReply_fixed (h : ¬(c.p1=0x00 ∧ c.p2=0x00 ∧ s.app.resp≠[])) : (getReply c s).2=s.app.resp:=by
  unfold getReply
  dsimp only
  by_cases hp : c.p1≠0x00 ∨ c.p2≠0x00
  · rw [if_pos hp]
  · rw [if_neg hp]
    push Not at hp
    by_cases hempty : s.app.resp=[]
    · rw [if_pos hempty]
    · exact absurd ⟨hp.1,hp.2,hempty⟩ h

theorem getReply_le : (getReply c s).2.length ≤ s.app.resp.length:=by
  unfold getReply
  dsimp only
  by_cases hp : c.p1≠0x00 ∨ c.p2≠0x00
  · rw [if_pos hp]
  · rw [if_neg hp]
    by_cases hempty : s.app.resp=[]
    · rw [if_pos hempty]
    · rw [if_neg hempty,List.length_drop]
      omega

theorem getReply_reads (hroom : 2 < s.respMax) (h : c.p1=0x00 ∧ c.p2=0x00 ∧ s.app.resp≠[]) :
    ∃ n, 0 < n ∧ (getReply c s).1.data=s.app.resp.take n ∧ (getReply c s).2=s.app.resp.drop n:=by
  obtain ⟨hp1,hp2,hresp⟩:=h
  have hpos:=List.length_pos_of_ne_nil hresp
  refine ⟨min (min (if c.le=0 then 256 else c.le) s.app.resp.length) (s.respMax-2),?_,?_,?_⟩
  · split_ifs <;> omega
  · unfold getReply
    simp [hp1,hp2,hresp]
  · unfold getReply
    simp [hp1,hp2,hresp]

theorem sends_get {rest : Bytes} (hsize : ¬s.respMax < 2) (hget : IsGetResponse cla c) (h : Blocks cla c raws rest) :
    ∃ resp, sends b raws s=(.ok (),{s with app:={s.app with resp}}) ∧ resp.length ≤ s.app.resp.length ∧
      (¬(c.p1=0x00 ∧ c.p2=0x00 ∧ s.app.resp≠[]) → resp=s.app.resp) ∧
      (raws≠[] → 2 < s.respMax → c.p1=0x00 ∧ c.p2=0x00 ∧ s.app.resp≠[] → resp.length < s.app.resp.length):=by
  induction h generalizing s with
  | nil=>exact ⟨s.app.resp,rfl,le_rfl,fun _=>rfl,fun hne=>absurd rfl hne⟩
  | @cons raw data rest raws le hraw h ih=>
    let c' : Cmd:={c with data:=data,le:=le}
    have hblock : processApdu b raw s=(.ok (getReply c' s).1,{s with app:={s.app with resp:=(getReply c' s).2}}):=
      process_get hsize hget.1 ((block_class cla).2.trans hget.2) hraw
    obtain ⟨resp,hsends,hle,hfixed,-⟩:=ih (s:={s with app:={s.app with resp:=(getReply c' s).2}}) hsize
    refine ⟨resp,?_,?_,?_,?_⟩
    · unfold sends
      rw [bind_of_ok hblock,hsends]
    · exact hle.trans getReply_le
    · intro hstuck
      have hsame : (getReply c' s).2=s.app.resp:=getReply_fixed hstuck
      rw [hfixed (by rwa [hsame]),hsame]
    · intro _ hroom hreads
      obtain ⟨n,hn,-,hdrop⟩:=getReply_reads (c:=c') hroom hreads
      have hpos:=List.length_pos_of_ne_nil hreads.2.2
      dsimp only at hle
      rw [hdrop,List.length_drop] at hle
      omega

/-- The `GET RESPONSE` in blocks reads more than the one in one piece. -/
def ReadsOn (cla : UInt8) (c : Cmd) (raws : List Bytes) (s : Ctx β) : Prop:=
  IsGetResponse cla c ∧ raws≠[] ∧ c.p1=0x00 ∧ c.p2=0x00 ∧ s.app.resp≠[]

theorem Split.getResponse {last whole : Bytes} (h : Split cla c raws last whole) (hroom : 2 < s.respMax)
    (hget : IsGetResponse cla c) :
    SameOutcome ((sends b raws >>= fun _=>processApdu b last) s) (processApdu b whole s) ↔ ¬ReadsOn cla c raws s:=by
  obtain ⟨before,data,hblocks,hlast,hdata⟩:=h.parts
  have hsize : ¬s.respMax < 2:=by omega
  obtain ⟨resp,hsends,-,hfixed,hless⟩:=sends_get (b:=b) hsize hget hblocks
  let s' : Ctx β:={s with app:={s.app with resp}}
  let c' : Cmd:={c with data:=data}
  have hwhole : processApdu b whole s=_:=process_get hsize hget.1 hget.2 h.whole
  have hends : processApdu b last s' =
      (.ok (getReply c' s').1,{s' with app:={s'.app with resp:=(getReply c' s').2}}):=
    process_get hsize hget.1 hget.2 hlast
  rw [bind_of_ok hsends,hwhole,hends]
  constructor
  · rintro hsame ⟨-,hraws,hp1,hp2,hresp⟩
    have hreads : c.p1=0x00 ∧ c.p2=0x00 ∧ s.app.resp≠[]:=⟨hp1,hp2,hresp⟩
    have hlength:=hless hraws hroom hreads
    obtain ⟨n,hn,htake,hdrop⟩:=getReply_reads (c:=c) hroom hreads
    have hreply : (getReply c' s').1=(getReply c s).1:=Except.ok.inj hsame.answer
    have hleft : (getReply c' s').2=(getReply c s).2:=congrArg (fun u : Ctx β=>u.app.resp) (hsame.done _ rfl)
    have hdata' : (getReply c' s').1.data=s.app.resp.take n:=by rw [hreply,htake]
    by_cases hempty : resp=[]
    · have hnothing : (getReply c' s').1.data=[]:=by
        unfold getReply
        simp [c',s',hp1,hp2,hempty]
      have hpos:=List.length_pos_of_ne_nil hresp
      have hlength':=congrArg List.length (hnothing.symm.trans hdata')
      rw [List.length_take,List.length_nil] at hlength'
      omega
    · obtain ⟨m,-,htake',hdrop'⟩:=getReply_reads (c:=c') (s:=s') hroom ⟨hp1,hp2,hempty⟩
      have hall : s'.app.resp=s.app.resp:=by
        rw [← List.take_append_drop m s'.app.resp,← htake',← hdrop',hdata',hleft,hdrop,List.take_append_drop]
      rw [← hall] at hlength
      exact lt_irrefl _ hlength
  · intro hother
    have hsame : resp=s.app.resp:=by
      by_cases hraws : raws=[]
      · subst hraws
        have hstates : s=s':=(Prod.mk.inj hsends).2
        exact congrArg (fun u : Ctx β=>u.app.resp) hstates.symm
      · exact hfixed fun hreads=>hother ⟨hget,hraws,hreads⟩
    subst hsame
    exact ⟨rfl,rfl,fun _ _=>rfl⟩

def apt : Bytes:=buildApt.getD []

variable (b) in
/-- An APDU is answered `9000`, with no chain, PIN or management state left. -/
def Selected (raw : Bytes) (s : Ctx β) : Prop:=
  ∃ data s', processApdu b raw s=(.ok {data,sw:=swOk},s') ∧ s'.app.chain={} ∧ s'.app.pinVerified=false ∧
    s'.app.mgmtAuthenticated=false ∧ s'.app.witnessValid=false

/-- No chain is open, or the APDU goes on with it, and the answer fits the window. -/
def Welcome (a : Scard.Apdu) (s : Ctx β) : Prop:=
  (s.app.chain.data=[] ∨ (a.ins=s.app.chain.ins ∧ a.p1=s.app.chain.p1 ∧ a.p2=s.app.chain.p2 ∧
    s.app.chain.data.length+a.data.length ≤ chainBufferSize)) ∧
  apt.length ≤ min (if a.le=0 then 256 else a.le) (s.respMax-2)

theorem complete_cases (chain : Chain) (a : Scard.Apdu) :
    ((chain.data=[] ∨ (a.ins=chain.ins ∧ a.p1=chain.p1 ∧ a.p2=chain.p2 ∧
      chain.data.length+a.data.length ≤ chainBufferSize)) ∧
        ∃ data, chain.complete a=.ok {ins:=a.ins,p1:=a.p1,p2:=a.p2,data,le:=a.le}) ∨
    (¬(chain.data=[] ∨ (a.ins=chain.ins ∧ a.p1=chain.p1 ∧ a.p2=chain.p2 ∧
      chain.data.length+a.data.length ≤ chainBufferSize)) ∧ ∃ sw, chain.complete a=.error sw ∧ sw≠swOk):=by
  unfold Chain.complete
  by_cases hempty : chain.data=[]
  · rw [if_pos hempty]
    exact .inl ⟨.inl hempty,_,rfl⟩
  · rw [if_neg hempty]
    unfold Chain.extend
    by_cases hheader : a.ins≠chain.ins ∨ a.p1≠chain.p1 ∨ a.p2≠chain.p2
    · rw [if_pos hheader]
      refine .inr ⟨?_,_,rfl,by decide⟩
      tauto
    · rw [if_neg hheader]
      by_cases hlong : chainBufferSize < chain.data.length+a.data.length
      · rw [if_pos hlong]
        refine .inr ⟨?_,_,rfl,by decide⟩
        rintro (hdata | ⟨-,-,-,hfits⟩)
        · exact hempty hdata
        · omega
      · rw [if_neg hlong]
        refine .inl ⟨.inr ?_,_,rfl⟩
        push Not at hheader
        exact ⟨hheader.1,hheader.2.1,hheader.2.2,Nat.le_of_not_lt hlong⟩

/-- A SELECT that reaches the command clears the session, and answers in the windows of its template. -/
theorem dispatch_select (hins : c.ins=insSelect) :
    ∃ reply s', (dispatch b c >>= fun reply=>resetChain >>= fun _=>pure reply) s=(.ok reply,s') ∧
      (reply.sw=swOk ↔ apt.length ≤ min (if c.le=0 then 256 else c.le) (s.respMax-2)) ∧ s'.app.chain={} ∧
      s'.app.pinVerified=false ∧ s'.app.mgmtAuthenticated=false ∧ s'.app.witnessValid=false:=by
  have hdispatch : dispatch b c=cmdSelect c.le:=by
    unfold dispatch
    rw [if_pos hins]
  let cleared : Ctx β:={s with app:={s.app with pinVerified:=false,mgmtAuthenticated:=false,witnessValid:=false}}
  have hrun : (dispatch b c >>= fun reply=>resetChain >>= fun _=>pure reply) s =
      (emit apt c.le >>= fun reply=>resetChain >>= fun _=>pure reply) cleared:=by
    rw [hdispatch]
    rfl
  rw [hrun]
  by_cases hfits : apt.length ≤ min (if c.le=0 then 256 else c.le) (s.respMax-2)
  · have hemit : emit apt c.le cleared=(.ok {data:=apt,sw:=swOk},cleared):=by
      unfold emit
      rw [bind_gets,if_pos hfits]
      rfl
    rw [bind_of_ok hemit]
    exact ⟨_,_,rfl,iff_of_true rfl hfits,rfl,rfl,rfl,rfl⟩
  · let window:=min (if c.le=0 then 256 else c.le) (s.respMax-2)
    let rest:=(apt.drop window).take respBufferSize
    have hemit : emit apt c.le cleared=(.ok {data:=apt.take window,sw:=swMoreData rest.length},
        {cleared with app:={cleared.app with resp:=rest}}):=by
      unfold emit
      rw [bind_gets,if_neg hfits]
      rfl
    rw [bind_of_ok hemit]
    exact ⟨_,_,rfl,iff_of_false (swMoreData_ne_ok _) hfits,rfl,rfl,rfl,rfl⟩

/-- A SELECT is refused behind an open chain that it does not go on with, and clears the session everywhere else. -/
theorem selected_iff {a : Scard.Apdu} (hparse : Scard.apduParse raw=some a) (hins : a.ins=insSelect)
    (hplain : isChained a=false) : Selected b raw s ↔ Welcome a s:=by
  by_cases hsize : s.respMax < 2
  · apply iff_of_false
    · rintro ⟨data,s',hselected,-⟩
      rw [process_small hsize] at hselected
      cases hselected
    · rintro ⟨-,hfits⟩
      have hpos : 0 < apt.length:=by decide
      omega
  · have hget : ¬isGetResponse a=true:=by simp [isGetResponse,hins,insSelect,insGetResponse]
    have hcommand : commandOf s raw=(s.app.chain.complete a).toOption:=by
      unfold commandOf
      rw [if_neg hsize,hparse,Option.bind_some,if_neg (by simp [hget,hplain])]
    obtain ⟨hopen,data,hcomplete⟩ | ⟨hopen,sw,hcomplete,hsw⟩:=complete_cases s.app.chain a
    · rw [hcomplete] at hcommand
      obtain ⟨reply,s',hrun,hok,hcleared⟩:=dispatch_select (b:=b) (s:=s)
        (c:={ins:=a.ins,p1:=a.p1,p2:=a.p2,data,le:=a.le}) hins
      unfold Selected Welcome
      rw [processApdu_command hcommand,hrun]
      constructor
      · rintro ⟨data',s'',hselected,-⟩
        cases hselected
        exact ⟨hopen,hok.mp rfl⟩
      · rintro ⟨-,hfits⟩
        obtain ⟨answer,word⟩:=reply
        obtain rfl : word=swOk:=hok.mpr hfits
        exact ⟨answer,s',rfl,hcleared⟩
    · apply iff_of_false
      · rintro ⟨data,s',hselected,-⟩
        unfold processApdu at hselected
        rw [bind_gets,if_neg hsize,hparse] at hselected
        change processParsed b a s=_ at hselected
        unfold processParsed at hselected
        rw [if_neg hget] at hselected
        simp only [appGets,bind_gets] at hselected
        rw [if_neg (by simp [hplain]),hcomplete] at hselected
        cases hselected
        exact hsw rfl
      · rintro ⟨hwelcome,-⟩
        exact hopen hwelcome

end Blocks

/-- A command is answered alike in one piece and in blocks, but for a `GET RESPONSE` that reads on with every block. A
SELECT succeeds just where no chain of another command is open and its answer fits the window. -/
theorem commands_whole_and_selected {β : Type} (b : Backend β) (s : Ctx β) :
    (∀ cla c raws last whole, Split cla c raws last whole → s.app.chain.data=[] → c.data.length ≤ chainBufferSize →
      (IsGetResponse cla c → 2 < s.respMax) →
      (SameOutcome ((sends b raws >>= fun _=>processApdu b last) s) (processApdu b whole s) ↔ ¬ReadsOn cla c raws s)) ∧
    ∀ raw a, Scard.apduParse raw=some a→a.ins=insSelect→isChained a=false→(Selected b raw s ↔ Welcome a s):=by
  refine ⟨fun cla c raws last whole hsplit hclosed hlen hroom=>?_,fun raw a hparse hins hplain=>?_⟩
  · by_cases hget : IsGetResponse cla c
    · exact hsplit.getResponse (hroom hget) hget
    · exact iff_of_true (hsplit.outcome hclosed hlen hget) fun hreads=>hget hreads.1
  · exact selected_iff hparse hins hplain

/-- The applet with a verified PIN and a chain that a `PUT DATA` has begun. -/
def chainOpen : Ctx Unit:=
  (sends Backend.plain [verifyApdu [0x31,0x32,0x33,0x34,0x35,0x36],[0x10,insPutData,0x3F,0xFF,0x01,0x5C]]
    {be:=()}).2

def selectApdu : Bytes:=[0x00,insSelect,0x04,0x00,0x09]++pivAidFull.take 9

/-- The SELECT is refused, and the PIN stays verified. -/
theorem select_behind_chain : processApdu Backend.plain selectApdu chainOpen =
    (.ok {sw:=swDataInvalid},{chainOpen with app:={chainOpen.app with chain:={}}}) ∧
      chainOpen.app.pinVerified=true:=⟨rfl,rfl⟩

end CdcBadge.Piv
