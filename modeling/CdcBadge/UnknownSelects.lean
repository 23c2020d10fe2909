import CdcBadge.Applets
import CdcBadge.OpenPgpChaining
import CdcBadge.ResponseChaining

/-!
# A SELECT of an applet that is not there

The dispatcher with the three applets behind it. It passes a SELECT whose AID it does not know
on to the applet that is selected, and each takes it in its own way.
-/

namespace CdcBadge.Scard

open Handler Runs

inductive AppletKind | piv | oath | openpgp deriving DecidableEq

namespace AppletKind

def name : AppletKind → String
  | piv => "piv"
  | oath => "oath"
  | openpgp => "openpgp"

def aid : AppletKind→Bytes
  | piv=>[0xA0,0x00,0x00,0x03,0x08,0x00,0x00,0x10,0x00]
  | oath=>[0xA0,0x00,0x00,0x05,0x27,0x21,0x01]
  | openpgp=>OpenPgp.openPgpRid

def descriptor (k : AppletKind) : Descriptor:=
  {name:=some k.name,aid:=some k.aid,processApdu:=true,deselect:=true}

def applet (k : AppletKind) : Applet:={name:=k.name,aid:=k.aid,deselect:=true}

def ofName? (name : String) : Option AppletKind:=[piv,oath,openpgp].find? fun k=>k.name=name

@[simp] theorem ofName?_name (k : AppletKind) : ofName? k.name=some k:=by
  cases k <;> rfl

end AppletKind

/-- What the applets run on. -/
structure Backends (β γ : Type) where
  piv : Piv.Backend β
  oath : Oath.Backend γ
  dev : OpenPgp.Device
  cr : OpenPgp.GpgCrypto

structure CardApplets (β γ : Type) where
  piv : Piv.Ctx β
  oath : Oath.Ctx γ
  openpgp : OpenPgp.Card

/-- An APDU, the size of its response buffer, and what the OpenPGP card is given with it. -/
structure Transmission where
  cmd : Bytes
  respMax : ℕ
  env : OpenPgp.Env:={}

def openpgpExchange (dev : OpenPgp.Device) (cr : OpenPgp.GpgCrypto) (c : OpenPgp.Card) (x : Transmission) :
    Option (Bytes × UInt16) × OpenPgp.Card:=
  match OpenPgp.openpgpProcessApdu dev cr x.cmd (c.given {x.env with respMax:=x.respMax}) with
  | (.ok reply,c')=>(some (reply.data,reply.sw),c')
  | (.error _,c')=>(none,c'.powerCut)

section Card

variable {β γ : Type} (b : Backends β γ) (x : Transmission)

/-- `process_apdu` of an applet. -/
def processApdu (a : CardApplets β γ) : AppletKind→Option (Bytes × UInt16) × CardApplets β γ
  | .piv=>
    let r:=Piv.exchange b.piv a.piv (x.cmd,x.respMax)
    (r.1,{a with piv:=r.2})
  | .oath=>
    let r:=Oath.exchange b.oath a.oath (x.cmd,x.respMax)
    (r.1,{a with oath:=r.2})
  | .openpgp=>
    let r:=openpgpExchange b.dev b.cr a.openpgp x
    (r.1,{a with openpgp:=r.2})

def deselect (a : CardApplets β γ) : AppletKind → CardApplets β γ
  | .piv=>{a with piv:=(Piv.deselect a.piv).2}
  | .oath=>{a with oath:=(Oath.deselect a.oath).2}
  | .openpgp=>{a with openpgp:=(OpenPgp.openpgpDeselect a.openpgp).2}

def perform (r : Option (Bytes × UInt16) × CardApplets β γ) : Call→Option (Bytes × UInt16) × CardApplets β γ
  | .processed name=>
    match AppletKind.ofName? name with
    | some k=>processApdu b x r.2 k
    | none=>r
  | .deselected name=>
    match AppletKind.ofName? name with
    | some k=>(r.1,deselect r.2 k)
    | none=>r
  | .unregistered _ | .reset=>r

def Reply.own : Reply→Option (Bytes × UInt16)
  | .statusWord sw=>some ([],sw)
  | .negative | .applet _=>none

/-- `scard_dispatch_apdu` with the applets behind it. -/
def dispatchApdu (s : Dispatcher) (a : CardApplets β γ) : (Option (Bytes × UInt16) × CardApplets β γ) × Dispatcher:=
  let r:=s.dispatchApdu x.cmd (some x.respMax)
  ((r.2.calls.drop s.calls.length).foldl (perform b x) (r.1.own,a),r.2)

end Card

def Dispatcher.selected (s : Dispatcher) : Option AppletKind:=(s.at? s.current).bind fun a=>AppletKind.ofName? a.name

/-- What the modules and the host do to the dispatcher. -/
inductive TableOp
  | register (k : AppletKind) (makeDefault : Bool)
  | unregister (name : String)
  | apdu (cmd : Bytes) (respMax : ℕ)
  | reset

def TableOp.event : TableOp → CardEvent
  | register k makeDefault=>.register (some k.descriptor) makeDefault
  | unregister name=>.unregister (some name)
  | apdu cmd respMax=>.dispatchApdu cmd (some respMax)
  | reset=>.reset

def reached (ops : List TableOp) : Dispatcher:=run Dispatcher.step {} (ops.map TableOp.event)

/-- The table holds applets of the card, and its index is in it. -/
structure Dispatcher.Installed (s : Dispatcher) : Prop where
  known : ∀ applet∈s.applets, ∃ k : AppletKind, applet=k.applet
  formed : s.WellFormed

section Table

variable {s : Dispatcher}

theorem step_applets (h : ∀ applet∈s.applets, ∃ k : AppletKind, applet=k.applet) (op : TableOp) :
    ∀ applet∈(s.step op.event).applets, ∃ k : AppletKind, applet=k.applet:=by
  cases op with
  | register k makeDefault=>
    have hregister : (s.step (TableOp.register k makeDefault).event).applets=s.applets ∨
        (s.step (TableOp.register k makeDefault).event).applets=s.applets++[k.applet]:=by
      change (s.register (some k.descriptor) makeDefault).2.applets=_ ∨
        (s.register (some k.descriptor) makeDefault).2.applets=_
      unfold Dispatcher.register AppletKind.descriptor
      dsimp only
      split
      · exact .inl rfl
      split
      · exact .inl rfl
      split
      · exact .inl rfl
      · exact .inr rfl
    rcases hregister with heq | heq
    · rw [heq]
      exact h
    · rw [heq]
      intro applet happlet
      rcases List.mem_append.mp happlet with hold | hnew
      · exact h applet hold
      · exact ⟨k,List.mem_singleton.mp hnew⟩
  | unregister name=>
    change ∀ applet∈(s.unregister (some name)).applets, _
    unfold Dispatcher.unregister
    dsimp only
    split
    · exact h
    · intro applet happlet
      exact h applet (List.mem_of_mem_eraseIdx happlet)
  | apdu cmd respMax=>
    have hsame : (s.step (TableOp.apdu cmd respMax).event).applets=s.applets:=by
      change (s.dispatchApdu cmd (some respMax)).2.applets=_
      unfold Dispatcher.dispatchApdu
      dsimp only
      split
      · rfl
      split
      · rfl
      split
      · split
        · rw [(Dispatcher.forward_table _).1]
          dsimp only
          split <;> rfl
        · exact (Dispatcher.forward_table _).1
      · exact (Dispatcher.forward_table _).1
    rw [hsame]
    exact h
  | reset=>exact h

theorem installed_reached (ops : List TableOp) : (reached ops).Installed:=by
  have hrun : ∀ (ops : List TableOp) (s : Dispatcher), s.Installed→(run Dispatcher.step s (ops.map TableOp.event)).Installed:=by
    intro ops
    induction ops with
    | nil=>exact fun s hs=>hs
    | cons op ops ih=>exact fun s hs=>ih _ ⟨step_applets hs.known op,hs.formed.step op.event⟩
  exact hrun ops {} ⟨fun applet h=>absurd h List.not_mem_nil,Dispatcher.wellFormed_start⟩

theorem foldl_unknown {aid : Bytes} (h : ∀ applet∈s.applets, ¬applet.aid <+: aid) (is : List ℕ) :
    is.foldl (fun (best : Option ℕ × ℕ) i=>
      match s.applets[i]? with
      | some a=>if a.aid <+: aid ∧ best.2 < a.aid.length then (some i,a.aid.length) else best
      | none=>best) (none,0)=(none,0):=by
  induction is with
  | nil=>rfl
  | cons i is ih=>
    rw [List.foldl_cons]
    cases ha : s.applets[i]? with
    | none=>exact ih
    | some a=>
      dsimp only
      rw [if_neg fun hfound=>h a (List.mem_of_getElem? ha) hfound.1]
      exact ih

theorem findAppletByAid_unknown {aid : Bytes} (h : ∀ applet∈s.applets, ¬applet.aid <+: aid) :
    s.findAppletByAid aid=none:=congrArg Prod.fst (foldl_unknown h _)

theorem Dispatcher.Installed.current (h : s.Installed) :
    (s.selected=none ∧ s.at? s.current=none) ∨
      ∃ k, s.selected=some k ∧ s.at? s.current=some k.applet ∧ k.applet∈s.applets:=by
  unfold Dispatcher.selected
  cases hat : s.at? s.current with
  | none=>exact .inl ⟨rfl,rfl⟩
  | some applet=>
    obtain ⟨i,-,hget⟩:=Option.bind_eq_some_iff.mp hat
    have hmem:=List.mem_of_getElem? hget
    obtain ⟨k,rfl⟩:=h.known applet hmem
    exact .inr ⟨k,AppletKind.ofName?_name k,rfl,hmem⟩

variable {β γ : Type} {b : Backends β γ} {a : CardApplets β γ} {x : Transmission} {aid : Bytes}

theorem dispatchApdu_unknown (h : s.Installed) (hmax : 2 ≤ x.respMax) (haid : Dispatcher.selectedAid x.cmd=some aid)
    (hunknown : ∀ applet∈s.applets, ¬applet.aid <+: aid) :
    dispatchApdu b x s a=match s.selected with
      | some k=>(processApdu b x a k,s.note [.processed k.name])
      | none=>((some ([],fileNotFound),a),s):=by
  have hdispatch : s.dispatchApdu x.cmd (some x.respMax) =
      if s.applets=[] then (.statusWord fileNotFound,s) else s.forward s.current:=by
    unfold Dispatcher.dispatchApdu
    rw [haid]
    dsimp only
    rw [if_neg (by omega),findAppletByAid_unknown hunknown]
  unfold dispatchApdu
  dsimp only
  rw [hdispatch]
  rcases h.current with ⟨hselected,hat⟩ | ⟨k,hselected,hat,hmem⟩
  · rw [hselected]
    have hreply : (if s.applets=[] then (Reply.statusWord fileNotFound,s) else s.forward s.current) =
        (.statusWord fileNotFound,s):=by
      split
      · rfl
      · unfold Dispatcher.forward
        rw [hat]
    rw [hreply,List.drop_length]
    rfl
  · rw [hselected,if_neg (List.ne_nil_of_mem hmem)]
    unfold Dispatcher.forward
    rw [hat]
    dsimp only [Dispatcher.note]
    rw [List.drop_left]
    simp only [List.foldl_cons,List.foldl_nil,perform]
    rw [show k.applet.name=k.name from rfl,AppletKind.ofName?_name]

end Table

section Applets

variable {β γ : Type} {i : Bytes × ℕ} {a : Apdu}

theorem piv_select {p : Piv.Backend β} {s : Piv.Ctx β} {c : Piv.Cmd} (hc : Piv.commandIn s i=some c)
    (hins : c.ins=Piv.insSelect) :
    (∃ data sw, (Piv.exchange p s i).1=some (data,sw) ∧
      (sw=Piv.swOk ↔ pivPayload.length ≤ Responses.Channel.window i.2 c.le)) ∧
    ∀ pinVerified mgmtAuthenticated,
      Piv.exchange p {s with app:={s.app with pinVerified,mgmtAuthenticated}} i=Piv.exchange p s i:=by
  have hdispatch : Piv.dispatch p c=Piv.cmdSelect c.le:=by
    unfold Piv.dispatch
    rw [if_pos hins]
  have hrun (t : Piv.Ctx β) : Piv.cmdSelect c.le t=(Piv.channel.emit pivPayload c.le : Piv.PivM β Piv.Reply)
      {t with app:={t.app with pinVerified:=false,mgmtAuthenticated:=false,witnessValid:=false}}:=by
    rw [← Piv.emit_channel]
    rfl
  constructor
  · rw [Piv.exchange_command hc,hdispatch,hrun]
    obtain ⟨r,t,hemit,hstatus⟩:=Responses.Channel.emit_status (c:=Piv.channel) (ε:=Pin.PowerLost) pivPayload c.le
      { s with respMax:=i.2,
               app:={s.app with pinVerified:=false,mgmtAuthenticated:=false,witnessValid:=false} }
    rw [hemit]
    exact ⟨r.data,r.sw,rfl,hstatus⟩
  · intro pinVerified mgmtAuthenticated
    have hc' : Piv.commandIn {s with app:={s.app with pinVerified,mgmtAuthenticated}} i=some c:=hc
    rw [Piv.exchange_command hc,Piv.exchange_command hc',hdispatch,hrun,hrun]

theorem piv_rejects {p : Piv.Backend β} {s : Piv.Ctx β} (hmax : 2 ≤ i.2) (hparse : apduParse i.1=some a)
    (hcla : a.cla=0x00) (hins : a.ins=0xA4) (hc : Piv.commandIn s i=none) :
    ∃ sw, sw≠Piv.swOk ∧
      Piv.exchange p s i=(some ([],sw),{s with respMax:=i.2,app:={s.app with chain:={}}}):=by
  have hget : Piv.isGetResponse a=false:=by simp [Piv.isGetResponse,hins,Piv.insGetResponse]
  have hchained : Piv.isChained a=false:=by simp [Piv.isChained,hcla]
  unfold Piv.commandIn Piv.commandOf at hc
  rw [if_neg (by simp only; omega),hparse,Option.bind_some,hget,hchained,if_neg (by decide)] at hc
  unfold Piv.exchange Piv.processApdu
  rw [bind_gets,if_neg (by simp only; omega),hparse]
  simp only [Piv.processParsed,hget,hchained,Bool.false_eq_true,if_false,Piv.appGets,bind_gets]
  cases hcomplete : s.app.chain.complete a with
  | ok c=>
    rw [hcomplete] at hc
    cases hc
  | error sw=>
    refine ⟨sw,?_,rfl⟩
    rintro rfl
    unfold Piv.Chain.complete Piv.Chain.extend at hcomplete
    split at hcomplete
    · cases hcomplete
    · split at hcomplete
      · exact absurd (Except.error.inj hcomplete) (by decide)
      · split at hcomplete
        · exact absurd (Except.error.inj hcomplete) (by decide)
        · cases hcomplete

def oathSelectLength (o : Oath.Backend γ) : Handler Pin.PowerLost γ ℕ:=do
  let _ ← o.devId
  let akey ← o.akeyGet
  if akey.isSome then
    let _ ← o.rng
    pure 28
  else pure 15

theorem oath_head_length (devid : ByteArr 8) :
    (Oath.putTlv Oath.buildSize (Oath.putTlv Oath.buildSize [] Oath.tagVersion [0x05,0x04,0x03]) Oath.tagName
      devid.toList).length=15:=by
  simp [Oath.putTlv,Oath.buildSize]

theorem oath_locked_length (devid challenge : ByteArr 8) :
    (Oath.putTlv Oath.buildSize (Oath.putTlv Oath.buildSize
      (Oath.putTlv Oath.buildSize (Oath.putTlv Oath.buildSize [] Oath.tagVersion [0x05,0x04,0x03]) Oath.tagName
        devid.toList) Oath.tagChallenge challenge.toList) Oath.tagAlgo [0x21]).length=28:=by
  simp [Oath.putTlv,Oath.buildSize]

theorem oath_cmdSelect (o : Oath.Backend γ) (s : Oath.Ctx γ) (le : ℕ) :
    match (oathSelectLength o s.be).1 with
    | .ok n=>∃ payload t, payload.length=n ∧ t.respMax=s.respMax ∧ ∀ validated,
        Oath.cmdSelect o le {s with app:={s.app with validated}}=Oath.channel.emit payload le t
    | .error e=>∃ be, ∀ validated, ∃ app,
        Oath.cmdSelect o le {s with app:={s.app with validated}}=(.error e,{s with app,be}):=by
  have hcall {α : Type} {m : Handler Pin.PowerLost γ α} {r : Except Pin.PowerLost α} {be be' : γ} (app : Oath.Session)
      (h : m be=(r,be')) : Oath.call m {app,be,respMax:=s.respMax}=(r,{app,be:=be',respMax:=s.respMax}):=by
    unfold Oath.call zoom
    rw [h]
  unfold oathSelectLength Oath.cmdSelect
  cases hdevid : o.devId s.be with
  | mk r be=>cases r with
    | error e=>
      rw [bind_of_error hdevid]
      exact ⟨be,fun validated=>⟨{s.app with validated},bind_of_error (hcall _ hdevid)⟩⟩
    | ok devid=>
      rw [bind_of_ok hdevid]
      cases hakey : o.akeyGet be with
      | mk r be'=>cases r with
        | error e=>
          rw [bind_of_error hakey]
          refine ⟨be',fun validated=>⟨{s.app with validated},?_⟩⟩
          exact (bind_of_ok (hcall _ hdevid)).trans (bind_of_error (hcall _ hakey))
        | ok akey=>
          rw [bind_of_ok hakey]
          cases akey with
          | none=>
            refine ⟨_,{app:={s.app with validated:=true},be:=be',respMax:=s.respMax},
              oath_head_length devid,rfl,fun validated=>?_⟩
            rw [← Oath.emit_channel]
            exact (bind_of_ok (hcall _ hdevid)).trans (bind_of_ok (hcall _ hakey))
          | some key=>
            dsimp only [Option.isSome_some]
            rw [if_pos rfl]
            cases hrng : o.rng be' with
            | mk r be''=>cases r with
              | error e=>
                rw [bind_of_error hrng]
                have hlock (app : Oath.Session) : Oath.lockSession o {app,be:=be',respMax:=s.respMax} =
                    (.error e,{app,be:=be'',respMax:=s.respMax}):=bind_of_error (hcall _ hrng)
                refine ⟨be'',fun validated=>⟨{s.app with validated:=false},?_⟩⟩
                refine (bind_of_ok (hcall _ hdevid)).trans ((bind_of_ok (hcall _ hakey)).trans ?_)
                exact (bind_modify _ _ _).trans (bind_of_error (hlock _))
              | ok challenge=>
                rw [bind_of_ok hrng]
                have hlock (app : Oath.Session) : ∃ challenge' app', Oath.lockSession o
                    {app,be:=be',respMax:=s.respMax}=(.ok challenge',{app:=app',be:=be'',respMax:=s.respMax}):=by
                  cases challenge with
                  | none=>exact ⟨_,_,bind_of_ok (hcall _ hrng)⟩
                  | some challenge=>exact ⟨_,_,bind_of_ok (hcall _ hrng)⟩
                obtain ⟨challenge',app',hlock⟩:=hlock {s.app with validated:=false}
                refine ⟨_,{app:=app',be:=be'',respMax:=s.respMax},oath_locked_length devid challenge',rfl,
                  fun validated=>?_⟩
                rw [← Oath.emit_channel]
                refine (bind_of_ok (hcall _ hdevid)).trans ((bind_of_ok (hcall _ hakey)).trans ?_)
                exact bind_of_ok hlock

theorem oath_exchange (o : Oath.Backend γ) (t : Oath.Ctx γ) (hparsed : Oath.parsed i=some a) (hins : a.ins=0xA4)
    (hp1 : a.p1=0x04) : Oath.exchange o t i=match Oath.cmdSelect o a.le {t with respMax:=i.2} with
      | (.ok reply,t')=>(some (reply.data,reply.sw),t')
      | (.error _,t')=>(none,{t' with app:={}}):=by
  have hprocess : Oath.processParsed o a=Oath.cmdSelect o a.le:=by
    unfold Oath.processParsed
    rw [if_pos ⟨hins,hp1⟩]
  rewrite [Oath.exchange_parsed hparsed,hprocess]
  rfl

theorem oath_select {o : Oath.Backend γ} {s : Oath.Ctx γ} (hparsed : Oath.parsed i=some a) (hins : a.ins=0xA4)
    (hp1 : a.p1=0x04) :
    ((∃ data, (Oath.exchange o s i).1=some (data,Oath.swOk)) ↔
      ∃ n, (oathSelectLength o s.be).1=.ok n ∧ n ≤ Responses.Channel.window i.2 a.le) ∧
    ∀ validated, Oath.exchange o {s with app:={s.app with validated}} i=Oath.exchange o s i:=by
  have hexchange (t : Oath.Ctx γ):=oath_exchange o t hparsed hins hp1
  have hselect:=oath_cmdSelect o {s with respMax:=i.2} a.le
  dsimp only at hselect
  cases hlength : (oathSelectLength o s.be).1 with
  | ok n=>
    rw [hlength] at hselect
    obtain ⟨payload,t,rfl,hmax,hrun⟩:=hselect
    obtain ⟨r,t',hemit,hstatus⟩:=Responses.Channel.emit_status (c:=Oath.channel) (ε:=Pin.PowerLost) payload a.le t
    have hsame (validated : Bool) : Oath.exchange o {s with app:={s.app with validated}} i =
        (some (r.data,r.sw),t'):=by
      rw [hexchange,show Oath.cmdSelect o a.le _=_ from hrun validated,hemit]
    have hs:=hsame s.app.validated
    refine ⟨?_,fun validated=>(hsame validated).trans hs.symm⟩
    rw [show Oath.exchange o s i=_ from hs]
    constructor
    · rintro ⟨data,hreply⟩
      have hwindow:=hstatus.mp (congrArg Prod.snd (Option.some.inj hreply))
      rw [show (Oath.channel.port.get t).1=i.2 from hmax] at hwindow
      exact ⟨_,rfl,hwindow⟩
    · rintro ⟨n,hn,hwindow⟩
      cases hn
      have hdone : r.sw=Oath.swOk:=hstatus.mpr (by rw [show (Oath.channel.port.get t).1=i.2 from hmax]; exact hwindow)
      exact ⟨r.data,by rw [hdone]⟩
  | error e=>
    rw [hlength] at hselect
    obtain ⟨be,hrun⟩:=hselect
    have hsame (validated : Bool) : Oath.exchange o {s with app:={s.app with validated}} i =
        (none,{s with app:={},be,respMax:=i.2}):=by
      obtain ⟨app,happ⟩:=hrun validated
      rw [hexchange,show Oath.cmdSelect o a.le _=_ from happ]
    have hs:=hsame s.app.validated
    refine ⟨?_,fun validated=>(hsame validated).trans hs.symm⟩
    rw [show Oath.exchange o s i=_ from hs]
    simp

def EndsSelect (c : OpenPgp.Card) (a : Apdu) : Prop:=∃ chain∈c.app.chain, a.ins=chain.ins ∧ a.p1=chain.p1 ∧
  a.p2=chain.p2 ∧ (chain.data++a.data).length ≤ OpenPgp.chainBufferSize ∧
  (chain.data++a.data).take 6=OpenPgp.openPgpRid

theorem openpgp_cmdSelect (data : Bytes) (c : OpenPgp.Card) : ∃ c',
    OpenPgp.cmdSelect data c =
      (.ok {sw:=if data.take 6=OpenPgp.openPgpRid then OpenPgp.swOk else OpenPgp.swFileNotFound},c') ∧
    (data.take 6≠OpenPgp.openPgpRid →
      c'.app.pw1Verified=c.app.pw1Verified ∧ c'.app.pw3Verified=c.app.pw3Verified):=by
  unfold OpenPgp.cmdSelect
  by_cases hrid : data.take 6=OpenPgp.openPgpRid
  · rw [if_pos hrid,if_pos hrid]
    exact ⟨_,rfl,fun h=>absurd hrid h⟩
  · rw [if_neg hrid,if_neg hrid,OpenPgp.appGets_bind]
    cases hselected : c.app.appSelected
    · exact ⟨_,rfl,fun _=>⟨rfl,rfl⟩⟩
    · exact ⟨_,rfl,fun _=>⟨rfl,rfl⟩⟩

/-- OpenPGP turns the SELECT down and keeps both flags, unless it ends such a chain. -/
theorem openpgp_select (dev : OpenPgp.Device) (cr : OpenPgp.GpgCrypto) {c : OpenPgp.Card} {x : Transmission}
    (hparse : apduParse x.cmd=some a) (hcla : a.cla=0x00) (hins : a.ins=0xA4)
    (hother : a.data.take 6≠OpenPgp.openPgpRid) :
    ∃ sw c', openpgpExchange dev cr c x=(some ([],sw),c') ∧ (sw=OpenPgp.swOk ↔ EndsSelect c a) ∧
      (¬EndsSelect c a → c'.app.pw1Verified=c.app.pw1Verified ∧ c'.app.pw3Verified=c.app.pw3Verified):=by
  have hblock : ¬a.cla &&& 0x10≠0:=by rw [hcla]; decide
  have hchannel : a.cla &&& 0xEF=0:=by rw [hcla]; rfl
  have hcommand (data : Bytes) (b : Bool) :
      OpenPgp.dispatch dev cr {OpenPgp.Cmd.ofApdu a data with chained:=b}=OpenPgp.cmdSelect data:=by
    unfold OpenPgp.dispatch
    exact if_pos hins
  have hwholeCommand : OpenPgp.dispatch dev cr (OpenPgp.Cmd.ofApdu a a.data)=OpenPgp.cmdSelect a.data:=
    hcommand a.data false
  have hrefused {sw : UInt16} {c' : OpenPgp.Card} (hsw : sw≠OpenPgp.swOk) (hends : ¬EndsSelect c a)
      (hflags : c'.app.pw1Verified=c.app.pw1Verified ∧ c'.app.pw3Verified=c.app.pw3Verified) :
      ∃ sw' c'', (some (([] : Bytes),sw),c')=(some ([],sw'),c'') ∧ (sw'=OpenPgp.swOk ↔ EndsSelect c a) ∧
        (¬EndsSelect c a → c''.app.pw1Verified=c.app.pw1Verified ∧ c''.app.pw3Verified=c.app.pw3Verified):=
    ⟨sw,c',rfl,iff_of_false hsw hends,fun _=>hflags⟩
  unfold openpgpExchange
  rw [OpenPgp.process_parsed hparse]
  set d:=(c.given {x.env with respMax:=x.respMax}).chained a.ins (c.given {x.env with respMax:=x.respMax}).app.chain
  have hd : d.app.chain=c.app.chain:=rfl
  cases hchain : c.app.chain with
  | none=>
    have hends : ¬EndsSelect c a:=by
      rintro ⟨chain,hmem,-⟩
      rw [hchain] at hmem
      cases hmem
    have hwhole : OpenPgp.reassemble a d=(.ok (.ok (OpenPgp.Cmd.ofApdu a a.data)),d):=by
      rw [OpenPgp.reassemble_none hchannel (hd.trans hchain),if_neg hblock]
      rfl
    obtain ⟨c',hselect,hflags⟩:=openpgp_cmdSelect a.data d
    rw [bind_of_ok hwhole]
    dsimp only
    rw [hwholeCommand,hselect,if_neg hother]
    exact hrefused (by decide) hends (hflags hother)
  | some chain=>
    have hsome : OpenPgp.reassemble a d=_:=OpenPgp.reassemble_some hchannel (hd.trans hchain)
    by_cases hheader : a.ins≠chain.ins ∨ a.p1≠chain.p1 ∨ a.p2≠chain.p2
    · have hends : ¬EndsSelect c a:=by
        rintro ⟨chain',hmem,hins',hp1',hp2',-⟩
        rw [hchain] at hmem
        cases hmem
        simp [hins',hp1',hp2'] at hheader
      rw [if_pos hheader] at hsome
      rw [bind_apply,hsome]
      exact hrefused (by decide) hends ⟨rfl,rfl⟩
    · rw [if_neg hheader] at hsome
      simp only [not_or,not_not] at hheader
      obtain ⟨hins',hp1',hp2'⟩:=hheader
      by_cases hlen : (chain.data++a.data).length ≤ OpenPgp.chainBufferSize
      · have hends : EndsSelect c a ↔ (chain.data++a.data).take 6=OpenPgp.openPgpRid:=by
          constructor
          · rintro ⟨chain',hmem,-,-,-,-,hrid⟩
            rw [hchain] at hmem
            cases hmem
            exact hrid
          · exact fun hrid=>⟨chain,hchain,hins',hp1',hp2',hlen,hrid⟩
        rw [OpenPgp.acceptBlock_fits hlen,if_neg hblock] at hsome
        obtain ⟨c',hselect,hflags⟩:=openpgp_cmdSelect (chain.data++a.data)
          {d with app:={d.app with chain:=none}}
        rw [bind_of_ok hsome]
        dsimp only
        rw [hcommand,hselect]
        refine ⟨_,c',rfl,?_,fun h=>hflags (mt hends.mpr h)⟩
        rw [hends]
        split
        · rename_i hrid
          exact iff_of_true rfl hrid
        · rename_i hrid
          exact iff_of_false (by decide) hrid
      · have hends : ¬EndsSelect c a:=by
          rintro ⟨chain',hmem,-,-,-,hlen',-⟩
          rw [hchain] at hmem
          cases hmem
          exact hlen hlen'
        have hlong : OpenPgp.acceptBlock a chain.data d =
            (.ok (.error {sw:=OpenPgp.swWrongLength}),{d with app:={d.app with chain:=none}}):=by
          unfold OpenPgp.acceptBlock
          dsimp only
          rw [if_pos (by omega)]
          rfl
        rw [bind_apply,hsome,hlong]
        exact hrefused (by decide) hends ⟨rfl,rfl⟩

end Applets

/-- The card as if nothing had been verified, authenticated or validated in the applet. -/
def CardApplets.unverified {β γ : Type} (a : CardApplets β γ) : Option AppletKind → CardApplets β γ
  | some .piv=>
    {a with piv:={a.piv with app:={a.piv.app with pinVerified:=false,mgmtAuthenticated:=false}}}
  | some .oath=>{a with oath:={a.oath with app:={a.oath.app with validated:=false}}}
  | some .openpgp=>
    {a with openpgp:={a.openpgp with app:={a.openpgp.app with pw1Verified:=false,pw3Verified:=false}}}
  | none=>a

section Refused

variable {β γ : Type} (b : Backends β γ) (x : Transmission) (s : Dispatcher) (a : CardApplets β γ)

/-- The answer is not 9000, and what was verified in the applet that is selected has no effect on what comes after. -/
def Refused : Prop:=(∀ data, (dispatchApdu b x s a).1.1≠some (data,0x9000)) ∧
  dispatchApdu b x s a=dispatchApdu b x s (a.unverified s.selected)

/-- The applet refuses the SELECT: PIV and YKOATH have more to answer than the window takes, or a chain is open in PIV that
the SELECT does not go on with, and nothing is verified; the SELECT does not end a chain for OpenPGP, and nothing is
verified in it. -/
def Refuses (apdu : Apdu) : Option AppletKind→Prop
  | some .piv=>
    match Piv.commandIn a.piv (x.cmd,x.respMax) with
    | some _=>Responses.Channel.window x.respMax apdu.le < pivPayload.length
    | none=>a.piv.app.pinVerified=false ∧ a.piv.app.mgmtAuthenticated=false
  | some .oath=>∀ n, (oathSelectLength b.oath a.oath.be).1=.ok n→Responses.Channel.window x.respMax apdu.le < n
  | some .openpgp=>
    ¬EndsSelect a.openpgp apdu ∧ a.openpgp.app.pw1Verified=false ∧ a.openpgp.app.pw3Verified=false
  | none=>True

variable {b x s a}

theorem commandIn_select {apdu : Apdu} {c : Piv.Cmd} (hparse : apduParse x.cmd=some apdu) (hins : apdu.ins=0xA4)
    (h : Piv.commandIn a.piv (x.cmd,x.respMax)=some c) : c.ins=Piv.insSelect ∧ c.le=apdu.le:=by
  unfold Piv.commandIn Piv.commandOf at h
  split at h
  · cases h
  · rw [hparse,Option.bind_some] at h
    split at h
    · cases h
    · unfold Piv.Chain.complete at h
      split at h
      · cases h
        exact ⟨hins,rfl⟩
      · cases hext : a.piv.app.chain.extend apdu with
        | ok chain=>
          rw [show ({a.piv with respMax:=x.respMax} : Piv.Ctx β).app.chain.extend apdu=_ from hext] at h
          cases h
          exact ⟨hins,rfl⟩
        | error sw=>
          rw [show ({a.piv with respMax:=x.respMax} : Piv.Ctx β).app.chain.extend apdu=_ from hext] at h
          cases h

theorem unverified_piv (hpin : a.piv.app.pinVerified=false) (hmgmt : a.piv.app.mgmtAuthenticated=false) :
    a.unverified (some .piv)=a:=by
  have happ : ({a.piv.app with pinVerified:=false,mgmtAuthenticated:=false} : Piv.Session)=a.piv.app:=
    congrArg₂ (fun pin mgmt=>({a.piv.app with pinVerified:=pin,mgmtAuthenticated:=mgmt} : Piv.Session))
      hpin.symm hmgmt.symm
  unfold CardApplets.unverified
  rw [happ]

theorem unverified_openpgp (hpw1 : a.openpgp.app.pw1Verified=false) (hpw3 : a.openpgp.app.pw3Verified=false) :
    a.unverified (some .openpgp)=a:=by
  have happ : ({a.openpgp.app with pw1Verified:=false,pw3Verified:=false} : OpenPgp.Applet)=a.openpgp.app:=
    congrArg₂ (fun pw1 pw3=>({a.openpgp.app with pw1Verified:=pw1,pw3Verified:=pw3} : OpenPgp.Applet))
      hpw1.symm hpw3.symm
  unfold CardApplets.unverified
  rw [happ]

/-- A SELECT by DF name whose AID is not there is refused exactly where the applet that is selected refuses it. -/
theorem unknown_select_refused (ops : List TableOp) {apdu : Apdu} (hmax : 2 ≤ x.respMax)
    (hparse : apduParse x.cmd=some apdu) (hselect : apdu.cla=0x00 ∧ apdu.ins=0xA4 ∧ apdu.p1=0x04)
    (hunknown : ∀ applet∈(reached ops).applets, ¬applet.aid <+: apdu.data) :
    Refused b x (reached ops) a ↔ Refuses b x a apdu (reached ops).selected:=by
  obtain ⟨hcla,hins,hp1⟩:=hselect
  have hinstalled:=installed_reached ops
  have haid : Dispatcher.selectedAid x.cmd=some apdu.data:=by
    unfold Dispatcher.selectedAid
    rw [hparse]
    exact if_pos ⟨hcla,hins,hp1⟩
  unfold Refused
  rw [dispatchApdu_unknown hinstalled hmax haid hunknown,dispatchApdu_unknown hinstalled hmax haid hunknown]
  rcases hinstalled.current with ⟨hselected,-⟩ | ⟨k,hselected,-,hmem⟩
  · rw [hselected]
    refine iff_of_true ⟨fun data h=>?_,rfl⟩ trivial
    have hsw : fileNotFound=0x9000:=congrArg Prod.snd (Option.some.inj h)
    exact absurd hsw (by decide)
  rw [hselected]
  dsimp only
  cases k with
  | piv=>
    cases hc : Piv.commandIn a.piv (x.cmd,x.respMax) with
    | some c=>
      obtain ⟨hcins,hle⟩:=commandIn_select hparse hins hc
      obtain ⟨⟨data,sw,hanswer,hsw⟩,hsame⟩:=piv_select (p:=b.piv) hc hcins
      simp only [Refuses,hc]
      rw [← hle]
      constructor
      · rintro ⟨hnot,-⟩
        by_contra hwindow
        have hok:=hsw.mpr (not_lt.mp hwindow)
        exact hnot data (hanswer.trans (by rw [hok]; rfl))
      · intro hwindow
        refine ⟨fun data' hanswer'=>?_,?_⟩
        · have heq:=Option.some.inj (hanswer.symm.trans hanswer')
          exact absurd (hsw.mp (congrArg Prod.snd heq)) (not_le.mpr hwindow)
        · have hpiv:=hsame false false
          simp only [processApdu,CardApplets.unverified]
          rw [hpiv]
    | none=>
      obtain ⟨sw,hsw,hexchange⟩:=piv_rejects (p:=b.piv) hmax hparse hcla hins hc
      obtain ⟨sw',-,hexchange'⟩:=piv_rejects (p:=b.piv)
        (s:={a.piv with app:={a.piv.app with pinVerified:=false,mgmtAuthenticated:=false}}) hmax hparse hcla hins hc
      simp only [Refuses,hc]
      constructor
      · rintro ⟨-,hsame⟩
        have happ:=congrArg (fun r=>r.1.2.piv.app) hsame
        simp only [processApdu,CardApplets.unverified,hexchange,hexchange'] at happ
        exact ⟨congrArg Piv.Session.pinVerified happ,congrArg Piv.Session.mgmtAuthenticated happ⟩
      · rintro ⟨hpin,hmgmt⟩
        refine ⟨fun data hanswer=>?_,?_⟩
        · simp only [processApdu,hexchange] at hanswer
          exact hsw (congrArg Prod.snd (Option.some.inj hanswer))
        · rw [unverified_piv hpin hmgmt]
  | oath=>
    have hparsed : Oath.parsed (x.cmd,x.respMax)=some apdu:=by
      unfold Oath.parsed
      rw [if_neg (by simp only; omega)]
      exact hparse
    obtain ⟨hok,hsame⟩:=oath_select (o:=b.oath) (s:=a.oath) hparsed hins hp1
    have hunverified : processApdu b x a .oath=processApdu b x (a.unverified (some .oath)) .oath:=by
      have hoath:=hsame false
      simp only [processApdu,CardApplets.unverified]
      rw [hoath]
    constructor
    · rintro ⟨hnot,-⟩ n hn
      by_contra hwindow
      obtain ⟨data,hanswer⟩:=hok.mpr ⟨n,hn,not_lt.mp hwindow⟩
      exact hnot data hanswer
    · intro hwindow
      refine ⟨fun data hanswer=>?_,by rw [← hunverified]⟩
      obtain ⟨n,hn,hle⟩:=hok.mp ⟨data,hanswer⟩
      exact absurd hle (not_le.mpr (hwindow n hn))
  | openpgp=>
    have hother : apdu.data.take 6≠OpenPgp.openPgpRid:=by
      intro hrid
      refine hunknown _ hmem ?_
      change OpenPgp.openPgpRid <+: apdu.data
      rw [← hrid]
      exact List.take_prefix 6 apdu.data
    obtain ⟨sw,c',hexchange,hsw,hflags⟩:=openpgp_select b.dev b.cr (c:=a.openpgp) hparse hcla hins hother
    have hanswer : (processApdu b x a .openpgp).1=some ([],sw):=congrArg Prod.fst hexchange
    constructor
    · rintro ⟨hnot,hsame⟩
      have hends : ¬EndsSelect a.openpgp apdu:=by
        intro hends
        exact hnot [] (hanswer.trans (by rw [hsw.mpr hends]; rfl))
      obtain ⟨sw'',c'',hexchange',-,hflags'⟩:=openpgp_select b.dev b.cr
        (c:=(a.unverified (some .openpgp)).openpgp) hparse hcla hins hother
      have hends' : ¬EndsSelect (a.unverified (some .openpgp)).openpgp apdu:=hends
      have hcard:=congrArg (fun r=>r.1.2.openpgp) hsame
      simp only [processApdu,hexchange,hexchange'] at hcard
      obtain ⟨hpw1,hpw3⟩:=hflags hends
      obtain ⟨hpw1',hpw3'⟩:=hflags' hends'
      rw [← hcard] at hpw1' hpw3'
      exact ⟨hends,hpw1.symm.trans hpw1',hpw3.symm.trans hpw3'⟩
    · rintro ⟨hends,hpw1,hpw3⟩
      refine ⟨fun data hreply=>?_,by rw [unverified_openpgp hpw1 hpw3]⟩
      have hdone : sw=OpenPgp.swOk:=congrArg Prod.snd (Option.some.inj (hanswer.symm.trans hreply))
      exact hends (hsw.mp hdone)

end Refused

section Selects

def plainBackends : Backends Unit Unit:={piv:=.plain,oath:=oathPlain,dev:=.plain,cr:=.plain}

def plainApplets : CardApplets Unit Unit:=
  {piv:={be:=()},oath:={be:=()},openpgp:={OpenPgp.newCard with on:=true}}

def selectApdu (aid : Bytes) : Bytes:=[0x00,0xA4,0x04,0x00,UInt8.ofNat aid.length]++aid

def selectedOps (k : AppletKind) : List TableOp:=[.register k false,.apdu (selectApdu k.aid) 2048]

def unknownSelect : Transmission:={cmd:=selectApdu [0xA0,0x01],respMax:=2048}

theorem unknown_select_refused_openpgp : Refused plainBackends unknownSelect (reached (selectedOps .openpgp)) plainApplets:=by
  refine (unknown_select_refused (selectedOps .openpgp) (by decide) (by rfl) (by decide) (by decide)).mpr ?_
  rw [show (reached (selectedOps .openpgp)).selected=some .openpgp from by decide]
  refine ⟨?_,rfl,rfl⟩
  rintro ⟨chain,hchain,-⟩
  cases hchain

/-- PIV answers 9000 to the SELECT of another applet. -/
theorem unknown_select_answered : ¬ ∀ (ops : List TableOp) (x : Transmission) (a : CardApplets Unit Unit) (apdu : Apdu),
    2 ≤ x.respMax→apduParse x.cmd=some apdu→apdu.cla=0x00 ∧ apdu.ins=0xA4 ∧ apdu.p1=0x04 →
    (∀ applet∈(reached ops).applets, ¬applet.aid <+: apdu.data)→Refused plainBackends x (reached ops) a:=by
  intro h
  obtain ⟨hnot,-⟩:=h (selectedOps .piv) unknownSelect plainApplets _ (by decide) (by rfl) (by decide) (by decide)
  exact hnot pivPayload (by rfl)

end Selects

end CdcBadge.Scard
