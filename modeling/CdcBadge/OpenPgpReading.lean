import CdcBadge.OpenPgpChaining
import CdcBadge.Windows

/-!
# Responses of the OpenPGP card that are read in parts

A response that is longer than Le, and a certificate that is longer than the response buffer,
is left in a buffer of the card and read with GET RESPONSE.
-/

namespace CdcBadge.OpenPgp

open Handler Windows

/-- `61xx`: so many bytes are left, or more than 255. -/
def swMore (left : ℕ) : UInt16:=0x6100 ||| if 0xFF < left then 0 else UInt16.ofNat left

theorem swMore_ne_ok (left : ℕ) : swMore left≠swOk:=by
  have hall : ∀ n : Fin 256, 0x6100 ||| UInt16.ofNat n.val≠swOk:=by decide +kernel
  unfold swMore
  by_cases h : 0xFF < left
  · rw [if_pos h]
    decide
  · rw [if_neg h]
    exact hall ⟨left,by omega⟩

def responseCode : Code UInt16 where
  done:=swOk
  more:=swMore
  more_ne_done:=swMore_ne_ok

def replyOf (dev : Device) (cr : GpgCrypto) (c : Card) (i : CardInput) : Option (Bytes × UInt16) × Card:=
  ((respond dev cr c i).1.map fun r=>(r.data,r.sw),(respond dev cr c i).2)

/-- A GET RESPONSE, with any Le, into a buffer that has room for data. -/
def IsGetResponse (i : CardInput) : Prop:=
  ∃ raw e data le, i=⟨.apdu raw,e⟩ ∧ Says raw 0x00 ⟨0xC0,0x00,0x00,data,le,false⟩ ∧ 2 < e.respMax

/-- The card can be asked for the rest of a response. -/
structure Pending (pending : Bytes) (c : Card) : Prop where
  on : c.on=true
  selected : c.app.appSelected=true
  active : c.app.cardTerminated=false
  chain : c.app.chain=none
  resp : c.app.resp=pending

section Reading

variable {dev : Device} {cr : GpgCrypto} {c : Cmd} {card : Card}

variable (dev cr card) in
/-- A command that is neither a SELECT nor a GET RESPONSE, on a selected card that is not terminated. -/
theorem dispatch_run (hselect : c.ins≠0xA4) (hget : c.ins≠0xC0) (hselected : card.app.appSelected=true)
    (hactive : card.app.cardTerminated=false) :
    dispatch dev cr c card=(runCommand dev cr c >>= applyResponseChaining c.le) card:=by
  unfold dispatch
  rw [if_neg hselect,appGets_bind]
  simp only [hselected,Bool.not_true,Bool.false_eq_true,if_false]
  rw [appGets_bind]
  simp only [hactive,Bool.false_and,Bool.false_eq_true,if_false,hget]

theorem dispatch_getResponse {data : Bytes} {le : ℕ} (hselected : card.app.appSelected=true)
    (hactive : card.app.cardTerminated=false) :
    dispatch dev cr ⟨0xC0,0x00,0x00,data,le,false⟩ card =
      cmdGetResponse ⟨0xC0,0x00,0x00,data,le,false⟩ card:=by
  unfold dispatch
  rw [if_neg (show ¬(0xC0 : UInt8)=0xA4 by decide),appGets_bind]
  simp only [hselected,Bool.not_true,Bool.false_eq_true,if_false]
  rw [appGets_bind]
  simp only [hactive,Bool.false_and,Bool.false_eq_true,if_false,if_true]

theorem swMore_status {left : ℕ} :
    (if 0 < left then 0x6100 ||| (if 0xFF < left then 0 else UInt16.ofNat left) else swOk) =
      responseCode.status left:=by
  rcases Nat.eq_zero_or_pos left with rfl | hpos
  · rfl
  · rw [responseCode.status_pos hpos,if_pos hpos]
    rfl

theorem cmdGetResponse_pending (data : Bytes) (le : ℕ) (hresp : card.app.resp≠[]) :
    ∃ n, n=min (min (if 0 < le then le else 256) card.app.resp.length) (card.env.respMax-2) ∧
      cmdGetResponse ⟨0xC0,0x00,0x00,data,le,false⟩ card =
        (.ok {data:=card.app.resp.take n,sw:=responseCode.status (card.app.resp.length-n)},
          {card with app:={card.app with resp:=card.app.resp.drop n}}):=by
  refine ⟨_,rfl,?_⟩
  unfold cmdGetResponse
  rw [appGets_bind,bind_gets]
  simp only [ne_eq,not_true_eq_false,or_self,if_false,hresp]
  rw [updateApp_bind,← swMore_status]
  rfl

theorem serves : responseCode.Serves (replyOf dev cr) Pending IsGetResponse:=by
  rintro pending card i hpending hne ⟨raw,e,data,le,rfl,hraw,hmax⟩
  obtain ⟨hon,hselected,hactive,hchain,rfl⟩:=hpending
  let s:=(card.given e).chained 0xC0 none
  have hs : s.app.resp=card.app.resp:=rfl
  obtain ⟨n,hn,hreply⟩:=cmdGetResponse_pending data le (show s.app.resp≠[] from hne)
  have hpos:=List.length_pos_of_ne_nil hne
  have hmax' : s.env.respMax=e.respMax:=rfl
  have hprocess : openpgpProcessApdu dev cr raw (card.given e) =
      cmdGetResponse ⟨0xC0,0x00,0x00,data,le,false⟩ s:=
    (process_whole hraw (show (card.given e).app.chain=none from hchain)).trans (dispatch_getResponse hselected hactive)
  refine ⟨n,{s with app:={s.app with resp:=s.app.resp.drop n},on:=true},?_,?_,?_⟩
  · rw [hs,hmax'] at hn
    have hwant : 0 < (if 0 < le then le else 256):=by
      split
      · assumption
      · decide
    omega
  · unfold replyOf
    rw [respond_apdu hon,hprocess,hreply]
    rfl
  · exact ⟨rfl,hselected,hactive,rfl,rfl⟩

/-- Nothing of this is changed by a command that is answered with data. -/
def Ready (respMax : ℕ) (c : Card) : Prop:=
  c.app.appSelected=true ∧ c.app.cardTerminated=false ∧ c.app.chain=none ∧ c.env.respMax=respMax

theorem quiet_ready (respMax : ℕ) : Quiet (Ready respMax) where
  badge _ _ h:=h
  env _ _ he h:=⟨h.1,h.2.1,h.2.2.1,he.trans h.2.2.2⟩
  nvs _ _ h:=h
  cert _ _ h:=h
  data _ _ hd h:=⟨h.1,hd.trans h.2.1,h.2.2⟩
  resp _ _ h:=h

section Silent

variable {α : Type} {P : Card→Prop}

def Silent (m : CardM Reply) : Prop:=Triple (fun _=>True) m (fun r _=>r.data=[]) fun _ _=>True

theorem Silent.sw (sw : UInt16) : Silent (apduSw sw):=fun _ _=>rfl

theorem Silent.bind {m : CardM α} {k : α → CardM Reply} (hk : ∀ a, Silent (k a)) : Silent (m >>= k):=
  Triple.bind (Triple.of_ok (Q:=fun _ _=>True) fun _ _ _ _ _=>trivial) hk

theorem Silent.ite {p : Prop} [Decidable p] {m n : CardM Reply} (hm : p → Silent m) (hn : ¬p → Silent n) :
    Silent (if p then m else n):=Triple.ite hm hn

theorem silent_retriesReply (pw : Pin.Pw) : Silent (retriesReply pw):=
  Silent.bind fun _=>Silent.ite (fun _=>Silent.sw _) fun _=>Silent.sw _

theorem silent_cmdVerify (c : Cmd) : Silent (cmdVerify cr c):=by
  have hverify : ∀ (pw : Pin.Pw) (f : CardM Bool) (g : Applet → Applet),
      Silent (do
        if ← f then
          updateApp g
          apduSw swOk
        else retriesReply pw):=fun pw f g=>
    Silent.bind fun _=>Silent.ite (fun _=>Silent.bind fun _=>Silent.sw _) fun _=>silent_retriesReply pw
  apply Silent.ite (fun _=>?_) fun _=>?_
  · apply Silent.ite (fun _=>silent_retriesReply _) fun _=>?_
    apply Silent.bind fun _=>?_
    apply Silent.ite (fun _=>hverify _ _ _) fun _=>?_
    exact Silent.ite (fun _=>Silent.sw _) fun _=>hverify _ _ _
  · apply Silent.ite (fun _=>?_) fun _=>Silent.sw _
    apply Silent.ite (fun _=>silent_retriesReply _) fun _=>?_
    apply Silent.bind fun _=>?_
    apply Silent.ite (fun _=>hverify _ _ _) fun _=>?_
    exact Silent.ite (fun _=>Silent.sw _) fun _=>hverify _ _ _

theorem silent_resetWithRc (data : Bytes) : Silent (resetWithRc cr data):=by
  apply Silent.bind fun _=>Silent.bind fun _=>?_
  apply Silent.ite (fun _=>Silent.sw _) fun _=>?_
  apply Silent.bind fun _=>Silent.ite (fun _=>Silent.sw _) fun _=>?_
  apply Silent.ite (fun _=>Silent.sw _) fun _=>?_
  split
  · exact Silent.sw _
  apply Silent.bind fun _=>Silent.ite (fun _=>?_) fun _=>?_
  · apply Silent.bind fun _=>Silent.ite (fun _=>?_) fun _=>Silent.sw _
    exact Silent.bind fun _=>Silent.bind fun _=>Silent.bind fun _=>Silent.sw _
  · apply Silent.bind fun _=>Silent.bind fun _=>Silent.bind fun _=>?_
    exact Silent.ite (fun _=>Silent.sw _) fun _=>Silent.sw _

theorem silent_resetByAdmin (data : Bytes) : Silent (resetByAdmin cr data):=by
  have hreset : ∀ (f : CardM Bool) (sw : UInt16), Silent (do
      if ← f then
        resetPwRetries cr .pw1
        updateApp fun a=>{a with pw1Verified:=false}
        apduSw swOk
      else apduSw sw):=fun f sw=>
    Silent.bind fun _=>Silent.ite (fun _=>Silent.bind fun _=>Silent.bind fun _=>Silent.sw _) fun _=>
      Silent.sw _
  apply Silent.bind fun _=>Silent.bind fun _=>?_
  apply Silent.ite (fun _=>Silent.sw _) fun _=>?_
  apply Silent.ite (fun _=>hreset _ _) fun _=>?_
  exact Silent.ite (fun _=>Silent.sw _) fun _=>hreset _ _

theorem silent_speaks (hc : c.speaks) : Silent (runCommand dev cr c):=by
  obtain ⟨ins,p1,p2,data,le⟩:=c
  unfold Cmd.speaks at hc
  rcases hc with rfl | rfl | rfl | rfl
  · exact silent_cmdVerify _
  · apply Silent.ite (fun _=>Silent.sw _) fun _=>?_
    apply Silent.ite (fun _=>silent_resetWithRc _) fun _=>?_
    exact Silent.ite (fun _=>silent_resetByAdmin _) fun _=>Silent.sw _
  · apply Silent.ite (fun _=>Silent.sw _) fun _=>?_
    apply Silent.bind fun _=>Silent.bind fun _=>Silent.bind fun _=>?_
    exact Silent.ite (fun _=>Silent.sw _) fun _=>Silent.bind fun _=>Silent.bind fun _=>Silent.sw _
  · apply Silent.ite (fun _=>Silent.sw _) fun _=>?_
    apply Silent.bind fun _=>?_
    exact Silent.ite (fun _=>Silent.sw _) fun _=>Silent.bind fun _=>Silent.sw _

end Silent

theorem runCommand_ready {s t : Card} {r : Reply} {m : ℕ} (h : runCommand dev cr c s=(.ok r,t)) (hs : Ready m s)
    (hdata : r.data≠[]) : Ready m t:=by
  have hc : ¬c.speaks:=fun hc=>hdata ((silent_speaks hc).ok trivial h)
  exact ((quiet_ready m).runCommand hc).ok hs h

theorem still_respMax (m : ℕ) : Still fun c : Card=>c.env.respMax=m where
  badge _ _ h:=h
  env _ _ he h:=he.trans h
  nvs _ _ h:=h
  cert _ _ h:=h
  data _ _ _ h:=h
  resp _ _ h:=h
  session _ _ _ _ _ h:=h
  anyData _ _ h:=h
  pending _ _ h:=h

/-- The first answer to a payload: its front and what is left, which then stands in the card. -/
def Opens (payload : Bytes) (m : ℕ) (r : Except Pin.PowerLost Reply × Card) : Prop:=
  ∃ n t, r=(.ok {data:=payload.take n,sw:=responseCode.status (payload.length-n)},t) ∧
    (n < payload.length→Ready m t ∧ t.app.resp=payload.drop n)

theorem opens_built {payload : Bytes} {m : ℕ} {s t : Card} (h : runCommand dev cr c s=buildResponse payload t)
    (hs : Ready m s) (hfits : payload.length+2 ≤ m) :
    Opens payload m ((runCommand dev cr c >>= applyResponseChaining c.le) s):=by
  have hbuilt : buildResponse payload t=(.ok {data:=payload.take (t.env.respMax-2),sw:=swOk},t):=rfl
  rw [hbuilt] at h
  have hmax : t.env.respMax=m:=((still_respMax m).runCommand dev cr c).ok hs.2.2.2 h
  have htake : payload.take (t.env.respMax-2)=payload:=List.take_of_length_le (by omega)
  rw [htake] at h
  rw [bind_of_ok h]
  unfold applyResponseChaining
  rw [if_neg (not_not.mpr rfl)]
  by_cases hwhole : c.le=0 ∨ payload.length ≤ c.le
  · rw [if_pos hwhole]
    exact ⟨payload.length,t,by simp; rfl,fun hlt=>absurd hlt (lt_irrefl _)⟩
  rw [if_neg hwhole]
  simp only [not_or,not_le] at hwhole
  by_cases hbig : respBufferSize < payload.length-c.le
  · rw [if_pos hbig]
    exact ⟨payload.length,t,by simp; rfl,fun hlt=>absurd hlt (lt_irrefl _)⟩
  have hroom : ¬t.env.respMax < c.le+2:=by omega
  rw [if_neg hbig,bind_gets,updateApp_bind,if_neg hroom]
  have hsome : payload≠[]:=List.ne_nil_of_length_pos (by omega)
  have hready : Ready m t:=runCommand_ready h hs hsome
  refine ⟨c.le,{t with app:={t.app with resp:=payload.drop c.le}},?_,fun _=>⟨hready,rfl⟩⟩
  rw [responseCode.status_pos (by omega)]
  rfl

theorem opens_chunked {payload : Bytes} {m : ℕ} {s t : Card}
    (h : runCommand dev cr c s=respondChunked payload c.le t) (hs : Ready m s)
    (hlen : payload.length ≤ respBufferSize) (hm : 2 < m) :
    Opens payload m ((runCommand dev cr c >>= applyResponseChaining c.le) s):=by
  let first:=min (if 0 < c.le ∧ c.le < payload.length then c.le else payload.length) (t.env.respMax-2)
  have hfirst : first=min (if 0 < c.le ∧ c.le < payload.length then c.le else payload.length) (t.env.respMax-2):=
    rfl
  by_cases hall : payload.length-first=0
  · have hanswer : respondChunked payload c.le t=(.ok {data:=payload,sw:=swOk},t):=by
      unfold respondChunked
      rw [bind_gets,if_pos hall]
      rfl
    rw [hanswer] at h
    have hle : c.le=0 ∨ payload.length ≤ c.le:=by
      by_contra hcon
      simp only [not_or,not_le] at hcon
      rw [if_pos ⟨by omega,hcon.2⟩] at hfirst
      omega
    rw [bind_of_ok h]
    unfold applyResponseChaining
    rw [if_neg (not_not.mpr rfl),if_pos hle]
    exact ⟨payload.length,t,by simp; rfl,fun hlt=>absurd hlt (lt_irrefl _)⟩
  · have hwindow : respondChunked payload c.le t =
        (.ok {data:=payload.take first,sw:=swMore (payload.length-first)},
          {t with app:={t.app with resp:=payload.drop first}}):=by
      unfold respondChunked
      rw [bind_gets,if_neg hall,if_neg (by omega)]
      rfl
    rw [hwindow] at h
    have hmax:=((still_respMax m).runCommand dev cr c).ok hs.2.2.2 h
    change t.env.respMax=m at hmax
    have hsome : payload.take first≠[]:=by
      have hwant : 0 < first:=by
        rw [hfirst]
        split <;> omega
      apply List.ne_nil_of_length_pos
      rw [List.length_take]
      omega
    have hready:=runCommand_ready h hs hsome
    rw [bind_of_ok h]
    unfold applyResponseChaining
    rw [if_pos (swMore_ne_ok _)]
    refine ⟨first,{t with app:={t.app with resp:=payload.drop first}},?_,fun _=>⟨hready,rfl⟩⟩
    rw [responseCode.status_pos (by omega)]
    rfl

/-- The answer to the last block of a command and the GET RESPONSE commands behind it deliver a payload: each states
what is left, and together they are the payload once there are enough of them. -/
def Delivered (dev : Device) (cr : GpgCrypto) (payload : Bytes) (card : Card) (first : CardInput) : Prop:=
  ∀ gets : List CardInput, (∀ g∈gets, IsGetResponse g) →
    responseCode.Delivers payload (responseCode.reads (replyOf dev cr) card (first::gets)) ∧
      (payload.length ≤ gets.length →
        ((responseCode.reads (replyOf dev cr) card (first::gets)).map Prod.fst).flatten=payload)

/-- A card that a command is given to: it is on, selected and not terminated, and the blocks of the command that came
before this one, which is the last, are in its chain. -/
structure Given (card : Card) (c : Cmd) (raw : Bytes) (e : Env) (s : Card) : Prop where
  on : card.on=true
  selected : card.app.appSelected=true
  active : card.app.cardTerminated=false
  room : 2 < e.respMax
  select : c.ins≠0xA4
  getResponse : c.ins≠0xC0
  chained : c.chained=card.app.chain.isSome
  last : ∃ before data, c.data=before++data ∧ Says raw 0x00 {c with data:=data,chained:=false} ∧
    Holds c before card.app.chain ∧ c.data.length ≤ chainBufferSize
  start : s=(card.given e).chained c.ins none

theorem delivered_of_opens {payload raw : Bytes} {e : Env} {s : Card} (h : Given card c raw e s)
    (hopens : Opens payload e.respMax ((runCommand dev cr c >>= applyResponseChaining c.le) s)) :
    Delivered dev cr payload card ⟨.apdu raw,e⟩:=by
  obtain ⟨before,data,hdata,hraw,hholds,hlen⟩:=h.last
  obtain ⟨n,t,hreply,hrest⟩:=hopens
  have hchained:=h.chained
  obtain ⟨ins,p1,p2,cdata,le,chained⟩:=c
  subst hdata hchained
  have hprocess : openpgpProcessApdu dev cr raw (card.given e) =
      dispatch dev cr ⟨ins,p1,p2,before++data,le,card.app.chain.isSome⟩ ((card.given e).chained ins none):=
    process_last (c:=⟨ins,p1,p2,data,le,false⟩) hraw hholds hlen
  have hrun:=dispatch_run dev cr s h.select h.getResponse
    (by rw [h.start]; exact h.selected) (by rw [h.start]; exact h.active)
  have hfirst : replyOf dev cr card ⟨.apdu raw,e⟩ =
      (some (payload.take n,responseCode.status (payload.length-n)),{t with on:=true}):=by
    unfold replyOf
    rw [respond_apdu h.on,hprocess,← h.start,hrun,hreply]
    rfl
  intro gets hgets
  refine Code.reads_first serves hfirst (fun hlt=>?_) hgets
  obtain ⟨hready,hresp⟩:=hrest hlt
  exact ⟨rfl,hready.1,hready.2.1,hready.2.2.1,hresp⟩

theorem Given.ready {raw : Bytes} {e : Env} {s : Card} (h : Given card c raw e s) : Ready e.respMax s:=by
  rw [h.start]
  exact ⟨h.selected,h.active,rfl,rfl⟩

def anyGetResponse : CardInput:=⟨.apdu [0x00,0xC0,0x00,0x00],{}⟩

theorem isGetResponse_any : IsGetResponse anyGetResponse:=
  ⟨_,_,[],0,rfl,⟨_,rfl,rfl,rfl⟩,by decide⟩

theorem delivered_built {payload raw : Bytes} {e : Env} {s t : Card} (h : Given card c raw e s)
    (hrun : runCommand dev cr c s=buildResponse payload t) :
    Delivered dev cr payload card ⟨.apdu raw,e⟩ ↔ payload.length+2 ≤ e.respMax:=by
  constructor
  · intro hdelivered
    by_contra hfits
    let front:=payload.take (e.respMax-2)
    have hmax:=((still_respMax e.respMax).runCommand dev cr c).ok h.ready.2.2.2 hrun
    change t.env.respMax=e.respMax at hmax
    have hcut : buildResponse payload t=buildResponse front t:=by
      unfold buildResponse
      rw [bind_gets,bind_gets,hmax]
      simp [front]
    have hroom:=h.room
    have hlength : front.length=e.respMax-2:=by
      rw [List.length_take]
      omega
    have hopens:=opens_built (hrun.trans hcut) h.ready (by omega)
    let gets:=List.replicate payload.length anyGetResponse
    have hgets : ∀ g∈gets, IsGetResponse g:=by
      intro g hg
      rw [List.eq_of_mem_replicate hg]
      exact isGetResponse_any
    have henough : payload.length ≤ gets.length:=by simp [gets]
    have hwhole:=(hdelivered gets hgets).2 henough
    have hfront:=(delivered_of_opens h hopens gets hgets).2 (by omega)
    have hsame:=congrArg List.length (hwhole.symm.trans hfront)
    omega
  · exact fun hfits=>delivered_of_opens h (opens_built hrun h.ready hfits)

theorem delivered_chunked {payload raw : Bytes} {e : Env} {s t : Card} (h : Given card c raw e s)
    (hrun : runCommand dev cr c s=respondChunked payload c.le t) (hlen : payload.length ≤ respBufferSize) :
    Delivered dev cr payload card ⟨.apdu raw,e⟩:=
  delivered_of_opens h (opens_chunked hrun h.ready hlen h.room)

variable (dev cr) in
theorem runCommand_cert {payload : Bytes} {s : Card} (hins : c.ins=0xCA) (hp1 : c.p1=0x7F) (hp2 : c.p2=0x21)
    (hcert : s.cert=some payload) (hne : payload≠[]) (hlen : payload.length ≤ cardholderCertMax)
    (hnvs : s.env.nvs.headD .done=.done) : ∃ t, runCommand dev cr c s=respondChunked payload c.le t:=by
  have htag : c.p1.toNat*256+c.p2.toNat=0x7F21:=by
    rw [hp1,hp2]
    decide
  have hread : nvsRead (·.cert) s=(.ok (some payload),{s with env:={s.env with nvs:=s.env.nvs.tail}}):=by
    unfold nvsRead
    have hnext : nextNvs s=(.ok .done,{s with env:={s.env with nvs:=s.env.nvs.tail}}):=by
      rw [← hnvs]
      rfl
    rw [bind_of_ok hnext,← hcert]
    rfl
  have hstored : ¬(payload=[] ∨ cardholderCertMax < payload.length):=by
    simp only [hne,false_or,not_lt]
    exact hlen
  refine ⟨{s with env:={s.env with nvs:=s.env.nvs.tail}},?_⟩
  unfold runCommand cmdGetData
  rw [if_pos hins,htag,if_neg (by decide),if_pos rfl,bind_of_ok hread]
  simp only [hstored,if_false]

def Card.withResp (card : Card) (x : Bytes) : Card:={card with app:={card.app with resp:=x}}

/-- A command other than GET RESPONSE leaves nothing of a response, unless it does not parse. -/
theorem respond_forgets {raw : Bytes} {e : Env} (hon : card.on=true)
    (hother : ∀ a, Scard.apduParse raw=some a→a.ins≠0xC0) :
    (∀ x y, respond dev cr (card.withResp x) ⟨.apdu raw,e⟩=respond dev cr (card.withResp y) ⟨.apdu raw,e⟩) ↔
      (Scard.apduParse raw).isSome=true:=by
  have hrespond (x : Bytes) : respond dev cr (card.withResp x) ⟨.apdu raw,e⟩=_:=
    respond_apdu (show (card.withResp x).on=true from hon)
  cases ha : Scard.apduParse raw with
  | none=>
    simp only [Option.isSome_none,Bool.false_eq_true,iff_false]
    intro hsame
    have hresp:=congrArg (fun r=>r.2.app.resp) (hsame [] [0x00])
    rw [hrespond,hrespond,process_unparsed ha,process_unparsed ha] at hresp
    cases hresp
  | some a=>
    simp only [Option.isSome_some,iff_true]
    intro x y
    have hchained : ∀ z, ((card.withResp z).given e).chained a.ins card.app.chain =
        (card.given e).chained a.ins card.app.chain:=by
      intro z
      simp only [Card.chained,Card.withResp,Card.given,hother a ha,ne_eq,not_false_eq_true,if_true]
    have hprocess : ∀ z, openpgpProcessApdu dev cr raw ((card.withResp z).given e) =
        openpgpProcessApdu dev cr raw (card.given e):=by
      intro z
      rw [process_parsed ha,process_parsed ha]
      exact congrArg _ (hchained z)
    rw [hrespond,hrespond,hprocess x,hprocess y]

end Reading

/-- A payload that a handler leaves in the response buffer is delivered, by whatever Le, exactly where it fits into the
buffer; the certificate is delivered; and nothing of a response is left after another command exactly where that
command parses. -/
theorem responses_read (dev : Device) (cr : GpgCrypto) (card : Card) (raw : Bytes) (e : Env) :
    (∀ c s t payload, Given card c raw e s → runCommand dev cr c s=buildResponse payload t →
      (Delivered dev cr payload card ⟨.apdu raw,e⟩ ↔ payload.length+2 ≤ e.respMax)) ∧
    (∀ c s payload, Given card c raw e s → c.ins=0xCA → c.p1=0x7F → c.p2=0x21 → card.cert=some payload →
      payload≠[]→payload.length ≤ cardholderCertMax→e.nvs.headD .done=.done →
      Delivered dev cr payload card ⟨.apdu raw,e⟩) ∧
    (card.on=true→(∀ a, Scard.apduParse raw=some a→a.ins≠0xC0) →
      ((∀ x y, respond dev cr (card.withResp x) ⟨.apdu raw,e⟩=respond dev cr (card.withResp y) ⟨.apdu raw,e⟩) ↔
        (Scard.apduParse raw).isSome=true)):=by
  refine ⟨?_,?_,?_⟩
  · intro c s t payload h hrun
    exact delivered_built h hrun
  · intro c s payload h hins hp1 hp2 hcert hne hlen hnvs
    obtain ⟨t,hrun⟩:=runCommand_cert dev cr (s:=s) hins hp1 hp2
      (by rw [h.start]; exact hcert) hne hlen (by rw [h.start]; exact hnvs)
    have hbuffer : payload.length ≤ respBufferSize:=hlen.trans (by decide)
    exact delivered_chunked h hrun hbuffer
  · exact fun hon hother=>respond_forgets hon hother

def selectApdu : Bytes:=[0x00,0xA4,0x04,0x00,0x06,0xD2,0x76,0x00,0x01,0x24,0x01]

def getHistBytes : Bytes:=[0x00,0xCA,0x5F,0x52,0x02]

def selectedCard : Card:=Runs.run (step .plain .plain) newCard [⟨.powerOn,{}⟩,⟨.apdu selectApdu,{}⟩]

theorem runCommand_hist (s : Card) :
    runCommand .plain .plain ⟨0xCA,0x5F,0x52,[],2,false⟩ s=buildResponse histBytes s:=by
  have htag : (0x5F : UInt8).toNat*256+(0x52 : UInt8).toNat=0x5F52:=by decide
  unfold runCommand cmdGetData
  rw [if_pos rfl,htag,if_neg (by decide),if_neg (by decide),bind_gets]
  rfl

theorem responses_read_hist :
    Delivered .plain .plain histBytes selectedCard ⟨.apdu getHistBytes,{}⟩:=by
  have hgiven : Given selectedCard ⟨0xCA,0x5F,0x52,[],2,false⟩ getHistBytes {}
      ((selectedCard.given {}).chained 0xCA none):=
    { on:=by decide +kernel
      selected:=by decide +kernel
      active:=by decide +kernel
      room:=by decide
      select:=by decide
      getResponse:=by decide
      chained:=by decide +kernel
      last:=⟨[],[],rfl,⟨_,rfl,rfl,rfl⟩,by
        have hnone : selectedCard.app.chain=none:=by decide +kernel
        rw [hnone]
        rfl,by decide⟩
      start:=rfl }
  exact ((responses_read .plain .plain selectedCard getHistBytes {}).1 _ _ _ histBytes hgiven (runCommand_hist _)).mpr (by decide)

def cutVerify : Bytes:=[0x00,0x20,0x00,0x81,0x06,0x31,0x32]

/-- After a VERIFY that does not parse, GET RESPONSE still returns what was left of the historical bytes. -/
theorem responses_read_after_garbage :
    let c:=Runs.run (step .plain .plain) selectedCard [⟨.apdu getHistBytes,{}⟩,⟨.apdu cutVerify,{}⟩]
    (respond .plain .plain c anyGetResponse).1=some {data:=histBytes.drop 2,sw:=swOk}:=by
  decide +kernel

end CdcBadge.OpenPgp
