import CdcBadge.OpenPgpChaining

/-!
# The selection of the OpenPGP card

What a SELECT leaves of the session, which commands a card lets through after a SELECT that it refused, after which
VERIFY a command succeeds, and what a terminated card still does.
-/

namespace CdcBadge.OpenPgp

open Handler Runs
open Pin (Pw)

def Applet.verified (a : Applet) : Pw→Bool
  | .pw1=>a.pw1Verified
  | .pw3=>a.pw3Verified

/-- The password that a command needs. `TERMINATE DF` needs none once both are blocked. -/
def Card.gate (card : Card) (c : Cmd) : Option Pw:=
  if c.ins=0x2A ∨ c.ins=0x88 then some .pw1
  else if c.ins=0xDA ∨ c.ins=0xDB then some .pw3
  else if c.ins=0x47 then if c.p1=0x80 then some .pw3 else none
  else if c.ins=0x2C then if c.p1=0x02 then some .pw3 else none
  else if c.ins=0xE6 then
    if Pw.pw1.retries card.badge.pm=0 ∧ Pw.pw3.retries card.badge.pm=0 then none else some .pw3
  else none

/-- The references that `VERIFY` knows a password by. -/
def verifyRefs : Pw → List UInt8
  | .pw1=>[pw1Code1,pw1Code2]
  | .pw3=>[pw3Code]

/-- The input is a `VERIFY` of the password. -/
def Verifies (pw : Pw) (i : CardInput) : Prop:=
  ∃ raw a, i.op=.apdu raw ∧ Scard.apduParse raw=some a ∧ a.ins=0x20 ∧ a.p2∈verifyRefs pw

/-- `9000`, or `61xx` with the front of a response. -/
def Reply.succeeded (r : Reply) : Bool:=r.sw == swOk || r.sw >>> 8 == 0x61

/-- Nothing of a session is left. -/
structure Applet.Fresh (a : Applet) : Prop where
  pw1 : a.pw1Verified=false
  pw3 : a.pw3Verified=false
  pin : a.sessionPin=[]
  chain : a.chain=none
  resp : a.resp=[]

/-- The SELECT comes without a chain, or ends one of its own header whose data with its own begin with the AID. -/
def EndsWithAid (a : Scard.Apdu) : Option Chain→Prop
  | none=>True
  | some chain=>a.ins=chain.ins ∧ a.p1=chain.p1 ∧ a.p2=chain.p2 ∧
      (chain.data++a.data).length ≤ chainBufferSize ∧ (chain.data++a.data).take 6=openPgpRid

variable {raw : Bytes} {a : Scard.Apdu}

section Gate

variable {dev : Device} {cr : GpgCrypto} {card : Card} {c : Cmd} {pw : Pw}

def Refuses (m : CardM Reply) (card : Card) : Prop:=
  ∃ sw, (sw=swSecurityNotSatisfied ∨ sw=swIncorrectP1P2) ∧ m card=(.ok {sw:=sw},card)

theorem Refuses.security {m : CardM Reply} (h : m card=(.ok {sw:=swSecurityNotSatisfied},card)) :
    Refuses m card:=⟨_,.inl rfl,h⟩

theorem Refuses.p1P2 {m : CardM Reply} (h : m card=(.ok {sw:=swIncorrectP1P2},card)) : Refuses m card:=
  ⟨_,.inr rfl,h⟩

theorem refuses_psoCds (h : card.app.pw1Verified=false) : Refuses (cmdPsoCds dev cr c) card:=by
  apply Refuses.security
  unfold cmdPsoCds
  rw [appGets_bind,h]
  rfl

theorem refuses_psoDecipher (h : card.app.pw1Verified=false) : Refuses (cmdPsoDecipher dev cr c) card:=by
  apply Refuses.security
  unfold cmdPsoDecipher
  rw [appGets_bind,h]
  rfl

theorem refuses_internalAuthenticate (h : card.app.pw1Verified=false) :
    Refuses (cmdInternalAuthenticate dev cr c) card:=by
  unfold cmdInternalAuthenticate
  by_cases hp : c.p1≠0x00 ∨ c.p2≠0x00
  · apply Refuses.p1P2
    rw [if_pos hp]
    rfl
  · apply Refuses.security
    rw [if_neg hp,appGets_bind,h]
    rfl

theorem refuses_putData (h : card.app.pw3Verified=false) : Refuses (cmdPutData dev cr c) card:=by
  apply Refuses.security
  unfold cmdPutData
  rw [appGets_bind,h]
  rfl

theorem refuses_putDataOdd (h : card.app.pw3Verified=false) : Refuses (cmdPutDataOdd dev cr c) card:=by
  apply Refuses.security
  unfold cmdPutDataOdd
  rw [appGets_bind,h]
  rfl

theorem refuses_generateKeypair (h : card.app.pw3Verified=false) (hp1 : c.p1=0x80) :
    Refuses (cmdGenerateKeypair dev cr c) card:=by
  apply Refuses.security
  unfold cmdGenerateKeypair
  rw [appGets_bind,appGets_bind,h]
  simp only [hp1,Bool.not_false,if_true,ite_self]
  rfl

theorem refuses_resetRetryCounter (h : card.app.pw3Verified=false) (hp1 : c.p1=0x02) :
    Refuses (cmdResetRetryCounter cr c) card:=by
  unfold cmdResetRetryCounter
  by_cases hp2 : c.p2≠pw1Code1
  · apply Refuses.p1P2
    rw [if_pos hp2]
    rfl
  · apply Refuses.security
    rw [if_neg hp2,if_neg (by rw [hp1]; decide),if_pos hp1]
    unfold resetByAdmin
    rw [appGets_bind,appGets_bind,h]
    rfl

theorem refuses_terminateDf (h : card.app.pw3Verified=false)
    (hopen : ¬(Pw.pw1.retries card.badge.pm=0 ∧ Pw.pw3.retries card.badge.pm=0)) :
    Refuses (cmdTerminateDf cr c) card:=by
  unfold cmdTerminateDf
  by_cases hp : c.p1≠0x00 ∨ c.p2≠0x00
  · apply Refuses.p1P2
    rw [if_pos hp]
    rfl
  · apply Refuses.security
    rw [if_neg hp]
    unfold pwRetries
    rw [bind_gets,bind_gets,appGets_bind,h]
    simp only [Bool.not_false,hopen,not_false_eq_true,and_self,if_true]
    rfl

variable (dev cr) in
theorem refuses_gated (hgate : card.gate c=some pw) (hflag : card.app.verified pw=false) :
    Refuses (runCommand dev cr c) card:=by
  obtain ⟨ins,p1,p2,data,le⟩:=c
  unfold Card.gate at hgate
  split_ifs at hgate with h1 h2 h3 hp h4 hp h5 hblocked
  · cases hgate
    rcases h1 with rfl | rfl
    · by_cases hcds : p1=0x9E ∧ p2=0x9A
      · obtain ⟨rfl,rfl⟩:=hcds
        exact refuses_psoCds hflag
      · by_cases hdec : p1=0x80 ∧ p2=0x86
        · obtain ⟨rfl,rfl⟩:=hdec
          exact refuses_psoDecipher hflag
        · apply Refuses.p1P2
          simp [runCommand,hcds,hdec,apduSw]
    · exact refuses_internalAuthenticate hflag
  · cases hgate
    rcases h2 with rfl | rfl
    · exact refuses_putData hflag
    · exact refuses_putDataOdd hflag
  · cases hgate
    subst h3
    exact refuses_generateKeypair hflag hp
  · cases hgate
    subst h4
    exact refuses_resetRetryCounter hflag hp
  · cases hgate
    subst h5
    exact refuses_terminateDf hflag hblocked

theorem gate_ne_of_mem {ins : UInt8} (hgate : card.gate c=some pw) (hins : ins∈[0xA4,0xC0,0x44,0x20]) :
    c.ins≠ins:=by
  intro h
  rw [← h] at hins
  unfold Card.gate at hgate
  simp only [List.mem_cons,List.not_mem_nil,or_false] at hins
  rcases hins with h | h | h | h <;> simp [h] at hgate

variable (dev cr) in
theorem dispatch_terminated (hterminated : card.app.cardTerminated=true) (hselect : c.ins≠0xA4) (hactivate : c.ins≠0x44) :
    ∃ r : Reply, r.succeeded=false ∧ dispatch dev cr c card=(.ok r,card):=by
  unfold dispatch
  rw [if_neg hselect,appGets_bind]
  by_cases hselected : card.app.appSelected=true
  · have hother : (c.ins != 0x44)=true:=bne_iff_ne.mpr hactivate
    refine ⟨{sw:=swFileTerminated},rfl,?_⟩
    simp [hselected,hterminated,hother,apduSw]
  · refine ⟨{sw:=swConditionsNotSatisfied},rfl,?_⟩
    simp [hselected,apduSw]

variable (dev cr) in
theorem dispatch_gated (hgate : card.gate c=some pw) (hflag : card.app.verified pw=false) :
    ∃ r : Reply, r.succeeded=false ∧ dispatch dev cr c card=(.ok r,card):=by
  have hselect:=gate_ne_of_mem hgate (show (0xA4 : UInt8)∈_ by simp)
  by_cases hterminated : card.app.cardTerminated=true
  · exact dispatch_terminated dev cr hterminated hselect (gate_ne_of_mem hgate (by simp))
  unfold dispatch
  rw [if_neg hselect,appGets_bind]
  by_cases hselected : card.app.appSelected=true
  · obtain ⟨sw,hsw,hrun⟩:=refuses_gated dev cr hgate hflag
    have hne : sw≠swOk:=by rcases hsw with rfl | rfl <;> decide
    refine ⟨{sw:=sw},by rcases hsw with rfl | rfl <;> rfl,?_⟩
    simp only [hselected,hterminated,Bool.not_true,Bool.false_eq_true,if_false,appGets_bind,Bool.false_and,
      if_neg (gate_ne_of_mem hgate (show (0xC0 : UInt8)∈_ by simp))]
    rw [bind_of_ok hrun,applyResponseChaining,if_pos hne]
    rfl
  · refine ⟨{sw:=swConditionsNotSatisfied},rfl,?_⟩
    simp [hselected,apduSw]

variable (card) in
/-- An APDU that is not a block of a chain completes a command of its own header, or breaks a chain off. -/
theorem reassemble_ends (hcla : a.cla=0x00) :
    ∃ r, reassemble a card=(.ok r,{card with app:={card.app with chain:=none}}) ∧
      ((∃ sw, (sw=swWrongData ∨ sw=swWrongLength) ∧ r=.error {sw:=sw}) ∨
        ∃ data b, r=.ok {Cmd.ofApdu a data with chained:=b}):=by
  have hclass : a.cla &&& 0xEF=0:=by rw [hcla]; decide
  have hlast : ¬a.cla &&& 0x10≠0:=by rw [hcla]; decide
  cases hc : card.app.chain with
  | none=>
    have hcard : {card with app:={card.app with chain:=none}}=card:=by rw [← hc]
    rw [hcard,reassemble_none hclass hc,if_neg hlast]
    exact ⟨_,rfl,.inr ⟨_,_,rfl⟩⟩
  | some chain=>
    rw [reassemble_some hclass hc]
    by_cases hother : a.ins≠chain.ins ∨ a.p1≠chain.p1 ∨ a.p2≠chain.p2
    · rw [if_pos hother]
      exact ⟨_,rfl,.inl ⟨_,.inl rfl,rfl⟩⟩
    · rw [if_neg hother]
      by_cases hlen : chainBufferSize < (chain.data++a.data).length
      · unfold acceptBlock
        simp only [hlen,if_true]
        exact ⟨_,rfl,.inl ⟨_,.inr rfl,rfl⟩⟩
      · rw [acceptBlock_fits (Nat.not_lt.mp hlen),if_neg hlast]
        exact ⟨_,rfl,.inr ⟨_,_,rfl⟩⟩

/-- An APDU whose command is refused, in one APDU or at the end of a chain, does not succeed. -/
theorem process_fails (ha : Scard.apduParse raw=some a) (hcla : a.cla=0x00)
    (hrun : ∀ data b, ∃ r : Reply, r.succeeded=false ∧
      dispatch dev cr {Cmd.ofApdu a data with chained:=b} (card.chained a.ins none)=(.ok r,card.chained a.ins none)) :
    ∃ r : Reply, r.succeeded=false ∧ ∃ card', openpgpProcessApdu dev cr raw card=(.ok r,card'):=by
  rw [process_parsed ha]
  obtain ⟨r,hr,⟨sw,hsw,rfl⟩ | ⟨data,b,rfl⟩⟩:=reassemble_ends (card.chained a.ins card.app.chain) hcla
  · exact ⟨{sw:=sw},by rcases hsw with rfl | rfl <;> rfl,_,bind_of_ok hr⟩
  · obtain ⟨r,hfailed,hdispatch⟩:=hrun data b
    exact ⟨r,hfailed,_,(bind_of_ok hr).trans hdispatch⟩

variable (dev cr) in
/-- A gated command in one APDU, or in a last block, does not succeed while its password is not verified. -/
theorem process_gated (ha : Scard.apduParse raw=some a) (hcla : a.cla=0x00)
    (hgate : card.gate (Cmd.ofApdu a a.data)=some pw) (hflag : card.app.verified pw=false) :
    ∃ r : Reply, r.succeeded=false ∧ ∃ card', openpgpProcessApdu dev cr raw card=(.ok r,card'):=by
  refine process_fails ha hcla fun data b=>dispatch_gated dev cr (show _=some pw from ?_) ?_
  · exact hgate
  · cases pw <;> exact hflag

variable (pw) in
theorem lowers_verified : Lowers fun c=>c.app.verified pw=false where
  badge _ _ h:=h
  env _ _ _ h:=h
  nvs _ _ h:=h
  cert _ _ h:=h
  data _ _ _ h:=by cases pw <;> exact h
  resp _ _ h:=by cases pw <;> exact h
  lower c _ w1 w3 _ h1 h3 h:=by
    cases pw with
    | pw1=>exact Bool.eq_false_iff.mpr fun hw=>absurd (h1 hw) (by simpa [Applet.verified] using h)
    | pw3=>exact Bool.eq_false_iff.mpr fun hw=>absurd (h3 hw) (by simpa [Applet.verified] using h)
  anyData _ _ h:=by cases pw <;> exact h
  pending _ _ h:=by cases pw <;> exact h

theorem keeps_dispatch (hverify : c.ins=0x20 → c.p2 ∉ verifyRefs pw) :
    Keeps (fun card=>card.app.verified pw=false) (dispatch dev cr c):=by
  have h:=lowers_verified pw
  refine h.dispatch fun hi=>?_
  have hrefs:=hverify hi
  cases pw with
  | pw1=>exact h.cmdVerify (fun hp=>absurd hp (by simpa [verifyRefs] using hrefs)) fun _=>Keeps.modify fun _ hc=>hc
  | pw3=>
    exact h.cmdVerify (fun _ _=>Keeps.modify fun _ hc=>hc) fun hp=>absurd hp (by simpa [verifyRefs] using hrefs)

variable {P : Card→Prop} {E : Pin.PowerLost → Card→Prop} (hP : ∀ c x, P c→P {c with app:={c.app with chain:=x}})
include hP

theorem chained_acceptBlock (a : Scard.Apdu) (before : Bytes) :
    Triple P (acceptBlock a before) (fun r card=>P card ∧ ∀ cmd, r=.ok cmd → cmd.ins=a.ins ∧ cmd.p2=a.p2) E:=by
  intro card hcard
  by_cases hlen : chainBufferSize < (before++a.data).length
  · unfold acceptBlock
    simp only [hlen,if_true]
    exact ⟨hP _ _ hcard,by simp⟩
  · rw [acceptBlock_fits (Nat.not_lt.mp hlen)]
    by_cases hblock : a.cla &&& 0x10≠0
    · rw [if_pos hblock]
      exact ⟨hP _ _ hcard,by simp⟩
    · rw [if_neg hblock]
      refine ⟨hP _ _ hcard,?_⟩
      rintro cmd ⟨⟩
      exact ⟨rfl,rfl⟩

theorem chained_reassemble (a : Scard.Apdu) :
    Triple P (reassemble a) (fun r card=>P card ∧ ∀ cmd, r=.ok cmd → cmd.ins=a.ins ∧ cmd.p2=a.p2) E:=by
  intro card hcard
  by_cases hclass : a.cla &&& 0xEF=0
  · cases hc : card.app.chain with
    | none=>
      rw [reassemble_none hclass hc]
      by_cases hblock : a.cla &&& 0x10≠0
      · rw [if_pos hblock]
        exact chained_acceptBlock hP a [] card hcard
      · rw [if_neg hblock]
        refine ⟨hcard,?_⟩
        rintro cmd ⟨⟩
        exact ⟨rfl,rfl⟩
    | some chain=>
      rw [reassemble_some hclass hc]
      by_cases hother : a.ins≠chain.ins ∨ a.p1≠chain.p1 ∨ a.p2≠chain.p2
      · rw [if_pos hother]
        exact ⟨hP _ _ hcard,by simp⟩
      · rw [if_neg hother]
        exact chained_acceptBlock hP a chain.data card hcard
  · unfold reassemble
    rw [if_pos hclass]
    exact ⟨hP _ _ hcard,by simp⟩

/-- What the reassembly of a command keeps, and every command that it can complete, the APDU keeps. -/
theorem process_keeps (hresp : ∀ c, P c→P {c with app:={c.app with resp:=[]}})
    (hrun : ∀ a, Scard.apduParse raw=some a→∀ cmd : Cmd, cmd.ins=a.ins→cmd.p2=a.p2 →
      Triple P (dispatch dev cr cmd) (fun _=>P) E) : Triple P (openpgpProcessApdu dev cr raw) (fun _=>P) E:=by
  unfold openpgpProcessApdu
  cases ha : Scard.apduParse raw with
  | none=>exact Triple.pure fun _ h=>h
  | some a=>
    refine Triple.bind (Q:=fun _=>P) (Triple.when (fun _=>Triple.modify hresp) fun _ _ h=>h) fun _=>?_
    refine Triple.bind (chained_reassemble hP a) fun r=>?_
    cases r with
    | error reply=>exact Triple.pure fun _ h=>h.1
    | ok cmd=>
      intro card h
      obtain ⟨hins,hp2⟩:=h.2 cmd rfl
      exact hrun a ha cmd hins hp2 card h.1

omit hP

theorem keeps_process (hverify : ∀ e, ¬Verifies pw ⟨.apdu raw,e⟩) :
    Keeps (fun card=>card.app.verified pw=false) (openpgpProcessApdu dev cr raw):=by
  refine process_keeps (fun _ _ h=>?_) (fun _ h=>?_) fun a ha cmd hins hp2=>keeps_dispatch fun hi hmem=>?_
  · cases pw <;> exact h
  · cases pw <;> exact h
  · exact hverify {} ⟨raw,a,rfl,ha,hins ▸ hi,hp2 ▸ hmem⟩

theorem verified_step {i : CardInput} (hverify : ¬Verifies pw i) (hflag : card.app.verified pw=false) :
    (step dev cr card i).app.verified pw=false:=by
  obtain ⟨op,e⟩:=i
  unfold step respond
  cases hreaches : CardInput.reaches ⟨op,e⟩ card with
  | false=>simpa using hflag
  | true=>
    have hop : Keeps (fun card=>card.app.verified pw=false) (op.run dev cr):=by
      by_cases hapdu : ∃ raw, op=.apdu raw
      · obtain ⟨raw,rfl⟩:=hapdu
        have hraw : ∀ e', ¬Verifies pw ⟨.apdu raw,e'⟩:=fun e' h=>hverify h
        exact Keeps.bind (keeps_process hraw) fun _=>Keeps.pure _
      · by_cases hdeselect : op=.deselect
        · subst hdeselect
          exact Keeps.bind (Keeps.modify fun c _=>by cases pw <;> rfl) fun _=>Keeps.pure _
        · exact (lowers_verified pw).menu (fun raw h=>hapdu ⟨raw,h⟩) hdeselect
    have hrun:=keeps_iff.mp hop (card.given e) hflag
    cases hr : op.run dev cr (card.given e) with
    | mk r c=>
      rw [hr] at hrun
      cases r with
      | ok reply=>simpa using hrun
      | error _=>
        simp only [Bool.not_true,Bool.false_eq_true,if_false,Card.powerCut]
        cases pw <;> rfl

theorem verified_run {is : List CardInput} (hverify : ∀ i∈is, ¬Verifies pw i)
    (hflag : card.app.verified pw=false) : (run (step dev cr) card is).app.verified pw=false:=by
  induction is generalizing card with
  | nil=>exact hflag
  | cons i is ih=>
    rw [run_cons]
    exact ih (fun j hj=>hverify j (List.mem_cons_of_mem _ hj))
      (verified_step (hverify i List.mem_cons_self) hflag)

def Card.selected (card : Card) : Card:=
  { card with app:={ card.app with
      appSelected:=true,pw1Verified:=false,pw3Verified:=false,sessionPin:=[] } }

theorem cmdSelect_aid {data : Bytes} (haid : data.take 6=openPgpRid) :
    cmdSelect data card=(.ok {sw:=swOk},card.selected):=by
  unfold cmdSelect
  rw [if_pos haid]
  rfl

variable (card) in
theorem cmdSelect_other {data : Bytes} (haid : data.take 6≠openPgpRid) :
    ∃ card', cmdSelect data card=(.ok {sw:=swFileNotFound},card'):=by
  unfold cmdSelect
  rw [if_neg haid,appGets_bind]
  by_cases hselected : card.app.appSelected=true
  · simp only [Handler.when,hselected,if_true]
    exact ⟨_,rfl⟩
  · simp only [Handler.when,hselected]
    exact ⟨_,rfl⟩

theorem dispatch_select (hins : c.ins=0xA4) : dispatch dev cr c card=cmdSelect c.data card:=by
  unfold dispatch
  rw [if_pos hins]

variable (dev cr card) in
/-- A SELECT with the AID is answered and clears the session exactly where its command ends with the AID. -/
theorem process_select_iff (ha : Scard.apduParse raw=some a) (hins : a.ins=0xA4)
    (hcla : a.cla=0x00) (haid : a.data.take 6=openPgpRid) :
    (∃ r card', openpgpProcessApdu dev cr raw card=(.ok r,card') ∧ r.sw=swOk ∧ card'.app.Fresh) ↔
      EndsWithAid a card.app.chain:=by
  have hclass : a.cla &&& 0xEF=0:=by rw [hcla]; decide
  have hlast : ¬a.cla &&& 0x10≠0:=by rw [hcla]; decide
  have hresp : (card.chained a.ins card.app.chain).app.resp=[]:=by
    simp [Card.chained,hins]
  rw [process_parsed ha]
  cases hc : card.app.chain with
  | none=>
    have hr : reassemble a (card.chained a.ins none)=_:=reassemble_none hclass rfl
    rw [if_neg hlast] at hr
    rw [hc] at hresp
    rw [bind_of_ok hr]
    simp only [dispatch_select (show (Cmd.ofApdu a a.data).ins=0xA4 from hins)]
    rw [show (Cmd.ofApdu a a.data).data=a.data from rfl,cmdSelect_aid haid]
    simp only [EndsWithAid,iff_true]
    exact ⟨_,_,rfl,rfl,rfl,rfl,rfl,rfl,hresp⟩
  | some chain=>
    have hr : reassemble a (card.chained a.ins (some chain))=_:=reassemble_some hclass rfl
    rw [hc] at hresp
    by_cases hother : a.ins≠chain.ins ∨ a.p1≠chain.p1 ∨ a.p2≠chain.p2
    · rw [if_pos hother] at hr
      rw [bind_of_ok hr]
      constructor
      · rintro ⟨r,card',hrun,hsw,-⟩
        cases hrun
        exact absurd hsw (by decide)
      · rintro ⟨h1,h2,h3,-⟩
        simp [h1,h2,h3] at hother
    · have hsame : a.ins=chain.ins ∧ a.p1=chain.p1 ∧ a.p2=chain.p2:=by simpa [not_or] using hother
      rw [if_neg hother] at hr
      by_cases hlen : chainBufferSize < (chain.data++a.data).length
      · have hdropped : acceptBlock a chain.data (card.chained a.ins (some chain)) =
            (.ok (.error {sw:=swWrongLength}),card.chained a.ins none):=by
          unfold acceptBlock
          simp only [hlen,if_true]
          rfl
        rw [hdropped] at hr
        rw [bind_of_ok hr]
        constructor
        · rintro ⟨r,card',hrun,hsw,-⟩
          cases hrun
          exact absurd hsw (by decide)
        · rintro ⟨-,-,-,hle,-⟩
          exact absurd hlen (Nat.not_lt.mpr hle)
      · rw [acceptBlock_fits (Nat.not_lt.mp hlen),if_neg hlast] at hr
        have hdone : reassemble a (card.chained a.ins (some chain)) =
            (.ok (.ok {Cmd.ofApdu a (chain.data++a.data) with chained:=true}),card.chained a.ins none):=hr
        rw [bind_of_ok hdone]
        simp only [dispatch_select
          (show ({Cmd.ofApdu a (chain.data++a.data) with chained:=true} : Cmd).ins=0xA4 from hins)]
        rw [show ({Cmd.ofApdu a (chain.data++a.data) with chained:=true} : Cmd).data=chain.data++a.data
          from rfl]
        by_cases haid' : (chain.data++a.data).take 6=openPgpRid
        · rw [cmdSelect_aid haid']
          constructor
          · intro _
            exact ⟨hsame.1,hsame.2.1,hsame.2.2,Nat.not_lt.mp hlen,haid'⟩
          · intro _
            exact ⟨_,_,rfl,rfl,rfl,rfl,rfl,rfl,hresp⟩
        · obtain ⟨t,ht⟩:=cmdSelect_other (card.chained a.ins none) haid'
          rw [ht]
          constructor
          · rintro ⟨r,card',hrun,hsw,-⟩
            cases hrun
            exact absurd hsw (by decide)
          · rintro ⟨-,-,-,-,h⟩
            exact absurd h haid'

end Gate

/-- A SELECT with the AID starts a session anew exactly where it ends no other command's chain and its own command
begins with the AID. After a refused SELECT that met a password unverified, no command that needs the password
succeeds before a VERIFY of it. -/
theorem select_sessions (dev : Device) (cr : GpgCrypto) :
    (∀ card raw a e, card.on=true → Scard.apduParse raw=some a→a.ins=0xA4→a.cla=0x00 →
      a.data.take 6=openPgpRid →
      ((∃ r, (respond dev cr card ⟨.apdu raw,e⟩).1=some r ∧ r.sw=swOk ∧
          (step dev cr card ⟨.apdu raw,e⟩).app.Fresh) ↔ EndsWithAid a card.app.chain)) ∧
    ∀ card raw a e pw, card.on=true → card.app.appSelected=true → Scard.apduParse raw=some a→a.ins=0xA4 →
      (respond dev cr card ⟨.apdu raw,e⟩).1=some {sw:=swFileNotFound} → card.app.verified pw=false →
      ∀ is, (∀ i∈is, ¬Verifies pw i) →
        let card':=run (step dev cr) card (⟨.apdu raw,e⟩::is)
        ∀ raw' a' e', Scard.apduParse raw'=some a'→a'.cla=0x00 →
          card'.gate (Cmd.ofApdu a' a'.data)=some pw →
          ∀ r, (respond dev cr card' ⟨.apdu raw',e'⟩).1=some r → r.succeeded=false:=by
  constructor
  · intro card raw a e hon ha hins hcla haid
    have hiff:=process_select_iff dev cr (card.given e) ha hins hcla haid
    rw [show (card.given e).app.chain=card.app.chain from rfl] at hiff
    rw [← hiff]
    unfold step
    rw [respond_apdu hon]
    cases openpgpProcessApdu dev cr raw (card.given e) with
    | mk r c'=>
      cases r with
      | ok reply=>
        constructor
        · rintro ⟨r,hr,hsw,hfresh⟩
          cases hr
          exact ⟨_,_,rfl,hsw,hfresh⟩
        · rintro ⟨r,t,hr,hsw,hfresh⟩
          cases hr
          exact ⟨_,rfl,hsw,hfresh⟩
      | error _=>
        constructor
        · rintro ⟨r,hr,-⟩
          cases hr
        · rintro ⟨r,t,hr,-⟩
          cases hr
  · intro card raw a e pw _ _ ha hins _ hflag is hverify card' raw' a' e' ha' hcla hgate r hr
    have hselect : ¬Verifies pw ⟨.apdu raw,e⟩:=by
      rintro ⟨_,b,hop,hb,hb20,-⟩
      cases hop
      cases ha.symm.trans hb
      exact absurd (hins.symm.trans hb20) (by decide)
    have hflag' : card'.app.verified pw=false:=by
      apply verified_run _ hflag
      simpa using ⟨hselect,hverify⟩
    by_cases hon : card'.on=true
    · have hgate' : (card'.given e').gate (Cmd.ofApdu a' a'.data)=some pw:=hgate
      obtain ⟨reply,hfailed,t,hrun⟩:=process_gated dev cr ha' hcla hgate' hflag'
      rw [respond_apdu hon,hrun] at hr
      cases hr
      exact hfailed
    · have hnone : respond dev cr card' ⟨.apdu raw',e'⟩=(none,card'):=by
        simp [respond,CardInput.reaches,hon]
      rw [hnone] at hr
      cases hr

def onInputs (raws : List Bytes) : List CardInput:=⟨.powerOn,{}⟩::raws.map fun raw=>⟨.apdu raw,{}⟩

def selectCard : Bytes:=[0x00,0xA4,0x04,0x00,0x06,0xD2,0x76,0x00,0x01,0x24,0x01]

def selectOther : Bytes:=[0x00,0xA4,0x04,0x00,0x06,0xA0,0x00,0x00,0x03,0x08,0x00]

def verifyPw3 : Bytes:=[0x00,0x20,0x00,0x83,0x08,0x31,0x32,0x33,0x34,0x35,0x36,0x37,0x38]

def loginBlock : Bytes:=[0x10,0xDA,0x00,0x5E,0x01,0x41]

def putSexApdu : Bytes:=[0x00,0xDA,0x5F,0x35,0x01,0x39]

def frontCrypto : GpgCrypto:={GpgCrypto.plain with sha256:=fit 32}

theorem select_in_chain :
    (respond .plain frontCrypto (run (step .plain frontCrypto) newCard (onInputs [selectCard,loginBlock]))
        ⟨.apdu selectCard,{}⟩).1=some {sw:=swWrongData} ∧
      (respond .plain frontCrypto (run (step .plain frontCrypto) newCard (onInputs [selectCard,verifyPw3]))
        ⟨.apdu selectOther,{}⟩).1=some {sw:=swFileNotFound} ∧
      (respond .plain frontCrypto (run (step .plain frontCrypto) newCard (onInputs [selectCard,verifyPw3,selectOther]))
        ⟨.apdu putSexApdu,{}⟩).1=some {sw:=swOk}:=by
  refine ⟨?_,?_,?_⟩
  · decide +kernel
  · decide +kernel
  · decide +kernel

theorem select_sessions_locked :
    let card:=run (step .plain .plain) newCard (onInputs [selectCard])
    (∃ r, (respond .plain .plain card ⟨.apdu selectCard,{}⟩).1=some r ∧ r.sw=swOk ∧
      (step .plain .plain card ⟨.apdu selectCard,{}⟩).app.Fresh) ∧
    ∀ r, (respond .plain .plain (run (step .plain .plain) card [⟨.apdu selectOther,{}⟩])
      ⟨.apdu putSexApdu,{}⟩).1=some r → r.succeeded=false:=by
  intro card
  have hsessions:=select_sessions .plain .plain
  have hon : card.on=true:=by decide +kernel
  constructor
  · refine (hsessions.1 card selectCard _ {} hon rfl rfl rfl rfl).mpr ?_
    have hchain : card.app.chain=none:=by decide +kernel
    rw [hchain]
    trivial
  · have hselected : card.app.appSelected=true:=by decide +kernel
    have hrefused : (respond .plain .plain card ⟨.apdu selectOther,{}⟩).1=some {sw:=swFileNotFound}:=by
      decide +kernel
    have hflag : card.app.verified .pw3=false:=by decide +kernel
    exact hsessions.2 card selectOther _ {} .pw3 hon hselected rfl rfl hrefused hflag [] (by simp)
      putSexApdu _ {} rfl rfl rfl

theorem respond_fails {dev : Device} {cr : GpgCrypto} {card : Card} {e : Env} {r : Reply}
    (h : ∃ r : Reply, r.succeeded=false ∧ ∃ c', openpgpProcessApdu dev cr raw (card.given e)=(.ok r,c'))
    (hr : (respond dev cr card ⟨.apdu raw,e⟩).1=some r) : r.succeeded=false:=by
  obtain ⟨r',hfailed,c',hrun⟩:=h
  by_cases hon : card.on=true
  · rw [respond_apdu hon,hrun] at hr
    cases hr
    exact hfailed
  · simp [respond,CardInput.reaches,hon] at hr

/-- A command that needs a password succeeds only where a VERIFY of the password turned its flag on and the flag has
been on after every input since. -/
theorem succeeds_after_verify (dev : Device) (cr : GpgCrypto) {card : Card} {pw : Pw} {is : List CardInput} {raw : Bytes}
    {a : Scard.Apdu} {e : Env} {r : Reply} (hflag : card.app.verified pw=false) (ha : Scard.apduParse raw=some a)
    (hcla : a.cla=0x00) (hgate : (run (step dev cr) card is).gate (Cmd.ofApdu a a.data)=some pw)
    (hr : (respond dev cr (run (step dev cr) card is) ⟨.apdu raw,e⟩).1=some r) (hok : r.succeeded=true) :
    ∃ before j after, is=before++j::after ∧ Verifies pw j ∧
      (run (step dev cr) card before).app.verified pw=false ∧
      ∀ later, later <+: after→(run (step dev cr) card (before++j::later)).app.verified pw=true:=by
  have hend : (run (step dev cr) card is).app.verified pw=true:=by
    by_contra hoff
    have hgate' : ((run (step dev cr) card is).given e).gate (Cmd.ofApdu a a.data)=some pw:=hgate
    have hfails:=process_gated dev cr ha hcla hgate' (Bool.eq_false_iff.mpr hoff)
    rw [respond_fails hfails hr] at hok
    cases hok
  obtain ⟨before,j,after,his,hoff,hon⟩:=exists_switch (p:=fun c : Card=>c.app.verified pw) hflag hend
  refine ⟨before,j,after,his,?_,hoff,hon⟩
  by_contra hj
  have hstill:=@verified_step dev cr _ pw j hj hoff
  have hnow:=hon [] List.nil_prefix
  rw [run_append,run_cons,run_nil,hstill] at hnow
  cases hnow

theorem succeeds_after_verify_login : ∃ before j after,
    onInputs [selectCard,verifyPw3]=before++j::after ∧ Verifies .pw3 j:=by
  have ha : Scard.apduParse putSexApdu=some {ins:=0xDA,p1:=0x5F,p2:=0x35,lc:=1,data:=[0x39]}:=by decide
  have hgate : (run (step .plain frontCrypto) newCard (onInputs [selectCard,verifyPw3])).gate
      (Cmd.ofApdu {ins:=0xDA,p1:=0x5F,p2:=0x35,lc:=1,data:=[0x39]} [0x39])=some .pw3:=by decide +kernel
  have hr : (respond .plain frontCrypto (run (step .plain frontCrypto) newCard (onInputs [selectCard,verifyPw3]))
      ⟨.apdu putSexApdu,{}⟩).1=some {sw:=swOk}:=by decide +kernel
  obtain ⟨before,j,after,his,hj,-⟩:=succeeds_after_verify .plain frontCrypto rfl ha rfl hgate hr rfl
  exact ⟨before,j,after,his,hj⟩

/-- What a card is apart from its session. -/
def Card.lasting (card : Card) : Chip Bytes × Pin.PinManager × CardData × Option NvsRecord × Option Bytes:=
  (card.badge.chip,card.badge.pm,card.app.toCardData,card.nvs,card.cert)

/-- The end of a session, or an APDU other than `ACTIVATE FILE`. -/
def CardInput.Idle (i : CardInput) : Prop:=
  i.op=.deselect ∨ ∃ raw, i.op=.apdu raw ∧ ∀ a, Scard.apduParse raw=some a→a.ins≠0x44

section Terminated

variable (dev : Device) (cr : GpgCrypto) {card : Card} (hterminated : card.app.cardTerminated=true)
include hterminated

theorem step_terminated {i : CardInput} (hi : i.Idle) : (step dev cr card i).lasting=card.lasting:=by
  obtain ⟨op,e⟩:=i
  have hop : Triple (fun t=>t.lasting=card.lasting) (op.run dev cr) (fun _ t=>t.lasting=card.lasting) fun _ _=>False:=by
    rcases hi with hop | ⟨raw,hop,hraw⟩
    · cases hop
      exact Triple.bind (Q:=fun _ t=>t.lasting=card.lasting) (Triple.modify fun _ h=>h) fun _=>Triple.pure fun _ h=>h
    · cases hop
      refine Triple.bind (process_keeps (fun _ _ h=>h) (fun _ h=>h) fun a ha cmd hins _ t ht=>?_) fun _=>
        Triple.pure fun _ h=>h
      have hdata : t.app.toCardData=card.app.toCardData:=congrArg (·.2.2.1) ht
      by_cases hselect : cmd.ins=0xA4
      · rw [dispatch_select hselect]
        unfold cmdSelect
        by_cases haid : cmd.data.take 6=openPgpRid
        · rw [if_pos haid]
          exact ht
        · rw [if_neg haid,appGets_bind]
          by_cases hselected : t.app.appSelected=true
          · simp only [Handler.when,hselected,if_true]
            exact ht
          · simp only [Handler.when,hselected]
            exact ht
      · obtain ⟨r,-,hrun⟩:=dispatch_terminated dev cr (c:=cmd)
          ((congrArg CardData.cardTerminated hdata).trans hterminated) hselect (hins ▸ hraw a ha)
        rw [hrun]
        exact ht
  unfold step respond
  cases CardInput.reaches ⟨op,e⟩ card with
  | false=>rfl
  | true=>
    have hrun:=hop (card.given e) rfl
    cases hr : op.run dev cr (card.given e) with
    | mk r c=>
      rw [hr] at hrun
      cases r with
      | ok reply=>exact hrun
      | error _=>exact hrun.elim

/-- A terminated card is inert until ACTIVATE FILE: whatever else it is sent, the chip, the references and their
counters, its data and its flash records stay as they are, and no command but SELECT succeeds. -/
theorem terminated_inert {is : List CardInput} (his : ∀ i∈is, i.Idle) :
    let card':=run (step dev cr) card is
    card'.lasting=card.lasting ∧
      ∀ raw a e r, Scard.apduParse raw=some a→a.cla=0x00→a.ins≠0xA4→a.ins≠0x44 →
        (respond dev cr card' ⟨.apdu raw,e⟩).1=some r → r.succeeded=false:=by
  have hsame : (run (step dev cr) card is).lasting=card.lasting:=by
    induction is generalizing card with
    | nil=>rfl
    | cons i is ih=>
      have hstep:=step_terminated dev cr hterminated (his i List.mem_cons_self)
      have hdata:=congrArg (·.2.2.1.cardTerminated) hstep
      rw [run_cons,ih (hdata.trans hterminated) fun j hj=>his j (List.mem_cons_of_mem _ hj),hstep]
  refine ⟨hsame,fun raw a e r ha hcla hselect hactivate hr=>?_⟩
  refine respond_fails (process_fails ha hcla fun data b=>?_) hr
  exact dispatch_terminated dev cr ((congrArg (·.2.2.1.cardTerminated) hsame).trans hterminated) hselect hactivate

end Terminated

theorem terminated_inert_select :
    let card:={newCard with on:=true,app:={cardTerminated:=true}}
    let card':=run (step .plain .plain) card [⟨.apdu selectCard,{}⟩]
    card'.lasting=card.lasting ∧ ∀ r, (respond .plain .plain card' ⟨.apdu putSexApdu,{}⟩).1=some r → r.succeeded=false:=by
  intro card
  have his : ∀ i∈[(⟨.apdu selectCard,{}⟩ : CardInput)], i.Idle:=by
    intro i hi
    rw [List.mem_singleton.mp hi]
    refine .inr ⟨_,rfl,fun a ha=>?_⟩
    cases (show Scard.apduParse selectCard=some _ from rfl).symm.trans ha
    decide
  obtain ⟨hsame,hrefused⟩:=terminated_inert .plain .plain (show card.app.cardTerminated=true from rfl) his
  exact ⟨hsame,fun r=>hrefused putSexApdu _ {} r rfl rfl (by decide) (by decide)⟩

end CdcBadge.OpenPgp
