import CdcBadge.OpenPgpFrames
import CdcBadge.Runs

/-!
# Command chaining of the OpenPGP card

A command that comes in blocks is answered as the command in one piece is. What a chain has
collected is dropped when the chain is broken off, except by an APDU that does not parse.
-/

namespace CdcBadge.OpenPgp

open Handler Runs

/-- The bytes are an APDU of this class with the command's header, data and Le. -/
def Says (raw : Bytes) (cla : UInt8) (c : Cmd) : Prop:=
  ∃ a, Scard.apduParse raw=some a ∧ a.cla=cla ∧ Cmd.ofApdu a a.data=c

/-- The blocks that stand before the last one carry these data. -/
inductive Blocks (c : Cmd) : List CardInput→Bytes→Prop
  | nil : Blocks c [] []
  | snoc {is : List CardInput} {before data raw : Bytes} {le : ℕ} {e : Env} (h : Blocks c is before)
      (hraw : Says raw 0x10 {c with data:=data,le:=le}) : Blocks c (is++[⟨.apdu raw,e⟩]) (before++data)

def Holds (c : Cmd) (before : Bytes) : Option Chain→Prop
  | none=>before=[]
  | some chain=>chain=⟨c.ins,c.p1,c.p2,before⟩

/-- A card after the response has been invalidated that was left to be read, with this chain. -/
def Card.chained (card : Card) (ins : UInt8) (chain : Option Chain) : Card:=
  {card with app:={card.app with resp:=if ins≠0xC0 then [] else card.app.resp,chain:=chain}}

section Blocks

variable {dev : Device} {cr : GpgCrypto} {c : Cmd} {card : Card}

/-- The card with the pending response invalidated, before the APDU is looked at further. -/
theorem process_parsed {raw : Bytes} {a : Scard.Apdu} (ha : Scard.apduParse raw=some a) :
    openpgpProcessApdu dev cr raw card=(reassemble a >>= fun r=>match r with
      | .error reply=>pure reply
      | .ok c=>dispatch dev cr c) (card.chained a.ins card.app.chain):=by
  unfold openpgpProcessApdu Card.chained
  rw [ha]
  by_cases hi : a.ins=0xC0
  · simp only [hi,Handler.when,ne_eq,not_true_eq_false,if_false]
    rfl
  · simp only [hi,Handler.when,ne_eq,not_false_eq_true,if_true]
    rfl

variable {a : Scard.Apdu} {before : Bytes} {raw data : Bytes}

theorem acceptBlock_fits (hlen : (before++a.data).length ≤ chainBufferSize) :
    acceptBlock a before card =
      if a.cla &&& 0x10≠0 then
        (.ok (.error {sw:=swOk}),
          {card with app:={card.app with chain:=some ⟨a.ins,a.p1,a.p2,before++a.data⟩}})
      else (.ok (.ok {Cmd.ofApdu a (before++a.data) with chained:=true}),
        {card with app:={card.app with chain:=none}}):=by
  unfold acceptBlock
  simp only [Nat.not_lt.mpr hlen,if_false]
  split
  · rfl
  · rfl

theorem reassemble_none (hcla : a.cla &&& 0xEF=0) (hc : card.app.chain=none) : reassemble a card =
    (if a.cla &&& 0x10≠0 then acceptBlock a [] else pure (.ok (Cmd.ofApdu a a.data))) card:=by
  unfold reassemble
  rw [if_neg (not_not.mpr hcla),appGets_bind,hc]

/-- A chain goes on with a block of its own header, and is dropped at another one. -/
theorem reassemble_some {chain : Chain} (hcla : a.cla &&& 0xEF=0) (hc : card.app.chain=some chain) :
    reassemble a card =
      (if a.ins≠chain.ins ∨ a.p1≠chain.p1 ∨ a.p2≠chain.p2 then
        chainReset >>= fun _=>pure (.error {sw:=swWrongData})
      else acceptBlock a chain.data) card:=by
  unfold reassemble
  rw [if_neg (not_not.mpr hcla),appGets_bind,hc]

theorem reassemble_block (hcla : a.cla=0x10) (hchain : Holds (Cmd.ofApdu a a.data) before card.app.chain) :
    reassemble a card=acceptBlock a before card:=by
  have hclass : a.cla &&& 0xEF=0:=by rw [hcla]; decide
  have hblock : a.cla &&& 0x10≠0:=by rw [hcla]; decide
  cases hc : card.app.chain with
  | none=>
    rw [hc] at hchain
    cases hchain
    rw [reassemble_none hclass hc,if_pos hblock]
  | some chain=>
    rw [hc] at hchain
    cases hchain
    rw [reassemble_some hclass hc,if_neg (by simp [Cmd.ofApdu])]

/-- The last block completes the command of the chain, and a command in one piece is complete. -/
theorem reassemble_last (hcla : a.cla=0x00) (hchain : Holds (Cmd.ofApdu a a.data) before card.app.chain)
    (hlen : (before++a.data).length ≤ chainBufferSize) :
    reassemble a card =
      (.ok (.ok {Cmd.ofApdu a (before++a.data) with chained:=card.app.chain.isSome}),
        {card with app:={card.app with chain:=none}}):=by
  have hclass : a.cla &&& 0xEF=0:=by rw [hcla]; decide
  have hlast : ¬a.cla &&& 0x10≠0:=by rw [hcla]; decide
  cases hc : card.app.chain with
  | none=>
    rw [hc] at hchain
    cases hchain
    have hcard : {card with app:={card.app with chain:=none}}=card:=by rw [← hc]
    rw [hcard,reassemble_none hclass hc,if_neg hlast]
    rfl
  | some chain=>
    rw [hc] at hchain
    cases hchain
    rw [reassemble_some hclass hc,if_neg (by simp [Cmd.ofApdu]),acceptBlock_fits hlen,if_neg hlast]
    rfl

/-- A `PUT DATA` of the KDF data object. -/
def Cmd.StoresKdfDo (c : Cmd) : Prop:=c.ins=0xDA ∧ c.p1=0x00 ∧ c.p2=0xF9

theorem cmdPutData_chained {b : Bool} (h : c.p1=0x00 → c.p2=0xF9 → c.data≠[]) :
    cmdPutData dev cr {c with chained:=b}=cmdPutData dev cr c:=by
  unfold cmdPutData
  by_cases htag : c.p1.toNat*256+c.p2.toNat=0xF9
  · have hp1 : c.p1=0x00:=UInt8.toNat_inj.mp (by change c.p1.toNat=0; omega)
    have hp2 : c.p2=0xF9:=UInt8.toNat_inj.mp (by change c.p2.toNat=0xF9; omega)
    simp only [h hp1 hp2,false_and,if_false]
  · simp only [htag,if_false]

theorem runCommand_chained {b : Bool} (h : c.StoresKdfDo → c.data≠[]) :
    runCommand dev cr {c with chained:=b}=runCommand dev cr c:=by
  unfold runCommand
  by_cases hins : c.ins=0xDA
  · rw [cmdPutData_chained fun hp1 hp2=>h ⟨hins,hp1,hp2⟩]
    simp only [hins,if_true,show ¬(0xDA : UInt8)=0xCA by decide,if_false]
  · simp only [hins,if_false]
    rfl

theorem dispatch_chained {b : Bool} (h : c.StoresKdfDo → c.data≠[]) :
    dispatch dev cr {c with chained:=b}=dispatch dev cr c:=by
  unfold dispatch
  rw [runCommand_chained h]
  rfl

theorem process_block {le : ℕ} (hraw : Says raw 0x10 {c with data:=data,le:=le})
    (hchain : Holds c before card.app.chain) (hlen : (before++data).length ≤ chainBufferSize) :
    openpgpProcessApdu dev cr raw card =
      (.ok {sw:=swOk},card.chained c.ins (some ⟨c.ins,c.p1,c.p2,before++data⟩)):=by
  obtain ⟨a,ha,hcla,hc⟩:=hraw
  obtain ⟨cins,cp1,cp2,cdata,cle⟩:=c
  cases hc
  rw [process_parsed ha]
  have hblock : a.cla &&& 0x10≠0:=by simp [hcla]
  have hreassemble : reassemble a (card.chained a.ins card.app.chain)=_:=reassemble_block hcla hchain
  rw [acceptBlock_fits hlen,if_pos hblock] at hreassemble
  exact bind_of_ok hreassemble

theorem process_last (hraw : Says raw 0x00 {c with data:=data})
    (hchain : Holds c before card.app.chain) (hlen : (before++data).length ≤ chainBufferSize) :
    openpgpProcessApdu dev cr raw card =
      dispatch dev cr {c with data:=before++data,chained:=card.app.chain.isSome}
        (card.chained c.ins none):=by
  obtain ⟨a,ha,hcla,hc⟩:=hraw
  obtain ⟨cins,cp1,cp2,cdata,cle⟩:=c
  cases hc
  rw [process_parsed ha]
  have hreassemble : reassemble a (card.chained a.ins card.app.chain)=_:=reassemble_last hcla hchain hlen
  exact bind_of_ok hreassemble

theorem process_whole {raw : Bytes} (hraw : Says raw 0x00 c) (hchain : card.app.chain=none) :
    openpgpProcessApdu dev cr raw card=dispatch dev cr c (card.chained c.ins none):=by
  obtain ⟨a,ha,hcla,rfl⟩:=hraw
  have hlast : ¬a.cla &&& 0x10≠0:=by rw [hcla]; decide
  have hreassemble : reassemble a (card.chained a.ins card.app.chain)=_:=
    reassemble_none (by rw [hcla]; decide) hchain
  rw [if_neg hlast] at hreassemble
  rw [process_parsed ha,bind_of_ok hreassemble,hchain]
  rfl

/-- A card that is on and has taken blocks of a command differs from the card before them in the chain alone, once
a further block is there. -/
structure Collects (card : Card) (c : Cmd) (before : Bytes) (card' : Card) : Prop where
  on : card'.on=true
  holds : Holds c before card'.app.chain
  same : ∀ e chain, (card'.given e).chained c.ins chain=(card.given e).chained c.ins chain

variable (dev cr) in
theorem Collects.block {card' : Card} {le : ℕ} {e : Env} (h : Collects card c before card')
    (hraw : Says raw 0x10 {c with data:=data,le:=le}) (hlen : (before++data).length ≤ chainBufferSize) :
    (respond dev cr card' ⟨.apdu raw,e⟩).1=some {sw:=swOk} ∧
      Collects card c (before++data) (step dev cr card' ⟨.apdu raw,e⟩):=by
  have hblock : openpgpProcessApdu dev cr raw (card'.given e)=_:=process_block hraw h.holds hlen
  have hrespond : respond dev cr card' ⟨.apdu raw,e⟩=(some {sw:=swOk},
      {(card'.given e).chained c.ins (some ⟨c.ins,c.p1,c.p2,before++data⟩) with on:=true}):=by
    rw [respond_apdu h.on,hblock]
  refine ⟨by rw [hrespond],?_⟩
  unfold step
  rw [hrespond]
  constructor
  · rfl
  · rfl
  · intro e' chain
    rw [← h.same e' chain]
    have hon:=h.on
    obtain ⟨badge,app,nvs,cert,env,on⟩:=card'
    cases hon
    by_cases hi : c.ins=0xC0
    · simp only [Card.given,Card.chained,hi,ne_eq,not_true_eq_false,if_false]
    · simp only [Card.given,Card.chained,hi,ne_eq,not_false_eq_true,if_true]

theorem Blocks.collected {is : List CardInput} (h : Blocks c is before) (hon : card.on=true)
    (hchain : card.app.chain=none) (hlen : before.length ≤ chainBufferSize) :
    AlongRun (step dev cr) (fun card i=>(respond dev cr card i).1=some {sw:=swOk}) card is ∧
      Collects card c before (run (step dev cr) card is):=by
  induction h with
  | nil=>exact ⟨trivial,hon,by rw [run_nil,hchain]; rfl,fun _ _=>rfl⟩
  | @snoc is before data raw le e _ hraw ih=>
    have hbefore : before.length ≤ chainBufferSize:=by
      rw [List.length_append] at hlen
      omega
    obtain ⟨hacks,hcollects⟩:=ih hbefore
    obtain ⟨hack,hnext⟩:=hcollects.block dev cr (e:=e) hraw hlen
    rw [alongRun_append,run_append]
    exact ⟨⟨hacks,hack,trivial⟩,hnext⟩

theorem Blocks.before_of_nil {is : List CardInput} (h : Blocks c is before) (his : is=[]) : before=[]:=by
  cases h with
  | nil=>rfl
  | snoc=>simp at his

/-- However its data are split, a command is answered as the command in one piece is. -/
theorem respond_split {is : List CardInput} {last whole data : Bytes} {e : Env} (h : Blocks c is before)
    (hlast : Says last 0x00 {c with data:=data}) (hwhole : Says whole 0x00 {c with data:=before++data})
    (hon : card.on=true) (hchain : card.app.chain=none) (hlen : (before++data).length ≤ chainBufferSize)
    (hdata : c.StoresKdfDo→before++data=[]→is=[]) :
    respond dev cr (run (step dev cr) card is) ⟨.apdu last,e⟩=respond dev cr card ⟨.apdu whole,e⟩:=by
  have hbefore : before.length ≤ chainBufferSize:=by
    rw [List.length_append] at hlen
    omega
  have hcollects : Collects card c before (run (step dev cr) card is):=(h.collected hon hchain hbefore).2
  have hwhole' : openpgpProcessApdu dev cr whole (card.given e)=_:=process_whole hwhole hchain
  by_cases his : is=[]
  · have hnone : before=[]:=h.before_of_nil his
    subst his hnone
    have hlast' : openpgpProcessApdu dev cr last (card.given e)=_:=process_whole hlast hchain
    rw [run_nil,respond_apdu hon,respond_apdu hon,hwhole',hlast']
    rfl
  · have htold : ({c with data:=before++data} : Cmd).StoresKdfDo→before++data≠[]:=
      fun hstores hempty=>his (hdata hstores hempty)
    have hsame : openpgpProcessApdu dev cr last ((run (step dev cr) card is).given e)=_:=
      process_last hlast hcollects.holds hlen
    rw [hcollects.same,congrFun (dispatch_chained htold)] at hsame
    rw [respond_apdu hcollects.on,respond_apdu hon,hwhole',hsame]

end Blocks

/-- The blocks that an APDU may go on with: a chain of another command is broken off. -/
def Chain.before (a : Scard.Apdu) : Option Chain→Option Bytes
  | none=>some []
  | some chain=>if a.ins=chain.ins ∧ a.p1=chain.p1 ∧ a.p2=chain.p2 then some chain.data else none

/-- What an APDU leaves of a chain where everything but a further block breaks it off. -/
def Chain.next (a : Scard.Apdu) (chain : Option Chain) : Option Chain:=do
  let before ← Chain.before a chain
  if a.cla=0x10 ∧ (before++a.data).length ≤ chainBufferSize then some ⟨a.ins,a.p1,a.p2,before++a.data⟩
  else none

def CardOp.next (op : CardOp) (chain : Option Chain) : Option Chain:=
  match op with
  | .apdu raw=>(Scard.apduParse raw).bind (Chain.next · chain)
  | .deselect=>none
  | _=>chain

/-- A card with the blocks that may become part of a later command. A card without power has none. -/
def watch (dev : Device) (cr : GpgCrypto) (s : Card × Option Chain) (i : CardInput) : Card × Option Chain:=
  let c:=step dev cr s.1 i
  (c,if !i.reaches s.1 then s.2 else if c.on then i.op.next s.2 else none)

/-- While a chain is open, every APDU that comes parses. -/
def ParsesInChain (s : Card × Option Chain) (i : CardInput) : Prop:=
  ∀ raw, i.op=.apdu raw → Scard.apduParse raw=none → s.1.app.chain=none

section Breaks

variable {dev : Device} {cr : GpgCrypto} {card : Card}

theorem still_chain (x : Option Chain) : Still fun c : Card=>c.app.chain=x where
  badge _ _ h:=h
  env _ _ _ h:=h
  nvs _ _ h:=h
  cert _ _ h:=h
  data _ _ _ h:=h
  resp _ _ h:=h
  session _ _ _ _ _ h:=h
  anyData _ _ h:=h
  pending _ _ h:=h

theorem class_cases {cla : UInt8} (h : cla &&& 0xEF=0) : cla=0x00 ∨ cla=0x10:=by
  have hall : ∀ n : Fin 256, (UInt8.ofFin n) &&& 0xEF=0→UInt8.ofFin n=0x00 ∨ UInt8.ofFin n=0x10:=by
    decide +kernel
  exact hall cla.toFin h

theorem chain_acceptBlock (a : Scard.Apdu) (before : Bytes) (hcla : a.cla &&& 0xEF=0) :
    Triple (fun _=>True) (acceptBlock a before) (fun _ c=>c.app.chain =
      if a.cla=0x10 ∧ (before++a.data).length ≤ chainBufferSize then some ⟨a.ins,a.p1,a.p2,before++a.data⟩
      else none) fun _ _=>False:=by
  intro c _
  unfold acceptBlock
  by_cases hlen : chainBufferSize < (before++a.data).length
  · simp only [hlen,if_true,Nat.not_le.mpr hlen,and_false,if_false]
    rfl
  · rcases class_cases hcla with h | h
    · simp only [hlen,h,if_false]
      rfl
    · simp only [hlen,h,if_false,Nat.not_lt.mp hlen,and_self,if_true]
      rfl

theorem Chain.next_of_class {a : Scard.Apdu} (chain : Option Chain) (hcla : a.cla≠0x10) :
    Chain.next a chain=none:=by
  unfold Chain.next
  cases Chain.before a chain with
  | none=>rfl
  | some before=>exact if_neg fun h=>hcla h.1

theorem chain_reassemble (a : Scard.Apdu) (chain : Option Chain) :
    Triple (fun c=>c.app.chain=chain) (reassemble a) (fun _ c=>c.app.chain=Chain.next a chain)
      fun _ _=>False:=by
  intro c hc
  by_cases hcla : a.cla &&& 0xEF=0
  · cases chain with
    | none=>
      rw [reassemble_none hcla hc]
      rcases class_cases hcla with h | h
      · have hone : ¬a.cla &&& 0x10≠0:=by rw [h]; decide
        rw [if_neg hone,Chain.next_of_class none (by rw [h]; decide)]
        exact hc
      · have hblock : a.cla &&& 0x10≠0:=by rw [h]; decide
        rw [if_pos hblock]
        exact chain_acceptBlock a [] hcla c trivial
    | some chain=>
      rw [reassemble_some hcla hc]
      by_cases hsame : a.ins=chain.ins ∧ a.p1=chain.p1 ∧ a.p2=chain.p2
      · have hnext : Chain.next a (some chain) =
            if a.cla=0x10 ∧ (chain.data++a.data).length ≤ chainBufferSize then
              some ⟨a.ins,a.p1,a.p2,chain.data++a.data⟩ else none:=by
          have hbefore : Chain.before a (some chain)=some chain.data:=if_pos hsame
          unfold Chain.next
          rw [hbefore]
          rfl
        rw [if_neg (by simp [hsame]),hnext]
        exact chain_acceptBlock a chain.data hcla c trivial
      · have hnext : Chain.next a (some chain)=none:=by
          have hbefore : Chain.before a (some chain)=none:=if_neg hsame
          unfold Chain.next
          rw [hbefore]
          rfl
        rw [if_pos (by tauto),hnext]
        rfl
  · have hclass : a.cla≠0x10:=fun h=>hcla (by rw [h]; decide)
    unfold reassemble
    rw [if_pos hcla,Chain.next_of_class chain hclass]
    rfl

theorem chain_process {raw : Bytes} {a : Scard.Apdu} (ha : Scard.apduParse raw=some a) :
    (openpgpProcessApdu dev cr raw card).2.app.chain=Chain.next a card.app.chain:=by
  have hdone : Triple (fun c : Card=>c.app.chain=card.app.chain) (reassemble a >>= fun r=>match r with
      | .error reply=>pure reply
      | .ok c=>dispatch dev cr c) (fun _ c=>c.app.chain=Chain.next a card.app.chain)
      fun _ c=>c.app.chain=Chain.next a card.app.chain:=by
    apply Triple.bind
    · exact (chain_reassemble a card.app.chain).conseq (fun _ h=>h) (fun _ _ h=>h) fun _ _ h=>h.elim
    · intro r
      cases r with
      | error reply=>exact Keeps.pure _
      | ok c=>exact (still_chain _).dispatch c
  rw [process_parsed ha]
  exact hdone.state rfl

theorem process_unparsed {raw : Bytes} (ha : Scard.apduParse raw=none) :
    openpgpProcessApdu dev cr raw card=(.ok {sw:=swWrongLength},card):=by
  unfold openpgpProcessApdu
  rw [ha]
  rfl

theorem chain_run (op : CardOp) (e : Env) (hop : ParsesInChain (card,card.app.chain) ⟨op,e⟩) :
    (op.run dev cr card).2.app.chain=op.next card.app.chain:=by
  cases op with
  | apdu raw=>
    have hrun : (CardOp.run dev cr (.apdu raw) card).2=(openpgpProcessApdu dev cr raw card).2:=by
      simp only [CardOp.run,bind_apply]
      cases openpgpProcessApdu dev cr raw card with
      | mk r c=>cases r <;> rfl
    rw [hrun,CardOp.next]
    cases ha : Scard.apduParse raw with
    | none=>
      rw [process_unparsed ha]
      exact hop raw rfl ha
    | some a=>exact chain_process ha
  | deselect=>rfl
  | generateKey curve=>exact keeps_iff.mp ((still_chain _).lowers.menu (by simp) (by simp)) card rfl
  | setPendingUserId userId=>exact keeps_iff.mp ((still_chain _).lowers.menu (by simp) (by simp)) card rfl
  | reset=>exact keeps_iff.mp ((still_chain _).lowers.menu (by simp) (by simp)) card rfl
  | powerOn=>exact keeps_iff.mp ((still_chain _).lowers.menu (by simp) (by simp)) card rfl
  | powerOff=>rfl

theorem watch_step {s : Card × Option Chain} {i : CardInput} (hparses : ParsesInChain s i)
    (h : s.1.app.chain=s.2) : (watch dev cr s i).1.app.chain=(watch dev cr s i).2:=by
  obtain ⟨card,chain⟩:=s
  change card.app.chain=chain at h
  subst h
  unfold watch step respond
  cases hreaches : i.reaches card with
  | false=>simp
  | true=>
    have hrun : (i.op.run dev cr (card.given i.env)).2.app.chain=_:=chain_run i.op i.env hparses
    cases hop : i.op.run dev cr (card.given i.env) with
    | mk r c=>
      rw [hop] at hrun
      cases r with
      | ok reply=>
        change c.app.chain=i.op.next card.app.chain at hrun
        simpa using hrun
      | error _=>simp [Card.powerCut]

end Breaks

/-- In every state that a run reaches in which every APDU that meets an open chain parses, the card keeps no block of
a chain that was broken off, and a command is answered alike however its data are split. -/
theorem chains_unbroken (dev : Device) (cr : GpgCrypto) {card : Card} (hcard : card.app={}) {is : List CardInput}
    (h : AlongRun (watch dev cr) ParsesInChain (card,none) is) :
    let s:=run (watch dev cr) (card,none) is
    s.1.app.chain=s.2 ∧ ∀ (c : Cmd) (blocks : List CardInput) (before data last whole : Bytes) (e : Env),
      s.1.on=true → s.2=none→Blocks c blocks before → Says last 0x00 {c with data:=data} →
      Says whole 0x00 {c with data:=before++data}→(before++data).length ≤ chainBufferSize →
      (c.StoresKdfDo→before++data=[]→blocks=[]) →
      AlongRun (step dev cr) (fun card i=>(respond dev cr card i).1=some {sw:=swOk}) s.1 blocks ∧
        respond dev cr (run (step dev cr) s.1 blocks) ⟨.apdu last,e⟩=respond dev cr s.1 ⟨.apdu whole,e⟩:=by
  have hchain : (run (watch dev cr) (card,none) is).1.app.chain=(run (watch dev cr) (card,none) is).2:=
    run_invariant (I:=fun s=>s.1.app.chain=s.2) (fun s i hi hs=>watch_step hi hs) (by rw [hcard]) h
  refine ⟨hchain,?_⟩
  intro c blocks before data last whole e hon hnone hblocks hlast hwhole hlen hdata
  rw [hnone] at hchain
  have hbefore : before.length ≤ chainBufferSize:=by
    rw [List.length_append] at hlen
    omega
  exact ⟨(hblocks.collected hon hchain hbefore).1,respond_split hblocks hlast hwhole hon hchain hlen hdata⟩

def disturbedSelect (between : List Bytes) : List CardInput:=
  (([0x10,0xA4,0x04,0x00,0x03,0xD2,0x76,0x00] : Bytes)::between).map fun raw=>⟨.apdu raw,{}⟩

def selectRest : Bytes:=[0x00,0xA4,0x04,0x00,0x03,0x01,0x24,0x01]

theorem chains_unbroken_select :
    let s:=run (watch .plain .plain) (newCard,none) [⟨.powerOn,{}⟩]
    s.1.on=true ∧ respond .plain .plain (run (step .plain .plain) s.1 (disturbedSelect []))
        ⟨.apdu selectRest,{}⟩ =
      respond .plain .plain s.1 ⟨.apdu [0x00,0xA4,0x04,0x00,0x06,0xD2,0x76,0x00,0x01,0x24,0x01],{}⟩:=by
  have hon : (run (watch .plain .plain) (newCard,none) [⟨.powerOn,{}⟩]).1.on=true:=by decide +kernel
  have hnone : (run (watch .plain .plain) (newCard,none) [⟨.powerOn,{}⟩]).2=none:=by decide +kernel
  have hblocks : Blocks ⟨0xA4,0x04,0x00,[],0,false⟩ (disturbedSelect []) [0xD2,0x76,0x00]:=
    .snoc (show Blocks _ [] [] from .nil) ⟨_,rfl,rfl,rfl⟩
  have hparses : AlongRun (watch .plain .plain) ParsesInChain (newCard,none) [⟨.powerOn,{}⟩]:=
    ⟨fun _ h=>(nomatch h),trivial⟩
  refine ⟨hon,?_⟩
  exact ((chains_unbroken .plain .plain rfl hparses).2 _ _ _ [0x01,0x24,0x01] _ _ {} hon hnone
    hblocks ⟨_,rfl,rfl,rfl⟩ ⟨_,rfl,rfl,rfl⟩ (by decide) (by intro h; cases h.1)).2

/-- Three bytes of an AID that came before an error become part of the SELECT after it. -/
theorem chains_broken_by_garbage :
    let s:=run (watch .plain .plain) (newCard,none) (⟨.powerOn,{}⟩::disturbedSelect [[0x00]])
    s.1.app.chain.isSome=true ∧ s.2=none ∧
      (respond .plain .plain s.1 ⟨.apdu selectRest,{}⟩).1=some {sw:=swOk}:=by
  refine ⟨?_,?_,?_⟩
  · decide +kernel
  · decide +kernel
  · decide +kernel

end CdcBadge.OpenPgp
