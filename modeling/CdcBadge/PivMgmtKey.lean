import CdcBadge.PivAccess
import CdcBadge.PivFrames

/-!
# The management key over restarts

The key that was set last, in memory and in the record that the chip keeps.
-/

namespace CdcBadge.Piv

open Handler
open Pin (Badge PowerLost)

def RecordHolds (key : ByteArr 32) (k : Keys) : Prop:=
  ∃ st : PivState, k.badge.chip.rmem stateSlot=some (headered moduleIdPiv 0 stateName st.bytes) ∧ st.version=1 ∧
    st.mgmtKey=key

/-- What the record and the copy in memory hold once a key has been acknowledged. -/
structure Holds (acked : Option (ByteArr 32)) (k : Keys) : Prop where
  loaded : k.stateLoaded=true
  version : k.state.version=1
  record : ∀ key∈acked, RecordHolds key k
  memory : ∀ key∈acked, k.state.mgmtKey=key

variable {key : ByteArr 32}

theorem RecordHolds.of_rmem {k k' : Keys} (h : RecordHolds key k)
    (hrmem : k'.badge.chip.rmem stateSlot=k.badge.chip.rmem stateSlot) : RecordHolds key k':=by
  obtain ⟨st,hst,hversion,hkey⟩:=h
  exact ⟨st,hrmem.trans hst,hversion,hkey⟩

theorem framed_recordHolds (key : ByteArr 32) : Framed (RecordHolds key):=
  fun _ _ h _ _ hmemory=>h.of_rmem (pivMemory_rmem hmemory rfl)

theorem framed_holds (acked : Option (ByteArr 32)) : Framed (Holds acked):=by
  intro k k' h hstate hloaded hmemory
  refine ⟨hloaded.trans h.loaded,?_,fun key hkey=>?_,fun key hkey=>?_⟩
  · rw [hstate]
    exact h.version
  · exact (h.record key hkey).of_rmem (pivMemory_rmem hmemory rfl)
  · rw [hstate]
    exact h.memory key hkey

variable {k : Keys}

theorem Holds.of_chip {acked : Option (ByteArr 32)} (h : Holds acked k) {c : Chip Bytes}
    (hrmem : c.rmem stateSlot=k.badge.chip.rmem stateSlot) : Holds acked (k.withChip c):=
  ⟨h.loaded,h.version,fun key hkey=>(h.record key hkey).of_rmem hrmem,h.memory⟩

section Commands

variable {cr : PivCrypto} {acked : Option (ByteArr 32)}

theorem holds_rmemWriteWithHeader {slot : ℕ} (hs : slot≠stateSlot) (moduleId : UInt8) (name payload : Bytes) :
    Keeps (Holds acked) (rmemWriteWithHeader slot moduleId name payload):=
  (framed_holds acked).undrawn.rmemWriteWithHeader (fun _ hk=>hk.of_chip (Chip.rmemErase_sets.other hs.symm))
    (fun _ _ hk=>hk.of_chip (Chip.rmemWrite_sets.other hs.symm)) moduleId name payload

theorem holds_cbKeyGenerate (keyRef : UInt8) : Keeps (Holds acked) (cbKeyGenerate cr keyRef):=by
  have hframed:=framed_holds acked
  unfold cbKeyGenerate
  split
  · exact hframed.undrawn.generateEcc (fun k hk=>hk.of_chip (by rw [Chip.eccDelete_sets.rmem])) fun k key hk=>
      hk.of_chip (by rw [Chip.eccGenerate_sets.rmem])
  · refine Keeps.ite (fun _=>Keeps.bind (fun k hk=>hframed.undrawn k _ hk) fun scalar=>?_) fun _=>Keeps.pure _
    cases scalar with
    | none=>exact Keeps.pure _
    | some scalar=>
      dsimp only
      split
      · exact Keeps.pure _
      · refine Keeps.bind (holds_rmemWriteWithHeader (show slot9D≠stateSlot by decide) _ _ _) fun reply=>?_
        cases reply <;> exact Keeps.pure _

theorem holds_dispatch (c : Cmd) (hc : c.ins≠insSetMgmtKey) :
    Keeps (fun s=>Holds acked s.be) (dispatch (pivBackend cr) c):=
  ((framed_holds acked).backend (keeps_stateEnsure fun _ h=>h.loaded)).dispatch c
    (fun _=>keeps_cmdGenerate (holds_cbKeyGenerate c.p2)) fun h=>absurd h hc

end Commands

theorem stateSlot_lt : stateSlot < Chip.rmemSlotCount:=by decide

/-- The calls that replace the record succeed, or power is lost before anything has been erased. -/
def SavesWell (calls : List SeOutcome) : Prop:=
  match calls.headD .done with
  | .done=>calls.tail.headD .done=.done
  | .failed e applied=>e=.slotEmpty ∧ applied=true ∧ calls.tail.headD .done=.done
  | .powerLost applied=>applied=false

theorem seCall_apply {α : Type} (call : Chip Bytes → SeReply α × Chip Bytes) (k : Keys) :
    seCall call k=match Chip.perform (k.env.calls.headD .done) call k.badge.chip with
      | (some reply,c)=>(.ok reply,{k.withChip c with env:={k.env with calls:=k.env.calls.tail}})
      | (none,c)=>(.error ⟨⟩,{k.withChip c with env:={k.env with calls:=k.env.calls.tail}}):=by
  unfold seCall
  rw [bind_apply,nextCall]
  unfold onPins zoom Pin.seCall
  dsimp only [Keys.withChip]
  cases Chip.perform (k.env.calls.headD .done) call k.badge.chip with
  | mk r c=>cases r <;> rfl

theorem rmemWrite_ok {slot : ℕ} {data : Bytes} {c c' : Chip Bytes} (h : Chip.rmemWrite slot data c=(.ok (),c')) :
    c'.rmem slot=some data:=by
  unfold Chip.rmemWrite at h
  split at h
  · cases h
  · split at h
    · cases h
    · cases h
      exact Function.update_self _ _ _

theorem seCall_write {slot : ℕ} {data : Bytes} :
    Triple (fun _=>True) (seCall (Chip.rmemWrite slot data))
      (fun reply k=>∀ u, reply=.ok u→k.badge.chip.rmem slot=some data) fun _ _=>True:=by
  intro k _
  rw [seCall_apply]
  cases hperform : Chip.perform (k.env.calls.headD .done) (Chip.rmemWrite slot data) k.badge.chip with
  | mk r c=>cases r with
    | none=>trivial
    | some reply=>
      rintro u rfl
      exact rmemWrite_ok (Chip.perform_ok hperform).2

theorem rmemWriteWithHeader_ok {slot : ℕ} {moduleId : UInt8} {name payload : Bytes} :
    Triple (fun _=>True) (rmemWriteWithHeader slot moduleId name payload)
      (fun reply k=>∀ u, reply=.ok u→k.badge.chip.rmem slot=some (headered moduleId 0 name payload))
      fun _ _=>True:=by
  refine Triple.bind (Q:=fun _ _=>True) (Triple.of_ok fun _ _ _ _ _=>trivial) fun reply=>?_
  cases reply with
  | error e=>exact Triple.ite (fun _=>Triple.pure fun k _ u h=>by cases h) fun _=>seCall_write
  | ok u=>exact seCall_write

theorem fixes_seCall {α : Type} (call : Chip Bytes → SeReply α × Chip Bytes) :
    Fixes (fun k=>(k.state,k.stateLoaded)) (seCall call):=by
  intro x
  rw [keeps_iff]
  intro k hk
  rw [seCall_apply]
  cases Chip.perform (k.env.calls.headD .done) call k.badge.chip with
  | mk r c=>cases r <;> exact hk

theorem fixes_rmemWriteWithHeader (slot : ℕ) (moduleId : UInt8) (name payload : Bytes) :
    Fixes (fun k=>(k.state,k.stateLoaded)) (rmemWriteWithHeader slot moduleId name payload):=by
  refine Fixes.bind (fixes_seCall _) fun reply=>?_
  cases reply with
  | error e=>exact Fixes.ite (Fixes.pure _) (fixes_seCall _)
  | ok u=>exact fixes_seCall _

theorem stateSave_ok (st : PivState) (loaded : Bool) :
    Triple (fun k=>(k.state,k.stateLoaded)=(st,loaded)) stateSave
      (fun ok k=>(k.state,k.stateLoaded)=(st,loaded) ∧ (ok=true →
        k.badge.chip.rmem stateSlot=some (headered moduleIdPiv 0 stateName st.bytes)))
      fun _ _=>True:=by
  refine Triple.bind (Q:=fun st' k=>st'=st ∧ (k.state,k.stateLoaded)=(st,loaded))
    (Triple.gets fun k hk=>⟨congrArg Prod.fst hk,hk⟩) fun st'=>Triple.pre ?_
  rintro rfl
  have hwrite:=(@rmemWriteWithHeader_ok stateSlot moduleIdPiv stateName st'.bytes).and
    (fixes_rmemWriteWithHeader stateSlot moduleIdPiv stateName st'.bytes (st',loaded))
  refine Triple.bind (hwrite.conseq (fun k hk=>⟨trivial,hk⟩) (fun _ _ h=>h) fun _ _ _=>trivial) fun reply=>?_
  cases reply with
  | error e=>exact Triple.pure fun k hk=>⟨hk.2,fun h=>by contradiction⟩
  | ok u=>exact Triple.pure fun k hk=>⟨hk.2,fun _=>hk.1 u rfl⟩

theorem seCall_writeErased {c : Chip Bytes} {data : Bytes}
    (hchip : k.badge.chip=(Chip.rmemErase stateSlot c).2) (hcall : k.env.calls.headD .done=.done) :
    ∃ k', seCall (Chip.rmemWrite stateSlot data) k=(.ok (.ok ()),k'):=by
  have hempty : k.badge.chip.rmem stateSlot=none:=by
    rw [hchip,Chip.rmemErase_lt stateSlot_lt]
    simp
  rw [seCall_apply,hcall]
  simp only [Chip.perform,Chip.rmemWrite_none stateSlot_lt hempty]
  exact ⟨_,rfl⟩

theorem rmemWriteWithHeader_well {k : Keys} {moduleId : UInt8} {name payload : Bytes} (h : SavesWell k.env.calls) :
    (∃ k', rmemWriteWithHeader stateSlot moduleId name payload k=(.ok (.ok ()),k')) ∨
      ∃ e k', rmemWriteWithHeader stateSlot moduleId name payload k=(.error e,k') ∧
        k'.badge.chip=k.badge.chip:=by
  unfold SavesWell at h
  unfold rmemWriteWithHeader
  rw [bind_apply,seCall_apply]
  cases ho : k.env.calls.headD .done with
  | done=>
    rw [ho] at h
    left
    have hreply : (Chip.rmemErase stateSlot k.badge.chip).1=.ok ():=by rw [Chip.rmemErase_lt stateSlot_lt]
    simp only [Chip.perform,hreply]
    exact seCall_writeErased rfl h
  | failed e applied=>
    rw [ho] at h
    obtain ⟨rfl,rfl,hw⟩:=h
    left
    simp only [Chip.perform,ne_eq,not_true_eq_false,if_false,if_true]
    exact seCall_writeErased rfl hw
  | powerLost applied=>
    rw [ho] at h
    cases h
    exact .inr ⟨_,_,rfl,rfl⟩

theorem stateSave_well {k : Keys} (h : SavesWell k.env.calls) :
    (∃ k', stateSave k=(.ok true,k')) ∨ ∃ e k', stateSave k=(.error e,k') ∧ k'.badge.chip=k.badge.chip:=by
  unfold stateSave
  rw [bind_gets,bind_apply]
  rcases @rmemWriteWithHeader_well k moduleIdPiv stateName k.state.bytes h with
    ⟨k',hk'⟩ | ⟨e,k',hk',hchip⟩
  · rw [hk']
    exact .inl ⟨k',rfl⟩
  · rw [hk']
    exact .inr ⟨e,k',rfl,hchip⟩

def newKey : Bytes→Option (ByteArr 32)
  | alg::keyRef::len::key=>
    if alg=algAes256 ∧ keyRef=key9B ∧ len=32 ∧ 32 ≤ key.length then some (fit 32 (key.take 32)) else none
  | _=>none

def ackedAfter (acked : Option (ByteArr 32)) (c : Cmd) (sw : UInt16) : Option (ByteArr 32):=
  if c.ins=insSetMgmtKey ∧ sw=swOk then newKey c.data <|> acked else acked

/-- What stays of `Holds` when power is lost. -/
def Recorded (acked : Option (ByteArr 32)) (k : Keys) : Prop:=∀ key∈acked, RecordHolds key k

/-- A new key is acknowledged once it is saved; one that is not acknowledged was not looked at. -/
theorem holds_cbMgmtSetKey {acked : Option (ByteArr 32)} {k : Keys} (hk : Holds acked k) (alg : UInt8) (key : Bytes)
    (hsave : acked≠none→alg=algAes256 ∧ key.length=32 → SavesWell k.env.calls) :
    match cbMgmtSetKey alg key k with
    | (.ok true,k')=>Holds (some (fit 32 key)) k' ∧ alg=algAes256 ∧ key.length=32
    | (.ok false,k')=>Holds acked k'
    | (.error _,k')=>Recorded acked k':=by
  have hensure : stateEnsure k=(.ok true,k):=by
    unfold stateEnsure
    rw [bind_gets,if_pos hk.loaded]
    rfl
  unfold cbMgmtSetKey
  rw [bind_of_ok hensure]
  simp only [Bool.not_true,Bool.false_eq_true,if_false]
  by_cases hbad : alg≠algAes256 ∨ key.length≠32
  · rw [if_pos hbad]
    exact hk
  rw [if_neg hbad,bind_modify]
  obtain ⟨halg,hlen⟩:=not_or.mp hbad
  have hgood : alg=algAes256 ∧ key.length=32:=⟨not_not.mp halg,not_not.mp hlen⟩
  set st : PivState:={k.state with mgmtKey:=fit 32 key,mgmtAlg:=alg,mgmtIsDefault:=0}
  have hok:=stateSave_ok st true {k with state:=st} (by rw [← hk.loaded])
  have hacked {k' : Keys} (h : (k'.state,k'.stateLoaded)=(st,true) ∧
      (true=true→k'.badge.chip.rmem stateSlot=some (headered moduleIdPiv 0 stateName st.bytes))) :
      Holds (some (fit 32 key)) k':=by
    obtain ⟨hpair,hrmem⟩:=h
    have hstate : k'.state=st:=congrArg Prod.fst hpair
    refine ⟨congrArg Prod.snd hpair,by rw [hstate]; exact hk.version,fun key' hkey'=>?_,fun key' hkey'=>?_⟩
    · exact ⟨st,hrmem rfl,hk.version,Option.some_inj.mp hkey'⟩
    · rw [hstate]
      exact Option.some_inj.mp hkey'
  cases hr : stateSave {k with state:=st} with
  | mk r k'=>cases r with
    | ok ok=>cases ok with
      | true=>
        rw [hr] at hok
        exact ⟨hacked hok,hgood⟩
      | false=>
        rw [hr] at hok
        have hpair : (k'.state,k'.stateLoaded)=(st,true):=hok.1
        have hstate : k'.state=st:=congrArg Prod.fst hpair
        -- A save that is refused leaves the new key in memory, so none may have been acknowledged.
        have hnone : acked=none:=by
          by_contra hsome
          rcases @stateSave_well {k with state:=st} (hsave hsome hgood) with ⟨k'',h⟩ | ⟨e,k'',h,-⟩
          · cases hr.symm.trans h
          · cases hr.symm.trans h
        subst hnone
        exact ⟨congrArg Prod.snd hpair,by rw [hstate]; exact hk.version,nofun,nofun⟩
    | error e=>
      intro old hold
      have hsome : acked≠none:=fun h=>by rw [h] at hold; cases hold
      rcases @stateSave_well {k with state:=st} (hsave hsome hgood) with ⟨k'',h⟩ | ⟨e',k'',h,hchip⟩
      · cases hr.symm.trans h
      · cases hr.symm.trans h
        exact (hk.record old hold).of_rmem (by rw [hchip])

theorem newKey_of {alg len : UInt8} {key : Bytes} (halg : alg=algAes256) (hlen : key.length ≥ len.toNat)
    (hkey : (key.take len.toNat).length=32) :
    newKey (alg::key9B::len::key)=some (fit 32 (key.take len.toNat)):=by
  have hlen' : len.toNat=32:=by
    rw [List.length_take] at hkey
    omega
  have hbyte : len=32:=UInt8.toNat_inj.mp hlen'
  have hcond : alg=algAes256 ∧ key9B=key9B ∧ len=32 ∧ 32 ≤ key.length:=⟨halg,rfl,hbyte,by omega⟩
  rw [newKey,if_pos hcond,hlen']

/-- `SET MANAGEMENT KEY`: what an answer acknowledges holds, and an answer of an error leaves what held. -/
theorem holds_cmdSetMgmtKey {cr : PivCrypto} {acked : Option (ByteArr 32)} {s : Ctx Keys} (hs : Holds acked s.be) {c : Cmd}
    (hins : c.ins=insSetMgmtKey) (hsave : acked≠none → s.app.mgmtAuthenticated=true→newKey c.data≠none →
      SavesWell s.be.env.calls) :
    match cmdSetMgmtKey (pivBackend cr) c s with
    | (.ok reply,s')=>Holds (ackedAfter acked c reply.sw) s'.be
    | (.error _,s')=>Recorded acked s'.be:=by
  have hrefused (sw : UInt16) (hsw : sw≠swOk) : Holds (ackedAfter acked c sw) s.be:=by
    rw [ackedAfter,if_neg fun h=>hsw h.2]
    exact hs
  unfold cmdSetMgmtKey appGets
  rw [bind_gets]
  by_cases hauth : s.app.mgmtAuthenticated=true
  case neg=>
    rw [if_pos (by simpa using hauth)]
    exact hrefused swSecurityStatus (by decide)
  rw [if_neg (by simpa using hauth)]
  rcases hdata : c.data with _ | ⟨alg,_ | ⟨keyRef,_ | ⟨len,key⟩⟩⟩
  · exact hrefused swDataInvalid (by decide)
  · exact hrefused swDataInvalid (by decide)
  · exact hrefused swDataInvalid (by decide)
  dsimp only
  by_cases hkeyRef : keyRef≠key9B
  · rw [if_pos hkeyRef]
    exact hrefused swDataInvalid (by decide)
  rw [if_neg hkeyRef]
  by_cases hlen : key.length < len.toNat
  · rw [if_pos hlen]
    exact hrefused swDataInvalid (by decide)
  rw [if_neg hlen]
  by_cases halg : alg≠algAes128 ∧ alg≠algAes192 ∧ alg≠algAes256
  · rw [if_pos halg]
    exact hrefused swDataInvalid (by decide)
  rw [if_neg halg]
  have hkey:=@holds_cbMgmtSetKey acked s.be hs alg (key.take len.toNat) fun hsome hgood=>hsave hsome hauth (by
    rw [hdata,not_not.mp hkeyRef,newKey_of hgood.1 (by omega) hgood.2]
    exact Option.some_ne_none _)
  have hcall : call ((pivBackend cr).mgmtSetKey alg (key.take len.toNat)) s =
      ((cbMgmtSetKey alg (key.take len.toNat) s.be).1,{s with be:=(cbMgmtSetKey alg (key.take len.toNat) s.be).2}):=
    rfl
  rw [bind_apply,hcall]
  cases hr : cbMgmtSetKey alg (key.take len.toNat) s.be with
  | mk r k'=>
    rw [hr] at hkey
    cases r with
    | error e=>exact hkey
    | ok ok=>cases ok with
      | true=>
        obtain ⟨hholds,halg,hlen32⟩:=hkey
        change Holds (ackedAfter acked c swOk) k'
        rw [ackedAfter,if_pos ⟨hins,rfl⟩,hdata,not_not.mp hkeyRef,newKey_of halg (by omega) hlen32]
        exact hholds
      | false=>
        change Holds (ackedAfter acked c swSecurityStatus) k'
        rw [ackedAfter,if_neg fun h=>absurd h.2 (by decide)]
        exact hkey

/-- The record is read, or what follows erases nothing. -/
def BootReads (e : Env) : Prop:=
  match e.calls.headD .done with
  | .failed _ _=>(e.strict.headD (some [])=none ∨ e.strict.tail.headD (some [])=none) ∨
    (e.calls.tail.headD .done).applied=false
  | _=>True

theorem seCall_read :
    Triple (RecordHolds key) (seCall (Chip.rmemRead stateSlot))
      (fun reply k=>RecordHolds key k ∧ ∀ data, reply=.ok data→k.badge.chip.rmem stateSlot=some data)
      fun _=>RecordHolds key:=by
  intro k hk
  rw [seCall_apply]
  have hchip : ∀ o, (Chip.perform o (Chip.rmemRead stateSlot) k.badge.chip).2=k.badge.chip:=fun o=>by
    rw [Chip.perform_chip,Chip.rmemRead_chip]
    split <;> rfl
  have hsame:=hchip (k.env.calls.headD .done)
  cases hperform : Chip.perform (k.env.calls.headD .done) (Chip.rmemRead stateSlot) k.badge.chip with
  | mk r c=>
    rw [hperform] at hsame
    cases hsame
    cases r with
    | none=>exact hk.of_rmem rfl
    | some reply=>
      refine ⟨hk.of_rmem rfl,?_⟩
      rintro data rfl
      obtain ⟨st,hst,-,-⟩:=hk
      have hread:=(Chip.perform_ok hperform).2
      rw [Chip.rmemRead_some stateSlot_lt hst] at hread
      cases hread
      exact hst

theorem sweepRmem_state : Keeps (RecordHolds key) (sweepRmem stateSlot):=by
  refine Triple.bind (Q:=fun reply k=>RecordHolds key k ∧ ∀ r, reply=.ok r → r.1=moduleIdPiv) ?_ fun reply=>?_
  · refine Triple.bind seCall_read fun reply=>?_
    cases reply with
    | error e=>exact Triple.pure fun k hk=>⟨hk.1,nofun⟩
    | ok data=>
      refine Triple.pure fun k hk=>⟨hk.1,fun r hr=>?_⟩
      obtain ⟨st,hst,-,-⟩:=hk.1
      cases (hk.2 data rfl).symm.trans hst
      rw [readHeadered_headered (by rw [PivState.bytes_length]; decide)] at hr
      split at hr
      · cases hr
      · cases hr
        rfl
  · cases reply with
    | error e=>exact Triple.pure fun k hk=>hk.1
    | ok r=>
      refine Triple.when (fun hfido=>fun k hk=>?_) fun _ k hk=>hk.1
      rw [hk.2 r rfl] at hfido
      exact absurd hfido (by decide)

theorem sweepRmem_keeps (slot : ℕ) : Keeps (RecordHolds key) (sweepRmem slot):=by
  by_cases hs : slot=stateSlot
  · rw [hs]
    exact sweepRmem_state
  · exact (framed_recordHolds key).undrawn.sweepRmem fun k hk=>hk.of_rmem (Chip.rmemErase_sets.other (Ne.symm hs))

theorem sweepEcc_keeps (shortReads : Bool) (slot : ℕ) :
    Keeps (RecordHolds key) (sweepEcc shortReads slot):=by
  refine (framed_recordHolds key).undrawn.sweepEcc (fun k hk=>hk.of_rmem ?_) shortReads
  change (Chip.eccDelete slot k.badge.chip).2.rmem stateSlot=_
  rw [Chip.eccDelete_sets.rmem]

theorem cleanup_keeps (shortReads : Bool) :
    Keeps (RecordHolds key) (cleanupFido2Orphans shortReads):=
  Keeps.bind (Keeps.forM sweepRmem_keeps) fun _=>Keeps.forM fun slot=>sweepEcc_keeps shortReads slot

theorem stateSave_unapplied {record : Bytes} (h : (k.env.calls.headD .done).applied=false)
    (hrecord : k.badge.chip.rmem stateSlot=some record) :
    (stateSave k).2.badge.chip.rmem stateSlot=some record ∧ (stateSave k).1≠.ok true:=by
  have hwrite : ∀ (k' : Keys) (data : Bytes), k'.badge.chip.rmem stateSlot=some record →
      (seCall (Chip.rmemWrite stateSlot data) k').2.badge.chip.rmem stateSlot=some record ∧
        ∀ u, (seCall (Chip.rmemWrite stateSlot data) k').1≠.ok (.ok u):=by
    intro k' data hk'
    rw [seCall_apply]
    have hrefused:=@Chip.rmemWrite_some _ stateSlot k'.badge.chip data record stateSlot_lt hk'
    cases k'.env.calls.headD .done with
    | done=>simp [Chip.perform,hrefused,Keys.withChip,hk']
    | failed e applied=>cases applied <;> simp [Chip.perform,hrefused,Keys.withChip,hk']
    | powerLost applied=>cases applied <;> simp [Chip.perform,hrefused,Keys.withChip,hk']
  have hreplace : ∀ name payload, (rmemWriteWithHeader stateSlot moduleIdPiv name payload k).2.badge.chip.rmem stateSlot =
      some record ∧ ∀ u, (rmemWriteWithHeader stateSlot moduleIdPiv name payload k).1≠.ok (.ok u):=by
    intro name payload
    unfold rmemWriteWithHeader
    rw [bind_apply,seCall_apply]
    cases ho : k.env.calls.headD .done with
    | done=>
      rw [ho] at h
      contradiction
    | failed e applied=>
      rw [ho] at h
      cases h
      simp only [Chip.perform,Bool.false_eq_true,if_false]
      split
      · exact ⟨hrecord,fun u h=>by cases h⟩
      · exact hwrite _ _ hrecord
    | powerLost applied=>
      rw [ho] at h
      cases h
      exact ⟨hrecord,fun u h=>by cases h⟩
  obtain ⟨hrmem,hne⟩:=hreplace stateName k.state.bytes
  unfold stateSave
  rw [bind_gets,bind_apply]
  cases hr : rmemWriteWithHeader stateSlot moduleIdPiv stateName k.state.bytes k with
  | mk r k'=>
    rw [hr] at hrmem hne
    cases r with
    | error e=>exact ⟨hrmem,fun h=>by cases h⟩
    | ok reply=>cases reply with
      | error e=>exact ⟨hrmem,fun h=>by cases h⟩
      | ok u=>exact absurd rfl (hne u)

theorem holds_stateInit : Triple (fun _=>True) stateInit (fun ok k=>ok=true→Holds none k) fun _ _=>True:=by
  unfold stateInit
  refine Triple.bind (Q:=fun _ k=>k.state.version=1) (Triple.modify fun _ _=>rfl) fun _=>?_
  refine Triple.bind (Q:=fun _ (k : Keys)=>k.state.version=1) (fun k hk=>hk) fun guid=>?_
  cases guid with
  | none=>exact Triple.pure fun _ _ h=>by cases h
  | some guid=>
    refine Triple.bind (Q:=fun _ (k : Keys)=>k.state.version=1) (fun k hk=>hk) fun cccId=>?_
    cases cccId with
    | none=>exact Triple.pure fun _ _ h=>by cases h
    | some cccId=>
      refine Triple.bind (Q:=fun _ k=>k.state.version=1) (Triple.modify fun _ hk=>hk) fun _=>?_
      unfold stateFirstSave
      refine Triple.bind (Q:=fun _ k=>k.state.version=1) (Triple.named fun k hk=>?_) fun ok=>?_
      · refine (stateSave_ok k.state k.stateLoaded).conseq (fun t ht=>by rw [ht]) (fun ok t ht=>?_) fun _ _ h=>h
        have hstate : t.state=k.state:=congrArg Prod.fst ht.1
        rw [hstate]
        exact hk
      · refine Triple.ite (fun _=>Triple.pure fun _ _ h=>by cases h) fun _=>?_
        refine Triple.bind (Q:=fun _=>Holds none) (Triple.modify fun k hk=>⟨rfl,hk,nofun,nofun⟩) fun _=>?_
        exact Triple.pure fun k hk _=>hk

theorem holds_stateEnsure_none (hloaded : k.stateLoaded=false) :
    ∀ k', stateEnsure k=(.ok true,k')→Holds none k':=by
  have htriple : Triple (fun t=>t=k) stateEnsure (fun ok k'=>ok=true→Holds none k') fun _ _=>True:=by
    unfold stateEnsure
    refine Triple.bind (Q:=fun loaded _=>loaded=false) (Triple.gets fun t ht=>by rw [ht,hloaded]) fun loaded=>?_
    refine Triple.ite (fun h=>fun t ht=>absurd (ht.symm.trans h) (by decide)) fun _=>?_
    refine Triple.bind (Q:=fun _ _=>True) (Triple.of_ok fun _ _ _ _ _=>trivial) fun reply=>?_
    cases reply with
    | error e=>exact holds_stateInit
    | ok record=>
      refine Triple.ite (fun hvalid=>?_) fun _=>holds_stateInit
      refine Triple.bind (Q:=fun _=>Holds none) (Triple.modify fun t _=>⟨rfl,?_,nofun,nofun⟩) fun _=>
        Triple.pure fun t ht _=>ht
      simp only [validState,Bool.and_eq_true,decide_eq_true_eq] at hvalid
      exact hvalid.2
  exact fun k' h=>htriple.ok rfl h rfl

theorem stateFirstSave_unapplied {record : Bytes} (h : (k.env.calls.headD .done).applied=false)
    (hrecord : k.badge.chip.rmem stateSlot=some record) :
    (stateFirstSave k).2.badge.chip.rmem stateSlot=some record ∧ (stateFirstSave k).1≠.ok true:=by
  obtain ⟨hrmem,hne⟩:=stateSave_unapplied h hrecord
  unfold stateFirstSave
  rw [bind_apply]
  cases hr : stateSave k with
  | mk r k'=>
    rw [hr] at hrmem hne
    cases r with
    | error e=>exact ⟨hrmem,nofun⟩
    | ok ok=>cases ok with
      | true=>exact absurd rfl hne
      | false=>exact ⟨hrmem,nofun⟩

/-- A first boot without identifiers, or whose erase takes no effect, leaves the record. -/
theorem stateInit_unapplied {k : Keys} {record : Bytes} (hrecord : k.badge.chip.rmem stateSlot=some record)
    (h : (k.env.strict.headD (some [])=none ∨ k.env.strict.tail.headD (some [])=none) ∨
      (k.env.calls.headD .done).applied=false) :
    (stateInit k).2.badge.chip.rmem stateSlot=some record ∧ (stateInit k).1≠.ok true:=by
  unfold stateInit
  rw [bind_modify,bind_nextStrict]
  cases hguid : k.env.strict.headD (some []) with
  | none=>exact ⟨hrecord,nofun⟩
  | some guid=>
    dsimp only [Option.map_some]
    rw [bind_nextStrict]
    cases hcccId : k.env.strict.tail.headD (some []) with
    | none=>exact ⟨hrecord,nofun⟩
    | some cccId=>
      have happlied : (k.env.calls.headD .done).applied=false:=by
        rcases h with (h | h) | h
        · cases hguid.symm.trans h
        · cases hcccId.symm.trans h
        · exact h
      dsimp only [Option.map_some]
      rw [bind_modify]
      exact stateFirstSave_unapplied happlied hrecord

theorem holds_stateEnsure_some (hloaded : k.stateLoaded=false) (hk : RecordHolds key k)
    (hboot : BootReads k.env) : RecordHolds key (stateEnsure k).2 ∧
      ∀ k', stateEnsure k=(.ok true,k')→Holds (some key) k':=by
  obtain ⟨st,hst,hversion,hkey⟩:=hk
  unfold stateEnsure
  rw [bind_gets,hloaded]
  simp only [Bool.false_eq_true,if_false]
  unfold rmemReadWithHeader
  rw [bind_assoc,bind_apply,seCall_apply]
  unfold BootReads at hboot
  cases ho : k.env.calls.headD .done with
  | done=>
    have hread : readHeadered stateSize (headered moduleIdPiv 0 stateName st.bytes)=_:=
      readHeadered_headered (by rw [PivState.bytes_length]; decide)
    rw [if_neg (by rw [PivState.bytes_length]; decide)] at hread
    have hvalid : validState (moduleIdPiv,st.bytes)=true:=by
      simp [validState,PivState.bytes_length,PivState.ofBytes_bytes,hversion]
    simp only [Chip.perform,Chip.rmemRead_some stateSlot_lt hst,bind_pure_left,hread,hvalid,if_true,bind_modify,
      PivState.ofBytes_bytes]
    refine ⟨⟨st,hst,hversion,hkey⟩,fun k' h=>?_⟩
    cases h
    refine ⟨rfl,hversion,fun key' hkey'=>?_,fun key' hkey'=>?_⟩
    · cases hkey'
      exact ⟨st,hst,hversion,hkey⟩
    · cases hkey'
      exact hkey
  | powerLost applied=>
    simp only [Chip.perform,Chip.rmemRead_chip,ite_self]
    exact ⟨⟨st,hst,hversion,hkey⟩,fun k' h=>by cases h⟩
  | failed e applied=>
    rw [ho] at hboot
    simp only [Chip.perform,Chip.rmemRead_chip,ite_self,bind_pure_left]
    obtain ⟨hrmem,hne⟩:=@stateInit_unapplied
      {k.withChip k.badge.chip with env:={k.env with calls:=k.env.calls.tail}} _ hst hboot
    exact ⟨⟨st,hrmem,hversion,hkey⟩,fun k' h=>absurd (congrArg Prod.fst h) hne⟩

theorem cleanup_loaded (shortReads : Bool) : Fixes Keys.stateLoaded (cleanupFido2Orphans shortReads):=by
  intro loaded
  have hframed : Framed fun k=>k.stateLoaded=loaded:=fun _ _ h _ hloaded _=>hloaded.trans h
  refine Keeps.bind (Keeps.forM fun slot=>?_) fun _=>Keeps.forM fun slot=>?_
  · refine Keeps.bind (hframed.undrawn.rmemReadWithHeader _ _) fun reply=>?_
    cases reply with
    | error e=>exact Keeps.pure _
    | ok r=>exact Keeps.when fun _=>hframed.undrawn.seCall fun _ hk=>hk
  · refine Keeps.bind (Keeps.bind (hframed.undrawn.read (Chip.rmemRead_chip _)) fun reply=>?_) fun used=>?_
    · cases reply <;> exact Keeps.pure _
    · exact Keeps.ite (fun _=>Keeps.pure _) fun _=>Keeps.bind (hframed.undrawn.eccSlotUsed slot) fun _=>
        Keeps.when fun _=>hframed.undrawn.seCall fun _ hk=>hk

/-- A device and the key that was acknowledged last. -/
structure Acked where
  dev : Device
  key : Option (ByteArr 32):=none

def Acked.step (cr : PivCrypto) (shortReads : Bool) (a : Acked) (i : DeviceInput) : Acked where
  dev:=(a.dev.respond cr shortReads i).2
  key:=match i.op, (a.dev.respond cr shortReads i).1 with
    | .apdu raw, some reply=>match commandOf a.dev.ctx raw with
      | some c=>ackedAfter a.key c reply.sw
      | none=>a.key
    | _, _=>a.key

def Device.bootKeys (d : Device) (e : Env) : Keys:=d.powerCut.ctx.be.given e

/-- The condition on a step: once a key is acknowledged, its record is replaced as a whole or not at all. -/
def KeyKept (shortReads : Bool) (a : Acked) (i : DeviceInput) : Prop:=
  a.key≠none→match i.op with
    | .apdu raw=>a.dev.on=true→a.dev.ctx.app.mgmtAuthenticated=true→∀ c∈commandOf a.dev.ctx raw,
      c.ins=insSetMgmtKey→newKey c.data≠none → SavesWell i.env.calls
    | .boot=>match cleanupFido2Orphans shortReads (a.dev.bootKeys i.env) with
      | (.ok _,k)=>BootReads k.env
      | (.error _,_)=>True
    | _=>True

structure Acked.Kept (a : Acked) : Prop where
  holds : a.dev.on=true→Holds a.key a.dev.ctx.be
  recorded : Recorded a.key a.dev.ctx.be

theorem Holds.recorded {acked : Option (ByteArr 32)} (h : Holds acked k) : Recorded acked k:=h.record

theorem Recorded.of_rmem {acked : Option (ByteArr 32)} {k k' : Keys} (h : Recorded acked k)
    (hrmem : k'.badge.chip.rmem stateSlot=k.badge.chip.rmem stateSlot) : Recorded acked k':=
  fun key hkey=>(h key hkey).of_rmem hrmem

section Runs

variable {cr : PivCrypto} {shortReads : Bool} {a : Acked}

theorem respond_apdu {d : Device} (hon : d.on=true) (raw : Bytes) (e : Env) :
    d.respond cr shortReads ⟨.apdu raw,e⟩=match processApdu (pivBackend cr) raw {d.ctx with be:=d.ctx.be.given e} with
      | (.ok reply,ctx)=>(some reply,{ctx,on:=true})
      | (.error _,ctx)=>(none,({ctx,on:=true} : Device).powerCut):=by
  obtain ⟨ctx,on⟩:=d
  cases hon
  rfl

theorem respond_boot (d : Device) (e : Env) :
    d.respond cr shortReads ⟨.boot,e⟩=match pivInit shortReads (d.bootKeys e) with
      | (.ok on,be)=>(none,{ctx:={d.powerCut.ctx with be},on})
      | (.error _,be)=>(none,({ctx:={d.powerCut.ctx with be}} : Device).powerCut):=rfl

def LeavesHeld (a : Acked) (raw : Bytes) : Except PowerLost Reply × Ctx Keys→Prop
  | (.ok reply,s')=>Holds (match commandOf a.dev.ctx raw with
    | some c=>ackedAfter a.key c reply.sw
    | none=>a.key) s'.be
  | (.error _,s')=>Recorded a.key s'.be

theorem kept_apdu (ha : a.Kept) {raw : Bytes} {e : Env} (hon : a.dev.on=true)
    (hkept : a.key≠none→a.dev.ctx.app.mgmtAuthenticated=true→∀ c∈commandOf a.dev.ctx raw,
      c.ins=insSetMgmtKey→newKey c.data≠none → SavesWell e.calls) :
    (a.step cr shortReads ⟨.apdu raw,e⟩).Kept:=by
  set s : Ctx Keys:={a.dev.ctx with be:=a.dev.ctx.be.given e} with hs
  have hholds : Holds a.key s.be:=(framed_holds a.key) _ _ (ha.holds hon) rfl rfl rfl
  have hprocess : LeavesHeld a raw (processApdu (pivBackend cr) raw s):=by
    unfold LeavesHeld
    have hcommand : commandOf s raw=commandOf a.dev.ctx raw:=rfl
    cases hc : commandOf a.dev.ctx raw with
    | none=>
      obtain ⟨reply,app,hprocess,-⟩:=@processApdu_other _ (pivBackend cr) s raw (hcommand.trans hc)
      rw [hprocess]
      exact hholds
    | some c=>
      rw [processApdu_command (hcommand.trans hc)]
      by_cases hins : c.ins=insSetMgmtKey
      · have hset:=@holds_cmdSetMgmtKey cr a.key s hholds c hins fun hsome hauth hnew=>
          hkept hsome hauth c hc hins hnew
        have hdispatch : dispatch (pivBackend cr) c=cmdSetMgmtKey (pivBackend cr) c:=by
          simp only [dispatch,hins]
          rfl
        rw [hdispatch,bind_apply]
        cases hr : cmdSetMgmtKey (pivBackend cr) c s with
        | mk r s'=>
          rw [hr] at hset
          cases r <;> exact hset
      · have hkeeps:=keeps_iff.mp (@holds_dispatch cr a.key c hins) s hholds
        rw [bind_apply]
        cases hr : dispatch (pivBackend cr) c s with
        | mk r s'=>
          rw [hr] at hkeeps
          cases r with
          | error e=>exact hkeeps.recorded
          | ok reply=>
            change Holds (ackedAfter a.key c reply.sw) s'.be
            rw [ackedAfter,if_neg fun h=>hins h.1]
            exact hkeeps
  unfold Acked.step
  rw [respond_apdu hon]
  cases hr : processApdu (pivBackend cr) raw s with
  | mk r s'=>
    rw [hr] at hprocess
    cases r with
    | ok reply=>exact ⟨fun _=>hprocess,Holds.recorded hprocess⟩
    | error e=>exact ⟨(fun hoff=>by cases hoff),Recorded.of_rmem hprocess rfl⟩

theorem kept_boot (ha : a.Kept) {e : Env} (hkept : a.key≠none →
    match cleanupFido2Orphans shortReads (a.dev.bootKeys e) with
      | (.ok _,k)=>BootReads k.env
      | (.error _,_)=>True) : (a.step cr shortReads ⟨.boot,e⟩).Kept:=by
  have hrecorded : Recorded a.key (a.dev.bootKeys e):=ha.recorded.of_rmem rfl
  have hcleanup : Recorded a.key (cleanupFido2Orphans shortReads (a.dev.bootKeys e)).2:=fun key hkey=>
    keeps_iff.mp (cleanup_keeps shortReads) _ (hrecorded key hkey)
  have hloaded : (cleanupFido2Orphans shortReads (a.dev.bootKeys e)).2.stateLoaded=false:=
    (cleanup_loaded shortReads).apply _
  have hinit : pivInit shortReads (a.dev.bootKeys e)=(cleanupFido2Orphans shortReads >>= fun _=>stateEnsure)
      (a.dev.bootKeys e):=rfl
  have hstart : Recorded a.key (pivInit shortReads (a.dev.bootKeys e)).2 ∧
      ∀ k, pivInit shortReads (a.dev.bootKeys e)=(.ok true,k)→Holds a.key k:=by
    rw [hinit,bind_apply]
    cases hc : cleanupFido2Orphans shortReads (a.dev.bootKeys e) with
    | mk r k=>
      rw [hc] at hcleanup hloaded hkept
      cases r with
      | error e=>exact ⟨hcleanup,fun k h=>by cases h⟩
      | ok u=>
        cases hkey : a.key with
        | none=>exact ⟨(fun key h=>by cases h),holds_stateEnsure_none hloaded⟩
        | some key=>
          obtain ⟨hrecord,hholds⟩:=holds_stateEnsure_some hloaded (hcleanup key hkey) (hkept (by simp [hkey]))
          exact ⟨fun key' hkey'=>Option.some_inj.mp hkey' ▸ hrecord,hholds⟩
  unfold Acked.step
  rw [respond_boot]
  cases hr : pivInit shortReads (a.dev.bootKeys e) with
  | mk r k=>
    rw [hr] at hstart
    obtain ⟨hrec,hholds⟩:=hstart
    cases r with
    | ok on=>exact ⟨fun hon=>hholds k (by rw [show on=true from hon]),hrec⟩
    | error e=>exact ⟨(fun hoff=>by cases hoff),hrec.of_rmem rfl⟩

theorem Acked.Kept.step (ha : a.Kept) {i : DeviceInput} (hkept : KeyKept shortReads a i) :
    (a.step cr shortReads i).Kept:=by
  obtain ⟨op,e⟩:=i
  cases op with
  | apdu raw=>
    by_cases hon : a.dev.on=true
    · exact kept_apdu ha hon fun hsome=>hkept hsome hon
    · have hrespond : a.dev.respond cr shortReads ⟨.apdu raw,e⟩=(none,a.dev):=by
        simp only [Device.respond]
        rw [if_pos (by simpa using hon)]
      unfold Acked.step
      rw [hrespond]
      exact ha
  | deselect=>exact ⟨ha.holds,ha.recorded⟩
  | boot=>exact kept_boot ha hkept
  | others badge=>
    have hmemory:=pivMemory_shared a.dev.ctx.be badge
    exact ⟨fun hon=>framed_holds a.key _ _ (ha.holds hon) rfl rfl hmemory,
      ha.recorded.of_rmem (pivMemory_rmem hmemory rfl)⟩

end Runs

def authReply (tag : ℕ) (block : ByteArr 16) : Reply where
  data:=(dynAuth 32 256 tag block.toList).getD []
  sw:=swOk

/-- Whatever becomes of its calls, the device encrypts its witness and the host's challenge with this key. -/
structure OnlyKey (cr : PivCrypto) (d : Device) (key : ByteArr 32) : Prop where
  asked : ∀ e : Env,
    let r:=drawWitness (pivBackend cr) {d.ctx with be:=d.ctx.be.given e}
    r.1=.ok (authReply tagWitness (cr.aesEncrypt key r.2.app.witness)) ∧ r.2.app.witnessValid=true
  answered : ∀ (e : Env) (witness challenge : Bytes),
    (answerWitness (pivBackend cr) witness challenge {d.ctx with be:=d.ctx.be.given e}).1 =
      .ok (if d.ctx.app.witnessValid ∧ d.ctx.app.witness.toList=witness then
        authReply tagResponse (cr.aesEncrypt key (fit 16 challenge)) else {sw:=swSecurityStatus})

theorem answerBuilt_dynAuth {s : Ctx Keys} {tag : ℕ} (htag : tag ≤ 0xFF) (block : ByteArr 16) (failed : UInt16) :
    answerBuilt (dynAuth 32 256 tag block.toList) failed s=(.ok (authReply tag block),s):=by
  have hsome : dynAuth 32 256 tag block.toList=_:=dynAuth_some htag (by simp) (by simp) (by simp)
  rw [authReply,hsome]
  rfl

theorem cbMgmtEncrypt_loaded {cr : PivCrypto} (h : k.stateLoaded=true) (block : ByteArr 16) :
    cbMgmtEncrypt cr block k=(.ok (some (cr.aesEncrypt k.state.mgmtKey block)),k):=by
  unfold cbMgmtEncrypt stateEnsure
  simp only [bind_apply,gets_apply,h,if_true,pure_apply,Bool.not_true,Bool.false_eq_true,if_false]

theorem onlyKey_of_holds {cr : PivCrypto} {d : Device} (h : Holds (some key) d.ctx.be) :
    OnlyKey cr d key:=by
  have hencrypt (s : Ctx Keys) (hloaded : s.be.stateLoaded=true) (hkey : s.be.state.mgmtKey=key) (block : ByteArr 16) :
      call ((pivBackend cr).mgmtEncrypt block) s=(.ok (some (cr.aesEncrypt key block)),s):=by
    change ((cbMgmtEncrypt cr block s.be).1,{s with be:=(cbMgmtEncrypt cr block s.be).2})=_
    rw [cbMgmtEncrypt_loaded hloaded,hkey]
  have hkey : d.ctx.be.state.mgmtKey=key:=h.memory key rfl
  constructor
  · intro e
    have hrng : call (pivBackend cr).rng {d.ctx with be:=d.ctx.be.given e} =
        (.ok (some (fit 16 (e.random.headD []))),{ d.ctx with be:=
          {d.ctx.be.given e with env:={e with random:=e.random.tail}} }):=rfl
    unfold drawWitness updateApp
    rw [bind_of_ok hrng]
    dsimp only
    rw [bind_modify,bind_of_ok (hencrypt _ ?isLoaded ?isKey _)]
    case isLoaded=>exact h.loaded
    case isKey=>exact hkey
    dsimp only
    rw [bind_modify,answerBuilt_dynAuth (by decide)]
    exact ⟨rfl,rfl⟩
  · intro e witness challenge
    unfold answerWitness appGets updateApp
    rw [bind_gets]
    by_cases hvalid : d.ctx.app.witnessValid=true ∧ d.ctx.app.witness.toList=witness
    · rw [if_neg (by simpa using hvalid),if_pos hvalid,bind_of_ok (hencrypt _ ?isLoaded' ?isKey' _)]
      case isLoaded'=>exact h.loaded
      case isKey'=>exact hkey
      dsimp only
      rw [bind_modify,answerBuilt_dynAuth (by decide)]
    · rw [if_pos (by simpa [or_iff_not_imp_left] using hvalid),if_neg hvalid]
      rfl

def Acked.start (keys : Keys) (respMax : ℕ) : Acked:={dev:={ctx:={be:=keys,respMax}}}

/-- In a run in which the record of an acknowledged key is replaced as a whole or not at all, the key that was
acknowledged last is the one that authenticates. -/
theorem management_key_kept (cr : PivCrypto) (shortReads : Bool) (keys : Keys) (respMax : ℕ) (is : List DeviceInput)
    (h : Runs.AlongRun (Acked.step cr shortReads) (KeyKept shortReads) (Acked.start keys respMax) is) :
    ∀ key, (Runs.run (Acked.step cr shortReads) (Acked.start keys respMax) is).key=some key →
      (Runs.run (Acked.step cr shortReads) (Acked.start keys respMax) is).dev.on=true →
      OnlyKey cr (Runs.run (Acked.step cr shortReads) (Acked.start keys respMax) is).dev key:=by
  intro key hkey hon
  have hkept : (Runs.run (Acked.step cr shortReads) (Acked.start keys respMax) is).Kept:=
    Runs.run_invariant (I:=Acked.Kept) (fun _ _ hi ha=>ha.step hi) ⟨nofun,nofun⟩ h
  have hholds:=hkept.holds hon
  rw [hkey] at hholds
  exact onlyKey_of_holds hholds

instance (calls : List SeOutcome) : Decidable (SavesWell calls):=by
  unfold SavesWell
  split <;> infer_instance

instance (e : Env) : Decidable (BootReads e):=by
  unfold BootReads
  split <;> infer_instance

instance (shortReads : Bool) (a : Acked) (i : DeviceInput) : Decidable (KeyKept shortReads a i):=by
  unfold KeyKept
  refine @instDecidableForall _ _ _ ?_
  split
  · infer_instance
  · split <;> infer_instance
  · infer_instance

def blankKeys : Keys:={badge:={chip:={ecc:=fun _=>none,rmem:=fun _=>none}}}

def setKeyApdu : Bytes:=[0x00,insSetMgmtKey,0xFF,0xFF,0x23,algAes256,key9B,0x20]++List.replicate 32 0xAB

def setKeyInputs : List DeviceInput:=
  [⟨.boot,{}⟩,⟨.apdu drawApdu,{}⟩,⟨.apdu answerApdu,{}⟩,⟨.apdu setKeyApdu,{}⟩]

theorem management_key_kept_boot :
    let a:=Runs.run (Acked.step .plain true) (Acked.start blankKeys 2048) (setKeyInputs++[⟨.boot,{}⟩])
    a.key=some (fit 32 (List.replicate 32 0xAB)) ∧ a.dev.on=true ∧
      OnlyKey .plain a.dev (fit 32 (List.replicate 32 0xAB)):=by
  have hkey : (Runs.run (Acked.step .plain true) (Acked.start blankKeys 2048) (setKeyInputs++[⟨.boot,{}⟩])).key =
      some (fit 32 (List.replicate 32 0xAB)):=by decide +kernel
  have hon : (Runs.run (Acked.step .plain true) (Acked.start blankKeys 2048) (setKeyInputs++[⟨.boot,{}⟩])).dev.on =
      true:=by decide +kernel
  exact ⟨hkey,hon,management_key_kept .plain true blankKeys 2048 _ (by decide +kernel) _ hkey hon⟩

/-- One read that fails at power-on brings the default key back. -/
theorem management_key_lost : ¬ ∀ (is : List DeviceInput) (key : ByteArr 32),
    (Runs.run (Acked.step .plain true) (Acked.start blankKeys 2048) is).key=some key →
    (Runs.run (Acked.step .plain true) (Acked.start blankKeys 2048) is).dev.on=true →
    OnlyKey .plain (Runs.run (Acked.step .plain true) (Acked.start blankKeys 2048) is).dev key:=by
  intro h
  have hlost:=(h (setKeyInputs++[⟨.boot,{calls:=List.replicate 11 .done++[.failed .error false]}⟩])
    (fit 32 (List.replicate 32 0xAB)) (by decide +kernel) (by decide +kernel)).asked {}
  exact absurd hlost.1 (by decide +kernel)

end CdcBadge.Piv
