import CdcBadge.PinStorage
import CdcBadge.PivKeys

/-!
# What the PIV commands leave alone

The applet changes its backend through its calls alone, and the backend changes the chip in
the slots of its range.
-/

namespace CdcBadge.Piv

open Handler
open Pin (Badge PowerLost)

section Commands

variable {β : Type} {b : Backend β}

def commandOf (s : Ctx β) (raw : Bytes) : Option Cmd:=
  if s.respMax < 2 then none
  else (Scard.apduParse raw).bind fun a=>
    if isGetResponse a ∨ isChained a then none else (s.app.chain.complete a).toOption

/-- An APDU that completes no command leaves the backend alone, and unless it is a `GET RESPONSE` what is left of a
response too. -/
theorem processApdu_other {s : Ctx β} {raw : Bytes} (h : commandOf s raw=none) :
    ∃ reply app, processApdu b raw s=(.ok reply,{s with app}) ∧
      ((∀ a, Scard.apduParse raw=some a→isGetResponse a=false)→app.resp=s.app.resp):=by
  unfold commandOf at h
  unfold processApdu
  rw [bind_gets]
  by_cases hsmall : s.respMax < 2
  · rw [if_pos hsmall]
    exact ⟨_,s.app,rfl,fun _=>rfl⟩
  rw [if_neg hsmall] at h ⊢
  cases hparse : Scard.apduParse raw with
  | none=>exact ⟨_,s.app,rfl,fun _=>rfl⟩
  | some a=>
    rw [hparse,Option.bind_some] at h
    simp only [processParsed]
    by_cases hget : isGetResponse a=true
    · have hskip {app : Session} (hother : ∀ a', some a=some a'→isGetResponse a'=false) : app.resp=s.app.resp:=
        absurd hget (by rw [hother a rfl]; decide)
      rw [if_pos hget,cmdGetResponse]
      simp only [appGets,bind_gets]
      split
      · exact ⟨_,s.app,rfl,hskip⟩
      · split
        · exact ⟨_,s.app,rfl,hskip⟩
        · exact ⟨_,_,rfl,hskip⟩
    · rw [if_neg hget]
      simp only [appGets,bind_gets]
      by_cases hchained : isChained a=true
      · rw [if_pos hchained]
        cases (s.app.chain.opened a).extend a with
        | ok chain=>exact ⟨_,_,rfl,fun _=>rfl⟩
        | error sw=>exact ⟨_,_,rfl,fun _=>rfl⟩
      · rw [if_neg hchained]
        rw [if_neg (by simp [hget,hchained])] at h
        cases hc : s.app.chain.complete a with
        | ok c=>
          rw [hc] at h
          contradiction
        | error sw=>exact ⟨_,_,rfl,fun _=>rfl⟩

theorem processApdu_command {s : Ctx β} {raw : Bytes} {c : Cmd} (h : commandOf s raw=some c) :
    processApdu b raw s=(dispatch b c >>= fun reply=>resetChain >>= fun _=>pure reply) s:=by
  unfold commandOf at h
  unfold processApdu
  rw [bind_gets]
  by_cases hsmall : s.respMax < 2
  · rw [if_pos hsmall] at h
    contradiction
  rw [if_neg hsmall] at h ⊢
  cases hparse : Scard.apduParse raw with
  | none=>
    rw [hparse] at h
    contradiction
  | some a=>
    rw [hparse,Option.bind_some] at h
    simp only [processParsed]
    by_cases hskip : isGetResponse a=true ∨ isChained a=true
    · rw [if_pos (by simpa using hskip)] at h
      contradiction
    · obtain ⟨hget,hchained⟩:=not_or.mp hskip
      rw [if_neg (by simpa using hskip)] at h
      rw [if_neg hget]
      simp only [appGets,bind_gets,if_neg hchained]
      cases hc : s.app.chain.complete a with
      | error sw=>
        rw [hc] at h
        contradiction
      | ok c'=>
        rw [hc] at h
        cases h
        rfl

/-- The calls other than those that make keys and set the management key keep `P`. -/
structure Backend.Keeps (b : Backend β) (P : β→Prop) : Prop where
  keyPresent : ∀ keyRef, Handler.Keeps P (b.keyPresent keyRef)
  keySign : ∀ keyRef digest, Handler.Keeps P (b.keySign keyRef digest)
  keyPubkey : ∀ keyRef, Handler.Keeps P (b.keyPubkey keyRef)
  keyEcdh : ∀ point, Handler.Keeps P (b.keyEcdh point)
  pinVerify : ∀ pin, Handler.Keeps P (b.pinVerify pin)
  mgmtEncrypt : ∀ block, Handler.Keeps P (b.mgmtEncrypt block)
  stateLoad : Handler.Keeps P b.stateLoad
  objectLoad : ∀ obj, Handler.Keeps P (b.objectLoad obj)
  objectStore : ∀ obj data, Handler.Keeps P (b.objectStore obj data)
  rng : Handler.Keeps P b.rng

variable {P : β→Prop}

theorem keeps_call {α : Type} {m : Handler PowerLost β α} (h : Keeps P m) :
    Keeps (fun s=>P s.be) (call m : PivM β α):=
  Triple.zoom h (fun _ hs=>hs) (fun _ _ _ _ ht=>ht) fun _ _ _ _ ht=>ht

theorem keeps_updateApp (f : Session → Session) : Keeps (fun s=>P s.be) (updateApp f : PivM β Unit):=
  Keeps.modify fun _ h=>h

theorem keeps_emit (payload : Bytes) (le : ℕ) : Keeps (fun s=>P s.be) (emit payload le : PivM β Reply):=
  Keeps.bind (Keeps.gets _) fun _=>Keeps.ite (fun _=>Keeps.pure _) fun _=>
    Keeps.bind (keeps_updateApp _) fun _=>Keeps.pure _

theorem keeps_emitBuilt (built : Option Bytes) (le : ℕ) (failed : UInt16) :
    Keeps (fun s=>P s.be) (emitBuilt built le failed : PivM β Reply):=by
  cases built with
  | none=>exact Keeps.pure _
  | some payload=>exact keeps_emit payload le

theorem keeps_answerBuilt (built : Option Bytes) (failed : UInt16) :
    Keeps (fun s=>P s.be) (answerBuilt built failed : PivM β Reply):=by
  cases built <;> exact Keeps.pure _

theorem keeps_pinStatus : Keeps (fun s=>P s.be) (pinStatus b):=
  Keeps.bind (Keeps.gets _) fun _=>Keeps.ite (fun _=>Keeps.pure _) fun _=>
    Keeps.bind (Keeps.gets _) fun _=>Keeps.pure _

variable (h : b.Keeps P)
include h

theorem Backend.Keeps.cmdVerify (c : Cmd) : Handler.Keeps (fun s=>P s.be) (cmdVerify b c):=by
  unfold Piv.cmdVerify
  refine Keeps.ite (fun _=>Keeps.pure _) fun _=>Keeps.ite (fun _=>?_) fun _=>Keeps.ite (fun _=>?_) fun _=>?_
  · exact Keeps.bind (keeps_updateApp _) fun _=>Keeps.pure _
  · exact Keeps.bind (Keeps.gets _) fun _=>Keeps.ite (fun _=>Keeps.pure _) fun _=>keeps_pinStatus
  refine Keeps.ite (fun _=>Keeps.pure _) fun _=>Keeps.bind (Keeps.gets _) fun _=>?_
  refine Keeps.ite (fun _=>Keeps.pure _) fun _=>Keeps.ite (fun _=>Keeps.pure _) fun _=>?_
  refine Keeps.ite (fun _=>Keeps.pure _) fun _=>Keeps.bind (keeps_call (h.pinVerify _)) fun _=>?_
  exact Keeps.ite (fun _=>Keeps.bind (keeps_updateApp _) fun _=>Keeps.pure _) fun _=>keeps_pinStatus

theorem Backend.Keeps.mgmtAuth (inner : Bytes) : Handler.Keeps (fun s=>P s.be) (mgmtAuth b inner):=by
  unfold Piv.mgmtAuth
  split
  · refine Keeps.ite (fun _=>Keeps.bind (keeps_call h.rng) fun witness=>?_) fun _=>Keeps.pure _
    cases witness with
    | none=>exact Keeps.pure _
    | some witness=>
      refine Keeps.bind (keeps_updateApp _) fun _=>Keeps.bind (keeps_call (h.mgmtEncrypt _)) fun enc=>?_
      cases enc with
      | none=>exact Keeps.pure _
      | some enc=>exact Keeps.bind (keeps_updateApp _) fun _=>keeps_answerBuilt _ _
  · refine Keeps.ite (fun _=>Keeps.bind (Keeps.gets _) fun _=>Keeps.ite (fun _=>?_) fun _=>?_) fun _=>Keeps.pure _
    · exact Keeps.bind (keeps_updateApp _) fun _=>Keeps.pure _
    · refine Keeps.bind (keeps_call (h.mgmtEncrypt _)) fun enc=>?_
      cases enc with
      | none=>exact Keeps.pure _
      | some enc=>exact Keeps.bind (keeps_updateApp _) fun _=>keeps_answerBuilt _ _
  · exact Keeps.pure _

theorem Backend.Keeps.signChallenge (keyRef : UInt8) (challenge : Bytes) (le : ℕ) :
    Handler.Keeps (fun s=>P s.be) (signChallenge b keyRef challenge le):=by
  unfold Piv.signChallenge
  refine Keeps.bind (Keeps.gets _) fun _=>Keeps.ite (fun _=>Keeps.pure _) fun _=>?_
  refine Keeps.bind (keeps_call (h.keyPresent _)) fun _=>Keeps.ite (fun _=>Keeps.pure _) fun _=>?_
  refine Keeps.bind (keeps_call (h.keySign _ _)) fun rs=>?_
  cases rs with
  | none=>exact Keeps.pure _
  | some rs=>exact Keeps.bind (Keeps.when fun _=>keeps_updateApp _) fun _=>keeps_emitBuilt _ _ _

theorem Backend.Keeps.cmdGeneralAuth (c : Cmd) : Handler.Keeps (fun s=>P s.be) (cmdGeneralAuth b c):=by
  unfold Piv.cmdGeneralAuth
  split
  · exact Keeps.pure _
  · refine Keeps.ite (fun _=>h.mgmtAuth _) fun _=>Keeps.ite (fun _=>Keeps.pure _) fun _=>?_
    split
    · refine Keeps.bind (Keeps.gets _) fun _=>Keeps.ite (fun _=>Keeps.pure _) fun _=>?_
      refine Keeps.ite (fun _=>Keeps.pure _) fun _=>Keeps.bind (keeps_call (h.keyEcdh _)) fun shared=>?_
      cases shared with
      | none=>exact Keeps.pure _
      | some shared=>exact keeps_emitBuilt _ _ _
    · split
      · exact Keeps.pure _
      · exact Keeps.ite (fun _=>Keeps.pure _) fun _=>h.signChallenge _ _ _

theorem Backend.Keeps.cmdGetData (c : Cmd) : Handler.Keeps (fun s=>P s.be) (cmdGetData b c):=by
  unfold Piv.cmdGetData
  split
  · exact Keeps.pure _
  · refine Keeps.ite (fun _=>keeps_emitBuilt _ _ _) fun _=>Keeps.bind (keeps_call h.stateLoad) fun st=>?_
    cases st with
    | none=>exact Keeps.pure _
    | some st=>
      refine Keeps.bind (Keeps.ite (fun _=>Keeps.pure _) fun _=>Keeps.ite (fun _=>Keeps.pure _) fun _=>
        Keeps.ite (fun _=>keeps_call (h.objectLoad _)) fun _=>Keeps.pure _) fun body=>?_
      cases body with
      | none=>exact Keeps.pure _
      | some body=>exact Keeps.ite (fun _=>Keeps.pure _) fun _=>keeps_emitBuilt _ _ _

theorem Backend.Keeps.cmdGetMetadata (c : Cmd) : Handler.Keeps (fun s=>P s.be) (cmdGetMetadata b c):=by
  unfold Piv.cmdGetMetadata
  refine Keeps.bind (keeps_call h.stateLoad) fun st=>?_
  cases st with
  | none=>exact Keeps.pure _
  | some st=>
    refine Keeps.ite (fun _=>keeps_emit _ _) fun _=>Keeps.ite (fun _=>?_) fun _=>Keeps.pure _
    refine Keeps.bind (keeps_call (h.keyPresent _)) fun _=>Keeps.ite (fun _=>Keeps.pure _) fun _=>?_
    exact Keeps.bind (keeps_call (h.keyPubkey _)) fun _=>keeps_emit _ _

theorem Backend.Keeps.cmdPutData (c : Cmd) : Handler.Keeps (fun s=>P s.be) (cmdPutData b c):=by
  unfold Piv.cmdPutData
  refine Keeps.bind (Keeps.gets _) fun _=>Keeps.ite (fun _=>Keeps.pure _) fun _=>?_
  split
  · refine Keeps.ite (fun _=>Keeps.bind (keeps_call (h.objectStore _ _)) fun _=>?_) fun _=>
      Keeps.ite (fun _=>Keeps.pure _) fun _=>Keeps.pure _
    exact Keeps.ite (fun _=>Keeps.pure _) fun _=>Keeps.pure _
  · exact Keeps.pure _

omit h in
theorem keeps_cmdGenerate {c : Cmd} (hmake : Handler.Keeps P (b.keyGenerate c.p2)) :
    Handler.Keeps (fun s=>P s.be) (cmdGenerate b c):=by
  unfold cmdGenerate
  refine Keeps.bind (Keeps.gets _) fun _=>Keeps.ite (fun _=>Keeps.pure _) fun _=>?_
  refine Keeps.ite (fun _=>Keeps.pure _) fun _=>Keeps.ite (fun _=>Keeps.pure _) fun _=>?_
  refine Keeps.bind (keeps_call hmake) fun pub=>?_
  cases pub with
  | none=>exact Keeps.pure _
  | some pub=>exact keeps_emitBuilt _ _ _

omit h in
theorem keeps_cmdSetMgmtKey {c : Cmd} (hset : ∀ alg key, Handler.Keeps P (b.mgmtSetKey alg key)) :
    Handler.Keeps (fun s=>P s.be) (cmdSetMgmtKey b c):=by
  unfold cmdSetMgmtKey
  refine Keeps.bind (Keeps.gets _) fun _=>Keeps.ite (fun _=>Keeps.pure _) fun _=>?_
  split
  · refine Keeps.ite (fun _=>Keeps.pure _) fun _=>Keeps.ite (fun _=>Keeps.pure _) fun _=>?_
    refine Keeps.ite (fun _=>Keeps.pure _) fun _=>Keeps.bind (keeps_call (hset _ _)) fun _=>?_
    exact Keeps.ite (fun _=>Keeps.pure _) fun _=>Keeps.pure _
  · exact Keeps.pure _

/-- Every command keeps what the calls keep, apart from the two whose calls are looked at on their own. -/
theorem Backend.Keeps.dispatch (c : Cmd) (hgenerate : c.ins=insGenerateKeypair→Handler.Keeps (fun s=>P s.be) (cmdGenerate b c))
    (hset : c.ins=insSetMgmtKey→Handler.Keeps (fun s=>P s.be) (cmdSetMgmtKey b c)) :
    Handler.Keeps (fun s=>P s.be) (dispatch b c):=by
  unfold Piv.dispatch
  refine Keeps.ite (fun _=>Keeps.bind (keeps_updateApp _) fun _=>keeps_emitBuilt _ _ _) fun _=>?_
  refine Keeps.ite (fun _=>h.cmdGetData c) fun _=>Keeps.ite (fun _=>h.cmdVerify c) fun _=>?_
  refine Keeps.ite (fun _=>h.cmdGeneralAuth c) fun _=>Keeps.ite hgenerate fun _=>?_
  refine Keeps.ite (fun _=>h.cmdPutData c) fun _=>Keeps.ite (fun _=>h.cmdGetMetadata c) fun _=>?_
  exact Keeps.ite hset fun _=>Keeps.ite (fun _=>Keeps.pure _) fun _=>Keeps.pure _

end Commands

theorem swMoreData_high (left : ℕ) : swMoreData left >>> 8=0x61:=by
  have hall : ∀ n : Fin 256, (0x6100 ||| UInt16.ofNat n.val) >>> 8=0x61:=by decide +kernel
  unfold swMoreData
  by_cases h : 0xFF < left
  · rw [if_pos h]
    decide
  · rw [if_neg h]
    exact hall ⟨left,by omega⟩

theorem swMoreData_ne_ok (left : ℕ) : swMoreData left≠swOk:=by
  intro h
  have hhigh:=swMoreData_high left
  rw [h] at hhigh
  exact absurd hhigh (by decide)

theorem tlvWrite_length {cap tag : ℕ} {buf value out : Bytes} (h : tlvWrite cap buf tag value=some out) :
    out.length ≤ cap:=by
  unfold tlvWrite at h
  dsimp only at h
  split at h
  · cases h
  · cases h
    omega

theorem tlvWrites_length {cap : ℕ} {items : List (ℕ × Bytes)} {out : Bytes} (h : tlvWrites cap items=some out) :
    out.length ≤ cap:=by
  have hfold : ∀ (items : List (ℕ × Bytes)) (buf : Bytes), buf.length ≤ cap →
      items.foldlM (fun buf item=>tlvWrite cap buf item.1 item.2) buf=some out → out.length ≤ cap:=by
    intro items
    induction items with
    | nil=>
      intro buf hbuf h
      cases h
      exact hbuf
    | cons item items ih=>
      intro buf _ h
      obtain ⟨next,hnext,hrest⟩:=Option.bind_eq_some_iff.mp (List.foldlM_cons.symm.trans h)
      exact ih next (tlvWrite_length hnext) hrest
  exact hfold items [] (Nat.zero_le _) h

theorem dynAuth_length {innerCap tag : ℕ} {value payload : Bytes} (h : payload∈dynAuth innerCap buildSize tag value) :
    payload.length ≤ respBufferSize:=by
  obtain ⟨tmpl,-,hpayload⟩:=Option.bind_eq_some_iff.mp h
  exact tlvWrites_length hpayload

theorem headerFields_length (moduleId flags : UInt8) (name : Bytes) (n : ℕ) :
    (headerFields moduleId flags name n).length=20:=by
  simp [headerFields,rmemNameLen]

theorem readHeadered_headered {payloadMax : ℕ} {moduleId flags : UInt8} {name payload : Bytes}
    (hlen : payload.length ≤ rmemSlotSize-rmemHeaderSize) :
    readHeadered payloadMax (headered moduleId flags name payload) =
      if payloadMax < payload.length then .error .invalidParam else .ok (moduleId,payload):=by
  have hfields:=headerFields_length moduleId flags name payload.length
  have hsize : payload.length ≤ 422:=hlen
  set fields:=headerFields moduleId flags name payload.length with hdef
  have hdata : headered moduleId flags name payload =
      [rmemHeaderMagic,computeHeaderChecksum fields]++fields++payload:=rfl
  have hlo : fields.getD 18 0=UInt8.ofNat payload.length:=by
    simp [hdef,headerFields,rmemNameLen,List.getD_eq_getElem?_getD]
  have hhi : fields.getD 19 0=UInt8.ofNat (payload.length/256):=by
    simp [hdef,headerFields,rmemNameLen,List.getD_eq_getElem?_getD]
  have hfield : ∀ i, i < 20→(headered moduleId flags name payload).getD (i+2) 0=fields.getD i 0:=by
    intro i hi
    simp [hdata,List.getD_eq_getElem?_getD,List.getElem?_append_left (by omega : i < fields.length)]
  have hpayloadLen : (UInt8.ofNat payload.length).toNat+(UInt8.ofNat (payload.length/256)).toNat*256 =
      payload.length:=by
    simp only [UInt8.toNat_ofNat']
    omega
  have hbody : ((headered moduleId flags name payload).drop 2).take 20=fields:=by
    change (fields++payload).take 20=fields
    rw [← hfields,List.take_left]
  have htail : (headered moduleId flags name payload).drop rmemHeaderSize=payload:=by
    change (fields++payload).drop 20=payload
    rw [← hfields,List.drop_left]
  have htotal : (headered moduleId flags name payload).length=22+payload.length:=by
    simp [hdata,hfields]
    omega
  have hmodule : (headered moduleId flags name payload).getD 2 0=moduleId:=rfl
  unfold readHeadered
  simp only [hfield 18 (by omega),hfield 19 (by omega),hlo,hhi,hpayloadLen,htotal,hbody,htail,hmodule]
  rw [if_neg (by simp [rmemHeaderSize]),if_neg (by simp [hdata]),if_neg (by simp [rmemSlotSize,rmemHeaderSize]; omega),
    if_neg (by simp [rmemHeaderSize]),List.take_length]
  split <;> split <;> first | rfl | omega

theorem PivState.bytes_length (st : PivState) : st.bytes.length=stateSize:=by
  simp [PivState.bytes,stateSize]

theorem PivState.ofBytes_bytes (st : PivState) : PivState.ofBytes st.bytes=st:=by
  obtain ⟨version,alg,isDefault,key,guid,cccId,keyFlags⟩:=st
  set data:=PivState.bytes ⟨version,alg,isDefault,key,guid,cccId,keyFlags⟩ with hdata
  have hkey : data.drop 3=key.toList++(guid.toList++(cccId.toList++keyFlags.toList)):=by
    simp [hdata,PivState.bytes]
  have hguid : data.drop 35=guid.toList++(cccId.toList++keyFlags.toList):=by
    rw [← drop_append_arr key (guid.toList++_),← hkey,List.drop_drop]
  have hcccId : data.drop 51=cccId.toList++keyFlags.toList:=by
    rw [← drop_append_arr guid (cccId.toList++_),← hguid,List.drop_drop]
  have hflags : data.drop 65=keyFlags.toList:=by
    rw [← drop_append_arr cccId keyFlags.toList,← hcccId,List.drop_drop]
  unfold PivState.ofBytes
  rw [hkey,hguid,hcccId,hflags,fit_append,fit_append,fit_append,fit_toList]
  rfl

def pivMemory (c : Chip Bytes) : (ℕ→Option EccKey) × (ℕ→Option Bytes):=
  (fun slot=>if pivSlot slot then c.ecc slot else none,fun slot=>if pivSlot slot then c.rmem slot else none)

variable {slot : ℕ}

theorem pivSlot_range (h : slot∈List.range' rmemStart slotCount) : pivSlot slot=true:=by
  simpa [pivSlot] using List.mem_range'_1.mp h

theorem eccSlotFor_range {keyRef : UInt8} (h : eccSlotFor keyRef=some slot) :
    eccStart ≤ slot ∧ slot < eccStart+slotCount:=by
  unfold eccSlotFor at h
  split at h
  · cases h
    decide
  · split at h
    · cases h
      decide
    · split at h
      · cases h
        decide
      · cases h

theorem eccSlotFor_lt {keyRef : UInt8} (h : eccSlotFor keyRef=some slot) : slot < Chip.eccSlotCount:=
  (eccSlotFor_range h).2.trans (by decide)

theorem eccSlotFor_piv {keyRef : UInt8} (h : eccSlotFor keyRef=some slot) : pivSlot slot=true:=by
  rw [pivSlot,Bool.and_eq_true,decide_eq_true_eq,decide_eq_true_eq]
  exact eccSlotFor_range h

theorem pivMemory_ecc {c d : Chip Bytes} (h : pivMemory c=pivMemory d) (hs : pivSlot slot=true) :
    c.ecc slot=d.ecc slot:=by
  have hslot:=congrFun (congrArg Prod.fst h) slot
  simpa only [pivMemory,hs,if_true] using hslot

theorem pivMemory_rmem {c d : Chip Bytes} (h : pivMemory c=pivMemory d) (hs : pivSlot slot=true) :
    c.rmem slot=d.rmem slot:=by
  have hslot:=congrFun (congrArg Prod.snd h) slot
  simpa only [pivMemory,hs,if_true] using hslot

theorem pivMemory_update {c : Chip Bytes} (hs : pivSlot slot=false) (data : Option Bytes) :
    pivMemory {c with rmem:=Function.update c.rmem slot data}=pivMemory c:=by
  refine Prod.ext rfl (funext fun slot'=>?_)
  change (if pivSlot slot' then Function.update c.rmem slot data slot' else none)=if pivSlot slot' then c.rmem slot' else none
  by_cases h : slot'=slot
  · rw [h,hs]
    rfl
  · rw [Function.update_of_ne h]

theorem ecdsaSignDigest_chip (cr : PivCrypto) (slot nonce : ℕ) (digest : ByteArr 32) (c : Chip Bytes) :
    (ecdsaSignDigest cr slot nonce digest c).2=c:=by
  have h:=Chip.eccSigningKey_chip slot c
  unfold ecdsaSignDigest
  split
  · rename_i e c' hc
    rw [hc] at h
    exact h
  · rename_i key c' hc
    rw [hc] at h
    split <;> exact h

theorem pivMemory_shared (k : Keys) (badge : Badge) : pivMemory (k.shared badge).badge.chip=pivMemory k.badge.chip:=by
  refine Prod.ext (funext fun slot=>?_) (funext fun slot=>?_)
  · cases h : pivSlot slot <;> simp [pivMemory,Keys.shared,h]
  · cases h : pivSlot slot <;> simp [pivMemory,Keys.shared,h]

/-- What depends on the record in memory and on the slots of this module alone. -/
def Framed (P : Keys→Prop) : Prop:=∀ k k' : Keys, P k→k'.state=k.state→k'.stateLoaded=k.stateLoaded →
  pivMemory k'.badge.chip=pivMemory k.badge.chip→P k'

/-- What does not depend on what is drawn. -/
def Undrawn (P : Keys→Prop) : Prop:=∀ k env, P k→P {k with env}

def Keys.withChip (k : Keys) (c : Chip Bytes) : Keys:={k with badge:={k.badge with chip:=c}}

section Framed

variable {cr : PivCrypto} {P : Keys→Prop}

theorem keeps_stateEnsure (hloaded : ∀ k, P k→k.stateLoaded=true) : Keeps P stateEnsure:=by
  refine Triple.bind (Q:=fun loaded k=>P k ∧ loaded=true) (Triple.gets fun k hk=>⟨hk,hloaded k hk⟩) fun loaded=>?_
  exact Triple.ite (fun _=>Triple.pure fun k hk=>hk.1) fun h=>fun k hk=>absurd hk.2 h

/-- What depends neither on the copy of the record nor on what is drawn is kept, if a first boot's save keeps it. -/
theorem keeps_stateEnsure_of_save (henv : Undrawn P)
    (hstate : ∀ k state stateLoaded, P k→P {k with state,stateLoaded}) (hsave : Keeps P stateSave)
    (hread : Keeps P (rmemReadWithHeader stateSlot stateSize)) : Keeps P stateEnsure:=by
  have hmodify {f : Keys→Keys} (hf : ∀ k, ∃ state stateLoaded, f k={k with state,stateLoaded}) :
      Keeps P (modify f : KeysM Unit):=by
    refine Keeps.modify fun k hk=>?_
    obtain ⟨state,stateLoaded,heq⟩:=hf k
    rw [heq]
    exact hstate k _ _ hk
  have hinit : Keeps P stateInit:=by
    refine Keeps.bind (hmodify fun k=>⟨_,k.stateLoaded,rfl⟩) fun _=>Keeps.bind (fun k hk=>henv k _ hk) fun guid=>?_
    cases guid with
    | none=>exact Keeps.pure _
    | some guid=>
      refine Keeps.bind (fun k hk=>henv k _ hk) fun cccId=>?_
      cases cccId with
      | none=>exact Keeps.pure _
      | some cccId=>
        refine Keeps.bind (hmodify fun k=>⟨_,k.stateLoaded,rfl⟩) fun _=>Keeps.bind hsave fun _=>?_
        refine Keeps.ite (fun _=>Keeps.pure _) fun _=>?_
        exact Keeps.bind (hmodify fun k=>⟨k.state,_,rfl⟩) fun _=>Keeps.pure _
  refine Keeps.bind (Keeps.gets _) fun _=>Keeps.ite (fun _=>Keeps.pure _) fun _=>?_
  refine Keeps.bind hread fun reply=>?_
  cases reply with
  | error e=>exact hinit
  | ok record=>
    exact Keeps.ite (fun _=>Keeps.bind (hmodify fun k=>⟨_,_,rfl⟩) fun _=>Keeps.pure _) fun _=>hinit

section Undrawn

variable (hP : Undrawn P)
include hP

theorem Undrawn.seCall {α : Type} {call : Chip Bytes → SeReply α × Chip Bytes}
    (h : ∀ k, P k→P (k.withChip (call k.badge.chip).2)) : Keeps P (seCall call):=by
  refine Keeps.bind (fun k hk=>hP k _ hk) fun o=>keeps_iff.mpr fun k hk=>?_
  have hchip : (Piv.onPins (Pin.seCall o call) k).2=k.withChip (Chip.perform o call k.badge.chip).2:=by
    unfold Piv.onPins zoom Pin.seCall
    cases Chip.perform o call k.badge.chip with
    | mk r c=>cases r <;> rfl
  rw [hchip,Chip.perform_chip]
  split
  · exact h k hk
  · exact hk

theorem Undrawn.read {α : Type} {call : Chip Bytes → SeReply α × Chip Bytes} (h : ∀ c, (call c).2=c) :
    Keeps P (Piv.seCall call):=
  hP.seCall fun k hk=>by rw [h]; exact hk

theorem Undrawn.rmemReadWithHeader (slot payloadMax : ℕ) : Keeps P (rmemReadWithHeader slot payloadMax):=by
  refine Keeps.bind (hP.read (Chip.rmemRead_chip _)) fun reply=>?_
  cases reply <;> exact Keeps.pure _

theorem Undrawn.load9dScalar : Keeps P load9dScalar:=by
  refine Keeps.bind (hP.rmemReadWithHeader _ _) fun reply=>?_
  cases reply with
  | error e=>exact Keeps.pure _
  | ok record=>exact Keeps.ite (fun _=>Keeps.pure _) fun _=>Keeps.pure _

theorem Undrawn.eccSlotUsed (slot : ℕ) : Keeps P (eccSlotUsed slot):=by
  refine Keeps.bind (hP.read (Chip.eccGetPublicKey_chip _)) fun reply=>?_
  cases reply <;> exact Keeps.pure _

theorem Undrawn.eccPubkey (slot : ℕ) : Keeps P (eccPubkey cr slot):=by
  refine Keeps.bind (hP.read (Chip.eccGetPublicKey_chip _)) fun reply=>?_
  cases reply <;> exact Keeps.pure _

theorem Undrawn.generateEcc (hdelete : ∀ k, P k→P (k.withChip (Chip.eccDelete slot k.badge.chip).2))
    (hgenerate : ∀ k key, P k→P (k.withChip (Chip.eccGenerate slot key k.badge.chip).2)) : Keeps P (generateEcc cr slot):=by
  refine Keeps.bind (hP.seCall hdelete) fun _=>Keeps.bind (fun k hk=>hP k _ hk) fun secret=>?_
  refine Keeps.bind (hP.seCall fun k hk=>hgenerate k _ hk) fun reply=>?_
  cases reply with
  | error e=>exact Keeps.pure _
  | ok u=>exact hP.eccPubkey _

theorem Undrawn.rmemWriteWithHeader {slot : ℕ} (herase : ∀ k, P k→P (k.withChip (Chip.rmemErase slot k.badge.chip).2))
    (hwrite : ∀ k data, P k→P (k.withChip (Chip.rmemWrite slot data k.badge.chip).2)) (moduleId : UInt8)
    (name payload : Bytes) : Keeps P (rmemWriteWithHeader slot moduleId name payload):=by
  have hrecord : Keeps P (Piv.seCall (Chip.rmemWrite slot (headered moduleId 0 name payload))):=
    hP.seCall fun k hk=>hwrite k _ hk
  refine Keeps.bind (hP.seCall herase) fun reply=>?_
  cases reply with
  | error e=>exact Keeps.ite (fun _=>Keeps.pure _) fun _=>hrecord
  | ok u=>exact hrecord

theorem Undrawn.sweepRmem (herase : ∀ k, P k→P (k.withChip (Chip.rmemErase slot k.badge.chip).2)) :
    Keeps P (sweepRmem slot):=by
  refine Keeps.bind (hP.rmemReadWithHeader _ _) fun reply=>?_
  cases reply with
  | error e=>exact Keeps.pure _
  | ok record=>exact Keeps.when fun _=>hP.seCall herase

theorem Undrawn.sweepEcc (hdelete : ∀ k, P k→P (k.withChip (Chip.eccDelete slot k.badge.chip).2))
    (shortReads : Bool) : Keeps P (sweepEcc shortReads slot):=by
  refine Keeps.bind (Keeps.bind (hP.read (Chip.rmemRead_chip _)) fun reply=>?_) fun used=>?_
  · cases reply <;> exact Keeps.pure _
  · refine Keeps.ite (fun _=>Keeps.pure _) fun _=>Keeps.bind (hP.eccSlotUsed slot) fun _=>?_
    exact Keeps.when fun _=>hP.seCall hdelete

/-- Where the record is made sure of, only making keys, setting the management key and the two calls given change
anything but what is drawn. -/
theorem Undrawn.backend {verify : Bytes→KeysM Bool} {store : ℕ→Bytes→KeysM Bool} (hensure : Keeps P stateEnsure)
    (hverify : ∀ pin, Keeps P (verify pin)) (hstore : ∀ obj data, Keeps P (store obj data)) :
    ({pivBackend cr with pinVerify:=verify,objectStore:=store} : Backend Keys).Keeps P where
  keyPresent keyRef:=by
    change Keeps P (cbKeyPresent keyRef)
    unfold cbKeyPresent
    split
    · exact hP.eccSlotUsed _
    · exact Keeps.ite (fun _=>Keeps.bind hP.load9dScalar fun _=>Keeps.pure _) fun _=>Keeps.pure _
  keySign keyRef digest:=by
    change Keeps P (cbKeySign cr keyRef digest)
    unfold cbKeySign
    split
    · refine Keeps.bind (fun k hk=>hP k _ hk) fun nonce=>Keeps.bind (hP.read (ecdsaSignDigest_chip cr _ _ _)) fun reply=>?_
      cases reply <;> exact Keeps.pure _
    · refine Keeps.ite (fun _=>Keeps.bind hP.load9dScalar fun scalar=>?_) fun _=>Keeps.pure _
      cases scalar with
      | none=>exact Keeps.pure _
      | some scalar=>exact Keeps.bind (fun k hk=>hP k _ hk) fun _=>Keeps.pure _
  keyPubkey keyRef:=by
    change Keeps P (cbKeyPubkey cr keyRef)
    unfold cbKeyPubkey
    split
    · exact hP.eccPubkey _
    · refine Keeps.ite (fun _=>Keeps.bind hP.load9dScalar fun scalar=>?_) fun _=>Keeps.pure _
      cases scalar <;> exact Keeps.pure _
  keyEcdh point:=by
    refine Keeps.bind hP.load9dScalar fun scalar=>?_
    cases scalar <;> exact Keeps.pure _
  pinVerify:=hverify
  mgmtEncrypt block:=Keeps.bind hensure fun _=>Keeps.ite (fun _=>Keeps.pure _) fun _=>
    Keeps.bind (Keeps.gets _) fun _=>Keeps.pure _
  stateLoad:=Keeps.bind hensure fun _=>Keeps.ite (fun _=>Keeps.pure _) fun _=>
    Keeps.bind (Keeps.gets _) fun _=>Keeps.pure _
  objectLoad obj:=by
    change Keeps P (cbObjectLoad obj)
    unfold cbObjectLoad
    refine Keeps.ite (fun _=>Keeps.pure _) fun _=>Keeps.bind (fun k hk=>hP k _ hk) fun o=>?_
    cases o with
    | done=>exact Keeps.gets _
    | failed e applied=>exact Keeps.pure _
    | powerLost applied=>exact Keeps.stop _
  objectStore:=hstore
  rng:=Keeps.bind (fun k hk=>hP k _ hk) fun _=>Keeps.pure _

theorem Undrawn.cbObjectStore (hobjects : ∀ k objects, P k→P {k with objects}) (obj : ℕ) (data : Bytes) :
    Keeps P (cbObjectStore obj data):=by
  unfold Piv.cbObjectStore
  have hstore : Keeps P (modify fun k : Keys=>
      {k with objects:=Function.update k.objects (certObjectToKeyRef obj) (some data)} : KeysM Unit):=
    Keeps.modify fun k hk=>hobjects k _ hk
  refine Keeps.ite (fun _=>Keeps.pure _) fun _=>Keeps.bind (fun k hk=>hP k _ hk) fun o=>?_
  cases o with
  | done=>exact Keeps.bind hstore fun _=>Keeps.pure _
  | failed e applied=>exact Keeps.bind (Keeps.when fun _=>hstore) fun _=>Keeps.pure _
  | powerLost applied=>exact Keeps.bind (Keeps.when fun _=>hstore) fun _=>Keeps.stop _

end Undrawn

variable (hP : Framed P)
include hP

theorem Framed.onPins {α : Type} {m : Pin.PinM α} (h : ∀ x, Keeps (fun b=>pivMemory b.chip=x) m) :
    Keeps P (onPins m):=
  keeps_iff.mpr fun k hk=>hP k _ hk rfl rfl (keeps_iff.mp (h _) k.badge rfl)

theorem Framed.undrawn : Undrawn P:=fun k _ hk=>hP k _ hk rfl rfl rfl

theorem Framed.backend (hensure : Keeps P stateEnsure) : (pivBackend cr).Keeps P:=
  hP.undrawn.backend hensure
    (fun pin=>hP.onPins (Pin.fixes_verifyBadgePin (fun _ content=>pivMemory_update rfl content) cr.toCrypto pin))
    (hP.undrawn.cbObjectStore fun k _ hk=>hP k _ hk rfl rfl rfl)

end Framed

/-- What depends neither on the chip nor on what is drawn. -/
structure Aside (P : Keys→Prop) : Prop where
  chip : ∀ k c, P k→P (k.withChip c)
  env : ∀ k env, P k→P {k with env}

/-- What a change of the chip in the slots of this module keeps, and what does not depend on what is drawn. -/
structure Within (P : Keys→Prop) : Prop where
  ecc : ∀ k slot c, pivSlot slot=true → k.badge.chip.SetsEcc slot c→P k→P (k.withChip c)
  rmem : ∀ k slot c, pivSlot slot=true → k.badge.chip.SetsRmem slot c→P k→P (k.withChip c)
  env : ∀ k env, P k→P {k with env}

section Within

variable {cr : PivCrypto} {P : Keys→Prop}

theorem Aside.within (hP : Aside P) : Within P:=⟨fun k _ c _ _=>hP.chip k c,fun k _ c _ _=>hP.chip k c,hP.env⟩

variable (hP : Within P) {slot : ℕ} (hslot : pivSlot slot=true)
include hP

theorem Within.undrawn : Undrawn P:=hP.env

section Slot

include hslot

theorem Within.erase (k : Keys) : P k→P (k.withChip (Chip.rmemErase slot k.badge.chip).2):=
  hP.rmem k slot _ hslot Chip.rmemErase_sets

theorem Within.delete (k : Keys) : P k→P (k.withChip (Chip.eccDelete slot k.badge.chip).2):=
  hP.ecc k slot _ hslot Chip.eccDelete_sets

theorem Within.rmemWriteWithHeader (moduleId : UInt8) (name payload : Bytes) :
    Keeps P (rmemWriteWithHeader slot moduleId name payload):=
  hP.undrawn.rmemWriteWithHeader (hP.erase hslot) (fun k _=>hP.rmem k slot _ hslot Chip.rmemWrite_sets) moduleId name payload

end Slot

theorem Within.stateSave : Keeps P stateSave:=by
  refine Keeps.bind (Keeps.gets _) fun st=>Keeps.bind (hP.rmemWriteWithHeader rfl _ _ _) fun reply=>?_
  cases reply <;> exact Keeps.pure _

theorem Within.cbKeyGenerate (keyRef : UInt8) : Keeps P (cbKeyGenerate cr keyRef):=by
  unfold Piv.cbKeyGenerate
  split
  · rename_i slot hslot
    have hpiv:=eccSlotFor_piv hslot
    exact hP.undrawn.generateEcc (hP.delete hpiv) fun k _=>hP.ecc k slot _ hpiv Chip.eccGenerate_sets
  · refine Keeps.ite (fun _=>Keeps.bind (fun k hk=>hP.env k _ hk) fun scalar=>?_) fun _=>Keeps.pure _
    cases scalar with
    | none=>exact Keeps.pure _
    | some scalar=>
      dsimp only
      cases cr.scalarPublic scalar with
      | none=>exact Keeps.pure _
      | some publicKey=>
        refine Keeps.bind (hP.rmemWriteWithHeader rfl _ _ _) fun reply=>?_
        cases reply <;> exact Keeps.pure _

theorem Within.cleanupFido2Orphans (shortReads : Bool) : Keeps P (cleanupFido2Orphans shortReads):=
  Keeps.bind (Keeps.forM_mem fun _ hslot=>hP.undrawn.sweepRmem (hP.erase (pivSlot_range hslot))) fun _=>
    Keeps.forM_mem fun _ hslot=>hP.undrawn.sweepEcc (hP.delete (pivSlot_range hslot)) shortReads

theorem Within.stateEnsure (hstate : ∀ k state stateLoaded, P k→P {k with state,stateLoaded}) : Keeps P stateEnsure:=
  keeps_stateEnsure_of_save hP.env hstate hP.stateSave (hP.undrawn.rmemReadWithHeader _ _)

theorem Within.pivInit (hstate : ∀ k state stateLoaded, P k→P {k with state,stateLoaded}) (shortReads : Bool) :
    Keeps P (pivInit shortReads):=
  Keeps.bind (Keeps.modify fun k hk=>hstate k k.state false hk) fun _=>
    Keeps.bind (hP.cleanupFido2Orphans shortReads) fun _=>hP.stateEnsure hstate

section Commands

variable {verify : Bytes→KeysM Bool} {store : ℕ→Bytes→KeysM Bool} (hensure : Keeps P Piv.stateEnsure)
  (hverify : ∀ pin, Keeps P (verify pin)) (hstore : ∀ obj data, Keeps P (store obj data))
include hensure hverify hstore

theorem Within.dispatch (hset : ∀ k (state : PivState), P k→P { k with state:={ k.state with
      mgmtKey:=state.mgmtKey,mgmtAlg:=state.mgmtAlg,mgmtIsDefault:=state.mgmtIsDefault } }) (c : Cmd) :
    Keeps (fun s : Ctx Keys=>P s.be) (dispatch {pivBackend cr with pinVerify:=verify,objectStore:=store} c):=by
  have hkey (alg : UInt8) (key : Bytes) : Keeps P (cbMgmtSetKey alg key):=by
    refine Keeps.bind hensure fun _=>Keeps.ite (fun _=>Keeps.pure _) fun _=>?_
    refine Keeps.ite (fun _=>Keeps.pure _) fun _=>Keeps.bind (Keeps.modify fun k hk=>?_) fun _=>hP.stateSave
    exact hset k {mgmtKey:=fit 32 key,mgmtAlg:=alg,mgmtIsDefault:=0} hk
  exact (hP.undrawn.backend hensure hverify hstore).dispatch c (fun _=>keeps_cmdGenerate (hP.cbKeyGenerate _)) fun _=>
    keeps_cmdSetMgmtKey hkey

end Commands

end Within

end CdcBadge.Piv
