import CdcBadge.PivMgmtKey

/-!
# The life of a PIV key

A key that was generated, in its slot, over commands, restarts and what the other modules do.
-/

namespace CdcBadge.Piv

open Handler
open Pin (Badge PowerLost)

/-- The payload of a response: its data and what is left for `GET RESPONSE`. -/
def payloadOf (reply : Reply) (resp : Bytes) : Option Bytes:=
  if reply.sw=swOk then some reply.data
  else if reply.sw >>> 8=0x61 then some (reply.data++resp)
  else none

theorem payloadOf_refused {sw : UInt16} (hok : sw≠swOk) (hmore : sw >>> 8≠0x61) (data resp : Bytes) :
    payloadOf {data,sw} resp=none:=by
  rw [payloadOf,if_neg hok,if_neg hmore]

theorem emit_payload {β : Type} {payload : Bytes} (hlen : payload.length ≤ respBufferSize) (le : ℕ) (s : Ctx β) :
    ∃ reply app, emit payload le s=(.ok reply,{s with app}) ∧ payloadOf reply app.resp=some payload:=by
  unfold emit
  rw [bind_gets]
  generalize min (if le=0 then 256 else le) (s.respMax-2)=window
  dsimp only
  split
  · exact ⟨_,s.app,rfl,if_pos rfl⟩
  · refine ⟨_,_,rfl,?_⟩
    have hrest : (payload.drop window).take respBufferSize=payload.drop window:=
      List.take_of_length_le (by rw [List.length_drop]; omega)
    rw [payloadOf,if_neg (swMoreData_ne_ok _),if_pos (swMoreData_high _),hrest,List.take_append_drop]

def pointIn (tag : ℕ) (payload : Bytes) : Option Bytes:=do
  tlvFind (← tlvFind payload tag) tagPubkeyPoint

/-- What a response to `GENERATE` holds. -/
def generatedPayload (point : Bytes) : Bytes:=[0x7F,0x49,0x43,0x86,0x41]++point

/-- What a response to `GET METADATA` holds. -/
def metadataPayload (point : Bytes) : Bytes:=
  [0x01,0x01,algEccP256,0x02,0x02,0x01,0x01,0x03,0x01,0x01,0x04,0x43,0x86,0x41]++point

theorem pubkeyTemplate_some (pub : ByteArr 65) : pubkeyTemplate buildSize pub=some (generatedPayload pub.toList):=by
  have hlen : pub.toList.length=65:=by simp
  unfold pubkeyTemplate
  rw [tlvWrites_single (by decide) (by omega) (by omega),hlen]
  simp [tlvWrites,tlvWrite,tlvWriteTag,tlvWriteLen,generatedPayload,buildSize,tagPubkey,tagPubkeyPoint,hlen]

theorem tlvScan_item {fuel tag : ℕ} {t len : UInt8} {value rest : Bytes} (ht : t &&& 0x1F≠0x1F) (hlen : len < 0x80)
    (hvalue : value.length=len.toNat) :
    tlvScan (fuel+1) (t::len::(value++rest)) tag=if t.toNat=tag then some value else tlvScan fuel rest tag:=by
  have htake : (value++rest).take len.toNat=value:=by rw [← hvalue,List.take_left]
  have hdrop : (value++rest).drop len.toNat=rest:=by rw [← hvalue,List.drop_left]
  have hroom : ¬ (value++rest).length < len.toNat:=by
    rw [List.length_append]
    omega
  simp only [tlvScan,readTag,readLen,if_neg ht,if_pos hlen,if_neg hroom,htake,hdrop]

theorem tlvFind_point {point : Bytes} (h : point.length=65) : tlvFind (0x86::0x41::point) tagPubkeyPoint=some point:=by
  have hscan:=@tlvScan_item 66 tagPubkeyPoint 0x86 0x41 point [] (by decide) (by decide) h
  rw [List.append_nil] at hscan
  unfold tlvFind
  simp only [List.length_cons,h]
  exact hscan

theorem pointIn_generated {point : Bytes} (h : point.length=65) :
    pointIn tagPubkey (generatedPayload point)=some point:=by
  have hscan : tlvFind (generatedPayload point) tagPubkey=some (0x86::0x41::point):=by
    have hfuel (fuel : ℕ) : tlvScan (fuel+1) (generatedPayload point) tagPubkey=some (0x86::0x41::point):=by
      have htag : readTag (generatedPayload point)=some (tagPubkey,0x43::0x86::0x41::point):=rfl
      have hlen : readLen (0x43::0x86::0x41::point)=some (0x43,0x86::0x41::point):=rfl
      simp [tlvScan,htag,hlen,h]
    exact hfuel _
  rw [pointIn,hscan]
  exact tlvFind_point h

theorem pointIn_metadata {point : Bytes} (h : point.length=65) :
    pointIn 0x04 (metadataPayload point)=some point:=by
  have hscan : tlvFind (metadataPayload point) 0x04=some (0x86::0x41::point):=by
    unfold tlvFind
    have hlen : (metadataPayload point).length=75+1+1+1+1:=by simp [metadataPayload,h]
    rw [hlen]
    have hlast:=@tlvScan_item 75 0x04 0x04 0x43 (0x86::0x41::point) [] (by decide) (by decide) (by simp [h])
    rw [List.append_nil] at hlast
    calc tlvScan (75+1+1+1+1) (metadataPayload point) 0x04
      _=tlvScan (75+1+1+1) (0x02::0x02::([0x01,0x01] ++
          (0x03::0x01::([0x01]++(0x04::0x43::0x86::0x41::point))))) 0x04:=
        @tlvScan_item _ 0x04 0x01 0x01 [algEccP256] _ (by decide) (by decide) rfl
      _=tlvScan (75+1+1) (0x03::0x01::([0x01]++(0x04::0x43::0x86::0x41::point))) 0x04:=
        tlvScan_item (by decide) (by decide) rfl
      _=tlvScan (75+1) (0x04::0x43::0x86::0x41::point) 0x04:=
        tlvScan_item (by decide) (by decide) rfl
      _=some (0x86::0x41::point):=hlast
  rw [pointIn,hscan]
  exact tlvFind_point h

theorem metadata_some (pub : ByteArr 65) :
    (tlvWrites buildSize ([(0x01,[algEccP256]),(0x02,[0x01,0x01]),(0x03,[0x01])] ++
      [(0x04,(tlvWrites 80 [(tagPubkeyPoint,pub.toList)]).getD [])])).getD []=metadataPayload pub.toList:=by
  have hlen : pub.toList.length=65:=by simp
  rw [tlvWrites_single (by decide) (by omega) (by omega),hlen]
  simp [tlvWrites,tlvWrite,tlvWriteTag,tlvWriteLen,metadataPayload,buildSize,tagPubkeyPoint,hlen]

def KeyHeld (cr : PivCrypto) (keyRef : UInt8) (point : Bytes) (c : Chip Bytes) : Prop:=
  match eccSlotFor keyRef with
  | some slot=>∃ key, c.ecc slot=some key ∧ key.curve=.p256 ∧ (uncompressed (cr.publicKey key)).toList=point
  | none=>keyRef=key9D ∧ ∃ scalar publicKey, cr.scalarPublic scalar=some publicKey ∧
      (uncompressed publicKey).toList=point ∧
      c.rmem slot9D=some (headered moduleIdPiv 0 name9D (scalar.toList++point))

def isFido2Record (data : Bytes) : Bool:=
  match readHeadered 64 data with
  | .ok (moduleId,_)=>moduleId=moduleIdFido2
  | .error _=>false

def occupied (shortReads : Bool) (c : Chip Bytes) (slot : ℕ) : Bool:=
  match c.rmem slot with
  | some data=>!isFido2Record data && (shortReads || data.length ≤ 4) && 0 < data.length
  | none=>false

theorem occupied_some {shortReads : Bool} {c : Chip Bytes} {slot : ℕ} (h : occupied shortReads c slot=true) :
    ∃ data, c.rmem slot=some data ∧ isFido2Record data=false ∧
      ((shortReads || decide (data.length ≤ 4)) && decide (0 < data.length))=true:=by
  unfold occupied at h
  cases hdata : c.rmem slot with
  | none=>
    rw [hdata] at h
    contradiction
  | some data=>
    rw [hdata] at h
    simp only [Bool.and_eq_true,Bool.not_eq_true'] at h
    exact ⟨data,rfl,h.1.1,by rw [Bool.and_eq_true]; exact ⟨h.1.2,h.2⟩⟩

theorem readHeadered_ok {payloadMax : ℕ} {data payload : Bytes} {moduleId : UInt8}
    (h : readHeadered payloadMax data=.ok (moduleId,payload)) :
    moduleId=data.getD 2 0 ∧ rmemHeaderSize ≤ data.length:=by
  unfold readHeadered at h
  dsimp only at h
  split at h
  · cases h
  · rename_i hlen
    split at h
    · cases h
    · split at h
      · cases h
      · split at h
        · cases h
        · split at h
          · cases h
          · cases h
            exact ⟨rfl,by omega⟩

variable {data : Bytes}

theorem isFido2Record_false (h : data.getD 2 0≠moduleIdFido2) : isFido2Record data=false:=by
  unfold isFido2Record
  cases hrecord : readHeadered 64 data with
  | error e=>rfl
  | ok record=>
    obtain ⟨hmodule,-⟩:=@readHeadered_ok 64 data record.2 record.1 hrecord
    rw [← hmodule] at h
    simpa using h

/-- A record of this module keeps its slot used, where the chip reads into short buffers. -/
theorem occupied_record {c : Chip Bytes} {slot : ℕ} (hrmem : c.rmem slot=some data)
    (hmodule : data.getD 2 0=moduleIdPiv) (hlen : rmemHeaderSize ≤ data.length) : occupied true c slot=true:=by
  have hnot : isFido2Record data=false:=isFido2Record_false (by rw [hmodule]; decide)
  have hpos : 0 < data.length:=Nat.lt_of_lt_of_le (by decide) hlen
  simp [occupied,hrmem,hnot,hpos]

theorem headered_length (moduleId flags : UInt8) (name payload : Bytes) :
    (headered moduleId flags name payload).length=rmemHeaderSize+payload.length:=by
  have hfields:=headerFields_length moduleId flags name payload.length
  simp only [headered,List.length_append,hfields,List.length_cons,List.length_nil]
  rfl

theorem occupied_headered {c : Chip Bytes} {slot : ℕ} {name payload : Bytes}
    (h : c.rmem slot=some (headered moduleIdPiv 0 name payload)) : occupied true c slot=true:=
  occupied_record h rfl (by rw [headered_length]; omega)

theorem eccSlotFor_inj {keyRef other : UInt8} {slot : ℕ} (h : eccSlotFor keyRef=some slot)
    (hother : eccSlotFor other=some slot) : keyRef=other:=by
  unfold eccSlotFor at h hother
  grind [eccStart]

theorem KeyHeld.of_memory {cr : PivCrypto} {keyRef : UInt8} {point : Bytes} {c d : Chip Bytes}
    (h : KeyHeld cr keyRef point c) (hmemory : pivMemory d=pivMemory c) : KeyHeld cr keyRef point d:=by
  unfold KeyHeld at h ⊢
  cases hslot : eccSlotFor keyRef with
  | some slot=>
    rw [hslot] at h
    obtain ⟨key,hkey,hrest⟩:=h
    exact ⟨key,(pivMemory_ecc hmemory (eccSlotFor_piv hslot)).trans hkey,hrest⟩
  | none=>
    rw [hslot] at h
    obtain ⟨href,scalar,publicKey,hpublic,hpoint,hrecord⟩:=h
    exact ⟨href,scalar,publicKey,hpublic,hpoint,(pivMemory_rmem hmemory rfl).trans hrecord⟩

theorem occupied_congr (shortReads : Bool) {c d : Chip Bytes} {slot : ℕ} (h : d.rmem slot=c.rmem slot) :
    occupied shortReads d slot=occupied shortReads c slot:=by
  unfold occupied
  rw [h]

/-- The calls of the chip succeed, and what it holds meets `P`. -/
def Quiet (P : Chip Bytes→Prop) (k : Keys) : Prop:=k.env.calls=[] ∧ P k.badge.chip

theorem seCall_quiet {α : Type} {k : Keys} (h : k.env.calls=[]) (call : Chip Bytes → SeReply α × Chip Bytes) :
    seCall call k=(.ok (call k.badge.chip).1,k.withChip (call k.badge.chip).2):=by
  have henv : ({k.env with calls:=k.env.calls.tail} : Env)=k.env:=by
    obtain ⟨badge,state,stateLoaded,objects,env⟩:=k
    obtain ⟨⟩:=env
    cases h
    rfl
  rw [seCall_apply,henv,h]
  rfl

theorem seCall_read_quiet {α : Type} {k : Keys} (h : k.env.calls=[]) {call : Chip Bytes → SeReply α × Chip Bytes}
    (hchip : ∀ c, (call c).2=c) : seCall call k=(.ok (call k.badge.chip).1,k):=by
  rw [seCall_quiet h,hchip]
  rfl

section Quiet

variable {P : Chip Bytes→Prop}

theorem quiet_seCall {α : Type} {call : Chip Bytes → SeReply α × Chip Bytes} (h : ∀ c, P c→P (call c).2) :
    Keeps (Quiet P) (seCall call):=by
  rw [keeps_iff]
  intro k hk
  rw [seCall_quiet hk.1]
  exact ⟨hk.1,h _ hk.2⟩

theorem quiet_read {α : Type} {call : Chip Bytes → SeReply α × Chip Bytes} (h : ∀ c, (call c).2=c) :
    Keeps (Quiet P) (seCall call):=
  quiet_seCall fun c hc=>by rw [h]; exact hc

theorem quiet_eccSlotUsed (slot : ℕ) : Keeps (Quiet P) (eccSlotUsed slot):=by
  refine Keeps.bind (quiet_read (Chip.eccGetPublicKey_chip _)) fun reply=>?_
  cases reply <;> exact Keeps.pure _

theorem quiet_rmemSlotUsed (shortReads : Bool) (slot : ℕ) : Keeps (Quiet P) (rmemSlotUsed shortReads slot):=by
  refine Keeps.bind (quiet_read (Chip.rmemRead_chip _)) fun reply=>?_
  cases reply <;> exact Keeps.pure _

def withRecord (slot : ℕ) (data : Bytes) (c : Chip Bytes) : Chip Bytes:=
  {c with rmem:=Function.update c.rmem slot (some data)}

theorem withRecord_self (slot : ℕ) (data : Bytes) (c : Chip Bytes) : (withRecord slot data c).rmem slot=some data:=by
  simp [withRecord]

theorem withRecord_other {slot other : ℕ} (h : other≠slot) (data : Bytes) (c : Chip Bytes) :
    (withRecord slot data c).rmem other=c.rmem other:=by
  simp [withRecord,h]

theorem rmemWriteWithHeader_quiet {k : Keys} (h : k.env.calls=[]) {slot : ℕ} (hslot : slot < Chip.rmemSlotCount)
    (moduleId : UInt8) (name payload : Bytes) :
    rmemWriteWithHeader slot moduleId name payload k =
      (.ok (.ok ()),k.withChip (withRecord slot (headered moduleId 0 name payload) k.badge.chip)):=by
  unfold rmemWriteWithHeader
  rw [bind_of_ok (seCall_quiet h _),Chip.rmemErase_lt hslot]
  dsimp only
  set erased : Chip Bytes:={k.badge.chip with rmem:=Function.update k.badge.chip.rmem slot none}
  have hwrite:=seCall_quiet (k:=k.withChip erased) h (Chip.rmemWrite slot (headered moduleId 0 name payload))
  rw [show (k.withChip erased).badge.chip=erased from rfl,Chip.rmemWrite_none hslot (Function.update_self ..)] at hwrite
  simpa only [Keys.withChip,withRecord,erased,Function.update_idem] using hwrite

def withState (st : PivState) (c : Chip Bytes) : Chip Bytes:=
  withRecord stateSlot (headered moduleIdPiv 0 stateName st.bytes) c

theorem occupied_withState (st : PivState) (c : Chip Bytes) : occupied true (withState st c) stateSlot=true:=
  occupied_headered (withRecord_self ..)

theorem stateSave_quiet {k : Keys} (h : k.env.calls=[]) :
    stateSave k=(.ok true,k.withChip (withState k.state k.badge.chip)):=by
  unfold stateSave
  rw [bind_gets,bind_of_ok (rmemWriteWithHeader_quiet h stateSlot_lt ..)]
  rfl

theorem quiet_stateSave (h : ∀ c st, P c→P (withState st c)) : Keeps (Quiet P) stateSave:=by
  rw [keeps_iff]
  intro k hk
  rw [stateSave_quiet hk.1]
  exact ⟨hk.1,h _ _ hk.2⟩

theorem quiet_stateInit (h : ∀ c st, P c→P (withState st c)) : Keeps (Quiet P) stateInit:=by
  have hstrict (n : ℕ) : Keeps (Quiet P) (nextStrict n):=fun k hk=>hk
  refine Keeps.bind (Keeps.modify fun k hk=>hk) fun _=>Keeps.bind (hstrict 16) fun guid=>?_
  cases guid with
  | none=>exact Keeps.pure _
  | some guid=>
    refine Keeps.bind (hstrict 14) fun cccId=>?_
    cases cccId with
    | none=>exact Keeps.pure _
    | some cccId=>
      refine Keeps.bind (Keeps.modify fun k hk=>hk) fun _=>Keeps.bind (quiet_stateSave h) fun ok=>?_
      exact Keeps.ite (fun _=>Keeps.pure _) fun _=>Keeps.bind (Keeps.modify fun k hk=>hk) fun _=>Keeps.pure _

theorem quiet_stateEnsure (h : ∀ c st, P c→P (withState st c)) : Keeps (Quiet P) stateEnsure:=by
  refine Keeps.bind (Keeps.gets _) fun loaded=>Keeps.ite (fun _=>Keeps.pure _) fun _=>?_
  refine Keeps.bind (Keeps.bind (quiet_read (Chip.rmemRead_chip _)) fun reply=>?_) fun reply=>?_
  · cases reply <;> exact Keeps.pure _
  · cases reply with
    | error e=>exact quiet_stateInit h
    | ok record=>
      exact Keeps.ite (fun _=>Keeps.bind (Keeps.modify fun k hk=>hk) fun _=>Keeps.pure _) fun _=>quiet_stateInit h

def Ready (k : Keys) : Prop:=k.stateLoaded=true ∧ occupied true k.badge.chip stateSlot=true

theorem ready_stateInit : Triple (fun k=>k.env.calls=[]) stateInit (fun ok k=>ok=true→Ready k) fun _ _=>False:=by
  unfold stateInit
  refine Triple.bind (Q:=fun _ (k : Keys)=>k.env.calls=[]) (Triple.modify fun _ hk=>hk) fun _=>?_
  refine Triple.bind (Q:=fun _ (k : Keys)=>k.env.calls=[]) (fun k hk=>hk) fun guid=>?_
  cases guid with
  | none=>exact Triple.pure fun _ _ h=>by cases h
  | some guid=>
    refine Triple.bind (Q:=fun _ (k : Keys)=>k.env.calls=[]) (fun k hk=>hk) fun cccId=>?_
    cases cccId with
    | none=>exact Triple.pure fun _ _ h=>by cases h
    | some cccId=>
      refine Triple.bind (Q:=fun _ (k : Keys)=>k.env.calls=[]) (Triple.modify fun _ hk=>hk) fun _=>?_
      intro k hk
      unfold stateFirstSave
      rw [bind_of_ok (stateSave_quiet hk)]
      exact fun _=>⟨rfl,occupied_withState _ _⟩

theorem ready_stateEnsure : Triple (fun k=>k.env.calls=[] ∧ k.stateLoaded=false) stateEnsure
    (fun ok k=>ok=true→Ready k) fun _ _=>False:=by
  intro k hk
  obtain ⟨hcalls,hloaded⟩:=hk
  unfold stateEnsure rmemReadWithHeader
  rw [bind_gets,hloaded]
  simp only [Bool.false_eq_true,if_false]
  rw [bind_assoc,bind_of_ok (seCall_read_quiet hcalls (Chip.rmemRead_chip _))]
  cases hdata : k.badge.chip.rmem stateSlot with
  | none=>
    rw [Chip.rmemRead_none stateSlot_lt hdata]
    exact ready_stateInit k hcalls
  | some data=>
    rw [Chip.rmemRead_some stateSlot_lt hdata]
    simp only [bind_pure_left]
    cases hrecord : readHeadered stateSize data with
    | error e=>exact ready_stateInit k hcalls
    | ok record=>
      dsimp only
      by_cases hvalid : validState record=true
      · rw [if_pos hvalid]
        obtain ⟨hmodule,hlen⟩:=@readHeadered_ok stateSize data record.2 record.1 hrecord
        simp only [validState,Bool.and_eq_true,decide_eq_true_eq] at hvalid
        exact fun _=>⟨rfl,occupied_record hdata (hmodule.symm.trans hvalid.1.2) hlen⟩
      · rw [if_neg hvalid]
        exact ready_stateInit k hcalls

end Quiet

variable {key : EccKey}

section Boot

variable {P : Chip Bytes→Prop} {shortReads : Bool} {slot : ℕ}

theorem quiet_sweepRmem (hslot : slot < Chip.rmemSlotCount) (hdata : isFido2Record data=false) (other : ℕ) :
    Keeps (Quiet fun c=>c.rmem slot=some data) (sweepRmem other):=by
  by_cases hs : other=slot
  · subst hs
    rw [keeps_iff]
    intro k hk
    unfold sweepRmem rmemReadWithHeader
    rw [bind_assoc,bind_of_ok (seCall_read_quiet hk.1 (Chip.rmemRead_chip _)),Chip.rmemRead_some hslot hk.2]
    simp only [bind_pure_left]
    unfold isFido2Record at hdata
    cases hrecord : readHeadered 64 data with
    | error e=>exact hk
    | ok record=>
      rw [hrecord] at hdata
      dsimp only
      rw [Handler.when,if_neg (by simpa using hdata)]
      exact hk
  · refine Keeps.bind (Keeps.bind (quiet_read (Chip.rmemRead_chip _)) fun reply=>?_) fun reply=>?_
    · cases reply <;> exact Keeps.pure _
    · cases reply with
      | error e=>exact Keeps.pure _
      | ok record=>
        refine Keeps.when fun _=>quiet_seCall fun c hc=>?_
        unfold Chip.rmemErase
        split
        · exact hc
        · exact (Function.update_of_ne (Ne.symm hs) _ _).trans hc

theorem quiet_sweepRmem_ecc (h : ∀ c d, P c→d.ecc=c.ecc→P d) (other : ℕ) : Keeps (Quiet P) (sweepRmem other):=by
  refine Keeps.bind (Keeps.bind (quiet_read (Chip.rmemRead_chip _)) fun reply=>?_) fun reply=>?_
  · cases reply <;> exact Keeps.pure _
  · cases reply with
    | error e=>exact Keeps.pure _
    | ok record=>exact Keeps.when fun _=>quiet_seCall fun c hc=>h c _ hc Chip.rmemErase_ecc

theorem quiet_sweepEcc_rmem (h : ∀ c d, P c→d.rmem=c.rmem→P d) (other : ℕ) :
    Keeps (Quiet P) (sweepEcc shortReads other):=by
  refine Keeps.bind (quiet_rmemSlotUsed _ _) fun used=>Keeps.ite (fun _=>Keeps.pure _) fun _=>?_
  refine Keeps.bind (quiet_eccSlotUsed _) fun used=>Keeps.when fun _=>quiet_seCall fun c hc=>?_
  exact h c _ hc Chip.eccDelete_sets.rmem

theorem quiet_sweepEcc (hslot : slot < Chip.rmemSlotCount)
    (hused : ((shortReads || decide (data.length ≤ 4)) && decide (0 < data.length))=true) (other : ℕ) :
    Keeps (Quiet fun c=>c.ecc slot=some key ∧ c.rmem slot=some data) (sweepEcc shortReads other):=by
  by_cases hs : other=slot
  · subst hs
    rw [keeps_iff]
    intro k hk
    have hread : rmemSlotUsed shortReads other k=(.ok true,k):=by
      unfold rmemSlotUsed
      rw [bind_of_ok (seCall_read_quiet hk.1 (Chip.rmemRead_chip _)),Chip.rmemRead_some hslot hk.2.2]
      simp only [hused,pure_apply]
    unfold sweepEcc
    rw [bind_of_ok hread,if_pos rfl]
    exact hk
  · refine Keeps.bind (quiet_rmemSlotUsed _ _) fun used=>Keeps.ite (fun _=>Keeps.pure _) fun _=>?_
    refine Keeps.bind (quiet_eccSlotUsed _) fun used=>Keeps.when fun _=>quiet_seCall fun c hc=>?_
    exact ⟨(Chip.eccDelete_sets.other (Ne.symm hs)).trans hc.1,by rw [Chip.eccDelete_sets.rmem]; exact hc.2⟩

theorem cleanup_rmem {data : Bytes} (hslot : slot < Chip.rmemSlotCount) (hdata : isFido2Record data=false) :
    Keeps (Quiet fun c=>c.rmem slot=some data) (cleanupFido2Orphans shortReads):=
  Keeps.bind (Keeps.forM fun other=>quiet_sweepRmem hslot hdata other) fun _=>
    Keeps.forM fun other=>quiet_sweepEcc_rmem (fun _ _ hc hd=>(congrFun hd slot).trans hc) other

theorem cleanup_ecc (hslot : slot < Chip.rmemSlotCount) (hdata : isFido2Record data=false)
    (hused : ((shortReads || decide (data.length ≤ 4)) && decide (0 < data.length))=true) :
    Keeps (Quiet fun c=>c.ecc slot=some key ∧ c.rmem slot=some data) (cleanupFido2Orphans shortReads):=by
  refine Keeps.bind (Keeps.forM fun other=>?_) fun _=>Keeps.forM fun other=>quiet_sweepEcc hslot hused other
  have hecc : Keeps (Quiet fun c=>c.ecc slot=some key) (sweepRmem other):=
    quiet_sweepRmem_ecc (fun _ _ hc hd=>(congrFun hd slot).trans hc) other
  have hboth:=hecc.and (quiet_sweepRmem hslot hdata other)
  exact hboth.conseq (fun k hk=>⟨⟨hk.1,hk.2.1⟩,hk.1,hk.2.2⟩) (fun _ k hk=>⟨hk.1.1,hk.1.2,hk.2.2⟩)
    fun _ k hk=>⟨hk.1.1,hk.1.2,hk.2.2⟩

def sheltered (shortReads : Bool) (keyRef : UInt8) (c : Chip Bytes) : Prop:=
  ∀ slot∈eccSlotFor keyRef, occupied shortReads c slot=true

theorem pivInit_eq (k : Keys) : pivInit shortReads k=(cleanupFido2Orphans shortReads >>= fun _=>stateEnsure)
    {k with stateLoaded:=false}:=rfl

/-- The sweep may rest on more than what is left to hold when the record is looked for. -/
theorem pivInit_keeps {P Q : Chip Bytes→Prop} {k : Keys} (hcalls : k.env.calls=[]) (hk : P k.badge.chip)
    (hcleanup : Keeps (Quiet P) (cleanupFido2Orphans shortReads)) (hPQ : ∀ c, P c→Q c)
    (hstate : ∀ c st, Q c→Q (withState st c)) : Q (pivInit shortReads k).2.badge.chip:=by
  have hboth : Triple (Quiet P) (cleanupFido2Orphans shortReads >>= fun _=>stateEnsure) (fun _=>Quiet Q)
      fun _=>Quiet Q:=
    Triple.bind (hcleanup.conseq (fun _ h=>h) (fun _ t ht=>⟨ht.1,hPQ _ ht.2⟩) fun _ t ht=>⟨ht.1,hPQ _ ht.2⟩)
      fun _=>quiet_stateEnsure hstate
  rw [pivInit_eq]
  exact (hboth.state (show Quiet P {k with stateLoaded:=false} from ⟨hcalls,hk⟩)).2

theorem keyHeld_pivInit {cr : PivCrypto} {keyRef : UInt8} {point : Bytes} {k : Keys} (hcalls : k.env.calls=[])
    (hheld : KeyHeld cr keyRef point k.badge.chip) (hsheltered : sheltered shortReads keyRef k.badge.chip) :
    KeyHeld cr keyRef point (pivInit shortReads k).2.badge.chip:=by
  unfold KeyHeld at hheld ⊢
  cases hslot : eccSlotFor keyRef with
  | some slot=>
    rw [hslot] at hheld
    obtain ⟨key,hkey,hrest⟩:=hheld
    obtain ⟨data,hdata,hfido,hused⟩:=occupied_some (hsheltered slot hslot)
    have hlt : slot < Chip.rmemSlotCount:=(eccSlotFor_range hslot).2.trans (by decide)
    have hstays:=pivInit_keeps hcalls ⟨hkey,hdata⟩ (cleanup_ecc hlt hfido hused) (fun _ hc=>hc.1) fun _ _ hc=>hc
    exact ⟨key,hstays,hrest⟩
  | none=>
    rw [hslot] at hheld
    obtain ⟨href,scalar,publicKey,hpublic,hpoint,hrecord⟩:=hheld
    have hmodule : (headered moduleIdPiv 0 name9D (scalar.toList++point)).getD 2 0≠moduleIdFido2:=
      show moduleIdPiv≠moduleIdFido2 by decide
    have hstays:=pivInit_keeps hcalls hrecord (@cleanup_rmem shortReads _ _ (by decide) (isFido2Record_false hmodule))
      (fun _ hc=>hc) fun c st hc=>(withRecord_other (by decide) _ c).trans hc
    exact ⟨href,scalar,publicKey,hpublic,hpoint,hstays⟩

theorem occupied_pivInit {k : Keys} (hcalls : k.env.calls=[]) (hk : occupied true k.badge.chip stateSlot=true) :
    occupied true (pivInit shortReads k).2.badge.chip stateSlot=true:=by
  obtain ⟨data,hdata,hfido,hused⟩:=occupied_some hk
  refine pivInit_keeps (Q:=fun c=>occupied true c stateSlot=true) hcalls hdata (cleanup_rmem stateSlot_lt hfido)
    (fun c hc=>?_) fun c st _=>occupied_withState st c
  exact (occupied_congr _ (hc.trans hdata.symm)).trans hk

theorem ready_pivInit {k k' : Keys} (hcalls : k.env.calls=[]) (h : pivInit shortReads k=(.ok true,k')) : Ready k':=by
  have hquiet : Keeps (Quiet fun _=>True) (cleanupFido2Orphans shortReads):=
    Keeps.bind (Keeps.forM fun other=>quiet_sweepRmem_ecc (fun _ _ hc _=>hc) other) fun _=>
      Keeps.forM fun other=>quiet_sweepEcc_rmem (fun _ _ hc _=>hc) other
  have hinit : Triple (fun k=>Quiet (fun _=>True) k ∧ k.stateLoaded=false)
      (cleanupFido2Orphans shortReads >>= fun _=>stateEnsure) (fun ok k=>ok=true→Ready k) fun _ _=>True:=
    Triple.bind ((hquiet.and (cleanup_loaded shortReads false)).conseq (fun _ h=>h) (fun _ _ h=>h) fun _ _ _=>trivial)
      fun _=>ready_stateEnsure.conseq (fun k hk=>⟨hk.1.1,hk.2⟩) (fun _ _ h=>h) fun _ _ _=>trivial
  rw [pivInit_eq] at h
  exact hinit.ok (s:={k with stateLoaded:=false}) ⟨⟨hcalls,trivial⟩,rfl⟩ h rfl

end Boot

/-- The record is there, and so is every key that was made. -/
structure Standing (cr : PivCrypto) (made : UInt8→Option Bytes) (k : Keys) : Prop where
  ready : Ready k
  held : ∀ keyRef point, made keyRef=some point→KeyHeld cr keyRef point k.badge.chip

variable {c : Cmd}

section Commands

variable {cr : PivCrypto} {made : UInt8→Option Bytes}

theorem framed_standing : Framed (Standing cr made):=by
  intro k k' h _ hloaded hmemory
  refine ⟨⟨hloaded.trans h.ready.1,?_⟩,fun keyRef point hmade=>(h.held keyRef point hmade).of_memory hmemory⟩
  exact (occupied_congr _ (pivMemory_rmem hmemory rfl)).trans h.ready.2

theorem Standing.of_ecc {k k' : Keys} (h : Standing cr made k) {keyRef : UInt8} {slot : ℕ} (hslot : eccSlotFor keyRef=some slot) (hcurve : key.curve=.p256) (hloaded : k'.stateLoaded=k.stateLoaded)
    (hchip : k'.badge.chip={k.badge.chip with ecc:=Function.update k.badge.chip.ecc slot (some key)}) :
    Standing cr (Function.update made keyRef (some (uncompressed (cr.publicKey key)).toList)) k':=by
  have hrmem : k'.badge.chip.rmem=k.badge.chip.rmem:=by rw [hchip]
  refine ⟨⟨hloaded.trans h.ready.1,(occupied_congr _ (congrFun hrmem stateSlot)).trans h.ready.2⟩,fun other point hmade=>?_⟩
  by_cases hother : other=keyRef
  · subst hother
    rw [Function.update_self] at hmade
    cases hmade
    unfold KeyHeld
    rw [hslot]
    exact ⟨key,by rw [hchip]; exact Function.update_self ..,hcurve,rfl⟩
  · rw [Function.update_of_ne hother] at hmade
    have hheld:=h.held other point hmade
    unfold KeyHeld at hheld ⊢
    cases hotherSlot : eccSlotFor other with
    | some slot'=>
      rw [hotherSlot] at hheld
      obtain ⟨key',hkey',hrest⟩:=hheld
      have hne : slot'≠slot:=fun hs=>hother (eccSlotFor_inj hotherSlot (hs ▸ hslot))
      exact ⟨key',by rw [hchip]; exact (Function.update_of_ne hne ..).trans hkey',hrest⟩
    | none=>
      rw [hotherSlot] at hheld
      obtain ⟨href,scalar,publicKey,hpublic,hpoint,hrecord⟩:=hheld
      exact ⟨href,scalar,publicKey,hpublic,hpoint,(congrFun hrmem slot9D).trans hrecord⟩

theorem generateEcc_quiet {k : Keys} (hcalls : k.env.calls=[]) {slot : ℕ} (hslot : slot < Chip.eccSlotCount) :
    ∃ k', generateEcc cr slot k=(.ok (some (uncompressed (cr.publicKey ⟨.p256,k.env.secrets.headD 0⟩))),k') ∧
      k'.stateLoaded=k.stateLoaded ∧ k'.badge.chip={ k.badge.chip with
        ecc:=Function.update k.badge.chip.ecc slot (some ⟨.p256,k.env.secrets.headD 0⟩) }:=by
  set key : EccKey:=⟨.p256,k.env.secrets.headD 0⟩
  set deleted : Chip Bytes:={k.badge.chip with ecc:=Function.update k.badge.chip.ecc slot none}
  set generated : Chip Bytes:={k.badge.chip with ecc:=Function.update k.badge.chip.ecc slot (some key)}
  have hdelete : Chip.eccDelete slot k.badge.chip=(.ok (),deleted):=by simp [Chip.eccDelete,deleted,Nat.not_le.mpr hslot]
  have hgenerate : Chip.eccGenerate slot key deleted=(.ok (),generated):=by
    simp [Chip.eccGenerate,deleted,generated,Nat.not_le.mpr hslot]
  have hread : Chip.eccGetPublicKey slot generated=(.ok key,generated):=
    Chip.eccGetPublicKey_some hslot (by simp [generated])
  set drawn : Keys:={k.withChip deleted with env:={k.env with secrets:=k.env.secrets.tail}}
  have hfirst:=seCall_quiet hcalls (Chip.eccDelete slot)
  have hsecond:=seCall_quiet (k:=drawn) hcalls (Chip.eccGenerate slot key)
  have hthird:=seCall_quiet (k:=drawn.withChip generated) hcalls (Chip.eccGetPublicKey slot)
  rw [hdelete] at hfirst
  rw [show drawn.badge.chip=deleted from rfl,hgenerate] at hsecond
  rw [show (drawn.withChip generated).badge.chip=generated from rfl,hread] at hthird
  refine ⟨drawn.withChip generated,?_,rfl,rfl⟩
  unfold generateEcc
  rw [bind_of_ok hfirst]
  change (seCall (Chip.eccGenerate slot key) >>= _) drawn=_
  rw [bind_of_ok hsecond]
  dsimp only
  unfold eccPubkey
  rw [bind_of_ok hthird]
  rfl

theorem Standing.of_9d {k k' : Keys} (h : Standing cr made k) {scalar : ByteArr 32} {publicKey : ByteArr 64}
    (hpublic : cr.scalarPublic scalar=some publicKey) (hloaded : k'.stateLoaded=k.stateLoaded)
    (hecc : k'.badge.chip.ecc=k.badge.chip.ecc)
    (hstate : k'.badge.chip.rmem stateSlot=k.badge.chip.rmem stateSlot)
    (hrecord : k'.badge.chip.rmem slot9D =
      some (headered moduleIdPiv 0 name9D (scalar.toList++(uncompressed publicKey).toList))) :
    Standing cr (Function.update made key9D (some (uncompressed publicKey).toList)) k':=by
  refine ⟨⟨hloaded.trans h.ready.1,(occupied_congr _ hstate).trans h.ready.2⟩,fun other point hmade=>?_⟩
  by_cases hother : other=key9D
  · subst hother
    rw [Function.update_self] at hmade
    cases hmade
    exact ⟨rfl,scalar,publicKey,hpublic,rfl,hrecord⟩
  · rw [Function.update_of_ne hother] at hmade
    have hheld:=h.held other point hmade
    unfold KeyHeld at hheld ⊢
    cases hotherSlot : eccSlotFor other with
    | some slot=>
      rw [hotherSlot] at hheld
      obtain ⟨key,hkey,hrest⟩:=hheld
      exact ⟨key,(congrFun hecc slot).trans hkey,hrest⟩
    | none=>
      rw [hotherSlot] at hheld
      exact absurd hheld.1 hother

/-- `GENERATE`: the key that is answered is the one that is held, and the others stay. -/
theorem standing_cbKeyGenerate {k : Keys} (h : Standing cr made k) (hcalls : k.env.calls=[]) (keyRef : UInt8) :
    ∃ pub k', cbKeyGenerate cr keyRef k=(.ok pub,k') ∧ Standing cr (match pub with
      | some pub=>Function.update made keyRef (some pub.toList)
      | none=>made) k':=by
  unfold cbKeyGenerate
  cases hslot : eccSlotFor keyRef with
  | some slot=>
    obtain ⟨k',hgenerate,hloaded,hchip⟩:=@generateEcc_quiet cr k hcalls slot (eccSlotFor_lt hslot)
    exact ⟨_,k',hgenerate,h.of_ecc hslot rfl hloaded hchip⟩
  | none=>
    by_cases href : keyRef=key9D
    · subst href
      dsimp only
      rw [if_pos rfl]
      unfold generate9d
      rw [bind_nextStrict]
      have hstrict (strict : List (Option Bytes)) : Standing cr made {k with env:={k.env with strict}}:=
        framed_standing k _ h rfl rfl rfl
      cases hdrawn : k.env.strict.headD (some []) with
      | none=>exact ⟨none,_,rfl,hstrict _⟩
      | some scalar=>
        dsimp only [Option.map_some]
        cases hpublic : cr.scalarPublic (fit 32 scalar) with
        | none=>exact ⟨none,_,rfl,hstrict _⟩
        | some publicKey=>
          dsimp only
          rw [bind_of_ok (rmemWriteWithHeader_quiet ?quiet (show slot9D < Chip.rmemSlotCount by decide) ..)]
          case quiet=>exact hcalls
          refine ⟨_,_,rfl,h.of_9d hpublic rfl rfl ?_ ?_⟩
          · exact withRecord_other (by decide) ..
          · exact withRecord_self ..
    · dsimp only
      rw [if_neg href]
      exact ⟨none,k,rfl,h⟩

theorem standing_cbMgmtSetKey (alg : UInt8) (key : Bytes) :
    Keeps (fun k=>k.env.calls=[] ∧ Standing cr made k) (cbMgmtSetKey alg key):=by
  rw [keeps_iff]
  intro k hk
  obtain ⟨hcalls,h⟩:=hk
  have hensure : stateEnsure k=(.ok true,k):=by
    unfold stateEnsure
    rw [bind_gets,if_pos h.ready.1]
    rfl
  unfold cbMgmtSetKey
  rw [bind_of_ok hensure]
  simp only [Bool.not_true,Bool.false_eq_true,if_false]
  split
  · exact ⟨hcalls,h⟩
  · rw [bind_modify,stateSave_quiet ?quiet]
    case quiet=>exact hcalls
    refine ⟨hcalls,⟨h.ready.1,occupied_withState _ _⟩,fun keyRef point hmade=>?_⟩
    have hheld:=h.held keyRef point hmade
    unfold KeyHeld at hheld ⊢
    cases hslot : eccSlotFor keyRef with
    | some slot=>
      rw [hslot] at hheld
      exact hheld
    | none=>
      rw [hslot] at hheld
      obtain ⟨href,scalar,publicKey,hpublic,hpoint,hrecord⟩:=hheld
      exact ⟨href,scalar,publicKey,hpublic,hpoint,(withRecord_other (by decide) _ _).trans hrecord⟩

def madeAfter (made : UInt8→Option Bytes) (c : Cmd) (payload : Option Bytes) : UInt8→Option Bytes:=
  if c.ins=insGenerateKeypair then
    match payload.bind (pointIn tagPubkey) with
    | some point=>Function.update made c.p2 (some point)
    | none=>made
  else made

/-- What a command leaves, by what it answers. -/
def LeavesStanding (cr : PivCrypto) (made : UInt8→Option Bytes) (c : Cmd)
    (r : Except PowerLost Reply × Ctx Keys) : Prop:=
  match r.1 with
  | .ok reply=>Standing cr (madeAfter made c (payloadOf reply r.2.app.resp)) r.2.be
  | .error _=>Standing cr made r.2.be

theorem LeavesStanding.refused {s : Ctx Keys} (h : Standing cr made s.be) (c : Cmd) {sw : UInt16} (hok : sw≠swOk)
    (hmore : sw >>> 8≠0x61) : LeavesStanding cr made c (answerSw sw s):=by
  change Standing cr (madeAfter made c (payloadOf {sw} s.app.resp)) s.be
  rw [payloadOf_refused hok hmore,madeAfter]
  split <;> exact h

theorem standing_cmdGenerate {s : Ctx Keys} (h : Standing cr made s.be) (hcalls : s.be.env.calls=[])
    (hins : c.ins=insGenerateKeypair) : LeavesStanding cr made c (cmdGenerate (pivBackend cr) c s):=by
  have hrefused (sw : UInt16) (hok : sw≠swOk) (hmore : sw >>> 8≠0x61) : LeavesStanding cr made c (answerSw sw s):=
    .refused h c hok hmore
  unfold cmdGenerate appGets
  rw [bind_gets]
  by_cases hauth : s.app.mgmtAuthenticated=true
  case neg=>
    rw [if_pos (by simpa using hauth)]
    exact hrefused swSecurityStatus (by decide) (by decide)
  rw [if_neg (by simpa using hauth)]
  by_cases href : isKeyRef c.p2=true
  case neg=>
    rw [if_pos (by simpa using href)]
    exact hrefused swRefNotFound (by decide) (by decide)
  rw [if_neg (by simpa using href)]
  split
  · exact hrefused swDataInvalid (by decide) (by decide)
  obtain ⟨pub,k',hgenerate,hstanding⟩:=standing_cbKeyGenerate h hcalls c.p2
  have hcall : call ((pivBackend cr).keyGenerate c.p2) s=(.ok pub,{s with be:=k'}):=by
    change ((cbKeyGenerate cr c.p2 s.be).1,_)=_
    rw [hgenerate]
    change (Except.ok pub,{s with be:=(cbKeyGenerate cr c.p2 s.be).2})=_
    rw [hgenerate]
  rw [bind_of_ok hcall]
  cases pub with
  | none=>exact LeavesStanding.refused hstanding c (by decide) (by decide)
  | some pub=>
    have hlen : pub.toList.length=65:=by simp
    have hshort : (generatedPayload pub.toList).length ≤ respBufferSize:=by
      simp [generatedPayload,respBufferSize]
    dsimp only
    rw [pubkeyTemplate_some]
    obtain ⟨reply,app,hemit,hpayload⟩:=emit_payload hshort c.le {s with be:=k'}
    change LeavesStanding cr made c (emit (generatedPayload pub.toList) c.le {s with be:=k'})
    rw [hemit]
    change Standing cr (madeAfter made c (payloadOf reply app.resp)) k'
    rw [hpayload,madeAfter,if_pos hins,Option.bind_some,pointIn_generated hlen]
    exact hstanding

theorem standing_dispatch {s : Ctx Keys} (h : Standing cr made s.be) (hcalls : s.be.env.calls=[]) (c : Cmd) :
    LeavesStanding cr made c (dispatch (pivBackend cr) c s):=by
  by_cases hgenerate : c.ins=insGenerateKeypair
  · have hdispatch : dispatch (pivBackend cr) c=cmdGenerate (pivBackend cr) c:=by
      simp only [dispatch,hgenerate]
      rfl
    rw [hdispatch]
    exact standing_cmdGenerate h hcalls hgenerate
  have hsame : ∀ payload, madeAfter made c payload=made:=fun payload=>if_neg hgenerate
  have hkeeps : Standing cr made (dispatch (pivBackend cr) c s).2.be:=by
    by_cases hset : c.ins=insSetMgmtKey
    · have hdispatch : dispatch (pivBackend cr) c=cmdSetMgmtKey (pivBackend cr) c:=by
        simp only [dispatch,hset]
        rfl
      rw [hdispatch]
      have hset:=keeps_cmdSetMgmtKey (b:=pivBackend cr) (c:=c) (@standing_cbMgmtSetKey cr made)
      exact (keeps_iff.mp hset s ⟨hcalls,h⟩).2
    · have hbackend : (pivBackend cr).Keeps (Standing cr made):=framed_standing.backend (keeps_stateEnsure fun _ h=>h.ready.1)
      have hother:=hbackend.dispatch c (fun h=>absurd h hgenerate) fun h=>absurd h hset
      exact keeps_iff.mp hother s h
  unfold LeavesStanding
  split
  · rw [hsame]
    exact hkeeps
  · exact hkeeps

end Commands

section Answers

variable {cr : PivCrypto} {keyRef : UInt8} {point : Bytes} {k : Keys}

theorem load9dScalar_held (hcalls : k.env.calls=[]) {scalar : ByteArr 32} (hlen : point.length=65)
    (hrecord : k.badge.chip.rmem slot9D=some (headered moduleIdPiv 0 name9D (scalar.toList++point))) :
    load9dScalar k=(.ok (some scalar),k):=by
  have hblob : (scalar.toList++point).length=97:=by simp [hlen]
  have hread:=@readHeadered_headered 97 moduleIdPiv 0 name9D (scalar.toList++point) (by rw [hblob]; decide)
  rw [if_neg (by omega)] at hread
  unfold load9dScalar rmemReadWithHeader
  rw [bind_assoc,bind_of_ok (seCall_read_quiet hcalls (Chip.rmemRead_chip _)),Chip.rmemRead_some (by decide) hrecord]
  simp only [bind_pure_left,hread]
  rw [if_neg (by simp [hblob]),fit_append]
  rfl

theorem cbKeyPresent_held (hcalls : k.env.calls=[]) (h : KeyHeld cr keyRef point k.badge.chip) :
    cbKeyPresent keyRef k=(.ok true,k):=by
  unfold KeyHeld at h
  unfold cbKeyPresent
  cases hslot : eccSlotFor keyRef with
  | some slot=>
    rw [hslot] at h
    obtain ⟨key,hkey,-⟩:=h
    dsimp only
    unfold eccSlotUsed
    rw [bind_of_ok (seCall_read_quiet hcalls (Chip.eccGetPublicKey_chip _)),
      Chip.eccGetPublicKey_some (eccSlotFor_lt hslot) hkey]
    rfl
  | none=>
    rw [hslot] at h
    obtain ⟨href,scalar,publicKey,-,hpoint,hrecord⟩:=h
    dsimp only
    rw [if_pos href,bind_of_ok (load9dScalar_held hcalls (by rw [← hpoint]; simp) hrecord)]
    rfl

theorem cbKeyPubkey_held (hcalls : k.env.calls=[]) (h : KeyHeld cr keyRef point k.badge.chip) :
    ∃ pub, cbKeyPubkey cr keyRef k=(.ok (some pub),k) ∧ pub.toList=point:=by
  unfold KeyHeld at h
  unfold cbKeyPubkey
  cases hslot : eccSlotFor keyRef with
  | some slot=>
    rw [hslot] at h
    obtain ⟨key,hkey,-,hpoint⟩:=h
    dsimp only
    unfold eccPubkey
    rw [bind_of_ok (seCall_read_quiet hcalls (Chip.eccGetPublicKey_chip _)),
      Chip.eccGetPublicKey_some (eccSlotFor_lt hslot) hkey]
    exact ⟨_,rfl,hpoint⟩
  | none=>
    rw [hslot] at h
    obtain ⟨href,scalar,publicKey,hpublic,hpoint,hrecord⟩:=h
    dsimp only
    rw [if_pos href,bind_of_ok (load9dScalar_held hcalls (by rw [← hpoint]; simp) hrecord)]
    dsimp only
    rw [hpublic]
    exact ⟨_,rfl,hpoint⟩

theorem cbKeySign_held (hcalls : k.env.calls=[]) (h : KeyHeld cr keyRef point k.badge.chip) {digest : ByteArr 32}
    {rs : ByteArr 64} {k' : Keys} (hsign : cbKeySign cr keyRef digest k=(.ok (some rs),k')) :
    ∃ publicKey, (uncompressed publicKey).toList=point ∧ cr.ecdsaVerify publicKey digest rs=true:=by
  unfold KeyHeld at h
  unfold cbKeySign at hsign
  cases hslot : eccSlotFor keyRef with
  | some slot=>
    rw [hslot] at h hsign
    obtain ⟨key,hkey,hcurve,hpoint⟩:=h
    dsimp only at hsign
    obtain ⟨nonce,t,hnonce,hsigned⟩:=bind_ok.mp hsign
    cases hnonce
    rw [bind_of_ok (seCall_read_quiet ?quiet (ecdsaSignDigest_chip cr _ _ _))] at hsigned
    case quiet=>exact hcalls
    unfold ecdsaSignDigest at hsigned
    rw [Chip.eccSigningKey_some (eccSlotFor_lt hslot) hkey] at hsigned
    dsimp only at hsigned
    rw [if_pos hcurve] at hsigned
    cases hsigned
    exact ⟨cr.publicKey key,hpoint,cr.ecdsaVerify_ecdsaSign key _ digest⟩
  | none=>
    rw [hslot] at h hsign
    obtain ⟨href,scalar,publicKey,hpublic,hpoint,hrecord⟩:=h
    dsimp only at hsign
    rw [if_pos href] at hsign
    unfold sign9d at hsign
    rw [bind_of_ok (load9dScalar_held hcalls (by rw [← hpoint]; simp) hrecord)] at hsign
    obtain ⟨nonce,t,-,hsigned⟩:=bind_ok.mp hsign
    have hrs : cr.scalarSign scalar nonce digest=some rs:=Except.ok.inj (congrArg Prod.fst hsigned)
    exact ⟨publicKey,hpoint,cr.ecdsaVerify_scalarSign scalar publicKey nonce digest rs hpublic hrs⟩

theorem emitBuilt_payload {β : Type} {built : Option Bytes} (hbuilt : ∀ payload∈built, payload.length ≤ respBufferSize)
    {failed : UInt16} (hok : failed≠swOk) (hmore : failed >>> 8≠0x61) (le : ℕ) (s : Ctx β) :
    ∃ reply app, emitBuilt built le failed s=(.ok reply,{s with app}) ∧ payloadOf reply app.resp=built:=by
  cases built with
  | none=>exact ⟨_,s.app,rfl,payloadOf_refused hok hmore _ _⟩
  | some payload=>exact emit_payload (hbuilt payload rfl) le s

/-- A signature over the challenge that verifies under the point. -/
def Signed (cr : PivCrypto) (point inner payload : Bytes) : Prop:=
  ∃ challenge rs publicKey, tlvFind inner tagChallenge=some challenge ∧ (uncompressed publicKey).toList=point ∧
    cr.ecdsaVerify publicKey (normalDigest challenge) rs=true ∧
    dynAuth 96 buildSize tagResponse (derEncodeEcdsaSig rs)=some payload

/-- A secret that the scalar of the point agrees on with the host's point. -/
def Agreed (cr : PivCrypto) (point peer payload : Bytes) : Prop:=
  ∃ scalar publicKey shared, cr.scalarPublic scalar=some publicKey ∧ (uncompressed publicKey).toList=point ∧
    cr.scalarEcdh scalar (fit 65 peer)=some shared ∧ dynAuth 40 buildSize tagResponse shared.toList=some payload

/-- A response to `GENERAL AUTHENTICATE` was made with the key of the point. -/
def Authenticates (cr : PivCrypto) (keyRef : UInt8) (point data payload : Bytes) : Prop:=
  ∃ inner, tlvFind data tagDynAuth=some inner ∧
    match (if keyRef=key9D then tlvFind inner tagExp else none) with
    | some peer=>Agreed cr point peer payload
    | none=>Signed cr point inner payload

def Answers (r : Except PowerLost Reply × Ctx Keys) (Q : Option Bytes→Prop) : Prop:=
  ∀ reply, r.1=.ok reply→Q (payloadOf reply r.2.app.resp)

theorem answers_refused {s : Ctx Keys} {sw : UInt16} (hok : sw≠swOk) (hmore : sw >>> 8≠0x61) {Q : Bytes→Prop} :
    Answers (answerSw sw s) fun answer=>∀ payload∈answer, Q payload:=by
  intro reply h
  cases h
  rw [payloadOf_refused hok hmore]
  exact nofun

theorem answers_emitBuilt {s : Ctx Keys} {innerCap tag : ℕ} {value : Bytes} {le : ℕ} {Q : Bytes→Prop}
    (h : ∀ payload, dynAuth innerCap buildSize tag value=some payload→Q payload) :
    Answers (emitBuilt (dynAuth innerCap buildSize tag value) le swSecurityStatus s) fun answer=>
      ∀ payload∈answer, Q payload:=by
  have hbounded (payload : Bytes) (hpayload : payload∈dynAuth innerCap buildSize tag value) : payload.length ≤ respBufferSize:=
    dynAuth_length hpayload
  obtain ⟨reply,app,hemit,hpayload⟩:=emitBuilt_payload hbounded (show swSecurityStatus≠swOk by decide) (by decide) le s
  rw [hemit]
  intro reply' h'
  cases h'
  change ∀ payload∈payloadOf reply app.resp, Q payload
  rw [hpayload]
  exact h

theorem call_ok {α : Type} {m : KeysM α} {s : Ctx Keys} {a : α} {k : Keys} (h : m s.be=(.ok a,k)) :
    call m s=(.ok a,{s with be:=k}):=by
  unfold call zoom
  rw [h]

variable {s : Ctx Keys}

theorem answers_signChallenge (hcalls : s.be.env.calls=[]) (h : KeyHeld cr keyRef point s.be.badge.chip)
    {inner challenge : Bytes} (hchallenge : tlvFind inner tagChallenge=some challenge) (le : ℕ) :
    Answers (signChallenge (pivBackend cr) keyRef challenge le s) fun answer=>
      ∀ payload∈answer, Signed cr point inner payload:=by
  have hpresent : call ((pivBackend cr).keyPresent keyRef) s=(.ok true,s):=call_ok (cbKeyPresent_held hcalls h)
  unfold signChallenge appGets
  rw [bind_gets]
  split
  · exact answers_refused (by decide) (by decide)
  rw [bind_of_ok hpresent]
  simp only [Bool.not_true,Bool.false_eq_true,if_false]
  rw [bind_apply]
  cases hsign : cbKeySign cr keyRef (normalDigest challenge) s.be with
  | mk r k'=>
    have hcall : call ((pivBackend cr).keySign keyRef (normalDigest challenge)) s=(r,{s with be:=k'}):=by
      change ((cbKeySign cr keyRef (normalDigest challenge) s.be).1,_)=_
      rw [hsign]
      change (r,{s with be:=(cbKeySign cr keyRef (normalDigest challenge) s.be).2})=_
      rw [hsign]
    rw [hcall]
    cases r with
    | error e=>exact nofun
    | ok rs=>cases rs with
      | none=>exact answers_refused (by decide) (by decide)
      | some rs=>
        obtain ⟨publicKey,hpoint,hverify⟩:=cbKeySign_held hcalls h hsign
        have hsigned : ∀ payload, dynAuth 96 buildSize tagResponse (derEncodeEcdsaSig rs)=some payload →
            Signed cr point inner payload:=
          fun payload hpayload=>⟨challenge,rs,publicKey,hchallenge,hpoint,hverify,hpayload⟩
        unfold Handler.when
        dsimp only
        split
        · exact answers_emitBuilt hsigned
        · exact answers_emitBuilt hsigned

theorem answers_agreeKey (hcalls : s.be.env.calls=[]) (h : KeyHeld cr key9D point s.be.badge.chip) (peer : Bytes) (le : ℕ) :
    Answers (agreeKey (pivBackend cr) peer le s) fun answer=>∀ payload∈answer, Agreed cr point peer payload:=by
  obtain ⟨-,scalar,publicKey,hpublic,hpoint,hrecord⟩:=h
  unfold agreeKey appGets
  rw [bind_gets]
  split
  · exact answers_refused (by decide) (by decide)
  split
  · exact answers_refused (by decide) (by decide)
  have hload:=load9dScalar_held hcalls (show point.length=65 by rw [← hpoint]; simp) hrecord
  have hecdh : call ((pivBackend cr).keyEcdh (fit 65 peer)) s=(.ok (if (fit 65 peer).toList.headD 0=0x04 then
      cr.scalarEcdh scalar (fit 65 peer) else none),s):=by
    refine call_ok (?_ : cbKeyEcdh cr (fit 65 peer) s.be=_)
    unfold cbKeyEcdh
    rw [bind_of_ok hload]
    rfl
  rw [bind_of_ok hecdh]
  by_cases hform : (fit 65 peer).toList.headD 0=0x04
  · rw [if_pos hform]
    cases hshared : cr.scalarEcdh scalar (fit 65 peer) with
    | none=>exact answers_refused (by decide) (by decide)
    | some shared=>
      exact answers_emitBuilt fun payload hpayload=>⟨scalar,publicKey,shared,hpublic,hpoint,hshared,hpayload⟩
  · rw [if_neg hform]
    exact answers_refused (by decide) (by decide)

theorem answers_cmdGeneralAuth (hcalls : s.be.env.calls=[]) (h : KeyHeld cr c.p2 point s.be.badge.chip) :
    Answers (cmdGeneralAuth (pivBackend cr) c s) fun answer=>
      ∀ payload∈answer, Authenticates cr c.p2 point c.data payload:=by
  have h9B : c.p2≠key9B:=by
    intro h9B
    rw [h9B] at h
    exact absurd h.1 (by decide)
  unfold cmdGeneralAuth
  cases hinner : tlvFind c.data tagDynAuth with
  | none=>exact answers_refused (by decide) (by decide)
  | some inner=>
    dsimp only
    rw [if_neg h9B]
    split
    · exact answers_refused (by decide) (by decide)
    cases hpeer : (if c.p2=key9D then tlvFind inner tagExp else none) with
    | some peer=>
      have h9D : c.p2=key9D:=by
        by_contra hne
        rw [if_neg hne] at hpeer
        cases hpeer
      rw [h9D] at h
      refine fun reply hreply payload hpayload=>⟨inner,hinner,?_⟩
      rw [hpeer]
      exact answers_agreeKey hcalls h peer c.le reply hreply payload hpayload
    | none=>
      dsimp only
      cases hchallenge : tlvFind inner tagChallenge with
      | none=>exact answers_refused (by decide) (by decide)
      | some challenge=>
        dsimp only
        split
        · exact answers_refused (by decide) (by decide)
        · refine fun reply hreply payload hpayload=>⟨inner,hinner,?_⟩
          rw [hpeer]
          exact answers_signChallenge hcalls h hchallenge c.le reply hreply payload hpayload

theorem answers_cmdGetMetadata (hcalls : s.be.env.calls=[]) (hready : Ready s.be) (href : isKeyRef c.p2=true)
    (h : KeyHeld cr c.p2 point s.be.badge.chip) :
    Answers (cmdGetMetadata (pivBackend cr) c s) fun answer=>∃ payload∈answer, pointIn 0x04 payload=some point:=by
  have hload : call (pivBackend cr).stateLoad s=(.ok (some s.be.state),s):=by
    refine call_ok (?_ : cbStateLoad s.be=_)
    unfold cbStateLoad stateEnsure
    simp only [bind_apply,gets_apply,hready.1,if_true,pure_apply,Bool.not_true,Bool.false_eq_true,if_false]
  have h9B : c.p2≠key9B:=by
    intro h9B
    rw [h9B] at href
    exact absurd href (by decide)
  have hpresent : call ((pivBackend cr).keyPresent c.p2) s=(.ok true,s):=call_ok (cbKeyPresent_held hcalls h)
  obtain ⟨pub,hpub,rfl⟩:=cbKeyPubkey_held hcalls h
  have hpubkey : call ((pivBackend cr).keyPubkey c.p2) s=(.ok (some pub),s):=call_ok hpub
  unfold cmdGetMetadata
  rw [bind_of_ok hload]
  dsimp only
  rw [if_neg h9B,if_pos href,bind_of_ok hpresent]
  simp only [Bool.not_true,Bool.false_eq_true,if_false]
  rw [bind_of_ok hpubkey]
  dsimp only
  rw [metadata_some]
  have hshort : (metadataPayload pub.toList).length ≤ respBufferSize:=by simp [metadataPayload,respBufferSize]
  obtain ⟨reply,app,hemit,hpayload⟩:=emit_payload hshort c.le s
  rw [hemit]
  intro reply' h'
  cases h'
  exact ⟨_,hpayload,pointIn_metadata (by simp)⟩

end Answers

/-- A device and the points that `GENERATE` answered last. -/
structure Made where
  dev : Device
  made : UInt8→Option Bytes:=fun _=>none

def Made.step (cr : PivCrypto) (shortReads : Bool) (a : Made) (i : DeviceInput) : Made:=
  let r:=a.dev.respond cr shortReads i
  { dev:=r.2
    made:=match i.op,r.1 with
      | .apdu raw,some reply=>match commandOf a.dev.ctx raw with
        | some c=>madeAfter a.made c (payloadOf reply r.2.ctx.app.resp)
        | none=>a.made
      | _,_=>a.made }

/-- The chip does what it is asked to, and a boot finds something in the R-Memory slot of every key that was made. -/
def Sheltered (shortReads : Bool) (a : Made) (i : DeviceInput) : Prop:=
  i.env.calls=[] ∧ match i.op with
    | .boot=>(a.made key9A≠none → shortReads=true) ∧ ∀ keyRef∈[key9C,key9E], a.made keyRef≠none →
      sheltered shortReads keyRef a.dev.ctx.be.badge.chip
    | _=>True

/-- The answers to a step are made with the keys whose points were answered last. -/
def AnswersMade (cr : PivCrypto) (shortReads : Bool) (a : Made) (i : DeviceInput) : Prop:=
  ∀ raw, i.op=.apdu raw→∀ reply∈(a.dev.respond cr shortReads i).1, ∀ c∈commandOf a.dev.ctx raw,
    ∀ point∈a.made c.p2,
      let answer:=payloadOf reply (a.dev.respond cr shortReads i).2.ctx.app.resp
      (c.ins=insGetMetadata→∃ payload∈answer, pointIn 0x04 payload=some point) ∧
      (c.ins=insGeneralAuth→∀ payload∈answer, Authenticates cr c.p2 point c.data payload)

structure Made.Kept (cr : PivCrypto) (a : Made) : Prop where
  held : ∀ keyRef point, a.made keyRef=some point→KeyHeld cr keyRef point a.dev.ctx.be.badge.chip ∧
    occupied true a.dev.ctx.be.badge.chip stateSlot=true
  on : a.dev.on=true→Ready a.dev.ctx.be

theorem KeyHeld.isKeyRef {cr : PivCrypto} {keyRef : UInt8} {point : Bytes} {c : Chip Bytes} (h : KeyHeld cr keyRef point c) :
    isKeyRef keyRef=true:=by
  unfold KeyHeld eccSlotFor at h
  unfold Piv.isKeyRef
  split_ifs at h with h9A h9C h9E
  · rw [h9A]
    rfl
  · rw [h9C]
    rfl
  · rw [h9E]
    rfl
  · rw [h.1]
    rfl

section Runs

variable {cr : PivCrypto} {shortReads : Bool} {a : Made}

theorem Made.Kept.standing (ha : a.Kept cr) (hon : a.dev.on=true) (e : Env) :
    Standing cr a.made (a.dev.ctx.be.given e):=
  ⟨ha.on hon,fun keyRef point hmade=>(ha.held keyRef point hmade).1⟩

theorem Standing.kept {d : Device} {made : UInt8→Option Bytes} (h : Standing cr made d.ctx.be) :
    Made.Kept cr {dev:=d,made}:=
  ⟨fun keyRef point hmade=>⟨h.held keyRef point hmade,h.ready.2⟩,fun _=>h.ready⟩

theorem Standing.kept_powerCut {d : Device} {made : UInt8→Option Bytes} (h : Standing cr made d.ctx.be) :
    Made.Kept cr {dev:=d.powerCut,made}:=
  ⟨fun keyRef point hmade=>⟨h.held keyRef point hmade,h.ready.2⟩,nofun⟩

theorem respond_command {d : Device} (hon : d.on=true) {raw : Bytes} (hc : commandOf d.ctx raw=some c) (e : Env) :
    d.respond cr shortReads ⟨.apdu raw,e⟩=match dispatch (pivBackend cr) c {d.ctx with be:=d.ctx.be.given e} with
      | (.ok reply,ctx)=>(some reply,{ctx:={ctx with app:={ctx.app with chain:={}}},on:=true})
      | (.error _,ctx)=>(none,({ctx,on:=true} : Device).powerCut):=by
  have hcommand : commandOf {d.ctx with be:=d.ctx.be.given e} raw=some c:=hc
  rw [respond_apdu hon,processApdu_command hcommand,bind_apply]
  cases dispatch (pivBackend cr) c {d.ctx with be:=d.ctx.be.given e} with
  | mk r ctx=>cases r <;> rfl

theorem kept_command (ha : a.Kept cr) (hon : a.dev.on=true) {raw : Bytes} {e : Env} (hcalls : e.calls=[])
    (hc : commandOf a.dev.ctx raw=some c) : (a.step cr shortReads ⟨.apdu raw,e⟩).Kept cr:=by
  have hleaves:=standing_dispatch (ha.standing hon e) (s:={a.dev.ctx with be:=a.dev.ctx.be.given e}) hcalls c
  unfold Made.step
  rw [respond_command hon hc]
  unfold LeavesStanding at hleaves
  cases hr : dispatch (pivBackend cr) c {a.dev.ctx with be:=a.dev.ctx.be.given e} with
  | mk r ctx=>
    rw [hr] at hleaves
    cases r with
    | ok reply=>
      simp only [hc]
      exact Standing.kept hleaves
    | error e'=>exact Standing.kept_powerCut (d:={ctx,on:=true}) hleaves

theorem kept_noCommand (ha : a.Kept cr) (hon : a.dev.on=true) {raw : Bytes} {e : Env}
    (hc : commandOf a.dev.ctx raw=none) : (a.step cr shortReads ⟨.apdu raw,e⟩).Kept cr:=by
  have hcommand : commandOf {a.dev.ctx with be:=a.dev.ctx.be.given e} raw=none:=hc
  obtain ⟨reply,app,hprocess,-⟩:=@processApdu_other _ (pivBackend cr) _ _ hcommand
  unfold Made.step
  rw [respond_apdu hon,hprocess]
  simp only [hc]
  exact Standing.kept (ha.standing hon e)

theorem sheltered_of_boot (hboot : (a.made key9A≠none → shortReads=true) ∧ ∀ keyRef∈[key9C,key9E],
      a.made keyRef≠none → sheltered shortReads keyRef a.dev.ctx.be.badge.chip) {keyRef : UInt8} {point : Bytes}
    (hmade : a.made keyRef=some point) (hstate : occupied true a.dev.ctx.be.badge.chip stateSlot=true) :
    sheltered shortReads keyRef a.dev.ctx.be.badge.chip:=by
  have hsome : a.made keyRef≠none:=by rw [hmade]; exact Option.some_ne_none _
  by_cases h9A : keyRef=key9A
  · rw [h9A] at hsome ⊢
    rw [hboot.1 hsome]
    intro slot hslot
    cases hslot
    exact hstate
  by_cases hother : keyRef∈[key9C,key9E]
  · exact hboot.2 keyRef hother hsome
  · intro slot hslot
    simp only [List.mem_cons,List.not_mem_nil,or_false,not_or] at hother
    rw [eccSlotFor,if_neg h9A,if_neg hother.1,if_neg hother.2] at hslot
    cases hslot

theorem kept_keyBoot (ha : a.Kept cr) {e : Env} (h : Sheltered shortReads a ⟨.boot,e⟩) :
    (a.step cr shortReads ⟨.boot,e⟩).Kept cr:=by
  obtain ⟨hcalls,hboot⟩:=h
  set k : Keys:=a.dev.bootKeys e with hk
  have hheld : ∀ keyRef point, a.made keyRef=some point →
      KeyHeld cr keyRef point (pivInit shortReads k).2.badge.chip ∧
        occupied true (pivInit shortReads k).2.badge.chip stateSlot=true:=by
    intro keyRef point hmade
    obtain ⟨hkey,hstate⟩:=ha.held keyRef point hmade
    exact ⟨keyHeld_pivInit hcalls hkey (sheltered_of_boot hboot hmade hstate),occupied_pivInit hcalls hstate⟩
  have hready:=@ready_pivInit shortReads k
  unfold Made.step
  rw [respond_boot]
  cases hr : pivInit shortReads k with
  | mk r k'=>
    rw [hr] at hheld
    cases r with
    | ok on=>
      refine ⟨hheld,fun hon=>hready hcalls ?_⟩
      rw [hr,show on=true from hon]
    | error e'=>exact ⟨hheld,fun hoff=>by cases hoff⟩

theorem Made.Kept.step (ha : a.Kept cr) {i : DeviceInput} (h : Sheltered shortReads a i) :
    (a.step cr shortReads i).Kept cr:=by
  obtain ⟨op,e⟩:=i
  cases op with
  | apdu raw=>
    by_cases hon : a.dev.on=true
    · cases hc : commandOf a.dev.ctx raw with
      | none=>exact kept_noCommand ha hon hc
      | some c=>exact kept_command ha hon h.1 hc
    · have hrespond : a.dev.respond cr shortReads ⟨.apdu raw,e⟩=(none,a.dev):=by
        simp only [Device.respond]
        rw [if_pos (by simpa using hon)]
      unfold Made.step
      rw [hrespond]
      exact ha
  | deselect=>exact ⟨ha.held,ha.on⟩
  | boot=>exact kept_keyBoot ha h
  | others badge=>
    have hmemory:=pivMemory_shared a.dev.ctx.be badge
    have hrmem:=pivMemory_rmem hmemory (show pivSlot stateSlot=true from rfl)
    have hstate:=occupied_congr true hrmem
    refine ⟨fun keyRef point hmade=>?_,fun hon=>?_⟩
    · obtain ⟨hkey,hrecord⟩:=ha.held keyRef point hmade
      exact ⟨hkey.of_memory hmemory,hstate.trans hrecord⟩
    · obtain ⟨hloaded,hrecord⟩:=ha.on hon
      exact ⟨hloaded,hstate.trans hrecord⟩

theorem Made.Kept.answers (ha : a.Kept cr) {i : DeviceInput} (h : Sheltered shortReads a i) :
    AnswersMade cr shortReads a i:=by
  obtain ⟨op,e⟩:=i
  rintro raw rfl reply hreply c hc point hmade
  have hkey:=(ha.held c.p2 point hmade).1
  have hon : a.dev.on=true:=by
    by_contra hoff
    have hrespond : a.dev.respond cr shortReads ⟨.apdu raw,e⟩=(none,a.dev):=by
      simp only [Device.respond]
      rw [if_pos (by simpa using hoff)]
    rw [hrespond] at hreply
    cases hreply
  set s : Ctx Keys:={a.dev.ctx with be:=a.dev.ctx.be.given e}
  rw [respond_command hon hc] at hreply ⊢
  cases hr : dispatch (pivBackend cr) c s with
  | mk r ctx=>
    rw [hr] at hreply
    cases r with
    | error e'=>cases hreply
    | ok reply'=>
      cases hreply
      refine ⟨fun hins=>?_,fun hins=>?_⟩
      · have hdispatch : dispatch (pivBackend cr) c=cmdGetMetadata (pivBackend cr) c:=by
          simp only [dispatch,hins]
          rfl
        rw [hdispatch] at hr
        have hanswers:=answers_cmdGetMetadata (s:=s) h.1 (ha.on hon) hkey.isKeyRef hkey
        rw [hr] at hanswers
        exact hanswers reply rfl
      · have hdispatch : dispatch (pivBackend cr) c=cmdGeneralAuth (pivBackend cr) c:=by
          simp only [dispatch,hins]
          rfl
        rw [hdispatch] at hr
        have hanswers:=answers_cmdGeneralAuth (s:=s) (c:=c) h.1 hkey
        rw [hr] at hanswers
        exact hanswers reply rfl

end Runs

def Made.start (keys : Keys) (respMax : ℕ) : Made:={dev:={ctx:={be:=keys,respMax}}}

/-- In a run in which every boot finds something in the R-Memory slots of the keys that were made, `GET METADATA` and
`GENERAL AUTHENTICATE` answer with those keys. -/
theorem generated_keys_answer (cr : PivCrypto) (shortReads : Bool) (keys : Keys) (respMax : ℕ) (is : List DeviceInput)
    (h : Runs.AlongRun (Made.step cr shortReads) (Sheltered shortReads) (Made.start keys respMax) is) :
    Runs.AlongRun (Made.step cr shortReads) (AnswersMade cr shortReads) (Made.start keys respMax) is:=
  Runs.AlongRun.of_invariant (I:=Made.Kept cr) (fun _ _ hi ha=>⟨ha.answers hi,ha.step hi⟩) ⟨nofun,nofun⟩ h

instance (shortReads : Bool) (keyRef : UInt8) (c : Chip Bytes) : Decidable (sheltered shortReads keyRef c):=
  inferInstanceAs (Decidable (∀ slot∈eccSlotFor keyRef, _))

instance (shortReads : Bool) (a : Made) : (i : DeviceInput)→Decidable (Sheltered shortReads a i)
  | ⟨.boot,e⟩=>@instDecidableAnd (e.calls=[]) _ inferInstance <|
    @instDecidableAnd _ _ (@instDecidableForall _ _ inferInstance inferInstance) <|
      @List.decidableBAll _ _ (fun _=>@instDecidableForall _ _ inferInstance inferInstance) _
  | ⟨.apdu _,e⟩ | ⟨.deselect,e⟩ | ⟨.others _,e⟩=>@instDecidableAnd (e.calls=[]) True inferInstance inferInstance

def generateKeyApdu (keyRef : UInt8) : Bytes:=
  [0x00,insGenerateKeypair,0x00,keyRef,0x05,0xAC,0x03,0x80,0x01,algEccP256,0x00]

def metadataApdu (keyRef : UInt8) : Bytes:=[0x00,insGetMetadata,0x00,keyRef,0x00]

def generateInputs (keyRef : UInt8) : List DeviceInput:=
  [⟨.boot,{}⟩,⟨.apdu drawApdu,{}⟩,⟨.apdu answerApdu,{}⟩,⟨.apdu (generateKeyApdu keyRef),{}⟩,⟨.boot,{}⟩]

def metadataInput (keyRef : UInt8) : DeviceInput:=⟨.apdu (metadataApdu keyRef),{}⟩

theorem generated_keys_answer_9A :
    (Runs.run (Made.step .plain true) (Made.start blankKeys 2048) (generateInputs key9A)).made key9A≠none ∧
      Runs.AlongRun (Made.step .plain true) (AnswersMade .plain true) (Made.start blankKeys 2048)
        (generateInputs key9A++[metadataInput key9A]):=
  ⟨by decide +kernel,generated_keys_answer .plain true blankKeys 2048 _ (by decide +kernel)⟩

/-- The key of 9C is an orphan to the sweep of the next boot. -/
theorem generated_keys_deleted : ¬ ∀ is : List DeviceInput,
    Runs.AlongRun (Made.step .plain true) (fun _ i=>i.env.calls=[]) (Made.start blankKeys 2048) is →
    Runs.AlongRun (Made.step .plain true) (AnswersMade .plain true) (Made.start blankKeys 2048) is:=by
  intro h
  have hanswers:=(Runs.alongRun_append.mp (h (generateInputs key9C++[metadataInput key9C]) (by decide +kernel))).2.1
  have hmade : (Runs.run (Made.step .plain true) (Made.start blankKeys 2048) (generateInputs key9C)).made key9C =
      some (0x04::List.replicate 64 0):=by decide +kernel
  have hreply : ((Runs.run (Made.step .plain true) (Made.start blankKeys 2048) (generateInputs key9C)).dev.respond .plain
      true (metadataInput key9C)).1=some {sw:=swRefNotFound}:=by decide +kernel
  have hcommand : (commandOf (Runs.run (Made.step .plain true) (Made.start blankKeys 2048)
      (generateInputs key9C)).dev.ctx (metadataApdu key9C)).map (fun c=>(c.ins,c.p2)) =
      some (insGetMetadata,key9C):=by decide +kernel
  generalize Runs.run (Made.step .plain true) (Made.start blankKeys 2048) (generateInputs key9C)=a at *
  obtain ⟨c,hc,hpair⟩:=Option.map_eq_some_iff.mp hcommand
  obtain ⟨hins,href⟩:=Prod.ext_iff.mp hpair
  rw [← show c.p2=key9C from href] at hmade
  obtain ⟨payload,hpayload,-⟩:=(hanswers (metadataApdu key9C) rfl _ hreply c hc _ hmade).1 hins
  rw [payloadOf_refused (by decide) (by decide)] at hpayload
  cases hpayload

end CdcBadge.Piv
