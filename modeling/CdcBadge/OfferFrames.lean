import CdcBadge.HeaderLists
import CdcBadge.MessageBonds

/-!
# Badge-to-badge messages: the OFFER frame

What a sender writes for an OFFER, and what a receiver makes of any write to its control
characteristic. The receiver cuts the frame by the lengths in its header, and what stands behind
the name, or in two bits of the byte with the name's length, is not looked at.
-/

namespace CdcBadge.Msg

open Tlv

/-- What a write to the control characteristic comes to. -/
inductive Control
  | ignored
  | abort
  | declined (reason : Reason)
  | offer (f : OfferFrame)

def control (data : Bytes) : Control:=
  if data=[] then .ignored
  else if data.getD 0 0=abortOp then .abort
  else if data.getD 0 0≠offerOp then .ignored
  else
    match parseOffer data with
    | .error reason=>.declined reason
    | .ok f=>.offer f

/-- `rdU32`, by addresses. -/
def rdU32At (data : Bytes) (pos : ℕ) : Scan UInt32:=do
  let b₀ ← byteAt data pos
  let b₁ ← byteAt data (pos+1)
  let b₂ ← byteAt data (pos+2)
  let b₃ ← byteAt data (pos+3)
  pure (ofBe32 b₃ b₂ b₁ b₀)

def nameAt (data : Bytes) (start len : ℕ) : Scan Bytes:=if 0 < len then copyAt data start len else pure []

/-- The reading of `onControlWrite`, by addresses. -/
def controlAt (data : Bytes) : Scan Control:=
  if data.length < 1 then pure .ignored
  else do
    let op ← byteAt data 0
    if op=abortOp then pure .abort
    else if op≠offerOp then pure .ignored
    else if data.length < kOfferHeaderLen then pure (.declined Reason.badFrame)
    else
      let ver ← byteAt data 1
      let totalLen ← rdU32At data 2
      let mimeLen ← byteAt data 6
      let nameByte ← byteAt data 7
      let nameLen:=(nameByte &&& 0x1F).toNat
      if ver≠kProtocolVersion ∨ mimeLen.toNat=0 ∨ kMaxMimeLen < mimeLen.toNat ∨ kMaxNameLen < nameLen ∨
          data.length < kOfferHeaderLen+mimeLen.toNat+nameLen then pure (.declined Reason.badFrame)
      else if totalLen.toNat=0 ∨ kMaxPayloadBytes < totalLen.toNat then pure (.declined Reason.tooLarge)
      else
        let mime ← copyAt data kOfferHeaderLen mimeLen.toNat
        let name ← nameAt data (kOfferHeaderLen+mimeLen.toNat) nameLen
        pure (.offer {mime:=cstr mime,totalLen:=totalLen.toNat,name:=cstr name,persist:=nameByte &&& 0x80≠0})

section Reading

variable {data : Bytes}

theorem byteAt_lt {i : ℕ} (h : i < data.length) : byteAt data i=.value (data.getD i 0):=by
  unfold byteAt
  rw [List.getElem?_eq_getElem h]
  simp [List.getD,h]

theorem rdU32At_lt {pos : ℕ} (h : pos+3 < data.length) : rdU32At data pos=.value (rdU32 data pos):=by
  unfold rdU32At
  rw [byteAt_lt (by omega),Scan.value_bind,byteAt_lt (by omega),Scan.value_bind,byteAt_lt (by omega),Scan.value_bind,
    byteAt_lt h]
  rfl

theorem nameAt_le {start len : ℕ} (h : start+len ≤ data.length) : nameAt data start len=.value ((data.drop start).take len):=by
  unfold nameAt
  split_ifs with hlen
  · exact if_pos h
  · obtain rfl : len=0:=by omega
    rfl

theorem controlAt_eq (data : Bytes) : controlAt data=.value (control data):=by
  have hheader : kOfferHeaderLen=8:=rfl
  unfold controlAt control parseOffer
  cases data with
  | nil=>rfl
  | cons op rest=>
    have hne : ¬(op::rest).length < 1:=by simp
    rw [if_neg hne,if_neg (List.cons_ne_nil _ _),byteAt_lt (by simp),Scan.value_bind]
    generalize op::rest=data
    by_cases habort : data.getD 0 0=abortOp
    · rw [if_pos habort,if_pos habort]
      rfl
    rw [if_neg habort,if_neg habort]
    by_cases hoffer : data.getD 0 0≠offerOp
    · rw [if_pos hoffer,if_pos hoffer]
      rfl
    rw [if_neg hoffer,if_neg hoffer]
    by_cases hlength : data.length < kOfferHeaderLen
    · rw [if_pos hlength,if_pos hlength]
      rfl
    rw [if_neg hlength,if_neg hlength,byteAt_lt (by omega),Scan.value_bind,rdU32At_lt (by omega),Scan.value_bind,
      byteAt_lt (by omega),Scan.value_bind,byteAt_lt (by omega),Scan.value_bind]
    dsimp only
    split_ifs with hframe htotal
    · rfl
    · rfl
    · have hfits : kOfferHeaderLen+(data.getD 6 0).toNat+(data.getD 7 0 &&& 0x1F).toNat ≤ data.length:=by
        simp only [not_or,not_lt] at hframe
        exact hframe.2.2.2.2
      have hcopy : copyAt data kOfferHeaderLen (data.getD 6 0).toNat =
          .value ((data.drop kOfferHeaderLen).take (data.getD 6 0).toNat):=if_pos (by omega)
      rw [hcopy,Scan.value_bind,nameAt_le hfits,Scan.value_bind]
      rfl

end Reading

/-- The fields of an OFFER: a MIME type as it fits its buffer, and a length that a transfer may have. -/
structure OfferFields (mime : Bytes) (totalLen : ℕ) : Prop where
  noNul : (0 : UInt8) ∉ mime
  nonempty : mime≠[]
  short : mime.length ≤ kMaxMimeLen
  payload : totalLen≠0
  small : totalLen ≤ kMaxPayloadBytes

def IsOffer (data : Bytes) : Prop:=
  ∃ totalLen mime name persist, OfferFields mime totalLen ∧ name.length ≤ kMaxNameLen ∧
    data=offerFrame totalLen mime name persist

/-- What starts with the parts of an OFFER. The name's length lies in the lower five bits of its byte and the flag in
the highest. -/
structure StartsOffer (f : OfferFrame) (data : Bytes) : Prop where
  parts : ∃ mime name rest : Bytes, ∃ nameByte : UInt8,
    data=offerOp::kProtocolVersion::wrU32 (UInt32.ofNat f.totalLen) ++
      [UInt8.ofNat mime.length,nameByte]++mime++name++rest ∧
    (nameByte &&& 0x1F).toNat=name.length ∧ f.persist=decide (nameByte &&& 0x80≠0) ∧
    mime≠[] ∧ mime.length ≤ kMaxMimeLen ∧ f.mime=cstr mime ∧ f.name=cstr name
  payload : f.totalLen≠0
  small : f.totalLen ≤ kMaxPayloadBytes

section Frame

variable {totalLen : ℕ} {mime name data : Bytes} {persist : Bool} {f : OfferFrame}

theorem parseOffer_cons (op ver t₀ t₁ t₂ t₃ m n : UInt8) (body : Bytes) :
    parseOffer (op::ver::t₀::t₁::t₂::t₃::m::n::body) =
      if ver≠kProtocolVersion ∨ m.toNat=0 ∨ kMaxMimeLen < m.toNat ∨ kMaxNameLen < (n &&& 0x1F).toNat ∨
          body.length < m.toNat+(n &&& 0x1F).toNat then .error Reason.badFrame
      else if (ofBe32 t₃ t₂ t₁ t₀).toNat=0 ∨ kMaxPayloadBytes < (ofBe32 t₃ t₂ t₁ t₀).toNat then .error Reason.tooLarge
      else .ok {
        mime:=cstr (body.take m.toNat)
        totalLen:=(ofBe32 t₃ t₂ t₁ t₀).toNat
        name:=cstr ((body.drop m.toNat).take (n &&& 0x1F).toNat)
        persist:=n &&& 0x80≠0 }:=by
  have hlong : ¬(op::ver::t₀::t₁::t₂::t₃::m::n::body).length < kOfferHeaderLen:=by simp [kOfferHeaderLen]
  have hfits : (op::ver::t₀::t₁::t₂::t₃::m::n::body).length < kOfferHeaderLen+m.toNat+(n &&& 0x1F).toNat ↔
      body.length < m.toNat+(n &&& 0x1F).toNat:=by
    simp only [List.length_cons,kOfferHeaderLen]
    omega
  have hdrop : (op::ver::t₀::t₁::t₂::t₃::m::n::body).drop (kOfferHeaderLen+m.toNat)=body.drop m.toNat:=by
    rw [← List.drop_drop]
    rfl
  unfold parseOffer
  rw [if_neg hlong]
  simp only [List.getD_cons_succ,List.getD_cons_zero,hfits,hdrop]
  rfl

theorem toNat_ofNat_length {bs : Bytes} {n : ℕ} (h : bs.length ≤ n) (hn : n < 256) : (UInt8.ofNat bs.length).toNat=bs.length:=by
  rw [UInt8.toNat_ofNat']
  omega

theorem nameByte_parts (h : name.length ≤ kMaxNameLen) (persist : Bool) :
    ((UInt8.ofNat name.length ||| if persist then 0x80 else 0) &&& 0x1F).toNat=name.length ∧
      decide ((UInt8.ofNat name.length ||| if persist then 0x80 else 0) &&& 0x80≠0)=persist ∧
      (UInt8.ofNat name.length ||| if persist then 0x80 else 0) &&& 0x60=0:=by
  have hall : ∀ n ≤ kMaxNameLen, ∀ p : Bool, ((UInt8.ofNat n ||| if p then 0x80 else 0) &&& 0x1F).toNat=n ∧
      decide ((UInt8.ofNat n ||| if p then 0x80 else 0) &&& 0x80≠0)=p ∧
      (UInt8.ofNat n ||| if p then 0x80 else 0) &&& 0x60=0:=by
    decide
  exact hall name.length h persist

theorem exists_header (h : kOfferHeaderLen ≤ data.length) : ∃ op ver t₀ t₁ t₂ t₃ m n body,
    data=op::ver::t₀::t₁::t₂::t₃::m::n::body:=by
  unfold kOfferHeaderLen at h
  rcases data with _ | ⟨op,_ | ⟨ver,_ | ⟨t₀,_ | ⟨t₁,_ | ⟨t₂,_ | ⟨t₃,_ | ⟨m,_ | ⟨n,body⟩⟩⟩⟩⟩⟩⟩⟩
  on_goal 9=>exact ⟨op,ver,t₀,t₁,t₂,t₃,m,n,body,rfl⟩
  all_goals simp at h

theorem control_offerOp (rest : Bytes) : control (offerOp::rest)=match parseOffer (offerOp::rest) with
    | .error reason=>.declined reason
    | .ok f=>.offer f:=by
  simp [control,offerOp,abortOp]

theorem control_offer_iff : control data=.offer f ↔ StartsOffer f data:=by
  constructor
  · intro h
    unfold control at h
    split_ifs at h with hempty habort hop
    rw [ne_eq,not_not] at hop
    cases hparse : parseOffer data with
    | error reason=>
      rw [hparse] at h
      cases h
    | ok f'=>
      rw [hparse] at h
      cases h
      have hlong : kOfferHeaderLen ≤ data.length:=by
        by_contra hshort
        rw [parseOffer,if_pos (not_le.mp hshort)] at hparse
        cases hparse
      obtain ⟨op,ver,t₀,t₁,t₂,t₃,m,n,body,rfl⟩:=exists_header hlong
      rw [parseOffer_cons] at hparse
      split_ifs at hparse with hframe htotal
      cases hparse
      simp only [not_or,not_lt,ne_eq,not_not] at hframe htotal
      obtain ⟨hver,hm,hmime,hname,hfits⟩:=hframe
      have hop' : op=offerOp:=hop
      subst hver hop'
      have hlength : (body.take m.toNat).length=m.toNat:=by rw [List.length_take]; omega
      have hnameLength : ((body.drop m.toNat).take (n &&& 0x1F).toNat).length=(n &&& 0x1F).toNat:=by
        rw [List.length_take,List.length_drop]
        omega
      refine ⟨⟨body.take m.toNat,(body.drop m.toNat).take (n &&& 0x1F).toNat,
        (body.drop m.toNat).drop (n &&& 0x1F).toNat,n,?_,hnameLength.symm,rfl,?_,?_,rfl,rfl⟩,htotal.1,htotal.2⟩
      · rw [hlength,UInt8.ofNat_toNat,UInt32.ofNat_toNat,wrU32,be32_ofBe32]
        simp only [List.append_assoc,List.take_append_drop]
        rfl
      · exact List.ne_nil_of_length_pos (by omega)
      · omega
  · rintro ⟨⟨mime,name,rest,n,rfl,hname,hpersist,hne,hmime,hfmime,hfname⟩,hpayload,hsmall⟩
    have hmimeMax : kMaxMimeLen=63:=rfl
    have hm : (UInt8.ofNat mime.length).toNat=mime.length:=toNat_ofNat_length hmime (by decide)
    have hv : (UInt32.ofNat f.totalLen).toNat=f.totalLen:=by
      have hmax : kMaxPayloadBytes=4096:=rfl
      rw [UInt32.toNat_ofNat']
      omega
    have hn : (n &&& 0x1F).toNat ≤ kMaxNameLen:=by
      rw [UInt8.toNat_and]
      exact Nat.and_le_right
    generalize hnum : UInt32.ofNat f.totalLen=v at hv ⊢
    have hbytes : offerOp::kProtocolVersion::wrU32 v++[UInt8.ofNat mime.length,n]++mime++name++rest =
        offerOp::kProtocolVersion::v.toUInt8::(v >>> 8).toUInt8::(v >>> 16).toUInt8::(v >>> 24).toUInt8 ::
          UInt8.ofNat mime.length::n::(mime++(name++rest)):=by
      simp [wrU32,be32]
    have hpos:=List.length_pos_iff.mpr hne
    have hfits : ¬(mime++(name++rest)).length < mime.length+(n &&& 0x1F).toNat:=by
      simp only [List.length_append]
      omega
    have hto : ofBe32 (v >>> 24).toUInt8 (v >>> 16).toUInt8 (v >>> 8).toUInt8 v.toUInt8=v:=ofBe32_be32 v
    rw [hbytes,control_offerOp,parseOffer_cons,hto,hm,hv,
      if_neg (by simp only [not_or,not_lt]; exact ⟨not_not.mpr rfl,by omega,hmime,hn,by omega⟩),
      if_neg (by simp only [not_or,not_lt]; exact ⟨hpayload,hsmall⟩)]
    dsimp only
    rw [List.take_left',List.drop_left',List.take_left',← hfmime,← hfname,← hpersist]
    · exact hname.symm
    · rfl
    · rfl

theorem startsOffer_offerFrame (h : OfferFields mime totalLen) (hname : name.length ≤ kMaxNameLen) (persist : Bool) :
    StartsOffer ⟨mime,totalLen,cstr name,persist⟩ (offerFrame totalLen mime name persist):=by
  obtain ⟨hlength,hflag,-⟩:=nameByte_parts hname persist
  refine ⟨⟨mime,name,[],_,?_,hlength,hflag.symm,h.nonempty,h.short,(cstr_eq_self h.noNul).symm,rfl⟩,
    h.payload,h.small⟩
  simp [offerFrame]

/-- The frame ends with the name, and two bits of the byte with the name's length are clear. -/
theorem IsOffer.header (h : IsOffer data) :
    data.length=kOfferHeaderLen+(data.getD 6 0).toNat+(data.getD 7 0 &&& 0x1F).toNat ∧ data.getD 7 0 &&& 0x60=0 ∧
      cstr ((data.drop kOfferHeaderLen).take (data.getD 6 0).toNat)=(data.drop kOfferHeaderLen).take (data.getD 6 0).toNat:=by
  obtain ⟨totalLen,mime,name,persist,hfields,hname,rfl⟩:=h
  obtain ⟨hlength,-,hclear⟩:=nameByte_parts hname persist
  have hm : (UInt8.ofNat mime.length).toNat=mime.length:=toNat_ofNat_length hfields.short (by decide)
  have hbytes : offerFrame totalLen mime name persist=offerOp::kProtocolVersion::(UInt32.ofNat totalLen).toUInt8 ::
      (UInt32.ofNat totalLen >>> 8).toUInt8::(UInt32.ofNat totalLen >>> 16).toUInt8 ::
      (UInt32.ofNat totalLen >>> 24).toUInt8::UInt8.ofNat mime.length ::
      (UInt8.ofNat name.length ||| if persist then 0x80 else 0)::(mime++name):=by
    simp [offerFrame,wrU32,be32]
  rw [hbytes]
  simp only [List.getD_cons_succ,List.getD_cons_zero,hm,hlength,List.length_cons,List.length_append,kOfferHeaderLen,
    List.drop_succ_cons,List.drop_zero,List.take_left',cstr_eq_self hfields.noNul]
  exact ⟨by omega,hclear,trivial⟩

end Frame

namespace Transfer

section Receiver

variable (s : Transfer)

/-- What `onControlWrite` does with what it has read. -/
def takeControl (conn : UInt16) (link : Link) (c : Control) (env : Env) : Transfer:=
  if env.locked=false then s
  else
    match c with
    | .ignored=>s
    | .abort=>if s.recv.state≠.idle ∧ conn=s.recv.conn then s.failRecv Reason.disconnected else s
    | .declined reason=>s.notifyStatusByte conn .decline reason
    | .offer f=>
      if env.hasHandler=false ∧ env.canHandle=false then s.notifyStatusByte conn .decline Reason.noHandler
      else
        let (ok,s):=s.rateLimitOk conn env.now
        if ok then s.enqueueOffer conn link f env else s.notifyStatus conn .busy

variable {s} {conn : UInt16} {link : Link} {data : Bytes} {env : Env}

theorem onControlWrite_eq : s.onControlWrite conn link data env=s.takeControl conn link (control data) env:=by
  unfold onControlWrite takeControl control
  by_cases hlocked : env.locked=false
  · rw [if_pos (.inr hlocked),if_pos hlocked]
  rw [if_neg hlocked]
  by_cases hempty : data=[]
  · rw [if_pos (.inl hempty),if_pos hempty]
  rw [if_neg (not_or.mpr ⟨hempty,hlocked⟩),if_neg hempty]
  by_cases habort : data.getD 0 0=abortOp
  · rw [if_pos habort,if_pos habort]
  rw [if_neg habort,if_neg habort]
  by_cases hoffer : data.getD 0 0≠offerOp
  · rw [if_pos hoffer,if_pos hoffer]
  rw [if_neg hoffer,if_neg hoffer]
  cases parseOffer data <;> rfl

def offerOf (s : Transfer) (conn : UInt16) (link : Link) (f : OfferFrame) (env : Env) : Offer where
  id:=s.nextOffer
  link:=link
  conn:=conn
  mime:=f.mime
  peerName:=f.name
  totalLen:=f.totalLen
  enqueuedMs:=env.later
  persist:=f.persist

theorem queue_of_essential {t : Transfer} (h : t.essential=s.essential) : t.queue=s.queue:=by
  have hqueue : t.essential.queue=s.essential.queue:=congrArg queue h
  exact hqueue

variable (s conn link env) in
theorem queue_enqueueOffer (f : OfferFrame) : (s.enqueueOffer conn link f env).queue=s.queue ∨
    ∃ i, s.queue i=none ∧ (s.enqueueOffer conn link f env).queue=Function.update s.queue i (some (s.offerOf conn link f env)):=by
  unfold enqueueOffer
  cases hslot : findSlot s.queue Option.isNone with
  | none=>exact .inl (queue_of_essential (essential_notifyStatus conn .busy))
  | some i=>
    refine .inr ⟨i,Option.isNone_iff_eq_none.mp (findSlot_some hslot),?_⟩
    dsimp only
    split_ifs
    · exact queue_of_essential (essential_notifyStatus conn .queued)
    · rfl

theorem queue_onControlWrite : (s.onControlWrite conn link data env).queue=s.queue ∨ ∃ f i, StartsOffer f data ∧
    s.queue i=none ∧
    (s.onControlWrite conn link data env).queue=Function.update s.queue i (some (s.offerOf conn link f env)):=by
  rw [onControlWrite_eq]
  unfold takeControl
  by_cases hlocked : env.locked=false
  · rw [if_pos hlocked]
    exact .inl rfl
  · rw [if_neg hlocked]
    cases hcontrol : control data with
    | ignored=>exact .inl rfl
    | abort=>
      dsimp only
      split_ifs <;> exact .inl rfl
    | declined reason=>exact .inl (queue_of_essential (essential_notifyStatusByte _ _ _))
    | offer f=>
      have hlimited:=essential_rateLimitOk (s:=s) conn env.now
      have hqueue : (s.rateLimitOk conn env.now).2.queue=s.queue:=queue_of_essential hlimited
      have hoffer : (s.rateLimitOk conn env.now).2.essential.nextOffer=s.essential.nextOffer:=congrArg nextOffer hlimited
      dsimp only
      split
      · exact .inl (queue_of_essential (essential_notifyStatusByte _ _ _))
      · split
        · obtain hfull | ⟨i,hfree,htaken⟩:=queue_enqueueOffer (s.rateLimitOk conn env.now).2 conn link env f
          · exact .inl (hfull.trans hqueue)
          · rw [hqueue] at hfree htaken
            have hmade : (s.rateLimitOk conn env.now).2.offerOf conn link f env=s.offerOf conn link f env:=by
              unfold offerOf
              rw [show (s.rateLimitOk conn env.now).2.nextOffer=s.nextOffer from hoffer]
            rw [hmade] at htaken
            exact .inr ⟨f,i,control_offer_iff.mp hcontrol,hfree,htaken⟩
        · exact .inl ((queue_of_essential (essential_notifyStatus _ _)).trans hqueue)

end Receiver

section Sender

variable {s t u : Transfer} {env : Env}

/-- The calls that were added meet a condition. -/
def Adds (P : BleCall→Prop) (s t : Transfer) : Prop:=∃ cs, t.calls=s.calls++cs ∧ ∀ c∈cs, P c

theorem Adds.refl (P : BleCall→Prop) (s : Transfer) : Adds P s s:=⟨[],(List.append_nil _).symm,by simp⟩

variable {P : BleCall→Prop}

theorem Adds.trans (h : Adds P s t) (h' : Adds P t u) : Adds P s u:=by
  obtain ⟨cs,hcs,hall⟩:=h
  obtain ⟨cs',hcs',hall'⟩:=h'
  refine ⟨cs++cs',by rw [hcs',hcs,List.append_assoc],fun c hc=>?_⟩
  obtain hc | hc:=List.mem_append.mp hc
  · exact hall c hc
  · exact hall' c hc

theorem Adds.same (h : Adds P s t) (hcalls : u.calls=t.calls) : Adds P s u:=by
  obtain ⟨cs,hcs,hall⟩:=h
  exact ⟨cs,hcalls.trans hcs,hall⟩

theorem Adds.call (h : Adds P s t) {c : BleCall} (hc : P c) : Adds P s (t.call c):=by
  refine h.trans ⟨[c],rfl,fun c' hc'=>?_⟩
  rw [List.mem_singleton.mp hc']
  exact hc

/-- What a condition says of the calls of a sender, but for those that offer. -/
structure Sending (P : BleCall→Prop) : Prop where
  disconnect : ∀ conn, P (.disconnect conn)
  cancelConnect : P .cancelConnect
  discover : ∀ conn, P (.discover conn)
  secure : ∀ conn, P (.initiateSecurity conn)
  chunk : ∀ conn attr payload rsp accepted, P (.write conn attr (chunkFrame payload) rsp accepted)
  complete : ∀ conn attr crc rsp accepted, P (.write conn attr (completeFrame crc) rsp accepted)

variable (hP : Sending P)
include hP

theorem Adds.teardownSend (h : Adds P s t) (ok : Bool) (reason : Reason) : Adds P s (t.teardownSend ok reason):=by
  unfold Transfer.teardownSend
  dsimp only
  split_ifs
  · exact Adds.call (h.same rfl) (hP.disconnect _)
  · exact Adds.call (h.same rfl) hP.cancelConnect

theorem Adds.timeOut (h : Adds P s t) (limit : UInt32) (env : Env) : Adds P s (t.timeOut limit env):=by
  unfold Transfer.timeOut
  split_ifs
  · exact h.teardownSend hP _ _
  · exact h

theorem Adds.streamLoop (h : Adds P s t) (n : ℕ) (writes : List Bool) : Adds P s (Transfer.streamLoop env n writes t).2:=by
  induction n generalizing t writes with
  | zero=>exact h
  | succ n ih=>
    unfold Transfer.streamLoop
    split_ifs
    · dsimp only [writeCharacteristic]
      split_ifs
      · apply ih
        exact Adds.same (h.call (hP.chunk _ _ _ _ _)) rfl
      · exact h.call (hP.chunk _ _ _ _ _)
    · exact h

theorem Adds.streamChunks (h : Adds P s t) : Adds P s (t.streamChunks env):=by
  unfold Transfer.streamChunks
  split_ifs with hbuf
  · exact h
  · have hloop : Adds P s (t.streamLoop env t.send.totalLen env.writes).2:=Adds.streamLoop hP h t.send.totalLen env.writes
    dsimp only [writeCharacteristic]
    split_ifs
    · exact hloop
    · exact hloop
    · exact Adds.same (hloop.call (hP.complete _ _ _ _ _)) rfl
    · exact hloop.call (hP.complete _ _ _ _ _)

/-- The calls of a tick, but for an OFFER once the peer's characteristics are known. -/
theorem tickSend_adds (hoffer : s.send.state=.discovering → s.send.failFlag=false → s.send.discoveredFlag=true →
    Adds P s (s.tickSend env)) : Adds P s (s.tickSend env):=by
  have hrefl:=Adds.refl P s
  by_cases hfound : s.send.state=.discovering ∧ s.send.failFlag=false ∧ s.send.discoveredFlag=true
  · exact hoffer hfound.1 hfound.2.1 hfound.2.2
  clear hoffer
  unfold tickSend
  split
  · exact hrefl.timeOut hP _ _
  · have hcall : Adds P s (({s with send:={s.send with connectedFlag:=false}} : Transfer).call (.discover s.send.conn)):=
      Adds.call (hrefl.same rfl) (hP.discover _)
    split
    · exact hrefl.teardownSend hP _ _
    · split
      · dsimp only
        split
        · exact hcall.same rfl
        · exact hcall.teardownSend hP _ _
      · exact hrefl.timeOut hP _ _
  · rename_i hstate
    split_ifs with hfail hdiscovered
    · exact hrefl.teardownSend hP _ _
    · exact absurd ⟨hstate,Bool.eq_false_iff.mpr hfail,hdiscovered⟩ hfound
    · exact hrefl.timeOut hP _ _
  · split_ifs
    · exact hrefl.teardownSend hP _ _
    · unfold secureSend
      dsimp only
      have hcall : Adds P s
          (({s with send:={s.send with acceptedFlag:=false}} : Transfer).call (.initiateSecurity s.send.conn)):=
        Adds.call (hrefl.same rfl) (hP.secure _)
      split_ifs
      · apply hcall.same
        unfold awaitPairing
        split <;> rfl
      · exact hcall.teardownSend hP _ _
    · apply Adds.timeOut hP
      apply hrefl.same
      unfold extendWait
      split_ifs <;> rfl
  · split_ifs
    · exact hrefl.teardownSend hP _ _
    · exact Adds.streamChunks hP (hrefl.same rfl)
    · exact hrefl.timeOut hP _ _
  · split_ifs
    · exact hrefl.teardownSend hP _ _
    · exact hrefl.teardownSend hP _ _
    · apply Adds.timeOut hP
      unfold streamRest
      split_ifs
      · exact hrefl.streamChunks hP
      · exact hrefl
  · exact hrefl

theorem Adds.writeOffer (h : Adds P s t) (henable : ∀ conn cccd, P (.enableNotifications conn cccd))
    (hwrite : ∀ name accepted, t.offerName env=some name →
      P (.write t.send.conn t.send.ctrlHandle (offerFrame t.send.totalLen t.send.mime name t.send.persistent) true accepted)) :
    Adds P s (t.writeOffer env):=by
  have henabled:=h.call (henable t.send.conn t.send.statusCccd)
  unfold Transfer.writeOffer
  dsimp only
  split
  · exact henabled.teardownSend hP _ _
  · rename_i name hname
    have hwritten:=henabled.call (hwrite name (env.writes.headD true) hname)
    change Adds P s (if env.writes.headD true=true then _ else _)
    split_ifs
    · exact hwritten.same rfl
    · exact hwritten.teardownSend hP _ _

theorem tickSend_calls (henable : ∀ conn cccd, P (.enableNotifications conn cccd))
    (hwrite : ∀ name accepted, s.offerName env=some name →
      P (.write s.send.conn s.send.ctrlHandle (offerFrame s.send.totalLen s.send.mime name s.send.persistent) true accepted)) :
    Adds P s (s.tickSend env):=by
  apply tickSend_adds hP
  intro hstate hfail hdiscovered
  have htick : s.tickSend env=({s with send:={s.send with discoveredFlag:=false}} : Transfer).writeOffer env:=by
    unfold tickSend
    rw [hstate]
    dsimp only
    rw [if_neg (by rw [hfail]; exact Bool.false_ne_true),if_pos hdiscovered]
  rw [htick]
  exact Adds.writeOffer hP ((Adds.refl P s).same rfl) henable hwrite

omit hP

theorem chunkFrame_head (payload : Bytes) : (chunkFrame payload).head? ≠ some offerOp:=by
  intro h
  cases h

theorem completeFrame_head (crc : UInt32) : (completeFrame crc).head? ≠ some offerOp:=by
  intro h
  cases h

def WritesOffer (s : Transfer) (env : Env) (frame : Bytes) : Prop:=
  frame.head? = some offerOp ∧ ∃ cs conn attr rsp accepted, (s.tickSend env).calls=s.calls++cs ∧
    .write conn attr frame rsp accepted∈cs

theorem offerName_prefix {name : Bytes} (h : s.offerName env=some name) :
    name <+: cstr env.beaconName ∧ name.length ≤ kMaxNameLen:=by
  have hshort : ((cstr env.beaconName).take kMaxNameLen).length ≤ kMaxNameLen:=by
    rw [List.length_take]
    exact Nat.min_le_left _ _
  unfold offerName at h
  dsimp only at h
  split_ifs at h
  · cases h
    refine ⟨(List.take_prefix _ _).trans (List.take_prefix _ _),?_⟩
    rw [List.length_take]
    exact (Nat.min_le_right _ _).trans hshort
  · cases h
    exact ⟨List.take_prefix _ _,hshort⟩

/-- The OFFER that is written has the fields of the send and the name there is room for. -/
theorem WritesOffer.frame {frame : Bytes} (h : s.WritesOffer env frame) : ∃ name, s.offerName env=some name ∧
    frame=offerFrame s.send.totalLen s.send.mime name s.send.persistent:=by
  let P : BleCall→Prop:=fun c=>∀ conn attr frame rsp accepted, c=.write conn attr frame rsp accepted →
    frame.head? = some offerOp→∃ name, s.offerName env=some name ∧
      frame=offerFrame s.send.totalLen s.send.mime name s.send.persistent
  have hsending : Sending P:=
    { disconnect:=fun _ _ _ _ _ _ hc=>by cases hc
      cancelConnect:=fun _ _ _ _ _ hc=>by cases hc
      discover:=fun _ _ _ _ _ _ hc=>by cases hc
      secure:=fun _ _ _ _ _ _ hc=>by cases hc
      chunk:=by
        rintro conn attr payload rsp accepted conn' attr' frame' rsp' accepted' hc hhead
        cases hc
        exact absurd hhead (chunkFrame_head payload)
      complete:=by
        rintro conn attr crc rsp accepted conn' attr' frame' rsp' accepted' hc hhead
        cases hc
        exact absurd hhead (completeFrame_head crc) }
  have hcalls : Adds P s (s.tickSend env):=by
    apply tickSend_calls hsending
    · rintro conn cccd conn' attr' frame' rsp' accepted' hc
      cases hc
    · rintro name accepted hname conn' attr' frame' rsp' accepted' hc -
      cases hc
      exact ⟨name,hname,rfl⟩
  obtain ⟨hhead,cs,conn,attr,rsp,accepted,hcs,hmem⟩:=h
  obtain ⟨cs',hcs',hall⟩:=hcalls
  rw [hcs] at hcs'
  obtain rfl:=List.append_cancel_left hcs'
  exact hall _ hmem _ _ _ _ _ rfl hhead

end Sender

end Transfer

/-- What a sender writes as an OFFER is read with its MIME type, its length and its flag, and with a prefix of the
beacon's name. No read is outside the write, and an offer is taken from nothing but what starts with the parts of one. -/
theorem offer_frames (s : Transfer) (env : Env) :
    (∀ frame, OfferFields s.send.mime s.send.totalLen → s.WritesOffer env frame→∃ name, name <+: cstr env.beaconName ∧
      control frame=.offer ⟨s.send.mime,s.send.totalLen,name,s.send.persistent⟩) ∧
    ∀ (conn : UInt16) (link : Link) (data : Bytes), controlAt data=.value (control data) ∧
      s.onControlWrite conn link data env=s.takeControl conn link (control data) env ∧
      ((s.onControlWrite conn link data env).queue=s.queue ∨ ∃ f i, StartsOffer f data ∧ s.queue i=none ∧
        (s.onControlWrite conn link data env).queue=Function.update s.queue i (some (s.offerOf conn link f env))):=by
  constructor
  · intro frame hfields hwrites
    obtain ⟨name,hname,rfl⟩:=hwrites.frame
    obtain ⟨hfront,hlength⟩:=Transfer.offerName_prefix hname
    have hnoNul : (0 : UInt8) ∉ name:=fun hmem=>cstr_noNul env.beaconName (hfront.subset hmem)
    have hstarts:=startsOffer_offerFrame hfields hlength s.send.persistent
    rw [cstr_eq_self hnoNul] at hstarts
    exact ⟨name,hfront,control_offer_iff.mpr hstarts⟩
  · intro conn link data
    exact ⟨controlAt_eq data,Transfer.onControlWrite_eq,Transfer.queue_onControlWrite⟩

def readySender : Transfer where
  send:={state:=.discovering,discoveredFlag:=true,mime:=[0x61],totalLen:=1,persistent:=true}

/-- With an MTU of 20 bytes, eleven bytes of the beacon's name are left. -/
theorem offer_frames_truncated : ∃ name, name <+: cstr (List.replicate 12 0x62) ∧
    control (offerFrame 1 [0x61] (List.replicate 11 0x62) true)=.offer ⟨[0x61],1,name,true⟩:=by
  have hfields : OfferFields readySender.send.mime readySender.send.totalLen:=⟨by decide,by decide,by decide,by decide,by decide⟩
  have hwrites : readySender.WritesOffer {beaconName:=List.replicate 12 0x62} (offerFrame 1 [0x61] (List.replicate 11 0x62) true):=
    ⟨rfl,_,noConn,0,true,true,rfl,List.mem_cons_of_mem _ (List.mem_singleton.mpr rfl)⟩
  exact (offer_frames readySender {beaconName:=List.replicate 12 0x62}).1 _ hfields hwrites

/-- What no sender writes is taken, too: bytes behind the name, two bits of the byte with the name's length, and a NUL in
the MIME type. -/
theorem unwritten_offers_taken :
    let link : Link:={serial:=0,peer:={addr:=zeros 6,addrType:=0}}
    let taken:=fun data=>((({} : Transfer).onControlWrite 1 link data {}).queue ⟨0,by decide⟩).isSome
    let longer : Bytes:=offerFrame 1 [0x61] [] false++[0x00]
    let marked : Bytes:=[0x01,0x01,0x01,0x00,0x00,0x00,0x01,0x20,0x61]
    let cut : Bytes:=offerFrame 1 [0x61,0x00,0x62] [] false
    (taken longer=true ∧ ¬IsOffer longer) ∧ (taken marked=true ∧ ¬IsOffer marked) ∧ taken cut=true ∧ ¬IsOffer cut:=by
  intro link taken longer marked cut
  refine ⟨⟨by decide,fun h=>?_⟩,⟨by decide,fun h=>?_⟩,by decide,fun h=>?_⟩
  · exact absurd h.header.1 (by decide)
  · exact absurd h.header.2.1 (by decide)
  · exact absurd h.header.2.2 (by decide)

end CdcBadge.Msg
