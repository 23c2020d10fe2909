import CdcBadge.OathPut

/-!
# Answering to a name

A credential answers to the name that the applet puts together for it, in both lists and in every
lookup.
-/

namespace CdcBadge.Oath

open Handler Tropic OathStore OathBackend
open Pin (PowerLost)

variable {step : Bytes → ℕ→Bytes}

section Growth

def below (step : Bytes → ℕ→Bytes) (n : ℕ) : Bytes:=(List.range n).foldl step []

theorem below_succ (step : Bytes → ℕ→Bytes) (n : ℕ) : below step (n+1)=step (below step n) n:=by
  unfold below
  rw [List.range_succ,List.foldl_append]
  rfl

theorem below_congr {step step' : Bytes → ℕ→Bytes} {n : ℕ} (h : ∀ buf, ∀ slot < n, step buf slot=step' buf slot) :
    below step n=below step' n:=by
  induction n with
  | zero=>rfl
  | succ n ih=>
    have hbefore:=ih fun buf slot hslot=>h buf slot (Nat.lt_succ_of_lt hslot)
    rw [below_succ,below_succ,hbefore,h _ n (Nat.lt_succ_self n)]

def Grows (step : Bytes → ℕ→Bytes) : Prop:=∀ buf slot, ∃ rest, step buf slot=buf++rest

theorem Grows.below (h : Grows step) (m k : ℕ) :
    ∃ rest, below step (m+k)=Oath.below step m++rest:=by
  induction k with
  | zero=>exact ⟨[],(List.append_nil _).symm⟩
  | succ k ih=>
    obtain ⟨rest,hrest⟩:=ih
    obtain ⟨more,hmore⟩:=h (Oath.below step m++rest) (m+k)
    exact ⟨rest++more,by rw [← Nat.add_assoc,below_succ,hrest,hmore,List.append_assoc]⟩

theorem putTlv_cases (buf : Bytes) (item : Item) (h : item.2.length ≤ 255) :
    buildSize < buf.length+(encodeItem item).length ∧ putTlv buildSize buf item.1 item.2=buf ∨
      buf.length+(encodeItem item).length ≤ buildSize ∧ putTlv buildSize buf item.1 item.2=buf++encodeItem item:=by
  by_cases hroom : buf.length+(encodeItem item).length ≤ buildSize
  · exact Or.inr ⟨hroom,putTlv_fits _ _ h hroom⟩
  · refine Or.inl ⟨by omega,?_⟩
    rw [encodeItem_length] at hroom
    unfold putTlv
    exact if_pos (by omega)

theorem putTlv_grows (buf : Bytes) (item : Item) : ∃ rest, putTlv buildSize buf item.1 item.2=buf++rest:=by
  unfold putTlv
  split
  · exact ⟨[],(List.append_nil _).symm⟩
  · exact ⟨_,List.append_assoc _ _ _⟩

theorem encodeItem_inj {x y : Item} (hx : x.2.length ≤ 255) (hy : y.2.length ≤ 255) {r r' : Bytes}
    (h : encodeItem x++r=encodeItem y++r') : x=y:=by
  have hfirst:=findTlv_first _ hx r
  simp only [encodeItem,List.cons_append,List.nil_append,List.cons.injEq] at h
  obtain ⟨htag,hlen,hrest⟩:=h
  have hlen':=congrArg UInt8.toNat hlen
  rw [UInt8.toNat_ofNat_of_lt' (Nat.lt_of_le_of_lt hx (by decide)),
    UInt8.toNat_ofNat_of_lt' (Nat.lt_of_le_of_lt hy (by decide))] at hlen'
  exact Prod.ext htag (List.append_inj_left hrest hlen')

end Growth

variable {e : OathEntry} {entry : Bytes → ℕ→OathM Badge Bytes}

section Lists

variable (hmac : Hmac) (mapSignature : UInt32) (challenge : ByteArr 8) {s : Ctx Badge} {a : Scard.Apdu} {slot : ℕ}

def built (entry : Bytes → ℕ→OathM Badge Bytes) (s : Ctx Badge) (n : ℕ) : Except PowerLost Bytes:=
  ((List.range n).foldlM entry [] s).1

/-- The slot puts this item behind what the slots before it have built, and the reply goes on from there. -/
def Shows (entry : Bytes → ℕ→OathM Badge Bytes) (s : Ctx Badge) (a : Scard.Apdu) (slot : ℕ) (item : Item) : Prop:=
  ∃ before rest after, built entry s slot=.ok before ∧ built entry s (slot+1)=.ok (before++encodeItem item++rest) ∧
    builds (backend hmac mapSignature) s a=.ok {data:=before++encodeItem item++rest++after,sw:=swOk}

def listStep (c : Chip (Content Payload)) (buf : Bytes) (slot : ℕ) : Bytes:=
  match shownAt c slot with
  | none=>buf
  | some e=>putTlv buildSize buf (listItem e).1 (listItem e).2

def calculateStep (c : Chip (Content Payload)) (buf : Bytes) (slot : ℕ) : Bytes:=
  match shownAt c slot with
  | none=>buf
  | some e=>
    putTlv buildSize (putTlv buildSize buf tagName (nameOf e)) (resultItem hmac challenge e).1 (resultItem hmac challenge e).2

theorem foldlM_quiet {slots : List ℕ}
    (h : ∀ buf, ∀ slot∈slots, entry buf slot s=(.ok (step buf slot),s)) (buf : Bytes) :
    slots.foldlM entry buf s=(.ok (slots.foldl step buf),s):=by
  induction slots generalizing buf with
  | nil=>rfl
  | cons slot slots ih=>
    rw [List.foldlM_cons,bind_of_ok (h buf slot List.mem_cons_self),List.foldl_cons]
    exact ih (fun buf i hi=>h buf i (List.mem_cons_of_mem slot hi)) (step buf slot)

theorem listEntry_quiet (hs : s.be.env={}) (hslot : slot < capacity) (buf : Bytes) :
    listEntry (backend hmac mapSignature) buf slot s=(.ok (listStep s.be.store.chip buf slot),s):=by
  obtain ⟨app,⟨store,touch,nowUs,devId,accessKey,env⟩,respMax⟩:=s
  obtain rfl : env={}:=hs
  rw [listEntry_apply hmac mapSignature hslot]
  unfold listStep
  cases hshown : shownAt store.chip slot with
  | none=>simp [seenAt,hshown,Except.map,Env.read1]
  | some e=>simp [seenAt,hshown,Except.map,Env.read1]

theorem calculateEntry_quiet (hs : s.be.env={}) (hslot : slot < capacity) (buf : Bytes) :
    calculateEntry (backend hmac mapSignature) challenge buf slot s =
      (.ok (calculateStep hmac challenge s.be.store.chip buf slot),s):=by
  obtain ⟨app,⟨store,touch,nowUs,devId,accessKey,env⟩,respMax⟩:=s
  obtain rfl : env={}:=hs
  rw [calculateEntry_seen hmac challenge mapSignature hslot]
  have hseen : seenAt .done store.chip slot=.ok (shownAt store.chip slot):=rfl
  dsimp only [List.headD_nil]
  rw [hseen]
  unfold calculateStep
  cases hshown : shownAt store.chip slot with
  | none=>rfl
  | some e=>
    dsimp only
    by_cases hcomputed : Computed e
    · rw [if_pos hcomputed,calculateForChallenge_totp hmac challenge mapSignature hshown hcomputed.1,
        resultItem_computed hmac challenge hcomputed]
      rfl
    · rw [if_neg hcomputed]
      rfl

theorem grows_list (c : Chip (Content Payload)) : Grows (listStep c):=by
  intro buf slot
  unfold listStep
  split
  · exact ⟨[],(List.append_nil _).symm⟩
  · exact putTlv_grows _ _

theorem grows_calculate (c : Chip (Content Payload)) : Grows (calculateStep hmac challenge c):=by
  intro buf slot
  unfold calculateStep
  split
  · exact ⟨[],(List.append_nil _).symm⟩
  · rename_i e _
    obtain ⟨rest,hrest⟩:=putTlv_grows buf (tagName,nameOf e)
    obtain ⟨more,hmore⟩:=putTlv_grows (putTlv buildSize buf tagName (nameOf e)) (resultItem hmac challenge e)
    dsimp only at hrest
    exact ⟨rest++more,by rw [hmore,hrest,List.append_assoc]⟩

theorem built_quiet
    (h : ∀ buf, ∀ slot < capacity, entry buf slot s=(.ok (step buf slot),s)) {n : ℕ} (hn : n ≤ capacity) :
    built entry s n=.ok (below step n):=
  congrArg Prod.fst (foldlM_quiet (fun buf slot hslot=>h buf slot ((List.mem_range.mp hslot).trans_le hn)) [])

theorem shows_iff
    (h : ∀ buf, ∀ slot < capacity, entry buf slot s=(.ok (step buf slot),s)) (hgrows : Grows step) (hslot : slot < capacity)
    (hbuilds : builds (backend hmac mapSignature) s a=(.ok {data:=below step capacity,sw:=swOk})) (item : Item) :
    Shows hmac mapSignature entry s a slot item ↔
      ∃ rest, step (below step slot) slot=below step slot++encodeItem item++rest:=by
  unfold Shows
  rw [built_quiet h (Nat.le_of_lt hslot),built_quiet h hslot,hbuilds,below_succ]
  constructor
  · rintro ⟨before,rest,after,hbefore,hstep,-⟩
    cases hbefore
    exact ⟨rest,Except.ok.inj hstep⟩
  · rintro ⟨rest,hstep⟩
    obtain ⟨after,hafter⟩:=hgrows.below (slot+1) (capacity-(slot+1))
    rw [Nat.add_sub_cancel' hslot,below_succ,hstep] at hafter
    exact ⟨_,rest,after,rfl,congrArg _ hstep,by rw [hafter]⟩

theorem list_shows {x : UInt8} {name : Bytes} (hs : s.be.env={}) (hvalidated : s.app.validated=true)
    (hins : a.ins=insList) (hslot : slot < capacity) (he : shownAt s.be.store.chip slot=some e)
    (hlen : (nameOf e).length < nameSize) (hname : name.length < nameSize) :
    Shows hmac mapSignature (listEntry (backend hmac mapSignature)) s a slot (tagNameList,x::name) ↔
      listItem e=(tagNameList,x::name) ∧
        (below (listStep s.be.store.chip) slot).length+(name.length+3) ≤ buildSize:=by
  have hentry (buf : Bytes) (i : ℕ) (hi : i < capacity):=listEntry_quiet hmac mapSignature hs hi buf
  have hroomy (buf : Bytes) (i : ℕ) (hi : i < capacity):=listEntry_quiet hmac mapSignature (s:=roomy s) hs hi buf
  have hbuilds : builds (backend hmac mapSignature) s a =
      .ok {data:=below (listStep s.be.store.chip) capacity,sw:=swOk}:=by
    rw [builds_list hins hvalidated]
    exact congrArg (Except.map _) (built_quiet hroomy le_rfl)
  have hitem : (listItem e).2.length ≤ 255:=by
    simp only [listItem,List.length_cons]
    unfold nameSize at hlen
    omega
  rw [shows_iff hmac mapSignature hentry (grows_list _) hslot hbuilds]
  have hstep : listStep s.be.store.chip (below (listStep s.be.store.chip) slot) slot =
      putTlv buildSize (below (listStep s.be.store.chip) slot) (listItem e).1 (listItem e).2:=by
    conv_lhs=>unfold listStep
    rw [he]
    rfl
  rw [hstep]
  rcases putTlv_cases (below (listStep s.be.store.chip) slot) (listItem e) hitem with ⟨hfull,hput⟩ | ⟨hroom,hput⟩
  · rw [hput]
    constructor
    · rintro ⟨rest,hrest⟩
      have hlength:=congrArg List.length hrest
      simp only [List.length_append,encodeItem_length] at hlength
      omega
    · rintro ⟨heq,hroom⟩
      rw [heq,encodeItem_length,List.length_cons] at hfull
      omega
  · rw [hput]
    constructor
    · rintro ⟨rest,hrest⟩
      rw [List.append_assoc,List.append_cancel_left_eq,← List.append_nil (encodeItem (listItem e))] at hrest
      have heq:=encodeItem_inj hitem (y:=(tagNameList,x::name)) (by
        simp only [List.length_cons]
        unfold nameSize at hname
        omega) hrest
      rw [heq,encodeItem_length,List.length_cons] at hroom
      exact ⟨heq,hroom⟩
    · rintro ⟨heq,-⟩
      exact ⟨[],by rw [heq,List.append_nil]⟩

theorem resultItem_tag (e : OathEntry) : (resultItem hmac challenge e).1≠tagName:=by
  unfold resultItem
  split_ifs
  · exact (by decide : tagHotp≠tagName)
  · exact (by decide : tagTouch≠tagName)
  · split
    · exact (by decide : tagTruncResp≠tagName)
    · exact (by decide : tagTouch≠tagName)

theorem calculateAll_shows {name : Bytes} (hs : s.be.env={}) (hvalidated : s.app.validated=true)
    (hins : a.ins=insCalculateAll) (hp1 : a.p1≠0x04) (hchallenge : challengeIn a.data=some challenge)
    (hslot : slot < capacity) (he : shownAt s.be.store.chip slot=some e)
    (hlen : (nameOf e).length < nameSize) (hname : name.length < nameSize) :
    Shows hmac mapSignature (calculateEntry (backend hmac mapSignature) challenge) s a slot (tagName,name) ↔
      nameOf e=name ∧
        (below (calculateStep hmac challenge s.be.store.chip) slot).length+(name.length+2) ≤ buildSize:=by
  have hentry (buf : Bytes) (i : ℕ) (hi : i < capacity):=calculateEntry_quiet hmac mapSignature challenge hs hi buf
  have hroomy (buf : Bytes) (i : ℕ) (hi : i < capacity):=
    calculateEntry_quiet hmac mapSignature challenge (s:=roomy s) hs hi buf
  have hbuilds : builds (backend hmac mapSignature) s a =
      .ok {data:=below (calculateStep hmac challenge s.be.store.chip) capacity,sw:=swOk}:=by
    rw [builds_calculateAll hins hp1 hvalidated hchallenge]
    exact congrArg (Except.map _) (built_quiet hroomy le_rfl)
  have hitem : (nameOf e).length ≤ 255:=(Nat.le_of_lt hlen).trans (by decide)
  have hitem' : name.length ≤ 255:=(Nat.le_of_lt hname).trans (by decide)
  rw [shows_iff hmac mapSignature hentry (grows_calculate hmac challenge _) hslot hbuilds]
  generalize hbelow : below (calculateStep hmac challenge s.be.store.chip) slot=before
  have hstep : calculateStep hmac challenge s.be.store.chip before slot =
      putTlv buildSize (putTlv buildSize before tagName (nameOf e)) (resultItem hmac challenge e).1
        (resultItem hmac challenge e).2:=by
    unfold calculateStep
    rw [he]
  have hresult:=putTlv_cases (putTlv buildSize before tagName (nameOf e)) (resultItem hmac challenge e)
    (resultItem_length hmac challenge e)
  rw [hstep]
  rcases putTlv_cases before (tagName,nameOf e) hitem with ⟨hfull,hput⟩ | ⟨hroom,hput⟩
  · dsimp only at hput
    rw [hput] at hresult ⊢
    constructor
    · rintro ⟨rest,hrest⟩
      rcases hresult with ⟨-,hsame⟩ | ⟨-,hadded⟩
      · rw [hsame] at hrest
        have hlength:=congrArg List.length hrest
        simp only [List.length_append,encodeItem_length] at hlength
        omega
      · rw [hadded,List.append_assoc,List.append_cancel_left_eq] at hrest
        have hhead:=congrArg List.head? hrest
        simp only [encodeItem,List.cons_append,List.head?_cons,Option.some.injEq] at hhead
        exact absurd hhead (resultItem_tag hmac challenge e)
    · rintro ⟨heq,hroom⟩
      rw [heq,encodeItem_length] at hfull
      dsimp only at hfull
      omega
  · obtain ⟨more,hmore⟩:=putTlv_grows (putTlv buildSize before tagName (nameOf e)) (resultItem hmac challenge e)
    dsimp only at hput
    rw [hmore,hput]
    constructor
    · rintro ⟨rest,hrest⟩
      rw [List.append_assoc,List.append_assoc,List.append_cancel_left_eq] at hrest
      have heq : nameOf e=name:=congrArg Prod.snd (encodeItem_inj (x:=(tagName,nameOf e)) (y:=(tagName,name)) hitem hitem' hrest)
      rw [heq,encodeItem_length] at hroom
      exact ⟨heq,hroom⟩
    · rintro ⟨heq,-⟩
      exact ⟨more,by rw [heq]⟩

end Lists

section Lookups

variable (hmac : Hmac) (mapSignature : UInt32) (challenge : ByteArr 8) {s : Ctx Badge} {slot : ℕ} {name : Bytes}

theorem shownAt_lt {c : Chip (Content Payload)} (h : shownAt c slot=some e) : slot < capacity:=by
  have hmem:=mem_slots.mp (credential_some (shownAt_some h).1).2.1
  unfold capacity
  omega

theorem firstNamed_iff {c : Chip (Content Payload)} :
    firstNamed c name=some slot ↔ slot < capacity ∧ Answers c slot name ∧ ∀ i < slot, ¬Answers c i name:=by
  have hany (i : ℕ) : ((shownAt c i).any fun e=>nameOf e == name)=true ↔ Answers c i name:=by
    unfold Answers
    cases shownAt c i <;> simp
  unfold firstNamed
  rw [List.find?_range_eq_some]
  simp only [List.mem_range,hany,Bool.not_eq_true',← Bool.not_eq_true]
  tauto

theorem deleteAccount_quiet (store : Store) (hslot : toPhysicalSlot slot=some (31+slot)) :
    (deleteAccount {} slot store).1=.ok true ∧ (deleteAccount {} slot store).2.chip=(store.put (31+slot) none).chip:=by
  have hmem:=(toPhysicalSlot_some hslot).2
  constructor
  · unfold deleteAccount
    rw [hslot]
    dsimp only
    rw [bind_apply,seCall_erase (slot_lt hmem)]
    dsimp only [answered,replied]
    have hcache : (eraseSlot {} moduleId2fa (31+slot) (store.put (31+slot) none)).1=.ok true:=by
      unfold eraseSlot
      rw [slot_allowed hmem]
      rfl
    rw [bind_apply]
    revert hcache
    simp only [SeOutcome.applied,if_true]
    cases eraseSlot {} moduleId2fa (31+slot) (store.put (31+slot) none) with
    | mk r u=>
      rintro rfl
      rfl
  · rw [deleteAccount_erased hslot rfl,eraseSlot_state hmem]
    split <;> rfl

theorem calculate_other (store : Store) (he : shownAt store.chip slot=some e) {k : ℕ} (hk : k≠slot) :
    credential (calculateForChallenge hmac mapSignature {} slot challenge store).2.chip k=credential store.chip k:=by
  have hcredential:=(shownAt_some he).1
  by_cases htype : e.type=otypeHotp
  · rw [calculate_hotp hmac mapSignature challenge hcredential htype rfl,writePayload_chip (credential_some hcredential).2.1,
      credential_put_other hk]
  · rw [calculateForChallenge_totp hmac challenge mapSignature he htype]

/-- `DELETE` of a name takes the first credential that answers to it, and no other. -/
theorem delete_named (hs : s.be.env={}) (hvalidated : s.app.validated=true) {p : Scard.Apdu} (hins : p.ins=insDelete)
    (htlv : findTlv p.data tagName=some name) (hname : name.length < nameSize)
    (hfirst : firstNamed s.be.store.chip name=some slot) :
    (processParsed (backend hmac mapSignature) p s).1=.ok {sw:=swOk} ∧
      ∀ k, credential (processParsed (backend hmac mapSignature) p s).2.be.store.chip k =
        if k=slot then none else credential s.be.store.chip k:=by
  obtain ⟨-,e,he,-⟩:=firstNamed_some hfirst
  obtain ⟨hok,hchip⟩:=deleteAccount_quiet s.be.store (credential_some (shownAt_some he).1).1
  have hprocess:=@processParsed_gated _ (backend hmac mapSignature) s p (by simp [hins,insDelete,insIsoSelect])
    (by simp [hins,insDelete,insSendRemaining]) (by simp [hins,insDelete,insReset]) (by simp [hins,insDelete,insValidate])
    hvalidated
  rw [if_neg (by simp [hins,insDelete,insPut]),if_pos hins] at hprocess
  have hremove : call ((backend hmac mapSignature).remove slot) s=(.ok true,{ s with
      be:={ s.be with
        store:=(deleteAccount {} slot s.be.store).2
        env:={s.be.env with deletes:=s.be.env.deletes.tail} } }):=by
    have hcall : call ((backend hmac mapSignature).remove slot) s =
        ((deleteAccount (s.be.env.deletes.headD {}) slot s.be.store).1,{ s with
          be:={ s.be with
            store:=(deleteAccount (s.be.env.deletes.headD {}) slot s.be.store).2
            env:={s.be.env with deletes:=s.be.env.deletes.tail} } }):=rfl
    rw [hcall,hs]
    exact Prod.ext hok rfl
  have hcmd : cmdDelete (backend hmac mapSignature) p.data s=(.ok {sw:=swOk},{ s with
      be:={ s.be with
        store:=(deleteAccount {} slot s.be.store).2
        env:={s.be.env with deletes:=s.be.env.deletes.tail} } }):=by
    unfold cmdDelete
    rw [htlv]
    dsimp only
    rw [bind_of_ok (findByYkName_quiet hmac mapSignature hs hname),hfirst]
    dsimp only
    rw [bind_of_ok hremove]
    rfl
  rw [hprocess,hcmd]
  refine ⟨rfl,?_⟩
  intro k
  dsimp only
  rw [hchip]
  split
  · rename_i hk
    rw [hk,credential_put_none]
  · rename_i hk
    exact credential_put_other hk none s.be.store

theorem fixes_emit {V : Type} (v : Badge→V) (payload : Bytes) (le : ℕ) :
    Fixes (fun s : Ctx Badge=>v s.be) (emit payload le : OathM Badge Reply):=
  Fixes.bind (Fixes.gets _) fun _=>Fixes.ite (Fixes.pure _) (Fixes.bind (Fixes.modify fun _=>rfl) fun _=>Fixes.pure _)

theorem calculateReply_other (he : shownAt s.be.store.chip slot=some e) {k : ℕ} (hk : k≠slot)
    (t : Ctx Badge) (ht : t.be.env={}) (hstore : t.be.store=s.be.store) :
    credential ((call ((backend hmac mapSignature).calculate slot challenge) >>= fun code=>
      match code with
      | none=>answerSw swNoSuchObject
      | some code=>emit (putTlv buildSize [] tagTruncResp (truncItem code)) 0 : OathM Badge Reply) t).2.be.store.chip k =
      credential s.be.store.chip k:=by
  have hother:=calculate_other hmac mapSignature challenge t.be.store (hstore ▸ he) hk
  have hcall : call ((backend hmac mapSignature).calculate slot challenge) t=_:=
    congrArg (fun p=>(p.1,({t with be:=p.2} : Ctx Badge)))
      (beCalculate_apply hmac mapSignature slot challenge t.be)
  rw [bind_apply,hcall,ht]
  dsimp only [List.headD_nil]
  rw [hstore] at hother ⊢
  cases (calculateForChallenge hmac mapSignature {} slot challenge s.be.store).1 with
  | error _=>exact hother
  | ok code=>
    cases code with
    | none=>exact hother
    | some code=>exact ((fixes_emit (fun b=>credential b.store.chip k) _ _).apply _).trans hother

theorem calculate_named (hs : s.be.env={}) (hvalidated : s.app.validated=true) (hname : name.length < nameSize)
    (hfirst : firstNamed s.be.store.chip name=some slot) {k : ℕ} (hk : k≠slot) :
    credential (processParsed (backend hmac mapSignature) (calculateApdu challenge name) s).2.be.store.chip k =
      credential s.be.store.chip k:=by
  obtain ⟨-,e,he,-⟩:=firstNamed_some hfirst
  have hprocess:=@processParsed_gated _ (backend hmac mapSignature) s (calculateApdu challenge name)
    (Or.inl (by simp [calculateApdu,insCalculate,insIsoSelect])) (by simp [calculateApdu,insCalculate,insSendRemaining])
    (by simp [calculateApdu,insCalculate,insReset]) (by simp [calculateApdu,insCalculate,insValidate]) hvalidated
  have hgate : processParsed (backend hmac mapSignature) (calculateApdu challenge name) s =
      cmdCalculate (backend hmac mapSignature) (calculateApdu challenge name).data 0 s:=hprocess
  rw [hgate]
  unfold cmdCalculate
  rw [calculateApdu_name challenge hname,calculateApdu_challenge challenge hname]
  dsimp only
  rw [bind_of_ok (findByYkName_quiet hmac mapSignature hs hname),hfirst]
  dsimp only
  rw [bind_of_ok (read_quiet hmac mapSignature hs he)]
  dsimp only
  have hcalculate:=calculateReply_other hmac mapSignature challenge he hk
  by_cases htouch : (metaOf e).flags &&& oflagTouch≠0
  · rw [if_pos htouch]
    have htouchOk : call ((backend hmac mapSignature).touchOk slot) s =
        (.ok (beTouchOk s.be.nowUs slot s.be.touch).1,
          {s with be:={s.be with touch:=(beTouchOk s.be.nowUs slot s.be.touch).2}}):=rfl
    rw [bind_of_ok htouchOk]
    cases (beTouchOk s.be.nowUs slot s.be.touch).1 with
    | false=>rfl
    | true=>exact hcalculate _ hs rfl
  · rw [if_neg htouch]
    exact hcalculate s hs rfl

end Lookups

section Property

variable (hmac : Hmac) (mapSignature : UInt32) (challenge : ByteArr 8)

/-- Where nothing fails, both lists show the credential of a slot under this name, `CALCULATE` and `DELETE` of the name act on
it and on no other, and it answers to no other name. -/
structure GoesBy (t : Ctx Badge) (slot : ℕ) (name : Bytes) : Prop where
  listed : ∃ typeAlgo, ∀ a : Scard.Apdu, a.ins=insList →
    Shows hmac mapSignature (listEntry (backend hmac mapSignature)) (quiet t) a slot (tagNameList,typeAlgo::name)
  listedAll : ∀ a : Scard.Apdu, a.ins=insCalculateAll→a.p1≠0x04 → challengeIn a.data=some challenge →
    Shows hmac mapSignature (calculateEntry (backend hmac mapSignature) challenge) (quiet t) a slot (tagName,name)
  calculated : ∃ e, shownAt t.be.store.chip slot=some e ∧ ∀ code,
    builds (backend hmac mapSignature) (quiet t) (calculateApdu challenge name) =
        .ok {data:=putTlv buildSize [] tagTruncResp (truncItem code),sw:=swOk} ↔
      codeFor hmac challenge (decide (t.be.touch.Armed t.be.nowUs slot)) e=some code
  calculatesNoOther : ∀ k, k≠slot →
    credential (processParsed (backend hmac mapSignature) (calculateApdu challenge name) (quiet t)).2.be.store.chip k =
      credential t.be.store.chip k
  deleted : ∀ p : Scard.Apdu, p.ins=insDelete → findTlv p.data tagName=some name →
    (processParsed (backend hmac mapSignature) p (quiet t)).1=.ok {sw:=swOk} ∧
      ∀ k, credential (processParsed (backend hmac mapSignature) p (quiet t)).2.be.store.chip k =
        if k=slot then none else credential t.be.store.chip k
  own : ∀ other, Answers t.be.store.chip slot other → other=name

/-- The name is canonical, the items of the slots before leave room for it in both lists, and none of these answers to it. -/
structure Findable (b : Badge) (a : Account) (slot : ℕ) (name : Bytes) : Prop where
  canonical : Canonical a.type name
  listRoom : (below (listStep (afterDelete b a).chip) slot).length+(name.length+3) ≤ buildSize
  calculateRoom : (below (calculateStep hmac challenge (afterDelete b a).chip) slot).length+(name.length+2) ≤ buildSize
  first : ∀ i < slot, ¬Answers (afterDelete b a).chip i name

theorem below_shown {c c' : Chip (Content Payload)} {slot : ℕ} (h : ∀ i < slot, shownAt c' i=shownAt c i) :
    below (listStep c') slot=below (listStep c) slot ∧
      below (calculateStep hmac challenge c') slot=below (calculateStep hmac challenge c) slot:=by
  constructor
  · apply below_congr
    intro buf i hi
    unfold listStep
    rw [h i hi]
  · apply below_congr
    intro buf i hi
    unfold calculateStep
    rw [h i hi]

theorem goesBy_iff {t : Ctx Badge} {slot : ℕ} {name : Bytes} (hvalidated : t.app.validated=true)
    (he : shownAt t.be.store.chip slot=some e) (hlen : (nameOf e).length < nameSize) (hname : name.length < nameSize) :
    GoesBy hmac mapSignature challenge t slot name ↔ nameOf e=name ∧
      (below (listStep t.be.store.chip) slot).length+(name.length+3) ≤ buildSize ∧
      (below (calculateStep hmac challenge t.be.store.chip) slot).length+(name.length+2) ≤ buildSize ∧
      ∀ i < slot, ¬Answers t.be.store.chip i name:=by
  have hslot:=shownAt_lt he
  have hlist (a : Scard.Apdu) (hins : a.ins=insList) (x : UInt8):=
    list_shows hmac mapSignature (s:=quiet t) (x:=x) rfl hvalidated hins hslot he hlen hname
  have hall (a : Scard.Apdu) (hins : a.ins=insCalculateAll) (hp1 : a.p1≠0x04) (hchallenge : challengeIn a.data=some challenge):=
    calculateAll_shows hmac mapSignature challenge (s:=quiet t) rfl hvalidated hins hp1 hchallenge hslot he hlen hname
  constructor
  · intro h
    obtain ⟨x,hlisted⟩:=h.listed
    obtain ⟨hitem,hlistRoom⟩:=(hlist {ins:=insList} rfl x).mp (hlisted {ins:=insList} rfl)
    have hsame : nameOf e=name:=(List.cons.inj (congrArg Prod.snd hitem)).2
    let all : Scard.Apdu:={ins:=insCalculateAll,data:=encodeItem (tagChallenge,challenge.toList)}
    have hchallenge : challengeIn all.data=some challenge:=by
      have htlv:=findTlv_first (tagChallenge,challenge.toList) (by simp) []
      rw [List.append_nil] at htlv
      unfold challengeIn
      rw [htlv]
      simp
    obtain ⟨-,hallRoom⟩:=(hall all rfl (by simp [all]) hchallenge).mp (h.listedAll all rfl (by simp [all]) hchallenge)
    refine ⟨hsame,hlistRoom,hallRoom,?_⟩
    intro i hi hanswers
    let delete : Scard.Apdu:={ins:=insDelete,data:=encodeItem (tagName,name)}
    have htlv : findTlv delete.data tagName=some name:=by
      have hfirst:=findTlv_first (tagName,name) ((Nat.le_of_lt hname).trans (by decide)) []
      rwa [List.append_nil] at hfirst
    obtain ⟨k,hk⟩ : ∃ k, firstNamed t.be.store.chip name=some k:=by
      cases hnamed : firstNamed t.be.store.chip name with
      | some k=>exact ⟨k,rfl⟩
      | none=>
        have hfalse:=List.find?_eq_none.mp hnamed i (List.mem_range.mpr (hi.trans hslot))
        obtain ⟨f,hf,hnameOf⟩:=hanswers
        simp [hf,hnameOf] at hfalse
    have hother : k≠slot:=by
      rintro rfl
      exact (firstNamed_iff.mp hk).2.2 i hi hanswers
    have htaken:=(delete_named hmac mapSignature (s:=quiet t) rfl hvalidated (p:=delete) rfl htlv hname hk).2 slot
    rw [(h.deleted delete rfl htlv).2 slot,if_pos rfl,if_neg hother.symm] at htaken
    rw [show credential (quiet t).be.store.chip slot=some e from (shownAt_some he).1] at htaken
    cases htaken
  · rintro ⟨hsame,hlistRoom,hallRoom,hfirst⟩
    have hfirst' : firstNamed (quiet t).be.store.chip name=some slot:=firstNamed_iff.mpr ⟨hslot,⟨e,he,hsame⟩,hfirst⟩
    refine ⟨⟨typeAlgoByte (metaOf e),?_⟩,?_,⟨e,he,?_⟩,?_,?_,?_⟩
    · exact fun a hins=>(hlist a hins _).mpr ⟨by rw [← hsame]; rfl,hlistRoom⟩
    · exact fun a hins hp1 hchallenge=>(hall a hins hp1 hchallenge).mpr ⟨hsame,hallRoom⟩
    · exact fun code=>builds_calculate hmac mapSignature challenge hvalidated hname hfirst' he code
    · exact fun k hk=>calculate_named hmac mapSignature challenge (s:=quiet t) rfl hvalidated hname hfirst' hk
    · exact fun p hins htlv=>delete_named hmac mapSignature (s:=quiet t) rfl hvalidated hins htlv hname hfirst'
    · rintro other ⟨f,hf,rfl⟩
      rw [he] at hf
      cases hf
      exact hsame

/-- What a `PUT` has stored goes by its name exactly where it can be found under it. -/
theorem put_goesBy (s t : Ctx Badge) (i : Bytes × ℕ) (p : Scard.Apdu) (name d : Bytes) (hp : parsed i=some p)
    (hins : p.ins=insPut) (hname : findTlv p.data tagName=some name)
    (hreply : exchange (backend hmac mapSignature) s i=(some (d,swOk),t)) :
    ∃ a slot a', parsePut p.data=some a ∧ target s.be a=some (slot,a') ∧
      (GoesBy hmac mapSignature challenge t slot name ↔ Findable hmac challenge s.be a slot name):=by
  cases hvalidated : s.app.validated with
  | false=>
    rw [exchange_put_locked hp hins hvalidated] at hreply
    cases hreply
  | true=>
  rw [exchange_put hp hins hvalidated] at hreply
  cases hparse : parsePut p.data with
  | none=>
    rw [hparse] at hreply
    cases hreply
  | some a=>
    rw [hparse] at hreply
    dsimp only at hreply
    cases hadd : (backend hmac mapSignature).addRaw a s.be with
    | mk r x=>
      rw [hadd] at hreply
      cases r with
      | error e=>cases hreply
      | ok ok=>
        cases ok with
        | false=>cases hreply
        | true=>
          cases hreply
          have hcredential:=beAddRaw_credential (show beAddRaw mapSignature a s.be=(.ok true,x) from hadd)
          have hok:=(beAddRaw_ok (show beAddRaw mapSignature a s.be=(.ok true,x) from hadd)).1
          obtain ⟨⟨slot,a'⟩,htarget,-⟩:=hok.mp rfl
          refine ⟨a,slot,a',rfl,htarget,?_⟩
          have haccepted:=(target_some htarget).2
          obtain ⟨hparts,hlabel,hissuer,hperiod,htype⟩:=entryFor_parts hparse hname haccepted
          have hshort:=parseYkName_short hparts
          have hnew : credential x.store.chip slot=some (entryFor a'):=by
            rw [hcredential slot,credentialAfter_target htarget,leftIn_written (hok.mp rfl) htarget,heldAs_stored]
          have hshown : shownAt x.store.chip slot=some (entryFor a'):=by
            obtain ⟨-,-,-,hnotCr⟩:=parsePut_some hparse
            exact shownAt_of_credential hnew (htype ▸ hnotCr)
          have hbefore (k : ℕ) (hk : k < slot) : shownAt x.store.chip k=shownAt (afterDelete s.be a).chip k:=by
            have hother (y : Account) : target s.be a≠some (k,y):=by
              rw [htarget]
              rintro ⟨⟩
              exact lt_irrefl _ hk
            unfold shownAt
            rw [hcredential k,credentialAfter_other hother,afterDelete_credential]
          obtain ⟨hlist,hall⟩:=below_shown hmac challenge hbefore
          have hunlocked : ({s with respMax:=i.2,be:=x} : Ctx Badge).app.validated=true:=hvalidated
          rw [goesBy_iff hmac mapSignature challenge hunlocked hshown
            ((nameOf_length_le hparts hlabel hissuer hperiod).trans_lt hshort) hshort,
            nameOf_entryFor hparse hname haccepted]
          dsimp only
          rw [hlist,hall]
          constructor
          · rintro ⟨hcanonical,hlistRoom,hallRoom,hfirst⟩
            refine ⟨hcanonical,hlistRoom,hallRoom,?_⟩
            rintro k hk ⟨f,hf,hnameOf⟩
            exact hfirst k hk ⟨f,(hbefore k hk).trans hf,hnameOf⟩
          · rintro ⟨hcanonical,hlistRoom,hallRoom,hfirst⟩
            refine ⟨hcanonical,hlistRoom,hallRoom,?_⟩
            rintro k hk ⟨f,hf,hnameOf⟩
            exact hfirst k hk ⟨f,(hbefore k hk).symm.trans hf,hnameOf⟩

end Property

section Issuers

/-- An issuer of 32 bytes, and the account `x`. -/
def nameLong : Bytes:=List.replicate 32 0x69++[colon,0x78]

def nameCut : Bytes:=List.replicate 31 0x69++[colon,0x78]

theorem put_goesBy_first : ∃ a slot a', parsePut (encodeItems [(tagName,nameAx),(tagKey,[0x21,0x06,0x01])])=some a ∧
    target blankBadge.be a=some (slot,a') ∧ (GoesBy plainHmac 0 (fit 8 []) (put nameAx blankBadge).2 slot nameAx ↔
      Findable plainHmac (fit 8 []) blankBadge.be a slot nameAx):=
  put_goesBy plainHmac 0 (fit 8 []) blankBadge (put nameAx blankBadge).2 (putCommand nameAx) _ nameAx [] rfl rfl
    (by decide +kernel) (put_replied (by decide +kernel))

/-- The badge behind a `PUT` that is accepted, and that it shows under another name. -/
theorem put_long : ∃ (p : Scard.Apdu) (t : Ctx Badge), parsed (putCommand nameLong)=some p ∧ p.ins=insPut ∧
    findTlv p.data tagName=some nameLong ∧
    exchange (backend plainHmac 0) blankBadge (putCommand nameLong)=(some ([],swOk),t) ∧
    ∀ slot∈List.range capacity, (shownAt t.be.store.chip slot).all fun e=>nameOf e == nameCut:=
  ⟨_,(put nameLong blankBadge).2,rfl,rfl,by decide +kernel,put_replied (by decide +kernel),by decide +kernel⟩

theorem put_not_goesBy : ¬ ∀ (s t : Ctx Badge) (i : Bytes × ℕ) (p : Scard.Apdu) (name d : Bytes), parsed i=some p →
    p.ins=insPut → findTlv p.data tagName=some name→exchange (backend plainHmac 0) s i=(some (d,swOk),t) →
    ∃ slot, GoesBy plainHmac 0 (fit 8 []) t slot name:=by
  intro h
  obtain ⟨p,t,hp,hins,hname,hreply,hshown⟩:=put_long
  obtain ⟨slot,hgoes⟩:=h blankBadge t (putCommand nameLong) p nameLong [] hp hins hname hreply
  obtain ⟨e,he,-⟩:=hgoes.calculated
  have hnameOf:=hshown slot (List.mem_range.mpr (shownAt_lt he))
  rw [he,Option.all_some,beq_iff_eq] at hnameOf
  have hown:=hgoes.own nameCut ⟨e,he,hnameOf⟩
  exact absurd hown (by decide)

end Issuers

end CdcBadge.Oath
