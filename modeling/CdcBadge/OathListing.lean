import CdcBadge.OathBackend
import CdcBadge.OathReading
import CdcBadge.Packing

/-!
# Enumerating the credentials

`LIST` and `CALCULATE ALL` put an item or two for each credential into the build buffer.
-/

namespace CdcBadge.Oath

open Handler Responses Runs Packing Tropic OathStore OathBackend
open Pin (PowerLost)

abbrev Item:=UInt8 × Bytes

def encodeItem (item : Item) : Bytes:=[item.1,UInt8.ofNat item.2.length]++item.2

def encodeItems (items : List Item) : Bytes:=items.flatMap encodeItem

def decodeItems : ℕ→Bytes→Option (List Item)
  | _, []=>some []
  | fuel+1, t::l::rest=>
    if rest.length < l.toNat then none
    else (decodeItems fuel (rest.drop l.toNat)).map fun items=>(t,rest.take l.toNat)::items
  | _, _=>none

def itemsIn (payload : Bytes) : Option (List Item):=decodeItems payload.length payload

theorem encodeItem_length (item : Item) : (encodeItem item).length=item.2.length+2:=by simp [encodeItem]

variable {items : List Item}

theorem decodeItems_encode (h : ∀ item∈items, item.2.length ≤ 255) {fuel : ℕ}
    (hfuel : items.length ≤ fuel) : decodeItems fuel (encodeItems items)=some items:=by
  induction items generalizing fuel with
  | nil=>cases fuel <;> rfl
  | cons item items ih=>
    obtain ⟨fuel,rfl⟩ : ∃ n, fuel=n+1:=⟨fuel-1,by simp only [List.length_cons] at hfuel; omega⟩
    have hlen : (UInt8.ofNat item.2.length).toNat=item.2.length:=by
      have hle:=h item List.mem_cons_self
      exact UInt8.toNat_ofNat_of_lt' (Nat.lt_of_le_of_lt hle (by decide))
    have hrest:=ih (fun i hi=>h i (List.mem_cons_of_mem _ hi)) (Nat.le_of_succ_le_succ hfuel)
    change decodeItems (fuel+1) (item.1::UInt8.ofNat item.2.length::(item.2++encodeItems items))=_
    rw [decodeItems,hlen,if_neg (by simp),List.drop_left,List.take_left,hrest]
    rfl

theorem length_le_encodeItems (items : List Item) : items.length ≤ (encodeItems items).length:=by
  induction items with
  | nil=>exact le_refl _
  | cons item items ih=>
    have hcons : encodeItems (item::items)=encodeItem item++encodeItems items:=rfl
    rw [hcons,List.length_append,encodeItem_length,List.length_cons]
    omega

theorem itemsIn_encode (h : ∀ item∈items, item.2.length ≤ 255) :
    itemsIn (encodeItems items)=some items:=
  decodeItems_encode h (length_le_encodeItems items)

variable {payload : Bytes}

theorem encode_decodeItems {fuel : ℕ} (h : decodeItems fuel payload=some items) :
    payload=encodeItems items:=by
  induction fuel generalizing payload items with
  | zero=>
    cases payload with
    | nil=>
      cases h
      rfl
    | cons t rest=>cases rest <;> cases h
  | succ fuel ih=>
    match payload with
    | []=>
      cases h
      rfl
    | [t]=>cases h
    | t::l::rest=>
      rw [decodeItems] at h
      split at h
      · cases h
      · rename_i hlen
        obtain ⟨later,hlater,rfl⟩:=Option.map_eq_some_iff.mp h
        have hrest:=ih hlater
        have htake : (rest.take l.toNat).length=l.toNat:=by
          rw [List.length_take]
          omega
        have hcons : encodeItems ((t,rest.take l.toNat)::later)=[t,UInt8.ofNat (rest.take l.toNat).length] ++
            rest.take l.toNat++encodeItems later:=rfl
        rw [hcons,htake,UInt8.ofNat_toNat,← hrest,List.append_assoc,List.take_append_drop]
        rfl

theorem itemsIn_iff (h : ∀ item∈items, item.2.length ≤ 255) :
    itemsIn payload=some items ↔ payload=encodeItems items:=by
  constructor
  · exact encode_decodeItems
  · rintro rfl
    exact itemsIn_encode h

theorem putTlv_bound (buf : Bytes) (item : Item) :
    (putTlv buildSize buf item.1 item.2).length ≤ buf.length+(encodeItem item).length:=by
  unfold putTlv
  split
  · omega
  · simp [encodeItem_length]

theorem putTlv_fits (buf : Bytes) (item : Item) (hlen : item.2.length ≤ 255)
    (h : buf.length+(encodeItem item).length ≤ buildSize) : putTlv buildSize buf item.1 item.2=buf++encodeItem item:=by
  rw [encodeItem_length] at h
  unfold putTlv
  rw [if_neg (by omega),List.append_assoc]
  rfl

theorem putTlv_full {buf : Bytes} (item : Item)
    (h : (putTlv buildSize buf item.1 item.2).length=buf.length+(encodeItem item).length) :
    putTlv buildSize buf item.1 item.2=buf++encodeItem item:=by
  rw [encodeItem_length] at h
  unfold putTlv at h ⊢
  split
  · rename_i hroom
    rw [if_pos hroom] at h
    omega
  · rw [List.append_assoc]
    rfl

def nameOf (e : OathEntry) : Bytes:=buildYkName (metaOf e)

def shownAt (c : Chip (Content Payload)) (slot : ℕ) : Option OathEntry:=(credential c slot).filter fun e=>e.type≠otypeCr

def credentialsOf (c : Chip (Content Payload)) : List OathEntry:=(List.range capacity).filterMap (shownAt c)

def listItem (e : OathEntry) : Item:=(tagNameList,typeAlgoByte (metaOf e)::nameOf e)

variable {c : Chip (Content Payload)}

section Results

variable (hmac : Hmac) (challenge : ByteArr 8)

/-- The credential whose code `CALCULATE ALL` gives. -/
def Computed (e : OathEntry) : Prop:=e.type≠otypeHotp ∧ e.flags &&& oflagTouch=0

instance (e : OathEntry) : Decidable (Computed e):=inferInstanceAs (Decidable (_ ∧ _))

def totpCode (e : OathEntry) : Option (ByteArr 4 × UInt8):=truncatedOf hmac {} e (ofBe64 challenge.toList)

def resultItem (e : OathEntry) : Item:=
  if e.type=otypeHotp then (tagHotp,[])
  else if e.flags &&& oflagTouch≠0 then (tagTouch,[])
  else
    match totpCode hmac challenge e with
    | some code=>(tagTruncResp,truncItem code)
    | none=>(tagTouch,[])

def calculateItems (e : OathEntry) : List Item:=[(tagName,nameOf e),resultItem hmac challenge e]

variable (mapSignature : UInt32) {s : Ctx Badge} {slot : ℕ}

def seenAt (o : SeOutcome) (c : Chip (Content Payload)) (slot : ℕ) : Except PowerLost (Option OathEntry):=
  match o with
  | .done=>.ok (shownAt c slot)
  | .failed _ _=>.ok none
  | .powerLost _=>.error ⟨⟩

theorem readAccount_fst (o : SeOutcome) (hslot : slot < capacity) (store : Store) : (readAccount o slot store).1 =
    match o with
    | .done=>.ok (credential store.chip slot)
    | .failed _ _=>.ok none
    | .powerLost _=>.error ⟨⟩:=by
  have hphys : toPhysicalSlot slot=some (31+slot):=if_neg (by simp only [slots2fa,capacity] at *; omega)
  cases o with
  | done=>rw [readAccount_done]
  | failed e applied=>rw [readAccount_failed]
  | powerLost applied=>rw [readAccount_lost applied hphys]

theorem readShown_apply (hslot : slot < capacity) (s : Ctx Badge) : readShown (backend hmac mapSignature) slot s =
    ((seenAt (s.be.env.reads.headD .done) s.be.store.chip slot).map fun e=>e.map metaOf,
      {s with be:={s.be with env:=s.be.env.read1}}):=by
  have hread : call ((backend hmac mapSignature).read slot) s=_:=
    congrArg (fun p=>(p.1,{s with be:=p.2})) (beRead_apply slot s.be)
  unfold readShown seenAt
  rw [bind_apply,hread,readAccount_fst _ hslot]
  cases s.be.env.reads.headD .done with
  | failed e applied=>rfl
  | powerLost applied=>rfl
  | done=>
    unfold shownAt
    cases credential s.be.store.chip slot with
    | none=>rfl
    | some e=>by_cases htype : e.type=otypeCr <;> simp [Except.map,htype,metaOf,Env.read1]

/-- The next read does not lose power, and does not fail on a credential. -/
def ReadGood (c : Chip (Content Payload)) (env : Env) (slot : ℕ) : Prop:=
  (env.reads.headD .done).powered=true ∧ (shownAt c slot≠none→env.reads.headD .done=.done)

theorem seenAt_cases {env : Env} {found : Option OathEntry}
    (h : seenAt (env.reads.headD .done) c slot=.ok found) :
    found=shownAt c slot ∧ ReadGood c env slot ∨ found=none ∧ shownAt c slot≠none:=by
  unfold seenAt at h
  unfold ReadGood
  cases ho : env.reads.headD .done with
  | powerLost applied=>
    rw [ho] at h
    cases h
  | done=>
    rw [ho] at h
    cases h
    exact Or.inl ⟨rfl,rfl,fun _=>rfl⟩
  | failed e applied=>
    rw [ho] at h
    cases h
    by_cases hnone : shownAt c slot=none
    · exact Or.inl ⟨hnone.symm,rfl,fun hsome=>absurd hnone hsome⟩
    · exact Or.inr ⟨rfl,hnone⟩

theorem seenAt_good {env : Env} (h : ReadGood c env slot) :
    seenAt (env.reads.headD .done) c slot=.ok (shownAt c slot):=by
  obtain ⟨hpowered,hdone⟩:=h
  unfold seenAt
  cases ho : env.reads.headD .done with
  | powerLost applied=>
    rw [ho] at hpowered
    cases hpowered
  | done=>rfl
  | failed e applied=>
    by_cases hnone : shownAt c slot=none
    · rw [hnone]
    · have hcontra:=hdone hnone
      rw [ho] at hcontra
      cases hcontra

def OnChip (c : Chip (Content Payload)) (s : Ctx Badge) : Prop:=s.be.store.chip=c

def Short (c : Chip (Content Payload)) : Prop:=∀ slot e, shownAt c slot=some e→(nameOf e).length < nameSize

def listPart (c : Chip (Content Payload)) (slot : ℕ) : Bytes:=encodeItems ((shownAt c slot).map listItem).toList

theorem encodeItems_one (item : Item) : encodeItems [item]=encodeItem item:=List.flatMap_singleton _ _

theorem listEntry_apply (hslot : slot < capacity) (buf : Bytes) (s : Ctx Badge) :
    listEntry (backend hmac mapSignature) buf slot s =
      ((seenAt (s.be.env.reads.headD .done) s.be.store.chip slot).map fun
        | none=>buf
        | some e=>putTlv buildSize buf (listItem e).1 (listItem e).2,
        {s with be:={s.be with env:=s.be.env.read1}}):=by
  unfold listEntry
  rw [bind_apply,readShown_apply hmac mapSignature hslot]
  match seenAt (s.be.env.reads.headD .done) s.be.store.chip slot with
  | .error _=>rfl
  | .ok none=>rfl
  | .ok (some e)=>rfl

theorem packs_list (hshort : Short c) : Packs buildSize (· < capacity) (OnChip c)
    (fun s=>s.be.env) (fun env _=>env.read1) (ReadGood c) (listPart c) (listEntry (backend hmac mapSignature)) where
  bound:=by
    rintro buf out slot s t hslot rfl hbuf hrun
    rw [listEntry_apply hmac mapSignature hslot] at hrun
    obtain ⟨found,hfound,hout,rfl⟩ : ∃ found, seenAt (s.be.env.reads.headD .done) s.be.store.chip slot=.ok found ∧
        (match found with
          | none=>buf
          | some e=>putTlv buildSize buf (listItem e).1 (listItem e).2)=out ∧
        {s with be:={s.be with env:=s.be.env.read1}}=t:=by
      cases hseen : seenAt (s.be.env.reads.headD .done) s.be.store.chip slot with
      | error e=>
        rw [hseen] at hrun
        cases hrun
      | ok found=>
        rw [hseen] at hrun
        simp only [Except.map,Prod.mk.injEq,Except.ok.injEq] at hrun
        exact ⟨found,rfl,hrun⟩
    unfold listPart
    rcases seenAt_cases hfound with ⟨rfl,hgood⟩ | ⟨rfl,hsome⟩
    · cases hshown : shownAt s.be.store.chip slot with
      | none=>
        rw [hshown] at hout
        subst hout
        exact ⟨rfl,hbuf,by simp,fun _=>⟨hgood,by simp [encodeItems],rfl⟩⟩
      | some e=>
        rw [hshown] at hout
        subst hout
        have hbound:=putTlv_bound buf (listItem e)
        rw [Option.map_some,Option.toList_some,encodeItems_one]
        exact ⟨rfl,putTlv_length hbuf _ _,hbound,fun hfull=>⟨hgood,putTlv_full _ hfull,rfl⟩⟩
    · obtain rfl : buf=out:=hout
      obtain ⟨e,he⟩:=Option.ne_none_iff_exists'.mp hsome
      rw [he,Option.map_some,Option.toList_some,encodeItems_one,encodeItem_length]
      exact ⟨rfl,hbuf,by omega,fun hfull=>by omega⟩
  good:=by
    rintro buf slot s hslot rfl hgood hroom
    rw [listEntry_apply hmac mapSignature hslot,seenAt_good hgood]
    unfold listPart at hroom ⊢
    cases hshown : shownAt s.be.store.chip slot with
    | none=>
      refine ⟨{s with be:={s.be with env:=s.be.env.read1}},?_,rfl,rfl⟩
      simp [Except.map,encodeItems]
    | some e=>
      rw [hshown,Option.map_some,Option.toList_some,encodeItems_one] at hroom
      have hlen : (listItem e).2.length ≤ 255:=(Nat.succ_le_of_lt (hshort slot e hshown)).trans (by decide)
      rw [Option.map_some,Option.toList_some,encodeItems_one]
      refine ⟨{s with be:={s.be with env:=s.be.env.read1}},?_,rfl,rfl⟩
      rw [← putTlv_fits _ _ hlen hroom]
      rfl

variable {e : OathEntry}

theorem shownAt_some (h : shownAt c slot=some e) :
    credential c slot=some e ∧ e.type≠otypeCr:=by
  obtain ⟨he,htype⟩:=Option.filter_eq_some_iff.mp h
  exact ⟨he,by simpa using htype⟩

/-- What a calculation with this outcome answers for a credential that has no counter. -/
def calculated (o : CalcOutcome) (e : OathEntry) : Except PowerLost (Option (ByteArr 4 × UInt8)):=
  match o.read with
  | .done=>.ok (if o.hmac then totpCode hmac challenge e else none)
  | .failed _ _=>.ok none
  | .powerLost _=>.error ⟨⟩

theorem calculateForChallenge_totp {store : Store} (he : shownAt store.chip slot=some e) (htype : e.type≠otypeHotp)
    (o : CalcOutcome) : calculateForChallenge hmac mapSignature o slot challenge store =
      (calculated hmac challenge o e,store):=by
  obtain ⟨hcredential,hcr⟩:=shownAt_some he
  have hphys:=(credential_some hcredential).1
  unfold calculateForChallenge calculated
  cases hread : o.read with
  | failed err applied=>rw [bind_of_ok (readAccount_failed err applied slot store)]; rfl
  | powerLost applied=>rw [bind_of_error (readAccount_lost applied hphys store)]
  | done=>
    rw [bind_of_ok (readAccount_done slot store),hcredential]
    simp only [if_neg hcr,if_neg htype]
    cases hhmac : o.hmac with
    | true=>simp [truncatedOf,totpCode,computeTruncated,hhmac]
    | false=>simp [truncatedOf,computeTruncated,hhmac]

/-- Neither the next read nor, where a code is due, the next calculation loses power or fails. -/
def CalculateGood (c : Chip (Content Payload)) (env : Env) (slot : ℕ) : Prop:=
  ReadGood c env slot ∧ ∀ e, shownAt c slot=some e → Computed e →
    (env.calcs.headD {}).read.powered=true ∧
      (totpCode hmac challenge e≠none→(env.calcs.headD {}).read=.done ∧ (env.calcs.headD {}).hmac=true)

def afterSlot (c : Chip (Content Payload)) (env : Env) (slot : ℕ) : Env:=
  if ∃ e∈shownAt c slot, Computed e then env.read1.calc1 else env.read1

def codeItem (code : Option (ByteArr 4 × UInt8)) : Item:=
  match code with
  | some code=>(tagTruncResp,truncItem code)
  | none=>(tagTouch,[])

theorem resultItem_computed (h : Computed e) : resultItem hmac challenge e=codeItem (totpCode hmac challenge e):=by
  unfold resultItem codeItem
  rw [if_neg h.1,if_neg (not_not_intro h.2)]

def calculatePart (c : Chip (Content Payload)) (slot : ℕ) : Bytes:=
  encodeItems ((shownAt c slot).toList.flatMap (calculateItems hmac challenge))

theorem calculateEntry_seen (hslot : slot < capacity) (buf : Bytes) (s : Ctx Badge) :
    calculateEntry (backend hmac mapSignature) challenge buf slot s =
      match seenAt (s.be.env.reads.headD .done) s.be.store.chip slot with
      | .error e=>(.error e,{s with be:={s.be with env:=s.be.env.read1}})
      | .ok none=>(.ok buf,{s with be:={s.be with env:=s.be.env.read1}})
      | .ok (some e)=>
        if Computed e then
          match calculateForChallenge hmac mapSignature (s.be.env.calcs.headD {}) slot challenge s.be.store with
          | (.error err,store)=>(.error err,{s with be:={s.be with store,env:=s.be.env.read1.calc1}})
          | (.ok code,store)=>
            (.ok (putTlv buildSize (putTlv buildSize buf tagName (nameOf e)) (codeItem code).1 (codeItem code).2),
              {s with be:={s.be with store,env:=s.be.env.read1.calc1}})
        else
          (.ok (putTlv buildSize (putTlv buildSize buf tagName (nameOf e)) (resultItem hmac challenge e).1
            (resultItem hmac challenge e).2),{s with be:={s.be with env:=s.be.env.read1}}):=by
  unfold calculateEntry
  rw [bind_apply,readShown_apply hmac mapSignature hslot]
  match seenAt (s.be.env.reads.headD .done) s.be.store.chip slot with
  | .error _=>rfl
  | .ok none=>rfl
  | .ok (some e)=>
    dsimp only [Except.map,Option.map_some]
    by_cases hhotp : e.type=otypeHotp
    · rw [if_neg (fun h : Computed e=>h.1 hhotp),if_pos (show (metaOf e).type=otypeHotp from hhotp)]
      simp only [resultItem,if_pos hhotp]
      rfl
    · rw [if_neg (show (metaOf e).type≠otypeHotp from hhotp)]
      by_cases htouch : e.flags &&& oflagTouch=0
      · rw [if_pos (show Computed e from ⟨hhotp,htouch⟩),
          if_neg (show ¬(metaOf e).flags &&& oflagTouch≠0 from not_not_intro htouch),bind_apply]
        have hcall : call ((backend hmac mapSignature).calculate slot challenge)
            {s with be:={s.be with env:=s.be.env.read1}}=_:=
          congrArg (fun p=>(p.1,({s with be:=p.2} : Ctx Badge)))
            (beCalculate_apply hmac mapSignature slot challenge {s.be with env:=s.be.env.read1})
        rw [hcall]
        dsimp only [Env.read1]
        match calculateForChallenge hmac mapSignature (s.be.env.calcs.headD {}) slot challenge s.be.store with
        | (.error err,store)=>rfl
        | (.ok none,store)=>rfl
        | (.ok (some code),store)=>rfl
      · rw [if_neg (fun h : Computed e=>htouch h.2),
          if_pos (show (metaOf e).flags &&& oflagTouch≠0 from htouch)]
        simp only [resultItem,if_neg hhotp,if_pos (show e.flags &&& oflagTouch≠0 from htouch)]
        rfl

theorem calculated_cases {o : CalcOutcome} {code : Option (ByteArr 4 × UInt8)} (h : calculated hmac challenge o e=.ok code) :
    code=totpCode hmac challenge e ∧ o.read.powered=true ∧
      (totpCode hmac challenge e≠none → o.read=.done ∧ o.hmac=true) ∨
      code=none ∧ totpCode hmac challenge e≠none:=by
  unfold calculated at h
  cases hread : o.read with
  | powerLost applied=>
    rw [hread] at h
    cases h
  | failed err applied=>
    rw [hread] at h
    cases h
    by_cases hnone : totpCode hmac challenge e=none
    · exact Or.inl ⟨hnone.symm,rfl,fun hsome=>absurd hnone hsome⟩
    · exact Or.inr ⟨rfl,hnone⟩
  | done=>
    rw [hread] at h
    cases h
    cases hhmac : o.hmac with
    | true=>exact Or.inl ⟨rfl,rfl,fun _=>⟨rfl,rfl⟩⟩
    | false=>
      by_cases hnone : totpCode hmac challenge e=none
      · exact Or.inl ⟨hnone.symm,rfl,fun hsome=>absurd hnone hsome⟩
      · exact Or.inr ⟨rfl,hnone⟩

theorem calculated_good {o : CalcOutcome} (hpowered : o.read.powered=true)
    (hdone : totpCode hmac challenge e≠none → o.read=.done ∧ o.hmac=true) :
    calculated hmac challenge o e=.ok (totpCode hmac challenge e):=by
  unfold calculated
  by_cases hnone : totpCode hmac challenge e=none
  · cases hread : o.read with
    | powerLost applied=>
      rw [hread] at hpowered
      cases hpowered
    | failed err applied=>rw [hnone]
    | done=>simp [hnone]
  · obtain ⟨hread,hhmac⟩:=hdone hnone
    simp [hread,hhmac]

theorem encodeItems_two (a b : Item) : encodeItems [a,b]=encodeItem a++encodeItem b:=by simp [encodeItems]

theorem putTlv_two_bound (buf : Bytes) (a b : Item) : (putTlv buildSize (putTlv buildSize buf a.1 a.2) b.1 b.2).length ≤
    buf.length+(encodeItems [a,b]).length:=by
  have hfirst:=putTlv_bound buf a
  have hsecond:=putTlv_bound (putTlv buildSize buf a.1 a.2) b
  rw [encodeItems_two,List.length_append]
  omega

theorem putTlv_two_full {buf : Bytes} {a b : Item}
    (h : (putTlv buildSize (putTlv buildSize buf a.1 a.2) b.1 b.2).length=buf.length+(encodeItems [a,b]).length) :
    putTlv buildSize (putTlv buildSize buf a.1 a.2) b.1 b.2=buf++encodeItems [a,b]:=by
  have hfirst:=putTlv_bound buf a
  have hsecond:=putTlv_bound (putTlv buildSize buf a.1 a.2) b
  rw [encodeItems_two,List.length_append] at h
  rw [putTlv_full b (by omega),putTlv_full a (by omega),encodeItems_two,List.append_assoc]

theorem putTlv_two_fits {buf : Bytes} {a b : Item} (ha : a.2.length ≤ 255) (hb : b.2.length ≤ 255)
    (h : buf.length+(encodeItems [a,b]).length ≤ buildSize) :
    putTlv buildSize (putTlv buildSize buf a.1 a.2) b.1 b.2=buf++encodeItems [a,b]:=by
  rw [encodeItems_two,List.length_append] at h
  have hfirst:=putTlv_fits buf a ha (by omega)
  rw [hfirst,putTlv_fits _ b hb (by rw [List.length_append]; omega),encodeItems_two,List.append_assoc]

theorem resultItem_length (e : OathEntry) : (resultItem hmac challenge e).2.length ≤ 255:=by
  unfold resultItem
  split_ifs
  · simp
  · simp
  · cases totpCode hmac challenge e with
    | none=>simp
    | some code=>simp [truncItem]

theorem calculatePart_some (h : shownAt c slot=some e) :
    calculatePart hmac challenge c slot=encodeItems [(tagName,nameOf e),resultItem hmac challenge e]:=by
  unfold calculatePart calculateItems
  rw [h]
  simp

theorem packs_calculate (hshort : Short c) : Packs buildSize (· < capacity) (OnChip c)
    (fun s=>s.be.env) (afterSlot c) (CalculateGood hmac challenge c) (calculatePart hmac challenge c)
    (calculateEntry (backend hmac mapSignature) challenge) where
  bound:=by
    rintro buf out slot s t hslot rfl hbuf hrun
    rw [calculateEntry_seen hmac challenge mapSignature hslot] at hrun
    cases hseen : seenAt (s.be.env.reads.headD .done) s.be.store.chip slot with
    | error e=>
      rw [hseen] at hrun
      cases hrun
    | ok found=>
      rw [hseen] at hrun
      rcases seenAt_cases hseen with ⟨rfl,hgood⟩ | ⟨rfl,hsome⟩
      · cases hshown : shownAt s.be.store.chip slot with
        | none=>
          rw [hshown] at hrun
          cases hrun
          refine ⟨rfl,hbuf,Nat.le_add_right _ _,fun _=>⟨⟨hgood,?_⟩,?_,?_⟩⟩
          · rintro e he
            rw [hshown] at he
            cases he
          · simp [calculatePart,hshown,encodeItems]
          · simp [afterSlot,hshown]
        | some e=>
          rw [hshown] at hrun
          rw [calculatePart_some hmac challenge hshown]
          dsimp only at hrun
          by_cases hcomputed : Computed e
          · rw [if_pos hcomputed,calculateForChallenge_totp hmac challenge mapSignature hshown hcomputed.1] at hrun
            cases hcode : calculated hmac challenge (s.be.env.calcs.headD {}) e with
            | error err=>
              rw [hcode] at hrun
              cases hrun
            | ok code=>
              rw [hcode] at hrun
              cases hrun
              have hbound:=putTlv_two_bound buf (tagName,nameOf e) (codeItem code)
              have hput:=@putTlv_two_full buf (tagName,nameOf e) (codeItem code)
              have hsized:=putTlv_length (putTlv_length hbuf tagName (nameOf e)) (codeItem code).1 (codeItem code).2
              rw [resultItem_computed hmac challenge hcomputed]
              rcases calculated_cases hmac challenge hcode with ⟨rfl,hdone⟩ | ⟨rfl,hsome⟩
              · refine ⟨rfl,hsized,hbound,fun hfull=>⟨⟨hgood,?_⟩,hput hfull,?_⟩⟩
                · rintro f hf -
                  rw [hshown] at hf
                  cases hf
                  exact hdone
                · simp [afterSlot,hshown,hcomputed]
              · obtain ⟨code,hcode⟩:=Option.ne_none_iff_exists'.mp hsome
                rw [hcode]
                dsimp only at hbound
                have hless : (encodeItems [(tagName,nameOf e),codeItem none]).length+5 =
                    (encodeItems [(tagName,nameOf e),codeItem (some code)]).length:=by
                  simp [encodeItems_two,encodeItem_length,codeItem,truncItem]
                exact ⟨rfl,hsized,by omega,fun hfull=>by omega⟩
          · rw [if_neg hcomputed] at hrun
            cases hrun
            have hbound:=putTlv_two_bound buf (tagName,nameOf e) (resultItem hmac challenge e)
            have hput:=@putTlv_two_full buf (tagName,nameOf e) (resultItem hmac challenge e)
            have hsized:=putTlv_length (putTlv_length hbuf tagName (nameOf e)) (resultItem hmac challenge e).1
              (resultItem hmac challenge e).2
            refine ⟨rfl,hsized,hbound,fun hfull=>⟨⟨hgood,?_⟩,hput hfull,?_⟩⟩
            · intro f hf hc
              rw [hshown] at hf
              cases hf
              exact absurd hc hcomputed
            · simp [afterSlot,hshown,hcomputed]
      · cases hrun
        obtain ⟨e,he⟩:=Option.ne_none_iff_exists'.mp hsome
        rw [calculatePart_some hmac challenge he,encodeItems_two,List.length_append,encodeItem_length]
        exact ⟨rfl,hbuf,by omega,fun hfull=>by omega⟩
  good:=by
    rintro buf slot s hslot rfl ⟨hgood,hcalc⟩ hroom
    rw [calculateEntry_seen hmac challenge mapSignature hslot,seenAt_good hgood]
    cases hshown : shownAt s.be.store.chip slot with
    | none=>
      refine ⟨{s with be:={s.be with env:=s.be.env.read1}},?_,rfl,?_⟩
      · simp [calculatePart,hshown,encodeItems]
      · simp [afterSlot,hshown]
    | some e=>
      rw [calculatePart_some hmac challenge hshown] at hroom ⊢
      have hname : (nameOf e).length ≤ 255:=(Nat.le_of_lt (hshort slot e hshown)).trans (by decide)
      have hput:=putTlv_two_fits (a:=(tagName,nameOf e)) hname (resultItem_length hmac challenge e) hroom
      dsimp only
      by_cases hcomputed : Computed e
      · obtain ⟨hpowered,hdone⟩:=hcalc e hshown hcomputed
        rw [if_pos hcomputed,calculateForChallenge_totp hmac challenge mapSignature hshown hcomputed.1,
          calculated_good hmac challenge hpowered hdone,← hput,resultItem_computed hmac challenge hcomputed]
        refine ⟨{s with be:={s.be with env:=s.be.env.read1.calc1}},rfl,rfl,?_⟩
        simp [afterSlot,hshown,hcomputed]
      · rw [if_neg hcomputed,← hput]
        refine ⟨{s with be:={s.be with env:=s.be.env.read1}},rfl,rfl,?_⟩
        simp [afterSlot,hshown,hcomputed]

end Results

section Payloads

variable {β : Type} {b : Backend β} {s : Ctx β} {i : Bytes × ℕ} {a : Scard.Apdu}

/-- A host that sends the command and then `SEND REMAINING` reads these items. -/
def Reads (b : Backend β) (s : Ctx β) (i : Bytes × ℕ) (items : List Item) : Prop:=
  (exchange b s i).1≠none ∧
    ∃ payload, responseCode.Delivered (exchange b) IsSend payload s i ∧ itemsIn payload=some items

theorem delivered_unique {p q : Bytes} (hp : responseCode.Delivered (exchange b) IsSend p s i)
    (hq : responseCode.Delivered (exchange b) IsSend q s i) : p=q:=by
  have hsends : ∀ j∈List.replicate (p.length+q.length) anySend, IsSend j:=by
    intro j hj
    rw [List.eq_of_mem_replicate hj]
    exact isSend_any
  have hlen : (List.replicate (p.length+q.length) anySend).length=p.length+q.length:=List.length_replicate
  rw [← (hp _ hsends).2 (by omega),(hq _ hsends).2 (by omega)]

theorem reads_iff (ha : parsed i=some a) (hother : isSendRemaining a=false)
    (hshape : ∀ r, builds b s a=.ok r → r.sw=swOk) (hitems : ∀ item∈items, item.2.length ≤ 255) :
    Reads b s i items ↔ builds b s a=.ok {data:=encodeItems items,sw:=swOk}:=by
  constructor
  · rintro ⟨hanswered,payload,hdelivered,hread⟩
    cases hbuilds : builds b s a with
    | ok r=>
      have hr : r={data:=r.data,sw:=swOk}:=by rw [← hshape r hbuilds]
      have hsame:=delivered_unique hdelivered (delivered ha hother (hbuilds.trans (congrArg Except.ok hr)))
      rw [hr,← hsame,(itemsIn_iff hitems).mp hread]
    | error e=>
      exfalso
      apply hanswered
      obtain ⟨t,-,⟨e',-,hrun⟩ | ⟨sw,hsw,-⟩ | ⟨p,-,hp,-⟩⟩:=
        (uniform_processParsed (b:=b) hother).cases ({s with respMax:=i.2} : Ctx β)
      · have herror:=hrun a.le (port.get {s with respMax:=i.2})
        rw [exchange_parsed ha,show processParsed b a {s with respMax:=i.2}=_ from herror]
      · cases hbuilds.symm.trans hsw
      · cases hbuilds.symm.trans hp
  · intro hbuilds
    have hdelivered:=delivered ha hother hbuilds
    refine ⟨?_,_,hdelivered,itemsIn_encode hitems⟩
    obtain ⟨n,t,hrun,-⟩:=(uniform_processParsed (b:=b) hother).front (s:={s with respMax:=i.2}) hbuilds a.le
    rw [exchange_parsed ha,show processParsed b a {s with respMax:=i.2}=_ from hrun]
    simp

def roomy (s : Ctx β) : Ctx β:=port.set (respBufferSize+3,[]) s

theorem emit_roomy (h : payload.length ≤ buildSize) {t : Ctx β} (ht : t.respMax=respBufferSize+3) :
    (emit payload (respBufferSize+1) t).1=.ok {data:=payload,sw:=swOk}:=by
  unfold emit
  rw [bind_gets,ht]
  dsimp only
  rw [if_pos (h.trans (by decide))]
  rfl

theorem processParsed_gated (hselect : a.ins≠insIsoSelect ∨ a.p1≠0x04) (hsend : a.ins≠insSendRemaining)
    (hreset : a.ins≠insReset) (hvalidate : a.ins≠insValidate) (hvalidated : s.app.validated=true) :
    processParsed b a s =
      (if a.ins=insPut then cmdPut b a.data
      else if a.ins=insDelete then cmdDelete b a.data
      else if a.ins=insSetCode then cmdSetCode b a.data
      else if a.ins=insList then cmdList b a.le
      else if a.ins=insCalculate then cmdCalculate b a.data a.le
      else if a.ins=insCalculateAll then cmdCalculateAll b a.data a.le
      else answerSw swInsNotSupported) s:=by
  have hnot : ¬(a.ins=insIsoSelect ∧ a.p1=0x04):=by
    rintro ⟨hins,hp1⟩
    exact hselect.elim (absurd hins) (absurd hp1)
  unfold processParsed appGets
  rw [if_neg hnot,if_neg hsend,if_neg hreset,if_neg hvalidate,bind_gets]
  exact congrFun (if_neg (by simp [hvalidated])) s

theorem processParsed_locked (hselect : a.ins≠insIsoSelect ∨ a.p1≠0x04) (hsend : a.ins≠insSendRemaining)
    (hreset : a.ins≠insReset) (hvalidate : a.ins≠insValidate) (hlocked : s.app.validated=false) :
    processParsed b a s=answerSw swAuthRequired s:=by
  have hnot : ¬(a.ins=insIsoSelect ∧ a.p1=0x04):=by
    rintro ⟨hins,hp1⟩
    exact hselect.elim (absurd hins) (absurd hp1)
  unfold processParsed appGets
  rw [if_neg hnot,if_neg hsend,if_neg hreset,if_neg hvalidate,bind_gets]
  exact congrFun (if_pos (by simp [hlocked])) s

theorem whole_foldlM {f : Bytes → ℕ→OathM β Bytes} (hf : ∀ slot, Sized fun buf=>f buf slot)
    (hblind : ∀ buf slot, Blind port (f buf slot)) :
    (((List.range (b.capacity s.be)).foldlM f [] >>= fun p=>emit p (respBufferSize+1) : OathM β Reply) (roomy s)).1 =
      ((List.range (b.capacity s.be)).foldlM f [] (roomy s)).1.map fun data=>{data,sw:=swOk}:=by
  have hport:=(blind_foldlM hblind (List.range (b.capacity s.be)) []).get_eq (roomy s)
  have hsized:=sized_foldlM hf (List.range (b.capacity s.be)) [] (Nat.zero_le _)
  rw [bind_apply]
  cases hrun : (List.range (b.capacity s.be)).foldlM f [] (roomy s) with
  | mk r t=>
    cases r with
    | error e=>rfl
    | ok p=>
      have hlen : p.length ≤ buildSize:=hsized.ok trivial hrun
      rw [hrun] at hport
      have hmax : t.respMax=respBufferSize+3:=congrArg Prod.fst hport
      exact emit_roomy hlen hmax

theorem builds_list (hins : a.ins=insList) (hvalidated : s.app.validated=true) : builds b s a =
    ((List.range (b.capacity s.be)).foldlM (listEntry b) [] (roomy s)).1.map fun data=>{data,sw:=swOk}:=by
  have hprocess:=@processParsed_gated β b (roomy s) {a with le:=respBufferSize+1} (by simp [hins,insList,insIsoSelect])
    (by simp [hins,insList,insSendRemaining]) (by simp [hins,insList,insReset]) (by simp [hins,insList,insValidate])
    hvalidated
  have hwhole : builds b s a=(processParsed b {a with le:=respBufferSize+1} (roomy s)).1:=rfl
  rw [← whole_foldlM sized_listEntry blind_listEntry,hwhole,hprocess]
  dsimp only
  rw [if_neg (by simp [hins,insList,insPut]),if_neg (by simp [hins,insList,insDelete]),
    if_neg (by simp [hins,insList,insSetCode]),if_pos hins]
  rfl

theorem builds_calculateAll (hins : a.ins=insCalculateAll) (hp1 : a.p1≠0x04) (hvalidated : s.app.validated=true)
    {challenge : ByteArr 8} (hchallenge : challengeIn a.data=some challenge) : builds b s a =
    ((List.range (b.capacity s.be)).foldlM (calculateEntry b challenge) [] (roomy s)).1.map fun data=>
      {data,sw:=swOk}:=by
  have hprocess:=@processParsed_gated β b (roomy s) {a with le:=respBufferSize+1} (Or.inr hp1)
    (by simp [hins,insCalculateAll,insSendRemaining]) (by simp [hins,insCalculateAll,insReset])
    (by simp [hins,insCalculateAll,insValidate]) hvalidated
  have hwhole : builds b s a=(processParsed b {a with le:=respBufferSize+1} (roomy s)).1:=rfl
  rw [← whole_foldlM (sized_calculateEntry challenge) (blind_calculateEntry challenge),hwhole,hprocess]
  dsimp only
  rw [if_neg (by simp [hins,insCalculateAll,insPut]),if_neg (by simp [hins,insCalculateAll,insDelete]),
    if_neg (by simp [hins,insCalculateAll,insSetCode]),if_neg (by simp [hins,insCalculateAll,insList]),
    if_neg (by simp [hins,insCalculateAll,insCalculate]),if_pos hins]
  unfold cmdCalculateAll
  rw [hchallenge]
  rfl

end Payloads

variable {name : Bytes}

section Enumerations

variable (hmac : Hmac) (mapSignature : UInt32) (challenge : ByteArr 8) {s : Ctx Badge} {i : Bytes × ℕ} {a : Scard.Apdu}

theorem encodeItems_flatMap {α : Type} (f : α → List Item) (l : List α) :
    encodeItems (l.flatMap f)=l.flatMap fun x=>encodeItems (f x):=by
  unfold encodeItems
  rw [List.flatMap_assoc]

theorem listParts (c : Chip (Content Payload)) :
    (List.range capacity).flatMap (listPart c)=encodeItems ((credentialsOf c).map listItem):=by
  have hlist : (credentialsOf c).map listItem=(List.range capacity).flatMap fun slot=>((shownAt c slot).map listItem).toList:=by
    unfold credentialsOf
    rw [List.map_filterMap,List.filterMap_eq_flatMap_toList]
  rw [hlist,encodeItems_flatMap]
  rfl

theorem calculateParts (c : Chip (Content Payload)) : (List.range capacity).flatMap (calculatePart hmac challenge c) =
    encodeItems ((credentialsOf c).flatMap (calculateItems hmac challenge)):=by
  have hlist : (credentialsOf c).flatMap (calculateItems hmac challenge) =
      (List.range capacity).flatMap fun slot=>(shownAt c slot).toList.flatMap (calculateItems hmac challenge):=by
    unfold credentialsOf
    rw [List.filterMap_eq_flatMap_toList,List.flatMap_assoc]
  rw [hlist,encodeItems_flatMap]
  rfl

def quiet (s : Ctx Badge) : Ctx Badge:={s with be:={s.be with env:={}}}

def firstNamed (c : Chip (Content Payload)) (name : Bytes) : Option ℕ:=
  (List.range capacity).find? fun slot=>(shownAt c slot).any fun e=>nameOf e == name

theorem readShown_quiet {slot : ℕ} (hslot : slot < capacity) (hs : s.be.env={}) :
    readShown (backend hmac mapSignature) slot s=(.ok ((shownAt s.be.store.chip slot).map metaOf),s):=by
  have hsame : {s with be:={s.be with env:=s.be.env.read1}}=s:=by
    rw [hs,show Env.read1 {}=({} : Env) from rfl,← hs]
  rw [readShown_apply hmac mapSignature hslot,hsame,hs]
  rfl

theorem findAmong_quiet (hs : s.be.env={}) (name : Bytes) {slots : List ℕ} (hslots : ∀ slot∈slots, slot < capacity) :
    findAmong (backend hmac mapSignature) name slots s =
      (.ok (slots.find? fun slot=>(shownAt s.be.store.chip slot).any fun e=>nameOf e == name),s):=by
  induction slots with
  | nil=>rfl
  | cons slot slots ih=>
    have hrest:=ih fun i hi=>hslots i (List.mem_cons_of_mem slot hi)
    unfold findAmong
    rw [bind_of_ok (readShown_quiet hmac mapSignature (hslots slot List.mem_cons_self) hs),List.find?_cons]
    cases hshown : shownAt s.be.store.chip slot with
    | none=>exact hrest
    | some e=>
      by_cases hname : nameOf e=name
      · simp only [Option.map_some,Option.any_some,beq_iff_eq.mpr hname]
        rw [if_pos (show buildYkName (metaOf e)=name from hname)]
        rfl
      · simp only [Option.map_some,Option.any_some,beq_eq_false_iff_ne.mpr hname]
        rw [if_neg (show buildYkName (metaOf e)≠name from hname)]
        exact hrest

theorem findByYkName_quiet (hs : s.be.env={}) (hname : name.length < nameSize) :
    findByYkName (backend hmac mapSignature) name s=(.ok (firstNamed s.be.store.chip name),s):=by
  unfold findByYkName
  rw [if_neg (by omega),bind_gets]
  exact findAmong_quiet hmac mapSignature hs name fun slot hslot=>List.mem_range.mp hslot

theorem firstNamed_some {slot : ℕ} (h : firstNamed c name=some slot) :
    slot < capacity ∧ ∃ e, shownAt c slot=some e ∧ nameOf e=name:=by
  refine ⟨List.mem_range.mp (List.mem_of_find?_eq_some h),?_⟩
  have hany:=List.find?_some h
  cases hshown : shownAt c slot with
  | none=>
    rw [hshown] at hany
    cases hany
  | some e=>
    rw [hshown] at hany
    exact ⟨e,rfl,by simpa using hany⟩

/-- The code that `CALCULATE` gives for a credential, where its touch is in order. -/
def codeFor (touched : Bool) (e : OathEntry) : Option (ByteArr 4 × UInt8):=
  if e.flags &&& oflagTouch≠0 ∧ touched=false then none
  else truncatedOf hmac {} e (if e.type=otypeHotp then e.counter else ofBe64 challenge.toList)

def calculateApdu (name : Bytes) : Scard.Apdu where
  ins:=insCalculate
  data:=encodeItems [(tagName,name),(tagChallenge,challenge.toList)]

theorem findTlv_first (item : Item) (h : item.2.length ≤ 255) (rest : Bytes) :
    findTlv (encodeItem item++rest) item.1=some item.2:=by
  have hlen : (UInt8.ofNat item.2.length).toNat=item.2.length:=
    UInt8.toNat_ofNat_of_lt' (Nat.lt_of_le_of_lt h (by decide))
  have hdata : encodeItem item++rest=item.1::UInt8.ofNat item.2.length::(item.2++rest):=by simp [encodeItem]
  unfold findTlv
  rw [hdata,List.length_cons,scanTlv,hlen,if_neg (by simp),if_pos rfl,List.take_left]

theorem findTlv_second (item other : Item) (h : item.2.length ≤ 255) (hother : other.2.length ≤ 255) (hne : other.1≠item.1)
    (rest : Bytes) : findTlv (encodeItem other++(encodeItem item++rest)) item.1=some item.2:=by
  have hlen : (UInt8.ofNat item.2.length).toNat=item.2.length:=
    UInt8.toNat_ofNat_of_lt' (Nat.lt_of_le_of_lt h (by decide))
  have hlen' : (UInt8.ofNat other.2.length).toNat=other.2.length:=
    UInt8.toNat_ofNat_of_lt' (Nat.lt_of_le_of_lt hother (by decide))
  have hdata : encodeItem other++(encodeItem item++rest)=other.1::UInt8.ofNat other.2.length ::
      (other.2++(item.1::UInt8.ofNat item.2.length::(item.2++rest))):=by simp [encodeItem]
  unfold findTlv
  rw [hdata,List.length_cons,List.length_cons,scanTlv,hlen',if_neg (by simp),if_neg hne,List.drop_left,scanTlv,
    hlen,if_neg (by simp),if_pos rfl,List.take_left]

theorem writePayload_quiet {slot : ℕ} (hslot : slot∈slots) (acc : Account) (store : Store) :
    (writePayload mapSignature {} slot acc store).1=.ok true:=by
  have hreply:=(rmemWriteWithHeader_ok (s:=store) (o:={}) (slot_lt hslot) (r:=recordOf acc)).mpr ⟨rfl,rfl,Or.inl rfl⟩
  unfold writePayload
  rw [bind_apply]
  cases hwrite : rmemWriteWithHeader {} slot (recordOf acc) store with
  | mk r t=>
    rw [hwrite] at hreply
    obtain rfl : r=.ok (.ok ()):=hreply
    dsimp only
    have hcache : (writeSlot mapSignature {} moduleId2fa slot acc.name acc.flags t).1=.ok true:=by
      unfold writeSlot
      rw [slot_allowed hslot]
      rfl
    rw [bind_apply]
    cases hcached : writeSlot mapSignature {} moduleId2fa slot acc.name acc.flags t with
    | mk r u=>
      rw [hcached] at hcache
      obtain rfl : r=.ok true:=hcache
      rfl

theorem calculateForChallenge_quiet {slot : ℕ} {e : OathEntry} {store : Store} (he : shownAt store.chip slot=some e) :
    (calculateForChallenge hmac mapSignature {} slot challenge store).1 =
      .ok (truncatedOf hmac {} e (if e.type=otypeHotp then e.counter else ofBe64 challenge.toList)):=by
  by_cases htype : e.type=otypeHotp
  · obtain ⟨hcredential,hcr⟩:=shownAt_some he
    obtain ⟨hphys,hslot,-⟩:=credential_some hcredential
    have hwrite:=writePayload_quiet mapSignature hslot (e.account (nextCounter e.counter)) store
    unfold calculateForChallenge persistCounter
    rw [bind_of_ok (readAccount_done slot store),hcredential,hphys,if_pos htype]
    simp only [if_neg hcr,if_pos htype]
    rw [bind_apply]
    revert hwrite
    cases writePayload mapSignature {} (31+slot) (e.account (nextCounter e.counter)) store with
    | mk r t=>
      rintro rfl
      rfl
  · rw [calculateForChallenge_totp hmac challenge mapSignature he htype,if_neg htype]
    rfl

theorem read_quiet {slot : ℕ} {e : OathEntry} (hs : s.be.env={}) (he : shownAt s.be.store.chip slot=some e) :
    call ((backend hmac mapSignature).read slot) s=(.ok (some (metaOf e)),s):=by
  obtain ⟨app,⟨store,touch,nowUs,devId,accessKey,env⟩,respMax⟩:=s
  obtain rfl : env={}:=hs
  refine (congrArg (fun p : _ × Badge=>(p.1,(⟨app,p.2,respMax⟩ : Ctx Badge))) (beRead_apply slot _)).trans ?_
  dsimp only [List.headD_nil,List.tail_nil]
  rw [readAccount_done,(shownAt_some he).1]
  rfl

theorem answer_quiet {slot : ℕ} {e : OathEntry} (hs : s.be.env={}) (hroom : s.respMax=respBufferSize+3)
    (he : shownAt s.be.store.chip slot=some e) :
    ((call ((backend hmac mapSignature).calculate slot challenge) >>= fun code=>
      match code with
      | none=>answerSw swNoSuchObject
      | some code=>emit (putTlv buildSize [] tagTruncResp (truncItem code)) (respBufferSize+1) : OathM Badge Reply) s).1 =
      match truncatedOf hmac {} e (if e.type=otypeHotp then e.counter else ofBe64 challenge.toList) with
      | none=>.ok {sw:=swNoSuchObject}
      | some code=>.ok {data:=putTlv buildSize [] tagTruncResp (truncItem code),sw:=swOk}:=by
  have hcode:=calculateForChallenge_quiet hmac mapSignature challenge he
  have hcall : call ((backend hmac mapSignature).calculate slot challenge) s=_:=
    congrArg (fun p=>(p.1,{s with be:=p.2})) (beCalculate_apply hmac mapSignature slot challenge s.be)
  rw [bind_apply,hcall,hs]
  dsimp only [List.headD_nil]
  rw [hcode]
  cases truncatedOf hmac {} e (if e.type=otypeHotp then e.counter else ofBe64 challenge.toList) with
  | none=>rfl
  | some code=>exact emit_roomy (putTlv_first_length _ _) hroom

theorem calculateApdu_name (h : name.length < nameSize) :
    findTlv (calculateApdu challenge name).data tagName=some name:=by
  have hlen : name.length ≤ 255:=(Nat.le_of_lt h).trans (by decide)
  unfold calculateApdu
  rw [encodeItems_two]
  exact findTlv_first (tagName,name) hlen _

theorem calculateApdu_challenge (h : name.length < nameSize) :
    challengeIn (calculateApdu challenge name).data=some challenge:=by
  have hlen : name.length ≤ 255:=(Nat.le_of_lt h).trans (by decide)
  have hsecond : findTlv (calculateApdu challenge name).data tagChallenge=some challenge.toList:=by
    unfold calculateApdu
    rw [encodeItems_two,← List.append_nil (encodeItem (tagChallenge,challenge.toList))]
    exact findTlv_second (tagChallenge,challenge.toList) (tagName,name) (by simp) hlen
      (by simp [tagName,tagChallenge]) []
  unfold challengeIn
  rw [hsecond]
  simp

theorem truncReply (code : ByteArr 4 × UInt8) :
    putTlv buildSize [] tagTruncResp (truncItem code)=encodeItem (tagTruncResp,truncItem code):=by
  have hlen : (truncItem code).length=5:=by simp [truncItem]
  have hfits:=putTlv_fits [] (tagTruncResp,truncItem code) (by simp [hlen])
    (by simp [encodeItem_length,hlen,buildSize])
  rwa [List.nil_append] at hfits

theorem truncReply_inj {x y : ByteArr 4 × UInt8} :
    putTlv buildSize [] tagTruncResp (truncItem x)=putTlv buildSize [] tagTruncResp (truncItem y) ↔ x=y:=by
  constructor
  · intro h
    rw [truncReply,truncReply] at h
    simp only [encodeItem,truncItem,List.cons_append,List.nil_append,List.cons.injEq,true_and] at h
    exact Prod.ext (List.Vector.toList_injective h.2.2) h.2.1
  · rintro rfl
    rfl

theorem calculateReply_inj (x : Option (ByteArr 4 × UInt8)) (code : ByteArr 4 × UInt8) : (match x with
    | none=>.ok {sw:=swNoSuchObject}
    | some code=>.ok {data:=putTlv buildSize [] tagTruncResp (truncItem code),sw:=swOk} : Except PowerLost Reply) =
      .ok {data:=putTlv buildSize [] tagTruncResp (truncItem code),sw:=swOk} ↔ x=some code:=by
  cases x with
  | none=>simp [truncReply,encodeItem]
  | some x=>simp [truncReply_inj]

theorem builds_calculate {slot : ℕ} (hvalidated : s.app.validated=true) (hname : name.length < nameSize)
    (hfirst : firstNamed s.be.store.chip name=some slot) {e : OathEntry} (he : shownAt s.be.store.chip slot=some e)
    (code : ByteArr 4 × UInt8) :
    builds (backend hmac mapSignature) (quiet s) (calculateApdu challenge name) =
        .ok {data:=putTlv buildSize [] tagTruncResp (truncItem code),sw:=swOk} ↔
      codeFor hmac challenge (decide (s.be.touch.Armed s.be.nowUs slot)) e=some code:=by
  have hprocess:=@processParsed_gated Badge (backend hmac mapSignature) (roomy (quiet s))
    {calculateApdu challenge name with le:=respBufferSize+1} (Or.inl (by simp [calculateApdu,insCalculate,insIsoSelect]))
    (by simp [calculateApdu,insCalculate,insSendRemaining]) (by simp [calculateApdu,insCalculate,insReset])
    (by simp [calculateApdu,insCalculate,insValidate]) hvalidated
  have hwhole : builds (backend hmac mapSignature) (quiet s) (calculateApdu challenge name)=(processParsed
      (backend hmac mapSignature) {calculateApdu challenge name with le:=respBufferSize+1} (roomy (quiet s))).1:=rfl
  have hgate : processParsed (backend hmac mapSignature) {calculateApdu challenge name with le:=respBufferSize+1}
      (roomy (quiet s))=cmdCalculate (backend hmac mapSignature) (calculateApdu challenge name).data (respBufferSize+1)
        (roomy (quiet s)):=hprocess
  rw [hwhole,hgate]
  unfold cmdCalculate
  rw [calculateApdu_name challenge hname,calculateApdu_challenge challenge hname]
  dsimp only
  rw [bind_of_ok (findByYkName_quiet hmac mapSignature (s:=roomy (quiet s)) rfl hname)]
  rw [show firstNamed (roomy (quiet s)).be.store.chip name=some slot from hfirst]
  dsimp only
  rw [bind_of_ok (read_quiet hmac mapSignature (s:=roomy (quiet s)) rfl he)]
  have hcode (t : Ctx Badge) (ht : t.be.env={}) (hroom : t.respMax=respBufferSize+3)
      (he : shownAt t.be.store.chip slot=some e):=answer_quiet hmac mapSignature challenge ht hroom he
  have hreply (x : Option (ByteArr 4 × UInt8)):=calculateReply_inj x code
  dsimp only
  unfold codeFor
  by_cases htouch : e.flags &&& oflagTouch=0
  · rw [if_neg (show ¬(metaOf e).flags &&& oflagTouch≠0 from not_not_intro htouch),
      if_neg (fun h : e.flags &&& oflagTouch≠0 ∧ _=>h.1 htouch),← hreply]
    exact iff_of_eq (congrArg (· = _) (hcode (roomy (quiet s)) rfl rfl he))
  · rw [if_pos (show (metaOf e).flags &&& oflagTouch≠0 from htouch)]
    let t : Ctx Badge:={ roomy (quiet s) with
      be:={(quiet s).be with touch:=(beTouchOk s.be.nowUs slot s.be.touch).2} }
    have htouchOk : call ((backend hmac mapSignature).touchOk slot) (roomy (quiet s)) =
        (.ok (beTouchOk s.be.nowUs slot s.be.touch).1,t):=rfl
    rw [bind_of_ok htouchOk]
    by_cases harmed : s.be.touch.Armed s.be.nowUs slot
    · have hok : (beTouchOk s.be.nowUs slot s.be.touch).1=true:=by simp [beTouchOk,harmed]
      have hreleased : ¬(e.flags &&& oflagTouch≠0 ∧ decide (s.be.touch.Armed s.be.nowUs slot)=false):=by simp [harmed]
      rw [hok,if_neg hreleased,← hreply]
      exact iff_of_eq (congrArg (· = _) (hcode t rfl rfl he))
    · have hok : (beTouchOk s.be.nowUs slot s.be.touch).1=false:=by simp [beTouchOk,harmed]
      have hwithheld : e.flags &&& oflagTouch≠0 ∧ decide (s.be.touch.Armed s.be.nowUs slot)=false:=by
        simp [htouch,harmed]
      rw [hok,if_pos hwithheld]
      simp [answerSw,truncReply,encodeItem]

/-- LIST and CALCULATE ALL show every credential once, in the order of the slots, and every code is the one that CALCULATE
gives for the name. -/
structure Enumerated (s : Ctx Badge) (list all : Bytes × ℕ) : Prop where
  listed : Reads (backend hmac mapSignature) s list ((credentialsOf s.be.store.chip).map listItem)
  calculated : Reads (backend hmac mapSignature) s all
    ((credentialsOf s.be.store.chip).flatMap (calculateItems hmac challenge))
  same : ∀ slot e code, shownAt s.be.store.chip slot=some e → Computed e→totpCode hmac challenge e=some code →
    builds (backend hmac mapSignature) (quiet s) (calculateApdu challenge (nameOf e)) =
      .ok {data:=putTlv buildSize [] tagTruncResp (truncItem code),sw:=swOk}

/-- No access fails that a credential or a code is due to, the items fit the build buffer, and where a name is shown twice
its first credential is given the same code. -/
structure Enumerable (s : Ctx Badge) : Prop where
  reads : AlongRun (fun env _=>env.read1) (ReadGood s.be.store.chip) s.be.env (List.range capacity)
  listRoom : (encodeItems ((credentialsOf s.be.store.chip).map listItem)).length ≤ buildSize
  calculations : AlongRun (afterSlot s.be.store.chip) (CalculateGood hmac challenge s.be.store.chip) s.be.env
    (List.range capacity)
  calculateRoom : (encodeItems ((credentialsOf s.be.store.chip).flatMap (calculateItems hmac challenge))).length ≤ buildSize
  named : ∀ slot e code, shownAt s.be.store.chip slot=some e → Computed e→totpCode hmac challenge e=some code →
    ∀ first f, firstNamed s.be.store.chip (nameOf e)=some first → shownAt s.be.store.chip first=some f →
      codeFor hmac challenge (decide (s.be.touch.Armed s.be.nowUs first)) f=some code

def Wide (c : Chip (Content Payload)) : Prop:=∀ slot e, credential c slot=some e→e.period < 2^32

theorem decimal_length {n : ℕ} (h : n < 2^32) : (decimal n).length ≤ 10:=by
  unfold decimal
  rw [List.length_map,Nat.length_toDigits_le_iff (by decide) (by decide)]
  exact h.trans (by decide)

theorem Wide.short (h : Wide c) : Short c:=by
  intro slot e he
  obtain ⟨hcredential,-⟩:=shownAt_some he
  have hperiod:=decimal_length (h slot e hcredential)
  obtain ⟨-,-,r,-,hr⟩:=credential_some hcredential
  obtain ⟨hheader,hissuer,-⟩:=accountOf_fields hr
  have hissuer : e.issuer.length ≤ 31:=hissuer
  have hname : e.name.length ≤ 15:=by
    rw [hheader]
    exact List.length_take_le _ _
  unfold nameOf buildYkName metaOf nameSize
  dsimp only
  rw [List.length_append,List.length_append]
  split_ifs <;> simp <;> omega

theorem credentialsOf_shown {e : OathEntry} (h : e∈credentialsOf c) :
    ∃ slot, shownAt c slot=some e:=by
  obtain ⟨slot,-,he⟩:=List.mem_filterMap.mp h
  exact ⟨slot,he⟩

theorem built_iff {x : Except PowerLost Bytes × Ctx Badge} :
    (x.1.map fun data=>({data,sw:=swOk} : Reply))=.ok {data:=payload,sw:=swOk} ↔ ∃ t, x=(.ok payload,t):=by
  obtain ⟨r,t⟩:=x
  cases r with
  | error e=>simp [Except.map]
  | ok p=>simp [Except.map]

theorem built_sw {x : Except PowerLost Bytes × Ctx Badge} {r : Reply}
    (h : (x.1.map fun data=>({data,sw:=swOk} : Reply))=.ok r) : r.sw=swOk:=by
  obtain ⟨p,t⟩:=x
  cases p with
  | error e=>cases h
  | ok p=>
    cases h
    rfl

theorem list_iff (hwide : Wide s.be.store.chip) (ha : parsed i=some a) (hins : a.ins=insList)
    (hvalidated : s.app.validated=true) :
    Reads (backend hmac mapSignature) s i ((credentialsOf s.be.store.chip).map listItem) ↔
      AlongRun (fun env _=>env.read1) (ReadGood s.be.store.chip) s.be.env (List.range capacity) ∧
        (encodeItems ((credentialsOf s.be.store.chip).map listItem)).length ≤ buildSize:=by
  have hbuilds:=builds_list (b:=backend hmac mapSignature) hins hvalidated
  have hother : isSendRemaining a=false:=by simp [isSendRemaining,hins,insList,insSendRemaining]
  have hitems : ∀ item∈(credentialsOf s.be.store.chip).map listItem, item.2.length ≤ 255:=by
    intro item hitem
    obtain ⟨e,he,rfl⟩:=List.mem_map.mp hitem
    obtain ⟨slot,hslot⟩:=credentialsOf_shown he
    exact (Nat.succ_le_of_lt (hwide.short slot e hslot)).trans (by decide)
  have hpacks:=(packs_list hmac mapSignature hwide.short).iff (List.range capacity) (s:=roomy s)
    (fun slot hslot=>List.mem_range.mp hslot) rfl
  rw [listParts] at hpacks
  rw [reads_iff ha hother (fun r hr=>built_sw (hbuilds.symm.trans hr)) hitems,hbuilds,built_iff]
  exact hpacks

theorem calculateAll_iff (hwide : Wide s.be.store.chip) (ha : parsed i=some a) (hins : a.ins=insCalculateAll)
    (hp1 : a.p1≠0x04) (hchallenge : challengeIn a.data=some challenge) (hvalidated : s.app.validated=true) :
    Reads (backend hmac mapSignature) s i ((credentialsOf s.be.store.chip).flatMap (calculateItems hmac challenge)) ↔
      AlongRun (afterSlot s.be.store.chip) (CalculateGood hmac challenge s.be.store.chip) s.be.env (List.range capacity) ∧
        (encodeItems ((credentialsOf s.be.store.chip).flatMap (calculateItems hmac challenge))).length ≤ buildSize:=by
  have hbuilds:=builds_calculateAll (b:=backend hmac mapSignature) hins hp1 hvalidated hchallenge
  have hother : isSendRemaining a=false:=by simp [isSendRemaining,hins,insCalculateAll,insSendRemaining]
  have hitems : ∀ item∈(credentialsOf s.be.store.chip).flatMap (calculateItems hmac challenge), item.2.length ≤ 255:=by
    intro item hitem
    obtain ⟨e,he,hitem⟩:=List.mem_flatMap.mp hitem
    obtain ⟨slot,hslot⟩:=credentialsOf_shown he
    simp only [calculateItems,List.mem_cons,List.not_mem_nil,or_false] at hitem
    rcases hitem with rfl | rfl
    · exact (Nat.le_of_lt (hwide.short slot e hslot)).trans (by decide)
    · exact resultItem_length hmac challenge e
  have hpacks:=(packs_calculate hmac challenge mapSignature hwide.short).iff (List.range capacity) (s:=roomy s)
    (fun slot hslot=>List.mem_range.mp hslot) rfl
  rw [calculateParts] at hpacks
  rw [reads_iff ha hother (fun r hr=>built_sw (hbuilds.symm.trans hr)) hitems,hbuilds,built_iff]
  exact hpacks

theorem firstNamed_shown {slot : ℕ} {e : OathEntry} (h : shownAt c slot=some e) :
    ∃ first f, firstNamed c (nameOf e)=some first ∧ shownAt c first=some f:=by
  obtain ⟨hcredential,-⟩:=shownAt_some h
  have hslot:=mem_slots.mp (credential_some hcredential).2.1
  have hrange : slot∈List.range capacity:=List.mem_range.mpr (by simp only [capacity]; omega)
  have hfound : (firstNamed c (nameOf e)).isSome=true:=List.find?_isSome.mpr ⟨slot,hrange,by simp [h]⟩
  obtain ⟨first,hfirst⟩:=Option.isSome_iff_exists.mp hfound
  obtain ⟨-,f,hf,-⟩:=firstNamed_some hfirst
  exact ⟨first,f,hfirst,hf⟩

theorem enumerated_iff (hmac : Hmac) (mapSignature : UInt32) (challenge : ByteArr 8) (s : Ctx Badge) (list all : Bytes × ℕ)
    (a d : Scard.Apdu) (hwide : Wide s.be.store.chip) (hvalidated : s.app.validated=true) (ha : parsed list=some a)
    (hlist : a.ins=insList) (hd : parsed all=some d) (hall : d.ins=insCalculateAll) (hp1 : d.p1≠0x04)
    (hchallenge : challengeIn d.data=some challenge) :
    Enumerated hmac mapSignature challenge s list all ↔ Enumerable hmac challenge s:=by
  have hlisted:=list_iff hmac mapSignature hwide ha hlist hvalidated
  have hcalculated:=calculateAll_iff hmac mapSignature challenge hwide hd hall hp1 hchallenge hvalidated
  have hsame (slot : ℕ) (e : OathEntry) (he : shownAt s.be.store.chip slot=some e) (code : ByteArr 4 × UInt8) :
      builds (backend hmac mapSignature) (quiet s) (calculateApdu challenge (nameOf e)) =
          .ok {data:=putTlv buildSize [] tagTruncResp (truncItem code),sw:=swOk} ↔
        ∀ first f, firstNamed s.be.store.chip (nameOf e)=some first → shownAt s.be.store.chip first=some f →
          codeFor hmac challenge (decide (s.be.touch.Armed s.be.nowUs first)) f=some code:=by
    obtain ⟨first,f,hfirst,hf⟩:=firstNamed_shown he
    rw [builds_calculate hmac mapSignature challenge hvalidated (hwide.short slot e he) hfirst hf code]
    constructor
    · rintro hcode first' f' hfirst' hf'
      rw [hfirst] at hfirst'
      cases hfirst'
      rw [hf] at hf'
      cases hf'
      exact hcode
    · exact fun h=>h first f hfirst hf
  constructor
  · rintro ⟨hl,hc,hs⟩
    obtain ⟨hreads,hroom⟩:=hlisted.mp hl
    obtain ⟨hcalcs,hcalcRoom⟩:=hcalculated.mp hc
    exact ⟨hreads,hroom,hcalcs,hcalcRoom,
      fun slot e code he hcomputed hcode=>(hsame slot e he code).mp (hs slot e code he hcomputed hcode)⟩
  · rintro ⟨hreads,hroom,hcalcs,hcalcRoom,hnamed⟩
    exact ⟨hlisted.mpr ⟨hreads,hroom⟩,hcalculated.mpr ⟨hcalcs,hcalcRoom⟩,
      fun slot e code he hcomputed hcode=>(hsame slot e he code).mpr (hnamed slot e code he hcomputed hcode)⟩

end Enumerations

section Badges

def plainHmac : Hmac:=fun a key data=>fit a.digestSize (key++data)

def totpAccount (name issuer : Bytes) (period : ℕ) : Account where
  type:=otypeTotp
  name:=name
  issuer:=issuer
  secret:=[1]
  digits:=6
  period:=period
  algorithm:=0
  counter:=0
  flags:=0

def badgeWith (rmem : ℕ→Option (Content Payload)) : Ctx Badge:=
  {app:={validated:=true},be:={store:={chip:={ecc:=fun _=>none,rmem}}}}

def oneBadge : Ctx Badge:=badgeWith fun slot=>if slot=31 then some (stored (totpAccount [0x61] [0x62] 60)) else none

def listCommand : Bytes × ℕ:=([0x00,insList,0x00,0x00],2048)

def calculateAllCommand : Bytes × ℕ:=([0x00,insCalculateAll,0x00,0x00,0x0A,tagChallenge,8,0,0,0,0,0,0,0,1,0x00],2048)

theorem alongRun_quiet {after : Env → ℕ → Env} {Good : Env → ℕ→Prop} (hafter : ∀ slot, after {} slot={})
    (hgood : ∀ slot, Good {} slot) (l : List ℕ) : AlongRun after Good {} l:=by
  induction l with
  | nil=>trivial
  | cons slot l ih=>
    refine ⟨hgood slot,?_⟩
    rw [hafter]
    exact ih

theorem shownAt_oneBadge {slot : ℕ} {e : OathEntry} (h : shownAt oneBadge.be.store.chip slot=some e) :
    slot=0 ∧ e.type=otypeTotp ∧ e.flags=0:=by
  obtain ⟨-,-,r,hr,he⟩:=credential_some (shownAt_some h).1
  by_cases hslot : 31+slot=31
  · simp only [oneBadge,badgeWith,if_pos hslot,stored,Option.some.injEq,Content.record.injEq] at hr
    subst hr
    cases he
    exact ⟨by omega,rfl,rfl⟩
  · simp only [oneBadge,badgeWith,if_neg hslot,reduceCtorEq] at hr

theorem enumerated_one : Enumerated plainHmac 0 (fit 8 [0,0,0,0,0,0,0,1]) oneBadge listCommand calculateAllCommand:=by
  have hwide : Wide oneBadge.be.store.chip:=by
    intro slot e he
    obtain ⟨-,-,r,hr,hacc⟩:=credential_some he
    by_cases hslot : 31+slot=31
    · simp only [oneBadge,badgeWith,if_pos hslot,stored,Option.some.injEq,Content.record.injEq] at hr
      subst hr
      cases hacc
      decide
    · simp only [oneBadge,badgeWith,if_neg hslot,reduceCtorEq] at hr
  refine (enumerated_iff plainHmac 0 (fit 8 [0,0,0,0,0,0,0,1]) oneBadge listCommand calculateAllCommand _ _ hwide rfl rfl rfl
    rfl rfl (by decide) rfl).mpr ⟨?_,by decide +kernel,?_,by decide +kernel,?_⟩
  · exact alongRun_quiet (fun _=>rfl) (fun _=>⟨rfl,fun _=>rfl⟩) _
  · refine alongRun_quiet ?_ ?_ _
    · intro slot
      unfold afterSlot
      split <;> rfl
    · exact fun slot=>⟨⟨rfl,fun _=>rfl⟩,fun _ _ _=>⟨rfl,fun _=>⟨rfl,rfl⟩⟩⟩
  · intro slot e code he _ hcode first f _ hf
    obtain ⟨rfl,htype,hflags⟩:=shownAt_oneBadge he
    obtain ⟨rfl,-⟩:=shownAt_oneBadge hf
    rw [he] at hf
    cases hf
    unfold codeFor
    rw [if_neg (by simp [hflags]),if_neg (by rw [htype]; decide)]
    exact hcode

def fullAccount (slot : ℕ) : Account:=
  totpAccount (UInt8.ofNat slot::List.replicate 14 0x61) (List.replicate 31 0x62) 300

def fullBadge : Ctx Badge:=badgeWith fun slot=>some (stored (fullAccount slot))

theorem enumeration_cut : ¬ ∀ s : Ctx Badge, Wide s.be.store.chip → s.app.validated=true →
    Enumerated plainHmac 0 (fit 8 [0,0,0,0,0,0,0,1]) s listCommand calculateAllCommand:=by
  intro h
  have hwide : Wide fullBadge.be.store.chip:=by
    intro slot e he
    obtain ⟨-,-,r,hr,hacc⟩:=credential_some he
    simp only [fullBadge,badgeWith,stored,Option.some.injEq,Content.record.injEq] at hr
    subst hr
    cases hacc
    exact show 300 < 2^32 by decide
  have hroom:=((list_iff plainHmac 0 hwide rfl rfl rfl).mp (h fullBadge hwide rfl).listed).2
  have hcut : buildSize < (encodeItems ((credentialsOf fullBadge.be.store.chip).map listItem)).length:=by decide +kernel
  omega

end Badges

end CdcBadge.Oath
