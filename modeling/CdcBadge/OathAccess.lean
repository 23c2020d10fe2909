import CdcBadge.OathAnswers

/-!
# The access key

What a session learns and changes that has not proved the key, and how often a proof counts.
-/

namespace CdcBadge.Oath.Access

open Handler Responses Tropic OathStore OathBackend
open Pin (PowerLost)

def isSelect (a : Scard.Apdu) : Bool:=a.ins=insIsoSelect ∧ a.p1=0x04

def succeeded (sw : UInt16) : Bool:=sw=swOk || sw >>> 8=0x61

section Runs

variable (hmac : Hmac) (mapSignature : UInt32)

inductive Event
  | apdu (i : Bytes × ℕ)
  | deselect

/-- What the commands so far come to for the host. -/
structure History where
  /-- The challenge that the last SELECT returned. -/
  challenge : Option Bytes:=none
  /-- The key that a VALIDATE has proved since. -/
  proved : Option (ByteArr 16):=none
  /-- A SET CODE has put a key in place since. -/
  coded : Bool:=false
  /-- What SELECT and VALIDATE have built, in every session. -/
  built : List Bytes:=[]
  /-- The proofs that were accepted, in every session. -/
  accepted : List Bytes:=[]

abbrev State:=Ctx Badge × History

def payload (s : Ctx Badge) (a : Scard.Apdu) : Bytes:=
  match builds (backend hmac mapSignature) s a with
  | .ok reply=>reply.data
  | .error _=>[]

def proves (key : ByteArr 16) (challenge : Option Bytes) (proof : Bytes) : Bool:=
  challenge.any fun c=>(hmac .sha1 key.toList c).toList=proof

def History.closed (g : History) : History:={g with challenge:=none,proved:=none,coded:=false}

def History.validated (g : History) (key : Option (ByteArr 16)) (proof : Option Bytes) : History:=
  match key, proof with
  | some key, some proof=>
    {g with proved:=if proves hmac key g.challenge proof then some key else g.proved,accepted:=proof::g.accepted}
  | _, _=>g

def History.next (g : History) (s t : Ctx Badge) (a : Scard.Apdu) : Option (Bytes × UInt16)→History
  | none=>g.closed
  | some (_,sw)=>
    if isSelect a then
      { g.closed with challenge:=findTlv (payload hmac mapSignature s a) tagChallenge
                      built:=payload hmac mapSignature s a::g.built }
    else if a.ins=insValidate then
      let g:={g with built:=payload hmac mapSignature s a::g.built}
      if succeeded sw then g.validated hmac s.be.accessKey (responseIn a.data) else g
    else {g with coded:=g.coded || (t.be.accessKey.isSome && t.be.accessKey≠s.be.accessKey)}

def step (x : State) : Event → State
  | .deselect=>((deselect x.1).2,x.2.closed)
  | .apdu i=>
    let (reply,t):=exchange (backend hmac mapSignature) x.1 i
    match parsed i with
    | none=>(t,x.2)
    | some a=>(t,x.2.next hmac mapSignature x.1 t a reply)

/-- Without the proof of the key that is set a command shows and changes nothing of the credentials and the key, every
challenge is new, and a proof counts once, over the challenge of its session. -/
structure Guards (x : State) (i : Bytes × ℕ) : Prop where
  shows : ∀ key, x.1.be.accessKey=some key→x.2.proved≠some key→∀ d sw,
    (exchange (backend hmac mapSignature) x.1 i).1=some (d,sw) →
      d=[] ∨ ∃ p∈(step hmac mapSignature x (.apdu i)).2.built, d <:+: p
  changes : ∀ key, x.1.be.accessKey=some key→x.2.proved≠some key→(∀ a∈parsed i, a.ins≠insReset) →
    (∀ slot, credential (step hmac mapSignature x (.apdu i)).1.be.store.chip slot=credential x.1.be.store.chip slot) ∧
      (step hmac mapSignature x (.apdu i)).1.be.accessKey=some key
  fresh : ∀ a∈parsed i, isSelect a→x.1.be.accessKey≠none→(exchange (backend hmac mapSignature) x.1 i).1≠none →
    ∃ n bytes, x.1.be.env.random.getD n (some [])=some bytes ∧
      (step hmac mapSignature x (.apdu i)).1.be.env.random=x.1.be.env.random.drop (n+1) ∧
      (step hmac mapSignature x (.apdu i)).2.challenge=some (fit 8 bytes : ByteArr 8).toList
  once : ∀ a∈parsed i, a.ins=insValidate→∀ key, x.1.be.accessKey=some key→∀ d sw,
    (exchange (backend hmac mapSignature) x.1 i).1=some (d,sw) → succeeded sw →
      ∃ proof, responseIn a.data=some proof ∧ proves hmac key x.2.challenge proof ∧ proof ∉ x.2.accepted

def Guarded (x : State) : Event→Prop
  | .deselect=>True
  | .apdu i=>Guards hmac mapSignature x i

def KeyRead (b : Badge) : Prop:=b.accessKey=none ∨ b.env.nvs.headD .done=.done ∨ (b.env.nvs.headD .done).powered=false

/-- The next access to NVS erases a key, or stops the badge. -/
def KeyErased (b : Badge) : Prop:=
  b.accessKey=none ∨ (b.env.nvs.headD .done).applied=true ∨ (b.env.nvs.headD .done).powered=false

/-- The next draw gives a challenge that no proof so far is one over. -/
def Draws (b : Badge) (accepted : List Bytes) : Prop:=
  ∀ key∈b.accessKey, match b.env.random.headD (some []) with
    | none=>False
    | some bytes=>∀ proof∈accepted, (hmac .sha1 key.toList (fit 8 bytes : ByteArr 8).toList).toList≠proof

/-- SELECT finds no response half read, its key and its challenge come, VALIDATE reads the key, RESET erases it, and a key of
SET CODE is proved before the session goes on. -/
def Clean (x : State) : Event→Prop
  | .deselect=>True
  | .apdu i=>∀ a∈parsed i,
    if isSelect a then x.1.app.resp=[] ∧ ∀ devid b, beDevId x.1.be=(.ok devid,b)→KeyRead b ∧ Draws hmac b x.2.accepted
    else if a.ins=insValidate then KeyRead x.1.be
    else if a.ins=insReset then a.p1=0xDE→a.p2=0xAD→KeyErased x.1.be
    else x.2.coded=true→∀ key∈x.1.be.accessKey, x.2.proved=some key

end Runs

section Replies

variable {hmac : Hmac} {mapSignature : UInt32} {s : Ctx Badge} {i : Bytes × ℕ} {a : Scard.Apdu}

theorem emit_within (payload : Bytes) (le : ℕ) (s : Ctx Badge) : ∃ d sw t,
    (emit payload le s : Except PowerLost Reply × Ctx Badge)=(.ok {data:=d,sw},t) ∧ succeeded sw=true ∧
      d <:+: payload ∧ ∃ rest, (rest=s.app.resp ∨ rest <:+: payload) ∧ t={s with app:={s.app with resp:=rest}}:=by
  unfold emit
  rw [bind_gets]
  dsimp only
  set window:=min (if le=0 then 256 else le) (s.respMax-2)
  by_cases hfits : payload.length ≤ window
  · exact ⟨payload,swOk,s,congrFun (if_pos hfits) s,by decide,List.infix_refl _,s.app.resp,Or.inl rfl,rfl⟩
  · refine ⟨_,_,_,congrFun (if_neg hfits) s,?_,(List.take_prefix _ _).isInfix,_,Or.inr ?_,rfl⟩
    · exact (Bool.or_eq_true _ _).mpr (Or.inr (decide_eq_true (Piv.swMoreData_high _)))
    · exact ((List.take_prefix _ _).isInfix).trans (List.drop_suffix _ _).isInfix

variable (hmac mapSignature) in
/-- The reply of a command, and what it leaves to read, are pieces of what it builds, or what it leaves was there before. -/
theorem exchange_within (ha : parsed i=some a) (hother : isSendRemaining a=false) :
    (exchange (backend hmac mapSignature) s i).1=none ∨ ∃ d sw, (exchange (backend hmac mapSignature) s i).1=some (d,sw) ∧
      d <:+: payload hmac mapSignature s a ∧
      ((exchange (backend hmac mapSignature) s i).2.app.resp=s.app.resp ∨
        (exchange (backend hmac mapSignature) s i).2.app.resp <:+: payload hmac mapSignature s a):=by
  let given : Ctx Badge:={s with respMax:=i.2}
  obtain ⟨t,hget,hcases⟩:=(uniform_processParsed (b:=backend hmac mapSignature) hother).cases given
  have hwhole : channel.whole (fun le=>processParsed (backend hmac mapSignature) {a with le}) given =
      builds (backend hmac mapSignature) s a:=rfl
  have hport : port.set (port.get given) given=given:=rfl
  rcases hcases with ⟨e,-,hrun⟩ | ⟨sw,-,hrun⟩ | ⟨built,-,hbuilt,hrun⟩
  · have hsame : processParsed (backend hmac mapSignature) a given=_:=hport ▸ hrun a.le (port.get given)
    rw [exchange_parsed ha,show processParsed (backend hmac mapSignature) a {s with respMax:=i.2}=_ from hsame]
    exact Or.inl rfl
  · have hsame : processParsed (backend hmac mapSignature) a given=_:=hport ▸ hrun a.le (port.get given)
    rw [exchange_parsed ha,show processParsed (backend hmac mapSignature) a {s with respMax:=i.2}=_ from hsame]
    exact Or.inr ⟨[],sw,rfl,List.nil_prefix.isInfix,Or.inl rfl⟩
  · have hsame : processParsed (backend hmac mapSignature) a given=emit built a.le (port.set (port.get given) t):=by
      rw [emit_channel]
      exact hport ▸ hrun a.le (port.get given)
    have hpayload : payload hmac mapSignature s a=built:=by
      unfold payload
      rw [← hwhole,hbuilt]
      rfl
    obtain ⟨d,sw,u,hreply,-,hd,rest,hrest,rfl⟩:=emit_within built a.le (port.set (port.get given) t)
    rw [exchange_parsed ha,show processParsed (backend hmac mapSignature) a {s with respMax:=i.2}=_ from hsame,hreply,
      hpayload]
    exact Or.inr ⟨d,sw,rfl,hd,hrest⟩

theorem findTlv_encodeItems {items : List Item} (h : ∀ item∈items, item.2.length ≤ 255) (tag : UInt8) :
    findTlv (encodeItems items) tag=(items.find? fun item=>item.1 == tag).map Prod.snd:=by
  have hscan {fuel : ℕ} (hfuel : items.length ≤ fuel) :
      scanTlv fuel (encodeItems items) tag=(items.find? fun item=>item.1 == tag).map Prod.snd:=by
    induction items generalizing fuel with
    | nil=>cases fuel <;> rfl
    | cons item items ih=>
      obtain ⟨fuel,rfl⟩ : ∃ n, fuel=n+1:=⟨fuel-1,by simp only [List.length_cons] at hfuel; omega⟩
      have hlen : (UInt8.ofNat item.2.length).toNat=item.2.length:=
        UInt8.toNat_ofNat_of_lt' (Nat.lt_of_le_of_lt (h item List.mem_cons_self) (by decide))
      have hrest:=ih (fun i hi=>h i (List.mem_cons_of_mem _ hi)) (Nat.le_of_succ_le_succ hfuel)
      change scanTlv (fuel+1) (item.1::UInt8.ofNat item.2.length::(item.2++encodeItems items)) tag=_
      rw [scanTlv,hlen,if_neg (by simp),List.take_left,List.drop_left,List.find?_cons]
      by_cases htag : item.1=tag
      · rw [if_pos htag,beq_iff_eq.mpr htag]
        rfl
      · rw [if_neg htag,beq_eq_false_iff_ne.mpr htag]
        exact hrest
  exact hscan (length_le_encodeItems items)

def announced (devid : ByteArr 8) : Bytes:=putTlv buildSize (putTlv buildSize [] tagVersion [0x05,0x04,0x03]) tagName devid.toList

def announcedLocked (devid challenge : ByteArr 8) : Bytes:=
  putTlv buildSize (putTlv buildSize (announced devid) tagChallenge challenge.toList) tagAlgo [0x21]

theorem announced_items (devid : ByteArr 8) :
    announced devid=encodeItems [(tagVersion,[0x05,0x04,0x03]),(tagName,devid.toList)]:=by
  have hfirst:=putTlv_fits [] (tagVersion,[0x05,0x04,0x03]) (by decide) (by decide)
  have hsecond:=putTlv_fits (encodeItem (tagVersion,[0x05,0x04,0x03])) (tagName,devid.toList) (by simp)
    (by simp [encodeItem_length,buildSize])
  unfold announced
  rw [hfirst,List.nil_append,hsecond]
  simp [encodeItems]

theorem announcedLocked_items (devid challenge : ByteArr 8) : announcedLocked devid challenge =
    encodeItems [(tagVersion,[0x05,0x04,0x03]),(tagName,devid.toList),(tagChallenge,challenge.toList),(tagAlgo,[0x21])]:=by
  have hthird:=putTlv_fits (announced devid) (tagChallenge,challenge.toList) (by simp)
    (by simp [announced_items,encodeItems,encodeItem_length,buildSize])
  have hfourth:=putTlv_fits (announced devid++encodeItem (tagChallenge,challenge.toList)) (tagAlgo,[0x21])
    (by decide) (by simp [announced_items,encodeItems,encodeItem_length,buildSize])
  unfold announcedLocked
  rw [hthird,hfourth,announced_items]
  simp [encodeItems]

theorem announced_challenge (devid : ByteArr 8) : findTlv (announced devid) tagChallenge=none:=by
  rw [announced_items,findTlv_encodeItems (by simp)]
  rfl

theorem announcedLocked_challenge (devid challenge : ByteArr 8) :
    findTlv (announcedLocked devid challenge) tagChallenge=some challenge.toList:=by
  rw [announcedLocked_items,findTlv_encodeItems (by simp)]
  rfl

end Replies

variable {α : Type} {m : Handler PowerLost Badge α}

section Frames

variable {hmac : Hmac} {mapSignature : UInt32} {b : Badge} {P : Badge→Prop}

/-- Neither the store nor the key has changed, and random data was only taken. -/
structure Kept (b b' : Badge) : Prop where
  store : b'.store=b.store
  key : b'.accessKey=b.accessKey
  random : ∃ n, b'.env.random=b.env.random.drop n

theorem Kept.refl (b : Badge) : Kept b b:=⟨rfl,rfl,0,rfl⟩

theorem keeps_call (h : Keeps P m) : Keeps (fun s : Ctx Badge=>P s.be) (call m):=
  keeps_iff.mpr fun s hs=>keeps_iff.mp h s.be hs

theorem keeps_emit (payload : Bytes) (le : ℕ) : Keeps (fun s : Ctx Badge=>P s.be) (emit payload le):=
  Keeps.bind (Keeps.gets _) fun _=>Keeps.ite (fun _=>Keeps.pure _) fun _=>
    Keeps.bind (Keeps.modify fun _ h=>h) fun _=>Keeps.pure _

theorem keeps_updateApp (f : Session → Session) : Keeps (fun s : Ctx Badge=>P s.be) (updateApp f):=Keeps.modify fun _ h=>h

theorem kept_nextNvs : Keeps (Kept b) nextNvs:=keeps_iff.mpr fun _ h=>⟨h.store,h.key,h.random⟩

theorem kept_nvsRead (blob : Badge→Option α) : Keeps (Kept b) (nvsRead blob):=by
  refine Keeps.bind kept_nextNvs fun o=>?_
  cases o with
  | done=>exact Keeps.gets _
  | failed e applied=>exact Keeps.pure _
  | powerLost applied=>exact Keeps.stop _

theorem kept_nextRandom (n : ℕ) : Keeps (Kept b) (nextRandom n):=by
  refine keeps_iff.mpr fun c h=>⟨h.store,h.key,?_⟩
  obtain ⟨k,hk⟩:=h.random
  exact ⟨k+1,by change c.env.random.tail=_; rw [hk,List.tail_drop]⟩

theorem kept_beDevId : Keeps (Kept b) beDevId:=by
  refine Keeps.bind kept_nextNvs fun o=>?_
  cases o with
  | failed e applied=>exact Keeps.pure _
  | powerLost applied=>exact Keeps.stop _
  | done=>
    refine Keeps.bind (kept_nvsRead _) fun devId=>?_
    cases devId with
    | some devId=>exact Keeps.pure _
    | none=>
      refine Keeps.bind (kept_nextRandom 8) fun drawn=>Keeps.bind (Keeps.bind kept_nextNvs fun o=>?_) fun _=>Keeps.pure _
      have hwrite (applied : Bool) (value : Option (ByteArr 8)) :
          Keeps (Kept b) (modify fun c=>if applied then {c with devId:=value} else c : BadgeM Unit):=by
        refine Keeps.modify fun c h=>?_
        split
        · exact ⟨h.store,h.key,h.random⟩
        · exact h
      cases o with
      | done=>exact Keeps.bind (Keeps.modify fun c h=>⟨h.store,h.key,h.random⟩) fun _=>Keeps.pure _
      | failed e applied=>exact Keeps.bind (hwrite applied _) fun _=>Keeps.pure _
      | powerLost applied=>exact Keeps.bind (hwrite applied _) fun _=>Keeps.stop _

theorem kept_beHmacSha1 (key data : Bytes) : Keeps (Kept b) (beHmacSha1 hmac key data):=by
  refine Keeps.bind (keeps_iff.mpr fun _ h=>⟨h.store,h.key,h.random⟩) fun hashed=>?_
  exact Keeps.ite (fun _=>Keeps.pure _) fun _=>Keeps.pure _

theorem kept_cmdSelect (le : ℕ) : Keeps (fun s : Ctx Badge=>Kept b s.be) (cmdSelect (backend hmac mapSignature) le):=by
  refine Keeps.bind (keeps_call kept_beDevId) fun devid=>Keeps.bind (keeps_call (kept_nvsRead _)) fun akey=>?_
  refine Keeps.bind (keeps_updateApp _) fun _=>Keeps.ite (fun _=>?_) fun _=>keeps_emit _ _
  refine Keeps.bind (Keeps.bind (keeps_call (kept_nextRandom 8)) fun drawn=>?_) fun _=>keeps_emit _ _
  cases drawn with
  | none=>exact Keeps.bind (keeps_updateApp _) fun _=>Keeps.gets _
  | some challenge=>exact Keeps.bind (keeps_updateApp _) fun _=>Keeps.gets _

theorem kept_cmdValidate (data : Bytes) (le : ℕ) :
    Keeps (fun s : Ctx Badge=>Kept b s.be) (cmdValidate (backend hmac mapSignature) data le):=by
  refine Keeps.bind (keeps_call (kept_nvsRead _)) fun akey=>?_
  cases akey with
  | none=>exact Keeps.pure _
  | some akey=>
    refine Keeps.bind (Keeps.gets _) fun _=>Keeps.ite (fun _=>Keeps.pure _) fun _=>?_
    cases responseIn data with
    | none=>exact Keeps.pure _
    | some proof=>
      cases challengeIn data with
      | none=>exact Keeps.pure _
      | some hostChal=>
        refine Keeps.bind (Keeps.gets _) fun _=>Keeps.bind (keeps_call (kept_beHmacSha1 _ _)) fun expect=>?_
        cases expect with
        | none=>exact Keeps.pure _
        | some expect=>
          refine Keeps.ite (fun _=>Keeps.pure _) fun _=>Keeps.bind (keeps_call (kept_beHmacSha1 _ _)) fun reply=>?_
          cases reply with
          | none=>exact Keeps.pure _
          | some reply=>exact Keeps.bind (keeps_updateApp _) fun _=>keeps_emit _ _

end Frames

section Commands

variable {hmac : Hmac} {mapSignature : UInt32} {s t : Ctx Badge} {b b₁ b₂ : Badge} {i : Bytes × ℕ} {a : Scard.Apdu}
  {accepted : List Bytes}

theorem call_of {r : Except PowerLost α} (h : m s.be=(r,b)) :
    call m s=(r,{s with be:=b}):=by
  have hcall : call m s=((m s.be).1,{s with be:=(m s.be).2}):=rfl
  rw [hcall,h]

theorem beAkeyGet_apply (b : Badge) : beAkeyGet b=match b.env.nvs.headD .done with
    | .done=>(.ok b.accessKey,{b with env:={b.env with nvs:=b.env.nvs.tail}})
    | .failed _ _=>(.ok none,{b with env:={b.env with nvs:=b.env.nvs.tail}})
    | .powerLost _=>(.error ⟨⟩,{b with env:={b.env with nvs:=b.env.nvs.tail}}):=by
  have hnext : nextNvs b=(.ok (b.env.nvs.headD .done),{b with env:={b.env with nvs:=b.env.nvs.tail}}):=rfl
  unfold beAkeyGet nvsRead
  rw [bind_of_ok hnext]
  cases b.env.nvs.headD .done <;> rfl

theorem beAkeyGet_read (h : KeyRead b) :
    (∃ c, beAkeyGet b=(.ok b.accessKey,c) ∧ c.env.random=b.env.random) ∨ ∃ e c, beAkeyGet b=(.error e,c):=by
  rw [beAkeyGet_apply]
  unfold KeyRead at h
  cases houtcome : b.env.nvs.headD .done with
  | done=>exact Or.inl ⟨_,rfl,rfl⟩
  | powerLost applied=>exact Or.inr ⟨_,_,rfl⟩
  | failed e applied=>
    rw [houtcome] at h
    rcases h with hnone | hdone | hlost
    · rw [hnone]
      exact Or.inl ⟨_,rfl,rfl⟩
    · cases hdone
    · cases hlost

variable (hmac mapSignature) in
theorem exchange_ok {d : Bytes} {sw : UInt16} (ha : parsed i=some a)
    (hreply : exchange (backend hmac mapSignature) s i=(some (d,sw),t)) :
    processParsed (backend hmac mapSignature) a {s with respMax:=i.2}=(.ok {data:=d,sw},t):=by
  rw [exchange_parsed ha] at hreply
  cases hrun : processParsed (backend hmac mapSignature) a {s with respMax:=i.2} with
  | mk r u=>
    rw [hrun] at hreply
    cases r <;> cases hreply
    rfl

theorem emit_ok {p : Bytes} {le : ℕ} {u : Ctx Badge} {r : Reply} (h : (emit p le u : Except PowerLost Reply × Ctx Badge)=(.ok r,t)) :
    succeeded r.sw=true ∧ ∃ rest, t={u with app:={u.app with resp:=rest}}:=by
  obtain ⟨d',sw',v,hemit,hsw,-,rest,-,rfl⟩:=emit_within p le u
  rw [hemit] at h
  cases h
  exact ⟨hsw,rest,rfl⟩

theorem nextRandom_apply (n : ℕ) (b : Badge) : nextRandom n b =
    (.ok ((b.env.random.headD (some [])).map (fit n)),{b with env:={b.env with random:=b.env.random.tail}}):=rfl

theorem cmdSelect_open {devid : ByteArr 8} (hdev : beDevId s.be=(.ok devid,b₁)) (hkey : beAkeyGet b₁=(.ok none,b₂)) (le : ℕ) :
    cmdSelect (backend hmac mapSignature) le s =
      emit (announced devid) le {s with be:=b₂,app:={s.app with validated:=true}}:=by
  unfold cmdSelect
  rw [bind_of_ok (call_of (m:=(backend hmac mapSignature).devId) hdev),
    bind_of_ok (call_of (m:=(backend hmac mapSignature).akeyGet) (s:={s with be:=b₁}) hkey)]
  rfl

theorem cmdSelect_locked {devid : ByteArr 8} {key : ByteArr 16} (hdev : beDevId s.be=(.ok devid,b₁))
    (hkey : beAkeyGet b₁=(.ok (some key),b₂)) {bytes : Bytes} (hdrawn : b₂.env.random.headD (some [])=some bytes) (le : ℕ) :
    cmdSelect (backend hmac mapSignature) le s=emit (announcedLocked devid (fit 8 bytes)) le { s with
      be:={b₂ with env:={b₂.env with random:=b₂.env.random.tail}}
      app:={s.app with validated:=false,selChallenge:=fit 8 bytes,challengeValid:=true} }:=by
  have hrandom:=nextRandom_apply 8 b₂
  rw [hdrawn] at hrandom
  unfold cmdSelect
  rw [bind_of_ok (call_of (m:=(backend hmac mapSignature).devId) hdev),
    bind_of_ok (call_of (m:=(backend hmac mapSignature).akeyGet) (s:={s with be:=b₁}) hkey)]
  have hlock : lockSession (backend hmac mapSignature)
      {s with be:=b₂,app:={s.app with validated:=false}}=(.ok (fit 8 bytes),{ s with
        be:={b₂ with env:={b₂.env with random:=b₂.env.random.tail}}
        app:={s.app with validated:=false,selChallenge:=fit 8 bytes,challengeValid:=true} }):=by
    unfold lockSession
    rw [bind_of_ok (call_of (m:=(backend hmac mapSignature).rng)
      (s:={s with be:=b₂,app:={s.app with validated:=false}}) hrandom)]
    rfl
  change (lockSession (backend hmac mapSignature) >>= fun challenge=>emit (announcedLocked devid challenge) le)
    {s with be:=b₂,app:={s.app with validated:=false}}=_
  rw [bind_of_ok hlock]

theorem payload_select (ha : isSelect a=true) {p : Bytes} (hp : p.length ≤ buildSize)
    (h : ∀ le, ∃ t : Ctx Badge, t.respMax=respBufferSize+3 ∧
      cmdSelect (backend hmac mapSignature) le (roomy s)=emit p le t) : payload hmac mapSignature s a=p:=by
  obtain ⟨t,ht,hrun⟩:=h (respBufferSize+1)
  have hins : a.ins=insIsoSelect ∧ a.p1=0x04:=by simpa [isSelect] using ha
  have hbuilds : builds (backend hmac mapSignature) s a=.ok {data:=p,sw:=swOk}:=by
    have hwhole : builds (backend hmac mapSignature) s a =
        (processParsed (backend hmac mapSignature) {a with le:=respBufferSize+1} (roomy s)).1:=rfl
    rw [hwhole]
    unfold processParsed
    rw [if_pos hins,hrun]
    exact emit_roomy hp ht
  unfold payload
  rw [hbuilds]

theorem select_cases (ha : parsed i=some a) (hselect : isSelect a=true)
    (hread : ∀ devid b, beDevId s.be=(.ok devid,b)→KeyRead b ∧ Draws hmac b accepted) {d : Bytes} {sw : UInt16}
    (hreply : exchange (backend hmac mapSignature) s i=(some (d,sw),t)) :
    (s.be.accessKey=none ∧ findTlv (payload hmac mapSignature s a) tagChallenge=none ∧ t.app.validated=true ∧
        t.app.challengeValid=s.app.challengeValid) ∨
      ∃ key, s.be.accessKey=some key ∧ ∃ n bytes, s.be.env.random.getD n (some [])=some bytes ∧
        t.be.env.random=s.be.env.random.drop (n+1) ∧
        findTlv (payload hmac mapSignature s a) tagChallenge=some (fit 8 bytes : ByteArr 8).toList ∧
        t.app.validated=false ∧ t.app.challengeValid=true ∧ t.app.selChallenge=fit 8 bytes ∧
        ∀ proof∈accepted, (hmac .sha1 key.toList (fit 8 bytes : ByteArr 8).toList).toList≠proof:=by
  have hins : a.ins=insIsoSelect ∧ a.p1=0x04:=by simpa [isSelect] using hselect
  have hgate : processParsed (backend hmac mapSignature) a {s with respMax:=i.2} =
      cmdSelect (backend hmac mapSignature) a.le {s with respMax:=i.2}:=by
    unfold processParsed
    rw [if_pos hins]
  have hreply:=exchange_ok hmac mapSignature ha hreply
  rw [hgate] at hreply
  cases hdev : beDevId s.be with
  | mk r b₁=>
    cases r with
    | error e=>
      unfold cmdSelect at hreply
      rw [bind_of_error (call_of (m:=(backend hmac mapSignature).devId) (s:={s with respMax:=i.2}) hdev)] at hreply
      cases hreply
    | ok devid=>
      obtain ⟨hkeyRead,hdraws⟩:=hread devid b₁ hdev
      have hkept : Kept s.be b₁:=by
        have hkeeps:=keeps_iff.mp (kept_beDevId (b:=s.be)) s.be (Kept.refl _)
        rwa [hdev] at hkeeps
      rcases beAkeyGet_read hkeyRead with ⟨b₂,hget,hsame⟩ | ⟨e,c,hget⟩
      · cases hkey : b₁.accessKey with
        | none=>
          rw [hkey] at hget
          have hpayload : payload hmac mapSignature s a=announced devid:=
            payload_select hselect (putTlv_length (putTlv_first_length _ _) _ _) fun le=>
              ⟨_,rfl,cmdSelect_open (s:=roomy s) hdev hget le⟩
          rw [cmdSelect_open (s:={s with respMax:=i.2}) hdev hget] at hreply
          obtain ⟨-,rest,rfl⟩:=emit_ok hreply
          exact Or.inl ⟨hkept.key ▸ hkey,by rw [hpayload,announced_challenge],rfl,rfl⟩
        | some key=>
          rw [hkey] at hget
          have hdrawn:=hdraws key hkey
          obtain ⟨n,hn⟩:=hkept.random
          rw [← hsame] at hn hdrawn
          cases hrandom : b₂.env.random.headD (some []) with
          | none=>
            rw [hrandom] at hdrawn
            exact absurd hdrawn id
          | some bytes=>
            rw [hrandom] at hdrawn
            have hpayload : payload hmac mapSignature s a=announcedLocked devid (fit 8 bytes):=
              payload_select hselect (putTlv_length (putTlv_length (putTlv_length (putTlv_first_length _ _) _ _) _ _) _ _) fun le=>
                ⟨_,rfl,cmdSelect_locked (s:=roomy s) hdev hget hrandom le⟩
            rw [cmdSelect_locked (s:={s with respMax:=i.2}) hdev hget hrandom] at hreply
            obtain ⟨-,rest,rfl⟩:=emit_ok hreply
            refine Or.inr ⟨key,hkept.key ▸ hkey,n,bytes,?_,?_,by rw [hpayload,announcedLocked_challenge],rfl,rfl,rfl,hdrawn⟩
            · rw [hn,List.headD_eq_head?_getD,List.head?_drop,← List.getD_eq_getElem?_getD] at hrandom
              exact hrandom
            · change b₂.env.random.tail=_
              rw [hn,List.tail_drop]
      · unfold cmdSelect at hreply
        rw [bind_of_ok (call_of (m:=(backend hmac mapSignature).devId) (s:={s with respMax:=i.2}) hdev),
          bind_of_error (call_of (m:=(backend hmac mapSignature).akeyGet) (s:={s with be:=b₁,respMax:=i.2}) hget)] at hreply
        cases hreply

variable (hmac mapSignature) in
theorem hmac_call (key data : Bytes) (s : Ctx Badge) : ∃ b, call ((backend hmac mapSignature).hmacSha1 key data) s =
    (.ok (if s.be.env.hashes.headD true then some (hmac .sha1 key data) else none),{s with be:=b}):=by
  refine ⟨{s.be with env:={s.be.env with hashes:=s.be.env.hashes.tail}},?_⟩
  have hcall : beHmacSha1 hmac key data s.be=(.ok (if s.be.env.hashes.headD true then some (hmac .sha1 key data) else none),
      {s.be with env:={s.be.env with hashes:=s.be.env.hashes.tail}}):=by
    have hnext : nextHash s.be=(.ok (s.be.env.hashes.headD true),_):=rfl
    unfold beHmacSha1
    rw [bind_of_ok hnext]
    cases s.be.env.hashes.headD true <;> rfl
  exact call_of (m:=(backend hmac mapSignature).hmacSha1 key data) hcall

/-- A VALIDATE that reads the key takes one proof over the challenge that is open, and closes it. -/
theorem cmdValidate_ok {data : Bytes} {le : ℕ} {r : Reply} {key : ByteArr 16} (hkey : s.be.accessKey=some key)
    (hread : KeyRead s.be) (h : cmdValidate (backend hmac mapSignature) data le s=(.ok r,t)) :
    (succeeded r.sw=false ∧ t.app=s.app) ∨
      (succeeded r.sw=true ∧ s.app.challengeValid=true ∧ t.app.challengeValid=false ∧
        responseIn data=some (hmac .sha1 key.toList s.app.selChallenge.toList).toList):=by
  unfold cmdValidate at h
  rcases beAkeyGet_read hread with ⟨b₁,hget,-⟩ | ⟨e,b₁,hget⟩
  · rw [bind_of_ok (call_of (m:=(backend hmac mapSignature).akeyGet) hget),hkey] at h
    dsimp only at h
    unfold appGets at h
    rw [bind_gets] at h
    dsimp only at h
    cases hvalid : s.app.challengeValid with
    | false=>
      have h:=(congrFun (if_pos (by simp [hvalid])) _).symm.trans h
      cases h
      exact Or.inl ⟨by decide,rfl⟩
    | true=>
      have h:=(congrFun (if_neg (by simp [hvalid])) _).symm.trans h
      cases hproof : responseIn data with
      | none=>
        rw [hproof] at h
        cases h
        exact Or.inl ⟨by decide,rfl⟩
      | some proof=>
        cases hchallenge : challengeIn data with
        | none=>
          rw [hproof,hchallenge] at h
          cases h
          exact Or.inl ⟨by decide,rfl⟩
        | some hostChal=>
          rw [hproof,hchallenge] at h
          dsimp only at h
          unfold proveKey appGets at h
          rw [bind_gets] at h
          obtain ⟨b₂,hfirst⟩:=hmac_call hmac mapSignature key.toList s.app.selChallenge.toList
            {s with be:=b₁}
          obtain ⟨b₃,hsecond⟩:=hmac_call hmac mapSignature key.toList hostChal.toList
            {s with be:=b₂}
          rw [bind_of_ok hfirst] at h
          by_cases hhash : b₁.env.hashes.headD true=true
          · rw [if_pos hhash] at h
            dsimp only at h
            by_cases hright : (hmac .sha1 key.toList s.app.selChallenge.toList).toList=proof
            · have h:=(congrFun (if_neg (not_not_intro hright)) _).symm.trans h
              rw [bind_of_ok hsecond] at h
              by_cases hhash' : b₂.env.hashes.headD true=true
              · rw [if_pos hhash'] at h
                dsimp only at h
                unfold updateApp at h
                rw [bind_modify] at h
                obtain ⟨hsw,rest,rfl⟩:=emit_ok h
                exact Or.inr ⟨hsw,rfl,rfl,by rw [hright]⟩
              · rw [if_neg hhash'] at h
                cases h
                exact Or.inl ⟨by decide,rfl⟩
            · have h:=(congrFun (if_pos hright) _).symm.trans h
              cases h
              exact Or.inl ⟨by decide,rfl⟩
          · rw [if_neg hhash] at h
            cases h
            exact Or.inl ⟨by decide,rfl⟩
  · rw [bind_of_error (call_of (m:=(backend hmac mapSignature).akeyGet) hget)] at h
    cases h

theorem cmdValidate_open {data : Bytes} {le : ℕ} {r : Reply} (hkey : s.be.accessKey=none)
    (h : cmdValidate (backend hmac mapSignature) data le s=(.ok r,t)) : t.app=s.app:=by
  unfold cmdValidate at h
  rcases beAkeyGet_read (Or.inl hkey) with ⟨b₁,hget,-⟩ | ⟨e,b₁,hget⟩
  · rw [bind_of_ok (call_of (m:=(backend hmac mapSignature).akeyGet) hget),hkey] at h
    cases h
    rfl
  · rw [bind_of_error (call_of (m:=(backend hmac mapSignature).akeyGet) hget)] at h
    cases h

theorem keeps_onStore {P : Badge→Prop} (hP : ∀ b store, P b→P {b with store}) (m : StoreM α) :
    Keeps P (onStore m):=
  keeps_iff.mpr fun b hb=>hP b (m b.store).2 hb

theorem keeps_beWipeAll (key : Option (ByteArr 16)) (nvs : List SeOutcome) :
    Keeps (fun b : Badge=>b.accessKey=key ∧ b.env.nvs=nvs) beWipeAll:=by
  have hstore {α : Type} (m : StoreM α):=keeps_onStore (P:=fun b : Badge=>b.accessKey=key ∧ b.env.nvs=nvs) (fun _ _ h=>h) m
  refine Keeps.forM fun slot=>Keeps.bind (keeps_iff.mpr fun _ h=>h) fun o=>Keeps.bind (hstore _) fun e=>?_
  cases e with
  | none=>exact Keeps.pure _
  | some e=>
    refine Keeps.bind (Keeps.bind (keeps_iff.mpr fun _ h=>h) fun o=>hstore _) fun _=>Keeps.pure _

theorem cmdReset_ok {r : Reply} (h : cmdReset (backend hmac mapSignature) a s=(.ok r,t)) : r.data=[] ∧
    (t=s ∨ a.p1=0xDE ∧ a.p2=0xAD ∧ t.app={s.app with validated:=true,challengeValid:=false} ∧
      (KeyErased s.be→t.be.accessKey=none)):=by
  unfold cmdReset at h
  split_ifs at h with hwrong
  · cases h
    exact ⟨rfl,Or.inl rfl⟩
  · push Not at hwrong
    obtain ⟨_,u,hwipe,h⟩:=bind_ok.mp h
    obtain ⟨_,v,hclear,h⟩:=bind_ok.mp h
    cases h
    have hkept:=keeps_iff.mp (keeps_beWipeAll s.be.accessKey s.be.env.nvs) s.be ⟨rfl,rfl⟩
    have hu : u={s with be:=(beWipeAll s.be).2}:=(congrArg Prod.snd hwipe).symm
    subst hu
    generalize (beWipeAll s.be).2=b at hkept hclear
    obtain ⟨hkey,hnvs⟩:=hkept
    have hcall : call (backend hmac mapSignature).akeyClear {s with be:=b} =
        ((beAkeyClear b).1,{s with be:=(beAkeyClear b).2}):=rfl
    rw [hcall] at hclear
    have hv : v={s with be:=(beAkeyClear b).2}:=(congrArg Prod.snd hclear).symm
    have hresult : (beAkeyClear b).1=.ok ():=congrArg Prod.fst hclear
    subst hv
    refine ⟨rfl,Or.inr ⟨hwrong.1,hwrong.2,rfl,?_⟩⟩
    intro herased
    change (beAkeyClear b).2.accessKey=none
    have hnext : nextNvs b=(.ok (b.env.nvs.headD .done),{b with env:={b.env with nvs:=b.env.nvs.tail}}):=rfl
    unfold beAkeyClear nvsWrite at hresult ⊢
    rw [bind_assoc,bind_of_ok hnext] at hresult ⊢
    unfold KeyErased at herased
    rw [← hkey,← hnvs] at herased
    cases houtcome : b.env.nvs.headD .done with
    | done=>rfl
    | powerLost applied=>
      rw [houtcome] at hresult
      cases hresult
    | failed e applied=>
      rw [houtcome] at herased
      rcases herased with hnone | happlied | hlost
      · cases applied with
        | true=>rfl
        | false=>exact hnone
      · cases happlied
        rfl
      · cases hlost

end Commands

section Gate

variable {β : Type} {b : Backend β}

/-- A session that is open, its challenge spent. -/
def Unlocked (s : Ctx β) : Prop:=s.app.validated=true ∧ s.app.challengeValid=false

theorem unlocked_call (m : Handler PowerLost β α) : Keeps Unlocked (call m):=keeps_iff.mpr fun _ h=>h

theorem unlocked_emit (payload : Bytes) (le : ℕ) : Keeps Unlocked (emit payload le : OathM β Reply):=
  Keeps.bind (Keeps.gets _) fun _=>Keeps.ite (fun _=>Keeps.pure _) fun _=>
    Keeps.bind (Keeps.modify fun _ h=>h) fun _=>Keeps.pure _

theorem unlocked_readShown (slot : ℕ) : Keeps Unlocked (readShown b slot):=by
  refine Keeps.bind (unlocked_call _) fun m=>?_
  cases m with
  | none=>exact Keeps.pure _
  | some m=>exact Keeps.ite (fun _=>Keeps.pure _) fun _=>Keeps.pure _

theorem unlocked_findByYkName (name : Bytes) : Keeps Unlocked (findByYkName b name):=by
  have hamong (slots : List ℕ) : Keeps Unlocked (findAmong b name slots):=by
    induction slots with
    | nil=>exact Keeps.pure _
    | cons slot slots ih=>
      refine Keeps.bind (unlocked_readShown slot) fun m=>?_
      cases m with
      | none=>exact ih
      | some m=>exact Keeps.ite (fun _=>Keeps.pure _) fun _=>ih
  exact Keeps.ite (fun _=>Keeps.pure _) fun _=>Keeps.bind (Keeps.gets _) fun _=>hamong _

theorem unlocked_foldlM {f : Bytes → ℕ→OathM β Bytes} (h : ∀ buf slot, Keeps Unlocked (f buf slot)) (slots : List ℕ)
    (buf : Bytes) : Keeps Unlocked (slots.foldlM f buf):=by
  induction slots generalizing buf with
  | nil=>exact Keeps.pure _
  | cons slot slots ih=>
    rw [List.foldlM_cons]
    exact Keeps.bind (h buf slot) fun out=>ih out

theorem unlocked_listEntry (buf : Bytes) (slot : ℕ) : Keeps Unlocked (listEntry b buf slot):=by
  refine Keeps.bind (unlocked_readShown slot) fun m=>?_
  cases m <;> exact Keeps.pure _

theorem unlocked_calculateEntry (challenge : ByteArr 8) (buf : Bytes) (slot : ℕ) :
    Keeps Unlocked (calculateEntry b challenge buf slot):=by
  refine Keeps.bind (unlocked_readShown slot) fun m=>?_
  cases m with
  | none=>exact Keeps.pure _
  | some m=>
    refine Keeps.ite (fun _=>Keeps.pure _) fun _=>Keeps.ite (fun _=>Keeps.pure _) fun _=>
      Keeps.bind (unlocked_call _) fun code=>?_
    cases code <;> exact Keeps.pure _

theorem unlocked_cmdPut (data : Bytes) : Keeps Unlocked (cmdPut b data):=by
  unfold cmdPut
  cases parsePut data with
  | none=>exact Keeps.pure _
  | some account=>
    exact Keeps.bind (unlocked_call _) fun _=>Keeps.ite (fun _=>Keeps.pure _) fun _=>Keeps.pure _

theorem unlocked_cmdDelete (data : Bytes) : Keeps Unlocked (cmdDelete b data):=by
  unfold cmdDelete
  cases findTlv data tagName with
  | none=>exact Keeps.pure _
  | some name=>
    refine Keeps.bind (unlocked_findByYkName name) fun slot=>?_
    cases slot with
    | none=>exact Keeps.pure _
    | some slot=>exact Keeps.bind (unlocked_call _) fun _=>Keeps.ite (fun _=>Keeps.pure _) fun _=>Keeps.pure _

theorem unlocked_setKey (key : ByteArr 16) (challenge : ByteArr 8) (proof : Bytes) :
    Keeps Unlocked (setKey b key challenge proof):=by
  refine Keeps.bind (unlocked_call _) fun expect=>?_
  cases expect with
  | none=>exact Keeps.pure _
  | some expect=>
    exact Keeps.ite (fun _=>Keeps.pure _) fun _=>Keeps.bind (unlocked_call _) fun _=>
      Keeps.ite (fun _=>Keeps.pure _) fun _=>Keeps.pure _

theorem unlocked_cmdSetCode (data : Bytes) : Keeps Unlocked (cmdSetCode b data):=by
  unfold cmdSetCode
  cases findTlv data tagKey with
  | none=>exact Keeps.pure _
  | some key=>
    cases key with
    | nil=>exact Keeps.bind (unlocked_call _) fun _=>Keeps.bind (Keeps.modify fun _ h=>⟨rfl,h.2⟩) fun _=>Keeps.pure _
    | cons algo key=>
      refine Keeps.ite (fun _=>Keeps.pure _) fun _=>?_
      cases challengeIn data with
      | none=>exact Keeps.pure _
      | some challenge=>
        cases responseIn data with
        | none=>exact Keeps.pure _
        | some proof=>exact unlocked_setKey _ _ _

theorem unlocked_cmdCalculate (data : Bytes) (le : ℕ) : Keeps Unlocked (cmdCalculate b data le):=by
  unfold cmdCalculate
  cases findTlv data tagName with
  | none=>exact Keeps.pure _
  | some name=>
    cases challengeIn data with
    | none=>exact Keeps.pure _
    | some challenge=>
      refine Keeps.bind (unlocked_findByYkName name) fun slot=>?_
      cases slot with
      | none=>exact Keeps.pure _
      | some slot=>
        refine Keeps.bind (unlocked_call _) fun m=>?_
        cases m with
        | none=>exact Keeps.pure _
        | some m=>
          refine Keeps.bind (Keeps.ite (fun _=>unlocked_call _) fun _=>Keeps.pure _) fun _=>
            Keeps.ite (fun _=>Keeps.pure _) fun _=>Keeps.bind (unlocked_call _) fun code=>?_
          cases code with
          | none=>exact Keeps.pure _
          | some code=>exact unlocked_emit _ _

theorem unlocked_cmdCalculateAll (data : Bytes) (le : ℕ) : Keeps Unlocked (cmdCalculateAll b data le):=by
  unfold cmdCalculateAll
  cases challengeIn data with
  | none=>exact Keeps.pure _
  | some challenge=>
    exact Keeps.bind (Keeps.gets _) fun _=>Keeps.bind (unlocked_foldlM (unlocked_calculateEntry challenge) _ _) fun _=>
      unlocked_emit _ _

theorem unlocked_gated {s : Ctx β} {a : Scard.Apdu} (hselect : a.ins≠insIsoSelect ∨ a.p1≠0x04)
    (hsend : a.ins≠insSendRemaining) (hreset : a.ins≠insReset) (hvalidate : a.ins≠insValidate) (h : Unlocked s) :
    Unlocked (processParsed b a s).2:=by
  rw [processParsed_gated hselect hsend hreset hvalidate h.1]
  refine keeps_iff.mp (Keeps.ite (fun _=>unlocked_cmdPut _) fun _=>?_) s h
  refine Keeps.ite (fun _=>unlocked_cmdDelete _) fun _=>Keeps.ite (fun _=>unlocked_cmdSetCode _) fun _=>?_
  refine Keeps.ite (fun _=>?_) fun _=>Keeps.ite (fun _=>unlocked_cmdCalculate _ _) fun _=>?_
  · exact Keeps.bind (Keeps.gets _) fun _=>Keeps.bind (unlocked_foldlM unlocked_listEntry _ _) fun _=>unlocked_emit _ _
  · exact Keeps.ite (fun _=>unlocked_cmdCalculateAll _ _) fun _=>Keeps.pure _

end Gate

section Invariant

variable {hmac : Hmac} {mapSignature : UInt32} {x : State} {i : Bytes × ℕ} {a : Scard.Apdu}

/-- An open session has proved its key, unless it has set it; what a locked one has left to read is no secret; and the
challenge that is open was returned by the last SELECT, and no proof over it was accepted. -/
structure Sound (hmac : Hmac) (x : State) : Prop where
  gate : x.1.app.validated=true→∀ key, x.1.be.accessKey=some key→x.2.proved=some key ∨ x.2.coded=true
  rest : x.1.app.validated=false→x.1.app.resp=[] ∨ ∃ p∈x.2.built, x.1.app.resp <:+: p
  pending : x.1.app.challengeValid=true→x.1.app.validated=false ∧ x.2.challenge=some x.1.app.selChallenge.toList ∧
    ∃ key, x.1.be.accessKey=some key ∧ ∀ proof∈x.2.accepted,
      (hmac .sha1 key.toList x.1.app.selChallenge.toList).toList≠proof

theorem Sound.bare (h : x.1.app={}) : Sound hmac x where
  gate:=by
    rw [h]
    nofun
  rest:=by
    rw [h]
    exact fun _=>Or.inl rfl
  pending:=by
    rw [h]
    nofun

theorem Sound.same (h : Sound hmac x) {y : State} (happ : y.1.app=x.1.app) (hkey : y.1.be.accessKey=x.1.be.accessKey)
    (hbuilt : ∀ p∈x.2.built, p∈y.2.built) (hchallenge : y.2.challenge=x.2.challenge) (hproved : y.2.proved=x.2.proved)
    (hcoded : y.2.coded=x.2.coded) (haccepted : y.2.accepted=x.2.accepted) : Sound hmac y where
  gate:=by
    rw [happ,hkey,hproved,hcoded]
    exact h.gate
  rest:=by
    rw [happ]
    intro hlocked
    exact (h.rest hlocked).imp_right fun ⟨p,hp,hpart⟩=>⟨p,hbuilt p hp,hpart⟩
  pending:=by
    rw [happ,hkey,hchallenge,haccepted]
    exact h.pending

variable (hmac mapSignature) in
theorem step_apdu (ha : parsed i=some a) : step hmac mapSignature x (.apdu i) =
    ((exchange (backend hmac mapSignature) x.1 i).2,x.2.next hmac mapSignature x.1
      (exchange (backend hmac mapSignature) x.1 i).2 a (exchange (backend hmac mapSignature) x.1 i).1):=by
  unfold step
  dsimp only
  rw [ha]

section Next

variable {g : History} {s t : Ctx Badge} {d : Bytes} {sw : UInt16}

theorem next_select (h : isSelect a=true) : g.next hmac mapSignature s t a (some (d,sw)) =
    { g.closed with challenge:=findTlv (payload hmac mapSignature s a) tagChallenge
                    built:=payload hmac mapSignature s a::g.built }:=if_pos h

theorem next_validate (h : a.ins=insValidate) : g.next hmac mapSignature s t a (some (d,sw)) =
    if succeeded sw then
      History.validated hmac {g with built:=payload hmac mapSignature s a::g.built} s.be.accessKey (responseIn a.data)
    else {g with built:=payload hmac mapSignature s a::g.built}:=by
  have hselect : ¬isSelect a=true:=by simp [isSelect,h,insValidate,insIsoSelect]
  exact (if_neg hselect).trans (if_pos h)

theorem next_other (hselect : isSelect a=false) (h : a.ins≠insValidate) : g.next hmac mapSignature s t a (some (d,sw)) =
    {g with coded:=g.coded || (t.be.accessKey.isSome && t.be.accessKey≠s.be.accessKey)}:=
  (if_neg (by simp [hselect])).trans (if_neg h)

end Next

theorem exchange_lost {s : Ctx Badge} (ha : parsed i=some a) (h : (exchange (backend hmac mapSignature) s i).1=none) :
    (exchange (backend hmac mapSignature) s i).2.app={}:=by
  rw [exchange_parsed ha] at h ⊢
  cases hrun : processParsed (backend hmac mapSignature) a {s with respMax:=i.2} with
  | mk r t=>
    rw [hrun] at h
    cases r with
    | ok reply=>cases h
    | error e=>rfl

variable (hmac mapSignature) in
theorem exchange_kept {s : Ctx Badge} (ha : parsed i=some a)
    (h : Keeps (fun t : Ctx Badge=>Kept s.be t.be) (processParsed (backend hmac mapSignature) a)) :
    Kept s.be (exchange (backend hmac mapSignature) s i).2.be:=by
  have hkept:=keeps_iff.mp h {s with respMax:=i.2} (Kept.refl s.be)
  rw [exchange_parsed ha]
  cases hrun : processParsed (backend hmac mapSignature) a {s with respMax:=i.2} with
  | mk r t=>
    rw [hrun] at hkept
    cases r <;> exact hkept

variable (hmac mapSignature) in
theorem exchange_skipped {s : Ctx Badge} (h : parsed i=none) :
    ∃ sw, exchange (backend hmac mapSignature) s i=(some ([],sw),{s with respMax:=i.2}):=by
  unfold parsed at h
  unfold exchange processApdu
  rw [bind_gets]
  split at h
  · rename_i hmax
    exact ⟨_,by rw [if_pos hmax]; rfl⟩
  · rename_i hmax
    exact ⟨_,by rw [if_neg hmax,h]; rfl⟩

theorem select_run (hselect : isSelect a=true) :
    processParsed (backend hmac mapSignature) a=cmdSelect (backend hmac mapSignature) a.le:=by
  unfold processParsed
  exact if_pos (by simpa [isSelect] using hselect)

theorem step_select (h : Sound hmac x) (hclean : Clean hmac x (.apdu i)) (ha : parsed i=some a) (hselect : isSelect a=true) :
    Guards hmac mapSignature x i ∧ Sound hmac (step hmac mapSignature x (.apdu i)):=by
  have hins : a.ins=insIsoSelect ∧ a.p1=0x04:=by simpa [isSelect] using hselect
  have hcond:=hclean a ha
  rw [if_pos hselect] at hcond
  obtain ⟨hread,hdraws⟩:=hcond
  have hkept:=exchange_kept hmac mapSignature (s:=x.1) ha
    (by rw [select_run hselect]; exact kept_cmdSelect a.le)
  have hnotValidate (a' : Scard.Apdu) (ha' : a'∈parsed i) (hvalidate : a'.ins=insValidate) : False:=by
    rw [ha] at ha'
    cases ha'
    rw [hins.1] at hvalidate
    exact absurd hvalidate (by decide)
  cases hreply : (exchange (backend hmac mapSignature) x.1 i).1 with
  | none=>
    refine ⟨⟨?_,?_,?_,?_⟩,?_⟩
    · rintro key - - d sw hsome
      rw [hreply] at hsome
      cases hsome
    · rintro key hkey - -
      rw [step_apdu hmac mapSignature ha]
      exact ⟨fun slot=>by rw [hkept.store],hkept.key.trans hkey⟩
    · rintro a' - - - hsome
      exact absurd hreply hsome
    · exact fun a' ha' hvalidate=>absurd hvalidate (hnotValidate a' ha')
    · rw [step_apdu hmac mapSignature ha]
      exact Sound.bare (exchange_lost ha hreply)
  | some reply=>
    obtain ⟨d,sw⟩:=reply
    have hnext : step hmac mapSignature x (.apdu i)=((exchange (backend hmac mapSignature) x.1 i).2,
        { x.2.closed with challenge:=findTlv (payload hmac mapSignature x.1 a) tagChallenge
                          built:=payload hmac mapSignature x.1 a::x.2.built }):=by
      rw [step_apdu hmac mapSignature ha,hreply,next_select hselect]
    have hsend : isSendRemaining a=false:=by simp [isSendRemaining,hins.1,insIsoSelect,insSendRemaining]
    have hpart:=exchange_within hmac mapSignature (s:=x.1) ha hsend
    rw [hreply] at hpart
    obtain hnone | ⟨d',sw',hsame,hd,hresp⟩:=hpart
    · cases hnone
    · cases hsame
      have hcases:=select_cases ha hselect hdraws (Prod.ext hreply rfl)
      rw [hnext]
      refine ⟨⟨?_,?_,?_,?_⟩,?_⟩
      · rintro key - - d' sw' hsome
        rw [hreply] at hsome
        cases hsome
        rw [hnext]
        exact Or.inr ⟨_,List.mem_cons_self,hd⟩
      · rintro key hkey - -
        rw [hnext]
        exact ⟨fun slot=>by rw [hkept.store],hkept.key.trans hkey⟩
      · rintro a' - - hkey -
        rw [hnext]
        rcases hcases with ⟨hnone,-⟩ | ⟨key,-,n,bytes,hdrawn,hleft,hchallenge,-⟩
        · exact absurd hnone hkey
        · exact ⟨n,bytes,hdrawn,hleft,hchallenge⟩
      · exact fun a' ha' hvalidate=>absurd hvalidate (hnotValidate a' ha')
      · rcases hcases with ⟨hnone,-,hvalidated,hvalid⟩ |
          ⟨key,hkey,n,bytes,-,-,hchallenge,hlocked,-,hsel,hunused⟩
        · constructor
          · intro _ key hkey
            rw [hkept.key,hnone] at hkey
            cases hkey
          · intro hlocked
            exact absurd (hvalidated.symm.trans hlocked) (by decide)
          · intro hpending
            rw [hvalid] at hpending
            obtain ⟨-,-,key,hkey,-⟩:=h.pending hpending
            rw [hnone] at hkey
            cases hkey
        · constructor
          · intro hvalidated
            exact absurd (hvalidated.symm.trans hlocked) (by decide)
          · intro _
            rcases hresp with hsame | hpiece
            · exact Or.inl (hsame.trans hread)
            · exact Or.inr ⟨_,List.mem_cons_self,hpiece⟩
          · intro _
            rw [hsel]
            exact ⟨hlocked,hchallenge,key,hkept.key.trans hkey,hunused⟩

theorem step_validate (h : Sound hmac x) (hclean : Clean hmac x (.apdu i)) (ha : parsed i=some a) (hins : a.ins=insValidate) :
    Guards hmac mapSignature x i ∧ Sound hmac (step hmac mapSignature x (.apdu i)):=by
  have hselect : isSelect a=false:=by simp [isSelect,hins,insValidate,insIsoSelect]
  have hread:=hclean a ha
  rw [if_neg (by simp [hselect]),if_pos hins] at hread
  have hgate : processParsed (backend hmac mapSignature) a=cmdValidate (backend hmac mapSignature) a.data a.le:=by
    unfold processParsed
    rw [if_neg (by simp [hins,insValidate,insIsoSelect]),if_neg (by simp [hins,insValidate,insSendRemaining]),
      if_neg (by simp [hins,insValidate,insReset]),if_pos hins]
  have hkept:=exchange_kept hmac mapSignature (s:=x.1) ha
    (by rw [hgate]; exact kept_cmdValidate a.data a.le)
  have hnotSelect (a' : Scard.Apdu) (ha' : a'∈parsed i) : ¬isSelect a'=true:=by
    rw [ha] at ha'
    cases ha'
    simp [hselect]
  cases hreply : (exchange (backend hmac mapSignature) x.1 i).1 with
  | none=>
    refine ⟨⟨?_,?_,?_,?_⟩,?_⟩
    · rintro key - - d sw hsome
      rw [hreply] at hsome
      cases hsome
    · rintro key hkey - -
      rw [step_apdu hmac mapSignature ha]
      exact ⟨fun slot=>by rw [hkept.store],hkept.key.trans hkey⟩
    · exact fun a' ha' hselect'=>absurd hselect' (hnotSelect a' ha')
    · rintro a' - - key - d sw hsome
      rw [hreply] at hsome
      cases hsome
    · rw [step_apdu hmac mapSignature ha]
      exact Sound.bare (exchange_lost ha hreply)
  | some reply=>
    obtain ⟨d,sw⟩:=reply
    have hnext:=step_apdu hmac mapSignature (x:=x) ha
    rw [hreply,next_validate hins] at hnext
    have hsend : isSendRemaining a=false:=by simp [isSendRemaining,hins,insValidate,insSendRemaining]
    have hpart:=exchange_within hmac mapSignature (s:=x.1) ha hsend
    have hrun:=exchange_ok hmac mapSignature (s:=x.1) ha (Prod.ext hreply rfl)
    rw [hgate] at hrun
    rw [hreply] at hpart
    obtain hnone | ⟨d',sw',hsame,hd,hresp⟩:=hpart
    · cases hnone
    cases hsame
    have hshows (y : State) (hy : payload hmac mapSignature x.1 a∈y.2.built) (hstep : step hmac mapSignature x (.apdu i)=y) :
        ∀ key, x.1.be.accessKey=some key→x.2.proved≠some key→∀ d sw,
          (exchange (backend hmac mapSignature) x.1 i).1=some (d,sw) →
            d=[] ∨ ∃ p∈(step hmac mapSignature x (.apdu i)).2.built, d <:+: p:=by
      rintro key - - d' sw' hsome
      rw [hreply] at hsome
      cases hsome
      rw [hstep]
      exact Or.inr ⟨_,hy,hd⟩
    have hchanges : ∀ key, x.1.be.accessKey=some key→x.2.proved≠some key→(∀ a∈parsed i, a.ins≠insReset) →
        (∀ slot, credential (step hmac mapSignature x (.apdu i)).1.be.store.chip slot=credential x.1.be.store.chip slot) ∧
          (step hmac mapSignature x (.apdu i)).1.be.accessKey=some key:=by
      rintro key hkey - -
      rw [step_apdu hmac mapSignature ha]
      exact ⟨fun slot=>by rw [hkept.store],hkept.key.trans hkey⟩
    cases hkey : x.1.be.accessKey with
    | none=>
      have happ:=cmdValidate_open (s:={x.1 with respMax:=i.2}) hkey hrun
      have hseen : step hmac mapSignature x (.apdu i)=((exchange (backend hmac mapSignature) x.1 i).2,
          {x.2 with built:=payload hmac mapSignature x.1 a::x.2.built}):=by
        rw [hnext,hkey]
        split <;> rfl
      refine ⟨⟨hshows _ List.mem_cons_self hseen,hchanges,fun a' ha' hselect'=>absurd hselect' (hnotSelect a' ha'),?_⟩,?_⟩
      · rintro a' - - key hsome
        rw [hkey] at hsome
        cases hsome
      · rw [hseen]
        exact h.same happ hkept.key (fun p hp=>List.mem_cons_of_mem _ hp) rfl rfl rfl rfl
    | some key=>
      rcases cmdValidate_ok (s:={x.1 with respMax:=i.2}) hkey hread hrun with ⟨hsw,happ⟩ | ⟨hsw,hvalid,hclosed,hproof⟩
      · rw [if_neg (by simp [hsw])] at hnext
        refine ⟨⟨hshows _ List.mem_cons_self hnext,hchanges,fun a' ha' hselect'=>absurd hselect' (hnotSelect a' ha'),?_⟩,?_⟩
        · rintro a' - - key' - d' sw' hsome hsucceeded
          rw [hreply] at hsome
          cases hsome
          rw [hsw] at hsucceeded
          cases hsucceeded
        · rw [hnext]
          exact h.same happ hkept.key (fun p hp=>List.mem_cons_of_mem _ hp) rfl rfl rfl rfl
      · obtain ⟨hlocked,hchallenge,key',hkey',hunused⟩:=h.pending hvalid
        rw [hkey] at hkey'
        cases hkey'
        have hproves : proves hmac key x.2.challenge (hmac .sha1 key.toList x.1.app.selChallenge.toList).toList=true:=by
          unfold proves
          rw [hchallenge]
          simp
        have hseen : step hmac mapSignature x (.apdu i)=((exchange (backend hmac mapSignature) x.1 i).2,
            { x.2 with
              built:=payload hmac mapSignature x.1 a::x.2.built
              proved:=some key
              accepted:=(hmac .sha1 key.toList x.1.app.selChallenge.toList).toList::x.2.accepted }):=by
          rw [hnext,if_pos hsw,hkey,hproof]
          unfold History.validated
          dsimp only
          rw [if_pos hproves]
        refine ⟨⟨hshows _ List.mem_cons_self hseen,hchanges,fun a' ha' hselect'=>absurd hselect' (hnotSelect a' ha'),?_⟩,?_⟩
        · rintro a' ha' - key' hkey' d' sw' - -
          rw [ha] at ha'
          cases ha'
          rw [hkey] at hkey'
          cases hkey'
          exact ⟨_,hproof,hproves,fun hmem=>hunused _ hmem rfl⟩
        · rw [hseen]
          constructor
          · intro _ key' hkey'
            rw [hkept.key,hkey] at hkey'
            cases hkey'
            exact Or.inl rfl
          · intro _
            rcases hresp with hsame | hpiece
            · rw [hsame]
              rcases h.rest hlocked with hnil | ⟨p,hp,hpart⟩
              · exact Or.inl hnil
              · exact Or.inr ⟨p,List.mem_cons_of_mem _ hp,hpart⟩
            · exact Or.inr ⟨_,List.mem_cons_self,hpiece⟩
          · intro hpending
            exact absurd (hclosed.symm.trans hpending) (by decide)

theorem guards_other (hselect : ∀ a∈parsed i, isSelect a=false) (hvalidate : ∀ a∈parsed i, a.ins≠insValidate)
    (h : ∀ key, x.1.be.accessKey=some key→x.2.proved≠some key →
      (∀ d sw, (exchange (backend hmac mapSignature) x.1 i).1=some (d,sw) →
        d=[] ∨ ∃ p∈(step hmac mapSignature x (.apdu i)).2.built, d <:+: p) ∧
      ((∀ a∈parsed i, a.ins≠insReset) →
        (∀ slot, credential (step hmac mapSignature x (.apdu i)).1.be.store.chip slot=credential x.1.be.store.chip slot) ∧
          (step hmac mapSignature x (.apdu i)).1.be.accessKey=some key)) : Guards hmac mapSignature x i where
  shows key hkey hproved:=(h key hkey hproved).1
  changes key hkey hproved:=(h key hkey hproved).2
  fresh a ha hsome:=absurd hsome (by simp [hselect a ha])
  once a ha hins:=absurd hins (hvalidate a ha)

theorem step_skipped (h : Sound hmac x) (ha : parsed i=none) :
    Guards hmac mapSignature x i ∧ Sound hmac (step hmac mapSignature x (.apdu i)):=by
  obtain ⟨sw,hreply⟩:=exchange_skipped hmac mapSignature (s:=x.1) ha
  have hstep : step hmac mapSignature x (.apdu i)=({x.1 with respMax:=i.2},x.2):=by
    unfold step
    dsimp only
    rw [ha,hreply]
  refine ⟨guards_other (by simp [ha]) (by simp [ha]) ?_,?_⟩
  · intro key hkey _
    rw [hstep,hreply]
    refine ⟨?_,fun _=>⟨fun _=>rfl,hkey⟩⟩
    rintro d sw' ⟨⟩
    exact Or.inl rfl
  · rw [hstep]
    exact h.same rfl rfl (fun _=>id) rfl rfl rfl rfl

/-- A key that is set but not proved, outside a session that a SET CODE has opened, is locked. -/
theorem Sound.locked (h : Sound hmac x) {key : ByteArr 16} (hkey : x.1.be.accessKey=some key) (hproved : x.2.proved≠some key)
    (hcoded : x.2.coded=true→∀ key∈x.1.be.accessKey, x.2.proved=some key) : x.1.app.validated=false:=by
  by_contra hvalidated
  rw [Bool.not_eq_false] at hvalidated
  rcases h.gate hvalidated key hkey with hsome | hset
  · exact hproved hsome
  · exact hproved (hcoded hset key hkey)

theorem step_send (h : Sound hmac x) (hclean : Clean hmac x (.apdu i)) (ha : parsed i=some a) (hins : a.ins=insSendRemaining) :
    Guards hmac mapSignature x i ∧ Sound hmac (step hmac mapSignature x (.apdu i)):=by
  have hselect : isSelect a=false:=by simp [isSelect,hins,insSendRemaining,insIsoSelect]
  have hvalidate : a.ins≠insValidate:=by simp [hins,insSendRemaining,insValidate]
  have hcoded:=hclean a ha
  rw [if_neg (by simp [hselect]),if_neg hvalidate,if_neg (by simp [hins,insSendRemaining,insReset])] at hcoded
  have hrun : ∃ d sw n, d <:+: x.1.app.resp ∧ processParsed (backend hmac mapSignature) a {x.1 with respMax:=i.2} =
      (.ok {data:=d,sw},{x.1 with respMax:=i.2,app:={x.1.app with resp:=x.1.app.resp.drop n}}):=by
    unfold processParsed
    rw [if_neg (by simp [hins,insSendRemaining,insIsoSelect]),if_pos hins]
    unfold cmdSendRemaining appGets
    rw [bind_gets,bind_gets]
    dsimp only
    by_cases hresp : x.1.app.resp=[]
    · exact ⟨[],_,0,List.nil_prefix.isInfix,congrFun (if_pos hresp) _⟩
    · exact ⟨_,_,_,(List.take_prefix _ _).isInfix,congrFun (if_neg hresp) _⟩
  obtain ⟨d,sw,n,hpiece,hrun⟩:=hrun
  have hreply : exchange (backend hmac mapSignature) x.1 i =
      (some (d,sw),{x.1 with respMax:=i.2,app:={x.1.app with resp:=x.1.app.resp.drop n}}):=by
    rw [exchange_parsed ha,hrun]
  have hstep:=step_apdu hmac mapSignature (x:=x) ha
  rw [hreply,next_other hselect hvalidate] at hstep
  refine ⟨guards_other (by simp [ha,hselect]) (by simp [ha,hvalidate]) ?_,?_⟩
  · intro key hkey hproved
    rw [hstep,hreply]
    refine ⟨?_,fun _=>⟨fun _=>rfl,hkey⟩⟩
    rintro d' sw' ⟨⟩
    rcases h.rest (h.locked hkey hproved hcoded) with hnil | ⟨p,hp,hpart⟩
    · rw [hnil] at hpiece
      exact Or.inl (List.infix_nil.mp hpiece)
    · exact Or.inr ⟨p,hp,hpiece.trans hpart⟩
  · rw [hstep]
    constructor
    · intro hvalidated key hkey
      simpa using h.gate hvalidated key hkey
    · intro hlocked
      rcases h.rest hlocked with hnil | ⟨p,hp,hpart⟩
      · exact Or.inl (by simp [hnil])
      · exact Or.inr ⟨p,hp,(List.drop_suffix n _).isInfix.trans hpart⟩
    · exact h.pending

theorem step_reset (h : Sound hmac x) (hclean : Clean hmac x (.apdu i)) (ha : parsed i=some a) (hins : a.ins=insReset) :
    Guards hmac mapSignature x i ∧ Sound hmac (step hmac mapSignature x (.apdu i)):=by
  have hselect : isSelect a=false:=by simp [isSelect,hins,insReset,insIsoSelect]
  have hvalidate : a.ins≠insValidate:=by simp [hins,insReset,insValidate]
  have herased:=hclean a ha
  rw [if_neg (by simp [hselect]),if_neg hvalidate,if_pos hins] at herased
  have hgate : processParsed (backend hmac mapSignature) a=cmdReset (backend hmac mapSignature) a:=by
    unfold processParsed
    rw [if_neg (by simp [hins,insReset,insIsoSelect]),if_neg (by simp [hins,insReset,insSendRemaining]),if_pos hins]
  have hstep:=step_apdu hmac mapSignature (x:=x) ha
  cases hreply : (exchange (backend hmac mapSignature) x.1 i).1 with
  | none=>
    refine ⟨guards_other (by simp [ha,hselect]) (by simp [ha,hvalidate]) ?_,?_⟩
    · intro key hkey hproved
      rw [hreply]
      exact ⟨(fun d sw h=>by cases h),fun hother=>absurd hins (hother a ha)⟩
    · rw [hstep]
      exact Sound.bare (exchange_lost ha hreply)
  | some reply=>
    obtain ⟨d,sw⟩:=reply
    have hrun:=exchange_ok hmac mapSignature (s:=x.1) ha (Prod.ext hreply rfl)
    rw [hgate] at hrun
    obtain ⟨hnil,hcases⟩:=cmdReset_ok hrun
    rw [hreply,next_other hselect hvalidate] at hstep
    refine ⟨guards_other (by simp [ha,hselect]) (by simp [ha,hvalidate]) ?_,?_⟩
    · intro key hkey hproved
      rw [hreply]
      refine ⟨?_,fun hother=>absurd hins (hother a ha)⟩
      rintro d' sw' ⟨⟩
      exact Or.inl hnil
    · rw [hstep]
      rcases hcases with hsame | ⟨hp1,hp2,happ,hkey⟩
      · have happ:=congrArg Ctx.app hsame
        have hkey:=congrArg (fun t : Ctx Badge=>t.be.accessKey) hsame
        dsimp only at hkey
        exact h.same happ hkey (fun _=>id) rfl rfl (by simp [hkey]) rfl
      · have hnone:=hkey (herased hp1 hp2)
        constructor
        · intro _ key hsome
          rw [hnone] at hsome
          cases hsome
        · intro hlocked
          rw [happ] at hlocked
          cases hlocked
        · intro hpending
          rw [happ] at hpending
          cases hpending

theorem step_gated (h : Sound hmac x) (hclean : Clean hmac x (.apdu i)) (ha : parsed i=some a) (hselect : isSelect a=false)
    (hsend : a.ins≠insSendRemaining) (hreset : a.ins≠insReset) (hvalidate : a.ins≠insValidate) :
    Guards hmac mapSignature x i ∧ Sound hmac (step hmac mapSignature x (.apdu i)):=by
  have hcoded:=hclean a ha
  rw [if_neg (by simp [hselect]),if_neg hvalidate,if_neg hreset] at hcoded
  have hnot : a.ins≠insIsoSelect ∨ a.p1≠0x04:=by simpa [isSelect,imp_iff_not_or] using hselect
  have hstep:=step_apdu hmac mapSignature (x:=x) ha
  cases hvalidated : x.1.app.validated with
  | false=>
    have hrun : exchange (backend hmac mapSignature) x.1 i=(some ([],swAuthRequired),{x.1 with respMax:=i.2}):=by
      rw [exchange_parsed ha,processParsed_locked (s:={x.1 with respMax:=i.2}) hnot hsend hreset hvalidate hvalidated]
      rfl
    rw [hrun,next_other hselect hvalidate] at hstep
    refine ⟨guards_other (by simp [ha,hselect]) (by simp [ha,hvalidate]) ?_,?_⟩
    · intro key hkey _
      rw [hstep,hrun]
      refine ⟨?_,fun _=>⟨fun _=>rfl,hkey⟩⟩
      rintro d sw ⟨⟩
      exact Or.inl rfl
    · rw [hstep]
      exact h.same rfl rfl (fun _=>id) rfl rfl (by simp) rfl
  | true=>
    have hspent : x.1.app.challengeValid=false:=by
      by_contra hpending
      rw [Bool.not_eq_false] at hpending
      exact absurd (hvalidated.symm.trans (h.pending hpending).1) (by decide)
    have hunlocked:=unlocked_gated (b:=backend hmac mapSignature) (s:={x.1 with respMax:=i.2}) hnot hsend hreset hvalidate
      ⟨hvalidated,hspent⟩
    refine ⟨guards_other (by simp [ha,hselect]) (by simp [ha,hvalidate]) ?_,?_⟩
    · intro key hkey hproved
      exact absurd (hvalidated.symm.trans (h.locked hkey hproved hcoded)) (by decide)
    · cases hreply : (exchange (backend hmac mapSignature) x.1 i).1 with
      | none=>
        rw [hstep]
        exact Sound.bare (exchange_lost ha hreply)
      | some reply=>
        obtain ⟨d,sw⟩:=reply
        have hrun:=exchange_ok hmac mapSignature (s:=x.1) ha (Prod.ext hreply rfl)
        rw [hrun] at hunlocked
        rw [hreply,next_other hselect hvalidate] at hstep
        rw [hstep]
        constructor
        · intro _ key hkey
          by_cases hsame : (exchange (backend hmac mapSignature) x.1 i).2.be.accessKey=x.1.be.accessKey
          · rcases h.gate hvalidated key (hsame ▸ hkey) with hproved | hset
            · exact Or.inl hproved
            · exact Or.inr (by simp [hset])
          · have hset : (exchange (backend hmac mapSignature) x.1 i).2.be.accessKey=some key:=hkey
            rw [hset] at hsame
            exact Or.inr (by simp [hset,hsame])
        · intro hlocked
          exact absurd (hunlocked.1.symm.trans hlocked) (by decide)
        · intro hpending
          exact absurd (hunlocked.2.symm.trans hpending) (by decide)

theorem Sound.step (h : Sound hmac x) {e : Event} (hclean : Clean hmac x e) :
    Guarded hmac mapSignature x e ∧ Sound hmac (Access.step hmac mapSignature x e):=by
  cases e with
  | deselect=>exact ⟨trivial,Sound.bare rfl⟩
  | apdu i=>
    cases ha : parsed i with
    | none=>exact step_skipped h ha
    | some a=>
      cases hselect : isSelect a with
      | true=>exact step_select h hclean ha hselect
      | false=>
        by_cases hvalidate : a.ins=insValidate
        · exact step_validate h hclean ha hvalidate
        · by_cases hsend : a.ins=insSendRemaining
          · exact step_send h hclean ha hsend
          · by_cases hreset : a.ins=insReset
            · exact step_reset h hclean ha hreset
            · exact step_gated h hclean ha hselect hsend hreset hvalidate

end Invariant

def start (b : Badge) : State:=({be:=b},{})

/-- In a run that meets the condition nothing is shown or changed without the proof of the key, every challenge is new, and
a proof counts once. -/
theorem access_guarded (hmac : Hmac) (mapSignature : UInt32) (b : Badge) (es : List Event)
    (h : Runs.AlongRun (step hmac mapSignature) (Clean hmac) (start b) es) :
    Runs.AlongRun (step hmac mapSignature) (Guarded hmac mapSignature) (start b) es:=
  Runs.AlongRun.of_invariant (I:=Sound hmac) (fun _ _ hclean hsound=>hsound.step hclean) (Sound.bare rfl) h

section Badges

def challengeBytes : Bytes:=[1,2,3,4,5,6,7,8]

def keyedBadge : Badge:=
  {oneBadge.be with devId:=some (zeros 8),accessKey:=some (zeros 16),env:={random:=[some challengeBytes]}}

def selectCommand : Bytes × ℕ:=([0x00,0xA4,0x04,0x00,0x07,0xA0,0x00,0x00,0x05,0x27,0x21,0x01,0x00],2048)

def validateCommand : Bytes × ℕ:=
  ([0x00,insValidate,0x00,0x00,0x20] ++
    encodeItems [(tagFullResp,(plainHmac .sha1 (zeros 16).toList challengeBytes).toList),(tagChallenge,(zeros 8).toList)],2048)

theorem access_guarded_keyed : Runs.AlongRun (step plainHmac 0) (Guarded plainHmac 0) (start keyedBadge)
    [.apdu selectCommand,.apdu validateCommand,.apdu listCommand]:=by
  refine access_guarded plainHmac 0 keyedBadge _ ⟨?_,?_,?_,trivial⟩
  · rintro a ⟨⟩
    refine ⟨rfl,?_⟩
    rintro devid b ⟨⟩
    refine ⟨Or.inr (Or.inl rfl),?_⟩
    rintro key -
    exact fun proof hproof=>absurd hproof List.not_mem_nil
  · rintro a ⟨⟩
    exact Or.inr (Or.inl rfl)
  · rintro a ⟨⟩
    exact fun hcoded=>absurd hcoded (by decide +kernel)

def unreadBadge : Badge:={keyedBadge with env:={nvs:=[.done,.done,.failed .error false]}}

theorem list_unread : ∃ x : State, step plainHmac 0 (start unreadBadge) (.apdu selectCommand)=x ∧
    x.1.be.accessKey=some (zeros 16) ∧ x.2.proved=none ∧
    (exchange (backend plainHmac 0) x.1 listCommand).1 =
      some ([tagNameList,7,0x21,0x36,0x30,0x2F,0x62,0x3A,0x61],swOk) ∧
    ∀ p∈(step plainHmac 0 x (.apdu listCommand)).2.built, ¬[tagNameList,7,0x21,0x36,0x30,0x2F,0x62,0x3A,0x61] <:+: p:=
  ⟨_,rfl,by decide +kernel,by decide +kernel,by decide +kernel,by decide +kernel⟩

theorem access_not_guarded : ¬ ∀ (b : Badge) (es : List Event),
    Runs.AlongRun (step plainHmac 0) (Guarded plainHmac 0) (start b) es:=by
  intro h
  obtain ⟨-,hguarded,-⟩:=h unreadBadge [.apdu selectCommand,.apdu listCommand]
  obtain ⟨x,hx,hkey,hproved,hreply,hbuilt⟩:=list_unread
  rw [hx] at hguarded
  rcases hguarded.shows (zeros 16) hkey (by simp [hproved]) _ _ hreply with hnil | ⟨p,hp,hpart⟩
  · cases hnil
  · exact hbuilt p hp hpart

end Badges

end CdcBadge.Oath.Access
