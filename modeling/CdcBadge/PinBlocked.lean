import CdcBadge.PinThrottle

/-!
# A PIN record that cannot be read or verified

While `init` finds such a record it answers `false` and leaves the badge counter at
zero, but the PW1 and PW3 paths go on with the values the manager has after power-on.
They answer `false` as long as they cannot save; a save puts a new record in the
place of the old one.
-/

namespace CdcBadge.Pin

open Handler Runs

/-- A load with this outcome finds a record that it can neither read nor verify, or no power. -/
inductive Unreadable (cr : Crypto) (c : Chip Bytes) (o : LoadOutcome) : Prop
  | read {e : SeError} (he : e≠.slotEmpty)
      (h : (Chip.perform o.read (rmemRead rmemSlotPin storageSize) c).1=some (.error e))
  | signature {record : Bytes} (h : (Chip.perform o.read (rmemRead rmemSlotPin storageSize) c).1=some (.ok record))
      (hlength : record.length=storageSize) (hhead : record.head? = some magic)
      (hsig : ∀ key, (Chip.perform o.pubKey (Chip.eccGetPublicKey attestationEccSlot) c).1=some (.ok key) →
        key.curve=.p256 → cr.ecdsaVerify (cr.publicKey key) (cr.sha256 (record.take payloadSize))
          (fit 64 (record.drop payloadSize))=false)
  | powerLost (h : o.read.powered=false)

/-- Every load of the operation comes to that. -/
def StaysUnreadable (cr : Crypto) (b : Badge) (i : PinInput) : Prop:=
  ∀ o∈i.loads.headD {}::i.loads, Unreadable cr b.chip o

def SessionAtLoad (b : Badge) (i : PinInput) : Prop:=
  b.pm.storageUnreadable=true ∨ (i.loads.headD {}).session=true

/-- The save stops before it erases anything. -/
def SaveSpares (c : Chip Bytes) (o : SaveOutcome) : Prop:=
  o.session=false ∨ ¬(o.sign=.done ∧ HasAttestationKey c) ∨ o.erase.applied=false

/-- The value an OpenPGP verification hashes. -/
def PinOp.pwCandidate : PinOp→Option Bytes
  | .verifyPW1 pin | .verifyPW3 pin=>some (cstr pin)
  | .verifyPW1Raw data | .verifyPW3Raw data=>some data
  | _=>none

/-- A PW1 or PW3 verification gets no value short enough for the KDF, or cannot save. -/
def Spares (b : Badge) (i : PinInput) : Prop:=
  ∀ data, i.op.pwCandidate=some data → 64 < data.length ∨ SaveSpares b.chip (i.saves.headD {})

def PinOp.verifies : PinOp→Bool
  | .verifyBadgePin _ | .verifyBadgePinHashCounted _ | .pinStorageVerifyFido2Hash _
  | .verifyPW1 _ | .verifyPW1Raw _ | .verifyPW3 _ | .verifyPW3Raw _=>true
  | _=>false

/-- What may happen besides verifications: `init` at boot, passing time and power cycles. -/
def PinOp.idles : PinOp→Bool
  | .init | .wait _ | .powerCycle=>true
  | _=>false

variable {cr : Crypto} {c : Chip Bytes} {stored : Bytes} {saves : List SaveOutcome} {pm : PinManager}

/-- Nothing has been loaded, and the OpenPGP counters and their mirrors are as after power-on. -/
structure Blocked (pm : PinManager) : Prop where
  unloaded : pm.pinLoaded=false
  inactive : pm.lockoutActive=false
  pw1 : pm.pw1Retries=maxRetries ∧ pm.persistedPw1Retries=maxRetries
  pw3 : pm.pw3Retries=maxRetries ∧ pm.persistedPw3Retries=maxRetries

theorem blocked_initial : Blocked {}:=⟨rfl,rfl,⟨rfl,rfl⟩,⟨rfl,rfl⟩⟩

theorem Blocked.retries (h : Blocked pm) (pw : Pw) :
    pw.retries pm=maxRetries ∧ pw.mirror pm=maxRetries:=by
  cases pw
  · exact h.pw1
  · exact h.pw3

/-- The running operation faces a record that stays unreadable. -/
structure Facing (cr : Crypto) (c : Chip Bytes) (b : Badge) : Prop where
  chip : b.chip=c
  blocked : Blocked b.pm
  loads : ∀ o∈b.loads.headD {}::b.loads, Unreadable cr c o
  session : b.pm.storageUnreadable=true ∨ (b.loads.headD {}).session=true

theorem unreadable_laterLoads {loads : List LoadOutcome} (h : ∀ o∈loads.headD {}::loads, Unreadable cr c o) :
    ∀ o∈(laterLoads loads).headD {}::laterLoads loads, Unreadable cr c o:=by
  match loads, h with
  | [], h=>exact h
  | [o], h=>exact h
  | o::o'::os, h=>
    intro x hx
    refine h x ?_
    simp only [laterLoads,List.headD_cons,List.mem_cons] at hx ⊢
    tauto

/-- The part of `Facing` that does not speak of the session. -/
private structure Steady (cr : Crypto) (c : Chip Bytes) (saves : List SaveOutcome) (b : Badge) : Prop where
  chip : b.chip=c
  blocked : Blocked b.pm
  loads : ∀ o∈b.loads.headD {}::b.loads, Unreadable cr c o
  saves : b.saves=saves

private theorem Blocked.noteUnreadable (h : Blocked pm) (u : Bool) :
    Blocked {pm with storageUnreadable:=u}:=
  ⟨h.unloaded,h.inactive,h.pw1,h.pw3⟩

private theorem steady_noteUnreadable {u : Bool} :
    Triple (Steady cr c saves) (updatePm fun pm=>{pm with storageUnreadable:=u})
      (fun _ b=>Steady cr c saves b ∧ b.pm.storageUnreadable=u) fun _ b=>b.chip=c:=
  Triple.modify fun _ h=>⟨⟨h.chip,h.blocked.noteUnreadable u,h.loads,h.saves⟩,rfl⟩

private theorem steady_seCall {α : Type} {o : SeOutcome}
    {call : Chip Bytes → SeReply α × Chip Bytes} (hcall : ∀ c, (call c).2=c) :
    Triple (Steady cr c saves) (seCall o call)
      (fun reply b=>(Chip.perform o call c).1=some reply ∧ Steady cr c saves b) fun _ b=>b.chip=c:=by
  have hchip : (Chip.perform o call c).2=c:=by
    rw [Chip.perform_chip,hcall]
    split <;> rfl
  refine triple_seCall (fun b hb _ r hr=>?_) fun b hb _=>?_
  · rw [hb.chip] at hr ⊢
    exact ⟨hr,hchip,hb.blocked,hb.loads,hb.saves⟩
  · rw [hb.chip]
    exact hchip

private theorem steady_verifyPayloadSignature {pubKey : SeOutcome} {payload : Bytes}
    {sig : ByteArr 64} (hsig : ∀ key, (Chip.perform pubKey (Chip.eccGetPublicKey attestationEccSlot) c).1 =
      some (.ok key)→key.curve=.p256 → cr.ecdsaVerify (cr.publicKey key) (cr.sha256 payload) sig=false) :
    Triple (Steady cr c saves) (verifyPayloadSignature cr pubKey payload sig)
      (fun valid b=>valid=false ∧ Steady cr c saves b) fun _ b=>b.chip=c:=by
  refine Triple.bind (steady_seCall (Chip.eccGetPublicKey_chip _)) fun reply=>Triple.pre fun hreply=>?_
  cases reply with
  | error e=>exact Triple.pure fun _ h=>⟨rfl,h⟩
  | ok key=>
    refine Triple.ite (fun _=>Triple.pure fun _ h=>⟨rfl,h⟩) fun hcurve=>Triple.pure fun _ h=>⟨?_,h⟩
    exact hsig key hreply (not_not.mp hcurve)

theorem facing_loadFromStorage (saves : List SaveOutcome) :
    Triple (fun b=>Facing cr c b ∧ b.saves=saves) (loadFromStorage cr)
      (fun loaded b=>loaded=false ∧ (Facing cr c b ∧ b.saves=saves) ∧ b.pm.storageUnreadable=true)
      fun _ b=>b.chip=c:=by
  have hnoted : ∀ b : Badge, Steady cr c saves b ∧ b.pm.storageUnreadable=true →
      false=false ∧ (Facing cr c b ∧ b.saves=saves) ∧ b.pm.storageUnreadable=true:=
    fun b h=>⟨rfl,⟨⟨h.1.chip,h.1.blocked,h.1.loads,.inl h.2⟩,h.1.saves⟩,h.2⟩
  refine Triple.bind (Q:=fun o b=>(Unreadable cr c o ∧ (o.session=false→b.pm.storageUnreadable=true)) ∧
    Steady cr c saves b) ?_ fun o=>?_
  · rintro b ⟨h,hs⟩
    refine ⟨⟨h.loads _ (by simp),fun ho=>?_⟩,h.chip,h.blocked,unreadable_laterLoads h.loads,hs⟩
    exact h.session.resolve_right (by rw [ho]; decide)
  refine Triple.ite (fun ho=>Triple.pure fun b hb=>?_) fun _=>?_
  · exact hnoted b ⟨hb.2,hb.1.2 (by simpa using ho)⟩
  refine Triple.named fun b₀ hb₀=>?_
  obtain ⟨⟨hunreadable,-⟩,hsteady⟩:=hb₀
  refine Triple.bind (Q:=fun _=>Steady cr c saves) (Triple.modify ?_) fun _=>?_
  · rintro _ rfl
    exact ⟨hsteady.chip,hsteady.blocked.noteUnreadable _,hsteady.loads,hsteady.saves⟩
  refine Triple.bind (steady_seCall (rmemRead_chip _ _)) fun reply=>Triple.pre fun hreply=>?_
  cases hunreadable with
  | @read e he h=>
    obtain rfl : reply=.error e:=Option.some.inj (hreply.symm.trans h)
    cases e with
    | slotEmpty=>exact absurd rfl he
    | _=>exact Triple.bind steady_noteUnreadable fun _=>Triple.pure hnoted
  | @signature record h hlength hhead hsig=>
    obtain rfl : reply=.ok record:=Option.some.inj (hreply.symm.trans h)
    refine Triple.ite (fun hbad=>?_) fun _=>?_
    · exact absurd hbad (by simp [hlength,hhead])
    refine Triple.bind (steady_verifyPayloadSignature hsig) fun valid=>Triple.pre ?_
    rintro rfl
    exact Triple.bind steady_noteUnreadable fun _=>Triple.pure hnoted
  | powerLost h=>
    have hnone:=Chip.perform_reply_isSome o.read (rmemRead rmemSlotPin storageSize) c
    simp [hreply,h] at hnone

theorem facing_init (saves : List SaveOutcome) :
    Triple (fun b=>Facing cr c b ∧ b.saves=saves) (init cr)
      (fun loaded b=>loaded=false ∧ (Facing cr c b ∧ b.saves=saves) ∧ b.pm.badgeRetries=0)
      fun _ b=>b.chip=c:=by
  refine Triple.bind (Q:=fun loaded b=>loaded=false ∧ Facing cr c b ∧ b.saves=saves)
    (Triple.gets fun b hb=>⟨hb.1.blocked.unloaded,hb⟩) fun loaded=>Triple.pre ?_
  rintro rfl
  refine Triple.ite (fun h=>by simp at h) fun _=>?_
  refine Triple.bind (facing_loadFromStorage saves) fun loaded=>Triple.pre ?_
  rintro rfl
  refine Triple.bind (Q:=fun unreadable b=>unreadable=true ∧ (Facing cr c b ∧ b.saves=saves) ∧
    b.pm.storageUnreadable=true) (Triple.gets fun b hb=>⟨hb.2,hb⟩) fun unreadable=>Triple.pre ?_
  rintro rfl
  refine Triple.ite (fun _=>?_) fun h=>absurd (by simp) h
  refine Triple.bind (Q:=fun _ b=>(Facing cr c b ∧ b.saves=saves) ∧ b.pm.badgeRetries=0)
    (Triple.modify ?_) fun _=>Triple.pure fun _ h=>⟨rfl,h⟩
  rintro b ⟨⟨h,hsaves⟩,hnoted⟩
  exact ⟨⟨⟨h.chip,⟨h.blocked.unloaded,h.blocked.inactive,h.blocked.pw1,h.blocked.pw3⟩,h.loads,.inl hnoted⟩,
    hsaves⟩,rfl⟩

theorem facing_ensureInit (saves : List SaveOutcome) :
    Triple (fun b=>Facing cr c b ∧ b.saves=saves) (ensureInit cr)
      (fun _ b=>(Facing cr c b ∧ b.saves=saves) ∧ b.pm.badgeRetries=0) fun _ b=>b.chip=c:=by
  refine Triple.bind (Q:=fun loaded b=>loaded=false ∧ Facing cr c b ∧ b.saves=saves)
    (Triple.gets fun b hb=>⟨hb.1.blocked.unloaded,hb⟩) fun loaded=>Triple.pre ?_
  rintro rfl
  exact Triple.when (fun _=>Triple.conseq (facing_init saves) (fun _ h=>h) (fun _ _ h=>h.2) fun _ _ h=>h)
    fun h=>absurd (by simp) h

/-- Nothing was written, and the manager is as it was after power-on. -/
def Untouched (c : Chip Bytes) (b : Badge) : Prop:=b.chip=c ∧ Blocked b.pm

theorem untouched_of_facing {b : Badge}
    (h : (Facing cr c b ∧ b.saves=saves) ∧ b.pm.badgeRetries=0) : Untouched c b:=
  ⟨h.1.1.chip,h.1.1.blocked⟩

theorem facing_verifyBadgePinHashCounted (saves : List SaveOutcome) (hashIn : ByteArr 16) :
    Triple (fun b=>Facing cr c b ∧ b.saves=saves) (verifyBadgePinHashCounted cr hashIn)
      (fun answer b=>answer=false ∧ Untouched c b) fun _ b=>b.chip=c:=by
  refine Triple.bind (facing_ensureInit saves) fun _=>?_
  refine Triple.bind (Q:=fun _ b=>(Facing cr c b ∧ b.saves=saves) ∧ b.pm.badgeRetries=0) ?_ fun _=>?_
  · intro b hb
    simp only [checkAndResetExpiredLockout,pmGets,bind_gets,hb.1.1.blocked.inactive]
    exact hb
  refine Triple.bind (Q:=fun retries b=>retries=0 ∧ (Facing cr c b ∧ b.saves=saves) ∧ b.pm.badgeRetries=0)
    (Triple.gets fun b hb=>⟨hb.2,hb⟩) fun retries=>Triple.pre ?_
  rintro rfl
  exact Triple.ite (fun _=>Triple.pure fun b hb=>⟨rfl,untouched_of_facing hb⟩) fun h=>absurd rfl h

private theorem spared_seCall {α : Type} {o : SeOutcome} {call : Chip Bytes → SeReply α × Chip Bytes}
    (hchip : (Chip.perform o call c).2=c) :
    Triple (fun b=>b.chip=c ∧ b.pm=pm) (seCall o call)
      (fun reply b=>(Chip.perform o call c).1=some reply ∧ b.chip=c ∧ b.pm=pm) fun _ b=>b.chip=c:=by
  refine triple_seCall (fun b hb _ r hr=>?_) fun b hb _=>?_
  · rw [hb.1] at hr ⊢
    exact ⟨hr,hchip,hb.2⟩
  · rw [hb.1]
    exact hchip

private theorem spared_replaceRecord {o : SaveOutcome} {record : Bytes}
    (hslot : c.rmem rmemSlotPin=some stored) (ho : o.erase.applied=false) :
    Triple (fun b=>b.chip=c ∧ b.pm=pm) (replaceRecord o record)
      (fun answer b=>answer=false ∧ b.chip=c ∧ b.pm=pm) fun _ b=>b.chip=c:=by
  have hwrite : Chip.rmemWrite rmemSlotPin record c=(.error .slotOccupied,c):=
    Chip.rmemWrite_some (by decide) hslot
  refine Triple.bind (spared_seCall (by rw [Chip.perform_chip,ho]; simp)) fun _=>Triple.pre fun _=>?_
  refine Triple.bind (spared_seCall (by rw [Chip.perform_chip,hwrite]; split <;> rfl)) fun reply=>
    Triple.pre fun hreply=>?_
  cases reply with
  | error e=>exact Triple.pure fun _ h=>⟨rfl,h⟩
  | ok u=>
    obtain ⟨-,hcall⟩:=Chip.perform_ok (Prod.ext hreply rfl)
    simp [hwrite] at hcall

theorem spared_saveToStorage (hslot : c.rmem rmemSlotPin=some stored)
    (hspares : SaveSpares c (saves.headD {})) :
    Triple (fun b=>b.chip=c ∧ b.pm=pm ∧ b.saves=saves) (saveToStorage cr)
      (fun answer b=>answer=false ∧ b.chip=c ∧ b.pm=pm) fun _ b=>b.chip=c:=by
  refine Triple.bind (Q:=fun o b=>o=saves.headD {} ∧ b.chip=c ∧ b.pm=pm)
    (fun b hb=>⟨by rw [← hb.2.2],hb.1,hb.2.1⟩) fun o=>Triple.pre fun ho=>?_
  rw [← ho] at hspares
  refine Triple.ite (fun _=>Triple.pure fun _ h=>⟨rfl,h⟩) fun hsession=>?_
  refine Triple.bind (Q:=fun _ b=>b.chip=c ∧ b.pm=pm) (Triple.gets fun _ h=>h) fun data=>?_
  refine Triple.ite (fun _=>Triple.pure fun _ h=>⟨rfl,h⟩) fun _=>?_
  refine Triple.bind (spared_seCall (by rw [Chip.perform_chip,attestationSign_chip]; split <;> rfl)) fun reply=>
    Triple.pre fun hreply=>?_
  cases reply with
  | error e=>exact Triple.pure fun _ h=>⟨rfl,h⟩
  | ok sig=>
    obtain ⟨hdone,hcall⟩:=Chip.perform_ok (Prod.ext hreply rfl)
    obtain ⟨key,hkey,hcurve,-⟩:=attestationSign_ok hcall
    have herase : o.erase.applied=false:=by
      rcases hspares with h | h | h
      · exact absurd h (by simpa using hsession)
      · exact absurd ⟨hdone,key,hkey,hcurve⟩ h
      · exact h
    refine Triple.bind (Q:=fun _ b=>b.chip=c ∧ b.pm=pm) (Triple.modify fun _ h=>h) fun _=>?_
    exact spared_replaceRecord hslot herase

theorem facing_verifyPinRaw (hslot : c.rmem rmemSlotPin=some stored) (pw : Pw)
    {data : Bytes} (hdata : 64 < data.length ∨ SaveSpares c (saves.headD {})) :
    Triple (fun b=>Facing cr c b ∧ b.saves=saves) (verifyPinRaw cr pw data)
      (fun answer b=>answer=false ∧ Untouched c b) fun _ b=>b.chip=c:=by
  refine Triple.bind (facing_ensureInit saves) fun _=>Triple.named fun b₀ hb₀=>?_
  refine Triple.bind (Q:=fun pm b=>pm=b₀.pm ∧ b=b₀) (Triple.gets ?_) fun pm=>Triple.pre ?_
  · rintro _ rfl
    exact ⟨rfl,rfl⟩
  rintro rfl
  have huntouched:=untouched_of_facing hb₀
  have hretries:=huntouched.2.retries pw
  refine Triple.ite (fun h=>absurd (hretries.1.symm.trans h) (by decide)) fun _=>?_
  split
  · exact Triple.pure fun b hb=>⟨rfl,hb ▸ huntouched⟩
  · rename_i hash hhash
    have hspares : SaveSpares c (saves.headD {}):=by
      refine hdata.resolve_left fun hlong=>?_
      simp [computeKdfHash,hlong] at hhash
    rw [hretries.1,hretries.2]
    refine Triple.bind (Q:=fun _ b=>b.chip=c ∧ b.pm=pw.setRetries (maxRetries-1) b₀.pm ∧ b.saves=saves)
      (Triple.modify ?_) fun _=>?_
    · rintro _ rfl
      exact ⟨huntouched.1,rfl,hb₀.1.2⟩
    rw [if_pos (by decide)]
    refine Triple.bind (spared_saveToStorage hslot hspares) fun saved=>Triple.pre ?_
    rintro rfl
    refine Triple.ite (fun _=>?_) fun h=>absurd (by simp) h
    refine Triple.bind (Q:=fun _=>Untouched c) (Triple.modify ?_) fun _=>Triple.pure fun _ h=>⟨rfl,h⟩
    rintro b ⟨hchip,hpm⟩
    refine ⟨hchip,?_⟩
    have hblocked:=huntouched.2
    cases pw
    all_goals
      rw [hpm]
      exact ⟨hblocked.unloaded,hblocked.inactive,⟨by first | rfl | exact hblocked.pw1.1,hblocked.pw1.2⟩,
        ⟨by first | rfl | exact hblocked.pw3.1,hblocked.pw3.2⟩⟩

theorem facing_run (cr : Crypto) (hslot : c.rmem rmemSlotPin=some stored) {op : PinOp}
    (hop : op.verifies=true ∨ op.idles=true)
    (hdata : ∀ data, op.pwCandidate=some data → 64 < data.length ∨ SaveSpares c (saves.headD {})) :
    Triple (fun b=>Facing cr c b ∧ b.saves=saves) (op.run cr)
      (fun answer b=>(op.verifies=true→answer=false) ∧ Untouched c b) fun _ b=>b.chip=c:=by
  have hweaken : ∀ {m : PinM Bool}, Triple (fun b=>Facing cr c b ∧ b.saves=saves) m
      (fun answer b=>answer=false ∧ Untouched c b) (fun _ b=>b.chip=c) →
      Triple (fun b=>Facing cr c b ∧ b.saves=saves) m
        (fun answer b=>(op.verifies=true→answer=false) ∧ Untouched c b) fun _ b=>b.chip=c:=
    fun h=>Triple.conseq h (fun _ h=>h) (fun _ _ h=>⟨fun _=>h.1,h.2⟩) fun _ _ h=>h
  have hpw : ∀ (pw : Pw) (pin : Bytes), 64 < (cstr pin).length ∨ SaveSpares c (saves.headD {}) →
      Triple (fun b=>Facing cr c b ∧ b.saves=saves) (verifyPw cr pw pin)
        (fun answer b=>answer=false ∧ Untouched c b) fun _ b=>b.chip=c:=
    fun pw pin h=>Triple.bind (facing_ensureInit saves) fun _=>
      Triple.conseq (facing_verifyPinRaw hslot pw h) (fun _ h=>h.1) (fun _ _ h=>h) fun _ _ h=>h
  cases op with
  | init=>
    exact Triple.conseq (facing_init saves) (fun _ h=>h) (fun _ _ h=>⟨fun _=>h.1,untouched_of_facing h.2⟩)
      fun _ _ h=>h
  | verifyBadgePin pin=>
    exact hweaken (Triple.bind (facing_ensureInit saves) fun _=>
      Triple.conseq (facing_verifyBadgePinHashCounted saves _) (fun _ h=>h.1) (fun _ _ h=>h) fun _ _ h=>h)
  | verifyBadgePinHashCounted hashIn=>exact hweaken (facing_verifyBadgePinHashCounted saves hashIn)
  | pinStorageVerifyFido2Hash hashIn=>
    exact hweaken (Triple.bind (facing_init saves) fun _=>
      Triple.conseq (facing_verifyBadgePinHashCounted saves hashIn) (fun _ h=>h.2.1) (fun _ _ h=>h) fun _ _ h=>h)
  | verifyPW1 pin | verifyPW3 pin=>exact hweaken (hpw _ pin (hdata _ rfl))
  | verifyPW1Raw data | verifyPW3Raw data=>exact hweaken (facing_verifyPinRaw hslot _ (hdata data rfl))
  | wait ms=>exact fun b hb=>⟨fun h=>by simp [PinOp.verifies] at h,hb.1.chip,hb.1.blocked⟩
  | powerCycle=>exact Triple.stop fun b hb=>hb.1.chip
  | _=>simp [PinOp.verifies,PinOp.idles] at hop

/-- A step that faces an unreadable record with a session, and cannot save, verifies nothing and
leaves the record where it is. -/
theorem blocked_step {b : Badge} {i : PinInput} (hslot : b.chip.rmem rmemSlotPin=some stored) (hb : Blocked b.pm)
    (hop : i.op.verifies=true ∨ i.op.idles=true) (hunreadable : StaysUnreadable cr b i)
    (hsession : SessionAtLoad b i) (hspares : Spares b i) :
    (i.op.verifies=true→(respond cr b i).1≠some true) ∧
      (step cr b i).chip.rmem rmemSlotPin=some stored ∧ Blocked (step cr b i).pm:=by
  have hrun:=facing_run cr hslot hop hspares (b.given i)
    ⟨⟨rfl,hb,hunreadable,hsession⟩,rfl⟩
  unfold step respond
  revert hrun
  cases i.op.run cr (b.given i) with
  | mk r b'=>cases r with
    | ok answer=>
      rintro ⟨hanswer,hchip,hblocked⟩
      exact ⟨fun h=>by simp [hanswer h],hchip ▸ hslot,hblocked⟩
    | error e=>
      intro hchip
      refine ⟨fun _=>by simp,?_,blocked_initial⟩
      show b'.chip.rmem rmemSlotPin=some stored
      rw [hchip]
      exact hslot

/-- Fail-closed: while the record stays unreadable, with the session up at the first load and no
PW1 or PW3 verification that can save, no verification succeeds and the record stays. -/
theorem unreadable_fails_closed (cr : Crypto) {b : Badge} (hpm : b.pm={})
    (hslot : b.chip.rmem rmemSlotPin=some stored) (is : List PinInput)
    (hops : AlongRun (step cr) (fun _ i=>i.op.verifies=true ∨ i.op.idles=true) b is)
    (hunreadable : AlongRun (step cr) (StaysUnreadable cr) b is)
    (hcond : AlongRun (step cr) (fun b i=>SessionAtLoad b i ∧ Spares b i) b is) :
    AlongRun (step cr) (fun b i=>i.op.verifies=true→(respond cr b i).1≠some true) b is ∧
      (run (step cr) b is).chip.rmem rmemSlotPin=some stored:=by
  have hb : Blocked b.pm:=hpm ▸ blocked_initial
  clear hpm
  induction is generalizing b with
  | nil=>exact ⟨trivial,hslot⟩
  | cons i is ih=>
    obtain ⟨hanswer,hslot',hb'⟩:=blocked_step hslot hb hops.1 hunreadable.1 hcond.1.1 hcond.1.2
    obtain ⟨hrest,hend⟩:=ih hslot' hops.2 hunreadable.2 hcond.2 hb'
    exact ⟨⟨hanswer,hrest⟩,hend⟩

def unreadableLoad : LoadOutcome:={read:=.failed .error false}

theorem staysUnreadable_failedRead (b : Badge) (op : PinOp) (saves : List SaveOutcome) :
    StaysUnreadable cr b {op:=op,loads:=[unreadableLoad],saves:=saves}:=by
  intro o ho
  obtain rfl : o=unreadableLoad:=by simpa using ho
  exact .read (e:=.error) (by decide) rfl

/-- A FIDO2 hash, a wrong PW1 whose save cannot be signed, and a PW3 too long for the KDF. -/
def sparingVerifications : List PinInput:=
  [{op:=.pinStorageVerifyFido2Hash (zeros 16),loads:=[unreadableLoad]},
    {op:=.verifyPW1Raw [0x39],loads:=[unreadableLoad],saves:=[{sign:=.failed .error false}]},
    {op:=.verifyPW3Raw (List.replicate 65 0x39),loads:=[unreadableLoad]}]

theorem unreadable_fails_closed_sparing :
    AlongRun (step Crypto.plain) (fun b i=>i.op.verifies=true→(respond Crypto.plain b i).1≠some true)
        (provisioned (some (signedRecord oneByteRecord))) sparingVerifications ∧
      (run (step Crypto.plain) (provisioned (some (signedRecord oneByteRecord))) sparingVerifications).chip.rmem
        rmemSlotPin=some (signedRecord oneByteRecord):=by
  refine unreadable_fails_closed Crypto.plain rfl rfl sparingVerifications ⟨.inl rfl,.inl rfl,.inl rfl,trivial⟩
    ⟨staysUnreadable_failedRead _ _ _,staysUnreadable_failedRead _ _ _,staysUnreadable_failedRead _ _ _,trivial⟩
    ⟨⟨.inr rfl,?_⟩,⟨.inr rfl,?_⟩,⟨.inr rfl,?_⟩,trivial⟩
  · intro data h
    simp [PinOp.pwCandidate] at h
  · exact fun data _=>.inr (.inr (.inl fun h=>by simp at h))
  · rintro data h
    obtain rfl:=Option.some.inj h
    exact .inl (by decide)

def frontCrypto : Crypto:={ Crypto.plain with
  sha256:=fun message=>fit 32 message }

def unsignedRecord : Bytes:=payload oneByteRecord++List.replicate 64 0

/-- A wrong PW1 guess over a record that does not verify replaces the record. -/
theorem unreadable_replaced : ¬ ∀ (cr : Crypto) (b : Badge) (stored : Bytes) (is : List PinInput), b.pm={} →
    b.chip.rmem rmemSlotPin=some stored →
    AlongRun (step cr) (fun _ i=>i.op.verifies=true ∨ i.op.idles=true) b is →
    AlongRun (step cr) (StaysUnreadable cr) b is →
    AlongRun (step cr) (fun b i=>i.op.verifies=true→(respond cr b i).1≠some true) b is ∧
      (run (step cr) b is).chip.rmem rmemSlotPin=some stored:=by
  intro h
  have hunreadable : StaysUnreadable frontCrypto (provisioned (some unsignedRecord)) {op:=.verifyPW1Raw [0x39]}:=by
    intro o ho
    obtain rfl : o={}:=by simpa using ho
    have hread : rmemRead rmemSlotPin storageSize (provisioned (some unsignedRecord)).chip =
        (.ok unsignedRecord,(provisioned (some unsignedRecord)).chip):=by
      rw [rmemRead,Chip.rmemRead_some (by decide) rfl]
      exact if_neg (by decide +kernel)
    have hreply : (Chip.perform .done (rmemRead rmemSlotPin storageSize) (provisioned (some unsignedRecord)).chip).1 =
        some (.ok unsignedRecord):=by
      rw [Chip.perform,hread]
    refine .signature hreply (by decide +kernel) (by decide +kernel) fun key hkey _=>?_
    obtain rfl : attestationKey=key:=by
      rw [Chip.perform,Chip.eccGetPublicKey_some (by decide) rfl] at hkey
      exact Except.ok.inj (Option.some.inj hkey)
    decide +kernel
  have hrun:=(h frontCrypto (provisioned (some unsignedRecord)) unsignedRecord [{op:=.verifyPW1Raw [0x39]}] rfl rfl
    ⟨.inl rfl,trivial⟩ ⟨hunreadable,trivial⟩).2
  revert hrun
  decide +kernel

end CdcBadge.Pin
