import CdcBadge.CborHeads
import CdcBadge.PivKeyLife

/-!
# PIV keys that are replaced

`GENERATE ASYMMETRIC KEY PAIR` clears the slot of the old key before there is a new one. What is left
of the old key where the new one is not answered, and what the slot of 9D holds in every run.
-/

namespace CdcBadge.Piv

open Handler
open Pin (Badge PowerLost)

/-- The outcomes of clearing a cell, of writing to it and of reading it back, the errors of the first that are passed
over, and what is written. -/
structure Replacing (α : Type) where
  erase : SeOutcome
  write : SeOutcome
  read : SeOutcome
  passed : SeError→Bool
  new : α

namespace Replacing

variable {α : Type} (r : Replacing α)

def erased : Bool:=r.erase.applied

def goesOn : Bool:=
  match r.erase with
  | .done=>true
  | .failed e _=>r.passed e
  | .powerLost _=>false

def put : Bool:=r.goesOn && r.write.applied

def told : Bool:=r.goesOn && r.write=.done && r.read=.done

def cleared (old : Option α) : Option α:=if r.erased then none else old

def cell (old : Option α) : Option α:=
  if (r.cleared old).isNone && r.put then some r.new else r.cleared old

/-- The old value is not cleared, or it gives way to a new one that is told of, or the new one is the same. -/
def Spares (old : α) : Prop:=r.erased=true → r.told=true ∨ r.put=true ∧ r.new=old

theorem cell_some (old : α) : r.cell (some old)=if r.erased then (if r.put then some r.new else none) else some old:=by
  unfold cell cleared
  split <;> simp

theorem cell_eq_iff (old : α) : r.cell (some old)=some old ↔ (r.erased=true → r.put=true ∧ r.new=old):=by
  rw [cell_some]
  split_ifs <;> simp_all

theorem spares_iff (old : α) :
    (¬(r.erased=true ∧ r.told=true) → r.cell (some old)=some old) ↔ r.Spares old:=by
  rw [cell_eq_iff,Spares]
  constructor
  · intro h herased
    by_cases htold : r.told=true
    · exact .inl htold
    · exact .inr (h (fun hboth=>htold hboth.2) herased)
  · intro h hnot herased
    exact (h herased).resolve_left fun htold=>hnot ⟨herased,htold⟩

end Replacing

/-- A key of the chip, or a scalar in R-Memory. -/
inductive HeldKey
  | ecc (key : EccKey)
  | scalar (value : ByteArr 32)
  deriving DecidableEq

/-- What `load9dScalar` makes of what it reads. -/
def scalarOf (data : Bytes) : Option (ByteArr 32):=
  match readHeadered 97 data with
  | .error _=>none
  | .ok (moduleId,blob)=>if blob.length < 32 ∨ moduleId≠moduleIdPiv then none else some (fit 32 blob)

def scalarIn (c : Chip Bytes) : Option (ByteArr 32):=(c.rmem slot9D).bind scalarOf

def heldKey (keyRef : UInt8) (c : Chip Bytes) : Option HeldKey:=
  match eccSlotFor keyRef with
  | some slot=>(c.ecc slot).map .ecc
  | none=>if keyRef=key9D then (scalarIn c).map .scalar else none

def HeldKey.point (cr : PivCrypto) : HeldKey→Option (ByteArr 65)
  | .ecc key=>some (uncompressed (cr.publicKey key))
  | .scalar value=>(cr.scalarPublic value).map uncompressed

def heldPoint (cr : PivCrypto) (keyRef : UInt8) (c : Chip Bytes) : Option (ByteArr 65):=
  (heldKey keyRef c).bind (HeldKey.point cr)

/-- The errors of the erase that `rmemWriteWithHeader` passes over. -/
def isSlotEmpty (e : SeError) : Bool:=e=.slotEmpty

/-- How a generation is to replace the key of a reference; none where it stops before it comes to the old key. -/
def replacing (cr : PivCrypto) (keyRef : UInt8) (e : Env) : Option (Replacing HeldKey):=
  let first:=e.calls.headD .done
  let second:=e.calls.tail.headD .done
  match eccSlotFor keyRef with
  | some _=>some ⟨first,second,e.calls.tail.tail.headD .done,fun _=>true,.ecc ⟨.p256,e.secrets.headD 0⟩⟩
  | none=>if keyRef=key9D then
      ((e.strict.headD (some [])).map (fit 32)).bind fun value=>(cr.scalarPublic value).map fun _=>
        ⟨first,second,.done,isSlotEmpty,.scalar value⟩
    else none

def answered {α : Type} (o : SeOutcome) (reply : SeReply α) : Except PowerLost (SeReply α):=
  match o with
  | .done=>.ok reply
  | .failed e _=>.ok (.error e)
  | .powerLost _=>.error ⟨⟩

def Keys.called (k : Keys) : Keys:={k with env:={k.env with calls:=k.env.calls.tail}}

theorem seCall_run {α : Type} (call : Chip Bytes → SeReply α × Chip Bytes) (k : Keys) :
    seCall call k=(answered (k.env.calls.headD .done) (call k.badge.chip).1,
      (k.withChip (if (k.env.calls.headD .done).applied then (call k.badge.chip).2 else k.badge.chip)).called):=by
  have hnext : nextCall k=(.ok (k.env.calls.headD .done),k.called):=rfl
  unfold seCall
  rw [bind_of_ok hnext]
  unfold onPins zoom Pin.seCall
  cases k.env.calls.headD .done <;> rfl

theorem seCall_reads {α : Type} {call : Chip Bytes → SeReply α × Chip Bytes} (h : ∀ c, (call c).2=c) (k : Keys) :
    seCall call k=(answered (k.env.calls.headD .done) (call k.badge.chip).1,k.called):=by
  rw [seCall_run,h,ite_self]
  rfl

def loaded (o : SeOutcome) (value : Option (ByteArr 32)) : Except PowerLost (Option (ByteArr 32)):=
  match o with
  | .done=>.ok value
  | .failed _ _=>.ok none
  | .powerLost _=>.error ⟨⟩

theorem load9dScalar_run (k : Keys) :
    load9dScalar k=(loaded (k.env.calls.headD .done) (scalarIn k.badge.chip),k.called):=by
  unfold load9dScalar rmemReadWithHeader
  rw [bind_assoc,bind_apply,seCall_reads (Chip.rmemRead_chip _)]
  cases k.env.calls.headD .done with
  | done=>
    unfold answered loaded scalarIn
    cases hdata : k.badge.chip.rmem slot9D with
    | none=>
      rw [Chip.rmemRead_none (by decide) hdata]
      rfl
    | some data=>
      rw [Chip.rmemRead_some (by decide) hdata]
      dsimp only [Option.bind_some]
      unfold scalarOf
      cases readHeadered 97 data with
      | error e=>rfl
      | ok record=>
        change (if record.2.length < 32 ∨ record.1≠moduleIdPiv then pure none else pure (some (fit 32 record.2)) :
          KeysM (Option (ByteArr 32))) k.called=(.ok (if record.2.length < 32 ∨ record.1≠moduleIdPiv then none
            else some (fit 32 record.2)),k.called)
        split <;> rfl
  | failed e applied=>rfl
  | powerLost applied=>rfl

/-- What the key of a reference answers. -/
structure Uses where
  present : Except PowerLost Bool
  sign : ByteArr 32 → Except PowerLost (Option (ByteArr 64))
  agree : ByteArr 65 → Except PowerLost (Option (ByteArr 32))

def Keys.uses (cr : PivCrypto) (keyRef : UInt8) (k : Keys) (e : Env) : Uses where
  present:=(cbKeyPresent keyRef (k.given e)).1
  sign digest:=(cbKeySign cr keyRef digest (k.given e)).1
  agree peer:=if keyRef=key9D then (cbKeyEcdh cr peer (k.given e)).1 else .ok none

section Uses

variable {cr : PivCrypto} {keyRef : UInt8} {k k' : Keys}

theorem heldKey_ecc {slot : ℕ} (hslot : eccSlotFor keyRef=some slot) (c : Chip Bytes) :
    heldKey keyRef c=(c.ecc slot).map .ecc:=by
  unfold heldKey
  rw [hslot]

theorem heldKey_9d (c : Chip Bytes) : heldKey key9D c=(scalarIn c).map .scalar:=rfl

theorem ecc_of_heldKey {slot : ℕ} (hslot : eccSlotFor keyRef=some slot) {c d : Chip Bytes}
    (h : heldKey keyRef d=heldKey keyRef c) : d.ecc slot=c.ecc slot:=by
  rw [heldKey_ecc hslot,heldKey_ecc hslot] at h
  exact Option.map_injective (fun _ _ heq=>HeldKey.ecc.inj heq) h

theorem scalarIn_of_heldKey {c d : Chip Bytes} (h : heldKey key9D d=heldKey key9D c) : scalarIn d=scalarIn c:=by
  rw [heldKey_9d,heldKey_9d] at h
  exact Option.map_injective (fun _ _ heq=>HeldKey.scalar.inj heq) h

theorem eccGetPublicKey_congr {slot : ℕ} {c d : Chip Bytes} (h : d.ecc slot=c.ecc slot) :
    (Chip.eccGetPublicKey slot d).1=(Chip.eccGetPublicKey slot c).1:=by
  unfold Chip.eccGetPublicKey
  rw [h]
  split
  · rfl
  · split <;> rfl

theorem ecdsaSignDigest_congr {slot : ℕ} {c d : Chip Bytes} (h : d.ecc slot=c.ecc slot) (nonce : ℕ) (digest : ByteArr 32) :
    (ecdsaSignDigest cr slot nonce digest d).1=(ecdsaSignDigest cr slot nonce digest c).1:=by
  unfold ecdsaSignDigest Chip.eccSigningKey
  rw [h]
  split_ifs
  · rfl
  · cases c.ecc slot with
    | none=>rfl
    | some key=>
      dsimp only
      split <;> rfl

theorem bind_reads_congr {α β : Type} {call : Chip Bytes → SeReply α × Chip Bytes} (hreads : ∀ c, (call c).2=c)
    (hcall : (call k'.badge.chip).1=(call k.badge.chip).1) (henv : k'.env=k.env) {f : SeReply α→KeysM β}
    (hf : ∀ reply, (f reply k'.called).1=(f reply k.called).1) : ((seCall call >>= f) k').1=((seCall call >>= f) k).1:=by
  rw [bind_apply,bind_apply,seCall_reads hreads,seCall_reads hreads,hcall,henv]
  cases answered (k.env.calls.headD .done) (call k.badge.chip).1 with
  | error e=>rfl
  | ok reply=>exact hf reply

theorem bind_load_congr {β : Type} (hscalar : scalarIn k'.badge.chip=scalarIn k.badge.chip) (henv : k'.env=k.env)
    {f : Option (ByteArr 32)→KeysM β} (hf : ∀ scalar, (f scalar k'.called).1=(f scalar k.called).1) :
    ((load9dScalar >>= f) k').1=((load9dScalar >>= f) k).1:=by
  rw [bind_apply,bind_apply,load9dScalar_run,load9dScalar_run,hscalar,henv]
  cases loaded (k.env.calls.headD .done) (scalarIn k.badge.chip) with
  | error e=>rfl
  | ok scalar=>exact hf scalar

theorem uses_of_heldKey (h : heldKey keyRef k'.badge.chip=heldKey keyRef k.badge.chip) (e : Env) :
    k'.uses cr keyRef e=k.uses cr keyRef e:=by
  have hpresent : (cbKeyPresent keyRef (k'.given e)).1=(cbKeyPresent keyRef (k.given e)).1:=by
    unfold cbKeyPresent
    cases hslot : eccSlotFor keyRef with
    | some slot=>
      have hecc:=ecc_of_heldKey hslot h
      refine @bind_reads_congr (k.given e) (k'.given e) _ _ _ (Chip.eccGetPublicKey_chip slot) (eccGetPublicKey_congr hecc) rfl
        _ fun reply=>?_
      cases reply <;> rfl
    | none=>
      by_cases href : keyRef=key9D
      · subst href
        exact @bind_load_congr (k.given e) (k'.given e) _ (scalarIn_of_heldKey h) rfl _ fun _=>rfl
      · dsimp only
        rw [if_neg href]
        rfl
  have hsign (digest : ByteArr 32) :
      (cbKeySign cr keyRef digest (k'.given e)).1=(cbKeySign cr keyRef digest (k.given e)).1:=by
    unfold cbKeySign
    cases hslot : eccSlotFor keyRef with
    | some slot=>
      have hecc:=ecc_of_heldKey hslot h
      have hcall:=@ecdsaSignDigest_congr cr _ _ _ hecc (e.nonces.headD 0) digest
      let drawn (k : Keys) : Keys:={k.given e with env:={e with nonces:=e.nonces.tail}}
      refine @bind_reads_congr (drawn k) (drawn k') _ _ _ (ecdsaSignDigest_chip cr slot _ digest) hcall rfl _ fun reply=>?_
      cases reply <;> rfl
    | none=>
      by_cases href : keyRef=key9D
      · subst href
        refine @bind_load_congr (k.given e) (k'.given e) _ (scalarIn_of_heldKey h) rfl _ fun scalar=>?_
        cases scalar <;> rfl
      · dsimp only
        rw [if_neg href]
        rfl
  have hagree (peer : ByteArr 65) : (if keyRef=key9D then (cbKeyEcdh cr peer (k'.given e)).1 else .ok none) =
      if keyRef=key9D then (cbKeyEcdh cr peer (k.given e)).1 else .ok none:=by
    split
    · rename_i href
      subst href
      refine @bind_load_congr (k.given e) (k'.given e) _ (scalarIn_of_heldKey h) rfl _ fun scalar=>?_
      cases scalar <;> rfl
    · rfl
  unfold Keys.uses
  rw [hpresent,funext hsign,funext hagree]

end Uses

theorem eccDelete_cell {slot : ℕ} (hslot : slot < Chip.eccSlotCount) (b : Bool) (c : Chip Bytes) :
    (if b then (Chip.eccDelete slot c).2 else c).ecc slot=if b then none else c.ecc slot:=by
  rw [Chip.eccDelete,if_neg (Nat.not_le.mpr hslot)]
  cases b with
  | false=>rfl
  | true=>exact Function.update_self ..

theorem eccGenerate_cell {slot : ℕ} (hslot : slot < Chip.eccSlotCount) (key : EccKey) (b : Bool) (c : Chip Bytes) :
    (if b then (Chip.eccGenerate slot key c).2 else c).ecc slot =
      if (c.ecc slot).isNone && b then some key else c.ecc slot:=by
  rw [Chip.eccGenerate,if_neg (Nat.not_le.mpr hslot)]
  cases b with
  | false=>simp
  | true=>
    cases hcell : c.ecc slot with
    | none=>exact Function.update_self ..
    | some old=>exact hcell

theorem rmemErase_cell {slot : ℕ} (hslot : slot < Chip.rmemSlotCount) (b : Bool) (c : Chip Bytes) :
    (if b then (Chip.rmemErase slot c).2 else c).rmem slot=if b then none else c.rmem slot:=by
  rw [Chip.rmemErase_lt hslot]
  cases b with
  | false=>rfl
  | true=>exact Function.update_self ..

theorem rmemWrite_cell {slot : ℕ} (hslot : slot < Chip.rmemSlotCount) (data : Bytes) (b : Bool) (c : Chip Bytes) :
    (if b then (Chip.rmemWrite slot data c).2 else c).rmem slot =
      if (c.rmem slot).isNone && b then some data else c.rmem slot:=by
  cases b with
  | false=>simp
  | true=>
    cases hcell : c.rmem slot with
    | none=>
      rw [Chip.rmemWrite_none hslot hcell]
      exact Function.update_self ..
    | some old=>
      rw [Chip.rmemWrite_some hslot hcell]
      exact hcell

/-- What comes of a write into a cell and of what is read back from it. -/
structure Wrote {α : Type} (cell : Keys→Option α) (new : α) (write read : SeOutcome) (point : ByteArr 65) (k : Keys)
    (r : Except PowerLost (Option (ByteArr 65)) × Keys) : Prop where
  holds : cell r.2=if (cell k).isNone && write.applied then some new else cell k
  told : ∀ pub, r.1=.ok (some pub) ↔ (cell k=none ∧ write=.done ∧ read=.done) ∧ pub=point

section Generation

variable {cr : PivCrypto}

def generateInto (cr : PivCrypto) (slot : ℕ) (key : EccKey) : KeysM (Option (ByteArr 65)):=do
  match ← seCall (Chip.eccGenerate slot key) with
  | .error _=>pure none
  | .ok _=>eccPubkey cr slot

theorem eccPubkey_run {slot : ℕ} (hslot : slot < Chip.eccSlotCount) {k : Keys} {key : EccKey}
    (h : k.badge.chip.ecc slot=some key) (pub : ByteArr 65) : (eccPubkey cr slot k).1=.ok (some pub) ↔
      k.env.calls.headD .done=.done ∧ pub=uncompressed (cr.publicKey key):=by
  unfold eccPubkey
  rw [bind_apply,seCall_reads (Chip.eccGetPublicKey_chip slot),Chip.eccGetPublicKey_some hslot h]
  cases k.env.calls.headD .done with
  | done=>
    change (Except.ok (some (uncompressed (cr.publicKey key))) : Except PowerLost _)=.ok (some pub) ↔ _
    simp [eq_comm]
  | failed e applied=>simp [answered]
  | powerLost applied=>simp [answered]

theorem eccPubkey_chip (slot : ℕ) (k : Keys) : (eccPubkey cr slot k).2.badge.chip=k.badge.chip:=by
  unfold eccPubkey
  rw [bind_apply,seCall_reads (Chip.eccGetPublicKey_chip slot)]
  cases answered (k.env.calls.headD .done) (Chip.eccGetPublicKey slot k.badge.chip).1 with
  | error e=>rfl
  | ok reply=>cases reply <;> rfl

theorem generateInto_wrote {slot : ℕ} (hslot : slot < Chip.eccSlotCount) (key : EccKey) (k : Keys) :
    Wrote (fun k=>k.badge.chip.ecc slot) key (k.env.calls.headD .done) (k.env.calls.tail.headD .done)
      (uncompressed (cr.publicKey key)) k (generateInto cr slot key k):=by
  have hcell:=eccGenerate_cell hslot key (k.env.calls.headD .done).applied k.badge.chip
  unfold generateInto
  rw [bind_apply,seCall_run]
  set t : Keys:=(k.withChip (if (k.env.calls.headD .done).applied then (Chip.eccGenerate slot key k.badge.chip).2
    else k.badge.chip)).called with ht
  have hkept : t.badge.chip.ecc slot=if (k.badge.chip.ecc slot).isNone && (k.env.calls.headD .done).applied then some key
      else k.badge.chip.ecc slot:=hcell
  have hcalls : t.env.calls=k.env.calls.tail:=rfl
  cases ho : k.env.calls.headD .done with
  | done=>
    rw [ho] at hkept
    cases hempty : k.badge.chip.ecc slot with
    | none=>
      rw [hempty] at hkept
      have hkey : t.badge.chip.ecc slot=some key:=hkept
      have hgenerate : (Chip.eccGenerate slot key k.badge.chip).1=.ok ():=by
        rw [Chip.eccGenerate,if_neg (Nat.not_le.mpr hslot),hempty]
      rw [hgenerate]
      refine ⟨?_,fun pub=>?_⟩
      · change (eccPubkey cr slot t).2.badge.chip.ecc slot=_
        rw [eccPubkey_chip,hkey,hempty]
        rfl
      · change (eccPubkey cr slot t).1=.ok (some pub) ↔ _
        rw [eccPubkey_run hslot hkey,hcalls]
        simp [hempty]
    | some old=>
      rw [hempty] at hkept
      have hgenerate : (Chip.eccGenerate slot key k.badge.chip).1=.error .slotOccupied:=by
        rw [Chip.eccGenerate,if_neg (Nat.not_le.mpr hslot),hempty]
      rw [hgenerate]
      refine ⟨?_,fun pub=>?_⟩
      · rw [hempty]
        exact hkept
      · simp [answered,hempty]
  | failed e applied=>
    rw [ho] at hkept
    exact ⟨hkept,fun pub=>by simp [answered]⟩
  | powerLost applied=>
    rw [ho] at hkept
    exact ⟨hkept,fun pub=>by simp [answered]⟩

/-- What comes of a cell that is cleared and written. -/
structure Replaced {α : Type} (cell : Keys→Option α) (r : Replacing α) (point : ByteArr 65) (k : Keys)
    (run : Except PowerLost (Option (ByteArr 65)) × Keys) : Prop where
  holds : cell run.2=r.cell (cell k)
  told : ∀ pub, run.1=.ok (some pub) ↔ (r.cleared (cell k)=none ∧ r.told=true) ∧ pub=point

theorem Wrote.replaced {α : Type} {cell : Keys→Option α} {r : Replacing α} {point : ByteArr 65} {k t : Keys}
    {run : Except PowerLost (Option (ByteArr 65)) × Keys} (h : Wrote cell r.new r.write r.read point t run)
    (hgoes : r.goesOn=true) (hcell : cell t=r.cleared (cell k)) : Replaced cell r point k run:=by
  refine ⟨?_,fun pub=>?_⟩
  · rw [h.holds,hcell,Replacing.cell,Replacing.put,hgoes,Bool.true_and]
  · rw [h.told,hcell,Replacing.told,hgoes]
    simp

theorem Replaced.of_stopped {α : Type} {cell : Keys→Option α} {r : Replacing α} {point : ByteArr 65} {k : Keys}
    {run : Except PowerLost (Option (ByteArr 65)) × Keys} (hgoes : r.goesOn=false) (hcell : cell run.2=r.cleared (cell k))
    (hrun : ∀ pub, run.1≠.ok (some pub)) : Replaced cell r point k run:=by
  refine ⟨?_,fun pub=>?_⟩
  · rw [hcell,Replacing.cell,Replacing.put,hgoes]
    simp
  · rw [Replacing.told,hgoes]
    simpa using hrun pub

theorem Replaced.cases {α : Type} {cell : Keys→Option α} {r : Replacing α} {point : ByteArr 65} {k : Keys}
    {run : Except PowerLost (Option (ByteArr 65)) × Keys} (h : Replaced cell r point k run) :
    cell run.2=some r.new ∨ cell run.2=none ∨ cell run.2=cell k:=by
  rw [h.holds]
  unfold Replacing.cell Replacing.cleared
  split_ifs <;> simp

theorem generateEcc_replaced {slot : ℕ} (hslot : slot < Chip.eccSlotCount) (k : Keys) :
    Replaced (fun k=>k.badge.chip.ecc slot)
      ⟨k.env.calls.headD .done,k.env.calls.tail.headD .done,k.env.calls.tail.tail.headD .done,fun _=>true,
        ⟨.p256,k.env.secrets.headD 0⟩⟩
      (uncompressed (cr.publicKey ⟨.p256,k.env.secrets.headD 0⟩)) k (generateEcc cr slot k):=by
  set r : Replacing EccKey:=⟨k.env.calls.headD .done,k.env.calls.tail.headD .done,k.env.calls.tail.tail.headD .done,
    fun _=>true,⟨.p256,k.env.secrets.headD 0⟩⟩ with hr
  set t : Keys:=(k.withChip (if (k.env.calls.headD .done).applied then (Chip.eccDelete slot k.badge.chip).2
    else k.badge.chip)).called with ht
  have hcell : t.badge.chip.ecc slot=r.cleared (k.badge.chip.ecc slot):=eccDelete_cell hslot _ _
  have hdelete : seCall (Chip.eccDelete slot) k =
      (answered (k.env.calls.headD .done) (Chip.eccDelete slot k.badge.chip).1,t):=seCall_run _ k
  have hwrote : Wrote (fun k=>k.badge.chip.ecc slot) r.new r.write r.read (uncompressed (cr.publicKey r.new)) t
      ((nextSecret >>= fun secret=>generateInto cr slot ⟨.p256,secret⟩) t):=by
    have hinto:=@generateInto_wrote cr slot hslot r.new {t with env:={t.env with secrets:=t.env.secrets.tail}}
    exact ⟨hinto.holds,hinto.told⟩
  unfold generateEcc
  rw [bind_apply,hdelete]
  cases ho : k.env.calls.headD .done with
  | done=>exact hwrote.replaced (by rw [Replacing.goesOn,hr,ho]) hcell
  | failed e applied=>exact hwrote.replaced (by rw [Replacing.goesOn,hr,ho]) hcell
  | powerLost applied=>exact .of_stopped (by rw [Replacing.goesOn,hr,ho]) hcell (by simp [answered])

def recordInto (data : Bytes) (pub : ByteArr 65) : KeysM (Option (ByteArr 65)):=do
  match ← seCall (Chip.rmemWrite slot9D data) with
  | .error _=>pure none
  | .ok _=>pure (some pub)

theorem recordInto_wrote (data : Bytes) (point : ByteArr 65) (k : Keys) :
    Wrote (fun k=>k.badge.chip.rmem slot9D) data (k.env.calls.headD .done) .done point k (recordInto data point k):=by
  have hslot : slot9D < Chip.rmemSlotCount:=by decide
  have hcell:=rmemWrite_cell hslot data (k.env.calls.headD .done).applied k.badge.chip
  unfold recordInto
  rw [bind_apply,seCall_run]
  cases ho : k.env.calls.headD .done with
  | done=>
    rw [ho] at hcell
    cases hempty : k.badge.chip.rmem slot9D with
    | none=>
      rw [Chip.rmemWrite_none hslot hempty] at hcell ⊢
      exact ⟨hcell,fun pub=>by simp [answered,hempty,eq_comm (a:=pub)]⟩
    | some old=>
      rw [Chip.rmemWrite_some hslot hempty] at hcell ⊢
      exact ⟨hcell,fun pub=>by simp [answered,hempty]⟩
  | failed e applied=>
    rw [ho] at hcell
    exact ⟨hcell,fun pub=>by simp [answered]⟩
  | powerLost applied=>
    rw [ho] at hcell
    exact ⟨hcell,fun pub=>by simp [answered]⟩

end Generation

namespace Replacing

variable {α β : Type}

def renew (r : Replacing α) (x : β) : Replacing β:={r with new:=x}

theorem cell_bind (r : Replacing α) {read : α→Option β} {old : α} {old' new' : β} (hold : read old=some old')
    (hnew : read r.new=some new') : (r.cell (some old)).bind read=(r.renew new').cell (some old'):=by
  rw [cell_some,cell_some]
  change _=if r.erased=true then (if r.put=true then some new' else none) else some old'
  split_ifs <;> simp [hold,hnew]

theorem cell_told (r : Replacing α) {old : Option α} (hcleared : r.cleared old=none) (htold : r.told=true) :
    r.cell old=some r.new:=by
  unfold told at htold
  rw [Bool.and_eq_true,Bool.and_eq_true,decide_eq_true_eq] at htold
  rw [cell,hcleared,put,htold.1.1,htold.1.2]
  rfl

theorem cleared_some (r : Replacing α) (old : α) : r.cleared (some old)=none ↔ r.erased=true:=by
  unfold cleared
  split <;> simp_all

end Replacing

def record9d (value : ByteArr 32) (publicKey : ByteArr 64) : Bytes:=
  headered moduleIdPiv 0 name9D (value.toList++(uncompressed publicKey).toList)

theorem scalarOf_record9d (value : ByteArr 32) (publicKey : ByteArr 64) : scalarOf (record9d value publicKey)=some value:=by
  have hlen : (value.toList++(uncompressed publicKey).toList).length=97:=by simp
  unfold scalarOf record9d
  rw [readHeadered_headered (by rw [hlen]; decide),if_neg (by omega)]
  dsimp only
  rw [if_neg (by simp [hlen]),fit_append]

section Held

variable {cr : PivCrypto} {k : Keys}

theorem generate9d_stopped (h : ((k.env.strict.headD (some [])).map (fit 32)).bind cr.scalarPublic=none) :
    (generate9d cr k).1=.ok none ∧ (generate9d cr k).2.badge.chip=k.badge.chip:=by
  unfold generate9d
  rw [bind_nextStrict]
  cases hdrawn : (k.env.strict.headD (some [])).map (fit 32) with
  | none=>exact ⟨rfl,rfl⟩
  | some value=>
    rw [hdrawn] at h
    have hpublic : cr.scalarPublic value=none:=h
    dsimp only
    rw [hpublic]
    exact ⟨rfl,rfl⟩

theorem generate9d_replaced {value : ByteArr 32} {publicKey : ByteArr 64}
    (hdrawn : (k.env.strict.headD (some [])).map (fit 32)=some value) (hpublic : cr.scalarPublic value=some publicKey) :
    Replaced (fun k=>k.badge.chip.rmem slot9D)
      ⟨k.env.calls.headD .done,k.env.calls.tail.headD .done,.done,isSlotEmpty,record9d value publicKey⟩
      (uncompressed publicKey) k (generate9d cr k):=by
  have hslot : slot9D < Chip.rmemSlotCount:=by decide
  set r : Replacing Bytes:=⟨k.env.calls.headD .done,k.env.calls.tail.headD .done,.done,isSlotEmpty,
    record9d value publicKey⟩ with hr
  set drawn : Keys:={k with env:={k.env with strict:=k.env.strict.tail}} with hdrawnState
  set t : Keys:=(drawn.withChip (if (k.env.calls.headD .done).applied then (Chip.rmemErase slot9D k.badge.chip).2
    else k.badge.chip)).called with ht
  have hcell : t.badge.chip.rmem slot9D=r.cleared (k.badge.chip.rmem slot9D):=rmemErase_cell hslot _ _
  have herase : seCall (Chip.rmemErase slot9D) drawn =
      (answered (k.env.calls.headD .done) (Chip.rmemErase slot9D k.badge.chip).1,t):=seCall_run _ drawn
  have hwrote : Wrote (fun k=>k.badge.chip.rmem slot9D) r.new r.write r.read (uncompressed publicKey) t
      (recordInto (record9d value publicKey) (uncompressed publicKey) t):=recordInto_wrote _ _ t
  unfold generate9d
  rw [bind_nextStrict,hdrawn]
  dsimp only
  rw [hpublic]
  dsimp only
  unfold rmemWriteWithHeader
  rw [bind_assoc,bind_apply,herase]
  cases ho : k.env.calls.headD .done with
  | done=>
    rw [Chip.rmemErase_lt hslot]
    exact hwrote.replaced (by rw [Replacing.goesOn,hr,ho]) hcell
  | failed e applied=>
    by_cases hempty : e=.slotEmpty
    · subst hempty
      exact hwrote.replaced (by rw [Replacing.goesOn,hr,ho]; rfl) hcell
    · have hgoes : r.goesOn=false:=by
        rw [Replacing.goesOn,hr,ho]
        exact decide_eq_false hempty
      dsimp only [answered]
      rw [if_pos hempty]
      exact .of_stopped hgoes hcell (by simp)
  | powerLost applied=>exact .of_stopped (by rw [Replacing.goesOn,hr,ho]) hcell (by simp [answered])

end Held

/-- What comes of the key of a reference and of what is answered. -/
structure Generated (cr : PivCrypto) (keyRef : UInt8) (k : Keys) (run : Except PowerLost (Option (ByteArr 65)) × Keys) :
    Prop where
  /-- An old key, where the generation gets as far as clearing it. -/
  replaced : ∀ old, heldKey keyRef k.badge.chip=some old→∀ r, replacing cr keyRef k.env=some r →
    heldKey keyRef run.2.badge.chip=r.cell (some old) ∧
      ((∃ pub, run.1=.ok (some pub)) ↔ r.erased=true ∧ r.told=true)
  stopped : replacing cr keyRef k.env=none →
    heldKey keyRef run.2.badge.chip=heldKey keyRef k.badge.chip ∧ run.1=.ok none
  point : ∀ pub, run.1=.ok (some pub)→heldPoint cr keyRef run.2.badge.chip=some pub

section Held

variable {cr : PivCrypto} {k : Keys}

theorem Replaced.generated {α : Type} {keyRef : UInt8} {run : Except PowerLost (Option (ByteArr 65)) × Keys}
    {cell : Keys→Option α} {r : Replacing α} {point : ByteArr 65} {read : α→Option HeldKey} {new : HeldKey}
    (hread : ∀ k : Keys, heldKey keyRef k.badge.chip=(cell k).bind read) (hnew : read r.new=some new)
    (hpoint : new.point cr=some point) (hr : replacing cr keyRef k.env=some (r.renew new))
    (h : Replaced cell r point k run) : Generated cr keyRef k run:=by
  refine ⟨fun old hold r' hr'=>?_,fun hnone=>absurd (hnone.symm.trans hr) (by simp),fun pub hpub=>?_⟩
  · obtain rfl : r.renew new=r':=Option.some.inj (hr.symm.trans hr')
    rw [hread] at hold
    obtain ⟨data,hdata,hkey⟩:=Option.bind_eq_some_iff.mp hold
    refine ⟨?_,?_⟩
    · rw [hread,h.holds,hdata]
      exact r.cell_bind hkey hnew
    · have htold (pub : ByteArr 65) : run.1=.ok (some pub) ↔ (r.erased=true ∧ r.told=true) ∧ pub=point:=by
        rw [h.told,hdata,r.cleared_some]
      simp only [htold,exists_and_left,exists_eq,and_true]
      rfl
  · obtain ⟨⟨hcleared,htold⟩,rfl⟩:=(h.told pub).mp hpub
    unfold heldPoint
    rw [hread,h.holds,r.cell_told hcleared htold,Option.bind_some,hnew]
    exact hpoint

theorem cbKeyGenerate_generated (keyRef : UInt8) (k : Keys) : Generated cr keyRef k (cbKeyGenerate cr keyRef k):=by
  unfold cbKeyGenerate
  cases hslot : eccSlotFor keyRef with
  | some slot=>
    have hcalls : replacing cr keyRef k.env=some ⟨k.env.calls.headD .done,k.env.calls.tail.headD .done,
        k.env.calls.tail.tail.headD .done,fun _=>true,.ecc ⟨.p256,k.env.secrets.headD 0⟩⟩:=by
      unfold replacing
      rw [hslot]
    have hread (k : Keys) : heldKey keyRef k.badge.chip=(k.badge.chip.ecc slot).bind (some ∘ HeldKey.ecc):=by
      rw [heldKey_ecc hslot,Option.map_eq_bind]
    refine (generateEcc_replaced (eccSlotFor_lt hslot) k).generated hread rfl ?_ ?_
    · rfl
    · exact hcalls
  | none=>
    by_cases href : keyRef=key9D
    · subst href
      dsimp only
      rw [if_pos rfl]
      have hcalls : replacing cr key9D k.env=((k.env.strict.headD (some [])).map (fit 32)).bind fun value=>
          (cr.scalarPublic value).map fun _=>
            ⟨k.env.calls.headD .done,k.env.calls.tail.headD .done,.done,isSlotEmpty,.scalar value⟩:=by
        unfold replacing
        rw [hslot]
        exact if_pos rfl
      cases hvalue : ((k.env.strict.headD (some [])).map (fit 32)).bind cr.scalarPublic with
      | none=>
        obtain ⟨hrun,hchip⟩:=generate9d_stopped hvalue
        have hnone : replacing cr key9D k.env=none:=by
          rw [hcalls]
          cases hdrawn : (k.env.strict.headD (some [])).map (fit 32) with
          | none=>rfl
          | some value=>
            rw [hdrawn] at hvalue
            have hpublic : cr.scalarPublic value=none:=hvalue
            rw [Option.bind_some,hpublic]
            rfl
        refine ⟨fun old hold r hr=>absurd (hnone.symm.trans hr) (by simp),fun _=>⟨by rw [hchip],hrun⟩,fun pub hpub=>?_⟩
        rw [hrun] at hpub
        cases hpub
      | some publicKey=>
        obtain ⟨value,hdrawn,hpublic⟩:=Option.bind_eq_some_iff.mp hvalue
        have hread (k : Keys) : heldKey key9D k.badge.chip =
            (k.badge.chip.rmem slot9D).bind fun data=>(scalarOf data).map .scalar:=by
          rw [heldKey_9d,scalarIn,Option.map_bind]
          rfl
        have hrecord:=congrArg (Option.map HeldKey.scalar) (scalarOf_record9d value publicKey)
        refine (generate9d_replaced hdrawn hpublic).generated hread hrecord ?_ ?_
        · exact congrArg (Option.map uncompressed) hpublic
        · rw [hcalls,hdrawn,Option.bind_some,hpublic]
          rfl
    · have hnone : replacing cr keyRef k.env=none:=by
        unfold replacing
        rw [hslot]
        exact if_neg href
      dsimp only
      rw [if_neg href]
      exact ⟨fun old hold r hr=>absurd (hnone.symm.trans hr) (by simp),fun _=>⟨rfl,rfl⟩,fun pub hpub=>by cases hpub⟩

end Held

def Makes (app : Session) (c : Cmd) : Prop:=
  app.mgmtAuthenticated=true ∧ isKeyRef c.p2=true ∧ generateAlg c.data=some [algEccP256]

/-- The response, with what is left of it for `GET RESPONSE`, holds the public point of the key that is held now. -/
def Returns (cr : PivCrypto) (c : Cmd) (answer : Option Reply × Device) : Prop:=
  ∃ reply point, answer.1=some reply ∧ heldPoint cr c.p2 answer.2.ctx.be.badge.chip=some point ∧
    payloadOf reply answer.2.ctx.app.resp=some (generatedPayload point.toList)

/-- Where the new public point is not returned, the old key is still there, and signs and agrees as before. -/
def KeepsOld (cr : PivCrypto) (shortReads : Bool) (d : Device) (i : DeviceInput) : Prop:=
  ∀ raw c old, i.op=.apdu raw → commandOf d.ctx raw=some c → c.ins=insGenerateKeypair →
    heldKey c.p2 d.ctx.be.badge.chip=some old→¬Returns cr c (d.respond cr shortReads i) →
    heldKey c.p2 (d.respond cr shortReads i).2.ctx.be.badge.chip=some old ∧
      ∀ e, (d.respond cr shortReads i).2.ctx.be.uses cr c.p2 e=d.ctx.be.uses cr c.p2 e

/-- The condition on a step: a generation that clears an old key has all its calls done, or puts the old key back. -/
def SparesOld (cr : PivCrypto) (d : Device) (i : DeviceInput) : Prop:=
  ∀ raw c old, i.op=.apdu raw → commandOf d.ctx raw=some c → c.ins=insGenerateKeypair →
    heldKey c.p2 d.ctx.be.badge.chip=some old→d.on=true→Makes d.ctx.app c →
    ∀ r, replacing cr c.p2 i.env=some r → r.Spares old

section Steps

variable {cr : PivCrypto} {shortReads : Bool} {d : Device} {raw : Bytes} {c : Cmd} {e : Env}

theorem dispatch_generate {β : Type} {b : Backend β} (h : c.ins=insGenerateKeypair) : dispatch b c=cmdGenerate b c:=by
  simp only [dispatch,h]
  rfl

theorem cmdGenerate_refused {β : Type} {b : Backend β} {s : Ctx β} (h : ¬Makes s.app c) :
    ∃ sw, cmdGenerate b c s=(.ok {sw},s) ∧ sw≠swOk ∧ sw >>> 8≠0x61:=by
  unfold cmdGenerate appGets
  rw [bind_gets]
  by_cases hauth : s.app.mgmtAuthenticated=true
  case neg=>exact ⟨swSecurityStatus,by rw [if_pos (by simpa using hauth)]; rfl,by decide,by decide⟩
  rw [if_neg (by simpa using hauth)]
  by_cases href : isKeyRef c.p2=true
  case neg=>exact ⟨swRefNotFound,by rw [if_pos (by simpa using href)]; rfl,by decide,by decide⟩
  rw [if_neg (by simpa using href)]
  have halg : generateAlg c.data≠some [algEccP256]:=fun halg=>h ⟨hauth,href,halg⟩
  exact ⟨swDataInvalid,by rw [if_pos halg]; rfl,by decide,by decide⟩

theorem cmdGenerate_makes {s : Ctx Keys} (h : Makes s.app c) :
    cmdGenerate (pivBackend cr) c s=(call (cbKeyGenerate cr c.p2) >>= fun pub=>match pub with
      | none=>answerSw swSecurityStatus
      | some pub=>emit (generatedPayload pub.toList) c.le) s:=by
  obtain ⟨hauth,href,halg⟩:=h
  unfold cmdGenerate appGets
  rw [bind_gets,if_neg (by simpa using hauth),if_neg (by simpa using href),if_neg (not_not.mpr halg),bind_apply,bind_apply]
  have hcall : call ((pivBackend cr).keyGenerate c.p2) s=call (cbKeyGenerate cr c.p2) s:=rfl
  rw [hcall]
  cases call (cbKeyGenerate cr c.p2) s with
  | mk r t=>cases r with
    | error e=>rfl
    | ok pub=>cases pub with
      | none=>rfl
      | some pub=>
        dsimp only
        rw [pubkeyTemplate_some]
        rfl

theorem respond_refused (hon : d.on=true) (hc : commandOf d.ctx raw=some c) (hins : c.ins=insGenerateKeypair)
    (h : ¬Makes d.ctx.app c) : (d.respond cr shortReads ⟨.apdu raw,e⟩).2.ctx.be.badge.chip=d.ctx.be.badge.chip:=by
  obtain ⟨sw,hrun,-⟩:=@cmdGenerate_refused c _ (pivBackend cr) {d.ctx with be:=d.ctx.be.given e} h
  rw [respond_command hon hc,dispatch_generate hins,hrun]
  rfl

/-- A command that gets to the backend leaves the chip as the backend does, and returns the point that the backend gives. -/
theorem respond_makes (hon : d.on=true) (hc : commandOf d.ctx raw=some c) (hins : c.ins=insGenerateKeypair)
    (h : Makes d.ctx.app c) :
    (d.respond cr shortReads ⟨.apdu raw,e⟩).2.ctx.be.badge.chip=(cbKeyGenerate cr c.p2 (d.ctx.be.given e)).2.badge.chip ∧
      (Returns cr c (d.respond cr shortReads ⟨.apdu raw,e⟩) ↔
        ∃ pub, (cbKeyGenerate cr c.p2 (d.ctx.be.given e)).1=.ok (some pub)):=by
  have hpoint:=(@cbKeyGenerate_generated cr c.p2 (d.ctx.be.given e)).point
  have hmakes : Makes ({d.ctx with be:=d.ctx.be.given e} : Ctx Keys).app c:=h
  rw [respond_command hon hc,dispatch_generate hins,cmdGenerate_makes hmakes,bind_apply]
  have hcall : call (cbKeyGenerate cr c.p2) {d.ctx with be:=d.ctx.be.given e} =
      ((cbKeyGenerate cr c.p2 (d.ctx.be.given e)).1,{d.ctx with be:=(cbKeyGenerate cr c.p2 (d.ctx.be.given e)).2}):=rfl
  rw [hcall]
  cases hrun : cbKeyGenerate cr c.p2 (d.ctx.be.given e) with
  | mk r k=>
    rw [hrun] at hpoint
    cases r with
    | error e=>
      refine ⟨rfl,⟨?_,?_⟩⟩
      · rintro ⟨reply,point,hreply,-⟩
        cases hreply
      · rintro ⟨pub,hpub⟩
        cases hpub
    | ok pub=>cases pub with
      | none=>
        refine ⟨rfl,⟨?_,?_⟩⟩
        · rintro ⟨reply,point,hreply,-,hpayload⟩
          cases hreply
          rw [payloadOf_refused (by decide) (by decide)] at hpayload
          cases hpayload
        · rintro ⟨pub,hpub⟩
          cases hpub
      | some pub=>
        have hshort : (generatedPayload pub.toList).length ≤ respBufferSize:=by simp [generatedPayload,respBufferSize]
        obtain ⟨reply,app,hemit,hpayload⟩:=emit_payload hshort c.le {d.ctx with be:=k}
        dsimp only
        rw [hemit]
        exact ⟨rfl,⟨fun _=>⟨pub,rfl⟩,fun _=>⟨reply,pub,rfl,hpoint pub rfl,hpayload⟩⟩⟩

theorem keepsOld_iff (d : Device) (i : DeviceInput) : KeepsOld cr shortReads d i ↔ SparesOld cr d i:=by
  obtain ⟨op,e⟩:=i
  apply forall_congr' fun raw=>forall_congr' fun c=>forall_congr' fun old=>forall_congr' fun hop=>?_
  apply forall_congr' fun hc=>forall_congr' fun hins=>forall_congr' fun hold=>?_
  obtain rfl : op=.apdu raw:=hop
  have hkept (h : heldKey c.p2 (d.respond cr shortReads ⟨.apdu raw,e⟩).2.ctx.be.badge.chip=some old) (e' : Env) :
      (d.respond cr shortReads ⟨.apdu raw,e⟩).2.ctx.be.uses cr c.p2 e'=d.ctx.be.uses cr c.p2 e':=
    uses_of_heldKey (h.trans hold.symm) e'
  by_cases hon : d.on=true
  case neg=>
    have hrespond : d.respond cr shortReads ⟨.apdu raw,e⟩=(none,d):=if_pos (by simpa using hon)
    rw [hrespond]
    exact ⟨fun _ h=>absurd h hon,fun _ _=>⟨hold,fun _=>rfl⟩⟩
  by_cases hmakes : Makes d.ctx.app c
  case neg=>
    have hchip:=@respond_refused cr shortReads d raw c e hon hc hins hmakes
    have hsame : heldKey c.p2 (d.respond cr shortReads ⟨.apdu raw,e⟩).2.ctx.be.badge.chip=some old:=by rw [hchip,hold]
    exact ⟨fun _ _ h=>absurd h hmakes,fun _ _=>⟨hsame,hkept hsame⟩⟩
  obtain ⟨hchip,hreturns⟩:=@respond_makes cr shortReads d raw c e hon hc hins hmakes
  have hgenerated:=@cbKeyGenerate_generated cr c.p2 (d.ctx.be.given e)
  cases hr : replacing cr c.p2 e with
  | none=>
    have hsame : heldKey c.p2 (d.respond cr shortReads ⟨.apdu raw,e⟩).2.ctx.be.badge.chip=some old:=by
      rw [hchip,(hgenerated.stopped hr).1]
      exact hold
    refine ⟨fun _ _ _ r hr'=>?_,fun _ _=>⟨hsame,hkept hsame⟩⟩
    cases hr'
  | some r=>
    obtain ⟨hcell,htold⟩:=hgenerated.replaced old hold r hr
    rw [← hchip] at hcell
    have hspares:=r.spares_iff old
    rw [hreturns,htold]
    constructor
    · rintro h - - r' hr'
      cases hr'
      exact hspares.mp fun hnot=>hcell.symm.trans (h hnot).1
    · intro h hnot
      have hsame:=hcell.trans (hspares.mpr (h hon hmakes r rfl) hnot)
      exact ⟨hsame,hkept hsame⟩

end Steps

def p256Order : ℕ:=0xFFFFFFFF00000000FFFFFFFFFFFFFFFFBCE6FAADA7179E84F3B9CAC2FC632551

def InRange (value : ByteArr 32) : Prop:=0 < Cbor.beValue 0 value.toList ∧ Cbor.beValue 0 value.toList < p256Order

/-- The point multiplication refuses a scalar that is no private key. -/
def RefusesBadScalars (cr : PivCrypto) : Prop:=∀ value, cr.scalarPublic value≠none → InRange value

/-- A scalar that can be loaded is in range, and its point stands behind it. -/
def Sound9d (cr : PivCrypto) (c : Chip Bytes) : Prop:=∀ value, scalarIn c=some value →
  InRange value ∧ ∃ publicKey, cr.scalarPublic value=some publicKey ∧ c.rmem slot9D=some (record9d value publicKey)

def Keys.Sound9d (cr : PivCrypto) (k : Keys) : Prop:=Piv.Sound9d cr k.badge.chip

section Sound

variable {cr : PivCrypto} {c d : Chip Bytes}

theorem Sound9d.of_rmem (h : Sound9d cr c) (heq : d.rmem slot9D=c.rmem slot9D) : Sound9d cr d:=by
  intro value hvalue
  unfold scalarIn at hvalue
  rw [heq] at hvalue ⊢
  exact h value hvalue

theorem sound9d_none (h : c.rmem slot9D=none) : Sound9d cr c:=by
  intro value hvalue
  unfold scalarIn at hvalue
  rw [h] at hvalue
  cases hvalue

theorem sound9d_record (hrange : RefusesBadScalars cr) {value : ByteArr 32} {publicKey : ByteArr 64}
    (hpublic : cr.scalarPublic value=some publicKey) (h : c.rmem slot9D=some (record9d value publicKey)) : Sound9d cr c:=by
  intro value' hvalue
  have hscalar : scalarIn c=some value:=by
    unfold scalarIn
    rw [h,Option.bind_some,scalarOf_record9d]
  cases hscalar.symm.trans hvalue
  exact ⟨hrange value (by rw [hpublic]; simp),publicKey,hpublic,h⟩

theorem framed_sound9d : Framed (Keys.Sound9d cr):=
  fun _ _ h _ _ hmemory=>Sound9d.of_rmem h (pivMemory_rmem hmemory rfl)

theorem Sound9d.rmemErase (h : Sound9d cr c) (slot : ℕ) : Sound9d cr (Chip.rmemErase slot c).2:=by
  by_cases hslot : slot=slot9D
  · subst hslot
    exact sound9d_none (rmemErase_cell (by decide) true c)
  · exact h.of_rmem (Chip.rmemErase_sets.other (Ne.symm hslot))

theorem sound_stateSave : Keeps (Keys.Sound9d cr) stateSave:=by
  have hother : stateSlot≠slot9D:=by decide
  have hwrite (payload : Bytes) : Keeps (Keys.Sound9d cr)
      (rmemWriteWithHeader stateSlot moduleIdPiv stateName payload):=
    @Undrawn.rmemWriteWithHeader _ framed_sound9d.undrawn stateSlot (fun _ hk=>Sound9d.rmemErase hk stateSlot)
      (fun _ _ hk=>Sound9d.of_rmem hk (Chip.rmemWrite_sets.other hother.symm)) _ _ _
  refine Keeps.bind (Keeps.gets _) fun st=>Keeps.bind (hwrite _) fun reply=>?_
  cases reply <;> exact Keeps.pure _

theorem sound_stateEnsure : Keeps (Keys.Sound9d cr) stateEnsure:=
  keeps_stateEnsure_of_save (fun _ _ h=>h) (fun _ _ _ h=>h) sound_stateSave (framed_sound9d.undrawn.rmemReadWithHeader _ _)

theorem sound_cbMgmtSetKey (alg : UInt8) (key : Bytes) : Keeps (Keys.Sound9d cr) (cbMgmtSetKey alg key):=by
  refine Keeps.bind sound_stateEnsure fun _=>Keeps.ite (fun _=>Keeps.pure _) fun _=>?_
  refine Keeps.ite (fun _=>Keeps.pure _) fun _=>?_
  exact Keeps.bind (Keeps.modify fun k hk=>hk) fun _=>sound_stateSave

theorem sound_cbKeyGenerate (hrange : RefusesBadScalars cr) (keyRef : UInt8) :
    Keeps (Keys.Sound9d cr) (cbKeyGenerate cr keyRef):=by
  unfold cbKeyGenerate
  cases hslot : eccSlotFor keyRef with
  | some slot=>
    exact framed_sound9d.undrawn.generateEcc (fun k hk=>Sound9d.of_rmem hk (congrFun Chip.eccDelete_sets.rmem slot9D))
      fun k key hk=>Sound9d.of_rmem hk (congrFun Chip.eccGenerate_sets.rmem slot9D)
  | none=>
    refine Keeps.ite (fun _=>keeps_iff.mpr fun k hk=>?_) fun _=>Keeps.pure _
    cases hvalue : ((k.env.strict.headD (some [])).map (fit 32)).bind cr.scalarPublic with
    | none=>
      have hsame:=congrArg (fun c=>c.rmem slot9D) (generate9d_stopped hvalue).2
      exact Sound9d.of_rmem hk hsame
    | some publicKey=>
      obtain ⟨value,hdrawn,hpublic⟩:=Option.bind_eq_some_iff.mp hvalue
      -- The record is written whole, or the slot is cleared or left.
      rcases (generate9d_replaced hdrawn hpublic).cases with hnew | hnone | hleft
      · exact sound9d_record hrange hpublic hnew
      · exact sound9d_none hnone
      · exact Sound9d.of_rmem hk hleft

theorem sound_dispatch (hrange : RefusesBadScalars cr) (c : Cmd) :
    Keeps (fun s : Ctx Keys=>s.be.Sound9d cr) (dispatch (pivBackend cr) c):=
  (framed_sound9d.backend sound_stateEnsure).dispatch c (fun _=>keeps_cmdGenerate (sound_cbKeyGenerate hrange c.p2)) fun _=>
    keeps_cmdSetMgmtKey sound_cbMgmtSetKey

theorem sound_pivInit (shortReads : Bool) : Keeps (Keys.Sound9d cr) (pivInit shortReads):=by
  refine Keeps.bind (Keeps.modify fun k hk=>hk) fun _=>Keeps.bind (Keeps.bind ?_ fun _=>?_) fun _=>sound_stateEnsure
  · exact Keeps.forM fun slot=>framed_sound9d.undrawn.sweepRmem fun k hk=>Sound9d.rmemErase hk slot
  · refine Keeps.forM fun slot=>framed_sound9d.undrawn.sweepEcc (fun k hk=>?_) shortReads
    exact Sound9d.of_rmem hk (congrFun Chip.eccDelete_sets.rmem slot9D)

theorem sound_respond (hrange : RefusesBadScalars cr) {shortReads : Bool} {d : Device} (h : Sound9d cr d.ctx.be.badge.chip)
    (i : DeviceInput) : Sound9d cr (d.respond cr shortReads i).2.ctx.be.badge.chip:=by
  obtain ⟨op,e⟩:=i
  cases op with
  | apdu raw=>
    by_cases hon : d.on=true
    case neg=>
      have hrespond : d.respond cr shortReads ⟨.apdu raw,e⟩=(none,d):=if_pos (by simpa using hon)
      rw [hrespond]
      exact h
    cases hc : commandOf d.ctx raw with
    | none=>
      have hcommand : commandOf {d.ctx with be:=d.ctx.be.given e} raw=none:=hc
      obtain ⟨reply,app,hprocess,-⟩:=@processApdu_other _ (pivBackend cr) _ _ hcommand
      rw [respond_apdu hon,hprocess]
      exact h
    | some c=>
      have hkeeps:=keeps_iff.mp (sound_dispatch hrange c) {d.ctx with be:=d.ctx.be.given e} h
      rw [respond_command hon hc]
      cases hr : dispatch (pivBackend cr) c {d.ctx with be:=d.ctx.be.given e} with
      | mk r ctx=>
        rw [hr] at hkeeps
        cases r <;> exact hkeeps
  | deselect=>exact h
  | boot=>
    have hkeeps:=keeps_iff.mp (sound_pivInit shortReads) (d.bootKeys e) h
    rw [respond_boot]
    cases hr : pivInit shortReads (d.bootKeys e) with
    | mk r be=>
      rw [hr] at hkeeps
      cases r <;> exact hkeeps
  | others badge=>exact h.of_rmem (pivMemory_rmem (pivMemory_shared d.ctx.be badge) rfl)

/-- The point of 9D that the backend reports belongs to the scalar that is stored. -/
theorem cbKeyPubkey_9d {k : Keys} {pub : ByteArr 65} (h : (cbKeyPubkey cr key9D k).1=.ok (some pub)) :
    heldPoint cr key9D k.badge.chip=some pub:=by
  have hrun : cbKeyPubkey cr key9D k=(load9dScalar >>= fun scalar=>scalar.elim (pure none) fun scalar=>
      pure ((cr.scalarPublic scalar).map uncompressed) : KeysM (Option (ByteArr 65))) k:=by
    change (load9dScalar >>= _) k=_
    rw [bind_apply,bind_apply]
    cases load9dScalar k with
    | mk r t=>rcases r with _ | _ | _ <;> rfl
  rw [hrun,bind_apply,load9dScalar_run] at h
  unfold heldPoint
  rw [heldKey_9d]
  cases hcall : k.env.calls.headD .done with
  | done=>
    rw [hcall] at h
    cases hscalar : scalarIn k.badge.chip with
    | none=>
      rw [hscalar] at h
      cases h
    | some value=>
      rw [hscalar] at h
      exact Except.ok.inj h
  | failed e applied=>
    rw [hcall] at h
    cases h
  | powerLost applied=>
    rw [hcall] at h
    cases h

end Sound

/-- In every run the scalar of 9D is in range, and its point is stored and reported; an old key that is not replaced is as
it was where the generation does not clear it, has all its calls done, or puts it back, and nowhere else. -/
theorem old_key_kept_iff (cr : PivCrypto) (hrange : RefusesBadScalars cr) (shortReads : Bool) (d : Device)
    (hstart : Sound9d cr d.ctx.be.badge.chip) (is : List DeviceInput) :
    let t:=Runs.run (fun d i=>(d.respond cr shortReads i).2) d is
    (∀ i, KeepsOld cr shortReads t i ↔ SparesOld cr t i) ∧ Sound9d cr t.ctx.be.badge.chip ∧
      ∀ e pub, (cbKeyPubkey cr key9D (t.ctx.be.given e)).1=.ok (some pub) →
        heldPoint cr key9D t.ctx.be.badge.chip=some pub:=by
  have hsound : Sound9d cr (Runs.run (fun d i=>(d.respond cr shortReads i).2) d is).ctx.be.badge.chip:=
    Runs.run_invariant (I:=fun d : Device=>Sound9d cr d.ctx.be.badge.chip) (fun _ i _ ht=>sound_respond hrange ht i) hstart
      (Runs.alongRun_true d is)
  refine ⟨fun i=>keepsOld_iff _ i,hsound,fun e pub hpub=>?_⟩
  have hpoint:=cbKeyPubkey_9d hpub
  exact hpoint

instance (value : ByteArr 32) : Decidable (InRange value):=inferInstanceAs (Decidable (_ ∧ _))

def PivCrypto.ranged : PivCrypto where
  toCrypto:=Crypto.plain
  scalarPublic value:=if InRange value then PivCrypto.plain.scalarPublic value else none
  scalarSign:=PivCrypto.plain.scalarSign
  scalarEcdh:=PivCrypto.plain.scalarEcdh
  aesEncrypt:=PivCrypto.plain.aesEncrypt
  ecdsaVerify_scalarSign value publicKey nonce digest sig hpub hsig:=by
    split at hpub
    · exact PivCrypto.plain.ecdsaVerify_scalarSign value publicKey nonce digest sig hpub hsig
    · cases hpub

theorem refusesBadScalars_ranged : RefusesBadScalars .ranged:=by
  intro value h
  by_contra hrange
  exact h (if_neg hrange)

def keyInputs (keyRef : UInt8) : List DeviceInput:=
  [⟨.boot,{}⟩,⟨.apdu drawApdu,{}⟩,⟨.apdu answerApdu,{}⟩,
    ⟨.apdu (generateKeyApdu keyRef),{strict:=[some (List.replicate 32 0x01)]}⟩]

def keyDevice (keyRef : UInt8) : Device:=
  Runs.run (fun d i=>(d.respond .ranged true i).2) {ctx:={be:=blankKeys,respMax:=2048}} (keyInputs keyRef)

theorem old_key_kept_iff_9d : (heldKey key9D (keyDevice key9D).ctx.be.badge.chip).isSome=true ∧
    (∀ i, KeepsOld .ranged true (keyDevice key9D) i ↔ SparesOld .ranged (keyDevice key9D) i) ∧
    Sound9d .ranged (keyDevice key9D).ctx.be.badge.chip:=by
  have hheld : (heldKey key9D (keyDevice key9D).ctx.be.badge.chip).isSome=true:=by decide +kernel
  obtain ⟨hkept,hsound,-⟩:=old_key_kept_iff .ranged refusesBadScalars_ranged true
    {ctx:={be:=blankKeys,respMax:=2048}} (sound9d_none rfl) (keyInputs key9D)
  refine ⟨hheld,?_⟩
  unfold keyDevice
  exact ⟨hkept,hsound⟩

/-- The slot of the old key is cleared, and the chip does not make a new key. -/
theorem old_key_lost : ¬ ∀ (is : List DeviceInput) (i : DeviceInput),
    KeepsOld .ranged true (Runs.run (fun d i=>(d.respond .ranged true i).2)
      {ctx:={be:=blankKeys,respMax:=2048}} is) i:=by
  intro h
  obtain ⟨i,hi⟩ : ∃ i : DeviceInput, i=⟨.apdu (generateKeyApdu key9A),{calls:=[.done,.failed .error false]}⟩:=⟨_,rfl⟩
  have hkeeps:=h (keyInputs key9A) i
  obtain ⟨d,hd⟩ : ∃ d : Device, d=Runs.run (fun (d : Device) i=>(d.respond .ranged true i).2)
    {ctx:={be:=blankKeys,respMax:=2048}} (keyInputs key9A):=⟨_,rfl⟩
  rw [← hd] at hkeeps
  have hold : heldKey key9A d.ctx.be.badge.chip=some (.ecc ⟨.p256,0⟩):=by
    rw [hd]
    decide +kernel
  have hcommand : (commandOf d.ctx (generateKeyApdu key9A)).map (fun c=>(c.ins,c.p2))=some (insGenerateKeypair,key9A):=by
    rw [hd]
    decide +kernel
  have hlost : heldKey key9A (d.respond .ranged true i).2.ctx.be.badge.chip=none:=by
    rw [hd,hi]
    decide +kernel
  obtain ⟨c,hc,hpair⟩:=Option.map_eq_some_iff.mp hcommand
  obtain ⟨hins,href⟩:=Prod.ext_iff.mp hpair
  have href : c.p2=key9A:=href
  have hnot : ¬Returns .ranged c (d.respond .ranged true i):=by
    rintro ⟨reply,point,-,hpoint,-⟩
    unfold heldPoint at hpoint
    rw [href,hlost] at hpoint
    cases hpoint
  have hsame:=(hkeeps _ c _ (by rw [hi]) hc hins (by rw [href]; exact hold) hnot).1
  rw [href] at hsame
  cases hlost.symm.trans hsame

end CdcBadge.Piv
