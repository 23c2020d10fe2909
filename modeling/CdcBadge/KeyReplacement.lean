import CdcBadge.KeyImportTaken
import CdcBadge.PublicKeys
import CdcBadge.RsaRecords

/-!
# Keys that are replaced

An import and a generation put a key in place of another. What is left of the other where they
do not report success.
-/

namespace CdcBadge.OpenPgp

open Handler

def storedDec (dev : Device) (chip : Chip Bytes) : Option Bytes:=
  (readAt dev chip rmemSlotDecKey 128).bind fun record=>
    if magicSize+nonceSize+32+tagSize ≤ record.length ∧ record.take magicSize=decKeyMagic then some record
    else none

/-- The key of a role as it is stored. -/
inductive StoredKey
  | ecc (key : EccKey)
  | dec (record : Bytes)
  | rsa (record : Bytes)

def storedKey (dev : Device) (v : Chip Bytes × Applet) (r : Role) : Option StoredKey:=
  if (v.2.rsa r).isRsa then (storedRsa dev v.1 r).map .rsa
  else if r=.dec then (storedDec dev v.1).map .dec
  else (v.1.ecc r.slot).map .ecc

/-- The key of a role, its fingerprint and its time are as they were. -/
structure Kept (dev : Device) (before after : Chip Bytes × Applet) (r : Role) : Prop where
  stored : storedKey dev after r=storedKey dev before r
  fingerprint : after.2.fingerprint r=before.2.fingerprint r
  genTime : after.2.genTime r=before.2.genTime r

/-- Whatever becomes of its calls, the command keeps every key there is unless it reports success. -/
def Atomic {α : Type} (dev : Device) (m : CardM α) (success : α→Prop) (card : Card) : Prop:=
  ∀ (env : Env) (a : α) (after : Card), m {card with env}=(.ok a,after)→¬success a →
    ∀ r, storedKey dev card.view r≠none→Kept dev card.view after.view r

/-- The chip is as it was but for some slots. -/
structure Outside (E R : ℕ→Prop) (before after : Chip Bytes) : Prop where
  ecc : ∀ slot, ¬E slot→after.ecc slot=before.ecc slot
  rmem : ∀ slot, ¬R slot→after.rmem slot=before.rmem slot

section Outside

variable {E R : ℕ→Prop} {before chip : Chip Bytes} {slot : ℕ}

theorem Outside.refl (chip : Chip Bytes) : Outside E R chip chip:=⟨fun _ _=>rfl,fun _ _=>rfl⟩

theorem Outside.setsEcc {after : Chip Bytes} (hslot : E slot) (h : Outside E R before chip)
    (hset : Chip.SetsEcc slot chip after) : Outside E R before after:=
  ⟨fun other hother=>(hset.other fun heq : other=slot=>hother (heq ▸ hslot)).trans (h.ecc other hother),
    fun other hother=>(congrFun hset.rmem other).trans (h.rmem other hother)⟩

theorem Outside.setsRmem {after : Chip Bytes} (hslot : R slot) (h : Outside E R before chip)
    (hset : Chip.SetsRmem slot chip after) : Outside E R before after:=by
  refine ⟨?_,fun other hother=>(hset.other fun heq : other=slot=>hother (heq ▸ hslot)).trans (h.rmem other hother)⟩
  obtain ⟨x,rfl⟩:=hset
  exact h.ecc

end Outside

/-- The chip is as it was but for some slots, and the application but for what is told of a role. -/
structure Touches (E R : ℕ→Prop) (told : Role→Prop) (before after : Chip Bytes × Applet) : Prop where
  chip : Outside E R before.1 after.1
  rsa : after.2.rsa=before.2.rsa
  fingerprint : after.2.fingerprint=before.2.fingerprint
  genTime : ∀ r, ¬told r→after.2.genTime r=before.2.genTime r

section Touches

variable {E R : ℕ→Prop} {told : Role→Prop} {before : Chip Bytes × Applet} {dev : Device} {cr : GpgCrypto}

theorem Touches.refl (v : Chip Bytes × Applet) : Touches E R told v v:=⟨.refl _,rfl,rfl,fun _ _=>rfl⟩

theorem Touches.call {call : Chip Bytes → SeReply Unit × Chip Bytes}
    (hcall : ∀ chip, Outside E R before.1 chip→Outside E R before.1 (call chip).2) (chip : Chip Bytes) (app : Applet)
    (h : Touches E R told before (chip,app)) : Touches E R told before ((call chip).2,app):=
  ⟨hcall chip h.chip,h.rsa,h.fingerprint,h.genTime⟩

theorem keeps_touches_saveSlot {slot : ℕ} (hslot : R slot) (magic payload : Bytes) (pin : Option Bytes) :
    Keeps (fun c=>Touches E R told before c.view) (saveSlotEncrypted dev cr slot magic payload pin):=
  keeps_view_saveSlot (P:=Touches E R told before) (Touches.call fun _ h=>h.setsRmem hslot Chip.rmemErase_sets)
    (fun _ _=>Touches.call fun _ h=>h.setsRmem hslot Chip.rmemWrite_sets) pin

theorem keeps_touches_saveRsa {r : Role} (hfirst : R (rsaSlot0 r)) (hsecond : R (rsaSlot0 r+1)) (blob : Bytes)
    (pin : Option Bytes) : Keeps (fun c=>Touches E R told before c.view) (gpgStorageSaveRsaKey dev cr r blob pin):=
  keeps_view_saveRsa (P:=Touches E R told before) (Touches.call fun _ h=>h.setsRmem hfirst Chip.rmemErase_sets)
    (Touches.call fun _ h=>h.setsRmem hsecond Chip.rmemErase_sets)
    (fun _ _ chip app h=>⟨Touches.call (fun _ h=>h.setsRmem hfirst Chip.rmemWrite_sets) chip app h,
      Touches.call (fun _ h=>h.setsRmem hsecond Chip.rmemWrite_sets) chip app h⟩) pin

theorem keeps_touches_seGenerate {slot : ℕ} (hslot : E slot) (curve : EccCurve) :
    Keeps (fun c=>Touches E R told before c.view) (seGenerate slot curve):=by
  apply Keeps.bind (fun c hc=>hc) fun secret=>?_
  apply Keeps.bind (keeps_view (Touches.call fun _ h=>h.setsEcc hslot Chip.eccGenerate_sets)) fun reply=>?_
  cases reply with
  | ok u=>exact Keeps.pure _
  | error e=>
    apply Keeps.bind (keeps_view (Touches.call fun _ h=>h.setsEcc hslot Chip.eccDelete_sets)) fun _=>?_
    exact keeps_view_succeeds (Touches.call fun _ h=>h.setsEcc hslot Chip.eccGenerate_sets)

theorem keeps_touches_timestamp {keyRef : UInt8} (htold : ∀ r, roleForKeyRef keyRef=some r→told r) :
    Keeps (fun c=>Touches E R told before c.view) (updateGenerationTimestamp cr keyRef):=by
  have hsave : Keeps (fun c=>Touches E R told before c.view) (saveStateToNvs cr):=
    keeps_of_fixes (fixes_saveStateToNvs cr) _
  apply Keeps.bind (Keeps.gets _) fun now=>?_
  cases hr : roleForKeyRef keyRef with
  | none=>exact hsave
  | some r=>
    apply Keeps.bind _ fun _=>hsave
    apply Keeps.modify
    intro c h
    refine ⟨h.chip,h.rsa,h.fingerprint,fun r' hr'=>?_⟩
    have hne : r'≠r:=fun heq=>hr' (heq ▸ htold r hr)
    exact (Function.update_of_ne hne ..).trans (h.genTime r' hr')

end Touches

variable {v : Chip Bytes × Applet}

section Spared

variable {E R : ℕ→Prop} {told : Role→Prop} {before after : Chip Bytes × Applet} {dev : Device} {r : Role}

/-- The slots do not hold the key of the role. -/
def Spares (E R : ℕ→Prop) (v : Chip Bytes × Applet) (r : Role) : Prop:=
  if (v.2.rsa r).isRsa then ¬R (rsaSlot0 r) ∧ ¬R (rsaSlot0 r+1)
  else if r=.dec then ¬R rmemSlotDecKey
  else ¬E r.slot

def eccSlots (isRsa : Bool) (r : Role) (slot : ℕ) : Prop:=isRsa=false ∧ r≠.dec ∧ slot=r.slot

def rmemSlots (isRsa : Bool) (r : Role) (slot : ℕ) : Prop:=
  if isRsa then slot=rsaSlot0 r ∨ slot=rsaSlot0 r+1 else r=.dec ∧ slot=rmemSlotDecKey

theorem dec_ne_rsaSlot (r : Role) : ¬(rmemSlotDecKey=rsaSlot0 r ∨ rmemSlotDecKey=rsaSlot0 r+1):=by
  cases r <;> decide

theorem spares_of_ne {isRsa : Bool} {r r' : Role} (h : r≠r' ∨ (v.2.rsa r).isRsa≠isRsa) :
    Spares (eccSlots isRsa r') (rmemSlots isRsa r') v r:=by
  have hdec:=dec_ne_rsaSlot
  unfold Spares
  split_ifs with hrsa hrdec
  · cases isRsa with
    | false=>
      have hother : ∀ slot, slot=rsaSlot0 r ∨ slot=rsaSlot0 r+1→¬rmemSlots false r' slot:=by
        rintro slot hslot ⟨-,rfl⟩
        exact hdec r hslot
      exact ⟨hother _ (.inl rfl),hother _ (.inr rfl)⟩
    | true=>
      have hne : r≠r':=h.resolve_right fun hkind=>hkind hrsa
      have hindex : r.index≠r'.index:=by
        cases r <;> cases r' <;> first | exact absurd rfl hne | decide
      unfold rmemSlots rsaSlot0
      simp only [if_true]
      omega
  · subst hrdec
    cases isRsa with
    | false=>
      rintro ⟨hrole,-⟩
      obtain hne | hkind:=h
      · exact hne hrole.symm
      · exact hkind (Bool.eq_false_iff.mpr hrsa)
    | true=>exact hdec r'
  · rintro ⟨rfl,hrole,hslot⟩
    obtain hne | hkind:=h
    · cases r <;> cases r' <;> first | exact hne rfl | exact hrole rfl | exact hrdec rfl | cases hslot
    · exact hkind (Bool.eq_false_iff.mpr hrsa)

theorem storedRsa_congr {chip chip' : Chip Bytes} (hfirst : chip'.rmem (rsaSlot0 r)=chip.rmem (rsaSlot0 r))
    (hsecond : chip'.rmem (rsaSlot0 r+1)=chip.rmem (rsaSlot0 r+1)) :
    storedRsa dev chip' r=storedRsa dev chip r:=by
  unfold storedRsa wholeRecord readAt
  rw [hfirst,hsecond]

theorem storedDec_congr {chip chip' : Chip Bytes} (hslot : chip'.rmem rmemSlotDecKey=chip.rmem rmemSlotDecKey) :
    storedDec dev chip'=storedDec dev chip:=by
  unfold storedDec readAt
  rw [hslot]

theorem Touches.storedKey (h : Touches E R told before after) (hspares : Spares E R before r) :
    storedKey dev after r=storedKey dev before r:=by
  unfold OpenPgp.storedKey
  unfold Spares at hspares
  rw [h.rsa]
  split_ifs at hspares ⊢
  · rw [storedRsa_congr (h.chip.rmem _ hspares.1) (h.chip.rmem _ hspares.2)]
  · rw [storedDec_congr (h.chip.rmem _ hspares)]
  · rw [h.chip.ecc _ hspares]

theorem Touches.kept (h : Touches E R told before after) (hspares : Spares E R before r) (htold : ¬told r) :
    Kept dev before after r:=
  ⟨h.storedKey hspares,congrFun h.fingerprint r,h.genTime r htold⟩

theorem Kept.refl (v : Chip Bytes × Applet) (r : Role) : Kept dev v v r:=⟨rfl,rfl,rfl⟩

end Spared

section Imports

variable (dev : Device) (cr : GpgCrypto)

def Import.isRsa : Import→Bool
  | .ecc .. => false
  | .rsa .. => true

theorem keeps_touches_saved {E R : ℕ→Prop} {told : Role→Prop} {before : Chip Bytes × Applet} {saved : CardM Bool}
    (hsaved : Keeps (fun c=>Touches E R told before c.view) saved) {keyRef : UInt8}
    (htold : ∀ r, roleForKeyRef keyRef=some r→told r) : Keeps (fun c=>Touches E R told before c.view) (do
      if ← saved then
        updateGenerationTimestamp cr keyRef
        apduSw swOk
      else apduSw swUnknown):=
  Keeps.bind hsaved fun _=>
    Keeps.ite (fun _=>Keeps.bind (keeps_touches_timestamp htold) fun _=>Keeps.pure _) fun _=>Keeps.pure _

theorem roleForKeyRef_eq {r r' : Role} (h : roleForKeyRef r.keyRef=some r') : r'=r:=by
  revert h
  cases r <;> cases r' <;> decide

theorem storeImport_touches (imp : Import) (before : Chip Bytes × Applet) :
    Keeps (fun c=>Touches (eccSlots imp.isRsa imp.role) (rmemSlots imp.isRsa imp.role) (fun r=>r=imp.role) before c.view)
      (storeImport dev cr imp):=by
  cases imp with
  | ecc r scalar=>
    apply Keeps.bind (Keeps.gets _) fun curve=>?_
    have hrole : ∀ r', roleForKeyRef r.keyRef=some r' → r'=r:=fun _ h=>roleForKeyRef_eq h
    have himport : ∀ {E R : ℕ→Prop}, E r.slot →
        Keeps (fun c=>Touches E R (fun r'=>r'=r) before c.view) (eccImport r scalar curve):=
      fun hslot=>keeps_view_succeeds (Touches.call fun _ h=>h.setsEcc hslot Chip.eccGenerate_sets)
    by_cases hdec : r=.dec
    · subst hdec
      rw [if_pos rfl]
      have hsaved : Keeps (fun c=>Touches (eccSlots false .dec) (rmemSlots false .dec) (fun r=>r=.dec) before c.view)
          (gpgStorageSaveDecPrivkey dev cr (fit 32 scalar) none):=by
        apply keeps_touches_saveSlot
        exact ⟨rfl,rfl⟩
      exact keeps_touches_saved cr hsaved hrole
    · rw [if_neg hdec]
      exact keeps_touches_saved cr (himport ⟨rfl,hdec,rfl⟩) hrole
  | rsa r e p q=>
    apply Keeps.bind (Keeps.gets _) fun bits=>?_
    cases gpgRsaBlobBuild cr bits e p q with
    | none=>exact Keeps.pure _
    | some blob=>
      exact keeps_touches_saved cr (keeps_touches_saveRsa (.inl rfl) (.inr rfl) _ _) fun _ h=>roleForKeyRef_eq h

end Imports

variable {α : Type}

section Kept

variable {dev : Device} {cr : GpgCrypto} {card : Card} {E R : ℕ→Prop} {told : Role→Prop} {success : α→Prop}

theorem Atomic.of_touches {m : CardM α} {T : Role→Prop}
    (h : Triple (fun c=>c.view=card.view) m (fun a c=>success a ∨ Touches E R T card.view c.view) fun _ _=>True)
    (hspared : ∀ r, storedKey dev card.view r≠none → Spares E R card.view r ∧ ¬T r) :
    Atomic dev m success card:=by
  intro env a after hrun hfailed r hr
  have hview : ({card with env} : Card).view=card.view:=rfl
  obtain hdone | htouched:=h.ok hview hrun
  · exact absurd hdone hfailed
  · obtain ⟨hspares,htold⟩:=hspared r hr
    exact htouched.kept hspares htold

theorem Atomic.of_left {m : CardM α}
    (h : Triple (fun c=>c.view=card.view) m (fun a c=>success a ∨ c.view=card.view) fun _ _=>True) :
    Atomic dev m success card:=by
  intro env a after hrun hfailed r _
  have hview : ({card with env} : Card).view=card.view:=rfl
  obtain hdone | hleft:=h.ok hview hrun
  · exact absurd hdone hfailed
  · rw [hleft]
    exact .refl _ _

theorem Touches.triple {m : CardM α}
    (h : Keeps (fun c=>Touches E R told card.view c.view) m) :
    Triple (fun c=>c.view=card.view) m (fun a c=>success a ∨ Touches E R told card.view c.view) fun _ _=>True:=by
  apply Triple.conseq h _ (fun _ _ hc=>.inr hc) fun _ _ _=>trivial
  intro c hc
  rw [hc]
  exact .refl _

end Kept

section Puts

variable (dev : Device) (cr : GpgCrypto) (card : Card)

/-- The key that is imported takes the place of one that is erased before. -/
def Import.Replaces (imp : Import) : Prop:=
  storedKey dev card.view imp.role≠none ∧
    match imp with
    | .ecc r _=>r=.dec
    | .rsa r e p q=>gpgRsaBlobBuild cr (card.app.rsa r).nBits e p q≠none

def PutReplaces (c : Cmd) : Prop:=
  Importing c card ∧ ∃ imp, parseImport card.isRsa c.data=some imp ∧ imp.Replaces dev cr card

def Reply.Success (reply : Reply) : Prop:=reply.sw=swOk

variable {dev cr card}

theorem seCall_refused {call : Chip Bytes → SeReply α × Chip Bytes} {e : SeError}
    (hcall : call v.1=(.error e,v.1)) : Triple (fun c=>c.view=v) (seCall call)
      (fun reply c=>(∃ e, reply=.error e) ∧ c.view=v) fun _ _=>True:=by
  have hnext : Triple (fun c : Card=>c.view=v) nextCall (fun _ c=>c.view=v) fun _ _=>True:=fun c hc=>hc
  apply Triple.bind hnext fun o=>?_
  rintro c rfl
  have hchip : call c.badge.chip=(.error e,c.badge.chip):=hcall
  unfold onPins zoom Pin.seCall
  cases o with
  | done=>
    simp only [Chip.perform,hchip]
    exact ⟨⟨e,rfl⟩,trivial⟩
  | failed e' applied=>
    simp only [Chip.perform,hchip,ite_self]
    exact ⟨⟨e',rfl⟩,trivial⟩
  | powerLost applied=>
    simp only [Chip.perform,hchip,ite_self]

theorem eccImport_refused {r : Role} (hheld : v.1.ecc r.slot≠none) (scalar : Bytes)
    (curve : EccCurve) : Triple (fun c=>c.view=v) (eccImport r scalar curve)
      (fun ok c=>ok=false ∧ c.view=v) fun _ _=>True:=by
  obtain ⟨old,hold⟩:=Option.ne_none_iff_exists'.mp hheld
  have hcall : ∃ e, Chip.eccGenerate r.slot ⟨curve,ofBe scalar⟩ v.1=(.error e,v.1):=by
    unfold Chip.eccGenerate
    split_ifs
    · exact ⟨_,rfl⟩
    · rw [hold]
      exact ⟨_,rfl⟩
  obtain ⟨e,hcall⟩:=hcall
  apply Triple.bind (seCall_refused hcall) fun reply=>?_
  apply Triple.pre
  rintro ⟨e',rfl⟩
  exact Triple.pure fun c h=>⟨rfl,h⟩

theorem parseImport_isRsa {isRsa : Role→Bool} {data : Bytes} {imp : Import} (h : parseImport isRsa data=some imp) :
    isRsa imp.role=imp.isRsa:=by
  cases conveys_of_parseImport h with
  | ecc _ hrole _ _=>exact hrole
  | rsa _ hrole _ _ _ _ _ _ _ _=>exact hrole

theorem storeImport_left {imp : Import} (hkind : card.isRsa imp.role=imp.isRsa) (hstored : storedKey dev card.view imp.role≠none) (h : ¬imp.Replaces dev cr card) :
    Triple (fun c=>c.view=card.view) (storeImport dev cr imp)
      (fun reply c=>reply.Success ∨ c.view=card.view) fun _ _=>True:=by
  cases imp with
  | ecc r scalar=>
    have hrole : r≠.dec:=fun hrole=>h ⟨hstored,hrole⟩
    have hrsa : (card.view.2.rsa r).isRsa=false:=hkind
    have hheld : card.view.1.ecc r.slot≠none:=by
      intro hempty
      apply hstored
      change storedKey dev card.view r=none
      unfold storedKey
      rw [hrsa,if_neg Bool.false_ne_true,if_neg hrole,hempty]
      rfl
    have hcurve : Triple (fun c : Card=>c.view=card.view) (appGets fun a=>a.curveOf r)
        (fun _ c=>c.view=card.view) fun _ _=>True:=Triple.gets fun _ hc=>hc
    apply Triple.bind hcurve fun curve=>?_
    rw [if_neg hrole]
    apply Triple.bind (eccImport_refused hheld scalar curve) fun ok=>?_
    apply Triple.pre
    rintro rfl
    exact Triple.pure fun c hc=>.inr hc
  | rsa r e p q=>
    have hnone : gpgRsaBlobBuild cr (card.app.rsa r).nBits e p q=none:=by
      by_contra hsome
      exact h ⟨hstored,hsome⟩
    have hbits : Triple (fun c=>c.view=card.view) (appGets fun a=>(a.rsa r).nBits)
        (fun bits c=>bits=(card.app.rsa r).nBits ∧ c.view=card.view) fun _ _=>True:=
      Triple.gets fun c hc=>⟨congrArg (fun v : Chip Bytes × Applet=>(v.2.rsa r).nBits) hc,hc⟩
    apply Triple.bind hbits fun bits=>?_
    apply Triple.pre
    rintro rfl
    rw [hnone]
    exact Triple.pure fun c hc=>.inr hc

theorem atomic_put {c : Cmd} (h : ¬PutReplaces dev cr card c) : Atomic dev (cmdPutDataOdd dev cr c) Reply.Success card:=by
  by_cases himporting : Importing c card
  · have hrun : ∀ env, cmdPutDataOdd dev cr c {card with env}=stored dev cr (parseImport card.isRsa c.data) {card with env}:=
      fun _=>cmdPutDataOdd_importing dev cr himporting
    have hatomic : Atomic dev (stored dev cr (parseImport card.isRsa c.data)) Reply.Success card:=by
      cases hparse : parseImport card.isRsa c.data with
      | none=>exact Atomic.of_left (Triple.pure fun c hc=>.inr hc)
      | some imp=>
        have hkeeps : ¬imp.Replaces dev cr card:=fun hreplaces=>h ⟨himporting,imp,hparse,hreplaces⟩
        by_cases hstored : storedKey dev card.view imp.role=none
        · apply Atomic.of_touches (Touches.triple (storeImport_touches dev cr imp card.view))
          intro r hr
          have hne : r≠imp.role:=fun heq=>hr (heq ▸ hstored)
          exact ⟨spares_of_ne (.inl hne),hne⟩
        · exact Atomic.of_left (storeImport_left (parseImport_isRsa hparse) hstored hkeeps)
    intro env a after hput
    rw [hrun env] at hput
    exact hatomic env a after hput
  · apply Atomic.of_left
    rintro c' hview
    have happ : c'.app=card.app:=congrArg Prod.snd hview
    have hrefused : ¬Importing c c':=by
      unfold Importing
      rw [happ]
      exact himporting
    rw [cmdPutDataOdd_eq]
    unfold Importing at hrefused
    split_ifs with hpw3 hparams hempty
    · exact .inr hview
    · exact .inr hview
    · exact .inr hview
    · rw [Bool.not_eq_true',Bool.not_eq_false] at hpw3
      rw [not_or,ne_eq,not_not,ne_eq,not_not] at hparams
      exact absurd ⟨hpw3,hparams.1,hparams.2,hempty⟩ hrefused

end Puts

end CdcBadge.OpenPgp
