import CdcBadge.KeyReplacement

/-!
# Keys that are generated

What GENERATE ASYMMETRIC KEY PAIR and the generation of all keys touch, and the commands that put
no key in place of one that is stored.
-/

namespace CdcBadge.OpenPgp

open Handler

variable {r : Role} {keyRef : UInt8}

section Touching

variable {E R : ℕ→Prop} {told : Role→Prop} {before : Chip Bytes × Applet} {dev : Device} {cr : GpgCrypto}

theorem keeps_touches_fixed {α : Type} {m : CardM α} (h : Fixes Card.view m) :
    Keeps (fun c=>Touches E R told before c.view) m:=
  keeps_of_fixes h _

theorem keeps_touches_generateDecKey (hslot : ∀ privkey, cr.ecdhPublic privkey≠none→R rmemSlotDecKey) :
    Keeps (fun c=>Touches E R told before c.view) (generateDecKey dev cr):=by
  have hrandom : Keeps (fun c : Card=>Touches E R told before c.view) (randomFill 32):=fun c hc=>hc
  apply Keeps.bind hrandom fun privkey=>?_
  cases hpoint : cr.ecdhPublic privkey with
  | none=>exact Keeps.pure _
  | some point=>
    have hheld : R rmemSlotDecKey:=hslot privkey (by rw [hpoint]; exact Option.some_ne_none _)
    apply Keeps.bind (keeps_touches_saveSlot hheld _ _ _) fun ok=>?_
    exact Keeps.ite (fun _=>Keeps.pure _) fun _=>Keeps.pure _

theorem keeps_touches_generateEcc (hdec : r=.dec→R rmemSlotDecKey) (hslot : r≠.dec → E r.slot) (htold : ∀ r', roleForKeyRef keyRef=some r'→told r') :
    Keeps (fun c=>Touches E R told before c.view) (generateEcc dev cr r keyRef):=by
  apply Keeps.bind (Keeps.gets _) fun curve=>?_
  apply Keeps.ite
  · intro hrole
    apply Keeps.bind (keeps_touches_generateDecKey fun _ _=>hdec hrole) fun point=>?_
    cases point with
    | none=>exact Keeps.pure _
    | some point=>
      exact Keeps.bind (keeps_touches_timestamp htold) fun _=>keeps_touches_fixed (fixes_buildResponse _)
  · intro hrole
    apply Keeps.bind (keeps_touches_seGenerate (hslot hrole) curve) fun ok=>?_
    apply Keeps.ite _ fun _=>Keeps.pure _
    intro _
    exact Keeps.bind (keeps_touches_timestamp htold) fun _=>keeps_touches_fixed (fixes_reportPublicKey r)

theorem keeps_touches_generateRsa (hfirst : R (rsaSlot0 r)) (hsecond : R (rsaSlot0 r+1)) (htold : told r) :
    Keeps (fun c=>Touches E R told before c.view) (generateRsa dev cr r):=by
  have hsecret : Keeps (fun c : Card=>Touches E R told before c.view) nextSecret:=fun c hc=>hc
  apply Keeps.bind (Keeps.gets _) fun nBits=>?_
  apply Keeps.bind hsecret fun secret=>?_
  cases gpgRsaGenerate cr nBits secret with
  | none=>exact Keeps.pure _
  | some blob=>
    apply Keeps.bind (keeps_touches_saveRsa hfirst hsecond blob none) fun ok=>?_
    apply Keeps.ite _ fun _=>Keeps.pure _
    intro _
    have htime : ∀ r', roleForKeyRef r.keyRef=some r'→told r':=fun r' h=>roleForKeyRef_eq h ▸ htold
    exact Keeps.bind (keeps_touches_timestamp htime) fun _=>keeps_touches_fixed (fixes_buildRsaPubkey r)

end Touching

section Commands

variable (dev : Device) (cr : GpgCrypto) (card : Card)

def Makes (r : Role) : Prop:=
  if (card.app.rsa r).isRsa then ∃ secret, gpgRsaGenerate cr (card.app.rsa r).nBits secret≠none
  else r=.dec→∃ privkey, cr.ecdhPublic privkey≠none

def Renews (r : Role) : Prop:=storedKey dev card.view r≠none ∧ Makes cr card r

/-- GENERATE ASYMMETRIC KEY PAIR puts a key in place of one that is stored. A reference that names no role stands for
SIG, and an ECC key is generated. -/
def GenerateReplaces (c : Cmd) : Prop:=
  c.p1=0x80 ∧ card.app.pw3Verified=true ∧ Renews dev cr card (keyTypeForRef (crtRef c)) ∧
    ((card.app.rsa (keyTypeForRef (crtRef c))).isRsa=true → roleForKeyRef (crtRef c)≠none)

/-- The generation of all keys puts one in place of one that is stored. -/
def AllReplaced : Prop:=
  (card.app.pendingUserId≠[] ∨ openpgpHasAnyKey card.app.toCardData=true) ∧
    ∃ r, (card.app.rsa r).isRsa=false ∧ Renews dev cr card r

variable {dev cr card}

variable (dev cr) in
def generation (app : Applet) (c : Cmd) : CardM Reply:=
  if (roleForKeyRef (crtRef c)).any (fun r=>(app.rsa r).isRsa) then
    if c.p1=0x80 then
      if !app.pw3Verified then apduSw swSecurityNotSatisfied else generateRsa dev cr (keyTypeForRef (crtRef c))
    else buildRsaPubkeyFromStorage dev cr (keyTypeForRef (crtRef c))
  else if c.p1=0x80 then
    if !app.pw3Verified then apduSw swSecurityNotSatisfied
    else generateEcc dev cr (keyTypeForRef (crtRef c)) (crtRef c)
  else reportPublicKey dev cr (keyTypeForRef (crtRef c))

theorem Atomic.of_fixes {α : Type} {m : CardM α} {success : α→Prop} (h : Fixes Card.view m) : Atomic dev m success card:=
  Atomic.of_left (Triple.conseq (h card.view) (fun _ hc=>hc) (fun _ _ hc=>.inr hc) fun _ _ _=>trivial)

theorem generateEcc_left (hnone : ∀ privkey, cr.ecdhPublic privkey=none) :
    Fixes Card.view (generateEcc dev cr .dec keyRef):=by
  have hrandom : Fixes Card.view (randomFill 32):=fun v c hc=>hc
  apply Fixes.bind (Fixes.gets _) fun curve=>?_
  rw [if_pos rfl]
  have hkey : ∀ v, Triple (fun c=>c.view=v) (generateDecKey dev cr) (fun point c=>point=none ∧ c.view=v)
      fun _ c=>c.view=v:=by
    intro v
    apply Triple.bind (hrandom v) fun privkey=>?_
    rw [hnone]
    exact Triple.pure fun c hc=>⟨rfl,hc⟩
  intro v
  apply Triple.bind (hkey v) fun point=>?_
  apply Triple.pre
  rintro rfl
  exact Keeps.pure _

theorem generateRsa_left (hnone : ∀ secret, gpgRsaGenerate cr (card.app.rsa r).nBits secret=none) :
    Triple (fun c=>c.view=card.view) (generateRsa dev cr r) (fun _ c=>c.view=card.view) fun _ _=>True:=by
  have hbits : Triple (fun c=>c.view=card.view) (appGets fun a=>(a.rsa r).nBits)
      (fun bits c=>bits=(card.app.rsa r).nBits ∧ c.view=card.view) fun _ _=>True:=
    Triple.gets fun c hc=>⟨congrArg (fun v : Chip Bytes × Applet=>(v.2.rsa r).nBits) hc,hc⟩
  have hsecret : Triple (fun c : Card=>c.view=card.view) nextSecret (fun _ c=>c.view=card.view) fun _ _=>True:=
    fun c hc=>hc
  apply Triple.bind hbits fun bits=>?_
  apply Triple.pre
  rintro rfl
  apply Triple.bind hsecret fun secret=>?_
  rw [hnone]
  exact Triple.pure fun c hc=>hc

theorem atomic_generateRsa (hrsa : (card.app.rsa r).isRsa=true) (h : ¬Renews dev cr card r) :
    Atomic dev (generateRsa dev cr r) Reply.Success card:=by
  by_cases hstored : storedKey dev card.view r=none
  · apply Atomic.of_touches (E:=eccSlots true r) (R:=rmemSlots true r) (T:=fun r'=>r'=r)
    · exact Touches.triple (keeps_touches_generateRsa (.inl rfl) (.inr rfl) rfl)
    · intro r' hr'
      have hne : r'≠r:=fun heq=>hr' (heq ▸ hstored)
      exact ⟨spares_of_ne (.inl hne),hne⟩
  · have hnone : ∀ secret, gpgRsaGenerate cr (card.app.rsa r).nBits secret=none:=by
      intro secret
      by_contra hsome
      apply h
      refine ⟨hstored,?_⟩
      unfold Makes
      rw [if_pos hrsa]
      exact ⟨secret,hsome⟩
    exact Atomic.of_left (Triple.conseq (generateRsa_left hnone) (fun _ hc=>hc) (fun _ _ hc=>.inr hc) fun _ _ hc=>hc)

theorem atomic_generateEcc (hrole : keyTypeForRef keyRef=r)
    (hecc : ∀ r', roleForKeyRef keyRef=some r'→(card.app.rsa r').isRsa=false)
    (h : (card.app.rsa r).isRsa=false→¬Renews dev cr card r) :
    Atomic dev (generateEcc dev cr r keyRef) Reply.Success card:=by
  by_cases hstored : (card.app.rsa r).isRsa=false ∧ storedKey dev card.view r≠none
  · have hmakes : ¬Makes cr card r:=fun hmakes=>h hstored.1 ⟨hstored.2,hmakes⟩
    unfold Makes at hmakes
    rw [hstored.1,if_neg Bool.false_ne_true] at hmakes
    simp only [not_forall,not_exists,ne_eq,not_not] at hmakes
    obtain ⟨hdec,hnone⟩:=hmakes
    rw [hdec]
    exact Atomic.of_fixes (generateEcc_left hnone)
  · apply Atomic.of_touches (E:=eccSlots false r) (R:=rmemSlots false r) (T:=fun r'=>roleForKeyRef keyRef=some r')
    · apply Touches.triple
      exact keeps_touches_generateEcc (fun hdec=>⟨hdec,rfl⟩) (fun hdec=>⟨rfl,hdec,rfl⟩) fun _ h=>h
    · intro r' hr'
      have hkind : r'=r→(card.app.rsa r').isRsa≠false:=by
        rintro rfl hfalse
        exact hstored ⟨hfalse,hr'⟩
      constructor
      · apply spares_of_ne
        by_cases heq : r'=r
        · exact .inr (hkind heq)
        · exact .inl heq
      · intro htold
        have heq : r'=r:=by
          rw [← hrole,keyTypeForRef,htold]
          rfl
        exact hkind heq (hecc r' htold)

theorem atomic_generate {c : Cmd} (h : ¬GenerateReplaces dev cr card c) :
    Atomic dev (cmdGenerateKeypair dev cr c) Reply.Success card:=by
  have hrole : ∀ r, roleForKeyRef (crtRef c)=some r → r=keyTypeForRef (crtRef c):=by
    intro r hr
    rw [keyTypeForRef,hr]
    rfl
  change Atomic dev (generation dev cr card.app c) Reply.Success card
  unfold generation
  split_ifs with hrsa hp1 hpw3 hp1 hpw3
  · exact Atomic.of_fixes (Fixes.pure _)
  · rw [Bool.not_eq_true',Bool.not_eq_false] at hpw3
    obtain ⟨r,hr,hkind⟩:=(Option.any_eq_true _ _).mp hrsa
    rw [← hrole r hr]
    apply atomic_generateRsa hkind
    intro hrenews
    rw [hrole r hr] at hrenews
    exact h ⟨hp1,hpw3,hrenews,fun _ hnone=>by rw [hr] at hnone; cases hnone⟩
  · exact Atomic.of_fixes (fixes_buildRsaPubkey _)
  · exact Atomic.of_fixes (Fixes.pure _)
  · rw [Bool.not_eq_true',Bool.not_eq_false] at hpw3
    have hecc : ∀ r, roleForKeyRef (crtRef c)=some r→(card.app.rsa r).isRsa=false:=by
      intro r hr
      rw [hr] at hrsa
      exact Bool.eq_false_iff.mpr hrsa
    apply atomic_generateEcc rfl hecc
    intro hkind hrenews
    exact h ⟨hp1,hpw3,hrenews,fun htrue=>absurd (hkind.symm.trans htrue) Bool.false_ne_true⟩
  · exact Atomic.of_fixes (fixes_reportPublicKey _)

theorem publishKeys_touches {v : Chip Bytes × Applet} {E R : ℕ→Prop} {told : Role→Prop} (dec : ByteArr 64) :
    Triple (fun c=>Touches E R told v c.view) (publishKeys cr dec)
      (fun ok c=>ok=true ∨ Touches E R told v c.view) fun _ _=>True:=by
  have hpubkey : ∀ r : Role, Triple (fun c : Card=>Touches E R told v c.view) (seGetPubkey r)
      (fun _ c=>Touches E R told v c.view) fun _ _=>True:=by
    intro r
    have hread : Fixes Card.view (seGetPubkey r):=by
      apply Fixes.bind (fixes_seCall (Chip.eccGetPublicKey_chip _)) fun reply=>?_
      cases reply <;> exact Fixes.pure _
    exact Triple.conseq (keeps_touches_fixed hread) (fun _ hc=>hc) (fun _ _ hc=>hc) fun _ _ _=>trivial
  have hfail : Triple (fun c : Card=>Touches E R told v c.view) (pure false : CardM Bool)
      (fun ok c=>ok=true ∨ Touches E R told v c.view) fun _ _=>True:=Triple.pure fun c hc=>.inr hc
  have htime : Triple (fun c : Card=>Touches E R told v c.view) (gets fun c=>c.env.time : CardM UInt32)
      (fun _ c=>Touches E R told v c.view) fun _ _=>True:=Triple.gets fun _ hc=>hc
  apply Triple.bind htime fun createdAt=>?_
  apply Triple.bind (hpubkey .sig) fun sig=>?_
  cases sig with
  | none=>exact hfail
  | some sig=>
    apply Triple.bind (hpubkey .aut) fun aut=>?_
    cases aut with
    | none=>exact hfail
    | some aut=>
      apply Triple.conseq _ (fun _ _=>trivial) (fun _ _ h=>h) fun _ _ h=>h
      apply Triple.bind (trivially _) fun _=>?_
      apply Triple.bind (trivially _) fun _=>?_
      apply Triple.bind (trivially _) fun _=>?_
      apply Triple.bind (trivially _) fun userId=>?_
      apply Triple.bind (trivially _) fun _=>?_
      apply Triple.bind (trivially _) fun _=>?_
      exact Triple.pure fun c _=>.inl rfl

/-- The generation of all keys reports success, or it has touched the slots of the ECC keys only. -/
theorem gpgGenerateKey_touches (curve : EccCurve) :
    Triple (fun c=>c.view=card.view) (gpgGenerateKey dev cr curve) (fun ok c=>ok=true ∨
      Touches (fun slot=>∃ r : Role, slot=r.slot)
        (fun slot=>slot=rmemSlotDecKey ∧ ∃ privkey, cr.ecdhPublic privkey≠none) (fun _=>False) card.view c.view)
      fun _ _=>True:=by
  generalize hE : (fun slot=>∃ r : Role, slot=r.slot)=E
  generalize hR : (fun slot=>slot=rmemSlotDecKey ∧ ∃ privkey, cr.ecdhPublic privkey≠none)=R
  have hslot : ∀ r : Role, E r.slot:=fun r=>hE ▸ ⟨r,rfl⟩
  have hdec : ∀ privkey, cr.ecdhPublic privkey≠none→R rmemSlotDecKey:=fun privkey h=>hR ▸ ⟨rfl,privkey,h⟩
  let T : Card→Prop:=fun c=>Touches E R (fun _=>False) card.view c.view
  have hstep : ∀ {α : Type} {m : CardM α}, Keeps T m→Triple T m (fun _=>T) fun _ _=>True:=
    fun h=>Triple.conseq h (fun _ hc=>hc) (fun _ _ hc=>hc) fun _ _ _=>trivial
  have hfail : Triple T (pure false : CardM Bool) (fun ok c=>ok=true ∨ T c) fun _ _=>True:=
    Triple.pure fun c hc=>.inr hc
  suffices htouches : Triple T (gpgGenerateKey dev cr curve) (fun ok c=>ok=true ∨ T c) fun _ _=>True by
    apply Triple.conseq htouches _ (fun _ _ h=>h) fun _ _ h=>h
    intro c hc
    change Touches E R (fun _=>False) card.view c.view
    rw [hc]
    exact .refl _
  apply Triple.bind (hstep (Keeps.gets _)) fun ready=>?_
  apply Triple.ite (fun _=>hfail) fun _=>?_
  apply Triple.bind (hstep (keeps_touches_seGenerate (hslot .sig) curve)) fun ok=>?_
  apply Triple.ite (fun _=>hfail) fun _=>?_
  apply Triple.bind (hstep (keeps_touches_seGenerate (hslot .aut) curve)) fun ok=>?_
  apply Triple.ite (fun _=>hfail) fun _=>?_
  have hdelete : Keeps T (eccDelete .dec):=
    Keeps.bind (keeps_view (Touches.call fun _ h=>h.setsEcc (hslot .dec) Chip.eccDelete_sets)) fun _=>Keeps.pure _
  apply Triple.bind (hstep hdelete) fun _=>?_
  apply Triple.bind (hstep (keeps_touches_generateDecKey hdec)) fun point=>?_
  cases point with
  | none=>exact hfail
  | some dec=>exact publishKeys_touches dec

theorem atomic_all (h : ¬AllReplaced dev cr card) (curve : EccCurve) :
    Atomic dev (gpgGenerateKey dev cr curve) (fun ok=>ok=true) card:=by
  by_cases hready : card.app.pendingUserId≠[] ∨ openpgpHasAnyKey card.app.toCardData=true
  · apply Atomic.of_touches (gpgGenerateKey_touches curve)
    intro r hr
    refine ⟨?_,id⟩
    unfold Spares
    split_ifs with hrsa hdec
    · exact ⟨fun hslot=>dec_ne_rsaSlot r (.inl hslot.1.symm),fun hslot=>dec_ne_rsaSlot r (.inr hslot.1.symm)⟩
    · rintro ⟨-,hpoint⟩
      subst hdec
      have hkind : (card.app.rsa .dec).isRsa=false:=Bool.eq_false_iff.mpr hrsa
      apply h
      refine ⟨hready,.dec,hkind,hr,?_⟩
      unfold Makes
      rw [hkind]
      exact fun _=>hpoint
    · intro _
      have hkind : (card.app.rsa r).isRsa=false:=Bool.eq_false_iff.mpr hrsa
      apply h
      refine ⟨hready,r,hkind,hr,?_⟩
      unfold Makes
      rw [hkind]
      exact fun hrole=>absurd hrole hdec
  · rw [not_or,ne_eq,not_not,Bool.not_eq_true] at hready
    obtain ⟨hpending,hany⟩:=hready
    apply Atomic.of_left
    intro c hc
    have happ : c.app=card.app:=congrArg Prod.snd hc
    unfold gpgGenerateKey
    rw [appGets_bind,happ,hpending,hany]
    exact .inr hc

end Commands

end CdcBadge.OpenPgp
