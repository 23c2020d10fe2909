import CdcBadge.KeyRenewal

/-!
# Keys that are lost

The old key is erased before the new one is stored. Where a call between them fails, the command
reports an error, and neither key is there.
-/

namespace CdcBadge.OpenPgp

open Handler

/-- The calls and the random bytes that are to come, the application, and what holds of the chip. -/
structure Card.At (calls : List SeOutcome) (random : List (Option Bytes)) (app : Applet) (P : Chip Bytes→Prop) (c : Card) :
    Prop where
  calls : c.env.calls=calls
  random : c.env.random=random
  app : c.app=app
  chip : P c.badge.chip

variable {blob : Bytes}

section At

variable {α : Type} {call : Chip Bytes → SeReply α × Chip Bytes} {calls : List SeOutcome} {random : List (Option Bytes)}
  {app : Applet} {P : Chip Bytes→Prop} {dev : Device} {cr : GpgCrypto} {slot : ℕ}

theorem at_done {Q : SeReply α → Chip Bytes→Prop} (hcall : ∀ chip, P chip→Q (call chip).1 (call chip).2) :
    Triple (Card.At (.done::calls) random app P) (seCall call) (fun reply=>Card.At calls random app (Q reply))
      fun _ _=>False:=by
  intro c hc
  have hnext : nextCall c=(.ok .done,{c with env:={c.env with calls:=calls}}):=by
    unfold nextCall
    rw [hc.calls]
    rfl
  unfold seCall
  rw [bind_of_ok hnext]
  exact ⟨rfl,hc.random,hc.app,hcall _ hc.chip⟩

theorem at_failed (e : SeError) : Triple (Card.At (.failed e false::calls) random app P) (seCall call)
    (fun reply c=>reply=.error e ∧ c.At calls random app P) fun _ _=>False:=by
  intro c hc
  have hnext : nextCall c=(.ok (.failed e false),{c with env:={c.env with calls:=calls}}):=by
    unfold nextCall
    rw [hc.calls]
    rfl
  unfold seCall
  rw [bind_of_ok hnext]
  exact ⟨rfl,rfl,hc.random,hc.app,hc.chip⟩

theorem at_random : Triple (Card.At calls random app P) nextRandom
    (fun bytes c=>bytes=random.headD (some []) ∧ c.At calls random.tail app P) fun _ _=>False:=by
  intro c hc
  unfold nextRandom
  rw [hc.random]
  exact ⟨rfl,hc.calls,rfl,hc.app,hc.chip⟩

theorem at_derive (slot : ℕ) (pin : Option Bytes) : Triple (Card.At (.done::calls) random app P)
    (deriveStorageKey dev cr slot pin) (fun _=>Card.At calls random app P) fun _ _=>False:=by
  have hread : Triple (Card.At (.done::calls) random app P) (seCall fun c=>((.ok () : SeReply Unit),c))
      (fun _=>Card.At calls random app P) fun _ _=>False:=at_done fun _ h=>h
  apply Triple.bind hread fun reply=>?_
  cases reply <;> exact Triple.pure fun _ h=>h

theorem at_erase (hslot : slot < Chip.rmemSlotCount) : Triple (Card.At (.done::calls) random app P)
    (seCall (Chip.rmemErase slot)) (fun _=>Card.At calls random app fun chip=>chip.rmem slot=none) fun _ _=>False:=by
  apply at_done
  intro chip _
  rw [Chip.rmemErase_lt hslot]
  exact Function.update_self ..

theorem saveSlotEncrypted_lost (hslot : slot < Chip.rmemSlotCount) (magic payload : Bytes) (pin : Option Bytes) :
    Triple (Card.At (.done::.done::.failed .error false::calls) [] app P) (saveSlotEncrypted dev cr slot magic payload pin)
      (fun ok c=>ok=false ∧ c.At calls [] app fun chip=>chip.rmem slot=none) fun _ _=>False:=by
  apply Triple.bind (at_derive slot pin) fun key=>?_
  apply Triple.bind at_random fun bytes=>?_
  apply Triple.pre
  rintro rfl
  apply Triple.bind (at_erase hslot) fun _=>?_
  apply Triple.bind (at_failed _) fun reply=>?_
  apply Triple.pre
  rintro rfl
  exact Triple.pure fun c h=>⟨rfl,h⟩

theorem gpgStorageSaveRsaKey_lost {r : Role} (hne : blob≠[]) (hmax : blob.length ≤ rsaBlobMax)
    (pin : Option Bytes) : Triple (Card.At [.done,.done,.done,.failed .error false] [] app P)
      (gpgStorageSaveRsaKey dev cr r blob pin)
      (fun ok c=>ok=false ∧ c.At [] [] app fun chip=>chip.rmem (rsaSlot0 r)=none) fun _ _=>False:=by
  have hslot:=rsaSlot0_lt r
  have hother : rsaSlot0 r≠rsaSlot0 r+1:=by omega
  unfold gpgStorageSaveRsaKey
  rw [if_neg (by simp only [not_or]; exact ⟨hne,by omega⟩)]
  apply Triple.bind (at_derive _ pin) fun key=>?_
  apply Triple.bind at_random fun bytes=>?_
  apply Triple.pre
  rintro rfl
  apply Triple.bind (at_erase (by omega)) fun _=>?_
  have hsecond : ∀ os, Triple (Card.At (.done::os) [] app fun chip=>chip.rmem (rsaSlot0 r)=none)
      (seCall (Chip.rmemErase (rsaSlot0 r+1))) (fun _=>Card.At os [] app fun chip=>chip.rmem (rsaSlot0 r)=none)
      fun _ _=>False:=by
    intro os
    apply at_done
    intro chip hempty
    rw [Chip.rmemErase_lt hslot]
    exact (Function.update_of_ne hother ..).trans hempty
  apply Triple.bind (hsecond _) fun _=>?_
  apply Triple.bind (at_failed _) fun reply=>?_
  apply Triple.pre
  rintro rfl
  exact Triple.pure fun c h=>⟨rfl,h⟩

theorem at_eccDelete (hslot : slot < Chip.eccSlotCount) : Triple (Card.At (.done::calls) random app P)
    (seCall (Chip.eccDelete slot)) (fun _=>Card.At calls random app fun chip=>chip.ecc slot=none) fun _ _=>False:=by
  apply at_done
  intro chip _
  rw [Chip.eccDelete,if_neg (Nat.not_le.mpr hslot)]
  exact Function.update_self ..

theorem at_secret : Triple (Card.At calls random app P) nextSecret (fun _=>Card.At calls random app P) fun _ _=>False:=
  fun _ h=>⟨h.calls,h.random,h.app,h.chip⟩

theorem seGenerate_lost (hslot : slot < Chip.eccSlotCount) (curve : EccCurve) :
    Triple (Card.At (.failed .error false::.done::.failed .error false::calls) random app P) (seGenerate slot curve)
      (fun ok c=>ok=false ∧ c.At calls random app fun chip=>chip.ecc slot=none) fun _ _=>False:=by
  apply Triple.bind at_secret fun secret=>?_
  apply Triple.bind (at_failed _) fun reply=>?_
  apply Triple.pre
  rintro rfl
  apply Triple.bind (at_eccDelete hslot) fun _=>?_
  apply Triple.bind (at_failed _) fun reply=>?_
  apply Triple.pre
  rintro rfl
  exact Triple.pure fun c h=>⟨rfl,h⟩

theorem seGenerate_second (hslot : slot < Chip.eccSlotCount) (curve : EccCurve) :
    Triple (Card.At (.failed .error false::.done::.done::calls) random app P) (seGenerate slot curve)
      (fun ok c=>ok=true ∧ c.At calls random app fun _=>True) fun _ _=>False:=by
  apply Triple.bind at_secret fun secret=>?_
  apply Triple.bind (at_failed _) fun reply=>?_
  apply Triple.pre
  rintro rfl
  apply Triple.bind (at_eccDelete hslot) fun _=>?_
  have hgenerate : Triple (Card.At (.done::calls) random app fun chip=>chip.ecc slot=none)
      (seCall (Chip.eccGenerate slot ⟨curve,secret⟩))
      (fun reply c=>reply=.ok () ∧ c.At calls random app fun _=>True) fun _ _=>False:=by
    apply Triple.conseq (at_done (Q:=fun reply _=>reply=.ok ()) _) (fun _ h=>h) _ fun _ _ h=>h
    · intro chip hempty
      rw [Chip.eccGenerate,if_neg (Nat.not_le.mpr hslot),hempty]
    · exact fun reply c h=>⟨h.chip,h.calls,h.random,h.app,trivial⟩
  apply Triple.bind hgenerate fun reply=>?_
  apply Triple.pre
  rintro rfl
  exact Triple.pure fun c h=>⟨rfl,h⟩

theorem generateDecKey_lost {privkey : ByteArr 32} (hpoint : cr.ecdhPublic privkey≠none) :
    Triple (Card.At (.done::.done::.failed .error false::calls) [some privkey.toList] app P) (generateDecKey dev cr)
      (fun point c=>point=none ∧ c.At calls [] app fun chip=>chip.rmem rmemSlotDecKey=none) fun _ _=>False:=by
  obtain ⟨point,hpoint⟩:=Option.ne_none_iff_exists'.mp hpoint
  have hrandom : ∀ os, Triple (Card.At os [some privkey.toList] app P) (randomFill 32)
      (fun bytes c=>bytes=privkey ∧ c.At os [] app P) fun _ _=>False:=by
    intro os
    apply Triple.bind at_random fun bytes=>?_
    apply Triple.pre
    rintro rfl
    exact Triple.pure fun c h=>⟨fit_toList privkey,h⟩
  apply Triple.bind (hrandom _) fun bytes=>?_
  apply Triple.pre
  rintro rfl
  rw [hpoint]
  apply Triple.bind (saveSlotEncrypted_lost (by decide) _ _ _) fun ok=>?_
  apply Triple.pre
  rintro rfl
  exact Triple.pure fun c h=>⟨rfl,h⟩

end At

section Lost

variable {dev : Device} {cr : GpgCrypto} {card : Card}

section Empty

variable {calls : List SeOutcome} {random : List (Option Bytes)} {c : Card} {r : Role}

theorem Card.At.rsa_lost (h : c.At calls random card.app fun chip=>chip.rmem (rsaSlot0 r)=none)
    (hkind : (card.app.rsa r).isRsa=true) : storedKey dev c.view r=none:=by
  have hrsa : (c.view.2.rsa r).isRsa=true:=(congrArg (fun a : Applet=>(a.rsa r).isRsa) h.app).trans hkind
  have hempty : c.view.1.rmem (rsaSlot0 r)=none:=h.chip
  unfold storedKey storedRsa readAt
  rw [hrsa,if_pos rfl,hempty]
  rfl

theorem Card.At.dec_lost (h : c.At calls random card.app fun chip=>chip.rmem rmemSlotDecKey=none)
    (hkind : (card.app.rsa .dec).isRsa=false) : storedKey dev c.view .dec=none:=by
  have hrsa : (c.view.2.rsa .dec).isRsa=false:=(congrArg (fun a : Applet=>(a.rsa .dec).isRsa) h.app).trans hkind
  have hempty : c.view.1.rmem rmemSlotDecKey=none:=h.chip
  unfold storedKey storedDec readAt
  rw [hrsa,if_neg Bool.false_ne_true,if_pos rfl,hempty]
  rfl

theorem Card.At.ecc_lost (h : c.At calls random card.app fun chip=>chip.ecc r.slot=none)
    (hkind : (card.app.rsa r).isRsa=false) (hr : r≠.dec) : storedKey dev c.view r=none:=by
  have hrsa : (c.view.2.rsa r).isRsa=false:=(congrArg (fun a : Applet=>(a.rsa r).isRsa) h.app).trans hkind
  have hempty : c.view.1.ecc r.slot=none:=h.chip
  unfold storedKey
  rw [hrsa,if_neg Bool.false_ne_true,if_neg hr,hempty]
  rfl

end Empty

theorem not_atomic {α : Type} {m : CardM α} {success : α→Prop} {r : Role} (env : Env)
    (h : Triple (fun c=>c={card with env}) m (fun a c=>¬success a ∧ storedKey dev c.view r=none)
      fun _ _=>False) (hstored : storedKey dev card.view r≠none) : ¬Atomic dev m success card:=by
  intro hatomic
  have hrun:=h {card with env} rfl
  cases hm : m {card with env} with
  | mk result after=>
    rw [hm] at hrun
    cases result with
    | error e=>exact hrun
    | ok a=>
      obtain ⟨hfailed,hlost⟩:=hrun
      have hkept:=hatomic env a after hm hfailed r hstored
      exact hstored (hkept.stored.symm.trans hlost)

theorem at_given (env : Env) : ∀ c, c={card with env} → c.At env.calls env.random card.app fun _=>True:=by
  rintro c rfl
  exact ⟨rfl,rfl,rfl,trivial⟩

theorem failed_swUnknown {P : Card→Prop} {r : Role} (hlost : ∀ c, P c → storedKey dev c.view r=none) :
    Triple P (apduSw swUnknown) (fun reply c=>¬reply.Success ∧ storedKey dev c.view r=none) fun _ _=>False:=
  Triple.pure fun c hc=>⟨show swUnknown≠swOk by decide,hlost c hc⟩

theorem not_atomic_put {c : Cmd} (h : PutReplaces dev cr card c) :
    ¬Atomic dev (cmdPutDataOdd dev cr c) Reply.Success card:=by
  obtain ⟨himporting,imp,hparse,hstored,hreplaces⟩:=h
  have hrun : ∀ {env : Env} {card' : Card}, card'={card with env} →
      cmdPutDataOdd dev cr c card'=storeImport dev cr imp card':=by
    rintro env card' rfl
    have hput : cmdPutDataOdd dev cr c {card with env}=stored dev cr (parseImport card.isRsa c.data) {card with env}:=
      cmdPutDataOdd_importing dev cr himporting
    rw [hput,hparse]
    rfl
  have hkind:=parseImport_isRsa hparse
  cases imp with
  | ecc r scalar=>
    obtain rfl : r=.dec:=hreplaces
    apply not_atomic {calls:=[.done,.done,.failed .error false]} _ hstored
    intro card' hcard'
    rw [hrun hcard']
    have hcurve : Triple (Card.At [.done,.done,.failed .error false] [] card.app fun _=>True)
        (appGets fun a=>a.curveOf .dec) (fun _=>Card.At [.done,.done,.failed .error false] [] card.app fun _=>True)
        fun _ _=>False:=Triple.gets fun _ h=>h
    have hstore : Triple (Card.At [.done,.done,.failed .error false] [] card.app fun _=>True)
        (storeEcc dev cr .dec scalar) (fun reply c=>¬reply.Success ∧ storedKey dev c.view .dec=none) fun _ _=>False:=by
      apply Triple.bind hcurve fun curve=>?_
      rw [if_pos rfl]
      apply Triple.bind (saveSlotEncrypted_lost (by decide) _ _ _) fun ok=>?_
      apply Triple.pre
      rintro rfl
      exact failed_swUnknown fun c hc=>hc.dec_lost hkind
    exact hstore card' (at_given _ card' hcard')
  | rsa r e p q=>
    obtain ⟨blob,hblob⟩:=Option.ne_none_iff_exists'.mp hreplaces
    obtain ⟨hne,hmax⟩:=gpgRsaBlobBuild_length cr hblob
    apply not_atomic {calls:=[.done,.done,.done,.failed .error false]} _ hstored
    intro card' hcard'
    rw [hrun hcard']
    have hbits : Triple (Card.At [.done,.done,.done,.failed .error false] [] card.app fun _=>True)
        (appGets fun a=>(a.rsa r).nBits) (fun bits c=>bits=(card.app.rsa r).nBits ∧
          c.At [.done,.done,.done,.failed .error false] [] card.app fun _=>True)
        fun _ _=>False:=Triple.gets fun c h=>⟨by rw [h.app],h⟩
    have hstore : Triple (Card.At [.done,.done,.done,.failed .error false] [] card.app fun _=>True)
        (storeRsa dev cr r e p q) (fun reply c=>¬reply.Success ∧ storedKey dev c.view r=none) fun _ _=>False:=by
      apply Triple.bind hbits fun bits=>?_
      apply Triple.pre
      rintro rfl
      rw [hblob]
      apply Triple.bind (gpgStorageSaveRsaKey_lost hne hmax none) fun ok=>?_
      apply Triple.pre
      rintro rfl
      exact failed_swUnknown fun c hc=>hc.rsa_lost hkind
    exact hstore card' (at_given _ card' hcard')

theorem gpgRsaGenerate_length {nBits : UInt16} {secret : ℕ} (h : gpgRsaGenerate cr nBits secret=some blob) :
    blob≠[] ∧ blob.length ≤ rsaBlobMax:=by
  unfold gpgRsaGenerate at h
  split_ifs at h
  obtain ⟨k,-,hk⟩:=Option.bind_eq_some_iff.mp h
  exact rsaSerialize_length hk

theorem generateRsa_lost {r : Role} (hstored : storedKey dev card.view r≠none) (hkind : (card.app.rsa r).isRsa=true)
    {secret : ℕ} (hblob : gpgRsaGenerate cr (card.app.rsa r).nBits secret=some blob) :
    ¬Atomic dev (generateRsa dev cr r) Reply.Success card:=by
  obtain ⟨hne,hmax⟩:=gpgRsaGenerate_length hblob
  have hnew : ∀ env : Env, env.calls=[.done,.done,.done,.failed .error false]→env.random=[] →
      env.secrets=[secret]→Triple (fun c=>c={card with env}) (generateRsa dev cr r)
        (fun reply c=>¬reply.Success ∧ storedKey dev c.view r=none) fun _ _=>False:=by
    intro env hcalls hrandom hsecrets
    have hbits : Triple (fun c=>c={card with env}) (appGets fun a=>(a.rsa r).nBits)
        (fun bits c=>bits=(card.app.rsa r).nBits ∧ c={card with env}) fun _ _=>False:=
      Triple.gets fun c h=>⟨by rw [h],h⟩
    have hsecret : Triple (fun c=>c={card with env}) nextSecret (fun s c=>s=secret ∧
        c.At [.done,.done,.done,.failed .error false] [] card.app fun _=>True) fun _ _=>False:=by
      rintro c rfl
      exact ⟨by rw [hsecrets]; rfl,hcalls,hrandom,rfl,trivial⟩
    apply Triple.bind hbits fun bits=>?_
    apply Triple.pre
    rintro rfl
    apply Triple.bind hsecret fun s=>?_
    apply Triple.pre
    rintro rfl
    rw [hblob]
    apply Triple.bind (gpgStorageSaveRsaKey_lost hne hmax none) fun ok=>?_
    apply Triple.pre
    rintro rfl
    exact failed_swUnknown fun c hc=>hc.rsa_lost hkind
  let env : Env:={calls:=[.done,.done,.done,.failed .error false],secrets:=[secret]}
  exact not_atomic env (hnew env rfl rfl rfl) hstored

theorem generateEcc_lost {r : Role} {keyRef : UInt8} (hstored : storedKey dev card.view r≠none)
    (hkind : (card.app.rsa r).isRsa=false) (hmakes : r=.dec→∃ privkey, cr.ecdhPublic privkey≠none) :
    ¬Atomic dev (generateEcc dev cr r keyRef) Reply.Success card:=by
  have hcurve : ∀ {os rs}, Triple (Card.At os rs card.app fun _=>True) (appGets fun a=>a.curveOf r)
      (fun _=>Card.At os rs card.app fun _=>True) fun _ _=>False:=Triple.gets fun _ h=>h
  by_cases hdec : r=.dec
  · obtain ⟨privkey,hpoint⟩:=hmakes hdec
    subst hdec
    let env : Env:={calls:=[.done,.done,.failed .error false],random:=[some privkey.toList]}
    apply not_atomic env _ hstored
    apply Triple.conseq _ (at_given env) (fun _ _ h=>h) fun _ _ h=>h
    apply Triple.bind hcurve fun curve=>?_
    rw [if_pos rfl]
    apply Triple.bind (generateDecKey_lost hpoint) fun point=>?_
    apply Triple.pre
    rintro rfl
    exact failed_swUnknown fun c hc=>hc.dec_lost hkind
  · have hslot : r.slot < Chip.eccSlotCount:=by cases r <;> decide
    let env : Env:={calls:=[.failed .error false,.done,.failed .error false]}
    apply not_atomic env _ hstored
    apply Triple.conseq _ (at_given env) (fun _ _ h=>h) fun _ _ h=>h
    apply Triple.bind hcurve fun curve=>?_
    rw [if_neg hdec]
    apply Triple.bind (seGenerate_lost hslot curve) fun ok=>?_
    apply Triple.pre
    rintro rfl
    exact failed_swUnknown fun c hc=>hc.ecc_lost hkind hdec

theorem not_atomic_generate {c : Cmd} (h : GenerateReplaces dev cr card c) :
    ¬Atomic dev (cmdGenerateKeypair dev cr c) Reply.Success card:=by
  obtain ⟨hp1,hpw3,⟨hstored,hmakes⟩,hnamed⟩:=h
  change ¬Atomic dev (generation dev cr card.app c) Reply.Success card
  unfold generation
  unfold Makes at hmakes
  generalize hrole : keyTypeForRef (crtRef c)=r at hstored hmakes hnamed ⊢
  have hsame : ∀ r', roleForKeyRef (crtRef c)=some r' → r'=r:=by
    intro r' hr'
    rw [← hrole,keyTypeForRef,hr']
    rfl
  by_cases hkind : (card.app.rsa r).isRsa=true
  · obtain ⟨r',hr'⟩:=Option.ne_none_iff_exists'.mp (hnamed hkind)
    obtain rfl:=hsame r' hr'
    rw [if_pos hkind] at hmakes
    obtain ⟨secret,hsecret⟩:=hmakes
    obtain ⟨blob,hblob⟩:=Option.ne_none_iff_exists'.mp hsecret
    have hany : (roleForKeyRef (crtRef c)).any (fun r=>(card.app.rsa r).isRsa)=true:=by rw [hr']; exact hkind
    rw [hany,if_pos rfl,if_pos hp1,hpw3]
    exact generateRsa_lost hstored hkind hblob
  · rw [if_neg hkind] at hmakes
    have hany : (roleForKeyRef (crtRef c)).any (fun r=>(card.app.rsa r).isRsa)=false:=by
      cases hr' : roleForKeyRef (crtRef c) with
      | none=>rfl
      | some r'=>exact Bool.eq_false_iff.mpr (hsame r' hr' ▸ hkind)
    rw [hany,if_neg Bool.false_ne_true,if_pos hp1,hpw3]
    exact generateEcc_lost hstored (Bool.eq_false_iff.mpr hkind) hmakes

theorem not_atomic_all (h : AllReplaced dev cr card) (curve : EccCurve) :
    ¬Atomic dev (gpgGenerateKey dev cr curve) (fun ok=>ok=true) card:=by
  obtain ⟨hready,r,hkind,hstored,hmakes⟩:=h
  have hstart : ∀ {os rs}, Triple (Card.At os rs card.app fun _=>True)
      (appGets fun a=>a.pendingUserId != [] || openpgpHasAnyKey a.toCardData)
      (fun ready c=>ready=true ∧ c.At os rs card.app fun _=>True) fun _ _=>False:=by
    intro os rs
    apply Triple.gets
    intro c hc
    rw [hc.app]
    exact ⟨by simpa using hready,hc⟩
  have hfail : ∀ {P : Card→Prop}, (∀ c, P c → storedKey dev c.view r=none) →
      Triple P (pure false : CardM Bool) (fun ok c=>¬ok=true ∧ storedKey dev c.view r=none) fun _ _=>False:=
    fun hlost=>Triple.pure fun c hc=>⟨Bool.false_ne_true,hlost c hc⟩
  cases r with
  | sig=>
    let env : Env:={calls:=[.failed .error false,.done,.failed .error false]}
    apply not_atomic env _ hstored
    apply Triple.conseq _ (at_given env) (fun _ _ h=>h) fun _ _ h=>h
    apply Triple.bind hstart fun ready=>?_
    apply Triple.pre
    rintro rfl
    apply Triple.bind (seGenerate_lost (by decide) curve) fun ok=>?_
    apply Triple.pre
    rintro rfl
    exact hfail fun c hc=>hc.ecc_lost hkind (by decide)
  | aut=>
    let env : Env:={calls:=[.failed .error false,.done,.done,.failed .error false,.done,.failed .error false]}
    apply not_atomic env _ hstored
    apply Triple.conseq _ (at_given env) (fun _ _ h=>h) fun _ _ h=>h
    apply Triple.bind hstart fun ready=>?_
    apply Triple.pre
    rintro rfl
    apply Triple.bind (seGenerate_second (by decide) curve) fun ok=>?_
    apply Triple.pre
    rintro rfl
    apply Triple.bind (seGenerate_lost (by decide) curve) fun ok=>?_
    apply Triple.pre
    rintro rfl
    exact hfail fun c hc=>hc.ecc_lost hkind (by decide)
  | dec=>
    unfold Makes at hmakes
    rw [if_neg (by rw [hkind]; exact Bool.false_ne_true)] at hmakes
    obtain ⟨privkey,hpoint⟩:=hmakes rfl
    let env : Env:=
      { calls:=[.failed .error false,.done,.done,.failed .error false,.done,.done,.done,.done,.done,.failed .error false]
        random:=[some privkey.toList] }
    apply not_atomic env _ hstored
    apply Triple.conseq _ (at_given env) (fun _ _ h=>h) fun _ _ h=>h
    apply Triple.bind hstart fun ready=>?_
    apply Triple.pre
    rintro rfl
    apply Triple.bind (seGenerate_second (by decide) curve) fun ok=>?_
    apply Triple.pre
    rintro rfl
    apply Triple.bind (seGenerate_second (by decide) curve) fun ok=>?_
    apply Triple.pre
    rintro rfl
    have hdelete : ∀ {os rs}, Triple (Card.At (.done::os) rs card.app fun _=>True) (eccDelete .dec)
        (fun _=>Card.At os rs card.app fun _=>True) fun _ _=>False:=
      Triple.bind (at_done fun _ _=>trivial) fun _=>Triple.pure fun _ h=>h
    apply Triple.bind hdelete fun _=>?_
    apply Triple.bind (generateDecKey_lost hpoint) fun point=>?_
    apply Triple.pre
    rintro rfl
    exact hfail fun c hc=>hc.dec_lost hkind

/-- Whatever becomes of the calls, a command that does not report success keeps the keys, their fingerprints and their
times, exactly where it puts no key in place of a stored one. -/
theorem key_writes_atomic (dev : Device) (cr : GpgCrypto) (card : Card) (c : Cmd) (curve : EccCurve) :
    (Atomic dev (cmdPutDataOdd dev cr c) Reply.Success card ↔ ¬PutReplaces dev cr card c) ∧
      (Atomic dev (cmdGenerateKeypair dev cr c) Reply.Success card ↔ ¬GenerateReplaces dev cr card c) ∧
      (Atomic dev (gpgGenerateKey dev cr curve) (fun ok=>ok=true) card ↔ ¬AllReplaced dev cr card):=by
  refine ⟨⟨fun hatomic h=>?_,atomic_put⟩,⟨fun hatomic h=>?_,atomic_generate⟩,fun hatomic h=>?_,fun h=>?_⟩
  · exact not_atomic_put h hatomic
  · exact not_atomic_generate h hatomic
  · exact not_atomic_all h curve hatomic
  · exact atomic_all h curve

end Lost

def generateSig : Cmd:={ins:=0x47,p1:=0x80,p2:=0,data:=[0xB6,0x00],le:=0}

def sigCard : Card:=
  { emptyCard with
    badge:={ emptyCard.badge with
      chip:={ecc:=fun slot=>if slot=Role.sig.slot then some ⟨.ed25519,7⟩ else none,rmem:=fun _=>none} } }

/-- The slot is occupied, it is deleted, and the other attempt fails. -/
theorem sig_key_lost :
    let calls : List SeOutcome:=[.done,.done,.failed .error false]
    let after:=cmdGenerateKeypair Device.plain GpgCrypto.plain generateSig {sigCard with env:={calls}}
    storedKey Device.plain sigCard.view .sig=some (.ecc ⟨.ed25519,7⟩) ∧ after.1=.ok {sw:=swUnknown} ∧
      storedKey Device.plain after.2.view .sig=none ∧
      ¬Atomic Device.plain (cmdGenerateKeypair Device.plain GpgCrypto.plain generateSig) Reply.Success sigCard:=by
  intro calls after
  have hstored : storedKey Device.plain sigCard.view .sig=some (.ecc ⟨.ed25519,7⟩):=rfl
  refine ⟨hstored,rfl,rfl,not_atomic_generate ⟨rfl,rfl,⟨?_,?_⟩,?_⟩⟩
  · rw [show keyTypeForRef (crtRef generateSig)=.sig from rfl,hstored]
    exact Option.some_ne_none _
  · intro hdec
    cases hdec
  · intro hrsa
    cases hrsa

end CdcBadge.OpenPgp
