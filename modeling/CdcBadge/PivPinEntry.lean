import CdcBadge.PivMgmtKey

/-!
# PIN entry over PIV

The badge PIN is asked for by the card and elsewhere. The card refuses it while the counter is at zero, and the main
loop restores the counter once the timer has run down.
-/

namespace CdcBadge.Pin

open Handler

variable {cr : Crypto}

/-- How counter and timer go together. -/
structure Timed (pm : PinManager) : Prop where
  unloaded : pm.pinLoaded=false→pm.badgeRetries=0 ∧ pm.lockoutActive=false
  spent : pm.pinLoaded=true→pm.badgeRetries=0→pm.lockoutActive=true
  running : pm.pinLoaded=true→pm.lockoutActive=true →
    pm.badgeRetries=0 ∨ pm.badgeRetries=1 ∧ pm.badgeLockoutCount=0

/-- Before the first `init`. -/
def Unstarted (pm : PinManager) : Prop:=pm.pinLoaded=false ∧ pm.lockoutActive=false

theorem besideSaves_pm {Q : PinManager→Prop} (h : ∀ pm x y z, Q pm→Q { pm with
    persistedBadgeLockoutCount:=x,persistedPw1Retries:=y,persistedPw3Retries:=z }) :
    BesideSaves fun b=>Q b.pm:=
  ⟨fun _ _ hb=>hb,fun _ hb=>hb,fun _ _ hb=>hb,fun b x y z hb=>h b.pm x y z hb⟩

theorem besideSaves_timed : BesideSaves fun b=>Timed b.pm:=
  besideSaves_pm fun _ _ _ _ h=>⟨h.unloaded,h.spent,h.running⟩

theorem besideSaves_unstarted : BesideSaves fun b=>Unstarted b.pm:=besideSaves_pm fun _ _ _ _ h=>h

theorem unstarted_loadFromStorage : Keeps (fun b=>Unstarted b.pm) (loadFromStorage cr):=by
  have hnote (u : Bool) : Keeps (fun b=>Unstarted b.pm) (updatePm fun pm=>{pm with storageUnreadable:=u}):=
    Keeps.modify fun _ hb=>hb
  have hnext : Keeps (fun b=>Unstarted b.pm) nextLoad:=fun b hb=>hb
  refine Keeps.bind hnext fun o=>Keeps.ite (fun _=>Keeps.pure _) fun _=>?_
  refine Keeps.bind (hnote false) fun _=>Keeps.bind (keeps_seCall (rmemRead_chip _ _)) fun reply=>?_
  split
  · exact Keeps.pure _
  · exact Keeps.bind (hnote true) fun _=>Keeps.pure _
  · refine Keeps.ite (fun _=>Keeps.pure _) fun _=>Keeps.bind ?_ fun valid=>?_
    · refine Keeps.bind (keeps_seCall (Chip.eccGetPublicKey_chip _)) fun reply=>?_
      split
      · exact Keeps.pure _
      · exact Keeps.ite (fun _=>Keeps.pure _) fun _=>Keeps.pure _
    · refine Keeps.ite (fun _=>Keeps.bind (hnote true) fun _=>Keeps.pure _) fun _=>?_
      exact Keeps.bind (Keeps.modify fun _ hb=>hb) fun _=>Keeps.pure _

theorem unstarted_loadDefaults : Keeps (fun b=>Unstarted b.pm) (loadDefaults cr):=by
  have hsalt : Keeps (fun b=>Unstarted b.pm) generateSalt:=fun b hb=>hb
  exact Keeps.bind hsalt fun _=>Keeps.bind hsalt fun _=>Keeps.modify fun _ hb=>hb

/-- `init` comes up with no try where a lockout is recorded or the record cannot be read, and with one try else. -/
theorem timed_init : Triple (fun b=>Unstarted b.pm) (init cr) (fun _ b=>Timed b.pm) fun _ _=>True:=by
  unfold init
  refine Triple.bind (Q:=fun loaded b=>loaded=false ∧ Unstarted b.pm) (Triple.gets fun b hb=>⟨hb.1,hb⟩) fun loaded=>
    Triple.pre ?_
  rintro rfl
  refine Triple.ite (fun h=>absurd h (by decide)) fun _=>?_
  refine Triple.bind (Q:=fun _ b=>Unstarted b.pm) (unstarted_loadFromStorage.conseq (fun _ h=>h) (fun _ _ h=>h)
    fun _ _ _=>trivial) fun loaded=>?_
  refine Triple.bind (Q:=fun _ b=>Unstarted b.pm) (Triple.gets fun b hb=>hb) fun unreadable=>?_
  refine Triple.ite (fun _=>?_) fun _=>?_
  · refine Triple.bind (Q:=fun _ b=>Timed b.pm) (Triple.modify fun b hb=>?_) fun _=>Triple.pure fun _ h=>h
    exact ⟨fun _=>⟨rfl,hb.2⟩,fun h=>absurd (hb.1.symm.trans h) (by decide),fun h=>absurd (hb.1.symm.trans h) (by decide)⟩
  · refine Triple.bind (Q:=fun _ b=>Unstarted b.pm) ?_ fun _=>?_
    · have hfirst : Keeps (fun b=>Unstarted b.pm) (when (!loaded) do
          loadDefaults cr
          saveToStorage cr):=
        Keeps.when fun _=>Keeps.bind unstarted_loadDefaults fun _=>besideSaves_unstarted.saveToStorage cr
      exact hfirst.conseq (fun _ h=>h) (fun _ _ h=>h) fun _ _ _=>trivial
    · refine Triple.bind (Q:=fun _ b=>b.pm.pinLoaded=true ∧
        (b.pm.badgeRetries=0 ∨ b.pm.badgeRetries=1 ∧ b.pm.badgeLockoutCount=0)) (Triple.modify fun b hb=>?_) fun _=>?_
      · refine ⟨rfl,?_⟩
        by_cases hcount : b.pm.badgeLockoutCount=0
        · exact .inr ⟨if_neg (not_not.mpr hcount),hcount⟩
        · exact .inl (if_pos hcount)
      · refine Triple.bind (Q:=fun _ b=>Timed b.pm) (Triple.modify fun b hb=>?_) fun _=>Triple.pure fun _ h=>h
        exact ⟨fun h=>absurd (hb.1.symm.trans h) (by decide),fun _ _=>rfl,fun _ _=>hb.2⟩

def Startable (pm : PinManager) : Prop:=Timed pm ∨ Unstarted pm

theorem timed_ensureInit : Triple (fun b=>Startable b.pm) (ensureInit cr) (fun _ b=>Timed b.pm) fun _ _=>True:=by
  unfold ensureInit
  refine Triple.named fun b₀ hb₀=>?_
  refine Triple.bind (Q:=fun loaded b=>loaded=b₀.pm.pinLoaded ∧ b=b₀)
    (Triple.gets fun b hb=>by rw [hb]; exact ⟨rfl,rfl⟩) fun loaded=>Triple.pre ?_
  rintro rfl
  refine Triple.when (fun hunloaded=>?_) fun hloaded=>?_
  · have hstart : Unstarted b₀.pm:=by
      rcases hb₀ with htimed | hunstarted
      · exact ⟨by simpa using hunloaded,(htimed.unloaded (by simpa using hunloaded)).2⟩
      · exact hunstarted
    refine timed_init.conseq ?_ (fun _ _ h=>h) fun _ _ h=>h
    rintro b rfl
    exact hstart
  · rintro b rfl
    rcases hb₀ with htimed | hunstarted
    · exact htimed
    · exact absurd hunstarted.1 (by simpa using hloaded)

theorem timed_checkAndReset : Keeps (fun b=>Timed b.pm) checkAndResetExpiredLockout:=by
  refine Triple.bind (Q:=fun active b=>Timed b.pm ∧ active=b.pm.lockoutActive) (Triple.gets fun b hb=>⟨hb,rfl⟩) fun active=>?_
  refine Triple.bind (Q:=fun _ b=>Timed b.pm ∧ active=b.pm.lockoutActive) (Triple.gets fun b hb=>hb) fun remaining=>?_
  refine Triple.ite (fun _=>Triple.pure fun _ hb=>hb.1) fun hactive=>Triple.ite (fun _=>Triple.pure fun _ hb=>hb.1) fun _=>?_
  refine Triple.modify fun b hb=>?_
  have hloaded : b.pm.pinLoaded≠false:=fun hunloaded=>by
    have hinactive:=(hb.1.unloaded hunloaded).2
    rw [← hb.2] at hinactive
    simp [hinactive] at hactive
  have hfull : maxRetries≠0:=by decide
  exact ⟨fun h=>absurd h hloaded,fun _ h=>absurd h hfull,fun _ h=>by cases h⟩

theorem timed_verifyBadgePinHashCounted (hashIn : ByteArr 16) :
    Triple (fun b=>Startable b.pm) (verifyBadgePinHashCounted cr hashIn) (fun _ b=>Timed b.pm) fun _ _=>True:=by
  have hspent : BesideSaves fun b=>b.pm.pinLoaded=true ∧ b.pm.badgeRetries=0:=
    besideSaves_pm (Q:=fun pm=>pm.pinLoaded=true ∧ pm.badgeRetries=0) fun _ _ _ _ h=>h
  unfold verifyBadgePinHashCounted
  refine Triple.bind timed_ensureInit fun _=>?_
  refine Triple.bind (Q:=fun _ b=>Timed b.pm) (timed_checkAndReset.conseq (fun _ h=>h) (fun _ _ h=>h)
    fun _ _ _=>trivial) fun _=>?_
  refine Triple.bind (Q:=fun retries b=>Timed b.pm ∧ retries=b.pm.badgeRetries) (Triple.gets fun b hb=>⟨hb,rfl⟩)
    fun retries=>?_
  refine Triple.ite (fun _=>Triple.pure fun _ hb=>hb.1) fun hretries=>?_
  -- The timer runs on with a try left only after power-on, and this is that try.
  refine Triple.bind (Q:=fun _ b=>b.pm.pinLoaded=true ∧ (b.pm.lockoutActive=true→b.pm.badgeRetries=0))
    (Triple.modify fun b hb=>?_) fun _=>?_
  · obtain ⟨htimed,rfl⟩:=hb
    have hloaded : b.pm.pinLoaded=true:=by
      by_contra hunloaded
      exact hretries (htimed.unloaded (by simpa using hunloaded)).1
    refine ⟨hloaded,fun hactive=>?_⟩
    obtain ⟨hone,-⟩:=(htimed.running hloaded hactive).resolve_left hretries
    change b.pm.badgeRetries-1=0
    rw [hone]
    rfl
  refine Triple.bind (Q:=fun _ b=>b.pm.pinLoaded=true ∧ (b.pm.lockoutActive=true→b.pm.badgeRetries=0))
    (Triple.gets fun _ hb=>hb) fun hash=>Triple.ite (fun _=>?_) fun _=>?_
  · have hfull : maxRetries≠0:=by decide
    refine Triple.bind (Q:=fun _ b=>b.pm.pinLoaded=true) (Triple.modify fun _ hb=>hb.1) fun _=>?_
    refine Triple.bind (Q:=fun _ b=>Timed b.pm) (Triple.modify fun b hb=>?_) fun _=>?_
    · exact ⟨fun h=>absurd (hb.symm.trans h) (by decide),fun _ h=>absurd h hfull,fun _ h=>by cases h⟩
    have hsave : Keeps (fun b=>Timed b.pm) (do
        when ((← pmGets (·.persistedBadgeLockoutCount))≠0) (saveToStorage cr)
        pure true):=
      Keeps.bind (Keeps.gets _) fun _=>Keeps.bind (Keeps.when fun _=>besideSaves_timed.saveToStorage cr) fun _=>Keeps.pure _
    exact hsave.conseq (fun _ h=>h) (fun _ _ h=>h) fun _ _ _=>trivial
  · refine Triple.bind (Q:=fun _ b=>b.pm.pinLoaded=true ∧ (b.pm.lockoutActive=true→b.pm.badgeRetries=0))
      (Triple.modify fun _ hb=>hb) fun _=>?_
    refine Triple.bind (Q:=fun retries b=>retries=b.pm.badgeRetries ∧ b.pm.pinLoaded=true ∧
      (b.pm.lockoutActive=true→b.pm.badgeRetries=0)) (Triple.gets fun b hb=>⟨rfl,hb⟩) fun retries=>?_
    refine Triple.bind (Q:=fun _ b=>Timed b.pm) (Triple.when (fun hzero=>?_) fun hleft b hb=>?_) fun _=>
      Triple.pure fun _ h=>h
    · refine Triple.bind (Q:=fun _ b=>b.pm.pinLoaded=true ∧ b.pm.badgeRetries=0)
        (Triple.modify fun b hb=>⟨hb.2.1,hb.1.symm.trans hzero⟩) fun _=>?_
      refine Triple.bind (Q:=fun _ b=>b.pm.pinLoaded=true ∧ b.pm.badgeRetries=0) (Triple.modify fun _ hb=>hb) fun _=>?_
      refine Triple.bind (Q:=fun _ b=>b.pm.pinLoaded=true ∧ b.pm.badgeRetries=0)
        ((hspent.saveToStorage cr).conseq (fun _ h=>h) (fun _ _ h=>h) fun _ _ _=>trivial) fun _=>?_
      refine Triple.modify fun b hb=>?_
      exact ⟨fun h=>absurd (hb.1.symm.trans h) (by decide),fun _ _=>rfl,fun _ _=>.inl hb.2⟩
    · obtain ⟨rfl,hloaded,hactive⟩:=hb
      exact ⟨fun h=>absurd (hloaded.symm.trans h) (by decide),fun _ h=>absurd h hleft,fun _ h=>.inl (hactive h)⟩

theorem timed_verifyBadgePin (pin : Bytes) :
    Triple (fun b=>Startable b.pm) (verifyBadgePin cr pin) (fun _ b=>Timed b.pm) fun _ _=>True:=
  Triple.bind timed_ensureInit fun _=>(timed_verifyBadgePinHashCounted _).conseq (fun _ h=>.inl h) (fun _ _ h=>h)
    fun _ _ h=>h

theorem timed_initAgain : Triple (fun b=>Startable b.pm) (init cr) (fun _ b=>Timed b.pm) fun _ _=>True:=by
  refine Triple.named fun b₀ hb₀=>?_
  by_cases hloaded : b₀.pm.pinLoaded=true
  · have htimed : Timed b₀.pm:=hb₀.resolve_right fun h=>absurd (h.1.symm.trans hloaded) (by decide)
    rintro b rfl
    simp only [init,pmGets,bind_gets,hloaded,if_true]
    exact htimed
  · refine timed_init.conseq ?_ (fun _ _ h=>h) fun _ _ h=>h
    rintro b rfl
    have hunloaded : b.pm.pinLoaded=false:=by simpa using hloaded
    exact hb₀.elim (fun h=>⟨hunloaded,(h.unloaded hunloaded).2⟩) id

theorem verifyBadgePin_answer (pin : Bytes) (hash : ByteArr 16) :
    Triple (fun b=>b.pm.pinLoaded=true ∧ b.pm.badgeRetries≠0 ∧ b.pm.badgeHash=hash) (verifyBadgePin cr pin)
      (fun answer _=>answer=true ↔ hash=computeBadgeHash cr pin) fun _ _=>True:=by
  have hensure : Keeps (fun b=>b.pm.pinLoaded=true ∧ b.pm.badgeRetries≠0 ∧ b.pm.badgeHash=hash) (ensureInit cr):=by
    refine keeps_iff.mpr fun b hb=>?_
    rw [ensureInit_loaded hb.1]
    exact hb
  have hcheck : Keeps (fun b=>b.pm.pinLoaded=true ∧ b.pm.badgeRetries≠0 ∧ b.pm.badgeHash=hash)
      checkAndResetExpiredLockout:=by
    have hfull : maxRetries≠0:=by decide
    refine Keeps.bind (Keeps.gets _) fun _=>Keeps.bind (Keeps.gets _) fun _=>Keeps.ite (fun _=>Keeps.pure _) fun _=>?_
    exact Keeps.ite (fun _=>Keeps.pure _) fun _=>Keeps.modify fun b hb=>⟨hb.1,hfull,hb.2.2⟩
  have hweak {m : PinM Unit} (h : Keeps (fun b=>b.pm.pinLoaded=true ∧ b.pm.badgeRetries≠0 ∧ b.pm.badgeHash=hash) m) :
      Triple (fun b=>b.pm.pinLoaded=true ∧ b.pm.badgeRetries≠0 ∧ b.pm.badgeHash=hash) m
        (fun _ b=>b.pm.pinLoaded=true ∧ b.pm.badgeRetries≠0 ∧ b.pm.badgeHash=hash) fun _ _=>True:=
    h.conseq (fun _ h=>h) (fun _ _ h=>h) fun _ _ _=>trivial
  have hdecides (answer : Bool) (hanswer : answer=true ↔ hash=computeBadgeHash cr pin) {m : PinM Unit} :
      Triple (fun _=>True) (m >>= fun _=>pure answer) (fun answer _=>answer=true ↔ hash=computeBadgeHash cr pin)
        fun _ _=>True:=
    Triple.bind (Q:=fun _ _=>True) (Triple.of_ok fun _ _ _ _ _=>trivial) fun _=>Triple.pure fun _ _=>hanswer
  unfold verifyBadgePin verifyBadgePinHashCounted
  refine Triple.bind (hweak hensure) fun _=>Triple.bind (hweak hensure) fun _=>Triple.bind (hweak hcheck) fun _=>?_
  refine Triple.bind (Q:=fun retries b=>retries≠0 ∧ b.pm.badgeHash=hash) (Triple.gets fun b hb=>⟨hb.2.1,hb.2.2⟩)
    fun retries=>Triple.pre fun hretries=>Triple.ite (fun h=>absurd h hretries) fun _=>?_
  refine Triple.bind (Q:=fun _ b=>b.pm.badgeHash=hash) (Triple.modify fun _ hb=>hb) fun _=>?_
  refine Triple.bind (Q:=fun stored _=>stored=hash ∧ True) (Triple.gets fun _ hb=>⟨hb,trivial⟩) fun stored=>Triple.pre ?_
  rintro rfl
  refine Triple.ite (fun hsame=>?_) fun hdiffers=>?_
  · have hright : true=true ↔ stored=computeBadgeHash cr pin:=iff_of_true rfl ((compareHash_iff _ _).mp hsame)
    refine Triple.bind (Q:=fun _ _=>True) (Triple.modify fun _ _=>trivial) fun _=>?_
    refine Triple.bind (Q:=fun _ _=>True) (Triple.modify fun _ _=>trivial) fun _=>?_
    exact Triple.bind (Q:=fun _ _=>True) (Triple.gets fun _ _=>trivial) fun _=>hdecides true hright
  · have hwrong : false=true ↔ stored=computeBadgeHash cr pin:=
      iff_of_false (by decide) fun h=>hdiffers ((compareHash_iff _ _).mpr h)
    refine Triple.bind (Q:=fun _ _=>True) (Triple.modify fun _ _=>trivial) fun _=>?_
    exact Triple.bind (Q:=fun _ _=>True) (Triple.gets fun _ _=>trivial) fun _=>hdecides false hwrong

end CdcBadge.Pin

namespace CdcBadge.Piv

open Handler
open Pin (PowerLost PinM PinOp PinManager Timed Unstarted Startable)

/-- What uses the badge PIN elsewhere, a pass of the main loop, which looks at the timer, and what passes in between. -/
inductive BadgeUse
  | verifyBadgePin (pin : Bytes)
  | verifyBadgePinHashCounted (hashIn : ByteArr 16)
  | pinStorageVerifyFido2Hash (hashIn : ByteArr 16)
  | mainLoop
  | wait (ms : ℕ)

def BadgeUse.op : BadgeUse→PinOp
  | .verifyBadgePin pin=>.verifyBadgePin pin
  | .verifyBadgePinHashCounted hashIn=>.verifyBadgePinHashCounted hashIn
  | .pinStorageVerifyFido2Hash hashIn=>.pinStorageVerifyFido2Hash hashIn
  | .mainLoop=>.checkAndResetExpiredLockout
  | .wait ms=>.wait ms

inductive EntryOp
  | apdu (raw : Bytes)
  | deselect
  | boot
  | use (u : BadgeUse)

structure EntryInput where
  op : EntryOp
  env : Env:={}

def startUp (cr : PivCrypto) (shortReads : Bool) : KeysM Bool:=do
  let _ ← onPins (Pin.init cr.toCrypto)
  pivInit shortReads

def Device.enter (cr : PivCrypto) (shortReads : Bool) (d : Device) (i : EntryInput) : Option Reply × Device:=
  match i.op with
  | .apdu raw=>d.respond cr shortReads ⟨.apdu raw,i.env⟩
  | .deselect=>d.respond cr shortReads ⟨.deselect,i.env⟩
  | .boot=>
    match startUp cr shortReads (d.bootKeys i.env) with
    | (.ok on,be)=>(none,{ctx:={d.powerCut.ctx with be},on})
    | (.error _,be)=>(none,({ctx:={d.powerCut.ctx with be}} : Device).powerCut)
  | .use u=>
    match onPins (u.op.run cr.toCrypto) (d.ctx.be.given i.env) with
    | (.ok _,be)=>(none,{d with ctx:={d.ctx with be}})
    | (.error _,be)=>(none,({d with ctx:={d.ctx with be}} : Device).powerCut)

def Device.enterStep (cr : PivCrypto) (shortReads : Bool) (d : Device) (i : EntryInput) : Device:=(d.enter cr shortReads i).2

def Device.pm (d : Device) : PinManager:=d.ctx.be.badge.pm

structure Device.Timed (d : Device) : Prop where
  on : d.on=true→Pin.Timed d.pm
  sound : Startable d.pm

section Steps

variable {cr : PivCrypto} {shortReads : Bool} {d : Device}

def Backend.pinless {β : Type} (b : Backend β) : Backend β:={b with pinVerify:=fun _=>pure false}

theorem dispatch_pinless {β : Type} {b : Backend β} {c : Cmd} (h : c.ins≠insVerify) : dispatch b.pinless c=dispatch b c:=by
  simp only [dispatch,h,if_false]
  rfl

theorem pm_dispatch {c : Cmd} (h : c.ins≠insVerify) : Fixes (fun s : Ctx Keys=>s.be.badge.pm) (dispatch (pivBackend cr) c):=by
  intro pm
  have hP : Aside fun k=>k.badge.pm=pm:=⟨fun _ _ h=>h,fun _ _ h=>h⟩
  rw [← dispatch_pinless h]
  exact hP.within.dispatch (hP.within.stateEnsure fun _ _ _ h=>h) (fun _=>Keeps.pure _)
    (hP.within.undrawn.cbObjectStore fun _ _ h=>h) (fun _ _ h=>h) c

/-- A `VERIFY` that brings eight bytes. -/
def Cmd.entersPin (c : Cmd) : Prop:=c.ins=insVerify ∧ c.p2=keyPin ∧ c.p1≠0xFF ∧ c.data.length=8

/-- Digits, padded to the end. -/
structure Padded (data pin : Bytes) : Prop where
  padded : data=pin++List.replicate (8-pin.length) 0xFF
  digits : pin.all isDigit=true
  ne_nil : pin≠[]

/-- The digits in front of the first `FF`, if these are what stands there. -/
def frontDigits (data : Bytes) : Option Bytes:=
  if (pinDigits data).all isDigit=true ∧ pinDigits data≠[] then some (pinDigits data) else none

theorem Padded.frontDigits {data pin : Bytes} (h : Padded data pin) : frontDigits data=some pin:=by
  have hdigit : ∀ byte∈pin, decide (byte≠0xFF)=true:=by
    intro byte hbyte
    have hrange : isDigit byte=true:=List.all_eq_true.mp h.digits byte hbyte
    rw [decide_eq_true_eq]
    rintro rfl
    exact absurd hrange (by decide)
  have hpin : pinDigits data=pin:=by
    unfold pinDigits
    rw [h.padded,List.takeWhile_append_of_pos hdigit]
    cases 8-pin.length with
    | zero=>exact List.append_nil pin
    | succ n=>
      rw [List.replicate_succ,List.takeWhile_cons_of_neg (by decide)]
      exact List.append_nil pin
  unfold Piv.frontDigits
  rw [hpin,if_pos ⟨h.digits,h.ne_nil⟩]

theorem dispatch_verify {β : Type} {b : Backend β} {c : Cmd} (h : c.ins=insVerify) : dispatch b c=cmdVerify b c:=by
  simp only [dispatch,h]
  rfl

theorem cmdVerify_refused {β : Type} {b : Backend β} {s : Ctx β} {c : Cmd} (hc : c.entersPin)
    (h : b.pinBlocked s.be=true ∨ frontDigits c.data=none) :
    ∃ sw, sw≠swOk ∧ cmdVerify b c s=(.ok {sw},s):=by
  obtain ⟨-,hp2,hp1,hlen⟩:=hc
  unfold cmdVerify
  rw [if_neg (not_not.mpr hp2),if_neg hp1,if_neg (by omega),if_neg (not_not.mpr hlen),bind_gets]
  by_cases hblocked : b.pinBlocked s.be=true
  · rw [if_pos hblocked]
    exact ⟨_,by decide,rfl⟩
  · rw [if_neg hblocked]
    have hfront:=h.resolve_left hblocked
    unfold frontDigits at hfront
    by_cases hdigits : (pinDigits c.data).all isDigit=true
    · rw [if_neg (by simpa using hdigits)]
      by_cases hempty : pinDigits c.data=[]
      · rw [if_pos (by rw [hempty]; rfl)]
        exact ⟨_,by decide,rfl⟩
      · rw [if_pos ⟨hdigits,hempty⟩] at hfront
        contradiction
    · rw [if_pos (by simpa using hdigits)]
      exact ⟨_,by decide,rfl⟩

theorem cmdVerify_asks {β : Type} {b : Backend β} {s : Ctx β} {c : Cmd} {pin : Bytes} (hc : c.entersPin)
    (hblocked : b.pinBlocked s.be=false) (hpin : frontDigits c.data=some pin) :
    cmdVerify b c s=(call (b.pinVerify pin) >>= fun right=>
      if right then updateApp (fun a=>{a with pinVerified:=true}) >>= fun _=>answerSw swOk else pinStatus b) s:=by
  obtain ⟨-,hp2,hp1,hlen⟩:=hc
  unfold frontDigits at hpin
  split at hpin
  · rename_i hfront
    cases hpin
    unfold cmdVerify
    rw [if_neg (not_not.mpr hp2),if_neg hp1,if_neg (by omega),if_neg (not_not.mpr hlen),bind_gets,hblocked]
    rw [if_neg (by decide),if_neg (by simpa using hfront.1),if_neg (by simpa using hfront.2)]
  · contradiction

def IsPin (cr : PivCrypto) (pm : PinManager) (pin : Bytes) : Prop:=pm.badgeHash=Pin.computeBadgeHash cr.toCrypto pin

def FirstTry (pm : PinManager) : Prop:=pm.badgeRetries=1 ∧ pm.badgeLockoutCount=0

/-- The record is there, and no lockout whose end nobody has noticed. -/
def Unlocked (pm : PinManager) : Prop:=pm.pinLoaded=true ∧ (pm.lockoutActive=true→FirstTry pm)

theorem unlocked_iff {pm : PinManager} (h : Pin.Timed pm) : Unlocked pm ↔ pm.badgeRetries≠0:=by
  constructor
  · rintro ⟨hloaded,hactive⟩ hzero
    have hone:=(hactive (h.spent hloaded hzero)).1
    rw [hzero] at hone
    exact absurd hone (by decide)
  · intro hretries
    have hloaded : pm.pinLoaded=true:=by
      by_contra hunloaded
      exact hretries (h.unloaded (by simpa using hunloaded)).1
    exact ⟨hloaded,fun hactive=>(h.running hloaded hactive).resolve_left hretries⟩

theorem swPinRetries_ne_ok (retries : UInt8) : swPinRetries retries≠swOk:=by
  revert retries
  exact forall_byte (by decide +kernel)

theorem pinStatus_refuses {β : Type} {b : Backend β} (s : Ctx β) : ∃ sw, sw≠swOk ∧ pinStatus b s=(.ok {sw},s):=by
  unfold pinStatus
  rw [bind_gets]
  split
  · exact ⟨_,by decide,rfl⟩
  · rw [bind_gets]
    exact ⟨_,swPinRetries_ne_ok _,rfl⟩

theorem cmdVerify_digits {s : Ctx Keys} {c : Cmd} {pin : Bytes} (hc : c.entersPin) (hpin : frontDigits c.data=some pin)
    (hs : Pin.Timed s.be.badge.pm) :
    match cmdVerify (pivBackend cr) c s with
    | (.ok reply,t)=>Pin.Timed t.be.badge.pm ∧ (reply.sw=swOk ↔ IsPin cr s.be.badge.pm pin ∧ Unlocked s.be.badge.pm)
    | (.error _,_)=>True:=by
  by_cases hretries : s.be.badge.pm.badgeRetries=0
  · have hblocked : (pivBackend cr).pinBlocked s.be=true:=by
      change (s.be.badge.pm.badgeRetries == 0)=true
      rw [hretries]
      rfl
    obtain ⟨sw,hsw,hrun⟩:=@cmdVerify_refused _ (pivBackend cr) s c hc (.inl hblocked)
    rw [hrun]
    exact ⟨hs,iff_of_false hsw fun h=>(unlocked_iff hs).mp h.2 hretries⟩
  · have hblocked : (pivBackend cr).pinBlocked s.be=false:=by
      change (s.be.badge.pm.badgeRetries == 0)=false
      simpa using hretries
    have hunlocked:=(unlocked_iff hs).mpr hretries
    have htimed:=@Pin.timed_verifyBadgePin cr.toCrypto pin s.be.badge (.inl hs)
    have hanswer:=@Pin.verifyBadgePin_answer cr.toCrypto pin s.be.badge.pm.badgeHash s.be.badge
      ⟨hunlocked.1,hretries,rfl⟩
    have hcall : call ((pivBackend cr).pinVerify pin) s=((Pin.verifyBadgePin cr.toCrypto pin s.be.badge).1,
        {s with be:={s.be with badge:=(Pin.verifyBadgePin cr.toCrypto pin s.be.badge).2}}):=rfl
    rw [cmdVerify_asks hc hblocked hpin,bind_apply,hcall]
    cases hr : Pin.verifyBadgePin cr.toCrypto pin s.be.badge with
    | mk r badge=>
      rw [hr] at htimed hanswer
      cases r with
      | error e=>trivial
      | ok answer=>cases answer with
        | true=>exact ⟨htimed,iff_of_true rfl ⟨hanswer.mp rfl,hunlocked⟩⟩
        | false=>
          obtain ⟨sw,hsw,hstatus⟩:=@pinStatus_refuses _ (pivBackend cr) {s with be:={s.be with badge}}
          dsimp only
          rw [if_neg (by decide),hstatus]
          exact ⟨htimed,iff_of_false hsw fun h=>absurd (hanswer.mpr h.1) (by decide)⟩

theorem timed_cmdVerify (c : Cmd) : Triple (fun s : Ctx Keys=>Pin.Timed s.be.badge.pm) (cmdVerify (pivBackend cr) c)
    (fun _ s=>Pin.Timed s.be.badge.pm) fun _ _=>True:=by
  have hanswer (sw : UInt16) : Triple (fun s : Ctx Keys=>Pin.Timed s.be.badge.pm) (answerSw sw)
      (fun _ s=>Pin.Timed s.be.badge.pm) fun _ _=>True:=Triple.pure fun _ h=>h
  have hstatus : Triple (fun s : Ctx Keys=>Pin.Timed s.be.badge.pm) (pinStatus (pivBackend cr))
      (fun _ s=>Pin.Timed s.be.badge.pm) fun _ _=>True:=by
    intro s hs
    obtain ⟨sw,-,hrun⟩:=@pinStatus_refuses _ (pivBackend cr) s
    rw [hrun]
    exact hs
  have happ (f : Session → Session) : Triple (fun s : Ctx Keys=>Pin.Timed s.be.badge.pm) (updateApp f)
      (fun _ s=>Pin.Timed s.be.badge.pm) fun _ _=>True:=Triple.modify fun _ h=>h
  have hverify (pin : Bytes) : Triple (fun s : Ctx Keys=>Pin.Timed s.be.badge.pm) (call ((pivBackend cr).pinVerify pin))
      (fun _ s=>Pin.Timed s.be.badge.pm) fun _ _=>True:=by
    intro s hs
    have htimed:=@Pin.timed_verifyBadgePin cr.toCrypto pin s.be.badge (.inl hs)
    have hcall : call ((pivBackend cr).pinVerify pin) s=((Pin.verifyBadgePin cr.toCrypto pin s.be.badge).1,
        {s with be:={s.be with badge:=(Pin.verifyBadgePin cr.toCrypto pin s.be.badge).2}}):=rfl
    rw [hcall]
    cases hr : Pin.verifyBadgePin cr.toCrypto pin s.be.badge with
    | mk r badge=>
      rw [hr] at htimed
      cases r with
      | ok answer=>exact htimed
      | error e=>trivial
  unfold cmdVerify
  refine Triple.ite (fun _=>hanswer _) fun _=>Triple.ite (fun _=>Triple.bind (happ _) fun _=>hanswer _) fun _=>?_
  refine Triple.ite (fun _=>?_) fun _=>Triple.ite (fun _=>hanswer _) fun _=>?_
  · refine Triple.bind (Q:=fun _ s=>Pin.Timed s.be.badge.pm) (Triple.gets fun _ h=>h) fun _=>?_
    exact Triple.ite (fun _=>hanswer _) fun _=>hstatus
  refine Triple.bind (Q:=fun _ s=>Pin.Timed s.be.badge.pm) (Triple.gets fun _ h=>h) fun _=>?_
  refine Triple.ite (fun _=>hanswer _) fun _=>Triple.ite (fun _=>hanswer _) fun _=>Triple.ite (fun _=>hanswer _) fun _=>?_
  refine Triple.bind (hverify _) fun _=>Triple.ite (fun _=>Triple.bind (happ _) fun _=>hanswer _) fun _=>hstatus

theorem respond_answered {raw : Bytes} {e : Env} {reply : Reply} (hon : d.on=true)
    (h : (d.respond cr shortReads ⟨.apdu raw,e⟩).1=some reply) :
    ∃ t, processApdu (pivBackend cr) raw {d.ctx with be:=d.ctx.be.given e}=(.ok reply,t):=by
  rw [respond_apdu hon] at h
  cases hr : processApdu (pivBackend cr) raw {d.ctx with be:=d.ctx.be.given e} with
  | mk r t=>
    rw [hr] at h
    cases r with
    | ok reply'=>
      cases h
      exact ⟨t,rfl⟩
    | error e=>cases h

theorem powerCut_timed (d : Device) : d.powerCut.Timed:=⟨nofun,.inr ⟨rfl,rfl⟩⟩

theorem Device.Timed.apdu (hd : d.Timed) (raw : Bytes) (e : Env) : (d.enterStep cr shortReads ⟨.apdu raw,e⟩).Timed:=by
  change (d.respond cr shortReads ⟨.apdu raw,e⟩).2.Timed
  by_cases hon : d.on=true
  · have hs : Pin.Timed ({d.ctx with be:=d.ctx.be.given e} : Ctx Keys).be.badge.pm:=hd.on hon
    have hprocess : ∀ reply t, processApdu (pivBackend cr) raw {d.ctx with be:=d.ctx.be.given e}=(.ok reply,t) →
        Pin.Timed t.be.badge.pm:=by
      intro reply t hrun
      cases hc : commandOf {d.ctx with be:=d.ctx.be.given e} raw with
      | none=>
        obtain ⟨reply',app,hother,-⟩:=@processApdu_other _ (pivBackend cr) _ raw hc
        rw [hother] at hrun
        cases hrun
        exact hs
      | some c=>
        have hdispatch : Triple (fun s : Ctx Keys=>Pin.Timed s.be.badge.pm) (dispatch (pivBackend cr) c)
            (fun _ s=>Pin.Timed s.be.badge.pm) fun _ _=>True:=by
          by_cases hins : c.ins=insVerify
          · rw [dispatch_verify hins]
            exact timed_cmdVerify c
          · refine Triple.of_ok fun s a t hs hrun=>?_
            have hpm:=(@pm_dispatch cr c hins).apply s
            rw [hrun] at hpm
            rw [hpm]
            exact hs
        have hreset (reply : Reply) : Triple (fun s : Ctx Keys=>Pin.Timed s.be.badge.pm)
            (resetChain >>= fun _=>pure reply) (fun _ s=>Pin.Timed s.be.badge.pm) fun _ _=>True:=
          Triple.bind (Q:=fun _ s=>Pin.Timed s.be.badge.pm) (Triple.modify fun _ h=>h) fun _=>Triple.pure fun _ h=>h
        rw [processApdu_command hc] at hrun
        exact (Triple.bind hdispatch hreset).ok hs hrun
    rw [respond_apdu hon]
    cases hr : processApdu (pivBackend cr) raw {d.ctx with be:=d.ctx.be.given e} with
    | mk r t=>
      cases r with
      | ok reply=>exact ⟨fun _=>hprocess reply t hr,.inl (hprocess reply t hr)⟩
      | error e=>exact powerCut_timed _
  · have hrespond : d.respond cr shortReads ⟨.apdu raw,e⟩=(none,d):=by
      simp only [Device.respond]
      rw [if_pos (by simpa using hon)]
    rw [hrespond]
    exact hd

theorem Device.Timed.boot (d : Device) (e : Env) : (d.enterStep cr shortReads ⟨.boot,e⟩).Timed:=by
  have hpm : Unstarted (d.bootKeys e).badge.pm:=⟨rfl,rfl⟩
  have hstart : ∀ on k, startUp cr shortReads (d.bootKeys e)=(.ok on,k)→Pin.Timed k.badge.pm:=by
    intro on k hrun
    have hinit : Triple (fun k : Keys=>Unstarted k.badge.pm) (onPins (Pin.init cr.toCrypto))
        (fun _ k=>Pin.Timed k.badge.pm) fun _ _=>True:=
      Triple.zoom Pin.timed_init (fun _ h=>h) (fun _ _ _ _ h=>h) fun _ _ _ _ h=>h
    have hpiv : Keeps (fun k : Keys=>Pin.Timed k.badge.pm) (pivInit shortReads):=by
      have hP : Aside fun k=>Pin.Timed k.badge.pm:=⟨fun _ _ h=>h,fun _ _ h=>h⟩
      exact hP.within.pivInit (fun _ _ _ h=>h) shortReads
    have hboot : Triple (fun k : Keys=>Unstarted k.badge.pm) (startUp cr shortReads) (fun _ k=>Pin.Timed k.badge.pm)
        fun _ _=>True:=
      Triple.bind hinit fun _=>hpiv.conseq (fun _ h=>h) (fun _ _ h=>h) fun _ _ _=>trivial
    exact hboot.ok hpm hrun
  change (match startUp cr shortReads (d.bootKeys e) with
    | (.ok on,be)=>((none,{ctx:={d.powerCut.ctx with be},on}) : Option Reply × Device)
    | (.error _,be)=>(none,({ctx:={d.powerCut.ctx with be}} : Device).powerCut)).2.Timed
  cases hr : startUp cr shortReads (d.bootKeys e) with
  | mk r k=>cases r with
    | ok on=>exact ⟨fun _=>hstart on k hr,.inl (hstart on k hr)⟩
    | error e=>exact powerCut_timed _

theorem startable_checkAndReset : Triple (fun b=>Startable b.pm) Pin.checkAndResetExpiredLockout (fun _ b=>Startable b.pm)
    fun _ _=>True:=by
  intro b hb
  rcases hb with htimed | hunstarted
  · exact (Pin.timed_checkAndReset.conseq (fun _ h=>h) (fun _ _ h=>Or.inl h) fun _ _ _=>trivial) b htimed
  · have hidle : Pin.checkAndResetExpiredLockout b=(.ok (),b):=by
      simp only [Pin.checkAndResetExpiredLockout,Pin.pmGets,bind_gets,hunstarted.2]
      rfl
    rw [hidle]
    exact .inr hunstarted

theorem timed_use (u : BadgeUse) :
    Triple (fun b=>Pin.Timed b.pm) (u.op.run cr.toCrypto) (fun _ b=>Pin.Timed b.pm) (fun _ _=>True) ∧
      Triple (fun b=>Startable b.pm) (u.op.run cr.toCrypto) (fun _ b=>Startable b.pm) fun _ _=>True:=by
  have hboth {m : PinM Bool} (h : Triple (fun b=>Startable b.pm) m (fun _ b=>Pin.Timed b.pm) fun _ _=>True) :
      Triple (fun b=>Pin.Timed b.pm) m (fun _ b=>Pin.Timed b.pm) (fun _ _=>True) ∧
        Triple (fun b=>Startable b.pm) m (fun _ b=>Startable b.pm) fun _ _=>True:=
    ⟨h.conseq (fun _ hb=>.inl hb) (fun _ _ hb=>hb) fun _ _ hb=>hb,
      h.conseq (fun _ hb=>hb) (fun _ _ hb=>.inl hb) fun _ _ hb=>hb⟩
  cases u with
  | verifyBadgePin pin=>exact hboth (Pin.timed_verifyBadgePin pin)
  | verifyBadgePinHashCounted hashIn=>exact hboth (Pin.timed_verifyBadgePinHashCounted hashIn)
  | pinStorageVerifyFido2Hash hashIn=>
    exact hboth (Triple.bind Pin.timed_initAgain fun _=>(Pin.timed_verifyBadgePinHashCounted hashIn).conseq
      (fun _ hb=>.inl hb) (fun _ _ hb=>hb) fun _ _ hb=>hb)
  | mainLoop=>
    constructor
    · exact Triple.bind (Pin.timed_checkAndReset.conseq (fun _ h=>h) (fun _ _ h=>h) fun _ _ _=>trivial) fun _=>
        Triple.pure fun _ h=>h
    · exact Triple.bind startable_checkAndReset fun _=>Triple.pure fun _ h=>h
  | wait ms=>
    constructor
    · exact Triple.bind (Q:=fun _ b=>Pin.Timed b.pm) (Triple.modify fun _ h=>h) fun _=>Triple.pure fun _ h=>h
    · exact Triple.bind (Q:=fun _ b=>Startable b.pm) (Triple.modify fun _ h=>h) fun _=>Triple.pure fun _ h=>h

theorem enter_use (u : BadgeUse) (e : Env) : d.enterStep cr shortReads ⟨.use u,e⟩ =
    match u.op.run cr.toCrypto (d.ctx.be.given e).badge with
    | (.ok _,badge)=>{d with ctx:={d.ctx with be:={d.ctx.be.given e with badge}}}
    | (.error _,badge)=>({d with ctx:={d.ctx with be:={d.ctx.be.given e with badge}}} : Device).powerCut:=by
  unfold Device.enterStep Device.enter
  dsimp only
  unfold onPins zoom
  cases u.op.run cr.toCrypto (d.ctx.be.given e).badge with
  | mk r badge=>cases r <;> rfl

theorem Device.Timed.use (hd : d.Timed) (u : BadgeUse) (e : Env) : (d.enterStep cr shortReads ⟨.use u,e⟩).Timed:=by
  obtain ⟨htimed,hsound⟩:=@timed_use cr u
  rw [enter_use]
  cases hr : u.op.run cr.toCrypto (d.ctx.be.given e).badge with
  | mk r badge=>cases r with
    | ok answer=>
      have hgiven : (d.ctx.be.given e).badge.pm=d.pm:=rfl
      have hon : d.on=true→Pin.Timed badge.pm:=fun hon=>htimed.ok (by rw [hgiven]; exact hd.on hon) hr
      have hstill : Startable badge.pm:=hsound.ok (by rw [hgiven]; exact hd.sound) hr
      exact ⟨hon,hstill⟩
    | error e=>exact powerCut_timed _

theorem Device.Timed.step (hd : d.Timed) (i : EntryInput) : (d.enterStep cr shortReads i).Timed:=by
  obtain ⟨op,e⟩:=i
  cases op with
  | apdu raw=>exact hd.apdu raw e
  | deselect=>exact ⟨hd.on,hd.sound⟩
  | boot=>exact Device.Timed.boot d e
  | use u=>exact hd.use u e

end Steps

/-- Digits padded to the end are taken where they are the PIN and no lockout stands against it. -/
def TakesPin (cr : PivCrypto) (shortReads : Bool) (d : Device) : Prop:=
  ∀ (raw : Bytes) (e : Env) (c : Cmd) (pin : Bytes) (reply : Reply), d.on=true → commandOf d.ctx raw=some c →
    c.entersPin→Padded c.data pin→(d.enter cr shortReads ⟨.apdu raw,e⟩).1=some reply →
    (reply.sw=swOk ↔ IsPin cr d.pm pin ∧ Unlocked d.pm)

/-- Bytes that are no digits up to the first `FF` are refused and leave the PIN manager alone. -/
def RefusesOthers (cr : PivCrypto) (shortReads : Bool) (d : Device) : Prop:=
  ∀ (raw : Bytes) (e : Env) (c : Cmd), d.on=true → commandOf d.ctx raw=some c → c.entersPin →
    frontDigits c.data=none→∃ reply, (d.enter cr shortReads ⟨.apdu raw,e⟩).1=some reply ∧ reply.sw≠swOk ∧
      (d.enterStep cr shortReads ⟨.apdu raw,e⟩).pm=d.pm

/-- Behind a pass of the main loop only a timer that runs on stands against the PIN. -/
def NoticesExpiry (cr : PivCrypto) (shortReads : Bool) (d : Device) : Prop:=
  ∀ e : Env, let d':=d.enterStep cr shortReads ⟨.use .mainLoop,e⟩
    Unlocked d'.pm ↔ d'.pm.pinLoaded=true ∧
      (Pin.isLockoutActive d'.pm d'.ctx.be.badge.now=true→FirstTry d'.pm)

section Answers

variable {cr : PivCrypto} {shortReads : Bool} {d : Device}

theorem takesPin (hd : d.Timed) : TakesPin cr shortReads d:=by
  intro raw e c pin reply hon hc henters hpadded hreply
  obtain ⟨t,hrun⟩:=@respond_answered cr shortReads d raw e reply hon hreply
  have hs : Pin.Timed ({d.ctx with be:=d.ctx.be.given e} : Ctx Keys).be.badge.pm:=hd.on hon
  have hdigits:=@cmdVerify_digits cr _ c pin henters hpadded.frontDigits hs
  rw [processApdu_command (show commandOf {d.ctx with be:=d.ctx.be.given e} raw=some c from hc),
    dispatch_verify henters.1] at hrun
  obtain ⟨reply',s',hcmd,hreset⟩:=bind_ok.mp hrun
  rw [hcmd] at hdigits
  cases hreset
  exact hdigits.2

theorem refusesOthers : RefusesOthers cr shortReads d:=by
  intro raw e c hon hc henters hnone
  obtain ⟨sw,hsw,hcmd⟩:=@cmdVerify_refused _ (pivBackend cr) {d.ctx with be:=d.ctx.be.given e} c henters (.inr hnone)
  have hrun : processApdu (pivBackend cr) raw {d.ctx with be:=d.ctx.be.given e} =
      (.ok {sw},{d.ctx with app:={d.ctx.app with chain:={}},be:=d.ctx.be.given e}):=by
    rw [processApdu_command (show commandOf {d.ctx with be:=d.ctx.be.given e} raw=some c from hc),
      dispatch_verify henters.1,bind_of_ok hcmd]
    rfl
  have hrespond : d.enter cr shortReads ⟨.apdu raw,e⟩=(some {sw},
      {ctx:={d.ctx with app:={d.ctx.app with chain:={}},be:=d.ctx.be.given e},on:=true}):=by
    change d.respond cr shortReads ⟨.apdu raw,e⟩=_
    rw [respond_apdu hon,hrun]
  refine ⟨{sw},by rw [hrespond],hsw,?_⟩
  unfold Device.enterStep
  rw [hrespond]
  rfl

theorem checkAndReset_active (b : Pin.Badge) : ∃ b', Pin.checkAndResetExpiredLockout b=(.ok (),b') ∧
    (b'.pm.lockoutActive=true ↔ Pin.isLockoutActive b'.pm b'.now=true):=by
  unfold Pin.checkAndResetExpiredLockout Pin.pmGets
  rw [bind_gets,bind_gets]
  by_cases hactive : b.pm.lockoutActive=true
  · by_cases hruns : Pin.lockoutRemainingMs b.pm b.now > 0
    · refine ⟨b,?_,?_⟩
      · rw [if_neg (by simpa using hactive),if_pos hruns]
        rfl
      · simp [Pin.isLockoutActive,hactive,hruns]
    · refine ⟨{b with pm:={b.pm with lockoutActive:=false,badgeRetries:=Pin.maxRetries}},?_,?_⟩
      · rw [if_neg (by simpa using hactive),if_neg hruns]
        rfl
      · simp [Pin.isLockoutActive]
  · refine ⟨b,?_,?_⟩
    · rw [if_pos (by simpa using hactive)]
      rfl
    · simp [Pin.isLockoutActive,hactive]

theorem noticesExpiry : NoticesExpiry cr shortReads d:=by
  intro e
  obtain ⟨b',hcheck,hactive⟩:=checkAndReset_active (d.ctx.be.given e).badge
  have hrun : (BadgeUse.mainLoop.op.run cr.toCrypto) (d.ctx.be.given e).badge=(.ok true,b'):=by
    change (Pin.checkAndResetExpiredLockout >>= fun _=>pure true) (d.ctx.be.given e).badge=_
    rw [bind_of_ok hcheck]
    rfl
  dsimp only
  rw [enter_use,hrun]
  unfold Unlocked
  change (b'.pm.pinLoaded=true ∧ (b'.pm.lockoutActive=true→FirstTry b'.pm)) ↔
    b'.pm.pinLoaded=true ∧ (Pin.isLockoutActive b'.pm b'.now=true→FirstTry b'.pm)
  rw [hactive]

end Answers

/-- In every run from power-on the card takes the PIN unless a lockout stands against it, refuses what is no PIN at no
cost, and takes the PIN again once the main loop has seen the timer run down. -/
theorem pin_entered (cr : PivCrypto) (shortReads : Bool) (d : Device) (is : List EntryInput) :
    TakesPin cr shortReads (Runs.run (Device.enterStep cr shortReads) d.powerCut is) ∧
      RefusesOthers cr shortReads (Runs.run (Device.enterStep cr shortReads) d.powerCut is) ∧
      NoticesExpiry cr shortReads (Runs.run (Device.enterStep cr shortReads) d.powerCut is):=by
  have htimed : (Runs.run (Device.enterStep cr shortReads) d.powerCut is).Timed:=
    Runs.run_invariant (I:=Device.Timed) (fun _ i _ hd=>hd.step i) (powerCut_timed d) (Runs.alongRun_true _ is)
  exact ⟨takesPin htimed,refusesOthers,noticesExpiry⟩

/-- The PIN that the badge comes with is taken at once, although the timer of the power-on runs. -/
theorem pin_taken_while_timer_runs : ¬ ∀ (is : List EntryInput) (raw : Bytes) (e : Env) (c : Cmd) (pin : Bytes) (reply : Reply),
    let d:=Runs.run (Device.enterStep .plain true) ({ctx:={be:=blankKeys}} : Device).powerCut is
    d.on=true → commandOf d.ctx raw=some c → c.entersPin→Padded c.data pin →
      (d.enter .plain true ⟨.apdu raw,e⟩).1=some reply →
      (reply.sw=swOk ↔ IsPin .plain d.pm pin ∧ Pin.isLockoutActive d.pm d.ctx.be.badge.now=false):=by
  intro h
  obtain ⟨d,hd⟩ : ∃ d, d=Runs.run (Device.enterStep .plain true) ({ctx:={be:=blankKeys}} : Device).powerCut [⟨.boot,{}⟩]:=
    ⟨_,rfl⟩
  have hcommand : (commandOf d.ctx (verifyApdu Pin.defaultBadgePin)).map (fun c=>(c.ins,c.p1,c.p2,c.data)) =
      some (insVerify,0x00,keyPin,Pin.defaultBadgePin++[0xFF,0xFF]):=by
    rw [hd]
    decide +kernel
  obtain ⟨c,hc,hfields⟩:=Option.map_eq_some_iff.mp hcommand
  simp only [Prod.mk.injEq] at hfields
  obtain ⟨hins,hp1,hp2,hdata⟩:=hfields
  have henters : c.entersPin:=⟨hins,hp2,by rw [hp1]; decide,by rw [hdata]; rfl⟩
  have hpadded : Padded c.data Pin.defaultBadgePin:=⟨by rw [hdata]; rfl,by decide,by decide⟩
  have hon : d.on=true:=by
    rw [hd]
    decide +kernel
  have hreply : (d.enter .plain true ⟨.apdu (verifyApdu Pin.defaultBadgePin),{}⟩).1=some {sw:=swOk}:=by
    rw [hd]
    decide +kernel
  have hruns : Pin.isLockoutActive d.pm d.ctx.be.badge.now=true:=by
    rw [hd]
    decide +kernel
  have hstill:=((hd ▸ h [⟨.boot,{}⟩] _ {} c _ _) hon hc henters hpadded hreply).mp rfl
  exact absurd (hruns.symm.trans hstill.2) (by decide)

end CdcBadge.Piv
