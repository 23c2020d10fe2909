import CdcBadge.RetryAgreement

/-!
# The recovery timer of the badge PIN

The timer keeps the start of a lockout in 32 bits of milliseconds and takes the time that has passed
modulo 2^32; it is stopped by the first call that looks at it after its end. The true start is kept beside
the badge, and what is reported is compared with what is left of the lockout by it.
-/

namespace CdcBadge.LockoutTimer

open Handler Runs
open Pin hiding step

/-- The badge, with the time at which the lockout that is under way was started. -/
structure Watch where
  badge : Badge
  startedMs : ℕ:=0

namespace Watch

def active (w : Watch) : Bool:=w.badge.pm.lockoutActive

def duration (w : Watch) : ℕ:=(lockoutDurationMs w.badge.pm.badgeLockoutCount).toNat

def age (w : Watch) : ℕ:=w.badge.now-w.startedMs

def reported (w : Watch) : ℕ:=(lockoutRemainingMs w.badge.pm w.badge.now).toNat

def left (w : Watch) : ℕ:=if w.active then w.duration-w.age else 0

end Watch

/-- The timer runs on, from the same start and for as long. -/
def RunsOn (b b' : Badge) : Prop:=
  b.pm.lockoutActive=true ∧ b'.pm.lockoutActive=true ∧ b'.pm.lockoutStartMs=b.pm.lockoutStartMs ∧
    b'.pm.badgeLockoutCount=b.pm.badgeLockoutCount

instance (b b' : Badge) : Decidable (RunsOn b b'):=inferInstanceAs (Decidable (_ ∧ _ ∧ _ ∧ _))

section Machine

variable (cr : Crypto)

def step (w : Watch) (i : PinInput) : Watch where
  badge:=Pin.step cr w.badge i
  startedMs:=if RunsOn w.badge (Pin.step cr w.badge i) then w.startedMs else (Pin.step cr w.badge i).now

/-- An operation that may end a lockout before its time: the badge PIN is given, set anew, or its counter reset. -/
def Lifts (b : Badge) : PinOp→Prop
  | .verifyBadgePin pin=>b.pm.badgeHash=computeBadgeHash cr pin
  | .verifyBadgePinHashCounted hashIn=>b.pm.badgeHash=hashIn
  | .pinStorageVerifyFido2Hash hashIn=>b.pm.badgeHash=hashIn
  | .changeBadgePin currentPin _=>b.pm.badgeHash=computeBadgeHash cr currentPin
  | .setBadgePin _=>True
  | .resetBadgeRetries=>True
  | _=>False

/-- What is reported is what is left, and a lockout ends early only where it is lifted, or the record is loaded, which
starts another one, or power is lost. -/
structure Right (w : Watch) (i : PinInput) : Prop where
  reported : (step cr w i).reported=(step cr w i).left
  ended : w.active=true→(step cr w i).active=false→w.duration ≤ w.age ∨ Lifts cr w.badge i.op ∨
    (w.badge.pm.pinLoaded=false ∧ (step cr w i).badge.pm.pinLoaded=true) ∨ (respond cr w.badge i).1=none

/-- No time passes up to a point where a lockout that nobody has looked at since its end seems to be under way again. -/
def Heeds (w : Watch) (i : PinInput) : Prop:=
  ∀ ms, i.op=.wait ms→w.active=true→w.age+ms < 2^32 ∨ w.duration ≤ (w.age+ms) % 2^32

end Machine

/-- The part of the badge that the timer depends on. -/
structure Timer where
  now : ℕ
  active : Bool
  startMs : UInt32
  count : UInt8
  hash : ByteArr 16
  loaded : Bool

def timer (b : Badge) : Timer where
  now:=b.now
  active:=b.pm.lockoutActive
  startMs:=b.pm.lockoutStartMs
  count:=b.pm.badgeLockoutCount
  hash:=b.pm.badgeHash
  loaded:=b.pm.pinLoaded

variable {cr : Crypto} {v₀ v : Timer}

/-- Since then nothing has happened to the timer, or the record has been loaded. -/
def Since (v₀ v : Timer) : Prop:=
  v=v₀ ∨ (v.now=v₀.now ∧ v₀.loaded=false ∧ v.loaded=true ∧ (v.active=true→v.startMs=UInt32.ofNat v.now))

/-- The end of the lockout has come, by the clock of 32 bits. -/
def Over (v : Timer) : Prop:=lockoutDurationMs v.count ≤ UInt32.ofNat v.now-v.startMs

/-- What an operation makes of the timer. -/
structure Moved (lifts : Prop) (v₀ v : Timer) : Prop where
  now : v.now=v₀.now
  start : v.active=true→v.startMs=UInt32.ofNat v.now ∨
    (v₀.active=true ∧ v.startMs=v₀.startMs ∧ v.count=v₀.count)
  ended : v₀.active=true→v.active=false→Over v₀ ∨ lifts ∨ (v₀.loaded=false ∧ v.loaded=true)

theorem Since.moved (lifts : Prop) (h : Since v₀ v) : Moved lifts v₀ v:=by
  rcases h with rfl | ⟨hnow,hunloaded,hloaded,hstart⟩
  · exact ⟨rfl,fun hactive=>Or.inr ⟨hactive,rfl,rfl⟩,fun hactive hinactive=>by simp [hactive] at hinactive⟩
  · exact ⟨hnow,fun hactive=>Or.inl (hstart hactive),fun _ _=>Or.inr (Or.inr ⟨hunloaded,hloaded⟩)⟩

/-- Where the handler returns, this is still so of the timer. -/
def Holds {α : Type} (P : Timer→Prop) (m : PinM α) : Prop:=
  Triple (fun b=>P (timer b)) m (fun _ b=>P (timer b)) fun _ _=>True

section Holds

variable {α β : Type} {P : Timer→Prop} {m : PinM α}

theorem Holds.of_fixes (h : Fixes timer m) : Holds P m:=by
  have hkeeps : Keeps (fun b=>P (timer b)) m:=by
    apply keeps_iff.mpr
    intro b hb
    rw [h.apply b]
    exact hb
  exact Triple.conseq hkeeps (fun _ hb=>hb) (fun _ _ hb=>hb) fun _ _ _=>trivial

theorem Holds.bind {k : α→PinM β} (hm : Holds P m) (hk : ∀ a, Holds P (k a)) : Holds P (m >>= k):=Triple.bind hm hk

theorem Holds.pure (a : α) : Holds P (pure a : PinM α):=fun _ hb=>hb

theorem Holds.gets (f : Badge → α) : Holds P (Handler.gets f : PinM α):=fun _ hb=>hb

theorem Holds.ite {c : Prop} [Decidable c] {n : PinM α} (hm : Holds P m) (hn : Holds P n) :
    Holds P (if c then m else n):=Triple.ite (fun _=>hm) fun _=>hn

theorem Holds.when {c : Prop} [Decidable c] (hm : Holds P m) : Holds P (when c m):=
  Triple.when (fun _=>Triple.conseq hm (fun _ hb=>hb) (fun _ _ hb=>hb) fun _ _ hb=>hb) fun _ _ hb=>hb

theorem Holds.update {f : PinManager→PinManager} (h : ∀ b : Badge, timer {b with pm:=f b.pm}=timer b) :
    Holds P (updatePm f):=Holds.of_fixes (Fixes.modify h)

end Holds

theorem fixes_saveToStorage : Fixes timer (saveToStorage cr):=
  fun _=>BesideSaves.saveToStorage ⟨fun _ _ h=>h,fun _ h=>h,fun _ _ h=>h,fun _ _ _ _ h=>h⟩ cr

theorem fixes_generateSalt : Fixes timer generateSalt:=fun _ _ h=>h

theorem fixes_nextLoad : Fixes timer nextLoad:=fun _ _ h=>h

theorem fixes_seCall {α : Type} (o : SeOutcome) (call : Chip Bytes → SeReply α × Chip Bytes) :
    Fixes timer (Pin.seCall o call):=
  fun _=>triple_seCall (fun _ h _ _ _=>h) fun _ h _=>h

theorem fixes_verifyPayloadSignature (pubKey : SeOutcome) (payload : Bytes) (sig : ByteArr 64) :
    Fixes timer (verifyPayloadSignature cr pubKey payload sig):=by
  refine Fixes.bind (fixes_seCall pubKey _) fun reply=>?_
  cases reply with
  | error e=>exact Fixes.pure _
  | ok key=>exact Fixes.ite (Fixes.pure _) (Fixes.pure _)

def Loading (v₀ v : Timer) : Prop:=v.now=v₀.now ∧ v₀.loaded=false ∧ v.loaded=false

theorem loading_loadFromStorage (hunloaded : v₀.loaded=false) :
    Triple (fun b=>timer b=v₀) (loadFromStorage cr)
      (fun loaded b=>Loading v₀ (timer b) ∧ (loaded=false→timer b=v₀)) fun _ _=>True:=by
  have hfailed : Triple (fun b=>timer b=v₀) (pure false : PinM Bool)
      (fun loaded b=>Loading v₀ (timer b) ∧ (loaded=false→timer b=v₀)) fun _ _=>True:=by
    rintro b rfl
    exact ⟨⟨rfl,hunloaded,hunloaded⟩,fun _=>rfl⟩
  have hfixed {α : Type} {m : PinM α} (h : Fixes timer m) :
      Triple (fun b=>timer b=v₀) m (fun _ b=>timer b=v₀) fun _ _=>True:=
    Holds.of_fixes (P:=(· = v₀)) h
  have hnoted (u : Bool) : Fixes timer (updatePm fun pm=>{pm with storageUnreadable:=u}):=
    Fixes.modify fun _=>rfl
  refine Triple.bind (hfixed fixes_nextLoad) fun o=>Triple.ite (fun _=>hfailed) fun _=>?_
  refine Triple.bind (hfixed (hnoted false)) fun _=>Triple.bind (hfixed (fixes_seCall _ _)) fun reply=>?_
  cases reply with
  | error e=>
    cases e with
    | slotEmpty=>exact hfailed
    | _=>exact Triple.bind (hfixed (hnoted true)) fun _=>hfailed
  | ok data=>
    refine Triple.ite (fun _=>hfailed) fun _=>?_
    refine Triple.bind (hfixed (fixes_verifyPayloadSignature _ _ _)) fun valid=>?_
    refine Triple.ite (fun _=>Triple.bind (hfixed (hnoted true)) fun _=>hfailed) fun _=>?_
    refine Triple.bind (Q:=fun _ b=>Loading v₀ (timer b)) (Triple.modify ?_) fun _=>Triple.pure ?_
    · rintro b rfl
      exact ⟨rfl,hunloaded,hunloaded⟩
    · exact fun b hb=>⟨hb,fun h=>Bool.noConfusion h⟩

theorem holds_loading_defaults : Holds (Loading v₀) (loadDefaults cr >>= fun _=>saveToStorage cr):=by
  refine Holds.bind ?_ fun _=>Holds.of_fixes fixes_saveToStorage
  refine Holds.bind (Holds.of_fixes fixes_generateSalt) fun _=>?_
  refine Holds.bind (Holds.of_fixes fixes_generateSalt) fun _=>?_
  exact Triple.modify fun _ hb=>hb

theorem holds_init : Holds (Since v₀) (init cr):=by
  refine Triple.bind (Q:=fun loaded b=>loaded=b.pm.pinLoaded ∧ Since v₀ (timer b))
    (Triple.gets fun b hb=>⟨rfl,hb⟩) fun loaded=>?_
  refine Triple.ite (fun _=>Triple.pure fun b hb=>hb.2) fun hloaded=>?_
  refine Triple.named fun b₀ hb₀=>?_
  have hunloaded : b₀.pm.pinLoaded=false:=by simpa [hb₀.1] using hloaded
  have hsame : timer b₀=v₀:=by
    rcases hb₀.2 with h | ⟨-,-,h,-⟩
    · exact h
    · exact absurd (hunloaded.symm.trans h) Bool.false_ne_true
  have hv₀ : v₀.loaded=false:=hsame ▸ hunloaded
  refine Triple.bind (Triple.conseq (loading_loadFromStorage hv₀) ?_ (fun _ _ h=>h) fun _ _ h=>h) fun l=>?_
  · rintro _ rfl
    exact hsame
  refine Triple.bind (Q:=fun _ b=>Loading v₀ (timer b) ∧ (l=false→timer b=v₀)) (Triple.gets fun b hb=>hb)
    fun unreadable=>?_
  refine Triple.ite (fun hfail=>?_) fun _=>?_
  · have hl : l=false:=by
      cases l
      · rfl
      · simp at hfail
    refine Triple.bind (Q:=fun _ b=>timer b=v₀) (Triple.modify fun b hb=>hb.2 hl) fun _=>Triple.pure ?_
    exact fun b hb=>Or.inl hb
  · refine Triple.bind (Q:=fun _ b=>Loading v₀ (timer b)) ?_ fun _=>?_
    · exact Triple.conseq (Holds.when (c:=!l) holds_loading_defaults) (fun _ hb=>hb.1) (fun _ _ h=>h) fun _ _ h=>h
    · rintro b ⟨hnow,-,-⟩
      exact Or.inr ⟨hnow,hv₀,rfl,fun _=>rfl⟩

theorem holds_ensureInit : Holds (Since v₀) (ensureInit cr):=
  Holds.bind (Holds.gets _) fun _=>Holds.when holds_init

section Pws

variable (pw : Pw)

theorem holds_setRetries {P : Timer→Prop} (n : UInt8) : Holds P (updatePm (pw.setRetries n)):=by
  apply Holds.update
  intro b
  cases pw <;> rfl

theorem holds_verifyPinRaw (data : Bytes) : Holds (Since v₀) (verifyPinRaw cr pw data):=by
  refine Holds.bind holds_ensureInit fun _=>Holds.bind (Holds.gets _) fun pm=>?_
  refine Holds.ite (Holds.pure _) ?_
  cases computeKdfHash cr pm.iterations data (pw.salt pm) with
  | none=>exact Holds.pure _
  | some inputHash=>
    have hsave : Holds (Since v₀) (saveToStorage cr):=Holds.of_fixes fixes_saveToStorage
    refine Holds.bind (holds_setRetries pw _) fun _=>Holds.bind (Holds.ite hsave (Holds.pure _)) fun saved=>?_
    refine Holds.ite (Holds.bind (holds_setRetries pw _) fun _=>Holds.pure _) ?_
    refine Holds.ite (Holds.bind (holds_setRetries pw _) fun _=>?_) (Holds.pure _)
    exact Holds.bind (Holds.gets _) fun _=>Holds.bind (Holds.when hsave) fun _=>Holds.pure _

theorem holds_verifyPw (pin : Bytes) : Holds (Since v₀) (verifyPw cr pw pin):=
  Holds.bind holds_ensureInit fun _=>holds_verifyPinRaw pw (cstr pin)

theorem holds_storePw (data : Bytes) : Holds (Since v₀) (storePw cr pw data):=by
  refine Holds.bind (Holds.of_fixes fixes_generateSalt) fun salt=>?_
  have hsalt : Holds (Since v₀) (updatePm (pw.setSalt salt)):=by
    apply Holds.update
    intro b
    cases pw <;> rfl
  refine Holds.bind hsalt fun _=>Holds.bind (Holds.gets _) fun iterations=>?_
  cases computeKdfHash cr iterations data salt with
  | none=>exact Holds.pure _
  | some hash=>
    have hhash : Holds (Since v₀) (updatePm (pw.setHash hash)):=by
      apply Holds.update
      intro b
      cases pw <;> rfl
    refine Holds.bind hhash fun _=>Holds.bind (holds_setRetries pw _) fun _=>?_
    exact Holds.bind (Holds.of_fixes fixes_saveToStorage) fun _=>Holds.pure _

theorem holds_setPw (minLen : ℕ) (newPin : Bytes) : Holds (Since v₀) (setPw cr pw minLen newPin):=
  Holds.ite (Holds.pure _) (holds_storePw pw (cstr newPin))

theorem holds_setPwRaw (data : Bytes) : Holds (Since v₀) (setPwRaw cr pw data):=
  Holds.ite (Holds.pure _) (holds_storePw pw data)

theorem holds_resetPwRetries : Holds (Since v₀) (resetPwRetries cr pw):=by
  refine Holds.bind (Holds.gets _) fun retries=>Holds.when ?_
  exact Holds.bind (holds_setRetries pw _) fun _=>Holds.of_fixes fixes_saveToStorage

theorem holds_changePw (minLen : ℕ) (currentPin newPin : Bytes) :
    Holds (Since v₀) (do if ← verifyPw cr pw currentPin then setPw cr pw minLen newPin else pure false):=
  Holds.bind (holds_verifyPw pw currentPin) fun _=>Holds.ite (holds_setPw pw minLen newPin) (Holds.pure _)

end Pws

theorem holds_setDuressPin (pin : Bytes) : Holds (Since v₀) (setDuressPin cr pin):=by
  refine Holds.bind holds_ensureInit fun _=>Holds.ite (Holds.pure _) (Holds.ite (Holds.pure _) ?_)
  refine Holds.bind (Holds.gets _) fun hash=>Holds.ite (Holds.pure _) ?_
  refine Holds.bind (Holds.of_fixes fixes_generateSalt) fun salt=>?_
  refine Holds.bind (Holds.update fun _=>rfl) fun _=>Holds.bind (Holds.gets _) fun iterations=>?_
  cases computeKdfHash cr iterations (cstr pin) salt with
  | none=>exact Holds.pure _
  | some hash=>
    refine Holds.bind (Holds.update fun _=>rfl) fun _=>?_
    exact Holds.bind (Holds.of_fixes fixes_saveToStorage) fun _=>Holds.pure _

theorem holds_clearDuressPin : Holds (Since v₀) (clearDuressPin cr):=by
  refine Holds.bind holds_ensureInit fun _=>Holds.bind (Holds.gets _) fun set=>Holds.ite (Holds.pure _) ?_
  refine Holds.bind (Holds.update fun _=>rfl) fun _=>?_
  exact Holds.bind (Holds.of_fixes fixes_saveToStorage) fun _=>Holds.pure _

def Stopped (v₀ v : Timer) : Prop:=v=v₀ ∨ (v.now=v₀.now ∧ v.active=false ∧ v.loaded=v₀.loaded)

theorem stopped_setBadgePin (newPin : Bytes) :
    Triple (fun b=>timer b=v₀) (setBadgePin cr newPin) (fun _ b=>Stopped v₀ (timer b)) fun _ _=>True:=by
  have hrefused : Triple (fun b=>timer b=v₀) (pure false : PinM Bool) (fun _ b=>Stopped v₀ (timer b)) fun _ _=>True:=
    Triple.pure fun b hb=>Or.inl hb
  refine Triple.bind (Q:=fun _ b=>timer b=v₀) (Triple.gets fun b hb=>hb) fun pm=>?_
  refine Triple.ite (fun _=>hrefused) fun _=>Triple.ite (fun _=>hrefused) fun _=>?_
  refine Triple.ite (fun _=>hrefused) fun _=>?_
  refine Triple.bind (Q:=fun _ b=>Stopped v₀ (timer b)) (Triple.modify ?_) fun _=>?_
  · rintro b rfl
    exact Or.inr ⟨rfl,rfl,rfl⟩
  · exact Holds.bind (Holds.of_fixes fixes_saveToStorage) fun _=>Holds.pure _

theorem stopped_resetBadgeRetries :
    Triple (fun b=>timer b=v₀) (resetBadgeRetries cr) (fun _ b=>Stopped v₀ (timer b)) fun _ _=>True:=by
  refine Triple.bind (Q:=fun _ b=>(timer b).now=v₀.now ∧ (timer b).active=false ∧ (timer b).loaded=v₀.loaded)
    (Triple.modify ?_) fun _=>?_
  · rintro b rfl
    exact ⟨rfl,rfl,rfl⟩
  · have hcleared : Holds (fun v=>v.now=v₀.now ∧ v.active=false ∧ v.loaded=v₀.loaded)
        (updatePm (fun pm=>{pm with badgeLockoutCount:=0}) >>= fun _=>saveToStorage cr):=
      Holds.bind (Triple.modify fun _ hb=>hb) fun _=>Holds.of_fixes fixes_saveToStorage
    refine Triple.conseq (Holds.bind (Holds.gets _) fun count=>Holds.when hcleared) (fun _ hb=>hb) ?_ fun _ _ h=>h
    exact fun _ _ hb=>Or.inr hb

theorem Stopped.moved (h : Stopped v₀ v) : Moved True v₀ v:=by
  rcases h with rfl | ⟨hnow,hinactive,-⟩
  · exact Since.moved True (Or.inl rfl)
  · exact ⟨hnow,fun hactive=>by simp [hinactive] at hactive,fun _ _=>Or.inr (Or.inl trivial)⟩

/-- The state of the timer after a look at it. -/
def Looked (v₀ v : Timer) : Prop:=
  Since v₀ v ∨ (v.now=v₀.now ∧ v₀.active=true ∧ Over v₀ ∧ v.active=false)

theorem Looked.moved (lifts : Prop) (h : Looked v₀ v) : Moved lifts v₀ v:=by
  rcases h with h | ⟨hnow,-,hover,hinactive⟩
  · exact h.moved lifts
  · exact ⟨hnow,fun hactive=>by simp [hinactive] at hactive,fun _ _=>Or.inl hover⟩

theorem lockoutRemainingMs_toNat {pm : PinManager} (hactive : pm.lockoutActive=true) (now : ℕ) :
    (lockoutRemainingMs pm now).toNat =
      (lockoutDurationMs pm.badgeLockoutCount).toNat-(UInt32.ofNat now-pm.lockoutStartMs).toNat:=by
  unfold lockoutRemainingMs
  rw [hactive,if_neg (by simp)]
  dsimp only
  split
  · rename_i hover
    have hover:=UInt32.le_iff_toNat_le.mp hover
    rw [UInt32.toNat_zero]
    omega
  · rename_i hrunning
    have hle:=UInt32.le_of_lt (UInt32.not_le.mp hrunning)
    rw [UInt32.toNat_sub_of_le _ _ hle]

theorem over_of_lockoutOver {b : Badge} (h : lockoutOver b=true) : b.pm.lockoutActive=true ∧ Over (timer b):=by
  simp only [lockoutOver,Bool.and_eq_true,beq_iff_eq] at h
  obtain ⟨hactive,hzero⟩:=h
  have hleft:=lockoutRemainingMs_toNat hactive b.now
  rw [hzero,UInt32.toNat_zero] at hleft
  refine ⟨hactive,UInt32.le_iff_toNat_le.mpr ?_⟩
  show (lockoutDurationMs b.pm.badgeLockoutCount).toNat ≤ (UInt32.ofNat b.now-b.pm.lockoutStartMs).toNat
  omega

theorem looked_checkAndResetExpiredLockout :
    Triple (fun b=>Since v₀ (timer b)) checkAndResetExpiredLockout (fun _ b=>Looked v₀ (timer b)) fun _ _=>True:=by
  intro b hb
  rw [checkAndResetExpiredLockout_eq]
  show Looked v₀ (timer {b with pm:=refreshed b})
  unfold refreshed
  split
  · rename_i hover
    obtain ⟨hactive,hover⟩:=over_of_lockoutOver hover
    rcases hb with h | ⟨hnow,hunloaded,hloaded,-⟩
    · rw [← h]
      exact Or.inr ⟨rfl,hactive,hover,rfl⟩
    · exact Or.inl (Or.inr ⟨hnow,hunloaded,hloaded,fun h=>Bool.noConfusion h⟩)
  · exact Or.inl hb

theorem Looked.lifted {v' : Timer} (h : Looked v₀ v) (hnow : v'.now=v.now) (hinactive : v'.active=false)
    (hloaded : v'.loaded=v.loaded) : Moved (v₀.hash=v.hash) v₀ v':=by
  have hstart (hactive : v'.active=true) : v'.startMs=UInt32.ofNat v'.now ∨
      (v₀.active=true ∧ v'.startMs=v₀.startMs ∧ v'.count=v₀.count):=by
    rw [hinactive] at hactive
    cases hactive
  rcases h with (rfl | ⟨hsame,hunloaded,hnew,-⟩) | ⟨hsame,-,hover,-⟩
  · exact ⟨hnow,hstart,fun _ _=>Or.inr (Or.inl rfl)⟩
  · exact ⟨hnow.trans hsame,hstart,fun _ _=>Or.inr (Or.inr ⟨hunloaded,hloaded.trans hnew⟩)⟩
  · exact ⟨hnow.trans hsame,hstart,fun _ _=>Or.inl hover⟩

theorem Looked.now (h : Looked v₀ v) : v.now=v₀.now:=by
  rcases h with (rfl | ⟨hsame,-⟩) | ⟨hsame,-⟩
  · rfl
  · exact hsame
  · exact hsame

def Checked (hashIn : ByteArr 16) (v₀ : Timer) (answer : Bool) (v : Timer) : Prop:=
  Moved (v₀.hash=hashIn) v₀ v ∧ (answer=true→v.active=false)

theorem checked_verifyBadgePinHashCounted (hashIn : ByteArr 16) :
    Triple (fun b=>Since v₀ (timer b)) (verifyBadgePinHashCounted cr hashIn)
      (fun answer b=>Checked hashIn v₀ answer (timer b)) fun _ _=>True:=by
  have hrefused {b : Badge} (hb : Looked v₀ (timer b)) : Checked hashIn v₀ false (timer b):=
    ⟨hb.moved _,fun h=>Bool.noConfusion h⟩
  refine Triple.bind holds_ensureInit fun _=>Triple.bind looked_checkAndResetExpiredLockout fun _=>?_
  refine Triple.bind (Q:=fun _ b=>Looked v₀ (timer b)) (Triple.gets fun b hb=>hb) fun retries=>?_
  refine Triple.ite (fun _=>Triple.pure fun b hb=>hrefused hb) fun _=>?_
  refine Triple.bind (Q:=fun _ b=>Looked v₀ (timer b)) (Triple.modify fun b hb=>hb) fun _=>?_
  refine Triple.bind (Q:=fun hash b=>hash=b.pm.badgeHash ∧ Looked v₀ (timer b)) (Triple.gets fun b hb=>⟨rfl,hb⟩)
    fun hash=>?_
  refine Triple.ite (fun hright=>?_) fun _=>?_
  · refine Triple.bind (Q:=fun _ b=>hash=b.pm.badgeHash ∧ Looked v₀ (timer b)) (Triple.modify fun b hb=>hb)
      fun _=>?_
    refine Triple.bind (Q:=fun _ b=>Checked hashIn v₀ true (timer b)) (Triple.modify ?_) fun _=>?_
    · rintro b ⟨hhash,hlooked⟩
      have hsame : (timer b).hash=hashIn:=hhash.symm.trans ((compareHash_iff _ _).mp hright)
      exact ⟨hsame ▸ hlooked.lifted rfl rfl rfl,fun _=>rfl⟩
    · exact Triple.bind (Holds.gets _) fun count=>
        Triple.bind (Holds.when (Holds.of_fixes fixes_saveToStorage)) fun _=>Triple.pure fun b hb=>hb
  · refine Triple.bind (Q:=fun _ b=>Looked v₀ (timer b)) (Triple.modify fun b hb=>hb.2) fun _=>?_
    refine Triple.bind (Q:=fun _ b=>Looked v₀ (timer b)) (Triple.gets fun b hb=>hb) fun left=>?_
    refine Triple.bind (Q:=fun _ b=>Checked hashIn v₀ false (timer b)) ?_ fun _=>Triple.pure fun b hb=>hb
    refine Triple.when (fun _=>?_) fun _ b hb=>hrefused hb
    -- The last wrong guess starts a lockout.
    refine Triple.bind (Q:=fun _ b=>(timer b).now=v₀.now) (Triple.modify fun b hb=>hb.now) fun _=>?_
    refine Triple.bind (Q:=fun _ b=>(timer b).now=v₀.now) (Triple.modify fun b hb=>hb) fun _=>?_
    refine Triple.bind (Holds.of_fixes (P:=fun v=>v.now=v₀.now) fixes_saveToStorage) fun _=>Triple.modify ?_
    intro b hb
    exact ⟨⟨hb,fun _=>Or.inl rfl,fun _ h=>Bool.noConfusion h⟩,fun h=>Bool.noConfusion h⟩

theorem checked_verifyBadgePin (pin : Bytes) :
    Triple (fun b=>Since v₀ (timer b)) (verifyBadgePin cr pin)
      (fun answer b=>Checked (computeBadgeHash cr pin) v₀ answer (timer b)) fun _ _=>True:=
  Triple.bind holds_ensureInit fun _=>checked_verifyBadgePinHashCounted (computeBadgeHash cr pin)

theorem checked_pinStorageVerifyFido2Hash (hashIn : ByteArr 16) :
    Triple (fun b=>Since v₀ (timer b)) (pinStorageVerifyFido2Hash cr hashIn)
      (fun answer b=>Checked hashIn v₀ answer (timer b)) fun _ _=>True:=
  Triple.bind holds_init fun _=>checked_verifyBadgePinHashCounted hashIn

theorem moved_changeBadgePin (currentPin newPin : Bytes) :
    Triple (fun b=>Since v₀ (timer b)) (changeBadgePin cr currentPin newPin)
      (fun _ b=>Moved (v₀.hash=computeBadgeHash cr currentPin) v₀ (timer b)) fun _ _=>True:=by
  refine Triple.bind (checked_verifyBadgePin currentPin) fun answer=>?_
  refine Triple.ite (fun hright=>?_) fun _=>Triple.pure fun b hb=>hb.1
  refine Triple.named fun b hb=>?_
  refine Triple.conseq (stopped_setBadgePin newPin) (fun _ h=>congrArg timer h) ?_ fun _ _ h=>h
  intro _ b' hstopped
  obtain ⟨hmoved,hinactive⟩:=hb
  rcases hstopped with hsame | ⟨hnow,hstopped,hloaded⟩
  · rw [hsame]
    exact hmoved
  · refine ⟨hnow.trans hmoved.now,fun hactive=>by simp [hstopped] at hactive,fun hactive _=>?_⟩
    rw [hloaded]
    exact hmoved.ended hactive (hinactive hright)

variable (cr) in
/-- What an operation of a badge that stays on makes of the timer, where no time passes. -/
theorem moved_op (b : Badge) {op : PinOp} (hwait : ∀ ms, op≠.wait ms) :
    Triple (fun c=>timer c=timer b) (op.run cr) (fun _ c=>Moved (Lifts cr b op) (timer b) (timer c)) fun _ _=>True:=by
  have hsame {c : Badge} (h : timer c=timer b) : Since (timer b) (timer c):=Or.inl h
  have hsince {m : PinM Bool} (h : Holds (Since (timer b)) m) : Triple (fun c=>timer c=timer b) m
      (fun _ c=>Moved (Lifts cr b op) (timer b) (timer c)) fun _ _=>True:=
    Triple.conseq h (fun _ h=>hsame h) (fun _ _ h=>h.moved _) fun _ _ h=>h
  cases op with
  | init=>exact hsince holds_init
  | verifyBadgePin pin=>
    exact Triple.conseq (checked_verifyBadgePin pin) (fun _ h=>hsame h) (fun _ _ h=>h.1) fun _ _ h=>h
  | verifyBadgePinHashCounted hashIn=>
    exact Triple.conseq (checked_verifyBadgePinHashCounted hashIn) (fun _ h=>hsame h) (fun _ _ h=>h.1) fun _ _ h=>h
  | pinStorageVerifyFido2Hash hashIn=>
    exact Triple.conseq (checked_pinStorageVerifyFido2Hash hashIn) (fun _ h=>hsame h) (fun _ _ h=>h.1) fun _ _ h=>h
  | changeBadgePin currentPin newPin=>
    exact Triple.conseq (moved_changeBadgePin currentPin newPin) (fun _ h=>hsame h) (fun _ _ h=>h) fun _ _ h=>h
  | setBadgePin newPin=>
    exact Triple.conseq (stopped_setBadgePin newPin) (fun _ h=>h) (fun _ _ h=>h.moved) fun _ _ h=>h
  | setMinPinLengthFloor minLen=>exact hsince (Holds.bind (Holds.update fun _=>rfl) fun _=>Holds.pure _)
  | resetBadgeRetries=>
    refine Triple.bind stopped_resetBadgeRetries fun _=>Triple.pure ?_
    exact fun _ h=>h.moved
  | startLockout=>
    refine Triple.bind (Q:=fun _ c=>Moved False (timer b) (timer c)) (Triple.modify ?_) fun _=>Triple.pure fun _ h=>h
    intro c hc
    have hnow : c.now=b.now:=congrArg Timer.now hc
    exact ⟨hnow,fun _=>Or.inl rfl,fun _ h=>Bool.noConfusion h⟩
  | checkAndResetExpiredLockout=>
    refine Triple.bind (Triple.conseq looked_checkAndResetExpiredLockout (fun _ h=>hsame h) (fun _ _ h=>h)
      fun _ _ h=>h) fun _=>Triple.pure ?_
    exact fun _ h=>h.moved _
  | setDuressPin pin=>exact hsince (holds_setDuressPin pin)
  | clearDuressPin=>exact hsince holds_clearDuressPin
  | verifyPW1 pin=>exact hsince (holds_verifyPw .pw1 pin)
  | verifyPW1Raw data=>exact hsince (holds_verifyPinRaw .pw1 data)
  | changePW1 currentPin newPin=>exact hsince (holds_changePw .pw1 pw1Min currentPin newPin)
  | setPW1 newPin=>exact hsince (holds_setPw .pw1 pw1Min newPin)
  | setPW1Raw data=>exact hsince (holds_setPwRaw .pw1 data)
  | resetPW1Retries=>exact hsince (Holds.bind (holds_resetPwRetries .pw1) fun _=>Holds.pure _)
  | verifyPW3 pin=>exact hsince (holds_verifyPw .pw3 pin)
  | verifyPW3Raw data=>exact hsince (holds_verifyPinRaw .pw3 data)
  | changePW3 currentPin newPin=>exact hsince (holds_changePw .pw3 pw3Min currentPin newPin)
  | setPW3 newPin=>exact hsince (holds_setPw .pw3 pw3Min newPin)
  | setPW3Raw data=>exact hsince (holds_setPwRaw .pw3 data)
  | resetPW3Retries=>exact hsince (Holds.bind (holds_resetPwRetries .pw3) fun _=>Holds.pure _)
  | wait ms=>exact absurd rfl (hwait ms)
  | powerCycle=>exact Triple.stop fun _ _=>trivial

section Steps

variable {w : Watch} {i : PinInput}

/-- The timer keeps the true start, modulo 2^32. -/
def Tracks (w : Watch) : Prop:=
  w.active=true→w.startedMs ≤ w.badge.now ∧ w.badge.pm.lockoutStartMs=UInt32.ofNat w.startedMs

/-- The clock has not come round to a lockout that is still marked as under way. -/
def Unwrapped (w : Watch) : Prop:=w.active=true→w.age < 2^32 ∨ w.duration ≤ w.age % 2^32

theorem Tracks.elapsed (h : Tracks w) (hactive : w.active=true) :
    (UInt32.ofNat w.badge.now-w.badge.pm.lockoutStartMs).toNat=w.age % 2^32:=by
  obtain ⟨hle,hstart⟩:=h hactive
  rw [hstart,UInt32.toNat_sub,UInt32.toNat_ofNat',UInt32.toNat_ofNat']
  unfold Watch.age
  omega

theorem duration_lt (w : Watch) : w.duration < 2^32:=UInt32.toNat_lt _

theorem reported_iff (h : Tracks w) : w.reported=w.left ↔ Unwrapped w:=by
  unfold Unwrapped Watch.left
  cases hactive : w.active with
  | false=>
    have hzero : w.reported=0:=by
      have hinactive : w.badge.pm.lockoutActive=false:=hactive
      unfold Watch.reported lockoutRemainingMs
      rw [hinactive]
      rfl
    simp [hzero]
  | true=>
    have hreported : w.reported=w.duration-w.age % 2^32:=by
      rw [← h.elapsed hactive]
      exact lockoutRemainingMs_toNat hactive w.badge.now
    have hbound:=duration_lt w
    rw [hreported,if_pos rfl]
    constructor
    · intro heq _
      omega
    · intro hwrapped
      have:=hwrapped rfl
      omega

theorem step_wait {ms : ℕ} (hop : i.op=.wait ms) (b : Badge) :
    Pin.step cr b i={b.given i with now:=b.now+ms}:=by
  unfold Pin.step respond
  rw [hop]
  rfl

variable (cr) in
theorem step_op (b : Badge) (hwait : ∀ ms, i.op≠.wait ms) :
    Moved (Lifts cr b i.op) (timer b) (timer (Pin.step cr b i)) ∨
      (respond cr b i).1=none ∧ (Pin.step cr b i).pm.lockoutActive=false:=by
  have hmoved:=moved_op cr b hwait (b.given i) rfl
  unfold Pin.step respond
  revert hmoved
  cases i.op.run cr (b.given i) with
  | mk reply b'=>
    cases reply with
    | ok answer=>exact Or.inl
    | error _=>exact fun _=>Or.inr ⟨rfl,rfl⟩

theorem runsOn_wait {ms : ℕ} (hop : i.op=.wait ms) (hactive : w.active=true) :
    RunsOn w.badge (Pin.step cr w.badge i):=by
  rw [step_wait hop]
  exact ⟨hactive,hactive,rfl,rfl⟩

variable (cr) in
theorem step_wait_active {ms : ℕ} (hop : i.op=.wait ms) : (step cr w i).active=w.active:=by
  show (Pin.step cr w.badge i).pm.lockoutActive=w.badge.pm.lockoutActive
  rw [step_wait hop]
  rfl

variable (cr) in
theorem step_wait_age {ms : ℕ} (hop : i.op=.wait ms) (ht : Tracks w) (hactive : w.active=true) :
    (step cr w i).age=w.age+ms ∧ (step cr w i).duration=w.duration:=by
  obtain ⟨hle,-⟩:=ht hactive
  have hstarted : (step cr w i).startedMs=w.startedMs:=if_pos (runsOn_wait hop hactive)
  have hnow : (step cr w i).badge.now=w.badge.now+ms:=by
    show (Pin.step cr w.badge i).now=_
    rw [step_wait hop]
  have hcount : (step cr w i).badge.pm.badgeLockoutCount=w.badge.pm.badgeLockoutCount:=by
    show (Pin.step cr w.badge i).pm.badgeLockoutCount=_
    rw [step_wait hop]
    rfl
  unfold Watch.age Watch.duration
  rw [hstarted,hnow,hcount]
  exact ⟨by omega,rfl⟩

theorem Tracks.step (ht : Tracks w) : Tracks (step cr w i):=by
  intro hactive
  by_cases hop : ∃ ms, i.op=.wait ms
  · obtain ⟨ms,hop⟩:=hop
    have hbefore : w.active=true:=step_wait_active cr hop ▸ hactive
    obtain ⟨hle,hstart⟩:=ht hbefore
    have hstarted : (LockoutTimer.step cr w i).startedMs=w.startedMs:=if_pos (runsOn_wait hop hbefore)
    have hbadge : (LockoutTimer.step cr w i).badge={w.badge.given i with now:=w.badge.now+ms}:=step_wait hop w.badge
    rw [hstarted,hbadge]
    exact ⟨by show w.startedMs ≤ w.badge.now+ms; omega,hstart⟩
  · push Not at hop
    rcases step_op cr w.badge hop with hmoved | ⟨-,hinactive⟩
    · by_cases hruns : RunsOn w.badge (Pin.step cr w.badge i)
      · obtain ⟨hle,hstart⟩:=ht hruns.1
        have hstarted : (LockoutTimer.step cr w i).startedMs=w.startedMs:=if_pos hruns
        have hnow : (LockoutTimer.step cr w i).badge.now=w.badge.now:=hmoved.now
        rw [hstarted,hnow]
        exact ⟨hle,hruns.2.2.1.trans hstart⟩
      · have hstarted : (LockoutTimer.step cr w i).startedMs=(Pin.step cr w.badge i).now:=if_neg hruns
        rw [hstarted]
        refine ⟨le_rfl,?_⟩
        rcases hmoved.start hactive with hfresh | ⟨hbefore,hkept,hcount⟩
        · exact hfresh
        · exact absurd ⟨hbefore,hactive,hkept,hcount⟩ hruns
    · exact Bool.noConfusion (hactive.symm.trans hinactive)

theorem unwrapped_wait {ms : ℕ} (hop : i.op=.wait ms) (ht : Tracks w) : Unwrapped (step cr w i) ↔ Heeds w i:=by
  have hheeds : Heeds w i ↔ (w.active=true→w.age+ms < 2^32 ∨ w.duration ≤ (w.age+ms) % 2^32):=by
    unfold Heeds
    rw [hop]
    constructor
    · exact fun h=>h ms rfl
    · rintro h _ ⟨⟩
      exact h
  rw [hheeds]
  unfold Unwrapped
  rw [step_wait_active cr hop]
  apply forall_congr'
  intro hactive
  obtain ⟨hage,hduration⟩:=step_wait_age cr hop ht hactive
  rw [hage,hduration]

theorem unwrapped_op (hop : ∀ ms, i.op≠.wait ms) (hu : Unwrapped w) : Unwrapped (step cr w i):=by
  intro hactive
  rcases step_op cr w.badge hop with hmoved | ⟨-,hinactive⟩
  · by_cases hruns : RunsOn w.badge (Pin.step cr w.badge i)
    · have hage : (step cr w i).age=w.age:=by
        have hstarted : (step cr w i).startedMs=w.startedMs:=if_pos hruns
        have hnow : (step cr w i).badge.now=w.badge.now:=hmoved.now
        unfold Watch.age
        rw [hstarted,hnow]
      have hduration : (step cr w i).duration=w.duration:=
        congrArg (fun count=>(lockoutDurationMs count).toNat) hruns.2.2.2
      rw [hage,hduration]
      exact hu hruns.1
    · have hage : (step cr w i).age=0:=by
        have hstarted : (step cr w i).startedMs=(step cr w i).badge.now:=if_neg hruns
        unfold Watch.age
        rw [hstarted,Nat.sub_self]
      rw [hage]
      exact Or.inl (by decide)
  · exact Bool.noConfusion (hactive.symm.trans hinactive)

theorem ended_op (hop : ∀ ms, i.op≠.wait ms) (ht : Tracks w) (hactive : w.active=true)
    (hended : (step cr w i).active=false) : w.duration ≤ w.age ∨ Lifts cr w.badge i.op ∨
      (w.badge.pm.pinLoaded=false ∧ (step cr w i).badge.pm.pinLoaded=true) ∨ (respond cr w.badge i).1=none:=by
  rcases step_op cr w.badge hop with hmoved | ⟨hlost,-⟩
  · rcases hmoved.ended hactive hended with hover | hlifts | hloaded
    · left
      have hpassed:=UInt32.le_iff_toNat_le.mp hover
      have helapsed:=ht.elapsed hactive
      have hwrapped : w.age % 2^32 ≤ w.age:=Nat.mod_le _ _
      exact hpassed.trans (helapsed.trans_le hwrapped)
    · exact Or.inr (Or.inl hlifts)
    · exact Or.inr (Or.inr (Or.inl hloaded))
  · exact Or.inr (Or.inr (Or.inr hlost))

variable (cr) in
theorem right_iff (ht : Tracks w) (hu : Unwrapped w) : Right cr w i ↔ Heeds w i:=by
  by_cases hop : ∃ ms, i.op=.wait ms
  · obtain ⟨ms,hop⟩:=hop
    rw [← unwrapped_wait hop ht,← reported_iff ht.step]
    constructor
    · exact fun h=>h.reported
    · refine fun h=>⟨h,fun hactive hended=>?_⟩
      rw [step_wait_active cr hop,hactive] at hended
      cases hended
  · push Not at hop
    constructor
    · exact fun _ ms hwait=>absurd hwait (hop ms)
    · exact fun _=>⟨(reported_iff ht.step).mpr (unwrapped_op hop hu),ended_op hop ht⟩

end Steps

/-- The timer follows the true start, and the clock has not come round to a lockout. -/
def Timely (w : Watch) : Prop:=Tracks w ∧ Unwrapped w

theorem timely_right (cr : Crypto) {w : Watch} (hw : Timely w) (i : PinInput) : Right cr w i ↔ Heeds w i ∧ Timely (step cr w i):=by
  rw [← right_iff cr hw.1 hw.2]
  constructor
  · exact fun h=>⟨h,hw.1.step,(reported_iff hw.1.step).mp h.reported⟩
  · exact fun h=>h.1

/-- Along a run, what is reported is what is left, and no lockout ends early, exactly where no time passes that brings the
clock round to a lockout still marked as under way. -/
theorem lockout_timer_iff (cr : Crypto) (b : Badge) (is : List PinInput) (hb : b.pm.lockoutActive=false) :
    AlongRun (step cr) (Right cr) ⟨b,0⟩ is ↔ AlongRun (step cr) Heeds ⟨b,0⟩ is:=by
  have hstart : Timely ⟨b,0⟩:=by
    constructor
    · exact fun hactive=>Bool.noConfusion (hb.symm.trans hactive)
    · exact fun hactive=>Bool.noConfusion (hb.symm.trans hactive)
  apply alongRun_iff ?_ hstart
  intro w i hw
  have hright:=timely_right cr hw i
  have hiff:=right_iff cr hw.1 hw.2 (i:=i)
  exact ⟨hiff,fun hheeds=>(hright.mp (hiff.mpr hheeds)).2⟩

def blank : Badge where
  chip:={ecc:=fun _=>none,rmem:=fun _=>none}

def lookedEvents : List PinInput:=
  [{op:=.init,saves:=[{session:=false}]},{op:=.wait 30000},{op:=.checkAndResetExpiredLockout}]

theorem lockout_timer_looked : AlongRun (step Crypto.plain) (Right Crypto.plain) ⟨blank,0⟩ lookedEvents ↔
    AlongRun (step Crypto.plain) Heeds ⟨blank,0⟩ lookedEvents:=
  lockout_timer_iff Crypto.plain blank lookedEvents rfl

def sleptEvents : List PinInput:=
  [{op:=.init,saves:=[{session:=false}]},{op:=.wait (2^32)}]

theorem lockout_returns : ¬∀ (cr : Crypto) (b : Badge) (is : List PinInput), b.pm.lockoutActive=false →
    AlongRun (step cr) (Right cr) ⟨b,0⟩ is:=by
  intro h
  obtain ⟨-,hright,-⟩:=h Crypto.plain blank sleptEvents rfl
  exact absurd hright.reported (by decide +kernel)

end CdcBadge.LockoutTimer
