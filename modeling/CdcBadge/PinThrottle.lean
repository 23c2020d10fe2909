import CdcBadge.PinPowerLoss

/-!
# Badge PIN throttling

With every call to the chip done, the stored lockout count keeps up with the wrong
guesses compared since the last correct PIN, up to those that were pending in the
retry counter when power was cycled, of which there are at most two each time.
-/

namespace CdcBadge.Pin

open Handler Runs

variable {cr : Crypto} {b : Badge}

def storedLockoutCount (b : Badge) : ℕ:=
  match b.chip.rmem rmemSlotPin with
  | none=>0
  | some record=>(parsePayload record).badgeLockoutCount.toNat

def HasAttestationKey (c : Chip Bytes) : Prop:=
  ∃ key, c.ecc attestationEccSlot=some key ∧ key.curve=.p256

theorem saveToStorage_healthy (cr : Crypto) (hsaves : b.saves=[]) (hkey : HasAttestationKey b.chip) :
    ∃ record, ValidRecord cr b.chip record ∧ parsePayload record=b.pm.toPinRecord ∧
      saveToStorage cr b=(.ok true,{ b with
        lastSave:=some (b.chip.rmem rmemSlotPin,record)
        chip:={b.chip with rmem:=Function.update b.chip.rmem rmemSlotPin (some record)}
        pm:={ b.pm with
          persistedBadgeLockoutCount:=b.pm.badgeLockoutCount
          persistedPw1Retries:=b.pm.pw1Retries
          persistedPw3Retries:=b.pm.pw3Retries } }):=by
  obtain ⟨key,hkey,hcurve⟩:=hkey
  refine ⟨_,validRecord_sign hkey hcurve b.pm.toPinRecord 0,parsePayload_payload _ _,?_⟩
  have hsig : attestationSign cr (payload b.pm.toPinRecord) 0 b.chip =
      (.ok (cr.ecdsaSign key 0 (cr.sha256 (payload b.pm.toPinRecord))),b.chip):=by
    simp [attestationSign,Chip.eccSigningKey_some (by decide) hkey,hcurve]
  have hwrite : ∀ record : Bytes, Chip.rmemWrite rmemSlotPin record (Chip.rmemErase rmemSlotPin b.chip).2 =
      (.ok (),{b.chip with rmem:=Function.update b.chip.rmem rmemSlotPin (some record)}):=by
    intro record
    rw [Chip.rmemErase_lt (by decide),Chip.rmemWrite_none (by decide) (by simp)]
    simp
  simp [saveToStorage,nextSave,hsaves,bind_apply,pmGets,payload_length,seCall,Chip.perform,hsig,noteSave,
    replaceRecord,hwrite,updatePm]

/-- What the throttling rests on. Guesses are covered by three for each lockout, the
pending ones and the forgotten ones, and the pending ones are missing from the
retry counter. -/
structure Throttled (cr : Crypto) (b : Badge) : Prop where
  key : HasAttestationKey b.chip
  valid : ∀ record, b.chip.rmem rmemSlotPin=some record→ValidRecord cr b.chip record
  guesses : b.tally.guesses ≤ 3*storedLockoutCount b+b.tally.pending+b.tally.forgotten ∨
    storedLockoutCount b=255
  forgotten : b.tally.forgotten ≤ 2*b.tally.reboots
  unloaded : b.pm.pinLoaded=false→b.tally.pending=0
  stored : b.pm.pinLoaded=true → storedLockoutCount b=b.pm.badgeLockoutCount.toNat ∧
    b.pm.persistedBadgeLockoutCount=b.pm.badgeLockoutCount
  retries : b.pm.pinLoaded=true→b.tally.pending+b.pm.badgeRetries.toNat ≤ 3
  blocked : b.pm.pinLoaded=true→b.pm.badgeRetries=0→b.tally.pending=0
  locked : b.pm.pinLoaded=true→b.pm.lockoutActive=true→b.pm.badgeRetries.toNat ≤ 1 ∧ b.tally.pending=0

/-- Throttled, with nothing but done calls to come. -/
def Calm (cr : Crypto) (b : Badge) : Prop:=Throttled cr b ∧ b.loads=[] ∧ b.saves=[]

theorem storedLockoutCount_some {record : Bytes} (h : b.chip.rmem rmemSlotPin=some record) :
    storedLockoutCount b=(parsePayload record).badgeLockoutCount.toNat:=by
  simp [storedLockoutCount,h]

theorem storedLockoutCount_none (h : b.chip.rmem rmemSlotPin=none) : storedLockoutCount b=0:=by
  simp [storedLockoutCount,h]

/-- A record has been loaded or written and nothing guessed since power-on. -/
structure Ready (cr : Crypto) (b : Badge) : Prop where
  key : HasAttestationKey b.chip
  valid : ∀ record, b.chip.rmem rmemSlotPin=some record→ValidRecord cr b.chip record
  guesses : b.tally.guesses ≤ 3*storedLockoutCount b+b.tally.forgotten ∨ storedLockoutCount b=255
  forgotten : b.tally.forgotten ≤ 2*b.tally.reboots
  pending : b.tally.pending=0
  stored : storedLockoutCount b=b.pm.badgeLockoutCount.toNat
  persisted : b.pm.persistedBadgeLockoutCount=b.pm.badgeLockoutCount
  scripts : b.loads=[] ∧ b.saves=[]

/-- The one guess or none that power-on grants comes with a running recovery timer. -/
theorem Ready.boot (h : Ready cr b) :
    Calm cr { b with pm:={ b.pm with
      pinLoaded:=true
      badgeRetries:=if b.pm.badgeLockoutCount≠0 then 0 else 1
      lockoutStartMs:=UInt32.ofNat b.now
      lockoutActive:=true } }:=by
  have hone : (if b.pm.badgeLockoutCount≠0 then (0 : UInt8) else 1).toNat ≤ 1:=by
    split <;> decide
  have hpending:=h.pending
  refine ⟨⟨h.key,h.valid,?_,h.forgotten,fun hpm=>by simp at hpm,fun _=>⟨h.stored,h.persisted⟩,fun _=>?_,
    fun _ _=>hpending,fun _ _=>⟨hone,hpending⟩⟩,h.scripts⟩
  · rcases h.guesses with hg | hg
    · exact .inl (by simp only [storedLockoutCount] at hg ⊢; omega)
    · exact .inr hg
  · dsimp only
    omega

theorem calm_saved {b b' : Badge} {record : Bytes} (hslot : b'.chip.rmem rmemSlotPin=some record)
    (hrecord : parsePayload record=b.pm.toPinRecord) :
    storedLockoutCount b'=b.pm.badgeLockoutCount.toNat:=by
  rw [storedLockoutCount_some hslot,hrecord]

theorem calm_loadFromStorage :
    Triple (fun b=>Calm cr b ∧ b.pm.pinLoaded=false) (loadFromStorage cr)
      (fun loaded b=>loaded=true ∧ Ready cr b ∨ loaded=false ∧ b.pm.storageUnreadable=false ∧
        b.chip.rmem rmemSlotPin=none ∧ Calm cr b ∧ b.pm.pinLoaded=false) fun _ _=>False:=by
  rintro b ⟨⟨h,hloads,hsaves⟩,hpm⟩
  have hpending:=h.unloaded hpm
  cases hslot : b.chip.rmem rmemSlotPin with
  | none=>
    rw [loadFromStorage_empty hloads hslot]
    exact .inr ⟨rfl,rfl,hslot,⟨⟨h.key,h.valid,h.guesses,h.forgotten,h.unloaded,h.stored,h.retries,h.blocked,
      h.locked⟩,hloads,hsaves⟩,hpm⟩
  | some record=>
    rw [loadFromStorage_valid hloads hslot (h.valid record hslot)]
    refine .inl ⟨rfl,h.key,h.valid,?_,h.forgotten,hpending,storedLockoutCount_some hslot,rfl,hloads,hsaves⟩
    rcases h.guesses with hg | hg
    · exact .inl (by simp only [storedLockoutCount] at hg ⊢; omega)
    · exact .inr hg

theorem ready_loadDefaults :
    Triple (fun b=>b.chip.rmem rmemSlotPin=none ∧ Calm cr b ∧ b.pm.pinLoaded=false)
      (loadDefaults cr >>= fun _=>saveToStorage cr) (fun _=>Ready cr) fun _ _=>False:=by
  refine Triple.bind (Q:=fun _ b=>(b.chip.rmem rmemSlotPin=none ∧ Calm cr b ∧ b.pm.pinLoaded=false) ∧
    b.pm.badgeLockoutCount=0) ?_ fun _=>?_
  · rintro b ⟨hslot,⟨h,hscripts⟩,hpm⟩
    refine ⟨⟨hslot,⟨⟨h.key,h.valid,h.guesses,h.forgotten,h.unloaded,?_,?_,?_,?_⟩,hscripts⟩,hpm⟩,rfl⟩
    all_goals intro hloaded; exact absurd (hpm.symm.trans hloaded) (by simp)
  · rintro b ⟨⟨hslot,⟨h,hloads,hsaves⟩,hpm⟩,hcount⟩
    obtain ⟨record,hvalid,hrecord,hsave⟩:=saveToStorage_healthy cr hsaves h.key
    rw [hsave]
    have hstored : storedLockoutCount b=0:=storedLockoutCount_none hslot
    have hguesses : b.tally.guesses ≤ b.tally.forgotten:=by
      have:=h.unloaded hpm
      have:=h.guesses
      omega
    refine ⟨h.key,?_,.inl ?_,h.forgotten,h.unloaded hpm,calm_saved (by simp) hrecord,rfl,hloads,hsaves⟩
    · intro r hr
      simp only [Function.update_self,Option.some.injEq] at hr
      exact hr ▸ hvalid.congr rfl
    · dsimp only
      omega

theorem calm_init :
    Triple (Calm cr) (init cr) (fun _ b=>Calm cr b ∧ b.pm.pinLoaded=true) fun _ _=>False:=by
  refine Triple.bind (Q:=fun loaded b=>loaded=b.pm.pinLoaded ∧ Calm cr b)
    (Triple.gets fun b hb=>⟨rfl,hb⟩) fun loaded=>?_
  refine Triple.ite (fun hloaded=>Triple.pure fun b hb=>⟨hb.2,hb.1 ▸ hloaded⟩) fun hloaded=>?_
  have hload : Triple (fun b=>loaded=b.pm.pinLoaded ∧ Calm cr b) (loadFromStorage cr) _ _:=
    Triple.conseq calm_loadFromStorage (fun b hb=>⟨hb.2,by simpa [hb.1] using hloaded⟩) (fun _ _ h=>h)
      fun _ _ h=>h
  refine Triple.bind hload fun l=>?_
  refine Triple.bind (Q:=fun u b=>(l=true ∧ Ready cr b) ∨ l=false ∧ u=false ∧
    b.chip.rmem rmemSlotPin=none ∧ Calm cr b ∧ b.pm.pinLoaded=false) (Triple.gets fun b hb=>hb) fun u=>?_
  have hready : Triple (fun b=>(l=true ∧ Ready cr b) ∨ l=false ∧ u=false ∧
      b.chip.rmem rmemSlotPin=none ∧ Calm cr b ∧ b.pm.pinLoaded=false)
      (when (!l) (loadDefaults cr >>= fun _=>saveToStorage cr)) (fun _=>Ready cr) fun _ _=>False:=by
    refine Triple.when (fun hl=>Triple.conseq ready_loadDefaults ?_ (fun _ _ h=>h) fun _ _ h=>h) ?_
    · rintro b (⟨rfl,-⟩ | ⟨-,-,h⟩)
      · simp at hl
      · exact h
    · rintro hl b (⟨-,h⟩ | ⟨rfl,-⟩)
      · exact h
      · simp at hl
  refine Triple.ite (fun hblocked b hb=>?_) fun _=>Triple.bind hready fun _=>?_
  · rcases hb with ⟨rfl,-⟩ | ⟨rfl,rfl,-⟩ <;> simp at hblocked
  · exact fun b hb=>⟨hb.boot,rfl⟩

theorem calm_ensureInit :
    Triple (Calm cr) (ensureInit cr) (fun _ b=>Calm cr b ∧ b.pm.pinLoaded=true) fun _ _=>False:=by
  refine Triple.bind (Q:=fun loaded b=>loaded=b.pm.pinLoaded ∧ Calm cr b)
    (Triple.gets fun b hb=>⟨rfl,hb⟩) fun loaded=>?_
  refine Triple.when (fun _=>Triple.conseq calm_init (fun _ h=>h.2) (fun _ _ h=>h) fun _ _ h=>h) ?_
  exact fun hloaded b hb=>⟨hb.2,by simpa [← hb.1] using hloaded⟩

theorem calm_checkAndResetExpiredLockout (p : Bool) :
    Triple (fun b=>Calm cr b ∧ b.pm.pinLoaded=p) checkAndResetExpiredLockout
      (fun _ b=>Calm cr b ∧ b.pm.pinLoaded=p) fun _ _=>False:=by
  rintro b ⟨⟨h,hscripts⟩,hpm⟩
  simp only [checkAndResetExpiredLockout,pmGets,bind_gets]
  cases hactive : b.pm.lockoutActive with
  | false=>exact ⟨⟨h,hscripts⟩,hpm⟩
  | true=>
    by_cases hremaining : lockoutRemainingMs b.pm b.now > 0
    · simp only [hremaining,Bool.not_true,Bool.false_eq_true,if_true,if_false]
      exact ⟨⟨h,hscripts⟩,hpm⟩
    · simp only [hremaining,Bool.not_true,Bool.false_eq_true,if_false]
      refine ⟨⟨⟨h.key,h.valid,h.guesses,h.forgotten,h.unloaded,h.stored,fun hloaded=>?_,
        fun hloaded _=>(h.locked hloaded hactive).2,fun _ hlocked=>absurd hlocked (by simp)⟩,hscripts⟩,hpm⟩
      show b.tally.pending+maxRetries.toNat ≤ 3
      rw [(h.locked hloaded hactive).2]
      decide

/-- A guess has been taken off the retry counter and is about to be compared. -/
structure Guessing (cr : Crypto) (b : Badge) : Prop where
  throttled : Throttled cr {b with pm:={b.pm with badgeRetries:=b.pm.badgeRetries+1}}
  scripts : b.loads=[] ∧ b.saves=[]
  loaded : b.pm.pinLoaded=true
  retries : b.pm.badgeRetries.toNat+1+b.tally.pending ≤ 3

theorem guessing_of_calm (hb : Calm cr b) (hpm : b.pm.pinLoaded=true) (hr : b.pm.badgeRetries≠0) :
    Guessing cr {b with pm:={b.pm with badgeRetries:=b.pm.badgeRetries-1}}:=by
  have hadd : b.pm.badgeRetries-1+1=b.pm.badgeRetries:=by grind
  refine ⟨by simpa [hadd] using hb.1,hb.2,hpm,?_⟩
  have h:=hb.1.retries hpm
  have hsub : (b.pm.badgeRetries-1).toNat+1=b.pm.badgeRetries.toNat:=by
    have:=UInt8.toNat_inj.not.mpr hr
    simp only [UInt8.toNat_sub,UInt8.reduceToNat] at this ⊢
    have:=b.pm.badgeRetries.toNat_lt
    omega
  dsimp only
  omega

theorem throttled_correct (hkey : HasAttestationKey b.chip)
    (hvalid : ∀ record, b.chip.rmem rmemSlotPin=some record→ValidRecord cr b.chip record)
    (htally : b.tally={}) (hstored : storedLockoutCount b=b.pm.badgeLockoutCount.toNat)
    (hpersisted : b.pm.persistedBadgeLockoutCount=b.pm.badgeLockoutCount)
    (hretries : b.pm.badgeRetries=maxRetries) (hactive : b.pm.lockoutActive=false) : Throttled cr b where
  key:=hkey
  valid:=hvalid
  guesses:=.inl (by simp [htally])
  forgotten:=by simp [htally]
  unloaded _:=by simp [htally]
  stored _:=⟨hstored,hpersisted⟩
  retries _:=by rw [htally,hretries]; decide
  blocked _ _:=by simp [htally]
  locked _ h:=by simp [hactive] at h

theorem calm_correct :
    Triple (Guessing cr) (do
      updateTally fun _=>{}
      updatePm fun pm=>{pm with badgeRetries:=maxRetries,lockoutActive:=false,badgeLockoutCount:=0}
      when ((← pmGets (·.persistedBadgeLockoutCount))≠0) (saveToStorage cr)
      pure true) (fun _=>Calm cr) fun _ _=>False:=by
  intro b hb
  have hstored:=hb.throttled.stored hb.loaded
  simp only [updateTally,updatePm,pmGets,bind_modify,bind_gets]
  by_cases hp : b.pm.persistedBadgeLockoutCount=0
  · simp only [hp,ne_eq,not_true_eq_false,when,if_false,bind_pure_left]
    refine ⟨throttled_correct hb.throttled.key hb.throttled.valid rfl ?_ rfl rfl rfl,hb.scripts⟩
    exact hstored.1.trans (by rw [← hstored.2]; exact congrArg UInt8.toNat hp)
  · simp only [hp,ne_eq,not_false_eq_true,when,if_true]
    obtain ⟨record,hvalid,hrecord,hsave⟩:=saveToStorage_healthy cr
      (b:={ b with tally:={},pm:={ b.pm with
        badgeRetries:=maxRetries,lockoutActive:=false,badgeLockoutCount:=0 } }) hb.scripts.2 hb.throttled.key
    rw [bind_of_ok (bind_ok.mpr ⟨_,_,hsave,rfl⟩)]
    refine ⟨throttled_correct hb.throttled.key ?_ rfl (calm_saved (by simp) hrecord) rfl rfl rfl,hb.scripts⟩
    intro r hr
    simp only [Function.update_self,Option.some.injEq] at hr
    exact hr ▸ hvalid.congr rfl

theorem lockoutCount_succ (c : UInt8) :
    c.toNat < 255 ∧ (if c < 255 then c+1 else c).toNat=c.toNat+1 ∨
      (if c < 255 then c+1 else c).toNat=255:=by
  have hc:=c.toNat_lt
  by_cases h : c < 255
  · have h' : c.toNat < 255:=UInt8.lt_iff_toNat_lt.mp h
    rw [if_pos h,UInt8.toNat_add]
    simp only [UInt8.reduceToNat]
    omega
  · have h' : ¬c.toNat < 255:=fun h'=>h (UInt8.lt_iff_toNat_lt.mpr h')
    rw [if_neg h]
    omega

theorem guesses_wrong (hb : Guessing cr b) :
    b.tally.guesses+1 ≤ 3*storedLockoutCount b+(b.tally.pending+1)+b.tally.forgotten ∨
      storedLockoutCount b=255:=by
  rcases hb.throttled.guesses with hg | hg
  · exact .inl (by simp only [storedLockoutCount] at hg ⊢; omega)
  · exact .inr hg

theorem calm_wrong_pending (hb : Guessing cr b) (hr : b.pm.badgeRetries≠0) :
    Calm cr {b with tally:=b.tally.wrong}:=by
  have hretries:=hb.retries
  have hpos : b.pm.badgeRetries.toNat≠0:=UInt8.toNat_inj.not.mpr hr
  refine ⟨⟨hb.throttled.key,hb.throttled.valid,guesses_wrong hb,hb.throttled.forgotten,fun h=>?_,
    hb.throttled.stored,fun _=>?_,fun _ h=>absurd h hr,fun _ h=>?_⟩,hb.scripts⟩
  · exact absurd (hb.loaded.symm.trans h) (by simp)
  · simp only [Tally.wrong]
    omega
  · -- A running timer has at most one guess, and this one was not the last.
    have hlocked:=(hb.throttled.locked hb.loaded h).1
    simp only [UInt8.toNat_add,UInt8.reduceToNat] at hlocked
    omega

theorem calm_wrong_lockout (hb : Guessing cr b) (hr : b.pm.badgeRetries=0) :
    Triple (fun b'=>b'={b with tally:=b.tally.wrong}) (do
      updatePm fun pm=>{ pm with
        badgeLockoutCount:=if pm.badgeLockoutCount < 255 then pm.badgeLockoutCount+1
          else pm.badgeLockoutCount }
      updateTally Tally.lockout
      let _ ← saveToStorage cr
      startLockout) (fun _=>Calm cr) fun _ _=>False:=by
  rintro b' rfl
  simp only [updateTally,updatePm,bind_modify]
  obtain ⟨record,hvalid,hrecord,hsave⟩:=saveToStorage_healthy cr
    (b:={ b with tally:=b.tally.wrong.lockout,pm:={ b.pm with
      badgeLockoutCount:=if b.pm.badgeLockoutCount < 255 then b.pm.badgeLockoutCount+1
        else b.pm.badgeLockoutCount } }) hb.scripts.2 hb.throttled.key
  rw [bind_of_ok hsave]
  have hstored : storedLockoutCount b=b.pm.badgeLockoutCount.toNat:=(hb.throttled.stored hb.loaded).1
  have hwrong:=guesses_wrong hb
  have hretries:=hb.retries
  have hcount:=lockoutCount_succ b.pm.badgeLockoutCount
  refine ⟨⟨hb.throttled.key,?_,?_,hb.throttled.forgotten,fun _=>rfl,fun _=>⟨?_,rfl⟩,fun _=>?_,
    fun _ _=>rfl,fun _ _=>⟨?_,rfl⟩⟩,hb.scripts⟩
  · intro r hr
    simp only [Function.update_self,Option.some.injEq] at hr
    exact hr ▸ hvalid.congr rfl
  · rw [calm_saved (by simp) hrecord]
    simp only [Tally.lockout,Tally.wrong]
    generalize (if b.pm.badgeLockoutCount < 255 then b.pm.badgeLockoutCount+1
      else b.pm.badgeLockoutCount).toNat=n at hcount ⊢
    omega
  · exact calm_saved (by simp) hrecord
  · simp [Tally.lockout,hr]
  · simp [hr]

theorem calm_verifyBadgePinHashCounted (hashIn : ByteArr 16) :
    Triple (Calm cr) (verifyBadgePinHashCounted cr hashIn) (fun _=>Calm cr) fun _ _=>False:=by
  refine Triple.bind calm_ensureInit fun _=>Triple.bind (calm_checkAndResetExpiredLockout true) fun _=>?_
  refine Triple.bind (Q:=fun retries b=>retries=b.pm.badgeRetries ∧ Calm cr b ∧ b.pm.pinLoaded=true)
    (Triple.gets fun b hb=>⟨rfl,hb⟩) fun retries=>?_
  refine Triple.ite (fun _=>Triple.pure fun b hb=>hb.2.1) fun hretries=>?_
  refine Triple.bind (Q:=fun _=>Guessing cr) (Triple.modify fun b hb=>?_) fun _=>?_
  · exact guessing_of_calm hb.2.1 hb.2.2 (hb.1 ▸ hretries)
  refine Triple.bind (Q:=fun _=>Guessing cr) (Triple.gets fun b hb=>hb) fun hash=>?_
  refine Triple.ite (fun _=>calm_correct) fun _=>Triple.named fun b hb=>?_
  refine Triple.bind (Q:=fun _ b'=>b'={b with tally:=b.tally.wrong}) (Triple.modify ?_) fun _=>?_
  · rintro _ rfl
    rfl
  refine Triple.bind (Q:=fun r b'=>r=b.pm.badgeRetries ∧ b'={b with tally:=b.tally.wrong})
    (Triple.gets ?_) fun r=>Triple.pre ?_
  · rintro _ rfl
    exact ⟨rfl,rfl⟩
  rintro rfl
  refine Triple.bind (Q:=fun _=>Calm cr) (Triple.when (calm_wrong_lockout hb) ?_) fun _=>Triple.pure fun _ h=>h
  rintro hr _ rfl
  exact calm_wrong_pending hb hr

theorem calm_verifyBadgePin (pin : Bytes) :
    Triple (Calm cr) (verifyBadgePin cr pin) (fun _=>Calm cr) fun _ _=>False:=
  Triple.bind calm_ensureInit fun _=>Triple.conseq (calm_verifyBadgePinHashCounted _) (fun _ h=>h.1)
    (fun _ _ h=>h) fun _ _ h=>h

def PinOp.guessing : PinOp→Bool
  | .init | .verifyBadgePin _ | .verifyBadgePinHashCounted _ | .pinStorageVerifyFido2Hash _
  | .checkAndResetExpiredLockout | .wait _ | .powerCycle=>true
  | _=>false

theorem calm_run {op : PinOp} (h : op.guessing=true) :
    Triple (Calm cr) (op.run cr) (fun _=>Calm cr) fun _=>Calm cr:=by
  cases op with
  | init=>exact Triple.conseq calm_init (fun _ h=>h) (fun _ _ h=>h.1) fun _ _=>False.elim
  | verifyBadgePin pin=>
    exact Triple.conseq (calm_verifyBadgePin pin) (fun _ h=>h) (fun _ _ h=>h) fun _ _=>False.elim
  | verifyBadgePinHashCounted hashIn=>
    exact Triple.conseq (calm_verifyBadgePinHashCounted hashIn) (fun _ h=>h) (fun _ _ h=>h) fun _ _=>False.elim
  | pinStorageVerifyFido2Hash hashIn=>
    exact Triple.conseq (Triple.bind calm_init fun _=>Triple.conseq (calm_verifyBadgePinHashCounted hashIn)
      (fun _ h=>h.1) (fun _ _ h=>h) fun _ _ h=>h) (fun _ h=>h) (fun _ _ h=>h) fun _ _=>False.elim
  | checkAndResetExpiredLockout=>
    refine Triple.named fun b hb=>Triple.bind (Triple.conseq (calm_checkAndResetExpiredLockout b.pm.pinLoaded) ?_
      (fun _ _ h=>h.1) fun _ _=>False.elim) fun _=>Triple.pure fun _ h=>h
    rintro _ rfl
    exact ⟨hb,rfl⟩
  | wait ms=>
    refine Triple.bind (Q:=fun _=>Calm cr) (Triple.modify fun b hb=>?_) fun _=>Triple.pure fun _ h=>h
    obtain ⟨h,hscripts⟩:=hb
    exact ⟨⟨h.key,h.valid,h.guesses,h.forgotten,h.unloaded,h.stored,h.retries,h.blocked,h.locked⟩,hscripts⟩
  | powerCycle=>exact Triple.stop fun _ h=>h
  | _=>exact (Bool.false_ne_true h).elim

def PinInput.healthy (i : PinInput) : Bool:=i.loads == [] && i.saves == []

theorem Throttled.pending_le (h : Throttled cr b) : b.tally.pending ≤ 2:=by
  cases hpm : b.pm.pinLoaded with
  | false=>rw [h.unloaded hpm]; omega
  | true=>
    have hretries:=h.retries hpm
    by_cases hr : b.pm.badgeRetries=0
    · rw [h.blocked hpm hr]; omega
    · have : b.pm.badgeRetries.toNat≠0:=UInt8.toNat_inj.not.mpr hr
      omega

theorem throttled_reboot (h : Throttled cr b) : Throttled cr b.reboot where
  key:=h.key
  valid:=h.valid
  guesses:=by
    have hg:=h.guesses
    simp only [storedLockoutCount,Badge.reboot,Tally.reboot] at hg ⊢
    omega
  forgotten:=by
    have hf:=h.forgotten
    have hpending:=h.pending_le
    simp only [Badge.reboot,Tally.reboot]
    omega
  unloaded _:=rfl
  stored h:=by simp [Badge.reboot] at h
  retries h:=by simp [Badge.reboot] at h
  blocked h:=by simp [Badge.reboot] at h
  locked h:=by simp [Badge.reboot] at h

theorem throttled_step {i : PinInput} (hop : i.op.guessing=true) (hi : i.healthy=true)
    (hb : Throttled cr b) : Throttled cr (step cr b i):=by
  have hscripts : i.loads=[] ∧ i.saves=[]:=by simpa [PinInput.healthy] using hi
  have hgiven : Calm cr (b.given i):=
    ⟨⟨hb.key,hb.valid,hb.guesses,hb.forgotten,hb.unloaded,hb.stored,hb.retries,hb.blocked,hb.locked⟩,hscripts⟩
  have hrun:=calm_run hop _ hgiven
  unfold step respond
  revert hrun
  cases i.op.run cr (b.given i) with
  | mk r b'=>cases r with
    | ok answer=>exact fun h=>h.1
    | error e=>exact fun h=>throttled_reboot h.1

/-- A badge that has just been switched on with a valid record or an empty slot, and no guess counted. -/
structure PoweredOn (cr : Crypto) (b : Badge) : Prop where
  key : HasAttestationKey b.chip
  valid : ∀ record, b.chip.rmem rmemSlotPin=some record→ValidRecord cr b.chip record
  pm : b.pm={}
  tally : b.tally={}

theorem throttled_poweredOn (h : PoweredOn cr b) : Throttled cr b where
  key:=h.key
  valid:=h.valid
  guesses:=.inl (by simp [h.tally])
  forgotten:=by simp [h.tally]
  unloaded _:=by simp [h.tally]
  stored hpm:=by simp [h.pm] at hpm
  retries hpm:=by simp [h.pm] at hpm
  blocked hpm:=by simp [h.pm] at hpm
  locked hpm:=by simp [h.pm] at hpm

/-- The stored lockout count keeps up with a third of the wrong guesses compared since the last
correct PIN, but for those that a power cycle made the retry counter forget, at most two each time. -/
theorem storedLockoutCount_ge (cr : Crypto) {b : Badge} (hb : PoweredOn cr b) (is : List PinInput)
    (his : AlongRun (step cr) (fun _ i=>i.op.guessing=true ∧ i.healthy=true) b is) :
    min 255 (((run (step cr) b is).tally.guesses-(run (step cr) b is).tally.forgotten)/maxRetries.toNat) ≤
        storedLockoutCount (run (step cr) b is) ∧
      (run (step cr) b is).tally.forgotten ≤ 2*(run (step cr) b is).tally.reboots:=by
  have h:=run_invariant (fun _ _ hi hb=>throttled_step hi.1 hi.2 hb) (throttled_poweredOn hb) his
  generalize run (step cr) b is=b' at h
  refine ⟨?_,h.forgotten⟩
  have hguesses:=h.guesses
  have hpending:=h.pending_le
  rw [show maxRetries.toNat=3 from rfl]
  omega

def threeGuesses : List PinInput:=
  [{op:=.init},{op:=.wait 60000},{op:=.verifyBadgePinHashCounted (zeros 16)},
    {op:=.verifyBadgePinHashCounted (zeros 16)},{op:=.verifyBadgePinHashCounted (zeros 16)}]

theorem poweredOn_provisioned (r : PinRecord) : PoweredOn Crypto.plain (provisioned (some (signedRecord r))) where
  key:=⟨attestationKey,rfl,rfl⟩
  valid record h:=by
    obtain rfl:=Option.some.inj h
    exact validRecord_provisioned r
  pm:=rfl
  tally:=rfl

theorem storedLockoutCount_threeGuesses :
    min 255 (((run (step Crypto.plain) (provisioned (some (signedRecord oneByteRecord))) threeGuesses).tally.guesses -
        (run (step Crypto.plain) (provisioned (some (signedRecord oneByteRecord))) threeGuesses).tally.forgotten) /
        maxRetries.toNat) ≤
      storedLockoutCount (run (step Crypto.plain) (provisioned (some (signedRecord oneByteRecord))) threeGuesses) ∧
    (run (step Crypto.plain) (provisioned (some (signedRecord oneByteRecord))) threeGuesses).tally.forgotten ≤
      2*(run (step Crypto.plain) (provisioned (some (signedRecord oneByteRecord))) threeGuesses).tally.reboots:=
  storedLockoutCount_ge Crypto.plain (poweredOn_provisioned oneByteRecord) threeGuesses
    ⟨by decide,by decide,by decide,by decide,by decide,trivial⟩

def guessesBeforePowerCycles : List PinInput:=
  [{op:=.init},{op:=.wait 60000},{op:=.verifyBadgePinHashCounted (zeros 16)},
    {op:=.verifyBadgePinHashCounted (zeros 16)},{op:=.powerCycle},
    {op:=.init},{op:=.wait 60000},{op:=.verifyBadgePinHashCounted (zeros 16)},
    {op:=.verifyBadgePinHashCounted (zeros 16)},{op:=.powerCycle}]

/-- Four wrong guesses can leave no lockout behind. -/
theorem storedLockoutCount_powerCycles : ¬ ∀ (cr : Crypto) (b : Badge) (is : List PinInput), PoweredOn cr b →
    AlongRun (step cr) (fun _ i=>i.op.guessing=true ∧ i.healthy=true) b is →
    min 255 ((run (step cr) b is).tally.guesses/maxRetries.toNat) ≤ storedLockoutCount (run (step cr) b is):=by
  intro h
  have hrun:=h Crypto.plain (provisioned (some (signedRecord oneByteRecord))) guessesBeforePowerCycles
    (poweredOn_provisioned oneByteRecord)
    ⟨by decide,by decide,by decide,by decide,by decide,by decide,by decide,by decide,by decide,by decide,
      trivial⟩
  revert hrun
  decide +kernel

end CdcBadge.Pin
