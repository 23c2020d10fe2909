import CdcBadge.Fido2Commands
import CdcBadge.PinPowerLoss

/-!
# Two counters of PIN retries

The authenticator counts wrong PINs in a counter of its own and reports that one, while the PIN manager compares guesses as
long as the badge's counter lasts and no lockout runs.
-/

namespace CdcBadge.Pin

open Handler Runs

def lockoutOver (b : Badge) : Bool:=b.pm.lockoutActive && lockoutRemainingMs b.pm b.now == 0

def guessesLeft (b : Badge) : ℕ:=if lockoutOver b then maxRetries.toNat else b.pm.badgeRetries.toNat

def refreshed (b : Badge) : PinManager:=
  if lockoutOver b then {b.pm with lockoutActive:=false,badgeRetries:=maxRetries} else b.pm

/-- The hash of the PIN of the badge: the one in memory, or that of the record when none is loaded. -/
def currentHash (cr : Crypto) (b : Badge) : ByteArr 16:=
  if b.pm.pinLoaded then b.pm.badgeHash
  else match b.chip.rmem rmemSlotPin with
    | some record=>(parsePayload record).badgeHash
    | none=>computeBadgeHash cr defaultBadgePin

/-- What the chip makes of the calls of an operation. -/
structure Calls where
  loads : List LoadOutcome:=[]
  saves : List SaveOutcome:=[]
  salts : List (ByteArr 8):=[]

/-- A hash from the platform, with the calls that checking it takes. -/
structure Guess extends Calls where
  hash : ByteArr 16

def Calls.input (c : Calls) (op : PinOp) : PinInput:=⟨op,c.loads,c.saves,c.salts⟩

def Guess.input (g : Guess) : PinInput:=g.toCalls.input (.pinStorageVerifyFido2Hash g.hash)

def guess (cr : Crypto) (b : Badge) (g : Guess) : Badge:=step cr b g.input

/-- So many wrong guesses in a row are all compared. -/
def Compares (cr : Crypto) (b : Badge) (n : ℕ) : Prop:=
  ∀ gs : List Guess, gs.length=n→(∀ g∈gs, g.hash≠currentHash cr b) →
    (run (guess cr) b gs).tally.guesses=b.tally.guesses+n

section Guessing

variable {cr : Crypto} {b : Badge}

theorem checkAndResetExpiredLockout_eq (b : Badge) : checkAndResetExpiredLockout b=(.ok (),{b with pm:=refreshed b}):=by
  unfold checkAndResetExpiredLockout refreshed lockoutOver pmGets
  rw [bind_gets,bind_gets]
  cases hactive : b.pm.lockoutActive with
  | false=>simp [hactive]
  | true=>
    by_cases hremaining : lockoutRemainingMs b.pm b.now > 0
    · have hne : lockoutRemainingMs b.pm b.now≠0:=fun h=>by simp [h] at hremaining
      simp [hactive,hremaining,hne]
    · have hzero : lockoutRemainingMs b.pm b.now=0:=by
        have h:=UInt32.lt_iff_toNat_lt.not.mp hremaining
        exact UInt32.toNat_inj.mp (by simpa using h)
      simp [hactive,hzero,updatePm]

theorem refreshed_badgeRetries (b : Badge) : (refreshed b).badgeRetries.toNat=guessesLeft b:=by
  unfold refreshed guessesLeft
  split <;> rfl

theorem lockoutRemainingMs_started {pm : PinManager} {now : ℕ} (hactive : pm.lockoutActive=true)
    (hstart : pm.lockoutStartMs=UInt32.ofNat now) : lockoutRemainingMs pm now≠0:=by
  have hduration : ∀ count : UInt8, lockoutDurationMs count≠0:=by
    intro count
    apply forall_byte (P:=fun count=>lockoutDurationMs count≠0)
    decide +kernel
  unfold lockoutRemainingMs
  rw [hactive,hstart,if_neg (by simp)]
  dsimp only
  rw [UInt32.sub_self]
  have hpos : ¬(0 : UInt32) ≥ lockoutDurationMs pm.badgeLockoutCount:=by
    intro h
    apply hduration pm.badgeLockoutCount
    exact UInt32.toNat_inj.mp (by simpa using UInt32.le_iff_toNat_le.mp h)
  rw [if_neg hpos,UInt32.sub_zero]
  exact hduration _

def aside (b : Badge) : Bool × ByteArr 16 × UInt8 × Tally × ℕ:=
  (b.pm.pinLoaded,b.pm.badgeHash,b.pm.badgeRetries,b.tally,b.now)

theorem fixes_saveToStorage : Fixes aside (saveToStorage cr):=
  fun _=>BesideSaves.saveToStorage ⟨fun _ _ h=>h,fun _ h=>h,fun _ _ h=>h,fun _ _ _ _ h=>h⟩ cr

theorem verify_locked (hloaded : b.pm.pinLoaded=true) (hleft : guessesLeft b=0) (hash : ByteArr 16) :
    verifyBadgePinHashCounted cr hash b=(.ok false,b):=by
  have hover : lockoutOver b=false:=by
    cases hover : lockoutOver b with
    | false=>rfl
    | true=>simp [guessesLeft,hover,maxRetries] at hleft
  have hretries : b.pm.badgeRetries=0:=by
    unfold guessesLeft at hleft
    rw [hover,if_neg Bool.false_ne_true] at hleft
    exact UInt8.toNat_inj.mp hleft
  have hsame : ({b with pm:=refreshed b} : Badge)=b:=by
    unfold refreshed
    rw [hover,if_neg Bool.false_ne_true]
  unfold verifyBadgePinHashCounted
  rw [bind_of_ok (ensureInit_loaded hloaded),bind_of_ok (checkAndResetExpiredLockout_eq b),hsame,pmGets,bind_gets,if_pos hretries]
  rfl

def compareGuess (cr : Crypto) (hashIn : ByteArr 16) : PinM Bool:=do
  updatePm fun pm=>{pm with badgeRetries:=pm.badgeRetries-1}
  if compareHash (← pmGets (·.badgeHash)) hashIn then
    updateTally fun _=>{}
    updatePm fun pm=>{pm with badgeRetries:=maxRetries,lockoutActive:=false,badgeLockoutCount:=0}
    when ((← pmGets (·.persistedBadgeLockoutCount))≠0) (saveToStorage cr)
    pure true
  else
    updateTally Tally.wrong
    when ((← pmGets (·.badgeRetries))=0) do
      updatePm fun pm=>{ pm with
        badgeLockoutCount:=if pm.badgeLockoutCount < 255 then pm.badgeLockoutCount+1
          else pm.badgeLockoutCount }
      updateTally Tally.lockout
      let _ ← saveToStorage cr
      startLockout
    pure false

theorem verify_open (hloaded : b.pm.pinLoaded=true) (hleft : guessesLeft b≠0) (hash : ByteArr 16) :
    verifyBadgePinHashCounted cr hash b=compareGuess cr hash {b with pm:=refreshed b}:=by
  have hretries : (refreshed b).badgeRetries≠0:=fun h=>hleft (by rw [← refreshed_badgeRetries,h]; rfl)
  unfold verifyBadgePinHashCounted
  rw [bind_of_ok (ensureInit_loaded hloaded),bind_of_ok (checkAndResetExpiredLockout_eq b),pmGets,bind_gets,if_neg hretries]
  rfl

theorem compareGuess_right (hash : ByteArr 16) :
    Triple (fun b=>b.pm.badgeHash=hash) (compareGuess cr hash) (fun answer _=>answer=true) fun _ _=>True:=by
  refine Triple.bind (Q:=fun _ b=>b.pm.badgeHash=hash) (Triple.modify fun _ hb=>hb) fun _=>?_
  refine Triple.bind (Q:=fun held b=>held=hash) (Triple.gets fun _ hb=>hb) fun held=>?_
  refine Triple.ite (fun _=>?_) fun hother b hheld=>absurd ((compareHash_iff _ _).mpr hheld) hother
  refine Triple.bind (Q:=fun _ _=>True) (Triple.modify fun _ _=>trivial) fun _=>?_
  refine Triple.bind (Q:=fun _ _=>True) (Triple.modify fun _ _=>trivial) fun _=>?_
  refine Triple.bind (Q:=fun _ _=>True) (Triple.gets fun _ _=>trivial) fun _=>?_
  refine Triple.bind (Q:=fun _ _=>True) (Triple.when (fun _=>Triple.of_ok fun _ _ _ _ _=>trivial) fun _ _ _=>trivial)
    fun _=>?_
  exact Triple.pure fun _ _=>rfl

variable (cr) in
/-- A wrong hash is compared and costs a guess. Power is lost with the last one at most. -/
theorem compareGuess_wrong (hash : ByteArr 16) {k : ℕ} (hother : b.pm.badgeHash≠hash) (hretries : b.pm.badgeRetries.toNat=k+1)
    (hover : lockoutOver b=false) :
    Triple (fun t=>t=b) (compareGuess cr hash)
      (fun answer t=>answer=false ∧ t.tally.guesses=b.tally.guesses+1 ∧ t.pm.pinLoaded=b.pm.pinLoaded ∧
        t.pm.badgeHash=b.pm.badgeHash ∧ guessesLeft t=k)
      fun _ t=>t.tally.guesses=b.tally.guesses+1 ∧ k=0 ∧ b.saves≠[]:=by
  have hless : (b.pm.badgeRetries-1).toNat=k:=by
    rw [UInt8.toNat_sub_of_le]
    · rw [hretries,UInt8.toNat_one]
      rfl
    · rw [UInt8.le_iff_toNat_le,UInt8.toNat_one,hretries]
      exact Nat.le_add_left 1 k
  refine Triple.bind (Q:=fun _ t=>t={b with pm:={b.pm with badgeRetries:=b.pm.badgeRetries-1}})
    (Triple.modify fun t ht=>by rw [ht]) fun _=>?_
  refine Triple.bind (Q:=fun held t=>held=b.pm.badgeHash ∧ t={b with pm:={b.pm with badgeRetries:=b.pm.badgeRetries-1}})
    (Triple.gets fun t ht=>⟨by rw [ht],ht⟩) fun held=>Triple.pre ?_
  rintro rfl
  refine Triple.ite (fun hmatch=>absurd ((compareHash_iff _ _).mp hmatch) hother) fun _=>?_
  refine Triple.bind (Q:=fun _ t=>t =
    {b with pm:={b.pm with badgeRetries:=b.pm.badgeRetries-1},tally:=b.tally.wrong})
    (Triple.modify fun t ht=>by rw [ht]) fun _=>?_
  refine Triple.bind (Q:=fun retries t=>retries=b.pm.badgeRetries-1 ∧ t =
    {b with pm:={b.pm with badgeRetries:=b.pm.badgeRetries-1},tally:=b.tally.wrong})
    (Triple.gets fun t ht=>⟨by rw [ht],ht⟩) fun retries=>Triple.pre ?_
  rintro rfl
  refine Triple.bind (Q:=fun _ t=>t.tally.guesses=b.tally.guesses+1 ∧ t.pm.pinLoaded=b.pm.pinLoaded ∧
    t.pm.badgeHash=b.pm.badgeHash ∧ guessesLeft t=k) (Triple.when (fun hzero=>?_) fun hmore=>?_) fun _=>
    Triple.pure fun t ht=>⟨rfl,ht⟩
  · -- The last guess: the lockout is saved, whatever becomes of the save, and begins.
    have hk : k=0:=by
      rw [← hless,hzero]
      rfl
    refine Triple.bind (Q:=fun _ t=>t.tally=b.tally.wrong ∧ t.pm.pinLoaded=b.pm.pinLoaded ∧ t.pm.badgeHash=b.pm.badgeHash ∧
      t.pm.badgeRetries=0 ∧ t.saves=b.saves) (Triple.modify fun t ht=>by rw [ht]; exact ⟨rfl,rfl,rfl,hzero,rfl⟩) fun _=>?_
    refine Triple.bind (Q:=fun _ t=>aside t=(b.pm.pinLoaded,b.pm.badgeHash,0,b.tally.wrong.lockout,t.now) ∧ t.saves=b.saves)
      (Triple.modify ?_) fun _=>?_
    · rintro t ⟨htally,hloaded,hhash,hretries,hsaves⟩
      exact ⟨by simp only [aside,htally,hloaded,hhash,hretries],hsaves⟩
    refine Triple.named fun t ht=>?_
    have hlost : Triple (fun u=>u=t) (saveToStorage cr) (fun _ _=>True) fun _ _=>b.saves≠[]:=by
      by_cases hsaves : b.saves=[]
      · have hdone : Triple (fun u=>u.saves=[] ∧ u.pm.toPinRecord=t.pm.toPinRecord) (saveToStorage cr)
            (fun _ u=>u.pm.toPinRecord=t.pm.toPinRecord) fun _ _=>False:=saveToStorage_done cr
        refine Triple.conseq hdone ?_ (fun _ _ _=>trivial) fun _ _=>False.elim
        rintro _ rfl
        exact ⟨ht.2.trans hsaves,rfl⟩
      · exact Triple.conseq (Triple.of_ok fun _ _ _ _ _=>trivial) (fun _ h=>h) (fun _ _ h=>h) fun _ _ _=>hsaves
    have hsave : Triple (fun u=>u=t) (saveToStorage cr)
        (fun _ u=>aside u=(b.pm.pinLoaded,b.pm.badgeHash,0,b.tally.wrong.lockout,t.now))
        fun _ u=>aside u=(b.pm.pinLoaded,b.pm.badgeHash,0,b.tally.wrong.lockout,t.now):=by
      refine Triple.conseq (fixes_saveToStorage (aside t)) ?_ (fun _ _ h=>h.trans ht.1) fun _ _ h=>h.trans ht.1
      rintro _ rfl
      rfl
    refine Triple.bind (Triple.conseq (hsave.and hlost) (fun _ h=>⟨h,h⟩) (fun _ _ h=>h.1) ?_) fun _=>Triple.modify ?_
    · rintro _ u ⟨hu,hsaves⟩
      have htally : u.tally=b.tally.wrong.lockout:=congrArg (fun a=>a.2.2.2.1) hu
      rw [htally]
      exact ⟨rfl,hk,hsaves⟩
    · intro u hu
      have htally : u.tally=b.tally.wrong.lockout:=congrArg (fun a=>a.2.2.2.1) hu
      have hretries : u.pm.badgeRetries=0:=congrArg (fun a=>a.2.2.1) hu
      refine ⟨by rw [htally]; rfl,congrArg Prod.fst hu,congrArg (fun a=>a.2.1) hu,?_⟩
      unfold guessesLeft lockoutOver
      dsimp only
      rw [if_neg (by simpa using lockoutRemainingMs_started rfl rfl),hretries,hk]
      rfl
  · rintro t rfl
    refine ⟨rfl,rfl,rfl,?_⟩
    have hrunning : lockoutOver {b with pm:={b.pm with badgeRetries:=b.pm.badgeRetries-1},tally:=b.tally.wrong}=false:=hover
    unfold guessesLeft
    rw [hrunning,if_neg Bool.false_ne_true]
    exact hless

theorem verifies_loaded (hloaded : b.pm.pinLoaded=true) (hash : ByteArr 16) :
    pinStorageVerifyFido2Hash cr hash b=verifyBadgePinHashCounted cr hash b:=by
  have hinit : init cr b=(.ok true,b):=by simp [init,pmGets,bind_gets,hloaded]
  unfold pinStorageVerifyFido2Hash
  rw [bind_of_ok hinit]

theorem guess_eq (g : Guess) :
    guess cr b g=match pinStorageVerifyFido2Hash cr g.hash (b.given g.input) with
      | (.ok _,t)=>t
      | (.error _,t)=>t.reboot:=by
  unfold guess step respond Guess.input Calls.input PinOp.run
  dsimp only
  cases pinStorageVerifyFido2Hash cr g.hash (b.given ⟨.pinStorageVerifyFido2Hash g.hash,g.loads,g.saves,g.salts⟩) with
  | mk r t=>cases r <;> rfl

variable (cr) in
/-- A wrong guess is compared while one is left, and after that one less is left if power stays on. -/
theorem guess_wrong {g : Guess} {k : ℕ} (hloaded : b.pm.pinLoaded=true) (hother : g.hash≠b.pm.badgeHash)
    (hleft : guessesLeft b=k+1) : (guess cr b g).tally.guesses=b.tally.guesses+1 ∧
      (k=0 ∧ g.saves≠[] ∨ (guess cr b g).pm.pinLoaded=true ∧ (guess cr b g).pm.badgeHash=b.pm.badgeHash ∧
        guessesLeft (guess cr b g)=k):=by
  have hrefreshed : ∀ t : Badge, (refreshed t).pinLoaded=t.pm.pinLoaded ∧ (refreshed t).badgeHash=t.pm.badgeHash ∧
      lockoutOver {t with pm:=refreshed t}=false:=by
    intro t
    unfold refreshed
    cases hover : lockoutOver t with
    | true=>exact ⟨rfl,rfl,rfl⟩
    | false=>exact ⟨rfl,rfl,hover⟩
  obtain ⟨hload,hhash,hover⟩:=hrefreshed (b.given g.input)
  have hcompared:=compareGuess_wrong cr g.hash (b:={b.given g.input with pm:=refreshed (b.given g.input)}) (k:=k)
    (by rw [hhash]; exact hother.symm) ((refreshed_badgeRetries _).trans hleft) hover _ rfl
  have hopen : guessesLeft (b.given g.input)≠0:=by
    rw [show guessesLeft (b.given g.input)=k+1 from hleft]
    exact Nat.succ_ne_zero k
  have hgiven : (b.given g.input).pm.pinLoaded=true:=hloaded
  have hverify : pinStorageVerifyFido2Hash cr g.hash (b.given g.input) =
      compareGuess cr g.hash {b.given g.input with pm:=refreshed (b.given g.input)}:=
    (verifies_loaded hgiven g.hash).trans (verify_open hgiven hopen g.hash)
  rw [guess_eq,hverify]
  revert hcompared
  cases compareGuess cr g.hash {b.given g.input with pm:=refreshed (b.given g.input)} with
  | mk r t=>cases r with
    | ok answer=>
      rintro ⟨-,htally,hloaded',hhash',hleft'⟩
      exact ⟨htally,.inr ⟨hloaded'.trans (hload.trans hloaded),hhash'.trans hhash,hleft'⟩⟩
    | error lost=>
      rintro ⟨htally,hk,hsaves⟩
      exact ⟨htally,.inl ⟨hk,hsaves⟩⟩

variable (cr) in
theorem guess_locked {g : Guess} (hloaded : b.pm.pinLoaded=true) (hleft : guessesLeft b=0) : guess cr b g=b.given g.input:=by
  have hgiven : (b.given g.input).pm.pinLoaded=true:=hloaded
  have hverify : pinStorageVerifyFido2Hash cr g.hash (b.given g.input)=(.ok false,b.given g.input):=
    (verifies_loaded hgiven g.hash).trans (verify_locked hgiven hleft g.hash)
  rw [guess_eq,hverify]

variable (cr) in
theorem guess_lost {g : Guess} (hloaded : b.pm.pinLoaded=false) (hlost : g.loads=[{read:=.powerLost false}]) :
    (guess cr b g).tally.guesses=b.tally.guesses ∧ (guess cr b g).pm.pinLoaded=false:=by
  have hinit : ∃ t, init cr (b.given g.input)=(.error ⟨⟩,t) ∧ t.tally=b.tally:=by
    refine ⟨{b.given g.input with pm:={b.pm with storageUnreadable:=false},loads:=laterLoads g.loads},?_,rfl⟩
    simp [init,pmGets,Badge.given,hloaded,loadFromStorage,nextLoad,Guess.input,Calls.input,hlost,bind_apply,seCall,
      Chip.perform,updatePm,laterLoads]
  obtain ⟨t,hinit,htally⟩:=hinit
  have hverify : pinStorageVerifyFido2Hash cr g.hash (b.given g.input)=(.error ⟨⟩,t):=by
    unfold pinStorageVerifyFido2Hash
    rw [bind_of_error hinit]
  rw [guess_eq,hverify]
  refine ⟨?_,rfl⟩
  show t.tally.guesses=b.tally.guesses
  rw [htally]

def otherHash (hash : ByteArr 16) : ByteArr 16:=if hash=zeros 16 then fit 16 [1] else zeros 16

theorem otherHash_ne (hash : ByteArr 16) : otherHash hash≠hash:=by
  unfold otherHash
  split
  · rename_i hzero
    rw [hzero]
    decide
  · rename_i hother
    exact fun h=>hother h.symm

variable (cr) in
theorem compared_le (n : ℕ) {g : Guess} (hloaded : b.pm.pinLoaded=true) (hother : g.hash≠b.pm.badgeHash) (hsaves : g.saves=[]) :
    (run (guess cr) b (List.replicate n g)).tally.guesses ≤ b.tally.guesses+guessesLeft b:=by
  induction n generalizing b with
  | zero=>exact Nat.le_add_right _ _
  | succ n ih=>
    rw [List.replicate_succ,run_cons]
    cases hleft : guessesLeft b with
    | zero=>
      have hlocked:=guess_locked cr (g:=g) hloaded hleft
      have hrest:=ih (b:=guess cr b g) (by rw [hlocked]; exact hloaded) (by rw [hlocked]; exact hother)
      rw [hlocked] at hrest ⊢
      have hnone : guessesLeft (b.given g.input)=0:=hleft
      rw [hnone] at hrest
      exact hrest
    | succ k=>
      obtain ⟨htally,hpower⟩:=guess_wrong cr hloaded hother hleft
      obtain ⟨hloaded',hhash,hleft'⟩:=hpower.resolve_left fun h=>h.2 hsaves
      have hrest:=ih hloaded' (by rw [hhash]; exact hother)
      omega

theorem compares_iff {n : ℕ} : Compares cr b n ↔ n=0 ∨ b.pm.pinLoaded=true ∧ n ≤ guessesLeft b:=by
  constructor
  · intro hall
    by_contra hnot
    rw [not_or,not_and,not_le] at hnot
    obtain ⟨hn,hleft⟩:=hnot
    cases hloaded : b.pm.pinLoaded with
    | false=>
      have hlost : ∀ (k : ℕ) (t : Badge), t.pm.pinLoaded=false→(run (guess cr) t (List.replicate k
          {loads:=[{read:=.powerLost false}],hash:=otherHash (currentHash cr b)})).tally.guesses=t.tally.guesses:=by
        intro k
        induction k with
        | zero=>exact fun t _=>rfl
        | succ k ih=>
          intro t ht
          obtain ⟨htally,hstill⟩:=guess_lost cr (g:={loads:=[{read:=.powerLost false}],hash:=otherHash (currentHash cr b)}) ht rfl
          rw [List.replicate_succ,run_cons,ih _ hstill,htally]
      have hcount:=hall (List.replicate n {loads:=[{read:=.powerLost false}],hash:=otherHash (currentHash cr b)})
        List.length_replicate fun g hg=>by
          rw [List.eq_of_mem_replicate hg]
          exact otherHash_ne _
      rw [hlost n b hloaded] at hcount
      omega
    | true=>
      have hcurrent : currentHash cr b=b.pm.badgeHash:=by
        unfold currentHash
        rw [hloaded,if_pos rfl]
      have hcount:=hall (List.replicate n {hash:=otherHash b.pm.badgeHash}) List.length_replicate fun g hg=>by
        rw [List.eq_of_mem_replicate hg,hcurrent]
        exact otherHash_ne _
      have hle:=compared_le cr n (g:={hash:=otherHash b.pm.badgeHash}) hloaded (otherHash_ne _) rfl
      have hless:=hleft hloaded
      omega
  · rintro (rfl | ⟨hloaded,hleft⟩)
    · intro gs hgs _
      rw [List.eq_nil_of_length_eq_zero hgs]
      rfl
    · intro gs hgs hother
      have hcurrent : currentHash cr b=b.pm.badgeHash:=by
        unfold currentHash
        rw [hloaded,if_pos rfl]
      rw [hcurrent] at hother
      rw [← hgs] at hleft ⊢
      clear hgs hcurrent
      induction gs generalizing b with
      | nil=>rfl
      | cons g gs ih=>
        obtain ⟨k,hk⟩ : ∃ k, guessesLeft b=k+1:=⟨guessesLeft b-1,by rw [List.length_cons] at hleft; omega⟩
        obtain ⟨htally,hpower⟩:=guess_wrong cr hloaded (hother g List.mem_cons_self) hk
        rw [run_cons,List.length_cons]
        rw [hk,List.length_cons] at hleft
        rcases hpower with ⟨hlast,-⟩ | ⟨hloaded',hhash,hleft'⟩
        · have hnil : gs=[]:=List.eq_nil_of_length_eq_zero (by omega)
          rw [hnil,run_nil,htally]
          rfl
        · rw [ih hloaded' (by rw [hleft']; omega) fun g' hg'=>by rw [hhash]; exact hother g' (List.mem_cons_of_mem _ hg'),htally]
          omega

end Guessing

end CdcBadge.Pin

namespace CdcBadge.Fido2

open Handler Cbor

section Requests

variable (cr : FidoCrypto)

def readSubCommand (params : Bytes) : Ctap ℕ:=do
  initReader params
  let count ← orFail .invalidCbor (← cbor readMap)
  require (0 ≤ count) .invalidCbor
  let (protocol,subCommand) ← orFail .invalidCbor
    (← cbor (iterateWhile count.toNat parseClientPinPair (0,0)))
  require (protocol == 0 || protocol == 2) .invalidParameter
  pure subCommand

def clientPinSubCommand (params : Bytes) : Ctap ℕ:=do
  when (!(← gets (·.clientPin.initialized))) (updateClientPin fun pin=>{ pin with
    pinRetries:=pinRetriesMax,uvRetries:=pinUvRetriesMax,initialized:=true })
  readSubCommand params

def pinTokenHash (params : Bytes) : Ctap (PinTokenParams × ByteArr 32 × ByteArr 16):=do
  requirePinUsable
  initReader params
  let count ← orFail .invalidCbor (← cbor readMap)
  require (0 ≤ count) .invalidCbor
  let p ← orFail .invalidCbor (← cbor (iterateWhile count.toNat parsePinTokenPair {}))
  require (p.hasKey && p.hasPin) .missingParameter
  let sharedSecret ← orFail .other (clientPinComputeSharedSecret cr (← gets (·.clientPin.ecdhKey))
    (fit 32 p.platformKeyX) (fit 32 p.platformKeyY) p.pinProtocol)
  let hash ← orFail .other (decryptPinHash cr sharedSecret p)
  pure (p,sharedSecret,hash)

def pinUvAuthTokenHash (params : Bytes) : Ctap (PinTokenParams × ByteArr 32 × ByteArr 16):=do
  requirePinUsable
  initReader params
  let count ← orFail .invalidCbor (← cbor readMap)
  require (0 ≤ count) .invalidCbor
  let pairs ← orFail .invalidCbor (← cbor (parsePinUvAuthTokenPairs count.toNat {}))
  let p ← orFail .invalidParameter pairs
  require (p.hasKey && p.hasPin) .missingParameter
  require p.hasPermissions .missingParameter
  let sharedSecret ← orFail .other (clientPinComputeSharedSecret cr (← gets (·.clientPin.ecdhKey))
    (fit 32 p.platformKeyX) (fit 32 p.platformKeyY) p.pinProtocol)
  let hash ← orFail .other (decryptPinHash cr sharedSecret p)
  pure (p,sharedSecret,hash)

def presentedHash (params : Bytes) : Ctap (ByteArr 16):=do
  match ← clientPinSubCommand params with
  | 0x05=>do
    let (_,_,hash) ← pinTokenHash cr params
    pure hash
  | 0x09=>do
    let (_,_,hash) ← pinUvAuthTokenHash cr params
    pure hash
  | _=>fail .invalidCommand

def issuePinToken (p : PinTokenParams) (sharedSecret : ByteArr 32) : Ctap Bytes:=do
  newPinToken
  let encryptedToken ← encryptToken cr sharedSecret (← gets (·.clientPin.pinToken)) p.pinProtocol
  let response ← tokenResponse encryptedToken
  updateClientPin fun pin=>{ pin with
    tokenPermissions:=0xFF,tokenRpIdSet:=false,grant:={permissions:=0xFF,rpId:=none} }
  pure response

def issuePinUvAuthToken (p : PinTokenParams) (sharedSecret : ByteArr 32) : Ctap Bytes:=do
  newPinToken
  grantToken cr p
  let encryptedToken ← encryptToken cr sharedSecret (← gets (·.clientPin.pinToken)) p.pinProtocol
  tokenResponse encryptedToken

variable {cr} {params : Bytes} {w : Badge} {α : Type}

theorem clientPin_eq : clientPin cr params=clientPinSubCommand params >>= fun
    | 0x01=>clientPinGetRetries
    | 0x02=>clientPinGetKeyAgreement cr
    | 0x03=>fail .unsupportedOption
    | 0x04=>fail .unsupportedOption
    | 0x05=>clientPinGetPinToken cr params
    | 0x09=>clientPinGetPinUvAuthToken cr params
    | _=>fail .invalidCommand:=by
  unfold clientPin clientPinSubCommand readSubCommand
  simp only [bind_assoc,bind_pure_left]
  all_goals rfl

theorem clientPinGetPinToken_eq : clientPinGetPinToken cr params =
    pinTokenHash cr params >>= fun x=>verifyPinHash x.2.2 >>= fun _=>issuePinToken cr x.1 x.2.1:=by
  unfold clientPinGetPinToken pinTokenHash issuePinToken
  simp only [bind_assoc,bind_pure_left]

theorem clientPinGetPinUvAuthToken_eq : clientPinGetPinUvAuthToken cr params =
    pinUvAuthTokenHash cr params >>= fun x=>verifyPinHash x.2.2 >>= fun _=>issuePinUvAuthToken cr x.1 x.2.1:=by
  unfold clientPinGetPinUvAuthToken pinUvAuthTokenHash issuePinUvAuthToken
  simp only [bind_assoc,bind_pure_left]

def Answers {α : Type} (m : Ctap α) : Prop:=Triple (fun _=>True) m (fun _ _=>True) fun _ _=>False

theorem Answers.bind {α β : Type} {m : Ctap α} {k : α → Ctap β} (hm : Answers m) (hk : ∀ a, Answers (k a)) : Answers (m >>= k):=
  Triple.bind hm hk

theorem Answers.pure (a : α) : Answers (pure a):=fun _ _=>trivial

theorem Answers.gets (f : Badge → α) : Answers (gets f):=fun _ _=>trivial

theorem Answers.modify (f : Badge→Badge) : Answers (modify f):=fun _ _=>trivial

theorem answers_secureRandomFill (n : ℕ) : Answers (secureRandomFill n):=
  .bind (.gets _) fun _=>.bind (.modify _) fun _=>.pure _

theorem answers_newPinToken : Answers newPinToken:=.bind (answers_secureRandomFill 32) fun _=>.modify _

theorem answers_encryptToken (sharedSecret token : ByteArr 32) (protocol : UInt8) :
    Answers (encryptToken cr sharedSecret token protocol):=
  Triple.ite (fun _=>Answers.bind (answers_secureRandomFill 16) fun _=>.pure _) fun _=>Answers.pure _

theorem answers_tokenResponse (encryptedToken : Bytes) : Answers (tokenResponse encryptedToken):=
  .bind (.gets _) fun _=>.pure _

theorem answers_issuePinToken (p : PinTokenParams) (sharedSecret : ByteArr 32) : Answers (issuePinToken cr p sharedSecret):=
  .bind answers_newPinToken fun _=>.bind (.gets _) fun _=>.bind (answers_encryptToken _ _ _) fun _=>
    .bind (answers_tokenResponse _) fun _=>.bind (.modify _) fun _=>.pure _

theorem answers_issuePinUvAuthToken (p : PinTokenParams) (sharedSecret : ByteArr 32) :
    Answers (issuePinUvAuthToken cr p sharedSecret):=
  .bind answers_newPinToken fun _=>.bind (.modify _) fun _=>.bind (.gets _) fun _=>
    .bind (answers_encryptToken _ _ _) fun _=>answers_tokenResponse _

theorem accepted {front : Ctap α} (hash : α→ByteArr 16) {issue : α → Ctap Bytes} {x : α} {t : Badge}
    (hfront : front w=(.ok x,t)) (hmatches : t.env.pinHashMatches=true) (hissue : Answers (issue x)) :
    ∃ response, ((front >>= fun x=>verifyPinHash (hash x) >>= fun _=>issue x) w).1=.ok response:=by
  have hverify : verifyPinHash (hash x) t=updateClientPin (fun pin=>{pin with pinRetries:=pinRetriesMax}) t:=by
    unfold verifyPinHash env
    rw [bind_gets,if_pos hmatches]
  rw [bind_of_ok hfront,bind_apply,hverify]
  unfold updateClientPin
  rw [modify_apply]
  have hissue:=hissue {t with clientPin:={t.clientPin with pinRetries:=pinRetriesMax}} trivial
  show ∃ response, (issue x {t with clientPin:={t.clientPin with pinRetries:=pinRetriesMax}}).1=.ok response
  revert hissue
  cases issue x {t with clientPin:={t.clientPin with pinRetries:=pinRetriesMax}} with
  | mk r u=>cases r with
    | ok response=>exact fun _=>⟨response,rfl⟩
    | error halt=>exact False.elim

/-- A part of the state that the reader is no part of. -/
def Apart {V : Type} (v : Badge→V) : Prop:=∀ w r, v (w.given {w.env with reader:=r})=v w

section Apart

variable {V : Type} {v : Badge→V}

theorem fixes_require (b : Bool) (status : Status) : Fixes v (require b status):=Fixes.check _ _

theorem fixes_orFail (status : Status) (o : Option α) : Fixes v (orFail status o):=by
  cases o with
  | none=>exact Fixes.stop _
  | some a=>exact Fixes.pure a

theorem fixes_cbor (hv : Apart v) (m : Read α) : Fixes v (cbor m):=by
  intro x w hw
  unfold cbor
  cases m w.env.reader with
  | mk r t=>cases r <;> exact (hv w t).trans hw

theorem fixes_initReader (hv : Apart v) (params : Bytes) : Fixes v (initReader params):=Fixes.modify fun w=>hv w _

theorem fixes_requirePinUsable : Fixes v requirePinUsable:=
  Fixes.bind (Fixes.gets _) fun _=>Fixes.bind (fixes_require _ _) fun _=>Fixes.bind (Fixes.gets _) fun _=>fixes_require _ _

theorem fixes_readSubCommand (hv : Apart v) (params : Bytes) : Fixes v (readSubCommand params):=by
  refine Fixes.bind (fixes_initReader hv _) fun _=>Fixes.bind (fixes_cbor hv _) fun _=>Fixes.bind (fixes_orFail _ _) fun _=>?_
  refine Fixes.bind (fixes_require _ _) fun _=>Fixes.bind (fixes_cbor hv _) fun _=>Fixes.bind (fixes_orFail _ _) fun _=>?_
  exact Fixes.bind (fixes_require _ _) fun _=>Fixes.pure _

theorem fixes_pinTokenHash (hv : Apart v) (params : Bytes) : Fixes v (pinTokenHash cr params):=by
  refine Fixes.bind fixes_requirePinUsable fun _=>Fixes.bind (fixes_initReader hv _) fun _=>Fixes.bind (fixes_cbor hv _) fun _=>?_
  refine Fixes.bind (fixes_orFail _ _) fun _=>Fixes.bind (fixes_require _ _) fun _=>Fixes.bind (fixes_cbor hv _) fun _=>?_
  refine Fixes.bind (fixes_orFail _ _) fun _=>Fixes.bind (fixes_require _ _) fun _=>Fixes.bind (Fixes.gets _) fun _=>?_
  exact Fixes.bind (fixes_orFail _ _) fun _=>Fixes.bind (fixes_orFail _ _) fun _=>Fixes.pure _

theorem fixes_pinUvAuthTokenHash (hv : Apart v) (params : Bytes) : Fixes v (pinUvAuthTokenHash cr params):=by
  refine Fixes.bind fixes_requirePinUsable fun _=>Fixes.bind (fixes_initReader hv _) fun _=>Fixes.bind (fixes_cbor hv _) fun _=>?_
  refine Fixes.bind (fixes_orFail _ _) fun _=>Fixes.bind (fixes_require _ _) fun _=>Fixes.bind (fixes_cbor hv _) fun _=>?_
  refine Fixes.bind (fixes_orFail _ _) fun _=>Fixes.bind (fixes_orFail _ _) fun _=>Fixes.bind (fixes_require _ _) fun _=>?_
  refine Fixes.bind (fixes_require _ _) fun _=>Fixes.bind (Fixes.gets _) fun _=>?_
  exact Fixes.bind (fixes_orFail _ _) fun _=>Fixes.bind (fixes_orFail _ _) fun _=>Fixes.pure _

end Apart

def retries (w : Badge) : UInt8:=if w.clientPin.initialized then w.clientPin.pinRetries else pinRetriesMax

def uvRetries (w : Badge) : UInt8:=if w.clientPin.initialized then w.clientPin.uvRetries else pinUvRetriesMax

/-- A request sets the counters up and changes nothing else until its sub-command is known. -/
theorem clientPinSubCommand_ok {subCommand : ℕ} {t : Badge} (h : clientPinSubCommand params w=(.ok subCommand,t)) :
    t.clientPin.initialized=true ∧ t.clientPin.pinRetries=retries w ∧ t.clientPin.uvRetries=uvRetries w ∧
      t.env.responseSize=w.env.responseSize ∧ t.env.pinHashMatches=w.env.pinHashMatches:=by
  have hread : ∀ u : Badge, readSubCommand params u=(.ok subCommand,t)→t.clientPin=u.clientPin ∧
      t.env.responseSize=u.env.responseSize ∧ t.env.pinHashMatches=u.env.pinHashMatches:=by
    intro u hu
    have hfixed:=(fixes_readSubCommand (v:=fun w : Badge=>(w.clientPin,w.env.responseSize,w.env.pinHashMatches))
      (fun _ _=>rfl) params).apply u
    rw [hu] at hfixed
    exact ⟨congrArg Prod.fst hfixed,congrArg (fun a=>a.2.1) hfixed,congrArg (fun a=>a.2.2) hfixed⟩
  unfold clientPinSubCommand at h
  rw [bind_gets] at h
  unfold retries uvRetries
  cases hinitialized : w.clientPin.initialized with
  | true=>
    rw [hinitialized] at h
    obtain ⟨hpin,hsize,hmatches⟩:=hread w h
    rw [hpin]
    exact ⟨hinitialized,rfl,rfl,hsize,hmatches⟩
  | false=>
    rw [hinitialized] at h
    obtain ⟨hpin,hsize,hmatches⟩:=hread _ h
    rw [hpin]
    exact ⟨rfl,rfl,rfl,hsize,hmatches⟩

/-- A request that carries a hash gets a token if the PIN manager says that the hash is right. -/
theorem clientPin_accepted {hash : ByteArr 16} (hpresented : (presentedHash cr params w).1=.ok hash)
    (hmatches : w.env.pinHashMatches=true) : ∃ response, (clientPin cr params w).1=.ok response:=by
  obtain ⟨t,hpresented⟩ : ∃ t, presentedHash cr params w=(.ok hash,t):=⟨_,Prod.ext hpresented rfl⟩
  unfold presentedHash at hpresented
  obtain ⟨subCommand,u,hsub,hrest⟩:=bind_ok.mp hpresented
  have hmatches' : u.env.pinHashMatches=true:=(clientPinSubCommand_ok hsub).2.2.2.2.trans hmatches
  rw [clientPin_eq,bind_of_ok hsub]
  split at hrest
  · obtain ⟨x,v,hx,-⟩:=bind_ok.mp hrest
    have hfixed : v.env.pinHashMatches=u.env.pinHashMatches:=by
      have hall : Fixes (fun w=>w.env.pinHashMatches) (pinTokenHash cr params):=fixes_pinTokenHash (fun _ _=>rfl) params
      have hfixed:=hall.apply u
      rwa [hx] at hfixed
    show ∃ response, (clientPinGetPinToken cr params u).1=.ok response
    rw [clientPinGetPinToken_eq]
    exact accepted (fun x=>x.2.2) hx (hfixed.trans hmatches') (answers_issuePinToken _ _)
  · obtain ⟨x,v,hx,-⟩:=bind_ok.mp hrest
    have hfixed : v.env.pinHashMatches=u.env.pinHashMatches:=by
      have hall : Fixes (fun w=>w.env.pinHashMatches) (pinUvAuthTokenHash cr params):=fixes_pinUvAuthTokenHash (fun _ _=>rfl) params
      have hfixed:=hall.apply u
      rwa [hx] at hfixed
    show ∃ response, (clientPinGetPinUvAuthToken cr params u).1=.ok response
    rw [clientPinGetPinUvAuthToken_eq]
    exact accepted (fun x=>x.2.2) hx (hfixed.trans hmatches') (answers_issuePinUvAuthToken _ _)
  · cases hrest

end Requests

end CdcBadge.Fido2

namespace CdcBadge.RetryAgreement

open Handler Runs

/-- The authenticator and the PIN manager of a badge. -/
structure Device where
  fido : Fido2.Badge
  pin : Pin.Badge

/-- A clientPIN request, with the calls of the PIN manager; or an operation of the PIN manager. -/
inductive Event
  | clientPin (params : Bytes) (env : Fido2.Env) (calls : Pin.Calls)
  | pin (i : Pin.PinInput)

section Device

variable (cr : Fido2.FidoCrypto)

/-- `pin_storage_fido2_available` is asked: there is a retry left for a request for a token. -/
def asksForToken (params : Bytes) (w : Fido2.Badge) : Bool:=
  match Fido2.clientPinSubCommand params w with
  | (.ok 0x05,t) | (.ok 0x09,t)=>t.clientPin.pinRetries != 0
  | _=>false

/-- What a request has the PIN manager do: load its record, and compare the hash that the request carries. -/
def pinCall (params : Bytes) (w : Fido2.Badge) : Pin.PinM Bool:=
  if asksForToken params w then do
    let _ ← Pin.init cr.toCrypto
    match (Fido2.presentedHash cr params w).1 with
    | .ok hash=>Pin.pinStorageVerifyFido2Hash cr.toCrypto hash
    | .error _=>pure true
  else pure true

/-- The authenticator with these calls to come, before the PIN manager has answered. -/
def Device.asked (d : Device) (env : Fido2.Env) : Fido2.Badge:=
  d.fido.given {env with fido2Available:=true,pinHashMatches:=true}

def Device.clientPin (d : Device) (params : Bytes) (env : Fido2.Env) (calls : Pin.Calls) :
    Option (Except Fido2.Halt Bytes) × Device:=
  match pinCall cr params (d.asked env) (d.pin.given (calls.input .init)) with
  | (.ok answer,pin)=>
    let r:=Fido2.clientPin cr params (d.fido.given {env with fido2Available:=true,pinHashMatches:=answer})
    (some r.1,⟨r.2,pin⟩)
  | (.error _,pin)=>(none,⟨d.fido.reboot,pin.reboot⟩)

def step (d : Device) : Event→Device
  | .clientPin params env calls=>(d.clientPin cr params env calls).2
  | .pin i=>
    match Pin.respond cr.toCrypto d.pin i with
    | (some _,pin)=>{d with pin:=pin}
    | (none,pin)=>⟨d.fido.reboot,pin⟩

def Reports (d : Device) (n : UInt8) : Event→Prop
  | .clientPin params env _=>(Fido2.clientPinSubCommand params (d.asked env)).1=.ok 0x01 ∧ n=Fido2.retries d.fido
  | .pin _=>False

/-- A request that carries the hash of the PIN is accepted, unless power is lost, and so many wrong guesses in a row are
still compared. -/
structure Honest (d : Device) (n : ℕ) : Prop where
  accepts : ∀ params env calls, (Fido2.presentedHash cr params (d.asked env)).1=.ok (Pin.currentHash cr.toCrypto d.pin) →
    ∀ answer, (d.clientPin cr params env calls).1=some answer→∃ response, answer=.ok response
  compares : Pin.Compares cr.toCrypto d.pin n

def Backed (d : Device) (n : ℕ) : Prop:=d.pin.pm.pinLoaded=true ∧ n ≤ Pin.guessesLeft d.pin

end Device

section Agreement

variable {cr : Fido2.FidoCrypto} {d : Device}

theorem pinCall_retries {params : Bytes} {w : Fido2.Badge} (hsub : (Fido2.clientPinSubCommand params w).1=.ok 0x01) :
    pinCall cr params w=pure true:=by
  have hasks : asksForToken params w=false:=by
    unfold asksForToken
    revert hsub
    cases Fido2.clientPinSubCommand params w with
    | mk r t=>
      rintro rfl
      rfl
  unfold pinCall
  rw [hasks,if_neg Bool.false_ne_true]

theorem Reports.backed_iff {e : Event} {n : UInt8} (h : Reports d n e) {k : ℕ} : Backed (step cr d e) k ↔ Backed d k:=by
  cases e with
  | pin i=>exact h.elim
  | clientPin params env calls=>
    have hpin : (step cr d (.clientPin params env calls)).pin=d.pin.given (calls.input .init):=by
      unfold step Device.clientPin
      dsimp only
      rw [pinCall_retries h.1]
      rfl
    unfold Backed
    rw [hpin]
    rfl

theorem pinCall_right {params : Bytes} {env : Fido2.Env} {b : Pin.Badge} (hloaded : b.pm.pinLoaded=true) (hleft : Pin.guessesLeft b≠0)
    (hpresented : (Fido2.presentedHash cr params (d.asked env)).1=.ok b.pm.badgeHash) {answer : Bool} {t : Pin.Badge}
    (h : pinCall cr params (d.asked env) b=(.ok answer,t)) : answer=true:=by
  unfold pinCall at h
  cases hasks : asksForToken params (d.asked env) with
  | false=>
    rw [hasks,if_neg Bool.false_ne_true] at h
    cases h
    rfl
  | true=>
    have hinit : Pin.init cr.toCrypto b=(.ok true,b):=by simp [Pin.init,Pin.pmGets,hloaded]
    have hhash : (Pin.refreshed b).badgeHash=b.pm.badgeHash:=by
      unfold Pin.refreshed
      split <;> rfl
    rw [hasks,if_pos rfl,bind_of_ok hinit,hpresented] at h
    have hverify : Pin.pinStorageVerifyFido2Hash cr.toCrypto b.pm.badgeHash b=(.ok answer,t):=h
    rw [Pin.verifies_loaded hloaded,Pin.verify_open hloaded hleft] at hverify
    exact (Pin.compareGuess_right b.pm.badgeHash).ok hhash hverify

theorem honest_iff {n : ℕ} (hn : 0 < n) : Honest cr d n ↔ Backed d n:=by
  constructor
  · intro h
    exact (Pin.compares_iff.mp h.compares).resolve_left hn.ne'
  · intro h
    refine ⟨?_,Pin.compares_iff.mpr (.inr h)⟩
    intro params env calls hpresented answer hanswer
    obtain ⟨hloaded,hleft⟩:=h
    have hcurrent : Pin.currentHash cr.toCrypto d.pin=d.pin.pm.badgeHash:=by
      unfold Pin.currentHash
      rw [hloaded,if_pos rfl]
    rw [hcurrent] at hpresented
    unfold Device.clientPin at hanswer
    cases hcall : pinCall cr params (d.asked env) (d.pin.given (calls.input .init)) with
    | mk r t=>cases r with
      | ok right=>
        obtain rfl : right=true:=by
          have hgiven : (d.pin.given (calls.input .init)).pm.pinLoaded=true:=hloaded
          have hopen : Pin.guessesLeft (d.pin.given (calls.input .init))≠0:=(hn.trans_le hleft).ne'
          exact pinCall_right hgiven hopen hpresented hcall
        rw [hcall] at hanswer
        obtain rfl:=Option.some.inj hanswer
        exact Fido2.clientPin_accepted hpresented rfl
      | error lost=>
        rw [hcall] at hanswer
        cases hanswer

end Agreement

/-- A run's reports are honest exactly when at each of them the PIN manager has its record and as many guesses left as are
reported. -/
theorem retries_agree (cr : Fido2.FidoCrypto) (d : Device) (es : List Event) :
    AlongRun (step cr) (fun d e=>∀ n, Reports d n e → 0 < n.toNat→Honest cr (step cr d e) n.toNat) d es ↔
      AlongRun (step cr) (fun d e=>∀ n, Reports d n e → 0 < n.toNat→Backed d n.toNat) d es:=by
  have hiff : ∀ d e, (∀ n, Reports d n e → 0 < n.toNat→Honest cr (step cr d e) n.toNat) ↔
      ∀ n, Reports d n e → 0 < n.toNat→Backed d n.toNat:=by
    intro d e
    apply forall_congr'
    intro n
    apply forall_congr'
    intro hreports
    apply forall_congr'
    intro hpos
    exact (honest_iff hpos).trans hreports.backed_iff
  constructor
  · exact fun h=>h.mono fun d e=>(hiff d e).mp
  · exact fun h=>h.mono fun d e=>(hiff d e).mpr

def lockedDevice : Device:=
  ⟨{chip:={ecc:=fun _=>none,rmem:=fun _=>none}},
    run (Pin.step Crypto.plain) (Pin.provisioned (some (Pin.signedRecord Pin.oneByteRecord)))
      [{op:=.init},{op:=.verifyBadgePin [0x31,0x31,0x31,0x31]}]⟩

/-- Eight retries are reported, and no guess is compared. -/
theorem retries_disagree : ¬∀ (cr : Fido2.FidoCrypto) (d : Device) (es : List Event),
    AlongRun (step cr) (fun d e=>∀ n, Reports d n e → 0 < n.toNat→Honest cr (step cr d e) n.toNat) d es:=by
  intro hall
  have hhonest:=(hall Fido2.FidoCrypto.plain lockedDevice [.clientPin [0xA1,0x02,0x01] {} {}]).1 8 ⟨rfl,rfl⟩ (by decide)
  have hcompares:=(Pin.compares_iff.mp hhonest.compares).resolve_left (by decide)
  exact absurd hcompares.2 (by decide +kernel)

end CdcBadge.RetryAgreement
