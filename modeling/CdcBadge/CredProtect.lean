import CdcBadge.Requests
import CdcBadge.SavedAssertions

/-!
# credProtect over CTAP2 and U2F

A protected credential signs only after a selection that its level allows, as long as
nothing but getAssertion puts protected credentials on the saved list and U2F
authentications name none of level 3.
-/

namespace CdcBadge.Fido2

open Handler Cbor Runs

/-- The selection met the protection of a credential: it was verified for level 3, verified or by ID for
level 2, and it was this credential that it selected. -/
def ProtectionMet : Policy:=fun _ selection slot c=>
  (3 ≤ c.credProtect → selection.uv=true) ∧
  (c.credProtect=2 → selection.uv=true ∨ selection.byId=true) ∧
  (2 ≤ c.credProtect→(slot,c)∈selection.creds)

theorem protectionMet_follows : ProtectionMet.Follows:=by
  intro hash selection slot c _ hallows hmem
  unfold protectAllows at hallows
  refine ⟨fun h3=>?_,fun h2=>?_,fun _=>hmem⟩
  · simp only [h3,decide_true,Bool.true_and,Bool.not_not,Bool.and_eq_true] at hallows
    exact hallows.1
  · by_contra hnot
    simp_all

theorem protectionMet_of_unprotected {hash : ByteArr 32} {selection : Selection} {slot : ℕ} {c : CredInfo}
    (h : c.credProtect < 2) : ProtectionMet hash selection slot c:=by
  have hlt:=UInt8.lt_iff_toNat_lt.mp h
  refine ⟨fun h3=>?_,fun h2=>?_,fun h2=>?_⟩
  · exact absurd (UInt8.le_iff_toNat_le.mp h3) (by simp at hlt ⊢; omega)
  · exact absurd h2 (UInt8.ne_of_lt h)
  · exact absurd (UInt8.le_iff_toNat_le.mp h2) (by simp at hlt ⊢; omega)

section Condition

variable (cr : FidoCrypto)

/-- After the request, the protection of the credentials on the saved list is met by its selection. -/
structure MakesProtected (w : Badge) (params : Bytes) : Prop where
  excluded : ∀ p k c, mcParams cr w params=some p→p.excludes cr w.storage≠[] →
    k < w.ctap2.assertionCount.toNat →
    w.info ((overwrite (p.excludes cr w.storage) w.ctap2.assertionCreds).getD k 0)=some c →
    ProtectionMet w.ctap2.assertionRpIdHash w.ctap2.assertionSelection
      ((overwrite (p.excludes cr w.storage) w.ctap2.assertionCreds).getD k 0) c
  created : ∀ p curve k, Admits cr w params p curve→k < w.ctap2.assertionCount.toNat →
    p.target w.storage=some (w.ctap2.assertionCreds.getD k 0)→p.credProtect < 2

/-- A makeCredential puts no protected credential on the saved list, and a U2F authentication names no
credential of level 3. -/
def RespectsProtection (w : Badge) (i : Input) : Prop:=
  match i.command with
  | .ctap2 (command::params)=>command=0x01→MakesProtected cr (w.given i.env) params
  | .u2f apdu=>∀ application keyHandle c, u2fAuthentication apdu=some (application,keyHandle) →
      w.info (keyHandle.headD 0).toNat=some c → c.rpIdHash=application → c.credProtect < 3
  | _=>True

variable {cr}

theorem RespectsProtection.harmless {w : Badge} {i : Input} (h : RespectsProtection cr w i) :
    Harmless ProtectionMet cr w i:=by
  unfold RespectsProtection at h
  unfold Harmless
  cases hcommand : i.command with
  | ctap2 cmd=>
    rw [hcommand] at h
    cases cmd with
    | nil=>trivial
    | cons command params=>
      intro hone
      obtain ⟨hexcluded,hcreated⟩:=h hone
      exact ⟨fun p hp hfound k hk c hc=>hexcluded p k c hp hfound hk hc,
        fun p curve slot hadmits htarget k hk hslot=>
          protectionMet_of_unprotected (hcreated p curve k hadmits hk (hslot ▸ htarget))⟩
  | u2f apdu=>
    rw [hcommand] at h
    refine ⟨fun _ _ _ _ _ _ _ _ _ _=>protectionMet_of_unprotected (by decide : (0 : UInt8) < 2),
      fun application keyHandle hauth c hc hrp=>⟨fun h3=>?_,fun _=>.inr rfl,fun _=>List.mem_singleton_self _⟩⟩
    exact absurd h3 (UInt8.not_le.mpr (h application keyHandle c hauth hc hrp))
  | deleteCredential slot=>trivial
  | powerCycle=>trivial

theorem respectsProtection_of_nothingSaved {w : Badge} {cmd : Bytes} {e : Env} (h : w.ctap2.assertionCount=0) :
    RespectsProtection cr w {command:=.ctap2 cmd,env:=e}:=by
  have none : ∀ k, ¬k < w.ctap2.assertionCount.toNat:=fun k hk=>by simp [h] at hk
  unfold RespectsProtection
  split
  · exact fun _=>⟨fun _ k _ _ _ hk=>absurd hk (none k),fun _ _ k _ hk=>absurd hk (none k)⟩
  · rename_i hcommand
    cases hcommand
  · trivial

end Condition

/-- In every run of such commands, a credential of level 3 signs only after a verified selection and one of
level 2 only after a verified one or one by ID, over both protocols. -/
theorem signings_protected {cr : FidoCrypto} {chip : Chip RmemContent} {nvs : Nvs} {e : Env} {is : List Input}
    (h : AlongRun (step cr) (RespectsProtection cr) (start chip nvs e) is) :
    ∀ s∈(run (step cr) (start chip nvs e) is).signings,
      (3 ≤ s.cred.credProtect → s.selection.uv=true) ∧
      (s.cred.credProtect=2 → s.selection.uv=true ∨ s.selection.byId=true) ∧
      (2 ≤ s.cred.credProtect→(s.slot,s.cred.toCredInfo)∈s.selection.creds) ∧
      ∀ stored, s.record=some (.cred stored) → stored.credProtect=s.cred.credProtect:=by
  intro s hs
  have hsound:=run_sound protectionMet_follows (sound_start chip nvs e)
    (h.mono fun _ _ hi=>RespectsProtection.harmless hi)
  obtain ⟨⟨hash,-,hverified,hnamed,hselected⟩,hrecorded⟩:=hsound.signed s hs
  exact ⟨hverified,hnamed,hselected,fun stored hstored=>congrArg (·.credProtect) (hrecorded stored hstored)⟩

def credProtectExtension (level : ℕ) (w : Writer) : Writer:=
  w.uint 0x06 |>.map 1 |>.text (ascii "credProtect") |>.uint level

def u2fAuthenticateApdu (rpId keyHandle : Bytes) : Bytes:=
  [0,0x02,0x03,0,UInt8.ofNat (65+keyHandle.length)]++(zeros 32).toList ++
    (FidoCrypto.plain.sha256 rpId).toList++[UInt8.ofNat keyHandle.length]++keyHandle

/-- A registration at a level of protection, and a U2F authentication with the credential's ID. -/
def u2fRun (level : ℕ) : List Input:=[
  ctap2Input 0x01 (mcRequest (ascii "a") [1] 1 (credProtectExtension level)) {secrets:=[1]},
  {command:=.u2f (u2fAuthenticateApdu (ascii "a") (credIdOf 0 (zeros 16)))}]

theorem signings_protected_level2 : (run (step FidoCrypto.plain) newBadge (u2fRun 2)).signings.length=1 ∧
    ∀ s∈(run (step FidoCrypto.plain) newBadge (u2fRun 2)).signings,
      (3 ≤ s.cred.credProtect → s.selection.uv=true) ∧
      (s.cred.credProtect=2 → s.selection.uv=true ∨ s.selection.byId=true) ∧
      (2 ≤ s.cred.credProtect→(s.slot,s.cred.toCredInfo)∈s.selection.creds) ∧
      ∀ stored, s.record=some (.cred stored) → stored.credProtect=s.cred.credProtect:=by
  refine ⟨by decide +kernel,signings_protected ⟨respectsProtection_of_nothingSaved (by decide +kernel),?_,trivial⟩⟩
  intro application keyHandle c hauth hc _
  have hkeyHandle : (keyHandle.headD 0).toNat=0:=by
    have : u2fAuthentication (u2fAuthenticateApdu (ascii "a") (credIdOf 0 (zeros 16))) =
      some (FidoCrypto.plain.sha256 (ascii "a"),credIdOf 0 (zeros 16)):=by decide +kernel
    obtain ⟨-,rfl⟩:=Prod.mk.inj (Option.some.inj (this.symm.trans hauth))
    rfl
  rw [hkeyHandle] at hc
  have hlevel : (Badge.info (step FidoCrypto.plain newBadge (ctap2Input 0x01
      (mcRequest (ascii "a") [1] 1 (credProtectExtension 2)) {secrets:=[1]})) 0).all (·.credProtect < 3)=true:=by
    decide +kernel
  exact of_decide_eq_true ((Option.all_eq_true _ _).mp hlevel c hc)

/-- A credential of level 3 signs for U2F without user verification. -/
theorem signings_unprotected : ¬∀ s∈(run (step FidoCrypto.plain) newBadge (u2fRun 3)).signings,
    3 ≤ s.cred.credProtect → s.selection.uv=true:=by
  decide +kernel

end CdcBadge.Fido2
