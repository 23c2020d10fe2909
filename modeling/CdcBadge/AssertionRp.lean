import CdcBadge.Requests
import CdcBadge.SavedAssertions

/-!
# The RP of the credential that signs

Every signature is for the RP of its credential, as long as nothing puts a credential of
another RP where the saved list of an earlier getAssertion points.
-/

namespace CdcBadge.Fido2

open Handler Cbor Runs

def OwnRp : Policy:=fun hash _ _ c=>c.rpIdHash=hash

theorem ownRp_follows : OwnRp.Follows:=fun _ _ _ _ h _ _=>h

section Condition

variable (cr : FidoCrypto)

/-- After the request, no entry of the saved list is a credential of another RP than the list is for. -/
structure MakesForSavedRp (w : Badge) (params : Bytes) : Prop where
  excluded : ∀ p k c, mcParams cr w params=some p→p.excludes cr w.storage≠[] →
    k < w.ctap2.assertionCount.toNat →
    w.info ((overwrite (p.excludes cr w.storage) w.ctap2.assertionCreds).getD k 0)=some c →
    c.rpIdHash=w.ctap2.assertionRpIdHash
  created : ∀ p curve k, Admits cr w params p curve→k < w.ctap2.assertionCount.toNat →
    p.target w.storage=some (w.ctap2.assertionCreds.getD k 0)→p.rpIdHash=w.ctap2.assertionRpIdHash

/-- A makeCredential writes no slot of another RP over the saved list and stores no credential of another
RP in a slot of it, and a U2F registration stores none. -/
def KeepsSavedRp (w : Badge) (i : Input) : Prop:=
  match i.command with
  | .ctap2 (command::params)=>command=0x01→MakesForSavedRp cr (w.given i.env) params
  | .u2f apdu=>∀ challenge application k, u2fRegistration apdu=some (challenge,application) →
      isDummyApplication application=false→i.env.presence=true→k < w.ctap2.assertionCount.toNat →
      u2fTarget application w.storage=some (w.ctap2.assertionCreds.getD k 0) →
      application=w.ctap2.assertionRpIdHash
  | _=>True

variable {cr}

theorem KeepsSavedRp.harmless {w : Badge} {i : Input} (h : KeepsSavedRp cr w i) : Harmless OwnRp cr w i:=by
  unfold KeepsSavedRp at h
  unfold Harmless
  cases hcommand : i.command with
  | ctap2 cmd=>
    rw [hcommand] at h
    cases cmd with
    | nil=>trivial
    | cons command params=>
      intro hone
      obtain ⟨hexcluded,hcreated⟩:=h hone
      exact ⟨fun p hp hfound k hk c hc=>hexcluded p k c hp hfound hk hc,
        fun p curve slot hadmits htarget k hk hslot=>hcreated p curve k hadmits hk (hslot ▸ htarget)⟩
  | u2f apdu=>
    rw [hcommand] at h
    exact ⟨fun challenge application hreg hdummy hpresence slot htarget k hk hslot=>
      h challenge application k hreg hdummy hpresence hk (hslot ▸ htarget),fun _ _ _ _ _ hrp=>hrp⟩
  | deleteCredential slot=>trivial
  | powerCycle=>trivial

theorem keepsSavedRp_of_nothingSaved {w : Badge} {i : Input} (h : w.ctap2.assertionCount=0) :
    KeepsSavedRp cr w i:=by
  have none : ∀ k, ¬k < w.ctap2.assertionCount.toNat:=fun k hk=>by simp [h] at hk
  unfold KeepsSavedRp
  split
  · exact fun _=>⟨fun _ k _ _ _ hk=>absurd hk (none k),fun _ _ k _ hk=>absurd hk (none k)⟩
  · exact fun _ _ k _ _ _ hk=>absurd hk (none k)
  · trivial

end Condition

/-- In every run of such commands, the key that makes a signature is that of a slot whose stored RP hash is
the one at the start of the signed data. -/
theorem signings_ownRp {cr : FidoCrypto} {chip : Chip RmemContent} {nvs : Nvs} {e : Env} {is : List Input}
    (h : AlongRun (step cr) (KeepsSavedRp cr) (start chip nvs e) is) :
    ∀ s∈(run (step cr) (start chip nvs e) is).signings,
      s.cred.rpIdHash.toList=s.message.take 32 ∧
      ∀ stored, s.record=some (.cred stored) → stored.rpIdHash.toList=s.message.take 32:=by
  intro s hs
  have hsound:=run_sound ownRp_follows (sound_start chip nvs e) (h.mono fun _ _ hi=>KeepsSavedRp.harmless hi)
  obtain ⟨⟨hash,hmessage,hown⟩,hrecorded⟩:=hsound.signed s hs
  have hcred : s.cred.rpIdHash.toList=s.message.take 32:=by
    rw [hmessage,(hown : s.cred.rpIdHash=hash)]
  refine ⟨hcred,fun stored hstored=>?_⟩
  rw [← hcred,← hrecorded stored hstored]

def assertRun : List Input:=[
  ctap2Input 0x01 (mcRequest (ascii "a") [1] 1 residentKey) {secrets:=[1]},
  ctap2Input 0x01 (mcRequest (ascii "a") [2] 1 residentKey) {secrets:=[2]},
  ctap2Input 0x02 (gaRequest (ascii "a") 0 id) {},
  ctap2Input 0x08 [] {}]

theorem signings_ownRp_assertRun : (run (step FidoCrypto.plain) newBadge assertRun).signings.length=2 ∧
    ∀ s∈(run (step FidoCrypto.plain) newBadge assertRun).signings,
      s.cred.rpIdHash.toList=s.message.take 32 ∧
      ∀ stored, s.record=some (.cred stored) → stored.rpIdHash.toList=s.message.take 32:=
  ⟨by decide +kernel,signings_ownRp
    ⟨keepsSavedRp_of_nothingSaved (by decide +kernel),keepsSavedRp_of_nothingSaved (by decide +kernel),
      nofun,nofun,trivial⟩⟩

/-- Between the two signatures for the RP `a`, a registration finds the credentials of `b` for its
`appidExclude`: they are written over the list, and the second of them signs for `a`. -/
def excludeRun : List Input:=[
  ctap2Input 0x01 (mcRequest (ascii "a") [1] 1 residentKey) {secrets:=[1]},
  ctap2Input 0x01 (mcRequest (ascii "a") [2] 1 residentKey) {secrets:=[2]},
  ctap2Input 0x01 (mcRequest (ascii "b") [1] 1 residentKey) {secrets:=[3]},
  ctap2Input 0x01 (mcRequest (ascii "b") [2] 1 residentKey) {secrets:=[4]},
  ctap2Input 0x02 (gaRequest (ascii "a") 0 id) {},
  ctap2Input 0x01 (mcRequest (ascii "c") [1] 1 fun w=>
    w.uint 0x06 |>.map 1 |>.text (ascii "appidExclude") |>.text (ascii "b")) {},
  ctap2Input 0x08 [] {}]

theorem signings_otherRp : ¬∀ s∈(run (step FidoCrypto.plain) newBadge excludeRun).signings,
    s.cred.rpIdHash.toList=s.message.take 32:=by
  decide +kernel

end CdcBadge.Fido2
