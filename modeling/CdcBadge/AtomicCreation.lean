import CdcBadge.Credentials
import CdcBadge.MakeCredentialSteps
import CdcBadge.Requests

/-!
# makeCredential and the stored credentials

A request that fails leaves the credentials as they were, unless it takes the place of a
credential of the same RP and user: that one is erased before its successor exists.
-/

namespace CdcBadge.Fido2

open Handler Cbor

def Badge.credential (w : Badge) (slot : ℕ) : Option (CachedCred × Option EccKey × Option RmemContent):=
  (w.storage.creds slot).map fun c=>
    (c,w.chip.ecc (eccSlotForLogical slot),w.chip.rmem (rmemSlotForLogical slot))

section Same

variable {w t : Badge} {slot : ℕ} {info : CredInfo}

end Same

theorem fixes_u2fInitAttestation : Fixes Badge.credentials u2fInitAttestation:=by
  refine Fixes.bind (Fixes.gets _) fun cert=>?_
  cases cert with
  | some cert=>exact Fixes.pure _
  | none=>
    refine Fixes.bind ((Quiet.seCall (Chip.eccGetPublicKey_chip _)).fixes fun _ _=>rfl) fun reply=>?_
    cases reply with
    | error e=>exact Fixes.pure _
    | ok key=>
      exact Fixes.ite (Fixes.pure _) (Fixes.bind (Fixes.gets _) fun _=>
        Fixes.bind (Fixes.modify fun _=>rfl) fun _=>Fixes.pure _)

theorem signingKey_chip (curve : EccCurve) (slot : ℕ) (c : Chip RmemContent) : (signingKey curve slot c).2=c:=by
  have h:=Chip.eccSigningKey_chip slot c
  unfold signingKey
  split
  · rename_i key d hkey
    rw [hkey] at h
    split <;> exact h
  · exact h

theorem Quiet.u2fAttestSign (cr : FidoCrypto) (data : Bytes) : Quiet (u2fAttestSign cr data):=by
  refine (Quiet.seCall (signingKey_chip _ _)).bind fun reply=>?_
  cases reply with
  | error e=>exact Quiet.pure _
  | ok key=>exact Quiet.freshSecret.bind fun _=>Quiet.pure _

theorem fixes_u2fAttestationSign (cr : FidoCrypto) (data : Bytes) :
    Fixes Badge.credentials (u2fAttestationSign cr data):=by
  refine Fixes.bind fixes_u2fInitAttestation fun cert=>?_
  cases cert with
  | none=>exact Fixes.pure _
  | some cert=>exact (Quiet.u2fAttestSign cr data).fixes fun _ _=>rfl

section Rollback

variable {α : Type} {w : Badge} {slot : ℕ} {info : CredInfo}

theorem Added.of_credentials {t u : Badge} (h : Added w slot info t) (hu : u.credentials=t.credentials) :
    Added w slot info u:=by
  obtain ⟨hwithout,stored,hinfo,hstorage,hrecord⟩:=h
  exact ⟨(without_of_credentials hu).trans hwithout,stored,hinfo,
    (congrArg (·.storage) hu : u.storage=t.storage).trans hstorage,
    (congrArg (·.chip.rmem (rmemSlotForLogical slot)) hu :
      u.chip.rmem (rmemSlotForLogical slot)=t.chip.rmem (rmemSlotForLogical slot)).trans hrecord⟩

end Rollback

section Command

variable (cr : FidoCrypto)

/-- The request passes the checks and names the RP and the user of a stored credential. -/
def Replaces (params : Bytes) (w : Badge) : Prop:=∃ p curve slot, Admits cr w params p curve ∧
  p.userIdLen.toNat ≤ userIdMaxLen ∧ w.storage.findByRpUser p.rpIdHash p.userId p.userIdLen=some slot

variable {cr}

/-- An admitted request creates its credential in a badge with the same credentials and outcomes. -/
theorem Admits.run {w : Badge} {params : Bytes} {p : MakeCredentialParams} {curve : EccCurve}
    (h : Admits cr w params p curve) : ∃ t, t.ahead=w.ahead ∧
      makeCredential cr params w=createCredentialAndRespond cr p p.uv curve t:=by
  have hrun:=makeCredential_run cr w params
  generalize hm : makeCredential cr params w=r at hrun
  cases hrun with
  | excluded q t hq hfound ht=>
    obtain rfl : q=p:=Option.some.inj (hq.symm.trans h.parsed)
    exact absurd h.notExcluded hfound
  | ended r t ht hnot=>exact absurd h (hnot p curve)
  | admitted q curve' t ht hq=>
    obtain rfl : q=p:=Option.some.inj (hq.parsed.symm.trans h.parsed)
    obtain rfl : curve'=curve:=Option.some.inj (hq.supported.symm.trans h.supported)
    exact ⟨t,ht,rfl⟩

end Command

end CdcBadge.Fido2
