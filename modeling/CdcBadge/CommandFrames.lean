import CdcBadge.Credentials

/-!
# Commands that leave the credentials alone

clientPIN, largeBlobs, config and the commands without parameters sign nothing with a
credential and store none, and credentialManagement does so only where it deletes one.
-/

namespace CdcBadge.Fido2

open Handler Cbor

variable {α : Type} {P : Badge→Prop}

theorem Quiet.credentials {m : Ctap α} (h : Quiet m) : Fixes Badge.credentials m:=h.fixes fun _ _=>rfl

namespace FixesCredentials

theorem pure (a : α) : Fixes Badge.credentials (pure a : Ctap α):=Fixes.pure a

theorem gets (f : Badge → α) : Fixes Badge.credentials (gets f : Ctap α):=Fixes.gets f

theorem fail (s : Status) : Fixes Badge.credentials (fail s : Ctap α):=Fixes.stop _

theorem require (b : Bool) (s : Status) : Fixes Badge.credentials (require b s):=Fixes.check b _

theorem orFail (s : Status) (o : Option α) : Fixes Badge.credentials (orFail s o):=(Quiet.orFail s o).credentials

theorem cbor (m : Read α) : Fixes Badge.credentials (cbor m):=(Quiet.cbor m).credentials

theorem initReader (params : Bytes) : Fixes Badge.credentials (initReader params):=
  (Quiet.initReader params).credentials

theorem updateClientPin (f : ClientPin → ClientPin) : Fixes Badge.credentials (updateClientPin f):=
  Fixes.modify fun _=>rfl

theorem updateCredMgmt (f : CredMgmt → CredMgmt) : Fixes Badge.credentials (updateCredMgmt f):=
  Fixes.modify fun _=>rfl

theorem updateLargeBlob (f : LargeBlob → LargeBlob) : Fixes Badge.credentials (updateLargeBlob f):=
  Fixes.modify fun _=>rfl

theorem noteAct (permission : UInt8) (rpIdHashes : List (ByteArr 32)) :
    Fixes Badge.credentials (noteAct permission rpIdHashes):=
  Fixes.modify fun _=>rfl

theorem nvsWrite (f : Nvs→Nvs) : Fixes Badge.credentials (nvsWrite f):=by
  refine Fixes.bind Quiet.nextNvs.credentials fun o=>?_
  cases o with
  | done=>exact Fixes.bind (Fixes.modify fun _=>rfl) fun _=>Fixes.pure _
  | notOpened=>exact Fixes.pure _
  | failed applied=>exact Fixes.bind (Fixes.when (Fixes.modify fun _=>rfl)) fun _=>Fixes.pure _

theorem verifyTokenOverMessage (cr : FidoCrypto) (message : Bytes) (protocol : UInt8) (param : Bytes)
    (permission : UInt8) : Fixes Badge.credentials (verifyTokenOverMessage cr message protocol param permission):=
  (Quiet.verifyTokenOverMessage cr message protocol param permission).credentials

theorem verifyPinUvAuthParam (cr : FidoCrypto) (permission : UInt8) (rpIdHash clientDataHash : ByteArr 32)
    (protocol : UInt8) (param : Bytes) :
    Fixes Badge.credentials (verifyPinUvAuthParam cr permission rpIdHash clientDataHash protocol param):=
  Fixes.ite (pure _) <| Fixes.bind (gets _) fun _=>Fixes.bind (require _ _) fun _=>Fixes.bind (require _ _)
    fun _=>Fixes.bind (require _ _) fun _=>Fixes.bind (require _ _) fun _=>
    Fixes.bind (Fixes.modify fun _=>rfl) fun _=>pure _

variable (cr : FidoCrypto) (params : Bytes)

theorem encryptToken (sharedSecret token : ByteArr 32) (protocol : UInt8) :
    Fixes Badge.credentials (encryptToken cr sharedSecret token protocol):=
  Fixes.ite (Fixes.bind (Quiet.secureRandomFill _).credentials fun _=>pure _) (pure _)

theorem tokenResponse (encryptedToken : Bytes) : Fixes Badge.credentials (tokenResponse encryptedToken):=
  Fixes.bind (gets _) fun _=>pure _

theorem requirePinUsable : Fixes Badge.credentials requirePinUsable:=
  Fixes.bind (gets _) fun _=>Fixes.bind (require _ _) fun _=>Fixes.bind (gets _) fun _=>require _ _

theorem verifyPinHash (hash : ByteArr 16) : Fixes Badge.credentials (verifyPinHash hash):=by
  refine Fixes.bind (gets _) fun _=>Fixes.ite (updateClientPin _) ?_
  exact Fixes.bind (updateClientPin _) fun _=>Fixes.bind (gets _) fun _=>Fixes.ite (fail _) (fail _)

theorem newPinToken : Fixes Badge.credentials newPinToken:=
  Fixes.bind (Quiet.secureRandomFill _).credentials fun _=>updateClientPin _

theorem clientPinGetPinToken : Fixes Badge.credentials (clientPinGetPinToken cr params):=by
  refine Fixes.bind requirePinUsable fun _=>Fixes.bind (initReader _) fun _=>Fixes.bind (cbor _) fun _=>?_
  refine Fixes.bind (orFail _ _) fun _=>Fixes.bind (require _ _) fun _=>Fixes.bind (cbor _) fun _=>?_
  refine Fixes.bind (orFail _ _) fun p=>Fixes.bind (require _ _) fun _=>Fixes.bind (gets _) fun _=>?_
  refine Fixes.bind (orFail _ _) fun _=>Fixes.bind (orFail _ _) fun _=>Fixes.bind (verifyPinHash _) fun _=>?_
  refine Fixes.bind newPinToken fun _=>Fixes.bind (gets _) fun _=>Fixes.bind (encryptToken _ _ _ _) fun _=>?_
  exact Fixes.bind (tokenResponse _) fun _=>Fixes.bind (updateClientPin _) fun _=>pure _

theorem clientPinGetPinUvAuthToken : Fixes Badge.credentials (clientPinGetPinUvAuthToken cr params):=by
  refine Fixes.bind requirePinUsable fun _=>Fixes.bind (initReader _) fun _=>Fixes.bind (cbor _) fun _=>?_
  refine Fixes.bind (orFail _ _) fun _=>Fixes.bind (require _ _) fun _=>Fixes.bind (cbor _) fun _=>?_
  refine Fixes.bind (orFail _ _) fun _=>Fixes.bind (orFail _ _) fun p=>Fixes.bind (require _ _) fun _=>?_
  refine Fixes.bind (require _ _) fun _=>Fixes.bind (gets _) fun _=>Fixes.bind (orFail _ _) fun _=>?_
  refine Fixes.bind (orFail _ _) fun _=>Fixes.bind (verifyPinHash _) fun _=>Fixes.bind newPinToken fun _=>?_
  refine Fixes.bind (updateClientPin _) fun _=>Fixes.bind (gets _) fun _=>?_
  exact Fixes.bind (encryptToken _ _ _ _) fun _=>tokenResponse _

theorem clientPinGetKeyAgreement : Fixes Badge.credentials (clientPinGetKeyAgreement cr):=by
  refine Fixes.bind (Fixes.bind (gets _) fun _=>Fixes.when ?_) fun _=>Fixes.bind (gets _) fun _=>
    Fixes.bind (gets _) fun _=>pure _
  exact Fixes.bind Quiet.freshSecret.credentials fun _=>updateClientPin _

theorem clientPin : Fixes Badge.credentials (clientPin cr params):=by
  refine Fixes.bind (gets _) fun _=>Fixes.bind (Fixes.when (updateClientPin _)) fun _=>?_
  refine Fixes.bind (initReader _) fun _=>Fixes.bind (cbor _) fun _=>Fixes.bind (orFail _ _) fun _=>?_
  refine Fixes.bind (require _ _) fun _=>Fixes.bind (cbor _) fun _=>Fixes.bind (orFail _ _) fun _=>?_
  refine Fixes.bind (require _ _) fun _=>?_
  split
  · exact Fixes.bind (gets _) fun _=>Fixes.bind (gets _) fun _=>pure _
  · exact clientPinGetKeyAgreement cr
  · exact fail _
  · exact fail _
  · exact clientPinGetPinToken cr params
  · exact clientPinGetPinUvAuthToken cr params
  · exact fail _

theorem abandonWrite (s : Status) : Fixes Badge.credentials (abandonWrite s : Ctap α):=
  Fixes.bind (updateLargeBlob _) fun _=>fail _

theorem sessionStep (f : LargeBlob → Except Status LargeBlob) : Fixes Badge.credentials (sessionStep f):=by
  refine Fixes.bind (gets _) fun b=>?_
  split
  · exact updateLargeBlob _
  · exact abandonWrite _

theorem largeBlobsGet (p : LargeBlobsParams) : Fixes Badge.credentials (largeBlobsGet p):=by
  have stored : Fixes Badge.credentials fido2StorageLargeblobGet:=by
    refine Fixes.bind Quiet.nextNvs.credentials fun o=>?_
    cases o with
    | done=>exact gets _
    | notOpened=>exact pure _
    | failed applied=>exact pure _
  refine Fixes.bind stored fun _=>Fixes.bind (orFail _ _) fun _=>Fixes.bind (updateLargeBlob _) fun _=>?_
  exact Fixes.bind (require _ _) fun _=>Fixes.bind (gets _) fun _=>orFail _ _

theorem recover {m : Ctap α} {k : Halt → Ctap α} (hm : Fixes Badge.credentials m)
    (hk : ∀ e, Fixes Badge.credentials (k e)) : Fixes Badge.credentials (recover m k):=
  fun x=>Keeps.recover (hm x) fun e=>hk e x

theorem authorizeFragment (p : LargeBlobsParams) : Fixes Badge.credentials (authorizeFragment cr p):=by
  refine Fixes.bind (gets _) fun _=>Fixes.when (Fixes.bind (recover (verifyTokenOverMessage _ _ _ _ _)
    fun e=>?_) fun _=>noteAct _ _)
  cases e with
  | status s=>exact abandonWrite s
  | statusWord sw=>exact Fixes.stop _
  | powerLost=>exact Fixes.stop _

theorem storeLargeBlob : Fixes Badge.credentials (storeLargeBlob cr):=by
  refine Fixes.bind (gets _) fun b=>Fixes.ite (abandonWrite _) (Fixes.bind ?_ fun _=>
    Fixes.bind (updateLargeBlob _) fun _=>require _ _)
  exact Fixes.ite (pure _) (nvsWrite _)

theorem startFragment (p : LargeBlobsParams) : Fixes Badge.credentials (startFragment p):=
  Fixes.ite (Fixes.bind (require _ _) fun _=>sessionStep _) (Fixes.bind (gets _) fun _=>require _ _)

theorem largeBlobs : Fixes Badge.credentials (largeBlobs cr params):=by
  refine Fixes.bind (initReader _) fun _=>Fixes.bind (cbor _) fun _=>Fixes.bind (orFail _ _) fun p=>?_
  refine Fixes.bind (require _ _) fun _=>Fixes.ite (largeBlobsGet p) ?_
  refine Fixes.bind (startFragment p) fun _=>Fixes.bind (authorizeFragment cr p) fun _=>?_
  refine Fixes.bind (sessionStep _) fun _=>Fixes.bind (gets _) fun _=>?_
  exact Fixes.bind (Fixes.when (storeLargeBlob cr)) fun _=>pure _

theorem setMinPinFloor (minLen : ℕ) : Fixes Badge.credentials (pinStorageSetMinPinFloor minLen):=
  Fixes.modify fun _=>rfl

theorem config : Fixes Badge.credentials (config cr params):=by
  refine Fixes.bind ?_ fun p=>Fixes.bind ?_ fun _=>Fixes.ite ?_ ?_
  · refine Fixes.bind (initReader _) fun _=>Fixes.bind (cbor _) fun _=>Fixes.bind (orFail _ _) fun _=>?_
    exact Fixes.bind (require _ _) fun _=>Fixes.bind (require _ _) fun _=>Fixes.bind (require _ _) fun _=>pure _
  · exact Fixes.bind (gets _) fun _=>Fixes.when (Fixes.bind (require _ _) fun _=>
      Fixes.bind (verifyTokenOverMessage _ _ _ _ _) fun _=>noteAct _ _)
  · exact Fixes.bind (Fixes.bind Quiet.getAlwaysUv.credentials fun _=>Fixes.bind (nvsWrite _) fun _=>
      require _ _) fun _=>pure _
  · refine Fixes.bind (orFail _ _) fun _=>Fixes.bind ?_ fun _=>pure _
    refine Fixes.bind Quiet.getMinPinLen.credentials fun _=>Fixes.bind (require _ _) fun _=>?_
    exact Fixes.bind (nvsWrite _) fun _=>Fixes.bind (require _ _) fun _=>setMinPinFloor _

theorem selection : Fixes Badge.credentials selection:=
  Fixes.bind Quiet.requireUserPresence.credentials fun _=>pure _

theorem getInfo : Fixes Badge.credentials getInfo:=
  Fixes.bind (gets _) fun _=>Fixes.bind Quiet.getAlwaysUv.credentials fun _=>
    Fixes.bind Quiet.getMinPinLen.credentials fun _=>orFail _ _

theorem residentCredential (slot : ℕ) : Fixes Badge.credentials (residentCredential slot):=
  Fixes.bind (gets _) fun _=>Fixes.ite (Quiet.getCredential _).credentials (pure _)

theorem slotHasKey (slot : ℕ) : Fixes Badge.credentials (credMgmtSlotHasKey cr slot):=
  Fixes.bind (Quiet.getPubkey cr slot).credentials fun _=>pure _

theorem countUniqueRps (l : List ℕ) (found : List (ByteArr 32 × ℕ)) :
    Fixes Badge.credentials (credMgmtCountUniqueRps cr l found):=by
  induction l generalizing found with
  | nil=>exact pure _
  | cons slot rest ih=>
    refine Fixes.bind (residentCredential slot) fun info=>?_
    cases info with
    | none=>exact ih found
    | some info=>exact Fixes.bind (slotHasKey cr slot) fun _=>ih _

theorem filterSlots {test : ℕ → Ctap Bool} (h : ∀ slot, Fixes Badge.credentials (test slot)) (l : List ℕ) :
    Fixes Badge.credentials (filterSlots test l):=by
  induction l with
  | nil=>exact pure _
  | cons slot rest ih=>exact Fixes.bind (h slot) fun _=>Fixes.bind ih fun _=>pure _

theorem slotHasRpAndKey (rpIdHash : ByteArr 32) (slot : ℕ) :
    Fixes Badge.credentials (slotHasRpAndKey cr rpIdHash slot):=by
  refine Fixes.bind (residentCredential slot) fun info=>?_
  cases info with
  | none=>exact pure _
  | some info=>exact Fixes.ite (slotHasKey cr slot) (pure _)

theorem encodeRp (slot : ℕ) (total : Option ℕ) (w : Writer) :
    Fixes Badge.credentials (credMgmtEncodeRp slot total w):=
  Fixes.bind (Quiet.getCredential slot).credentials fun _=>Fixes.bind (orFail _ _) fun _=>
    Fixes.bind (noteAct _ _) fun _=>pure _

theorem encodeCredential (slot : ℕ) (total : Option ℕ) (w : Writer) :
    Fixes Badge.credentials (credMgmtEncodeCredential cr slot total w):=by
  refine Fixes.bind (Quiet.getCredential slot).credentials fun _=>Fixes.bind (orFail _ _) fun _=>?_
  refine Fixes.bind (Quiet.getCredId slot).credentials fun _=>Fixes.bind (orFail _ _) fun _=>?_
  refine Fixes.bind (Quiet.getPubkey cr slot).credentials fun _=>Fixes.bind (orFail _ _) fun _=>?_
  exact Fixes.bind (noteAct _ _) fun _=>pure _

theorem enumerateRpsBegin (w : Writer) : Fixes Badge.credentials (enumerateRpsBegin cr w):=by
  refine Fixes.bind (countUniqueRps cr _ _) fun _=>Fixes.bind (updateCredMgmt _) fun _=>?_
  refine Fixes.bind (require _ _) fun _=>Fixes.bind (noteAct _ _) fun _=>Fixes.bind (gets _) fun _=>?_
  exact Fixes.bind (encodeRp _ _ _) fun _=>Fixes.bind (updateCredMgmt _) fun _=>pure _

theorem enumerateRpsGetNext (w : Writer) : Fixes Badge.credentials (enumerateRpsGetNext w):=
  Fixes.bind (gets _) fun _=>Fixes.bind (require _ _) fun _=>Fixes.bind (encodeRp _ _ _) fun _=>
    Fixes.bind (updateCredMgmt _) fun _=>pure _

theorem enumerateCredsBegin (sub : CredMgmtSubParams) (w : Writer) :
    Fixes Badge.credentials (enumerateCredsBegin cr sub w):=by
  refine Fixes.bind (require _ _) fun _=>Fixes.bind (updateCredMgmt _) fun _=>?_
  refine Fixes.bind (filterSlots (slotHasRpAndKey cr _) _) fun _=>Fixes.bind (updateCredMgmt _) fun _=>?_
  refine Fixes.bind (require _ _) fun _=>Fixes.bind (gets _) fun _=>?_
  exact Fixes.bind (encodeCredential cr _ _ _) fun _=>Fixes.bind (updateCredMgmt _) fun _=>pure _

theorem enumerateCredsGetNext (w : Writer) : Fixes Badge.credentials (enumerateCredsGetNext cr w):=
  Fixes.bind (gets _) fun _=>Fixes.bind (require _ _) fun _=>Fixes.bind (encodeCredential cr _ _ _) fun _=>
    Fixes.bind (updateCredMgmt _) fun _=>pure _

theorem getCredsMetadata (w : Writer) : Fixes Badge.credentials (getCredsMetadata w):=
  Fixes.bind (gets _) fun _=>Fixes.bind (noteAct _ _) fun _=>pure _

theorem authorizeCredMgmt (p : CredMgmtParams) : Fixes Badge.credentials (authorizeCredMgmt cr p):=
  Fixes.ite (Fixes.bind (gets _) fun _=>require _ _)
    (Fixes.bind (require _ _) fun _=>verifyTokenOverMessage _ _ _ _ _)

end FixesCredentials

def OfCredentials (P : Badge→Prop) : Prop:=∀ w t : Badge, t.credentials=w.credentials→P w→P t

theorem OfCredentials.envFree (hP : OfCredentials P) : EnvFree P:=
  fun _ _=>propext ⟨hP _ _ rfl,hP _ _ rfl⟩

theorem FixesCredentials.keeps {m : Ctap α} (h : Fixes Badge.credentials m)
    (hP : OfCredentials P) : Keeps P m:=
  keeps_iff.mpr fun w hw=>hP w _ (h.apply w) hw

theorem credManagement_keeps (cr : FidoCrypto) (params : Bytes) (hP : OfCredentials P)
    (hdelete : ∀ slot, Keeps P (fido2StorageDeleteCredential slot)) : Keeps P (credManagement cr params):=by
  have fixed : ∀ {β : Type} {m : Ctap β}, Fixes Badge.credentials m→Keeps P m:=fun h=>
    FixesCredentials.keeps h hP
  have encoded : ∀ {m : Ctap Writer}, Fixes Badge.credentials m →
      Keeps P (do orFail .other (← m).output):=fun h=>
    Keeps.bind (fixed h) fun _=>fixed (FixesCredentials.orFail _ _)
  refine Keeps.bind (Keeps.bind (fixed (FixesCredentials.initReader _)) fun _=>Keeps.bind
    (fixed (FixesCredentials.cbor _)) fun _=>fixed (FixesCredentials.orFail _ _)) fun p=>?_
  refine Keeps.bind (fixed (FixesCredentials.authorizeCredMgmt cr p)) fun _=>Keeps.bind (Keeps.gets _) fun _=>?_
  refine Keeps.ite (fun _=>encoded (FixesCredentials.getCredsMetadata _)) fun _=>?_
  refine Keeps.ite (fun _=>encoded (FixesCredentials.enumerateRpsBegin cr _)) fun _=>?_
  refine Keeps.ite (fun _=>encoded (FixesCredentials.enumerateRpsGetNext _)) fun _=>?_
  refine Keeps.ite (fun _=>encoded (FixesCredentials.enumerateCredsBegin cr _ _)) fun _=>?_
  refine Keeps.ite (fun _=>encoded (FixesCredentials.enumerateCredsGetNext cr _)) fun _=>?_
  refine Keeps.ite (fun _=>?_) fun _=>fixed (FixesCredentials.fail _)
  refine Keeps.bind (fixed (FixesCredentials.require _ _)) fun _=>Keeps.bind
    (fixed (Quiet.findSlotByCredId _).credentials) fun _=>Keeps.bind (fixed (FixesCredentials.orFail _ _)) fun slot=>?_
  refine Keeps.bind (Keeps.gets _) fun _=>Keeps.bind (fixed (FixesCredentials.noteAct _ _)) fun _=>?_
  exact Keeps.bind (hdelete slot) fun _=>Keeps.bind (fixed (FixesCredentials.require _ _)) fun _=>Keeps.pure _

theorem reset_keeps (hP : OfCredentials P) (hdelete : ∀ slot, Keeps P (fido2StorageDeleteCredential slot)) :
    Keeps P reset:=by
  have fixed : ∀ {β : Type} {m : Ctap β}, Fixes Badge.credentials m→Keeps P m:=fun h=>
    FixesCredentials.keeps h hP
  refine Keeps.bind (Keeps.gets _) fun _=>Keeps.bind (fixed (FixesCredentials.require _ _)) fun _=>?_
  refine Keeps.bind (fixed Quiet.requireUserPresence.credentials) fun _=>Keeps.bind ?_ fun _=>?_
  · refine Keeps.bind (Keeps.forM fun slot=>Keeps.bind (Keeps.gets _) fun _=>Keeps.when fun _=>hdelete slot) fun _=>?_
    exact Keeps.bind (Keeps.bind (fixed (FixesCredentials.nvsWrite _)) fun _=>Keeps.pure _) fun _=>
      fixed (FixesCredentials.setMinPinFloor _)
  · exact Keeps.bind (fixed (FixesCredentials.updateClientPin _)) fun _=>
      Keeps.bind (fixed (Fixes.modify fun _=>rfl)) fun _=>Keeps.pure _

/-- The commands but makeCredential and the two that assert delete credentials at most. -/
theorem managing_keeps {cr : FidoCrypto} (hP : OfCredentials P)
    (hdelete : ∀ slot, Keeps P (fido2StorageDeleteCredential slot)) {cmd : Bytes}
    (hno : cmd.head?∉[some 0x01,some 0x02,some 0x08]) : Keeps P (ctap2ProcessCommand cr cmd):=by
  have fixed : ∀ {m : Ctap Bytes}, Fixes Badge.credentials m→Keeps P m:=fun h=>FixesCredentials.keeps h hP
  cases cmd with
  | nil=>exact Keeps.stop _
  | cons command params=>
    have hno : command.toNat≠0x01 ∧ command.toNat≠0x02 ∧ command.toNat≠0x08:=by
      simpa [← UInt8.toNat_inj] using hno
    rw [ctap2ProcessCommand]
    split
    · exact absurd ‹_› hno.1
    · exact absurd ‹_› hno.2.1
    · exact fixed FixesCredentials.getInfo
    · exact fixed (FixesCredentials.clientPin cr params)
    · exact reset_keeps hP hdelete
    · exact absurd ‹_› hno.2.2
    · exact credManagement_keeps cr params hP hdelete
    · exact fixed FixesCredentials.selection
    · exact fixed (FixesCredentials.largeBlobs cr params)
    · exact fixed (FixesCredentials.config cr params)
    · exact Keeps.stop _

end CdcBadge.Fido2
