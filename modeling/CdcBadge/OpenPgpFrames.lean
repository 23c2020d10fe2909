import CdcBadge.OpenPgpCard

/-!
# What the commands of the OpenPGP card leave alone

The security state of a session is the selection, the two verified flags, the session PIN and
the chain. Commands that store data, keys or references leave it as it is.
-/

namespace CdcBadge.OpenPgp

open Handler
open Pin (Pw)

/-- What is kept when the badge, the flash, a pending response or the card's data change, but neither the end of its
life nor the size of the response buffer. -/
structure Quiet (P : Card→Prop) : Prop where
  badge : ∀ c b, P c→P {c with badge:=b}
  env : ∀ c e, e.respMax=c.env.respMax→P c→P {c with env:=e}
  nvs : ∀ c n, P c→P {c with nvs:=n}
  cert : ∀ c x, P c→P {c with cert:=x}
  data : ∀ c d, d.cardTerminated=c.app.cardTerminated→P c→P {c with app:={c.app with toCardData:=d}}
  resp : ∀ c x, P c→P {c with app:={c.app with resp:=x}}

section Quiet

variable {P : Card→Prop} {α : Type} (h : Quiet P) {dev : Device} {cr : GpgCrypto} {f : CardData → CardData}
include h

theorem Quiet.onPins (m : Pin.PinM α) : Keeps P (onPins m):=
  Triple.zoom (P:=fun _=>True) (Q:=fun _ _=>True) (E:=fun _ _=>True) (fun b _=>by
      cases (m b).1 with
      | ok a=>split <;> trivial
      | error e=>split <;> trivial)
    (fun _ _=>trivial) (fun c _ b hc _=>h.badge c b hc) fun c _ b hc _=>h.badge c b hc

theorem Quiet.nextCall : Keeps P nextCall:=fun c hc=>h.env c _ rfl hc

theorem Quiet.nextNvs : Keeps P nextNvs:=fun c hc=>h.env c _ rfl hc

theorem Quiet.nextRandom : Keeps P nextRandom:=fun c hc=>h.env c _ rfl hc

theorem Quiet.nextSecret : Keeps P nextSecret:=fun c hc=>h.env c _ rfl hc

theorem Quiet.nextNonce : Keeps P nextNonce:=fun c hc=>h.env c _ rfl hc

theorem Quiet.seCall (call : Chip Bytes → SeReply α × Chip Bytes) : Keeps P (seCall call):=
  Keeps.bind h.nextCall fun _=>h.onPins _

theorem Quiet.nvsWrite {f : Card → Card} (hf : ∀ c, P c→P (f c)) : Keeps P (nvsWrite f):=by
  apply Keeps.bind h.nextNvs
  intro o
  cases o with
  | done=>exact Keeps.bind (Keeps.modify hf) fun _=>Keeps.pure _
  | failed e applied=>exact Keeps.bind (Keeps.when fun _=>Keeps.modify hf) fun _=>Keeps.pure _
  | powerLost applied=>exact Keeps.bind (Keeps.when fun _=>Keeps.modify hf) fun _=>Keeps.stop _

theorem Quiet.nvsRead (f : Card→Option α) : Keeps P (nvsRead f):=by
  apply Keeps.bind h.nextNvs
  intro o
  cases o with
  | done=>exact Keeps.gets _
  | failed e applied=>exact Keeps.pure _
  | powerLost applied=>exact Keeps.stop _

theorem Quiet.randomFill (n : ℕ) : Keeps P (randomFill n):=Keeps.bind h.nextRandom fun _=>Keeps.pure _

theorem Quiet.updateData (hf : ∀ d, (f d).cardTerminated=d.cardTerminated) :
    Keeps P (updateData f):=
  Keeps.modify fun c hc=>h.data c _ (hf _) hc

omit h in
theorem keeps_buildResponse (data : Bytes) : Keeps P (buildResponse data):=
  Keeps.bind (Keeps.gets _) fun _=>Keeps.pure _

theorem Quiet.saveStateToNvs : Keeps P (saveStateToNvs cr):=by
  apply Keeps.bind (Keeps.gets _)
  intro data
  apply Keeps.bind h.nextNonce
  intro nonce
  apply Keeps.bind (h.seCall _)
  intro reply
  cases reply with
  | error e=>exact Keeps.pure _
  | ok sig=>exact Keeps.bind (h.nvsWrite fun c hc=>h.nvs c _ hc) fun _=>Keeps.pure _

theorem Quiet.savedData (hf : ∀ d, (f d).cardTerminated=d.cardTerminated) (sw : UInt16) :
    Keeps P (do OpenPgp.updateData f; OpenPgp.saveStateToNvs cr; OpenPgp.apduSw sw):=
  Keeps.bind (h.updateData hf) fun _=>Keeps.bind h.saveStateToNvs fun _=>Keeps.pure _

theorem Quiet.deriveStorageKey (slot : ℕ) (pin : Option Bytes) : Keeps P (deriveStorageKey dev cr slot pin):=by
  apply Keeps.bind (h.seCall _)
  intro reply
  cases reply with
  | ok _=>exact Keeps.pure _
  | error _=>exact Keeps.pure _

theorem Quiet.succeeds (call : Chip Bytes → SeReply Unit × Chip Bytes) :
    Keeps P (do
      match ← OpenPgp.seCall call with
      | .ok _=>pure true
      | .error _=>pure false):=by
  apply Keeps.bind (h.seCall _)
  intro reply
  cases reply with
  | ok _=>exact Keeps.pure _
  | error _=>exact Keeps.pure _

theorem Quiet.saveSlotEncrypted (slot : ℕ) (magic payload : Bytes) (pin : Option Bytes) :
    Keeps P (saveSlotEncrypted dev cr slot magic payload pin):=by
  apply Keeps.bind (h.deriveStorageKey _ _)
  intro key
  apply Keeps.bind h.nextRandom
  intro random
  cases random with
  | none=>exact Keeps.pure _
  | some random=>exact Keeps.bind (h.seCall _) fun _=>h.succeeds _

theorem Quiet.rmemRead (slot maxLen : ℕ) : Keeps P (rmemRead dev slot maxLen):=h.seCall _

theorem Quiet.loadSlotDecrypted (slot : ℕ) (magic : Bytes) (len : ℕ) (pin : Option Bytes) :
    Keeps P (loadSlotDecrypted dev cr slot magic len pin):=by
  apply Keeps.bind (h.rmemRead _ _)
  intro reply
  cases reply with
  | error _=>exact Keeps.pure _
  | ok record=>
    apply Keeps.ite (fun _=>Keeps.pure _) fun _=>?_
    apply Keeps.ite (fun _=>Keeps.pure _) fun _=>?_
    exact Keeps.bind (h.deriveStorageKey _ _) fun _=>Keeps.pure _

theorem Quiet.hasRecord (slot skip maxLen : ℕ) (magic : Bytes) : Keeps P (hasRecord dev slot skip maxLen magic):=by
  apply Keeps.bind (h.rmemRead _ _)
  intro reply
  cases reply with
  | error _=>exact Keeps.pure _
  | ok record=>exact Keeps.ite (fun _=>Keeps.pure _) fun _=>Keeps.pure _

theorem Quiet.loadAesKey (pin : Option Bytes) : Keeps P (gpgStorageLoadAesKey dev cr pin):=by
  apply Keeps.bind (h.loadSlotDecrypted _ _ _ _)
  intro payload
  cases payload with
  | none=>exact Keeps.pure _
  | some payload=>exact Keeps.ite (fun _=>Keeps.pure _) fun _=>Keeps.pure _

theorem Quiet.loadDecPrivkey (pin : Option Bytes) : Keeps P (gpgStorageLoadDecPrivkey dev cr pin):=
  Keeps.bind (h.loadSlotDecrypted _ _ _ _) fun _=>Keeps.pure _

theorem Quiet.saveRsaKey (r : Role) (blob : Bytes) (pin : Option Bytes) :
    Keeps P (gpgStorageSaveRsaKey dev cr r blob pin):=by
  apply Keeps.ite (fun _=>Keeps.pure _) fun _=>?_
  apply Keeps.bind (h.deriveStorageKey _ _)
  intro key
  apply Keeps.bind h.nextRandom
  intro random
  cases random with
  | none=>exact Keeps.pure _
  | some random=>
    apply Keeps.bind (h.seCall _) fun _=>?_
    apply Keeps.bind (h.seCall _) fun _=>?_
    apply Keeps.bind (h.seCall _)
    intro reply
    cases reply with
    | error _=>exact Keeps.pure _
    | ok _=>exact Keeps.ite (fun _=>Keeps.pure _) fun _=>h.succeeds _

theorem Quiet.loadRsaKey (r : Role) (pin : Option Bytes) : Keeps P (gpgStorageLoadRsaKey dev cr r pin):=by
  apply Keeps.bind (h.rmemRead _ _)
  intro reply
  cases reply with
  | error _=>exact Keeps.pure _
  | ok first=>
    apply Keeps.ite (fun _=>Keeps.pure _) fun _=>?_
    apply Keeps.ite (fun _=>Keeps.pure _) fun _=>?_
    apply Keeps.bind
    · apply Keeps.ite (fun _=>Keeps.pure _) fun _=>?_
      apply Keeps.bind (h.rmemRead _ _)
      intro reply
      cases reply with
      | error _=>exact Keeps.pure _
      | ok _=>exact Keeps.pure _
    · intro record
      cases record with
      | none=>exact Keeps.pure _
      | some record=>
        apply Keeps.ite (fun _=>Keeps.pure _) fun _=>?_
        apply Keeps.ite (fun _=>Keeps.pure _) fun _=>?_
        apply Keeps.ite (fun _=>Keeps.pure _) fun _=>?_
        exact Keeps.bind (h.deriveStorageKey _ _) fun _=>Keeps.pure _

theorem Quiet.erased (slot : ℕ) : Keeps P (erased slot):=h.succeeds _

theorem Quiet.deleteRsaKey (r : Role) : Keeps P (gpgStorageDeleteRsaKey r):=
  Keeps.bind (h.erased _) fun _=>Keeps.bind (h.erased _) fun _=>Keeps.pure _

omit h in
theorem keeps_retriesReply (pw : Pw) : Keeps P (retriesReply pw):=
  Keeps.bind (Keeps.gets _) fun _=>Keeps.ite (fun _=>Keeps.pure _) fun _=>Keeps.pure _

theorem Quiet.changePw (pw : Pw) (pin : Bytes) : Keeps P (changePw cr pw pin):=by
  cases pw with
  | pw1=>exact h.onPins _
  | pw3=>exact h.onPins _

omit h in
theorem keeps_peekVerifyPin (pw : Pw) (pin : Bytes) : Keeps P (peekVerifyPin cr pw pin):=by
  apply Keeps.bind (Keeps.gets _)
  intro pm
  split
  · exact Keeps.pure _
  · exact Keeps.pure _

theorem Quiet.tryChangePin (pw : Pw) (data : Bytes) (lens : List ℕ) : Keeps P (tryChangePin cr pw data lens):=by
  induction lens with
  | nil=>exact Keeps.pure _
  | cons n lens ih=>
    apply Keeps.bind (keeps_peekVerifyPin _ _) fun _=>?_
    apply Keeps.ite (fun _=>?_) fun _=>ih
    exact Keeps.bind (h.changePw _ _) fun _=>Keeps.ite (fun _=>Keeps.pure _) fun _=>ih

theorem Quiet.changeRaw (pw : Pw) {verified : CardM Bool} (hv : Keeps P verified) (newRaw : Bytes) :
    Keeps P (changeRaw cr pw verified newRaw):=by
  apply Keeps.bind hv fun _=>?_
  apply Keeps.ite (fun _=>?_) fun _=>keeps_retriesReply pw
  exact Keeps.bind (h.onPins _) fun _=>Keeps.ite (fun _=>Keeps.pure _) fun _=>Keeps.pure _

theorem Quiet.changeReferenceData (pw : Pw) (minLen : ℕ) (data : Bytes) :
    Keeps P (changeReferenceData cr pw minLen data):=by
  apply Keeps.bind (Keeps.gets _) fun kdfActive=>?_
  apply Keeps.bind (Keeps.gets _) fun kdfPinLen=>?_
  apply Keeps.ite (fun _=>?_) fun _=>?_
  · exact Keeps.ite (fun _=>Keeps.pure _) fun _=>h.changeRaw pw (h.onPins _) _
  apply Keeps.ite (fun _=>h.changeRaw pw (h.onPins _) _) fun _=>?_
  apply Keeps.ite (fun _=>Keeps.pure _) fun _=>?_
  apply Keeps.bind (Keeps.gets _) fun _=>?_
  apply Keeps.ite (fun _=>Keeps.pure _) fun _=>?_
  apply Keeps.bind (h.onPins _) fun _=>?_
  exact Keeps.bind (h.tryChangePin _ _ _) fun _=>Keeps.ite (fun _=>Keeps.pure _) fun _=>keeps_retriesReply pw

theorem Quiet.cmdChangeReferenceData (c : Cmd) : Keeps P (cmdChangeReferenceData cr c):=by
  apply Keeps.ite (fun _=>Keeps.pure _) fun _=>?_
  apply Keeps.ite (fun _=>h.changeReferenceData _ _ _) fun _=>?_
  exact Keeps.ite (fun _=>h.changeReferenceData _ _ _) fun _=>Keeps.pure _

theorem Quiet.putDataRc (data : Bytes) : Keeps P (putDataRc cr data):=by
  apply Keeps.ite (fun _=>?_) fun _=>?_
  · refine Keeps.bind (Keeps.modify fun c hc=>h.data c _ (by rfl) hc) fun _=>?_
    exact Keeps.bind h.saveStateToNvs fun _=>Keeps.pure _
  apply Keeps.ite (fun _=>Keeps.pure _) fun _=>?_
  apply Keeps.bind (h.randomFill 16) fun salt=>?_
  split
  · exact Keeps.pure _
  · refine Keeps.bind (Keeps.modify fun c hc=>h.data c _ (by rfl) hc) fun _=>?_
    exact Keeps.bind h.saveStateToNvs fun _=>Keeps.pure _

theorem Quiet.setInitial (pw : Pw) (v : Option Bytes) : Keeps P (setInitial cr pw v):=by
  cases v with
  | none=>exact Keeps.pure _
  | some v=>exact Keeps.bind (h.onPins _) fun _=>Keeps.pure _

theorem Quiet.applyKdfDo (data : Bytes) : Keeps P (applyKdfDo cr data):=by
  unfold OpenPgp.applyKdfDo
  split
  · exact Keeps.pure _
  · apply Keeps.ite (fun _=>Keeps.pure _) fun _=>?_
    apply Keeps.ite (fun _=>?_) fun _=>?_
    · refine Keeps.bind (Keeps.modify fun c hc=>h.data c _ (by rfl) hc) fun _=>?_
      apply Keeps.bind (h.changePw _ _) fun _=>?_
      apply Keeps.bind (h.changePw _ _) fun _=>?_
      exact Keeps.bind h.saveStateToNvs fun _=>Keeps.pure _
    · apply Keeps.ite (fun _=>Keeps.pure _) fun _=>?_
      refine Keeps.bind (Keeps.modify fun c hc=>h.data c _ (by rfl) hc) fun _=>?_
      apply Keeps.bind (h.setInitial _ _) fun _=>?_
      apply Keeps.bind (h.setInitial _ _) fun _=>?_
      exact Keeps.bind h.saveStateToNvs fun _=>Keeps.pure _

theorem Quiet.pinStorageReset : Keeps P (pinStorageReset cr):=by
  apply Keeps.bind (h.changePw _ _) fun _=>?_
  apply Keeps.bind (h.changePw _ _) fun _=>?_
  apply Keeps.bind (h.onPins _) fun _=>?_
  exact Keeps.bind (h.onPins _) fun _=>Keeps.pure _

theorem Quiet.eccDelete (r : Role) : Keeps P (eccDelete r):=Keeps.bind (h.seCall _) fun _=>Keeps.pure _

theorem Quiet.saveCardholderCert (data : Bytes) : Keeps P (saveCardholderCert data):=
  h.nvsWrite fun c hc=>h.cert c _ hc

theorem Quiet.wipeRoleKey (r : Role) : Keeps P (wipeRoleKey r):=by
  apply Keeps.bind (h.deleteRsaKey r) fun _=>?_
  have erasedKey : Keeps P gpgStorageDeleteDecPrivkey:=h.erased rmemSlotDecKey
  cases r with
  | sig=>exact Keeps.bind (h.eccDelete _) fun _=>h.updateData fun _=>rfl
  | dec=>exact Keeps.bind erasedKey fun _=>h.updateData fun _=>rfl
  | aut=>exact Keeps.bind (h.eccDelete _) fun _=>h.updateData fun _=>rfl

theorem Quiet.changeAttr (r : Role) (hf : ∀ d, (f d).cardTerminated=d.cardTerminated) :
    Keeps P (changeAttr cr r f):=
  Keeps.bind (h.wipeRoleKey r) fun _=>h.savedData hf _

theorem Quiet.putDataAlgoAttr (r : Role) (data : Bytes) : Keeps P (putDataAlgoAttr cr r data):=by
  unfold OpenPgp.putDataAlgoAttr
  cases algoAttrParse data with
  | none=>exact Keeps.pure _
  | some attr=>
  apply Keeps.ite (fun _=>Keeps.pure _) fun _=>?_
  apply Keeps.ite (fun _=>Keeps.pure _) fun _=>?_
  apply Keeps.bind (Keeps.gets _) fun old=>?_
  cases attr with
  | rsa nBits eBits fmt=>exact Keeps.ite (fun _=>Keeps.pure _) fun _=>h.changeAttr _ fun _=>rfl
  | ecc id curve=>
    apply Keeps.ite (fun _=>?_) fun _=>?_
    · apply Keeps.ite (fun _=>Keeps.pure _) fun _=>?_
      exact Keeps.ite (fun _=>Keeps.pure _) fun _=>h.changeAttr _ fun _=>rfl
    · apply Keeps.bind (Keeps.gets _) fun target=>?_
      exact Keeps.ite (fun _=>Keeps.pure _) fun _=>h.changeAttr _ fun _=>by cases r <;> rfl

theorem Quiet.updateGenerationTimestamp (keyRef : UInt8) : Keeps P (updateGenerationTimestamp cr keyRef):=by
  apply Keeps.bind (Keeps.gets _) fun now=>?_
  split
  · exact Keeps.bind (h.updateData fun _=>rfl) fun _=>h.saveStateToNvs
  · exact h.saveStateToNvs

theorem Quiet.timestamped {stored : CardM Bool} (hs : Keeps P stored) (keyRef : UInt8) {done : CardM Reply}
    (hd : Keeps P done) (sw : UInt16) : Keeps P (do
      if ← stored then
        OpenPgp.updateGenerationTimestamp cr keyRef
        done
      else OpenPgp.apduSw sw):=
  Keeps.bind hs fun _=>
    Keeps.ite (fun _=>Keeps.bind (h.updateGenerationTimestamp _) fun _=>hd) fun _=>Keeps.pure _

theorem Quiet.importRsa (r : Role) (tmpl : Option Bytes) (concat : Bytes) :
    Keeps P (importRsa dev cr r tmpl concat):=by
  apply Keeps.bind (Keeps.gets _) fun nBits=>?_
  cases tmpl with
  | none=>exact Keeps.pure _
  | some tmpl=>
    dsimp only
    split
    · exact Keeps.pure _
    · split
      · exact Keeps.pure _
      · exact h.timestamped (h.saveRsaKey _ _ _) _ (Keeps.pure _) _

theorem Quiet.importEcc (r : Role) (concat : Bytes) : Keeps P (importEcc dev cr r concat):=by
  apply Keeps.ite (fun _=>Keeps.pure _) fun _=>?_
  apply Keeps.bind (Keeps.gets _) fun curve=>?_
  apply h.timestamped _ _ (Keeps.pure _)
  exact Keeps.ite (fun _=>h.saveSlotEncrypted _ _ _ _) fun _=>h.succeeds _

theorem Quiet.cmdPutDataOdd (c : Cmd) : Keeps P (cmdPutDataOdd dev cr c):=by
  apply Keeps.bind (Keeps.gets _) fun _=>?_
  apply Keeps.ite (fun _=>Keeps.pure _) fun _=>?_
  apply Keeps.ite (fun _=>Keeps.pure _) fun _=>?_
  apply Keeps.ite (fun _=>Keeps.pure _) fun _=>?_
  split
  · exact Keeps.pure _
  apply Keeps.ite (fun _=>Keeps.pure _) fun _=>?_
  split
  · exact Keeps.pure _
  split
  · exact Keeps.pure _
  split
  · exact Keeps.pure _
  apply Keeps.ite (fun _=>Keeps.pure _) fun _=>?_
  apply Keeps.bind (Keeps.gets _) fun _=>?_
  exact Keeps.ite (fun _=>h.importRsa _ _ _) fun _=>h.importEcc _ _

theorem Quiet.seGenerate (slot : ℕ) (curve : EccCurve) : Keeps P (seGenerate slot curve):=by
  apply Keeps.bind h.nextSecret fun secret=>?_
  apply Keeps.bind (h.seCall _) fun reply=>?_
  cases reply with
  | ok _=>exact Keeps.pure _
  | error _=>exact Keeps.bind (h.seCall _) fun _=>h.succeeds _

theorem Quiet.generateDecKey : Keeps P (generateDecKey dev cr):=by
  apply Keeps.bind (h.randomFill 32) fun privkey=>?_
  split
  · exact Keeps.pure _
  · apply Keeps.bind (h.saveSlotEncrypted _ _ _ _) fun _=>?_
    exact Keeps.ite (fun _=>Keeps.pure _) fun _=>Keeps.pure _

theorem Quiet.readPublicKey (r : Role) : Keeps P (readPublicKey dev cr r):=by
  apply Keeps.bind (Keeps.gets _) fun stale=>?_
  apply Keeps.ite (fun _=>?_) fun _=>?_
  · apply Keeps.bind (h.hasRecord _ _ _ _) fun _=>?_
    apply Keeps.ite (fun _=>Keeps.pure _) fun _=>?_
    apply Keeps.bind (h.loadDecPrivkey _) fun privkey=>?_
    cases privkey with
    | none=>exact Keeps.pure _
    | some privkey=>exact Keeps.pure _
  · apply Keeps.bind (h.seCall _) fun reply=>?_
    cases reply with
    | error _=>exact Keeps.pure _
    | ok key=>exact Keeps.pure _

theorem Quiet.buildRsaPubkeyFromStorage (r : Role) : Keeps P (buildRsaPubkeyFromStorage dev cr r):=by
  apply Keeps.bind (h.loadRsaKey _ _) fun blob=>?_
  cases blob with
  | none=>exact Keeps.pure _
  | some blob=>
    dsimp only
    split
    · exact Keeps.pure _
    · exact keeps_buildResponse _

theorem Quiet.reportPublicKey (r : Role) : Keeps P (reportPublicKey dev cr r):=by
  apply Keeps.bind (h.readPublicKey _) fun key=>?_
  cases key with
  | none=>exact Keeps.pure _
  | some key=>exact keeps_buildResponse _

theorem Quiet.generateRsa (r : Role) : Keeps P (generateRsa dev cr r):=by
  apply Keeps.bind (Keeps.gets _) fun nBits=>?_
  apply Keeps.bind h.nextSecret fun secret=>?_
  split
  · exact Keeps.pure _
  · exact h.timestamped (h.saveRsaKey _ _ _) _ (h.buildRsaPubkeyFromStorage _) _

theorem Quiet.generateEcc (r : Role) (keyRef : UInt8) : Keeps P (generateEcc dev cr r keyRef):=by
  apply Keeps.bind (Keeps.gets _) fun curve=>?_
  apply Keeps.ite (fun _=>?_) fun _=>?_
  · apply Keeps.bind h.generateDecKey fun point=>?_
    cases point with
    | none=>exact Keeps.pure _
    | some point=>exact Keeps.bind (h.updateGenerationTimestamp _) fun _=>keeps_buildResponse _
  · exact h.timestamped (h.seGenerate _ _) _ (h.reportPublicKey _) _

theorem Quiet.cmdGenerateKeypair (c : Cmd) : Keeps P (cmdGenerateKeypair dev cr c):=by
  apply Keeps.bind (Keeps.gets _) fun isRsa=>?_
  apply Keeps.bind (Keeps.gets _) fun pw3Verified=>?_
  apply Keeps.ite (fun _=>?_) fun _=>?_
  · apply Keeps.ite (fun _=>?_) fun _=>h.buildRsaPubkeyFromStorage _
    exact Keeps.ite (fun _=>Keeps.pure _) fun _=>h.generateRsa _
  · apply Keeps.ite (fun _=>?_) fun _=>h.reportPublicKey _
    exact Keeps.ite (fun _=>Keeps.pure _) fun _=>h.generateEcc _ _

theorem Quiet.rsaSignWith (r : Role) (data : Bytes) : Keeps P (rsaSignWith dev cr r data):=by
  apply Keeps.bind (h.loadRsaKey _ _) fun blob=>?_
  cases blob with
  | none=>exact Keeps.pure _
  | some blob=>
    dsimp only
    split <;> exact Keeps.pure _

theorem Quiet.ecdsaSign (slot : ℕ) (msg : Bytes) : Keeps P (ecdsaSign cr slot msg):=by
  apply Keeps.ite (fun _=>Keeps.pure _) fun _=>?_
  apply Keeps.bind h.nextNonce fun nonce=>?_
  apply Keeps.bind (h.seCall _) fun reply=>?_
  cases reply with
  | error _=>exact Keeps.pure _
  | ok key=>exact Keeps.ite (fun _=>Keeps.pure _) fun _=>Keeps.pure _

theorem Quiet.eddsaSign (slot : ℕ) (msg : Bytes) : Keeps P (eddsaSign cr slot msg):=by
  apply Keeps.ite (fun _=>Keeps.pure _) fun _=>?_
  apply Keeps.bind (h.seCall _) fun reply=>?_
  cases reply with
  | error _=>exact Keeps.pure _
  | ok key=>exact Keeps.ite (fun _=>Keeps.pure _) fun _=>Keeps.pure _

theorem Quiet.eccSignWith (r : Role) (checkLength : Bool) (data : Bytes) :
    Keeps P (eccSignWith cr r checkLength data):=by
  apply Keeps.bind (h.seCall _) fun reply=>?_
  cases reply with
  | error _=>exact Keeps.pure _
  | ok key=>
    apply Keeps.ite (fun _=>Keeps.pure _) fun _=>?_
    apply Keeps.bind (Keeps.ite (fun _=>h.ecdsaSign _ _) fun _=>h.eddsaSign _ _) fun sig=>?_
    cases sig with
    | none=>exact Keeps.pure _
    | some sig=>exact Keeps.pure _

theorem Quiet.cmdPsoCds (c : Cmd) : Keeps P (cmdPsoCds dev cr c):=by
  apply Keeps.bind (Keeps.gets _) fun _=>?_
  apply Keeps.ite (fun _=>Keeps.pure _) fun _=>?_
  apply Keeps.bind (Keeps.gets _) fun isRsa=>?_
  apply Keeps.bind (Keeps.ite (fun _=>h.rsaSignWith _ _) fun _=>h.eccSignWith _ _ _) fun sig=>?_
  cases sig with
  | error sw=>exact Keeps.pure _
  | ok sig=>
    exact Keeps.bind (Keeps.bind (h.updateData fun _=>rfl) fun _=>h.saveStateToNvs) fun _=>keeps_buildResponse _

theorem Quiet.cmdInternalAuthenticate (c : Cmd) : Keeps P (cmdInternalAuthenticate dev cr c):=by
  apply Keeps.ite (fun _=>Keeps.pure _) fun _=>?_
  apply Keeps.bind (Keeps.gets _) fun _=>?_
  apply Keeps.ite (fun _=>Keeps.pure _) fun _=>?_
  apply Keeps.ite (fun _=>Keeps.pure _) fun _=>?_
  apply Keeps.bind (Keeps.gets _) fun isRsa=>?_
  apply Keeps.bind (Keeps.ite (fun _=>h.rsaSignWith _ _) fun _=>h.eccSignWith _ _ _) fun sig=>?_
  cases sig with
  | error sw=>exact Keeps.pure _
  | ok sig=>exact keeps_buildResponse _

theorem Quiet.cmdPsoDecipherAes (data : Bytes) : Keeps P (cmdPsoDecipherAes dev cr data):=by
  apply Keeps.bind (Keeps.gets _) fun respMax=>?_
  apply Keeps.bind (h.hasRecord _ _ _ _) fun _=>?_
  apply Keeps.ite (fun _=>Keeps.pure _) fun _=>?_
  apply Keeps.ite (fun _=>Keeps.pure _) fun _=>?_
  apply Keeps.ite (fun _=>Keeps.pure _) fun _=>?_
  apply Keeps.bind (Keeps.gets _) fun pin=>?_
  apply Keeps.bind (h.loadAesKey _) fun key=>?_
  cases key with
  | none=>exact Keeps.pure _
  | some key=>exact Keeps.ite (fun _=>Keeps.pure _) fun _=>keeps_buildResponse _

theorem Quiet.decipherRsa (data : Bytes) : Keeps P (decipherRsa dev cr data):=by
  apply Keeps.ite (fun _=>Keeps.pure _) fun _=>?_
  apply Keeps.bind (h.loadRsaKey _ _) fun blob=>?_
  cases blob with
  | none=>exact Keeps.pure _
  | some blob=>
    dsimp only
    split
    · exact Keeps.pure _
    · exact keeps_buildResponse _

theorem Quiet.decipherEcdh (data : Bytes) : Keeps P (decipherEcdh dev cr data):=by
  apply Keeps.bind (h.hasRecord _ _ _ _) fun _=>?_
  apply Keeps.ite (fun _=>Keeps.pure _) fun _=>?_
  split
  · exact Keeps.pure _
  · apply Keeps.bind (h.loadDecPrivkey _) fun privkey=>?_
    cases privkey with
    | none=>exact Keeps.pure _
    | some privkey=>
      dsimp only
      split
      · exact Keeps.pure _
      · exact keeps_buildResponse _

theorem Quiet.cmdPsoDecipher (c : Cmd) : Keeps P (cmdPsoDecipher dev cr c):=by
  apply Keeps.bind (Keeps.gets _) fun _=>?_
  apply Keeps.ite (fun _=>Keeps.pure _) fun _=>?_
  apply Keeps.ite (fun _=>Keeps.pure _) fun _=>?_
  apply Keeps.ite (fun _=>h.cmdPsoDecipherAes _) fun _=>?_
  apply Keeps.bind (Keeps.gets _) fun _=>?_
  exact Keeps.ite (fun _=>h.decipherRsa _) fun _=>h.decipherEcdh _

omit h in
theorem keeps_cmdManageSecurityEnv (c : Cmd) : Keeps P (cmdManageSecurityEnv c):=by
  unfold cmdManageSecurityEnv
  apply Keeps.ite (fun _=>Keeps.pure _) fun _=>?_
  split
  · exact Keeps.pure _
  · split
    · exact Keeps.pure _
    · apply Keeps.ite (fun _=>Keeps.pure _) fun _=>?_
      exact Keeps.ite (fun _=>Keeps.pure _) fun _=>Keeps.pure _
    · exact Keeps.pure _

theorem Quiet.eccKeyPresent (r : Role) : Keeps P (eccKeyPresent r):=by
  apply Keeps.bind (h.seCall _) fun reply=>?_
  cases reply with
  | ok _=>exact Keeps.pure _
  | error _=>exact Keeps.pure _

theorem Quiet.keyInfo (r : Role) : Keeps P (keyInfo dev r):=by
  apply Keeps.bind (Keeps.gets _) fun isRsa=>?_
  refine Keeps.bind (Keeps.ite (fun _=>h.hasRecord _ _ _ _) fun _=>?_) fun _=>Keeps.pure _
  exact Keeps.ite (fun _=>h.hasRecord _ _ _ _) fun _=>h.eccKeyPresent _

theorem Quiet.respondChunked (payload : Bytes) (le : ℕ) : Keeps P (respondChunked payload le):=by
  apply Keeps.bind (Keeps.gets _) fun respMax=>?_
  apply Keeps.ite (fun _=>Keeps.pure _) fun _=>?_
  apply Keeps.ite (fun _=>Keeps.pure _) fun _=>?_
  exact Keeps.bind (Keeps.modify fun c hc=>h.resp c _ hc) fun _=>Keeps.pure _

theorem Quiet.cmdGetData (c : Cmd) : Keeps P (cmdGetData dev c):=by
  apply Keeps.ite (fun _=>?_) fun _=>?_
  · apply Keeps.bind (h.keyInfo _) fun _=>?_
    apply Keeps.bind (h.keyInfo _) fun _=>?_
    exact Keeps.bind (h.keyInfo _) fun _=>keeps_buildResponse _
  apply Keeps.ite (fun _=>?_) fun _=>?_
  · apply Keeps.bind (h.nvsRead _) fun cert=>?_
    cases cert with
    | none=>exact Keeps.pure _
    | some cert=>exact Keeps.ite (fun _=>Keeps.pure _) fun _=>h.respondChunked _ _
  · apply Keeps.bind (Keeps.gets _) fun data=>?_
    cases data with
    | none=>exact Keeps.pure _
    | some data=>exact keeps_buildResponse _

theorem Quiet.putSimple (o : SimpleDo) (data : Bytes) : Keeps P (putSimple cr o data):=
  Keeps.ite (fun _=>Keeps.pure _) fun _=>h.savedData (fun _=>by cases o <;> rfl) _

theorem Quiet.putAesKey (data : Bytes) : Keeps P (putAesKey dev cr data):=by
  apply Keeps.ite (fun _=>Keeps.pure _) fun _=>?_
  apply Keeps.bind (Keeps.gets _) fun pin=>?_
  refine Keeps.bind (Keeps.ite (fun _=>Keeps.pure _) fun _=>h.saveSlotEncrypted _ _ _ _) fun _=>?_
  exact Keeps.ite (fun _=>Keeps.pure _) fun _=>Keeps.pure _

theorem Quiet.putCert (data : Bytes) : Keeps P (putCert data):=by
  apply Keeps.ite (fun _=>Keeps.pure _) fun _=>?_
  exact Keeps.bind (h.saveCardholderCert _) fun _=>Keeps.ite (fun _=>Keeps.pure _) fun _=>Keeps.pure _

theorem Quiet.putSex (data : Bytes) : Keeps P (putSex cr data):=by
  unfold OpenPgp.putSex
  split
  · exact h.savedData (fun _=>by rfl) _
  · exact Keeps.pure _

theorem Quiet.cmdPutData (c : Cmd) : Keeps P (cmdPutData dev cr c):=by
  apply Keeps.bind (Keeps.gets _) fun _=>?_
  apply Keeps.ite (fun _=>Keeps.pure _) fun _=>?_
  apply Keeps.ite (fun _=>h.putSex _) fun _=>?_
  apply Keeps.ite (fun _=>h.putDataAlgoAttr _ _) fun _=>?_
  apply Keeps.ite (fun _=>h.putDataAlgoAttr _ _) fun _=>?_
  apply Keeps.ite (fun _=>h.putDataAlgoAttr _ _) fun _=>?_
  apply Keeps.ite (fun _=>h.putDataRc _) fun _=>?_
  apply Keeps.ite (fun _=>h.putAesKey _) fun _=>?_
  apply Keeps.ite (fun _=>Keeps.ite (fun _=>Keeps.pure _) fun _=>h.applyKdfDo _) fun _=>?_
  apply Keeps.ite (fun _=>h.putCert _) fun _=>?_
  split
  · exact h.putSimple _ _
  · exact Keeps.pure _

theorem Quiet.applyResponseChaining (le : ℕ) (r : Reply) : Keeps P (applyResponseChaining le r):=by
  apply Keeps.ite (fun _=>Keeps.pure _) fun _=>?_
  apply Keeps.ite (fun _=>Keeps.pure _) fun _=>?_
  apply Keeps.ite (fun _=>Keeps.pure _) fun _=>?_
  apply Keeps.bind (Keeps.gets _) fun respMax=>?_
  apply Keeps.bind (Keeps.modify fun c hc=>h.resp c _ hc) fun _=>?_
  exact Keeps.ite (fun _=>Keeps.pure _) fun _=>Keeps.pure _

theorem Quiet.cmdGetResponse (c : Cmd) : Keeps P (cmdGetResponse c):=by
  apply Keeps.bind (Keeps.gets _) fun resp=>?_
  apply Keeps.bind (Keeps.gets _) fun respMax=>?_
  apply Keeps.ite (fun _=>Keeps.pure _) fun _=>?_
  apply Keeps.ite (fun _=>Keeps.pure _) fun _=>?_
  exact Keeps.bind (Keeps.modify fun c hc=>h.resp c _ hc) fun _=>Keeps.pure _

/-- The commands that change the security state of a session. -/
def Cmd.speaks (c : Cmd) : Prop:=c.ins=0x20 ∨ c.ins=0x2C ∨ c.ins=0xE6 ∨ c.ins=0x44

theorem Quiet.runCommand {c : Cmd} (hc : ¬c.speaks) : Keeps P (runCommand dev cr c):=by
  unfold Cmd.speaks at hc
  simp only [not_or] at hc
  unfold OpenPgp.runCommand
  apply Keeps.ite (fun _=>h.cmdGetData c) fun _=>?_
  apply Keeps.ite (fun _=>h.cmdPutData c) fun _=>?_
  apply Keeps.ite (fun _=>h.cmdPutDataOdd c) fun _=>?_
  apply Keeps.ite (fun hi=>absurd hi hc.1) fun _=>?_
  apply Keeps.ite (fun _=>h.cmdChangeReferenceData c) fun _=>?_
  apply Keeps.ite (fun hi=>absurd hi hc.2.1) fun _=>?_
  apply Keeps.ite (fun _=>?_) fun _=>?_
  · apply Keeps.ite (fun _=>h.cmdPsoCds c) fun _=>?_
    exact Keeps.ite (fun _=>h.cmdPsoDecipher c) fun _=>Keeps.pure _
  apply Keeps.ite (fun _=>h.cmdInternalAuthenticate c) fun _=>?_
  apply Keeps.ite (fun _=>keeps_cmdManageSecurityEnv c) fun _=>?_
  apply Keeps.ite (fun _=>h.cmdGenerateKeypair c) fun _=>?_
  apply Keeps.ite (fun _=>Keeps.bind (h.randomFill _) fun _=>keeps_buildResponse _) fun _=>?_
  apply Keeps.ite (fun _=>keeps_buildResponse _) fun _=>?_
  apply Keeps.ite (fun hi=>absurd hi hc.2.2.1) fun _=>?_
  exact Keeps.ite (fun hi=>absurd hi hc.2.2.2) fun _=>Keeps.pure _

end Quiet

/-- What is kept, too, when a session begins or ends and no reference is verified in it. -/
structure Lowers (P : Card→Prop) : Prop extends Quiet P where
  lower : ∀ c selected pw1 pw3 pin, (pw1=true → c.app.pw1Verified=true)→(pw3=true → c.app.pw3Verified=true) →
    P c→P { c with app:={ c.app with
      appSelected:=selected,pw1Verified:=pw1,pw3Verified:=pw3,sessionPin:=pin } }
  anyData : ∀ c d, P c→P {c with app:={c.app with toCardData:=d}}
  pending : ∀ c u, P c→P {c with app:={c.app with pendingUserId:=u}}

section Lowers

variable {P : Card→Prop} (h : Lowers P) {dev : Device} {cr : GpgCrypto}
include h

theorem Lowers.unverifyPw1 (d : CardData → CardData) : Keeps P
    (updateApp fun a=>{a with toCardData:=d a.toCardData,pw1Verified:=false}):=
  Keeps.modify fun c hc=>h.anyData _ (d c.app.toCardData) (h.lower c _ false _ _ (by simp) id hc)

theorem Lowers.resetWithRc (data : Bytes) : Keeps P (resetWithRc cr data):=by
  apply Keeps.bind (Keeps.gets _) fun rcLen=>?_
  apply Keeps.bind (Keeps.gets _) fun salt=>?_
  apply Keeps.ite (fun _=>Keeps.pure _) fun _=>?_
  apply Keeps.bind (Keeps.gets _) fun _=>?_
  apply Keeps.ite (fun _=>Keeps.pure _) fun _=>?_
  apply Keeps.ite (fun _=>Keeps.pure _) fun _=>?_
  split
  · exact Keeps.pure _
  apply Keeps.bind (Keeps.gets _) fun _=>?_
  apply Keeps.ite (fun _=>?_) fun _=>?_
  · apply Keeps.bind (h.changePw _ _) fun _=>?_
    apply Keeps.ite (fun _=>?_) fun _=>Keeps.pure _
    apply Keeps.bind (h.onPins _) fun _=>?_
    apply Keeps.bind (h.unverifyPw1 fun d=>{d with rcRetries:=3}) fun _=>?_
    exact Keeps.bind h.saveStateToNvs fun _=>Keeps.pure _
  · apply Keeps.bind (Keeps.modify fun c hc=>h.anyData c _ hc) fun _=>?_
    apply Keeps.bind h.saveStateToNvs fun _=>?_
    exact Keeps.bind (Keeps.gets _) fun _=>Keeps.ite (fun _=>Keeps.pure _) fun _=>Keeps.pure _

theorem Lowers.resetByAdmin (data : Bytes) : Keeps P (resetByAdmin cr data):=by
  apply Keeps.bind (Keeps.gets _) fun _=>?_
  apply Keeps.bind (Keeps.gets _) fun _=>?_
  apply Keeps.ite (fun _=>Keeps.pure _) fun _=>?_
  apply Keeps.ite (fun _=>?_) fun _=>?_
  · apply Keeps.bind (h.onPins _) fun _=>?_
    apply Keeps.ite (fun _=>?_) fun _=>Keeps.pure _
    exact Keeps.bind (h.onPins _) fun _=>Keeps.bind (h.unverifyPw1 id) fun _=>Keeps.pure _
  · apply Keeps.ite (fun _=>Keeps.pure _) fun _=>?_
    apply Keeps.bind (h.changePw _ _) fun _=>?_
    apply Keeps.ite (fun _=>?_) fun _=>Keeps.pure _
    exact Keeps.bind (h.onPins _) fun _=>Keeps.bind (h.unverifyPw1 id) fun _=>Keeps.pure _

theorem Lowers.cmdResetRetryCounter (c : Cmd) : Keeps P (cmdResetRetryCounter cr c):=by
  apply Keeps.ite (fun _=>Keeps.pure _) fun _=>?_
  apply Keeps.ite (fun _=>h.resetWithRc _) fun _=>?_
  exact Keeps.ite (fun _=>h.resetByAdmin _) fun _=>Keeps.pure _

theorem Lowers.unverify (d : CardData → CardData) : Keeps P
    (updateApp fun a=>{a with toCardData:=d a.toCardData,pw1Verified:=false,pw3Verified:=false}):=
  Keeps.modify fun c hc=>h.anyData _ (d c.app.toCardData) (h.lower c _ false false _ (by simp) (by simp) hc)

theorem Lowers.cmdTerminateDf (c : Cmd) : Keeps P (cmdTerminateDf cr c):=by
  apply Keeps.ite (fun _=>Keeps.pure _) fun _=>?_
  apply Keeps.bind (Keeps.gets _) fun _=>?_
  apply Keeps.bind (Keeps.gets _) fun _=>?_
  apply Keeps.bind (Keeps.gets _) fun _=>?_
  apply Keeps.ite (fun _=>Keeps.pure _) fun _=>?_
  apply Keeps.bind (h.unverify fun d=>{d with cardTerminated:=true}) fun _=>?_
  exact Keeps.bind h.saveStateToNvs fun _=>Keeps.pure _

theorem Lowers.openpgpFactoryReset : Keeps P (openpgpFactoryReset cr):=by
  apply Keeps.bind (h.eccDelete _) fun _=>?_
  apply Keeps.bind (h.eccDelete _) fun _=>?_
  apply Keeps.bind (h.erased _) fun _=>?_
  apply Keeps.bind (h.deleteRsaKey _) fun _=>?_
  apply Keeps.bind (h.deleteRsaKey _) fun _=>?_
  apply Keeps.bind (h.deleteRsaKey _) fun _=>?_
  apply Keeps.bind h.pinStorageReset fun _=>?_
  apply Keeps.bind (h.saveCardholderCert _) fun _=>?_
  exact Keeps.bind (h.unverify fun _=>{}) fun _=>h.saveStateToNvs

theorem Lowers.cmdActivateFile (c : Cmd) : Keeps P (cmdActivateFile cr c):=by
  apply Keeps.ite (fun _=>Keeps.pure _) fun _=>?_
  apply Keeps.bind (Keeps.gets _) fun _=>?_
  apply Keeps.ite (fun _=>Keeps.pure _) fun _=>?_
  exact Keeps.bind h.openpgpFactoryReset fun _=>Keeps.pure _

theorem Lowers.cmdSelect (data : Bytes) : Keeps P (cmdSelect data):=by
  apply Keeps.ite (fun _=>?_) fun _=>?_
  · apply Keeps.bind (Keeps.modify fun c hc=>h.lower c _ _ _ _ (by simp) (by simp) hc) fun _=>?_
    exact Keeps.bind (Keeps.modify fun c hc=>h.lower c _ _ _ _ id id hc) fun _=>Keeps.pure _
  · apply Keeps.bind (Keeps.gets _) fun _=>?_
    refine Keeps.bind (Keeps.when fun _=>?_) fun _=>Keeps.pure _
    exact Keeps.modify fun c hc=>h.lower c _ _ _ _ id id hc

theorem Lowers.setKeyFingerprint (r : Role) (fp : ByteArr 20) (time : UInt32) :
    Keeps P (openpgpSetKeyFingerprint cr r fp time):=
  Keeps.bind (h.updateData fun _=>rfl) fun _=>h.saveStateToNvs

theorem Lowers.setCardholderName (name : Bytes) : Keeps P (openpgpSetCardholderName cr name):=
  Keeps.bind (h.updateData fun _=>rfl) fun _=>h.saveStateToNvs

theorem Lowers.seGetPubkey (r : Role) : Keeps P (seGetPubkey r):=by
  apply Keeps.bind (h.seCall _) fun reply=>?_
  cases reply with
  | ok key=>exact Keeps.pure _
  | error _=>exact Keeps.pure _

theorem Lowers.publishKeys (dec : ByteArr 64) : Keeps P (publishKeys cr dec):=by
  apply Keeps.bind (Keeps.gets _) fun _=>?_
  apply Keeps.bind (h.seGetPubkey _) fun sig=>?_
  cases sig with
  | none=>exact Keeps.pure _
  | some sig=>
    apply Keeps.bind (h.seGetPubkey _) fun aut=>?_
    cases aut with
    | none=>exact Keeps.pure _
    | some aut=>
      apply Keeps.bind (h.setKeyFingerprint _ _ _) fun _=>?_
      apply Keeps.bind (h.setKeyFingerprint _ _ _) fun _=>?_
      apply Keeps.bind (h.setKeyFingerprint _ _ _) fun _=>?_
      apply Keeps.bind (Keeps.gets _) fun _=>?_
      apply Keeps.bind (Keeps.when fun _=>h.setCardholderName _) fun _=>?_
      exact Keeps.bind (Keeps.modify fun c hc=>h.pending c _ hc) fun _=>Keeps.pure _

theorem Lowers.gpgGenerateKey (curve : EccCurve) : Keeps P (gpgGenerateKey dev cr curve):=by
  apply Keeps.bind (Keeps.gets _) fun _=>?_
  apply Keeps.ite (fun _=>Keeps.pure _) fun _=>?_
  apply Keeps.bind (h.seGenerate _ _) fun _=>?_
  apply Keeps.ite (fun _=>Keeps.pure _) fun _=>?_
  apply Keeps.bind (h.seGenerate _ _) fun _=>?_
  apply Keeps.ite (fun _=>Keeps.pure _) fun _=>?_
  apply Keeps.bind (h.eccDelete _) fun _=>?_
  apply Keeps.bind h.generateDecKey fun dec=>?_
  cases dec with
  | none=>exact Keeps.pure _
  | some dec=>exact h.publishKeys dec

theorem Lowers.gpgSetPendingUserId (userId : Bytes) : Keeps P (gpgSetPendingUserId userId):=by
  apply Keeps.ite (fun _=>Keeps.pure _) fun _=>?_
  exact Keeps.bind (Keeps.modify fun c hc=>h.pending c _ hc) fun _=>Keeps.pure _

theorem Lowers.gpgReset : Keeps P (gpgReset cr):=by
  apply Keeps.bind h.openpgpFactoryReset fun _=>?_
  exact Keeps.bind (Keeps.modify fun c hc=>h.pending c _ hc) fun _=>Keeps.pure _

theorem Lowers.verifyStateSignature (data : CardData) (sig : ByteArr 64) :
    Keeps P (verifyStateSignature cr data sig):=by
  apply Keeps.bind (h.seCall _) fun reply=>?_
  cases reply with
  | error _=>exact Keeps.pure _
  | ok key=>exact Keeps.ite (fun _=>Keeps.pure _) fun _=>Keeps.pure _

theorem Lowers.openpgpInit : Keeps P (openpgpInit cr):=by
  apply Keeps.bind (h.onPins _) fun _=>?_
  apply Keeps.bind (h.nvsRead _) fun record=>?_
  cases record with
  | none=>exact Keeps.pure _
  | some record=>
    apply Keeps.ite (fun _=>Keeps.pure _) fun _=>?_
    apply Keeps.bind (h.verifyStateSignature _ _) fun _=>?_
    exact Keeps.ite (fun _=>Keeps.modify fun c hc=>h.anyData c _ hc) fun _=>Keeps.pure _

theorem Lowers.menu {op : CardOp} (hapdu : ∀ raw, op≠.apdu raw) (hdeselect : op≠.deselect) :
    Keeps P (op.run dev cr):=by
  cases op with
  | apdu raw=>exact absurd rfl (hapdu raw)
  | deselect=>exact absurd rfl hdeselect
  | generateKey curve=>exact Keeps.bind (h.gpgGenerateKey _) fun _=>Keeps.pure _
  | setPendingUserId userId=>exact Keeps.bind (h.gpgSetPendingUserId _) fun _=>Keeps.pure _
  | reset=>exact Keeps.bind h.gpgReset fun _=>Keeps.pure _
  | powerOn=>exact Keeps.bind h.openpgpInit fun _=>Keeps.pure _
  | powerOff=>exact Keeps.stop _

theorem Lowers.cmdVerify {c : Cmd}
    (hpw1 : c.p2=pw1Code1 ∨ c.p2=pw1Code2 → ∀ pin, Keeps P (updateApp fun a=>{a with pw1Verified:=true,sessionPin:=pin}))
    (hpw3 : c.p2=pw3Code → Keeps P (updateApp fun a=>{a with pw3Verified:=true})) : Keeps P (cmdVerify cr c):=by
  apply Keeps.ite (fun hp=>?_) fun _=>?_
  · apply Keeps.ite (fun _=>keeps_retriesReply _) fun _=>?_
    apply Keeps.bind (Keeps.gets _) fun _=>?_
    apply Keeps.ite (fun _=>?_) fun _=>?_
    · apply Keeps.bind (h.onPins _) fun _=>?_
      exact Keeps.ite (fun _=>Keeps.bind (hpw1 hp _) fun _=>Keeps.pure _) fun _=>keeps_retriesReply _
    · apply Keeps.ite (fun _=>Keeps.pure _) fun _=>?_
      apply Keeps.bind (h.onPins _) fun _=>?_
      exact Keeps.ite (fun _=>Keeps.bind (hpw1 hp _) fun _=>Keeps.pure _) fun _=>keeps_retriesReply _
  apply Keeps.ite (fun hp=>?_) fun _=>Keeps.pure _
  apply Keeps.ite (fun _=>keeps_retriesReply _) fun _=>?_
  apply Keeps.bind (Keeps.gets _) fun _=>?_
  apply Keeps.ite (fun _=>?_) fun _=>?_
  · apply Keeps.bind (h.onPins _) fun _=>?_
    exact Keeps.ite (fun _=>Keeps.bind (hpw3 hp) fun _=>Keeps.pure _) fun _=>keeps_retriesReply _
  · apply Keeps.ite (fun _=>Keeps.pure _) fun _=>?_
    apply Keeps.bind (h.onPins _) fun _=>?_
    exact Keeps.ite (fun _=>Keeps.bind (hpw3 hp) fun _=>Keeps.pure _) fun _=>keeps_retriesReply _

variable {c : Cmd} (hverify : c.ins=0x20 → Keeps P (OpenPgp.cmdVerify cr c))
include hverify

theorem Lowers.runCommand : Keeps P (runCommand dev cr c):=by
  by_cases hc : c.speaks
  · obtain ⟨ins,p1,p2,data,le⟩:=c
    unfold Cmd.speaks at hc
    rcases hc with rfl | rfl | rfl | rfl
    · exact hverify rfl
    · exact h.cmdResetRetryCounter _
    · exact h.cmdTerminateDf _
    · exact h.cmdActivateFile _
  · exact h.toQuiet.runCommand hc

theorem Lowers.dispatch : Keeps P (dispatch dev cr c):=by
  apply Keeps.ite (fun _=>h.cmdSelect _) fun _=>?_
  apply Keeps.bind (Keeps.gets _) fun _=>?_
  apply Keeps.ite (fun _=>Keeps.pure _) fun _=>?_
  apply Keeps.bind (Keeps.gets _) fun _=>?_
  apply Keeps.ite (fun _=>Keeps.pure _) fun _=>?_
  apply Keeps.ite (fun _=>h.cmdGetResponse c) fun _=>?_
  exact Keeps.bind (h.runCommand hverify) fun _=>h.applyResponseChaining _ _

end Lowers

/-- What is kept, too, when references are verified. -/
structure Still (P : Card→Prop) : Prop extends Quiet P where
  session : ∀ c selected pw1 pw3 pin, P c→P { c with app:={ c.app with
    appSelected:=selected,pw1Verified:=pw1,pw3Verified:=pw3,sessionPin:=pin } }
  anyData : ∀ c d, P c→P {c with app:={c.app with toCardData:=d}}
  pending : ∀ c u, P c→P {c with app:={c.app with pendingUserId:=u}}

section Still

variable {P : Card→Prop} (h : Still P) {dev : Device} {cr : GpgCrypto}
include h

theorem Still.lowers : Lowers P where
  toQuiet:=h.toQuiet
  lower c _ _ _ _ _ _:=h.session c _ _ _ _
  anyData:=h.anyData
  pending:=h.pending

theorem Still.cmdVerify (c : Cmd) : Keeps P (cmdVerify cr c):=
  h.lowers.cmdVerify (fun _ _=>Keeps.modify fun c hc=>h.session c _ _ _ _ hc) fun _=>
    Keeps.modify fun c hc=>h.session c _ _ _ _ hc

variable (dev cr) in
theorem Still.runCommand (c : Cmd) : Keeps P (runCommand dev cr c):=h.lowers.runCommand fun _=>h.cmdVerify c

theorem Still.dispatch (c : Cmd) : Keeps P (dispatch dev cr c):=h.lowers.dispatch fun _=>h.cmdVerify c

end Still

end CdcBadge.OpenPgp
