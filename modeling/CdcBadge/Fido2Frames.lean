import CdcBadge.Fido2Commands

/-!
# What the operations leave alone

Most operations only read: they change nothing but what is left of the outcomes and
random values. The others are followed by what they do to the credentials.
-/

namespace CdcBadge.Fido2

open Handler Cbor

variable {α β V : Type} {m : Ctap α}

theorem require_apply (b : Bool) (s : Status) (w : Badge) :
    require b s w=if b then (.ok (),w) else (.error (.status s),w):=by
  cases b <;> rfl

theorem bind_require_true {b : Bool} {s : Status} {k : Unit → Ctap α} {w : Badge} (h : b=true) :
    (require b s >>= k) w=k () w:=by
  subst h; rfl

theorem bind_require_false {b : Bool} {s : Status} {k : Unit → Ctap α} {w : Badge} (h : b=false) :
    (require b s >>= k) w=(.error (.status s),w):=by
  subst h; rfl

def Badge.memory (w : Badge) : Badge:=w.given {}

/-- A handler that changes nothing but what is left of the outcomes. -/
def Quiet (m : Ctap α) : Prop:=Fixes Badge.memory m

/-- What is left of the outcomes has no part in it. -/
def EnvFree (v : Badge→V) : Prop:=∀ (w : Badge) e, v (w.given e)=v w

theorem Quiet.exists_env (h : Quiet m) (w : Badge) : ∃ e, (m w).2=w.given e:=by
  refine ⟨(m w).2.env,?_⟩
  calc (m w).2=(m w).2.memory.given (m w).2.env:=rfl
    _=w.memory.given (m w).2.env:=by rw [h.apply w]
    _=w.given (m w).2.env:=rfl

theorem Quiet.of_exists_env (h : ∀ w, ∃ e, (m w).2=w.given e) : Quiet m:=by
  refine fun x=>keeps_iff.mpr fun w hw=>?_
  obtain ⟨e,he⟩:=h w
  rw [he,← hw]
  rfl

theorem Quiet.fixes (h : Quiet m) {v : Badge→V} (hv : EnvFree v) : Fixes v m:=by
  refine fun x=>keeps_iff.mpr fun w hw=>?_
  obtain ⟨e,he⟩:=h.exists_env w
  rw [he,hv,hw]

theorem Quiet.keeps (h : Quiet m) {P : Badge→Prop} (hP : EnvFree P) : Keeps P m:=by
  refine keeps_iff.mpr fun w hw=>?_
  obtain ⟨e,he⟩:=h.exists_env w
  rw [he,hP]
  exact hw

namespace Quiet

theorem pure (a : α) : Quiet (pure a):=Fixes.pure a

theorem stop (e : Halt) : Quiet (stop e : Ctap α):=Fixes.stop e

theorem gets (f : Badge → α) : Quiet (gets f):=Fixes.gets f

theorem env (f : Env → α) : Quiet (env f):=Fixes.gets _

theorem updateEnv (f : Env → Env) : Quiet (updateEnv f):=Fixes.modify fun _=>rfl

theorem initReader (params : Bytes) : Quiet (initReader params):=updateEnv _

theorem require (b : Bool) (s : Status) : Quiet (require b s):=Fixes.check b _

theorem requireWord (b : Bool) (sw : UInt16) : Quiet (requireWord b sw):=Fixes.check b _

theorem orFail (s : Status) (o : Option α) : Quiet (orFail s o):=by
  cases o with
  | none=>exact stop _
  | some a=>exact pure a

theorem orFailWord (sw : UInt16) (o : Option α) : Quiet (orFailWord sw o):=by
  cases o with
  | none=>exact stop _
  | some a=>exact pure a

theorem bind {k : α → Ctap β} (hm : Quiet m) (hk : ∀ a, Quiet (k a)) : Quiet (m >>= k):=
  Fixes.bind hm hk

theorem cbor (m : Read α) : Quiet (cbor m):=by
  refine of_exists_env fun w=>?_
  unfold Fido2.cbor
  split <;> exact ⟨_,rfl⟩

theorem seCall {call : Chip RmemContent → SeReply α × Chip RmemContent} (hc : ∀ c, (call c).2=c) :
    Quiet (seCall call):=by
  refine of_exists_env fun w=>?_
  have hchip : (Chip.perform (w.env.se.headD .done) call w.chip).2=w.chip:=by
    rw [Chip.perform_chip,hc,ite_self]
  unfold Fido2.seCall
  generalize Chip.perform (w.env.se.headD .done) call w.chip=r at hchip
  obtain ⟨reply,c⟩:=r
  obtain rfl : c=w.chip:=hchip
  cases reply <;> exact ⟨_,rfl⟩

theorem freshSecret : Quiet freshSecret:=
  bind (env _) fun _=>bind (updateEnv _) fun _=>pure _

theorem secureRandomFill (n : ℕ) : Quiet (secureRandomFill n):=
  bind (env _) fun _=>bind (updateEnv _) fun _=>pure _

theorem nextNvs : Quiet nextNvs:=
  bind (env _) fun _=>bind (updateEnv _) fun _=>pure _

theorem getRandom (n : ℕ) : Quiet (getRandom n):=by
  refine bind (seCall fun _=>rfl) fun reply=>?_
  cases reply with
  | error e=>exact pure _
  | ok u=>exact bind (env _) fun _=>bind (updateEnv _) fun _=>pure _

theorem nvsRead (f : Nvs→Option α) : Quiet (nvsRead f):=by
  refine bind nextNvs fun o=>?_
  cases o with
  | done=>exact gets _
  | notOpened=>exact pure _
  | failed applied=>exact pure _

theorem readRmemCredential (slot : ℕ) : Quiet (readRmemCredential slot):=by
  refine bind (seCall (Chip.rmemRead_chip _)) fun reply=>?_
  split <;> exact pure _

theorem getAlwaysUv : Quiet fido2StorageGetAlwaysUv:=bind (nvsRead _) fun _=>pure _

theorem getMinPinLen : Quiet fido2StorageGetMinPinLen:=bind (nvsRead _) fun _=>pure _

theorem getCredId (slot : ℕ) : Quiet (fido2StorageGetCredId slot):=by
  refine bind (gets _) fun s=>?_
  split
  · exact pure _
  · refine bind (readRmemCredential slot) fun stored=>?_
    cases stored <;> exact pure _

theorem findSlotByCredId (credId : Bytes) : Quiet (fido2StorageFindSlotByCredId credId):=by
  unfold fido2StorageFindSlotByCredId
  split
  · exact pure _
  · refine bind (getCredId _) fun id=>?_
    cases id <;> exact pure _

theorem getUser (slot : ℕ) : Quiet (fido2StorageGetUser slot):=by
  refine bind (gets _) fun s=>?_
  split
  · exact pure _
  · refine bind (readRmemCredential slot) fun stored=>?_
    cases stored <;> exact pure _

theorem getCredential (slot : ℕ) : Quiet (fido2StorageGetCredential slot):=by
  refine bind (gets _) fun s=>?_
  split
  · exact pure _
  · refine bind (getUser slot) fun user=>?_
    cases user <;> exact pure _

theorem getPubkey (cr : FidoCrypto) (slot : ℕ) : Quiet (fido2StorageGetPubkey cr slot):=by
  unfold fido2StorageGetPubkey
  split
  · exact pure _
  · refine bind (seCall (Chip.eccGetPublicKey_chip _)) fun reply=>?_
    cases reply with
    | error e=>exact pure _
    | ok u=>
      refine bind (seCall (Chip.eccGetPublicKey_chip _)) fun reply=>?_
      cases reply <;> exact pure _

theorem waitForUserPresence : Quiet waitForUserPresence:=env _

theorem requireUserPresence : Quiet requireUserPresence:=bind waitForUserPresence fun _=>require _ _

theorem verifyTokenOverMessage (cr : FidoCrypto) (message : Bytes) (protocol : UInt8) (param : Bytes)
    (perm : UInt8) : Quiet (verifyTokenOverMessage cr message protocol param perm):=
  bind (gets _) fun _=>bind (require _ _) fun _=>bind (require _ _) fun _=>require _ _

end Quiet

end CdcBadge.Fido2
