import CdcBadge.Fido2Frames

/-!
# What makeCredential can come to

Either the request ends before a credential is created, with the credentials as they
were, or it passes every check and a credential is created for it.
-/

namespace CdcBadge.Fido2

open Handler Cbor

variable {α : Type}

section Checks

variable (cr : FidoCrypto)

def mcParams (w : Badge) (params : Bytes) : Option MakeCredentialParams:=
  match (readMakeCredentialParams cr w.env.garbage {rest:=params}).1 with
  | .ok p=>if p.hasClientData && p.hasRp && p.hasUser && p.hasAlg then some p else none
  | .error _=>none

/-- The slots that the `appidExclude` extension finds. -/
def MakeCredentialParams.excludes (p : MakeCredentialParams) (s : Storage) : List ℕ:=
  if !p.hasAppidExclude || (cstr p.appidExclude).isEmpty then []
  else s.findByRp (cr.sha256 (cstr p.appidExclude))

def ClientPin.accepts (pin : ClientPin) (permission : UInt8) (rpIdHash clientDataHash : ByteArr 32)
    (protocol : UInt8) (param : Bytes) : Bool:=
  pin.pinTokenValid && pin.permits permission && (!pin.tokenRpIdSet || pin.tokenRpIdHash == rpIdHash) &&
    pinUvAuthParamMatches cr pin.pinToken clientDataHash.toList protocol param

def Badge.readsAlwaysUv (w : Badge) : Bool:=
  match w.env.nvs.headD .done with
  | .done=>w.nvs.alwaysUv.getD 0 != 0
  | _=>false

def MakeCredentialParams.uv (p : MakeCredentialParams) : Bool:=p.pinUvAuthParam.length != 0

/-- The request passes every check that is made before a credential is created. -/
structure Admits (w : Badge) (params : Bytes) (p : MakeCredentialParams) (curve : EccCurve) : Prop where
  parsed : mcParams cr w params=some p
  notExcluded : p.excludes cr w.storage=[]
  authorised : p.uv=true→w.clientPin.accepts cr permMakeCredential p.rpIdHash p.clientDataHash
    p.pinUvAuthProtocol p.pinUvAuthParam=true
  verified : w.readsAlwaysUv=true→p.uv=true
  notProbe : isBrowserProbe p.rpId=false
  supported : curveOfAlg p.alg=some curve
  noUv : p.optionUv=false
  up : p.optionUp=true
  approved : w.env.presence=true

def Badge.core (w : Badge) : Badge:={w with pinVerified:=false}.given {}

def Badge.ahead (w : Badge) : Badge × List SeOutcome × Bool:=(w.core,w.env.se,w.env.presence)

/-- What a run of makeCredential comes to. -/
inductive McRun (w : Badge) (params : Bytes) : Except Halt Bytes × Badge→Prop
  /-- A credential of the appid exists. The list of getNextAssertion is written over. -/
  | excluded (p : MakeCredentialParams) (t : Badge) (hp : mcParams cr w params=some p)
      (hfound : p.excludes cr w.storage≠[]) (ht : t.core=w.core) :
      McRun w params (.error (.status .credentialExcluded),{ t with
        ctap2:={t.ctap2 with assertionCreds:=overwrite (p.excludes cr w.storage) t.ctap2.assertionCreds} })
  /-- Nothing is created. -/
  | ended (r : Except Halt Bytes) (t : Badge) (ht : t.core=w.core)
      (h : ∀ p curve, ¬Admits cr w params p curve) : McRun w params (r,t)
  | admitted (p : MakeCredentialParams) (curve : EccCurve) (t : Badge) (ht : t.ahead=w.ahead)
      (h : Admits cr w params p curve) :
      McRun w params (createCredentialAndRespond cr p p.uv curve t)

end Checks

variable {cr : FidoCrypto} {w t : Badge}

theorem core_storage (h : t.core=w.core) : t.storage=w.storage:=congrArg (·.storage) h

theorem core_clientPin (h : t.core=w.core) : t.clientPin=w.clientPin:=congrArg (·.clientPin) h

theorem core_ctap2 (h : t.core=w.core) : t.ctap2=w.ctap2:=congrArg (·.ctap2) h

theorem ahead_core (h : t.ahead=w.ahead) : t.core=w.core:=congrArg (·.1) h

theorem Quiet.core_eq {m : Ctap α} (h : Quiet m) (w : Badge) : (m w).2.core=w.core:=
  (h.fixes (v:=Badge.core) fun _ _=>rfl).apply w

theorem cbor_eq (m : Read α) (w : Badge) :
    cbor m w=(.ok (m w.env.reader).1.toOption,w.given {w.env with reader:=(m w.env.reader).2}):=by
  unfold Fido2.cbor
  split <;> simp_all [Except.toOption]

theorem parseMakeCredentialParams_cases (cr : FidoCrypto) (w : Badge) (params : Bytes) :
    (∃ s t, parseMakeCredentialParams cr params w=(.error (.status s),t) ∧
      mcParams cr w params=none ∧ t.ahead=w.ahead) ∨
    ∃ p t, parseMakeCredentialParams cr params w=(.ok p,t) ∧
      mcParams cr w params=some p ∧ t.ahead=w.ahead ∧ t.readsAlwaysUv=w.readsAlwaysUv:=by
  unfold parseMakeCredentialParams mcParams initReader updateEnv env
  rw [bind_modify,bind_gets,bind_of_ok (cbor_eq _ _)]
  simp only [Badge.given_env]
  rcases readMakeCredentialParams cr w.env.garbage {rest:=params} with ⟨_ | p,r⟩
  · exact .inl ⟨_,_,rfl,rfl,rfl⟩
  · cases h : p.hasClientData && p.hasRp && p.hasUser && p.hasAlg with
    | false=>exact .inl ⟨.missingParameter,_,bind_require_false h,by simp [h],rfl⟩
    | true=>exact .inr ⟨p,_,bind_require_true h,by simp [h],rfl,rfl⟩

theorem checkAppidExclude_eq (p : MakeCredentialParams) (w : Badge) :
    checkAppidExclude cr p w =
      if p.excludes cr w.storage=[] then (.ok (),w)
      else (.error (.status .credentialExcluded),{ w with ctap2:={ w.ctap2 with
        assertionCreds:=overwrite (p.excludes cr w.storage) w.ctap2.assertionCreds } }):=by
  unfold checkAppidExclude MakeCredentialParams.excludes
  split
  · rfl
  · simp only [bind_gets,updateCtap2,bind_modify,require_apply,List.isEmpty_iff]
    cases h : w.storage.findByRp (cr.sha256 (cstr p.appidExclude)) with
    | nil=>simp [overwrite]
    | cons s l=>simp

theorem verifyPinUvAuthParam_cases (cr : FidoCrypto) (permission : UInt8) (rpIdHash clientDataHash : ByteArr 32)
    (protocol : UInt8) (param : Bytes) (w : Badge) :
    (verifyPinUvAuthParam cr permission rpIdHash clientDataHash protocol param w =
        (.error (.status .pinAuthInvalid),w) ∧
      param.length≠0 ∧ w.clientPin.accepts cr permission rpIdHash clientDataHash protocol param=false) ∨
    ∃ v, verifyPinUvAuthParam cr permission rpIdHash clientDataHash protocol param w =
        (.ok (param.length != 0),{w with pinVerified:=v}) ∧
      (param.length≠0→w.clientPin.accepts cr permission rpIdHash clientDataHash protocol param=true):=by
  unfold verifyPinUvAuthParam ClientPin.accepts
  by_cases hlen : param.length=0
  · exact .inr ⟨w.pinVerified,by simp [hlen],by simp [hlen]⟩
  · simp only [hlen,if_false,bind_gets,ne_eq,not_false_eq_true]
    cases w.clientPin.pinTokenValid
    · simp [bind_apply,require_apply]
    · cases w.clientPin.permits permission
      · simp [bind_apply,require_apply]
      · cases (!w.clientPin.tokenRpIdSet || w.clientPin.tokenRpIdHash == rpIdHash)
        · simp [bind_apply,require_apply]
        · cases pinUvAuthParamMatches cr w.clientPin.pinToken clientDataHash.toList protocol param
          · simp [bind_apply,require_apply]
          · exact .inr ⟨true,by simp [bind_apply,require_apply,hlen],by simp⟩

theorem getAlwaysUv_eq (w : Badge) :
    fido2StorageGetAlwaysUv w=(.ok w.readsAlwaysUv,w.given {w.env with nvs:=w.env.nvs.tail}):=by
  unfold fido2StorageGetAlwaysUv nvsRead nextNvs Badge.readsAlwaysUv
  simp only [env,updateEnv,bind_apply,gets_apply,modify_apply,pure_apply]
  cases w.env.nvs.headD .done <;> rfl

theorem requireUserPresence_eq (w : Badge) :
    requireUserPresence w=if w.env.presence then (.ok (),w) else (.error (.status .operationDenied),w):=by
  unfold requireUserPresence waitForUserPresence env
  rw [bind_gets,require_apply]

theorem Quiet.handleBrowserProbe (p : MakeCredentialParams) (uv : Bool) : Quiet (handleBrowserProbe cr p uv):=
  Quiet.requireUserPresence.bind fun _=>(Quiet.secureRandomFill _).bind fun _=>Quiet.freshSecret.bind fun _=>
    (Quiet.orFail _ _).bind fun _=>(Quiet.require _ _).bind fun _=>Quiet.freshSecret.bind fun _=>
    (Quiet.env _).bind fun _=>Quiet.orFail _ _

theorem makeCredential_rest {p : MakeCredentialParams} {v : Bool} {params : Bytes}
    (hp : mcParams cr w params=some p) (ht : t.ahead=w.ahead) (hex : p.excludes cr w.storage=[])
    (hauth : p.uv=true→w.clientPin.accepts cr permMakeCredential p.rpIdHash p.clientDataHash
      p.pinUvAuthProtocol p.pinUvAuthParam=true)
    (halways : (!(w.readsAlwaysUv && p.pinUvAuthParam.length == 0))=v) :
    McRun cr w params ((do
      require v .pinRequired
      if isBrowserProbe p.rpId then handleBrowserProbe cr p p.uv
      else match curveOfAlg p.alg with
        | none=>fail .unsupportedAlgorithm
        | some curve=>
          require (!p.optionUv) .unsupportedOption
          require p.optionUp .invalidOption
          requireUserPresence
          createCredentialAndRespond cr p p.uv curve : Ctap Bytes) t):=by
  have ended : ∀ {t : Badge} {r}, t.core=w.core→(∀ curve, ¬Admits cr w params p curve) →
      McRun cr w params (r,t):=by
    refine fun ht h=>.ended _ _ ht fun q curve hq=>?_
    obtain rfl : q=p:=by simpa [hp] using hq.parsed.symm
    exact h curve hq
  cases v with
  | false=>
    refine ended (ahead_core ht) fun curve h=>?_
    simp only [Bool.not_eq_false',Bool.and_eq_true,beq_iff_eq] at halways
    have:=h.verified halways.1
    simp [MakeCredentialParams.uv,halways.2] at this
  | true=>
  rw [bind_require_true rfl]
  cases hprobe : isBrowserProbe p.rpId with
  | true=>
    rw [if_pos rfl]
    exact ended (((Quiet.handleBrowserProbe p _).core_eq t).trans (ahead_core ht))
      fun curve h=>absurd hprobe (by simp [h.notProbe])
  | false=>
  rw [if_neg Bool.false_ne_true]
  cases hcurve : curveOfAlg p.alg with
  | none=>exact ended (ahead_core ht) fun curve h=>absurd h.supported (by simp [hcurve])
  | some curve=>
  cases huv : p.optionUv with
  | true=>exact ended (ahead_core ht) fun curve h=>absurd h.noUv (by simp [huv])
  | false=>
  cases hup : p.optionUp with
  | false=>exact ended (ahead_core ht) fun curve h=>absurd h.up (by simp [hup])
  | true=>
  have hrun:=requireUserPresence_eq t
  have hpresence : t.env.presence=w.env.presence:=congrArg (·.2.2) ht
  cases happroved : w.env.presence with
  | false=>
    rw [hpresence.trans happroved] at hrun
    refine (?_ : McRun cr w params ((requireUserPresence >>= _) t))
    rw [bind_of_error hrun]
    exact ended (ahead_core ht) fun curve h=>absurd h.approved (by simp [happroved])
  | true=>
    rw [hpresence.trans happroved] at hrun
    refine (?_ : McRun cr w params ((requireUserPresence >>= _) t))
    rw [bind_of_ok hrun]
    exact .admitted p curve t ht ⟨hp,hex,hauth,fun h=>by simpa [h,MakeCredentialParams.uv] using halways,
      hprobe,hcurve,huv,hup,happroved⟩

theorem makeCredential_run (cr : FidoCrypto) (w : Badge) (params : Bytes) : McRun cr w params (makeCredential cr params w):=by
  unfold makeCredential verifyPinUvAuth
  obtain ⟨s,t,hparse,hp,ht⟩ | ⟨p,t,hparse,hp,ht,hread⟩:=
    parseMakeCredentialParams_cases cr w params
  · rw [bind_of_error hparse]
    exact .ended _ _ (ahead_core ht) fun p curve h=>absurd h.parsed (by simp [hp])
  rw [bind_of_ok hparse]
  by_cases hex : p.excludes cr w.storage=[]
  swap
  · have hrun:=McRun.excluded p t hp hex (ahead_core ht)
    rw [← core_storage (ahead_core ht)] at hex hrun
    rwa [bind_of_error (by rw [checkAppidExclude_eq,if_neg hex])]
  rw [bind_of_ok (by rw [checkAppidExclude_eq,core_storage (ahead_core ht),if_pos hex])]
  obtain ⟨hv,hne,hacc⟩ | ⟨v,hv,hacc⟩:=verifyPinUvAuthParam_cases cr permMakeCredential p.rpIdHash
    p.clientDataHash p.pinUvAuthProtocol p.pinUvAuthParam t
  · rw [bind_of_error hv]
    refine .ended _ _ (ahead_core ht) fun q curve h=>?_
    obtain rfl : q=p:=by simpa [hp] using h.parsed.symm
    have:=h.authorised (by simpa [MakeCredentialParams.uv] using hne)
    rw [← core_clientPin (ahead_core ht),hacc] at this
    cases this
  rw [bind_of_ok hv,bind_of_ok (getAlwaysUv_eq _)]
  rw [core_clientPin (ahead_core ht)] at hacc
  refine makeCredential_rest hp ht hex (fun huv=>hacc (by simpa [MakeCredentialParams.uv] using huv)) ?_
  rw [← hread]
  rfl

end CdcBadge.Fido2
