import CdcBadge.Requests
import CdcBadge.SavedAssertions

/-!
# The hash of an RP id

Three parsers copy the text of the RP id into buffers of their own and hash what they kept of it, up to its
first NUL. The hash is that of the text where nothing was cut off.
-/

namespace CdcBadge.Fido2

open Handler Cbor

def ClientPin.boundTo (pin : ClientPin) : Option (ByteArr 32):=if pin.tokenRpIdSet then some pin.tokenRpIdHash else none

/-- The requests that carry the text of an RP id. -/
inductive RpRequest
  | makeCredential (params : Bytes)
  | getAssertion (params : Bytes)
  | getPinUvAuthToken (params : Bytes)

namespace RpRequest

/-- The size of the buffer that the parser copies the text to, as it tells the copy. -/
def bufferSize : RpRequest → ℕ
  | makeCredential _=>rpIdMaxLen
  | getAssertion _=>rpIdMaxLen
  | getPinUvAuthToken _=>64-1

def asksForToken : RpRequest→Bool
  | getPinUvAuthToken _=>true
  | _=>false

def kept (r : RpRequest) (text : Bytes) : Bytes:=cstr (copyText r.bufferSize text)

def hashOfKept (cr : FidoCrypto) (r : RpRequest) (text : Bytes) : Option (ByteArr 32):=
  if r.asksForToken && (r.kept text).isEmpty then none else some (cr.sha256 (r.kept text))

/-- The text of the RP id that a request gives last, and the hash that the firmware goes by from then on: the
one among the parameters of the request, or the one that the new token is bound to. -/
def names (cr : FidoCrypto) (w : Badge) : RpRequest→Option (Bytes × Option (ByteArr 32))
  | makeCredential params=>(mcParams cr w params).bind fun p=>p.rpIdText.map fun text=>(text,some p.rpIdHash)
  | getAssertion params=>(gaParseParams cr params w).1.toOption.bind fun p=>
    p.rpIdText.map fun text=>(text,some p.rpIdHash)
  | getPinUvAuthToken params=>(clientPinGetPinUvAuthToken cr params w).1.toOption.bind fun _=>
    let pin:=(clientPinGetPinUvAuthToken cr params w).2.clientPin
    pin.grant.rpId.map fun text=>(text,pin.boundTo)

/-- The text has no NUL, leaves room for the terminator, and is not empty where it is to bind a token. -/
def Fits (r : RpRequest) (text : Bytes) : Prop:=
  (0 : UInt8) ∉ text ∧ text.length < r.bufferSize ∧ (r.asksForToken=true→text≠[])

def Collides (cr : FidoCrypto) (r : RpRequest) (text : Bytes) : Prop:=
  r.kept text≠text ∧ (r.asksForToken=true → r.kept text≠[]) ∧ cr.sha256 (r.kept text)=cr.sha256 text

end RpRequest

section Yields

variable {ε σ α β : Type}

/-- From every state, what the handler returns has the property. -/
def Yields (Q : α→Prop) (m : Handler ε σ α) : Prop:=∀ s a t, m s=(.ok a,t)→Q a

variable {P Q : α→Prop} {R : β→Prop}

theorem Yields.pure {a : α} (h : Q a) : Yields Q (pure a : Handler ε σ α):=by
  intro s b t hb
  cases hb
  exact h

theorem Yields.stop (e : ε) : Yields Q (stop e : Handler ε σ α):=by
  intro s a t h
  cases h

theorem Yields.any (m : Handler ε σ α) : Yields (fun _=>True) m:=fun _ _ _ _=>trivial

theorem Yields.bind {m : Handler ε σ α} {k : α→Handler ε σ β} (hm : Yields P m) (hk : ∀ a, P a→Yields R (k a)) :
    Yields R (m >>= k):=by
  intro s b t h
  obtain ⟨a,u,ha,hb⟩:=bind_ok.mp h
  exact hk a (hm s a u ha) u b t hb

theorem Yields.after {m : Handler ε σ α} {k : α→Handler ε σ β} (hk : ∀ a, Yields R (k a)) : Yields R (m >>= k):=
  (Yields.any m).bind fun a _=>hk a

theorem Yields.ite {c : Prop} [Decidable c] {m n : Handler ε σ α} (hm : Yields Q m) (hn : Yields Q n) :
    Yields Q (if c then m else n):=by
  split
  · exact hm
  · exact hn

theorem Yields.iterate {body : α→Handler ε σ α} (h : ∀ a, Q a→Yields Q (body a)) (n : ℕ) {a : α} (ha : Q a) :
    Yields Q (iterate n body a):=by
  induction n generalizing a with
  | zero=>exact Yields.pure ha
  | succ n ih=>exact (h a ha).bind fun b hb=>ih hb

end Yields

section Maps

variable {α : Type} {I : α→Prop}

theorem yields_ignore {a : α} (ha : I a) : Yields I (ignore a):=Yields.after fun _=>Yields.pure ha

theorem yields_textMap {keyLen : ℕ} {value : Bytes → α→Read α} (h : ∀ key a, I a→Yields I (value key a)) {a : α}
    (ha : I a) : Yields I (textMap keyLen value a):=by
  refine Yields.after fun count=>Yields.ite (Yields.stop _) (Yields.iterate (fun a ha=>?_) _ ha)
  refine Yields.after fun key=>?_
  cases key with
  | none=>exact Yields.after fun _=>Yields.pure ha
  | some key=>exact h (cstr key) a ha

theorem yields_cbor {m : Read α} (h : Yields I m) : Yields (fun o=>∀ a, o=some a → I a) (cbor m):=by
  intro w o t ht a ha
  unfold cbor at ht
  cases hm : m w.env.reader with
  | mk result r=>
    rw [hm] at ht
    cases result with
    | error e=>
      cases ht
      cases ha
    | ok b=>
      cases ht
      cases ha
      exact h _ _ _ hm

theorem yields_orFail {o : Option α} {s : Status} (h : ∀ a, o=some a → I a) : Yields I (orFail s o):=by
  cases o with
  | none=>exact Yields.stop _
  | some a=>exact Yields.pure (h a rfl)

end Maps

section Parsers

variable (cr : FidoCrypto)

def HashedBy (rpId : Bytes) (rpIdHash : ByteArr 32) (rpIdText : Option Bytes) : Prop:=
  ∀ text, rpIdText=some text → rpId=copyText rpIdMaxLen text ∧ rpIdHash=cr.sha256 (cstr rpId)

def MakeCredentialParams.Hashed (p : MakeCredentialParams) : Prop:=HashedBy cr p.rpId p.rpIdHash p.rpIdText

def GetAssertionParams.Hashed (p : GetAssertionParams) : Prop:=HashedBy cr p.rpId p.rpIdHash p.rpIdText

variable {cr}

section MakeCredential

variable {p : MakeCredentialParams} (h : p.Hashed cr)

include h

theorem yields_parseRpMap : Yields (MakeCredentialParams.Hashed cr) (parseRpMap cr p):=by
  refine yields_textMap (fun key p hp=>Yields.ite ?_ (yields_ignore hp)) h
  refine Yields.after fun text=>Yields.pure fun t ht=>?_
  cases text with
  | none=>exact ⟨(hp t ht).1,rfl⟩
  | some text=>
    cases ht
    exact ⟨rfl,rfl⟩

theorem yields_parseUserMap (garbage : UInt8) : Yields (MakeCredentialParams.Hashed cr) (parseUserMap garbage p):=by
  refine yields_textMap (fun key p hp=>Yields.ite ?_ (Yields.ite ?_ (yields_ignore hp))) h
  · refine Yields.after fun id=>?_
    cases id <;> exact Yields.pure hp
  · refine Yields.after fun name=>?_
    cases name <;> exact Yields.pure hp

theorem yields_parsePubkeyCredParams : Yields (MakeCredentialParams.Hashed cr) (parsePubkeyCredParams p):=by
  refine Yields.after fun count=>Yields.ite (Yields.stop _) (Yields.iterate (fun p hp=>?_) _ h)
  exact Yields.after fun alg=>Yields.ite (Yields.pure hp) (Yields.pure hp)

theorem yields_parseExtensionsMap : Yields (MakeCredentialParams.Hashed cr) (parseExtensionsMap p):=by
  refine yields_textMap (fun key p hp=>Yields.ite ?_ (Yields.ite ?_ (yields_ignore hp))) h
  · refine Yields.after fun text=>?_
    cases text <;> exact Yields.pure hp
  · refine Yields.after fun level=>?_
    cases level with
    | none=>exact Yields.pure hp
    | some level=>exact Yields.ite (Yields.pure hp) (Yields.pure hp)

theorem yields_parseOptionsMap : Yields (MakeCredentialParams.Hashed cr) (parseOptionsMap p):=by
  refine yields_textMap (fun key p hp=>?_) h
  exact Yields.ite (Yields.after fun _=>Yields.pure hp) <| Yields.ite (Yields.after fun _=>Yields.pure hp) <|
    Yields.ite (Yields.after fun _=>Yields.pure hp) (yields_ignore hp)

theorem yields_parseMakeCredentialParam (garbage : UInt8) :
    Yields (MakeCredentialParams.Hashed cr) (parseMakeCredentialParam cr garbage p):=by
  refine Yields.after fun key=>?_
  split
  · exact Yields.after fun hash=>Yields.ite (Yields.pure h) (Yields.stop _)
  · exact yields_parseRpMap h
  · exact yields_parseUserMap h garbage
  · exact yields_parsePubkeyCredParams h
  · exact yields_parseExtensionsMap h
  · exact yields_parseOptionsMap h
  · refine Yields.after fun param=>?_
    cases param <;> exact Yields.pure h
  · refine Yields.after fun protocol=>?_
    cases protocol <;> exact Yields.pure h
  · exact yields_ignore h

end MakeCredential

theorem yields_readMakeCredentialParams (garbage : UInt8) :
    Yields (MakeCredentialParams.Hashed cr) (readMakeCredentialParams cr garbage):=by
  refine Yields.after fun count=>Yields.ite (Yields.stop _) ?_
  exact Yields.iterate (fun p hp=>yields_parseMakeCredentialParam hp garbage) _ (by intro text ht; cases ht)

section GetAssertion

variable {p : GetAssertionParams} (h : p.Hashed cr)

include h

theorem yields_gaParseExtensions : Yields (GetAssertionParams.Hashed cr) (gaParseExtensions cr p):=by
  refine yields_textMap (fun key p hp=>Yields.ite ?_ (yields_ignore hp)) h
  refine Yields.after fun text=>?_
  cases text with
  | none=>exact Yields.pure hp
  | some text=>
    refine Yields.pure ?_
    split
    · exact hp
    · exact hp

theorem yields_gaParseOptions : Yields (GetAssertionParams.Hashed cr) (gaParseOptions p):=by
  refine yields_textMap (fun key p hp=>?_) h
  exact Yields.ite (Yields.after fun _=>Yields.pure hp) <| Yields.ite (Yields.after fun _=>Yields.pure hp)
    (yields_ignore hp)

theorem yields_gaParseParam (key : ℕ) : Yields (GetAssertionParams.Hashed cr) (gaParseParam cr key p):=by
  unfold gaParseParam
  split
  · refine Yields.after fun text=>Yields.pure fun t ht=>?_
    cases text with
    | none=>exact ⟨(h t ht).1,rfl⟩
    | some text=>
      cases ht
      exact ⟨rfl,rfl⟩
  · exact Yields.after fun hash=>Yields.ite (Yields.pure h) (Yields.stop _)
  · exact yields_gaParseExtensions h
  · exact yields_gaParseOptions h
  · refine Yields.after fun param=>?_
    cases param <;> exact Yields.pure h
  · refine Yields.after fun protocol=>?_
    cases protocol <;> exact Yields.pure h
  · exact yields_ignore h

theorem yields_allow (slot : ℕ) : (p.allow slot).Hashed cr:=by
  unfold GetAssertionParams.allow
  split
  · exact h
  · exact h

theorem yields_gaParseAllowListEntry : Yields (GetAssertionParams.Hashed cr) (gaParseAllowListEntry p):=by
  refine Yields.after fun credId=>?_
  cases credId with
  | none=>exact Yields.pure h
  | some credId=>
    refine Yields.after fun slot=>?_
    cases slot with
    | none=>exact Yields.pure h
    | some slot=>exact Yields.pure (yields_allow h slot)

theorem yields_gaParseAllowList : Yields (GetAssertionParams.Hashed cr) (gaParseAllowList p):=by
  refine Yields.after fun o=>Yields.after fun count=>Yields.after fun _=>?_
  exact Yields.iterate (fun p hp=>yields_gaParseAllowListEntry hp) _ h

theorem yields_gaParsePair : Yields (GetAssertionParams.Hashed cr) (gaParsePair cr p):=by
  refine Yields.after fun o=>Yields.after fun key=>Yields.ite (yields_gaParseAllowList h) ?_
  exact (yields_cbor (yields_gaParseParam h key)).bind fun p hp=>yields_orFail hp

end GetAssertion

theorem yields_gaParseParams (params : Bytes) : Yields (GetAssertionParams.Hashed cr) (gaParseParams cr params):=by
  refine Yields.after fun _=>Yields.after fun _=>Yields.after fun count=>Yields.after fun _=>?_
  exact Yields.iterate (fun p hp=>yields_gaParsePair hp) _ (by intro text ht; cases ht)

theorem mcParams_hashed {w : Badge} {params : Bytes} {p : MakeCredentialParams} (h : mcParams cr w params=some p) :
    p.Hashed cr:=by
  unfold mcParams at h
  cases hread : readMakeCredentialParams cr w.env.garbage {rest:=params} with
  | mk result r=>
    rw [hread] at h
    cases result with
    | error e=>cases h
    | ok q=>
      have hq:=yields_readMakeCredentialParams w.env.garbage _ q r hread
      dsimp only at h
      split at h
      · cases h
        exact hq
      · cases h

end Parsers

def PinTokenParams.Copied (p : PinTokenParams) : Prop:=∀ text, p.rpIdText=some text→p.rpId=copyText (64-1) text

section Token

theorem yields_iterateWhile {ε σ α : Type} {Q : α→Prop} {body : α→Handler ε σ (Option α)}
    (h : ∀ a, Q a→Yields (fun o=>∀ b, o=some b→Q b) (body a)) (n : ℕ) {a : α} (ha : Q a) :
    Yields Q (iterateWhile n body a):=by
  induction n generalizing a with
  | zero=>exact Yields.pure ha
  | succ n ih=>
    refine (h a ha).bind fun o ho=>?_
    cases o with
    | none=>exact Yields.pure ha
    | some b=>exact ih (ho b rfl)

theorem yields_next {m : Read PinTokenParams} (hm : Yields PinTokenParams.Copied m) :
    Yields (fun pair=>∀ q, pair=TokenPair.next q→q.Copied) (TokenPair.next <$> m):=
  hm.bind fun p hp=>Yields.pure fun q hq=>by
    cases hq
    exact hp

variable {p : PinTokenParams} (h : p.Copied)

include h

theorem yields_parsePinProtocol : Yields PinTokenParams.Copied (parsePinProtocol p):=by
  refine Yields.after fun protocol=>?_
  cases protocol <;> exact Yields.pure h

theorem yields_parsePinHashEnc : Yields PinTokenParams.Copied (parsePinHashEnc p):=by
  refine Yields.after fun enc=>?_
  cases enc with
  | none=>exact Yields.pure h
  | some enc=>
    refine Yields.pure ?_
    split
    · exact h
    · exact h

theorem yields_parsePlatformKeyPair :
    Yields (fun o : Option PinTokenParams=>∀ q, o=some q→q.Copied) (parsePlatformKeyPair p):=by
  have hp : ∀ q, some p=some q→q.Copied:=by
    intro q hq
    cases hq
    exact h
  refine Yields.after fun item=>?_
  cases item with
  | none=>exact Yields.pure fun q hq=>by cases hq
  | some item=>
    dsimp only
    split
    · refine Yields.after fun x=>?_
      cases x with
      | none=>exact Yields.pure hp
      | some x=>
        refine Yields.pure fun q hq=>?_
        split at hq
        · cases hq
          exact h
        · cases hq
          exact h
    · refine Yields.after fun y=>?_
      cases y with
      | none=>exact Yields.pure hp
      | some y=>
        refine Yields.pure fun q hq=>?_
        cases hq
        exact h
    · exact yields_ignore hp

theorem yields_parsePlatformKey : Yields PinTokenParams.Copied (parsePlatformKey p):=
  Yields.after fun _=>yields_iterateWhile (fun _ hp=>yields_parsePlatformKeyPair hp) _ h

theorem yields_parsePinUvAuthTokenPair :
    Yields (fun pair=>∀ q, pair=TokenPair.next q→q.Copied) (parsePinUvAuthTokenPair p):=by
  have hp : ∀ q, TokenPair.next p=TokenPair.next q→q.Copied:=by
    intro q hq
    cases hq
    exact h
  refine Yields.after fun item=>?_
  cases item with
  | none=>exact Yields.pure fun q hq=>by cases hq
  | some item=>
    dsimp only
    split
    · exact yields_next (yields_parsePinProtocol h)
    · exact yields_next (yields_parsePlatformKey h)
    · exact yields_next (yields_parsePinHashEnc h)
    · refine Yields.after fun perm=>?_
      cases perm with
      | none=>exact Yields.pure hp
      | some perm=>
        refine Yields.ite (Yields.pure fun q hq=>by cases hq) (Yields.pure fun q hq=>?_)
        cases hq
        exact h
    · refine Yields.after fun text=>?_
      cases text with
      | none=>exact Yields.pure hp
      | some text=>
        refine Yields.pure fun q hq t ht=>?_
        cases hq
        cases ht
        rfl
    · exact yields_ignore hp

theorem yields_parsePinUvAuthTokenPairs (n : ℕ) :
    Yields (fun o : Option PinTokenParams=>∀ q, o=some q→q.Copied) (parsePinUvAuthTokenPairs n p):=by
  induction n generalizing p with
  | zero=>
    refine Yields.pure fun q hq=>?_
    cases hq
    exact h
  | succ n ih=>
    refine (yields_parsePinUvAuthTokenPair h).bind fun pair hpair=>?_
    cases pair with
    | next q=>exact ih (hpair q rfl)
    | leave=>
      refine Yields.pure fun q hq=>?_
      cases hq
      exact h
    | invalidPermissions=>exact Yields.pure fun q hq=>by cases hq

end Token

def ClientPin.BoundToKept (cr : FidoCrypto) (pin : ClientPin) : Prop:=∀ text, pin.grant.rpId=some text →
  pin.boundTo=(RpRequest.getPinUvAuthToken []).hashOfKept cr text

section Grant

variable {cr : FidoCrypto}

theorem grantToken_bound {p : PinTokenParams} (h : p.Copied) (w : Badge) :
    (grantToken cr p w).2.clientPin.BoundToKept cr:=by
  intro text ht
  unfold grantToken updateClientPin at ht ⊢
  dsimp only [modify_apply] at ht ⊢
  unfold RpRequest.hashOfKept RpRequest.kept ClientPin.boundTo
  cases hempty : (cstr p.rpId).isEmpty with
  | true=>
    rw [hempty,if_pos rfl] at ht
    rw [h text ht] at hempty
    simp [RpRequest.asksForToken,RpRequest.bufferSize,hempty]
  | false=>
    rw [hempty,if_neg Bool.false_ne_true] at ht
    have hkept:=h text ht
    rw [hkept] at hempty ⊢
    simp [RpRequest.asksForToken,RpRequest.bufferSize,hempty]

theorem Quiet.clientPin {α : Type} {m : Ctap α} (h : Quiet m) : Keeps (fun w=>w.clientPin.BoundToKept cr) m:=
  h.keeps fun _ _=>rfl

def answerToken (cr : FidoCrypto) (sharedSecret : ByteArr 32) (p : PinTokenParams) : Ctap Bytes:=do
  let encryptedToken ← encryptToken cr sharedSecret (← gets (·.clientPin.pinToken)) p.pinProtocol
  tokenResponse encryptedToken

theorem Quiet.answerToken (cr : FidoCrypto) (sharedSecret : ByteArr 32) (p : PinTokenParams) :
    Quiet (answerToken cr sharedSecret p):=by
  refine (Quiet.gets _).bind fun token=>Quiet.bind ?_ fun encryptedToken=>(Quiet.env _).bind fun _=>Quiet.pure _
  unfold encryptToken
  split
  · exact (Quiet.secureRandomFill _).bind fun iv=>Quiet.pure _
  · exact Quiet.pure _

theorem clientPinGetPinUvAuthToken_bound {params response : Bytes} {w t : Badge}
    (h : clientPinGetPinUvAuthToken cr params w=(.ok response,t)) : t.clientPin.BoundToKept cr:=by
  obtain ⟨_,_,_,h⟩:=bind_ok.mp h
  obtain ⟨_,_,_,h⟩:=bind_ok.mp h
  obtain ⟨_,_,_,h⟩:=bind_ok.mp h
  obtain ⟨count,_,_,h⟩:=bind_ok.mp h
  obtain ⟨_,_,_,h⟩:=bind_ok.mp h
  -- The parameters are parsed.
  obtain ⟨o,_,ho,h⟩:=bind_ok.mp h
  obtain ⟨pairs,_,hpairs,h⟩:=bind_ok.mp h
  obtain ⟨p,_,hp,h⟩:=bind_ok.mp h
  have hread:=yields_cbor (yields_parsePinUvAuthTokenPairs (p:={}) (by intro text ht; cases ht) _) _ _ _ ho
  have hcopied : p.Copied:=yields_orFail (yields_orFail hread _ _ _ hpairs) _ _ _ hp
  obtain ⟨_,_,_,h⟩:=bind_ok.mp h
  obtain ⟨_,_,_,h⟩:=bind_ok.mp h
  obtain ⟨_,_,_,h⟩:=bind_ok.mp h
  obtain ⟨secret,_,_,h⟩:=bind_ok.mp h
  obtain ⟨hash,_,_,h⟩:=bind_ok.mp h
  obtain ⟨_,_,_,h⟩:=bind_ok.mp h
  obtain ⟨_,v,_,h⟩:=bind_ok.mp h
  -- The token is granted, and nothing after that is about its RP.
  obtain ⟨_,u,hgrant,h⟩:=bind_ok.mp h
  have hbound : u.clientPin.BoundToKept cr:=by
    have hgranted : (grantToken cr p v).2.clientPin.BoundToKept cr:=grantToken_bound hcopied v
    rwa [hgrant] at hgranted
  have hkeeps : Keeps (fun w=>w.clientPin.BoundToKept cr) (answerToken cr secret p):=
    Quiet.clientPin (Quiet.answerToken cr secret p)
  have hrest:=hkeeps.state hbound
  unfold answerToken at hrest
  rwa [h] at hrest

end Grant

section Hashes

variable {cr : FidoCrypto} {w : Badge} {r : RpRequest} {text : Bytes} {hash : Option (ByteArr 32)}

theorem Hashed.names {rpId : Bytes} {rpIdHash : ByteArr 32} {rpIdText : Option Bytes} (hr : r.asksForToken=false)
    (hsize : r.bufferSize=rpIdMaxLen) (h : HashedBy cr rpId rpIdHash rpIdText)
    (hnames : rpIdText.map (fun text=>(text,some rpIdHash))=some (text,hash)) : hash=r.hashOfKept cr text:=by
  obtain ⟨t,ht,hpair⟩:=Option.map_eq_some_iff.mp hnames
  cases hpair
  obtain ⟨hcopy,hhash⟩:=h text ht
  simp [RpRequest.hashOfKept,RpRequest.kept,hr,hsize,hhash,hcopy]

theorem names_eq (h : r.names cr w=some (text,hash)) : hash=r.hashOfKept cr text:=by
  cases r with
  | makeCredential params=>
    obtain ⟨p,hp,hnames⟩:=Option.bind_eq_some_iff.mp h
    exact Hashed.names rfl rfl (mcParams_hashed hp) hnames
  | getAssertion params=>
    obtain ⟨p,hp,hnames⟩:=Option.bind_eq_some_iff.mp h
    cases hparse : gaParseParams cr params w with
    | mk result t=>
      rw [hparse] at hp
      cases result with
      | error e=>cases hp
      | ok q=>
        cases hp
        exact Hashed.names rfl rfl (yields_gaParseParams params w p t hparse) hnames
  | getPinUvAuthToken params=>
    obtain ⟨response,hresponse,hnames⟩:=Option.bind_eq_some_iff.mp h
    cases hrun : clientPinGetPinUvAuthToken cr params w with
    | mk result t=>
      rw [hrun] at hresponse hnames
      cases result with
      | error e=>cases hresponse
      | ok response=>
        obtain ⟨u,hu,hpair⟩:=Option.map_eq_some_iff.mp hnames
        cases hpair
        exact clientPinGetPinUvAuthToken_bound hrun text hu

theorem kept_eq_self : r.kept text=text ↔ (0 : UInt8) ∉ text ∧ text.length < r.bufferSize:=by
  have hsize : 0 < r.bufferSize:=by cases r <;> exact Nat.zero_lt_succ _
  constructor
  · intro h
    have hcopy : (copyText r.bufferSize text).length ≤ r.bufferSize-1:=List.length_take_le _ _
    have hlen:=cstr_length_le (copyText r.bufferSize text)
    have hnul:=cstr_noNul (copyText r.bufferSize text)
    change cstr (copyText r.bufferSize text)=text at h
    rw [h] at hlen hnul
    exact ⟨hnul,by omega⟩
  · rintro ⟨hnul,hlen⟩
    have hcopy : copyText r.bufferSize text=text:=List.take_of_length_le (by omega)
    rw [RpRequest.kept,hcopy,cstr_eq_self hnul]

theorem hashOfKept_some :
    r.hashOfKept cr text=some (cr.sha256 text) ↔
      (r.asksForToken=true → r.kept text≠[]) ∧ cr.sha256 (r.kept text)=cr.sha256 text:=by
  unfold RpRequest.hashOfKept
  cases r.asksForToken with
  | false=>simp
  | true=>
    cases hkept : r.kept text with
    | nil=>simp
    | cons b rest=>simp

theorem hashOfKept_iff : r.hashOfKept cr text=some (cr.sha256 text) ↔ r.Fits text ∨ r.Collides cr text:=by
  rw [hashOfKept_some]
  by_cases hkept : r.kept text=text
  · rw [hkept]
    obtain ⟨hnul,hlen⟩:=kept_eq_self.mp hkept
    constructor
    · exact fun h=>.inl ⟨hnul,hlen,h.1⟩
    · rintro (h | h)
      · exact ⟨h.2.2,rfl⟩
      · exact absurd hkept h.1
  · constructor
    · exact fun h=>.inr ⟨hkept,h⟩
    · rintro (h | h)
      · exact absurd (kept_eq_self.mpr ⟨h.1,h.2.1⟩) hkept
      · exact h.2

/-- No credential is found for both hashes, and a token that is bound to one of them is of no use for the other. -/
structure NothingShared (cr : FidoCrypto) (h h' : ByteArr 32) : Prop where
  credentials : ∀ (s : Storage) (slot : ℕ), slot∈s.findByRp h → slot ∉ s.findByRp h'
  tokens : ∀ (pin : ClientPin) (permission : UInt8) (clientDataHash : ByteArr 32) (protocol : UInt8) (param : Bytes),
    pin.boundTo=some h→pin.accepts cr permission h' clientDataHash protocol param=false

theorem findByRp_hash {s : Storage} {slot : ℕ} {h : ByteArr 32} (hslot : slot∈s.findByRp h) :
    ∃ c, s.creds slot=some c ∧ c.rpIdHash=h:=by
  have hfilter:=(List.mem_filter.mp (List.mem_of_mem_take hslot)).2
  cases hc : s.creds slot with
  | none=>simp [hc] at hfilter
  | some c=>exact ⟨c,rfl,by simpa [hc] using hfilter⟩

theorem nothingShared {h h' : ByteArr 32} (hne : h≠h') : NothingShared cr h h' where
  credentials s slot hslot hslot':=by
    obtain ⟨c,hc,hhash⟩:=findByRp_hash hslot
    obtain ⟨c',hc',hhash'⟩:=findByRp_hash hslot'
    cases hc.symm.trans hc'
    exact hne (hhash.symm.trans hhash')
  tokens pin permission clientDataHash protocol param hbound:=by
    unfold ClientPin.boundTo at hbound
    split at hbound
    · cases hbound
      simp [ClientPin.accepts,‹pin.tokenRpIdSet=true›,hne]
    · cases hbound

/-- A request goes by the hash of its RP id where the parser keeps all of it, or what it keeps happens to have the
same hash. Two such requests for different RP ids share nothing unless the hashes of the RP ids agree. -/
theorem names_hash_iff (h : r.names cr w=some (text,hash)) :
    (hash=some (cr.sha256 text) ↔ r.Fits text ∨ r.Collides cr text) ∧
    ∀ (w' : Badge) (r' : RpRequest) (text' : Bytes) (hash' : Option (ByteArr 32)),
      r'.names cr w'=some (text',hash') → r.Fits text ∨ r.Collides cr text → r'.Fits text' ∨ r'.Collides cr text' →
      cr.sha256 text≠cr.sha256 text' →
      ∀ a b, hash=some a→hash'=some b→NothingShared cr a b:=by
  have hiff : hash=some (cr.sha256 text) ↔ r.Fits text ∨ r.Collides cr text:=by
    rw [names_eq h]
    exact hashOfKept_iff
  refine ⟨hiff,fun w' r' text' hash' h' hfits hfits' hne a b ha hb=>nothingShared ?_⟩
  have hhash' : hash'=some (cr.sha256 text'):=by
    rw [names_eq h']
    exact hashOfKept_iff.mpr hfits'
  have haeq : a=cr.sha256 text:=Option.some.inj (ha.symm.trans (hiff.mpr hfits))
  have hbeq : b=cr.sha256 text':=Option.some.inj (hb.symm.trans hhash')
  rw [haeq,hbeq]
  exact hne

end Hashes

/-- A request for an RP id of `n` letters. -/
def lettersRequest (n : ℕ) : RpRequest:=.getAssertion (gaRequest (List.replicate n 97) 0 id)

/-- An RP id of 64 bytes goes by the hash of its first 63. -/
theorem letters_cut : ¬∀ text hash, (lettersRequest 64).names FidoCrypto.plain newBadge=some (text,hash) →
    hash=some (FidoCrypto.plain.sha256 text):=by
  intro h
  have hcut:=h (List.replicate 64 97) (some (FidoCrypto.plain.sha256 (List.replicate 63 97))) (by decide +kernel)
  revert hcut
  decide +kernel

theorem letters_fit {n : ℕ} (h : n < rpIdMaxLen) : (lettersRequest n).Fits (List.replicate n 97):=by
  refine ⟨fun hnul=>?_,?_,fun hask=>by cases hask⟩
  · cases (List.mem_replicate.mp hnul).2
  · rw [List.length_replicate]
    exact h

theorem letters_whole :
    (some (FidoCrypto.plain.sha256 (List.replicate 63 97))=some (FidoCrypto.plain.sha256 (List.replicate 63 97)) ↔
      (lettersRequest 63).Fits (List.replicate 63 97) ∨
        (lettersRequest 63).Collides FidoCrypto.plain (List.replicate 63 97)) ∧
    NothingShared FidoCrypto.plain (FidoCrypto.plain.sha256 (List.replicate 63 97))
      (FidoCrypto.plain.sha256 (List.replicate 1 97)):=by
  have hlong : (lettersRequest 63).names FidoCrypto.plain newBadge =
      some (List.replicate 63 97,some (FidoCrypto.plain.sha256 (List.replicate 63 97))):=by decide +kernel
  have hshort : (lettersRequest 1).names FidoCrypto.plain newBadge =
      some (List.replicate 1 97,some (FidoCrypto.plain.sha256 (List.replicate 1 97))):=by decide +kernel
  exact ⟨(names_hash_iff hlong).1,(names_hash_iff hlong).2 newBadge (lettersRequest 1) _ _ hshort
    (.inl (letters_fit (by decide))) (.inl (letters_fit (by decide))) (by decide +kernel) _ _ rfl rfl⟩

end CdcBadge.Fido2
