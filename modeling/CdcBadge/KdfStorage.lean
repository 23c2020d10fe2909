import CdcBadge.KdfObject
import CdcBadge.PinPowerLoss

/-!
# Storing a KDF data object

What `PUT DATA` of the object makes of the passwords, of the mode and of the object
that `GET DATA` returns.
-/

namespace CdcBadge.Pin

open Handler

/-- What the passwords of the card are compared with, and the salts that the next ones are stored with. -/
structure References where
  iterations : UInt32
  salt : Pw→ByteArr 8
  hash : Pw→ByteArr 32
  salts : List (ByteArr 8)

def Badge.references (b : Badge) : References:=
  ⟨b.pm.iterations,fun pw=>pw.salt b.pm,fun pw=>pw.hash b.pm,b.salts⟩

theorem references_congr {b b' : Badge} (hiterations : b'.pm.iterations=b.pm.iterations) (hsalts : b'.salts=b.salts)
    (hsalt : ∀ pw : Pw, pw.salt b'.pm=pw.salt b.pm) (hhash : ∀ pw : Pw, pw.hash b'.pm=pw.hash b.pm) :
    b'.references=b.references:=by
  unfold Badge.references
  rw [hiterations,hsalts,funext hsalt,funext hhash]

namespace References

variable (cr : Crypto)

def store (r : References) (pw : Pw) (data : Bytes) : References:=
  let salt:=r.salts.headD (zeros 8)
  { r with
    salt:=Function.update r.salt pw salt
    hash:=Function.update r.hash pw ((computeKdfHash cr r.iterations data salt).getD (r.hash pw))
    salts:=r.salts.tail }

/-- What the password is compared with is the hash of `data`. -/
def Refers (r : References) (pw : Pw) (data : Bytes) : Prop:=
  computeKdfHash cr r.iterations data (r.salt pw)=some (r.hash pw)

/-- The password is compared with the same as before. -/
def Same (r r' : References) (pw : Pw) : Prop:=
  r'.iterations=r.iterations ∧ r'.salt pw=r.salt pw ∧ r'.hash pw=r.hash pw

variable {cr} {r : References} {pw : Pw} {data : Bytes}

theorem refers_store (hlen : data.length ≤ 64) : (r.store cr pw data).Refers cr pw data:=by
  simp [Refers,store,computeKdfHash,Nat.not_lt.mpr hlen]

theorem same_store {other : Pw} (h : other≠pw) : r.Same (r.store cr pw data) other:=by
  simp [Same,store,h]

theorem Refers.of_same {r' : References} (h : r.Refers cr pw data) (hsame : r.Same r' pw) : r'.Refers cr pw data:=by
  obtain ⟨hiterations,hsalt,hhash⟩:=hsame
  unfold Refers
  rw [hiterations,hsalt,hhash]
  exact h

end References

section Stores

variable (cr : Crypto)

/-- A save leaves the references alone, and power is not lost in one whose calls are all done. -/
theorem saveToStorage_references {r : References} {calm : Prop} :
    Triple (fun b=>b.references=r ∧ (calm→b.saves=[])) (saveToStorage cr)
      (fun _ b=>b.references=r ∧ (calm→b.saves=[])) fun _ _=>¬calm:=by
  have hkeeps : Keeps (fun b : Badge=>b.references=r ∧ (calm→b.saves=[])) (saveToStorage cr):=
    BesideSaves.saveToStorage
      { chip:=fun _ _ h=>h
        saves:=fun b h=>⟨h.1,fun hcalm=>by rw [h.2 hcalm]; rfl⟩
        lastSave:=fun _ _ h=>h
        mirrors:=fun b _ _ _ h=>by
          refine ⟨Eq.trans ?_ h.1,h.2⟩
          exact references_congr rfl rfl (fun pw=>by cases pw <;> rfl) fun pw=>by cases pw <;> rfl } cr
  intro b hb
  have hkept:=hkeeps b hb
  have hdone:=saveToStorage_done cr (r:=b.pm.toPinRecord) b
  cases hsave : saveToStorage cr b with
  | mk reply b'=>
    rw [hsave] at hkept hdone
    cases reply with
    | ok saved=>exact hkept
    | error e=>exact fun hcalm=>hdone ⟨hb.2 hcalm,rfl⟩

theorem storePw_references {pw : Pw} {data : Bytes} (hlen : data.length ≤ 64) {r : References} {calm : Prop} :
    Triple (fun b=>b.references=r ∧ (calm→b.saves=[])) (storePw cr pw data)
      (fun ok b=>ok=true ∧ b.references=r.store cr pw data ∧ (calm→b.saves=[])) fun _ _=>¬calm:=by
  rintro b ⟨rfl,hcalm⟩
  let salt:=b.salts.headD (zeros 8)
  obtain ⟨hash,hhash⟩ : ∃ hash, computeKdfHash cr b.pm.iterations data salt=some hash:=
    ⟨_,if_neg (Nat.not_lt.mpr hlen)⟩
  let stored : Badge:=
    {b with salts:=b.salts.tail,pm:=pw.setRetries maxRetries (pw.setHash hash (pw.setSalt salt b.pm))}
  have hrun : storePw cr pw data b=(saveToStorage cr >>= fun _=>pure true) stored:=by
    have hiterations : (pw.setSalt salt b.pm).iterations=b.pm.iterations:=by cases pw <;> rfl
    unfold storePw
    rw [bind_of_ok (show generateSalt b=(.ok salt,{b with salts:=b.salts.tail}) from rfl)]
    rw [bind_of_ok (show updatePm (pw.setSalt salt) _=(.ok (),_) from rfl)]
    rw [bind_of_ok (show pmGets (·.iterations) _=(.ok b.pm.iterations,_) from by
      rw [← hiterations]; rfl),hhash]
    rfl
  have hstored : stored.references=b.references.store cr pw data:=by
    have hpm : stored.pm.iterations=b.pm.iterations:=by cases pw <;> rfl
    have hsalt : (fun other : Pw=>other.salt stored.pm)=Function.update (fun other=>other.salt b.pm) pw salt:=by
      funext other
      cases pw <;> cases other <;> rfl
    have hnew : (fun other : Pw=>other.hash stored.pm)=Function.update (fun other=>other.hash b.pm) pw hash:=by
      funext other
      cases pw <;> cases other <;> rfl
    have hget : (computeKdfHash cr b.pm.iterations data salt).getD (pw.hash b.pm)=hash:=by rw [hhash]; rfl
    unfold Badge.references References.store
    rw [hpm,hsalt,hnew]
    dsimp only
    rw [hget]
  rw [hrun]
  refine Triple.bind (saveToStorage_references cr) (fun _=>Triple.pure fun _ h=>⟨rfl,h⟩) stored ⟨hstored,hcalm⟩

end Stores

end CdcBadge.Pin

namespace CdcBadge.OpenPgp

open Handler Codecs
open Pin (Pw Badge References)

def factoryPin : Pw→Bytes
  | .pw1=>Pin.defaultPw1
  | .pw3=>Pin.defaultPw3

/-- The applet and the references of a card, and, where it is calm, that no call of it goes wrong. -/
structure Tracks (app : Applet) (r : References) (calm : Prop) (c : Card) : Prop where
  app : c.app=app
  references : c.badge.references=r
  calm : calm → c.badge.saves=[] ∧ c.env.calls=[] ∧ c.env.nvs=[]

section Steps

variable (cr : GpgCrypto) {app : Applet} {r r' : References} {calm : Prop} {α : Type}

theorem onPins_tracks {m : Pin.PinM α} {Q : α→Prop}
    (h : Triple (fun b=>b.references=r ∧ (calm→b.saves=[])) m
      (fun a b=>Q a ∧ b.references=r' ∧ (calm→b.saves=[])) fun _ _=>¬calm) :
    Triple (Tracks app r calm) (onPins m) (fun _=>Tracks app r' calm) fun _ _=>¬calm:=by
  refine Triple.zoom h (fun c hc=>⟨hc.references,fun hcalm=>(hc.calm hcalm).1⟩) ?_ fun _ _ _ _ he=>he
  rintro c a b hc ⟨-,hreferences,hsaves⟩
  exact ⟨hc.app,hreferences,fun hcalm=>⟨hsaves hcalm,(hc.calm hcalm).2⟩⟩

theorem changePw_tracks (pw : Pw) : Triple (Tracks app r calm) (changePw cr pw (factoryPin pw))
    (fun _=>Tracks app (r.store cr.toCrypto pw (factoryPin pw)) calm) fun _ _=>¬calm:=by
  cases pw with
  | pw1=>exact onPins_tracks (Pin.storePw_references cr.toCrypto (show Pin.defaultPw1.length ≤ 64 by decide))
  | pw3=>exact onPins_tracks (Pin.storePw_references cr.toCrypto (show Pin.defaultPw3.length ≤ 64 by decide))

theorem setPwRaw_tracks {pw : Pw} {v : Bytes} (hv : v.length=32 ∨ v.length=64) :
    Triple (Tracks app r calm) (setPwRaw cr pw v) (fun _=>Tracks app (r.store cr.toCrypto pw v) calm)
      fun _ _=>¬calm:=by
  have hstore : Pin.setPwRaw cr.toCrypto pw v=Pin.storePw cr.toCrypto pw v:=if_neg (by omega)
  unfold setPwRaw
  rw [hstore]
  exact onPins_tracks (Pin.storePw_references cr.toCrypto (by omega))

theorem seCall_tracks (call : Chip Bytes → SeReply α × Chip Bytes) :
    Triple (Tracks app r calm) (seCall call) (fun _=>Tracks app r calm) fun _ _=>¬calm:=by
  refine Triple.bind (Q:=fun o c=>(calm → o=.done) ∧ Tracks app r calm c) ?_ fun o=>Triple.pre fun ho=>?_
  · intro c hc
    exact ⟨fun hcalm=>by rw [(hc.calm hcalm).2.1]; rfl,hc.app,hc.references,fun hcalm=>
      ⟨(hc.calm hcalm).1,by rw [(hc.calm hcalm).2.1]; rfl,(hc.calm hcalm).2.2⟩⟩
  · refine onPins_tracks (Q:=fun _=>True) (Pin.triple_seCall ?_ ?_)
    · exact fun b hb _ _ _=>⟨trivial,hb⟩
    · intro b hb hlost hcalm
      rw [ho hcalm] at hlost
      cases hlost

theorem nvsWrite_tracks {f : Card → Card} (hf : ∀ c, Tracks app r calm c→Tracks app r calm (f c)) :
    Triple (Tracks app r calm) (nvsWrite f) (fun _=>Tracks app r calm) fun _ _=>¬calm:=by
  refine Triple.bind (Q:=fun o c=>(calm → o=.done) ∧ Tracks app r calm c) ?_ fun o=>Triple.pre fun ho=>?_
  · intro c hc
    exact ⟨fun hcalm=>by rw [(hc.calm hcalm).2.2]; rfl,hc.app,hc.references,fun hcalm=>
      ⟨(hc.calm hcalm).1,(hc.calm hcalm).2.1,by rw [(hc.calm hcalm).2.2]; rfl⟩⟩
  · cases o with
    | done=>exact Triple.bind (Triple.modify hf) fun _=>Triple.pure fun _ h=>h
    | failed e applied=>
      refine Triple.bind (Triple.when (fun _=>Triple.modify hf) fun _ _ h=>h) fun _=>Triple.pure fun _ h=>h
    | powerLost applied=>
      have hnot : ¬calm:=fun hcalm=>by cases ho hcalm
      exact Triple.conseq (Triple.of_ok (Q:=fun _=>Tracks app r calm) fun c a t _ hrun=>by
        obtain ⟨_,_,_,hstop⟩:=bind_ok.mp hrun
        cases hstop) (fun _ h=>h) (fun _ _ h=>h) fun _ _ _=>hnot

theorem saveStateToNvs_tracks :
    Triple (Tracks app r calm) (saveStateToNvs cr) (fun _=>Tracks app r calm) fun _ _=>¬calm:=by
  refine Triple.bind (Q:=fun _=>Tracks app r calm) (Triple.gets fun _ h=>h) fun data=>?_
  refine Triple.bind (Q:=fun _=>Tracks app r calm) (fun c hc=>⟨hc.app,hc.references,hc.calm⟩) fun nonce=>?_
  refine Triple.bind (seCall_tracks _) fun reply=>?_
  cases reply with
  | error e=>exact Triple.pure fun _ h=>h
  | ok sig=>
    exact Triple.bind (nvsWrite_tracks fun _ h=>⟨h.app,h.references,h.calm⟩) fun _=>Triple.pure fun _ h=>h

end Steps

namespace KdfDoT

/-- The object is stored and switches the mode. -/
structure Taken (data : Bytes) (chained : Bool) (k : KdfDoT) : Prop where
  told : ¬(data=[] ∧ chained=false)
  parsed : parse data=.ok k
  fits : data.length ≤ 124
  hash : k.algo=kdfAlgoNone ∨ k.hash=kdfHashSha256 ∨ k.hash=kdfHashSha512

/-- What a password is set to: without a key derivation the initial hashes of the object do not count. -/
def value (k : KdfDoT) (pw : Pw) : Option Bytes:=
  if k.algo=kdfAlgoNone then some (factoryPin pw) else (k.initial pw).supplied

def onApplet (k : KdfDoT) (data : Bytes) (a : Applet) : Applet:=
  { a with
    kdfActive:=decide (k.algo≠kdfAlgoNone)
    kdfPinLen:=if k.algo=kdfAlgoNone then 0 else kdfHashLen k.hash
    kdfDo:=data }

end KdfDoT

def storeValue (cr : GpgCrypto) (pw : Pw) (v : Option Bytes) (r : References) : References:=
  v.elim r (r.store cr.toCrypto pw)

def KdfDoT.onReferences (k : KdfDoT) (cr : GpgCrypto) (r : References) : References:=
  storeValue cr .pw3 (k.value .pw3) (storeValue cr .pw1 (k.value .pw1) r)

section Taking

variable {cr : GpgCrypto} {app : Applet} {r : References} {calm : Prop} {data : Bytes} {chained : Bool} {k : KdfDoT}

/-- The initial hashes of an object have one of the two lengths. -/
def KdfDo.Sized (d : KdfDo) : Prop:=
  (∀ v, d.pw1Initial=some v→v.length=32 ∨ v.length=64) ∧
    ∀ v, d.pw3Initial=some v→v.length=32 ∨ v.length=64

theorem KdfDo.Sized.kdfTag {tag : UInt8} {v : Bytes} {d d' : KdfDo} (hd : d.Sized) (h : kdfTag tag v d=some d') :
    d'.Sized:=by
  unfold OpenPgp.kdfTag at h
  split_ifs at h with h81 _ h82 _ h83 _ hsalt _ h87 hlen h88 hlen
  · cases h
    exact hd
  · cases h
    exact hd
  · cases h
    exact hd
  · cases h
    exact hd
  · cases h
    refine ⟨fun x hx=>?_,hd.2⟩
    cases hx
    exact hlen
  · cases h
    refine ⟨hd.1,fun x hx=>?_⟩
    cases hx
    exact hlen

theorem KdfDo.Sized.kdfTags {fuel : ℕ} {bytes : Bytes} {d d' : KdfDo} (hd : d.Sized)
    (h : kdfTags fuel bytes d=some d') : d'.Sized:=by
  induction fuel generalizing bytes d with
  | zero=>
    cases bytes with
    | nil=>
      cases h
      exact hd
    | cons=>simp [OpenPgp.kdfTags] at h
  | succ fuel ih=>
    rcases bytes with _ | ⟨tag,_ | ⟨len,rest⟩⟩
    · cases h
      exact hd
    · cases h
    · unfold OpenPgp.kdfTags at h
      by_cases hcut : rest.length < len.toNat
      · rw [if_pos hcut] at h
        cases h
      · rw [if_neg hcut] at h
        obtain ⟨next,htag,hrest⟩:=Option.bind_eq_some_iff.mp h
        exact ih (hd.kdfTag htag) hrest

theorem sized_of_kdfDoParse {d : KdfDo} (h : kdfDoParse data=some d) : d.Sized:=
  KdfDo.Sized.kdfTags ⟨fun _ hv=>(by cases hv),fun _ hv=>(by cases hv)⟩ h

theorem setInitial_tracks (pw : Pw) {v : Option Bytes} (hv : ∀ x, v=some x→x.length=32 ∨ x.length=64) :
    Triple (Tracks app r calm) (setInitial cr pw v) (fun _=>Tracks app (storeValue cr pw v r) calm)
      fun _ _=>¬calm:=by
  cases v with
  | none=>exact Triple.pure fun _ h=>h
  | some v=>exact Triple.bind (setPwRaw_tracks cr (hv v rfl)) fun _=>Triple.pure fun _ h=>h

variable (cr) in
theorem applyKdfDo_taken (h : KdfDoT.Taken data chained k) :
    Triple (Tracks app r calm) (applyKdfDo cr data)
      (fun reply c=>reply={sw:=swOk} ∧ Tracks (k.onApplet data app) (k.onReferences cr r) calm c)
      fun _ _=>¬calm:=by
  have hparse : kdfDoParse data=some k.onCard:=by
    rw [KdfDoT.kdfDoParse_eq,h.parsed]
    rfl
  have hdone : Triple (Tracks (k.onApplet data app) (k.onReferences cr r) calm)
      (saveStateToNvs cr >>= fun _=>apduSw swOk)
      (fun reply c=>reply={sw:=swOk} ∧ Tracks (k.onApplet data app) (k.onReferences cr r) calm c)
      fun _ _=>¬calm:=
    Triple.bind (saveStateToNvs_tracks cr) fun _=>Triple.pure fun _ h=>⟨rfl,h⟩
  have happ : ∀ (active : Bool) (len : UInt8), active=decide (k.algo≠kdfAlgoNone) →
      len=(if k.algo=kdfAlgoNone then 0 else kdfHashLen k.hash) →
      Triple (Tracks app r calm) (updateApp fun a=>{a with kdfActive:=active,kdfPinLen:=len,kdfDo:=data})
        (fun _=>Tracks (k.onApplet data app) r calm) fun _ _=>¬calm:=by
    rintro _ _ rfl rfl
    exact Triple.modify fun c hc=>⟨congrArg (k.onApplet data) hc.app,hc.references,hc.calm⟩
  unfold applyKdfDo
  rw [hparse]
  dsimp only
  rw [if_neg (Nat.not_lt.mpr h.fits)]
  by_cases halgo : k.algo=kdfAlgoNone
  · have hreferences : k.onReferences cr r =
        (r.store cr.toCrypto .pw1 (factoryPin .pw1)).store cr.toCrypto .pw3 (factoryPin .pw3):=by
      simp [KdfDoT.onReferences,KdfDoT.value,halgo,storeValue]
    rw [if_pos (show k.onCard.algo=kdfAlgoNone from halgo)]
    rw [hreferences] at hdone ⊢
    refine Triple.bind (happ _ _ (by simp [halgo]) (by simp [halgo])) fun _=>?_
    exact Triple.bind (changePw_tracks cr .pw1) fun _=>Triple.bind (changePw_tracks cr .pw3) fun _=>hdone
  · have hreferences : k.onReferences cr r =
        storeValue cr .pw3 k.pw3Initial.supplied (storeValue cr .pw1 k.pw1Initial.supplied r):=by
      simp [KdfDoT.onReferences,KdfDoT.value,halgo,KdfDoT.initial]
    have hhash : ¬(k.hash≠kdfHashSha256 ∧ k.hash≠kdfHashSha512):=fun hother=>
      (h.hash.resolve_left halgo).elim hother.1 hother.2
    have hsized:=sized_of_kdfDoParse hparse
    rw [if_neg (show ¬k.onCard.algo=kdfAlgoNone from halgo)]
    rw [if_neg (show ¬(k.onCard.hash≠kdfHashSha256 ∧ k.onCard.hash≠kdfHashSha512) from hhash)]
    rw [hreferences] at hdone ⊢
    refine Triple.bind (happ _ _ (by simp [halgo]) (by simp [halgo,KdfDoT.onCard])) fun _=>?_
    exact Triple.bind (setInitial_tracks .pw1 hsized.1) fun _=>
      Triple.bind (setInitial_tracks .pw3 hsized.2) fun _=>hdone

theorem value_length (h : KdfDoT.Taken data chained k) {pw : Pw} {v : Bytes} (hv : k.value pw=some v) :
    v.length ≤ 64:=by
  have hparse : kdfDoParse data=some k.onCard:=by
    rw [KdfDoT.kdfDoParse_eq,h.parsed]
    rfl
  have hsized:=sized_of_kdfDoParse hparse
  unfold KdfDoT.value at hv
  by_cases halgo : k.algo=kdfAlgoNone
  · rw [if_pos halgo] at hv
    cases hv
    cases pw <;> decide
  · rw [if_neg halgo] at hv
    cases pw with
    | pw1=>
      have hlen:=hsized.1 v hv
      omega
    | pw3=>
      have hlen:=hsized.2 v hv
      omega

variable (cr r) in
theorem refers_onReferences (h : KdfDoT.Taken data chained k) {pw : Pw} {v : Bytes} (hv : k.value pw=some v) :
    (k.onReferences cr r).Refers cr.toCrypto pw v:=by
  have hlen:=value_length h hv
  unfold KdfDoT.onReferences
  cases pw with
  | pw1=>
    rw [hv]
    have hstored : (storeValue cr .pw1 (some v) r).Refers cr.toCrypto .pw1 v:=References.refers_store hlen
    cases k.value .pw3 with
    | none=>exact hstored
    | some _=>exact hstored.of_same (References.same_store (by decide))
  | pw3=>
    rw [hv]
    exact References.refers_store hlen

theorem same_onReferences {pw : Pw} (hv : k.value pw=none) : r.Same (k.onReferences cr r) pw:=by
  unfold KdfDoT.onReferences
  cases pw with
  | pw1=>
    rw [hv]
    cases k.value .pw3 with
    | none=>exact ⟨rfl,rfl,rfl⟩
    | some _=>exact References.same_store (by decide)
  | pw3=>
    rw [hv]
    cases k.value .pw1 with
    | none=>exact ⟨rfl,rfl,rfl⟩
    | some _=>exact References.same_store (by decide)

variable (cr r) in
theorem salt_onReferences {pw : Pw} {v : Bytes} (hv : k.value pw=some v) {salt : ByteArr 8} {n : ℕ} (hn : 2 ≤ n)
    (hsalts : r.salts=List.replicate n salt) :
    (k.onReferences cr r).salt pw=salt ∧ (k.onReferences cr r).iterations=r.iterations:=by
  obtain ⟨m,rfl⟩:=Nat.exists_eq_add_of_le' hn
  unfold KdfDoT.onReferences
  cases pw with
  | pw1=>
    rw [hv]
    cases k.value .pw3 <;> simp [storeValue,References.store,hsalts,List.replicate_succ]
  | pw3=>
    rw [hv]
    cases k.value .pw1 <;> simp [storeValue,References.store,hsalts,List.replicate_succ]

end Taking

def putKdfDo (data : Bytes) (le : ℕ) (chained : Bool) : Cmd:=⟨0xDA,0x00,0xF9,data,le,chained⟩

def getKdfDo (le : ℕ) : Cmd:=⟨0xCA,0x00,0xF9,[],le,false⟩

section Commands

variable {dev : Device} {cr : GpgCrypto} {data : Bytes} {le : ℕ} {chained : Bool} {k : KdfDoT} {card : Card}

variable (dev cr le) in
theorem cmdPutData_taken (h : KdfDoT.Taken data chained k) (hpw3 : card.app.pw3Verified=true) :
    cmdPutData dev cr (putKdfDo data le chained) card=applyKdfDo cr data card:=by
  have htag : (0x00 : UInt8).toNat*256+(0xF9 : UInt8).toNat=0xF9:=by decide
  unfold cmdPutData putKdfDo
  rw [appGets_bind,hpw3,htag]
  simp [h.told]

variable (cr card) in
theorem applyKdfDo_refused (htold : ¬(data=[] ∧ chained=false)) (h : ¬∃ k, KdfDoT.Taken data chained k) :
    ∃ sw, sw≠swOk ∧ applyKdfDo cr data card=(.ok {sw:=sw},card):=by
  unfold applyKdfDo
  rw [KdfDoT.kdfDoParse_eq]
  cases hparse : KdfDoT.parse data with
  | error e=>exact ⟨swWrongData,by decide,rfl⟩
  | ok k=>
    change ∃ sw, sw≠swOk ∧ (if 124 < data.length then _ else _ : CardM Reply) card=_
    by_cases hlen : 124 < data.length
    · rw [if_pos hlen]
      exact ⟨swWrongLength,by decide,rfl⟩
    · have hhash : ¬(k.algo=kdfAlgoNone ∨ k.hash=kdfHashSha256 ∨ k.hash=kdfHashSha512):=fun hhash=>
        h ⟨k,htold,hparse,Nat.not_lt.mp hlen,hhash⟩
      simp only [not_or] at hhash
      rw [if_neg hlen,if_neg (show ¬k.onCard.algo=kdfAlgoNone from hhash.1),
        if_pos (show k.onCard.hash≠kdfHashSha256 ∧ k.onCard.hash≠kdfHashSha512 from hhash.2)]
      exact ⟨swWrongData,by decide,rfl⟩

variable (dev cr le) in
theorem cmdPutData_locked (hpw3 : ¬card.app.pw3Verified=true) :
    cmdPutData dev cr (putKdfDo data le chained) card=(.ok {sw:=swSecurityNotSatisfied},card):=by
  unfold cmdPutData
  rw [appGets_bind]
  simp [hpw3,apduSw]

variable (dev cr le card) in
theorem cmdPutData_refused (h : ¬∃ k, KdfDoT.Taken data chained k) :
    ∃ sw, sw≠swOk ∧ cmdPutData dev cr (putKdfDo data le chained) card=(.ok {sw:=sw},card):=by
  have htag : (0x00 : UInt8).toNat*256+(0xF9 : UInt8).toNat=0xF9:=by decide
  by_cases hpw3 : card.app.pw3Verified=true
  · by_cases htold : data=[] ∧ chained=false
    · refine ⟨swWrongData,by decide,?_⟩
      unfold cmdPutData putKdfDo
      rw [appGets_bind,hpw3,htag]
      simp [htold,apduSw]
    · have hput : cmdPutData dev cr (putKdfDo data le chained) card=applyKdfDo cr data card:=by
        unfold cmdPutData putKdfDo
        rw [appGets_bind,hpw3,htag]
        simp [htold]
      rw [hput]
      exact applyKdfDo_refused cr card htold h
  · exact ⟨swSecurityNotSatisfied,by decide,cmdPutData_locked dev cr le hpw3⟩

variable (dev le) in
theorem cmdGetData_kdfDo (hdata : card.app.kdfDo=data) (hne : data≠[]) (hroom : data.length+2 ≤ card.env.respMax) :
    cmdGetData dev (getKdfDo le) card=(.ok {data:=data,sw:=swOk},card):=by
  have htag : (0x00 : UInt8).toNat*256+(0xF9 : UInt8).toNat=0xF9:=by decide
  have hplain : plainDo dev card 0xF9=some data:=by
    unfold plainDo
    simp [hdata,hne]
  unfold cmdGetData getKdfDo
  dsimp only
  rw [htag,if_neg (by decide),if_neg (by decide),bind_gets,hplain]
  change (Except.ok ({data:=data.take (card.env.respMax-2),sw:=swOk} : Reply),card)=_
  rw [List.take_of_length_le (by omega)]

/-- A card with these references on which nothing goes wrong, after a VERIFY of PW3. -/
def calmCard (r : References) : Card where
  badge:={ newCard.badge with
    pm:={ iterations:=r.iterations,pw1Salt:=r.salt .pw1,pw1Hash:=r.hash .pw1,pw3Salt:=r.salt .pw3,
          pw3Hash:=r.hash .pw3 }
    salts:=r.salts }
  app:={pw3Verified:=true}

theorem calmCard_references (r : References) : (calmCard r).badge.references=r:=by
  have hsalt : (fun pw : Pw=>pw.salt (calmCard r).badge.pm)=r.salt:=by
    funext pw
    cases pw <;> rfl
  have hhash : (fun pw : Pw=>pw.hash (calmCard r).badge.pm)=r.hash:=by
    funext pw
    cases pw <;> rfl
  unfold Badge.references
  rw [hsalt,hhash]
  rfl

theorem calmCard_tracks (r : References) : Tracks (calmCard r).app r True (calmCard r):=
  ⟨rfl,calmCard_references r,fun _=>⟨rfl,rfl,rfl⟩⟩

theorem cmdPutData_calm (dev : Device) (h : KdfDoT.Taken data chained k) (r : References) :
    ∃ t, cmdPutData dev cr (putKdfDo data 0 chained) (calmCard r)=(.ok {sw:=swOk},t) ∧
      t.badge.references=k.onReferences cr r:=by
  have hrun:=applyKdfDo_taken cr h (calmCard r) (calmCard_tracks r)
  rw [cmdPutData_taken dev cr 0 h rfl]
  cases happly : applyKdfDo cr data (calmCard r) with
  | mk reply t=>
    rw [happly] at hrun
    cases reply with
    | ok reply=>
      obtain ⟨rfl,htracks⟩:=hrun
      exact ⟨t,rfl,htracks.references⟩
    | error e=>exact absurd trivial hrun

end Commands

/-- One of the items is the algorithm without a key derivation. -/
def AnnouncesNone (data : Bytes) : Prop:=
  ∃ items, data=encodeAll items ∧ (∀ item∈items, KdfDoT.Known item) ∧ (0x81,[kdfAlgoNone])∈items

/-- The object can be read, the passwords are the initial hashes that came with it, and those without one are as they
were, or as in the factory where the object announces that no key is derived. -/
structure Settled (dev : Device) (cr : GpgCrypto) (data : Bytes) (k : KdfDoT) (w t : Card) : Prop where
  mode : t.app.kdfActive=decide (k.algo≠kdfAlgoNone)
  object : ∀ le, data.length+2 ≤ t.env.respMax →
    cmdGetData dev (getKdfDo le) t=(.ok {data:=data,sw:=swOk},t)
  supplied : ∀ pw v, (k.initial pw).supplied=some v →
    v.length=(kdfHashLen k.hash).toNat ∧ t.badge.references.Refers cr.toCrypto pw v
  others : ∀ pw, (k.initial pw).supplied=none→w.badge.references.Same t.badge.references pw ∨
    AnnouncesNone data ∧ t.badge.references.Refers cr.toCrypto pw (factoryPin pw)

/-- A `PUT DATA` of the object is answered with 9000 and settles it, or with an error and changes nothing. -/
def Honoured (dev : Device) (cr : GpgCrypto) (data : Bytes) (w : Card) (reply : Reply) (t : Card) : Prop:=
  reply.sw=swOk ∧ (∃ k, KdfDoT.parse data=.ok k ∧ Settled dev cr data k w t) ∨ reply.sw≠swOk ∧ t=w

/-- A password that is one of the two is taken for the other. -/
def Alike (cr : GpgCrypto) (v v' : Bytes) : Prop:=
  ∀ iterations salt, Pin.computeKdfHash cr.toCrypto iterations v salt=Pin.computeKdfHash cr.toCrypto iterations v' salt

/-- The initial hashes have the announced length and are not supplied without a key derivation, which is announced. -/
def Honourable (cr : GpgCrypto) (data : Bytes) (chained : Bool) : Prop:=
  ∀ k, KdfDoT.Taken data chained k→∀ pw,
    (∀ v, (k.initial pw).supplied=some v→v.length=(kdfHashLen k.hash).toNat ∧
      (k.algo=kdfAlgoNone → Alike cr v (factoryPin pw))) ∧
    ((k.initial pw).supplied=none→k.algo=kdfAlgoNone → AnnouncesNone data)

section Answers

variable {dev : Device} {cr : GpgCrypto} {data : Bytes} {chained : Bool}

theorem value_algoNone {k : KdfDoT} (halgo : k.algo=kdfAlgoNone) (pw : Pw) : k.value pw=some (factoryPin pw):=
  if_pos halgo

theorem value_pbkdf2 {k : KdfDoT} (halgo : k.algo≠kdfAlgoNone) (pw : Pw) : k.value pw=(k.initial pw).supplied:=
  if_neg halgo

theorem Honourable.settled (h : Honourable cr data chained) {k : KdfDoT} (dev : Device)
    (htaken : KdfDoT.Taken data chained k) {calm : Prop} {w t : Card}
    (ht : Tracks (k.onApplet data w.app) (k.onReferences cr w.badge.references) calm t) :
    Settled dev cr data k w t where
  mode:=by
    rw [ht.app]
    rfl
  object le hroom:=by
    have hdata : t.app.kdfDo=data:=by
      rw [ht.app]
      rfl
    refine cmdGetData_kdfDo dev le hdata ?_ hroom
    rintro rfl
    -- An empty object announces nothing.
    cases htaken.parsed
    obtain ⟨items,hitems,-,hmem⟩:=(h _ htaken .pw1).2 rfl rfl
    cases items with
    | nil=>cases hmem
    | cons item items=>simp [encodeAll,Item.encode] at hitems
  supplied pw v hv:=by
    obtain ⟨hlen,halike⟩:=(h k htaken pw).1 v hv
    refine ⟨hlen,?_⟩
    rw [ht.references]
    by_cases halgo : k.algo=kdfAlgoNone
    · exact (halike halgo _ _).trans (refers_onReferences cr _ htaken (value_algoNone halgo pw))
    · exact refers_onReferences cr _ htaken ((value_pbkdf2 halgo pw).trans hv)
  others pw hnone:=by
    rw [ht.references]
    by_cases halgo : k.algo=kdfAlgoNone
    · exact .inr ⟨(h k htaken pw).2 hnone halgo,refers_onReferences cr _ htaken (value_algoNone halgo pw)⟩
    · exact .inl (same_onReferences ((value_pbkdf2 halgo pw).trans hnone))

theorem Honourable.honoured (h : Honourable cr data chained) {le : ℕ} {w t : Card} {reply : Reply}
    (hput : cmdPutData dev cr (putKdfDo data le chained) w=(.ok reply,t)) : Honoured dev cr data w reply t:=by
  by_cases htaken : ∃ k, KdfDoT.Taken data chained k
  · obtain ⟨k,htaken⟩:=htaken
    by_cases hpw3 : w.app.pw3Verified=true
    · rw [cmdPutData_taken dev cr le htaken hpw3] at hput
      have htracks : Tracks w.app w.badge.references False w:=⟨rfl,rfl,False.elim⟩
      obtain ⟨rfl,ht⟩:=(applyKdfDo_taken cr htaken).ok htracks hput
      exact .inl ⟨rfl,k,htaken.parsed,h.settled dev htaken ht⟩
    · rw [cmdPutData_locked dev cr le hpw3] at hput
      cases hput
      exact .inr ⟨by decide,rfl⟩
  · obtain ⟨sw,hsw,hrefused⟩:=cmdPutData_refused dev cr le w htaken
    rw [hrefused] at hput
    cases hput
    exact .inr ⟨hsw,rfl⟩

theorem Honourable.of_honoured
    (h : ∀ le w reply t, cmdPutData dev cr (putKdfDo data le chained) w=(.ok reply,t) →
      Honoured dev cr data w reply t) : Honourable cr data chained:=by
  intro k htaken pw
  have hsettled : ∀ r : References, ∃ t : Card, t.badge.references=k.onReferences cr r ∧
      Settled dev cr data k (calmCard r) t:=by
    intro r
    obtain ⟨t,hput,hreferences⟩:=cmdPutData_calm dev htaken r
    rcases h 0 _ _ t hput with ⟨-,k',hparse,hsettled⟩ | ⟨hsw,-⟩
    · cases htaken.parsed.symm.trans hparse
      exact ⟨t,hreferences,hsettled⟩
    · exact absurd rfl hsw
  constructor
  · intro v hv
    constructor
    · obtain ⟨t,-,hsettled⟩:=hsettled ⟨0,fun _=>zeros 8,fun _=>zeros 32,[]⟩
      exact (hsettled.supplied pw v hv).1
    · intro halgo iterations salt
      let r : References:=⟨iterations,fun _=>zeros 8,fun _=>zeros 32,List.replicate 2 salt⟩
      obtain ⟨t,hreferences,hsettled⟩:=hsettled r
      have hstored:=refers_onReferences cr r htaken (value_algoNone halgo pw)
      have hkept:=salt_onReferences cr r (value_algoNone halgo pw) le_rfl rfl
      have hrefers:=(hsettled.supplied pw v hv).2
      rw [hreferences] at hrefers
      unfold References.Refers at hrefers hstored
      rw [hkept.1,hkept.2] at hrefers hstored
      exact hrefers.trans hstored.symm
  · intro hnone halgo
    -- A password with a hash that the factory PIN does not get is not as it was.
    obtain ⟨h,hother⟩ : ∃ h : ByteArr 32,
        Pin.computeKdfHash cr.toCrypto 0 (factoryPin pw) (zeros 8)≠some h:=by
      by_cases hzeros : Pin.computeKdfHash cr.toCrypto 0 (factoryPin pw) (zeros 8)=some (zeros 32)
      · refine ⟨fit 32 [1],?_⟩
        rw [hzeros]
        decide
      · exact ⟨zeros 32,hzeros⟩
    let r : References:=⟨0,fun _=>zeros 8,fun _=>h,List.replicate 2 (zeros 8)⟩
    obtain ⟨t,hreferences,hsettled⟩:=hsettled r
    rcases hsettled.others pw hnone with hsame | hannounces
    · rw [hreferences,calmCard_references] at hsame
      have hstored:=refers_onReferences cr r htaken (value_algoNone halgo pw)
      have hkept:=salt_onReferences cr r (value_algoNone halgo pw) le_rfl rfl
      unfold References.Refers at hstored
      rw [hkept.1,hkept.2,hsame.2.2] at hstored
      exact absurd hstored hother
    · exact hannounces.1

end Answers

/-- What is built is parsed again exactly where it was clean, what is parsed is a sequence of known items, and storing
an object keeps its promise exactly where the object can be honoured. -/
theorem kdf_object (dev : Device) (cr : GpgCrypto) (cap : ℕ) (k : KdfDoT) (data : Bytes) (chained : Bool) :
    (∀ bytes, KdfDoT.build cap k=.ok bytes→(KdfDoT.parse bytes=.ok k ↔ k.Clean)) ∧
    ((∃ k, KdfDoT.parse data=.ok k) ↔ ∃ items, data=encodeAll items ∧ ∀ item∈items, KdfDoT.Known item) ∧
    ((∀ le w reply t, cmdPutData dev cr (putKdfDo data le chained) w=(.ok reply,t) →
      Honoured dev cr data w reply t) ↔ Honourable cr data chained):=
  ⟨fun _ h=>KdfDoT.parse_build_iff h,KdfDoT.parse_succeeds_iff data,Honourable.of_honoured,
    fun h _ _ _ _ hput=>h.honoured hput⟩

def hashAlone : Bytes:=[0x82,0x01,0x08]

theorem hashAlone_announces : ¬AnnouncesNone hashAlone:=by
  rintro ⟨items,hitems,hknown,hmem⟩
  have hsplit:=split_encodeAll (length_le_encodeAll items) fun item h=>(hknown item h).short
  rw [← hitems] at hsplit
  have hone : split hashAlone.length hashAlone=some [(0x82,[0x08])]:=rfl
  cases hone.symm.trans hsplit
  revert hmem
  decide

def someReferences : References:=⟨0,fun _=>zeros 8,fun _=>fit 32 [1],[]⟩

theorem kdf_unannounced :
    ∃ t, cmdPutData .plain .plain (putKdfDo hashAlone 0 false) (calmCard someReferences)=(.ok {sw:=swOk},t) ∧
      ¬Honoured .plain .plain hashAlone (calmCard someReferences) {sw:=swOk} t:=by
  have htaken : KdfDoT.Taken hashAlone false {hash:=kdfHashSha256}:=⟨by decide,rfl,by decide,.inl rfl⟩
  obtain ⟨t,hput,hreferences⟩:=cmdPutData_calm .plain htaken someReferences
  refine ⟨t,hput,?_⟩
  rintro (⟨-,k,hparse,hsettled⟩ | ⟨hsw,-⟩)
  · cases htaken.parsed.symm.trans hparse
    rcases hsettled.others .pw1 rfl with hsame | ⟨hannounces,-⟩
    · rw [hreferences,calmCard_references] at hsame
      have hchanged : (KdfDoT.onReferences {hash:=kdfHashSha256} .plain someReferences).hash .pw1≠fit 32 [1]:=by
        decide +kernel
      exact hchanged hsame.2.2
    · exact hashAlone_announces hannounces
  · exact hsw rfl

end CdcBadge.OpenPgp
