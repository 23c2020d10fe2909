import CdcBadge.Base64
import CdcBadge.OpenPgpFrames
import CdcBadge.OpenPgpCalls

/-!
# The public keys of the card

Where the card tells a public key: the answers of GENERATE ASYMMETRIC KEY PAIR, the export as
PEM text and as a packet, and the fingerprints of the keys that the badge generates. The
secure element gives a P-256 point without its prefix, and most of these places look at its
first byte to tell whether there is one.
-/

namespace CdcBadge.OpenPgp

open Handler

section Export

variable (cr : GpgCrypto)

/-- The public point as OpenPGP writes it: `04 || X || Y`, or the 32 bytes of an Ed25519 key. -/
def exportedPoint (key : EccKey) : Bytes:=
  match key.curve with
  | .p256=>0x04::(cr.publicKey key).toList
  | .ed25519=>(cr.publicKey key).toList.take 32

/-- `7F49 { 86 <point> }` -/
def pointDo (point : Bytes) : Bytes:=tlvBuild 0x7F49 (tlvBuild 0x86 point)

/-- The head of a `SubjectPublicKeyInfo`. -/
def derPrefix : EccCurve→Bytes
  | .ed25519=>[0x30,0x2A,0x30,0x05,0x06,0x03,0x2B,0x65,0x70,0x03,0x21,0x00]
  | .p256=>
    [0x30,0x59,0x30,0x13,0x06,0x07,0x2A,0x86,0x48,0xCE,0x3D,0x02,0x01,0x06,0x08,0x2A,0x86,0x48,0xCE,
      0x3D,0x03,0x01,0x07,0x03,0x42,0x00]

def pemBegin : Bytes:=
  [0x2D,0x2D,0x2D,0x2D,0x2D,0x42,0x45,0x47,0x49,0x4E,0x20,0x50,0x55,0x42,0x4C,0x49,0x43,0x20,0x4B,
   0x45,0x59,0x2D,0x2D,0x2D,0x2D,0x2D,0x0A]

def pemEnd : Bytes:=
  [0x2D,0x2D,0x2D,0x2D,0x2D,0x45,0x4E,0x44,0x20,0x50,0x55,0x42,0x4C,0x49,0x43,0x20,0x4B,0x45,0x59,
   0x2D,0x2D,0x2D,0x2D,0x2D,0x0A]

def pemText (curve : EccCurve) (point : Bytes) : Bytes:=
  pemBegin++Base64.encode (derPrefix curve++point)++0x0A::pemEnd

/-- The point in the DER of `gpg_export_pubkey_pem`. -/
def pemPoint (key : EccKey) : Bytes:=
  let pubkey:=stripPrefix key.curve (cr.publicKey key).toList
  match key.curve with
  | .ed25519=>pubkey.take 32
  | .p256=>0x04::pubkey.take 64

/-- `gpg_export_pubkey_pem` into a buffer of `size` bytes. -/
def gpgExportPubkeyPem (size : ℕ) : CardM (Option Bytes):=do
  if size < 256 then pure none
  else
    let d ← appGets (·.toCardData)
    if !openpgpHasAnyKey d then pure none
    else
      match ← seCall (Chip.eccGetPublicKey Role.sig.slot) with
      | .error _=>pure none
      | .ok key=>
        let text:=pemText key.curve (pemPoint cr key)
        if size ≤ text.length then pure none else pure (some text)

def crtRef (c : Cmd) : UInt8:=if 2 ≤ c.data.length then c.data.headD 0 else Role.sig.keyRef

def GeneratesEcc (r : Role) (c : Cmd) (card : Card) : Prop:=
  keyTypeForRef (crtRef c)=r ∧ (roleForKeyRef (crtRef c)).any (fun r=>(card.app.rsa r).isRsa)=false

/-- Wherever the card tells a key of the secure element, it is the key's point that is told. -/
structure PointExported (key : EccKey) : Prop where
  generated : ∀ (dev : Device) (r : Role) (c : Cmd) (card t : Card) (reply : Reply), r≠.dec →
    GeneratesEcc r c card → 72 ≤ card.env.respMax → cmdGenerateKeypair dev cr c card=(.ok reply,t) →
    reply.sw=swOk→t.badge.chip.ecc r.slot=some key → reply.data=pointDo (exportedPoint cr key)
  read : ∀ (dev : Device) (r : Role) (c : Cmd) (card : Card), r≠.dec→GeneratesEcc r c card →
    72 ≤ card.env.respMax → c.p1≠0x80 → card.env.calls=[] → card.badge.chip.ecc r.slot=some key →
    cmdGenerateKeypair dev cr c card=(.ok {data:=pointDo (exportedPoint cr key),sw:=swOk},card)
  pem : ∀ (size : ℕ) (card t : Card) (text : Bytes), gpgExportPubkeyPem cr size card=(.ok (some text),t) →
    t.badge.chip.ecc Role.sig.slot=some key→text=pemText key.curve (exportedPoint cr key)
  pemAnswered : ∀ (size : ℕ) (card : Card), 256 ≤ size → openpgpHasAnyKey card.app.toCardData=true →
    card.env.calls=[] → card.badge.chip.ecc Role.sig.slot=some key →
    gpgExportPubkeyPem cr size card=(.ok (some (pemText key.curve (exportedPoint cr key))),card)
  packet : ∀ (card t : Card) (self : GpgRecv.RecvKey), loadOwnSigKey cr card=(.ok (some self),t) →
    t.badge.chip.ecc Role.sig.slot=some key →
    buildPubkeyBody self=some (publicKeyBody key.curve (cr.publicKey key).toList self.createdAt)
  packetLoaded : ∀ card : Card, openpgpHasAnyKey card.app.toCardData=true → card.env.calls=[] →
    card.badge.chip.ecc Role.sig.slot=some key→∃ self, loadOwnSigKey cr card=(.ok (some self),card)
  fingerprint : ∀ (dev : Device) (curve : EccCurve) (r : Role) (card t : Card), r≠.dec →
    gpgGenerateKey dev cr curve card=(.ok true,t)→t.badge.chip.ecc r.slot=some key →
    ∃ createdAt, t.app.genTime r=fit 4 (be32 createdAt) ∧
      t.app.fingerprint r=fingerprintV4 cr (publicKeyBody key.curve (cr.publicKey key).toList createdAt)

def HoldsDec (point : ByteArr 64) (key : ByteArr 32) (chip : Chip Bytes) : Prop:=
  ∃ privkey nonce, nonce.length=nonceSize ∧ cr.ecdhPublic privkey=some point ∧
    chip.rmem rmemSlotDecKey=some (sealedRecord cr key rmemSlotDecKey decKeyMagic nonce privkey.toList)

/-- Wherever the card tells the key for encryption, it is the point of the scalar that is stored. -/
structure DecExported : Prop where
  generated : ∀ (dev : Device) (c : Cmd) (card t : Card) (reply : Reply), GeneratesEcc .dec c card →
    72 ≤ card.env.respMax → c.p1=0x80 → cmdGenerateKeypair dev cr c card=(.ok reply,t) → reply.sw=swOk →
    ∃ point key, HoldsDec cr point key t.badge.chip ∧ reply.data=pointDo (0x04::point.toList)
  read : ∀ (dev : Device) (c : Cmd) (card : Card) (point : ByteArr 64), GeneratesEcc .dec c card →
    72 ≤ card.env.respMax → c.p1≠0x80 → card.env.calls=[] →
    HoldsDec cr point (storageKey cr dev.chipId rmemSlotDecKey none) card.badge.chip →
    cmdGenerateKeypair dev cr c card=(.ok {data:=pointDo (0x04::point.toList),sw:=swOk},card)
  packet : ∀ (dev : Device) (card : Card) (point : ByteArr 64), card.env.calls=[] →
    HoldsDec cr point (storageKey cr dev.chipId rmemSlotDecKey none) card.badge.chip →
    gpgGetDecPubkey dev cr card=(.ok (some point),card)
  fingerprint : ∀ (dev : Device) (curve : EccCurve) (card t : Card),
    gpgGenerateKey dev cr curve card=(.ok true,t)→∃ point key createdAt, HoldsDec cr point key t.badge.chip ∧
      t.app.genTime .dec=fit 4 (be32 createdAt) ∧
      t.app.fingerprint .dec=fingerprintV4 cr (ecdhPublicKeyBody point.toList createdAt)

/-- A P-256 key whose X coordinate starts with the byte of a prefix. -/
def LooksPrefixed (key : EccKey) : Prop:=key.curve=.p256 ∧ (cr.publicKey key).toList.head? = some 0x04

end Export

section Points

variable {cr : GpgCrypto} {key : EccKey}

theorem length_exportedPoint : (exportedPoint cr key).length ≤ 65:=by
  unfold exportedPoint
  split <;> simp

theorem encodePubkeyWithPrefix_eq (h : ¬LooksPrefixed cr key) (stale : UInt8) :
    encodePubkeyWithPrefix ((cr.publicKey key).toList++[stale]) key.curve=exportedPoint cr key:=by
  have hlength : (cr.publicKey key).toList.length=64:=by simp
  unfold encodePubkeyWithPrefix exportedPoint
  cases hcurve : key.curve with
  | ed25519=>
    dsimp only
    rw [List.take_append_of_le_length (by omega)]
  | p256=>
    have hhead : ((cr.publicKey key).toList++[stale]).head? ≠ some 0x04:=by
      rw [List.head?_append_of_ne_nil _ (List.ne_nil_of_length_pos (by omega))]
      exact fun hfirst=>h ⟨hcurve,hfirst⟩
    dsimp only
    rw [if_neg hhead,List.take_append_of_le_length (by omega),List.take_of_length_le (by omega)]

theorem stripPrefix_eq (h : ¬LooksPrefixed cr key) :
    stripPrefix key.curve (cr.publicKey key).toList=(cr.publicKey key).toList:=if_neg h

theorem pemPoint_eq (h : ¬LooksPrefixed cr key) : pemPoint cr key=exportedPoint cr key:=by
  unfold pemPoint exportedPoint
  rw [stripPrefix_eq h]
  cases key.curve with
  | ed25519=>rfl
  | p256=>
    dsimp only
    rw [List.take_of_length_le (by simp)]

/-- A word that is the same after a byte moves from its end to its front has that byte there. -/
theorem append_singleton_eq_cons {p : Bytes} {x y : UInt8} (h : p++[x]=y::p) : x=y:=by
  have hsum:=congrArg (fun bs : Bytes=>(bs.map UInt8.toNat).sum) h
  simp only [List.map_append,List.map_cons,List.map_nil,List.sum_append,List.sum_cons,List.sum_nil] at hsum
  exact UInt8.toNat_inj.mp (by omega)

theorem length_pointDo {point : Bytes} (h : point.length ≤ 65) : (pointDo point).length ≤ 70:=by
  have hinner : (tlvBuild 0x86 point).length=2+point.length:=by
    simp [tlvBuild,tlvWriteTag,tlvWriteLen,show point.length < 128 by omega]
    omega
  unfold pointDo
  rw [tlvBuild,List.length_append,List.length_append,hinner]
  simp [tlvWriteTag,tlvWriteLen,show 2+point.length < 128 by omega]
  omega

theorem pointDo_inj {p q : Bytes} (hlength : p.length=q.length) (h : pointDo p=pointDo q) : p=q:=by
  simp only [pointDo,tlvBuild,List.length_append,hlength] at h
  exact List.append_cancel_left (List.append_cancel_left h)

theorem buildResponse_pointDo {card : Card} {point : Bytes} (hpoint : point.length ≤ 65)
    (hroom : 72 ≤ card.env.respMax) :
    buildResponse (pointDo point) card=(.ok {data:=pointDo point,sw:=swOk},card):=by
  have hlength:=length_pointDo hpoint
  unfold buildResponse
  rw [bind_gets,List.take_of_length_le (by omega)]
  rfl

end Points

section Generate

variable {dev : Device} {cr : GpgCrypto} {c : Cmd} {card : Card} {r : Role} {key : EccKey}

theorem cmdGenerateKeypair_ecc (h : GeneratesEcc r c card) : cmdGenerateKeypair dev cr c card =
    (if c.p1=0x80 then
      if !card.app.pw3Verified then apduSw swSecurityNotSatisfied else generateEcc dev cr r (crtRef c)
    else reportPublicKey dev cr r) card:=by
  obtain ⟨hrole,hrsa⟩:=h
  unfold cmdGenerateKeypair
  rw [appGets_bind,appGets_bind]
  change (if (roleForKeyRef (crtRef c)).any (fun r=>(card.app.rsa r).isRsa)=true then _ else _ : CardM Reply) card=_
  rw [hrsa,if_neg Bool.false_ne_true]
  change (if c.p1=0x80 then if !card.app.pw3Verified then _ else
      generateEcc dev cr (keyTypeForRef (crtRef c)) (crtRef c)
    else reportPublicKey dev cr (keyTypeForRef (crtRef c)) : CardM Reply) card=_
  rw [hrole]

theorem quiet_respMax (n : ℕ) : Quiet fun c=>n ≤ c.env.respMax where
  badge _ _ hc:=hc
  env _ _ he hc:=he ▸ hc
  nvs _ _ hc:=hc
  cert _ _ hc:=hc
  data _ _ _ hc:=hc
  resp _ _ hc:=hc

theorem readPublicKey_told (hr : r≠.dec) : Triple (fun _=>True) (readPublicKey dev cr r)
    (fun res c=>∀ pk, res=some pk→∃ key stale, c.badge.chip.ecc r.slot=some key ∧
      pk=((cr.publicKey key).toList++[stale],key.curve)) fun _ _=>True:=by
  apply Triple.bind (Q:=fun _ _=>True) (Triple.gets fun _ h=>h) fun stale=>?_
  rw [if_neg hr]
  apply Triple.bind (eccGetPublicKey_told _) fun reply=>?_
  cases reply with
  | error e=>
    apply Triple.pure
    intro c _ pk hpk
    cases hpk
  | ok key=>
    apply Triple.pure
    intro c h pk hpk
    cases hpk
    exact ⟨key,stale,h key rfl,rfl⟩

/-- A public key that is reported without an error is that of the slot, where it does not look prefixed. -/
theorem reportPublicKey_told (hr : r≠.dec) : Triple (fun c=>72 ≤ c.env.respMax) (reportPublicKey dev cr r)
    (fun reply c=>reply.sw=swOk→∀ key, ¬LooksPrefixed cr key → c.badge.chip.ecc r.slot=some key →
      reply.data=pointDo (exportedPoint cr key)) fun _ _=>True:=by
  have htold : Triple (fun _=>True) (readPublicKey dev cr r) (fun res c=>∀ pk, res=some pk→∃ key stale,
      c.badge.chip.ecc r.slot=some key ∧ pk=((cr.publicKey key).toList++[stale],key.curve)) fun _ _=>True:=
    readPublicKey_told hr
  have hread:=(htold.and ((quiet_respMax 72).readPublicKey r)).conseq
    (fun c hc=>⟨trivial,hc⟩) (fun _ _ h=>h) fun _ _ _=>trivial
  apply Triple.bind hread fun res=>?_
  cases res with
  | none=>
    apply Triple.pure
    intro c _ hsw
    exact absurd hsw (by decide)
  | some pk=>
    intro c hc
    obtain ⟨key,stale,hslot,rfl⟩:=hc.1 pk rfl
    dsimp only
    have hpure : ∀ key', ¬LooksPrefixed cr key' → c.badge.chip.ecc r.slot=some key' →
        publicKeyDo ((cr.publicKey key).toList++[stale]) key.curve=pointDo (exportedPoint cr key'):=by
      intro key' hplain hslot'
      obtain rfl : key=key':=Option.some.inj (hslot.symm.trans hslot')
      exact congrArg pointDo (encodePubkeyWithPrefix_eq hplain stale)
    intro _ key' hplain hslot'
    have hlength:=length_pointDo (show (exportedPoint cr key').length ≤ 65 from length_exportedPoint)
    have hroom : 72 ≤ c.env.respMax:=hc.2
    rw [hpure key' hplain hslot']
    apply List.take_of_length_le
    change _ ≤ c.env.respMax-2
    omega

theorem generateEcc_told (hr : r≠.dec) (keyRef : UInt8) :
    Triple (fun c=>72 ≤ c.env.respMax) (generateEcc dev cr r keyRef)
      (fun reply c=>reply.sw=swOk→∀ key, ¬LooksPrefixed cr key → c.badge.chip.ecc r.slot=some key →
        reply.data=pointDo (exportedPoint cr key)) fun _ _=>True:=by
  have hquiet:=quiet_respMax 72
  apply Triple.bind (Q:=fun (_ : EccCurve) (c : Card)=>72 ≤ c.env.respMax) (Triple.gets fun _ h=>h) fun curve=>?_
  rw [if_neg hr]
  apply Triple.bind ((hquiet.seGenerate r.slot curve).conseq (fun _ h=>h) (fun _ _ h=>h) fun _ _ _=>trivial)
  intro ok
  cases ok with
  | false=>
    apply Triple.pure
    intro c _ hsw
    exact absurd hsw (by decide)
  | true=>
    exact Triple.bind ((hquiet.updateGenerationTimestamp keyRef).conseq (fun _ h=>h) (fun _ _ h=>h)
      fun _ _ _=>trivial) fun _=>reportPublicKey_told hr

theorem generated_told (hr : r≠.dec) (h : GeneratesEcc r c card) (hroom : 72 ≤ card.env.respMax) {t : Card}
    {reply : Reply} (hrun : cmdGenerateKeypair dev cr c card=(.ok reply,t)) (hsw : reply.sw=swOk)
    (hplain : ¬LooksPrefixed cr key) (hkey : t.badge.chip.ecc r.slot=some key) :
    reply.data=pointDo (exportedPoint cr key):=by
  rw [cmdGenerateKeypair_ecc h] at hrun
  split_ifs at hrun
  · cases hrun
    exact absurd hsw (by decide)
  · exact (generateEcc_told hr _).ok hroom hrun hsw key hplain hkey
  · exact (reportPublicKey_told hr).ok hroom hrun hsw key hplain hkey

theorem reportPublicKey_calm (hr : r≠.dec) (hcalm : card.env.calls=[]) (hkey : card.badge.chip.ecc r.slot=some key) :
    reportPublicKey dev cr r card =
      buildResponse (publicKeyDo ((cr.publicKey key).toList++[card.env.stale]) key.curve) card:=by
  have hslot : r.slot < Chip.eccSlotCount:=by cases r <;> decide
  have hget:=Chip.eccGetPublicKey_some hslot hkey
  have hcall:=seCall_calm (Chip.eccGetPublicKey r.slot) hcalm (by rw [hget])
  have hread : readPublicKey dev cr r card =
      (.ok (some ((cr.publicKey key).toList++[card.env.stale],key.curve)),card):=by
    unfold readPublicKey
    rw [bind_gets,if_neg hr,bind_of_ok hcall,hget]
    rfl
  unfold reportPublicKey
  rw [bind_of_ok hread]

theorem read_told (hr : r≠.dec) (h : GeneratesEcc r c card) (hroom : 72 ≤ card.env.respMax) (hp1 : c.p1≠0x80)
    (hcalm : card.env.calls=[]) (hkey : card.badge.chip.ecc r.slot=some key) (hplain : ¬LooksPrefixed cr key) :
    cmdGenerateKeypair dev cr c card=(.ok {data:=pointDo (exportedPoint cr key),sw:=swOk},card):=by
  rw [cmdGenerateKeypair_ecc h,if_neg hp1,reportPublicKey_calm hr hcalm hkey]
  unfold publicKeyDo
  rw [encodePubkeyWithPrefix_eq hplain]
  exact buildResponse_pointDo length_exportedPoint hroom

end Generate

section Exports

variable {cr : GpgCrypto} {card t : Card} {key : EccKey}

theorem pem_told (hplain : ¬LooksPrefixed cr key) {size : ℕ} {text : Bytes}
    (hrun : gpgExportPubkeyPem cr size card=(.ok (some text),t))
    (hkey : t.badge.chip.ecc Role.sig.slot=some key) : text=pemText key.curve (exportedPoint cr key):=by
  unfold gpgExportPubkeyPem at hrun
  split_ifs at hrun
  · cases hrun
  rw [appGets_bind] at hrun
  split_ifs at hrun
  · cases hrun
  obtain ⟨reply,s,hcall,hrun⟩:=bind_ok.mp hrun
  cases reply with
  | error e=>cases hrun
  | ok key'=>
    dsimp only at hrun
    have hslot:=(eccGetPublicKey_told Role.sig.slot).ok trivial hcall key' rfl
    split_ifs at hrun
    · cases hrun
    · cases hrun
      obtain rfl : key'=key:=Option.some.inj (hslot.symm.trans hkey)
      rw [pemPoint_eq hplain]

theorem length_pemText (h : (exportedPoint cr key).length ≤ 65) :
    (pemText key.curve (exportedPoint cr key)).length < 256:=by
  have hfront : (derPrefix key.curve).length ≤ 26:=by cases key.curve <;> decide
  have hbegin : pemBegin.length=27:=rfl
  have hend : pemEnd.length=25:=rfl
  unfold pemText
  rw [List.length_append,List.length_append,Base64.length_encode,List.length_append,List.length_cons,hbegin,hend]
  omega

theorem pem_calm (hplain : ¬LooksPrefixed cr key) {size : ℕ} (hsize : 256 ≤ size)
    (hany : openpgpHasAnyKey card.app.toCardData=true) (hcalm : card.env.calls=[])
    (hkey : card.badge.chip.ecc Role.sig.slot=some key) :
    gpgExportPubkeyPem cr size card=(.ok (some (pemText key.curve (exportedPoint cr key))),card):=by
  have hget:=Chip.eccGetPublicKey_some (by decide) hkey
  have hcall:=seCall_calm (Chip.eccGetPublicKey Role.sig.slot) hcalm (by rw [hget])
  have hlength:=length_pemText (show (exportedPoint cr key).length ≤ 65 from length_exportedPoint)
  unfold gpgExportPubkeyPem
  rw [if_neg (by omega),appGets_bind]
  simp only [hany,Bool.not_true,Bool.false_eq_true,if_false]
  rw [bind_of_ok hcall,hget]
  dsimp only
  rw [pemPoint_eq hplain,if_neg (by omega)]
  rfl

theorem buildPubkeyBody_loaded (hplain : ¬LooksPrefixed cr key) {self : GpgRecv.RecvKey}
    (hcurve : self.curve=curveCode key.curve)
    (hpubkey : self.pubkey=fit 64 ((stripPrefix key.curve (cr.publicKey key).toList).take
      (if key.curve=.ed25519 then 32 else 64)))
    (hlen : self.pubkeyLen=UInt8.ofNat (if key.curve=.ed25519 then 32 else 64)) :
    buildPubkeyBody self=some (publicKeyBody key.curve (cr.publicKey key).toList self.createdAt):=by
  have hlength : (cr.publicKey key).toList.length=64:=by simp
  unfold buildPubkeyBody
  rw [hcurve,curveOfCode_curveCode,hpubkey,hlen,stripPrefix_eq hplain]
  dsimp only
  -- The field holds the first bytes of the point, and the body takes as many of it.
  have hfield : ∀ m ≤ 64, (fit 64 ((cr.publicKey key).toList.take m)).toList.take m=(cr.publicKey key).toList.take m:=by
    intro m hm
    have hmin : ((cr.publicKey key).toList.take m).length=m:=by rw [List.length_take,hlength]; omega
    have htake:=take_fit (n:=64) (hmin.le.trans hm)
    rwa [hmin] at htake
  cases key.curve with
  | ed25519=>
    have htake:=hfield 32 (by decide)
    rw [if_neg (by decide)]
    simp only [publicKeyBody,if_true,htake]
  | p256=>
    have htake:=hfield 64 (by decide)
    rw [if_neg (by decide)]
    simp only [publicKeyBody,reduceCtorEq,if_false,htake]

theorem packet_told (hplain : ¬LooksPrefixed cr key) {self : GpgRecv.RecvKey}
    (hrun : loadOwnSigKey cr card=(.ok (some self),t)) (hkey : t.badge.chip.ecc Role.sig.slot=some key) :
    buildPubkeyBody self=some (publicKeyBody key.curve (cr.publicKey key).toList self.createdAt):=by
  unfold loadOwnSigKey at hrun
  obtain ⟨status,s,-,hrun⟩:=bind_ok.mp hrun
  cases status with
  | none=>cases hrun
  | some status=>
    obtain ⟨reply,s',hcall,hrun⟩:=bind_ok.mp hrun
    cases reply with
    | error e=>cases hrun
    | ok key'=>
      have hslot:=(eccGetPublicKey_told Role.sig.slot).ok trivial hcall key' rfl
      cases hrun
      obtain rfl : key'=key:=Option.some.inj (hslot.symm.trans hkey)
      exact buildPubkeyBody_loaded hplain rfl rfl rfl

end Exports

section Fingerprints

variable {cr : GpgCrypto} {dev : Device}

/-- The fingerprints of some roles are stored with the time of generation. -/
def Stored (fps : Role→ByteArr 20) (createdAt : UInt32) (roles : List Role) (chip : Chip Bytes)
    (v : Chip Bytes × Applet) : Prop:=
  v.1=chip ∧ ∀ r∈roles, v.2.fingerprint r=fps r ∧ v.2.genTime r=fit 4 (be32 createdAt)

variable {fps : Role→ByteArr 20} {createdAt : UInt32} {roles : List Role} {chip : Chip Bytes}

theorem saveStateToNvs_stored : Triple (fun c=>Stored fps createdAt roles chip c.view) (saveStateToNvs cr)
    (fun _ c=>Stored fps createdAt roles chip c.view) fun _ _=>True:=
  (keeps_of_fixes (fixes_saveStateToNvs cr) _).conseq (fun _ h=>h) (fun _ _ h=>h) fun _ _ _=>trivial

theorem setFingerprint_stored (r : Role) : Triple (fun c=>Stored fps createdAt roles chip c.view)
    (openpgpSetKeyFingerprint cr r (fps r) createdAt)
    (fun _ c=>Stored fps createdAt (r::roles) chip c.view) fun _ _=>True:=by
  apply Triple.bind (Q:=fun (_ : Unit) (c : Card)=>Stored fps createdAt (r::roles) chip c.view)
  · apply Triple.modify
    intro c hc
    refine ⟨hc.1,fun r' hr'=>?_⟩
    by_cases hsame : r'=r
    · subst hsame
      exact ⟨Function.update_self ..,Function.update_self ..⟩
    · obtain ⟨hfp,htime⟩:=hc.2 r' ((List.mem_cons.mp hr').resolve_left hsame)
      exact ⟨(Function.update_of_ne hsame ..).trans hfp,(Function.update_of_ne hsame ..).trans htime⟩
  · exact fun _=>saveStateToNvs_stored

theorem setCardholderName_stored (name : Bytes) : Triple (fun c=>Stored fps createdAt roles chip c.view)
    (openpgpSetCardholderName cr name) (fun _ c=>Stored fps createdAt roles chip c.view) fun _ _=>True:=by
  apply Triple.bind (Q:=fun (_ : Unit) (c : Card)=>Stored fps createdAt roles chip c.view)
  · exact Triple.modify fun c hc=>hc
  · exact fun _=>saveStateToNvs_stored

theorem publishName_stored : Triple (fun c=>Stored fps createdAt roles chip c.view)
    (do
      let userId ← appGets (·.pendingUserId)
      when (userId≠[]) (openpgpSetCardholderName cr userId)
      updateApp fun a=>{a with pendingUserId:=[]}
      pure true)
    (fun _ c=>Stored fps createdAt roles chip c.view) fun _ _=>True:=by
  have hstep : ∀ userId : Bytes, Triple (fun c=>Stored fps createdAt roles chip c.view)
      (when (userId≠[]) (openpgpSetCardholderName cr userId))
      (fun _ c=>Stored fps createdAt roles chip c.view) fun _ _=>True:=fun userId=>
    Triple.when (fun _=>setCardholderName_stored userId) fun _ c hc=>hc
  apply Triple.bind (Q:=fun (_ : Bytes) (c : Card)=>Stored fps createdAt roles chip c.view)
  · exact Triple.gets fun c hc=>hc
  · intro userId
    apply Triple.bind (hstep userId) fun _=>?_
    apply Triple.bind (Q:=fun (_ : Unit) (c : Card)=>Stored fps createdAt roles chip c.view)
    · exact Triple.modify fun c hc=>hc
    · exact fun _=>Triple.pure fun c hc=>hc

/-- The end of the generation stores the fingerprints of the keys that the chip holds. -/
theorem publishKeys_told (dec : ByteArr 64) (chip : Chip Bytes) : Triple (fun c=>c.badge.chip=chip) (publishKeys cr dec)
    (fun ok c=>ok=true→∃ fps createdAt, Stored fps createdAt [.aut,.dec,.sig] chip c.view ∧
      (∀ r key, r≠Role.dec → chip.ecc r.slot=some key →
        fps r=fingerprintV4 cr (publicKeyBody key.curve (cr.publicKey key).toList createdAt)) ∧
      fps .dec=fingerprintV4 cr (ecdhPublicKeyBody dec.toList createdAt)) fun _ _=>True:=by
  have hget : ∀ r : Role, Triple (fun c=>c.badge.chip=chip) (seGetPubkey r)
      (fun key c=>(∀ k, key=some k → chip.ecc r.slot=some k) ∧ c.badge.chip=chip) fun _ _=>True:=by
    intro r
    have hfixes : Fixes Card.view (seGetPubkey r):=by
      apply Fixes.bind (fixes_seCall (Chip.eccGetPublicKey_chip _)) fun reply=>?_
      cases reply <;> exact Fixes.pure _
    refine ((seGetPubkey_told r).and (keeps_of_fixes hfixes fun v=>v.1=chip)).conseq (fun c hc=>⟨trivial,hc⟩) ?_
      fun _ _ _=>trivial
    rintro key c ⟨htold,hchip⟩
    have hchip' : c.badge.chip=chip:=hchip
    rw [hchip'] at htold
    exact ⟨htold,hchip'⟩
  apply Triple.bind (Q:=fun (_ : UInt32) (c : Card)=>c.badge.chip=chip) (Triple.gets fun _ h=>h) fun createdAt=>?_
  apply Triple.bind (hget .sig) fun sig=>Triple.pre fun hsig=>?_
  cases sig with
  | none=>
    apply Triple.pure
    intro c _ hfalse
    cases hfalse
  | some sig=>
    apply Triple.bind (hget .aut) fun aut=>Triple.pre fun haut=>?_
    cases aut with
    | none=>
      apply Triple.pure
      intro c _ hfalse
      cases hfalse
    | some aut=>
      let fp (k : EccKey):=fingerprintV4 cr (publicKeyBody k.curve (cr.publicKey k).toList createdAt)
      let fps (r : Role) : ByteArr 20:=
        r.casesOn (fp sig) (fingerprintV4 cr (ecdhPublicKeyBody dec.toList createdAt)) (fp aut)
      apply Triple.conseq (Q:=fun _ c=>Stored fps createdAt [.aut,.dec,.sig] chip c.view)
        (P:=fun c=>Stored fps createdAt [] chip c.view) (E:=fun _ _=>True)
      · apply Triple.bind (setFingerprint_stored .sig) fun _=>?_
        apply Triple.bind (setFingerprint_stored .dec) fun _=>?_
        apply Triple.bind (setFingerprint_stored .aut) fun _=>?_
        exact publishName_stored
      · exact fun c hc=>⟨hc,fun r hr=>by cases hr⟩
      · intro ok c hc _
        refine ⟨fps,createdAt,hc,?_,rfl⟩
        intro r key hr hkey
        cases r with
        | sig=>
          obtain rfl : sig=key:=Option.some.inj ((hsig sig rfl).symm.trans hkey)
          rfl
        | dec=>exact absurd rfl hr
        | aut=>
          obtain rfl : aut=key:=Option.some.inj ((haut aut rfl).symm.trans hkey)
          rfl
      · exact fun _ _ h=>h

end Fingerprints

section Dec

variable {cr : GpgCrypto} {dev : Device}

theorem generateDecKey_told : Triple (fun _=>True) (generateDecKey dev cr)
    (fun res c=>∀ point, res=some point→∃ key, HoldsDec cr point key c.badge.chip) fun _ _=>True:=by
  apply Triple.bind (trivially _) fun privkey=>?_
  cases hpoint : cr.ecdhPublic privkey with
  | none=>
    apply Triple.pure
    intro c _ point hsome
    cases hsome
  | some point=>
    apply Triple.bind (saveSlotEncrypted_told _ _ _ _) fun ok=>?_
    cases ok with
    | false=>
      apply Triple.pure
      intro c _ point hsome
      cases hsome
    | true=>
      apply Triple.pure
      intro c hc point' hsome
      cases hsome
      obtain ⟨key,nonce,hlength,hrecord⟩:=hc rfl
      exact ⟨key,privkey,nonce,hlength,hpoint,hrecord⟩

/-- A generation that succeeds leaves the fingerprints of the keys that the chip holds then. -/
theorem gpgGenerateKey_told (curve : EccCurve) : Triple (fun _=>True) (gpgGenerateKey dev cr curve)
    (fun ok c=>ok=true→∃ dec key fps createdAt, HoldsDec cr dec key c.badge.chip ∧
      Stored fps createdAt [.aut,.dec,.sig] c.badge.chip c.view ∧
      (∀ r key, r≠Role.dec → c.badge.chip.ecc r.slot=some key →
        fps r=fingerprintV4 cr (publicKeyBody key.curve (cr.publicKey key).toList createdAt)) ∧
      fps .dec=fingerprintV4 cr (ecdhPublicKeyBody dec.toList createdAt)) fun _ _=>True:=by
  have hfails : Triple (fun _=>True) (pure false : CardM Bool) (fun ok c=>ok=true →
      ∃ dec key fps createdAt, HoldsDec cr dec key c.badge.chip ∧
        Stored fps createdAt [.aut,.dec,.sig] c.badge.chip c.view ∧
        (∀ r key, r≠Role.dec → c.badge.chip.ecc r.slot=some key →
          fps r=fingerprintV4 cr (publicKeyBody key.curve (cr.publicKey key).toList createdAt)) ∧
        fps .dec=fingerprintV4 cr (ecdhPublicKeyBody dec.toList createdAt)) fun _ _=>True:=by
    apply Triple.pure
    intro c _ hfalse
    cases hfalse
  apply Triple.bind (trivially _) fun ready=>Triple.ite (fun _=>hfails) fun _=>?_
  apply Triple.bind (trivially _) fun sig=>Triple.ite (fun _=>hfails) fun _=>?_
  apply Triple.bind (trivially _) fun aut=>Triple.ite (fun _=>hfails) fun _=>?_
  apply Triple.bind (trivially _) fun _=>?_
  apply Triple.bind generateDecKey_told fun res=>?_
  cases res with
  | none=>exact hfails.conseq (fun _ _=>trivial) (fun _ _ h=>h) fun _ _ h=>h
  | some dec=>
    apply Triple.named
    intro c hc
    obtain ⟨key,hholds⟩:=hc dec rfl
    apply Triple.conseq (publishKeys_told dec c.badge.chip) (fun _ h=>congrArg (·.badge.chip) h) _ fun _ _ h=>h
    rintro ok t h hok
    obtain ⟨fps,createdAt,hstored,hkeys,hdec⟩:=h hok
    have hchip : t.badge.chip=c.badge.chip:=hstored.1
    rw [hchip]
    exact ⟨dec,key,fps,createdAt,hholds,hstored,hkeys,hdec⟩

theorem publicKeyDo_dec (point : ByteArr 64) :
    publicKeyDo (0x04::point.toList) .p256=pointDo (0x04::point.toList):=by
  unfold publicKeyDo encodePubkeyWithPrefix
  rw [List.head?_cons,if_pos rfl,List.take_of_length_le (by simp)]
  rfl

theorem generateEcc_dec_told (keyRef : UInt8) : Triple (fun c=>72 ≤ c.env.respMax) (generateEcc dev cr .dec keyRef)
    (fun reply c=>reply.sw=swOk →
      ∃ point key, HoldsDec cr point key c.badge.chip ∧ reply.data=pointDo (0x04::point.toList)) fun _ _=>True:=by
  have hquiet:=quiet_respMax 72
  apply Triple.bind (Q:=fun (_ : EccCurve) (c : Card)=>72 ≤ c.env.respMax) (Triple.gets fun _ h=>h) fun curve=>?_
  rw [if_pos rfl]
  have htold : Triple (fun _=>True) (generateDecKey dev cr)
      (fun res c=>∀ point, res=some point→∃ key, HoldsDec cr point key c.badge.chip) fun _ _=>True:=
    generateDecKey_told
  have hgenerate:=(htold.and hquiet.generateDecKey).conseq
    (fun c hc=>⟨trivial,hc⟩) (fun _ _ h=>h) fun _ _ _=>trivial
  apply Triple.bind hgenerate fun res=>?_
  cases res with
  | none=>
    apply Triple.pure
    intro c _ hsw
    exact absurd hsw (by decide)
  | some point=>
    apply Triple.named
    intro c hc
    obtain ⟨key,hholds⟩:=hc.1 point rfl
    have hroom : 72 ≤ c.env.respMax:=hc.2
    have hstamp : Triple (fun t=>t=c) (updateGenerationTimestamp cr keyRef)
        (fun _ t=>t.badge.chip=c.badge.chip ∧ 72 ≤ t.env.respMax) fun _ _=>True:=by
      refine ((fixes_updateGenerationTimestamp keyRef c.badge.chip).and (hquiet.updateGenerationTimestamp keyRef)).conseq
        ?_ (fun _ _ h=>h) fun _ _ _=>trivial
      rintro t rfl
      exact ⟨rfl,hroom⟩
    apply Triple.bind hstamp fun _=>?_
    intro t ht
    rw [publicKeyDo_dec,buildResponse_pointDo (by simp) ht.2]
    intro _
    have hchip : t.badge.chip=c.badge.chip:=ht.1
    exact ⟨point,key,hchip ▸ hholds,rfl⟩

section Reading

variable {c : Cmd} {card : Card} {point : ByteArr 64} (hcalm : card.env.calls=[])
  (hholds : HoldsDec cr point (storageKey cr dev.chipId rmemSlotDecKey none) card.badge.chip)
include hholds

theorem HoldsDec.stored : ∃ record privkey, card.badge.chip.rmem rmemSlotDecKey=some record ∧ record.length=64 ∧
    record.take magicSize=decKeyMagic ∧ storedDecKey dev cr card.badge.chip=some privkey ∧
    cr.ecdhPublic privkey=some point:=by
  obtain ⟨privkey,nonce,hnonce,hpoint,hrecord⟩:=hholds
  have hlength : (sealedRecord cr (storageKey cr dev.chipId rmemSlotDecKey none) rmemSlotDecKey decKeyMagic nonce
      privkey.toList).length=magicSize+nonceSize+privkey.toList.length+tagSize:=length_sealedRecord cr rfl hnonce
  have hopen : openRecord cr (storageKey cr dev.chipId rmemSlotDecKey none) rmemSlotDecKey decKeyMagic
      privkey.toList.length (sealedRecord cr (storageKey cr dev.chipId rmemSlotDecKey none) rmemSlotDecKey decKeyMagic nonce
        privkey.toList)=some privkey.toList:=openRecord_sealedRecord cr rfl hnonce
  simp only [List.Vector.toList_length,magicSize,nonceSize,tagSize] at hlength hopen
  refine ⟨_,privkey,hrecord,hlength,take_sealedRecord cr rfl,?_,hpoint⟩
  unfold storedDecKey
  rw [hrecord]
  dsimp only
  rw [if_neg (by omega),List.take_of_length_le (by omega),if_neg,hopen]
  · simp
  · rw [take_sealedRecord cr rfl,hlength]
    decide

include hcalm

theorem gpgGetDecPubkey_held : gpgGetDecPubkey dev cr card=(.ok (some point),card):=by
  obtain ⟨record,privkey,-,-,-,hload,hpoint⟩:=hholds.stored
  rw [gpgGetDecPubkey_calm dev cr hcalm]
  unfold decPoint
  rw [hload,Option.bind_some,hpoint]

theorem read_dec_told (h : GeneratesEcc .dec c card) (hroom : 72 ≤ card.env.respMax) (hp1 : c.p1≠0x80) :
    cmdGenerateKeypair dev cr c card=(.ok {data:=pointDo (0x04::point.toList),sw:=swOk},card):=by
  obtain ⟨record,privkey,hrecord,hlength,hmagic,hload,hpoint⟩:=hholds.stored
  have hslot : rmemSlotDecKey < Chip.rmemSlotCount:=by decide
  have hhas : gpgStorageHasDecPrivkey dev card=(.ok true,card):=by
    have hread:=rmemRead_calm dev hcalm 64 hslot
    rw [hrecord] at hread
    dsimp only at hread
    rw [if_neg (by omega),List.take_of_length_le (by omega)] at hread
    unfold gpgStorageHasDecPrivkey hasRecord
    rw [bind_of_ok hread]
    dsimp only
    rw [if_neg (by rw [hlength]; decide),List.drop_zero,hmagic]
    rfl
  have hread : readPublicKey dev cr .dec card=(.ok (some (0x04::point.toList,.p256)),card):=by
    have hprivkey:=gpgStorageLoadDecPrivkey_calm dev cr hcalm
    rw [hload] at hprivkey
    unfold readPublicKey
    rw [bind_gets,if_pos rfl,bind_of_ok hhas]
    simp only [Bool.not_true,Bool.false_eq_true,if_false]
    rw [bind_of_ok hprivkey]
    dsimp only
    rw [hpoint]
    rfl
  rw [cmdGenerateKeypair_ecc h,if_neg hp1]
  unfold reportPublicKey
  rw [bind_of_ok hread]
  dsimp only
  rw [publicKeyDo_dec]
  exact buildResponse_pointDo (by simp) hroom

end Reading

theorem dec_exported (cr : GpgCrypto) : DecExported cr where
  generated dev c card t reply h hroom hp1 hrun hsw:=by
    rw [cmdGenerateKeypair_ecc h,if_pos hp1] at hrun
    split_ifs at hrun
    · cases hrun
      exact absurd hsw (by decide)
    · exact (generateEcc_dec_told _).ok hroom hrun hsw
  read dev c card point h hroom hp1 hcalm hholds:=read_dec_told hcalm hholds h hroom hp1
  packet dev card point hcalm hholds:=gpgGetDecPubkey_held hcalm hholds
  fingerprint dev curve card t hrun:=by
    obtain ⟨dec,key,fps,createdAt,hholds,hstored,-,hdec⟩:=(gpgGenerateKey_told curve).ok trivial hrun rfl
    obtain ⟨hfp,htime⟩:=hstored.2 .dec (by simp)
    exact ⟨dec,key,createdAt,hholds,htime,hfp.trans hdec⟩

end Dec

theorem pointExported_of_plain {cr : GpgCrypto} {key : EccKey} (h : ¬LooksPrefixed cr key) : PointExported cr key where
  generated _ _ _ _ _ _ hr hecc hroom hrun hsw hkey:=generated_told hr hecc hroom hrun hsw h hkey
  read _ _ _ _ hr hecc hroom hp1 hcalm hkey:=read_told hr hecc hroom hp1 hcalm hkey h
  pem _ _ _ _ hrun hkey:=pem_told h hrun hkey
  pemAnswered _ _ hsize hany hcalm hkey:=pem_calm h hsize hany hcalm hkey
  packet _ _ _ hrun hkey:=packet_told h hrun hkey
  packetLoaded card hany hcalm hkey:=by
    have hload:=loadOwnSigKey_calm cr hcalm hkey
    rw [hany,if_pos rfl] at hload
    exact ⟨_,hload⟩
  fingerprint dev curve r card t hr hrun hkey:=by
    obtain ⟨dec,key',fps,createdAt,-,hstored,hkeys,-⟩:=(gpgGenerateKey_told curve).ok trivial hrun rfl
    obtain ⟨hfp,htime⟩:=hstored.2 r (by cases r <;> simp)
    exact ⟨createdAt,htime,hfp.trans (hkeys r key hr hkey)⟩

def cardWith (key : EccKey) : Card where
  badge:={chip:={ecc:=fun _=>some key,rmem:=fun _=>none}}
  app:={fingerprint:=fun _=>fit 20 [1]}
  on:=true

def readSig : Cmd:=⟨0x47,0x81,0x00,[0xB6,0x00],256,false⟩

theorem plain_of_pointExported {cr : GpgCrypto} {key : EccKey} (h : PointExported cr key) : ¬LooksPrefixed cr key:=by
  rintro ⟨hcurve,hfirst⟩
  have hkey : (cardWith key).badge.chip.ecc Role.sig.slot=some key:=rfl
  have hecc : GeneratesEcc .sig readSig (cardWith key):=⟨rfl,rfl⟩
  have hroom : 72 ≤ (cardWith key).env.respMax:=show 72 ≤ 4096 by decide
  have hread:=h.read .plain .sig readSig (cardWith key) (by decide) hecc hroom (by decide) rfl hkey
  rw [cmdGenerateKeypair_ecc hecc,if_neg (by decide),reportPublicKey_calm (by decide) rfl hkey] at hread
  -- The byte behind the point is taken for the last of it.
  have hlength : (cr.publicKey key).toList.length=64:=by simp
  have hencode : publicKeyDo ((cr.publicKey key).toList++[0x00]) key.curve =
      pointDo ((cr.publicKey key).toList++[0x00]):=by
    have hhead : ((cr.publicKey key).toList++[0x00]).head? = some 0x04:=by
      rw [List.head?_append_of_ne_nil _ (List.ne_nil_of_length_pos (by omega))]
      exact hfirst
    unfold publicKeyDo encodePubkeyWithPrefix
    rw [hcurve]
    dsimp only
    rw [if_pos hhead,List.take_of_length_le (by simp)]
    rfl
  have hstale : (cardWith key).env.stale=0x00:=rfl
  rw [hstale,hencode,buildResponse_pointDo (by simp) hroom] at hread
  simp only [Prod.mk.injEq,Except.ok.injEq,Reply.mk.injEq,and_true] at hread
  have hpoint : exportedPoint cr key=0x04::(cr.publicKey key).toList:=by
    unfold exportedPoint
    rw [hcurve]
  rw [hpoint] at hread
  exact absurd (append_singleton_eq_cons (pointDo_inj (by simp) hread)) (by decide)

/-- The places that tell a key of the secure element all tell its point, exactly where it is no P-256 key whose X
coordinate starts with 04. Those that tell the key for encryption always do. -/
theorem public_keys_exported (cr : GpgCrypto) (key : EccKey) :
    PointExported cr key ∧ DecExported cr ↔ ¬LooksPrefixed cr key:=
  ⟨fun h=>plain_of_pointExported h.1,fun h=>⟨pointExported_of_plain h,dec_exported cr⟩⟩

/-- A P-256 key whose X coordinate is `04 00 .. 00`. -/
theorem point_mistaken : ¬PointExported GpgCrypto.plain ⟨.p256,0x04000000⟩:=by
  intro h
  exact plain_of_pointExported h ⟨rfl,by decide⟩

end CdcBadge.OpenPgp
