import CdcBadge.KeyPackets

/-!
# A chip that does what it is asked

What the card application makes of its keys while no call of the secure element fails: the
key that it loads as its own, its signatures, and the private key for encryption.
-/

namespace CdcBadge.OpenPgp

open Handler
open GpgRecv (RecvKey)

section Values

variable (dev : Device) (cr : GpgCrypto)

/-- `gpg_get_dec_pubkey` -/
def gpgGetDecPubkey : CardM (Option (ByteArr 64)):=do
  match ← gpgStorageLoadDecPrivkey dev cr none with
  | none=>pure none
  | some privkey=>pure (cr.ecdhPublic privkey)

def ownKey (c : Card) (key : EccKey) : RecvKey:=
  let len:=if key.curve=.ed25519 then 32 else 64
  { curve:=curveCode key.curve
    pubkey:=fit 64 ((stripPrefix key.curve (cr.publicKey key).toList).take len)
    pubkeyLen:=UInt8.ofNat len
    createdAt:=c.app.toCardData.genTimeOf .sig
    fingerprintV4:=c.app.fingerprint .sig
    userId:=fit 64 (((cstr c.app.cardholderName).take 63).take 63) }

def ownBody (c : Card) (key : EccKey) : Bytes:=
  publicKeyBody key.curve (ownKey cr c key).pubkey.toList (ownKey cr c key).createdAt

def ownSignature (c : Card) (key : EccKey) (hash : ByteArr 32) : ByteArr 64:=
  if key.curve=.ed25519 then cr.eddsaSign key hash.toList
  else cr.ecdsaSign key (c.env.nonces.headD 0) (cr.sha256 hash.toList)

def Card.signed (c : Card) (curve : EccCurve) : Card:=
  if curve=.ed25519 then c else {c with env:={c.env with nonces:=c.env.nonces.tail}}

def storedDecKey (chip : Chip Bytes) : Option (ByteArr 32):=
  match chip.rmem rmemSlotDecKey with
  | none=>none
  | some data=>
    if 128 < data.length ∧ dev.shortReads=false then none
    else
      let record:=data.take 128
      if record.length < magicSize+nonceSize+32+tagSize ∨ record.take magicSize≠decKeyMagic then none
      else (openRecord cr (storageKey cr dev.chipId rmemSlotDecKey none) rmemSlotDecKey decKeyMagic 32 record).map (fit 32)

def decPoint (chip : Chip Bytes) : Option (ByteArr 64):=(storedDecKey dev cr chip).bind cr.ecdhPublic

end Values

section Sealed

variable (cr : GpgCrypto) {key : ByteArr 32} {slot : ℕ} {magic nonce payload : Bytes}

theorem length_sealedRecord (hmagic : magic.length=magicSize) (hnonce : nonce.length=nonceSize) :
    (sealedRecord cr key slot magic nonce payload).length=magicSize+nonceSize+payload.length+tagSize:=by
  simp only [sealedRecord,List.length_append,hmagic,hnonce,cr.gcmSeal_length,List.Vector.toList_length,tagSize]

theorem take_sealedRecord (hmagic : magic.length=magicSize) :
    (sealedRecord cr key slot magic nonce payload).take magicSize=magic:=by
  simp [sealedRecord,← hmagic]

theorem openRecord_sealed (key' : ByteArr 32) (hmagic : magic.length=magicSize) (hnonce : nonce.length=nonceSize) :
    openRecord cr key' slot magic payload.length (sealedRecord cr key slot magic nonce payload) =
      cr.gcmOpen key' nonce (buildAad slot magic) (cr.gcmSeal key nonce (buildAad slot magic) payload).1
        (cr.gcmSeal key nonce (buildAad slot magic) payload).2:=by
  let sealed:=cr.gcmSeal key nonce (buildAad slot magic) payload
  have hrecord : sealedRecord cr key slot magic nonce payload=magic++(nonce++(sealed.1++sealed.2.toList)):=by
    simp [sealedRecord,sealed]
  have hnonce' : ((sealedRecord cr key slot magic nonce payload).drop magicSize).take nonceSize=nonce:=by
    rw [hrecord,← hmagic,List.drop_left,← hnonce,List.take_left]
  have hct : (sealedRecord cr key slot magic nonce payload).drop (magicSize+nonceSize)=sealed.1++sealed.2.toList:=by
    rw [hrecord,← List.drop_drop,← hmagic,List.drop_left,← hnonce,List.drop_left]
  have hlength : sealed.1.length=payload.length:=cr.gcmSeal_length _ _ _ _
  unfold openRecord
  rw [hnonce',hct,← hlength]
  dsimp only
  rw [List.take_left,List.drop_left,show fit tagSize sealed.2.toList=sealed.2 from fit_toList _]

theorem openRecord_sealedRecord (hmagic : magic.length=magicSize) (hnonce : nonce.length=nonceSize) :
    openRecord cr key slot magic payload.length (sealedRecord cr key slot magic nonce payload)=some payload:=by
  rw [openRecord_sealed cr key hmagic hnonce]
  exact cr.gcmOpen_gcmSeal key nonce (buildAad slot magic) payload

end Sealed

theorem nextCall_calm {c : Card} (hcalm : c.env.calls=[]) : nextCall c=(.ok .done,c):=by
  cases c with
  | mk badge app nvs cert env on=>
    cases env
    cases hcalm
    rfl

theorem seCall_calm {α : Type} (call : Chip Bytes → SeReply α × Chip Bytes) {c : Card} (hcalm : c.env.calls=[])
    (hread : (call c.badge.chip).2=c.badge.chip) : seCall call c=(.ok (call c.badge.chip).1,c):=by
  have hperform : Pin.seCall .done call c.badge=(.ok (call c.badge.chip).1,c.badge):=by
    unfold Pin.seCall Chip.perform
    dsimp only
    rw [hread]
  have hnext:=nextCall_calm hcalm
  unfold seCall
  rw [bind_of_ok hnext]
  unfold onPins zoom
  rw [hperform]

section Calm

variable (dev : Device) (cr : GpgCrypto) {c : Card} {key : EccKey} (hcalm : c.env.calls=[])
  (hkey : c.badge.chip.ecc Role.sig.slot=some key)
include hcalm

/-- The front of a slot is read, or nothing where the chip gives no part of a longer content. -/
theorem rmemRead_calm (maxLen : ℕ) {slot : ℕ} (hslot : slot < Chip.rmemSlotCount) : rmemRead dev slot maxLen c =
    (.ok (match c.badge.chip.rmem slot with
      | none=>.error .slotEmpty
      | some data=>if maxLen < data.length ∧ dev.shortReads=false then .error .invalidParam
        else .ok (data.take maxLen)),c):=by
  cases hdata : c.badge.chip.rmem slot with
  | none=>
    have hread:=Chip.rmemRead_none hslot hdata
    unfold rmemRead
    rw [seCall_calm _ hcalm] <;> rw [hread]
  | some data=>
    have hread:=Chip.rmemRead_some hslot hdata
    unfold rmemRead
    rw [seCall_calm _ hcalm] <;> rw [hread]
    · dsimp only
      by_cases hlen : data.length ≤ maxLen
      · rw [if_pos hlen,if_neg (by omega),List.take_of_length_le hlen]
      · cases hshort : dev.shortReads with
        | true=>simp [hlen]
        | false=>simp [hlen,Nat.lt_of_not_le hlen]
    · dsimp only
      split_ifs <;> rfl

theorem deriveStorageKey_calm (slot : ℕ) (pin : Option Bytes) :
    deriveStorageKey dev cr slot pin c=(.ok (storageKey cr dev.chipId slot pin),c):=by
  have hid : seCall (fun chip=>(.ok (),chip)) c=(.ok (.ok ()),c):=seCall_calm _ hcalm rfl
  unfold deriveStorageKey
  rw [bind_of_ok hid]
  rfl

theorem gpgStorageLoadDecPrivkey_calm :
    gpgStorageLoadDecPrivkey dev cr none c=(.ok (storedDecKey dev cr c.badge.chip),c):=by
  have hread:=rmemRead_calm dev hcalm 128 (show rmemSlotDecKey < Chip.rmemSlotCount by decide)
  unfold gpgStorageLoadDecPrivkey loadSlotDecrypted storedDecKey
  rw [bind_assoc,bind_of_ok hread]
  cases hdata : c.badge.chip.rmem rmemSlotDecKey with
  | none=>rfl
  | some data=>
    dsimp only
    by_cases hlong : 128 < data.length ∧ dev.shortReads=false
    · rw [if_pos hlong,if_pos hlong]
      rfl
    rw [if_neg hlong,if_neg hlong]
    dsimp only
    by_cases hsize : (data.take 128).length < magicSize+nonceSize+32+tagSize
    · rw [if_pos hsize,if_pos (.inl hsize)]
      rfl
    by_cases hmagic : (data.take 128).take magicSize≠decKeyMagic
    · rw [if_neg hsize,if_pos hmagic,if_pos (.inr hmagic)]
      rfl
    rw [if_neg hsize,if_neg hmagic,if_neg (not_or.mpr ⟨hsize,hmagic⟩),bind_assoc,
      bind_of_ok (deriveStorageKey_calm dev cr hcalm _ _)]
    rfl

theorem gpgGetDecPubkey_calm : gpgGetDecPubkey dev cr c=(.ok (decPoint dev cr c.badge.chip),c):=by
  unfold gpgGetDecPubkey decPoint
  rw [bind_of_ok (gpgStorageLoadDecPrivkey_calm dev cr hcalm)]
  cases storedDecKey dev cr c.badge.chip <;> rfl

include hkey

theorem seGetPubkey_calm : seGetPubkey .sig c=(.ok (some key),c):=by
  have hread:=Chip.eccGetPublicKey_some (by decide) hkey
  have hcall:=seCall_calm (Chip.eccGetPublicKey Role.sig.slot) hcalm (by rw [hread])
  unfold seGetPubkey
  rw [bind_of_ok hcall,hread]
  rfl

theorem gpgGetStatus_calm : gpgGetStatus c=(.ok (if openpgpHasAnyKey c.app.toCardData then
      some { fingerprint:=c.app.fingerprint .sig,createdAt:=c.app.toCardData.genTimeOf .sig,
             signCount:=c.app.sigCount,curve:=key.curve,userId:=(cstr c.app.cardholderName).take 63 }
    else none),c):=by
  unfold gpgGetStatus
  rw [appGets_bind]
  cases hany : openpgpHasAnyKey c.app.toCardData with
  | false=>rfl
  | true=>
    simp only [Bool.not_true,Bool.false_eq_true,if_false]
    rw [bind_of_ok (seGetPubkey_calm hcalm hkey)]
    rfl

theorem sign_calm {msg : Bytes} (hmsg : msg≠[]) : (if key.curve=.ed25519 then eddsaSign cr Role.sig.slot msg
      else ecdsaSign cr Role.sig.slot msg) c =
    (.ok (some (if key.curve=.ed25519 then cr.eddsaSign key msg
      else cr.ecdsaSign key (c.env.nonces.headD 0) (cr.sha256 msg))),c.signed key.curve):=by
  have hread:=Chip.eccSigningKey_some (by decide) hkey
  by_cases hcurve : key.curve=.ed25519
  · have hcall:=seCall_calm (Chip.eccSigningKey Role.sig.slot) hcalm (by rw [hread])
    simp only [Card.signed,hcurve,if_true]
    unfold eddsaSign
    rw [if_neg hmsg,bind_of_ok hcall,hread]
    simp only [hcurve,if_true]
    rfl
  · have hp256 : key.curve=.p256:=by
      cases hcase : key.curve with
      | p256=>rfl
      | ed25519=>exact absurd hcase hcurve
    let t : Card:={c with env:={c.env with nonces:=c.env.nonces.tail}}
    have hcall:=seCall_calm (c:=t) (Chip.eccSigningKey Role.sig.slot) hcalm (by
      change (Chip.eccSigningKey _ c.badge.chip).2=_
      rw [hread])
    have hnonce : nextNonce c=(.ok (c.env.nonces.headD 0),t):=rfl
    have hkey' : Chip.eccSigningKey Role.sig.slot t.badge.chip=(.ok key,c.badge.chip):=hread
    simp only [Card.signed,hcurve,if_false]
    unfold ecdsaSign
    rw [if_neg hmsg,bind_of_ok hnonce,bind_of_ok hcall,hkey']
    simp only [hp256,if_true]
    rfl

theorem loadOwnSigKey_calm : loadOwnSigKey cr c =
    (.ok (if openpgpHasAnyKey c.app.toCardData then some (ownKey cr c key) else none),c):=by
  have hread:=Chip.eccGetPublicKey_some (by decide) hkey
  have hcall:=seCall_calm (Chip.eccGetPublicKey Role.sig.slot) hcalm (by rw [hread])
  unfold loadOwnSigKey
  rw [bind_of_ok (gpgGetStatus_calm hcalm hkey)]
  cases hany : openpgpHasAnyKey c.app.toCardData with
  | false=>rfl
  | true=>
    simp only [if_true]
    rw [bind_of_ok hcall,hread]
    rfl

theorem gpgCrossSign_calm (hany : openpgpHasAnyKey c.app.toCardData=true) {target : RecvKey} {pkBody : Bytes}
    (hbody : buildPubkeyBody target=some pkBody) (createdAt : UInt32) : gpgCrossSign cr target createdAt c =
      (.ok (some (ownSignature cr c key
        (cr.sha256 (uidCertInput pkBody (cstr target.userId.toList) (sigAlgo key.curve) createdAt)))),
        c.signed key.curve):=by
  unfold gpgCrossSign
  rw [bind_of_ok (gpgGetStatus_calm hcalm hkey),hany,if_pos rfl]
  dsimp only
  rw [hbody]
  exact sign_calm cr hcalm hkey (by simp [← List.length_eq_zero_iff])

theorem signSubkeyBinding_calm (hany : openpgpHasAnyKey c.app.toCardData=true) (primary subkey : Bytes)
    (createdAt : UInt32) : signSubkeyBinding cr primary subkey createdAt c =
      (.ok (some (ownSignature cr c key (cr.sha256 (subkeyBindingInput primary subkey (sigAlgo key.curve) createdAt)))),
        c.signed key.curve):=by
  unfold signSubkeyBinding
  rw [bind_of_ok (gpgGetStatus_calm hcalm hkey),hany,if_pos rfl]
  exact sign_calm cr hcalm hkey (by simp [← List.length_eq_zero_iff])

end Calm

section Signed

variable (c : Card) (curve : EccCurve)

@[simp] theorem Card.signed_calls : (c.signed curve).env.calls=c.env.calls:=by
  unfold Card.signed
  split <;> rfl

@[simp] theorem Card.signed_badge : (c.signed curve).badge=c.badge:=by
  unfold Card.signed
  split <;> rfl

@[simp] theorem Card.signed_app : (c.signed curve).app=c.app:=by
  unfold Card.signed
  split <;> rfl

end Signed

@[simp] theorem curveOfCode_curveCode (curve : EccCurve) : curveOfCode (curveCode curve)=curve:=by
  cases curve <;> rfl

theorem buildPubkeyBody_ownKey (cr : GpgCrypto) (c : Card) (key : EccKey) :
    buildPubkeyBody (ownKey cr c key)=some (ownBody cr c key):=by
  have hcurve : curveOfCode (ownKey cr c key).curve=key.curve:=curveOfCode_curveCode _
  have hlen : (ownKey cr c key).pubkeyLen=UInt8.ofNat (if key.curve=.ed25519 then 32 else 64):=rfl
  unfold buildPubkeyBody ownBody
  rw [hcurve,hlen]
  dsimp only
  rw [if_neg]
  split <;> decide

end CdcBadge.OpenPgp
