import CdcBadge.HeaderLists
import CdcBadge.KeyPackets

/-!
# The payload of a key

A public key as it goes from badge to badge: the signing key with its time, fingerprint and
user id, and the encryption subkey with its two signatures. A payload is read by addresses, with
a look at every byte.
-/

namespace CdcBadge.OpenPgp

open Tlv
open GpgRecv (RecvKey)

def kGpgKeyDecBlock : ℕ:=4+64+64+64
def kGpgKeyPayloadMin : ℕ:=1+1+32+4+20+1+1+kGpgKeyDecBlock
def kGpgKeyPayloadMax : ℕ:=1+1+64+4+20+1+63+kGpgKeyDecBlock

def keyLen (curve : UInt8) : ℕ:=if curve=curveCode .ed25519 then 32 else 64

/-- `buildPublicKeyBody` -/
def buildPublicKeyBody (curve : UInt8) (pubkey : ByteArr 64) (pubkeyLen : UInt8) (createdAt : UInt32) : Option Bytes:=
  if pubkeyLen.toNat < keyLen curve then none
  else some (publicKeyBody (curveOfCode curve) pubkey.toList createdAt)

section Payload

variable (cr : GpgCrypto) (now : UInt32)

def calculateFingerprintV4 (curve : UInt8) (pubkey : ByteArr 64) (pubkeyLen : UInt8) (createdAt : UInt32) :
    Option (ByteArr 20):=
  (buildPublicKeyBody curve pubkey pubkeyLen createdAt).map (fingerprintV4 cr)

/-- `9A`, the length in four bytes, and the body. The output stays as it is where there is no body. -/
def calculateFingerprintV5 (curve : UInt8) (pubkey : ByteArr 64) (pubkeyLen : UInt8) (createdAt : UInt32) : ByteArr 32:=
  match buildPublicKeyBody curve pubkey pubkeyLen createdAt with
  | none=>zeros 32
  | some body=>cr.sha256 (0x9A::be32 (UInt32.ofNat body.length)++body)

/-- `gpgBuildRecvKeyPayload` -/
def gpgBuildRecvKeyPayload (key : RecvKey) (outSize : ℕ) : Option Bytes:=
  if key.pubkeyLen≠32 ∧ key.pubkeyLen≠64 then none
  else
    let userId:=cstr key.userId.toList
    if outSize < 1+1+key.pubkeyLen.toNat+4+20+1+userId.length+kGpgKeyDecBlock then none
    else some ([key.curve,key.pubkeyLen]++key.pubkey.toList.take key.pubkeyLen.toNat++be32 key.createdAt ++
      key.fingerprintV4.toList++[UInt8.ofNat userId.length]++userId++be32 key.createdAtDec ++
      key.pubkeyDec.toList++key.ownerSelfSig.toList++key.decBindingSig.toList)

def readBe32 (data : Bytes) (p : ℕ) : Scan UInt32:=do
  let b₀ ← byteAt data p
  let b₁ ← byteAt data (p+1)
  let b₂ ← byteAt data (p+2)
  let b₃ ← byteAt data (p+3)
  pure (ofBe32 b₀ b₁ b₂ b₃)

def parseSigKey (data : Bytes) : Scan (RecvKey × ℕ):=do
  let curve ← byteAt data 0
  need (curve=curveCode .ed25519 ∨ curve=curveCode .p256)
  let pubkeyLen ← byteAt data 1
  need (¬(curve=curveCode .ed25519 ∧ pubkeyLen≠32))
  need (¬(curve=curveCode .p256 ∧ pubkeyLen≠64))
  need (2+pubkeyLen.toNat+4+20+1 ≤ data.length)
  let pubkey ← copyAt data 2 pubkeyLen.toNat
  let createdAt ← readBe32 data (2+pubkeyLen.toNat)
  let fingerprintV4 ← copyAt data (2+pubkeyLen.toNat+4) 20
  pure ({curve,pubkeyLen,pubkey:=fit 64 pubkey,createdAt,fingerprintV4:=fit 20 fingerprintV4},
    2+pubkeyLen.toNat+4+20)

def parseUserId (data : Bytes) (p : ℕ) : Scan (Bytes × ℕ):=do
  let len ← byteAt data p
  need (len ≤ 63 ∧ p+1+len.toNat ≤ data.length)
  let userId ← copyAt data (p+1) len.toNat
  pure (userId,p+1+len.toNat)

def parseDecBlock (data : Bytes) (p : ℕ) (key : RecvKey) : Scan RecvKey:=do
  need (p+kGpgKeyDecBlock ≤ data.length)
  let createdAtDec ← readBe32 data p
  let pubkeyDec ← copyAt data (p+4) 64
  let ownerSelfSig ← copyAt data (p+4+64) 64
  let decBindingSig ← copyAt data (p+4+64+64) 64
  pure { key with createdAtDec,pubkeyDec:=fit 64 pubkeyDec,ownerSelfSig:=fit 64 ownerSelfSig
                  decBindingSig:=fit 64 decBindingSig }

/-- `gpgParseKeyPayload` -/
def gpgParseKeyPayload (data : Bytes) : Scan RecvKey:=do
  need (kGpgKeyPayloadMin ≤ data.length)
  let (key,p) ← parseSigKey data
  let (userId,p) ← parseUserId data p
  let key ← parseDecBlock data p {key with userId:=fit 64 userId}
  need (calculateFingerprintV4 cr key.curve key.pubkey key.pubkeyLen key.createdAt=some key.fingerprintV4)
  pure { key with receivedAt:=now
                  fingerprintV5:=calculateFingerprintV5 cr key.curve key.pubkey key.pubkeyLen key.createdAt }

end Payload

/-- The fields of a key that a payload carries. -/
structure KeyWire where
  curve : UInt8
  pubkey : Bytes
  createdAt : UInt32
  fingerprintV4 : ByteArr 20
  userId : Bytes
  createdAtDec : UInt32
  pubkeyDec : ByteArr 64
  ownerSelfSig : ByteArr 64
  decBindingSig : ByteArr 64
  deriving DecidableEq

def wireOf (key : RecvKey) : KeyWire where
  curve:=key.curve
  pubkey:=key.pubkey.toList.take key.pubkeyLen.toNat
  createdAt:=key.createdAt
  fingerprintV4:=key.fingerprintV4
  userId:=cstr key.userId.toList
  createdAtDec:=key.createdAtDec
  pubkeyDec:=key.pubkeyDec
  ownerSelfSig:=key.ownerSelfSig
  decBindingSig:=key.decBindingSig

namespace KeyWire

variable (w : KeyWire)

def decBlock : Bytes:=be32 w.createdAtDec++(w.pubkeyDec.toList++(w.ownerSelfSig.toList++w.decBindingSig.toList))

def sigKey : Bytes:=
  w.curve::UInt8.ofNat w.pubkey.length::(w.pubkey++(be32 w.createdAt++w.fingerprintV4.toList))

def payload : Bytes:=w.sigKey++(UInt8.ofNat w.userId.length::(w.userId++w.decBlock))

/-- A supported curve, a key of its length, and a user id that fits its field. -/
structure Sound : Prop where
  curve : w.curve=curveCode .ed25519 ∨ w.curve=curveCode .p256
  pubkey : w.pubkey.length=keyLen w.curve
  userId : w.userId.length ≤ 63

def record : RecvKey where
  curve:=w.curve
  userId:=fit 64 w.userId
  pubkey:=fit 64 w.pubkey
  pubkeyLen:=UInt8.ofNat w.pubkey.length
  createdAt:=w.createdAt
  fingerprintV4:=w.fingerprintV4
  pubkeyDec:=w.pubkeyDec
  createdAtDec:=w.createdAtDec
  ownerSelfSig:=w.ownerSelfSig
  decBindingSig:=w.decBindingSig

theorem length_decBlock : w.decBlock.length=kGpgKeyDecBlock:=by
  simp [decBlock,kGpgKeyDecBlock,be32]

theorem length_sigKey : w.sigKey.length=2+w.pubkey.length+24:=by
  simp [sigKey,be32]
  omega

theorem length_payload : w.payload.length=2+w.pubkey.length+25+w.userId.length+kGpgKeyDecBlock:=by
  simp only [payload,List.length_append,List.length_cons,length_sigKey,length_decBlock]
  omega

end KeyWire

section Reading

variable {data bs v : Bytes} {stop p : ℕ}

theorem readBe32_rest {n : UInt32} (h : Rest data stop p (be32 n++bs)) :
    readBe32 data p=.value n ∧ Rest data stop (p+4) bs:=by
  obtain ⟨-,h₀,h⟩:=h.cons
  obtain ⟨-,h₁,h⟩:=h.cons
  obtain ⟨-,h₂,h⟩:=h.cons
  obtain ⟨-,h₃,h⟩:=h.cons
  constructor
  · unfold readBe32
    rw [h₀,Scan.value_bind,h₁,Scan.value_bind,h₂,Scan.value_bind,h₃,Scan.value_bind,ofBe32_be32]
    rfl
  · exact h

theorem parseDecBlock_rest {w : KeyWire} (key : RecvKey) (h : Rest data data.length p (w.decBlock++bs)) :
    parseDecBlock data p key=.value { key with
      createdAtDec:=w.createdAtDec,pubkeyDec:=w.pubkeyDec,ownerSelfSig:=w.ownerSelfSig
      decBindingSig:=w.decBindingSig }:=by
  have hlength:=h.length
  rw [List.length_append,KeyWire.length_decBlock] at hlength
  simp only [KeyWire.decBlock,List.append_assoc] at h
  obtain ⟨hcreated,h⟩:=readBe32_rest h
  obtain ⟨hpubkey,h⟩:=h.array
  obtain ⟨hself,h⟩:=h.array
  obtain ⟨hbinding,-⟩:=h.array
  unfold parseDecBlock
  rw [need_true (by have : 0 < kGpgKeyDecBlock:=by decide
                    omega)]
  simp only [Scan.value_bind,hcreated,hpubkey,hself,hbinding,fit_toList,Scan.pure_eq]

theorem parseDecBlock_cases (key : RecvKey) (h : Rest data data.length p bs) :
    parseDecBlock data p key=.giveUp ∨ kGpgKeyDecBlock ≤ bs.length:=by
  by_cases hroom : p+kGpgKeyDecBlock ≤ data.length
  · right
    rw [h.length]
    omega
  · left
    unfold parseDecBlock
    rw [need_false hroom]
    rfl

theorem parseUserId_rest (hfits : v.length ≤ 63) (h : Rest data data.length p (UInt8.ofNat v.length::(v++bs))) :
    parseUserId data p=.value (v,p+1+v.length) ∧ Rest data data.length (p+1+v.length) bs:=by
  obtain ⟨-,hlen,h⟩:=h.cons
  have hroom:=h.length
  rw [List.length_append] at hroom
  obtain ⟨hcopy,h⟩:=h.copied
  have hnat : (UInt8.ofNat v.length).toNat=v.length:=UInt8.toNat_ofNat_of_lt' (by change v.length < 256; omega)
  have hle : UInt8.ofNat v.length ≤ 63:=by
    rw [UInt8.le_iff_toNat_le,hnat]
    exact hfits
  refine ⟨?_,h⟩
  unfold parseUserId
  rw [hlen,Scan.value_bind,need_true ⟨hle,by have:=h.le; rwa [hnat]⟩,Scan.value_bind,hnat,hcopy]
  rfl

theorem parseUserId_cases {u : UInt8} (h : Rest data data.length p (u::bs)) :
    parseUserId data p=.giveUp ∨ u.toNat ≤ 63 ∧ u.toNat ≤ bs.length:=by
  obtain ⟨hp,hlen,h⟩:=h.cons
  have hlength:=h.length
  by_cases hfits : u ≤ 63 ∧ p+1+u.toNat ≤ data.length
  · right
    have hle:=UInt8.le_iff_toNat_le.mp hfits.1
    change u.toNat ≤ 63 at hle
    constructor
    · exact hle
    · omega
  · left
    unfold parseUserId
    rw [hlen,Scan.value_bind,need_false hfits]
    rfl

def KeyWire.head (w : KeyWire) : RecvKey:=
  { curve:=w.curve,pubkeyLen:=UInt8.ofNat w.pubkey.length,pubkey:=fit 64 w.pubkey,createdAt:=w.createdAt
    fingerprintV4:=w.fingerprintV4 }

theorem keyLen_le (curve : UInt8) : keyLen curve ≤ 64:=by
  unfold keyLen
  split_ifs <;> decide

theorem KeyWire.Sound.pubkeyLen {w : KeyWire} (h : w.Sound) : (UInt8.ofNat w.pubkey.length).toNat=w.pubkey.length:=by
  have hle:=keyLen_le w.curve
  have hpubkey:=h.pubkey
  exact UInt8.toNat_ofNat_of_lt' (by change w.pubkey.length < 256; omega)

theorem parseSigKey_rest {w : KeyWire} (h : w.Sound) (hdata : data=w.sigKey++bs) (hbs : bs≠[]) :
    parseSigKey data=.value (w.head,2+w.pubkey.length+4+20) ∧
      Rest data data.length (2+w.pubkey.length+4+20) bs:=by
  have hrest : Rest data data.length 0 (w.sigKey++bs):=by
    rw [← hdata]
    exact Rest.whole data
  have hlength:=congrArg List.length hdata
  have hpos:=List.length_pos_of_ne_nil hbs
  rw [List.length_append,w.length_sigKey] at hlength
  simp only [KeyWire.sigKey,List.cons_append,List.append_assoc] at hrest
  obtain ⟨-,hcurve,hrest⟩:=hrest.cons
  obtain ⟨-,hlen,hrest⟩:=hrest.cons
  obtain ⟨hpubkey,hrest⟩:=hrest.copied
  obtain ⟨hcreated,hrest⟩:=readBe32_rest hrest
  obtain ⟨hfp,hrest⟩:=hrest.array
  have hnat:=h.pubkeyLen
  have hed : ¬(w.curve=curveCode .ed25519 ∧ UInt8.ofNat w.pubkey.length≠32):=by
    rintro ⟨hed,hne⟩
    apply hne
    rw [h.pubkey,keyLen,if_pos hed]
    rfl
  have hp256 : ¬(w.curve=curveCode .p256 ∧ UInt8.ofNat w.pubkey.length≠64):=by
    rintro ⟨hp256,hne⟩
    apply hne
    rw [h.pubkey,keyLen,hp256]
    rfl
  constructor
  · unfold parseSigKey
    rw [hcurve,Scan.value_bind,need_true h.curve,Scan.value_bind,hlen,Scan.value_bind,need_true hed,
      Scan.value_bind,need_true hp256,Scan.value_bind,hnat,need_true (by omega),Scan.value_bind,hpubkey,
      Scan.value_bind,hcreated,Scan.value_bind,hfp,Scan.value_bind,fit_toList]
    rfl
  · exact hrest

/-- The signing key is read where the curve is supported, the key has its length, and there is room for the rest. -/
theorem parseSigKey_cases {curve len : UInt8} (hdata : data=curve::len::bs) :
    parseSigKey data=.giveUp ∨
      (curve=curveCode .ed25519 ∨ curve=curveCode .p256) ∧ len.toNat=keyLen curve ∧ len.toNat+25 ≤ bs.length:=by
  have hlength:=congrArg List.length hdata
  simp only [List.length_cons] at hlength
  have hcurve : byteAt data 0=.value curve:=by rw [hdata]; rfl
  have hlen : byteAt data 1=.value len:=by rw [hdata]; rfl
  unfold parseSigKey
  rw [hcurve,Scan.value_bind,hlen]
  by_cases hsupported : curve=curveCode .ed25519 ∨ curve=curveCode .p256
  · by_cases hed : curve=curveCode .ed25519 ∧ len≠32
    · left
      rw [need_true hsupported,Scan.value_bind,Scan.value_bind,need_false (not_not_intro hed)]
      rfl
    · by_cases hp256 : curve=curveCode .p256 ∧ len≠64
      · left
        rw [need_true hsupported,Scan.value_bind,Scan.value_bind,need_true hed,Scan.value_bind,
          need_false (not_not_intro hp256)]
        rfl
      · by_cases hroom : 2+len.toNat+4+20+1 ≤ data.length
        · right
          refine ⟨hsupported,?_,by omega⟩
          obtain rfl | rfl:=hsupported
          · obtain rfl : len=32:=by simpa using hed
            rfl
          · obtain rfl : len=64:=by simpa using hp256
            rfl
        · left
          rw [need_true hsupported,Scan.value_bind,Scan.value_bind,need_true hed,Scan.value_bind,need_true hp256,
            Scan.value_bind,need_false hroom]
          rfl
  · left
    rw [need_false hsupported]
    rfl

theorem exists_array {n : ℕ} (h : n ≤ bs.length) : ∃ (a : ByteArr n) (rest : Bytes), bs=a.toList++rest:=
  ⟨⟨bs.take n,by rw [List.length_take]; omega⟩,bs.drop n,(List.take_append_drop n bs).symm⟩

theorem exists_be32 (h : 4 ≤ bs.length) : ∃ (n : UInt32) (rest : Bytes), bs=be32 n++rest:=by
  rcases bs with _ | ⟨b₀,_ | ⟨b₁,_ | ⟨b₂,_ | ⟨b₃,rest⟩⟩⟩⟩
  on_goal 5=>exact ⟨ofBe32 b₀ b₁ b₂ b₃,rest,by rw [be32_ofBe32]; rfl⟩
  all_goals simp at h

theorem exists_header (h : kGpgKeyPayloadMin ≤ data.length) : ∃ (curve len : UInt8) (rest : Bytes), data=curve::len::rest:=by
  have hmin : 2 ≤ kGpgKeyPayloadMin:=by decide
  rcases data with _ | ⟨curve,_ | ⟨len,rest⟩⟩
  on_goal 3=>exact ⟨curve,len,rest,rfl⟩
  all_goals
    simp only [List.length_cons,List.length_nil] at h
    omega

theorem exists_front {n : ℕ} (h : n ≤ bs.length) : ∃ front rest : Bytes, front.length=n ∧ bs=front++rest:=
  ⟨bs.take n,bs.drop n,by rw [List.length_take]; omega,(List.take_append_drop n bs).symm⟩

end Reading

variable {cr : GpgCrypto} {now : UInt32} {data : Bytes}

def KeyWire.received (cr : GpgCrypto) (now : UInt32) (w : KeyWire) : RecvKey:=
  { w.record with
    receivedAt:=now
    fingerprintV5:=calculateFingerprintV5 cr w.record.curve w.record.pubkey w.record.pubkeyLen w.record.createdAt }

def KeyWire.Matches (cr : GpgCrypto) (w : KeyWire) : Prop:=
  calculateFingerprintV4 cr w.record.curve w.record.pubkey w.record.pubkeyLen w.record.createdAt=some w.fingerprintV4

instance (w : KeyWire) : Decidable (w.Matches cr):=inferInstanceAs (Decidable (_=_))

variable (cr now) in
/-- A payload is read, with what is behind it left aside, where it is long enough and the fingerprint is that of the key. -/
theorem gpgParseKeyPayload_payload {w : KeyWire} (h : w.Sound) (trailing : Bytes) :
    gpgParseKeyPayload cr now (w.payload++trailing) =
      if kGpgKeyPayloadMin ≤ (w.payload++trailing).length ∧ w.Matches cr then .value (w.received cr now) else .giveUp:=by
  have hdata : w.payload++trailing =
      w.sigKey++(UInt8.ofNat w.userId.length::(w.userId++(w.decBlock++trailing))):=by
    simp only [KeyWire.payload,List.append_assoc,List.cons_append]
  obtain ⟨hsig,hrest⟩:=parseSigKey_rest h hdata (List.cons_ne_nil _ _)
  obtain ⟨huser,hrest⟩:=parseUserId_rest h.userId hrest
  have hdec:=parseDecBlock_rest {w.head with userId:=fit 64 w.userId} hrest
  unfold gpgParseKeyPayload
  by_cases hmin : kGpgKeyPayloadMin ≤ (w.payload++trailing).length
  · rw [need_true hmin,Scan.value_bind,hsig]
    simp only [Scan.value_bind,huser,hdec]
    have hchecked : calculateFingerprintV4 cr w.head.curve w.head.pubkey w.head.pubkeyLen w.head.createdAt =
        some w.head.fingerprintV4 ↔ w.Matches cr:=Iff.rfl
    by_cases hmatches : w.Matches cr
    · rw [if_pos ⟨hmin,hmatches⟩,need_true (hchecked.mpr hmatches)]
      rfl
    · rw [if_neg fun hboth=>hmatches hboth.2,need_false (hchecked.not.mpr hmatches)]
      rfl
  · rw [if_neg fun hboth=>hmin hboth.1,need_false hmin]
    rfl

def KeyWire.bare (curve : UInt8) (pubkey : Bytes) (createdAt : UInt32) (fingerprintV4 : ByteArr 20) : KeyWire where
  curve:=curve
  pubkey:=pubkey
  createdAt:=createdAt
  fingerprintV4:=fingerprintV4
  userId:=[]
  createdAtDec:=0
  pubkeyDec:=zeros 64
  ownerSelfSig:=zeros 64
  decBindingSig:=zeros 64

theorem exists_sigKey {curve len : UInt8} {bs : Bytes} (hcurve : curve=curveCode .ed25519 ∨ curve=curveCode .p256)
    (hlen : len.toNat=keyLen curve) (hroom : len.toNat+25 ≤ bs.length) :
    ∃ (w : KeyWire) (u : UInt8) (rest : Bytes), w.Sound ∧ curve::len::bs=w.sigKey++u::rest:=by
  obtain ⟨pubkey,bs,hpubkey,rfl⟩:=exists_front (Nat.le_of_add_right_le hroom)
  rw [List.length_append] at hroom
  obtain ⟨createdAt,bs,rfl⟩:=exists_be32 (by omega : 4 ≤ bs.length)
  rw [List.length_append,show (be32 createdAt).length=4 from rfl] at hroom
  obtain ⟨fp,bs,rfl⟩:=exists_array (by omega : 20 ≤ bs.length)
  rw [List.length_append,fp.toList_length] at hroom
  cases bs with
  | nil=>
    rw [List.length_nil] at hroom
    omega
  | cons u rest=>
    refine ⟨.bare curve pubkey createdAt fp,u,rest,⟨hcurve,hpubkey.trans hlen,Nat.zero_le _⟩,?_⟩
    simp only [KeyWire.sigKey,KeyWire.bare,List.cons_append,List.append_assoc,hpubkey,UInt8.ofNat_toNat]

theorem exists_decBlock {bs : Bytes} (h : kGpgKeyDecBlock ≤ bs.length) :
    ∃ (w : KeyWire) (rest : Bytes), bs=w.decBlock++rest:=by
  unfold kGpgKeyDecBlock at h
  obtain ⟨createdAt,bs,rfl⟩:=exists_be32 (by omega : 4 ≤ bs.length)
  rw [List.length_append,show (be32 createdAt).length=4 from rfl] at h
  obtain ⟨pubkey,bs,rfl⟩:=exists_array (by omega : 64 ≤ bs.length)
  rw [List.length_append,pubkey.toList_length] at h
  obtain ⟨self,bs,rfl⟩:=exists_array (by omega : 64 ≤ bs.length)
  rw [List.length_append,self.toList_length] at h
  obtain ⟨binding,bs,rfl⟩:=exists_array (by omega : 64 ≤ bs.length)
  refine ⟨{ KeyWire.bare 0 [] 0 (zeros 20) with
    createdAtDec:=createdAt,pubkeyDec:=pubkey,ownerSelfSig:=self,decBindingSig:=binding },bs,?_⟩
  simp only [KeyWire.decBlock,List.append_assoc]

variable (cr now) in
theorem gpgParseKeyPayload_cases (data : Bytes) : gpgParseKeyPayload cr now data=.giveUp ∨
    ∃ (w : KeyWire) (trailing : Bytes), w.Sound ∧ data=w.payload++trailing:=by
  by_cases hmin : kGpgKeyPayloadMin ≤ data.length
  · unfold gpgParseKeyPayload
    rw [need_true hmin,Scan.value_bind]
    obtain ⟨curve,len,bs,rfl⟩:=exists_header hmin
    obtain hgiven | ⟨hcurve,hlen,hroom⟩:=parseSigKey_cases (Eq.refl (curve::len::bs))
    · left
      rw [hgiven]
      rfl
    · obtain ⟨w,u,bs,hsound,hdata⟩:=exists_sigKey hcurve hlen hroom
      obtain ⟨hsig,hrest⟩:=parseSigKey_rest hsound hdata (List.cons_ne_nil u bs)
      rw [hsig,Scan.value_bind]
      obtain hgiven | ⟨hfits,hroom⟩:=parseUserId_cases hrest
      · left
        dsimp only
        rw [hgiven]
        rfl
      · obtain ⟨userId,bs,hlength,rfl⟩:=exists_front hroom
        obtain rfl : UInt8.ofNat userId.length=u:=by rw [hlength,UInt8.ofNat_toNat]
        rw [← hlength] at hfits
        obtain ⟨huser,hrest⟩:=parseUserId_rest hfits hrest
        dsimp only
        rw [huser,Scan.value_bind]
        obtain hgiven | hroom:=parseDecBlock_cases {w.head with userId:=fit 64 userId} hrest
        · left
          dsimp only
          rw [hgiven]
          rfl
        · obtain ⟨dec,trailing,rfl⟩:=exists_decBlock hroom
          right
          refine ⟨{ dec with
            curve:=w.curve,pubkey:=w.pubkey,createdAt:=w.createdAt,fingerprintV4:=w.fingerprintV4,userId },
            trailing,⟨hsound.curve,hsound.pubkey,hfits⟩,?_⟩
          rw [hdata]
          simp only [KeyWire.payload,List.append_assoc,List.cons_append]
          rfl
  · left
    unfold gpgParseKeyPayload
    rw [need_false hmin]
    rfl

variable {key : RecvKey} {outSize : ℕ}

theorem cstr_fit {n : ℕ} {v : Bytes} (h : v.length < n) : cstr (fit n v).toList=cstr v:=by
  change cstr (v.takeD n 0)=cstr v
  induction v generalizing n with
  | nil=>
    obtain ⟨m,rfl⟩ : ∃ m, n=m+1:=⟨n-1,by rw [List.length_nil] at h; omega⟩
    rfl
  | cons b v ih=>
    rw [List.length_cons] at h
    obtain ⟨m,rfl⟩ : ∃ m, n=m+1:=⟨n-1,by omega⟩
    have htail:=ih (n:=m) (by omega)
    unfold cstr at htail ⊢
    rw [List.takeD_succ,List.head?_cons,Option.getD_some,List.tail_cons,List.takeWhile_cons,List.takeWhile_cons,htail]

theorem length_pubkey (h : key.pubkeyLen=32 ∨ key.pubkeyLen=64) :
    (wireOf key).pubkey.length=key.pubkeyLen.toNat:=by
  change (key.pubkey.toList.take key.pubkeyLen.toNat).length=_
  rw [List.length_take,key.pubkey.toList_length]
  obtain h | h:=h <;> rw [h] <;> rfl

theorem gpgBuildRecvKeyPayload_eq (h : key.pubkeyLen=32 ∨ key.pubkeyLen=64)
    (hroom : (wireOf key).payload.length ≤ outSize) : gpgBuildRecvKeyPayload key outSize=some (wireOf key).payload:=by
  have hpubkey:=length_pubkey h
  rw [KeyWire.length_payload,hpubkey] at hroom
  change 2+key.pubkeyLen.toNat+25+(cstr key.userId.toList).length+kGpgKeyDecBlock ≤ outSize at hroom
  unfold gpgBuildRecvKeyPayload
  rw [if_neg (by tauto)]
  dsimp only
  rw [if_neg (by omega)]
  simp only [KeyWire.payload,KeyWire.sigKey,KeyWire.decBlock,hpubkey,UInt8.ofNat_toNat,List.append_assoc,
    List.cons_append,List.nil_append]
  rfl

theorem gpgBuildRecvKeyPayload_some {payload : Bytes} (h : gpgBuildRecvKeyPayload key outSize=some payload) :
    key.pubkeyLen=32 ∨ key.pubkeyLen=64:=by
  by_contra hlen
  unfold gpgBuildRecvKeyPayload at h
  rw [if_pos (by tauto)] at h
  cases h

theorem KeyWire.Sound.pubkeyLen_cases {w : KeyWire} (h : w.Sound) :
    UInt8.ofNat w.pubkey.length=32 ∨ UInt8.ofNat w.pubkey.length=64:=by
  rw [h.pubkey,keyLen]
  split_ifs
  · exact .inl rfl
  · exact .inr rfl

/-- The wire fields that are read are those that were written, but for what stands behind a NUL in the user id. -/
theorem KeyWire.Sound.wireOf_received {w : KeyWire} (h : w.Sound) :
    wireOf (w.received cr now)={w with userId:=cstr w.userId}:=by
  have hpubkey:=keyLen_le w.curve
  have huser:=h.userId
  rw [← h.pubkey] at hpubkey
  have htake : (fit 64 w.pubkey).toList.take (UInt8.ofNat w.pubkey.length).toNat=w.pubkey:=by
    rw [h.pubkeyLen,take_fit hpubkey]
  have hcstr : cstr (fit 64 w.userId).toList=cstr w.userId:=cstr_fit (by omega)
  simp only [wireOf,KeyWire.received,KeyWire.record,htake,hcstr]

theorem gpgParseKeyPayload_value (h : gpgParseKeyPayload cr now data=.value key) :
    ∃ (w : KeyWire) (trailing : Bytes), w.Sound ∧ data=w.payload++trailing ∧ kGpgKeyPayloadMin ≤ data.length ∧
      w.Matches cr ∧ key=w.received cr now:=by
  obtain hgiven | ⟨w,trailing,hsound,rfl⟩:=gpgParseKeyPayload_cases cr now data
  · rw [hgiven] at h
    cases h
  · rw [gpgParseKeyPayload_payload cr now hsound] at h
    split_ifs at h with hboth
    cases h
    exact ⟨w,trailing,hsound,rfl,hboth.1,hboth.2,rfl⟩

/-- Where the user id ends and the block behind it, by the lengths that a payload gives. -/
def payloadEnd (data : Bytes) : ℕ:=
  let len:=(data.getD 1 0).toNat
  2+len+25+(data.getD (2+len+24) 0).toNat+kGpgKeyDecBlock

def userIdField (data : Bytes) : Bytes:=
  let len:=(data.getD 1 0).toNat
  (data.drop (2+len+25)).take (data.getD (2+len+24) 0).toNat

theorem KeyWire.Sound.fields {w : KeyWire} (h : w.Sound) (trailing : Bytes) :
    payloadEnd (w.payload++trailing)=w.payload.length ∧ userIdField (w.payload++trailing)=w.userId:=by
  have huser:=h.userId
  have hlen : (w.payload++trailing).getD 1 0=UInt8.ofNat w.pubkey.length:=rfl
  have hsplit : w.payload++trailing=w.sigKey++(UInt8.ofNat w.userId.length::(w.userId++(w.decBlock++trailing))):=by
    simp only [KeyWire.payload,List.append_assoc,List.cons_append]
  have hat : (w.payload++trailing).getD (2+w.pubkey.length+24) 0=UInt8.ofNat w.userId.length:=by
    rw [hsplit,← w.length_sigKey,List.getD_eq_getElem?_getD,List.getElem?_append_right le_rfl,Nat.sub_self]
    rfl
  have huserLen : (UInt8.ofNat w.userId.length).toNat=w.userId.length:=
    UInt8.toNat_ofNat_of_lt' (by change w.userId.length < 256; omega)
  have hbehind : (w.payload++trailing).drop (2+w.pubkey.length+25)=w.userId++(w.decBlock++trailing):=by
    rw [hsplit,show 2+w.pubkey.length+25=w.sigKey.length+1 by rw [w.length_sigKey],List.drop_append,
      List.drop_of_length_le (Nat.le_succ _),Nat.add_sub_cancel_left]
    rfl
  unfold payloadEnd userIdField
  rw [hlen,h.pubkeyLen]
  dsimp only
  rw [hat,huserLen,hbehind]
  constructor
  · rw [w.length_payload]
  · exact List.take_left

/-- A record with a supported curve, a user id that ends in its field, and the fingerprint of its key. -/
structure KeyRecord (cr : GpgCrypto) (key : RecvKey) : Prop where
  curve : key.curve=curveCode .ed25519 ∨ key.curve=curveCode .p256
  userId : (0 : UInt8)∈key.userId.toList
  fingerprint : calculateFingerprintV4 cr key.curve key.pubkey key.pubkeyLen key.createdAt=some key.fingerprintV4

/-- A record is written, and read again with the same wire fields. -/
def ReadsBack (cr : GpgCrypto) (now : UInt32) (outSize : ℕ) (key : RecvKey) : Prop:=
  ∃ payload key', gpgBuildRecvKeyPayload key outSize=some payload ∧ gpgParseKeyPayload cr now payload=.value key' ∧
    wireOf key'=wireOf key

theorem length_cstr_lt {v : Bytes} (h : (0 : UInt8)∈v) : (cstr v).length < v.length:=by
  apply lt_of_le_of_ne (cstr_length_le v)
  intro heq
  have hself : cstr v=v:=List.IsPrefix.eq_of_length (List.takeWhile_prefix (· != 0)) heq
  apply cstr_noNul v
  rwa [hself]

theorem publicKeyBody_fit {n : ℕ} {curve : EccCurve} (pubkey : ByteArr 64) (createdAt : UInt32) (hn : n ≤ 64)
    (hcurve : (if curve=.ed25519 then 32 else 64) ≤ n) :
    publicKeyBody curve (fit 64 (pubkey.toList.take n)).toList createdAt=publicKeyBody curve pubkey.toList createdAt:=by
  have hlength : (pubkey.toList.take n).length=n:=by
    rw [List.length_take,pubkey.toList_length]
    omega
  have hfront:=take_fit (hlength.le.trans hn)
  rw [hlength] at hfront
  have htake : ∀ m, m ≤ n→(fit 64 (pubkey.toList.take n)).toList.take m=pubkey.toList.take m:=by
    intro m hm
    have hboth:=congrArg (List.take m) hfront
    rwa [List.take_take,List.take_take,Nat.min_eq_left hm] at hboth
  unfold publicKeyBody
  cases curve with
  | ed25519=>rw [htake 32 hcurve]
  | p256=>rw [htake 64 hcurve]

theorem KeyRecord.matches (h : KeyRecord cr key) (hlen : key.pubkeyLen.toNat=keyLen key.curve) :
    (wireOf key).Matches cr:=by
  have hle:=keyLen_le key.curve
  have hpubkey : (wireOf key).pubkey.length=key.pubkeyLen.toNat:=by
    change (key.pubkey.toList.take key.pubkeyLen.toNat).length=_
    rw [List.length_take,key.pubkey.toList_length]
    omega
  have hfingerprint:=h.fingerprint
  unfold KeyWire.Matches
  change calculateFingerprintV4 cr key.curve (fit 64 (key.pubkey.toList.take key.pubkeyLen.toNat))
    (UInt8.ofNat (wireOf key).pubkey.length) key.createdAt=some key.fingerprintV4
  rw [← hfingerprint,hpubkey,UInt8.ofNat_toNat]
  unfold calculateFingerprintV4 buildPublicKeyBody
  rw [publicKeyBody_fit key.pubkey key.createdAt (by omega)]
  obtain hcurve | hcurve:=h.curve <;> rw [hlen,hcurve] <;> decide

/-- The curves of the records whose payloads are shorter than `kGpgKeyPayloadMin` asks for. -/
theorem min_le_payload {w : KeyWire} (h : w.Sound) :
    kGpgKeyPayloadMin ≤ w.payload.length ↔ ¬(w.curve=curveCode .ed25519 ∧ w.userId=[]):=by
  have hmin : kGpgKeyPayloadMin=60+kGpgKeyDecBlock:=rfl
  have hlength:=w.length_payload
  rw [h.pubkey,keyLen] at hlength
  rw [hlength,hmin,← List.length_eq_zero_iff]
  split_ifs with hed
  · simp only [hed,true_and]
    omega
  · simp only [hed,false_and,not_false_eq_true,iff_true]
    omega

theorem KeyWire.Sound.payload_le {w : KeyWire} (h : w.Sound) : w.payload.length ≤ kGpgKeyPayloadMax:=by
  have hmax : kGpgKeyPayloadMax=154+kGpgKeyDecBlock:=rfl
  have hpubkey:=keyLen_le w.curve
  have huser:=h.userId
  rw [← h.pubkey] at hpubkey
  rw [w.length_payload]
  omega

theorem KeyRecord.pubkeyLen_cases (h : key.pubkeyLen.toNat=keyLen key.curve) :
    key.pubkeyLen=32 ∨ key.pubkeyLen=64:=by
  unfold keyLen at h
  split_ifs at h
  · exact .inl (UInt8.toNat_inj.mp h)
  · exact .inr (UInt8.toNat_inj.mp h)

theorem KeyRecord.sound (h : KeyRecord cr key) (hlen : key.pubkeyLen.toNat=keyLen key.curve) : (wireOf key).Sound:=by
  have huser:=length_cstr_lt h.userId
  rw [key.userId.toList_length] at huser
  constructor
  · exact h.curve
  · exact (length_pubkey (pubkeyLen_cases hlen)).trans hlen
  · exact Nat.le_of_lt_succ huser

/-- A record is read again as it was but for Ed25519 keys without a user id, and for keys of another length. -/
theorem readsBack_iff (hout : kGpgKeyPayloadMax ≤ outSize) (h : KeyRecord cr key) :
    ReadsBack cr now outSize key ↔
      key.pubkeyLen.toNat=keyLen key.curve ∧ ¬(key.curve=curveCode .ed25519 ∧ cstr key.userId.toList=[]):=by
  constructor
  · rintro ⟨payload,key',hbuild,hparse,hwire⟩
    obtain ⟨w,trailing,hsound,-,hmin,-,rfl⟩:=gpgParseKeyPayload_value hparse
    rw [hsound.wireOf_received] at hwire
    have hcases:=gpgBuildRecvKeyPayload_some hbuild
    have hcurve : w.curve=key.curve:=congrArg KeyWire.curve hwire
    have hpubkey : w.pubkey=(wireOf key).pubkey:=by
      rw [← hwire]
    have hlen : key.pubkeyLen.toNat=keyLen key.curve:=by
      rw [← length_pubkey hcases,← hpubkey,hsound.pubkey,hcurve]
    have hwritten:=h.sound hlen
    rw [gpgBuildRecvKeyPayload_eq hcases (hwritten.payload_le.trans hout),Option.some.injEq] at hbuild
    rw [← hbuild] at hmin
    exact ⟨hlen,(min_le_payload hwritten).mp hmin⟩
  · rintro ⟨hlen,hnonempty⟩
    have hsound:=h.sound hlen
    have hmin:=(min_le_payload hsound).mpr hnonempty
    refine ⟨(wireOf key).payload,(wireOf key).received cr now,?_,?_,?_⟩
    · exact gpgBuildRecvKeyPayload_eq (KeyRecord.pubkeyLen_cases hlen) (hsound.payload_le.trans hout)
    · have hparse:=gpgParseKeyPayload_payload cr now hsound []
      rw [List.append_nil] at hparse
      rw [hparse,if_pos ⟨hmin,h.matches hlen⟩]
    · rw [hsound.wireOf_received]
      have hcstr : cstr (wireOf key).userId=(wireOf key).userId:=cstr_cstr _
      rw [hcstr]

/-- An accepted payload is written again as it was where it ends with its block, and there is no NUL in its user id. -/
theorem rebuilt_iff (hout : kGpgKeyPayloadMax ≤ outSize) (h : gpgParseKeyPayload cr now data=.value key) :
    gpgBuildRecvKeyPayload key outSize=some data ↔ data.length=payloadEnd data ∧ (0 : UInt8) ∉ userIdField data:=by
  obtain ⟨w,trailing,hsound,rfl,-,-,rfl⟩:=gpgParseKeyPayload_value h
  obtain ⟨hend,hfield⟩:=hsound.fields trailing
  have hwire : wireOf (w.received cr now)={w with userId:=cstr w.userId}:=hsound.wireOf_received
  have hcut : (cstr w.userId).length ≤ w.userId.length:=cstr_length_le _
  have hsound' : (wireOf (w.received cr now)).Sound:=by
    rw [hwire]
    exact ⟨hsound.curve,hsound.pubkey,hcut.trans hsound.userId⟩
  rw [gpgBuildRecvKeyPayload_eq hsound.pubkeyLen_cases (hsound'.payload_le.trans hout),Option.some.injEq,hend,hfield,hwire,
    List.length_append]
  constructor
  · intro heq
    have hlength:=congrArg List.length heq
    rw [List.length_append,KeyWire.length_payload,KeyWire.length_payload] at hlength
    dsimp only at hlength
    have hself : cstr w.userId=w.userId:=
      List.IsPrefix.eq_of_length (List.takeWhile_prefix (· != 0)) (by omega)
    constructor
    · omega
    · rw [← hself]
      exact cstr_noNul w.userId
  · rintro ⟨hlength,hnul⟩
    obtain rfl : trailing=[]:=List.length_eq_zero_iff.mp (by omega)
    rw [cstr_eq_self hnul,List.append_nil]

/-- A payload and the record it is made of belong together but for Ed25519 keys without a user id, for payloads with
bytes behind them, and for user ids with a NUL. No byte outside a payload is read. -/
theorem key_payload_exact (cr : GpgCrypto) (now : UInt32) (outSize : ℕ) (hout : kGpgKeyPayloadMax ≤ outSize) :
    (∀ key, KeyRecord cr key→(ReadsBack cr now outSize key ↔
      key.pubkeyLen.toNat=keyLen key.curve ∧ ¬(key.curve=curveCode .ed25519 ∧ cstr key.userId.toList=[]))) ∧
    (∀ data key, gpgParseKeyPayload cr now data=.value key→(gpgBuildRecvKeyPayload key outSize=some data ↔
      data.length=payloadEnd data ∧ (0 : UInt8) ∉ userIdField data)) ∧
    ∀ data, gpgParseKeyPayload cr now data≠.outside:=by
  refine ⟨fun key h=>readsBack_iff hout h,fun data key h=>rebuilt_iff hout h,fun data houtside=>?_⟩
  obtain hgiven | ⟨w,trailing,hsound,rfl⟩:=gpgParseKeyPayload_cases cr now data
  · rw [hgiven] at houtside
    cases houtside
  · rw [gpgParseKeyPayload_payload cr now hsound] at houtside
    split_ifs at houtside

def ed25519Record (userId : Bytes) : RecvKey where
  curve:=curveCode .ed25519
  userId:=fit 64 userId
  pubkeyLen:=32
  fingerprintV4:=fingerprintV4 GpgCrypto.plain (publicKeyBody .ed25519 (zeros 64).toList 0)

theorem ed25519Record_sound {userId : Bytes} (h : (0 : UInt8)∈(fit 64 userId).toList) :
    KeyRecord GpgCrypto.plain (ed25519Record userId):=⟨.inl rfl,h,rfl⟩

theorem key_payload_exact_named : ReadsBack GpgCrypto.plain 0 kGpgKeyPayloadMax (ed25519Record [0x41]):=
  ((key_payload_exact GpgCrypto.plain 0 kGpgKeyPayloadMax le_rfl).1 (ed25519Record [0x41])
    (ed25519Record_sound (by decide +kernel))).mpr ⟨rfl,by decide +kernel⟩

/-- The key without a user id is sent and refused, and a payload is accepted with a byte behind it. -/
theorem unnamed_key_refused :
    (KeyRecord GpgCrypto.plain (ed25519Record []) ∧ ¬ReadsBack GpgCrypto.plain 0 kGpgKeyPayloadMax (ed25519Record [])) ∧
    ∃ key, gpgParseKeyPayload GpgCrypto.plain 0 ((wireOf (ed25519Record [0x41])).payload++[0])=.value key ∧
      gpgBuildRecvKeyPayload key kGpgKeyPayloadMax≠some ((wireOf (ed25519Record [0x41])).payload++[0]):=by
  have hrecord : KeyRecord GpgCrypto.plain (ed25519Record []):=ed25519Record_sound (by decide +kernel)
  have hsound : (wireOf (ed25519Record [0x41])).Sound:=⟨.inl rfl,by decide +kernel,by decide +kernel⟩
  have hparse:=gpgParseKeyPayload_payload GpgCrypto.plain 0 hsound [0]
  rw [if_pos (by decide +kernel)] at hparse
  refine ⟨⟨hrecord,fun hreads=>?_⟩,_,hparse,fun hrebuilt=>?_⟩
  · exact ((readsBack_iff le_rfl hrecord).mp hreads).2 (by decide +kernel)
  · have hend:=((rebuilt_iff le_rfl hparse).mp hrebuilt).1
    rw [(hsound.fields [0]).1,List.length_append] at hend
    simp at hend

end CdcBadge.OpenPgp
