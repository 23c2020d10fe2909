import CdcBadge.PgpArmor
import CdcBadge.OpenPgpCalm
import CdcBadge.SelfCertStore

/-!
# The export of the badge's own key

The key, the user id with the badge's own signature, what others have certified and the
subkey for encryption go into one block, and the block into an armor.
-/

namespace CdcBadge.OpenPgp

open Handler
open GpgRecv (RecvKey)
open GpgSelf (SelfCert SelfCertStore)
open Armor (armorMax armorBinaryBlock dearmor)

def kBinaryCap : ℕ:=3072

/-- `emit` -/
def emit (binary : Bytes) (tag : UInt8) (body : Bytes) : Option Bytes:=
  if kBinaryCap < binary.length+1+5+body.length then none else some (binary++packet tag body)

def emitted (binary : Bytes) (tag : UInt8) (body : Bytes) : Bytes:=(emit binary tag body).getD binary

def emitCerts : Bytes → List (Option SelfCert)→Bytes
  | binary, []=>binary
  | binary, none::certs=>emitCerts binary certs
  | binary, some cert::certs=>
    if cert.Sized then
      match emit binary 0xC2 cert.body with
      | none=>binary
      | some binary=>emitCerts binary certs
    else emitCerts binary certs

section Export

variable (dev : Device) (cr : GpgCrypto)

def emitSelfSig (self : RecvKey) (binary : Bytes) : CardM Bytes:=do
  match ← gpgCrossSign cr self self.createdAt with
  | none=>pure binary
  | some sig=>
    match ← buildCertSigPacket cr {self with sigLen:=64,sigCreatedAt:=self.createdAt,mySignature:=sig} with
    | none=>pure binary
    | some body=>pure (emitted binary 0xC2 body)

def emitSubkey (self : RecvKey) (pkBody binary : Bytes) : CardM Bytes:=do
  match ← gpgGetDecPubkey dev cr with
  | none=>pure binary
  | some point=>
    let createdAt ← appGets fun a=>a.toCardData.genTimeOf .dec
    let subkey:=ecdhPublicKeyBody point.toList createdAt
    match ← signSubkeyBinding cr pkBody subkey createdAt with
    | none=>pure binary
    | some sig=>
      pure (emitted (emitted binary 0xCE subkey) 0xC2
        (bindingBody cr pkBody subkey (curveOfCode self.curve) self.fingerprintV4 createdAt sig))

/-- `gpgBuildOwnSignedKeyArmored` into a buffer of `outSize` bytes. -/
def gpgBuildOwnSignedKeyArmored (pf : GpgSelf.Platform) (store : SelfCertStore) (outSize : ℕ) :
    CardM (Option Bytes):=do
  if outSize < 256 then pure none
  else
    match ← loadOwnSigKey cr with
    | none=>pure none
    | some self=>
      match buildPubkeyBody self with
      | none=>pure none
      | some pkBody=>
        match (emit [] 0xC6 pkBody).bind fun binary=>emit binary 0xCD (cstr self.userId.toList) with
        | none=>pure none
        | some binary=>
          let binary ← emitSelfSig cr self binary
          let binary:=emitCerts binary ((List.range (store.count pf)).map (store.getCert pf))
          let binary ← emitSubkey dev cr self pkBody binary
          pure (armorBinaryBlock outSize binary)

def ownUserId (c : Card) (key : EccKey) : Bytes:=cstr (ownKey cr c key).userId.toList

def selfSigBody (c : Card) (key : EccKey) : Bytes:=
  let createdAt:=(ownKey cr c key).createdAt
  uidCertBody cr (ownBody cr c key) (ownUserId cr c key) key.curve (c.app.fingerprint .sig) createdAt
    (ownSignature cr c key
      (cr.sha256 (uidCertInput (ownBody cr c key) (ownUserId cr c key) (sigAlgo key.curve) createdAt)))

def subkeyBody (c : Card) (point : ByteArr 64) : Bytes:=
  ecdhPublicKeyBody point.toList (c.app.toCardData.genTimeOf .dec)

def ownBindingBody (c : Card) (key : EccKey) (point : ByteArr 64) : Bytes:=
  let createdAt:=c.app.toCardData.genTimeOf .dec
  bindingBody cr (ownBody cr c key) (subkeyBody c point) key.curve (c.app.fingerprint .sig) createdAt
    (ownSignature cr (c.signed key.curve) key
      (cr.sha256 (subkeyBindingInput (ownBody cr c key) (subkeyBody c point) (sigAlgo key.curve) createdAt)))

def subkeyPackets (c : Card) (key : EccKey) : Bytes:=
  match decPoint dev cr c.badge.chip with
  | none=>[]
  | some point=>packet 0xCE (subkeyBody c point)++packet 0xC2 (ownBindingBody cr c key point)

def certPackets (certs : List SelfCert) : Bytes:=certs.flatMap fun cert=>packet 0xC2 cert.body

def ownPackets (c : Card) (key : EccKey) (certs : List SelfCert) : Bytes:=
  packet 0xC6 (ownBody cr c key)++packet 0xCD (ownUserId cr c key)++packet 0xC2 (selfSigBody cr c key) ++
    certPackets certs++subkeyPackets dev cr c key

end Export

/-- The packets are behind what was there before, or they do not all have room and the block is full up to one
packet. -/
structure Filled (binary packets out : Bytes) : Prop where
  fits : out.length ≤ kBinaryCap
  whole : out=binary++packets ∨ kBinaryCap < (binary++packets).length ∧ kBinaryCap < out.length+166

theorem length_packet (tag : UInt8) (body : Bytes) : (packet tag body).length=6+body.length:=by
  simp [packet,be32]
  omega

theorem Filled.nothing {binary : Bytes} (h : binary.length ≤ kBinaryCap) : Filled binary [] binary:=
  ⟨h,.inl (List.append_nil _).symm⟩

theorem Filled.append {binary ps qs out out' : Bytes} (h : Filled binary ps out) (h' : Filled out qs out') :
    Filled binary (ps++qs) out':=by
  refine ⟨h'.fits,?_⟩
  rcases h.whole with rfl | ⟨hlong,hfull⟩
  · rw [← List.append_assoc]
    exact h'.whole
  · right
    constructor
    · simp only [List.length_append] at hlong ⊢
      omega
    · rcases h'.whole with rfl | ⟨-,hfull'⟩
      · rw [List.length_append]
        omega
      · exact hfull'

theorem emit_cases (binary : Bytes) (tag : UInt8) {body : Bytes} (hbody : body.length ≤ 160) :
    emit binary tag body=some (binary++packet tag body) ∧ (binary++packet tag body).length ≤ kBinaryCap ∨
      emit binary tag body=none ∧ kBinaryCap < (binary++packet tag body).length ∧
        kBinaryCap < binary.length+166:=by
  have hlength:=length_packet tag body
  unfold emit
  rw [List.length_append]
  by_cases hfull : kBinaryCap < binary.length+1+5+body.length
  · right
    rw [if_pos hfull]
    exact ⟨rfl,by omega,by omega⟩
  · left
    rw [if_neg hfull]
    exact ⟨rfl,by omega⟩

theorem filled_emitted {binary : Bytes} (h : binary.length ≤ kBinaryCap) (tag : UInt8) {body : Bytes}
    (hbody : body.length ≤ 160) : Filled binary (packet tag body) (emitted binary tag body):=by
  unfold emitted
  rcases emit_cases binary tag hbody with ⟨hemit,hfits⟩ | ⟨hemit,hfull⟩ <;> rw [hemit]
  · exact ⟨hfits,.inl rfl⟩
  · exact ⟨h,.inr hfull⟩

theorem filled_emitCerts {certs : List SelfCert} (hcerts : ∀ cert∈certs, cert.Sized) {binary : Bytes}
    (h : binary.length ≤ kBinaryCap) : Filled binary (certPackets certs) (emitCerts binary (certs.map some)):=by
  induction certs generalizing binary with
  | nil=>exact Filled.nothing h
  | cons cert certs ih=>
    have hsized:=hcerts cert List.mem_cons_self
    have hbody : cert.body.length ≤ 160:=(List.length_take_le _ _).trans hsized.2
    change Filled binary (packet 0xC2 cert.body++certPackets certs) _
    rw [List.map_cons,emitCerts,if_pos hsized]
    rcases emit_cases binary 0xC2 hbody with ⟨hemit,hfits⟩ | ⟨hemit,hlong,hfull⟩ <;> rw [hemit]
    · exact Filled.append ⟨hfits,.inl rfl⟩ (ih (fun cert' h'=>hcerts cert' (List.mem_cons_of_mem _ h')) hfits)
    · refine ⟨h,.inr ⟨?_,hfull⟩⟩
      rw [← List.append_assoc,List.length_append]
      omega

theorem length_writeMpi_le {data : Bytes} (h : data.length ≤ 32) : (writeMpi data).length ≤ 34:=by
  have hdrop:=List.length_dropWhile_le (· = 0) data
  unfold writeMpi
  split
  · simp
  · rename_i high rest hcase
    rw [hcase] at hdrop
    simp only [List.length_append,List.length_cons,be16Bytes,List.length_nil] at hdrop ⊢
    omega

theorem length_sigBody_le (type algo : UInt8) {hashed : Bytes} (hhashed : hashed.length ≤ 32) (fp : ByteArr 20)
    (hash : ByteArr 32) (rs : ByteArr 64) : (sigBody type algo hashed fp hash rs).length ≤ 160:=by
  have hr:=length_writeMpi_le (show (rs.toList.take 32).length ≤ 32 by simp)
  have hs:=length_writeMpi_le (show (rs.toList.drop 32).length ≤ 32 by simp)
  simp only [sigBody,sigHead,issuerSubpacket,be16Bytes,List.length_append,List.length_cons,List.length_nil,
    List.length_drop,List.length_take,List.Vector.toList_length]
  omega

theorem length_publicKeyBody_le (curve : EccCurve) (pubkey : Bytes) (createdAt : UInt32) :
    (publicKeyBody curve pubkey createdAt).length ≤ 160:=by
  have htake (n : ℕ) : (pubkey.take n).length ≤ n:=List.length_take_le n pubkey
  have h32:=htake 32
  have h64:=htake 64
  cases curve <;> simp only [publicKeyBody,mpi,curveOid,be32,be16Bytes,oidP256,oidEd25519,List.length_append,
    List.length_cons,List.length_nil] <;> omega

theorem length_ecdhPublicKeyBody_le (pubkey : Bytes) (createdAt : UInt32) :
    (ecdhPublicKeyBody pubkey createdAt).length ≤ 160:=by
  have h64 : (pubkey.take 64).length ≤ 64:=List.length_take_le 64 pubkey
  simp only [ecdhPublicKeyBody,mpi,curveOid,be32,be16Bytes,oidP256,List.length_append,List.length_cons,
    List.length_nil]
  omega

section Block

variable (dev : Device) (cr : GpgCrypto) {c : Card} {key : EccKey} (hcalm : c.env.calls=[])
  (hkey : c.badge.chip.ecc Role.sig.slot=some key) (hany : openpgpHasAnyKey c.app.toCardData=true)

include hcalm hkey hany

theorem emitSelfSig_calm (binary : Bytes) : emitSelfSig cr (ownKey cr c key) binary c =
    (.ok (emitted binary 0xC2 (selfSigBody cr c key)),c.signed key.curve):=by
  have hbody:=buildPubkeyBody_ownKey cr c key
  have hcalm' : (c.signed key.curve).env.calls=[]:=by simpa using hcalm
  have hkey' : (c.signed key.curve).badge.chip.ecc Role.sig.slot=some key:=by simpa using hkey
  have hstatus:=gpgGetStatus_calm hcalm' hkey'
  simp only [Card.signed_app,hany,if_true] at hstatus
  unfold emitSelfSig
  rw [bind_of_ok (gpgCrossSign_calm cr hcalm hkey hany hbody _)]
  dsimp only
  have hcert : buildCertSigPacket cr { ownKey cr c key with
      sigLen:=64
      sigCreatedAt:=(ownKey cr c key).createdAt
      mySignature:=ownSignature cr c key (cr.sha256 (uidCertInput (ownBody cr c key)
        (cstr (ownKey cr c key).userId.toList) (sigAlgo key.curve) (ownKey cr c key).createdAt)) } (c.signed key.curve) =
      (.ok (some (selfSigBody cr c key)),c.signed key.curve):=by
    unfold buildCertSigPacket
    rw [if_neg (by simp),bind_of_ok hstatus]
    change (Except.ok ((buildPubkeyBody (ownKey cr c key)).map _),_)=_
    rw [hbody]
    rfl
  rw [bind_of_ok hcert]
  rfl

theorem emitSubkey_calm {binary : Bytes} (hbinary : binary.length ≤ kBinaryCap) :
    ∃ out t, emitSubkey dev cr (ownKey cr c key) (ownBody cr c key) binary (c.signed key.curve)=(.ok out,t) ∧
      Filled binary (subkeyPackets dev cr c key) out:=by
  have hcalm' : (c.signed key.curve).env.calls=[]:=by simpa using hcalm
  have hkey' : (c.signed key.curve).badge.chip.ecc Role.sig.slot=some key:=by simpa using hkey
  unfold emitSubkey subkeyPackets
  rw [bind_of_ok (gpgGetDecPubkey_calm dev cr hcalm'),Card.signed_badge]
  cases hpoint : decPoint dev cr c.badge.chip with
  | none=>exact ⟨binary,_,rfl,Filled.nothing hbinary⟩
  | some point=>
    dsimp only
    rw [appGets_bind,Card.signed_app,bind_of_ok (signSubkeyBinding_calm cr hcalm' hkey' (by simpa using hany) _ _ _)]
    refine ⟨_,_,rfl,?_⟩
    have hsubkey:=filled_emitted hbinary 0xCE (length_ecdhPublicKeyBody_le point.toList (c.app.toCardData.genTimeOf .dec))
    apply Filled.append hsubkey
    have hcurve : curveOfCode (ownKey cr c key).curve=key.curve:=curveOfCode_curveCode _
    rw [hcurve]
    exact filled_emitted hsubkey.fits _ (length_sigBody_le _ _ (by simp [bindingSubpackets,be32]) _ _ _)

include hcalm hkey hany in
theorem block_calm (pf : GpgSelf.Platform) (store : SelfCertStore) {outSize : ℕ} (hout : 256 ≤ outSize) :
    ∃ certs out t, certs.Perm store.values ∧ Filled [] (ownPackets dev cr c key certs) out ∧
      gpgBuildOwnSignedKeyArmored dev cr pf store outSize c=(.ok (armorBinaryBlock outSize out),t):=by
  obtain ⟨certs,hperm,hcerts⟩:=store.certs_perm pf
  have hsized : ∀ cert∈certs, cert.Sized:=by
    intro cert hcert
    obtain ⟨e,he,rfl⟩:=List.mem_map.mp (hperm.mem_iff.mp hcert)
    exact store.sized e he
  have hbody : (ownBody cr c key).length ≤ 160:=length_publicKeyBody_le _ _ _
  have huid : (ownUserId cr c key).length ≤ 64:=(cstr_length_le _).trans (by simp)
  let head:=packet 0xC6 (ownBody cr c key)++packet 0xCD (ownUserId cr c key)
  have hhead : head.length ≤ kBinaryCap:=by
    change (packet 0xC6 (ownBody cr c key)++packet 0xCD (ownUserId cr c key)).length ≤ 3072
    rw [List.length_append,length_packet,length_packet]
    omega
  have hstart : ((emit [] 0xC6 (ownBody cr c key)).bind fun binary=>
      emit binary 0xCD (ownUserId cr c key))=some head:=by
    have hlength:=length_packet 0xC6 (ownBody cr c key)
    have hfirst : emit [] 0xC6 (ownBody cr c key)=some (packet 0xC6 (ownBody cr c key)):=by
      unfold emit kBinaryCap
      rw [if_neg (by simp only [List.length_nil]; omega),List.nil_append]
    rw [hfirst,Option.bind_some]
    unfold emit kBinaryCap
    rw [if_neg (by omega)]
  -- The self-signature, the certifications and the subkey follow, each up to the end of the block.
  have hself : Filled head (packet 0xC2 (selfSigBody cr c key)) (emitted head 0xC2 (selfSigBody cr c key)):=
    filled_emitted hhead 0xC2 (length_sigBody_le _ _ (by simp [hashedSubpackets,be32]) _ _ _)
  have hothers:=filled_emitCerts hsized hself.fits
  obtain ⟨out,t,hsubkey,hout'⟩:=emitSubkey_calm dev cr hcalm hkey hany hothers.fits
  refine ⟨certs,out,t,hperm,?_,?_⟩
  · have hfirst : Filled [] head head:=⟨hhead,.inl rfl⟩
    exact ((hfirst.append hself).append hothers).append hout'
  · have hload:=loadOwnSigKey_calm cr hcalm hkey
    rw [hany,if_pos rfl] at hload
    unfold gpgBuildOwnSignedKeyArmored
    rw [if_neg (by omega),bind_of_ok hload]
    dsimp only
    rw [buildPubkeyBody_ownKey]
    dsimp only
    change (match (emit [] 0xC6 (ownBody cr c key)).bind fun binary=>emit binary 0xCD (ownUserId cr c key) with
      | none=>_
      | some binary=>_ : CardM (Option Bytes)) c=_
    rw [hstart]
    dsimp only
    rw [bind_of_ok (emitSelfSig_calm cr hcalm hkey hany head),hcerts,bind_of_ok hsubkey]
    rfl

end Block

section Exported

variable (dev : Device) (cr : GpgCrypto) {c : Card} {key : EccKey}

theorem length_ownPackets (c : Card) (key : EccKey) {certs certs' : List SelfCert} (h : certs.Perm certs') :
    (ownPackets dev cr c key certs).length=(ownPackets dev cr c key certs').length:=by
  have hcerts : (certPackets certs).length=(certPackets certs').length:=(h.flatMap_right _).length_eq
  simp only [ownPackets,List.length_append,hcerts]

theorem Filled.armor {packets out : Bytes} (h : Filled [] packets out) {outSize : ℕ} (hne : packets≠[])
    (hroom : 92+2*packets.length ≤ outSize) : armorBinaryBlock outSize out =
      if packets.length ≤ armorMax then some (Armor.armorText packets) else none:=by
  have hbegin : Armor.armorBegin.length=40:=rfl
  have hend : Armor.armorEnd.length=36:=rfl
  have hmax : armorMax+166 < kBinaryCap:=by decide
  rw [Armor.armorBinaryBlock_eq]
  rcases h.whole with hwhole | ⟨hlong,hfull⟩
  · rw [List.nil_append] at hwhole
    rw [hwhole]
    by_cases hlen : packets.length ≤ armorMax
    · rw [if_pos ⟨hne,hlen,by omega⟩,if_pos hlen]
    · rw [if_neg (fun h=>hlen h.2.1),if_neg hlen]
  · rw [List.nil_append] at hlong
    rw [if_neg (fun h=>by omega),if_neg (by omega)]

theorem ownPackets_ne_nil (c : Card) (key : EccKey) (certs : List SelfCert) : ownPackets dev cr c key certs≠[]:=by
  simp [ownPackets,packet]

/-- The badge's own key is exported, and out of the armor come all of its packets, exactly where the card has a
fingerprint and the packets have room in the line buffer of the armor. An armor always holds the whole of its block. -/
theorem own_key_export (pf : GpgSelf.Platform) (store : SelfCertStore) {outSize : ℕ} (hcalm : c.env.calls=[])
    (hkey : c.badge.chip.ecc Role.sig.slot=some key)
    (hroom : 256+2*(ownPackets dev cr c key store.values).length ≤ outSize) :
    ((∃ text t certs, certs.Perm store.values ∧
        gpgBuildOwnSignedKeyArmored dev cr pf store outSize c=(.ok (some text),t) ∧
        dearmor text=some (ownPackets dev cr c key certs)) ↔
      openpgpHasAnyKey c.app.toCardData=true ∧ (ownPackets dev cr c key store.values).length ≤ armorMax) ∧
    ∀ (outSize : ℕ) (binary text : Bytes), armorBinaryBlock outSize binary=some text→dearmor text=some binary:=by
  refine ⟨?_,fun _ _ _=>Armor.dearmor_of_armorBinaryBlock⟩
  cases hany : openpgpHasAnyKey c.app.toCardData with
  | false=>
    have hload:=loadOwnSigKey_calm cr hcalm hkey
    rw [hany] at hload
    have hrun : gpgBuildOwnSignedKeyArmored dev cr pf store outSize c=(.ok none,c):=by
      unfold gpgBuildOwnSignedKeyArmored
      rw [if_neg (by omega),bind_of_ok hload]
      rfl
    constructor
    · rintro ⟨text,t,certs,-,hsome,-⟩
      rw [hrun] at hsome
      cases hsome
    · rintro ⟨hfalse,-⟩
      cases hfalse
  | true=>
    obtain ⟨certs,out,t,hperm,hfilled,hrun⟩:=block_calm dev cr hcalm hkey hany pf store (by omega : 256 ≤ outSize)
    have hlength:=length_ownPackets dev cr c key hperm
    rw [hfilled.armor (ownPackets_ne_nil dev cr c key certs) (by omega),hlength] at hrun
    constructor
    · rintro ⟨text,t',certs',-,hsome,-⟩
      refine ⟨rfl,?_⟩
      by_contra hlong
      rw [hrun,if_neg hlong] at hsome
      cases hsome
    · rintro ⟨-,hlen⟩
      rw [if_pos hlen] at hrun
      exact ⟨_,t,certs,hperm,hrun,Armor.dearmor_armorText _⟩

end Exported

def ownCard : Card where
  badge:={ chip:={ ecc:=fun slot=>if slot=Role.sig.slot then some ⟨.ed25519,7⟩ else none
                   rmem:=fun _=>none } }
  app:={fingerprint:=fun _=>fit 20 [1]}
  on:=true

theorem ownCard_key : ownCard.badge.chip.ecc Role.sig.slot=some ⟨.ed25519,7⟩:=by simp [ownCard]

theorem own_key_export_alone :
    256+2*(ownPackets .plain .plain ownCard ⟨.ed25519,7⟩ SelfCertStore.empty.values).length ≤ 1024 ∧
    ((∃ text t certs, certs.Perm SelfCertStore.empty.values ∧
        gpgBuildOwnSignedKeyArmored .plain .plain .plain .empty 1024 ownCard=(.ok (some text),t) ∧
        dearmor text=some (ownPackets .plain .plain ownCard ⟨.ed25519,7⟩ certs)) ↔
      openpgpHasAnyKey ownCard.app.toCardData=true ∧
        (ownPackets .plain .plain ownCard ⟨.ed25519,7⟩ SelfCertStore.empty.values).length ≤ armorMax):=by
  have hroom : 256+2*(ownPackets .plain .plain ownCard ⟨.ed25519,7⟩ SelfCertStore.empty.values).length ≤ 1024:=by
    decide +kernel
  exact ⟨hroom,(own_key_export .plain .plain .plain .empty rfl ownCard_key hroom).1⟩

def certOf (i : ℕ) : SelfCert where
  issuerFpV4:=fit 20 [UInt8.ofNat i]
  sigPktLen:=160
  sigPkt:=zeros 160

def fullStore : SelfCertStore where
  entries:=(List.range 16).map fun i=>(GpgSelf.deriveKeyName (certOf i).issuerFpV4,certOf i)
  nodup:=by decide +kernel
  prefixed:=by decide +kernel
  sized:=by decide +kernel

/-- A key with as many certifications as the store can hold is not exported. -/
theorem own_key_not_exported :
    (gpgBuildOwnSignedKeyArmored .plain .plain .plain fullStore 8192 ownCard).1=.ok none:=by
  obtain ⟨certs,out,t,hperm,hfilled,hrun⟩:=
    block_calm .plain .plain (c:=ownCard) rfl ownCard_key (by decide) .plain fullStore (by decide : 256 ≤ 8192)
  have hlong : armorMax < (ownPackets .plain .plain ownCard ⟨.ed25519,7⟩ certs).length:=by
    rw [length_ownPackets _ _ _ _ hperm]
    decide +kernel
  rw [hrun,Armor.armorBinaryBlock_eq,if_neg]
  rcases hfilled.whole with rfl | ⟨-,hfull⟩
  · rintro ⟨-,hlen,-⟩
    rw [List.nil_append] at hlen
    omega
  · have hmax : armorMax+166 < kBinaryCap:=by decide
    rintro ⟨-,hlen,-⟩
    omega

end CdcBadge.OpenPgp
