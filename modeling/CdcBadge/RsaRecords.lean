import CdcBadge.KeyStores
import CdcBadge.PairedRuns

/-!
# The records of RSA keys

A record starts with its length, and where it is too long for one slot its rest lies in the
next. A key is loaded from the record that the two slots of its role make up.
-/

namespace CdcBadge.OpenPgp

open Handler

section Stored

variable (dev : Device) (chip : Chip Bytes)

def readAt (slot maxLen : ℕ) : Option Bytes:=
  match chip.rmem slot with
  | none=>none
  | some data=>if maxLen < data.length ∧ dev.shortReads=false then none else some (data.take maxLen)

def bodyLength (record : Bytes) : ℕ:=(record.headD 0).toNat+(record.getD 1 0).toNat*256

def wholeRecord (r : Role) (first : Bytes) : Option Bytes:=
  if 2+bodyLength first ≤ first.length then some first
  else (readAt dev chip (rsaSlot0 r+1) (rsaRecordSize-first.length)).map (first ++ ·)

/-- The checks of a record before it is opened. -/
def RecordFits (body : ℕ) (record : Bytes) : Prop:=
  2+body ≤ record.length ∧ (record.drop 2).take magicSize=rsaKeyMagic ∧ rsaEnvelope < body ∧
    body-rsaEnvelope ≤ rsaBlobMax

instance (body : ℕ) (record : Bytes) : Decidable (RecordFits body record):=
  inferInstanceAs (Decidable (_ ∧ _ ∧ _ ∧ _))

/-- The record in the slots of a role, where it is whole and bears the magic of RSA keys. -/
def storedRsa (r : Role) : Option Bytes:=
  (readAt dev chip (rsaSlot0 r) rsaRecordSize).bind fun first=>
    if first.length < 2+rsaEnvelope then none
    else if bodyLength first < rsaEnvelope ∨ rsaRecordSize < 2+bodyLength first then none
    else (wholeRecord dev chip r first).bind fun record=>
      if RecordFits (bodyLength first) record then some record else none

end Stored

section Loads

variable (dev : Device) (cr : GpgCrypto) (r : Role) (pin : Option Bytes)

theorem seCall_read {α : Type} {call : Chip Bytes → SeReply α × Chip Bytes} (hread : ∀ chip, (call chip).2=chip)
    (chip : Chip Bytes) : Triple (fun c=>c.badge.chip=chip) (seCall call)
      (fun reply c=>c.badge.chip=chip ∧ ∀ a, reply=.ok a→(call chip).1=.ok a) fun _ _=>True:=by
  have hkeeps : Keeps (fun c : Card=>c.badge.chip=chip) (seCall call):=
    keeps_of_fixes (fixes_seCall hread) fun v=>v.1=chip
  apply Triple.conseq (Triple.and (seCall_ran call) hkeeps) (fun c hc=>⟨trivial,hc⟩) _ fun _ _ _=>trivial
  rintro reply c ⟨hran,hchip⟩
  refine ⟨hchip,fun a ha=>?_⟩
  obtain ⟨chip',hcall⟩:=hran a ha
  have hsame:=hread chip'
  rw [hcall] at hsame
  dsimp only at hsame
  rw [← hchip,hsame,hcall]

theorem rmemRead_told (slot maxLen : ℕ) (chip : Chip Bytes) : Triple (fun c=>c.badge.chip=chip) (rmemRead dev slot maxLen)
    (fun reply c=>c.badge.chip=chip ∧ ∀ data, reply=.ok data → readAt dev chip slot maxLen=some data)
    fun _ _=>True:=by
  apply Triple.conseq (seCall_read (readCall_chip slot maxLen) chip) (fun _ h=>h) _ fun _ _ h=>h
  rintro reply c ⟨hchip,htold⟩
  refine ⟨hchip,fun data hdata=>?_⟩
  have hcall:=htold data hdata
  unfold readAt
  by_cases hcount : slot < Chip.rmemSlotCount
  · cases hslot : chip.rmem slot with
    | none=>
      rw [Chip.rmemRead_none hcount hslot] at hcall
      cases hcall
    | some stored=>
      rw [Chip.rmemRead_some hcount hslot] at hcall
      dsimp only at hcall ⊢
      split_ifs at hcall with hlength hshort
      · cases hcall
        rw [if_neg (by omega),List.take_of_length_le hlength]
      · cases hcall
        rw [if_neg (by simp [hshort])]
  · rw [Chip.rmemRead,if_pos (not_lt.mp hcount)] at hcall
    cases hcall

theorem deriveStorageKey_told (slot : ℕ) (chip : Chip Bytes) : Triple (fun c=>c.badge.chip=chip)
    (deriveStorageKey dev cr slot pin)
    (fun key c=>c.badge.chip=chip ∧ ∃ id, (id=dev.chipId ∨ id=zeros 16) ∧ key=storageKey cr id slot pin)
    fun _ _=>True:=by
  apply Triple.bind (seCall_read (fun _=>rfl) chip) fun reply=>?_
  cases reply with
  | ok u=>exact Triple.pure fun c h=>⟨h.1,dev.chipId,.inl rfl,rfl⟩
  | error e=>exact Triple.pure fun c h=>⟨h.1,zeros 16,.inr rfl,rfl⟩

theorem wholeRecord_told (first : Bytes) (chip : Chip Bytes) : Triple (fun c=>c.badge.chip=chip)
    (if 2+bodyLength first ≤ first.length then pure (some first)
      else do
        match ← rmemRead dev (rsaSlot0 r+1) (rsaRecordSize-first.length) with
        | .error _=>pure none
        | .ok rest=>pure (some (first++rest)) : CardM (Option Bytes))
    (fun record c=>(∀ whole, record=some whole→wholeRecord dev chip r first=some whole) ∧ c.badge.chip=chip)
    fun _ _=>True:=by
  unfold wholeRecord
  apply Triple.ite
  · intro hwhole
    rw [if_pos hwhole]
    exact Triple.pure fun c hchip=>⟨fun _ h=>h,hchip⟩
  · intro hmore
    rw [if_neg hmore]
    apply Triple.bind (rmemRead_told dev _ _ chip) fun reply=>?_
    cases reply with
    | error e=>
      apply Triple.pure
      rintro c ⟨hchip,-⟩
      refine ⟨fun whole hwhole=>?_,hchip⟩
      cases hwhole
    | ok rest=>
      apply Triple.pure
      rintro c ⟨hchip,htold⟩
      refine ⟨fun whole hwhole=>?_,hchip⟩
      cases hwhole
      rw [htold rest rfl]
      rfl

theorem gpgStorageLoadRsaKey_told (chip : Chip Bytes) : Triple (fun c=>c.badge.chip=chip)
    (gpgStorageLoadRsaKey dev cr r pin)
    (fun result _=>∀ blob, result=some blob→∃ record id, storedRsa dev chip r=some record ∧
      (id=dev.chipId ∨ id=zeros 16) ∧ openRsaRecord cr (storageKey cr id (rsaSlot0 r) pin) r record=some blob)
    fun _ _=>True:=by
  have hnone : ∀ {P : Card→Prop}, Triple P (pure none : CardM (Option Bytes))
      (fun result _=>∀ blob, result=some blob→∃ record id, storedRsa dev chip r=some record ∧
        (id=dev.chipId ∨ id=zeros 16) ∧ openRsaRecord cr (storageKey cr id (rsaSlot0 r) pin) r record=some blob)
      fun _ _=>True:=by
    intro P
    apply Triple.pure
    rintro c - blob hblob
    cases hblob
  apply Triple.bind (Triple.conseq (rmemRead_told dev _ _ chip) (fun _ h=>h) (fun _ _ h=>h.symm) fun _ _ h=>h)
    fun reply=>?_
  apply Triple.pre
  intro hfirst
  cases reply with
  | error e=>exact hnone
  | ok first=>
    have hread:=hfirst first rfl
    dsimp only
    apply Triple.ite (fun _=>hnone) fun hlength=>?_
    apply Triple.ite (fun _=>hnone) fun hbody=>?_
    apply Triple.bind (wholeRecord_told dev r first chip) fun record=>?_
    apply Triple.pre
    intro hwhole
    cases record with
    | none=>exact hnone
    | some record=>
      dsimp only
      apply Triple.ite (fun _=>hnone) fun hshort=>?_
      apply Triple.ite (fun _=>hnone) fun hmagic=>?_
      apply Triple.ite (fun _=>hnone) fun hsize=>?_
      have hfits : RecordFits (bodyLength first) record:=by
        rw [not_lt] at hshort
        rw [ne_eq,not_not] at hmagic
        rw [not_or,not_lt] at hsize hbody
        exact ⟨hshort,hmagic,lt_of_le_of_ne hbody.1 (Ne.symm hsize.1),hsize.2⟩
      have hbody' : ¬(bodyLength first < rsaEnvelope ∨ rsaRecordSize < 2+bodyLength first):=hbody
      have hstored : storedRsa dev chip r=some record:=by
        unfold storedRsa
        rw [hread,Option.bind_some,if_neg hlength,if_neg hbody',hwhole record rfl,Option.bind_some,if_pos hfits]
      apply Triple.bind (deriveStorageKey_told dev cr pin _ chip) fun key=>?_
      apply Triple.pure
      rintro c ⟨-,id,hid,rfl⟩ blob hblob
      exact ⟨record,id,hstored,hid,hblob⟩

section Calm

variable {c : Card} (hcalm : c.env.calls=[])
include hcalm

theorem rmemRead_of_readAt {slot maxLen : ℕ} (hslot : slot < Chip.rmemSlotCount) {data : Bytes}
    (h : readAt dev c.badge.chip slot maxLen=some data) : rmemRead dev slot maxLen c=(.ok (.ok data),c):=by
  rw [rmemRead_calm dev hcalm maxLen hslot]
  unfold readAt at h
  cases hstored : c.badge.chip.rmem slot with
  | none=>
    rw [hstored] at h
    cases h
  | some stored=>
    rw [hstored] at h
    dsimp only at h ⊢
    split_ifs at h with hlong
    cases h
    rw [if_neg hlong]

theorem rmemRead_of_readAt_none {slot maxLen : ℕ} (hslot : slot < Chip.rmemSlotCount)
    (h : readAt dev c.badge.chip slot maxLen=none) : ∃ e, rmemRead dev slot maxLen c=(.ok (.error e),c):=by
  rw [rmemRead_calm dev hcalm maxLen hslot]
  unfold readAt at h
  cases hstored : c.badge.chip.rmem slot with
  | none=>exact ⟨_,rfl⟩
  | some stored=>
    rw [hstored] at h
    dsimp only at h ⊢
    split_ifs at h with hlong
    rw [if_pos hlong]
    exact ⟨_,rfl⟩

theorem wholeRecord_calm (first : Bytes) :
    (if 2+bodyLength first ≤ first.length then pure (some first)
      else do
        match ← rmemRead dev (rsaSlot0 r+1) (rsaRecordSize-first.length) with
        | .error _=>pure none
        | .ok rest=>pure (some (first++rest)) : CardM (Option Bytes)) c =
      (.ok (wholeRecord dev c.badge.chip r first),c):=by
  unfold wholeRecord
  split_ifs
  · rfl
  · cases hread : readAt dev c.badge.chip (rsaSlot0 r+1) (rsaRecordSize-first.length) with
    | none=>
      obtain ⟨e,he⟩:=rmemRead_of_readAt_none dev hcalm (rsaSlot0_lt r) hread
      rw [bind_of_ok he]
      rfl
    | some rest=>
      rw [bind_of_ok (rmemRead_of_readAt dev hcalm (rsaSlot0_lt r) hread)]
      rfl

theorem gpgStorageLoadRsaKey_calm : gpgStorageLoadRsaKey dev cr r pin c =
    (.ok ((storedRsa dev c.badge.chip r).bind (openRsaRecord cr (storageKey cr dev.chipId (rsaSlot0 r) pin) r)),c):=by
  have hslot : rsaSlot0 r < Chip.rmemSlotCount:=by have:=rsaSlot0_lt r; omega
  unfold gpgStorageLoadRsaKey storedRsa
  cases hread : readAt dev c.badge.chip (rsaSlot0 r) rsaRecordSize with
  | none=>
    obtain ⟨e,he⟩:=rmemRead_of_readAt_none dev hcalm hslot hread
    rw [bind_of_ok he]
    rfl
  | some first=>
    have hdef : (first.headD 0).toNat+(first.getD 1 0).toNat*256=bodyLength first:=rfl
    rw [bind_of_ok (rmemRead_of_readAt dev hcalm hslot hread),Option.bind_some]
    dsimp only
    rw [hdef]
    by_cases hlength : first.length < 2+rsaEnvelope
    · rw [if_pos hlength,if_pos hlength]
      rfl
    by_cases hbody : bodyLength first < rsaEnvelope ∨ rsaRecordSize < 2+bodyLength first
    · rw [if_neg hlength,if_pos hbody,if_neg hlength,if_pos hbody]
      rfl
    rw [if_neg hlength,if_neg hbody,if_neg hlength,if_neg hbody]
    apply (bind_of_ok (wholeRecord_calm dev r hcalm first)).trans
    cases hwhole : wholeRecord dev c.badge.chip r first with
    | none=>rfl
    | some record=>
      rw [Option.bind_some]
      dsimp only
      by_cases hshort : record.length < 2+bodyLength first
      · rw [if_pos hshort,if_neg fun h : RecordFits _ _=>absurd h.1 (by omega)]
        rfl
      by_cases hmagic : (record.drop 2).take magicSize≠rsaKeyMagic
      · rw [if_neg hshort,if_pos hmagic,if_neg fun h : RecordFits _ _=>hmagic h.2.1]
        rfl
      by_cases hsize : bodyLength first=rsaEnvelope ∨ rsaBlobMax < bodyLength first-rsaEnvelope
      · rw [if_neg hshort,if_neg hmagic,if_pos hsize,if_neg fun h : RecordFits _ _=>by have:=h.2.2; omega]
        rfl
      have hfits : RecordFits (bodyLength first) record:=
        ⟨by omega,not_not.mp hmagic,by omega,by omega⟩
      rw [if_neg hshort,if_neg hmagic,if_neg hsize,if_pos hfits,bind_of_ok (deriveStorageKey_calm dev cr hcalm _ _)]
      rfl

end Calm

end Loads

section Held

variable (dev : Device) (cr : GpgCrypto) {chip : Chip Bytes} {r : Role} {key : ByteArr 32} {nonce blob : Bytes}

theorem bodyLength_bytes (n : ℕ) (hn : n < 65536) (rest : Bytes) :
    bodyLength ([UInt8.ofNat n,UInt8.ofNat (n/256)]++rest)=n:=by
  simp only [bodyLength,List.cons_append,List.headD_cons,List.getD_cons_succ,List.getD_cons_zero,
    UInt8.toNat_ofNat']
  omega

theorem exists_cons_cons {bs : Bytes} (h : 2 ≤ bs.length) : ∃ a b tail, bs=a::b::tail:=by
  cases bs with
  | nil=>simp at h
  | cons a bs=>
    cases bs with
    | nil=>simp at h
    | cons b tail=>exact ⟨a,b,tail,rfl⟩

/-- The length in front of a record can be read from any part of it that has two bytes. -/
theorem bodyLength_append {first : Bytes} (rest : Bytes) (h : 2 ≤ first.length) : bodyLength (first++rest)=bodyLength first:=by
  obtain ⟨a,b,tail,rfl⟩:=exists_cons_cons h
  rfl

theorem length_rsaRecord (hnonce : nonce.length=nonceSize) :
    (rsaRecord cr key r nonce blob).length=2+(rsaEnvelope+blob.length):=by
  have hmagic : rsaKeyMagic.length=magicSize:=rfl
  simp only [rsaRecord,List.length_append,List.length_cons,List.length_nil,length_sealedRecord cr hmagic hnonce,
    rsaEnvelope]
  omega

theorem bodyLength_rsaRecord (hnonce : nonce.length=nonceSize) (hmax : blob.length ≤ rsaBlobMax) :
    bodyLength (rsaRecord cr key r nonce blob)=rsaEnvelope+blob.length:=by
  have hmagic : rsaKeyMagic.length=magicSize:=rfl
  have hlength : (sealedRecord cr key (rsaSlot0 r) rsaKeyMagic nonce blob).length=rsaEnvelope+blob.length:=by
    rw [length_sealedRecord cr hmagic hnonce]
    unfold rsaEnvelope
    omega
  have hsmall : rsaEnvelope+blob.length < 65536:=by
    have : rsaEnvelope+rsaBlobMax < 65536:=by decide
    omega
  unfold rsaRecord
  dsimp only
  rw [hlength,bodyLength_bytes _ hsmall]

theorem readAt_of_length {slot maxLen : ℕ} {data : Bytes} (h : chip.rmem slot=some data) (hlength : data.length ≤ maxLen) :
    readAt dev chip slot maxLen=some data:=by
  unfold readAt
  rw [h]
  dsimp only
  rw [if_neg (by omega),List.take_of_length_le hlength]

theorem storedRsa_of_held (hnonce : nonce.length=nonceSize) (hne : blob≠[]) (hmax : blob.length ≤ rsaBlobMax)
    (h : RsaHeld r (rsaRecord cr key r nonce blob) chip) :
    storedRsa dev chip r=some (rsaRecord cr key r nonce blob):=by
  have hlength : (rsaRecord cr key r nonce blob).length=2+(rsaEnvelope+blob.length):=length_rsaRecord cr hnonce
  have hbody : bodyLength (rsaRecord cr key r nonce blob)=rsaEnvelope+blob.length:=bodyLength_rsaRecord cr hnonce hmax
  have hmagic : ((rsaRecord cr key r nonce blob).drop 2).take magicSize=rsaKeyMagic:=take_sealedRecord cr rfl
  have hpos:=List.length_pos_of_ne_nil hne
  have hcap : rsaSlotCap=444:=rfl
  have hsize : rsaRecordSize=594:=rfl
  have henvelope : rsaEnvelope=32:=rfl
  have hblob : rsaBlobMax=560:=rfl
  generalize rsaRecord cr key r nonce blob=record at h hlength hbody hmagic ⊢
  obtain ⟨hfirst,hsecond⟩:=h
  have hbody' : bodyLength (record.take rsaSlotCap)=rsaEnvelope+blob.length:=by
    have htake : 2 ≤ (record.take rsaSlotCap).length:=by
      rw [List.length_take]
      omega
    rw [← hbody,← bodyLength_append (record.drop rsaSlotCap) htake,List.take_append_drop]
  have hread : readAt dev chip (rsaSlot0 r) rsaRecordSize=some (record.take rsaSlotCap):=by
    apply readAt_of_length dev hfirst
    rw [List.length_take]
    omega
  have hwhole : wholeRecord dev chip r (record.take rsaSlotCap)=some record:=by
    unfold wholeRecord
    rw [hbody',List.length_take]
    by_cases hlong : rsaSlotCap < record.length
    · have hrest : readAt dev chip (rsaSlot0 r+1) (rsaRecordSize-min rsaSlotCap record.length) =
          some (record.drop rsaSlotCap):=by
        apply readAt_of_length dev (hsecond hlong)
        rw [List.length_drop]
        omega
      rw [if_neg (by omega),hrest,Option.map_some,List.take_append_drop]
    · rw [if_pos (by omega),List.take_of_length_le (by omega)]
  have hfits : RecordFits (rsaEnvelope+blob.length) record:=⟨by omega,hmagic,by omega,by omega⟩
  unfold storedRsa
  rw [hread,Option.bind_some,hbody',List.length_take,if_neg (by omega),if_neg (by omega),hwhole,Option.bind_some,
    if_pos hfits]

theorem openRsaRecord_rsaRecord (key' : ByteArr 32) (hnonce : nonce.length=nonceSize) (hmax : blob.length ≤ rsaBlobMax) :
    openRsaRecord cr key' r (rsaRecord cr key r nonce blob) =
      cr.gcmOpen key' nonce (buildAad (rsaSlot0 r) rsaKeyMagic)
        (cr.gcmSeal key nonce (buildAad (rsaSlot0 r) rsaKeyMagic) blob).1
        (cr.gcmSeal key nonce (buildAad (rsaSlot0 r) rsaKeyMagic) blob).2:=by
  have hmagic : rsaKeyMagic.length=magicSize:=rfl
  have hbody : bodyLength (rsaRecord cr key r nonce blob)=rsaEnvelope+blob.length:=bodyLength_rsaRecord cr hnonce hmax
  have hdrop : (rsaRecord cr key r nonce blob).drop 2=sealedRecord cr key (rsaSlot0 r) rsaKeyMagic nonce blob:=rfl
  have hlength : (sealedRecord cr key (rsaSlot0 r) rsaKeyMagic nonce blob).length=rsaEnvelope+blob.length:=by
    rw [length_sealedRecord cr hmagic hnonce]
    unfold rsaEnvelope
    omega
  change openRecord cr key' (rsaSlot0 r) rsaKeyMagic (bodyLength (rsaRecord cr key r nonce blob)-rsaEnvelope)
    (((rsaRecord cr key r nonce blob).drop 2).take (bodyLength (rsaRecord cr key r nonce blob)))=_
  rw [hbody,hdrop,List.take_of_length_le hlength.le,Nat.add_sub_cancel_left]
  exact openRecord_sealed cr key' hmagic hnonce

def sealedPart (record : Bytes) : Bytes:=(record.drop 2).take (bodyLength record)

def nonceOf (record : Bytes) : Bytes:=((sealedPart record).drop magicSize).take nonceSize

def ctOf (record : Bytes) : Bytes:=
  ((sealedPart record).drop (magicSize+nonceSize)).take (bodyLength record-rsaEnvelope)

def tagOf (record : Bytes) : ByteArr 16:=
  fit tagSize (((sealedPart record).drop (magicSize+nonceSize)).drop (bodyLength record-rsaEnvelope))

theorem rsaRecord_prefix {record : Bytes} (hfits : RecordFits (bodyLength record) record)
    (hseal : cr.gcmSeal key (nonceOf record) (buildAad (rsaSlot0 r) rsaKeyMagic) blob=(ctOf record,tagOf record)) :
    rsaRecord cr key r (nonceOf record) blob <+: record:=by
  obtain ⟨hlength,hmagic,hbody,-⟩:=hfits
  have henvelope : rsaEnvelope=32:=rfl
  have hpart : (sealedPart record).length=bodyLength record:=by
    unfold sealedPart
    rw [List.length_take,List.length_drop]
    omega
  have hsealed : sealedRecord cr key (rsaSlot0 r) rsaKeyMagic (nonceOf record) blob=sealedPart record:=by
    have htag : (tagOf record).toList =
        ((sealedPart record).drop (magicSize+nonceSize)).drop (bodyLength record-rsaEnvelope):=by
      apply toList_fit
      rw [List.length_drop,List.length_drop,hpart]
      change bodyLength record-16-(bodyLength record-rsaEnvelope)=16
      omega
    have hfront : rsaKeyMagic=(sealedPart record).take magicSize:=by
      unfold sealedPart
      rw [List.take_take,← hmagic]
      congr 1
      change 4=min 4 _
      omega
    unfold sealedRecord
    rw [hseal]
    dsimp only
    rw [htag,ctOf,List.append_assoc,List.take_append_drop,nonceOf,hfront]
    rw [← List.drop_drop,List.append_assoc,List.take_append_drop,List.take_append_drop]
  have hheader : [UInt8.ofNat (sealedPart record).length,UInt8.ofNat ((sealedPart record).length/256)] =
      record.take 2:=by
    rw [hpart]
    obtain ⟨a,b,tail,rfl⟩:=exists_cons_cons (show 2 ≤ record.length by omega)
    have ha:=a.toNat_lt
    have hb:=b.toNat_lt
    have hvalue : bodyLength (a::b::tail)=a.toNat+b.toNat*256:=rfl
    rw [hvalue]
    have hlow : UInt8.ofNat (a.toNat+b.toNat*256)=a:=by
      apply UInt8.toNat_inj.mp
      rw [UInt8.toNat_ofNat']
      omega
    have hhigh : UInt8.ofNat ((a.toNat+b.toNat*256)/256)=b:=by
      apply UInt8.toNat_inj.mp
      rw [UInt8.toNat_ofNat']
      omega
    rw [hlow,hhigh]
    rfl
  unfold rsaRecord
  rw [hsealed]
  dsimp only
  rw [hheader]
  refine ⟨(record.drop 2).drop (bodyLength record),?_⟩
  unfold sealedPart
  rw [List.append_assoc,List.take_append_drop,List.take_append_drop]

theorem recordFits_of_stored {record : Bytes} (h : storedRsa dev chip r=some record) :
    RecordFits (bodyLength record) record:=by
  unfold storedRsa at h
  obtain ⟨first,-,h⟩:=Option.bind_eq_some_iff.mp h
  split_ifs at h with hlength hbody
  obtain ⟨whole,hwhole,h⟩:=Option.bind_eq_some_iff.mp h
  split_ifs at h with hfits
  cases h
  have hfirst : 2 ≤ first.length:=by omega
  have hsame : bodyLength record=bodyLength first:=by
    unfold wholeRecord at hwhole
    split_ifs at hwhole
    · cases hwhole
      rfl
    · obtain ⟨rest,-,rfl⟩:=Option.map_eq_some_iff.mp hwhole
      exact bodyLength_append rest hfirst
  rw [hsame]
  exact hfits

end Held

/-- Two cards with the same calls ahead and the same in the slots of a role. -/
structure SameRsa (r : Role) (c d : Card) : Prop where
  env : c.env=d.env
  first : c.badge.chip.rmem (rsaSlot0 r)=d.badge.chip.rmem (rsaSlot0 r)
  second : c.badge.chip.rmem (rsaSlot0 r+1)=d.badge.chip.rmem (rsaSlot0 r+1)

section Same

variable (dev : Device) (cr : GpgCrypto) {r : Role}

theorem seCall_reading {α : Type} {call : Chip Bytes → SeReply α × Chip Bytes} (hread : ∀ chip, (call chip).2=chip)
    (c : Card) : seCall call c =
      (match c.env.calls.headD .done with
        | .done=>.ok (call c.badge.chip).1
        | .failed e _=>.ok (.error e)
        | .powerLost _=>.error ⟨⟩,{c with env:={c.env with calls:=c.env.calls.tail}}):=by
  have hnext : nextCall c=(.ok (c.env.calls.headD .done),{c with env:={c.env with calls:=c.env.calls.tail}}):=rfl
  have hsame:=hread c.badge.chip
  unfold seCall
  rw [bind_of_ok hnext]
  unfold onPins zoom Pin.seCall Chip.perform
  dsimp only
  cases c.env.calls.headD .done with
  | done=>simp only [hsame]
  | failed e applied=>cases applied <;> simp [hsame]
  | powerLost applied=>cases applied <;> simp [hsame]

theorem paired_seCall {α : Type} {call : Chip Bytes → SeReply α × Chip Bytes} (hread : ∀ chip, (call chip).2=chip)
    (hsame : ∀ c d : Card, SameRsa r c d→(call c.badge.chip).1=(call d.badge.chip).1) :
    Paired (SameRsa r) (seCall call):=by
  intro c d h
  rw [seCall_reading hread,seCall_reading hread,h.env,hsame c d h]
  exact ⟨rfl,rfl,h.first,h.second⟩

theorem paired_rmemRead {slot : ℕ} (hslot : slot=rsaSlot0 r ∨ slot=rsaSlot0 r+1) (maxLen : ℕ) :
    Paired (SameRsa r) (rmemRead dev slot maxLen):=by
  apply paired_seCall (readCall_chip slot maxLen)
  intro c d h
  have hrmem : c.badge.chip.rmem slot=d.badge.chip.rmem slot:=by
    rcases hslot with rfl | rfl
    · exact h.first
    · exact h.second
  unfold Chip.rmemRead
  rw [hrmem]
  by_cases hcount : Chip.rmemSlotCount ≤ slot
  · rw [if_pos hcount,if_pos hcount]
  · rw [if_neg hcount,if_neg hcount]
    cases d.badge.chip.rmem slot with
    | none=>rfl
    | some data=>
      dsimp only
      split_ifs <;> rfl

theorem paired_derive (slot : ℕ) (pin : Option Bytes) : Paired (SameRsa r) (deriveStorageKey dev cr slot pin):=by
  apply Paired.bind (paired_seCall (fun _=>rfl) fun _ _ _=>rfl) fun reply=>?_
  cases reply <;> exact Paired.pure _

theorem paired_load (pin : Option Bytes) : Paired (SameRsa r) (gpgStorageLoadRsaKey dev cr r pin):=by
  apply Paired.bind (paired_rmemRead dev (.inl rfl) _) fun reply=>?_
  cases reply with
  | error e=>exact Paired.pure _
  | ok first=>
    apply Paired.ite (Paired.pure _)
    apply Paired.ite (Paired.pure _)
    apply Paired.bind
    · apply Paired.ite (Paired.pure _)
      apply Paired.bind (paired_rmemRead dev (.inr rfl) _) fun reply=>?_
      cases reply <;> exact Paired.pure _
    · intro record
      cases record with
      | none=>exact Paired.pure _
      | some record=>
        apply Paired.ite (Paired.pure _)
        apply Paired.ite (Paired.pure _)
        apply Paired.ite (Paired.pure _)
        exact Paired.bind (paired_derive dev cr _ _) fun _=>Paired.pure _

end Same

end CdcBadge.OpenPgp
