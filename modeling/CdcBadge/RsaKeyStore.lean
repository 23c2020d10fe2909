import CdcBadge.KeyImport
import CdcBadge.RsaRecords

/-!
# The store of RSA keys

A key that was saved for a role is loaded again for that role, whatever was in its slots
before; the other roles load what they loaded; and what is loaded was saved for the role as a
whole record, if nothing is opened but what was sealed.
-/

namespace CdcBadge.OpenPgp

open Handler

/-- A call of `gpg_storage_save_rsa_key`. -/
structure RsaSave where
  role : Role
  blob : Bytes
  pin : Option Bytes
  card : Card

namespace RsaSave

variable (dev : Device) (cr : GpgCrypto) (s : RsaSave)

def run : Except Pin.PowerLost Bool × Card:=gpgStorageSaveRsaKey dev cr s.role s.blob s.pin s.card

def key : ByteArr 32:=
  storageKey cr (if s.card.env.calls.headD .done=.done then dev.chipId else zeros 16) (rsaSlot0 s.role) s.pin

def nonce : Bytes:=(fit nonceSize ((s.card.env.random.headD (some [])).getD [])).toList

def record : Bytes:=rsaRecord cr (s.key dev cr) s.role s.nonce s.blob

theorem length_nonce : s.nonce.length=nonceSize:=List.Vector.toList_length _

end RsaSave

section Saves

variable (dev : Device) (cr : GpgCrypto)

theorem derive_save (s : RsaSave) : Triple (fun c=>c=s.card) (deriveStorageKey dev cr (rsaSlot0 s.role) s.pin)
    (fun key c=>key=s.key dev cr ∧ c.env.random=s.card.env.random) fun _ _=>True:=by
  rintro c rfl
  unfold deriveStorageKey RsaSave.key
  have hread : ∀ chip : Chip Bytes, ((.ok () : SeReply Unit),chip).2=chip:=fun _=>rfl
  have hcall:=seCall_reading hread s.card
  cases ho : s.card.env.calls.headD .done with
  | done=>
    rw [ho] at hcall
    rw [bind_of_ok hcall]
    exact ⟨rfl,rfl⟩
  | failed e applied=>
    rw [ho] at hcall
    rw [bind_of_ok hcall]
    exact ⟨rfl,rfl⟩
  | powerLost applied=>
    rw [ho] at hcall
    rw [bind_apply,hcall]
    trivial

theorem random_save (s : RsaSave) : Triple (fun c=>c.env.random=s.card.env.random) nextRandom
    (fun random _=>random=s.card.env.random.headD (some []) ∧ True) fun _ _=>True:=by
  intro c hc
  change c.env.random.headD (some [])=_ ∧ True
  rw [hc]
  exact ⟨rfl,trivial⟩

/-- A write that is acknowledged holds what was written, and leaves the other slots. -/
theorem write_told {slot other : ℕ} (hother : other≠slot) (data : Bytes) (content : Option Bytes) :
    Triple (fun c=>c.badge.chip.rmem other=content) (seCall (Chip.rmemWrite slot data))
      (fun reply c=>c.badge.chip.rmem other=content ∧ (reply=.ok () → c.badge.chip.rmem slot=some data))
      fun _ _=>True:=by
  have hkeeps : Keeps (fun c : Card=>c.badge.chip.rmem other=content) (seCall (Chip.rmemWrite slot data)):=by
    apply keeps_chip (P:=fun chip=>chip.rmem other=content)
    intro chip hchip
    unfold Chip.rmemWrite
    split_ifs
    · exact hchip
    · split
      · exact hchip
      · exact (Function.update_of_ne hother ..).trans hchip
  exact Triple.conseq (Triple.and hkeeps (rmemWrite_told slot data)) (fun _ h=>⟨h,trivial⟩) (fun _ _ h=>h)
    fun _ _ _=>trivial

theorem save_held (s : RsaSave) (h : (s.run dev cr).1=.ok true) :
    s.blob≠[] ∧ s.blob.length ≤ rsaBlobMax ∧ RsaHeld s.role (s.record dev cr) (s.run dev cr).2.badge.chip:=by
  have hfalse : ∀ {P : Card→Prop}, Triple P (pure false : CardM Bool)
      (fun ok c=>ok=true → s.blob≠[] ∧ s.blob.length ≤ rsaBlobMax ∧ RsaHeld s.role (s.record dev cr) c.badge.chip)
      fun _ _=>True:=by
    intro P
    apply Triple.pure
    rintro c - hok
    cases hok
  have hsave : Triple (fun c=>c=s.card) (gpgStorageSaveRsaKey dev cr s.role s.blob s.pin)
      (fun ok c=>ok=true → s.blob≠[] ∧ s.blob.length ≤ rsaBlobMax ∧ RsaHeld s.role (s.record dev cr) c.badge.chip)
      fun _ _=>True:=by
    apply Triple.ite (fun _=>hfalse) fun hblob=>?_
    rw [not_or,not_lt] at hblob
    apply Triple.bind (derive_save dev cr s) fun key=>?_
    apply Triple.pre
    rintro rfl
    apply Triple.bind (random_save s) fun random=>?_
    apply Triple.pre
    intro hrandom
    cases random with
    | none=>exact hfalse
    | some bytes=>
      have hnonce : (fit nonceSize bytes).toList=s.nonce:=by
        unfold RsaSave.nonce
        rw [← hrandom]
        rfl
      have hrecord : rsaRecord cr (s.key dev cr) s.role (fit nonceSize bytes).toList s.blob=s.record dev cr:=by
        rw [hnonce]
        rfl
      dsimp only
      rw [hrecord]
      apply Triple.bind (trivially _) fun _=>?_
      apply Triple.bind (trivially _) fun _=>?_
      apply Triple.bind (rmemWrite_told _ _) fun reply=>?_
      cases reply with
      | error e=>exact hfalse
      | ok u=>
        apply Triple.ite
        · intro hshort
          exact Triple.pure fun c hc _=>⟨hblob.1,hblob.2,hc rfl,fun hlong=>absurd hlong (by omega)⟩
        · intro hlong
          have hwrite:=write_told (show rsaSlot0 s.role≠rsaSlot0 s.role+1 by omega)
            ((s.record dev cr).drop rsaSlotCap) (some ((s.record dev cr).take rsaSlotCap))
          apply Triple.bind (Triple.conseq hwrite (fun _ hc=>hc rfl) (fun _ _ h=>h) fun _ _ h=>h) fun reply=>?_
          cases reply with
          | error e=>exact hfalse
          | ok u=>exact Triple.pure fun c hc _=>⟨hblob.1,hblob.2,hc.1,fun _=>hc.2 rfl⟩
  exact hsave.ok rfl (Prod.ext h rfl) rfl

end Saves

section Authentic

variable (dev : Device) (cr : GpgCrypto)

/-- What opens under a key was sealed under it by one of the saves. -/
def NoForgery (made : List RsaSave) (key : ByteArr 32) (nonce aad ct : Bytes) (tag : ByteArr 16) : Prop:=
  ∀ p, cr.gcmOpen key nonce aad ct tag=some p→∃ s∈made, s.key dev cr=key ∧ s.nonce=nonce ∧
    buildAad (rsaSlot0 s.role) rsaKeyMagic=aad ∧ s.blob=p ∧ cr.gcmSeal key nonce aad p=(ct,tag)

/-- AES-GCM is authentic where a role loads its key: of what is in its slots nothing opens but what a save sealed. -/
def Authentic (made : List RsaSave) (r : Role) (pin : Option Bytes) (chip : Chip Bytes) : Prop:=
  ∀ record id, storedRsa dev chip r=some record→id=dev.chipId ∨ id=zeros 16 →
    NoForgery dev cr made (storageKey cr id (rsaSlot0 r) pin) (nonceOf record) (buildAad (rsaSlot0 r) rsaKeyMagic)
      (ctOf record) (tagOf record)

theorem buildAad_inj {r r' : Role} (h : buildAad (rsaSlot0 r) rsaKeyMagic=buildAad (rsaSlot0 r') rsaKeyMagic) :
    r=r':=by
  revert h
  cases r <;> cases r' <;> decide

/-- What is loaded was saved for the role, and the slots hold the whole record of that save. -/
theorem load_genuine {made : List RsaSave} {r : Role} {pin : Option Bytes} {c c' : Card} {blob : Bytes}
    (hauth : Authentic dev cr made r pin c.badge.chip) (hload : gpgStorageLoadRsaKey dev cr r pin c=(.ok (some blob),c')) :
    ∃ s∈made, s.role=r ∧ s.blob=blob ∧
      ∃ record, storedRsa dev c.badge.chip r=some record ∧ s.record dev cr <+: record:=by
  obtain ⟨record,id,hstored,hid,hopen⟩:=(gpgStorageLoadRsaKey_told dev cr r pin c.badge.chip).ok rfl hload blob rfl
  obtain ⟨s,hs,hkey,hnonce,haad,hblob,hseal⟩:=hauth record id hstored hid blob hopen
  have hrole:=buildAad_inj haad
  subst hrole
  refine ⟨s,hs,rfl,hblob,record,hstored,?_⟩
  unfold RsaSave.record
  rw [hkey,hnonce,hblob]
  exact rsaRecord_prefix cr (recordFits_of_stored dev hstored) hseal

end Authentic

section Store

variable (dev : Device) (cr : GpgCrypto)

/-- What the store owes a save that reported success. -/
structure StoreHolds (s : RsaSave) : Prop where
  /-- As long as the slots of the role stay, the blob is loaded. -/
  loads : ∀ c : Card, c.env.calls=[] →
    c.badge.chip.rmem (rsaSlot0 s.role)=(s.run dev cr).2.badge.chip.rmem (rsaSlot0 s.role) →
    c.badge.chip.rmem (rsaSlot0 s.role+1)=(s.run dev cr).2.badge.chip.rmem (rsaSlot0 s.role+1) →
    gpgStorageLoadRsaKey dev cr s.role s.pin c=(.ok (some s.blob),c)
  /-- The other roles load what they would have loaded. -/
  others : ∀ (r : Role) (pin : Option Bytes) (env : Env), r≠s.role →
    (gpgStorageLoadRsaKey dev cr r pin {(s.run dev cr).2 with env}).1 =
      (gpgStorageLoadRsaKey dev cr r pin {s.card with env}).1
  /-- Whatever comes into the slots, what is loaded is a whole record that was made for the role. -/
  genuine : ∀ (made : List RsaSave) (r : Role) (pin : Option Bytes) (c c' : Card) (blob : Bytes),
    Authentic dev cr made r pin c.badge.chip → gpgStorageLoadRsaKey dev cr r pin c=(.ok (some blob),c') →
    ∃ m∈made, m.role=r ∧ m.blob=blob ∧
      ∃ record, storedRsa dev c.badge.chip r=some record ∧ m.record dev cr <+: record

theorem rsaSlot0_ne {r r' : Role} (h : r≠r') : rsaSlot0 r≠rsaSlot0 r' ∧ rsaSlot0 r≠rsaSlot0 r'+1 ∧
    rsaSlot0 r+1≠rsaSlot0 r':=by
  revert h
  cases r <;> cases r' <;> decide

theorem save_others (s : RsaSave) {r : Role} (hr : r≠s.role) :
    (s.run dev cr).2.badge.chip.rmem (rsaSlot0 r)=s.card.badge.chip.rmem (rsaSlot0 r) ∧
      (s.run dev cr).2.badge.chip.rmem (rsaSlot0 r+1)=s.card.badge.chip.rmem (rsaSlot0 r+1):=by
  obtain ⟨hfirst,hsecond,hcross⟩:=rsaSlot0_ne hr
  have hchanges : Keeps (fun c=>(Changes.Within { rmem:=fun slot _=>slot=rsaSlot0 s.role ∨ slot=rsaSlot0 s.role+1
                                                  erased:=fun slot=>slot=rsaSlot0 s.role ∨ slot=rsaSlot0 s.role+1 })
      s.card.badge.chip c.badge.chip) (gpgStorageSaveRsaKey dev cr s.role s.blob s.pin):=
    keeps_within_saveRsa (Or.inl rfl) (Or.inr rfl) (fun _ _=>⟨Or.inl rfl,Or.inr rfl⟩) _
  have hwithin:=keeps_iff.mp hchanges s.card (Changes.Within.refl _ _)
  have hslot : ∀ slot, ¬(slot=rsaSlot0 s.role ∨ slot=rsaSlot0 s.role+1) →
      (s.run dev cr).2.badge.chip.rmem slot=s.card.badge.chip.rmem slot:=by
    intro slot hslot
    rcases hwithin.rmem slot with h | ⟨herased,-⟩ | ⟨data,hdata,-⟩
    · exact h
    · exact absurd herased hslot
    · exact absurd hdata hslot
  exact ⟨hslot _ (by omega),hslot _ (by omega)⟩

/-- The store does what it owes a save, exactly where the save derives the key that loads derive: where the chip id was
read, or makes no difference. -/
theorem rsa_store (s : RsaSave) (hsave : (s.run dev cr).1=.ok true)
    (hauth : Authentic dev cr [s] s.role s.pin (s.run dev cr).2.badge.chip) :
    StoreHolds dev cr s ↔ s.key dev cr=storageKey cr dev.chipId (rsaSlot0 s.role) s.pin:=by
  obtain ⟨hne,hmax,hheld⟩:=save_held dev cr s hsave
  have hload : ∀ c : Card, c.env.calls=[]→RsaHeld s.role (s.record dev cr) c.badge.chip →
      gpgStorageLoadRsaKey dev cr s.role s.pin c =
        (.ok (openRsaRecord cr (storageKey cr dev.chipId (rsaSlot0 s.role) s.pin) s.role (s.record dev cr)),c):=by
    intro c hcalm hc
    rw [gpgStorageLoadRsaKey_calm dev cr s.role s.pin hcalm,storedRsa_of_held dev cr s.length_nonce hne hmax hc]
    rfl
  constructor
  · intro h
    have hstored:=storedRsa_of_held dev cr s.length_nonce hne hmax hheld
    have hloads:=h.loads {(s.run dev cr).2 with env:={}} rfl rfl rfl
    rw [hload {(s.run dev cr).2 with env:={}} rfl hheld] at hloads
    have hopen:=Except.ok.inj (congrArg Prod.fst hloads)
    obtain ⟨m,hm,hkey,-⟩:=hauth _ dev.chipId hstored (.inl rfl) s.blob hopen
    rw [List.mem_singleton] at hm
    rw [← hkey,hm]
  · intro hkey
    refine ⟨fun c hcalm hfirst hsecond=>?_,fun r pin env hr=>?_,fun made r pin c c' blob hauth hload=>?_⟩
    · rw [hload c hcalm ⟨hfirst.trans hheld.1,fun hlong=>hsecond.trans (hheld.2 hlong)⟩,← hkey]
      unfold RsaSave.record
      rw [openRsaRecord_rsaRecord cr _ s.length_nonce hmax,cr.gcmOpen_gcmSeal]
    · obtain ⟨hfirst,hsecond⟩:=save_others dev cr s hr
      exact (paired_load dev cr pin {(s.run dev cr).2 with env} {s.card with env} ⟨rfl,hfirst,hsecond⟩).1
    · exact load_genuine dev cr hauth hload

end Store

def idCrypto : GpgCrypto:={GpgCrypto.plain with hkdf:=fun _ ikm _=>fit 32 ikm}

def idDevice : Device:={Device.plain with chipId:=fit 16 [0x01]}

def saveWith (calls : List SeOutcome) : RsaSave where
  role:=.sig
  blob:=[0x2A]
  pin:=none
  card:={badge:={chip:={ecc:=fun _=>none,rmem:=fun _=>none}},env:={calls}}

theorem stored_saveWith : storedRsa idDevice ((saveWith []).run idDevice idCrypto).2.badge.chip .sig =
    some ((saveWith []).record idDevice idCrypto):=by
  decide +kernel

theorem authentic_saveWith : Authentic idDevice idCrypto [saveWith []] .sig none
    ((saveWith []).run idDevice idCrypto).2.badge.chip:=by
  intro record id hstored hid p hopen
  rw [stored_saveWith] at hstored
  cases hstored
  refine ⟨saveWith [],List.mem_singleton_self _,?_⟩
  rcases hid with rfl | rfl
  · have hblob : idCrypto.gcmOpen (storageKey idCrypto idDevice.chipId (rsaSlot0 .sig) none)
        (nonceOf ((saveWith []).record idDevice idCrypto)) (buildAad (rsaSlot0 .sig) rsaKeyMagic)
        (ctOf ((saveWith []).record idDevice idCrypto)) (tagOf ((saveWith []).record idDevice idCrypto))=some [0x2A]:=by
      decide +kernel
    obtain rfl : [0x2A]=p:=Option.some.inj (hblob.symm.trans hopen)
    decide +kernel
  · have hnone : idCrypto.gcmOpen (storageKey idCrypto (zeros 16) (rsaSlot0 .sig) none)
        (nonceOf ((saveWith []).record idDevice idCrypto)) (buildAad (rsaSlot0 .sig) rsaKeyMagic)
        (ctOf ((saveWith []).record idDevice idCrypto)) (tagOf ((saveWith []).record idDevice idCrypto))=none:=by
      decide +kernel
    rw [hnone] at hopen
    cases hopen

/-- A save whose calls are all done. -/
theorem rsa_store_done : StoreHolds idDevice idCrypto (saveWith []):=
  (rsa_store idDevice idCrypto (saveWith []) (by decide +kernel) authentic_saveWith).mpr (by decide +kernel)

/-- The read of the chip id fails, the save reports success, and the key is not loaded again. -/
theorem id_not_read : ((saveWith [.failed .error false]).run idDevice idCrypto).1=.ok true ∧
    ¬StoreHolds idDevice idCrypto (saveWith [.failed .error false]):=by
  refine ⟨by decide +kernel,fun h=>?_⟩
  have hload:=h.loads {((saveWith [.failed .error false]).run idDevice idCrypto).2 with env:={}} rfl rfl rfl
  have hnone : (gpgStorageLoadRsaKey idDevice idCrypto .sig none
      {((saveWith [.failed .error false]).run idDevice idCrypto).2 with env:={}}).1=.ok none:=by
    decide +kernel
  have hsome:=congrArg Prod.fst hload
  cases hnone.symm.trans hsome

end CdcBadge.OpenPgp
