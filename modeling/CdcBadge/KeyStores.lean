import CdcBadge.OpenPgpCalls

/-!
# Stores that are carried out

Where every call reaches the chip and every access the flash, a key that is to be stored is
stored, in place of the one before it.
-/

namespace CdcBadge.OpenPgp

open Handler

def Card.onChip (c : Card) (chip : Chip Bytes) : Card:={c with badge:={c.badge with chip}}

/-- A card whose calls are done and whose flash works. -/
structure Card.Calm (c : Card) : Prop where
  calls : c.env.calls=[]
  nvs : c.env.nvs=[]

section Calm

variable (dev : Device) (cr : GpgCrypto) {c : Card} (hcalm : c.Calm)
include hcalm

theorem seCall_done {α : Type} (call : Chip Bytes → SeReply α × Chip Bytes) :
    seCall call c=(.ok (call c.badge.chip).1,c.onChip (call c.badge.chip).2):=by
  have hnext:=nextCall_calm hcalm.calls
  unfold seCall
  rw [bind_of_ok hnext]
  rfl

omit hcalm

/-- What is done on such a card comes to its end, and what is done then is done on such a card. -/
theorem calm_seCall {α : Type} (call : Chip Bytes → SeReply α × Chip Bytes) :
    Triple Card.Calm (seCall call) (fun _=>Card.Calm) fun _ _=>False:=by
  intro c hcalm
  rw [seCall_done hcalm]
  exact ⟨hcalm.calls,hcalm.nvs⟩

theorem calm_nvsWrite {f : Card → Card} (hf : ∀ c, c.Calm→(f c).Calm) :
    Triple Card.Calm (nvsWrite f) (fun _=>Card.Calm) fun _ _=>False:=by
  have hnext : Triple Card.Calm nextNvs (fun o c=>o=.done ∧ c.Calm) fun _ _=>False:=by
    intro c hcalm
    unfold nextNvs
    rw [hcalm.nvs]
    exact ⟨rfl,hcalm.calls,rfl⟩
  apply Triple.bind hnext fun o=>?_
  apply Triple.pre
  rintro rfl
  exact Triple.bind (Triple.modify (Q:=fun _=>Card.Calm) hf) fun _=>Triple.pure fun _ h=>h

theorem calm_saveStateToNvs : Triple Card.Calm (saveStateToNvs cr) (fun _=>Card.Calm) fun _ _=>False:=by
  apply Triple.bind (Q:=fun _=>Card.Calm) (Triple.gets fun _ h=>h) fun data=>?_
  have hnonce : Triple Card.Calm nextNonce (fun _=>Card.Calm) fun _ _=>False:=
    fun _ hcalm=>⟨hcalm.calls,hcalm.nvs⟩
  apply Triple.bind hnonce fun nonce=>?_
  apply Triple.bind (calm_seCall _) fun reply=>?_
  cases reply with
  | error e=>exact Triple.pure fun _ h=>h
  | ok sig=>
    exact Triple.bind (calm_nvsWrite fun _ hcalm=>⟨hcalm.calls,hcalm.nvs⟩) fun _=>Triple.pure fun _ h=>h

theorem calm_updateGenerationTimestamp (keyRef : UInt8) :
    Triple Card.Calm (updateGenerationTimestamp cr keyRef) (fun _=>Card.Calm) fun _ _=>False:=by
  apply Triple.bind (Q:=fun _=>Card.Calm) (Triple.gets fun _ h=>h) fun now=>?_
  cases roleForKeyRef keyRef with
  | none=>exact calm_saveStateToNvs cr
  | some r=>
    have htime : Triple Card.Calm (updateData fun d=>{d with genTime:=Function.update d.genTime r (fit 4 (be32 now))})
        (fun _=>Card.Calm) fun _ _=>False:=Triple.modify fun _ hcalm=>⟨hcalm.calls,hcalm.nvs⟩
    exact Triple.bind htime fun _=>calm_saveStateToNvs cr

theorem calm_told {α : Type} (call : Chip Bytes → SeReply α × Chip Bytes) (P : Chip Bytes→Prop) :
    Triple (fun c=>c.Calm ∧ P c.badge.chip) (seCall call)
      (fun reply c=>c.Calm ∧ ∃ chip, P chip ∧ call chip=(reply,c.badge.chip)) fun _ _=>False:=by
  rintro c ⟨hcalm,hchip⟩
  rw [seCall_done hcalm]
  exact ⟨⟨hcalm.calls,hcalm.nvs⟩,c.badge.chip,hchip,rfl⟩

theorem calm_erase {slot : ℕ} (hslot : slot < Chip.rmemSlotCount) {P : Chip Bytes→Prop}
    (hP : ∀ chip, P chip→P {chip with rmem:=Function.update chip.rmem slot none}) :
    Triple (fun c=>c.Calm ∧ P c.badge.chip) (seCall (Chip.rmemErase slot))
      (fun _ c=>c.Calm ∧ c.badge.chip.rmem slot=none ∧ P c.badge.chip) fun _ _=>False:=by
  apply Triple.conseq (calm_told _ P) (fun _ h=>h) _ fun _ _ h=>h
  rintro reply c ⟨hcalm,chip,hchip,hcall⟩
  rw [Chip.rmemErase_lt hslot] at hcall
  have hafter:=congrArg Prod.snd hcall
  dsimp only at hafter
  rw [← hafter]
  exact ⟨hcalm,Function.update_self ..,hP chip hchip⟩

theorem calm_write {slot : ℕ} (hslot : slot < Chip.rmemSlotCount) (data : Bytes) {P : Chip Bytes→Prop}
    (hP : ∀ chip, P chip→P {chip with rmem:=Function.update chip.rmem slot (some data)}) :
    Triple (fun c=>c.Calm ∧ c.badge.chip.rmem slot=none ∧ P c.badge.chip) (seCall (Chip.rmemWrite slot data))
      (fun reply c=>reply=.ok () ∧ c.Calm ∧ c.badge.chip.rmem slot=some data ∧ P c.badge.chip) fun _ _=>False:=by
  apply Triple.conseq (calm_told _ fun chip=>chip.rmem slot=none ∧ P chip) (fun _ h=>h) _ fun _ _ h=>h
  rintro reply c ⟨hcalm,chip,⟨hempty,hchip⟩,hcall⟩
  rw [Chip.rmemWrite_none hslot hempty] at hcall
  have hafter:=congrArg Prod.snd hcall
  dsimp only at hafter
  rw [← hafter]
  exact ⟨(congrArg Prod.fst hcall).symm,hcalm,Function.update_self ..,hP chip hchip⟩

/-- Random bytes are given, too. -/
structure Card.Ready (c : Card) : Prop extends c.Calm where
  random : c.env.random.headD (some [])≠none

theorem ready_derive (slot : ℕ) (pin : Option Bytes) : Triple Card.Ready (deriveStorageKey dev cr slot pin)
    (fun key c=>key=storageKey cr dev.chipId slot pin ∧ c.Ready) fun _ _=>False:=by
  intro c hready
  rw [deriveStorageKey_calm dev cr hready.calls]
  exact ⟨rfl,hready⟩

theorem ready_random : Triple Card.Ready nextRandom (fun random c=>(∃ bytes, random=some bytes) ∧ c.Calm)
    fun _ _=>False:=by
  intro c hready
  exact ⟨Option.ne_none_iff_exists'.mp hready.random,hready.calls,hready.nvs⟩

theorem saveSlotEncrypted_done {slot : ℕ} (hslot : slot < Chip.rmemSlotCount) (magic payload : Bytes) (pin : Option Bytes) :
    Triple Card.Ready (saveSlotEncrypted dev cr slot magic payload pin)
      (fun ok c=>ok=true ∧ c.Calm ∧ ∃ nonce : ByteArr nonceSize, c.badge.chip.rmem slot =
        some (sealedRecord cr (storageKey cr dev.chipId slot pin) slot magic nonce.toList payload)) fun _ _=>False:=by
  apply Triple.bind (ready_derive dev cr slot pin) fun key=>?_
  apply Triple.pre
  rintro rfl
  apply Triple.bind ready_random fun random=>?_
  apply Triple.pre
  rintro ⟨bytes,rfl⟩
  have herase : Triple Card.Calm (seCall (Chip.rmemErase slot)) (fun _ c=>c.Calm ∧ c.badge.chip.rmem slot=none ∧ True)
      fun _ _=>False:=
    Triple.conseq (calm_erase (P:=fun _=>True) hslot fun _ h=>h) (fun _ h=>⟨h,trivial⟩) (fun _ _ h=>h)
      fun _ _ h=>h
  apply Triple.bind herase fun _=>?_
  apply Triple.bind (calm_write (P:=fun _=>True) hslot _ fun _ h=>h) fun reply=>?_
  apply Triple.pre
  rintro rfl
  exact Triple.pure fun c h=>⟨rfl,h.1,_,h.2.1⟩

/-- A record lies in the two slots of a role. A second slot that it does not need may hold anything. -/
def RsaHeld (r : Role) (record : Bytes) (chip : Chip Bytes) : Prop:=
  chip.rmem (rsaSlot0 r)=some (record.take rsaSlotCap) ∧
    (rsaSlotCap < record.length → chip.rmem (rsaSlot0 r+1)=some (record.drop rsaSlotCap))

theorem rsaSlot0_lt (r : Role) : rsaSlot0 r+1 < Chip.rmemSlotCount:=by
  cases r <;> decide

theorem gpgStorageSaveRsaKey_done {r : Role} {blob : Bytes} (hne : blob≠[]) (hmax : blob.length ≤ rsaBlobMax)
    (pin : Option Bytes) : Triple Card.Ready (gpgStorageSaveRsaKey dev cr r blob pin)
      (fun ok c=>ok=true ∧ c.Calm ∧ ∃ nonce : ByteArr nonceSize,
        RsaHeld r (rsaRecord cr (storageKey cr dev.chipId (rsaSlot0 r) pin) r nonce.toList blob) c.badge.chip)
      fun _ _=>False:=by
  have hslot:=rsaSlot0_lt r
  have hne' : rsaSlot0 r≠rsaSlot0 r+1:=by omega
  unfold gpgStorageSaveRsaKey
  rw [if_neg (by simp only [not_or]; exact ⟨hne,by omega⟩)]
  apply Triple.bind (ready_derive dev cr _ pin) fun key=>?_
  apply Triple.pre
  rintro rfl
  apply Triple.bind ready_random fun random=>?_
  apply Triple.pre
  rintro ⟨bytes,rfl⟩
  dsimp only
  generalize hrecord : rsaRecord cr (storageKey cr dev.chipId (rsaSlot0 r) pin) r (fit nonceSize bytes).toList blob=record
  have herase : Triple Card.Calm (seCall (Chip.rmemErase (rsaSlot0 r)))
      (fun _ c=>c.Calm ∧ c.badge.chip.rmem (rsaSlot0 r)=none) fun _ _=>False:=
    Triple.conseq (calm_erase (P:=fun _=>True) (by omega) fun _ h=>h) (fun _ h=>⟨h,trivial⟩)
      (fun _ _ h=>⟨h.1,h.2.1⟩) fun _ _ h=>h
  apply Triple.bind herase fun _=>?_
  have herase₂ : Triple (fun c=>c.Calm ∧ c.badge.chip.rmem (rsaSlot0 r)=none) (seCall (Chip.rmemErase (rsaSlot0 r+1)))
      (fun _ c=>c.Calm ∧ c.badge.chip.rmem (rsaSlot0 r+1)=none ∧ c.badge.chip.rmem (rsaSlot0 r)=none)
      fun _ _=>False:=
    calm_erase (P:=fun chip=>chip.rmem (rsaSlot0 r)=none) hslot fun chip h=>(Function.update_of_ne hne' ..).trans h
  apply Triple.bind herase₂ fun _=>?_
  have hwrite : Triple (fun c=>c.Calm ∧ c.badge.chip.rmem (rsaSlot0 r+1)=none ∧ c.badge.chip.rmem (rsaSlot0 r)=none)
      (seCall (Chip.rmemWrite (rsaSlot0 r) (record.take rsaSlotCap)))
      (fun reply c=>reply=.ok () ∧ c.Calm ∧ c.badge.chip.rmem (rsaSlot0 r)=some (record.take rsaSlotCap) ∧
        c.badge.chip.rmem (rsaSlot0 r+1)=none) fun _ _=>False:=
    Triple.conseq (calm_write (P:=fun chip=>chip.rmem (rsaSlot0 r+1)=none) (by omega) _
      fun chip h=>(Function.update_of_ne hne'.symm ..).trans h) (fun _ h=>⟨h.1,h.2.2,h.2.1⟩) (fun _ _ h=>h)
      fun _ _ h=>h
  apply Triple.bind hwrite fun reply=>?_
  apply Triple.pre
  rintro rfl
  apply Triple.ite
  · intro hshort
    apply Triple.pure
    rintro c ⟨hcalm,hfirst,-⟩
    exact ⟨rfl,hcalm,_,by rw [hrecord]; exact ⟨hfirst,fun h=>absurd h (by omega)⟩⟩
  · intro hlong
    have hwrite₂ : Triple (fun c=>c.Calm ∧ c.badge.chip.rmem (rsaSlot0 r)=some (record.take rsaSlotCap) ∧
          c.badge.chip.rmem (rsaSlot0 r+1)=none)
        (seCall (Chip.rmemWrite (rsaSlot0 r+1) (record.drop rsaSlotCap)))
        (fun reply c=>reply=.ok () ∧ c.Calm ∧ c.badge.chip.rmem (rsaSlot0 r+1)=some (record.drop rsaSlotCap) ∧
          c.badge.chip.rmem (rsaSlot0 r)=some (record.take rsaSlotCap)) fun _ _=>False:=
      Triple.conseq (calm_write (P:=fun chip=>chip.rmem (rsaSlot0 r)=some (record.take rsaSlotCap)) hslot _
        fun chip h=>(Function.update_of_ne hne' ..).trans h) (fun _ h=>⟨h.1,h.2.2,h.2.1⟩) (fun _ _ h=>h)
        fun _ _ h=>h
    apply Triple.bind hwrite₂ fun reply=>?_
    apply Triple.pre
    rintro rfl
    apply Triple.pure
    rintro c ⟨hcalm,hsecond,hfirst⟩
    exact ⟨rfl,hcalm,_,by rw [hrecord]; exact ⟨hfirst,fun _=>hsecond⟩⟩

end Calm

end CdcBadge.OpenPgp
