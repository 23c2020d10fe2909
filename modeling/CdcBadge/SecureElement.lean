import Mathlib.Data.Nat.Notation
import Mathlib.Logic.Function.Basic
import CdcBadge.Handler

/-!
# The secure element

Key slots, R-Memory slots, and what a call to them can come to: it is done, it
reports an error with or without having taken effect, or power is lost before or
after its effect.
-/

namespace CdcBadge

inductive EccCurve | p256 | ed25519 deriving DecidableEq, Repr

/-- A private key held by the chip. -/
structure EccKey where
  curve : EccCurve
  secret : ℕ
  deriving DecidableEq, Repr

/-- The values of `SeResult` other than `OK`. -/
inductive SeError
  | error | sessionRequired | slotEmpty | slotOccupied | invalidParam | alarmMode | notSupported
  deriving DecidableEq, Repr

abbrev SeReply (α : Type):=Except SeError α

/-- The chip's memory, with R-Memory contents of type `D`. -/
structure Chip (D : Type) where
  ecc : ℕ→Option EccKey
  rmem : ℕ→Option D

/-- What becomes of a call to the chip. -/
inductive SeOutcome
  | done
  | failed (e : SeError) (applied : Bool)
  | powerLost (applied : Bool)
  deriving DecidableEq, Repr

namespace SeOutcome

def applied : SeOutcome→Bool
  | .done=>true
  | .failed _ applied=>applied
  | .powerLost applied=>applied

def powered : SeOutcome→Bool
  | .powerLost _=>false
  | _=>true

end SeOutcome

namespace Chip

variable {D α : Type}

def eccSlotCount : ℕ:=32

def rmemSlotCount : ℕ:=512

/-- Generate `key` in an empty slot. -/
def eccGenerate (slot : ℕ) (key : EccKey) (c : Chip D) : SeReply Unit × Chip D:=
  if eccSlotCount ≤ slot then (.error .invalidParam,c)
  else match c.ecc slot with
    | some _=>(.error .slotOccupied,c)
    | none=>(.ok (),{c with ecc:=Function.update c.ecc slot (some key)})

/-- The key whose public part `eccGetPublicKey` reads. -/
def eccGetPublicKey (slot : ℕ) (c : Chip D) : SeReply EccKey × Chip D:=
  if eccSlotCount ≤ slot then (.error .invalidParam,c)
  else match c.ecc slot with
    | some key=>(.ok key,c)
    | none=>(.error .slotEmpty,c)

def eccDelete (slot : ℕ) (c : Chip D) : SeReply Unit × Chip D:=
  if eccSlotCount ≤ slot then (.error .invalidParam,c)
  else (.ok (),{c with ecc:=Function.update c.ecc slot none})

def eccSigningKey (slot : ℕ) (c : Chip D) : SeReply EccKey × Chip D:=
  if eccSlotCount ≤ slot then (.error .invalidParam,c)
  else match c.ecc slot with
    | some key=>(.ok key,c)
    | none=>(.error .error,c)

def rmemRead (slot : ℕ) (c : Chip D) : SeReply D × Chip D:=
  if rmemSlotCount ≤ slot then (.error .invalidParam,c)
  else match c.rmem slot with
    | some data=>(.ok data,c)
    | none=>(.error .slotEmpty,c)

def rmemWrite (slot : ℕ) (data : D) (c : Chip D) : SeReply Unit × Chip D:=
  if rmemSlotCount ≤ slot then (.error .invalidParam,c)
  else match c.rmem slot with
    | some _=>(.error .slotOccupied,c)
    | none=>(.ok (),{c with rmem:=Function.update c.rmem slot (some data)})

def rmemErase (slot : ℕ) (c : Chip D) : SeReply Unit × Chip D:=
  if rmemSlotCount ≤ slot then (.error .invalidParam,c)
  else (.ok (),{c with rmem:=Function.update c.rmem slot none})

def perform (o : SeOutcome) (call : Chip D → SeReply α × Chip D) (c : Chip D) :
    Option (SeReply α) × Chip D:=
  match o with
  | .done=>(some (call c).1,(call c).2)
  | .failed e applied=>(some (.error e),if applied then (call c).2 else c)
  | .powerLost applied=>(none,if applied then (call c).2 else c)

theorem perform_chip (o : SeOutcome) (call : Chip D → SeReply α × Chip D) (c : Chip D) :
    (perform o call c).2=if o.applied then (call c).2 else c:=by
  cases o <;> rfl

theorem perform_reply_isSome (o : SeOutcome) (call : Chip D → SeReply α × Chip D) (c : Chip D) :
    (perform o call c).1.isSome=o.powered:=by
  cases o <;> rfl

theorem perform_ok {o : SeOutcome} {call : Chip D → SeReply α × Chip D} {c d : Chip D} {a : α}
    (h : perform o call c=(some (.ok a),d)) : o=.done ∧ call c=(.ok a,d):=by
  cases o with
  | done=>
    simp only [perform,Prod.mk.injEq,Option.some.injEq] at h
    exact ⟨rfl,Prod.ext h.1 h.2⟩
  | failed e b=>simp [perform] at h
  | powerLost b=>simp [perform] at h

section Slots

variable {slot : ℕ} {c : Chip D}

theorem eccSigningKey_some {key : EccKey} (hs : slot < eccSlotCount) (h : c.ecc slot=some key) :
    eccSigningKey slot c=(.ok key,c):=by
  simp [eccSigningKey,Nat.not_le.mpr hs,h]

theorem eccSigningKey_none (hs : slot < eccSlotCount) (h : c.ecc slot=none) :
    eccSigningKey slot c=(.error .error,c):=by
  simp [eccSigningKey,Nat.not_le.mpr hs,h]

theorem eccGetPublicKey_some {key : EccKey} (hs : slot < eccSlotCount) (h : c.ecc slot=some key) :
    eccGetPublicKey slot c=(.ok key,c):=by
  simp [eccGetPublicKey,Nat.not_le.mpr hs,h]

theorem rmemRead_some {data : D} (hs : slot < rmemSlotCount) (h : c.rmem slot=some data) :
    rmemRead slot c=(.ok data,c):=by
  simp [rmemRead,Nat.not_le.mpr hs,h]

theorem rmemRead_none (hs : slot < rmemSlotCount) (h : c.rmem slot=none) :
    rmemRead slot c=(.error .slotEmpty,c):=by
  simp [rmemRead,Nat.not_le.mpr hs,h]

theorem rmemWrite_some {data old : D} (hs : slot < rmemSlotCount) (h : c.rmem slot=some old) :
    rmemWrite slot data c=(.error .slotOccupied,c):=by
  simp [rmemWrite,Nat.not_le.mpr hs,h]

theorem rmemWrite_none {data : D} (hs : slot < rmemSlotCount) (h : c.rmem slot=none) :
    rmemWrite slot data c=(.ok (),{c with rmem:=Function.update c.rmem slot (some data)}):=by
  simp [rmemWrite,Nat.not_le.mpr hs,h]

theorem rmemErase_lt (hs : slot < rmemSlotCount) :
    rmemErase slot c=(.ok (),{c with rmem:=Function.update c.rmem slot none}):=by
  simp [rmemErase,Nat.not_le.mpr hs]

@[simp] theorem rmemErase_ecc : (rmemErase slot c).2.ecc=c.ecc:=by
  unfold rmemErase; split <;> rfl

end Slots

section Sets

variable {slot i : ℕ} {c d : Chip D}

/-- What an ECC slot holds is all that can be different. -/
def SetsEcc (slot : ℕ) (c d : Chip D) : Prop:=∃ x, d={c with ecc:=Function.update c.ecc slot x}

def SetsRmem (slot : ℕ) (c d : Chip D) : Prop:=∃ x, d={c with rmem:=Function.update c.rmem slot x}

theorem SetsEcc.refl : SetsEcc slot c c:=⟨c.ecc slot,by rw [Function.update_eq_self]⟩

theorem SetsRmem.refl : SetsRmem slot c c:=⟨c.rmem slot,by rw [Function.update_eq_self]⟩

theorem SetsEcc.rmem (h : SetsEcc slot c d) : d.rmem=c.rmem:=by
  obtain ⟨x,rfl⟩:=h
  rfl

theorem SetsEcc.other (h : SetsEcc slot c d) (hs : i≠slot) : d.ecc i=c.ecc i:=by
  obtain ⟨x,rfl⟩:=h
  exact Function.update_of_ne hs ..

theorem SetsRmem.other (h : SetsRmem slot c d) (hs : i≠slot) : d.rmem i=c.rmem i:=by
  obtain ⟨x,rfl⟩:=h
  exact Function.update_of_ne hs ..

theorem eccGenerate_sets {key : EccKey} : SetsEcc slot c (eccGenerate slot key c).2:=by
  unfold eccGenerate
  split
  · exact .refl
  · split
    · exact .refl
    · exact ⟨_,rfl⟩

theorem eccDelete_sets : SetsEcc slot c (eccDelete slot c).2:=by
  unfold eccDelete
  split
  · exact .refl
  · exact ⟨_,rfl⟩

theorem rmemWrite_sets {data : D} : SetsRmem slot c (rmemWrite slot data c).2:=by
  unfold rmemWrite
  split
  · exact .refl
  · split
    · exact .refl
    · exact ⟨_,rfl⟩

theorem rmemErase_sets : SetsRmem slot c (rmemErase slot c).2:=by
  unfold rmemErase
  split
  · exact .refl
  · exact ⟨_,rfl⟩

end Sets

@[simp] theorem eccGetPublicKey_chip (slot : ℕ) (c : Chip D) : (eccGetPublicKey slot c).2=c:=by
  unfold eccGetPublicKey; split
  · rfl
  · split <;> rfl

@[simp] theorem eccSigningKey_chip (slot : ℕ) (c : Chip D) : (eccSigningKey slot c).2=c:=by
  unfold eccSigningKey; split
  · rfl
  · split <;> rfl

@[simp] theorem rmemRead_chip (slot : ℕ) (c : Chip D) : (rmemRead slot c).2=c:=by
  unfold rmemRead; split
  · rfl
  · split <;> rfl

end Chip

end CdcBadge
