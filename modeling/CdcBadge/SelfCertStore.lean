import CdcBadge.NamedBlobs
import CdcBadge.GpgRecvStore

/-!
# The store of certifications

Certifications that others made of the badge's own key, one blob in flash for each issuer,
addressed by their place in the list by time of receipt.
-/

namespace CdcBadge.GpgSelf

/-- `kGpgSelfCertSigMax` -/
def sigMax : ℕ:=160

def kMaxCerts : ℕ:=16

/-- `gpg_self_cert_t` -/
structure SelfCert where
  issuerFpV4 : ByteArr 20
  issuerUid : ByteArr 64:=zeros 64
  receivedAt : UInt32:=0
  sigPktLen : UInt16
  sigPkt : ByteArr 160
  deriving DecidableEq

/-- The length that is stored is one that the packet can have. -/
def SelfCert.Sized (cert : SelfCert) : Prop:=cert.sigPktLen≠0 ∧ cert.sigPktLen.toNat ≤ sigMax

instance (cert : SelfCert) : Decidable cert.Sized:=inferInstanceAs (Decidable (_ ∧ _))

def SelfCert.body (cert : SelfCert) : Bytes:=cert.sigPkt.toList.take cert.sigPktLen.toNat

/-- `gpg_self_cert_index_entry_t` -/
structure IndexEntry where
  nvsKey : Bytes
  receivedAt : UInt32
  deriving DecidableEq

def kKeyPrefix : Bytes:=[0x63,0x74,0x5F]

def deriveKeyName (issuerFpV4 : ByteArr 20) : Bytes:=
  kKeyPrefix++(issuerFpV4.toList.take 4).flatMap GpgRecv.hexByte

def hasKeyPrefix (name : Bytes) : Bool:=name.take 3 == kKeyPrefix

@[simp] theorem hasKeyPrefix_deriveKeyName (fp : ByteArr 20) : hasKeyPrefix (deriveKeyName fp)=true:=by
  simp [hasKeyPrefix,deriveKeyName,kKeyPrefix]

/-- What the store can hold: so many certifications of a length that they can have, under names of its own. -/
structure SelfCertStore extends NamedBlobs Bytes SelfCert where
  size : entries.length ≤ kMaxCerts:=by decide
  prefixed : ∀ e∈entries, hasKeyPrefix e.1=true:=by decide
  sized : ∀ e∈entries, e.2.Sized:=by decide

/-- What the flash library and the sort are free to choose: the order of the blobs, and that of entries of the same
time. -/
structure Platform where
  order : List (Bytes × SelfCert) → List (Bytes × SelfCert)
  order_perm : ∀ s, (order s).Perm s
  sort : List IndexEntry → List IndexEntry
  sort_perm : ∀ es, (sort es).Perm es
  sort_sorted : ∀ es, (sort es).Pairwise fun a b=>a.receivedAt ≤ b.receivedAt

def Platform.plain : Platform where
  order s:=s
  order_perm _:=.refl _
  sort es:=es.mergeSort fun a b=>a.receivedAt ≤ b.receivedAt
  sort_perm es:=List.mergeSort_perm es _
  sort_sorted es:=by
    refine (List.pairwise_mergeSort ?_ ?_ es).imp fun h=>by simpa using h
    · intro a b c hab hbc
      simp only [decide_eq_true_eq] at *
      exact UInt32.le_trans hab hbc
    · intro a b
      simp only [Bool.or_eq_true,decide_eq_true_eq]
      exact UInt32.le_total _ _

namespace SelfCertStore

def empty : SelfCertStore where

def erase (s : SelfCertStore) (name : Bytes) : SelfCertStore where
  toNamedBlobs:=s.toNamedBlobs.erase name
  size:=NamedBlobs.length_erase_le.trans s.size
  prefixed e he:=s.prefixed e (NamedBlobs.mem_erase.mp he).1
  sized e he:=s.sized e (NamedBlobs.mem_erase.mp he).1

section Store

variable (pf : Platform)

def listing (s : SelfCertStore) : List (Bytes × SelfCert):=(pf.order s.entries).filter fun e=>hasKeyPrefix e.1

def count (s : SelfCertStore) : ℕ:=min kMaxCerts (s.listing pf).length

def listIndex (maxEntries : ℕ) (s : SelfCertStore) : List IndexEntry:=
  pf.sort (((s.listing pf).filterMap fun e=>
    (s.read e.1).map fun cert=>⟨e.1,cert.receivedAt⟩).take maxEntries)

def resolveKeyName (index : ℕ) (s : SelfCertStore) : Option Bytes:=
  ((s.listIndex pf kMaxCerts)[index]?).map (·.nvsKey)

def getCert (index : ℕ) (s : SelfCertStore) : Option SelfCert:=(s.resolveKeyName pf index).bind s.read

theorem listing_perm (s : SelfCertStore) : (s.listing pf).Perm s.entries:=by
  have hall : (pf.order s.entries).filter (fun e=>hasKeyPrefix e.1)=pf.order s.entries:=by
    rw [List.filter_eq_self]
    intro e he
    exact s.prefixed e ((pf.order_perm _).mem_iff.mp he)
  unfold listing
  rw [hall]
  exact pf.order_perm _

theorem count_eq (s : SelfCertStore) : s.count pf=s.entries.length:=by
  unfold count
  rw [(s.listing_perm pf).length_eq]
  exact Nat.min_eq_right s.size

/-- A certification is added under the name of its issuer, and only where there is room for it. -/
def add (s : SelfCertStore) (cert : SelfCert) (hsized : cert.Sized)
    (hroom : s.read (deriveKeyName cert.issuerFpV4)≠none ∨ s.entries.length < kMaxCerts) : SelfCertStore where
  toNamedBlobs:=s.write (deriveKeyName cert.issuerFpV4) cert
  size:=NamedBlobs.length_write_le s.size hroom
  prefixed e he:=by
    rcases NamedBlobs.mem_write.mp he with rfl | ⟨he,-⟩
    · exact hasKeyPrefix_deriveKeyName _
    · exact s.prefixed e he
  sized e he:=by
    rcases NamedBlobs.mem_write.mp he with rfl | ⟨he,-⟩
    · exact hsized
    · exact s.sized e he

/-- `addCert`. Only a write that is done answers `true`. -/
def addCert (o : SeOutcome) (cert : SelfCert) (s : SelfCertStore) : Bool × SelfCertStore:=
  if hsized : cert.Sized then
    if hfull : s.read (deriveKeyName cert.issuerFpV4)=none ∧ kMaxCerts ≤ s.count pf then (false,s)
    else
      (o=.done,if o.applied then s.add cert hsized (by
          rw [count_eq] at hfull
          rw [← not_le]
          exact not_and_or.mp hfull) else s)
  else (false,s)

def deleteCert (o : SeOutcome) (index : ℕ) (s : SelfCertStore) : Bool × SelfCertStore:=
  match s.resolveKeyName pf index with
  | none=>(false,s)
  | some name=>(o=.done,if o.applied then s.erase name else s)

theorem listIndex_perm (s : SelfCertStore) :
    (s.listIndex pf kMaxCerts).Perm (s.entries.map fun e=>⟨e.1,e.2.receivedAt⟩):=by
  have hentries : (s.listing pf).filterMap (fun e=>
      (s.read e.1).map fun cert=>(⟨e.1,cert.receivedAt⟩ : IndexEntry)) =
      (s.listing pf).map fun e=>⟨e.1,e.2.receivedAt⟩:=by
    rw [← List.filterMap_eq_map]
    apply List.filterMap_congr
    intro e he
    rw [NamedBlobs.read_of_mem ((s.listing_perm pf).mem_iff.mp he)]
    rfl
  have hsize : ((s.listing pf).map fun e=>(⟨e.1,e.2.receivedAt⟩ : IndexEntry)).length ≤ kMaxCerts:=by
    rw [List.length_map,(s.listing_perm pf).length_eq]
    exact s.size
  unfold listIndex
  rw [hentries,List.take_of_length_le hsize]
  exact (pf.sort_perm _).trans ((s.listing_perm pf).map _)

theorem certs_perm (s : SelfCertStore) :
    ∃ certs : List SelfCert, certs.Perm s.values ∧ (List.range (s.count pf)).map (s.getCert pf)=certs.map some:=by
  have hperm:=s.listIndex_perm pf
  have hread : ∀ entry∈s.listIndex pf kMaxCerts, ∃ cert, s.read entry.nvsKey=some cert:=by
    intro entry hentry
    obtain ⟨e,he,rfl⟩:=List.mem_map.mp (hperm.mem_iff.mp hentry)
    exact ⟨e.2,NamedBlobs.read_of_mem he⟩
  have hcount : s.count pf=(s.listIndex pf kMaxCerts).length:=by
    rw [count_eq,hperm.length_eq,List.length_map]
  let certs:=(s.listIndex pf kMaxCerts).filterMap fun entry=>s.read entry.nvsKey
  have hcerts : certs.Perm s.values:=by
    have hmap : (s.entries.map fun e=>(⟨e.1,e.2.receivedAt⟩ : IndexEntry)).filterMap (fun entry=>s.read entry.nvsKey) =
        s.values:=by
      rw [List.filterMap_map]
      change _=s.entries.map Prod.snd
      rw [← List.filterMap_eq_map]
      apply List.filterMap_congr
      intro e he
      exact NamedBlobs.read_of_mem he
    rw [← hmap]
    exact hperm.filterMap _
  have hall : certs.map some=(s.listIndex pf kMaxCerts).map fun entry=>s.read entry.nvsKey:=by
    change (List.filterMap _ _).map some=_
    generalize s.listIndex pf kMaxCerts=index at hread
    induction index with
    | nil=>rfl
    | cons entry index ih=>
      obtain ⟨cert,hcert⟩:=hread entry List.mem_cons_self
      have hhead:=List.filterMap_cons_some (f:=fun entry : IndexEntry=>s.read entry.nvsKey) hcert (l:=index)
      rw [hhead,List.map_cons,List.map_cons,hcert,ih fun e he=>hread e (List.mem_cons_of_mem _ he)]
  refine ⟨certs,hcerts,?_⟩
  rw [hall,hcount]
  apply List.ext_getElem
  · simp
  · intro i hi _
    have hlt : i < (s.listIndex pf kMaxCerts).length:=by simpa using hi
    simp [getCert,resolveKeyName,List.getElem?_eq_getElem hlt]

end Store

end SelfCertStore

end CdcBadge.GpgSelf
