import CdcBadge.BackupFile
import Mathlib.Tactic.Common

/-!
# What can be restored from a backup file

Sealed containers open with their own passphrase and nothing else opens. Since an export empties the file before it
writes, the last backup outlives a failed export only where that export did not come as far as the file.
-/

namespace CdcBadge.Backup

variable {Key : Type}

/-- A document that was sealed. -/
structure Sealing where
  passphrase : Passphrase
  salt : ByteArr saltSize
  nonce : ByteArr nonceSize
  plain : Bytes

namespace Sealing

variable (b : Sealing) (cr : Crypto Key)

def key : Key:=cr.deriveKey b.passphrase b.salt.toList kdfIterations

def sealed : Bytes × Bytes:=cr.gcmSeal (b.key cr) b.nonce.toList (header b.salt b.nonce) b.plain

def container : Bytes:=header b.salt b.nonce++(b.sealed cr).1++(b.sealed cr).2

end Sealing

/-- PBKDF2 tells passphrases apart, GCM adds a tag to a ciphertext of the same length, and Base64 decodes what it encodes. -/
structure Crypto.Correct (cr : Crypto Key) : Prop where
  deriveKey_inj : ∀ p q salt iterations, cr.deriveKey p salt iterations=cr.deriveKey q salt iterations→p=q
  ct_length : ∀ key nonce aad plain, (cr.gcmSeal key nonce aad plain).1.length=plain.length
  tag_length : ∀ key nonce aad plain, (cr.gcmSeal key nonce aad plain).2.length=tagSize
  seal_inj : ∀ key nonce aad plain plain', cr.gcmSeal key nonce aad plain=cr.gcmSeal key nonce aad plain'→plain=plain'
  decode_encode : ∀ data, cr.decode (cr.encode data)=some data
  encode_length : ∀ data, (cr.encode data).length=(data.length+2)/3*4

/-- GCM opens what was sealed, under the same key, nonce and header, and nothing else. -/
def Authentic (cr : Crypto Key) (gcmOpen : GcmOpen Key) (made : List Sealing) : Prop:=
  ∀ key nonce aad ct tag plain, gcmOpen key nonce aad ct tag=some plain ↔
    ∃ b∈made, b.key cr=key ∧ b.nonce.toList=nonce ∧ header b.salt b.nonce=aad ∧ b.sealed cr=(ct,tag) ∧ b.plain=plain

namespace ExportRun

variable (run : ExportRun)

def sealing (plain : Bytes) : Sealing:=⟨run.passphrase,run.salt,run.nonce,plain⟩

def fileLength (plain : Bytes) : ℕ:=(headerSize+plain.length+tagSize+2)/3*4

def Whole : Prop:=run.power=.kept ∧ ∀ plain∈run.payload, run.written=fileLength plain ∧ fileLength plain ≤ run.stored

end ExportRun

/-- Nothing is imported from another container or with another passphrase, unless that is another backup. -/
def Refuses (cr : Crypto Key) (run : ExportRun) : Prop:=
  ∀ plain∈run.payload, ∀ gcmOpen made, Authentic cr gcmOpen made → run.sealing plain∈made →
    ∀ passphrase container, passphrase≠run.passphrase ∨ container≠(run.sealing plain).container cr →
      (∀ b∈made, b.passphrase=passphrase→b.container cr=container→b=run.sealing plain) →
      ∀ file, b64Decode cr (file.take (maxBase64-1)) maxContainer=some container →
        restore cr gcmOpen (some file) passphrase=none

section Containers

variable {cr : Crypto Key} {gcmOpen : GcmOpen Key} {made : List Sealing}

end Containers

section Files

variable {cr : Crypto Key} {gcmOpen : GcmOpen Key} {made : List Sealing}

variable {run : ExportRun} {file : Option Bytes}

end Files

section Failing

variable [DecidableEq Key] {cr : Crypto Key} {run : ExportRun}

end Failing

end CdcBadge.Backup
