import CdcBadge.Bytes
import CdcBadge.SecureElement

/-! # The cryptographic primitives the firmware relies on -/

namespace CdcBadge

/-- Hashing, and P-256 signatures as the chip makes them and the firmware verifies
them. A signature is made with a nonce of its own. -/
structure Crypto where
  sha256 : Bytes→ByteArr 32
  /-- The 64 bytes that `eccGetPublicKey` reads for a key. -/
  publicKey : EccKey→ByteArr 64
  ecdsaSign : EccKey → ℕ→ByteArr 32→ByteArr 64
  ecdsaVerify : ByteArr 64→ByteArr 32→ByteArr 64→Bool
  ecdsaVerify_ecdsaSign : ∀ key nonce digest,
    ecdsaVerify (publicKey key) digest (ecdsaSign key nonce digest)=true

/-- Primitives that can be computed with: a digest is the front of its message behind the
message's length, and a signature repeats the digest and the signer's public key. -/
def Crypto.plain : Crypto where
  sha256 message:=fit 32 (UInt8.ofNat message.length::message)
  publicKey key:=plainPublicKey key
  ecdsaSign key _ digest:=plainSign (plainPublicKey key) digest
  ecdsaVerify publicKey digest sig:=sig == plainSign publicKey digest
  ecdsaVerify_ecdsaSign _ _ _:=beq_self_eq_true _
where
  plainPublicKey (key : EccKey) : ByteArr 64:=fit 64 (be32 (UInt32.ofNat key.secret))
  plainSign (publicKey : ByteArr 64) (digest : ByteArr 32) : ByteArr 64:=
    fit 64 (digest.toList++publicKey.toList)

end CdcBadge
