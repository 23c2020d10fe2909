import CdcBadge.CborDecoding
import CdcBadge.Requests
import CdcBadge.SavedAssertions

/-!
# Which requests are parsed

The fields of the two requests with the types that they must have, as a decoder that stops at the first item
that it cannot take, and what the parsers make of a request that this decoder does not go through.
-/

namespace CdcBadge.Fido2

open Handler Cbor

variable {α : Type} {m : Read α} {w t : Badge} {k : Option Bytes→Read α}

def Decodes (d : Read Unit) (r : Reader) : Prop:=(d r).1=.ok ()

instance (d : Read Unit) (r : Reader) : Decidable (Decodes d r):=inferInstanceAs (Decidable (_=_))

section Fields

variable {β : Type}

end Fields

section MakeCredential

variable (cr : FidoCrypto) (garbage : UInt8) (p : MakeCredentialParams)

def MakeCredentialParams.complete (p : MakeCredentialParams) : Bool:=p.hasClientData && p.hasRp && p.hasUser && p.hasAlg

end MakeCredential

def Badge.reader (w : Badge) : Reader:=w.env.reader

def Badge.reading (w : Badge) (r : Reader) : Badge:=w.given {w.env with reader:=r}

section GetAssertion

variable (cr : FidoCrypto) (p : GetAssertionParams)

end GetAssertion

section Parsers

variable (cr : FidoCrypto)

end Parsers

end CdcBadge.Fido2
