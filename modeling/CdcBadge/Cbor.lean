import CdcBadge.Bytes
import CdcBadge.Handler

/-!
# The CBOR reader and writer of the CTAP2 commands

A reader that meets an item it does not take goes into its error state and stays
there. Callers that ignore a failed read go on with the reader as it is.
-/

namespace CdcBadge.Cbor

open Handler

def ascii (s : String) : Bytes:=s.toList.map fun c=>UInt8.ofNat c.toNat

inductive MajorType | unsigned | negative | bytes | text | array | map | tag | simple
  deriving DecidableEq, Repr

def majorType : ℕ→MajorType
  | 0=>.unsigned
  | 1=>.negative
  | 2=>.bytes
  | 3=>.text
  | 4=>.array
  | 5=>.map
  | 6=>.tag
  | _=>.simple

def MajorType.code : MajorType → ℕ
  | .unsigned=>0
  | .negative=>1
  | .bytes=>2
  | .text=>3
  | .array=>4
  | .map=>5
  | .tag=>6
  | .simple=>7

/-- The bytes not yet read, and the error flag. -/
structure Reader where
  rest : Bytes:=[]
  error : Bool:=false
  deriving DecidableEq

abbrev Read (α : Type):=Handler Unit Reader α

def malformed {α : Type} : Read α:=do
  modify fun r=>{r with error:=true}
  stop ()

def readByte : Read UInt8:=fun r=>
  if r.error then (.error (),r)
  else match r.rest with
    | []=>(.error (),{r with error:=true})
    | b::rest=>(.ok b,{r with rest:=rest})

/-- An argument of `n` bytes, most significant first. -/
def readArgument (n : ℕ) : Read ℕ:=
  iterate n (fun value=>do pure (value*256+(← readByte).toNat)) 0

def readTypeValue : Read (MajorType × ℕ):=do
  let initial ← readByte
  let type:=majorType (initial.toNat/32)
  let info:=initial.toNat % 32
  if info < 24 then pure (type,info)
  else if info=24 then pure (type,← readArgument 1)
  else if info=25 then pure (type,← readArgument 2)
  else if info=26 then pure (type,← readArgument 4)
  else if info=27 then pure (type,← readArgument 8)
  else malformed

structure Item where
  type : MajorType
  value : ℕ
  bytes : Bytes:=[]
  deriving DecidableEq

def readItem : Read Item:=do
  let (type,value) ← readTypeValue
  if type=.bytes ∨ type=.text then
    let rest ← gets (·.rest)
    if rest.length < value then malformed
    else
      modify fun r=>{r with rest:=r.rest.drop value}
      pure {type:=type,value:=value,bytes:=rest.take value}
  else pure {type:=type,value:=value}

def readUint : Read ℕ:=do
  let item ← readItem
  if item.type=.unsigned then pure item.value else malformed

def toInt64 (value : ℕ) : ℤ:=Int.bmod value (2^64)

def Item.int? (item : Item) : Option ℤ:=
  match item.type with
  | .unsigned=>some (toInt64 item.value)
  | .negative=>some (-1-toInt64 item.value)
  | _=>none

def readInt : Read ℤ:=do
  match (← readItem).int? with
  | some value=>pure value
  | none=>malformed

def readBytes (maxLen : ℕ) : Read Bytes:=do
  let item ← readItem
  if item.type=.bytes then pure (item.bytes.take maxLen) else malformed

def readTextItem : Read Bytes:=do
  let item ← readItem
  if item.type=.text then pure item.bytes else malformed

/-- What a buffer of `maxLen` bytes keeps of a text: its last byte is the terminator. -/
def copyText (maxLen : ℕ) (text : Bytes) : Bytes:=text.take (maxLen-1)

def readText (maxLen : ℕ) : Read Bytes:=
  if maxLen=0 then stop ()
  else do pure (copyText maxLen (← readTextItem))

def readBool : Read Bool:=do
  let b ← readByte
  if b=0xF4 then pure false
  else if b=0xF5 then pure true
  else malformed

/-- A count of 64 bits read as an `int`. A negative one is the callers' failure. -/
def toInt (value : ℕ) : ℤ:=Int.bmod value (2^32)

def readMap : Read ℤ:=do
  let item ← readItem
  if item.type=.map then pure (toInt item.value) else malformed

def readArray : Read ℤ:=do
  let item ← readItem
  if item.type=.array then pure (toInt item.value) else malformed

def maxContainerSize : ℕ:=256

/-- Skip an item with its contents, `levels` containers deep at most. A container that is
too deep or too large is refused without an error in the reader. -/
def skipItemImpl : ℕ→Read Unit
  | 0=>stop ()
  | levels+1=>do
    let item ← readItem
    match item.type with
    | .array=>
      if maxContainerSize < item.value then stop ()
      else iterate item.value (fun _=>skipItemImpl levels) ()
    | .map=>
      if maxContainerSize < item.value then stop ()
      else iterate (item.value*2) (fun _=>skipItemImpl levels) ()
    | _=>pure ()

def maxRecursionDepth : ℕ:=8

def skipItem : Read Unit:=skipItemImpl (maxRecursionDepth+1)

def trySkip : Read Unit:=do
  let _ ← attempt skipItem

/-- One pair of a map whose keys are texts: the key up to its first NUL, compared by
`strcmp`. A pair without a text key is skipped. -/
def textPair {α : Type} (keyLen : ℕ) (value : Bytes → α→Read α) (a : α) : Read α:=do
  match ← attempt (readText keyLen) with
  | none=>
    trySkip
    pure a
  | some key=>value (cstr key) a

/-- What `cbor_parse_cose_key` writes to. A caller may pass no buffer for the y coordinate. -/
structure CoseKey where
  kty : ℤ:=0
  alg : ℤ:=0
  x : ByteArr 32
  y : Option (ByteArr 32)
  deriving DecidableEq

def copyCoordinate (out : ByteArr 32) (data : Bytes) : ByteArr 32:=fit 32 (data++out.toList.drop data.length)

def coseKeyPair (k : CoseKey) : Read CoseKey:=do
  let key ← readInt
  if key=1 then pure {k with kty:=toInt (← readUint)}
  else if key=3 then pure {k with alg:=Int.bmod (← readInt) (2^32)}
  else if key = -2 then pure {k with x:=copyCoordinate k.x (← readBytes 32)}
  else if key = -3 then
    match k.y with
    | some y=>pure {k with y:=some (copyCoordinate y (← readBytes 32))}
    -- Without a buffer the source leaves the value where it is.
    | none=>pure k
  else do
    skipItem
    pure k

def parseCoseKey (k : CoseKey) : Read CoseKey:=do
  let count ← readMap
  if count < 0 then stop ()
  else iterate count.toNat coseKeyPair {k with kty:=0,alg:=0}

/-- The bytes written to a buffer of `size` bytes, and the error flag. -/
structure Writer where
  size : ℕ
  out : Bytes:=[]
  error : Bool:=false

namespace Writer

def writeByte (b : UInt8) (w : Writer) : Writer:=
  if w.error then w
  else if w.size ≤ w.out.length then {w with error:=true}
  else {w with out:=w.out++[b]}

def writeBytes (data : Bytes) (w : Writer) : Writer:=
  if w.error then w
  else if w.size < w.out.length+data.length then {w with error:=true}
  else {w with out:=w.out++data}

/-- The `n` bytes of an argument, most significant first. -/
def writeArgument : ℕ → ℕ→Writer→Writer
  | 0, _, w=>w
  | n+1, value, w=>writeArgument n value (w.writeByte (UInt8.ofNat (value/256^n)))

def writeTypeValue (type : MajorType) (value : ℕ) (w : Writer) : Writer:=
  let major:=type.code*32
  if value < 24 then w.writeByte (UInt8.ofNat (major+value))
  else if value ≤ 0xFF then (w.writeByte (UInt8.ofNat (major+24))).writeArgument 1 value
  else if value ≤ 0xFFFF then (w.writeByte (UInt8.ofNat (major+25))).writeArgument 2 value
  else if value ≤ 0xFFFFFFFF then (w.writeByte (UInt8.ofNat (major+26))).writeArgument 4 value
  else (w.writeByte (UInt8.ofNat (major+27))).writeArgument 8 value

def uint (value : ℕ) (w : Writer) : Writer:=w.writeTypeValue .unsigned value

def int (value : ℤ) (w : Writer) : Writer:=
  if 0 ≤ value then w.writeTypeValue .unsigned value.toNat
  else w.writeTypeValue .negative (-1-value).toNat

def bytes (data : Bytes) (w : Writer) : Writer:=
  (w.writeTypeValue .bytes data.length).writeBytes data

def text (data : Bytes) (w : Writer) : Writer:=
  (w.writeTypeValue .text (cstr data).length).writeBytes (cstr data)

def textLen (data : Bytes) (w : Writer) : Writer:=
  (w.writeTypeValue .text data.length).writeBytes data

def bool (value : Bool) (w : Writer) : Writer:=w.writeByte (if value then 0xF5 else 0xF4)

def array (count : ℕ) (w : Writer) : Writer:=w.writeTypeValue .array count

def map (count : ℕ) (w : Writer) : Writer:=w.writeTypeValue .map count

def coseKeyP256 (x y : Bytes) (w : Writer) : Writer:=
  w.map 5 |>.uint 1 |>.uint 2 |>.uint 3 |>.int (-7) |>.int (-1) |>.uint 1
    |>.int (-2) |>.bytes x |>.int (-3) |>.bytes y

def coseKeyEd25519 (pubkey : Bytes) (w : Writer) : Writer:=
  w.map 4 |>.uint 1 |>.uint 1 |>.uint 3 |>.int (-8) |>.int (-1) |>.uint 6 |>.int (-2) |>.bytes pubkey

def output (w : Writer) : Option Bytes:=if w.error then none else some w.out

end Writer

end CdcBadge.Cbor
