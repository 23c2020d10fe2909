import CdcBadge.Fido2Commands

/-! # Requests as a platform sends them -/

namespace CdcBadge.Fido2

open Cbor

def request (write : Writer→Writer) : Bytes:=(write {size:=1024}).out

def mcRequest (rpId userId : Bytes) (pairs : ℕ) (more : Writer→Writer) : Bytes:=
  request fun w=>more <| w.map (4+pairs) |>.uint 0x01 |>.bytes (zeros 32).toList
    |>.uint 0x02 |>.map 1 |>.text (ascii "id") |>.text rpId
    |>.uint 0x03 |>.map 1 |>.text (ascii "id") |>.bytes userId
    |>.uint 0x04 |>.array 1 |>.map 1 |>.text (ascii "alg") |>.int coseAlgEs256

def gaRequest (rpId : Bytes) (pairs : ℕ) (more : Writer→Writer) : Bytes:=
  request fun w=>more <| w.map (2+pairs) |>.uint 0x01 |>.text rpId |>.uint 0x02 |>.bytes (zeros 32).toList

def residentKey (w : Writer) : Writer:=w.uint 0x07 |>.map 1 |>.text (ascii "rk") |>.bool true

def newBadge : Badge:=
  start { ecc:=fun slot=>if slot=u2fAttestSlot then some {curve:=.p256,secret:=1} else none
          rmem:=fun _=>none } {} {}

def ctap2Input (command : UInt8) (params : Bytes) (e : Env) : Input:=
  {command:=.ctap2 (command::params),env:=e}

end CdcBadge.Fido2
