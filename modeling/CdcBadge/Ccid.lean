import CdcBadge.Applets

/-!
# The card reader on USB

A bulk transfer carries a message to the reader. To the card a message is a reset, an APDU or nothing, and each
complete one is answered once, under its slot and sequence number.
-/

namespace CdcBadge.Scard

open Runs

def ccidHeaderSize : ℕ:=10

def ccidMaxMsgSize : ℕ:=2048

def ccidRxBufSize : ℕ:=ccidMaxMsgSize+ccidHeaderSize

def ccidTxBufSize : ℕ:=ccidMaxMsgSize+ccidHeaderSize

def atr : Bytes:=
  [0x3B,0xDA,0x18,0xFF,0x81,0xB1,0xFE,0x75,0x1F,0x03,0x00,0x31,0xF5,0x73,0xC0,0x01,0x60,0x00,0x90,0x00,0x1C]

def params : Bytes:=[0x01,0x00,0x00,0xFE,0x00,0xFE,0x00]

def bMessageType (m : Bytes) : UInt8:=m.getD 0 0

def dwLength (m : Bytes) : ℕ:=
  (m.getD 1 0).toNat+2^8*(m.getD 2 0).toNat+2^16*(m.getD 3 0).toNat+2^24*(m.getD 4 0).toNat

def bSlot (m : Bytes) : UInt8:=m.getD 5 0

def bSeq (m : Bytes) : UInt8:=m.getD 6 0

def bError (m : Bytes) : UInt8:=m.getD 8 0

def ccidBuildHeader (msgType : UInt8) (dataLen : ℕ) (slot seq status error : UInt8) : Bytes:=
  [msgType,UInt8.ofNat dataLen,UInt8.ofNat (dataLen/2^8),UInt8.ofNat (dataLen/2^16),UInt8.ofNat (dataLen/2^24),
    slot,seq,status,error,0]

/-- What `scard_dispatch_apdu` writes, given what the applet answers. A negative length is `none`. -/
def Reply.written (answer : Option Bytes) : Reply→Option Bytes
  | .negative=>none
  | .statusWord sw=>some [(sw >>> 8).toUInt8,sw.toUInt8]
  | .applet _=>answer

section Message

variable (answer : Option Bytes) (card : Dispatcher) (msg : Bytes) (respMax : ℕ)

def xfrBlock : Bytes × Dispatcher:=
  if msg.length-ccidHeaderSize < dwLength msg ∨ respMax-ccidHeaderSize < dwLength msg then
    (ccidBuildHeader 0x80 0 (bSlot msg) (bSeq msg) 0x40 0xFC,card)
  else
    let r:=card.dispatchApdu ((msg.drop ccidHeaderSize).take (dwLength msg)) (some (respMax-ccidHeaderSize))
    match r.1.written answer with
    | none=>(ccidBuildHeader 0x80 0 (bSlot msg) (bSeq msg) 0x40 0xFB,r.2)
    | some data=>(ccidBuildHeader 0x80 data.length (bSlot msg) (bSeq msg) 0 0++data,r.2)

def ccidProcessMessage : Option Bytes × Dispatcher:=
  if msg.length < ccidHeaderSize ∨ respMax < ccidHeaderSize then (none,card)
  else
    match bMessageType msg with
    | 0x62=>(some (ccidBuildHeader 0x80 atr.length (bSlot msg) (bSeq msg) 0 0++atr),card.reset)
    | 0x63=>(some (ccidBuildHeader 0x81 0 (bSlot msg) (bSeq msg) 1 0),card.reset)
    | 0x65=>(some (ccidBuildHeader 0x81 0 (bSlot msg) (bSeq msg) 0 0),card)
    | 0x6F=>(some (xfrBlock answer card msg respMax).1,(xfrBlock answer card msg respMax).2)
    | 0x6C | 0x6D=>(some ((ccidBuildHeader 0x82 params.length (bSlot msg) (bSeq msg) 0 0).set 9 1++params),card)
    | _=>(some (ccidBuildHeader 0x81 0 (bSlot msg) (bSeq msg) 0x40 0),card)

end Message

/-- The card behind the reader, and the messages that went out. -/
structure CcidDriver where
  card : Dispatcher
  sent : List Bytes:=[]

/-- A reset of the bus, or the end of a transfer to the reader. An applet that is asked answers `answer`. -/
inductive UsbEvent
  | reset
  | xfer (received : Bytes) (answer : Option Bytes)

/-- The message that a transfer carries to its end. -/
def wholeMessage (received : Bytes) : Option Bytes:=
  if received.length < ccidHeaderSize then none
  else if ccidRxBufSize-ccidHeaderSize < dwLength received then none
  else if received.length < ccidHeaderSize+dwLength received then none
  else some (received.take (ccidHeaderSize+dwLength received))

def CcidDriver.step (d : CcidDriver) : UsbEvent→CcidDriver
  | .reset=>{d with card:=d.card.reset}
  | .xfer received answer=>
    match wholeMessage received with
    | none=>d
    | some msg=>
      { card:=(ccidProcessMessage answer d.card msg ccidTxBufSize).2
        sent:=d.sent++(ccidProcessMessage answer d.card msg ccidTxBufSize).1.toList }

def UsbEvent.message : UsbEvent→Option Bytes
  | .reset=>none
  | .xfer received _=>wholeMessage received

/-- The type of the messages that answer those of a type. -/
def responseType : UInt8→UInt8
  | 0x62 | 0x6F=>0x80
  | 0x6C | 0x6D=>0x82
  | _=>0x81

/-- The response fits the buffer, is as long as it says and is marked as the answer to the message. It does not
say that the message was too long. -/
structure Answers (msg resp : Bytes) : Prop where
  fits : resp.length ≤ ccidTxBufSize
  length : resp.length=ccidHeaderSize+dwLength resp
  type : bMessageType resp=responseType (bMessageType msg)
  slot : bSlot resp=bSlot msg
  seq : bSeq resp=bSeq msg
  error : bError resp≠0xFC

variable {answer : Option Bytes} {msg received data : Bytes}

theorem written_length (hanswer : ∀ r∈answer,r.length ≤ ccidMaxMsgSize) {reply : Reply}
    (h : reply.written answer=some data) : data.length ≤ ccidMaxMsgSize:=by
  cases reply with
  | negative=>cases h
  | statusWord sw=>
    cases h
    exact Nat.le_add_left 2 _
  | applet name=>exact hanswer data h

end CdcBadge.Scard
