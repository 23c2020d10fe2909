import CdcBadge.Bytes

/-!
# Badge-to-badge messages: the wire protocol

Opcodes, states, reasons and limits of the message transfer service.
-/

namespace CdcBadge.Msg

def kProtocolVersion : UInt8:=1

def offerOp : UInt8:=0x01

def abortOp : UInt8:=0x02

def chunkOp : UInt8:=0x10

def completeOp : UInt8:=0x11

/-- What a receiver notifies its sender of. -/
inductive StatusOp | accept | decline | progress | done | error | busy | queued deriving DecidableEq, Repr

namespace StatusOp

def code : StatusOp→UInt8
  | accept=>0x01
  | decline=>0x02
  | progress=>0x03
  | done=>0x04
  | error=>0x05
  | busy=>0x06
  | queued=>0x07

def ofCode (b : UInt8) : Option StatusOp:=
  if b=0x01 then some accept
  else if b=0x02 then some decline
  else if b=0x03 then some progress
  else if b=0x04 then some done
  else if b=0x05 then some error
  else if b=0x06 then some busy
  else if b=0x07 then some queued
  else none

end StatusOp

/-- A reason code, also one from the wire that has no name. -/
abbrev Reason:=UInt8

namespace Reason

def none : Reason:=0
def noHandler : Reason:=1
def userDeclined : Reason:=2
def tooLarge : Reason:=3
def busy : Reason:=4
def timeout : Reason:=5
def badFrame : Reason:=6
def crcMismatch : Reason:=7
def disconnected : Reason:=8
def pairFailed : Reason:=9

end Reason

inductive SendState
  | idle | pickingPeer | connecting | discovering | offering | awaitingEncrypt | streaming | done | failed
  deriving DecidableEq, Repr

inductive RecvState
  | idle | awaitingConsent | awaitingEncrypt | receiving | delivering | done | failed
  deriving DecidableEq, Repr

def kMaxPayloadBytes : ℕ:=4096

def kMaxMimeLen : ℕ:=63

def kMaxNameLen : ℕ:=31

def kOfferHeaderLen : ℕ:=8

def kChunkHeaderLen : ℕ:=2

def kCompleteLen : ℕ:=6

def kFrameBufLen : ℕ:=260

def kProgressStepBytes : ℕ:=512

def kConnectTimeoutMs : UInt32:=10000

def kDiscoveryTimeoutMs : UInt32:=5000

def kConsentTimeoutMs : UInt32:=30000

def kEncryptTimeoutMs : UInt32:=30000

def kTransferIdleTimeoutMs : UInt32:=8000

def kDoneGraceMs : UInt32:=700

def kOfferQueueDepth : ℕ:=4

def kQueueWaitTimeoutMs : UInt32:=kConsentTimeoutMs*UInt32.ofNat kOfferQueueDepth

def kMaxPromptsPerWindow : UInt8:=5

def kPromptWindowMs : UInt32:=30000

def kQuietCooldownMs : UInt32:=20000

def kRateTableSize : ℕ:=8

def kMaxOffersPerWindow : UInt8:=3

def kOfferWindowMs : UInt32:=10000

/-- The bonds that the controller keeps: as many peers can be remembered for a session. -/
def maxBondedDevices : ℕ:=5

def noConn : UInt16:=0xFFFF

def rdU32 (data : Bytes) (pos : ℕ) : UInt32:=
  ofBe32 (data.getD (pos+3) 0) (data.getD (pos+2) 0) (data.getD (pos+1) 0) (data.getD pos 0)

def wrU32 (v : UInt32) : Bytes:=(be32 v).reverse

/-- What `onControlWrite` reads of an OFFER. -/
structure OfferFrame where
  mime : Bytes
  totalLen : ℕ
  name : Bytes
  persist : Bool
  deriving DecidableEq

def parseOffer (data : Bytes) : Except Reason OfferFrame:=
  if data.length < kOfferHeaderLen then .error Reason.badFrame
  else
    let totalLen:=(rdU32 data 2).toNat
    let mimeLen:=(data.getD 6 0).toNat
    let nameByte:=data.getD 7 0
    let nameLen:=(nameByte &&& 0x1F).toNat
    if data.getD 1 0≠kProtocolVersion ∨ mimeLen=0 ∨ kMaxMimeLen < mimeLen ∨ kMaxNameLen < nameLen ∨
        data.length < kOfferHeaderLen+mimeLen+nameLen then .error Reason.badFrame
    else if totalLen=0 ∨ kMaxPayloadBytes < totalLen then .error Reason.tooLarge
    else .ok {
      mime:=cstr ((data.drop kOfferHeaderLen).take mimeLen)
      totalLen:=totalLen
      name:=cstr ((data.drop (kOfferHeaderLen+mimeLen)).take nameLen)
      persist:=nameByte &&& 0x80≠0 }

/-- The OFFER that `tickSend` writes. -/
def offerFrame (totalLen : ℕ) (mime name : Bytes) (persistent : Bool) : Bytes:=
  offerOp::kProtocolVersion::wrU32 (UInt32.ofNat totalLen) ++
    [UInt8.ofNat mime.length,UInt8.ofNat name.length ||| (if persistent then 0x80 else 0)]++mime++name

def chunkFrame (payload : Bytes) : Bytes:=chunkOp::0::payload

def completeFrame (crc : UInt32) : Bytes:=completeOp::0::wrU32 crc

end CdcBadge.Msg
