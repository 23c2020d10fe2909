import CdcBadge.AuthenticatorConfig
import CdcBadge.ClientPin
import CdcBadge.CredManagement
import CdcBadge.GetAssertion
import CdcBadge.MakeCredential
import CdcBadge.Runs
import CdcBadge.U2f

/-! # The commands of the module and the steps of a running badge -/

namespace CdcBadge.Fido2

open Handler

section Commands

variable (cr : FidoCrypto)

/-- `ctap2_process_command`: the command byte and its parameters. -/
def ctap2ProcessCommand : Bytes → Ctap Bytes
  | []=>fail .invalidCommand
  | command::params=>match command.toNat with
    | 0x01=>makeCredential cr params
    | 0x02=>getAssertion cr params
    | 0x04=>getInfo
    | 0x06=>clientPin cr params
    | 0x07=>reset
    | 0x08=>getNextAssertion cr
    | 0x0A=>credManagement cr params
    | 0x0B=>selection
    | 0x0C=>largeBlobs cr params
    | 0x0D=>config cr params
    | _=>fail .invalidCommand

/-- What can happen to the module: a CTAP2 command, a U2F command, the deletion of a credential on the
badge itself, or a power cycle. -/
inductive Command
  | ctap2 (cmd : Bytes)
  | u2f (apdu : Bytes)
  | deleteCredential (slot : ℕ)
  | powerCycle
  deriving DecidableEq

def Command.run : Command → Ctap Bytes
  | .ctap2 cmd=>ctap2ProcessCommand cr cmd
  | .u2f apdu=>u2fProcessApdu cr apdu
  | .deleteCredential slot=>do
    let _ ← fido2StorageDeleteCredential slot
    pure []
  | .powerCycle=>stop .powerLost

/-- A command with what it meets. -/
structure Input where
  command : Command
  env : Env:={}

def Badge.off (w : Badge) : Badge:=
  {chip:=w.chip,nvs:=w.nvs,env:=w.env,signings:=w.signings,acts:=w.acts}

def fido2Init : Ctap Unit:=do
  fido2StorageInit
  let _ ← u2fInitAttestation
  let minPin ← fido2StorageGetMinPinLen
  pinStorageSetMinPinFloor minPin.toNat

def boot : ℕ→Badge→Badge
  | 0, w=>w.off
  | n+1, w=>match fido2Init w.off with
    | (.ok _,w)=>w
    | (.error _,w)=>boot n w

def Badge.reboot (w : Badge) : Badge:=boot (w.env.se.length+1) w

def start (chip : Chip RmemContent) (nvs : Nvs) (e : Env) : Badge:={chip:=chip,nvs:=nvs,env:=e : Badge}.reboot

def process (w : Badge) (i : Input) : Except Halt Bytes × Badge:=
  match i.command.run cr (w.given i.env) with
  | (.error .powerLost,w)=>(.error .powerLost,w.reboot)
  | answer=>answer

def step (w : Badge) (i : Input) : Badge:=(process cr w i).2

end Commands

end CdcBadge.Fido2
