import CdcBadge.PluginManifests
import CdcBadge.TropicStorage

/-!
# The secure element calls of plugins

The R-Memory records and ECC keys that a plugin addresses by name, in the slots of the plugin
pool. A record carries its name in its header; which name an ECC slot belongs to is kept in NVS.
Every access comes with its outcome.
-/

namespace CdcBadge.Plugin

open Handler Tropic
open Pin (PowerLost)

/-- A loaded plugin with the manifest it was loaded with. -/
structure Instance where
  id : Id
  manifest : Manifest
  resident : Bool:=false
  deriving DecidableEq

/-- A record's payload, and beside it the plugin that wrote it, which no call reads. -/
structure Owned where
  creator : Id
  payload : Bytes
  deriving DecidableEq

/-- The plugin that generated a key, and the name it did so under. -/
structure Maker where
  id : Id
  name : Name
  deriving DecidableEq

structure Store where
  storage : Storage Owned
  /-- The NVS namespace `plg_ecc_map`. -/
  eccMap : ℕ→Option Name:=fun _=>none
  /-- Who made the key that lies in a slot; no call reads it. -/
  maker : ℕ→Option Maker:=fun _=>none

def Store.ecc (s : Store) (slot : ℕ) : Option EccKey:=s.storage.chip.ecc slot

def Store.rmem (s : Store) (slot : ℕ) : Option (Content Owned):=s.storage.chip.rmem slot

abbrev HostM:=Handler PowerLost Store

/-- The error codes of `host_api.h`, and `HOST_OK`. -/
inductive HostRc
  | ok | generic | invalidArg | noCapability | notFound | noMemory | busy | notSupported | rmemFull
  deriving DecidableEq

/-- What a call hands to the plugin. -/
inductive HostReply
  | rc (code : HostRc)
  | nameUsed (slot : Option ℕ)
  | data (slot : ℕ) (r : Record Owned)
  | exists (slot : Option ℕ)
  | pubkey (slot : ℕ) (key : EccKey)
  | signature (slot : ℕ) (key : EccKey) (msg : Bytes)
  deriving DecidableEq

/-- What becomes of the accesses of one call. -/
structure HostEnv where
  manifests : Reads:=fun _=>true
  scan : ℕ → SeOutcome:=fun _=>.done
  access : SeOutcome:=.done
  write : WriteOutcome:={}
  nvsOpen : Bool:=true
  nvsGet : ℕ → SeOutcome:=fun _=>.done
  nvsSet : SeOutcome:=.done
  nvsCommit : SeOutcome:=.done
  wipe : SeOutcome:=.done
  freeOpen : Bool:=true
  nvsErase : SeOutcome:=.done
  freeCommit : SeOutcome:=.done
  /-- The private key that the chip draws. -/
  secret : ℕ:=0

def seRc : SeError→HostRc
  | .invalidParam=>.invalidArg
  | .slotEmpty=>.notFound
  | .sessionRequired=>.busy
  | .notSupported=>.notSupported
  | _=>.generic

def rcOf : SeReply Unit→HostReply
  | .ok _=>.rc .ok
  | .error e=>.rc (seRc e)

def plgPoolModuleId : UInt8:=7

/-- `TROPIC_ECC_SLOT_MAP`: GPG, CA, PIV, FIDO2 and plugins. -/
def eccSlotMap : List SlotRange:=[⟨2,1,3⟩,⟨3,4,4⟩,⟨9,5,8⟩,⟨4,9,30⟩,⟨plgPoolModuleId,31,31⟩]

/-- `plugin_pool`, as the slots in order: none where the map has no range. -/
def pluginPool (map : List SlotRange) : List ℕ:=
  match map.find? (·.moduleId == plgPoolModuleId) with
  | none=>[]
  | some range=>List.range' range.start (range.last+1-range.start)

def rmemPool : List ℕ:=pluginPool rmemSlotMap

def eccPool : List ℕ:=pluginPool eccSlotMap

/-- The loop over the pool: the slot that `name` has, or else the first slot that is free or stale. -/
def scanPool (look : ℕ→HostM (Option Name)) (declared : Name→Bool) (name : Name) :
    List ℕ→Option ℕ→HostM (Option ℕ × Option ℕ)
  | [], reclaimable=>pure (none,reclaimable)
  | slot::slots, reclaimable=>do
    match ← look slot with
    | none=>scanPool look declared name slots (reclaimable.or (some slot))
    | some held=>
      if held=name then pure (some slot,reclaimable)
      else if declared held then scanPool look declared name slots reclaimable
      else scanPool look declared name slots (reclaimable.or (some slot))

def onStorage (m : StorageM Owned α) : HostM α:=zoom Store.storage (fun storage s=>{s with storage}) m

def headerNameAt (o : SeOutcome) (slot : ℕ) : HostM (Option Name):=do
  match ← onStorage (rmemReadWithHeader o slot) with
  | .error _=>pure none
  | .ok r=>pure (some r.name)

/-- `nvs_get_str` of the key `s<slot>`. -/
def nvsGetStr (o : SeOutcome) (slot : ℕ) : HostM (Option Name):=fun s=>match o with
  | .done=>(.ok (s.eccMap slot),s)
  | .failed _ _=>(.ok none,s)
  | .powerLost _=>(.error ⟨⟩,s)

/-- A change of the map, which may have been made also where it is reported to fail. -/
def nvsPut (o : SeOutcome) (slot : ℕ) (name : Option Name) : HostM Bool:=fun s=>
  let put : Store:={s with eccMap:=Function.update s.eccMap slot name}
  match o with
  | .done=>(.ok true,put)
  | .failed _ applied=>(.ok false,if applied then put else s)
  | .powerLost applied=>(.error ⟨⟩,if applied then put else s)

def nvsCommit (o : SeOutcome) : HostM Bool:=fun s=>match o with
  | .done=>(.ok true,s)
  | .failed _ _=>(.ok false,s)
  | .powerLost _=>(.error ⟨⟩,s)

def generateKey (o : SeOutcome) (slot : ℕ) (key : EccKey) (maker : Maker) : HostM (SeReply Unit):=fun s=>
  let made:=seCall o (Chip.eccGenerate slot key) s.storage
  (made.1,{ s with
    storage:=made.2
    maker:=if (s.ecc slot).isNone then Function.update s.maker slot (some maker) else s.maker })

def activeDeclares (names : Manifest → List Name) (p : Instance) (name : Name) : Bool:=(names p.manifest).contains name

def scanPluginPool (env : HostEnv) (d : Disk) (name : Name) : HostM (Option ℕ × Option ℕ):=
  scanPool (fun slot=>headerNameAt (env.scan slot) slot) (anyInstalledDeclares Manifest.rmem env.manifests d) name
    rmemPool none

/-- A free or stale slot is given to the name, and the key that lies in it is wiped; the chip's reply to that is dropped. -/
def claimEccSlot (env : HostEnv) (slot : ℕ) (name : Name) : HostM (Option ℕ):=do
  if ← nvsPut env.nvsSet slot (some name) then
    if ← nvsCommit env.nvsCommit then
      let _ ← onStorage (seCall env.wipe (Chip.eccDelete slot))
      pure (some slot)
    else pure none
  else pure none

def resolveEccSlot (env : HostEnv) (d : Disk) (name : Name) (assign : Bool) : HostM (Option ℕ):=
  if !env.nvsOpen then pure none
  else do
    match ← scanPool (fun slot=>nvsGetStr (env.nvsGet slot) slot) (anyInstalledDeclares Manifest.ecc env.manifests d)
        name eccPool none with
    | (some existing,_)=>pure (some existing)
    | (none,some reclaimable)=>if assign then claimEccSlot env reclaimable name else pure none
    | (none,none)=>pure none

def freeEccMapping (env : HostEnv) (slot : ℕ) : HostM Unit:=
  if !env.freeOpen then pure ()
  else do
    let _ ← nvsPut env.nvsErase slot none
    let _ ← nvsCommit env.freeCommit
    pure ()

section Calls

variable (env : HostEnv) (d : Disk) (p : Instance) (name : Name)

def hostRmemReadNamed (len : ℕ) : HostM HostReply:=
  if !activeDeclares Manifest.rmem p name then pure (.rc .noCapability)
  else do
    match ← scanPluginPool env d name with
    | (none,_)=>pure (.rc .notFound)
    | (some existing,_)=>
      match ← onStorage (rmemReadWithHeader env.access existing) with
      | .error e=>pure (.rc (seRc e))
      | .ok r=>
        if len % 2^16 < r.payload.payload.length then pure (.rc .invalidArg)
        else pure (.data existing r)

/-- The payload bytes of a slot of `RMEM_SLOT_SIZE`. -/
def rmemPayloadMax : ℕ:=444-22

def hostRmemWriteNamed (buf : Bytes) : HostM HostReply:=
  if name.isEmpty || nameMax < name.length then pure (.rc .invalidArg)
  else if !activeDeclares Manifest.rmem p name then pure (.rc .noCapability)
  else do
    let (existing,reclaimable) ← scanPluginPool env d name
    match existing.or reclaimable with
    | none=>pure (.rc .rmemFull)
    | some target=>
      let payload:=buf.take (buf.length % 2^16)
      if rmemPayloadMax < payload.length then pure (.rc .invalidArg)
      else do
        let reply ← onStorage (rmemWriteWithHeader env.write target ⟨plgPoolModuleId,0,name,⟨p.id,payload⟩⟩)
        pure (rcOf reply)

def hostRmemEraseNamed : HostM HostReply:=
  if !activeDeclares Manifest.rmem p name then pure (.rc .noCapability)
  else do
    match ← scanPluginPool env d name with
    | (none,_)=>pure (.rc .notFound)
    | (some existing,_)=>do
      let reply ← onStorage (seCall env.access (Chip.rmemErase existing))
      pure (rcOf reply)

def hostRmemNameUsed : HostM HostReply:=
  if !activeDeclares Manifest.rmem p name then pure (.nameUsed none)
  else do
    let (existing,_) ← scanPluginPool env d name
    pure (.nameUsed existing)

def hostEccGenerate (curve : EccCurve) : HostM HostReply:=
  if name.isEmpty || nameMax < name.length then pure (.rc .invalidArg)
  else if !activeDeclares Manifest.ecc p name then pure (.rc .noCapability)
  else do
    match ← resolveEccSlot env d name true with
    | none=>pure (.rc .noMemory)
    | some slot=>do
      let reply ← generateKey env.access slot ⟨curve,env.secret⟩ ⟨p.id,name⟩
      pure (rcOf reply)

def onNamedKey (call : ℕ→HostM HostReply) : HostM HostReply:=
  if !activeDeclares Manifest.ecc p name then pure (.rc .noCapability)
  else do
    match ← resolveEccSlot env d name false with
    | none=>pure (.rc .notFound)
    | some slot=>call slot

def hostEccPubkey : HostM HostReply:=
  onNamedKey env d p name fun slot=>do
    match ← onStorage (seCall env.access (Chip.eccGetPublicKey slot)) with
    | .error e=>pure (.rc (seRc e))
    | .ok key=>pure (.pubkey slot key)

def hostEccDelete : HostM HostReply:=
  onNamedKey env d p name fun slot=>do
    let reply ← onStorage (seCall env.access (Chip.eccDelete slot))
    freeEccMapping env slot
    pure (rcOf reply)

def hostEccExists : HostM HostReply:=
  if !activeDeclares Manifest.ecc p name then pure (.exists none)
  else do
    match ← resolveEccSlot env d name false with
    | none=>pure (.exists none)
    | some slot=>
      match ← onStorage (seCall env.access (Chip.eccGetPublicKey slot)) with
      | .error _=>pure (.exists none)
      | .ok _=>pure (.exists (some slot))

/-- `host_ecdsa_sign` and `host_eddsa_sign`, which differ in the chip's command only. -/
def hostSign (msg : Bytes) : HostM HostReply:=
  onNamedKey env d p name fun slot=>
    if msg.isEmpty then pure (.rc .invalidArg)
    else do
      match ← onStorage (seCall env.access (Chip.eccSigningKey slot)) with
      | .error e=>pure (.rc (seRc e))
      | .ok key=>pure (.signature slot key msg)

def hostEcdsaSign (msg : Bytes) : HostM HostReply:=hostSign env d p name msg

def hostEddsaSign (msg : Bytes) : HostM HostReply:=hostSign env d p name msg

end Calls

/-- The calls with the arguments that a plugin passes. -/
inductive HostCall
  | rmemRead (len : ℕ)
  | rmemWrite (buf : Bytes)
  | rmemErase
  | rmemNameUsed
  | eccGenerate (curve : EccCurve)
  | eccImport
  | eccPubkey
  | eccDelete
  | eccExists
  | ecdsaSign (msg : Bytes)
  | eddsaSign (msg : Bytes)

def hostCall (env : HostEnv) (d : Disk) (p : Instance) (name : Name) : HostCall→HostM HostReply
  | .rmemRead len=>hostRmemReadNamed env d p (cstr name) len
  | .rmemWrite buf=>hostRmemWriteNamed env d p (cstr name) buf
  | .rmemErase=>hostRmemEraseNamed env d p (cstr name)
  | .rmemNameUsed=>hostRmemNameUsed env d p (cstr name)
  | .eccGenerate curve=>hostEccGenerate env d p (cstr name) curve
  | .eccImport=>pure (.rc .notSupported)
  | .eccPubkey=>hostEccPubkey env d p (cstr name)
  | .eccDelete=>hostEccDelete env d p (cstr name)
  | .eccExists=>hostEccExists env d p (cstr name)
  | .ecdsaSign msg=>hostEcdsaSign env d p (cstr name) msg
  | .eddsaSign msg=>hostEddsaSign env d p (cstr name) msg

end CdcBadge.Plugin
