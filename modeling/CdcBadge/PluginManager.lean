import CdcBadge.HostApiSe

/-!
# The plugin manager

Which plugins are loaded, and the steps that change this: starting, stopping, unloading and
reloading, the files that uploads and uninstalling leave, and the calls that loaded plugins make
in between, in any order.
-/

namespace CdcBadge.Plugin

open Handler Tropic
open Pin (PowerLost)

/-- The plugins on the badge, and the store that their calls work on. -/
structure Badge where
  disk : Disk
  active : Option Instance:=none
  background : List Instance:=[]
  /-- Instances whose `plugin_init` or `plugin_on_enter` runs, and whether they go to the foreground. -/
  starting : List (Instance × Bool):=[]
  store : Store

/-- Where the manager keeps an instance. -/
inductive Place
  | active
  | background (k : ℕ)
  | starting (k : ℕ)

def Badge.instanceAt (b : Badge) : Place→Option Instance
  | .active=>b.active
  | .background k=>b.background[k]?
  | .starting k=>(b.starting[k]?).map Prod.fst

def Badge.live (b : Badge) : List Instance:=b.active.toList++b.background++b.starting.map Prod.fst

namespace Manager

variable (b : Badge) (id : Id)

def isRunningInBackground : Bool:=b.background.any (·.id == id)

def isActive : Bool:=b.active.any (·.id == id)

def isLoaded : Bool:=isActive b id || isRunningInBackground b id

/-- `Plugin::load`, which may fail; the instance keeps the manifest that was read. -/
def load (loads foreground : Bool) (mf : Manifest) : Badge:=
  if loads then {b with starting:=b.starting++[(⟨id,mf,false⟩,foreground)]} else b

/-- The checks before a load, as `startPlugin`, the autoload and the message handler make them. -/
def passes (reads : Reads) (mf : Manifest) : Bool:=validate mf && !claimsCollide reads b.disk id mf

def loadChecked (reads : Reads) (loads foreground : Bool) : Badge:=
  match getManifest reads b.disk id with
  | none=>b
  | some mf=>if passes b id reads mf then load b id loads foreground mf else b

/-- The foreground plugin is left: it stays in the background where it may and wants to. -/
def leaveActive : Badge:=
  match b.active with
  | none=>b
  | some p=>
    if p.manifest.background && p.resident then {b with active:=none,background:=b.background++[p]}
    else {b with active:=none}

/-- A background instance comes to the foreground, unless its `plugin_on_enter` cannot be called. -/
def promote (entered : Bool) : Badge:=
  match b.background.find? (·.id == id) with
  | none=>b
  | some p=>
    let others:=b.background.eraseP (·.id == id)
    if entered then {b with active:=some p,background:=others} else {b with background:=others++[p]}

def startPlugin (reads : Reads) (loads entered : Bool) : Badge:=
  if b.disk.disabled id then b
  else if isActive b id then b
  else
    let b:=leaveActive b
    if isRunningInBackground b id then promote b id entered
    else loadChecked b id reads loads true

/-- The end of `plugin_init`, the prerequisites and `plugin_on_enter` of the instance at a place in the list. -/
def started (k : ℕ) (succeeds : Bool) : Badge:=
  match b.starting[k]? with
  | none=>b
  | some (p,foreground)=>
    let b:={b with starting:=b.starting.eraseIdx k}
    if !succeeds then b
    else if foreground then {b with active:=some p}
    else {b with background:=b.background++[p]}

/-- One plugin of `loadAutoloadPlugins`. -/
def autoload (reads : Reads) (loads : Bool) : Badge:=
  match getManifest reads b.disk id with
  | none=>b
  | some mf=>
    if !mf.autoload || b.disk.disabled id || isLoaded b id then b else loadChecked b id reads loads false

def activateForMessageType (reads : Reads) (loads : Bool) : Badge:=
  if isLoaded b id || b.disk.disabled id then b else loadChecked b id reads loads false

def stopActivePlugin : Badge:=leaveActive b

def unloadFromRam : Badge:=
  if isActive b id then {b with active:=none} else {b with background:=b.background.eraseP (·.id == id)}

def underLock (locked : Bool) (f : Badge→Badge) : Badge:=if locked then f b else b

def handleTrap : Place→Badge
  | .active=>{b with active:=none}
  | .background k=>{b with background:=b.background.eraseIdx k}
  | .starting _=>b

/-- A background plugin is loaded again with the manifest that lies on the disk now; no check is made on it. -/
def reloadBackgroundPlugin (reads : Reads) (unlocked loads : Bool) : Badge:=
  if b.disk.disabled id then b
  else match getManifest reads b.disk id with
    | none=>b
    | some mf=>
      if !mf.background then b
      else if !isRunningInBackground b id then b
      else load (underLock b unlocked (unloadFromRam · id)) id loads false mf

def removeFiles (d : Disk) (binaryRemoved metaRemoved : Bool) : Disk:=
  { d with
    binaries:=if binaryRemoved then d.binaries.filter (· ≠ id) else d.binaries
    metas:=if metaRemoved then Function.update d.metas id none else d.metas
    disabled:=Function.update d.disabled id false }

def uninstallPlugin (locked binaryRemoved metaRemoved : Bool) : Badge:=
  let b:=underLock b locked (unloadFromRam · id)
  {b with disk:=removeFiles id b.disk binaryRemoved metaRemoved}

def uploadMeta (content : Option Manifest) (renamed : Bool) : Badge:=
  {b with disk:={b.disk with metas:=Function.update b.disk.metas id (if renamed then some content else none)}}

def uploadBinary (renamed : Bool) (reads : Reads) (unlocked loads : Bool) : Badge:=
  let others:=b.disk.binaries.filter (· ≠ id)
  if renamed then
    reloadBackgroundPlugin {b with disk:={b.disk with binaries:=others++[id]}} id reads unlocked loads
  else {b with disk:={b.disk with binaries:=others}}

def setPluginDisabled (disabled locked : Bool) (reads : Reads) : Badge:=
  if (getManifest reads b.disk id).isNone then b
  else
    let b:={b with disk:={b.disk with disabled:=Function.update b.disk.disabled id disabled}}
    if disabled then underLock b locked (unloadFromRam · id) else b

/-- `host_set_resident`. -/
def setResident (on : Bool) : Place→Badge
  | .active=>{b with active:=b.active.map ({· with resident:=on})}
  | .background k=>{b with background:=b.background.modify k ({· with resident:=on})}
  | .starting k=>{b with starting:=b.starting.modify k fun s=>({s.1 with resident:=on},s.2)}

def reboot : Badge:={b with active:=none,background:=[],starting:=[]}

def call (caller : Place) (env : HostEnv) (name : Name) (c : HostCall) : Badge:=
  match b.instanceAt caller with
  | none=>b
  | some p=>match hostCall env b.disk p name c b.store with
    | (.ok _,store)=>{b with store}
    | (.error _,store)=>reboot {b with store}

end Manager

inductive Event
  | startPlugin (id : Id) (reads : Reads) (loads entered : Bool)
  | started (k : ℕ) (succeeds : Bool)
  | autoload (id : Id) (reads : Reads) (loads : Bool)
  | activateForMessageType (id : Id) (reads : Reads) (loads : Bool)
  | stopActivePlugin
  | unloadFromRam (id : Id)
  | handleTrap (place : Place)
  | uninstallPlugin (id : Id) (locked binaryRemoved metaRemoved : Bool)
  | uploadMeta (id : Id) (content : Option Manifest) (renamed : Bool)
  | uploadBinary (id : Id) (renamed : Bool) (reads : Reads) (unlocked loads : Bool)
  | setPluginDisabled (id : Id) (disabled locked : Bool) (reads : Reads)
  | setResident (place : Place) (on : Bool)
  | reboot
  | call (caller : Place) (env : HostEnv) (name : Name) (c : HostCall)

def Badge.step (b : Badge) : Event→Badge
  | .startPlugin id reads loads entered=>Manager.startPlugin b id reads loads entered
  | .started k succeeds=>Manager.started b k succeeds
  | .autoload id reads loads=>Manager.autoload b id reads loads
  | .activateForMessageType id reads loads=>Manager.activateForMessageType b id reads loads
  | .stopActivePlugin=>Manager.stopActivePlugin b
  | .unloadFromRam id=>Manager.unloadFromRam b id
  | .handleTrap place=>Manager.handleTrap b place
  | .uninstallPlugin id locked binaryRemoved metaRemoved=>Manager.uninstallPlugin b id locked binaryRemoved metaRemoved
  | .uploadMeta id content renamed=>Manager.uploadMeta b id content renamed
  | .uploadBinary id renamed reads unlocked loads=>Manager.uploadBinary b id renamed reads unlocked loads
  | .setPluginDisabled id disabled locked reads=>Manager.setPluginDisabled b id disabled locked reads
  | .setResident place on=>Manager.setResident b on place
  | .reboot=>Manager.reboot b
  | .call caller env name c=>Manager.call b caller env name c

end CdcBadge.Plugin
