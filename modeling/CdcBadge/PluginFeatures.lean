import CdcBadge.PluginManifests
import CdcBadge.Runs

/-!
# Features that plugins provide for each other

The calls of the external-feature host API over its one job slot, its handlers and the payload that is
being delivered, the index that names a feature's provider, and the plugins that come and go in between.
-/

namespace CdcBadge.Plugin.Feature

open Runs

def maxHandlers : ℕ:=4
def nameMax : ℕ:=33
def payloadMax : ℕ:=32768
def statusError : ℤ:=1

/-- A plugin in memory. -/
structure Loaded where
  ptr : ℕ
  id : Id
  provides : List Name
  /-- It is the active plugin or one in the background: its `plugin_init` is over. -/
  listed : Bool:=false
  /-- Its number among all that were loaded: kept for stating properties. -/
  serial : ℕ
  deriving DecidableEq

/-- An entry of the handler table. -/
structure FeatureHandler where
  plugin : ℕ
  feature : Name
  actionId : UInt32
  deriving DecidableEq

inductive JobState | idle | stashed | delivered
  deriving DecidableEq

/-- The job slot. -/
structure FeatureJob where
  st : JobState:=.idle
  feature : Name:=[]
  providerId : Id:=[]
  caller : Option ℕ:=none
  callerId : Id:=[]
  statusActionId : UInt32:=0
  data : Bytes:=[]
  /-- Its number among the accepted uses, and the plugin it was delivered to: kept for stating properties. -/
  use : ℕ:=0
  deliveredTo : Option ℕ:=none
  deriving DecidableEq

/-- The payload that a consume reads, and the accepted use that it was of when it was set. -/
structure Current where
  feature : Name
  len : ℕ
  use : ℕ
  deriving DecidableEq

/-- How far the pump has come with a job. -/
inductive Pump
  | resting
  | starting (feature : Name) (providerId : Id)
  | delivering (plugin : ℕ)
  deriving DecidableEq

/-- An accepted use: kept for stating properties. -/
structure Use where
  caller : Loaded
  provider : Id
  statusActionId : UInt32
  data : Bytes
  deriving DecidableEq

/-- What reaches a plugin. -/
inductive Delivery
  | handed (use : ℕ) (plugin : Loaded) (actionId : UInt32) (len : ℕ)
  | consumed (use : ℕ) (plugin : Loaded) (bytes : Bytes)
  | status (use : ℕ) (plugin : Loaded) (actionId : UInt32) (status : ℤ)
  deriving DecidableEq

structure State where
  plugins : List Loaded:=[]
  handlers : Fin maxHandlers→Option FeatureHandler:=fun _=>none
  job : FeatureJob:={}
  current : Option Current:=none
  pump : Pump:=.resting
  /-- `feat_index_name_` with `feat_index_id_`. -/
  index : List (Name × Id):=[]
  nextSerial : ℕ:=0
  uses : List Use:=[]
  log : List Delivery:=[]

inductive HostCode | ok | generic | invalidArg | noCapability | notFound | noMemory | busy
  deriving DecidableEq

def isValidExtFeatureName : Name→Bool
  | []=>false
  | c::rest=>(97 ≤ c && c ≤ 122) && rest.length+1 < nameMax && rest.all namespaceByte

/-- A plugin on the disk: whether it is disabled, and what its manifest provides where it has one. -/
structure Installed where
  id : Id
  disabled : Bool
  provides : Option (List Name)

def indexPlugin (index : List (Name × Id)) (p : Installed) : List (Name × Id):=
  if p.disabled then index
  else (p.provides.getD []).foldl (fun index feature=>
    if index.any (·.1 == feature) then index else index++[(feature,p.id)]) index

def rebuildMessageIndex (installed : List Installed) : List (Name × Id):=installed.foldl indexPlugin []

namespace State

variable (s : State)

def featureProviderId (feature : Name) (contended : Bool) : Option Id:=
  if contended then none else (s.index.find? (·.1 == feature)).map Prod.snd

def findPlugin (ptr : ℕ) : Option Loaded:=s.plugins.find? (·.ptr == ptr)

def isLoaded (id : Id) : Bool:=s.plugins.any fun p=>p.listed && p.id == id

def handlerSlots : List (Fin maxHandlers):=List.finRange maxHandlers

def findHandler (plugin : ℕ) (feature : Name) : Option (Fin maxHandlers):=
  handlerSlots.find? fun i=>(s.handlers i).any fun h=>h.plugin == plugin && h.feature == feature

def findHandlerByFeature (feature : Name) : Option (Fin maxHandlers):=
  handlerSlots.find? fun i=>(s.handlers i).any (·.feature == feature)

/-- The plugin whose action `dispatchActionTo` runs. -/
def dispatchTarget (ptr : ℕ) : Option Loaded:=s.plugins.find? fun p=>p.listed && p.ptr == ptr

def note (d : Delivery) : State:={s with log:=s.log++[d]}

def reportToCaller (job : FeatureJob) (status : ℤ) : State:=
  match job.caller with
  | none=>s
  | some caller=>
    if job.statusActionId=0 || job.callerId.isEmpty || !s.isLoaded job.callerId then s
    else match s.dispatchTarget caller with
      | none=>s
      | some p=>s.note (.status job.use p job.statusActionId status)

def freeJob : State:={s with job:={}}

/-- `host_ext_feature_use`. A payload of `none` stands for a null pointer with a length. -/
def use (ptr : ℕ) (feature : Name) (payload : Option Bytes) (statusActionId : UInt32) (contended allocated : Bool) :
    HostCode × State:=
  if !isValidExtFeatureName feature then (.invalidArg,s)
  else match payload with
  | none=>(.invalidArg,s)
  | some data=>
    if payloadMax < data.length then (.invalidArg,s)
    else match s.findPlugin ptr with
    | none=>(.generic,s)
    | some caller=>
      match s.featureProviderId feature contended with
      | none=>(.notFound,s)
      | some provider=>
        if provider=[] then (.notFound,s)
        else if provider=caller.id then (.invalidArg,s)
        else if data≠[] && !allocated then (.noMemory,s)
        else if s.job.st≠.idle then (.busy,s)
        else (.ok,{ s with
          job:={ st:=.stashed,feature:=feature,providerId:=provider,caller:=some ptr,callerId:=caller.id,
                 statusActionId:=statusActionId,data:=data,use:=s.uses.length }
          uses:=s.uses++[{caller:=caller,provider:=provider,statusActionId:=statusActionId,data:=data}] })

def registerHandler (ptr : ℕ) (feature : Name) (actionId : UInt32) : HostCode × State:=
  if !isValidExtFeatureName feature then (.invalidArg,s)
  else match s.findPlugin ptr with
  | none=>(.generic,s)
  | some p=>
    if !p.provides.contains feature then (.noCapability,s)
    else match (s.findHandler ptr feature).or (handlerSlots.find? fun i=>(s.handlers i).isNone) with
      | none=>(.noMemory,s)
      | some i=>(.ok,{s with handlers:=Function.update s.handlers i (some ⟨ptr,feature,actionId⟩)})

/-- `host_ext_feature_consume` by the plugin whose frame it is. Once the slot has freed the payload, the memory
holds whatever came there. -/
def consume (ptr : ℕ) (bufSize : ℕ) (garbage : Bytes) : State:=
  match s.findPlugin ptr, s.current with
  | some p, some c=>
    let n:=min c.len bufSize
    let bytes:=if s.job.st=.delivered ∧ s.job.use=c.use then s.job.data else garbage
    s.note (.consumed c.use p (bytes.take n))
  | _, _=>s

def result (ptr : ℕ) (status : ℤ) : HostCode × State:=
  match s.findPlugin ptr with
  | none=>(.generic,s)
  | some _=>
    if s.job.st≠.delivered then (.notFound,s)
    else match s.findHandlerByFeature s.job.feature with
      | none=>(.notFound,s)
      | some i=>
        if (s.handlers i).map (·.plugin)≠some ptr then (.notFound,s)
        else (.ok,s.freeJob.reportToCaller s.job status)

def pumpBegin : State:=
  if s.pump=.resting ∧ s.job.st=.stashed then {s with pump:=.starting s.job.feature s.job.providerId} else s

/-- The provider is active, or `startPlugin` has answered. -/
def pumpStarted (started : Bool) : State:=
  match s.pump with
  | .starting feature _=>
    if s.job.st≠.stashed then {s with pump:=.resting}
    else match if started then s.findHandlerByFeature feature else none with
      | none=>{s.freeJob.reportToCaller s.job statusError with pump:=.resting}
      | some i=>
        match s.handlers i with
        | none=>s
        | some h=>
          let t:={ s with
            job:={s.job with st:=.delivered,deliveredTo:=some h.plugin}
            current:=some ⟨s.job.feature,s.job.data.length,s.job.use⟩
            pump:=.delivering h.plugin }
          match s.dispatchTarget h.plugin with
          | none=>t
          | some p=>t.note (.handed s.job.use p h.actionId s.job.data.length)
  | _=>s

def pumpEnd : State:=
  match s.pump with
  | .delivering _=>{s with pump:=.resting,current:=none}
  | _=>s

/-- `plg_ext_feature_on_unload`. -/
def onUnload (ptr : ℕ) : State:=
  let s:={s with handlers:=fun i=>(s.handlers i).filter (·.plugin != ptr)}
  if s.job.st=.idle then s
  else if s.job.caller=some ptr then
    {s with job:={s.job with caller:=none,callerId:=[],statusActionId:=0}}
  else if s.job.st=.delivered ∧ s.findHandlerByFeature s.job.feature=none then
    s.freeJob.reportToCaller s.job statusError
  else s

/-- `teardownPlugin`, and the end of the instance. -/
def unload (ptr : ℕ) : State:=
  let t:=s.onUnload ptr
  {t with plugins:=t.plugins.filter (·.ptr != ptr)}

/-- A new instance: its `plugin_init` begins. No plugin has an empty id. -/
def load (ptr : ℕ) (id : Id) (provides : List Name) : State:=
  if id=[] ∨ (s.findPlugin ptr).isSome then s
  else { s with
    plugins:=s.plugins++[{ptr:=ptr,id:=id,provides:=provides,serial:=s.nextSerial}]
    nextSerial:=s.nextSerial+1 }

def list (ptr : ℕ) (listed : Bool) : State:=
  {s with plugins:=s.plugins.map fun p=>if p.ptr=ptr then {p with listed:=listed} else p}

end State

inductive Event
  | load (ptr : ℕ) (id : Id) (provides : List Name)
  | list (ptr : ℕ) (listed : Bool)
  | unload (ptr : ℕ)
  | refresh (installed : List Installed)
  | use (ptr : ℕ) (feature : Name) (payload : Option Bytes) (statusActionId : UInt32) (contended allocated : Bool)
  | register (ptr : ℕ) (feature : Name) (actionId : UInt32)
  | consume (ptr : ℕ) (bufSize : ℕ) (garbage : Bytes)
  | result (ptr : ℕ) (status : ℤ)
  | pumpBegin
  | pumpStarted (started : Bool)
  | pumpEnd

def step (s : State) : Event → State
  | .load ptr id provides=>s.load ptr id provides
  | .list ptr listed=>s.list ptr listed
  | .unload ptr=>s.unload ptr
  | .refresh installed=>{s with index:=rebuildMessageIndex installed}
  | .use ptr feature payload action contended allocated=>(s.use ptr feature payload action contended allocated).2
  | .register ptr feature action=>(s.registerHandler ptr feature action).2
  | .consume ptr bufSize garbage=>s.consume ptr bufSize garbage
  | .result ptr status=>(s.result ptr status).2
  | .pumpBegin=>s.pumpBegin
  | .pumpStarted started=>s.pumpStarted started
  | .pumpEnd=>s.pumpEnd

end CdcBadge.Plugin.Feature
