import Nanogate.Python.Text
import Nanogate.Tenants.Config

/-!
# The Docker manager and the agent registry

The methods of `DockerManager`, and `get_or_create` of the registry, as programs over the
world. Redis errors are swallowed by `_save_state` and `_load_state`; errors of Docker and
of the file system are swallowed where the source does it, and end the method elsewhere.

## Main definitions

* `saveState`, `loadState`, `getTenant`, `touch`, `stopTenant`, `writeConfig`,
  `provisionTenant`, `prunePass`, `restart`, `getOrCreate`
-/

namespace Nanogate.Tenants

open Nanogate.Python

/-- `CONTAINER_STATE_KEY_PREFIX` -/
def statePrefix : String := "nanogate:containers:state:"

/-- `_state_key` -/
def stateKey (tenantId : String) : String := statePrefix ++ tenantId

/-- `key.replace(CONTAINER_STATE_KEY_PREFIX, "")` -/
def tenantOfKey (key : String) : String := remove statePrefix key

/-- The name of a tenant's container. -/
def containerName (tenantId : String) : String := "nanogate-tenant-" ++ tenantId

/-- `idle_timeout`, in microseconds. -/
def idleTimeout : Int := 1800 * 1000000

/-! ### Records -/

/-- `_save_state`, the text of the record standing for the record. -/
def saveState (state : TenantState) : M Unit := do
  let w ← get
  if w.hasRedis then
    tryCatch (redisSet (stateKey state.tenantId) state) fun _ => pure ()

/-- `_load_state`, which validates what `_save_state` dumped. -/
def loadState (tenantId : String) : M (Option TenantState) := do
  let w ← get
  if w.hasRedis then
    tryCatch (redisGet (stateKey tenantId)) fun _ => pure none
  else pure none

/-- `get_saved_state` -/
def getSavedState (tenantId : String) : M (Option Json) := do
  let state ← loadState tenantId
  pure ((state.map TenantState.configData).filter Json.truthy)

/-- A record marked as stopped. -/
def TenantState.markStopped (state : TenantState) : TenantState :=
  { state with status := .stopped, containerId := none }

/-- The container of a record that says it is running. -/
def TenantState.runningContainer (state : TenantState) : Option ℕ :=
  match state.status with
  | .running => state.containerId
  | .stopped => none

/-- The cache entry for a record. -/
def TenantState.toContainer (state : TenantState) (id : ℕ) : TenantContainer :=
  { tenantId := state.tenantId
    containerId := id
    port := state.port
    configDir := state.configDir
    lastActivity := state.lastActivity }

/-- Put an entry into the cache. -/
def cache (tenantId : String) (tc : TenantContainer) : M Unit :=
  modify fun w => { w with tenants := w.tenants.set tenantId tc }

/-- `containers.get(id)` inside `try … except Exception`. -/
def containerExists (id : ℕ) : M Bool :=
  tryCatch (do let _ ← containersGet id; pure true) fun _ => pure false

/-! ### Activity -/

/-- `get_tenant` -/
def getTenant (tenantId : String) : M (Option TenantContainer) := do
  let w ← get
  match w.tenants.get tenantId with
  | some tc => do
    let tc := { tc with lastActivity := w.now }
    cache tenantId tc
    pure (some tc)
  | none => do
    let state ← loadState tenantId
    match state with
    | none => pure none
    | some state =>
      match state.runningContainer with
      | none => pure none
      | some id =>
        if w.hasClient then do
          if ← containerExists id then do
            let tc := state.toContainer id
            cache tenantId tc
            pure (some tc)
          else do
            saveState state.markStopped
            pure none
        else pure none

/-- `touch` -/
def touch (tenantId : String) : M Unit := do
  let w ← get
  match w.tenants.get tenantId with
  | none => pure ()
  | some tc => do
    cache tenantId { tc with lastActivity := w.now }
    if w.hasRedis then do
      let state ← loadState tenantId
      match state with
      | some state =>
        if state.status = .running then saveState { state with lastActivity := w.now }
        else pure ()
      | none => pure ()

/-! ### Stopping -/

/-- The configuration in the file of a container's tenant. -/
def configFile (host : Host) (tc : TenantContainer) : M Json :=
  match tc.configDir with
  | some dir => readConfig host (dir.join "config.json")
  | none => pure (.obj [])

/-- The configuration that `stop_tenant` saves: the file's, or else the one of the record that
was loaded, or else the one of a record loaded now. -/
def configToSave (host : Host) (tenantId : String) (tc : TenantContainer)
    (loaded : Option TenantState) : M Json := do
  let fromFile ← configFile host tc
  let config := fromFile.or ((loaded.map TenantState.configData).getD fromFile)
  if config.truthy then pure config
  else do
    let state ← loadState tenantId
    pure ((state.map TenantState.configData).getD config)

/-- Stop and remove a container; every error is logged. -/
def removeContainer (id : ℕ) : M Unit :=
  tryCatch
    (do
      let _ ← containersGet id
      containerStop id
      containerRemove id false)
    fun _ => pure ()

/-- `stop_tenant` once the container is known; `config_data` of a `TenantState` must be a
dictionary. -/
def stopContainer (host : Host) (tenantId : String) (tc : TenantContainer)
    (loaded : Option TenantState) : M Unit := do
  let config ← configToSave host tenantId tc loaded
  if !config.isObj then throw (.other "ValidationError")
  saveState
    { tenantId
      containerId := none
      port := tc.port
      configDir := tc.configDir
      configData := config
      lastActivity := tc.lastActivity
      status := .stopped }
  let w ← get
  if w.hasClient then removeContainer tc.containerId

/-- `stop_tenant` -/
def stopTenant (host : Host) (tenantId : String) : M Unit := do
  let w ← get
  match w.tenants.get tenantId with
  | some tc => do
    set { w with tenants := w.tenants.erase tenantId }
    stopContainer host tenantId tc none
  | none => do
    let state ← loadState tenantId
    match state with
    | none => pure ()
    | some state =>
      match state.runningContainer with
      | none => pure ()
      | some id => stopContainer host tenantId (state.toContainer id) (some state)

/-! ### Provisioning -/

/-- `ensure_image` -/
def ensureImage (host : Host) (image : String) : M Unit := do
  let w ← get
  if w.hasClient then
    tryCatch
      (do
        dockerCall
        let w ← get
        if image ∈ w.images then pure () else throw .imageNotFound)
      fun
        | .imageNotFound =>
          if host.hasDockerfile then do
            dockerCall
            modify fun w => { w with images := w.images ++ [image] }
          else pure ()
        | e => throw e

/-- `tenant_dir` -/
def tenantDir (host : Host) (tenantId : String) : PurePath := host.baseDir.join tenantId

/-- `config_path` -/
def configPath (host : Host) (tenantId : String) : PurePath :=
  (tenantDir host tenantId).join "config.json"

/-- Where the configuration of a tenant is written. -/
def configPlace (host : Host) (tenantId : String) : Option Location :=
  (configPath host tenantId).locate host.cwd

/-- `write_config`: the tenant's directory, the directory to mount as its workspace, and the
configuration as it was written. -/
def writeConfig (host : Host) (tenantId : String) (config : Json) :
    M (PurePath × PurePath × Json) := do
  let dir := tenantDir host tenantId
  mkdir host dir
  let (config, workspace) ← lift (mergeSettings config)
  let workspace ← lift (hostWorkspace host dir workspace)
  mkdir host workspace
  writeText host (configPath host tenantId) (.json config)
  pure (dir, workspace, config)

/-- Remove a container in the way of a new one. -/
def removeOld (name : String) : M Unit :=
  tryCatch
    (do
      let id ← containersGetByName name
      containerRemove id true)
    fun
      | .notFound => pure ()
      | e => throw e

/-- Bind a configured directory, if it is one. -/
def mountDir (host : Host) (config : Json) (key bind : String) (volumes : Dict String Bind) :
    M (Dict String Bind) := do
  let setting := (config.getD "gateway").getD key
  if setting.truthy then do
    let path ← lift (resolvePath host setting)
    if ← isDir host path then pure (volumes.set path.toString ⟨bind, "ro"⟩) else pure volumes
  else pure volumes

/-- `volumes` before the configured directories. -/
def baseVolumes (dir workspace : PurePath) : Dict String Bind :=
  (Dict.empty.set dir.toString ⟨"/root/.nanobot", "rw"⟩).set workspace.toString
    ⟨containerWorkspace, "rw"⟩

/-- `provision_tenant` from the removal of the old container to the new one: its id and the
configuration afterwards. -/
def startContainer (host : Host) (tenantId : String) (dir workspace : PurePath) (port : ℕ)
    (image : String) (config : Json) : M (ℕ × Json) := do
  removeOld (containerName tenantId)
  let (environment, config) ← lift (injectEnv host tenantId config)
  let volumes ← mountDir host config "toolsDir" "/app/tenant_tools" (baseVolumes dir workspace)
  let volumes ← mountDir host config "scriptsDir" "/app/tenant_scripts" volumes
  let id ← containersRun
    { name := containerName tenantId, image, port, environment, volumes, running := true } config
  pure (id, config)

/-- The loop over `setup_commands`, whose exit codes are only logged. -/
def runSetup (id : ℕ) : List Json → M Unit
  | [] => pure ()
  | _ :: commands => do
    execRun id
    runSetup id commands

/-- `provision_tenant` after the configuration is written. -/
def launch (host : Host) (tenantId image : String) (dir workspace : PurePath) (config : Json) :
    M TenantContainer := do
  let w ← get
  let port := w.freePort
  ensureImage host image
  let (id, config) ← startContainer host tenantId dir workspace port image config
  let w ← get
  let tc : TenantContainer :=
    { tenantId, containerId := id, port, configDir := some dir, lastActivity := w.now }
  cache tenantId tc
  saveState
    { tenantId
      containerId := some id
      port
      configDir := some dir
      configData := config
      lastActivity := w.now
      status := .running }
  let commands ← lift (setupCommands config)
  runSetup id commands
  pure tc

/-- `provision_tenant` after it stopped the tenant. -/
def startTenant (host : Host) (tenantId : String) (config : Json) (image : String) :
    M TenantContainer := do
  let (dir, workspace, config) ← writeConfig host tenantId config
  launch host tenantId image dir workspace config

/-- `provision_tenant` -/
def provisionTenant (host : Host) (tenantId : String) (config : Json)
    (image : String) : M TenantContainer := do
  let w ← get
  if !w.hasClient then throw (.other "Docker SDK is not initialized")
  stopTenant host tenantId
  startTenant host tenantId config image

/-- `DEFAULT_IMAGE` -/
def defaultImage : String := "nanogate:latest"

/-- `get_or_create` of the registry. -/
def getOrCreate (host : Host) (tenantId : String) : M TenantContainer := do
  let tc ← getTenant tenantId
  match tc with
  | some tc => pure tc
  | none => do
    let saved ← getSavedState tenantId
    provisionTenant host tenantId (saved.getD (.obj [])) defaultImage

/-! ### The pruner -/

/-- A tenant whose record says it is running and has been idle for too long. -/
def idle (now : Int) (tenantId : String) : M Bool := do
  let state ← loadState tenantId
  pure (state.any fun state => state.status = .running ∧ idleTimeout < now - state.lastActivity)

/-- The loop over the keys, which come in the order Redis returns them. -/
def idleTenants (now : Int) : List String → M (List String)
  | [] => pure []
  | key :: keys => do
    let stale ← idle now (tenantOfKey key)
    let rest ← idleTenants now keys
    pure (if stale then tenantOfKey key :: rest else rest)

/-- The loop over `to_prune`. -/
def stopAll (host : Host) : List String → M Unit
  | [] => pure ()
  | tenantId :: rest => do
    stopTenant host tenantId
    stopAll host rest

/-- `to_prune` -/
def toPrune (keys : List String) : M (List String) := do
  let w ← get
  if w.hasRedis then do
    redisCall
    idleTenants w.now keys
  else pure ((w.tenants.entries.filter fun e =>
    idleTimeout < w.now - e.2.lastActivity).map Prod.fst)

/-- One pass of `_prune_loop`; an exception ends the pass. -/
def prunePass (host : Host) (keys : List String) : M Unit :=
  tryCatch
    (do
      let stale ← toPrune keys
      stopAll host stale)
    fun _ => pure ()

/-! ### Starting and shutting down -/

/-- The loop of `_reload_running_from_redis`. -/
def reloadKeys : List String → M Unit
  | [] => pure ()
  | key :: keys => do
    let state ← redisGet key
    match state with
    | none => pure ()
    | some state =>
      match state.runningContainer with
      | none => pure ()
      | some id => do
        if ← containerExists id then cache (tenantOfKey key) (state.toContainer id)
        else saveState state.markStopped
    reloadKeys keys

/-- `_reload_running_from_redis` -/
def reloadRunning (keys : List String) : M Unit := do
  let w ← get
  if w.hasRedis && w.hasClient then
    tryCatch (do redisCall; reloadKeys keys) fun _ => pure ()

/-- `DockerManager.__init__` of a new process; Redis is there when it answers the ping. -/
def restart (host : Host) (keys : List String) : M Unit := do
  modify fun w => { w with tenants := .empty, hasRedis := true }
  tryCatch (do redisCall; reloadRunning keys) fun _ => modify fun w => { w with hasRedis := false }
  ensureImage host defaultImage

/-- `shutdown_all` -/
def shutdownAll (host : Host) : M Unit := do
  let w ← get
  stopAll host w.tenants.keys

end Nanogate.Tenants
