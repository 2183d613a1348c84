import Nanogate.Tenants.Turns

/-!
# Methods split at their Redis commands

Two processes, or two threads of one, may each be in the middle of a method for the same tenant.
What one of them does to the record then depends on what the other one does between two Redis
commands. Here `touch`, `stop_tenant` and `provision_tenant` are split at their Redis commands: a
`Point` is where a method stands between two of them, and `resume` runs it up to the next one.

## Main definitions

* `Point` — before the method, before one of its Redis commands, or after it
* `resume` — the next command and everything up to the one after it

## Main results

* `touch_resumed`, `stopTenant_resumed`, `provisionTenant_resumed` — resumed without
  interruption, these are the methods
-/

namespace Nanogate.Tenants

open Nanogate.Python Nanogate.Semantics Relation

/-- Where a method stands. For `provision_tenant`, `next` is what is left to provision. -/
inductive Point where
  | touch (tenantId : String)
  /-- `touch` before it loads the record; `now` is the last activity of the entry. -/
  | touchGet (tenantId : String) (now : Int)
  | touchSet (state : TenantState)
  | provision (tenantId : String) (config : Json) (image : String)
  | stop (tenantId : String) (next : Option (Json × String))
  | stopGet (tenantId : String) (next : Option (Json × String))
  /-- `stop_tenant` before it loads the record for its configuration. -/
  | stopGetConfig (tenantId : String) (tc : TenantContainer) (config : Json)
      (next : Option (Json × String))
  | stopSet (state : TenantState) (id : ℕ) (next : Option (Json × String))
  | startSet (state : TenantState) (id : ℕ)
  | done

/-- `touch` up to its first command. -/
def touchFirst (tenantId : String) : M Point := do
  let w ← get
  match w.tenants.get tenantId with
  | none => pure .done
  | some tc => do
    cache tenantId { tc with lastActivity := w.now }
    pure (if w.hasRedis then .touchGet tenantId w.now else .done)

/-- `provision_tenant` from `write_config` to the record of the new container. -/
def startNext (host : Host) (tenantId : String) : Option (Json × String) → M Point
  | none => pure .done
  | some (config, image) => do
    let (dir, workspace, config) ← writeConfig host tenantId config
    let w ← get
    let port := w.freePort
    ensureImage host image
    let (id, config) ← startContainer host tenantId dir workspace port image config
    let w ← get
    let tc : TenantContainer :=
      { tenantId, containerId := id, port, configDir := some dir, lastActivity := w.now }
    cache tenantId tc
    pure (.startSet
      { tenantId
        containerId := some id
        port
        configDir := some dir
        configData := config
        lastActivity := w.now
        status := .running } id)

/-- `stop_tenant` before it saves the record. -/
def stopNext (tenantId : String) (tc : TenantContainer) (config : Json)
    (next : Option (Json × String)) : M Point := do
  if !config.isObj then throw (.other "ValidationError")
  pure (.stopSet (tc.stopped tenantId config) tc.containerId next)

/-- `stop_tenant` once the container is known. -/
def stopKnown (host : Host) (tenantId : String) (tc : TenantContainer) (loaded : Option TenantState)
    (next : Option (Json × String)) : M Point := do
  let fromFile ← configFile host tc
  let config := fromFile.or ((loaded.map TenantState.configData).getD fromFile)
  if config.truthy then stopNext tenantId tc config next
  else pure (.stopGetConfig tenantId tc config next)

/-- `stop_tenant` up to its first command. -/
def stopFirst (host : Host) (tenantId : String) (next : Option (Json × String)) : M Point := do
  let w ← get
  match w.tenants.get tenantId with
  | some tc => do
    set { w with tenants := w.tenants.erase tenantId }
    stopKnown host tenantId tc none next
  | none => pure (.stopGet tenantId next)

/-- The next command of a method and everything up to the one after it. -/
def resume (host : Host) : Point → M Point
  | .touch t => touchFirst t
  | .touchGet t now => do
    let state ← loadState t
    match state with
    | some state =>
      pure (if state.status = .running then .touchSet { state with lastActivity := now } else .done)
    | none => pure .done
  | .touchSet state => do
    saveState state
    pure .done
  | .provision t config image => do
    let w ← get
    if !w.hasClient then throw (.other "Docker SDK is not initialized")
    stopFirst host t (some (config, image))
  | .stop t next => stopFirst host t next
  | .stopGet t next => do
    let state ← loadState t
    match state with
    | none => startNext host t next
    | some state =>
      match state.runningContainer with
      | none => startNext host t next
      | some id => stopKnown host t (state.toContainer id) (some state) next
  | .stopGetConfig t tc config next => do
    let state ← loadState t
    stopNext t tc ((state.map TenantState.configData).getD config) next
  | .stopSet state id next => do
    saveState state
    let w ← get
    if w.hasClient then removeContainer id
    startNext host state.tenantId next
  | .startSet state id => do
    saveState state
    let commands ← lift (setupCommands state.configData)
    runSetup id commands
    pure .done
  | .done => pure .done

/-- Resume `n` times without interruption. -/
def resumed (host : Host) : ℕ → Point → M Point
  | 0, p => pure p
  | n + 1, p => do
    let p ← resume host p
    resumed host n p

section Split

variable {host : Host} {tenantId image : String} {config : Json} {p : Point}

theorem resumed_succ (n : ℕ) : resumed host (n + 1) p = resume host p >>= resumed host n := rfl

@[simp] theorem resumed_done (n : ℕ) : resumed host n .done = pure .done := by
  induction n with
  | zero => rfl
  | succ n ih => simp [resumed, resume, ih]

theorem resumed_startSet (n : ℕ) {state : TenantState} {id : ℕ} :
    resumed host (n + 1) (.startSet state id) = (do
      saveState state
      let commands ← lift (setupCommands state.configData)
      runSetup id commands
      pure .done) := by
  simp [resumed, resume]

/-- What follows `stop_tenant`. -/
def afterStop (host : Host) (tenantId : String) : Option (Json × String) → M Point
  | none => pure .done
  | some (config, image) => do
    let _ ← startTenant host tenantId config image
    pure .done

theorem resumed_startNext (n : ℕ) {next : Option (Json × String)} :
    (startNext host tenantId next >>= resumed host (n + 1)) = afterStop host tenantId next := by
  cases next with
  | none => simp [startNext, afterStop]
  | some next => simp [startNext, afterStop, startTenant, launch, resumed_startSet]

theorem resumed_stopSet (n : ℕ) {state : TenantState} {id : ℕ} {next : Option (Json × String)} :
    resumed host (n + 2) (.stopSet state id next) = (do
      saveState state
      let w ← get
      if w.hasClient then removeContainer id
      afterStop host state.tenantId next) := by
  simp only [resumed, resume, bind_assoc]
  refine bind_congr fun _ => bind_congr fun w => ?_
  split_ifs
  · rw [bind_assoc]
    exact bind_congr fun _ => resumed_startNext n
  · exact resumed_startNext n

/-- `stop_tenant` once the configuration is known. -/
def saveStopped (tenantId : String) (tc : TenantContainer) (config : Json) : M Unit := do
  if !config.isObj then throw (.other "ValidationError")
  saveState (tc.stopped tenantId config)
  let w ← get
  if w.hasClient then removeContainer tc.containerId

theorem resumed_stopNext (n : ℕ) {tc : TenantContainer} {next : Option (Json × String)} :
    (stopNext tenantId tc config next >>= resumed host (n + 2)) = (do
      saveStopped tenantId tc config
      afterStop host tenantId next) := by
  unfold stopNext saveStopped
  split_ifs
  · simp only [bind_assoc]
    rfl
  · simp only [pure_bind, bind_assoc, resumed_stopSet]
    refine bind_congr fun _ => bind_congr fun w => ?_
    split_ifs <;> simp [TenantContainer.stopped]

theorem stopContainer_eq {tc : TenantContainer} {loaded : Option TenantState} :
    stopContainer host tenantId tc loaded =
      configToSave host tenantId tc loaded >>= saveStopped tenantId tc := rfl

/-- Where the configuration is empty, the record is loaded for it. -/
theorem resumed_stopKnown (n : ℕ) {tc : TenantContainer} {loaded : Option TenantState}
    {next : Option (Json × String)} :
    (stopKnown host tenantId tc loaded next >>= resumed host (n + 3)) = (do
      stopContainer host tenantId tc loaded
      afterStop host tenantId next) := by
  simp only [stopContainer_eq, stopKnown, configToSave, bind_assoc]
  refine bind_congr fun fromFile => ?_
  split_ifs with htruthy
  · rw [pure_bind]
    exact resumed_stopNext (n + 1)
  · simp only [resumed, resume, bind_assoc, pure_bind]
    exact bind_congr fun state => resumed_stopNext n

theorem resumed_stopFirst (n : ℕ) {next : Option (Json × String)} :
    (stopFirst host tenantId next >>= resumed host (n + 4)) = (do
      stopTenant host tenantId
      afterStop host tenantId next) := by
  simp only [stopFirst, stopTenant, bind_assoc]
  refine bind_congr fun w => ?_
  cases w.tenants.get tenantId with
  | some tc =>
    simp only [bind_assoc]
    exact bind_congr fun _ => resumed_stopKnown (n + 1)
  | none =>
    simp only [resumed, resume, bind_assoc, pure_bind]
    refine bind_congr fun state => ?_
    cases state with
    | none => exact resumed_startNext (n + 2)
    | some state =>
      dsimp only
      cases state.runningContainer with
      | none => exact resumed_startNext (n + 2)
      | some id => exact resumed_stopKnown n

/-! ### The methods -/

theorem resumed_touchGet {now : Int} : resumed host 2 (.touchGet tenantId now) = (do
    let state ← loadState tenantId
    match state with
    | some state =>
      if state.status = .running then saveState { state with lastActivity := now } else pure ()
    | none => pure ()
    pure .done) := by
  rw [resumed_succ]
  simp only [resume, bind_assoc]
  refine bind_congr fun state => ?_
  cases state with
  | none => simp
  | some state =>
    simp only [pure_bind]
    split_ifs
    · simp [resumed_succ, resume]
    · simp

/-- `touch` is its commands. -/
theorem touch_resumed :
    (do touch tenantId; pure Point.done) = resumed host 3 (.touch tenantId) := by
  rw [resumed_succ]
  simp only [resume, touchFirst, touch, bind_assoc]
  refine bind_congr fun w => ?_
  cases w.tenants.get tenantId with
  | none => simp
  | some tc =>
    simp only [bind_assoc, pure_bind]
    refine bind_congr fun _ => ?_
    split_ifs
    · rw [resumed_touchGet, bind_assoc]
      refine bind_congr fun state => ?_
      cases state with
      | none => rfl
      | some state =>
        dsimp only
        split_ifs <;> simp
    · simp

/-- `stop_tenant` is its commands. -/
theorem stopTenant_resumed :
    (do stopTenant host tenantId; pure Point.done) = resumed host 5 (.stop tenantId none) := by
  have hfirst : resume host (.stop tenantId none) = stopFirst host tenantId none := rfl
  rw [resumed_succ, hfirst, resumed_stopFirst 0]
  rfl

/-- `provision_tenant` is its commands. -/
theorem provisionTenant_resumed :
    (do let _ ← provisionTenant host tenantId config image; pure Point.done) =
      resumed host 5 (.provision tenantId config image) := by
  rw [resumed_succ]
  simp only [resume, provisionTenant, bind_assoc]
  refine bind_congr fun w => ?_
  split_ifs
  · rfl
  · rw [resumed_stopFirst 0]
    simp only [bind_assoc, afterStop, startTenant]

end Split

end Nanogate.Tenants
