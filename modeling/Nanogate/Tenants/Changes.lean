import Mathlib.Data.List.Infix
import Nanogate.Semantics.Program
import Nanogate.Tenants.Manager

/-!
# What the methods change

Every method that works for a tenant makes changes of a few kinds, each with a guard on the
world it is made in. Here each method is shown to make only such changes, once, and every
invariant of the manager is proved from the kinds of change alone.

A method may use what it learnt when it began: a popped cache entry is no longer there when
its container is stopped. The world the method began in is therefore a parameter.

## Main definitions

* `Same` — two worlds that differ only in the calls still planned to fail
* `Known` — the container a method takes for the tenant's
* `Change` — one change made by a method for a tenant
-/

namespace Nanogate.Tenants

open Nanogate.Python Nanogate.Semantics Relation

/-! ### Calls that change nothing -/

/-- The same world, some calls later. -/
def Same (w w' : World) : Prop :=
  ∃ r d f, r <:+ w.redisFaults ∧ d <:+ w.dockerFaults ∧ f <:+ w.fileFaults ∧
    w' = { w with redisFaults := r, dockerFaults := d, fileFaults := f }

/-- Redis is connected and no call to it is planned to fail. -/
def World.RedisWorks (w : World) : Prop := w.hasRedis = true ∧ w.redisFaults = []

/-- Redis is connected and the next call to it is answered. -/
def World.answers (w : World) : Bool := w.hasRedis && w.redisFaults.head? ≠ some true

/-- The world after a method tried a call to Redis. -/
def World.asked (w : World) : World :=
  if w.hasRedis then { w with redisFaults := w.redisFaults.tail } else w

/-- The world after a record was set. -/
def World.put (w : World) (state : TenantState) : World :=
  { w with
    redis := w.redis.set (stateKey state.tenantId) state
    effects := w.effects ++ [.redisSet (stateKey state.tenantId) state] }

theorem World.same_asked (w : World) : Same w w.asked := by
  unfold asked
  split_ifs
  · exact ⟨_, _, _, List.tail_suffix _, List.suffix_rfl, List.suffix_rfl, rfl⟩
  · exact ⟨_, _, _, List.suffix_rfl, List.suffix_rfl, List.suffix_rfl, rfl⟩

theorem World.same_dockerCalled (w : World) :
    Same w { w with dockerFaults := w.dockerFaults.tail } :=
  ⟨_, _, _, List.suffix_rfl, List.tail_suffix _, List.suffix_rfl, rfl⟩

theorem World.RedisWorks.answers {w : World} (h : w.RedisWorks) : w.answers = true := by
  simp [World.answers, h.1, h.2]

namespace Same

variable {w w' w'' : World}

theorem refl (w : World) : Same w w :=
  ⟨_, _, _, List.suffix_rfl, List.suffix_rfl, List.suffix_rfl, rfl⟩

theorem trans (h : Same w w') (h' : Same w' w'') : Same w w'' := by
  obtain ⟨r, d, f, hr, hd, hf, rfl⟩ := h
  obtain ⟨r', d', f', hr', hd', hf', rfl⟩ := h'
  exact ⟨r', d', f', hr'.trans hr, hd'.trans hd, hf'.trans hf, rfl⟩

theorem of_reaches (h : ReflTransGen Same w w') : Same w w' := by
  induction h with
  | refl => exact refl w
  | tail _ hstep ih => exact ih.trans hstep

@[grind →] theorem tenants_eq (h : Same w w') : w'.tenants = w.tenants := by
  obtain ⟨_, _, _, _, _, _, rfl⟩ := h
  rfl

@[grind →] theorem redis_eq (h : Same w w') : w'.redis = w.redis := by
  obtain ⟨_, _, _, _, _, _, rfl⟩ := h
  rfl

@[grind →] theorem containers_eq (h : Same w w') : w'.containers = w.containers := by
  obtain ⟨_, _, _, _, _, _, rfl⟩ := h
  rfl

@[grind →] theorem fs_eq (h : Same w w') : w'.fs = w.fs := by
  obtain ⟨_, _, _, _, _, _, rfl⟩ := h
  rfl

@[grind →] theorem now_eq (h : Same w w') : w'.now = w.now := by
  obtain ⟨_, _, _, _, _, _, rfl⟩ := h
  rfl

@[grind →] theorem effects_eq (h : Same w w') : w'.effects = w.effects := by
  obtain ⟨_, _, _, _, _, _, rfl⟩ := h
  rfl

theorem dirAt_eq (h : Same w w') (host : Host) (path : PurePath) :
    w'.dirAt host path = w.dirAt host path := by
  rw [World.dirAt, World.dirAt, h.fs_eq]

theorem redisWorks (h : Same w w') (hw : w.RedisWorks) : w'.RedisWorks := by
  obtain ⟨r, _, _, hr, _, _, rfl⟩ := h
  exact ⟨hw.1, List.suffix_nil.mp (hw.2 ▸ hr)⟩

end Same

/-! ### Reading -/

section Reading

variable {α β : Type} {m : M α} {V : α → World → Prop} {w : World} {host : Host}
  {tenantId : String} {id : ℕ} {path : PurePath}

theorem does_lift {R : World → World → Prop} {x : Except Err α} {Q : α → World → Prop}
    (h : ∀ a, x = .ok a → Q a w) : Does R (lift x) Q w := by
  cases x with
  | ok a => exact Does.pure (h a rfl)
  | error e => exact Does.throw e

theorem redisCall_does : Does Same redisCall (fun _ w' => w.redisFaults.head? ≠ some true ∧
    w' = { w with redisFaults := w.redisFaults.tail }) w := by
  have hsame : Same w { w with redisFaults := w.redisFaults.tail } :=
    ⟨_, _, _, List.tail_suffix _, List.suffix_rfl, List.suffix_rfl, rfl⟩
  unfold redisCall
  refine Does.get_bind (Does.set_bind (.single hsame) ?_)
  exact Does.ite (fun _ => Does.throw _) fun hok => Does.pure ⟨hok, rfl⟩

theorem dockerCall_does : Does Same dockerCall (fun _ _ => True) w := by
  unfold dockerCall
  refine Does.get_bind (Does.set_bind (.single w.same_dockerCalled) ?_)
  exact Does.ite (fun _ => Does.throw _) fun _ => Does.pure trivial

theorem fileCall_does : Does Same fileCall (fun _ _ => True) w := by
  have hsame : Same w { w with fileFaults := w.fileFaults.tail } :=
    ⟨_, _, _, List.suffix_rfl, List.suffix_rfl, List.tail_suffix _, rfl⟩
  unfold fileCall
  refine Does.get_bind (Does.set_bind (.single hsame) ?_)
  exact Does.ite (fun _ => Does.throw _) fun _ => Does.pure trivial

theorem containersGet_does :
    Does Same (containersGet id) (fun c _ => w.containers.get id = some c) w := by
  unfold containersGet
  refine Does.bind (Does.changes dockerCall_does) fun _ t ht => Does.get_bind ?_
  rw [(Same.of_reaches ht.1).containers_eq]
  cases hget : w.containers.get id with
  | none => exact Does.throw _
  | some c => exact Does.pure rfl

theorem containersGetByName_does {name : String} : Does Same (containersGetByName name)
    (fun id _ => ∃ c, w.containers.get id = some c ∧ c.name = name) w := by
  unfold containersGetByName
  refine Does.bind (Does.changes dockerCall_does) fun _ t ht => Does.get_bind ?_
  rw [(Same.of_reaches ht.1).containers_eq]
  cases hfind : w.containers.entries.find? fun e => e.2.name = name with
  | none => exact Does.throw _
  | some e =>
    have hname : e.2.name = name := by simpa using List.find?_some hfind
    exact Does.pure ⟨e.2, Dict.mem_entries_iff.mp (List.mem_of_find?_eq_some hfind), hname⟩

theorem execRun_does : Does Same (execRun id) (fun _ _ => True) w := by
  unfold execRun
  refine Does.bind dockerCall_does fun _ t _ => Does.get_bind ?_
  cases t.containers.get id with
  | none => exact Does.throw _
  | some c => exact Does.pure trivial

theorem runSetup_does {commands : List Json} :
    Does Same (runSetup id commands) (fun _ _ => True) w := by
  induction commands generalizing w with
  | nil => exact Does.pure trivial
  | cons c commands ih => exact Does.bind execRun_does fun _ _ _ => ih

theorem isDir_does : Does Same (isDir host path) (fun b _ => b = w.dirAt host path) w := by
  unfold isDir
  refine Does.bind (Does.changes fileCall_does) fun _ t ht => Does.get_bind (Does.pure ?_)
  exact (Same.of_reaches ht.1).dirAt_eq host path

theorem readConfig_does : Does Same (readConfig host path) (fun v _ => v = .obj [] ∨
    ∃ place, path.locate host.cwd = some place ∧ w.fs.text place = some (.json v)) w := by
  unfold readConfig
  refine Does.bind (Does.changes fileCall_does) fun _ t ht => Does.get_bind ?_
  rw [(Same.of_reaches ht.1).fs_eq]
  cases hnode : (path.locate host.cwd).bind w.fs with
  | none => exact Does.pure (.inl rfl)
  | some node =>
    obtain ⟨place, hplace, hfs⟩ := Option.bind_eq_some_iff.mp hnode
    refine Does.tryCatch (Does.bind fileCall_does fun _ u _ => ?_)
      fun _ _ _ => Does.pure (.inl rfl)
    match node, hfs with
    | .file (.json v), hfs => exact Does.pure (.inr ⟨place, hplace, by rw [Fs.text, hfs]⟩)
    | .file (.text _), _ => exact Does.throw _
    | .dir, _ => exact Does.throw _

/-- The configuration in a file, if there is one. -/
def World.configAt (w : World) (host : Host) (path : PurePath) : Json :=
  match (path.locate host.cwd).bind w.fs.text with
  | some (.json v) => v
  | _ => .obj []

theorem fileCall_run : fileCall.run w =
    if w.fileFaults.head? = some true then
      .error (.other "file system") { w with fileFaults := w.fileFaults.tail }
    else .ok () { w with fileFaults := w.fileFaults.tail } := by
  simp only [fileCall, EStateM.run_bind, EStateM.run_get, EStateM.run_set]
  split_ifs <;> rfl

/-- What is read from a file, if asking whether it exists does not fail. -/
def World.readAt (w : World) (host : Host) (path : PurePath) : Json :=
  if w.fileFaults[1]? = some true then .obj [] else w.configAt host path

/-- How many calls reading a file makes. -/
def World.readCalls (w : World) (host : Host) (path : PurePath) : ℕ :=
  if (path.locate host.cwd).bind w.fs = none then 1 else 2

theorem readConfig_run : (readConfig host path).run w =
    if w.fileFaults.head? = some true then
      .error (.other "file system") { w with fileFaults := w.fileFaults.tail }
    else .ok (w.readAt host path)
      { w with fileFaults := w.fileFaults.drop (w.readCalls host path) } := by
  simp only [readConfig, EStateM.run_bind, fileCall_run, EStateM.run_get, World.readAt,
    World.readCalls, World.configAt]
  by_cases hfault : w.fileFaults.head? = some true
  · simp only [hfault, if_true]
  simp only [hfault, if_false]
  cases hnode : (path.locate host.cwd).bind w.fs with
  | none =>
    have htext : (path.locate host.cwd).bind w.fs.text = none := by
      simp only [Option.bind_eq_none_iff] at hnode ⊢
      exact fun place hplace => by simp [Fs.text, hnode place hplace]
    simp [htext]
  | some node =>
    obtain ⟨place, hplace, hnode⟩ := Option.bind_eq_some_iff.mp hnode
    have htext : (path.locate host.cwd).bind w.fs.text = w.fs.text place := by
      rw [hplace, Option.bind_some]
    have htail : w.fileFaults.tail.tail = w.fileFaults.drop 2 := by
      rw [← List.drop_one, ← List.drop_one, List.drop_drop]
    -- the second call reads the file
    simp only [tryCatch_run, EStateM.run_bind, fileCall_run, List.head?_tail, htail]
    by_cases hfault' : w.fileFaults[1]? = some true
    · simp [hfault']
    · simp only [hfault', if_false, htext, Fs.text, hnode]
      rcases node with - | (- | -) <;> rfl

/-- A file is read when no call fails. -/
theorem readConfig_run_nil (h : w.fileFaults = []) :
    (readConfig host path).run w = .ok (w.configAt host path) w := by
  have hdrop : w.fileFaults.drop (w.readCalls host path) = w.fileFaults := by rw [h, List.drop_nil]
  rw [readConfig_run, if_neg (by simp [h]), World.readAt, if_neg (by simp [h]), hdrop]

theorem containerExists_does : Does Same (containerExists id)
    (fun b _ => b = true → ∃ c, w.containers.get id = some c) w := by
  unfold containerExists
  refine Does.tryCatch (Does.bind containersGet_does fun c _ hc => ?_)
    fun _ _ _ => Does.pure (by simp)
  exact Does.pure fun _ => ⟨c, hc⟩

theorem dockerCall_run : dockerCall.run w =
    if w.dockerFaults.head? = some true then
      .error (.other "docker") { w with dockerFaults := w.dockerFaults.tail }
    else .ok () { w with dockerFaults := w.dockerFaults.tail } := by
  simp only [dockerCall, EStateM.run_bind, EStateM.run_get, EStateM.run_set]
  split_ifs <;> rfl

theorem containerExists_run : (containerExists id).run w =
    .ok (w.dockerFaults.head? ≠ some true && (w.containers.get id).isSome)
      { w with dockerFaults := w.dockerFaults.tail } := by
  simp only [containerExists, containersGet, dockerCall, tryCatch_run, EStateM.run_bind,
    EStateM.run_get, EStateM.run_set]
  by_cases hfault : w.dockerFaults.head? = some true
  · simp [hfault]
  · simp only [hfault, if_false, EStateM.run_pure]
    cases w.containers.get id with
    | none =>
      rw [Option.isSome_none, Bool.and_false]
      rfl
    | some c => simp [hfault]

theorem redisGet_run {key : String} : (redisGet key).run w =
    if w.redisFaults.head? = some true then
      .error (.other "redis") { w with redisFaults := w.redisFaults.tail }
    else .ok (w.redis.get key) { w with redisFaults := w.redisFaults.tail } := by
  simp only [redisGet, redisCall, bind_assoc, EStateM.run_bind, EStateM.run_get, EStateM.run_set]
  split_ifs <;> simp

theorem redisSet_run {key : String} {state : TenantState} : (redisSet key state).run w =
    if w.redisFaults.head? = some true then
      .error (.other "redis") { w with redisFaults := w.redisFaults.tail }
    else .ok () { w with
      redisFaults := w.redisFaults.tail
      redis := w.redis.set key state
      effects := w.effects ++ [.redisSet key state] } := by
  simp only [redisSet, redisCall, emit, bind_assoc, EStateM.run_bind, EStateM.run_get,
    EStateM.run_set]
  split_ifs <;> simp

theorem redisGet_does {key : String} :
    Does Same (redisGet key) (fun s _ => s = w.redis.get key) w := by
  unfold redisGet
  refine Does.bind redisCall_does ?_
  rintro _ t ⟨-, rfl⟩
  exact Does.get_bind (Does.pure rfl)

/-- `_load_state` returns, and how. -/
theorem loadState_run : (loadState tenantId).run w =
    .ok (if w.answers then w.redis.get (stateKey tenantId) else none) w.asked := by
  unfold loadState World.answers World.asked
  simp only [EStateM.run_bind, EStateM.run_get]
  cases hredis : w.hasRedis with
  | false => rfl
  | true =>
    simp only [if_true, tryCatch_run, redisGet_run]
    by_cases hfault : w.redisFaults.head? = some true <;> simp [hredis, hfault]

/-- `_save_state` returns, and how. -/
theorem saveState_run {state : TenantState} : (saveState state).run w =
    .ok () (if w.answers then w.asked.put state else w.asked) := by
  unfold saveState World.answers World.asked
  simp only [EStateM.run_bind, EStateM.run_get]
  cases hredis : w.hasRedis with
  | false => rfl
  | true =>
    simp only [if_true, tryCatch_run, redisSet_run]
    by_cases hfault : w.redisFaults.head? = some true <;> simp [hredis, hfault, World.put]

/-- A record that was loaded is there, and it is loaded when Redis works. -/
theorem loadState_does : Does Same (loadState tenantId)
    (fun s _ => (∀ state, s = some state → w.redis.get (stateKey tenantId) = some state) ∧
      (w.RedisWorks → s = w.redis.get (stateKey tenantId))) w := by
  refine Does.of_ok loadState_run (.single w.same_asked) ⟨?_, ?_⟩
  · intro state h
    split_ifs at h
    exact h
  · intro hw
    rw [if_pos hw.answers]

theorem getSavedState_run : (getSavedState tenantId).run w =
    .ok (((if w.answers then w.redis.get (stateKey tenantId) else none).map
      TenantState.configData).filter Json.truthy) w.asked := by
  simp [getSavedState, loadState_run]

end Reading

/-! ### Changes -/

/-- The container that a method beginning in `w` takes for the tenant's: the one in the cache, or
else the one of a record that says it is running. -/
inductive Known (tenantId : String) (w : World) : TenantContainer → Prop
  | entry {tc : TenantContainer} (h : w.tenants.get tenantId = some tc) : Known tenantId w tc
  | record {state : TenantState} {id : ℕ} (h : w.redis.get (stateKey tenantId) = some state)
      (hrun : state.runningContainer = some id) : Known tenantId w (state.toContainer id)

/-- Where the configuration that is saved for a stopped container comes from. -/
inductive Kept (host : Host) (tenantId : String) (w₀ w : World) (tc : TenantContainer) :
    Json → Prop
  | file {dir : PurePath} {place : Location} {v : Json} (hdir : tc.configDir = some dir)
      (hplace : (dir.join "config.json").locate host.cwd = some place)
      (htext : w.fs.text place = some (.json v)) (htruthy : v.truthy = true) :
      Kept host tenantId w₀ w tc v
  | record {state : TenantState} (h : w.redis.get (stateKey tenantId) = some state) :
      Kept host tenantId w₀ w tc state.configData
  | empty (h : w₀.RedisWorks → w.redis.get (stateKey tenantId) = none) :
      Kept host tenantId w₀ w tc (.obj [])

/-- What a provisioning makes of a configuration: the one it writes, the directory it mounts as
the workspace, the environment of the container and the configuration it saves. -/
structure Prepared (host : Host) (tenantId : String) (config written : Json)
    (workspace : PurePath) (environment saved : Json) : Prop where
  merged : ∃ setting, mergeSettings config = .ok (written, setting) ∧
    hostWorkspace host (tenantDir host tenantId) setting = .ok workspace
  injected : injectEnv host tenantId written = .ok (environment, saved)

/-- The workspace that `write_config` finds for a configuration, if it raises at neither. -/
def configWorkspace (host : Host) (tenantId : String) (config : Json) : Option PurePath :=
  match mergeSettings config with
  | .error _ => none
  | .ok (_, setting) =>
    match hostWorkspace host (tenantDir host tenantId) setting with
    | .error _ => none
    | .ok workspace => if (workspace.locate host.cwd).isSome then some workspace else none

/-- The directories that `write_config` makes, if no file is in the way: the tenant's, and then
the workspace. -/
def configDirs (host : Host) (tenantId : String) (config : Json) : List PurePath :=
  if ((tenantDir host tenantId).locate host.cwd).isSome then
    tenantDir host tenantId :: (configWorkspace host tenantId config).toList
  else []

/-- The volumes after a configured directory was bound, if it is one. -/
def mounted (host : Host) (w : World) (config : Json) (key bind : String)
    (volumes : Dict String Bind) : Except Err (Dict String Bind) :=
  let setting := (config.getD "gateway").getD key
  if setting.truthy then
    match resolvePath host setting with
    | .ok path =>
      .ok (if w.dirAt host path then volumes.set path.toString ⟨bind, "ro"⟩ else volumes)
    | .error e => .error e
  else .ok volumes

/-- `volumes` of a container. -/
def volumesOf (host : Host) (w : World) (dir workspace : PurePath) (config : Json) :
    Except Err (Dict String Bind) :=
  match mounted host w config "toolsDir" "/app/tenant_tools" (baseVolumes dir workspace) with
  | .ok volumes => mounted host w config "scriptsDir" "/app/tenant_scripts" volumes
  | .error e => .error e

/-- The records that a method for a tenant saves. -/
inductive Saves (host : Host) (tenantId : String) (config : Option Json) (w₀ w : World) :
    TenantState → Prop
  | missing {state : TenantState} (h : w.redis.get (stateKey tenantId) = some state) :
      Saves host tenantId config w₀ w state.markStopped
  | touched {state : TenantState} (h : w.redis.get (stateKey tenantId) = some state)
      (hrun : state.status = .running) :
      Saves host tenantId config w₀ w { state with lastActivity := w.now }
  | stopped {tc : TenantContainer} {kept : Json} (h : Known tenantId w₀ tc)
      (hkept : Kept host tenantId w₀ w tc kept) :
      Saves host tenantId config w₀ w
        { tenantId
          containerId := none
          port := tc.port
          configDir := tc.configDir
          configData := kept
          lastActivity := tc.lastActivity
          status := .stopped }
  | provisioned {c : Json} {id port : ℕ} {container : Container}
      {written environment saved : Json} {workspace : PurePath} (hc : config = some c)
      (hid : w.containers.get id = some container)
      (hname : container.name = containerName tenantId)
      (hconfig : Prepared host tenantId c written workspace environment saved)
      (hvalid : validName (containerName tenantId) = true) :
      Saves host tenantId config w₀ w
        { tenantId
          containerId := some id
          port
          configDir := some (tenantDir host tenantId)
          configData := saved
          lastActivity := w.now
          status := .running }

/-- One change made by a method for a tenant that began in `w₀`; `config` is the configuration it
provisions, if it does. -/
inductive Change (host : Host) (tenantId : String) (config : Option Json) (w₀ : World) :
    World → World → Prop
  | same {w w' : World} (h : Same w w') : Change host tenantId config w₀ w w'
  | uncache {w : World} :
      Change host tenantId config w₀ w { w with tenants := w.tenants.erase tenantId }
  | refresh {w : World} {tc : TenantContainer} (h : w.tenants.get tenantId = some tc) :
      Change host tenantId config w₀ w
        { w with tenants := w.tenants.set tenantId { tc with lastActivity := w.now } }
  | restore {w : World} {state : TenantState} {id : ℕ}
      (h : w.redis.get (stateKey tenantId) = some state)
      (hrun : state.runningContainer = some id) :
      Change host tenantId config w₀ w
        { w with tenants := w.tenants.set tenantId (state.toContainer id) }
  | provisioned {w : World} {c : Json} {id port : ℕ} {container : Container}
      (hc : config = some c) (hid : w.containers.get id = some container)
      (hname : container.name = containerName tenantId)
      (hvalid : validName (containerName tenantId) = true) :
      Change host tenantId config w₀ w
        { w with
          tenants := w.tenants.set tenantId
            { tenantId
              containerId := id
              port
              configDir := some (tenantDir host tenantId)
              lastActivity := w.now } }
  | save {w : World} {state : TenantState} (h : Saves host tenantId config w₀ w state) :
      Change host tenantId config w₀ w (w.put state)
  | stop {w : World} {tc : TenantContainer} {container : Container} (h : Known tenantId w₀ tc)
      (hget : w.containers.get tc.containerId = some container) :
      Change host tenantId config w₀ w
        { w with
          containers := w.containers.set tc.containerId { container with running := false }
          effects := w.effects ++ [.stop tc.containerId] }
  | remove {w : World} {id : ℕ} {container : Container}
      (h : (∃ tc, Known tenantId w₀ tc ∧ tc.containerId = id) ∨
        container.name = containerName tenantId)
      (hget : w.containers.get id = some container) :
      Change host tenantId config w₀ w
        { w with containers := w.containers.erase id, effects := w.effects ++ [.remove id] }
  | build {w : World} {image : String} :
      Change host tenantId config w₀ w { w with images := w.images ++ [image] }
  | mkdir {w : World} {c : Json} {path : PurePath} {fs : Fs}
      (h : w.fs.makeDirs (placesOf host.cwd path) = some fs) (hc : config = some c)
      (hpath : path ∈ configDirs host tenantId c) :
      Change host tenantId config w₀ w { w with fs }
  | write {w : World} {c : Json} {place : Location} {fs : Fs} {written setting : Json}
      (hc : config = some c) (hplace : (configPath host tenantId).locate host.cwd = some place)
      (hmerge : mergeSettings c = .ok (written, setting))
      (hdirs : ∀ path ∈ configDirs host tenantId c, ∀ k ∈ placesOf host.cwd path,
        w.fs k = some .dir)
      (hwrite : w.fs.writeFile place (.json written) = some fs)
      (hworkspace : (configWorkspace host tenantId c).isSome = true) :
      Change host tenantId config w₀ w
        { w with
          fs
          effects := w.effects ++ [.writeText (configPath host tenantId) (.json written)] }
  | run {w : World} {c : Json} {image : String} {port : ℕ} {written environment saved : Json}
      {workspace : PurePath} {volumes : Dict String Bind} (hc : config = some c)
      (hconfig : Prepared host tenantId c written workspace environment saved)
      (hdir : w.dirAt host workspace = true)
      (hvolumes : volumesOf host w (tenantDir host tenantId) workspace saved = .ok volumes) :
      Change host tenantId config w₀ w
        { w with
          containers := w.containers.set w.nextId
            { name := containerName tenantId, image, port, environment, volumes, running := true }
          nextId := w.nextId + 1
          effects := w.effects ++
            [.run w.nextId
              { name := containerName tenantId, image, port, environment, volumes, running := true }
              saved] }

/-! ### Effects -/

/-- From one world to the next, the effects added all satisfy `P`. -/
def Adds (P : Effect → Prop) (w w' : World) : Prop :=
  ∃ es, w'.effects = w.effects ++ es ∧ ∀ e ∈ es, P e

/-- The effects since a world. -/
def World.effectsSince (w₀ w : World) : List Effect := w.effects.drop w₀.effects.length

/-- What is added on the way is among the effects in the end. -/
theorem mem_effectsSince {w₀ w : World} {e : Effect} {es : List Effect} (h : w₀.effects <+: es)
    (h' : es ++ [e] <+: w.effects) : e ∈ w₀.effectsSince w := by
  obtain ⟨es₁, rfl⟩ := h
  obtain ⟨es₂, hes⟩ := h'
  rw [World.effectsSince, ← hes, List.append_assoc, List.append_assoc, List.drop_left]
  simp

namespace Adds

variable {P : Effect → Prop} {w w' w'' : World} {e : Effect}

theorem refl (P : Effect → Prop) (w : World) : Adds P w w := ⟨[], by simp, by simp⟩

theorem of_eq (h : Adds P w w') (heq : w''.effects = w'.effects) : Adds P w w'' := by
  obtain ⟨es, hes, hP⟩ := h
  exact ⟨es, heq.trans hes, hP⟩

theorem snoc (h : Adds P w w') (heq : w''.effects = w'.effects ++ [e]) (he : P e) :
    Adds P w w'' := by
  obtain ⟨es, hes, hP⟩ := h
  refine ⟨es ++ [e], by rw [heq, hes, List.append_assoc], ?_⟩
  intro e' he'
  rcases List.mem_append.mp he' with he' | he'
  · exact hP e' he'
  · exact List.mem_singleton.mp he' ▸ he

theorem trans (h : Adds P w w') (h' : Adds P w' w'') : Adds P w w'' := by
  obtain ⟨es, hes, hP⟩ := h
  obtain ⟨es', hes', hP'⟩ := h'
  refine ⟨es ++ es', by rw [hes', hes, List.append_assoc], fun e he => ?_⟩
  rcases List.mem_append.mp he with he | he
  · exact hP e he
  · exact hP' e he

/-- What no added effect changes. -/
theorem eq_of_snoc {β : Type*} {f : List Effect → β} (hf : ∀ es e, P e → f (es ++ [e]) = f es)
    (h : Adds P w w') : f w'.effects = f w.effects := by
  obtain ⟨es, hes, hP⟩ := h
  rw [hes]
  clear hes
  induction es using List.reverseRecOn with
  | nil => rw [List.append_nil]
  -- the effects are added one after the other
  | append_singleton es e ih =>
    rw [← List.append_assoc, hf _ e (hP e (by simp)),
      ih fun e' he' => hP e' (List.mem_append_left _ he')]

theorem of_mem_effectsSince (h : Adds P w w') (he : e ∈ w.effectsSince w') : P e := by
  obtain ⟨es, hes, hP⟩ := h
  rw [World.effectsSince, hes, List.drop_left] at he
  exact hP e he

end Adds

/-- A change that `R` allows and that leaves the files alone. -/
def LeavesFiles (R : World → World → Prop) (w w' : World) : Prop := R w w' ∧ w'.fs = w.fs

section Methods

variable {α : Type} {host : Host} {tenantId : String} {config : Option Json} {w₀ w w' : World}

theorem Change.redisWorks (h : Change host tenantId config w₀ w w') (hw : w.RedisWorks) :
    w'.RedisWorks := by
  cases h with
  | same h => exact h.redisWorks hw
  | _ => exact hw

theorem redisWorks_of_reaches (h : ReflTransGen (Change host tenantId config w₀) w w')
    (hw : w.RedisWorks) : w'.RedisWorks :=
  kept_of_reaches (fun _ _ => Change.redisWorks) h hw

theorem LeavesFiles.of_same {R : World → World → Prop} (hR : ∀ w w', Same w w' → R w w')
    (h : Same w w') : LeavesFiles R w w' := ⟨hR w w' h, h.fs_eq⟩

theorem LeavesFiles.of_reaches {R : World → World → Prop} (h : ReflTransGen (LeavesFiles R) w w') :
    LeavesFiles (ReflTransGen R) w w' := by
  induction h with
  | refl => exact ⟨.refl, rfl⟩
  | tail _ hstep ih => exact ⟨ih.1.tail hstep.1, hstep.2.trans ih.2⟩

/-- A program that only reads may be described by any relation that allows calls. -/
theorem does_of_reading {R : World → World → Prop} {m : M α} {V : α → World → Prop}
    (hR : ∀ w w', Same w w' → R w w') (h : Does Same m V w) :
    Does R m (fun a w' => Same w w' ∧ V a w') w :=
  (h.changes.mono fun _ _ _ ht => ⟨Same.of_reaches ht.1, ht.2⟩).weaken fun _ =>
    ReflTransGen.mono hR _ _

theorem does_reading {m : M α} {V : α → World → Prop} (h : Does Same m V w) :
    Does (Change host tenantId config w₀) m (fun a w' => Same w w' ∧ V a w') w :=
  does_of_reading (fun _ _ => .same) h

/-- Saving a record leaves the files alone. -/
theorem saveState_keeps_files {state : TenantState}
    (h : Saves host tenantId config w₀ w.asked state) :
    Does (LeavesFiles (Change host tenantId config w₀)) (saveState state) (fun _ w' =>
      w' = if w.answers then w.asked.put state else w.asked) w := by
  have hasked : LeavesFiles (Change host tenantId config w₀) w w.asked :=
    .of_same (fun _ _ => .same) w.same_asked
  refine Does.of_ok saveState_run ?_ rfl
  split_ifs
  · exact (ReflTransGen.single hasked).tail ⟨.save h, rfl⟩
  · exact .single hasked

theorem saveState_does {state : TenantState} (h : Saves host tenantId config w₀ w.asked state) :
    Does (Change host tenantId config w₀) (saveState state) (fun _ w' =>
      w' = if w.answers then w.asked.put state else w.asked) w :=
  (saveState_keeps_files h).weaken fun _ hsteps => (LeavesFiles.of_reaches hsteps).1

/-! ### Activity -/

theorem getTenant_does (host : Host) (config : Option Json) :
    Does (Change host tenantId config w) (getTenant tenantId)
    (fun _ _ => True) w := by
  unfold getTenant
  refine Does.get_bind ?_
  cases hentry : w.tenants.get tenantId with
  | some tc => exact Does.modify_bind (.single (.refresh hentry)) (Does.pure trivial)
  | none =>
    refine Does.bind (does_reading loadState_does) ?_
    rintro loaded t ⟨hsame, hloaded, -⟩
    cases loaded with
    | none => exact Does.pure trivial
    | some state =>
      have hstate := hloaded state rfl
      dsimp only
      cases hrun : state.runningContainer with
      | none => exact Does.pure trivial
      | some id =>
        refine Does.ite (fun _ => ?_) fun _ => Does.pure trivial
        refine Does.bind (does_reading containerExists_does) ?_
        rintro found u ⟨hsame', -⟩
        refine Does.ite (fun _ => ?_) fun _ => ?_
        · refine Does.modify_bind (.single (.restore ?_ hrun)) (Does.pure trivial)
          rw [(hsame.trans hsame').redis_eq, hstate]
        · refine Does.bind (saveState_does (.missing ?_)) fun _ _ _ => Does.pure trivial
          rw [((hsame.trans hsame').trans u.same_asked).redis_eq, hstate]

/-- `touch` writes the time to the record of a tenant in the cache, if it says running. -/
theorem touch_does (host : Host) (config : Option Json) :
    Does (Change host tenantId config w) (touch tenantId)
    (fun _ w' => w.RedisWorks → (w.tenants.get tenantId).isSome →
      (∀ state, w.redis.get (stateKey tenantId) = some state → state.tenantId = tenantId) →
        ∀ state, w'.redis.get (stateKey tenantId) = some state → state.status = .running →
          state.lastActivity = w.now) w := by
  unfold touch
  refine Does.get_bind ?_
  cases hentry : w.tenants.get tenantId with
  | none => exact Does.pure fun _ h => by simp at h
  | some tc =>
    refine Does.modify_bind (.single (.refresh hentry)) (Does.ite (fun _ => ?_) fun hno => ?_)
    · refine Does.bind (does_reading loadState_does) ?_
      rintro loaded t ⟨hsame, hloaded, hload⟩
      cases loaded with
      | none =>
        -- no record was loaded, so there is none
        refine Does.pure fun hw _ _ state hstate => ?_
        rw [hsame.redis_eq, ← hload hw] at hstate
        simp at hstate
      | some state =>
        have hstate := hloaded state rfl
        refine Does.ite (fun hrun => ?_) fun hrun => ?_
        · -- the record that was loaded is saved with the new activity
          have hsame' := hsame.trans t.same_asked
          have hnow : w.now = t.asked.now := hsame'.now_eq.symm
          rw [hnow]
          refine (saveState_does (.touched (hsame'.redis_eq ▸ hstate) hrun)).mono ?_
          rintro _ u - hu hw - htenant state' hstate' -
          have ht : state.tenantId = tenantId := htenant state hstate
          rw [if_pos (hsame.redisWorks hw).answers] at hu
          rw [hu, World.put, ht, Dict.get_set_self] at hstate'
          rw [← Option.some_inj.mp hstate']
        · refine Does.pure fun _ _ _ state' hstate' hrun' => ?_
          rw [hsame.redis_eq, hstate] at hstate'
          exact absurd (Option.some_inj.mp hstate' ▸ hrun') hrun
    · exact Does.pure fun hw => absurd hw.1 hno

/-! ### Stopping -/

section Stopping

variable {tc : TenantContainer} {loaded : Option TenantState}

theorem obj_nil_of_not_truthy {v : Json} (hobj : v.isObj = true) (h : ¬v.truthy = true) :
    v = .obj [] := by
  cases v with
  | obj kvs => simpa [Json.truthy] using h
  | _ => simp [Json.isObj] at hobj

theorem configFile_does : Does Same (configFile host tc)
    (fun v _ => v.truthy = true → Kept host tenantId w₀ w tc v) w := by
  unfold configFile
  cases hdir : tc.configDir with
  | none => exact Does.pure (by simp)
  | some dir =>
    refine Does.mono readConfig_does ?_
    rintro v t - (rfl | ⟨place, hplace, htext⟩) htruthy
    · simp at htruthy
    · exact .file hdir hplace htext htruthy

theorem configToSave_does
    (hloaded : ∀ state, loaded = some state → w.redis.get (stateKey tenantId) = some state)
    (hworks : w₀.RedisWorks → w.RedisWorks) :
    Does Same (configToSave host tenantId tc loaded)
      (fun v _ => v.isObj = true → Kept host tenantId w₀ w tc v) w := by
  have hfile : Does Same (configFile host tc)
      (fun v _ => v.truthy = true → Kept host tenantId w₀ w tc v) w := configFile_does
  unfold configToSave
  refine Does.bind hfile.changes ?_
  rintro fromFile t ⟨hsame, hfrom⟩
  have hsame := Same.of_reaches hsame
  refine Does.ite (fun htruthy => Does.pure fun _ => ?_) fun hfalsy => ?_
  · -- a configuration that is not empty comes from the file or from the loaded record
    by_cases hfile : fromFile.truthy = true
    · simpa only [Json.or, if_pos hfile] using hfrom hfile
    · simp only [Json.or, if_neg hfile] at htruthy ⊢
      cases loaded with
      | none => exact absurd htruthy hfile
      | some state => exact .record (hloaded state rfl)
  · refine Does.bind loadState_does ?_
    rintro state u ⟨hstate, hredis⟩
    refine Does.pure fun hobj => ?_
    rw [hsame.redis_eq] at hstate hredis
    cases state with
    | some state => exact .record (hstate state rfl)
    | none =>
      rw [Option.map_none, Option.getD_none] at hobj ⊢
      rw [obj_nil_of_not_truthy hobj hfalsy]
      exact .empty fun hw => (hredis (hsame.redisWorks (hworks hw))).symm

theorem Kept.of_same {v : Json} (hsame : Same w w') (h : Kept host tenantId w₀ w tc v) :
    Kept host tenantId w₀ w' tc v := by
  cases h with
  | file hdir hplace htext htruthy => exact .file hdir hplace (hsame.fs_eq ▸ htext) htruthy
  | record h => exact .record (hsame.redis_eq ▸ h)
  | empty h => exact .empty (hsame.redis_eq ▸ h)

/-- Removing a container stops it and takes it away, and otherwise only calls Docker. -/
theorem removeContainer_does {R : World → World → Prop} {id : ℕ}
    (hcall : ∀ w, R w { w with dockerFaults := w.dockerFaults.tail })
    (hstop : ∀ w c, w.containers.get id = some c → R w
      { w with
        containers := w.containers.set id { c with running := false }
        effects := w.effects ++ [.stop id] })
    (hremove : ∀ w c, w.containers.get id = some c → R w
      { w with containers := w.containers.erase id, effects := w.effects ++ [.remove id] }) :
    Does R (removeContainer id) (fun _ _ => True) w := by
  have hdocker (u : World) : Does R dockerCall (fun _ _ => True) u := by
    unfold dockerCall
    refine Does.get_bind (Does.set_bind (.single (hcall u)) ?_)
    exact Does.ite (fun _ => Does.throw _) fun _ => Does.pure trivial
  have hcontainersGet (u : World) : Does R (containersGet id) (fun _ _ => True) u := by
    unfold containersGet
    refine Does.bind (hdocker u) fun _ t _ => Does.get_bind ?_
    cases t.containers.get id with
    | none => exact Does.throw _
    | some c => exact Does.pure trivial
  have hcontainerStop (u : World) : Does R (containerStop id) (fun _ _ => True) u := by
    unfold containerStop
    refine Does.bind (hdocker u) fun _ t _ => Does.get_bind ?_
    cases hget : t.containers.get id with
    | none => exact Does.throw _
    | some c => exact Does.of_ok rfl (.single (hstop t c hget)) trivial
  have hcontainerRemove (u : World) : Does R (containerRemove id false) (fun _ _ => True) u := by
    unfold containerRemove
    refine Does.bind (hdocker u) fun _ t _ => Does.get_bind ?_
    cases hget : t.containers.get id with
    | none => exact Does.throw _
    | some c =>
      refine Does.ite (fun _ => Does.throw _) fun _ => ?_
      exact Does.of_ok rfl (.single (hremove t c hget)) trivial
  unfold removeContainer
  refine Does.tryCatch ?_ fun _ _ _ => Does.pure trivial
  refine Does.bind (hcontainersGet _) fun _ _ _ => ?_
  exact Does.bind (hcontainerStop _) fun _ _ _ => hcontainerRemove _

/-- From one world to the next, containers were stopped or removed and Docker was called. -/
def Removed (w w' : World) : Prop :=
  ∃ containers faults es,
    w' = { w with containers, dockerFaults := faults, effects := w.effects ++ es } ∧
      ∀ e ∈ es, ∃ id, e = .stop id ∨ e = .remove id

theorem Removed.refl (w : World) : Removed w w :=
  ⟨w.containers, w.dockerFaults, [], by rw [List.append_nil], by simp⟩

theorem Removed.snoc {containers : Dict ℕ Container} {faults : List Bool} {e : Effect}
    (h : Removed w w') (he : ∃ id, e = .stop id ∨ e = .remove id) :
    Removed w { w' with containers, dockerFaults := faults, effects := w'.effects ++ [e] } := by
  obtain ⟨_, _, es, rfl, hes⟩ := h
  refine ⟨_, _, es ++ [e], by rw [List.append_assoc], fun e' he' => ?_⟩
  rcases List.mem_append.mp he' with he' | he'
  · exact hes e' he'
  · exact List.mem_singleton.mp he' ▸ he

/-- Removing a container at the end of `stop_tenant`, which logs every exception of Docker. -/
theorem removeContainer_run (id : ℕ) (w : World) : ∃ w',
    (if w.hasClient then removeContainer id else pure ()).run w = .ok () w' ∧ Removed w w' := by
  split_ifs
  swap
  · exact ⟨w, rfl, .refl w⟩
  obtain ⟨_, w', hrun⟩ := tryCatch_returns
    (m := do let _ ← containersGet id; containerStop id; containerRemove id false) () w
  refine ⟨w', hrun, ?_⟩
  have hdoes : Does (fun u v => Removed w u → Removed w v) (removeContainer id)
      (fun _ _ => True) w := by
    refine removeContainer_does (fun u h => ?_) (fun _ _ _ h => h.snoc ⟨id, .inl rfl⟩)
      fun _ _ _ h => h.snoc ⟨id, .inr rfl⟩
    obtain ⟨_, _, es, rfl, hes⟩ := h
    exact ⟨_, _, es, rfl, hes⟩
  have hend := hdoes.keeps (fun _ _ h => h) (Removed.refl w)
  rwa [removeContainer, endState_of_ok hrun] at hend

theorem stopContainer_does (h : Known tenantId w₀ tc)
    (hloaded : ∀ state, loaded = some state → w.redis.get (stateKey tenantId) = some state)
    (hworks : w₀.RedisWorks → w.RedisWorks) :
    Does (LeavesFiles (Change host tenantId config w₀)) (stopContainer host tenantId tc loaded)
      (fun _ _ => True) w := by
  unfold stopContainer
  refine Does.bind (does_of_reading (fun _ _ => .of_same fun _ _ => .same)
    (configToSave_does hloaded hworks)) ?_
  rintro kept t ⟨hsame, hkept⟩
  refine Does.ite (fun _ => Does.throw _) fun hobj => ?_
  have hkept := hkept (by simpa using hobj)
  refine Does.bind (saveState_keeps_files
    (.stopped h (hkept.of_same (hsame.trans t.same_asked)))) ?_
  intro _ u _
  refine Does.get_bind (Does.ite (fun _ => ?_) fun _ => Does.pure trivial)
  exact removeContainer_does (fun v => ⟨.same v.same_dockerCalled, rfl⟩)
    (fun _ _ hget => ⟨.stop h hget, rfl⟩) fun _ _ hget => ⟨.remove (.inl ⟨tc, h, rfl⟩) hget, rfl⟩

/-- Stopping a tenant leaves the files alone. -/
theorem stopTenant_keeps_files : Does (LeavesFiles (Change host tenantId config w))
    (stopTenant host tenantId) (fun _ _ => True) w := by
  unfold stopTenant
  refine Does.get_bind ?_
  cases hentry : w.tenants.get tenantId with
  | some tc =>
    refine Does.set_bind (.single ⟨.uncache, rfl⟩) ?_
    exact stopContainer_does (.entry hentry) (by simp) fun hw => hw
  | none =>
    refine Does.bind (does_of_reading (fun _ _ => .of_same fun _ _ => .same) loadState_does) ?_
    rintro loaded t ⟨hsame, hloaded, -⟩
    cases loaded with
    | none => exact Does.pure trivial
    | some state =>
      have hstate := hloaded state rfl
      dsimp only
      cases hrun : state.runningContainer with
      | none => exact Does.pure trivial
      | some id =>
        refine stopContainer_does (.record hstate hrun) ?_ hsame.redisWorks
        rintro _ ⟨⟩
        rw [hsame.redis_eq, hstate]

theorem stopTenant_does :
    Does (Change host tenantId config w) (stopTenant host tenantId) (fun _ _ => True) w :=
  stopTenant_keeps_files.weaken fun _ h => (LeavesFiles.of_reaches h).1

end Stopping

end Methods

end Nanogate.Tenants
