import Nanogate.Python.Dict
import Nanogate.Python.Json
import Nanogate.Python.Path

/-!
# What a gateway process talks to

The tenants of a gateway live in four places: the manager's cache, a record in Redis,
a container in Docker and a directory with the tenant's configuration. Every call to
Redis, to Docker or to the file system may fail; which calls do is part of the world, one
plan for each of the three.

The calls that change something outside the process are recorded as effects; no call
reads them.

## Main definitions

* `TenantContainer`, `TenantState` — the cache entry and the record of a tenant
* `Host` — what does not change: directories, environment variables, path resolution
* `World` — everything that does
* `M` — programs over the world; an exception keeps what was done before it
* `redisCall`, `dockerCall`, `fileCall` and the calls built from them
-/

namespace Nanogate.Tenants

open Nanogate.Python

/-! ### Data -/

/-- An exception. Only the kinds that some handler tells apart are kept apart. -/
inductive Err where
  /-- `docker.errors.NotFound` -/
  | notFound
  /-- `docker.errors.ImageNotFound` -/
  | imageNotFound
  | other (what : String)
  deriving DecidableEq, Repr

/-- A `TenantContainer`, the entry of the cache. `lastActivity` is in microseconds. The
directory is kept as a path, which its string is parsed back to. -/
structure TenantContainer where
  tenantId : String
  containerId : ℕ
  port : ℕ
  configDir : Option PurePath
  lastActivity : Int
  deriving DecidableEq

/-- `"running" | "stopped"` -/
inductive Status where
  | running
  | stopped
  deriving DecidableEq, Repr

/-- A `TenantState`, the record in Redis; an empty `container_id` or `config_dir` is `none`. The
record is kept as it is: `model_dump_json` and `model_validate_json` are taken to be inverse. -/
structure TenantState where
  tenantId : String
  containerId : Option ℕ
  port : ℕ
  configDir : Option PurePath
  configData : Json
  lastActivity : Int
  status : Status
  deriving DecidableEq

/-- The entry of `volumes` for a host directory. -/
structure Bind where
  bind : String
  mode : String
  deriving DecidableEq, Repr

/-- A Docker container. -/
structure Container where
  name : String
  image : String
  port : ℕ
  environment : Json
  volumes : Dict String Bind
  running : Bool

/-- What is at a place of the file system. -/
inductive Node where
  | dir
  | file (text : FileText)
  deriving DecidableEq

/-- A file system. -/
abbrev Fs := Location → Option Node

/-- A change outside the process. -/
inductive Effect where
  | redisSet (key : String) (state : TenantState)
  | writeText (path : PurePath) (text : FileText)
  /-- A container was started; `config` is the configuration it was started from. -/
  | run (id : ℕ) (container : Container) (config : Json)
  | stop (id : ℕ)
  | remove (id : ℕ)

/-! ### The world -/

/-- What the gateway process finds and nothing changes. -/
structure Host where
  baseDir : PurePath
  cwd : Location
  environ : String → Option String
  /-- `Path(s).expanduser().resolve()` -/
  resolve : String → Except Err PurePath
  /-- There is a `Dockerfile` next to the sources. -/
  hasDockerfile : Bool

/-- The state of the manager and of everything it talks to. -/
structure World where
  /-- `self._redis` is not `None`. -/
  hasRedis : Bool
  /-- `self._client` is not `None`. -/
  hasClient : Bool
  tenants : Dict String TenantContainer
  redis : Dict String TenantState
  containers : Dict ℕ Container
  nextId : ℕ
  images : List String
  fs : Fs
  /-- `time.time()`, in microseconds. -/
  now : Int
  freePort : ℕ
  /-- Which of the next calls fail; those beyond the list succeed. -/
  redisFaults : List Bool
  dockerFaults : List Bool
  fileFaults : List Bool
  effects : List Effect

/-- Programs over the world. -/
abbrev M := EStateM Err World

/-- Raise the exception of a pure computation. -/
def lift {α : Type} : Except Err α → M α
  | .ok a => pure a
  | .error e => throw e

/-- Record an effect. -/
def emit (e : Effect) : M Unit := modify fun w => { w with effects := w.effects ++ [e] }

/-! ### Redis -/

/-- One call to Redis. -/
def redisCall : M Unit := do
  let w ← get
  set { w with redisFaults := w.redisFaults.tail }
  if w.redisFaults.head? = some true then throw (.other "redis")

/-- `GET` of a record. -/
def redisGet (key : String) : M (Option TenantState) := do
  redisCall
  let w ← get
  pure (w.redis.get key)

/-- `SET` of a record. -/
def redisSet (key : String) (state : TenantState) : M Unit := do
  redisCall
  modify fun w => { w with redis := w.redis.set key state }
  emit (.redisSet key state)

/-! ### Docker -/

/-- One call to Docker. -/
def dockerCall : M Unit := do
  let w ← get
  set { w with dockerFaults := w.dockerFaults.tail }
  if w.dockerFaults.head? = some true then throw (.other "docker")

/-- `containers.get(id)` -/
def containersGet (id : ℕ) : M Container := do
  dockerCall
  let w ← get
  match w.containers.get id with
  | some container => pure container
  | none => throw .notFound

/-- `containers.get(name)`, the id of the container found. -/
def containersGetByName (name : String) : M ℕ := do
  dockerCall
  let w ← get
  match w.containers.entries.find? fun e => e.2.name = name with
  | some e => pure e.1
  | none => throw .notFound

/-- `container.stop(timeout=5)` -/
def containerStop (id : ℕ) : M Unit := do
  dockerCall
  let w ← get
  match w.containers.get id with
  | some container =>
    set { w with containers := w.containers.set id { container with running := false } }
    emit (.stop id)
  | none => throw .notFound

/-- `container.remove(force=force)` -/
def containerRemove (id : ℕ) (force : Bool) : M Unit := do
  dockerCall
  let w ← get
  match w.containers.get id with
  | some container =>
    if container.running && !force then throw (.other "the container is running")
    else
      set { w with containers := w.containers.erase id }
      emit (.remove id)
  | none => throw .notFound

/-- The names Docker accepts, after a prefix that starts with a letter. -/
def validName (name : String) : Bool :=
  name.toList.all fun c => c.isAlphanum || c = '_' || c = '.' || c = '-'

/-- `containers.run(…)` of a container started from `config`; its id. -/
def containersRun (container : Container) (config : Json) : M ℕ := do
  dockerCall
  let w ← get
  if container.image ∉ w.images then throw .imageNotFound
  else if !validName container.name then throw (.other "invalid container name")
  else if w.containers.entries.any fun e => e.2.name = container.name then
    throw (.other "the container name is in use")
  else
    set { w with containers := w.containers.set w.nextId container, nextId := w.nextId + 1 }
    emit (.run w.nextId container config)
    pure w.nextId

/-- `container.exec_run(cmd)`, whose output is only logged. -/
def execRun (id : ℕ) : M Unit := do
  dockerCall
  let w ← get
  match w.containers.get id with
  | some _ => pure ()
  | none => throw .notFound

/-! ### Files -/

namespace Fs

variable (fs : Fs)

/-- The text at a place. -/
def text (place : Location) : Option FileText :=
  match fs place with
  | some (.file text) => some text
  | _ => none

/-- Make directories of all these places that do not exist; none may be a file. -/
def makeDirs (places : List Location) : Option Fs :=
  if places.any fun place => (fs.text place).isSome then none
  else some fun place => if place ∈ places ∧ fs place = none then some .dir else fs place

/-- Write a file, in a directory that exists. -/
def writeFile (place : Location) (text : FileText) : Option Fs :=
  if fs place = some .dir ∨ fs place.dropLast ≠ some .dir then none
  else some (Function.update fs place (some (.file text)))

variable {fs} {fs' : Fs} {place k : Location} {places : List Location}

/-- Making directories leaves every file as it is. -/
theorem text_makeDirs (h : fs.makeDirs places = some fs') : fs'.text k = fs.text k := by
  unfold makeDirs at h
  split_ifs at h
  obtain rfl := Option.some_inj.mp h
  simp only [text]
  split_ifs with hk
  · rw [hk.2]
  · rfl

theorem dir_makeDirs_of_mem (h : fs.makeDirs places = some fs') (hk : k ∈ places) :
    fs' k = some .dir := by
  unfold makeDirs at h
  split_ifs at h with hfile
  obtain rfl := Option.some_inj.mp h
  have hnot : fs.text k = none := by
    simpa using fun hsome => hfile (List.any_eq_true.mpr ⟨k, hk, hsome⟩)
  dsimp only
  split_ifs with hnone
  · rfl
  · cases hnode : fs k with
    | none => exact absurd ⟨hk, hnode⟩ hnone
    | some node =>
      cases node with
      | dir => rfl
      | file t => simp [text, hnode] at hnot

theorem dir_makeDirs (h : fs.makeDirs places = some fs') (hk : fs k = some .dir) :
    fs' k = some .dir := by
  unfold makeDirs at h
  split_ifs at h
  obtain rfl := Option.some_inj.mp h
  simp [hk]

/-- Where no file is in the way, directories can be made. -/
theorem makeDirs_of_free (h : ∀ k ∈ places, fs.text k = none) :
    ∃ fs', fs.makeDirs places = some fs' := by
  unfold makeDirs
  rw [if_neg (by simpa using h)]
  exact ⟨_, rfl⟩

theorem makeDirs_of_notMem (h : fs.makeDirs places = some fs') (hk : k ∉ places) :
    fs' k = fs k := by
  unfold makeDirs at h
  split_ifs at h
  obtain rfl := Option.some_inj.mp h
  simp [hk]

theorem writeFile_of_parent (t : FileText) (h : fs place ≠ some .dir)
    (hparent : fs place.dropLast = some .dir) : ∃ fs', fs.writeFile place t = some fs' := by
  unfold writeFile
  rw [if_neg (by simp [h, hparent])]
  exact ⟨_, rfl⟩

theorem text_writeFile {t : FileText} (h : fs.writeFile place t = some fs') :
    fs'.text k = if k = place then some t else fs.text k := by
  unfold writeFile at h
  split_ifs at h
  obtain rfl := Option.some_inj.mp h
  by_cases hk : k = place <;> simp [text, hk]

theorem writeFile_of_ne {t : FileText} (h : fs.writeFile place t = some fs') (hk : k ≠ place) :
    fs' k = fs k := by
  unfold writeFile at h
  split_ifs at h
  obtain rfl := Option.some_inj.mp h
  exact Function.update_of_ne hk _ _

/-- A file is not written over a directory. -/
theorem dir_writeFile {t : FileText} (h : fs.writeFile place t = some fs')
    (hk : fs k = some .dir) : fs' k = some .dir := by
  unfold writeFile at h
  split_ifs at h with hdir
  obtain rfl := Option.some_inj.mp h
  have hne : k ≠ place := by
    rintro rfl
    exact hdir (.inl hk)
  rw [Function.update_of_ne hne, hk]

end Fs

/-- One call to the file system. -/
def fileCall : M Unit := do
  let w ← get
  set { w with fileFaults := w.fileFaults.tail }
  if w.fileFaults.head? = some true then throw (.other "file system")

/-- The path of the first `n` components. -/
def ancestor (path : PurePath) (n : ℕ) : PurePath where
  root := path.root
  parts := path.parts.take n
  components c hc := path.components c (List.mem_of_mem_take hc)

/-- The places a path passes through, from its root to itself. -/
def placesOf (cwd : Location) (path : PurePath) : List Location :=
  (List.range (path.parts.length + 1)).filterMap fun n => (ancestor path n).locate cwd

theorem mem_placesOf {cwd : Location} {path : PurePath} {place : Location}
    (h : path.locate cwd = some place) : place ∈ placesOf cwd path := by
  refine List.mem_filterMap.mpr ⟨path.parts.length, by simp, ?_⟩
  have hself : ancestor path path.parts.length = path := by
    cases path
    simp [ancestor]
  rw [hself, h]

/-- `path.mkdir(parents=True, exist_ok=True)` -/
def mkdir (host : Host) (path : PurePath) : M Unit := do
  fileCall
  let w ← get
  match path.locate host.cwd with
  | none => throw (.other "embedded null byte")
  | some _ =>
    match w.fs.makeDirs (placesOf host.cwd path) with
    | some fs => set { w with fs }
    | none => throw (.other "a file is in the way")

/-- `path.write_text(text)` -/
def writeText (host : Host) (path : PurePath) (text : FileText) : M Unit := do
  fileCall
  let w ← get
  match path.locate host.cwd with
  | none => throw (.other "embedded null byte")
  | some place =>
    match w.fs.writeFile place text with
    | some fs =>
      set { w with fs }
      emit (.writeText path text)
    | none => throw (.other "not a writable file")

/-- The file of `stop_tenant`: `{}` when the path does not exist, cannot be read or is not JSON.
Whether it exists is asked outside the `try`. -/
def readConfig (host : Host) (path : PurePath) : M Json := do
  fileCall
  let w ← get
  match (path.locate host.cwd).bind w.fs with
  | none => pure (.obj [])
  | some node =>
    tryCatch
      (do
        fileCall
        match node with
        | .file (.json v) => pure v
        | .file (.text _) => throw (.other "JSONDecodeError")
        | .dir => throw (.other "IsADirectoryError"))
      fun _ => pure (.obj [])

/-- There is a directory where the path leads. -/
def World.dirAt (w : World) (host : Host) (path : PurePath) : Bool :=
  (path.locate host.cwd).any fun place => w.fs place = some .dir

/-- `path.is_dir()` -/
def isDir (host : Host) (path : PurePath) : M Bool := do
  fileCall
  let w ← get
  pure (w.dirAt host path)

end Nanogate.Tenants
