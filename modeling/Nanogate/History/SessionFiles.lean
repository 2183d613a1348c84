import Nanogate.History.Persistence

/-!
# Saving and loading a session

`save_session_state_to_redis` and `load_session_state_from_redis` on the texts they read and
write: the workspace holds files under names, Redis holds strings under keys, and JSON is
printed and parsed on the way. A missing file is searched for among the other names of the
directory, in the order in which they are listed. Both functions catch what goes wrong and
leave the other side as it is.

## Main definitions

* `JsonText` — `json.dumps` and `json.loads`
* `Node`, `SessionsDir` — the sessions directory
* `source`, `saveSessionState` — the file that is read, and what becomes of it
* `writtenText`, `loadSessionState` — the text that is written back

## Main results

* `saveSessionState_of_ne` — saving a session touches the entry under its own key only
* `node_loadSessionState_of_ne` — loading a session touches the file of its own name only
* `shows_loadSessionState` — loading refines the restoring of a workspace
-/

namespace Nanogate.History

open Nanogate.Python Nanogate.Bus

/-! ### Texts and states -/

/-- The functions of the `json` module; `none` stands for `JSONDecodeError`. -/
structure JsonText where
  dumps : Json → String
  /-- `json.dumps(state, indent=2)` -/
  dumpsIndent : Json → String
  loads : String → Option Json

namespace JsonText

variable (json : JsonText)

/-- `state` of `save_session_state_to_redis`, for the text of the file. -/
def stateOf (raw : String) : Json := (json.loads raw).getD (.obj [("raw", .str raw)])

/-- What `load_session_state_from_redis` writes for a state that is not falsy; `none` when
looking for `raw` raises. -/
def writtenText : Json → Option String
  | .obj kvs =>
    match (Json.obj kvs).get "raw" with
    | some (.str raw) => some raw
    | _ => some (json.dumpsIndent (.obj kvs))
  -- a list or a string that contains "raw" is then indexed by it
  | .arr xs => if .str "raw" ∈ xs then none else some (json.dumpsIndent (.arr xs))
  | .str s => if Occurs "raw" s then none else some (json.dumpsIndent (.str s))
  | .null | .bool _ | .num _ | .float _ => none

/-- The state stored for a text is the one of its value, or of the text itself. -/
theorem stateOf_eq_savedState (raw : String) :
    json.stateOf raw = savedState (.ofString json.loads raw) := by
  unfold stateOf FileText.ofString
  cases json.loads raw <;> rfl

/-- The text written back has the value that `restoredText` says. -/
theorem map_writtenText {state : Json}
    (hindent : json.loads (json.dumpsIndent state) = some state) :
    (json.writtenText state).map (.ofString json.loads) = restoredText json.loads state := by
  have hdumped : FileText.ofString json.loads (json.dumpsIndent state) = .json state := by
    simp only [FileText.ofString, hindent]
  cases state with
  | obj kvs =>
    simp only [writtenText, restoredText]
    cases (Json.obj kvs).get "raw" with
    | none => exact congrArg some hdumped
    | some raw =>
      cases raw with
      | str raw => rfl
      | null | bool | num | float | arr | obj => exact congrArg some hdumped
  | arr xs =>
    unfold writtenText restoredText
    dsimp only
    split_ifs <;> simp [hdumped]
  | str s =>
    unfold writtenText restoredText
    dsimp only
    split_ifs <;> simp [hdumped]
  | null | bool | num | float => rfl

end JsonText

/-! ### The two sides -/

/-- The strings Redis holds. -/
abbrev Redis := String → Option String

/-- What the sessions directory holds under a name. -/
inductive Node where
  /-- A file, with the text that `read_text` returns. -/
  | text (raw : String)
  /-- A file that `read_text` cannot decode. -/
  | binary
  | directory
  deriving DecidableEq, Repr

/-- `path.is_file()` -/
def Node.isFile : Node → Bool
  | text _ | binary => true
  | directory => false

/-- The sessions directory, in the order in which it is listed; `none` when it is missing. -/
abbrev SessionsDir := Option (Dict String Node)

/-- What is there under a name. -/
def SessionsDir.node (ws : SessionsDir) (name : String) : Option Node :=
  ws.bind fun dir => dir.get name

section Redis

variable (json : JsonText) (tenantId sessionKey : String) (redis : Redis)

/-- `set_session_state` of the bus. -/
def setSessionState (state : Json) : Redis :=
  Function.update redis (sessionStateKey tenantId sessionKey) (some (json.dumps state))

/-- `get_session_state` of the bus; a string that is not JSON counts as none. -/
def getSessionState : Option Json :=
  (redis (sessionStateKey tenantId sessionKey)).bind json.loads

end Redis

/-- `f.suffix in (".json", "") and session_key.replace(":", "_") in f.name` -/
def looksLike (sessionKey name : String) : Bool :=
  (suffix name = ".json" || suffix name = "") &&
    decide (Occurs (replaceChar ':' '_' sessionKey) name)

/-- `session_file` of `save_session_state_to_redis`: the session's own file, or else the first
name listed that looks like it, which need not be that of a file. -/
def source (dir : Dict String Node) (sessionKey : String) : Option (String × Node) :=
  match (dir.get (safeSessionFilename sessionKey)).filter Node.isFile with
  | some node => some (safeSessionFilename sessionKey, node)
  | none => dir.entries.find? fun e => looksLike sessionKey e.1

/-- `save_session_state_to_redis`, what Redis holds afterwards. -/
def saveSessionState (json : JsonText) (tenantId sessionKey : String) (ws : SessionsDir)
    (redis : Redis) : Redis :=
  match ws.bind fun dir => source dir sessionKey with
  | some (_, .text raw) => setSessionState json tenantId sessionKey redis (json.stateOf raw)
  -- reading anything else raises
  | some (_, .binary) | some (_, .directory) | none => redis

/-- `load_session_state_from_redis`: what it returns, and the directory it leaves. -/
def loadSessionState (json : JsonText) (tenantId sessionKey : String) (redis : Redis)
    (ws : SessionsDir) : Bool × SessionsDir :=
  match (getSessionState json tenantId sessionKey redis).filter Json.truthy with
  | none => (false, ws)
  | some state =>
    let dir := ws.getD .empty
    match json.writtenText state with
    | none => (false, some dir)
    | some text =>
      -- a directory of that name cannot be written to
      if dir.get (safeSessionFilename sessionKey) = some .directory then (false, some dir)
      else (true, some (dir.set (safeSessionFilename sessionKey) (.text text)))

/-! ### What saving and loading leave alone -/

section Frame

variable {json : JsonText} {tenantId sessionKey : String} {redis : Redis} {ws : SessionsDir}

theorem saveSessionState_of_ne {key : String} (h : key ≠ sessionStateKey tenantId sessionKey) :
    saveSessionState json tenantId sessionKey ws redis key = redis key := by
  cases hsource : ws.bind fun dir => source dir sessionKey with
  | none => simp only [saveSessionState, hsource]
  | some found =>
    obtain ⟨name, node⟩ := found
    cases node with
    | text raw =>
      simp only [saveSessionState, hsource, setSessionState]
      exact Function.update_of_ne h _ _
    | binary | directory => simp only [saveSessionState, hsource]

theorem node_getD_empty (name : String) :
    SessionsDir.node (some (ws.getD .empty)) name = ws.node name := by
  cases ws <;> rfl

/-- Everything loading can do: nothing to speak of, or to write a text under the session's name. -/
theorem loadSessionState_cases (json : JsonText) (tenantId sessionKey : String) (redis : Redis)
    (ws : SessionsDir) :
    ((loadSessionState json tenantId sessionKey redis ws).1 = false ∧
        ∀ name, (loadSessionState json tenantId sessionKey redis ws).2.node name = ws.node name) ∨
      ∃ state text, getSessionState json tenantId sessionKey redis = some state ∧
        state.truthy = true ∧ json.writtenText state = some text ∧
        loadSessionState json tenantId sessionKey redis ws =
          (true, some ((ws.getD .empty).set (safeSessionFilename sessionKey) (.text text))) := by
  unfold loadSessionState
  split
  · exact .inl ⟨rfl, fun name => rfl⟩
  next state hstate =>
    obtain ⟨hstate, htruthy⟩ := Option.filter_eq_some_iff.mp hstate
    dsimp only
    split
    · exact .inl ⟨rfl, node_getD_empty⟩
    next text htext =>
      split_ifs
      · exact .inl ⟨rfl, node_getD_empty⟩
      · exact .inr ⟨state, text, hstate, htruthy, htext, rfl⟩

theorem node_loadSessionState_of_ne {name : String} (h : name ≠ safeSessionFilename sessionKey) :
    (loadSessionState json tenantId sessionKey redis ws).2.node name = ws.node name := by
  rcases loadSessionState_cases json tenantId sessionKey redis ws with
    ⟨-, hsame⟩ | ⟨state, text, -, -, -, hload⟩
  · exact hsame name
  · rw [hload]
    exact (Dict.get_set_of_ne h).trans (node_getD_empty name)

end Frame

/-! ### The workspace -/

/-- The text of a node. -/
def Node.text? : Node → Option String
  | text raw => some raw
  | binary | directory => none

/-- The workspace has the texts that the directory holds, each as far as JSON goes. -/
def Shows (json : JsonText) (dir : SessionsDir) (ws : Workspace) : Prop :=
  ∀ name, ws.file name = ((dir.node name).bind Node.text?).map (.ofString json.loads)

section Workspace

variable {json : JsonText} {tenantId sessionKey : String} {redis : Redis} {dir : SessionsDir}
  {ws : Workspace}

/-- A session whose own file is there is saved as the state of its text. -/
theorem saveSessionState_of_file {raw : String}
    (hfile : dir.node (safeSessionFilename sessionKey) = some (.text raw)) :
    saveSessionState json tenantId sessionKey dir redis =
      setSessionState json tenantId sessionKey redis (json.stateOf raw) := by
  obtain ⟨files, rfl, hget⟩ := Option.bind_eq_some_iff.mp hfile
  have hisFile : (Node.text raw).isFile = true := rfl
  simp only [saveSessionState, source, Option.bind_some, hget, Option.filter_some, hisFile, if_true]

/-- **Refinement.** Loading leaves the texts that restoring the state leaves, unless there is a
directory in the place of the file. -/
theorem shows_loadSessionState (hshows : Shows json dir ws)
    (hindent : ∀ v, json.loads (json.dumpsIndent v) = some v)
    (hplace : dir.node (safeSessionFilename sessionKey) ≠ some .directory) :
    Shows json (loadSessionState json tenantId sessionKey redis dir).2
      (ws.restore json.loads sessionKey (getSessionState json tenantId sessionKey redis)) := by
  intro name
  have hplace' : (dir.getD .empty).get (safeSessionFilename sessionKey) ≠ some .directory := by
    have hsame := @node_getD_empty dir (safeSessionFilename sessionKey)
    exact fun h => hplace (hsame.symm.trans h)
  cases hstate : getSessionState json tenantId sessionKey redis with
  | none => simpa [loadSessionState, hstate, Workspace.restore] using hshows name
  | some state =>
    cases htruthy : state.truthy with
    | false =>
      simpa [loadSessionState, hstate, htruthy, Option.filter_some, Workspace.restore] using
        hshows name
    | true =>
      have htext := json.map_writtenText (hindent state)
      cases hwritten : json.writtenText state with
      | none =>
        rw [hwritten, Option.map_none] at htext
        simp only [loadSessionState, hstate, htruthy, hwritten, Option.filter_some, if_true,
          Workspace.restore, ← htext]
        rw [node_getD_empty, Workspace.file_getD_empty]
        exact hshows name
      | some text =>
        rw [hwritten, Option.map_some] at htext
        simp only [loadSessionState, hstate, htruthy, hwritten, Option.filter_some, if_true,
          Workspace.restore, ← htext, if_neg hplace', Workspace.file_write]
        -- only the file of the session is written
        by_cases hname : name = safeSessionFilename sessionKey
        · rw [if_pos hname, hname]
          simp [SessionsDir.node, Node.text?]
        · rw [if_neg hname]
          have hsame : SessionsDir.node (some ((dir.getD .empty).set
              (safeSessionFilename sessionKey) (.text text))) name = dir.node name :=
            (Dict.get_set_of_ne hname).trans (node_getD_empty name)
          rw [hsame]
          exact hshows name

end Workspace

end Nanogate.History
