import Nanogate.Bus.Message
import Nanogate.Python.Dict
import Nanogate.Python.Path

/-!
# Session files and their copies in Redis

The agent's conversation history lives in a file of the workspace. After a turn from the
bus the file is copied to Redis, and before such a turn the copy is written back over
the file. A file whose text is not JSON is stored wrapped in an object under `raw`.

## Main definitions

* `savedState`, `restoredText` — what is stored for a text, and what is written back
* `safeSessionFilename`, `sessionStateKey` — the names on both sides
* `Workspace`, `Workspace.sessionFile`, `Workspace.restore` — the sessions directory

## Main results

* `restoredText_savedState` — writing back what was stored changes nothing
-/

namespace Nanogate.History

open Nanogate.Python Nanogate.Bus

/-! ### States -/

/-- The state `save_session_state_to_redis` stores for a text. -/
def savedState : FileText → Json
  | .json v => v
  | .text s => .obj [("raw", .str s)]

/-- The text `load_session_state_from_redis` writes for a state, by
`"raw" in state and isinstance(state["raw"], str)`; `none` when testing the state raises. -/
def restoredText (loads : String → Option Json) : Json → Option FileText
  | .obj kvs =>
    match (Json.obj kvs).get "raw" with
    | some (.str raw) => some (.ofString loads raw)
    | _ => some (.json (.obj kvs))
  -- `in` looks for an element of a list and for a substring of a string, and
  -- neither can be indexed by "raw"
  | .arr xs => if .str "raw" ∈ xs then none else some (.json (.arr xs))
  | .str s => if Occurs "raw" s then none else some (.json (.str s))
  | .null | .bool _ | .num _ | .float _ => none

/-- The texts that can be stored without being mistaken for another: one that is not JSON when
it is given as one that is not, and no object with a string under `raw`. -/
def Plain (loads : String → Option Json) : FileText → Prop
  | .text s => loads s = none
  | .json v => ∀ s, v.get "raw" ≠ some (.str s)

/-- A stored state is written back as the text it was stored for, if at all. -/
theorem restoredText_savedState {loads : String → Option Json} {f f' : FileText}
    (hplain : Plain loads f) (h : restoredText loads (savedState f) = some f') : f' = f := by
  cases f with
  | text s =>
    have hs : loads s = none := hplain
    have hget : (Json.obj [("raw", .str s)]).get "raw" = some (.str s) := by
      simp [Json.get, Entries.get]
    simpa [savedState, restoredText, hget, FileText.ofString, hs, eq_comm] using h
  | json v =>
    cases v with
    | obj kvs =>
      simp only [savedState, restoredText] at h
      split at h
      next raw hraw => exact absurd hraw (hplain raw)
      next => exact (Option.some_inj.mp h).symm
    | arr xs =>
      simp only [savedState, restoredText] at h
      split_ifs at h
      exact (Option.some_inj.mp h).symm
    | str s =>
      simp only [savedState, restoredText] at h
      split_ifs at h
      exact (Option.some_inj.mp h).symm
    | null | bool | num | float => simp [savedState, restoredText] at h

/-! ### Names -/

/-- `session_key or "default"` -/
def sessionName (sessionKey : String) : String := orElse (some sessionKey) "default"

/-- `_safe_session_filename` -/
def safeSessionFilename (sessionKey : String) : String :=
  replaceChar '/' '_' (replaceChar ':' '_' (sessionName sessionKey)) ++ ".json"

/-- `_session_state_key` of the bus. -/
def sessionStateKey (tenantId sessionKey : String) : String :=
  tenantInboundPrefix ++ tenantId ++ ":session_state:" ++
    replaceChar ':' '_' (sessionName sessionKey)

/-! ### The sessions directory -/

/-- The files of `workspace/sessions` in the order the directory lists them; `none` when
there is no such directory. -/
abbrev Workspace := Option (Dict String FileText)

namespace Workspace

variable (ws : Workspace)

/-- The text of a file. -/
def file (name : String) : Option FileText := ws.bind fun files => files.get name

/-- The file `save_session_state_to_redis` reads: the session's own, or else the first one
listed that looks like it. -/
def sessionFile (sessionKey : String) : Option FileText :=
  match ws with
  | none => none
  | some files =>
    match files.get (safeSessionFilename sessionKey) with
    | some text => some text
    | none =>
      (files.entries.find? fun e =>
        (suffix e.1 = ".json" || suffix e.1 = "") &&
          decide (Occurs (replaceChar ':' '_' sessionKey) e.1)).map Prod.snd

/-- Write a file, creating the directory if need be. -/
def write (name : String) (text : FileText) : Workspace :=
  some ((ws.getD .empty).set name text)

/-- `load_session_state_from_redis` once the state has been fetched: a missing or falsy
state is no state, and an exception leaves only the directory behind. -/
def restore (loads : String → Option Json) (sessionKey : String) : Option Json → Workspace
  | none => ws
  | some state =>
    if state.truthy then
      match restoredText loads state with
      | some text => ws.write (safeSessionFilename sessionKey) text
      | none => some (ws.getD .empty)
    else ws

theorem file_write (name name' : String) (text : FileText) :
    (ws.write name text).file name' = if name' = name then some text else ws.file name' := by
  cases ws with
  | none =>
    simp only [write, file, Option.getD_none, Option.bind_some, Option.bind_none, Dict.get_set]
    rfl
  | some files =>
    simp only [write, file, Option.getD_some, Option.bind_some, Dict.get_set]

theorem file_getD_empty (name : String) :
    file (some (ws.getD .empty)) name = ws.file name := by
  cases ws <;> rfl

/-- Restoring a session writes no other file. -/
theorem file_restore_of_ne {loads : String → Option Json} {sessionKey name : String}
    {state : Option Json} (h : name ≠ safeSessionFilename sessionKey) :
    (ws.restore loads sessionKey state).file name = ws.file name := by
  unfold restore
  split
  · rfl
  · split_ifs
    · split
      · rw [file_write, if_neg h]
      · exact ws.file_getD_empty name
    · rfl

/-- The file of the restored session is as it was, or it is the text of the state. -/
theorem file_restore (loads : String → Option Json) (sessionKey : String) (state : Option Json) :
    (ws.restore loads sessionKey state).file (safeSessionFilename sessionKey) =
        ws.file (safeSessionFilename sessionKey) ∨
      ∃ st text, state = some st ∧ restoredText loads st = some text ∧
        (ws.restore loads sessionKey state).file (safeSessionFilename sessionKey) = some text := by
  unfold restore
  split
  · exact .inl rfl
  next st =>
    split_ifs
    · split
      next text htext => exact .inr ⟨st, text, rfl, htext, by rw [file_write, if_pos rfl]⟩
      next => exact .inl (ws.file_getD_empty _)
    · exact .inl rfl

/-- What is saved is the text of some file of the directory. -/
theorem exists_file_of_sessionFile {sessionKey : String} {text : FileText}
    (h : ws.sessionFile sessionKey = some text) : ∃ name, ws.file name = some text := by
  cases ws with
  | none => exact absurd h (by simp [sessionFile])
  | some files =>
    unfold sessionFile at h
    dsimp only at h
    split at h
    next hfile => exact ⟨_, hfile.trans h⟩
    next =>
      obtain ⟨e, hfind, rfl⟩ := Option.map_eq_some_iff.mp h
      exact ⟨e.1, Dict.mem_entries_iff.mp (List.mem_of_find?_eq_some hfind)⟩

end Workspace

end Nanogate.History
