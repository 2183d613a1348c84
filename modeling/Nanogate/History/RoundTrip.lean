import Nanogate.History.SessionFiles

/-!
# What survives saving and loading

A text that is JSON is stored as its value, any other text wrapped in an object under `raw`.
Loading does not know which of the two it has in hand. It takes every object with a string
under `raw` for a wrapped text, looks for `raw` in lists and strings as well, and takes a value
that is falsy for no state at all. So a text survives unless its own value is one of these.

## Main definitions

* `RoundTrips` — saving and loading recreates the file with the same content
* `Storable`, `Survives` — a value that loading recognises as one, and a text of such a value

## Main results

* `roundTrips_iff` — a text survives exactly when it is not JSON, or its value is storable
-/

namespace Nanogate.History

open Nanogate.Python Nanogate.Bus

variable {json : JsonText} {tenantId sessionKey text : String} {state : Json}

/-- A text that is JSON keeps its value, and any other text is kept as it is. -/
def SameContent (json : JsonText) (old new : String) : Prop :=
  match json.loads old with
  | some v => json.loads new = some v
  | none => new = old

/-- Saving a session whose file has this text, and loading it into a workspace without that file,
succeeds and recreates the file with the same content. -/
def RoundTrips (json : JsonText) (tenantId sessionKey text : String) : Prop :=
  ∀ (dir : Dict String Node) redis (ws : SessionsDir),
    dir.get (safeSessionFilename sessionKey) = some (.text text) →
    ws.node (safeSessionFilename sessionKey) = none →
      ∃ new ws', loadSessionState json tenantId sessionKey
          (saveSessionState json tenantId sessionKey (some dir) redis) ws = (true, ws') ∧
        ws'.node (safeSessionFilename sessionKey) = some (.text new) ∧ SameContent json text new

/-- The value is not falsy, and the test for `raw` finds it to be no wrapped text and does not
raise. -/
def Storable (v : Json) : Prop :=
  v.truthy = true ∧
    match v with
    | .obj kvs => ∀ raw, (Json.obj kvs).get "raw" ≠ some (.str raw)
    | .arr xs => Json.str "raw" ∉ xs
    | .str s => ¬ Occurs "raw" s
    | .null | .bool _ | .num _ | .float _ => False

/-- The text is not JSON, or loading recognises its value. -/
def Survives (json : JsonText) (text : String) : Prop :=
  ∀ v, json.loads text = some v → Storable v

/-- Printing a value and parsing it again gives it back. -/
structure JsonText.Inverse (json : JsonText) (v : Json) : Prop where
  dumps : json.loads (json.dumps v) = some v
  dumpsIndent : json.loads (json.dumpsIndent v) = some v

/-! ### Loading what was saved -/

/-- The state that was set is the one that is got. -/
theorem getSessionState_setSessionState {redis : Redis}
    (hjson : json.loads (json.dumps state) = some state) :
    getSessionState json tenantId sessionKey
      (setSessionState json tenantId sessionKey redis state) = some state := by
  simp [getSessionState, setSessionState, hjson]

/-- Loading writes a text into a workspace without the file exactly when the state is not falsy
and has such a text. -/
theorem loadSessionState_iff {redis : Redis} {ws : SessionsDir} {new : String}
    (hstate : getSessionState json tenantId sessionKey redis = some state)
    (habsent : ws.node (safeSessionFilename sessionKey) = none) :
    (∃ ws', loadSessionState json tenantId sessionKey redis ws = (true, ws') ∧
        ws'.node (safeSessionFilename sessionKey) = some (.text new)) ↔
      state.truthy = true ∧ json.writtenText state = some new := by
  have hplace : (ws.getD .empty).get (safeSessionFilename sessionKey) ≠ some .directory := by
    have hnone : (ws.getD .empty).get (safeSessionFilename sessionKey) = none :=
      (@node_getD_empty ws (safeSessionFilename sessionKey)).trans habsent
    simp [hnone]
  cases htruthy : state.truthy with
  | false => simp [loadSessionState, hstate, htruthy, Option.filter_some]
  | true =>
    cases hwritten : json.writtenText state with
    | none => simp [loadSessionState, hstate, htruthy, hwritten, Option.filter_some]
    | some text =>
      simp [loadSessionState, hstate, htruthy, hwritten, Option.filter_some, hplace,
        SessionsDir.node]

/-- A text survives exactly when its state is written back as a text of the same content. -/
theorem roundTrips_iff_stateOf
    (hjson : json.loads (json.dumps (json.stateOf text)) = some (json.stateOf text)) :
    RoundTrips json tenantId sessionKey text ↔
      ∃ new, (json.stateOf text).truthy = true ∧
        json.writtenText (json.stateOf text) = some new ∧ SameContent json text new := by
  have hload : ∀ {dir : Dict String Node} {redis : Redis} {ws : SessionsDir} {new : String},
      dir.get (safeSessionFilename sessionKey) = some (.text text) →
      ws.node (safeSessionFilename sessionKey) = none →
        ((∃ ws', loadSessionState json tenantId sessionKey
            (saveSessionState json tenantId sessionKey (some dir) redis) ws = (true, ws') ∧
          ws'.node (safeSessionFilename sessionKey) = some (.text new)) ↔
        (json.stateOf text).truthy = true ∧ json.writtenText (json.stateOf text) = some new) := by
    intro dir redis ws new hfile habsent
    have hsaved := @saveSessionState_of_file json tenantId sessionKey redis (some dir) text hfile
    rw [hsaved]
    exact loadSessionState_iff (getSessionState_setSessionState hjson) habsent
  constructor
  · intro h
    obtain ⟨new, ws', hrun, hnode, hsame⟩ := h
      (Dict.empty.set (safeSessionFilename sessionKey) (.text text)) (fun _ => none) none
      Dict.get_set_self rfl
    obtain ⟨htruthy, hwritten⟩ := (hload Dict.get_set_self rfl).mp ⟨ws', hrun, hnode⟩
    exact ⟨new, htruthy, hwritten, hsame⟩
  · rintro ⟨new, htruthy, hwritten, hsame⟩ dir redis ws hfile habsent
    obtain ⟨ws', hrun, hnode⟩ := (@hload dir redis ws new hfile habsent).mpr ⟨htruthy, hwritten⟩
    exact ⟨new, ws', hrun, hnode, hsame⟩

/-! ### Values and other texts -/

theorem writtenText_of_storable (h : Storable state) :
    json.writtenText state = some (json.dumpsIndent state) := by
  obtain ⟨-, h⟩ := h
  cases state with
  | obj kvs =>
    -- the branch for wrapped texts is excluded by `h`
    simp only [JsonText.writtenText]
  | arr xs => exact if_neg h
  | str s => exact if_neg h
  | null | bool | num | float => exact h.elim

/-- What is written back for a value that is not storable is the string under its `raw`. -/
theorem storable_or_raw {new : String} (htruthy : state.truthy = true)
    (h : json.writtenText state = some new) :
    Storable state ∨ state.get "raw" = some (.str new) := by
  cases state with
  | obj kvs =>
    simp only [JsonText.writtenText] at h
    split at h
    next raw hraw => exact .inr (Option.some.inj h ▸ hraw)
    next hraw => exact .inl ⟨htruthy, hraw⟩
  | arr xs => exact .inl ⟨htruthy, fun hmem => by simp [JsonText.writtenText, hmem] at h⟩
  | str s => exact .inl ⟨htruthy, fun hmem => by simp [JsonText.writtenText, hmem] at h⟩
  | null | bool | num | float => simp [JsonText.writtenText] at h

theorem stateOf_of_loads (h : json.loads text = some state) : json.stateOf text = state := by
  simp [JsonText.stateOf, h]

/-- A text that survives is written back as one of the same content. -/
theorem written_of_survives (hsurvives : Survives json text)
    (hindent : ∀ v, json.loads text = some v → Storable v →
      json.loads (json.dumpsIndent v) = some v) :
    ∃ new, (json.stateOf text).truthy = true ∧ json.writtenText (json.stateOf text) = some new ∧
      SameContent json text new := by
  cases hloads : json.loads text with
  | none =>
    have hstate : json.stateOf text = .obj [("raw", .str text)] := by
      simp [JsonText.stateOf, hloads]
    refine ⟨text, ?_, ?_, by simp [SameContent, hloads]⟩
    · rw [hstate]
      rfl
    · simp [hstate, JsonText.writtenText, Json.get, Entries.get]
  | some v =>
    rw [stateOf_of_loads hloads]
    have hv := hsurvives v hloads
    refine ⟨_, hv.1, writtenText_of_storable hv, ?_⟩
    simpa only [SameContent, hloads] using hindent v hloads hv

theorem JsonText.Inverse.loads_dumpsIndent (hjson : json.Inverse (json.stateOf text)) :
    ∀ v, json.loads text = some v → Storable v → json.loads (json.dumpsIndent v) = some v := by
  intro v hv _
  rw [← stateOf_of_loads hv]
  exact hjson.dumpsIndent

/-- A value whose text is written back is the one that survives, unless it is the string under
its `raw` that is. -/
theorem survives_of_written {new : String} (htruthy : (json.stateOf text).truthy = true)
    (hwritten : json.writtenText (json.stateOf text) = some new)
    (hraw : ∀ v, json.loads text = some v → v.get "raw" = some (.str new) →
      json.loads new ≠ some v)
    (hsame : SameContent json text new) : Survives json text := by
  intro v hloads
  rw [stateOf_of_loads hloads] at htruthy hwritten
  refine (storable_or_raw htruthy hwritten).resolve_right fun h => ?_
  exact hraw v hloads h (by simpa [SameContent, hloads] using hsame)

/-- **What survives.** A text that is not JSON always does, and one that is exactly when its value
is storable. No JSON text contains itself as a string. -/
theorem roundTrips_iff (tenantId sessionKey : String) (hjson : json.Inverse (json.stateOf text))
    (hnested : ∀ v, json.loads text = some v → ∀ raw, v.get "raw" = some (.str raw) →
      json.loads raw ≠ some v) :
    RoundTrips json tenantId sessionKey text ↔ ∀ v, json.loads text = some v → Storable v := by
  rw [roundTrips_iff_stateOf hjson.dumps]
  constructor
  · rintro ⟨new, htruthy, hwritten, hsame⟩
    exact survives_of_written htruthy hwritten (fun v hv h => hnested v hv new h) hsame
  · exact fun h => written_of_survives h hjson.loads_dumpsIndent

/-- A printer and a parser that know the values and texts of one workspace. -/
def fewTexts (known : List (String × String × Json)) : JsonText where
  dumps v := ((known.find? fun e => e.2.2 = v).map Prod.fst).getD ""
  dumpsIndent v := ((known.find? fun e => e.2.2 = v).map fun e => e.2.1).getD ""
  loads s := (known.find? fun e => e.1 = s || e.2.1 = s).map fun e => e.2.2

/-- A session with one message. -/
def oneMessage : JsonText := fewTexts [("[1]", "[\n  1\n]", .arr [.num 1])]

theorem roundTrips_iff_oneMessage :
    RoundTrips oneMessage "acme" "api:alice" "[1]" ↔
      ∀ v, oneMessage.loads "[1]" = some v → Storable v :=
  roundTrips_iff "acme" "api:alice" ⟨by decide +kernel, by decide +kernel⟩ (by
    intro v hv raw hraw
    obtain rfl : Json.arr [.num 1] = v := Option.some.inj hv
    simp [Json.get, Json.entries] at hraw)

/-- A session without a message. -/
def noMessage : JsonText := fewTexts [("[]", "[]", .arr [])]

/-- **A session that was emptied does not come back**: its state counts as none. -/
theorem empty_not_restored : ¬ ∀ json tenantId sessionKey text,
    JsonText.Inverse json (json.stateOf text) →
      (∀ v, json.loads text = some v → ∀ raw, v.get "raw" = some (.str raw) →
        json.loads raw ≠ some v) → RoundTrips json tenantId sessionKey text := by
  intro hlaw
  have hjson : noMessage.Inverse (noMessage.stateOf "[]") := ⟨by decide +kernel, by decide +kernel⟩
  have hstate : noMessage.stateOf "[]" = .arr [] := by decide +kernel
  have h := hlaw noMessage "acme" "api:alice" "[]" hjson fun v hv raw hraw => by
    obtain rfl : Json.arr [] = v := Option.some.inj hv
    simp [Json.get, Json.entries] at hraw
  obtain ⟨new, htruthy, -⟩ := (roundTrips_iff_stateOf hjson.dumps).mp h
  rw [hstate] at htruthy
  exact absurd htruthy (by decide)

end Nanogate.History
