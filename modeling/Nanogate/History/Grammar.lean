import Nanogate.History.RoundTrip
import Nanogate.Python.JsonParsed

/-!
# Session files in the JSON grammar

What survives saving and loading was said of any `json` module that reads what it prints. Python's
prints and reads as the JSON grammar says, apart from texts that escape a lone surrogate, integers
that are longer than `int` converts, and values that are nested deeper than the interpreter allows.
For a file in which none of these occurs nothing more is assumed: what the grammar accepts is
printed and read again as the same value, and no text is a string in itself.

## Main definitions

* `grammar` — the printer and the parser of the grammar
* `Grammatical` — the texts of a session are printed and read as the grammar says

## Main results

* `roundTrips_grammatical_iff` — which of these texts survive
-/

namespace Nanogate.History

open Nanogate.Python Nanogate.Bus

/-- The printer and the parser of the JSON grammar, where `floatRepr` is `repr(float(text))`. -/
def grammar (floatRepr : String → String) : JsonText where
  dumps := Python.JsonText.dumps
  dumpsIndent := Python.JsonText.dumpsIndent
  loads := Python.JsonText.loads floatRepr

/-- `repr` spells a float in one way, whatever text it was read from. -/
def Spells (floatRepr : String → String) : Prop :=
  ∀ text, Python.JsonText.IsRepr floatRepr (floatRepr text)

/-- The `json` module does as the grammar says with the texts of a session whose file has this text:
it reads so the text of the file, the one that is stored for it and the one that is written back,
and prints so what it has read. -/
structure Grammatical (floatRepr : String → String) (json : JsonText) (text : String) : Prop where
  loads : json.loads text = (grammar floatRepr).loads text
  dumps : json.dumps (json.stateOf text) = (grammar floatRepr).dumps (json.stateOf text)
  dumpsIndent :
    json.dumpsIndent (json.stateOf text) = (grammar floatRepr).dumpsIndent (json.stateOf text)
  stored : json.loads (json.dumps (json.stateOf text)) =
    (grammar floatRepr).loads (json.dumps (json.stateOf text))
  written : ∀ new, json.writtenText (json.stateOf text) = some new →
    json.loads new = (grammar floatRepr).loads new

theorem grammatical_grammar (floatRepr : String → String) (text : String) :
    Grammatical floatRepr (grammar floatRepr) text :=
  ⟨rfl, rfl, rfl, rfl, fun _ _ => rfl⟩

theorem loads_grammar (floatRepr : String → String) (text : String) :
    (grammar floatRepr).loads text = Python.JsonText.loads floatRepr text :=
  rfl

section Read

variable {floatRepr : String → String} {json : JsonText} {tenantId sessionKey text : String}

/-- What is stored for a text is a value that Python holds. -/
theorem Grammatical.isPython (h : Grammatical floatRepr json text) (hspells : Spells floatRepr) :
    Python.JsonText.IsPython floatRepr (json.stateOf text) := by
  cases hloads : json.loads text with
  | some v =>
    rw [stateOf_of_loads hloads]
    exact Python.JsonText.isPython_of_loads hspells (h.loads.symm.trans hloads)
  | none =>
    simp [JsonText.stateOf, hloads, Python.JsonText.IsPython, Python.JsonText.HoldPython,
      Entries.keys]

/-- What is printed for it is read again. -/
theorem Grammatical.loads_dumps (h : Grammatical floatRepr json text)
    (hspells : Spells floatRepr) :
    json.loads (json.dumps (json.stateOf text)) = some (json.stateOf text) := by
  rw [h.stored, h.dumps]
  exact Python.JsonText.loads_dumps (h.isPython hspells)

/-- So is the text that is written back for a value. -/
theorem Grammatical.loads_dumpsIndent (h : Grammatical floatRepr json text)
    (hspells : Spells floatRepr) :
    ∀ v, json.loads text = some v → Storable v → json.loads (json.dumpsIndent v) = some v := by
  intro v hv hstorable
  have hpython := h.isPython hspells
  have hdumps := h.dumpsIndent
  have hwritten := h.written (json.dumpsIndent v)
  rw [stateOf_of_loads hv] at hpython hdumps hwritten
  rw [hwritten (writtenText_of_storable hstorable), hdumps]
  exact Python.JsonText.loads_dumpsIndent hpython

/-- **Which texts survive one restart**, if the `json` module does as the grammar says. -/
theorem roundTrips_grammatical_iff (hspells : Spells floatRepr)
    (h : Grammatical floatRepr json text) (tenantId sessionKey : String) :
    RoundTrips json tenantId sessionKey text ↔ Survives json text := by
  rw [roundTrips_iff_stateOf (h.loads_dumps hspells)]
  constructor
  · rintro ⟨new, htruthy, hwritten, hsame⟩
    refine survives_of_written htruthy hwritten (fun v hv hraw => ?_) hsame
    rw [h.written new hwritten]
    exact Python.JsonText.loads_ne_of_raw hspells hraw
  · exact fun hsurvives => written_of_survives hsurvives (h.loads_dumpsIndent hspells)

end Read

/-- A `repr` of which one float is known. -/
def oneHalf : String → String := fun _ => "0.5"

theorem spells_oneHalf : Spells oneHalf := by
  intro text
  have htext : (oneHalf text).toList = [] ++ ['0'] ++ ['.', '5'] ++ [] := by
    simp [oneHalf]
  refine .inr (.inr (.inr ⟨⟨_, _, _, _, htext, .inl rfl, .inl rfl, ?_, .inl rfl, by decide⟩, rfl⟩))
  exact .inr ⟨['5'], rfl, by decide, by simp⟩

/-- The text of a conversation. -/
def saying (message : String) : String :=
  Python.JsonText.dumps (.obj [("messages", .arr [.str message])])

theorem roundTrips_grammatical_saying :
    RoundTrips (grammar oneHalf) "acme" "api:alice" (saying "hi") ↔
      Survives (grammar oneHalf) (saying "hi") :=
  roundTrips_grammatical_iff spells_oneHalf (grammatical_grammar oneHalf (saying "hi")) "acme"
    "api:alice"

end Nanogate.History
