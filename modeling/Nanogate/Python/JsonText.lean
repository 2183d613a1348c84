import Nanogate.Python.JsonLexer

/-!
# `json.dumps` and `json.loads`

The text of a JSON value, on one line or indented, and the value of a text. A dictionary that Python
holds has each key once, and its floats are spelled as `repr` spells them: such a value is read as
it was written, whatever the layout.

## Main definitions

* `print`, `dumps`, `dumpsIndent` — the text of a value
* `scanOnce`, `loads` — the value of a text, `none` standing for `JSONDecodeError`
* `IsPython` — a value that Python holds

## Main results

* `loads_dumps`, `loads_dumpsIndent` — a value is read as it was written
* `printable_dumps` — on one line it is printable ASCII, without line breaks
-/

namespace Nanogate.Python.JsonText

open Nanogate.Python

/-! ### Printing -/

/-- The constants, and the floats that have no digits. -/
def constants : List (List Char × Json) :=
  [(['n', 'u', 'l', 'l'], .null), (['t', 'r', 'u', 'e'], .bool true),
    (['f', 'a', 'l', 's', 'e'], .bool false), (['N', 'a', 'N'], .float "nan"),
    (['I', 'n', 'f', 'i', 'n', 'i', 't', 'y'], .float "inf"),
    (['-', 'I', 'n', 'f', 'i', 'n', 'i', 't', 'y'], .float "-inf")]

/-- `floatstr` -/
def printFloat (r : String) : List Char :=
  if r = "nan" then ['N', 'a', 'N']
  else if r = "inf" then ['I', 'n', 'f', 'i', 'n', 'i', 't', 'y']
  else if r = "-inf" then ['-', 'I', 'n', 'f', 'i', 'n', 'i', 't', 'y']
  else r.toList

/-- The line break before an element at a level, when the text is indented. -/
def newline (indent : Option ℕ) (level : ℕ) : List Char :=
  match indent with
  | none => []
  | some n => '\n' :: List.replicate (n * level) ' '

/-- `item_separator` and the line break after it. -/
def separator (indent : Option ℕ) (level : ℕ) : List Char :=
  match indent with
  | none => [',', ' ']
  | some _ => ',' :: newline indent level

/-- A key with `key_separator`. -/
def printKey (k : String) : List Char := printString k ++ [':', ' ']

mutual

/-- A value at a level of nesting. -/
def print (indent : Option ℕ) (level : ℕ) : Json → List Char
  | .null => ['n', 'u', 'l', 'l']
  | .bool true => ['t', 'r', 'u', 'e']
  | .bool false => ['f', 'a', 'l', 's', 'e']
  | .num i => printInt i
  | .float r => printFloat r
  | .str s => printString s
  | .arr [] => ['[', ']']
  | .arr (x :: xs) =>
    '[' :: (newline indent (level + 1) ++ (print indent (level + 1) x ++
      (printItems indent (level + 1) xs ++ (newline indent level ++ [']']))))
  | .obj [] => ['\x7b', '\x7d']
  | .obj ((k, x) :: kvs) =>
    '\x7b' :: (newline indent (level + 1) ++ (printKey k ++ (print indent (level + 1) x ++
      (printEntries indent (level + 1) kvs ++ (newline indent level ++ ['\x7d'])))))

/-- The elements of an array after the first. -/
def printItems (indent : Option ℕ) (level : ℕ) : List Json → List Char
  | [] => []
  | x :: xs => separator indent level ++ (print indent level x ++ printItems indent level xs)

/-- The entries of an object after the first. -/
def printEntries (indent : Option ℕ) (level : ℕ) : List (String × Json) → List Char
  | [] => []
  | (k, x) :: kvs =>
    separator indent level ++ (printKey k ++ (print indent level x ++
      printEntries indent level kvs))

end

/-- `json.dumps(v)` -/
def dumps (v : Json) : String := String.ofList (print none 0 v)

/-- `json.dumps(v, indent=2)` -/
def dumpsIndent (v : Json) : String := String.ofList (print (some 2) 0 v)

/-! ### Parsing -/

/-- `WHITESPACE` -/
def isWhitespace (c : Char) : Bool := c = ' ' || c = '\t' || c = '\n' || c = '\r'

/-- What follows the white space. -/
def skip (cs : List Char) : List Char := cs.dropWhile isWhitespace

/-- The constant that a text begins with. -/
def scanConstant (cs : List Char) : Option (Json × List Char) :=
  constants.findSome? fun p =>
    if p.1.isPrefixOf cs then some (p.2, cs.drop p.1.length) else none

/-- A key, up to the value. -/
def scanKey (cs : List Char) : Option (String × List Char) :=
  match cs with
  | [] => none
  | c :: cs =>
    if c = '"' then
      match scanString cs with
      | none => none
      | some (k, rest) =>
        match skip rest with
        | [] => none
        | c :: rest => if c = ':' then some (k, skip rest) else none
    else none

section Scan

variable (floatRepr : String → String)

mutual

/-- `scan_once`, in at most `n` nested calls: the value that a text begins with. -/
def scanOnce : ℕ → List Char → Option (Json × List Char)
  | 0, _ => none
  | _ + 1, [] => none
  | n + 1, c :: cs =>
    if c = '"' then (scanString cs).map fun p => (.str p.1, p.2)
    else if c = '[' then scanArray n (skip cs)
    else if c = '\x7b' then scanObject n (skip cs)
    else (scanNumber floatRepr (c :: cs)).or (scanConstant (c :: cs))

/-- `JSONArray` -/
def scanArray : ℕ → List Char → Option (Json × List Char)
  | 0, _ => none
  | _ + 1, [] => none
  | n + 1, c :: cs =>
    if c = ']' then some (.arr [], cs)
    else
      match scanOnce n (c :: cs) with
      | none => none
      | some (x, rest) => (scanItems n (skip rest)).map fun p => (.arr (x :: p.1), p.2)

/-- The elements of an array after the first. -/
def scanItems : ℕ → List Char → Option (List Json × List Char)
  | 0, _ => none
  | _ + 1, [] => none
  | n + 1, c :: cs =>
    if c = ']' then some ([], cs)
    else if c = ',' then
      match scanOnce n (skip cs) with
      | none => none
      | some (x, rest) => (scanItems n (skip rest)).map fun p => (x :: p.1, p.2)
    else none

/-- `JSONObject`; of entries with the same key the last one counts. -/
def scanObject : ℕ → List Char → Option (Json × List Char)
  | 0, _ => none
  | _ + 1, [] => none
  | n + 1, c :: cs =>
    if c = '\x7d' then some (.obj [], cs)
    else
      match scanKey (c :: cs) with
      | none => none
      | some (k, rest) =>
        match scanOnce n rest with
        | none => none
        | some (x, rest) => (scanEntries n (skip rest)).map fun p =>
          (.obj (((k, x) :: p.1).foldl (fun d e => Entries.set d e.1 e.2) []), p.2)

/-- The entries of an object after the first. -/
def scanEntries : ℕ → List Char → Option (List (String × Json) × List Char)
  | 0, _ => none
  | _ + 1, [] => none
  | n + 1, c :: cs =>
    if c = '\x7d' then some ([], cs)
    else if c = ',' then
      match scanKey (skip cs) with
      | none => none
      | some (k, rest) =>
        match scanOnce n rest with
        | none => none
        | some (x, rest) => (scanEntries n (skip rest)).map fun p => ((k, x) :: p.1, p.2)
    else none

end

/-- `json.loads(s)`, where `floatRepr` is `repr(float(text))`. A call for every two characters is
enough. Python's own raises for integers longer than `int` converts and for deeper nesting than the
interpreter allows; there is no such limit here. -/
def loads (s : String) : Option Json :=
  match scanOnce floatRepr (2 * s.length + 1) (skip s.toList) with
  | some (v, rest) => if skip rest = [] then some v else none
  | none => none

end Scan

/-! ### Values that Python holds -/

section Python

variable (floatRepr : String → String)

/-- A `repr` of a float. -/
def IsRepr (r : String) : Prop := r = "nan" ∨ r = "inf" ∨ r = "-inf" ∨ FloatText floatRepr r

mutual

/-- The dictionaries of the value have each key once, and its floats are spelled as `repr` does. -/
def IsPython : Json → Prop
  | .null | .bool _ | .num _ | .str _ => True
  | .float r => IsRepr floatRepr r
  | .arr xs => ArePython xs
  | .obj kvs => (Entries.keys kvs).Nodup ∧ HoldPython kvs

/-- All elements are such values. -/
def ArePython : List Json → Prop
  | [] => True
  | x :: xs => IsPython x ∧ ArePython xs

/-- The values of all entries are such values. -/
def HoldPython : List (String × Json) → Prop
  | [] => True
  | (_, x) :: kvs => IsPython x ∧ HoldPython kvs

end

end Python

section Parts

variable {floatRepr : String → String} {v x : Json} {k : String} {kvs : List (String × Json)}

theorem isPython_str (s : String) : IsPython floatRepr (.str s) := trivial

theorem holdPython_set (h : HoldPython floatRepr kvs) (hx : IsPython floatRepr x) :
    HoldPython floatRepr (Entries.set kvs k x) := by
  induction kvs with
  | nil => exact ⟨hx, h⟩
  | cons e kvs ih =>
    rw [Entries.set]
    split_ifs
    · exact ⟨hx, h.2⟩
    · exact ⟨h.1, ih h.2⟩

theorem isPython_of_get (h : HoldPython floatRepr kvs) (hget : Entries.get kvs k = some x) :
    IsPython floatRepr x := by
  induction kvs with
  | nil => simp at hget
  | cons e kvs ih =>
    by_cases hk : e.1 = k
    · rw [Entries.get, if_pos hk, Option.some_inj] at hget
      exact hget ▸ h.1
    · rw [Entries.get_cons_of_ne hk] at hget
      exact ih h.2 hget

/-- A dictionary that Python holds: its keys are all there once. -/
theorem isPython_entries (hv : IsPython floatRepr v) :
    (Entries.keys v.entries).Nodup ∧ HoldPython floatRepr v.entries := by
  cases v with
  | obj kvs => exact hv
  | null | bool | num | float | str | arr => exact ⟨List.nodup_nil, trivial⟩

theorem IsPython.set (hv : IsPython floatRepr v) (hx : IsPython floatRepr x) :
    IsPython floatRepr (v.set k x) :=
  ⟨Entries.nodup_keys_set (isPython_entries hv).1, holdPython_set (isPython_entries hv).2 hx⟩

end Parts

/-! ### Reading what was written -/

section RoundTrip

variable {floatRepr : String → String} {indent : Option ℕ} {level n : ℕ} {c : Char}
  {cs rest : List Char} {v : Json} {xs : List Json} {kvs : List (String × Json)}

theorem skip_cons (h : isWhitespace c = false) : skip (c :: cs) = c :: cs := by
  simp [skip, h]

theorem skip_append (h : ∀ c ∈ cs, isWhitespace c = true) : skip (cs ++ rest) = skip rest :=
  List.dropWhile_append_of_pos h

theorem isWhitespace_newline (indent : Option ℕ) (level : ℕ) :
    ∀ c ∈ newline indent level, isWhitespace c = true := by
  intro c hc
  cases indent with
  | none => simp [newline] at hc
  | some n =>
    rcases List.mem_cons.mp hc with rfl | hc
    · decide
    · rw [List.eq_of_mem_replicate hc]
      decide

theorem separator_eq (indent : Option ℕ) (level : ℕ) : ∃ gap, separator indent level = ',' :: gap ∧
    ∀ c ∈ gap, isWhitespace c = true := by
  cases indent with
  | none => exact ⟨[' '], rfl, List.forall_mem_singleton.mpr rfl⟩
  | some n => exact ⟨_, rfl, isWhitespace_newline _ _⟩

/-- A character that begins a value: no white space, and nothing that ends an array or object. -/
def Begins (c : Char) : Prop := isWhitespace c = false ∧ c ≠ ']' ∧ c ≠ '\x7d'

instance (c : Char) : Decidable (Begins c) := inferInstanceAs (Decidable (_ ∧ _ ∧ _))

/-- What begins a number begins no string, array or object either. -/
def BeginsNumber (c : Char) : Prop := Begins c ∧ c ≠ '"' ∧ c ≠ '[' ∧ c ≠ '\x7b'

instance (c : Char) : Decidable (BeginsNumber c) := inferInstanceAs (Decidable (_ ∧ _ ∧ _))

theorem beginsNumber_of_isDigit (h : c.isDigit = true) : BeginsNumber c := by
  have hne {d : Char} (hd : d.isDigit = false) : c ≠ d := by
    rintro rfl
    rw [h] at hd
    exact absurd hd (by decide)
  refine ⟨⟨?_, hne rfl, hne rfl⟩, hne rfl, hne rfl, hne rfl⟩
  simp only [isWhitespace, Bool.or_eq_false_iff, decide_eq_false_iff_not]
  exact ⟨⟨⟨hne rfl, hne rfl⟩, hne rfl⟩, hne rfl⟩

theorem beginsNumber_printInt (i : Int) : ∃ c cs, printInt i = c :: cs ∧ BeginsNumber c := by
  unfold printInt
  split_ifs
  · exact ⟨'-', _, rfl, by decide⟩
  · cases hdigits : Nat.toDigits 10 i.natAbs with
    | nil => exact absurd hdigits Nat.toDigits_ne_nil
    | cons c cs =>
      refine ⟨c, cs, rfl, beginsNumber_of_isDigit ?_⟩
      exact Nat.isDigit_of_mem_toDigits (b := 10) (n := i.natAbs) (by decide) (by decide)
        (by simp [hdigits])

theorem beginsNumber_floatText {r : String} (h : FloatText floatRepr r) :
    ∃ c cs, r.toList = c :: cs ∧ BeginsNumber c := by
  obtain ⟨minus, whole, fraction, exponent, hspelled, hminus, hwhole, -⟩ := h.spelled
  rw [hspelled]
  rcases hminus with rfl | rfl
  · rcases hwhole with rfl | ⟨c, ds, rfl, -, hc, -⟩
    · exact ⟨'0', _, rfl, by decide⟩
    · exact ⟨c, _, rfl, beginsNumber_of_isDigit hc⟩
  · exact ⟨'-', _, rfl, by decide⟩

theorem begins_print (indent : Option ℕ) (level : ℕ) (hv : IsPython floatRepr v) :
    ∃ c cs, print indent level v = c :: cs ∧ Begins c := by
  cases v with
  | null => exact ⟨_, _, rfl, by decide⟩
  | bool b => cases b <;> exact ⟨_, _, rfl, by decide⟩
  | num i =>
    obtain ⟨c, cs, heq, hc⟩ := beginsNumber_printInt i
    exact ⟨c, cs, by rw [print, heq], hc.1⟩
  | float r =>
    rw [print]
    rcases hv with rfl | rfl | rfl | h
    · exact ⟨_, _, rfl, by decide⟩
    · exact ⟨_, _, rfl, by decide⟩
    · exact ⟨_, _, rfl, by decide⟩
    · obtain ⟨c, cs, heq, hc⟩ := beginsNumber_floatText h
      unfold printFloat
      split_ifs
      · exact ⟨_, _, rfl, by decide⟩
      · exact ⟨_, _, rfl, by decide⟩
      · exact ⟨_, _, rfl, by decide⟩
      · exact ⟨c, cs, heq, hc.1⟩
  | str s => exact ⟨_, _, by rw [print, printString], by decide⟩
  | arr xs =>
    cases xs with
    | nil => exact ⟨_, _, by rw [print], by decide⟩
    | cons x xs => exact ⟨_, _, by rw [print], by decide⟩
  | obj kvs =>
    cases kvs with
    | nil => exact ⟨_, _, by rw [print], by decide⟩
    | cons e kvs => exact ⟨_, _, by rw [print], by decide⟩

/-! The three ways in which a value can go on. -/

theorem scanOnce_constant {text : List Char} (h : (text, v) ∈ constants) :
    scanOnce floatRepr (n + 1) (text ++ rest) = some (v, rest) := by
  simp only [constants, List.mem_cons, Prod.mk.injEq, List.not_mem_nil, or_false] at h
  rcases h with ⟨rfl, rfl⟩ | ⟨rfl, rfl⟩ | ⟨rfl, rfl⟩ | ⟨rfl, rfl⟩ | ⟨rfl, rfl⟩ | ⟨rfl, rfl⟩ <;>
    simp [scanOnce, scanNumber, scanMinus, scanWhole, scanConstant, constants, Char.isDigit]

theorem scanOnce_number {text : List Char} (hbegins : ∃ c cs, text = c :: cs ∧ BeginsNumber c)
    (h : scanNumber floatRepr (text ++ rest) = some (v, rest)) :
    scanOnce floatRepr (n + 1) (text ++ rest) = some (v, rest) := by
  obtain ⟨c, cs, rfl, -, hquote, hbracket, hbrace⟩ := hbegins
  rw [List.cons_append] at h ⊢
  rw [scanOnce, if_neg hquote, if_neg hbracket, if_neg hbrace, h, Option.some_or]

theorem scanKey_printKey (k : String) (cs : List Char) (h : isWhitespace c = false) :
    scanKey (printKey k ++ (c :: cs)) = some (k, c :: cs) := by
  have hkey : printKey k ++ (c :: cs) =
      '"' :: (k.toList.flatMap escapeChar ++ '"' :: ':' :: ' ' :: c :: cs) := by
    simp [printKey, printString]
  have hgap : skip (':' :: ' ' :: c :: cs) = ':' :: ' ' :: c :: cs := skip_cons (by decide)
  have hskip : skip (' ' :: c :: cs) = c :: cs :=
    (skip_append (List.forall_mem_singleton.mpr rfl)).trans (skip_cons h)
  rw [hkey, scanKey, if_pos rfl, scanString_printString]
  simp only [hgap, if_true, hskip]

theorem ends_cons (h : c = ',' ∨ c = ']' ∨ c = '\x7d' ∨ c = '\n') : Ends (c :: cs) := by
  intro d hd
  obtain rfl : c = d := by simpa using hd
  rcases h with rfl | rfl | rfl | rfl <;> decide

theorem ends_newline (h : c = ']' ∨ c = '\x7d') : Ends (newline indent level ++ (c :: cs)) := by
  cases indent with
  | none => exact ends_cons (.inr (h.imp_right .inl))
  | some n => exact ends_cons (.inr (.inr (.inr rfl)))

theorem ends_items (indent : Option ℕ) (level l : ℕ) (xs : List Json) (cs : List Char)
    (h : c = ']' ∨ c = '\x7d') :
    Ends (printItems indent level xs ++ (newline indent l ++ (c :: cs))) := by
  cases xs with
  | nil => exact ends_newline h
  | cons x xs =>
    obtain ⟨gap, hgap, -⟩ := separator_eq indent level
    rw [printItems, hgap]
    exact ends_cons (.inl rfl)

theorem ends_entries (indent : Option ℕ) (level l : ℕ) (kvs : List (String × Json))
    (cs : List Char) (h : c = ']' ∨ c = '\x7d') :
    Ends (printEntries indent level kvs ++ (newline indent l ++ (c :: cs))) := by
  cases kvs with
  | nil => exact ends_newline h
  | cons e kvs =>
    obtain ⟨k, x⟩ := e
    obtain ⟨gap, hgap, -⟩ := separator_eq indent level
    rw [printEntries, hgap]
    exact ends_cons (.inl rfl)

/-- The entries that were read make the dictionary that they were written from. -/
theorem foldl_set_of_nodup (h : (Entries.keys kvs).Nodup) :
    kvs.foldl (fun d e => Entries.set d e.1 e.2) [] = kvs := by
  have hset {d : List (String × Json)} {k : String} {x : Json} (hk : k ∉ Entries.keys d) :
      Entries.set d k x = d ++ [(k, x)] := by
    induction d with
    | nil => rfl
    | cons e d ih =>
      simp only [Entries.keys, List.map_cons, List.mem_cons, not_or] at hk
      rw [Entries.set, if_neg (Ne.symm hk.1), ih hk.2, List.cons_append]
  have hall (d : List (String × Json)) (hd : (Entries.keys (d ++ kvs)).Nodup) :
      kvs.foldl (fun d e => Entries.set d e.1 e.2) d = d ++ kvs := by
    induction kvs generalizing d with
    | nil => simp
    | cons e kvs ih =>
      obtain ⟨k, x⟩ := e
      have hk : k ∉ Entries.keys d := by
        simp only [Entries.keys, List.map_append, List.map_cons] at hd
        exact fun hmem => (List.nodup_append.mp hd).2.2 k hmem k (List.mem_cons_self ..) rfl
      rw [List.foldl_cons, hset hk, ih (List.Nodup.of_cons h) _ (by simpa using hd)]
      simp
  simpa using hall [] (by simpa using h)

/-! The loops over the elements of an array and the entries of an object. -/

variable {x : Json} {k : String} {rest' : List Char}

theorem scanArray_of_begins (hc : Begins c)
    (hx : scanOnce floatRepr n (c :: cs) = some (x, rest))
    (hxs : scanItems floatRepr n (skip rest) = some (xs, rest')) :
    scanArray floatRepr (n + 1) (c :: cs) = some (.arr (x :: xs), rest') := by
  simp only [scanArray, if_neg hc.2.1, hx, hxs, Option.map_some]

theorem scanItems_comma (hx : scanOnce floatRepr n (skip cs) = some (x, rest))
    (hxs : scanItems floatRepr n (skip rest) = some (xs, rest')) :
    scanItems floatRepr (n + 1) (',' :: cs) = some (x :: xs, rest') := by
  have hne : ',' ≠ ']' := by decide
  simp only [scanItems, if_neg hne, if_true, hx, hxs, Option.map_some]

theorem scanObject_of_key (hkey : scanKey ('"' :: cs) = some (k, rest))
    (hx : scanOnce floatRepr n rest = some (x, rest'))
    {rest'' : List Char} (hkvs : scanEntries floatRepr n (skip rest') = some (kvs, rest'')) :
    scanObject floatRepr (n + 1) ('"' :: cs) =
      some (.obj (((k, x) :: kvs).foldl (fun d e => Entries.set d e.1 e.2) []), rest'') := by
  have hne : '"' ≠ '\x7d' := by decide
  simp only [scanObject, if_neg hne, hkey, hx, hkvs, Option.map_some]

theorem scanEntries_comma (hkey : scanKey (skip cs) = some (k, rest))
    (hx : scanOnce floatRepr n rest = some (x, rest'))
    {rest'' : List Char} (hkvs : scanEntries floatRepr n (skip rest') = some (kvs, rest'')) :
    scanEntries floatRepr (n + 1) (',' :: cs) = some ((k, x) :: kvs, rest'') := by
  have hne : ',' ≠ '\x7d' := by decide
  simp only [scanEntries, if_neg hne, if_true, hkey, hx, hkvs, Option.map_some]

/-- White space before a value is skipped. -/
theorem skip_print (indent : Option ℕ) (level : ℕ) (cs : List Char) {gap : List Char}
    (hgap : ∀ c ∈ gap, isWhitespace c = true) (hx : IsPython floatRepr x) :
    ∃ c cs', skip (gap ++ (print indent level x ++ cs)) = c :: cs' ∧
      Begins c ∧ c :: cs' = print indent level x ++ cs := by
  obtain ⟨c, cs', heq, hc⟩ := begins_print indent level hx
  refine ⟨c, cs' ++ cs, ?_, hc, by rw [heq, List.cons_append]⟩
  rw [skip_append hgap, heq, List.cons_append, skip_cons hc.1]

theorem skip_newline (h : isWhitespace c = false) :
    skip (newline indent level ++ (c :: cs)) = c :: cs :=
  (skip_append (isWhitespace_newline indent level)).trans (skip_cons h)

/-- White space before a key is skipped. -/
theorem skip_printKey {gap : List Char} (hgap : ∀ c ∈ gap, isWhitespace c = true) :
    skip (gap ++ (printKey k ++ cs)) = printKey k ++ cs :=
  (skip_append hgap).trans (skip_cons (by decide))

/-- The fuel for a value is enough for two calls. -/
theorem fuel_of_print (hv : IsPython floatRepr v) (hn : 2 * (print indent level v).length ≤ n) :
    ∃ m, n = m + 2 := by
  obtain ⟨c, cs, heq, -⟩ := begins_print indent level hv
  rw [heq, List.length_cons] at hn
  exact ⟨n - 2, by omega⟩

theorem scanOnce_printFloat {r : String} (hr : IsRepr floatRepr r) (hrest : Ends rest) :
    scanOnce floatRepr (n + 1) (printFloat r ++ rest) = some (.float r, rest) := by
  unfold printFloat
  split_ifs with hnan hinf hneginf
  · exact hnan ▸ scanOnce_constant (by simp [constants])
  · exact hinf ▸ scanOnce_constant (by simp [constants])
  · exact hneginf ▸ scanOnce_constant (by simp [constants])
  · have htext : FloatText floatRepr r :=
      ((hr.resolve_left hnan).resolve_left hinf).resolve_left hneginf
    exact scanOnce_number (beginsNumber_floatText htext) (scanNumber_float htext hrest)

theorem scanOnce_printString (s : String) :
    scanOnce floatRepr (n + 1) (printString s ++ rest) = some (.str s, rest) := by
  have htext : printString s ++ rest = '"' :: (s.toList.flatMap escapeChar ++ '"' :: rest) := by
    simp [printString]
  rw [htext, scanOnce, if_pos rfl, scanString_printString, Option.map_some]

theorem scanOnce_bracket : scanOnce floatRepr (n + 1) ('[' :: cs) =
    scanArray floatRepr n (skip cs) := by
  have hquote : '[' ≠ '"' := by decide
  rw [scanOnce, if_neg hquote, if_pos rfl]

theorem scanOnce_brace : scanOnce floatRepr (n + 1) ('\x7b' :: cs) =
    scanObject floatRepr n (skip cs) := by
  have hquote : '\x7b' ≠ '"' := by decide
  have hbracket : '\x7b' ≠ '[' := by decide
  rw [scanOnce, if_neg hquote, if_neg hbracket, if_pos rfl]

mutual

theorem scanOnce_print (v : Json) (level n : ℕ) (rest : List Char) (hv : IsPython floatRepr v)
    (hn : 2 * (print indent level v).length ≤ n) (hrest : Ends rest) :
    scanOnce floatRepr n (print indent level v ++ rest) = some (v, rest) := by
  obtain ⟨n, rfl⟩ := fuel_of_print hv hn
  match v with
  | .null =>
    rw [print]
    exact scanOnce_constant (by simp [constants])
  | .bool true =>
    rw [print]
    exact scanOnce_constant (by simp [constants])
  | .bool false =>
    rw [print]
    exact scanOnce_constant (by simp [constants])
  | .num i =>
    rw [print]
    exact scanOnce_number (beginsNumber_printInt i) (scanNumber_int floatRepr i hrest)
  | .float r =>
    rw [print]
    exact scanOnce_printFloat hv hrest
  | .str s =>
    rw [print]
    exact scanOnce_printString s
  | .arr [] =>
    have hskip : skip (']' :: rest) = ']' :: rest := skip_cons (by decide)
    rw [print, List.cons_append, List.cons_append, List.nil_append, scanOnce_bracket, hskip,
      scanArray, if_pos rfl]
  | .arr (x :: xs) =>
    rw [print] at hn ⊢
    simp only [List.length_cons, List.length_append, List.length_nil] at hn
    obtain ⟨c, cs, hskip, hc, hcs⟩ := skip_print indent (level + 1)
      (printItems indent (level + 1) xs ++ (newline indent level ++ (']' :: rest)))
      (isWhitespace_newline indent (level + 1)) hv.1
    have hx := scanOnce_print x (level + 1) n _ hv.1 (by omega)
      (ends_items indent (level + 1) level xs rest (.inl rfl))
    have hxs := scanItems_print xs (level + 1) level n rest hv.2 (by omega)
    simp only [List.cons_append, List.append_assoc, List.nil_append]
    rw [scanOnce_bracket, hskip]
    exact scanArray_of_begins hc (hcs ▸ hx) hxs
  | .obj [] =>
    have hskip : skip ('\x7d' :: rest) = '\x7d' :: rest := skip_cons (by decide)
    rw [print, List.cons_append, List.cons_append, List.nil_append, scanOnce_brace, hskip,
      scanObject, if_pos rfl]
  | .obj ((k, x) :: kvs) =>
    rw [print] at hn ⊢
    simp only [List.length_cons, List.length_append, List.length_nil] at hn
    obtain ⟨c, cs, heq, hc⟩ := begins_print indent (level + 1) hv.2.1
    have hx := scanOnce_print x (level + 1) n _ hv.2.1 (by omega)
      (ends_entries indent (level + 1) level kvs rest (.inr rfl))
    have hkvs := scanEntries_print kvs (level + 1) level n rest hv.2.2 (by omega)
    have hkey := scanKey_printKey k (cs ++ (printEntries indent (level + 1) kvs ++
      (newline indent level ++ ('\x7d' :: rest)))) hc.1
    rw [← List.cons_append, ← heq] at hkey
    simp only [List.cons_append, List.append_assoc, List.nil_append]
    rw [scanOnce_brace, skip_printKey (isWhitespace_newline indent (level + 1))]
    refine (scanObject_of_key hkey hx hkvs).trans ?_
    rw [foldl_set_of_nodup hv.1]

theorem scanItems_print (xs : List Json) (level l n : ℕ) (rest : List Char)
    (hxs : ArePython floatRepr xs) (hn : 2 * (printItems indent level xs).length + 1 ≤ n) :
    scanItems floatRepr n (skip (printItems indent level xs ++
      (newline indent l ++ (']' :: rest)))) = some (xs, rest) := by
  obtain ⟨n, rfl⟩ : ∃ m, n = m + 1 := ⟨n - 1, by omega⟩
  match xs with
  | [] =>
    rw [printItems, List.nil_append, skip_newline (by decide), scanItems, if_pos rfl]
  | x :: xs =>
    obtain ⟨gap, hgap, hspace⟩ := separator_eq indent level
    rw [printItems, hgap] at hn ⊢
    simp only [List.cons_append, List.length_cons, List.length_append] at hn
    obtain ⟨c, cs, hskip, hc, hcs⟩ := skip_print indent level
      (printItems indent level xs ++ (newline indent l ++ (']' :: rest))) hspace hxs.1
    have hx := scanOnce_print x level n _ hxs.1 (by omega)
      (ends_items indent level l xs rest (.inl rfl))
    have hrest := scanItems_print xs level l n rest hxs.2 (by omega)
    simp only [List.cons_append, List.append_assoc]
    rw [skip_cons (by decide)]
    exact scanItems_comma (by rw [hskip, hcs, hx]) hrest

theorem scanEntries_print (kvs : List (String × Json)) (level l n : ℕ) (rest : List Char)
    (hkvs : HoldPython floatRepr kvs)
    (hn : 2 * (printEntries indent level kvs).length + 1 ≤ n) :
    scanEntries floatRepr n (skip (printEntries indent level kvs ++
      (newline indent l ++ ('\x7d' :: rest)))) = some (kvs, rest) := by
  obtain ⟨n, rfl⟩ : ∃ m, n = m + 1 := ⟨n - 1, by omega⟩
  match kvs with
  | [] =>
    rw [printEntries, List.nil_append, skip_newline (by decide), scanEntries, if_pos rfl]
  | (k, x) :: kvs =>
    obtain ⟨gap, hgap, hspace⟩ := separator_eq indent level
    rw [printEntries, hgap] at hn ⊢
    simp only [List.cons_append, List.length_cons, List.length_append] at hn
    obtain ⟨c, cs, heq, hc⟩ := begins_print indent level hkvs.1
    have hx := scanOnce_print x level n _ hkvs.1 (by omega)
      (ends_entries indent level l kvs rest (.inr rfl))
    have hrest := scanEntries_print kvs level l n rest hkvs.2 (by omega)
    have hkey := scanKey_printKey k (cs ++ (printEntries indent level kvs ++
      (newline indent l ++ ('\x7d' :: rest)))) hc.1
    rw [← List.cons_append, ← heq] at hkey
    simp only [List.cons_append, List.append_assoc]
    rw [skip_cons (by decide)]
    exact scanEntries_comma (by rw [skip_printKey hspace, hkey]) hx hrest

end

/-- **A value is read as it was written**, whatever the layout. -/
theorem loads_print (hv : IsPython floatRepr v) :
    loads floatRepr (String.ofList (print indent level v)) = some v := by
  obtain ⟨c, cs, heq, hc⟩ := begins_print indent level hv
  have hskip : skip (print indent level v) = print indent level v := by rw [heq, skip_cons hc.1]
  have hscan : scanOnce floatRepr (2 * (print indent level v).length + 1)
      (print indent level v ++ []) = some (v, []) :=
    scanOnce_print v level _ [] hv (Nat.le_succ _) (by simp [Ends])
  rw [List.append_nil] at hscan
  rw [loads, String.toList_ofList, String.length_ofList, hskip, hscan]
  rfl

theorem loads_dumps (hv : IsPython floatRepr v) : loads floatRepr (dumps v) = some v :=
  loads_print hv

theorem loads_dumpsIndent (hv : IsPython floatRepr v) :
    loads floatRepr (dumpsIndent v) = some v :=
  loads_print hv

end RoundTrip

/-! ### Printable texts -/

section Printable

variable {floatRepr : String → String}

theorem printable_separator (level : ℕ) : Printable (separator none level) := by
  change Printable [',', ' ']
  decide

theorem printable_printKey (k : String) : Printable (printKey k) :=
  (printable_printString k).append (by decide)

theorem printable_printFloat {r : String} (hr : IsRepr floatRepr r) : Printable (printFloat r) := by
  unfold printFloat
  split_ifs with hnan hinf hneginf
  · decide
  · decide
  · decide
  · exact FloatText.printable (((hr.resolve_left hnan).resolve_left hinf).resolve_left hneginf)

mutual

theorem printable_print (v : Json) (level : ℕ) (hv : IsPython floatRepr v) :
    Printable (print none level v) := by
  match v with
  | .null | .bool true | .bool false | .arr [] | .obj [] =>
    rw [print]
    decide
  | .num i =>
    rw [print]
    exact printable_printInt i
  | .float r =>
    rw [print]
    exact printable_printFloat hv
  | .str s =>
    rw [print]
    exact printable_printString s
  | .arr (x :: xs) =>
    rw [print]
    exact (by decide : Printable ['[']).append ((printable_print x (level + 1) hv.1).append
      ((printable_printItems xs (level + 1) hv.2).append (by decide : Printable [']'])))
  | .obj ((k, x) :: kvs) =>
    rw [print]
    exact (by decide : Printable ['\x7b']).append ((printable_printKey k).append
      ((printable_print x (level + 1) hv.2.1).append
        ((printable_printEntries kvs (level + 1) hv.2.2).append (by decide : Printable ['\x7d']))))

theorem printable_printItems (xs : List Json) (level : ℕ) (hxs : ArePython floatRepr xs) :
    Printable (printItems none level xs) := by
  match xs with
  | [] =>
    rw [printItems]
    decide
  | x :: xs =>
    rw [printItems]
    exact (printable_separator level).append ((printable_print x level hxs.1).append
      (printable_printItems xs level hxs.2))

theorem printable_printEntries (kvs : List (String × Json)) (level : ℕ)
    (hkvs : HoldPython floatRepr kvs) : Printable (printEntries none level kvs) := by
  match kvs with
  | [] =>
    rw [printEntries]
    decide
  | (k, x) :: kvs =>
    rw [printEntries]
    exact (printable_separator level).append ((printable_printKey k).append
      ((printable_print x level hkvs.1).append (printable_printEntries kvs level hkvs.2)))

end

/-- **On one line a value is printable ASCII**, without line breaks. -/
theorem printable_dumps {v : Json} (hv : IsPython floatRepr v) : Printable (dumps v).toList := by
  rw [dumps, String.toList_ofList]
  exact printable_print v 0 hv

end Printable

end Nanogate.Python.JsonText
