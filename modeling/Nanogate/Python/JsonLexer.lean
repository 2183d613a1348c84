import Mathlib.Data.List.TakeWhile
import Nanogate.Python.Json
import Nanogate.Python.Url

/-!
# Strings and numbers in JSON texts

How `json.dumps` spells a string and a number, and how `json.loads` reads them. A string is
spelled in printable ASCII: what is not printable is escaped by its UTF-16 units. A number is an
integer unless it has a fraction or an exponent; what a float reads as is `float(text)`, of which
only `repr` is kept.

A `str` with a lone surrogate is no `String`, so a text that spells one is not read here.

## Main definitions

* `escapeChar`, `scanChar` — one character of a string, written and read
* `printString`, `scanString` — a string with its quotes
* `scanNumber` — the longest number that a text begins with
* `FloatText` — what `repr` returns for a finite float

## Main results

* `scanString_printString` — a string is read as it was written
* `scanNumber_int`, `scanNumber_float` — and so is a number, if nothing follows that continues it
* `printable_printString` — a string is spelled in printable ASCII
-/

namespace Nanogate.Python.JsonText

open Nanogate.Python

/-! ### Characters -/

/-- The characters that have an escape of two characters, and its second one. -/
def shortEscapes : List (Char × Char) :=
  [('"', '"'), ('\\', '\\'), ('\n', 'n'), ('\r', 'r'), ('\t', 't'), ('\x0c', 'f'), ('\x08', 'b')]

/-- `BACKSLASH`: the characters that the escapes of two characters stand for. -/
def shortUnescapes : List (Char × Char) :=
  [('"', '"'), ('\\', '\\'), ('/', '/'), ('b', '\x08'), ('f', '\x0c'), ('n', '\n'), ('r', '\r'),
    ('t', '\t')]

/-- `' '` to `'~'` -/
def isPrintable (c : Char) : Bool := ' ' ≤ c && c ≤ '~'

/-- The escape of one UTF-16 unit. -/
def escapeUnit (n : ℕ) : List Char :=
  ['\\', 'u', Nat.digitChar (n / 4096 % 16), Nat.digitChar (n / 256 % 16),
    Nat.digitChar (n / 16 % 16), Nat.digitChar (n % 16)]

/-- A character as `py_encode_basestring_ascii` spells it. -/
def escapeChar (c : Char) : List Char :=
  match shortEscapes.lookup c with
  | some e => ['\\', e]
  | none =>
    if isPrintable c then [c]
    else if c.toNat < 0x10000 then escapeUnit c.toNat
    else
      -- a surrogate pair
      escapeUnit (0xd800 + (c.toNat - 0x10000) / 0x400) ++
        escapeUnit (0xdc00 + (c.toNat - 0x10000) % 0x400)

/-- The unit that a text begins with the escape of. -/
def scanUnit : List Char → Option (ℕ × List Char)
  | '\\' :: 'u' :: a :: b :: c :: d :: rest =>
    match hexDigit a, hexDigit b, hexDigit c, hexDigit d with
    | some a, some b, some c, some d => some (4096 * a + 256 * b + 16 * c + d, rest)
    | _, _, _, _ => none
  | _ => none

/-- A character that is spelled by its units. -/
def scanUnits (cs : List Char) : Option (Char × List Char) :=
  match scanUnit cs with
  | none => none
  | some (unit, rest) =>
    if 0xd800 ≤ unit ∧ unit < 0xdc00 then
      match scanUnit rest with
      | some (low, rest) =>
        if 0xdc00 ≤ low ∧ low < 0xe000 then
          some (Char.ofNat (0x10000 + 0x400 * (unit - 0xd800) + (low - 0xdc00)), rest)
        else none
      | none => none
    else if 0xdc00 ≤ unit ∧ unit < 0xe000 then none
    else some (Char.ofNat unit, rest)

/-- One character of a string; control characters are not allowed in it. -/
def scanChar : List Char → Option (Char × List Char)
  | [] => none
  | c :: cs =>
    if c = '\\' then
      match cs with
      | [] => none
      | e :: rest =>
        if e = 'u' then scanUnits (c :: cs) else (shortUnescapes.lookup e).map fun x => (x, rest)
    else if c < ' ' then none
    else some (c, cs)

section Chars

variable {c : Char} {n : ℕ} {rest : List Char}

theorem hexDigit_digitChar (h : n < 16) : hexDigit (Nat.digitChar n) = some n := by
  have hall : ∀ n < 16, hexDigit (Nat.digitChar n) = some n := by decide
  exact hall n h

theorem scanUnit_escapeUnit (h : n < 0x10000) :
    scanUnit (escapeUnit n ++ rest) = some (n, rest) := by
  simp only [escapeUnit, List.cons_append, List.nil_append, scanUnit,
    hexDigit_digitChar (Nat.mod_lt _ (by decide : 0 < 16)), Option.some_inj, Prod.mk.injEq,
    and_true]
  omega

/-- No unit of a character is a surrogate by itself. -/
theorem toNat_ne_surrogate (c : Char) : ¬(0xd800 ≤ c.toNat ∧ c.toNat < 0xe000) := by
  have hvalid := c.valid
  rintro ⟨hlow, hhigh⟩
  rcases hvalid with h | ⟨h, -⟩
  · exact absurd (Nat.lt_of_lt_of_le h hlow) (Nat.lt_irrefl _)
  · exact absurd (Nat.lt_of_lt_of_le h (Nat.le_of_lt_succ hhigh)) (Nat.lt_irrefl _)

theorem toNat_lt (c : Char) : c.toNat < 0x110000 := by
  rcases c.valid with h | ⟨-, h⟩
  · exact Nat.lt_trans h (by decide)
  · exact h

theorem scanUnits_escapeUnit (h : c.toNat < 0x10000) :
    scanUnits (escapeUnit c.toNat ++ rest) = some (c, rest) := by
  have hno := toNat_ne_surrogate c
  rw [scanUnits, scanUnit_escapeUnit h]
  dsimp only
  rw [if_neg (by omega), if_neg (by omega), Char.ofNat_toNat]

theorem scanUnits_pair (h : ¬c.toNat < 0x10000) :
    scanUnits (escapeUnit (0xd800 + (c.toNat - 0x10000) / 0x400) ++
      (escapeUnit (0xdc00 + (c.toNat - 0x10000) % 0x400) ++ rest)) = some (c, rest) := by
  have hlt := toNat_lt c
  have hhigh : (c.toNat - 0x10000) / 0x400 < 0x400 := by omega
  have hlow : (c.toNat - 0x10000) % 0x400 < 0x400 := Nat.mod_lt _ (by decide)
  rw [scanUnits, scanUnit_escapeUnit (by omega)]
  dsimp only
  rw [if_pos (by omega), scanUnit_escapeUnit (by omega)]
  dsimp only
  rw [if_pos (by omega)]
  have hcode : 0x10000 + 0x400 * (0xd800 + (c.toNat - 0x10000) / 0x400 - 0xd800) +
      (0xdc00 + (c.toNat - 0x10000) % 0x400 - 0xdc00) = c.toNat := by omega
  rw [hcode, Char.ofNat_toNat]

/-- The escapes of two characters are read as they were written. -/
theorem lookup_shortUnescapes {e : Char} (h : shortEscapes.lookup c = some e) :
    e ≠ 'u' ∧ shortUnescapes.lookup e = some c := by
  have hall : ∀ p ∈ shortEscapes, p.2 ≠ 'u' ∧ shortUnescapes.lookup p.2 = some p.1 := by decide
  obtain ⟨l, l', hsplit, -⟩ := List.lookup_eq_some_iff.mp h
  exact hall (c, e) (by rw [hsplit]; simp)

theorem scanChar_escapeUnit :
    scanChar (escapeUnit n ++ rest) = scanUnits (escapeUnit n ++ rest) := by
  simp [scanChar, escapeUnit]

/-- **A character is read as it was written.** -/
theorem scanChar_escapeChar (c : Char) (rest : List Char) :
    scanChar (escapeChar c ++ rest) = some (c, rest) := by
  unfold escapeChar
  cases hshort : shortEscapes.lookup c with
  | some e =>
    obtain ⟨hu, hlookup⟩ := lookup_shortUnescapes hshort
    simp [scanChar, hu, hlookup]
  | none =>
    dsimp only
    split_ifs with hplain hunit
    · have hslash : c ≠ '\\' := by
        rintro rfl
        exact absurd hshort (by decide)
      have hcontrol : ¬c < ' ' := by
        simp only [isPrintable, Bool.and_eq_true, decide_eq_true_eq] at hplain
        exact Char.not_lt.mpr hplain.1
      simp [scanChar, hslash, hcontrol]
    · rw [scanChar_escapeUnit, scanUnits_escapeUnit hunit]
    · rw [List.append_assoc, scanChar_escapeUnit, scanUnits_pair hunit]

/-- A character that begins a spelled one is not the closing quote. -/
theorem head_escapeChar_ne (c : Char) : (escapeChar c).head? ≠ some '"' := by
  unfold escapeChar
  cases hshort : shortEscapes.lookup c with
  | some e => simp
  | none =>
    dsimp only
    split_ifs with hplain
    · simp only [List.head?_cons, ne_eq, Option.some_inj]
      rintro rfl
      exact absurd hshort (by decide)
    · simp [escapeUnit]
    · simp [escapeUnit]

theorem escapeChar_ne_nil (c : Char) : escapeChar c ≠ [] := by
  unfold escapeChar
  cases shortEscapes.lookup c with
  | some e => simp
  | none =>
    dsimp only
    split_ifs <;> simp [escapeUnit]

end Chars

/-! ### Strings -/

/-- A string with its quotes. -/
def printString (s : String) : List Char := '"' :: (s.toList.flatMap escapeChar ++ ['"'])

/-- The characters up to the closing quote, at most `n` of them. -/
def scanChars : ℕ → List Char → Option (List Char × List Char)
  | 0, _ => none
  | _ + 1, [] => none
  | n + 1, c :: cs =>
    if c = '"' then some ([], cs)
    else
      match scanChar (c :: cs) with
      | some (x, rest) => (scanChars n rest).map fun p => (x :: p.1, p.2)
      | none => none

/-- `scanstring`, after the opening quote. -/
def scanString (cs : List Char) : Option (String × List Char) :=
  (scanChars (cs.length + 1) cs).map fun p => (String.ofList p.1, p.2)

section Strings

variable {s : List Char} {n : ℕ} {rest : List Char}

theorem scanChars_escaped (h : s.length < n) :
    scanChars n (s.flatMap escapeChar ++ '"' :: rest) = some (s, rest) := by
  induction s generalizing n with
  | nil =>
    obtain ⟨n, rfl⟩ := Nat.exists_eq_succ_of_ne_zero (Nat.ne_of_gt h)
    simp [scanChars]
  | cons c s ih =>
    obtain ⟨n, rfl⟩ := Nat.exists_eq_succ_of_ne_zero (Nat.ne_of_gt (Nat.zero_lt_of_lt h))
    rw [List.flatMap_cons, List.append_assoc]
    have hscan := scanChar_escapeChar c (s.flatMap escapeChar ++ '"' :: rest)
    have hhead := head_escapeChar_ne c
    cases hescaped : escapeChar c with
    | nil => exact absurd hescaped (escapeChar_ne_nil c)
    | cons e es =>
      rw [hescaped, List.cons_append] at hscan
      rw [hescaped, List.head?_cons, ne_eq, Option.some_inj] at hhead
      rw [List.cons_append, scanChars, if_neg hhead, hscan]
      dsimp only
      rw [ih (Nat.lt_of_succ_lt_succ h), Option.map_some]

theorem length_le_escaped (s : List Char) : s.length ≤ (s.flatMap escapeChar).length := by
  induction s with
  | nil => exact Nat.le_refl _
  | cons c s ih =>
    have hpos := List.length_pos_of_ne_nil (escapeChar_ne_nil c)
    rw [List.flatMap_cons, List.length_append, List.length_cons]
    omega

/-- **A string is read as it was written.** -/
theorem scanString_printString (s : String) (rest : List Char) :
    scanString (s.toList.flatMap escapeChar ++ '"' :: rest) = some (s, rest) := by
  have hlength := length_le_escaped s.toList
  rw [scanString, scanChars_escaped (by rw [List.length_append]; omega), Option.map_some,
    String.ofList_toList]

end Strings

/-! ### Numbers -/

/-- `0|[1-9][0-9]*` -/
def scanWhole : List Char → Option (List Char × List Char)
  | [] => none
  | c :: cs =>
    if c = '0' then some ([c], cs)
    else if c.isDigit then some (c :: cs.takeWhile Char.isDigit, cs.dropWhile Char.isDigit)
    else none

/-- `-?` -/
def scanMinus : List Char → List Char × List Char
  | [] => ([], [])
  | c :: cs => if c = '-' then ([c], cs) else ([], c :: cs)

/-- `(\.[0-9]+)?` -/
def scanFraction : List Char → List Char × List Char
  | [] => ([], [])
  | c :: cs =>
    if c = '.' ∧ cs.takeWhile Char.isDigit ≠ [] then
      (c :: cs.takeWhile Char.isDigit, cs.dropWhile Char.isDigit)
    else ([], c :: cs)

/-- `[-+]?` -/
def scanSign : List Char → List Char × List Char
  | [] => ([], [])
  | c :: cs => if c = '-' ∨ c = '+' then ([c], cs) else ([], c :: cs)

/-- `([eE][-+]?[0-9]+)?` -/
def scanExponent : List Char → List Char × List Char
  | [] => ([], [])
  | c :: cs =>
    let (sign, ds) := scanSign cs
    if (c = 'e' ∨ c = 'E') ∧ ds.takeWhile Char.isDigit ≠ [] then
      (c :: (sign ++ ds.takeWhile Char.isDigit), ds.dropWhile Char.isDigit)
    else ([], c :: cs)

/-- The value of an integer. -/
def intOf (minus whole : List Char) : Int :=
  if minus = [] then Nat.ofDigitChars 10 whole 0 else -(Nat.ofDigitChars 10 whole 0 : ℕ)

/-- `match_number`, where `floatRepr` is `repr(float(text))`. -/
def scanNumber (floatRepr : String → String) (cs : List Char) : Option (Json × List Char) :=
  let (minus, cs) := scanMinus cs
  match scanWhole cs with
  | none => none
  | some (whole, cs) =>
    let (fraction, cs) := scanFraction cs
    let (exponent, cs) := scanExponent cs
    some (
      if fraction = [] ∧ exponent = [] then .num (intOf minus whole)
      else .float (floatRepr (String.ofList (minus ++ whole ++ fraction ++ exponent))), cs)

/-- `int.__repr__` -/
def printInt (i : Int) : List Char :=
  if i < 0 then '-' :: Nat.toDigits 10 i.natAbs else Nat.toDigits 10 i.natAbs

/-- What `scanWhole` takes whole. -/
def IsWhole (whole : List Char) : Prop :=
  whole = ['0'] ∨
    ∃ c ds, whole = c :: ds ∧ c ≠ '0' ∧ c.isDigit = true ∧ ∀ d ∈ ds, d.isDigit = true

/-- What `scanFraction` takes whole. -/
def IsFraction (fraction : List Char) : Prop :=
  fraction = [] ∨ ∃ ds, fraction = '.' :: ds ∧ ds ≠ [] ∧ ∀ d ∈ ds, d.isDigit = true

/-- What `scanExponent` takes whole. -/
def IsExponent (exponent : List Char) : Prop :=
  exponent = [] ∨ ∃ e sign ds, exponent = e :: (sign ++ ds) ∧ (e = 'e' ∨ e = 'E') ∧
    (sign = [] ∨ sign = ['-'] ∨ sign = ['+']) ∧ ds ≠ [] ∧ ∀ d ∈ ds, d.isDigit = true

/-- What `repr` returns for a finite float, `floatRepr` being `repr(float(text))`. -/
structure FloatText (floatRepr : String → String) (r : String) : Prop where
  spelled : ∃ minus whole fraction exponent, r.toList = minus ++ whole ++ fraction ++ exponent ∧
    (minus = [] ∨ minus = ['-']) ∧ IsWhole whole ∧ IsFraction fraction ∧ IsExponent exponent ∧
    ¬(fraction = [] ∧ exponent = [])
  canonical : floatRepr r = r

/-- Nothing that continues a number. -/
def Ends (rest : List Char) : Prop :=
  ∀ c ∈ rest.head?, c.isDigit = false ∧ c ≠ '.' ∧ c ≠ 'e' ∧ c ≠ 'E'

section Numbers

variable {minus whole fraction exponent ds rest : List Char} {n : ℕ}

theorem takeWhile_digits (hds : ∀ d ∈ ds, d.isDigit = true)
    (hrest : ∀ c ∈ rest.head?, c.isDigit = false) :
    (ds ++ rest).takeWhile Char.isDigit = ds ∧ (ds ++ rest).dropWhile Char.isDigit = rest := by
  rw [List.takeWhile_append_of_pos hds, List.dropWhile_append_of_pos hds]
  cases rest with
  | nil => simp
  | cons c rest =>
    have hc := hrest c rfl
    simp [hc]

theorem scanWhole_append (h : IsWhole whole) (hrest : ∀ c ∈ rest.head?, c.isDigit = false) :
    scanWhole (whole ++ rest) = some (whole, rest) := by
  rcases h with rfl | ⟨c, ds, rfl, hzero, hc, hds⟩
  · rfl
  · obtain ⟨htake, hdrop⟩ := takeWhile_digits hds hrest
    simp [scanWhole, hzero, hc, htake, hdrop]

theorem scanFraction_append (h : IsFraction fraction)
    (hrest : ∀ c ∈ rest.head?, c.isDigit = false ∧ c ≠ '.') :
    scanFraction (fraction ++ rest) = (fraction, rest) := by
  rcases h with rfl | ⟨ds, rfl, hne, hds⟩
  · cases rest with
    | nil => rfl
    | cons c rest => simp [scanFraction, (hrest c rfl).2]
  · obtain ⟨htake, hdrop⟩ := takeWhile_digits hds fun c hc => (hrest c hc).1
    simp [scanFraction, htake, hdrop, hne]

theorem scanSign_append {sign : List Char} (h : sign = [] ∨ sign = ['-'] ∨ sign = ['+'])
    (hne : ds ≠ []) (hds : ∀ d ∈ ds, d.isDigit = true) :
    scanSign (sign ++ (ds ++ rest)) = (sign, ds ++ rest) := by
  rcases h with rfl | rfl | rfl
  · cases ds with
    | nil => exact absurd rfl hne
    | cons d ds =>
      -- a digit is no sign
      have hd := hds d (List.mem_cons_self ..)
      have hminus : d ≠ '-' := by rintro rfl; exact absurd hd (by decide)
      have hplus : d ≠ '+' := by rintro rfl; exact absurd hd (by decide)
      simp [scanSign, hminus, hplus]
  · rfl
  · rfl

theorem scanExponent_append (h : IsExponent exponent) (hrest : Ends rest) :
    scanExponent (exponent ++ rest) = (exponent, rest) := by
  rcases h with rfl | ⟨e, sign, ds, rfl, he, hsign, hne, hds⟩
  · cases rest with
    | nil => rfl
    | cons c rest =>
      obtain ⟨-, -, hlower, hupper⟩ := hrest c rfl
      simp [scanExponent, hlower, hupper]
  · obtain ⟨htake, hdrop⟩ := takeWhile_digits hds fun c hc => (hrest c hc).1
    rw [List.cons_append, List.append_assoc, scanExponent, scanSign_append hsign hne hds]
    dsimp only
    rw [htake, hdrop, if_pos ⟨he, hne⟩]

theorem scanMinus_append (h : minus = [] ∨ minus = ['-']) (hwhole : IsWhole whole) :
    scanMinus (minus ++ (whole ++ rest)) = (minus, whole ++ rest) := by
  rcases h with rfl | rfl
  · rcases hwhole with rfl | ⟨c, ds, rfl, -, hc, -⟩
    · rfl
    · have hminus : c ≠ '-' := by rintro rfl; exact absurd hc (by decide)
      simp [scanMinus, hminus]
  · rfl

/-- What follows the whole part, when the number has ended before `rest`. -/
theorem head_fraction_append (hfraction : IsFraction fraction) (hexponent : IsExponent exponent)
    (hrest : Ends rest) : ∀ c ∈ (fraction ++ (exponent ++ rest)).head?, c.isDigit = false := by
  intro c hc
  rcases hfraction with rfl | ⟨ds, rfl, -, -⟩
  · rcases hexponent with rfl | ⟨e, sign, ds, rfl, he, -⟩
    · exact (hrest c hc).1
    · obtain rfl : e = c := by simpa using hc
      rcases he with rfl | rfl <;> decide
  · obtain rfl : '.' = c := by simpa using hc
    decide

theorem head_exponent_append (hexponent : IsExponent exponent) (hrest : Ends rest) :
    ∀ c ∈ (exponent ++ rest).head?, c.isDigit = false ∧ c ≠ '.' := by
  intro c hc
  rcases hexponent with rfl | ⟨e, sign, ds, rfl, he, -⟩
  · exact ⟨(hrest c hc).1, (hrest c hc).2.1⟩
  · obtain rfl : e = c := by simpa using hc
    rcases he with rfl | rfl <;> decide

/-- A number is read up to its end. -/
theorem scanNumber_append (floatRepr : String → String) (hminus : minus = [] ∨ minus = ['-'])
    (hwhole : IsWhole whole) (hfraction : IsFraction fraction) (hexponent : IsExponent exponent)
    (hrest : Ends rest) :
    scanNumber floatRepr (minus ++ (whole ++ (fraction ++ (exponent ++ rest)))) =
      some (if fraction = [] ∧ exponent = [] then .num (intOf minus whole)
        else .float (floatRepr (String.ofList (minus ++ whole ++ fraction ++ exponent))),
        rest) := by
  simp only [scanNumber, scanMinus_append hminus hwhole,
    scanWhole_append hwhole (head_fraction_append hfraction hexponent hrest),
    scanFraction_append hfraction (head_exponent_append hexponent hrest),
    scanExponent_append hexponent hrest]

theorem isDigit_digitChar (h : n < 10) : (Nat.digitChar n).isDigit = true := by
  have hall : ∀ n < 10, (Nat.digitChar n).isDigit = true := by decide
  exact hall n h

theorem digitChar_ne_zero (h : n < 10) (hn : n ≠ 0) : Nat.digitChar n ≠ '0' := by
  have hall : ∀ n < 10, n ≠ 0 → Nat.digitChar n ≠ '0' := by decide
  exact hall n h hn

theorem isWhole_digits_of_pos (hn : n ≠ 0) :
    ∃ c ds, Nat.toDigits 10 n = c :: ds ∧ c ≠ '0' ∧ c.isDigit = true ∧
      ∀ d ∈ ds, d.isDigit = true := by
  induction n using Nat.strong_induction_on with
  | _ n ih =>
    rw [Nat.toDigits_eq_if (by decide)]
    split_ifs with hlt
    · exact ⟨_, [], rfl, digitChar_ne_zero hlt hn, isDigit_digitChar hlt, by simp⟩
    · obtain ⟨c, ds, hdigits, hzero, hc, hds⟩ := ih (n / 10) (by omega) (by omega)
      refine ⟨c, ds ++ [Nat.digitChar (n % 10)], by rw [hdigits, List.cons_append], hzero, hc, ?_⟩
      intro d hd
      rcases List.mem_append.mp hd with hd | hd
      · exact hds d hd
      · rw [List.mem_singleton.mp hd]
        exact isDigit_digitChar (Nat.mod_lt _ (by decide))

theorem isWhole_digits (n : ℕ) : IsWhole (Nat.toDigits 10 n) := by
  by_cases hn : n = 0
  · exact .inl (by rw [hn, Nat.toDigits_zero])
  · exact .inr (isWhole_digits_of_pos hn)

/-- **An integer is read as it was written.** -/
theorem scanNumber_int (floatRepr : String → String) (i : Int) (hrest : Ends rest) :
    scanNumber floatRepr (printInt i ++ rest) = some (.num i, rest) := by
  have hwhole := isWhole_digits i.natAbs
  have hscan {minus : List Char} (hminus : minus = [] ∨ minus = ['-']) :=
    scanNumber_append floatRepr hminus hwhole (.inl rfl) (.inl rfl) hrest
  unfold printInt
  split_ifs with hneg
  · have hvalue : intOf ['-'] (Nat.toDigits 10 i.natAbs) = i := by
      rw [intOf, if_neg (by simp), Nat.ofDigitChars_ten_toDigits]
      omega
    rw [List.cons_append, ← List.singleton_append]
    refine (hscan (.inr rfl)).trans ?_
    rw [if_pos ⟨rfl, rfl⟩, hvalue]
  · have hvalue : intOf [] (Nat.toDigits 10 i.natAbs) = i := by
      rw [intOf, if_pos rfl, Nat.ofDigitChars_ten_toDigits]
      omega
    refine (hscan (.inl rfl)).trans ?_
    rw [if_pos ⟨rfl, rfl⟩, hvalue]

/-- **A finite float is read as it was written.** -/
theorem scanNumber_float {floatRepr : String → String} {r : String} (hr : FloatText floatRepr r)
    (hrest : Ends rest) : scanNumber floatRepr (r.toList ++ rest) = some (.float r, rest) := by
  obtain ⟨⟨minus, whole, fraction, exponent, hspelled, hminus, hwhole, hfraction, hexponent, hne⟩,
    hcanonical⟩ := hr
  have htext : r.toList ++ rest = minus ++ (whole ++ (fraction ++ (exponent ++ rest))) := by
    rw [hspelled]
    simp only [List.append_assoc]
  rw [htext, scanNumber_append floatRepr hminus hwhole hfraction hexponent hrest, if_neg hne,
    ← hspelled, String.ofList_toList, hcanonical]

end Numbers

/-! ### Printable texts -/

/-- Printable ASCII only. -/
def Printable (cs : List Char) : Prop := ∀ c ∈ cs, isPrintable c = true

instance (cs : List Char) : Decidable (Printable cs) :=
  List.decidableBAll (fun c => isPrintable c = true) cs

section Printable

variable {cs cs' : List Char}

theorem Printable.append (h : Printable cs) (h' : Printable cs') :
    Printable (cs ++ cs') := fun c hc =>
  (List.mem_append.mp hc).elim (h c) (h' c)

theorem printable_digits (h : ∀ d ∈ cs, d.isDigit = true) : Printable cs := by
  intro d hd
  have hdigit := h d hd
  simp only [Char.isDigit, Bool.and_eq_true, decide_eq_true_eq] at hdigit
  simp only [isPrintable, Bool.and_eq_true, decide_eq_true_eq]
  exact ⟨Char.le_trans (by decide) hdigit.1, Char.le_trans hdigit.2 (by decide)⟩

theorem printable_escapeUnit (n : ℕ) : Printable (escapeUnit n) := by
  have hall : ∀ n < 16, isPrintable (Nat.digitChar n) = true := by decide
  have hdigit (m : ℕ) : isPrintable (Nat.digitChar (m % 16)) = true :=
    hall _ (Nat.mod_lt _ (by decide))
  intro c hc
  simp only [escapeUnit, List.mem_cons, List.not_mem_nil, or_false] at hc
  rcases hc with rfl | rfl | rfl | rfl | rfl | rfl
  · decide
  · decide
  all_goals exact hdigit _

theorem printable_escapeChar (c : Char) : Printable (escapeChar c) := by
  unfold escapeChar
  cases hshort : shortEscapes.lookup c with
  | some e =>
    have hall : ∀ p ∈ shortEscapes, Printable ['\\', p.2] := by decide
    obtain ⟨l, l', hsplit, -⟩ := List.lookup_eq_some_iff.mp hshort
    exact hall (c, e) (by rw [hsplit]; simp)
  | none =>
    dsimp only
    split_ifs with hplain
    · exact fun d hd => List.mem_singleton.mp hd ▸ hplain
    · exact printable_escapeUnit _
    · exact (printable_escapeUnit _).append (printable_escapeUnit _)

theorem printable_printString (s : String) : Printable (printString s) := by
  intro c hc
  rcases List.mem_cons.mp hc with rfl | hc
  · decide
  · rcases List.mem_append.mp hc with hc | hc
    · obtain ⟨d, -, hd⟩ := List.mem_flatMap.mp hc
      exact printable_escapeChar d c hd
    · rw [List.mem_singleton.mp hc]
      decide

theorem printable_printInt (i : Int) : Printable (printInt i) := by
  have hdigits : Printable (Nat.toDigits 10 i.natAbs) := printable_digits fun d hd =>
    Nat.isDigit_of_mem_toDigits (by decide) (by decide) hd
  unfold printInt
  split_ifs
  · exact (by decide : Printable ['-']).append hdigits
  · exact hdigits

theorem IsWhole.printable (h : IsWhole cs) : Printable cs := by
  rcases h with rfl | ⟨c, ds, rfl, -, hc, hds⟩
  · decide
  · exact printable_digits fun d hd => (List.mem_cons.mp hd).elim (fun h => h ▸ hc) (hds d)

theorem IsFraction.printable (h : IsFraction cs) : Printable cs := by
  rcases h with rfl | ⟨ds, rfl, -, hds⟩
  · decide
  · exact (by decide : Printable ['.']).append (printable_digits hds)

theorem IsExponent.printable (h : IsExponent cs) : Printable cs := by
  rcases h with rfl | ⟨e, sign, ds, rfl, he, hsign, -, hds⟩
  · decide
  · have hplain : Printable (e :: sign) := by
      rcases he with rfl | rfl <;> rcases hsign with rfl | rfl | rfl <;> decide
    exact hplain.append (printable_digits hds)

theorem FloatText.printable {floatRepr : String → String} {r : String} (h : FloatText floatRepr r) :
    Printable r.toList := by
  obtain ⟨minus, whole, fraction, exponent, hspelled, hminus, hwhole, hfraction, hexponent, -⟩ :=
    h.spelled
  have hsign : Printable minus := by rcases hminus with rfl | rfl <;> decide
  rw [hspelled]
  exact ((hsign.append hwhole.printable).append hfraction.printable).append hexponent.printable

end Printable

end Nanogate.Python.JsonText
