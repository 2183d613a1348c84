import Mathlib.Algebra.Group.Nat.Defs
import Mathlib.Data.List.TakeWhile

/-!
# Ids of stream entries

Redis writes the id of an entry as two decimal numbers `ms-seq`, the second one below `2 ^ 64`, and
orders ids lexicographically. The number that stands for an id in a `Stream` is thus
`ms * 2 ^ 64 + seq`. A client names an id by the text it was given; the second number may be left
out, and is `0` then.

## Main definitions

* `idText` — an id as Redis writes it
* `parseId` — an id as Redis reads it

## Main results

* `parseId_idText` — an id is read as it was written
-/

namespace Nanogate.Redis

/-- How many sequence numbers there are in a millisecond. -/
def seqs : ℕ := 2 ^ 64

/-- `ms-seq` -/
def idText (id : ℕ) : String :=
  String.ofList (Nat.toDigits 10 (id / seqs) ++ '-' :: Nat.toDigits 10 (id % seqs))

/-- A number in decimal digits. -/
def decimal (digits : List Char) : Option ℕ :=
  if digits ≠ [] ∧ digits.all Char.isDigit then some (Nat.ofDigitChars 10 digits 0) else none

/-- The id that a text names; the special ids of `XREAD` are not among them. -/
def parseId (text : String) : Option ℕ :=
  let ms := text.toList.takeWhile (· ≠ '-')
  match text.toList.dropWhile (· ≠ '-') with
  | [] => (decimal ms).map (· * seqs)
  | _ :: seq =>
    match decimal ms, decimal seq with
    | some ms, some seq => if seq < seqs then some (ms * seqs + seq) else none
    | _, _ => none

theorem seqs_pos : 0 < seqs := by decide

theorem decimal_toDigits (n : ℕ) : decimal (Nat.toDigits 10 n) = some n := by
  have hdigits : (Nat.toDigits 10 n).all Char.isDigit = true := List.all_eq_true.mpr fun c hc =>
    Nat.isDigit_of_mem_toDigits (by decide) (by decide) hc
  rw [decimal, if_pos ⟨Nat.toDigits_ne_nil, hdigits⟩, Nat.ofDigitChars_ten_toDigits]

/-- The separator is not a digit. -/
theorem ne_separator_of_mem_toDigits {n : ℕ} {c : Char} (hc : c ∈ Nat.toDigits 10 n) : c ≠ '-' := by
  rintro rfl
  have hdigit := Nat.isDigit_of_mem_toDigits (by decide) (by decide) hc
  exact absurd hdigit (by decide)

/-- An id is read as it was written. -/
theorem parseId_idText (id : ℕ) : parseId (idText id) = some id := by
  have hms : ∀ c ∈ Nat.toDigits 10 (id / seqs), decide (c ≠ '-') = true := fun c hc =>
    decide_eq_true (ne_separator_of_mem_toDigits hc)
  have htake : (idText id).toList.takeWhile (· ≠ '-') = Nat.toDigits 10 (id / seqs) := by
    rw [idText, String.toList_ofList, List.takeWhile_append_of_pos hms]
    simp
  have hdrop : (idText id).toList.dropWhile (· ≠ '-') = '-' :: Nat.toDigits 10 (id % seqs) := by
    rw [idText, String.toList_ofList, List.dropWhile_append_of_pos hms]
    simp
  simp only [parseId, htake, hdrop, decimal_toDigits]
  rw [if_pos (Nat.mod_lt _ seqs_pos), Nat.mul_comm, Nat.div_add_mod]

end Nanogate.Redis
