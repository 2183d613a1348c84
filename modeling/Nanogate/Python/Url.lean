import Nanogate.Python.Text

/-!
# Percent-decoding

`urllib.parse.unquote`: each `%` with two hexadecimal digits is a byte, and what does not have
that form stays as it is. Bytes that stand together are decoded as UTF-8, and each longest part
that begins no character becomes a replacement character. Other characters never continue a
sequence of bytes, so the machine that reads the bytes starts anew after each of them.

## Main definitions

* `feed`, `flush` — the machine that reads UTF-8
* `unquote` — the decoding
* `Escape` — a percent escape

## Main results

* `length_unquoteFrom_le` — decoding makes no text longer
* `unquoteFrom_eq_self_iff` — it changes exactly the texts with an escape in them
-/

namespace Nanogate.Python

/-! ### UTF-8 -/

/-- A character of which some bytes are missing: its code so far, how many, and the least and the
greatest value of the next. -/
structure Unfinished where
  code : ℕ
  missing : ℕ
  low : ℕ
  high : ℕ

/-- U+FFFD -/
def replacement : Char := Char.ofNat 0xFFFD

/-- The first byte of a character. -/
def firstByte (b : ℕ) : List Char × Option Unfinished :=
  if b < 0x80 then ([Char.ofNat b], none)
  else if b < 0xC2 then ([replacement], none)
  else if b < 0xE0 then ([], some ⟨b - 0xC0, 1, 0x80, 0xBF⟩)
  else if b < 0xF0 then
    ([], some ⟨b - 0xE0, 2, if b = 0xE0 then 0xA0 else 0x80, if b = 0xED then 0x9F else 0xBF⟩)
  else if b < 0xF5 then
    ([], some ⟨b - 0xF0, 3, if b = 0xF0 then 0x90 else 0x80, if b = 0xF4 then 0x8F else 0xBF⟩)
  else ([replacement], none)

/-- One more byte: the characters that are complete now, and what is begun. -/
def feed : Option Unfinished → ℕ → List Char × Option Unfinished
  | none, b => firstByte b
  | some u, b =>
    if u.low ≤ b ∧ b ≤ u.high then
      let code := u.code * 64 + (b - 0x80)
      if u.missing = 1 then ([Char.ofNat code], none)
      else ([], some ⟨code, u.missing - 1, 0x80, 0xBF⟩)
    else (replacement :: (firstByte b).1, (firstByte b).2)

/-- The bytes end here. -/
def flush : Option Unfinished → List Char
  | none => []
  | some _ => [replacement]

/-! ### Escapes -/

/-- The value of a hexadecimal digit. -/
def hexDigit (c : Char) : Option ℕ :=
  if '0' ≤ c ∧ c ≤ '9' then some (c.toNat - '0'.toNat)
  else if 'a' ≤ c ∧ c ≤ 'f' then some (c.toNat - 'a'.toNat + 10)
  else if 'A' ≤ c ∧ c ≤ 'F' then some (c.toNat - 'A'.toNat + 10)
  else none

/-- The byte of the escape that a text begins with. -/
def escape? : List Char → Option ℕ
  | c :: a :: b :: _ =>
    if c = '%' then (hexDigit a).bind fun x => (hexDigit b).map fun y => 16 * x + y else none
  | _ => none

/-- Decode what follows, skipping `n` more characters of an escape already read. -/
def unquoteFrom : ℕ → Option Unfinished → List Char → List Char
  | _, u, [] => flush u
  | n + 1, u, _ :: cs => unquoteFrom n u cs
  | 0, u, c :: cs =>
    match escape? (c :: cs) with
    | some b => (feed u b).1 ++ unquoteFrom 2 (feed u b).2 cs
    | none => flush u ++ c :: unquoteFrom 0 none cs

/-- `urllib.parse.unquote` -/
def unquote (s : String) : String := String.ofList (unquoteFrom 0 none s.toList)

example : unquote "caf%C3%A9 100%" = "café 100%" := by decide

/-- A percent escape. -/
inductive Escape : List Char → Prop
  | mk {a b : Char} (ha : (hexDigit a).isSome = true) (hb : (hexDigit b).isSome = true) :
    Escape ['%', a, b]

section Unquote

variable {l pre : List Char} {c : Char} {b : ℕ}

theorem escape?_isSome_iff : (escape? l).isSome = true ↔ ∃ m, Escape m ∧ m <+: l := by
  constructor
  · intro h
    match l, h with
    | c :: x :: y :: l, h =>
      by_cases hc : c = '%'
      · subst hc
        simp only [escape?, if_true] at h
        cases hx : hexDigit x with
        | none => simp [hx] at h
        | some n =>
          cases hy : hexDigit y with
          | none => simp [hx, hy] at h
          | some m => exact ⟨['%', x, y], .mk (by simp [hx]) (by simp [hy]), ⟨l, rfl⟩⟩
      · simp [escape?, hc] at h
  · rintro ⟨m, ⟨ha, hb⟩, l, rfl⟩
    obtain ⟨x, hx⟩ := Option.isSome_iff_exists.mp ha
    obtain ⟨y, hy⟩ := Option.isSome_iff_exists.mp hb
    simp [escape?, hx, hy]

theorem two_le_of_escape? (h : escape? (c :: l) = some b) : 2 ≤ l.length := by
  match l, h with
  | _ :: _ :: l, _ => exact Nat.le_add_left 2 l.length

theorem length_firstByte (b : ℕ) :
    (firstByte b).1.length + (flush (firstByte b).2).length = 1 := by
  unfold firstByte
  split_ifs <;> rfl

/-- A byte completes or begins at most one character, besides a replaced one. -/
theorem length_feed_le (u : Option Unfinished) (b : ℕ) :
    (feed u b).1.length + (flush (feed u b).2).length ≤ 1 + (flush u).length := by
  cases u with
  | none => exact (length_firstByte b).le
  | some u =>
    have hfirst := length_firstByte b
    unfold feed
    dsimp only
    split_ifs
    · exact Nat.le_succ 1
    · exact Nat.le_succ 1
    · change (firstByte b).1.length + 1 + (flush (firstByte b).2).length ≤ 1 + 1
      omega

/-- Decoding makes no text longer. -/
theorem length_unquoteFrom_le (n : ℕ) (u : Option Unfinished) (l : List Char) :
    (unquoteFrom n u l).length ≤ l.length - n + (flush u).length := by
  induction l generalizing n u with
  | nil => simp [unquoteFrom]
  | cons c cs ih =>
    cases n with
    | succ n => simpa [unquoteFrom] using ih n u
    | zero =>
      cases hescape : escape? (c :: cs) with
      | none =>
        have hrest := ih 0 none
        simp only [unquoteFrom, hescape, List.length_append, List.length_cons, flush,
          List.length_nil] at hrest ⊢
        omega
      | some b =>
        have hrest := ih 2 (feed u b).2
        have hfeed := length_feed_le u b
        have htwo := two_le_of_escape? hescape
        simp only [unquoteFrom, hescape, List.length_append, List.length_cons]
        omega

/-- An escape makes it shorter. -/
theorem length_unquoteFrom_lt {m : List Char} (u : Option Unfinished) (hm : Escape m)
    (h : m <:+: l) : (unquoteFrom 0 u l).length < l.length + (flush u).length := by
  induction l generalizing u with
  | nil =>
    obtain ⟨ha, hb⟩ := hm
    exact absurd (List.infix_nil.mp h) (by simp)
  | cons c cs ih =>
    cases hescape : escape? (c :: cs) with
    | none =>
      -- the escape does not stand here
      have hrest : m <:+: cs := (List.infix_cons_iff.mp h).resolve_left fun hpre => by
        have hsome := escape?_isSome_iff.mpr ⟨m, hm, hpre⟩
        simp [hescape] at hsome
      have hlt := ih none hrest
      simp only [unquoteFrom, hescape, List.length_append, List.length_cons, flush,
        List.length_nil] at hlt ⊢
      omega
    | some b =>
      have hrest := length_unquoteFrom_le 2 (feed u b).2 cs
      have hfeed := length_feed_le u b
      have htwo := two_le_of_escape? hescape
      simp only [unquoteFrom, hescape, List.length_append, List.length_cons]
      omega

/-- A text without a percent sign in front is not touched. -/
theorem unquoteFrom_append (h : '%' ∉ pre) :
    unquoteFrom 0 none (pre ++ l) = pre ++ unquoteFrom 0 none l := by
  induction pre with
  | nil => rfl
  | cons c pre ih =>
    obtain ⟨hc, hpre⟩ := not_or.mp (List.mem_cons.not.mp h)
    have hescape : escape? (c :: (pre ++ l)) = none := by
      rw [← Option.not_isSome_iff_eq_none, escape?_isSome_iff]
      rintro ⟨m, ⟨-, -⟩, hpre⟩
      exact hc (List.cons_prefix_cons.mp hpre).1
    simp only [List.cons_append, unquoteFrom, hescape, flush, List.nil_append, ih hpre]

theorem unquoteFrom_of_not_escape (h : ∀ m, Escape m → ¬ m <:+: l) : unquoteFrom 0 none l = l := by
  induction l with
  | nil => rfl
  | cons c cs ih =>
    have hescape : escape? (c :: cs) = none := by
      rw [← Option.not_isSome_iff_eq_none, escape?_isSome_iff]
      exact fun ⟨m, hm, hpre⟩ => h m hm hpre.isInfix
    have hrest := ih fun m hm hoccurs => h m hm (hoccurs.trans (List.suffix_cons c cs).isInfix)
    simp only [unquoteFrom, hescape, flush, List.nil_append, hrest]

/-- **Decoding changes exactly the texts with an escape in them.** -/
theorem unquoteFrom_eq_self_iff :
    unquoteFrom 0 none l = l ↔ ∀ m, Escape m → ¬ m <:+: l := by
  refine ⟨fun h m hm hoccurs => ?_, unquoteFrom_of_not_escape⟩
  have hlt := length_unquoteFrom_lt none hm hoccurs
  rw [h] at hlt
  exact lt_irrefl _ hlt

end Unquote

end Nanogate.Python
