import Mathlib.Data.List.Basic
import Mathlib.Data.List.DropRight
import Mathlib.Data.List.Infix

/-!
# Python strings

The `str` methods the gateway and the agent apply to client strings, on the list
of code points of a string. `str.replace` scans from the left and never looks at
a character it has already consumed, which is what `removeAux` counts.

## Main results

* `remove_eq_self_iff`, `remove_append_self` — removing a marker changes a string that
  contains it, and drops one in front
* `strip_strip` — stripping twice is stripping once
-/

namespace Nanogate.Python

/-- `str.isspace` for one character. -/
def isSpace (c : Char) : Bool :=
  let n := c.toNat
  (0x09 ≤ n && n ≤ 0x0d) || (0x1c ≤ n && n ≤ 0x20) || n == 0x85 || n == 0xa0 || n == 0x1680 ||
    (0x2000 ≤ n && n ≤ 0x200a) || n == 0x2028 || n == 0x2029 || n == 0x202f || n == 0x205f ||
    n == 0x3000

/-- `list` without the characters satisfying `p` at either end. -/
def trim {α : Type*} (p : α → Bool) (l : List α) : List α :=
  (l.dropWhile p).rdropWhile p

/-- `s.strip()` -/
def strip (s : String) : String := String.ofList (trim isSpace s.toList)

/-- `c in s` for a single character `c`. -/
def contains (c : Char) (s : String) : Bool := s.toList.contains c

/-- `s.startswith(p)` -/
def startsWith (p s : String) : Bool := p.toList.isPrefixOf s.toList

/-- `s.replace(a, b)` for single characters. -/
def replaceChar (a b : Char) (s : String) : String :=
  String.ofList (s.toList.map fun c => if c = a then b else c)

/-- Scan for `sub`, skipping `n` more characters of an occurrence already found. -/
def removeAux {α : Type*} [BEq α] (sub : List α) : ℕ → List α → List α
  | _, [] => []
  | n + 1, _ :: cs => removeAux sub n cs
  | 0, c :: cs =>
    if sub.isPrefixOf (c :: cs) then removeAux sub (sub.length - 1) cs
    else c :: removeAux sub 0 cs

/-- `s.replace(sub, "")` for a nonempty `sub`. -/
def remove (sub s : String) : String := String.ofList (removeAux sub.toList 0 s.toList)

/-- `x or d` for an optional string `x`: both `None` and `""` are falsy. -/
def orElse (x : Option String) (d : String) : String :=
  match x with
  | some s => if s = "" then d else s
  | none => d

@[simp] theorem orElse_none (d : String) : orElse none d = d := rfl

theorem orElse_ne_empty {x : Option String} {d : String} (hd : d ≠ "") : orElse x d ≠ "" := by
  cases x with
  | none => exact hd
  | some s =>
    unfold orElse
    dsimp only
    split_ifs with h
    · exact hd
    · exact h

/-! ### Replacing a character -/

theorem toList_replaceChar (a b : Char) (s : String) :
    (replaceChar a b s).toList = s.toList.map fun c => if c = a then b else c :=
  String.toList_ofList

/-- A character that was replaced by another one is gone. -/
theorem notMem_replaceChar {a b : Char} (h : a ≠ b) (s : String) :
    a ∉ (replaceChar a b s).toList := by
  rw [toList_replaceChar]
  intro hmem
  obtain ⟨c, -, hc⟩ := List.mem_map.mp hmem
  split_ifs at hc with hca
  · exact h hc.symm
  · exact hca hc

/-- The replacement is found where the character was. -/
theorem mem_replaceChar {a b : Char} {s : String} (h : a ∈ s.toList) :
    b ∈ (replaceChar a b s).toList := by
  rw [toList_replaceChar]
  exact List.mem_map.mpr ⟨a, h, if_pos rfl⟩

/-! ### The last field -/

/-- What stands before and after the last separator is known from the whole. -/
theorem append_cons_inj_of_notMem_right {α : Type*} {l l' r r' : List α} {a : α} (hr : a ∉ r)
    (hr' : a ∉ r') : l ++ a :: r = l' ++ a :: r' ↔ l = l' ∧ r = r' := by
  constructor
  · intro h
    -- one of the two left parts is longer, and then the separator is in a right part
    rcases List.append_eq_append_iff.mp h with ⟨m, rfl, hm⟩ | ⟨m, rfl, hm⟩
    · cases m with
      | nil => simpa using hm
      | cons b m => exact absurd (by simp [(List.cons.inj hm).2]) hr
    · cases m with
      | nil => simpa [eq_comm] using hm
      | cons b m => exact absurd (by simp [(List.cons.inj hm).2]) hr'
  · rintro ⟨rfl, rfl⟩
    rfl

/-! ### Removing a marker -/

section Remove

variable {α : Type*} [BEq α] [LawfulBEq α] {sub l : List α}

omit [LawfulBEq α] in
theorem removeAux_append (n : ℕ) (pre l : List α) (h : pre.length = n) :
    removeAux sub n (pre ++ l) = removeAux sub 0 l := by
  induction pre generalizing n with
  | nil => subst h; rfl
  | cons c pre ih =>
    subst h
    exact ih pre.length rfl

theorem removeAux_of_not_infix (h : ¬ sub <:+: l) : removeAux sub 0 l = l := by
  induction l with
  | nil => rfl
  | cons c l ih =>
    have hpre : ¬ sub <+: c :: l := fun hp => h hp.isInfix
    have hrest : ¬ sub <:+: l := fun hi => h (hi.trans (List.suffix_cons c l).isInfix)
    simp only [removeAux, List.isPrefixOf_iff_prefix, hpre, if_false, ih hrest]

omit [LawfulBEq α] in
theorem length_removeAux_le (n : ℕ) (l : List α) : (removeAux sub n l).length ≤ l.length := by
  fun_induction removeAux sub n l with
  | case1 => exact le_rfl
  | case2 n c cs ih => exact ih.trans (Nat.le_succ _)
  | case3 c cs hpre ih => exact ih.trans (Nat.le_succ _)
  | case4 c cs hpre ih => exact Nat.succ_le_succ ih

/-- Where the marker occurs, something is removed. -/
theorem length_removeAux_lt (h : sub <:+: l) (hsub : sub ≠ []) :
    (removeAux sub 0 l).length < l.length := by
  induction l with
  | nil => exact absurd (List.infix_nil.mp h) hsub
  | cons c l ih =>
    by_cases hpre : sub <+: c :: l
    · simp only [removeAux, List.isPrefixOf_iff_prefix, hpre, if_true]
      exact Nat.lt_succ_of_le (length_removeAux_le ..)
    · simp only [removeAux, List.isPrefixOf_iff_prefix, hpre, if_false]
      -- the occurrence begins further on
      have hrest : sub <:+: l := (List.infix_cons_iff.mp h).resolve_left hpre
      exact Nat.succ_lt_succ (ih hrest)

/-- A marker in front is removed. -/
theorem removeAux_append_self (hsub : sub ≠ []) :
    removeAux sub 0 (sub ++ l) = removeAux sub 0 l := by
  cases sub with
  | nil => exact absurd rfl hsub
  | cons c cs =>
    have hpre : (c :: cs).isPrefixOf ((c :: cs) ++ l) = true :=
      List.isPrefixOf_iff_prefix.mpr (List.prefix_append _ _)
    rw [List.cons_append] at hpre ⊢
    simp only [removeAux, hpre, if_true, List.length_cons, Nat.add_sub_cancel]
    rw [removeAux_append cs.length cs l rfl]

end Remove

/-- `sub` occurs in `s`. -/
def Occurs (sub s : String) : Prop := sub.toList <:+: s.toList

instance (sub s : String) : Decidable (Occurs sub s) :=
  inferInstanceAs (Decidable (sub.toList <:+: s.toList))

/-- Removing a text changes nothing exactly where it does not occur. -/
theorem remove_eq_self_iff {sub s : String} (hsub : sub ≠ "") :
    remove sub s = s ↔ ¬ Occurs sub s := by
  have hne : sub.toList ≠ [] := fun hnil => hsub (String.toList_inj.mp (by simpa using hnil))
  constructor
  · intro h hoccurs
    have hlength := length_removeAux_lt hoccurs hne
    have hlist : removeAux sub.toList 0 s.toList = s.toList := by
      rw [← String.toList_ofList (l := removeAux _ _ _)]
      exact congrArg String.toList h
    rw [hlist] at hlength
    exact lt_irrefl _ hlength
  · intro h
    rw [remove, removeAux_of_not_infix h, String.ofList_toList]

theorem remove_append_self {sub s : String} (hsub : sub ≠ "") :
    remove sub (sub ++ s) = remove sub s := by
  have hne : sub.toList ≠ [] := fun hnil => hsub (String.toList_inj.mp (by simpa using hnil))
  rw [remove, String.toList_append, removeAux_append_self hne, remove]

theorem remove_append_of_not_occurs {sub s : String} (hsub : sub ≠ "") (h : ¬ Occurs sub s) :
    remove sub (sub ++ s) = s := by
  rw [remove_append_self hsub, (remove_eq_self_iff hsub).mpr h]

/-! ### Stripping -/

section Trim

variable {α : Type*} (p : α → Bool)

/-- No character satisfying `p` at either end. -/
def Trimmed (l : List α) : Prop := (∀ a ∈ l.head?, p a = false) ∧ ∀ a ∈ l.getLast?, p a = false

theorem trim_eq_self {l : List α} (h : Trimmed p l) : trim p l = l := by
  have hleft : l.dropWhile p = l := by
    cases l with
    | nil => rfl
    | cons a l => simp [h.1 a rfl]
  rw [trim, hleft, List.rdropWhile_eq_self_iff]
  intro hl
  simpa using h.2 (l.getLast hl) (List.getLast?_eq_some_getLast hl)

theorem trimmed_trim (l : List α) : Trimmed p (trim p l) := by
  constructor
  · intro a ha
    have hpre : trim p l <+: l.dropWhile p := List.rdropWhile_prefix p _
    obtain ⟨rest, hrest⟩ := hpre
    have hhead : (l.dropWhile p).head? = some a := by
      rw [← hrest, List.head?_append, ha, Option.some_or]
    have hne : l.dropWhile p ≠ [] := by
      intro hnil
      simp [hnil] at hhead
    have := List.head_dropWhile_not p hne
    rw [List.head?_eq_some_head hne] at hhead
    rwa [Option.some_inj.mp hhead] at this
  · intro a ha
    have hne : (l.dropWhile p).rdropWhile p ≠ [] := by
      intro hnil
      simp [trim, hnil] at ha
    have := List.rdropWhile_last_not p (l.dropWhile p) hne
    rw [trim, List.getLast?_eq_some_getLast hne] at ha
    rw [← Option.some_inj.mp ha]
    simpa using this

/-- What consists of other characters occurs in what is left where it occurs at all. -/
theorem infix_dropWhile_iff {m l : List α} (hm : m ≠ []) (h : ∀ a ∈ m, p a = false) :
    m <:+: l.dropWhile p ↔ m <:+: l := by
  refine ⟨fun hoccurs => hoccurs.trans (List.dropWhile_suffix p).isInfix, fun hoccurs => ?_⟩
  induction l with
  | nil => exact hoccurs
  | cons c l ih =>
    cases hc : p c with
    | false => rwa [List.dropWhile_cons_of_neg (by simp [hc])]
    | true =>
      rw [List.dropWhile_cons_of_pos hc]
      refine ih ((List.infix_cons_iff.mp hoccurs).resolve_left fun hpre => ?_)
      -- it would begin with a character that is dropped
      obtain ⟨a, m, rfl⟩ := List.exists_cons_of_ne_nil hm
      have hkept := h a (List.mem_cons_self ..)
      rw [(List.cons_prefix_cons.mp hpre).1, hc] at hkept
      exact absurd hkept (by decide)

theorem infix_trim_iff {m l : List α} (hm : m ≠ []) (h : ∀ a ∈ m, p a = false) :
    m <:+: trim p l ↔ m <:+: l := by
  have hright : m.reverse <:+: (l.dropWhile p).reverse.dropWhile p ↔
      m.reverse <:+: (l.dropWhile p).reverse :=
    infix_dropWhile_iff p (by simpa using hm) (by simpa using h)
  rw [trim, List.rdropWhile, ← List.reverse_infix, List.reverse_reverse, hright,
    List.reverse_infix, infix_dropWhile_iff p hm h]

theorem trim_trim (l : List α) : trim p (trim p l) = trim p l :=
  trim_eq_self p (trimmed_trim p l)

/-- Trimming does not see a change of the characters that are kept. -/
theorem trim_map {f : α → α} (hf : ∀ a, p (f a) = p a) (l : List α) :
    trim p (l.map f) = (trim p l).map f := by
  have hcomp : p ∘ f = p := by
    funext a
    exact hf a
  simp only [trim, List.rdropWhile, List.dropWhile_map, hcomp, ← List.map_reverse]

end Trim

/-- Replacing a character by another one that is not white space leaves the ends where they are. -/
theorem strip_replaceChar {a b : Char} (ha : isSpace a = false) (hb : isSpace b = false)
    (s : String) : strip (replaceChar a b s) = replaceChar a b (strip s) := by
  have hf : ∀ c, isSpace (if c = a then b else c) = isSpace c := by
    intro c
    split_ifs with hc
    · rw [hc, ha, hb]
    · rfl
  rw [strip, toList_replaceChar, trim_map isSpace hf, replaceChar, strip, String.toList_ofList]

theorem strip_strip (s : String) : strip (strip s) = strip s := by
  simp only [strip, String.toList_ofList, trim_trim]

theorem strip_eq_self_iff {s : String} : strip s = s ↔ Trimmed isSpace s.toList := by
  constructor
  · intro h
    have hl : trim isSpace s.toList = s.toList := by
      simpa [strip] using congrArg String.toList h
    exact hl ▸ trimmed_trim isSpace s.toList
  · intro h
    rw [strip, trim_eq_self isSpace h, String.ofList_toList]

/-- The ends of a string that is put together are those of its outer parts. -/
theorem strip_append {s t : String} (hs : strip s = s) (ht : strip t = t) (hs' : s ≠ "")
    (ht' : t ≠ "") : strip (s ++ t) = s ++ t := by
  have hne : ∀ {x : String}, x ≠ "" → x.toList ≠ [] :=
    fun hx h => hx (String.toList_inj.mp (by simpa using h))
  rw [strip_eq_self_iff] at hs ht ⊢
  rw [String.toList_append]
  refine ⟨fun a ha => hs.1 a ?_, fun a ha => ht.2 a ?_⟩
  · rwa [List.head?_append_of_ne_nil _ (hne hs')] at ha
  · rwa [List.getLast?_append_of_ne_nil _ (hne ht')] at ha

end Nanogate.Python
