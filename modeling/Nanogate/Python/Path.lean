import Mathlib.Data.List.Basic

/-!
# Paths

`pathlib.Path` on a POSIX system. A path is its root and its components, and nothing is
looked up: an empty component or a `.` vanishes when a string is parsed, `..` is kept, and
a joined path that is absolute replaces what it is joined to. Only when a path is opened
does `..` climb, and a null character is refused.

## Main definitions

* `PurePath`, `PurePath.ofString`, `PurePath.toString` — parsing and printing
* `PurePath.join` — the operator `/` with a string on the right
* `PurePath.locate` — the place in the file system that a path denotes
* `suffix` — `PurePath.suffix` of a file name

## Main results

* `PurePath.ofString_toString` — a printed path is parsed as itself
* `PurePath.locate_join_of_isFileName` — a file in a directory is located right below it
-/

namespace Nanogate.Python

/-- A component of a parsed path. -/
def IsComponent (c : String) : Prop := c ≠ "" ∧ c ≠ "." ∧ '/' ∉ c.toList

instance (c : String) : Decidable (IsComponent c) := inferInstanceAs (Decidable (_ ∧ _ ∧ _))

/-- How a path starts; two slashes are kept apart from one. -/
inductive Root where
  | relative
  | slash
  | twoSlashes
  deriving DecidableEq, Repr

/-- The slashes a path starts with. -/
def Root.chars : Root → List Char
  | .relative => []
  | .slash => ['/']
  | .twoSlashes => ['/', '/']

/-- A path. -/
structure PurePath where
  root : Root
  parts : List String
  components : ∀ c ∈ parts, IsComponent c
  deriving DecidableEq

/-- A place in the file system: the names from the root directory down. -/
abbrev Location := List String

namespace PurePath

variable (p : PurePath)

/-- The components in a string after its root. -/
def parse (s : List Char) : List String :=
  ((s.splitOn '/').map String.ofList).filter fun c => c ≠ "" ∧ c ≠ "."

theorem notMem_of_mem_splitOn {s c : List Char} (h : c ∈ s.splitOn '/') : '/' ∉ c := by
  induction s generalizing c with
  | nil =>
    obtain rfl : c = [] := by simpa using h
    simp
  | cons a s ih =>
    obtain ⟨first, rest, hsplit⟩ := List.exists_cons_of_ne_nil (List.splitOn_ne_nil '/' s)
    rw [List.splitOn_cons_eq_if_modifyHead] at h
    split_ifs at h with ha
    · rcases List.mem_cons.mp h with rfl | h
      · simp
      · exact ih h
    · rw [hsplit, List.modifyHead_cons] at h
      rcases List.mem_cons.mp h with rfl | h
      · have hfirst := ih (hsplit ▸ List.mem_cons_self ..)
        have hne : a ≠ '/' := by simpa using ha
        simp [hfirst, hne.symm]
      · exact ih (hsplit ▸ List.mem_cons_of_mem _ h)

theorem isComponent_of_mem_parse {s : List Char} {c : String} (h : c ∈ parse s) :
    IsComponent c := by
  obtain ⟨hmem, hc⟩ := List.mem_filter.mp h
  obtain ⟨l, hl, rfl⟩ := List.mem_map.mp hmem
  obtain ⟨hempty, hdot⟩ := of_decide_eq_true hc
  refine ⟨hempty, hdot, ?_⟩
  rw [String.toList_ofList]
  exact notMem_of_mem_splitOn hl

/-- `Path(s)` -/
def ofString (s : String) : PurePath where
  root :=
    match (s.toList.takeWhile (· = '/')).length with
    | 0 => .relative
    | 2 => .twoSlashes
    | _ => .slash
  parts := parse (s.toList.dropWhile (· = '/'))
  components _ h := isComponent_of_mem_parse h

/-- `str(path)` -/
def toString : String :=
  if p.root = .relative ∧ p.parts = [] then "."
  else String.ofList (Root.chars p.root ++ ['/'].intercalate (p.parts.map String.toList))

/-- `path / s` -/
def join (s : String) : PurePath :=
  if (ofString s).root = .relative then
    { p with
      parts := p.parts ++ (ofString s).parts
      components := by
        intro c hc
        rcases List.mem_append.mp hc with hc | hc
        · exact p.components c hc
        · exact (ofString s).components c hc }
  else ofString s

/-- Follow components from a place; `..` climbs. -/
def climb (start : Location) (parts : List String) : Location :=
  parts.foldl (fun place c => if c = ".." then place.dropLast else place ++ [c]) start

/-- The place a path denotes when it is opened from the working directory; a path with a null
character cannot be opened. -/
def locate (cwd : Location) : Option Location :=
  if p.parts.any fun c => c.toList.contains (Char.ofNat 0) then none
  else some (climb (if p.root = .relative then cwd else []) p.parts)

/-! ### Parsing what was printed -/

theorem parse_intercalate {parts : List String} (h : ∀ c ∈ parts, IsComponent c) :
    parse (['/'].intercalate (parts.map String.toList)) = parts := by
  cases parts with
  | nil => rfl
  | cons c parts =>
    have hslash : ∀ l ∈ (c :: parts).map String.toList, '/' ∉ l := by
      intro l hl
      obtain ⟨d, hd, rfl⟩ := List.mem_map.mp hl
      exact (h d hd).2.2
    rw [parse, List.splitOn_intercalate '/' hslash (by simp), List.map_map]
    have hid : (String.ofList ∘ String.toList) = id := by
      funext s
      exact String.ofList_toList
    rw [hid, List.map_id, List.filter_eq_self]
    intro d hd
    exact decide_eq_true ⟨(h d hd).1, (h d hd).2.1⟩

/-- A printed component sequence does not start with a slash. -/
theorem head?_intercalate_ne {parts : List String} (h : ∀ c ∈ parts, IsComponent c) :
    (['/'].intercalate (parts.map String.toList)).head? ≠ some '/' := by
  cases parts with
  | nil => simp
  | cons c parts =>
    obtain ⟨hempty, -, hslash⟩ := h c (List.mem_cons_self ..)
    obtain ⟨a, l, hc⟩ : ∃ a l, c.toList = a :: l :=
      List.exists_cons_of_ne_nil fun hnil => hempty (String.toList_inj.mp (by simpa using hnil))
    have ha : a ≠ '/' := by
      rintro rfl
      exact hslash (hc ▸ List.mem_cons_self ..)
    cases parts <;> simp [List.intercalate, hc, ha]

theorem takeWhile_slash_of_head? {l : List Char} (h : l.head? ≠ some '/') :
    l.takeWhile (· = '/') = [] ∧ l.dropWhile (· = '/') = l := by
  cases l with
  | nil => exact ⟨rfl, rfl⟩
  | cons a l =>
    have ha : a ≠ '/' := fun ha => h (by rw [ha]; rfl)
    simp [ha]

/-- **Round trip.** A printed path is parsed as itself. -/
theorem ofString_toString : ofString p.toString = p := by
  obtain ⟨root, parts, hparts⟩ := p
  obtain ⟨htake, hdrop⟩ := takeWhile_slash_of_head? (head?_intercalate_ne hparts)
  have hparse := parse_intercalate hparts
  by_cases hdot : root = .relative ∧ parts = []
  · obtain ⟨rfl, rfl⟩ := hdot
    rw [toString, if_pos ⟨rfl, rfl⟩]
    rfl
  · have hchars : (toString ⟨root, parts, hparts⟩).toList =
        Root.chars root ++ ['/'].intercalate (parts.map String.toList) := by
      rw [toString, if_neg hdot, String.toList_ofList]
    have hroot : ∀ r : Root,
        ((Root.chars r ++ ['/'].intercalate (parts.map String.toList)).takeWhile
          (· = '/')) = Root.chars r ∧
        ((Root.chars r ++ ['/'].intercalate (parts.map String.toList)).dropWhile (· = '/')) =
          ['/'].intercalate (parts.map String.toList) := by
      intro r
      cases r <;> simp [Root.chars, htake, hdrop]
    have hofString : ofString (toString ⟨root, parts, hparts⟩) =
        ⟨root, parse (['/'].intercalate (parts.map String.toList)),
          fun _ h => isComponent_of_mem_parse h⟩ := by
      simp only [ofString, hchars, (hroot root).1, (hroot root).2]
      cases root <;> rfl
    rw [hofString]
    simp only [hparse]

theorem toString_inj {p q : PurePath} (h : p.toString = q.toString) : p = q := by
  rw [← p.ofString_toString, h, q.ofString_toString]

/-! ### Files in a directory -/

/-- A name that stands for itself when it is joined to a path and opened. -/
def IsFileName (name : String) : Prop :=
  (ofString name).root = .relative ∧ (ofString name).parts = [name] ∧ name ≠ ".." ∧
    Char.ofNat 0 ∉ name.toList

instance (name : String) : Decidable (IsFileName name) :=
  inferInstanceAs (Decidable (_ ∧ _ ∧ _ ∧ _))

/-- A file in a directory is located right below it. -/
theorem locate_join_of_isFileName {name : String} (h : IsFileName name) (cwd : Location) :
    (p.join name).locate cwd = (p.locate cwd).map fun place => place ++ [name] := by
  obtain ⟨hroot, hparts, hup, hnull⟩ := h
  simp only [join, hroot, if_true, locate, hparts, List.any_append, List.any_cons, List.any_nil,
    Bool.or_false, climb, List.foldl_append, List.foldl_cons, List.foldl_nil, if_neg hup]
  have hname : name.toList.contains (Char.ofNat 0) = false := by simpa using hnull
  rw [hname, Bool.or_false]
  split_ifs <;> rfl

end PurePath

/-- `path.suffix` of a file name: from the last dot, which is neither first nor last. -/
def suffix (name : String) : String :=
  let extension := name.toList.reverse.takeWhile (· ≠ '.')
  let stem := name.toList.reverse.dropWhile (· ≠ '.')
  if extension = [] ∨ stem.length ≤ 1 then "" else String.ofList ('.' :: extension.reverse)

end Nanogate.Python
