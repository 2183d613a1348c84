import Nanogate.Python.JsonText

/-!
# What a JSON text can be

What `json.loads` returns is a value that Python holds, so it can be printed and read again: the
texts of one value that `json.dumps` writes stand for all texts of it. And a text is longer than the
strings in it, so no text has itself for the string of one of its entries.

## Main results

* `isPython_of_loads` — what is read is a value that Python holds
* `loads_ne_of_raw` — no text is a string in an object that it stands for
-/

namespace Nanogate.Python.JsonText

open Nanogate.Python

/-! ### What is left of a text -/

section Left

variable {floatRepr : String → String} {c x : Char} {cs xs rest : List Char} {k s : String}
  {v : Json} {n unit : ℕ}

theorem skip_suffix (cs : List Char) : skip cs <:+ cs := List.dropWhile_suffix _

theorem length_of_scanUnit (h : scanUnit cs = some (unit, rest)) :
    rest.length < cs.length := by
  unfold scanUnit at h
  split at h
  · split at h
    · obtain ⟨-, rfl⟩ := Prod.mk.inj (Option.some_inj.mp h)
      simp only [List.length_cons]
      omega
    · exact absurd h (by simp)
  · exact absurd h (by simp)

theorem length_of_scanUnits (h : scanUnits cs = some (x, rest)) : rest.length < cs.length := by
  unfold scanUnits at h
  split at h
  · exact absurd h (by simp)
  next hunit =>
    have hfirst := length_of_scanUnit hunit
    split_ifs at h
    · split at h
      next hlow =>
        split_ifs at h
        obtain ⟨-, rfl⟩ := Prod.mk.inj (Option.some_inj.mp h)
        exact (length_of_scanUnit hlow).trans hfirst
      next => exact absurd h (by simp)
    · obtain ⟨-, rfl⟩ := Prod.mk.inj (Option.some_inj.mp h)
      exact hfirst

theorem length_of_scanChar (h : scanChar cs = some (x, rest)) : rest.length < cs.length := by
  unfold scanChar at h
  split at h
  · exact absurd h (by simp)
  · split_ifs at h
    · split at h
      · exact absurd h (by simp)
      · split_ifs at h
        · exact length_of_scanUnits h
        · obtain ⟨y, -, heq⟩ := Option.map_eq_some_iff.mp h
          obtain ⟨-, rfl⟩ := Prod.mk.inj heq
          simp only [List.length_cons]
          omega
    · obtain ⟨-, rfl⟩ := Prod.mk.inj (Option.some_inj.mp h)
      exact Nat.lt_succ_self _

/-- Each character of a string takes at least one of the text. -/
theorem length_of_scanChars (h : scanChars n cs = some (xs, rest)) :
    xs.length + rest.length < cs.length := by
  induction n generalizing cs xs with
  | zero => exact absurd h (by simp [scanChars])
  | succ n ih =>
    cases cs with
    | nil => exact absurd h (by simp [scanChars])
    | cons c cs =>
      simp only [scanChars] at h
      split_ifs at h
      · obtain ⟨rfl, rfl⟩ := Prod.mk.inj (Option.some_inj.mp h)
        simp
      · split at h
        next hchar =>
          obtain ⟨p, hrest, heq⟩ := Option.map_eq_some_iff.mp h
          obtain ⟨rfl, rfl⟩ := Prod.mk.inj heq
          have hlength := length_of_scanChar hchar
          have htail := ih hrest
          simp only [List.length_cons] at hlength ⊢
          omega
        next => exact absurd h (by simp)

theorem length_of_scanString (h : scanString cs = some (s, rest)) :
    s.length + rest.length < cs.length := by
  obtain ⟨⟨xs, rest'⟩, hchars, heq⟩ := Option.map_eq_some_iff.mp h
  obtain ⟨rfl, rfl⟩ := Prod.mk.inj heq
  rw [String.length_ofList]
  exact length_of_scanChars hchars

theorem length_skip_le (cs : List Char) : (skip cs).length ≤ cs.length :=
  (skip_suffix cs).length_le

theorem length_of_scanKey (h : scanKey cs = some (k, rest)) : rest.length < cs.length := by
  unfold scanKey at h
  split at h
  · exact absurd h (by simp)
  next c cs =>
    split_ifs at h
    split at h
    · exact absurd h (by simp)
    next key rest' hkey =>
      have hstring := length_of_scanString hkey
      have hskip := length_skip_le rest'
      split at h
      · exact absurd h (by simp)
      next c' rest'' hrest =>
        split_ifs at h
        obtain ⟨-, rfl⟩ := Prod.mk.inj (Option.some_inj.mp h)
        have hlast := length_skip_le rest''
        rw [hrest, List.length_cons] at hskip
        rw [List.length_cons]
        omega

/-! Numbers and constants. -/

theorem length_scanMinus_le (cs : List Char) : (scanMinus cs).2.length ≤ cs.length := by
  cases cs with
  | nil => exact Nat.le_refl _
  | cons c cs =>
    rw [scanMinus]
    split_ifs <;> simp

theorem length_of_scanWhole (h : scanWhole cs = some (xs, rest)) : rest.length ≤ cs.length := by
  cases cs with
  | nil => exact absurd h (by simp [scanWhole])
  | cons c cs =>
    rw [scanWhole] at h
    split_ifs at h
    · obtain ⟨-, rfl⟩ := Prod.mk.inj (Option.some_inj.mp h)
      exact Nat.le_succ _
    · obtain ⟨-, rfl⟩ := Prod.mk.inj (Option.some_inj.mp h)
      exact Nat.le_succ_of_le (List.dropWhile_suffix _).length_le

theorem length_scanFraction_le (cs : List Char) : (scanFraction cs).2.length ≤ cs.length := by
  cases cs with
  | nil => exact Nat.le_refl _
  | cons c cs =>
    rw [scanFraction]
    split_ifs
    · exact Nat.le_succ_of_le (List.dropWhile_suffix _).length_le
    · exact Nat.le_refl _

theorem length_scanSign_le (cs : List Char) : (scanSign cs).2.length ≤ cs.length := by
  cases cs with
  | nil => exact Nat.le_refl _
  | cons c cs =>
    rw [scanSign]
    split_ifs <;> simp

theorem length_scanExponent_le (cs : List Char) : (scanExponent cs).2.length ≤ cs.length := by
  cases cs with
  | nil => exact Nat.le_refl _
  | cons c cs =>
    rw [scanExponent]
    dsimp only
    split_ifs
    · exact Nat.le_succ_of_le ((List.dropWhile_suffix _).length_le.trans (length_scanSign_le cs))
    · exact Nat.le_refl _

/-- A number is an integer, or a float as `repr` spells it. -/
theorem scanNumber_cases (h : scanNumber floatRepr cs = some (v, rest)) :
    ((∃ i, v = .num i) ∨ ∃ text, v = .float (floatRepr text)) ∧ rest.length ≤ cs.length := by
  unfold scanNumber at h
  dsimp only at h
  split at h
  · exact absurd h (by simp)
  next whole cs' hwhole =>
    obtain ⟨hv, rfl⟩ := Prod.mk.inj (Option.some_inj.mp h)
    refine ⟨?_, ?_⟩
    · split_ifs at hv
      · exact .inl ⟨_, hv.symm⟩
      · exact .inr ⟨_, hv.symm⟩
    · exact (length_scanExponent_le _).trans ((length_scanFraction_le _).trans
        ((length_of_scanWhole hwhole).trans (length_scanMinus_le _)))

/-- A constant has no parts, and a float without digits is one that `repr` returns. -/
theorem scanConstant_cases (h : scanConstant cs = some (v, rest)) :
    (v = .null ∨ (∃ b, v = .bool b) ∨ ∃ r, v = .float r ∧ (r = "nan" ∨ r = "inf" ∨ r = "-inf")) ∧
      rest.length ≤ cs.length := by
  obtain ⟨p, hp, heq⟩ := List.exists_of_findSome?_eq_some h
  split_ifs at heq
  obtain ⟨rfl, rfl⟩ := Prod.mk.inj (Option.some_inj.mp heq)
  refine ⟨?_, by simp⟩
  simp only [constants, List.mem_cons, List.not_mem_nil, or_false] at hp
  rcases hp with rfl | rfl | rfl | rfl | rfl | rfl <;> simp

end Left

/-! ### What is read -/

section Read

variable (floatRepr : String → String)

/-- A value that was read from the beginning of a text, `rest` being left: Python holds it, and it
is no string that is as long as the text, nor an object with one. -/
structure Read (cs : List Char) (v : Json) (rest : List Char) : Prop where
  python : IsPython floatRepr v
  left : rest.length ≤ cs.length
  string : ∀ s, v = .str s → s.length < cs.length
  entry : ∀ k s, v.get k = some (.str s) → s.length < cs.length

/-- The same of elements. -/
structure ReadItems (cs : List Char) (xs : List Json) (rest : List Char) : Prop where
  python : ArePython floatRepr xs
  left : rest.length ≤ cs.length

/-- The same of entries. -/
structure ReadEntries (cs : List Char) (kvs : List (String × Json)) (rest : List Char) :
    Prop where
  python : HoldPython floatRepr kvs
  left : rest.length ≤ cs.length
  entry : ∀ e ∈ kvs, ∀ s, e.2 = .str s → s.length < cs.length

/-- What at most `n` nested calls read. -/
structure Reads (n : ℕ) : Prop where
  once : ∀ {cs v rest}, scanOnce floatRepr n cs = some (v, rest) → Read floatRepr cs v rest
  array : ∀ {cs v rest}, scanArray floatRepr n cs = some (v, rest) → Read floatRepr cs v rest
  items : ∀ {cs xs rest}, scanItems floatRepr n cs = some (xs, rest) →
    ReadItems floatRepr cs xs rest
  object : ∀ {cs v rest}, scanObject floatRepr n cs = some (v, rest) → Read floatRepr cs v rest
  entries : ∀ {cs kvs rest}, scanEntries floatRepr n cs = some (kvs, rest) →
    ReadEntries floatRepr cs kvs rest

end Read

section Steps

variable {floatRepr : String → String} {c : Char} {cs cs' rest : List Char} {v : Json}
  {kvs d : List (String × Json)} {xs : List Json} {n : ℕ}

/-- What was read further on in a text was read in the text. -/
theorem Read.mono (h : Read floatRepr cs v rest) (hle : cs.length ≤ cs'.length) :
    Read floatRepr cs' v rest :=
  ⟨h.python, h.left.trans hle, fun s hs => (h.string s hs).trans_le hle,
    fun k s hs => (h.entry k s hs).trans_le hle⟩

/-- A value with no parts, a list, or the empty dictionary has no string in an entry. -/
theorem Read.of_entries_nil (hpython : IsPython floatRepr v) (hleft : rest.length ≤ cs.length)
    (hstring : ∀ s, v = .str s → s.length < cs.length) (hentries : v.entries = []) :
    Read floatRepr cs v rest :=
  ⟨hpython, hleft, hstring, fun k s hs => absurd hs (by simp [Json.get, hentries])⟩

theorem mem_of_get_foldl_set {k : String} {x : Json}
    (h : Entries.get (kvs.foldl (fun d e => Entries.set d e.1 e.2) d) k = some x) :
    (k, x) ∈ kvs ∨ Entries.get d k = some x := by
  induction kvs generalizing d with
  | nil => exact .inr h
  | cons e kvs ih =>
    rcases ih h with hmem | hget
    · exact .inl (List.mem_cons_of_mem _ hmem)
    · by_cases hk : k = e.1
      · subst hk
        rw [Entries.get_set_self, Option.some_inj] at hget
        exact .inl (hget ▸ List.mem_cons_self ..)
      · exact .inr (Entries.get_set_of_ne hk ▸ hget)

theorem nodup_keys_foldl_set (h : (Entries.keys d).Nodup) :
    (Entries.keys (kvs.foldl (fun d e => Entries.set d e.1 e.2) d)).Nodup := by
  induction kvs generalizing d with
  | nil => exact h
  | cons e kvs ih => exact ih (Entries.nodup_keys_set h)

theorem holdPython_foldl_set (hd : HoldPython floatRepr d) (hkvs : HoldPython floatRepr kvs) :
    HoldPython floatRepr (kvs.foldl (fun d e => Entries.set d e.1 e.2) d) := by
  induction kvs generalizing d with
  | nil => exact hd
  | cons e kvs ih => exact ih (holdPython_set hd hkvs.1) hkvs.2

variable (hrepr : ∀ text, IsRepr floatRepr (floatRepr text))

include hrepr

theorem Reads.once_succ (ih : Reads floatRepr n)
    (h : scanOnce floatRepr (n + 1) cs = some (v, rest)) : Read floatRepr cs v rest := by
  cases cs with
  | nil => exact absurd h (by simp [scanOnce])
  | cons c cs =>
    have hskip : (skip cs).length ≤ (c :: cs).length := (length_skip_le cs).trans (Nat.le_succ _)
    rw [scanOnce] at h
    split_ifs at h
    · obtain ⟨⟨s, rest'⟩, hscan, heq⟩ := Option.map_eq_some_iff.mp h
      obtain ⟨rfl, rfl⟩ := Prod.mk.inj heq
      have hlength := length_of_scanString hscan
      refine .of_entries_nil trivial ?_ (fun s' hs' => ?_) rfl
      · simp only [List.length_cons]
        omega
      · obtain rfl := Json.str.inj hs'
        simp only [List.length_cons]
        omega
    · exact (ih.array h).mono hskip
    · exact (ih.object h).mono hskip
    · rcases Option.or_eq_some_iff.mp h with hnumber | ⟨-, hconstant⟩
      · obtain ⟨⟨i, rfl⟩ | ⟨text, rfl⟩, hleft⟩ := scanNumber_cases hnumber
        · exact .of_entries_nil trivial hleft (by simp) rfl
        · exact .of_entries_nil (hrepr text) hleft (by simp) rfl
      · obtain ⟨rfl | ⟨b, rfl⟩ | ⟨r, rfl, hr⟩, hleft⟩ := scanConstant_cases hconstant
        · exact .of_entries_nil trivial hleft (by simp) rfl
        · exact .of_entries_nil trivial hleft (by simp) rfl
        · refine .of_entries_nil ?_ hleft (by simp) rfl
          exact hr.imp_right fun hr => hr.imp_right .inl

omit hrepr

theorem Reads.array_succ (ih : Reads floatRepr n)
    (h : scanArray floatRepr (n + 1) cs = some (v, rest)) : Read floatRepr cs v rest := by
  cases cs with
  | nil => exact absurd h (by simp [scanArray])
  | cons c cs =>
    rw [scanArray] at h
    split_ifs at h
    · obtain ⟨rfl, rfl⟩ := Prod.mk.inj (Option.some_inj.mp h)
      exact .of_entries_nil trivial (Nat.le_succ _) (by simp) rfl
    · split at h
      · exact absurd h (by simp)
      next x rest' hx =>
        obtain ⟨⟨xs, rest''⟩, hxs, heq⟩ := Option.map_eq_some_iff.mp h
        obtain ⟨rfl, rfl⟩ := Prod.mk.inj heq
        have hfirst := ih.once hx
        have hrest := ih.items hxs
        have hleft := hrest.left.trans ((length_skip_le rest').trans hfirst.left)
        exact .of_entries_nil ⟨hfirst.python, hrest.python⟩ hleft (by simp) rfl

theorem Reads.items_succ (ih : Reads floatRepr n)
    (h : scanItems floatRepr (n + 1) cs = some (xs, rest)) : ReadItems floatRepr cs xs rest := by
  cases cs with
  | nil => exact absurd h (by simp [scanItems])
  | cons c cs =>
    rw [scanItems] at h
    split_ifs at h
    · obtain ⟨rfl, rfl⟩ := Prod.mk.inj (Option.some_inj.mp h)
      exact ⟨trivial, Nat.le_succ _⟩
    · split at h
      · exact absurd h (by simp)
      next x rest' hx =>
        obtain ⟨⟨xs, rest''⟩, hxs, heq⟩ := Option.map_eq_some_iff.mp h
        obtain ⟨rfl, rfl⟩ := Prod.mk.inj heq
        have hfirst := ih.once hx
        have hrest := ih.items hxs
        have hleft := hrest.left.trans ((length_skip_le rest').trans hfirst.left)
        exact ⟨⟨hfirst.python, hrest.python⟩,
          hleft.trans ((length_skip_le cs).trans (Nat.le_succ _))⟩

/-- An entry and what follows it. -/
theorem Reads.entry (ih : Reads floatRepr n) {k : String} {x : Json} {rest' rest'' : List Char}
    (hk : scanKey cs = some (k, rest')) (hx : scanOnce floatRepr n rest' = some (x, rest''))
    (hkvs : scanEntries floatRepr n (skip rest'') = some (kvs, rest)) :
    ReadEntries floatRepr cs ((k, x) :: kvs) rest := by
  have hkey := (length_of_scanKey hk).le
  have hfirst := (ih.once hx).mono hkey
  have hrest := ih.entries hkvs
  have hskip := (length_skip_le rest'').trans hfirst.left
  refine ⟨⟨hfirst.python, hrest.python⟩, hrest.left.trans hskip, fun e he s hs => ?_⟩
  rcases List.mem_cons.mp he with rfl | he
  · exact hfirst.string s hs
  · exact (hrest.entry e he s hs).trans_le hskip

theorem Reads.object_succ (ih : Reads floatRepr n)
    (h : scanObject floatRepr (n + 1) cs = some (v, rest)) : Read floatRepr cs v rest := by
  cases cs with
  | nil => exact absurd h (by simp [scanObject])
  | cons c cs =>
    rw [scanObject] at h
    split_ifs at h
    · obtain ⟨rfl, rfl⟩ := Prod.mk.inj (Option.some_inj.mp h)
      exact .of_entries_nil ⟨List.nodup_nil, trivial⟩ (Nat.le_succ _) (by simp) rfl
    · split at h
      · exact absurd h (by simp)
      next k rest' hk =>
        split at h
        · exact absurd h (by simp)
        next x rest'' hx =>
          obtain ⟨⟨kvs, left⟩, hkvs, heq⟩ := Option.map_eq_some_iff.mp h
          obtain ⟨rfl, rfl⟩ := Prod.mk.inj heq
          have hread := ih.entry hk hx hkvs
          refine ⟨⟨nodup_keys_foldl_set List.nodup_nil, ?_⟩, hread.left, by simp, fun k' s hs => ?_⟩
          · exact holdPython_foldl_set trivial hread.python
          · rcases mem_of_get_foldl_set hs with hmem | hnil
            · exact hread.entry _ hmem s rfl
            · exact absurd hnil (by simp)

theorem Reads.entries_succ (ih : Reads floatRepr n)
    (h : scanEntries floatRepr (n + 1) cs = some (kvs, rest)) :
    ReadEntries floatRepr cs kvs rest := by
  cases cs with
  | nil => exact absurd h (by simp [scanEntries])
  | cons c cs =>
    rw [scanEntries] at h
    split_ifs at h
    · obtain ⟨rfl, rfl⟩ := Prod.mk.inj (Option.some_inj.mp h)
      exact ⟨trivial, Nat.le_succ _, by simp⟩
    · split at h
      · exact absurd h (by simp)
      next k rest' hk =>
        split at h
        · exact absurd h (by simp)
        next x rest'' hx =>
          obtain ⟨⟨kvs, left⟩, hkvs, heq⟩ := Option.map_eq_some_iff.mp h
          obtain ⟨rfl, rfl⟩ := Prod.mk.inj heq
          have hread := ih.entry hk hx hkvs
          have hle : (skip cs).length ≤ (c :: cs).length :=
            (length_skip_le cs).trans (Nat.le_succ _)
          exact ⟨hread.python, hread.left.trans hle, fun e he s hs =>
            (hread.entry e he s hs).trans_le hle⟩

include hrepr

theorem reads (n : ℕ) : Reads floatRepr n := by
  induction n with
  | zero => exact ⟨by simp [scanOnce], by simp [scanArray], by simp [scanItems],
      by simp [scanObject], by simp [scanEntries]⟩
  | succ n ih => exact ⟨Reads.once_succ hrepr ih, ih.array_succ, ih.items_succ, ih.object_succ,
      ih.entries_succ⟩

variable {text raw k : String}

/-- What a text stands for. -/
theorem read_of_loads (h : loads floatRepr text = some v) :
    ∃ rest, Read floatRepr text.toList v rest := by
  unfold loads at h
  split at h
  next x rest hscan =>
    split_ifs at h
    obtain rfl := Option.some_inj.mp h
    exact ⟨rest, ((reads hrepr _).once hscan).mono (length_skip_le _)⟩
  next => exact absurd h (by simp)

/-- **What is read is a value that Python holds**, if `repr` returns what a float is spelled as. -/
theorem isPython_of_loads (h : loads floatRepr text = some v) : IsPython floatRepr v := by
  obtain ⟨rest, hread⟩ := read_of_loads hrepr h
  exact hread.python

/-- **No text is a string in itself.** -/
theorem loads_ne_of_raw (hraw : v.get k = some (.str raw)) : loads floatRepr raw ≠ some v := by
  intro h
  obtain ⟨rest, hread⟩ := read_of_loads hrepr h
  have hlength := hread.entry k raw hraw
  rw [String.length_toList] at hlength
  exact absurd hlength (Nat.lt_irrefl _)

end Steps

end Nanogate.Python.JsonText
