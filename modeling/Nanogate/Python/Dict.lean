import Mathlib.Data.List.Basic
import Mathlib.Data.List.Nodup

/-!
# Python dictionaries

A `dict` keeps its entries in insertion order: assigning an existing key keeps its
place, assigning a new key appends it. `Entries` holds the operations on bare
entry lists, which is all a nested JSON object needs; `Dict` adds the fact that
keys are distinct, so that popping a key leaves it absent.

## Main definitions

* `Entries.get`, `Entries.set`, `Entries.erase` — `d.get(k)`, `d[k] = v` and
  `d.pop(k, None)` on a list of entries
* `Dict` — entries with distinct keys

## Main results

* `Dict.get_set`, `Dict.get_erase` — lookups after an update
* `Dict.mem_entries_iff` — the entries are the graph of `get`
* `Dict.get_assign_iff` — when entries that are assigned are all still there
-/

namespace Nanogate.Python

/-! ### Entry lists -/

namespace Entries

variable {κ ν : Type*} [DecidableEq κ] {d : List (κ × ν)} {k k' : κ} {v v' : ν}

/-- The value of the first entry for `k`. -/
def get : List (κ × ν) → κ → Option ν
  | [], _ => none
  | e :: d, k => if e.1 = k then some e.2 else get d k

/-- Overwrite the entry for `k` in place, or append one. -/
def set : List (κ × ν) → κ → ν → List (κ × ν)
  | [], k, v => [(k, v)]
  | e :: d, k, v => if e.1 = k then (k, v) :: d else e :: set d k v

/-- Drop the first entry for `k`. -/
def erase : List (κ × ν) → κ → List (κ × ν)
  | [], _ => []
  | e :: d, k => if e.1 = k then d else e :: erase d k

/-- The keys, in insertion order. -/
def keys {κ ν : Type*} (d : List (κ × ν)) : List κ := d.map Prod.fst

@[simp] theorem get_nil : get ([] : List (κ × ν)) k = none := rfl

theorem get_cons_self : get ((k, v) :: d) k = some v := by simp [get]

theorem get_cons_of_ne {e : κ × ν} (h : e.1 ≠ k) : get (e :: d) k = get d k := by simp [get, h]

@[simp] theorem get_set_self : get (set d k v) k = some v := by
  induction d with
  | nil => exact get_cons_self
  | cons e d ih =>
    by_cases h : e.1 = k
    · simp only [set, h, if_true, get_cons_self]
    · simp only [set, h, if_false, get_cons_of_ne h, ih]

theorem get_set_of_ne (h : k' ≠ k) : get (set d k v) k' = get d k' := by
  induction d with
  | nil => exact get_cons_of_ne h.symm
  | cons e d ih =>
    by_cases he : e.1 = k
    · have hk : e.1 ≠ k' := fun h' => h (h'.symm.trans he)
      simp only [set, he, if_true, get_cons_of_ne (e := (k, v)) h.symm, get_cons_of_ne hk]
    · simp only [set, he, if_false, get, ih]

@[simp] theorem set_set_self : set (set d k v) k v' = set d k v' := by
  induction d with
  | nil => simp [set]
  | cons e d ih =>
    by_cases h : e.1 = k
    · simp [set, h]
    · simp [set, h, ih]

/-- Assigning the value that is there changes nothing. -/
theorem set_of_get (h : get d k = some v) : set d k v = d := by
  induction d with
  | nil => simp at h
  | cons e d ih =>
    obtain ⟨k', v'⟩ := e
    by_cases hk : k' = k
    · subst hk
      obtain rfl := Option.some_inj.mp (get_cons_self.symm.trans h)
      simp [set]
    · rw [get_cons_of_ne hk] at h
      simp only [set, hk, if_false, ih h]

theorem get_erase_of_ne (h : k' ≠ k) : get (erase d k) k' = get d k' := by
  induction d with
  | nil => rfl
  | cons e d ih =>
    by_cases he : e.1 = k
    · have hk : e.1 ≠ k' := fun h' => h (h'.symm.trans he)
      simp only [erase, he, if_true, get_cons_of_ne hk]
    · simp only [erase, he, if_false, get, ih]

/-- Dropping a key that is not there changes nothing. -/
theorem erase_of_get_none (h : get d k = none) : erase d k = d := by
  induction d with
  | nil => rfl
  | cons e d ih =>
    have he : e.1 ≠ k := by
      rintro rfl
      simp [get] at h
    rw [get_cons_of_ne he] at h
    simp only [erase, he, if_false, ih h]

theorem mem_keys_iff : k ∈ keys d ↔ ∃ v, get d k = some v := by
  induction d with
  | nil => simp [keys]
  | cons e d ih =>
    by_cases h : e.1 = k
    · simp [keys, get, h]
    · have hk : ¬ k = e.1 := fun h' => h h'.symm
      simpa [keys, get, h, hk] using ih

theorem get_eq_none_iff : get d k = none ↔ k ∉ keys d := by
  rw [mem_keys_iff, Option.eq_none_iff_forall_ne_some]
  simp

theorem get_of_mem (hd : (keys d).Nodup) (h : (k, v) ∈ d) : get d k = some v := by
  induction d with
  | nil => simp at h
  | cons e d ih =>
    obtain ⟨hnot, hd⟩ := List.nodup_cons.mp hd
    rcases List.mem_cons.mp h with rfl | h
    · exact get_cons_self
    · have hne : e.1 ≠ k := by
        rintro rfl
        exact hnot (List.mem_map.mpr ⟨_, h, rfl⟩)
      rw [get_cons_of_ne hne, ih hd h]

theorem mem_of_get (h : get d k = some v) : (k, v) ∈ d := by
  induction d with
  | nil => simp at h
  | cons e d ih =>
    by_cases he : e.1 = k
    · simp only [get, he, if_true, Option.some_inj] at h
      subst he h
      exact List.mem_cons_self ..
    · exact List.mem_cons_of_mem _ (ih (by rwa [get_cons_of_ne he] at h))

theorem keys_set_of_mem (h : k ∈ keys d) : keys (set d k v) = keys d := by
  induction d with
  | nil => simp [keys] at h
  | cons e d ih =>
    by_cases he : e.1 = k
    · simp [set, keys, he]
    · have hk : ¬ k = e.1 := fun h' => he h'.symm
      have hd : k ∈ keys d := by simpa [keys, hk] using h
      simpa [set, keys, he] using ih hd

theorem keys_set_of_notMem (h : k ∉ keys d) : keys (set d k v) = keys d ++ [k] := by
  induction d with
  | nil => simp [set, keys]
  | cons e d ih =>
    have he : e.1 ≠ k := by
      rintro rfl
      simp [keys] at h
    have hd : k ∉ keys d := fun hd => h (List.mem_cons_of_mem _ hd)
    simpa [set, keys, he] using ih hd

theorem nodup_keys_set (hd : (keys d).Nodup) : (keys (set d k v)).Nodup := by
  by_cases h : k ∈ keys d
  · rwa [keys_set_of_mem h]
  · rw [keys_set_of_notMem h, List.nodup_append]
    refine ⟨hd, List.nodup_singleton k, ?_⟩
    rintro a ha b hb rfl
    exact h (List.mem_singleton.mp hb ▸ ha)

theorem keys_erase_sublist : (keys (erase d k)).Sublist (keys d) := by
  induction d with
  | nil => exact List.Sublist.refl _
  | cons e d ih =>
    by_cases he : e.1 = k
    · simp [erase, keys, he]
    · simpa [erase, keys, he] using ih

theorem get_erase_self (hd : (keys d).Nodup) : get (erase d k) k = none := by
  induction d with
  | nil => rfl
  | cons e d ih =>
    obtain ⟨hnot, hd⟩ := List.nodup_cons.mp hd
    by_cases he : e.1 = k
    · subst he
      simpa [erase] using get_eq_none_iff.mpr hnot
    · simp only [erase, he, if_false, get_cons_of_ne he, ih hd]

end Entries

/-! ### Dictionaries -/

/-- A dictionary: entries in insertion order, each key once. -/
structure Dict (κ ν : Type*) where
  entries : List (κ × ν)
  nodup : (Entries.keys entries).Nodup

namespace Dict

variable {κ ν : Type*}

/-- `{}` -/
def empty : Dict κ ν := ⟨[], List.nodup_nil⟩

instance : Inhabited (Dict κ ν) := ⟨empty⟩

/-- `list(d.keys())` -/
def keys (d : Dict κ ν) : List κ := Entries.keys d.entries

variable [DecidableEq κ] {d : Dict κ ν} {k k' : κ} {v v' : ν}

/-- `d.get(k)` -/
def get (d : Dict κ ν) (k : κ) : Option ν := Entries.get d.entries k

/-- `d[k] = v` -/
def set (d : Dict κ ν) (k : κ) (v : ν) : Dict κ ν :=
  ⟨Entries.set d.entries k v, Entries.nodup_keys_set d.nodup⟩

/-- `d.pop(k, None)`, the dictionary that is left. -/
def erase (d : Dict κ ν) (k : κ) : Dict κ ν :=
  ⟨Entries.erase d.entries k, List.Nodup.sublist Entries.keys_erase_sublist d.nodup⟩

@[simp] theorem get_empty : (empty : Dict κ ν).get k = none := rfl

@[simp] theorem get_set_self : (d.set k v).get k = some v := Entries.get_set_self

@[simp] theorem get_erase_self : (d.erase k).get k = none := Entries.get_erase_self d.nodup

theorem get_set_of_ne (h : k' ≠ k) : (d.set k v).get k' = d.get k' := Entries.get_set_of_ne h

theorem get_erase_of_ne (h : k' ≠ k) : (d.erase k).get k' = d.get k' := Entries.get_erase_of_ne h

theorem get_set : (d.set k v).get k' = if k' = k then some v else d.get k' := by
  split_ifs with h
  · rw [h, get_set_self]
  · exact get_set_of_ne h

theorem get_erase : (d.erase k).get k' = if k' = k then none else d.get k' := by
  split_ifs with h
  · rw [h, get_erase_self]
  · exact get_erase_of_ne h

theorem erase_of_get_none (h : d.get k = none) : d.erase k = d := by
  cases d
  simp only [erase, mk.injEq]
  exact Entries.erase_of_get_none h

theorem mem_entries_iff : (k, v) ∈ d.entries ↔ d.get k = some v :=
  ⟨Entries.get_of_mem d.nodup, Entries.mem_of_get⟩

theorem mem_keys_iff : k ∈ d.keys ↔ ∃ v, d.get k = some v := Entries.mem_keys_iff

/-! ### Assigning many entries -/

/-- `d.update(es)`: the entries are assigned one after the other. -/
def assign (d : Dict κ ν) (es : List (κ × ν)) : Dict κ ν := es.foldl (fun d e => d.set e.1 e.2) d

variable {es es' : List (κ × ν)}

theorem assign_append : d.assign (es ++ es') = (d.assign es).assign es' := List.foldl_append ..

theorem get_assign_of_notMem (h : ∀ e ∈ es, k ≠ e.1) : (d.assign es).get k = d.get k := by
  induction es generalizing d with
  | nil => rfl
  | cons e es ih =>
    obtain ⟨he, hes⟩ := List.forall_mem_cons.mp h
    exact (ih hes).trans (get_set_of_ne he)

/-- **Nothing is overwritten** exactly if the entries of one key have one value. -/
theorem get_assign_iff : (∀ e ∈ es, (d.assign es).get e.1 = some e.2) ↔
    es.Pairwise fun e e' => e.1 = e'.1 → e.2 = e'.2 := by
  induction es generalizing d with
  | nil => simp
  | cons e es ih =>
    have hassign : d.assign (e :: es) = (d.set e.1 e.2).assign es := rfl
    rw [List.forall_mem_cons, hassign, ih, List.pairwise_cons]
    refine and_congr_left fun hes => ?_
    constructor
    · intro hget e' he' hkey
      rw [hkey, ih.mpr hes e' he'] at hget
      exact (Option.some.inj hget).symm
    · intro h
      by_cases hlater : ∃ e' ∈ es, e.1 = e'.1
      · obtain ⟨e', he', hkey⟩ := hlater
        rw [hkey, ih.mpr hes e' he', h e' he' hkey]
      · rw [get_assign_of_notMem fun e' he' hkey => hlater ⟨e', he', hkey⟩, get_set_self]

end Dict

end Nanogate.Python
