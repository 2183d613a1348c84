import Mathlib.Data.List.Nodup
import Mathlib.Data.List.Pairwise

/-!
# Redis streams

A stream is an append-only log of entries with strictly increasing ids. `XADD`
with `*` takes the server clock as the id, or the successor of the last id when
the clock has not advanced past it; an id `ms-seq` is one number here, since Redis
orders ids lexicographically. `MAXLEN ~ n` may drop old entries, but never so many
that fewer than `n` are left; how many it drops is up to the server.

## Main definitions

* `Stream` — a log with strictly increasing ids and the number of entries trimmed
* `Stream.xadd` — append an entry and trim
* `Stream.after` — what `XREAD` returns for a last id
* `Stream.map` — the same stream with its entries written differently

## Main results

* `Stream.mem_log_xadd` — an `XADD` adds one entry to the log and loses none
* `Stream.after_lastOf`, `Stream.filter_lt_eq_append` — a reader who goes on from the last entry it
  has read misses nothing, unless something it has not read was trimmed
-/

namespace Nanogate.Redis

/-- A stream: every entry ever added, oldest first, and how many have been trimmed. -/
structure Stream (α : Type*) where
  log : List (ℕ × α)
  trimmed : ℕ
  sorted : (log.map Prod.fst).Pairwise (· < ·)

/-- What the server decides about one `XADD`: its clock and how much it trims. -/
structure Xadd where
  now : ℕ
  drop : ℕ
  deriving DecidableEq, Repr

namespace Stream

variable {α : Type*} {s : Stream α} {x y : α} {id : ℕ} {c : Xadd} {maxlen : ℕ}

/-- A key that was never written. -/
def empty : Stream α := ⟨[], 0, List.Pairwise.nil⟩

/-- The largest id used so far; `0` is not a valid id. -/
def lastId (s : Stream α) : ℕ := (s.log.map Prod.fst).getLastD 0

/-- The id that `XADD` with `*` assigns. -/
def nextId (s : Stream α) (now : ℕ) : ℕ := if s.lastId < now then now else s.lastId + 1

theorem lastId_lt_nextId (now : ℕ) : s.lastId < s.nextId now := by
  unfold nextId
  split_ifs with h
  · exact h
  · exact Nat.lt_succ_self _

theorem id_le_lastId (h : (id, x) ∈ s.log) : id ≤ s.lastId := by
  have hmem : id ∈ s.log.map Prod.fst := List.mem_map.mpr ⟨_, h, rfl⟩
  have hne : s.log.map Prod.fst ≠ [] := List.ne_nil_of_mem hmem
  rw [lastId, List.getLastD_eq_getLast?, List.getLast?_eq_some_getLast hne, Option.getD_some]
  exact (s.sorted.imp Nat.le_of_lt).rel_getLast_of_rel_getLast_getLast hmem (Nat.le_refl _)

/-- Append `x` and trim to about `maxlen` entries. -/
def xadd (s : Stream α) (maxlen : ℕ) (c : Xadd) (x : α) : Stream α where
  log := s.log ++ [(s.nextId c.now, x)]
  trimmed := max s.trimmed (min c.drop (s.log.length + 1 - maxlen))
  sorted := by
    rw [List.map_append, List.pairwise_append]
    refine ⟨s.sorted, by simp, ?_⟩
    rintro id hid _ hnext
    obtain ⟨⟨_, x⟩, hmem, rfl⟩ := List.mem_map.mp hid
    obtain rfl := List.mem_singleton.mp hnext
    exact Nat.lt_of_le_of_lt (id_le_lastId hmem) (lastId_lt_nextId _)

/-- The entries still in the stream. -/
def visible (s : Stream α) : List (ℕ × α) := s.log.drop s.trimmed

/-- The entries `XREAD` returns for the last id `id`. -/
def after (s : Stream α) (id : ℕ) : List (ℕ × α) := s.visible.filter fun e => id < e.1

@[simp] theorem log_empty : (empty : Stream α).log = [] := rfl

@[simp] theorem log_xadd : (s.xadd maxlen c x).log = s.log ++ [(s.nextId c.now, x)] := rfl

theorem mem_log_xadd {e : ℕ × α} :
    e ∈ (s.xadd maxlen c x).log ↔ e ∈ s.log ∨ e = (s.nextId c.now, x) := by
  simp

theorem lastId_xadd : (s.xadd maxlen c x).lastId = s.nextId c.now := by
  simp [lastId, List.getLastD_eq_getLast?]

@[simp] theorem trimmed_empty : (empty : Stream α).trimmed = 0 := rfl

/-- An `XADD` whose server drops nothing trims nothing. -/
theorem trimmed_xadd_of_drop (hs : s.trimmed = 0) (hc : c.drop = 0) :
    (s.xadd maxlen c x).trimmed = 0 := by
  simp [xadd, hs, hc]

theorem lt_of_mem_after {e : ℕ × α} (h : e ∈ s.after id) : id < e.1 :=
  of_decide_eq_true (List.mem_filter.mp h).2

/-- In an untrimmed stream every entry beyond `id` is still to be read. -/
theorem mem_after_iff (hs : s.trimmed = 0) {e : ℕ × α} : e ∈ s.after id ↔ e ∈ s.log ∧ id < e.1 := by
  simp [after, visible, hs]

/-- An id belongs to one entry. -/
theorem eq_of_id_eq {e e' : ℕ × α} (he : e ∈ s.log) (he' : e' ∈ s.log) (hid : e.1 = e'.1) :
    e = e' :=
  List.inj_on_of_nodup_map (s.sorted.imp Nat.ne_of_lt) he he' hid

/-- Where everything that was trimmed is not beyond `id`, `XREAD` returns all that is. -/
theorem after_eq_filter (htrim : ∀ e ∈ s.log.take s.trimmed, e.1 ≤ id) :
    s.after id = s.log.filter fun e => id < e.1 := by
  have htaken : (s.log.take s.trimmed).filter (fun e => id < e.1) = [] := by
    rw [List.filter_eq_nil_iff]
    intro e he
    simpa using htrim e he
  calc s.after id
      = (s.log.take s.trimmed).filter (fun e => id < e.1) ++
          (s.log.drop s.trimmed).filter (fun e => id < e.1) := by
        rw [htaken, List.nil_append]
        rfl
    _ = s.log.filter (fun e => id < e.1) := by
        rw [← List.filter_append, List.take_append_drop]

/-- What `XREAD` returns is in the order of ids. -/
theorem sorted_after (s : Stream α) (id : ℕ) : (s.after id).Pairwise fun e e' => e.1 < e'.1 :=
  ((List.pairwise_map.mp s.sorted).sublist (List.drop_sublist _ _)).filter _

theorem mem_log_of_mem_after {e : ℕ × α} (h : e ∈ s.after id) : e ∈ s.log :=
  List.mem_of_mem_drop (List.mem_of_mem_filter h)

theorem nextId_pos (now : ℕ) : 0 < s.nextId now :=
  Nat.zero_lt_of_lt (lastId_lt_nextId now)

/-! ### Reading on from an entry -/

section Split

variable {front rest : List (ℕ × α)}

/-- The last id of the first entries of a stream, `0` if there are none. -/
def lastOf (front : List (ℕ × α)) : ℕ := (front.map Prod.fst).getLastD 0

@[simp] theorem lastOf_nil : lastOf ([] : List (ℕ × α)) = 0 := rfl

@[simp] theorem lastOf_concat {e : ℕ × α} : lastOf (front ++ [e]) = e.1 := by
  simp [lastOf, List.getLastD_eq_getLast?]

theorem le_lastOf (hlog : s.log = front ++ rest) {e : ℕ × α} (he : e ∈ front) :
    e.1 ≤ lastOf front := by
  have hsorted : (front.map Prod.fst).Pairwise (· < ·) := by
    have h := s.sorted
    rw [hlog, List.map_append, List.pairwise_append] at h
    exact h.1
  exact id_le_lastId (s := ⟨front, 0, hsorted⟩) he

theorem lastOf_lt (hlog : s.log = front ++ rest) (hpos : ∀ e ∈ s.log, 0 < e.1) {e : ℕ × α}
    (he : e ∈ rest) : lastOf front < e.1 := by
  rcases List.eq_nil_or_concat front with rfl | ⟨init, last, rfl⟩
  · exact hpos e (by rw [hlog]; exact List.mem_append_right _ he)
  · rw [List.concat_eq_append] at hlog ⊢
    have h := s.sorted
    rw [hlog, List.map_append, List.pairwise_append] at h
    rw [lastOf_concat]
    exact h.2.2 _ (List.mem_map_of_mem (by simp)) _ (List.mem_map_of_mem he)

/-- Where nothing beyond the last entry of `front` was trimmed, reading on from it returns
everything else. -/
theorem after_lastOf (hlog : s.log = front ++ rest) (hpos : ∀ e ∈ s.log, 0 < e.1)
    (htrim : ∀ e ∈ s.log.take s.trimmed, e.1 ≤ lastOf front) : s.after (lastOf front) = rest := by
  have hfront : front.filter (fun e => lastOf front < e.1) = [] := by
    rw [List.filter_eq_nil_iff]
    intro e he
    simpa using le_lastOf hlog he
  have hrest : rest.filter (fun e => lastOf front < e.1) = rest := by
    rw [List.filter_eq_self]
    intro e he
    simpa using lastOf_lt hlog hpos he
  rw [after_eq_filter htrim, hlog, List.filter_append, hfront, hrest, List.nil_append]

/-- The id that a reader who began at `id` has come to with these entries. -/
def reached (id : ℕ) (entries : List (ℕ × α)) : ℕ := (entries.map Prod.fst).getLastD id

@[simp] theorem reached_nil : reached id ([] : List (ℕ × α)) = id := rfl

@[simp] theorem reached_concat {e : ℕ × α} : reached id (front ++ [e]) = e.1 := by
  simp [reached, List.getLastD_eq_getLast?]

theorem le_reached (h : ∀ e ∈ front, id < e.1) : id ≤ reached id front := by
  rcases List.eq_nil_or_concat front with rfl | ⟨init, last, rfl⟩
  · exact Nat.le_refl _
  · rw [List.concat_eq_append] at h ⊢
    rw [reached_concat]
    exact Nat.le_of_lt (h last (by simp))

/-- Reading on from an entry that was read gives what came after it. -/
theorem filter_lt_of_filter_eq {e : ℕ × α}
    (h : s.log.filter (fun e => id < e.1) = front ++ e :: rest) :
    s.log.filter (fun e' => e.1 < e'.1) = rest := by
  have hsorted : (front ++ e :: rest).Pairwise fun e e' => e.1 < e'.1 := by
    rw [← h]
    exact (List.pairwise_map.mp s.sorted).filter _
  obtain ⟨-, hright, hacross⟩ := List.pairwise_append.mp hsorted
  have hid : id < e.1 := by
    have hmem : e ∈ s.log.filter fun e => id < e.1 := by
      rw [h]
      simp
    exact of_decide_eq_true (List.mem_filter.mp hmem).2
  have hfront : (front ++ [e]).filter (fun e' => e.1 < e'.1) = [] := by
    rw [List.filter_eq_nil_iff]
    intro e' he'
    rcases List.mem_append.mp he' with he' | he'
    · simpa using Nat.le_of_lt (hacross e' he' e (List.mem_cons_self ..))
    · obtain rfl := List.mem_singleton.mp he'
      simp
  have hrest : rest.filter (fun e' => e.1 < e'.1) = rest := by
    rw [List.filter_eq_self]
    intro e' he'
    simpa using (List.pairwise_cons.mp hright).1 e' he'
  calc s.log.filter (fun e' => e.1 < e'.1)
      = (s.log.filter fun e => id < e.1).filter (fun e' => e.1 < e'.1) := by
        rw [List.filter_filter]
        refine List.filter_congr fun e' _ => ?_
        by_cases hlt : e.1 < e'.1
        · simp [hlt, Nat.lt_trans hid hlt]
        · simp [hlt]
    _ = ((front ++ [e]) ++ rest).filter (fun e' => e.1 < e'.1) := by rw [h, List.append_cons]
    _ = rest := by rw [List.filter_append, hfront, hrest, List.nil_append]

/-- Whoever has read what was there goes on with everything else. -/
theorem filter_lt_eq_append (hlog : front <+: s.log) :
    s.log.filter (fun e => id < e.1) = front.filter (fun e => id < e.1) ++
      s.log.filter fun e => reached id (front.filter fun e => id < e.1) < e.1 := by
  obtain ⟨rest, hrest⟩ := hlog
  rcases List.eq_nil_or_concat (front.filter fun e => id < e.1) with hnil | ⟨init, last, hread⟩
  · rw [hnil, reached_nil, List.nil_append]
  · rw [List.concat_eq_append] at hread
    have hall : s.log.filter (fun e => id < e.1) =
        init ++ last :: rest.filter (fun e => id < e.1) := by
      rw [← hrest, List.filter_append, hread, List.append_assoc, List.singleton_append]
    rw [hread, reached_concat, filter_lt_of_filter_eq hall, hall, List.append_assoc,
      List.singleton_append]

end Split

/-! ### Entries written differently -/

section Map

variable {β : Type*} (f : α → β)

/-- The same stream with its entries written differently. -/
def map (s : Stream α) : Stream β where
  log := s.log.map fun e => (e.1, f e.2)
  trimmed := s.trimmed
  sorted := by simpa [Function.comp_def] using s.sorted

@[simp] theorem log_map : (s.map f).log = s.log.map fun e => (e.1, f e.2) := rfl

@[simp] theorem map_empty : (empty : Stream α).map f = empty := rfl

theorem map_xadd : (s.xadd maxlen c x).map f = (s.map f).xadd maxlen c (f x) := by
  simp [map, xadd, nextId, lastId, Function.comp_def]

theorem after_map : (s.map f).after id = (s.after id).map fun e => (e.1, f e.2) := by
  simp [map, after, visible, ← List.map_drop, List.filter_map, Function.comp_def]

end Map

end Stream

end Nanogate.Redis
