import Nanogate.Redis.Stream

/-!
# Consumer groups

A consumer group of a stream remembers the last id it has handed to any consumer.
`XREADGROUP` with the id `>` moves that cursor forward by one entry and records the
entry as pending for its consumer until it is acknowledged. An entry is handed out
once: reading with `>` never returns a pending entry again, whoever asks.

## Main definitions

* `ConsumerGroup` — the cursor and the pending entries
* `ConsumerGroup.readNew`, `ConsumerGroup.ack` — `XREADGROUP … COUNT 1 … >` and `XACK`

## Main results

* `handed_of_readNew` — reading hands out exactly one more entry
* `readNew_eq_none_iff` — nothing is returned when every entry has been handed out
-/

namespace Nanogate.Redis

/-- A consumer group: the last id handed out, and the entries handed out and not
acknowledged, with their consumers. -/
structure ConsumerGroup where
  lastDelivered : ℕ
  pel : List (ℕ × String)
  deriving DecidableEq, Repr

namespace ConsumerGroup

variable {α : Type*} {g g' : ConsumerGroup} {s : Stream α} {consumer : String} {e e' : ℕ × α}

/-- `XGROUP CREATE … 0`: the group starts before the first entry. -/
def create : ConsumerGroup := ⟨0, []⟩

/-- `XREADGROUP … COUNT 1 … >`, when there is an entry that was not handed out. -/
def readNew (g : ConsumerGroup) (s : Stream α) (consumer : String) :
    Option ((ℕ × α) × ConsumerGroup) :=
  match s.after g.lastDelivered with
  | [] => none
  | e :: _ => some (e, ⟨e.1, g.pel ++ [(e.1, consumer)]⟩)

/-- `XACK` -/
def ack (g : ConsumerGroup) (id : ℕ) : ConsumerGroup :=
  { g with pel := g.pel.filter fun p => p.1 ≠ id }

@[simp] theorem lastDelivered_ack (id : ℕ) : (g.ack id).lastDelivered = g.lastDelivered := rfl

theorem readNew_eq_none_iff (hs : s.trimmed = 0) :
    g.readNew s consumer = none ↔ ∀ e ∈ s.log, e.1 ≤ g.lastDelivered := by
  have hafter : g.readNew s consumer = none ↔ s.after g.lastDelivered = [] := by
    unfold readNew
    split <;> simp_all
  rw [hafter, List.eq_nil_iff_forall_not_mem]
  constructor
  · intro h e he
    refine Nat.le_of_not_lt fun hlt => h e ?_
    exact (Stream.mem_after_iff hs).mpr ⟨he, hlt⟩
  · intro h e he
    obtain ⟨hlog, hlt⟩ := (Stream.mem_after_iff hs).mp he
    exact absurd (h e hlog) (Nat.not_le_of_lt hlt)

theorem mem_log_of_readNew (h : g.readNew s consumer = some (e, g')) : e ∈ s.log := by
  unfold readNew at h
  split at h
  next => exact absurd h (by simp)
  next heq =>
    obtain ⟨rfl, -⟩ := Prod.mk.inj (Option.some.inj h)
    exact Stream.mem_log_of_mem_after (heq ▸ List.mem_cons_self ..)

theorem lastDelivered_of_readNew (h : g.readNew s consumer = some (e, g')) :
    g'.lastDelivered = e.1 ∧ g.lastDelivered < e.1 := by
  unfold readNew at h
  split at h
  next => exact absurd h (by simp)
  next heq =>
    obtain ⟨rfl, rfl⟩ := Prod.mk.inj (Option.some.inj h)
    exact ⟨rfl, Stream.lt_of_mem_after (s := s) (heq ▸ List.mem_cons_self ..)⟩

/-- The entries handed out after a read are those from before and the one returned. -/
theorem handed_of_readNew (hs : s.trimmed = 0) (h : g.readNew s consumer = some (e, g'))
    (he' : e' ∈ s.log) (hle : e'.1 ≤ g'.lastDelivered) : e'.1 ≤ g.lastDelivered ∨ e' = e := by
  unfold readNew at h
  split at h
  next => exact absurd h (by simp)
  next first rest heq =>
    obtain ⟨rfl, rfl⟩ := Prod.mk.inj (Option.some.inj h)
    rcases Nat.lt_or_ge g.lastDelivered e'.1 with hlt | hge
    · have hmem : e' ∈ first :: rest := heq ▸ (Stream.mem_after_iff hs).mpr ⟨he', hlt⟩
      have hsorted := heq ▸ Stream.sorted_after s g.lastDelivered
      rcases List.mem_cons.mp hmem with rfl | hrest
      · exact .inr rfl
      · exact absurd hle (Nat.not_le_of_lt ((List.pairwise_cons.mp hsorted).1 _ hrest))
    · exact .inl hge

end ConsumerGroup

end Nanogate.Redis
