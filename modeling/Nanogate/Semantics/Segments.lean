import Mathlib.Data.List.Basic

/-!
# Terminated segments of a list

A log whose entries are told apart only by whether they end something is a sequence of
terminated segments, followed by one that has not ended yet. There is one way to read a list
so: whatever cuts the same list into terminated segments cuts it at the same places.

## Main definitions

* `Terminated` — a segment that ends with its only end marker
* `upToEnd` — the first segment of a list

## Main results

* `Terminated.append_inj` — a list begins with one terminated segment at most
* `exists_of_flatten_append` — segments cut off the front are the first segments of any cutting
* `prefix_of_unended` — what begins a list and has not ended is a part of its first segment
* `upToEnd_append`, `upToEnd_append_of_mem` — the first segment of a list that has grown
* `exists_of_upToEnd_eq` — what is left of a segment is the first segment of what is left
-/

namespace Nanogate.Semantics

variable {α : Type*} {isEnd : α → Bool}

/-- The last element ends the segment, and no element before it does. -/
def Terminated (isEnd : α → Bool) (l : List α) : Prop :=
  ∃ front last, l = front ++ [last] ∧ (∀ x ∈ front, isEnd x = false) ∧ isEnd last = true

/-- No element ends the segment. -/
def Unended (isEnd : α → Bool) (l : List α) : Prop := ∀ x ∈ l, isEnd x = false

theorem Unended.nil : Unended isEnd [] := fun _ h => absurd h (by simp)

theorem Unended.of_not_exists {l : List α} (h : ¬∃ x ∈ l, isEnd x = true) : Unended isEnd l :=
  fun x hx => Bool.eq_false_iff.mpr fun hend => h ⟨x, hx, hend⟩

theorem Unended.concat {l : List α} {x : α} (hl : Unended isEnd l) (hx : isEnd x = false) :
    Unended isEnd (l ++ [x]) := by
  intro y hy
  rcases List.mem_append.mp hy with hold | hnew
  · exact hl y hold
  · obtain rfl := List.mem_singleton.mp hnew
    exact hx

theorem Unended.terminated {l : List α} {x : α} (hl : Unended isEnd l) (hx : isEnd x = true) :
    Terminated isEnd (l ++ [x]) :=
  ⟨l, x, rfl, hl, hx⟩

theorem Terminated.not_unended {l m : List α} (h : Terminated isEnd l) (hl : l <+: m) :
    ¬Unended isEnd m := by
  obtain ⟨front, last, rfl, -, hlast⟩ := h
  intro hm
  have hmem : last ∈ m := hl.subset (by simp)
  exact absurd hlast (by simp [hm last hmem])

/-- A terminated segment is no part of what another one begins with. -/
theorem Terminated.eq_of_prefix {a b : List α} (ha : Terminated isEnd a) (hb : Terminated isEnd b)
    (h : a <+: b) : a = b := by
  obtain ⟨front, last, rfl, hfront, -⟩ := hb
  rcases List.prefix_concat_iff.mp h with heq | hpre
  · exact heq
  · exact absurd hfront (ha.not_unended hpre)

/-- A list begins with one terminated segment at most. -/
theorem Terminated.append_inj {a b r r' : List α} (ha : Terminated isEnd a)
    (hb : Terminated isEnd b) (h : a ++ r = b ++ r') : a = b ∧ r = r' := by
  have hab : a = b := by
    rcases List.prefix_or_prefix_of_prefix (List.prefix_append a r)
      (h ▸ List.prefix_append b r') with hpre | hpre
    · exact ha.eq_of_prefix hb hpre
    · exact (hb.eq_of_prefix ha hpre).symm
  subst hab
  exact ⟨rfl, List.append_cancel_left h⟩

/-- Terminated segments cut off the front of a list are the first segments of any way to cut
it, as long as what that leaves over has not ended. -/
theorem exists_of_flatten_append {as bs : List (List α)} {r r' : List α}
    (has : ∀ a ∈ as, Terminated isEnd a) (hbs : ∀ b ∈ bs, Terminated isEnd b)
    (hr' : Unended isEnd r') (h : as.flatten ++ r = bs.flatten ++ r') :
    ∃ cs, bs = as ++ cs ∧ r = cs.flatten ++ r' := by
  induction as generalizing bs with
  | nil => exact ⟨bs, rfl, h⟩
  | cons a as ih =>
    have ha := has a (List.mem_cons_self ..)
    rw [List.flatten_cons, List.append_assoc] at h
    cases bs with
    | nil =>
      -- nothing is left that could end the first segment
      have hpre : a <+: r' := ⟨_, h⟩
      exact absurd hr' (ha.not_unended hpre)
    | cons b bs =>
      rw [List.flatten_cons, List.append_assoc] at h
      obtain ⟨rfl, hrest⟩ := ha.append_inj (hbs b (List.mem_cons_self ..)) h
      obtain ⟨cs, rfl, hr⟩ := ih (fun x hx => has x (List.mem_cons_of_mem _ hx))
        (fun x hx => hbs x (List.mem_cons_of_mem _ hx)) hrest
      exact ⟨cs, rfl, hr⟩

/-- What begins a list and has not ended is a part of the first segment. -/
theorem prefix_of_unended {a b r r' : List α} (ha : Unended isEnd a) (hb : Terminated isEnd b)
    (h : a ++ r = b ++ r') : a <+: b := by
  rcases List.prefix_or_prefix_of_prefix (List.prefix_append a r)
    (h ▸ List.prefix_append b r') with hpre | hpre
  · exact hpre
  · exact absurd ha (hb.not_unended hpre)

/-! ### The first segment -/

section UpToEnd

variable {l m front back : List α} {x : α}

/-- The elements up to and including the first that ends the segment. -/
def upToEnd (isEnd : α → Bool) : List α → List α
  | [] => []
  | x :: l => if isEnd x then [x] else x :: upToEnd isEnd l

theorem upToEnd_cons_of_end (hx : isEnd x = true) : upToEnd isEnd (x :: l) = [x] := if_pos hx

theorem upToEnd_cons_of_not_end (hx : isEnd x = false) :
    upToEnd isEnd (x :: l) = x :: upToEnd isEnd l :=
  if_neg (by simp [hx])

/-- A segment that has not ended goes on. -/
theorem upToEnd_append (hl : Unended isEnd l) : upToEnd isEnd (l ++ m) = l ++ upToEnd isEnd m := by
  induction l with
  | nil => rfl
  | cons x l ih =>
    rw [List.cons_append, upToEnd_cons_of_not_end (hl x (List.mem_cons_self ..)),
      ih fun y hy => hl y (List.mem_cons_of_mem _ hy), List.cons_append]

theorem upToEnd_of_unended (hl : Unended isEnd l) : upToEnd isEnd l = l := by
  have h := @upToEnd_append α isEnd l [] hl
  rwa [List.append_nil, upToEnd, List.append_nil] at h

/-- A segment that has ended stays as it is. -/
theorem upToEnd_append_of_mem (hx : x ∈ l) (hend : isEnd x = true) :
    upToEnd isEnd (l ++ m) = upToEnd isEnd l := by
  induction l with
  | nil => simp at hx
  | cons y l ih =>
    cases hy : isEnd y with
    | true => rw [List.cons_append, upToEnd_cons_of_end hy, upToEnd_cons_of_end hy]
    | false =>
      have hmem : x ∈ l := by
        rcases List.mem_cons.mp hx with rfl | hmem
        · simp [hend] at hy
        · exact hmem
      rw [List.cons_append, upToEnd_cons_of_not_end hy, upToEnd_cons_of_not_end hy, ih hmem]

theorem upToEnd_upToEnd (l : List α) : upToEnd isEnd (upToEnd isEnd l) = upToEnd isEnd l := by
  induction l with
  | nil => rfl
  | cons x l ih =>
    cases hx : isEnd x with
    | true => rw [upToEnd_cons_of_end hx, upToEnd_cons_of_end hx]
    | false => rw [upToEnd_cons_of_not_end hx, upToEnd_cons_of_not_end hx, ih]

theorem upToEnd_map {β : Type*} {isEnd : β → Bool} (f : α → β) (l : List α) :
    upToEnd isEnd (l.map f) = (upToEnd (fun x => isEnd (f x)) l).map f := by
  induction l with
  | nil => rfl
  | cons x l ih =>
    cases hx : isEnd (f x) with
    | true => simp [upToEnd, hx]
    | false => simp [upToEnd, hx, ih]

/-- Up to an element that does not end it, the segment is the list; after it, it is the first
segment of what is left. -/
theorem exists_of_upToEnd_eq (h : upToEnd isEnd l = front ++ x :: back) (hx : isEnd x = false) :
    ∃ rest, l = front ++ x :: rest ∧ Unended isEnd (front ++ [x]) ∧ upToEnd isEnd rest = back := by
  induction l generalizing front with
  | nil => simp [upToEnd] at h
  | cons y l ih =>
    cases hy : isEnd y with
    | true =>
      -- nothing follows `y`, so it would be `x`
      rw [upToEnd_cons_of_end hy] at h
      cases front with
      | nil =>
        obtain ⟨rfl, -⟩ := List.cons.inj h
        exact absurd hy (by simp [hx])
      | cons z front => simp at h
    | false =>
      rw [upToEnd_cons_of_not_end hy] at h
      cases front with
      | nil =>
        obtain ⟨rfl, hback⟩ := List.cons.inj h
        exact ⟨l, rfl, Unended.nil.concat hy, hback⟩
      | cons z front =>
        obtain ⟨rfl, htail⟩ := List.cons.inj h
        obtain ⟨rest, rfl, hunended, hrest⟩ := ih htail
        refine ⟨rest, rfl, fun w hw => ?_, hrest⟩
        rcases List.mem_cons.mp hw with rfl | hw
        · exact hy
        · exact hunended w hw

end UpToEnd

end Nanogate.Semantics
