import Mathlib.Data.List.Basic
import Mathlib.Logic.Relation

/-!
# Machines with labelled partial steps

A machine is a partial step function: a label that is not enabled in a state has
no successor. A run is a list of labels together with the state it ends in, so an
interleaving of several components is just a list, and leaving out the steps of
one component is filtering that list.

## Main definitions

* `Machine` — an initial state and a partial step function
* `Machine.runFrom` — the state reached by a list of labels, if all are enabled
* `Machine.AllSteps` — every step of a run meets a condition on the state before it
* `Machine.observed` — what the steps of a run show of themselves
* `Machine.Unwinding` — a relation between two states of one machine that hidden
  steps of the first preserve and visible steps match
* `Machine.Encoding` — the states of one machine are those of another, written differently
* `Machine.Chain` — a chain of labelled steps of a relation
* `Machine.Refines` — what a step of a machine shows is a step of a relation, the specification

## Main results

* `Machine.run_invariant` — a property kept by every step that meets the
  condition holds wherever runs of such steps lead
* `Machine.Unwinding.run` — removing the hidden steps of a run leaves a run, and
  the two end in related states
* `Machine.Encoding.run_iff` — the two machines have the same runs
* `Machine.Refines.run` — what a run shows is a chain of the specification
-/

namespace Nanogate.Semantics

/-- A machine: an initial state and a partial step for each label. -/
structure Machine (σ α : Type*) where
  init : σ
  step : σ → α → Option σ

namespace Machine

variable {σ α : Type*} (M : Machine σ α) {s s' t : σ} {a : α} {as bs : List α}

/-- Follow a list of labels; `none` as soon as one of them is not enabled. -/
def runFrom (s : σ) : List α → Option σ
  | [] => some s
  | a :: as =>
    match M.step s a with
    | some s' => runFrom s' as
    | none => none

/-- The run from the initial state. -/
def run (as : List α) : Option σ := M.runFrom M.init as

@[simp] theorem runFrom_nil : M.runFrom s [] = some s := rfl

theorem runFrom_cons_of_step (h : M.step s a = some s') :
    M.runFrom s (a :: as) = M.runFrom s' as := by
  simp only [runFrom, h]

theorem runFrom_cons_eq_some :
    M.runFrom s (a :: as) = some t ↔ ∃ s', M.step s a = some s' ∧ M.runFrom s' as = some t := by
  cases h : M.step s a with
  | none => simp [runFrom, h]
  | some s' => simp [runFrom, h]

theorem runFrom_append_eq_some :
    M.runFrom s (as ++ bs) = some t ↔
      ∃ u, M.runFrom s as = some u ∧ M.runFrom u bs = some t := by
  induction as generalizing s with
  | nil => simp
  | cons a as ih =>
    simp only [List.cons_append, runFrom_cons_eq_some, ih]
    constructor
    · rintro ⟨s', hstep, u, hrun, hrest⟩
      exact ⟨u, ⟨s', hstep, hrun⟩, hrest⟩
    · rintro ⟨u, ⟨s', hstep, hrun⟩, hrest⟩
      exact ⟨s', hstep, u, hrun, hrest⟩

/-- Every step of the run of `as` from `s` meets `G` in the state it is taken in. -/
def AllSteps (G : σ → α → Prop) (s : σ) : List α → Prop
  | [] => True
  | a :: as => G s a ∧ ∀ s', M.step s a = some s' → AllSteps G s' as

variable {M}

theorem AllSteps.head {G : σ → α → Prop} (h : M.AllSteps G s (a :: as)) : G s a := h.1

theorem AllSteps.tail {G : σ → α → Prop} (h : M.AllSteps G s (a :: as))
    (hstep : M.step s a = some s') : M.AllSteps G s' as :=
  h.2 s' hstep

/-- For a decidable condition the steps of a run can be checked one after the other. -/
instance AllSteps.decidable {G : σ → α → Prop} [∀ s a, Decidable (G s a)] :
    (s : σ) → (as : List α) → Decidable (M.AllSteps G s as)
  | _, [] => isTrue trivial
  | s, a :: as =>
    have (s' : σ) : Decidable (M.AllSteps G s' as) := AllSteps.decidable s' as
    inferInstanceAs (Decidable (G s a ∧ ∀ s' ∈ M.step s a, M.AllSteps G s' as))

/-- A condition on labels alone holds of all steps when it holds of all labels. -/
theorem AllSteps.of_labels {P : α → Prop} (h : ∀ a ∈ as, P a) :
    M.AllSteps (fun _ a => P a) s as := by
  induction as generalizing s with
  | nil => trivial
  | cons a as ih =>
    exact ⟨h a (List.mem_cons_self ..), fun s' _ => ih fun b hb => h b (List.mem_cons_of_mem _ hb)⟩

/-- **Invariant rule.** A property that every step meeting `G` preserves holds at
the end of every run all of whose steps meet `G`. -/
theorem run_invariant {I : σ → Prop} {G : σ → α → Prop}
    (preserved : ∀ {s a s'}, I s → G s a → M.step s a = some s' → I s')
    (hs : I s) (hG : M.AllSteps G s as) (hrun : M.runFrom s as = some t) : I t := by
  induction as generalizing s with
  | nil =>
    obtain rfl := Option.some_inj.mp hrun
    exact hs
  | cons a as ih =>
    obtain ⟨s', hstep, hrest⟩ := M.runFrom_cons_eq_some.mp hrun
    exact ih (preserved hs hG.head hstep) (hG.tail hstep) hrest

/-- The invariant rule without a condition on the steps. -/
theorem run_invariant' {I : σ → Prop}
    (preserved : ∀ {s a s'}, I s → M.step s a = some s' → I s')
    (hs : I s) (hrun : M.runFrom s as = some t) : I t :=
  run_invariant (G := fun _ _ => True) (fun h _ hstep => preserved h hstep) hs
    (AllSteps.of_labels fun _ _ => trivial) hrun

/-- The invariant rule for properties of the state and of the labels that led to it. -/
theorem history_invariant {I : σ → List α → Prop}
    (preserved : ∀ {s bs a s'}, I s bs → M.step s a = some s' → I s' (bs ++ [a]))
    (hs : I s []) (hrun : M.runFrom s as = some t) : I t as := by
  have hfrom (as : List α) : ∀ s bs, I s bs → M.runFrom s as = some t → I t (bs ++ as) := by
    induction as with
    | nil =>
      intro s bs hs hrun
      obtain rfl := Option.some_inj.mp hrun
      rwa [List.append_nil]
    | cons a as ih =>
      intro s bs hs hrun
      obtain ⟨s', hstep, hrest⟩ := M.runFrom_cons_eq_some.mp hrun
      have hnext := ih s' (bs ++ [a]) (preserved hs hstep) hrest
      rwa [List.append_assoc] at hnext
  exact hfrom as s [] hs hrun

/-! ### What a run shows -/

variable {β : Type*} {obs : σ → α → List β}

variable (M) in
/-- What the steps of a run show, one after the other, `obs s a` being what the step `a` shows
when it is taken in `s`. -/
def observed (obs : σ → α → List β) (s : σ) : List α → List β
  | [] => []
  | a :: as => obs s a ++ (M.step s a).elim [] fun s' => observed obs s' as

theorem observed_cons (hstep : M.step s a = some s') :
    M.observed obs s (a :: as) = obs s a ++ M.observed obs s' as := by
  simp only [observed, hstep, Option.elim_some]

/-- What every step shows meets `P`. -/
theorem observed_labels {P : β → Prop} (h : ∀ s, ∀ a ∈ as, ∀ b ∈ obs s a, P b) :
    ∀ b ∈ M.observed obs s as, P b := by
  induction as generalizing s with
  | nil => simp [observed]
  | cons a as ih =>
    intro b hb
    rcases List.mem_append.mp hb with hb | hb
    · exact h s a (List.mem_cons_self ..) b hb
    · cases hstep : M.step s a with
      | none => simp [hstep] at hb
      | some s' =>
        rw [hstep] at hb
        exact ih (fun s a ha => h s a (List.mem_cons_of_mem _ ha)) b hb

/-- The invariant rule for properties of the state and of what the run has shown so far. -/
theorem observed_invariant {I : σ → List β → Prop} {G : σ → α → Prop}
    (preserved : ∀ {s bs a s'}, I s bs → G s a → M.step s a = some s' → I s' (bs ++ obs s a))
    {bs : List β} (hs : I s bs) (hG : M.AllSteps G s as) (hrun : M.runFrom s as = some t) :
    I t (bs ++ M.observed obs s as) := by
  induction as generalizing s bs with
  | nil =>
    obtain rfl := Option.some_inj.mp hrun
    simpa only [observed, List.append_nil] using hs
  | cons a as ih =>
    obtain ⟨s', hstep, hrest⟩ := M.runFrom_cons_eq_some.mp hrun
    rw [observed_cons hstep, ← List.append_assoc]
    exact ih (preserved hs hG.head hstep) (hG.tail hstep) hrest

/-- The rule without a condition on the steps. -/
theorem observed_invariant' {I : σ → List β → Prop}
    (preserved : ∀ {s bs a s'}, I s bs → M.step s a = some s' → I s' (bs ++ obs s a))
    {bs : List β} (hs : I s bs) (hrun : M.runFrom s as = some t) :
    I t (bs ++ M.observed obs s as) :=
  observed_invariant (G := fun _ _ => True) (fun h _ hstep => preserved h hstep) hs
    (AllSteps.of_labels fun _ _ => trivial) hrun

/-! ### Leaving out the steps of a component -/

variable (M) in
/-- An unwinding relation for a set of hidden labels: a hidden step on the left is
matched by staying put on the right, a visible step by the same step. -/
structure Unwinding (hidden : α → Bool) (G : σ → α → Prop) (R : σ → σ → Prop) : Prop where
  hidden_step : ∀ {s t a s'}, R s t → G s a → hidden a = true → M.step s a = some s' → R s' t
  visible_step : ∀ {s t a s'}, R s t → G s a → hidden a = false → M.step s a = some s' →
    ∃ t', M.step t a = some t' ∧ R s' t'

/-- **Unwinding rule.** Removing the hidden labels from a run leaves a run, and the
two runs end in related states. -/
theorem Unwinding.run {hidden : α → Bool} {G : σ → α → Prop} {R : σ → σ → Prop}
    (U : M.Unwinding hidden G R) {s t s' : σ} (hR : R s t) (hG : M.AllSteps G s as)
    (hrun : M.runFrom s as = some s') :
    ∃ t', M.runFrom t (as.filter fun a => !hidden a) = some t' ∧ R s' t' := by
  induction as generalizing s t with
  | nil =>
    obtain rfl := Option.some_inj.mp hrun
    exact ⟨t, rfl, hR⟩
  | cons a as ih =>
    obtain ⟨u, hstep, hrest⟩ := M.runFrom_cons_eq_some.mp hrun
    cases ha : hidden a with
    | true =>
      simpa [List.filter_cons, ha] using
        ih (U.hidden_step hR hG.head ha hstep) (hG.tail hstep) hrest
    | false =>
      obtain ⟨v, hv, hR'⟩ := U.visible_step hR hG.head ha hstep
      obtain ⟨t', ht', hR''⟩ := ih hR' (hG.tail hstep) hrest
      refine ⟨t', ?_, hR''⟩
      simpa [List.filter_cons, ha, runFrom_cons_of_step M hv] using ht'

/-! ### One machine written as another -/

section Encoding

variable {τ β : Type*} {A : Machine τ β} {label : β → α} {G : α → Prop}
  {I : τ → Prop} {encode : τ → σ} {t : τ} {bs : List β}

variable (M A) in
/-- The machine `M` does in encoded states what `A` does, as long as the states meet `I` and the
labels `G`: `A` may know more, in its states and in its labels. -/
structure Encoding (label : β → α) (G : α → Prop) (I : τ → Prop) (encode : τ → σ) : Prop where
  init : encode A.init = M.init
  inv_init : I A.init
  inv_step : ∀ {t b t'}, I t → G (label b) → A.step t b = some t' → I t'
  forth : ∀ {t b t'}, I t → G (label b) → A.step t b = some t' →
    M.step (encode t) (label b) = some (encode t')
  back : ∀ {t a s'}, I t → G a → M.step (encode t) a = some s' →
    ∃ b t', label b = a ∧ A.step t b = some t' ∧ encode t' = s'

namespace Encoding

variable (E : M.Encoding A label G I encode)

include E

theorem inv_run (hG : ∀ b ∈ bs, G (label b)) {t' : τ} (ht : I t)
    (hrun : A.runFrom t bs = some t') : I t' :=
  run_invariant (G := fun _ b => G (label b)) (fun h hb hstep => E.inv_step h hb hstep) ht
    (AllSteps.of_labels hG) hrun

theorem runFrom_forth (hG : ∀ b ∈ bs, G (label b)) {t' : τ} (ht : I t)
    (hrun : A.runFrom t bs = some t') :
    M.runFrom (encode t) (bs.map label) = some (encode t') := by
  induction bs generalizing t with
  | nil => exact congrArg (some ∘ encode) (Option.some_inj.mp hrun)
  | cons b bs ih =>
    obtain ⟨u, hstep, hrest⟩ := A.runFrom_cons_eq_some.mp hrun
    have hb := hG b (List.mem_cons_self ..)
    rw [List.map_cons, runFrom_cons_of_step M (E.forth ht hb hstep)]
    exact ih (fun b hb => hG b (List.mem_cons_of_mem _ hb)) (E.inv_step ht hb hstep) hrest

theorem runFrom_back (hG : ∀ a ∈ as, G a) {s' : σ} (ht : I t)
    (hrun : M.runFrom (encode t) as = some s') :
    ∃ bs t', bs.map label = as ∧ A.runFrom t bs = some t' ∧ encode t' = s' := by
  induction as generalizing t with
  | nil => exact ⟨[], t, rfl, rfl, Option.some_inj.mp hrun⟩
  | cons a as ih =>
    obtain ⟨u, hstep, hrest⟩ := M.runFrom_cons_eq_some.mp hrun
    have ha := hG a (List.mem_cons_self ..)
    obtain ⟨b, v, rfl, hv, rfl⟩ := E.back ht ha hstep
    obtain ⟨bs, t', rfl, hbs, ht'⟩ :=
      ih (fun a ha => hG a (List.mem_cons_of_mem _ ha)) (E.inv_step ht ha hv) hrest
    exact ⟨b :: bs, t', rfl, by rw [runFrom_cons_of_step A hv, hbs], ht'⟩

/-- **Encoding rule.** The runs of one machine are those of the other, written differently. -/
theorem run_iff (hG : ∀ a ∈ as, G a) {s' : σ} :
    M.run as = some s' ↔
      ∃ bs t', bs.map label = as ∧ A.run bs = some t' ∧ encode t' = s' := by
  simp only [run, ← E.init]
  refine ⟨fun hrun => E.runFrom_back hG E.inv_init hrun, ?_⟩
  rintro ⟨bs, t', rfl, hbs, rfl⟩
  exact E.runFrom_forth (fun b hb => hG _ (List.mem_map_of_mem hb)) E.inv_init hbs

end Encoding

end Encoding

/-! ### Specifications -/

section Refines

variable {τ β : Type*} {S : τ → β → τ → Prop} {x y z : τ} {b : β} {bs : List β}

/-- A chain of labelled steps that a relation allows. -/
inductive Chain (S : τ → β → τ → Prop) : τ → List β → τ → Prop
  | nil {x : τ} : Chain S x [] x
  | cons {x y z : τ} {b : β} {bs : List β} (h : S x b y) (hrest : Chain S y bs z) :
      Chain S x (b :: bs) z

/-- What every step keeps if its label meets `P`, a chain of such steps keeps. -/
theorem Chain.keeps {I : τ → Prop} {P : β → Prop} (hS : ∀ {x b y}, I x → P b → S x b y → I y)
    (h : Chain S x bs y) (hbs : ∀ b ∈ bs, P b) (hx : I x) : I y := by
  induction h with
  | nil => exact hx
  | cons hstep _ ih =>
    exact ih (fun b hb => hbs b (List.mem_cons_of_mem _ hb))
      (hS hx (hbs _ (List.mem_cons_self ..)) hstep)

variable (M) in
/-- The specification `S` matches every step that meets `G` by what the step shows, and keeps the
states related by `R`. -/
structure Refines (G : σ → α → Prop) (shown : σ → α → β) (S : τ → β → τ → Prop)
    (R : σ → τ → Prop) : Prop where
  step : ∀ {s a s' x}, R s x → G s a → M.step s a = some s' → ∃ y, S x (shown s a) y ∧ R s' y

/-- **Refinement rule.** What a run shows is a chain of the specification, and the two end in
related states. -/
theorem Refines.run {G : σ → α → Prop} {shown : σ → α → β} {R : σ → τ → Prop}
    (F : M.Refines G shown S R) (hR : R s x) (hG : M.AllSteps G s as)
    (hrun : M.runFrom s as = some t) :
    ∃ y, Chain S x (M.observed (fun s a => [shown s a]) s as) y ∧ R t y := by
  induction as generalizing s x with
  | nil =>
    obtain rfl := Option.some_inj.mp hrun
    exact ⟨x, .nil, hR⟩
  | cons a as ih =>
    obtain ⟨s', hstep, hrest⟩ := M.runFrom_cons_eq_some.mp hrun
    obtain ⟨y, hS, hR'⟩ := F.step hR hG.head hstep
    obtain ⟨z, hchain, hz⟩ := ih hR' (hG.tail hstep) hrest
    rw [observed_cons hstep, List.singleton_append]
    exact ⟨z, .cons hS hchain, hz⟩

end Refines

end Machine

end Nanogate.Semantics
