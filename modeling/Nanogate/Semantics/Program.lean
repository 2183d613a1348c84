import Mathlib.Logic.Relation

/-!
# Programs that change a state and may raise

A program of `EStateM` keeps the changes it made before it raised. What it may do to the
state is described by a relation for its single changes: `Does R m Q s` says that `m`, run
from `s`, makes only changes that `R` allows, whether it returns or raises, and that `Q`
holds when it returns. The changes are chained by the rules, so that an invariant of `R` is
an invariant of every program that stays within `R`.

## Main definitions

* `endState` — the state a run ends in, whatever its outcome
* `Does` — the changes a program makes and what holds when it returns
* `Ends` — what holds when a program returns and when it raises
* `Agrees` — two runs with the same outcome

## Main results

* `Does.bind`, `Does.tryCatch` — the rules for sequences and handlers
* `Does.reaches`, `Does.keeps` — from the changes to the state a run ends in
* `Does.of_ends` — a program as a whole is one change
* `kept_of_reaches`, `Agrees.bind` — invariants of changes, and runs side by side
-/

namespace Nanogate.Semantics

open Relation

universe u

variable {ε σ α β : Type u}

/-- The state a run ends in. -/
def endState (m : EStateM ε σ α) (s : σ) : σ :=
  match m.run s with
  | .ok _ t => t
  | .error _ t => t

theorem endState_of_ok {m : EStateM ε σ α} {s t : σ} {a : α} (h : m.run s = .ok a t) :
    endState m s = t := by
  simp only [endState, h]

theorem endState_of_error {m : EStateM ε σ α} {s t : σ} {e : ε} (h : m.run s = .error e t) :
    endState m s = t := by
  simp only [endState, h]

theorem endState_bind_of_ok {m : EStateM ε σ α} {f : α → EStateM ε σ β} {s t : σ} {a : α}
    (h : m.run s = .ok a t) : endState (m >>= f) s = endState (f a) t := by
  simp only [endState, EStateM.run_bind, h]

theorem endState_bind_of_error {m : EStateM ε σ α} {f : α → EStateM ε σ β} {s t : σ} {e : ε}
    (h : m.run s = .error e t) : endState (m >>= f) s = t := by
  simp only [endState, EStateM.run_bind, h]

@[simp] theorem map_run {m : EStateM ε σ α} {g : α → β} {s : σ} :
    (g <$> m).run s =
      match m.run s with
      | .ok a t => .ok (g a) t
      | .error e t => .error e t := by
  simp only [Functor.map, EStateM.map, EStateM.run]
  cases m s <;> rfl

@[simp] theorem tryCatch_run {m : EStateM ε σ α} {h : ε → EStateM ε σ α} {s : σ} :
    (tryCatch m h).run s =
      match m.run s with
      | .ok a t => .ok a t
      | .error e t => (h e).run t := by
  simp only [MonadExcept.tryCatch, tryCatchThe, MonadExceptOf.tryCatch, EStateM.run]
  delta EStateM.tryCatch
  dsimp only
  cases m s <;> rfl

/-- A handler that returns leaves no exception. -/
theorem tryCatch_returns {m : EStateM ε σ α} (a : α) (s : σ) :
    ∃ b t, (tryCatch m fun _ => pure a).run s = .ok b t := by
  rw [tryCatch_run]
  cases m.run s with
  | ok b t => exact ⟨b, t, rfl⟩
  | error e t => exact ⟨a, t, rfl⟩

/-! ### Running a program -/

/-- The program returns, and its result and state pass a test. -/
def returns (m : EStateM ε σ α) (s : σ) (p : α → σ → Bool) : Bool :=
  match m.run s with
  | .ok a t => p a t
  | .error _ _ => false

/-- The program raises, and its state passes a test. -/
def raises (m : EStateM ε σ α) (s : σ) (p : σ → Bool) : Bool :=
  match m.run s with
  | .ok _ _ => false
  | .error _ t => p t

theorem exists_of_returns {m : EStateM ε σ α} {s : σ} {p : α → σ → Bool}
    (h : returns m s p = true) : ∃ a t, m.run s = .ok a t ∧ p a t = true := by
  unfold returns at h
  cases hrun : m.run s with
  | ok a t => exact ⟨a, t, rfl, by simpa [hrun] using h⟩
  | error e t => simp [hrun] at h

theorem exists_of_raises {m : EStateM ε σ α} {s : σ} {p : σ → Bool}
    (h : raises m s p = true) : ∃ e t, m.run s = .error e t ∧ p t = true := by
  unfold raises at h
  cases hrun : m.run s with
  | ok a t => simp [hrun] at h
  | error e t => exact ⟨e, t, rfl, by simpa [hrun] using h⟩

/-- What every change keeps, all of them keep. -/
theorem kept_of_reaches {R : σ → σ → Prop} {I : σ → Prop} {s t : σ}
    (hI : ∀ s t, R s t → I s → I t) (hR : ReflTransGen R s t) (hs : I s) : I t := by
  induction hR with
  | refl => exact hs
  | tail _ hstep ih => exact hI _ _ hstep ih

/-- Run from `s`, the program makes changes that `R` allows, and `Q` holds when it returns. -/
def Does (R : σ → σ → Prop) (m : EStateM ε σ α) (Q : α → σ → Prop) (s : σ) : Prop :=
  match m.run s with
  | .ok a t => ReflTransGen R s t ∧ Q a t
  | .error _ t => ReflTransGen R s t

namespace Does

variable {R R' : σ → σ → Prop} {m : EStateM ε σ α} {f : α → EStateM ε σ β}
  {P Q : α → σ → Prop} {Q' : β → σ → Prop} {s t : σ} {a : α}

theorem of_ok (h : m.run s = .ok a t) (hR : ReflTransGen R s t) (hQ : Q a t) : Does R m Q s := by
  simp only [Does, h]
  exact ⟨hR, hQ⟩

/-- What a run that returned says. -/
theorem ok (hm : Does R m Q s) (h : m.run s = .ok a t) : ReflTransGen R s t ∧ Q a t := by
  simpa only [Does, h] using hm

theorem pure (h : Q a s) : Does R (pure a : EStateM ε σ α) Q s :=
  of_ok rfl .refl h

theorem throw (e : ε) : Does R (throw e : EStateM ε σ α) Q s :=
  ReflTransGen.refl (r := R) (a := s)

/-- The rule of consequence; the changes may be used. -/
theorem mono (hm : Does R m P s) (h : ∀ a t, ReflTransGen R s t → P a t → Q a t) :
    Does R m Q s := by
  cases hrun : m.run s with
  | ok a t =>
    obtain ⟨hR, hP⟩ := hm.ok hrun
    exact of_ok hrun hR (h a t hR hP)
  | error e t => simpa only [Does, hrun] using hm

/-- The changes of a program may be described by another relation that also reaches where they
lead. -/
theorem weaken (hm : Does R m Q s) (h : ∀ t, ReflTransGen R s t → ReflTransGen R' s t) :
    Does R' m Q s := by
  cases hrun : m.run s with
  | ok a t =>
    obtain ⟨hR, hQ⟩ := hm.ok hrun
    exact of_ok hrun (h t hR) hQ
  | error e t =>
    simp only [Does, hrun] at hm ⊢
    exact h t hm

/-- The changes made are known when a program returns. -/
theorem changes (hm : Does R m Q s) : Does R m (fun a t => ReflTransGen R s t ∧ Q a t) s :=
  hm.mono fun _ _ hR hQ => ⟨hR, hQ⟩

theorem bind (hm : Does R m P s) (hf : ∀ a t, P a t → Does R (f a) Q' t) :
    Does R (m >>= f) Q' s := by
  cases hrun : m.run s with
  | ok a t =>
    obtain ⟨hR, hP⟩ := hm.ok hrun
    have hft := hf a t hP
    have hbind : (m >>= f).run s = (f a).run t := by simp only [EStateM.run_bind, hrun]
    cases hrun' : (f a).run t with
    | ok b u =>
      obtain ⟨hR', hQ⟩ := hft.ok hrun'
      exact of_ok (hbind.trans hrun') (hR.trans hR') hQ
    | error e u =>
      simp only [Does, hrun'] at hft
      simp only [Does, hbind, hrun']
      exact hR.trans hft
  | error e t =>
    have hbind : (m >>= f).run s = .error e t := by simp only [EStateM.run_bind, hrun]
    simp only [Does, hrun] at hm
    simpa only [Does, hbind] using hm

theorem get_bind {f : σ → EStateM ε σ β} (h : Does R (f s) Q' s) :
    Does R (get >>= f) Q' s := by
  have hrun : (get >>= f).run s = (f s).run s := rfl
  simpa only [Does, hrun] using h

theorem set_bind {f : PUnit → EStateM ε σ β} (hR : ReflTransGen R s t)
    (h : Does R (f ⟨⟩) Q' t) : Does R (set t >>= f) Q' s :=
  bind (P := fun _ u => u = t) (of_ok rfl hR rfl) fun _ _ hu => hu ▸ h

theorem modify_bind {f : PUnit → EStateM ε σ β} {g : σ → σ} (hR : ReflTransGen R s (g s))
    (h : Does R (f ⟨⟩) Q' (g s)) : Does R (modify g >>= f) Q' s :=
  bind (P := fun _ u => u = g s) (of_ok rfl hR rfl) fun _ _ hu => hu ▸ h

theorem set {Q : PUnit → σ → Prop} (hR : ReflTransGen R s t) (hQ : Q ⟨⟩ t) :
    Does R (set t : EStateM ε σ PUnit) Q s :=
  of_ok rfl hR hQ

theorem modify {Q : PUnit → σ → Prop} {g : σ → σ} (hR : ReflTransGen R s (g s))
    (hQ : Q ⟨⟩ (g s)) : Does R (modify g : EStateM ε σ PUnit) Q s :=
  of_ok rfl hR hQ

/-- A handler runs after the changes made before the exception. -/
theorem tryCatch {h : ε → EStateM ε σ α} (hm : Does R m Q s)
    (hh : ∀ e t, ReflTransGen R s t → Does R (h e) Q t) : Does R (tryCatch m h) Q s := by
  cases hrun : m.run s with
  | ok a t =>
    obtain ⟨hR, hQ⟩ := hm.ok hrun
    exact of_ok (by rw [tryCatch_run, hrun]) hR hQ
  | error e t =>
    have hR : ReflTransGen R s t := by simpa only [Does, hrun] using hm
    have hht := hh e t hR
    cases hrun' : (h e).run t with
    | ok b u =>
      obtain ⟨hR', hQ⟩ := hht.ok hrun'
      exact of_ok (by rw [tryCatch_run, hrun]; exact hrun') (hR.trans hR') hQ
    | error e' u =>
      simp only [Does, hrun'] at hht
      simp only [Does, tryCatch_run, hrun, hrun']
      exact hR.trans hht

theorem ite {c : Prop} [Decidable c] {m' : EStateM ε σ α} (h : c → Does R m Q s)
    (h' : ¬c → Does R m' Q s) : Does R (if c then m else m') Q s := by
  by_cases hc : c
  · rw [if_pos hc]
    exact h hc
  · rw [if_neg hc]
    exact h' hc

/-! ### Where a run ends -/

/-- The state a run ends in is reached by changes that are allowed. -/
theorem reaches (hm : Does R m Q s) : ReflTransGen R s (endState m s) := by
  cases hrun : m.run s with
  | ok a t =>
    rw [endState_of_ok hrun]
    exact (hm.ok hrun).1
  | error e t =>
    rw [endState_of_error hrun]
    simpa only [Does, hrun] using hm

/-- What every allowed change keeps, a program keeps. -/
theorem keeps {I : σ → Prop} (hm : Does R m Q s) (hI : ∀ s t, R s t → I s → I t) (hs : I s) :
    I (endState m s) :=
  kept_of_reaches hI hm.reaches hs

end Does

/-! ### How a run ends -/

/-- Run from `s`, the program returns into `Q` or raises into `E`. -/
def Ends (m : EStateM ε σ α) (Q : α → σ → Prop) (E : σ → Prop) (s : σ) : Prop :=
  match m.run s with
  | .ok a t => Q a t
  | .error _ t => E t

namespace Ends

variable {R : σ → σ → Prop} {m : EStateM ε σ α} {f : α → EStateM ε σ β} {P Q : α → σ → Prop}
  {Q' : β → σ → Prop} {E E' : σ → Prop} {s t : σ} {a : α}

theorem of_ok (h : m.run s = .ok a t) (hQ : Q a t) : Ends m Q E s := by
  simpa only [Ends, h] using hQ

theorem of_error {e : ε} (h : m.run s = .error e t) (hE : E t) : Ends m Q E s := by
  simpa only [Ends, h] using hE

theorem ok (hm : Ends m Q E s) (h : m.run s = .ok a t) : Q a t := by
  simpa only [Ends, h] using hm

theorem error {e : ε} (hm : Ends m Q E s) (h : m.run s = .error e t) : E t := by
  simpa only [Ends, h] using hm

/-- Programs that run alike end alike. -/
theorem congr {m' : EStateM ε σ α} (hm : Ends m Q E s) (h : m'.run s = m.run s) :
    Ends m' Q E s := by
  simpa only [Ends, h] using hm

theorem pure (h : Q a s) : Ends (pure a : EStateM ε σ α) Q E s := of_ok rfl h

theorem throw (e : ε) (h : E s) : Ends (throw e : EStateM ε σ α) Q E s := of_error rfl h

/-- The rule of consequence. -/
theorem mono (hm : Ends m P E s) (hQ : ∀ a t, P a t → Q a t) (hE : ∀ t, E t → E' t) :
    Ends m Q E' s := by
  cases hrun : m.run s with
  | ok a t => exact of_ok hrun (hQ a t (hm.ok hrun))
  | error e t => exact of_error hrun (hE t (hm.error hrun))

/-- A program whose run is known is followed by what comes next. -/
theorem bind_of_ok (h : m.run s = .ok a t) (hf : Ends (f a) Q' E t) : Ends (m >>= f) Q' E s := by
  have hbind : (m >>= f).run s = (f a).run t := by simp only [EStateM.run_bind, h]
  simpa only [Ends, hbind] using hf

theorem bind (hm : Ends m P E s) (hf : ∀ a t, P a t → Ends (f a) Q' E t) :
    Ends (m >>= f) Q' E s := by
  cases hrun : m.run s with
  | ok a t => exact bind_of_ok hrun (hf a t (hm.ok hrun))
  | error e t =>
    have hbind : (m >>= f).run s = .error e t := by simp only [EStateM.run_bind, hrun]
    exact of_error hbind (hm.error hrun)

theorem get_bind {f : σ → EStateM ε σ β} (h : Ends (f s) Q' E s) : Ends (get >>= f) Q' E s := h

theorem set_bind {f : PUnit → EStateM ε σ β} (h : Ends (f ⟨⟩) Q' E t) :
    Ends (set t >>= f) Q' E s := h

theorem modify_bind {f : PUnit → EStateM ε σ β} {g : σ → σ} (h : Ends (f ⟨⟩) Q' E (g s)) :
    Ends (modify g >>= f) Q' E s := h

theorem ite {c : Prop} [Decidable c] {m' : EStateM ε σ α} (h : c → Ends m Q E s)
    (h' : ¬c → Ends m' Q E s) : Ends (if c then m else m') Q E s := by
  by_cases hc : c
  · rw [if_pos hc]
    exact h hc
  · rw [if_neg hc]
    exact h' hc

/-- A handler runs in the state the exception was raised in. -/
theorem tryCatch {h : ε → EStateM ε σ α} (hm : Ends m Q E' s)
    (hh : ∀ e t, E' t → Ends (h e) Q E t) : Ends (tryCatch m h) Q E s := by
  cases hrun : m.run s with
  | ok a t => exact of_ok (by rw [tryCatch_run, hrun]) (hm.ok hrun)
  | error e t =>
    have hht := hh e t (hm.error hrun)
    have hcatch : (MonadExcept.tryCatch m h).run s = (h e).run t := by rw [tryCatch_run, hrun]
    simpa only [Ends, hcatch] using hht

theorem and {P' : α → σ → Prop} (hm : Ends m P E s) (hm' : Ends m P' E' s) :
    Ends m (fun a t => P a t ∧ P' a t) (fun t => E t ∧ E' t) s := by
  cases hrun : m.run s with
  | ok a t => exact of_ok hrun ⟨hm.ok hrun, hm'.ok hrun⟩
  | error e t => exact of_error hrun ⟨hm.error hrun, hm'.error hrun⟩

/-- A program ends as it runs. -/
theorem self (m : EStateM ε σ α) (s : σ) :
    Ends m (fun a t => m.run s = .ok a t) (fun t => ∃ e, m.run s = .error e t) s := by
  cases hrun : m.run s with
  | ok a t => exact of_ok hrun rfl
  | error e t => exact of_error hrun ⟨e, rfl⟩

/-- What a program changes, wherever it ends. -/
theorem of_does (hm : Does R m Q s) :
    Ends m (fun a t => ReflTransGen R s t ∧ Q a t) (ReflTransGen R s) s := hm

/-- The value that is returned may be dropped. -/
theorem drop {I : σ → Prop} (hm : Ends m (fun _ => I) E s) :
    Ends (do let _ ← m) (fun _ => I) E s :=
  hm.bind fun _ _ h => pure h

/-- What holds of every end holds of the state a run ends in. -/
theorem endState {I : σ → Prop} (hm : Ends m (fun _ => I) I s) : I (endState m s) := by
  cases hrun : m.run s with
  | ok a t =>
    rw [endState_of_ok hrun]
    exact hm.ok hrun
  | error e t =>
    rw [endState_of_error hrun]
    exact hm.error hrun

end Ends

/-- A program as a whole is one change. -/
theorem Does.of_ends {R : σ → σ → Prop} {m : EStateM ε σ α} {Q : α → σ → Prop} {s : σ}
    (hm : Ends m (fun a t => R s t ∧ Q a t) (R s) s) : Does R m Q s :=
  hm.mono (fun _ _ h => ⟨.single h.1, h.2⟩) fun _ h => .single h

/-! ### Two runs -/

/-- Two runs have the same outcome, and if they return, they end in related states. -/
def Agrees (Q : σ → σ → Prop) (m m' : EStateM ε σ α) (s s' : σ) : Prop :=
  match m.run s, m'.run s' with
  | .ok a t, .ok a' t' => a = a' ∧ Q t t'
  | .error e _, .error e' _ => e = e'
  | _, _ => False

namespace Agrees

variable {P Q : σ → σ → Prop} {m m' : EStateM ε σ α} {f f' : α → EStateM ε σ β} {s s' t t' : σ}
  {a : α}

theorem of_ok (h : m.run s = .ok a t) (h' : m'.run s' = .ok a t') (hQ : Q t t') :
    Agrees Q m m' s s' := by
  simp only [Agrees, h, h']
  exact ⟨trivial, hQ⟩

theorem pure (hQ : Q s s') : Agrees Q (pure a : EStateM ε σ α) (pure a) s s' :=
  of_ok rfl rfl hQ

theorem throw (e : ε) : Agrees Q (throw e : EStateM ε σ α) (throw e) s s' := rfl

theorem bind (hm : Agrees P m m' s s') (hf : ∀ a t t', P t t' → Agrees Q (f a) (f' a) t t') :
    Agrees Q (m >>= f) (m' >>= f') s s' := by
  cases hrun : m.run s with
  | ok a t =>
    cases hrun' : m'.run s' with
    | ok a' t' =>
      simp only [Agrees, hrun, hrun'] at hm
      obtain ⟨rfl, hP⟩ := hm
      simpa only [Agrees, EStateM.run_bind, hrun, hrun'] using hf a t t' hP
    | error e' t' => simp [Agrees, hrun, hrun'] at hm
  | error e t =>
    cases hrun' : m'.run s' with
    | ok a' t' => simp [Agrees, hrun, hrun'] at hm
    | error e' t' =>
      simp only [Agrees, hrun, hrun'] at hm
      simpa only [Agrees, EStateM.run_bind, hrun, hrun'] using hm

/-- Two runs that return the same continue from where they end. -/
theorem bind_of_ok (h : m.run s = .ok a t) (h' : m'.run s' = .ok a t')
    (hf : Agrees Q (f a) (f' a) t t') : Agrees Q (m >>= f) (m' >>= f') s s' := by
  simpa only [Agrees, EStateM.run_bind, h, h'] using hf

theorem get_bind {f f' : σ → EStateM ε σ β} (h : Agrees Q (f s) (f' s') s s') :
    Agrees Q (get >>= f) (get >>= f') s s' := h

theorem set_bind {f f' : PUnit → EStateM ε σ β} (h : Agrees Q (f ⟨⟩) (f' ⟨⟩) t t') :
    Agrees Q (set t >>= f) (set t' >>= f') s s' := h

end Agrees

end Nanogate.Semantics
