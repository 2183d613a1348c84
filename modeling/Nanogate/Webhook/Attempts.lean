import Mathlib.Algebra.Group.Nat.Defs
import Nanogate.Webhook.Dispatcher

/-!
# One event in the hands of a worker

`_process_event` alone, for given answers of the callback URL, of Redis and of the stop flag.
The POST, the test of its status and the acknowledgement of a success stand in one `try`, so an
`XACK` that raises after a 2xx answer counts as a failed attempt and the event is posted again.
Everything else one expects of the retry loop holds for all answers.

## Main definitions

* `Answers`, `Effect` — what the surroundings answer, and what the function does
* `processEvent` — `_process_event`
* `Disciplined` — the discipline of retrying and acknowledging
* `FirstSuccess` — the attempt that is answered 2xx first

## Main results

* `disciplined_iff` — the discipline is kept exactly when the first success is acknowledged, or
  no attempt is left to repeat it
* `runFrom_loopActs` — a worker that nobody interrupts does what the function does
-/

namespace Nanogate.Webhook

open Nanogate.Python Nanogate.Redis Nanogate.Bus Nanogate.Semantics

/-! ### The function -/

/-- The answers to the POSTs (`none` when the client raises) and to the `XACK`s (`false` when
Redis raises), and what each look at the stop flag finds, all counted from zero. -/
structure Answers where
  post : ℕ → Option ℕ
  ack : ℕ → Bool
  stopped : ℕ → Bool

/-- Something the function does to its surroundings. -/
inductive Effect where
  | post (url body : Json) (status : Option ℕ)
  | ack (ok : Bool)
  | sleep (seconds : ℕ)
  deriving DecidableEq, Repr

namespace Effect

/-- The effect is a POST. -/
def isPost : Effect → Bool
  | post .. => true
  | ack _ | sleep _ => false

/-- The effect is a POST that is answered 2xx. -/
def delivers : Effect → Bool
  | post _ _ status => success status
  | ack _ | sleep _ => false

end Effect

/-- The backoff after attempt `n`, with `left` attempts to come. -/
def sleepAfter (n left : ℕ) : List Effect := if left = 0 then [] else [.sleep (2 ^ n)]

/-- The retry loop and what follows it, before attempt `n` with `left` attempts to come, after
`a` `XACK`s. -/
def loop (env : Answers) (url body : Json) : (left n a : ℕ) → List Effect
  | 0, _, a => [.ack (env.ack a)]
  | left + 1, n, a =>
    if env.stopped n then []
    else
      .post url body (env.post n) ::
        if success (env.post n) then
          -- an `XACK` that raises is caught like a POST that raises
          .ack (env.ack a) ::
            if env.ack a then [] else sleepAfter n left ++ loop env url body left (n + 1) (a + 1)
        else sleepAfter n left ++ loop env url body left (n + 1) a

/-- `_process_event`; an event whose `request_payload` has no `get` raises at once. -/
def processEvent (maxRetries : ℕ) (env : Answers) (event : Json) : List Effect :=
  match callbackUrl event with
  | .error _ => []
  | .ok none => [.ack (env.ack 0)]
  | .ok (some url) => loop env url (webhookBody event) maxRetries 0 0

/-! ### The discipline -/

/-- At most `max_retries` POSTs, none after one that was answered 2xx; an `XACK` only after a 2xx
answer or after `max_retries` POSTs; and one that succeeds if nothing else goes wrong. -/
structure Disciplined (maxRetries : ℕ) (env : Answers) (effects : List Effect) : Prop where
  posts : effects.countP Effect.isPost ≤ maxRetries
  once : effects.Pairwise fun e e' => e.delivers = true → e'.isPost = false
  after : ∀ before ok, before ++ [.ack ok] <+: effects →
    (∃ e ∈ before, e.delivers = true) ∨ before.countP Effect.isPost = maxRetries
  acked : (∀ n, env.stopped n = false) → (∀ n, env.ack n = true) →
    effects.count (.ack true) = 1

/-- From attempt `n` on, attempt `m` is made and is the first that is answered 2xx. -/
structure FirstSuccess (env : Answers) (n m : ℕ) : Prop where
  le : n ≤ m
  running : ∀ i, n ≤ i → i ≤ m → env.stopped i = false
  failed : ∀ i, n ≤ i → i < m → success (env.post i) = false
  succeeded : success (env.post m) = true

/-- If the first success is not at the last of the attempts before `last`, its `XACK`, the one
after `a` others, does not raise, or the stop flag is set by the next attempt. -/
def Acknowledged (env : Answers) (n last a : ℕ) : Prop :=
  ∀ m, m + 1 < last → FirstSuccess env n m → env.ack a = true ∨ env.stopped (m + 1) = true

/-! ### The loop -/

section Loop

variable {env : Answers} {url body : Json} {left n a : ℕ}

@[simp] theorem countP_isPost_sleepAfter : (sleepAfter n left).countP Effect.isPost = 0 := by
  unfold sleepAfter
  split_ifs <;> rfl

@[simp] theorem count_ack_sleepAfter (ok : Bool) : (sleepAfter n left).count (.ack ok) = 0 := by
  unfold sleepAfter
  split_ifs <;> rfl

theorem notMem_sleepAfter {e : Effect} (he : e ∈ sleepAfter n left) :
    e.isPost = false ∧ e.delivers = false ∧ ∀ ok, e ≠ .ack ok := by
  unfold sleepAfter at he
  split_ifs at he
  · simp at he
  · obtain rfl := List.mem_singleton.mp he
    exact ⟨rfl, rfl, by simp⟩

/-- Everything one round can do. -/
theorem loop_cases (env : Answers) (url body : Json) (left n a : ℕ) :
    (env.stopped n = true ∧ loop env url body (left + 1) n a = []) ∨
    (env.stopped n = false ∧ success (env.post n) = true ∧ env.ack a = true ∧
      loop env url body (left + 1) n a = [.post url body (env.post n), .ack true]) ∨
    (env.stopped n = false ∧ success (env.post n) = true ∧ env.ack a = false ∧
      loop env url body (left + 1) n a = .post url body (env.post n) :: .ack false ::
        (sleepAfter n left ++ loop env url body left (n + 1) (a + 1))) ∨
    (env.stopped n = false ∧ success (env.post n) = false ∧
      loop env url body (left + 1) n a = .post url body (env.post n) ::
        (sleepAfter n left ++ loop env url body left (n + 1) a)) := by
  cases hstop : env.stopped n with
  | true => exact .inl ⟨rfl, by simp only [loop, hstop, if_true]⟩
  | false =>
    refine .inr ?_
    cases hsuccess : success (env.post n) with
    | false => exact .inr (.inr ⟨rfl, rfl, by simp [loop, hstop, hsuccess]⟩)
    | true =>
      cases hack : env.ack a with
      | true => exact .inl ⟨rfl, rfl, rfl, by simp [loop, hstop, hsuccess, hack]⟩
      | false => exact .inr (.inl ⟨rfl, rfl, rfl, by simp [loop, hstop, hsuccess, hack]⟩)

/-- Each round makes at most one POST. -/
theorem countP_isPost_loop : (loop env url body left n a).countP Effect.isPost ≤ left := by
  induction left generalizing n a with
  | zero => simp [loop, Effect.isPost]
  | succ left ih =>
    rcases loop_cases env url body left n a with
      ⟨-, h⟩ | ⟨-, -, -, h⟩ | ⟨-, -, -, h⟩ | ⟨-, -, h⟩
    · simp [h]
    · simp [h, List.countP_cons, Effect.isPost]
    · have hrest := @ih (n + 1) (a + 1)
      simpa [h, List.countP_cons, List.countP_append, Effect.isPost] using hrest
    · have hrest := @ih (n + 1) a
      simpa [h, List.countP_cons, List.countP_append, Effect.isPost] using hrest

/-- A loop makes no POST exactly when there is no attempt left or the stop flag is set. -/
theorem forall_isPost_loop :
    (∀ e ∈ loop env url body left n a, e.isPost = false) ↔ left = 0 ∨ env.stopped n = true := by
  cases left with
  | zero => simp [loop, Effect.isPost]
  | succ left =>
    rcases loop_cases env url body left n a with
      ⟨hstop, h⟩ | ⟨hstop, -, -, h⟩ | ⟨hstop, -, -, h⟩ | ⟨hstop, -, h⟩ <;>
      simp [h, hstop, Effect.isPost]

/-- Effects without a POST leave nothing to be repeated. -/
theorem pairwise_of_no_post {effects : List Effect} (h : ∀ e ∈ effects, e.isPost = false) :
    effects.Pairwise fun e e' => e.delivers = true → e'.isPost = false :=
  List.pairwise_of_forall_mem_list fun _ _ e' he' _ => h e' he'

/-- A POST that was not answered 2xx leaves the next round to judge. -/
theorem pairwise_failed_cons {status : Option ℕ} (hstatus : success status = false)
    {rest : List Effect} :
    (Effect.post url body status :: (sleepAfter n left ++ rest)).Pairwise
        (fun e e' => e.delivers = true → e'.isPost = false) ↔
      rest.Pairwise fun e e' => e.delivers = true → e'.isPost = false := by
  have hhead : (Effect.post url body status).delivers = false := hstatus
  rw [List.pairwise_cons, List.pairwise_append]
  constructor
  · exact fun h => h.2.2.1
  · intro h
    refine ⟨fun e' _ hd => absurd hd (by simp [hhead]), ?_, h, fun e he e' _ hd => ?_⟩
    · exact pairwise_of_no_post fun e he => (notMem_sleepAfter he).1
    · exact absurd hd (by simp [(notMem_sleepAfter he).2.1])

/-- A POST that was answered 2xx must be the last. -/
theorem pairwise_delivered_cons {status : Option ℕ} (hstatus : success status = true) {ok : Bool}
    {rest : List Effect} :
    (Effect.post url body status :: .ack ok :: (sleepAfter n left ++ rest)).Pairwise
        (fun e e' => e.delivers = true → e'.isPost = false) ↔ ∀ e ∈ rest, e.isPost = false := by
  have hhead : (Effect.post url body status).delivers = true := hstatus
  rw [List.pairwise_cons]
  constructor
  · intro h e he
    exact h.1 e (List.mem_cons_of_mem _ (List.mem_append_right _ he)) hhead
  · intro h
    have hrest : ∀ e ∈ Effect.ack ok :: (sleepAfter n left ++ rest), e.isPost = false := by
      intro e he
      rcases List.mem_cons.mp he with rfl | he
      · rfl
      · rcases List.mem_append.mp he with he | he
        · exact (notMem_sleepAfter he).1
        · exact h e he
    exact ⟨fun e he _ => hrest e he, pairwise_of_no_post hrest⟩

/-- An attempt that fails puts off the first success. -/
theorem acknowledged_of_failed (hstop : env.stopped n = false)
    (hfailed : success (env.post n) = false) :
    Acknowledged env n (n + (left + 1)) a ↔ Acknowledged env (n + 1) (n + 1 + left) a := by
  have hfirst : ∀ m, FirstSuccess env n m ↔ FirstSuccess env (n + 1) m := by
    intro m
    constructor
    · intro h
      have hne : n ≠ m := by
        rintro rfl
        exact absurd h.succeeded (by simp [hfailed])
      exact ⟨by have := h.le; omega, fun i hi => h.running i (by omega),
        fun i hi => h.failed i (by omega), h.succeeded⟩
    · intro h
      refine ⟨by have := h.le; omega, fun i hi him => ?_, fun i hi him => ?_, h.succeeded⟩
      · rcases Nat.eq_or_lt_of_le hi with rfl | hlt
        · exact hstop
        · exact h.running i hlt him
      · rcases Nat.eq_or_lt_of_le hi with rfl | hlt
        · exact hfailed
        · exact h.failed i hlt him
  have hlast : n + (left + 1) = n + 1 + left := by omega
  simp only [Acknowledged, hfirst, hlast]

/-- **The loop posts once more** exactly when the first success is not acknowledged and there is
an attempt left. -/
theorem pairwise_loop_iff :
    (loop env url body left n a).Pairwise (fun e e' => e.delivers = true → e'.isPost = false) ↔
      Acknowledged env n (n + left) a := by
  induction left generalizing n with
  | zero =>
    refine iff_of_true (by simp [loop]) fun m hm hfirst => ?_
    have := hfirst.le
    omega
  | succ left ih =>
    -- the rounds before the first success are passed on to the next one
    rcases loop_cases env url body left n a with
      ⟨hstop, h⟩ | ⟨hstop, hsuccess, hack, h⟩ | ⟨hstop, hsuccess, hack, h⟩ | ⟨hstop, hfailed, h⟩
    · refine iff_of_true (by simp [h]) fun m _ hfirst => ?_
      exact absurd (hfirst.running n le_rfl hfirst.le) (by simp [hstop])
    · refine iff_of_true (by simp [h, Effect.isPost]) fun m _ _ => .inl hack
    · rw [h, pairwise_delivered_cons hsuccess, forall_isPost_loop]
      have hfirst : FirstSuccess env n n :=
        ⟨le_rfl, fun i hi hi' => by rwa [Nat.le_antisymm hi' hi],
          fun i hi hi' => absurd hi' (by omega), hsuccess⟩
      constructor
      · intro hlast m hm hm'
        obtain rfl : m = n := by
          by_contra hne
          have := hm'.le
          exact absurd (hm'.failed n le_rfl (by omega)) (by simp [hsuccess])
        rcases hlast with rfl | hstopped
        · omega
        · exact .inr hstopped
      · intro hack'
        by_cases hleft : left = 0
        · exact .inl hleft
        · exact .inr ((hack' n (by omega) hfirst).resolve_left (by simp [hack]))
    · rw [h, pairwise_failed_cons hfailed, ih, acknowledged_of_failed hstop hfailed]

/-- What stands before an `XACK` begins with what comes first. -/
theorem exists_of_prefix_cons {before rest : List Effect} {e : Effect} {ok : Bool}
    (he : e ≠ .ack ok) (h : before ++ [.ack ok] <+: e :: rest) :
    ∃ before', before = e :: before' ∧ before' ++ [.ack ok] <+: rest := by
  cases before with
  | nil =>
    have := (List.cons_prefix_cons.mp h).1
    exact absurd this.symm he
  | cons e' before =>
    obtain ⟨rfl, hrest⟩ := List.cons_prefix_cons.mp h
    exact ⟨before, rfl, hrest⟩

theorem exists_of_prefix_sleepAfter {before rest : List Effect} {ok : Bool}
    (h : before ++ [.ack ok] <+: sleepAfter n left ++ rest) :
    ∃ before', before = sleepAfter n left ++ before' ∧ before' ++ [.ack ok] <+: rest := by
  unfold sleepAfter at h ⊢
  split_ifs at h ⊢
  · exact ⟨before, rfl, h⟩
  · exact exists_of_prefix_cons (by simp) h

/-- An `XACK` is tried after a 2xx answer or after all attempts that were left. -/
theorem acked_after_loop {before : List Effect} {ok : Bool}
    (h : before ++ [.ack ok] <+: loop env url body left n a) :
    (∃ e ∈ before, e.delivers = true) ∨ before.countP Effect.isPost = left := by
  induction left generalizing n a before with
  | zero =>
    cases before with
    | nil => exact .inr rfl
    | cons e before =>
      have hlength := h.length_le
      simp [loop] at hlength
  | succ left ih =>
    -- a POST comes first, and if it is answered 2xx, that is all there is to show
    have hdelivered : ∀ {rest : List Effect}, success (env.post n) = true →
        before ++ [.ack ok] <+: .post url body (env.post n) :: rest →
          ∃ e ∈ before, e.delivers = true := by
      intro rest hsuccess hprefix
      obtain ⟨before', rfl, -⟩ := exists_of_prefix_cons (by simp) hprefix
      exact ⟨_, List.mem_cons_self .., hsuccess⟩
    rcases loop_cases env url body left n a with
      ⟨-, hloop⟩ | ⟨-, hsuccess, -, hloop⟩ | ⟨-, hsuccess, -, hloop⟩ | ⟨-, -, hloop⟩
    · rw [hloop, List.prefix_nil] at h
      simp at h
    · exact .inl (hdelivered hsuccess (hloop ▸ h))
    · exact .inl (hdelivered hsuccess (hloop ▸ h))
    · rw [hloop] at h
      obtain ⟨before', rfl, hprefix⟩ := exists_of_prefix_cons (by simp) h
      obtain ⟨before'', rfl, hrest⟩ := exists_of_prefix_sleepAfter hprefix
      rcases ih hrest with ⟨e, he, hd⟩ | hcount
      · exact .inl ⟨e, List.mem_cons_of_mem _ (List.mem_append_right _ he), hd⟩
      · exact .inr (by simp [List.countP_cons, Effect.isPost, hcount])

/-- With nothing going wrong but the POSTs, the event is acknowledged once. -/
theorem count_ack_loop (hstop : ∀ n, env.stopped n = false) (hack : ∀ n, env.ack n = true) :
    (loop env url body left n a).count (.ack true) = 1 := by
  induction left generalizing n a with
  | zero => simp [loop, hack]
  | succ left ih =>
    rcases loop_cases env url body left n a with
      ⟨h, -⟩ | ⟨-, -, -, h⟩ | ⟨-, -, h, -⟩ | ⟨-, -, h⟩
    · exact absurd h (by simp [hstop])
    · simp [h]
    · exact absurd h (by simp [hack])
    · have hrest := @ih (n + 1) a
      simpa [h, List.count_cons] using hrest

end Loop

/-! ### The worker -/

/-- The POST of an effect, for the entry `id`. -/
def Effect.post? (id : ℕ) : Effect → Option Post
  | .post url body status => some ⟨id, url, body, status⟩
  | .ack _ | .sleep _ => none

/-- The worker wakes up after the backoff, if there is one. -/
def wakeAfter (k left : ℕ) : List Action := if left = 0 then [] else [.act k .wake]

@[simp] theorem filterMap_post?_sleepAfter (id n left : ℕ) :
    (sleepAfter n left).filterMap (Effect.post? id) = [] := by
  unfold sleepAfter
  split_ifs <;> rfl

@[simp] theorem ack_notMem_sleepAfter (n left : ℕ) (ok : Bool) :
    Effect.ack ok ∉ sleepAfter n left :=
  fun h => (notMem_sleepAfter h).2.2 ok rfl

/-- The steps of worker `k` for the loop; the stop flag is set when the loop first sees it. -/
def loopActs (k : ℕ) (env : Answers) : (left n a : ℕ) → List Action
  | 0, _, a => [.act k .attempt, .act k (.ack (env.ack a))]
  | left + 1, n, a =>
    if env.stopped n then [.stop k, .act k .attempt]
    else
      .act k .attempt :: .act k (.answer (env.post n)) ::
        if success (env.post n) then
          .act k (.ack (env.ack a)) ::
            if env.ack a then [] else wakeAfter k left ++ loopActs k env left (n + 1) (a + 1)
        else wakeAfter k left ++ loopActs k env left (n + 1) a

section Worker

variable {maxRetries k n left a : ℕ} {env : Answers} {w w' : Webhooks} {d : Dispatcher} {e : Entry}
  {url : Json}

/-- What the worker has done for its entry: the POSTs of the effects and the acknowledgement, if
there is one among them; and it reads the next entry. -/
structure Did (k : ℕ) (e : Entry) (effects : List Effect) (w w' : Webhooks) : Prop where
  posts : w'.posts = w.posts ++ effects.filterMap (Effect.post? e.1)
  group : w'.group = if .ack true ∈ effects then w.group.map fun g => g.ack e.1 else w.group
  reading : ∃ d, w'.dispatchers k = some d ∧ d.pc = .reading

theorem runFrom_act {act : Act} {as : List Action} (hat : w.dispatchers k = some d)
    (hstep : w.advance maxRetries k d d.pc act = some w') :
    (machine maxRetries).runFrom w (.act k act :: as) = (machine maxRetries).runFrom w' as := by
  refine Machine.runFrom_cons_of_step _ ?_
  simp only [machine, Webhooks.step, hat, hstep]

theorem dispatchers_goto (w : Webhooks) (k : ℕ) (d : Dispatcher) (pc : Pc) :
    (w.goto k d pc).dispatchers k = some { d with pc } := by
  simp [Webhooks.goto, Webhooks.setDispatcher]

/-- After a failed attempt the worker is before the next one, having slept if there is one left. -/
theorem runFrom_wakeAfter {c : String} (as : List Action) (hleft : n + (left + 1) = maxRetries)
    (hat : w.dispatchers k = some ⟨c, false, afterFailure maxRetries e url n⟩) :
    ∃ w', (machine maxRetries).runFrom w (wakeAfter k left ++ as) =
        (machine maxRetries).runFrom w' as ∧ w'.posts = w.posts ∧ w'.group = w.group ∧
      w'.dispatchers k = some ⟨c, false, .attempt e url (n + 1)⟩ := by
  unfold wakeAfter
  by_cases hlast : left = 0
  · have hpc : afterFailure maxRetries e url n = .attempt e url (n + 1) :=
      if_neg (by omega)
    rw [if_pos hlast]
    exact ⟨w, rfl, rfl, rfl, hpc ▸ hat⟩
  · have hpc : afterFailure maxRetries e url n = .backoff e url n := if_pos (by omega)
    rw [hpc] at hat
    rw [if_neg hlast]
    exact ⟨w.goto k ⟨c, false, .backoff e url n⟩ (.attempt e url (n + 1)), runFrom_act hat rfl, rfl,
      rfl, dispatchers_goto ..⟩

/-- The first attempt of what is left: it posts, and the answer leads on. -/
theorem runFrom_attempt {c : String} (status : Option ℕ) (as : List Action) (hlt : n < maxRetries)
    (hat : w.dispatchers k = some ⟨c, false, .attempt e url n⟩) :
    ∃ w', (machine maxRetries).runFrom w (.act k .attempt :: .act k (.answer status) :: as) =
        (machine maxRetries).runFrom w' as ∧
      w'.posts = w.posts ++ [⟨e.1, url, webhookBody e.2.data, status⟩] ∧ w'.group = w.group ∧
      w'.dispatchers k = some ⟨c, false,
        if success status then .delivered e url n else afterFailure maxRetries e url n⟩ := by
  have hposting : w.advance maxRetries k ⟨c, false, .attempt e url n⟩ (.attempt e url n) .attempt =
      some (w.goto k ⟨c, false, .attempt e url n⟩ (.posting e url n)) := by
    simp [Webhooks.advance, hlt]
  exact ⟨_, (runFrom_act hat hposting).trans (runFrom_act (dispatchers_goto ..) rfl), rfl, rfl,
    dispatchers_goto ..⟩

/-- A round that fails, because the POST does or the `XACK` after it raises: the worker has posted
and is before the next attempt. -/
theorem runFrom_failed {c : String} (env : Answers) (a : ℕ) (as : List Action)
    (hleft : n + (left + 1) = maxRetries)
    (hack : success (env.post n) = true → env.ack a = false)
    (hat : w.dispatchers k = some ⟨c, false, .attempt e url n⟩) :
    ∃ w', (machine maxRetries).runFrom w (.act k .attempt :: .act k (.answer (env.post n)) ::
          ((if success (env.post n) then [.act k (.ack (env.ack a))] else []) ++
            (wakeAfter k left ++ as))) = (machine maxRetries).runFrom w' as ∧
      w'.posts = w.posts ++ [⟨e.1, url, webhookBody e.2.data, env.post n⟩] ∧ w'.group = w.group ∧
      w'.dispatchers k = some ⟨c, false, .attempt e url (n + 1)⟩ := by
  obtain ⟨u, hrun, hposts, hgroup, hatu⟩ := runFrom_attempt (env.post n)
    ((if success (env.post n) then [.act k (.ack (env.ack a))] else []) ++ (wakeAfter k left ++ as))
    (show n < maxRetries by omega) hat
  -- before the backoff, whether by the failed POST or by the `XACK` that raised
  obtain ⟨v, hrun', hposts', hgroup', hatv⟩ : ∃ v, (machine maxRetries).runFrom u
        ((if success (env.post n) then [.act k (.ack (env.ack a))] else []) ++
          (wakeAfter k left ++ as)) = (machine maxRetries).runFrom v (wakeAfter k left ++ as) ∧
      v.posts = u.posts ∧ v.group = u.group ∧
      v.dispatchers k = some ⟨c, false, afterFailure maxRetries e url n⟩ := by
    cases hsuccess : success (env.post n) with
    | false => exact ⟨u, rfl, rfl, rfl, by simpa [hsuccess] using hatu⟩
    | true =>
      rw [hsuccess, if_pos rfl] at hatu
      rw [if_pos rfl, hack hsuccess]
      exact ⟨_, runFrom_act hatu rfl, rfl, rfl, dispatchers_goto ..⟩
  obtain ⟨w', hrun'', hposts'', hgroup'', hat'⟩ := runFrom_wakeAfter as hleft hatv
  exact ⟨w', hrun.trans (hrun'.trans hrun''), by rw [hposts'', hposts', hposts],
    by rw [hgroup'', hgroup', hgroup], hat'⟩

/-- The stop flag is set before an attempt, and the worker lets go of its entry. -/
theorem runFrom_stopped {c : String} (hlt : n < maxRetries)
    (hat : w.dispatchers k = some ⟨c, false, .attempt e url n⟩) :
    ∃ w', (machine maxRetries).runFrom w [.stop k, .act k .attempt] = some w' ∧
      Did k e [] w w' := by
  have hstop : (machine maxRetries).step w (.stop k) =
      some (w.setDispatcher k (some ⟨c, true, .attempt e url n⟩)) := by
    simp [machine, Webhooks.step, hat]
  have hgone : (w.setDispatcher k (some ⟨c, true, .attempt e url n⟩)).advance maxRetries k
      ⟨c, true, .attempt e url n⟩ (.attempt e url n) .attempt =
        some ((w.setDispatcher k (some ⟨c, true, .attempt e url n⟩)).goto k
          ⟨c, true, .attempt e url n⟩ .reading) := by
    simp [Webhooks.advance, hlt]
  have hrun : (machine maxRetries).runFrom w [.stop k, .act k .attempt] =
      (machine maxRetries).runFrom
        (w.setDispatcher k (some ⟨c, true, .attempt e url n⟩)) [.act k .attempt] :=
    Machine.runFrom_cons_of_step _ hstop
  exact ⟨_, hrun.trans (runFrom_act (by simp [Webhooks.setDispatcher]) hgone),
    { posts := by simp [Webhooks.goto, Webhooks.setDispatcher]
      group := rfl
      reading := ⟨_, dispatchers_goto .., rfl⟩ }⟩

/-- What was done before is put in front. -/
theorem Did.prepend {effects es : List Effect} {w₁ : Webhooks} (h : Did k e effects w₁ w')
    (hposts : w₁.posts = w.posts ++ es.filterMap (Effect.post? e.1)) (hgroup : w₁.group = w.group)
    (hack : Effect.ack true ∉ es) : Did k e (es ++ effects) w w' where
  posts := by rw [h.posts, hposts, List.filterMap_append, List.append_assoc]
  group := by simp only [h.group, hgroup, List.mem_append, hack, false_or]
  reading := h.reading

/-- An `XACK` that is not tried again, whatever becomes of it. -/
theorem did_acknowledge (w : Webhooks) (k : ℕ) (d : Dispatcher) (e : Entry) (ok : Bool) :
    Did k e [.ack ok] w (w.acknowledge k d e .reading ok) where
  posts := by
    cases ok <;> simp [Effect.post?, Webhooks.acknowledge, Webhooks.goto, Webhooks.setDispatcher]
  group := by cases ok <;> simp [Webhooks.acknowledge, Webhooks.goto, Webhooks.setDispatcher]
  reading := by cases ok <;> exact ⟨_, dispatchers_goto .., rfl⟩

/-- No attempt is left, and the worker acknowledges what it could not deliver. -/
theorem runFrom_exhausted {c : String} (ok : Bool) (hlast : n = maxRetries)
    (hat : w.dispatchers k = some ⟨c, false, .attempt e url n⟩) :
    ∃ w', (machine maxRetries).runFrom w [.act k .attempt, .act k (.ack ok)] = some w' ∧
      Did k e [.ack ok] w w' := by
  have hexhausted : w.advance maxRetries k ⟨c, false, .attempt e url n⟩ (.attempt e url n)
      .attempt = some (w.goto k ⟨c, false, .attempt e url n⟩ (.exhausted e)) := by
    simp [Webhooks.advance, hlast]
  have hdid := did_acknowledge (w.goto k ⟨c, false, .attempt e url n⟩ (.exhausted e)) k
    ⟨c, false, .exhausted e⟩ e ok
  exact ⟨_, (runFrom_act hat hexhausted).trans (runFrom_act (dispatchers_goto ..) rfl),
    ⟨hdid.posts, hdid.group, hdid.reading⟩⟩

/-- The POST is answered 2xx and acknowledged. -/
theorem runFrom_delivered {c : String} {status : Option ℕ} (hlt : n < maxRetries)
    (hsuccess : success status = true)
    (hat : w.dispatchers k = some ⟨c, false, .attempt e url n⟩) :
    ∃ w', (machine maxRetries).runFrom w
        [.act k .attempt, .act k (.answer status), .act k (.ack true)] = some w' ∧
      Did k e [.post url (webhookBody e.2.data) status, .ack true] w w' := by
  obtain ⟨u, hrun, hposts, hgroup, hatu⟩ :=
    runFrom_attempt status [.act k (.ack true)] hlt hat
  rw [hsuccess, if_pos rfl] at hatu
  have hdid : Did k e ([.post url (webhookBody e.2.data) status] ++ [.ack true]) w
      (u.acknowledge k ⟨c, false, .delivered e url n⟩ e .reading true) :=
    (did_acknowledge u k _ e true).prepend hposts hgroup (by simp)
  exact ⟨_, hrun.trans (runFrom_act hatu rfl), hdid⟩

/-- **The steps refine the function.** A worker that nobody interrupts posts what the loop posts,
and acknowledges its entry when the loop does. -/
theorem runFrom_loopActs {c : String} (hleft : n + left = maxRetries)
    (hat : w.dispatchers k = some ⟨c, false, .attempt e url n⟩) :
    ∃ w', (machine maxRetries).runFrom w (loopActs k env left n a) = some w' ∧
      Did k e (loop env url (webhookBody e.2.data) left n a) w w' := by
  induction left generalizing n a w with
  | zero => exact runFrom_exhausted (env.ack a) hleft hat
  | succ left ih =>
    have hlt : n < maxRetries := by omega
    rcases loop_cases env url (webhookBody e.2.data) left n a with
      ⟨hstop, hloop⟩ | ⟨hstop, hsuccess, hack, hloop⟩ | ⟨hstop, hsuccess, hack, hloop⟩ |
        ⟨hstop, hfailed, hloop⟩
    · rw [hloop, loopActs, if_pos hstop]
      exact runFrom_stopped hlt hat
    · rw [hloop]
      simp only [loopActs, hstop, hsuccess, hack, if_true]
      exact runFrom_delivered hlt hsuccess hat
    -- in the other two the rest is the loop of the next attempt
    · obtain ⟨u, hrun, hposts, hgroup, hatu⟩ := runFrom_failed env a
        (loopActs k env left (n + 1) (a + 1)) hleft (fun _ => hack) hat
      obtain ⟨w', hrest, hdid⟩ := @ih (n + 1) (a + 1) u (by omega) hatu
      refine ⟨w', ?_, ?_⟩
      · simp only [loopActs, hstop, hsuccess, hack, if_true, Bool.false_eq_true, if_false]
        simp only [hsuccess, hack, if_true, List.singleton_append] at hrun
        exact hrun.trans hrest
      · rw [hloop]
        have hall : Did k e ((Effect.post url (webhookBody e.2.data) (env.post n) :: .ack false ::
            sleepAfter n left) ++ loop env url (webhookBody e.2.data) left (n + 1) (a + 1)) w w' :=
          hdid.prepend (by simpa [List.filterMap_cons, Effect.post?] using hposts) hgroup (by simp)
        exact hall
    · obtain ⟨u, hrun, hposts, hgroup, hatu⟩ := runFrom_failed env a
        (loopActs k env left (n + 1) a) hleft (fun h => absurd h (by simp [hfailed])) hat
      obtain ⟨w', hrest, hdid⟩ := @ih (n + 1) a u (by omega) hatu
      refine ⟨w', ?_, ?_⟩
      · simp only [loopActs, hstop, hfailed, Bool.false_eq_true, if_false]
        simp only [hfailed, Bool.false_eq_true, if_false, List.nil_append] at hrun
        exact hrun.trans hrest
      · rw [hloop]
        have hall : Did k e ((Effect.post url (webhookBody e.2.data) (env.post n) ::
            sleepAfter n left) ++ loop env url (webhookBody e.2.data) left (n + 1) a) w w' :=
          hdid.prepend (by simpa [List.filterMap_cons, Effect.post?] using hposts) hgroup (by simp)
        exact hall

end Worker

/-! ### The main result -/

/-- **The discipline of one webhook.** It is kept exactly when the `XACK` after the first 2xx answer
does not raise, or that answer is to the last attempt, or the stop flag is set by the next. -/
theorem disciplined_iff {event url : Json} (maxRetries : ℕ) (env : Answers)
    (hurl : callbackUrl event = .ok (some url)) :
    Disciplined maxRetries env (processEvent maxRetries env event) ↔
      Acknowledged env 0 maxRetries 0 := by
  have hloop : processEvent maxRetries env event =
      loop env url (webhookBody event) maxRetries 0 0 := by
    simp only [processEvent, hurl]
  have hlast : maxRetries = 0 + maxRetries := by omega
  rw [hloop]
  constructor
  · intro h
    have honce := pairwise_loop_iff.mp h.once
    rwa [← hlast] at honce
  · intro h
    exact
      { posts := countP_isPost_loop
        once := pairwise_loop_iff.mpr (hlast ▸ h)
        after := fun before ok hprefix => acked_after_loop hprefix
        acked := fun hstop hack => count_ack_loop hstop hack }

/-- A final event with a callback URL. -/
def finalEvent : Json :=
  .obj [("status", .str "done"), ("_session_id", .str "api:alice"),
    ("request_payload", .obj [("callbackUrl", .str "http://client/hook")])]

/-- The second attempt is answered 200 and acknowledged. -/
def secondSucceeds : Answers :=
  ⟨fun n => if n = 1 then some 200 else none, fun _ => true, fun _ => false⟩

theorem disciplined_iff_secondSucceeds :
    Disciplined 3 secondSucceeds (processEvent 3 secondSucceeds finalEvent) ↔
      Acknowledged secondSucceeds 0 3 0 :=
  disciplined_iff 3 secondSucceeds
    (show callbackUrl finalEvent = .ok (some (.str "http://client/hook")) by decide)

/-- Every POST is answered 200, and the first `XACK` raises. -/
def firstAckRaises : Answers := ⟨fun _ => some 200, fun n => n ≠ 0, fun _ => false⟩

/-- **A delivered event is delivered again**: the exception of the first `XACK` is taken for a
failed attempt. -/
theorem delivered_twice : ¬ ∀ maxRetries env event url, 1 ≤ maxRetries →
    callbackUrl event = .ok (some url) →
      Disciplined maxRetries env (processEvent maxRetries env event) := by
  intro hlaw
  have h := hlaw 3 firstAckRaises finalEvent (.str "http://client/hook") (by decide) (by decide)
  have hposts : processEvent 3 firstAckRaises finalEvent =
      [.post (.str "http://client/hook") (webhookBody finalEvent) (some 200), .ack false, .sleep 1,
        .post (.str "http://client/hook") (webhookBody finalEvent) (some 200), .ack true] := by
    decide
  have honce := h.once
  rw [hposts] at honce
  simp [Effect.delivers, Effect.isPost, success] at honce

end Nanogate.Webhook
