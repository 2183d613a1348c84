import Nanogate.Webhook.Delivery

/-!
# The attempts of all dispatchers together

`max_retries` is a limit of one call of `_process_event`. It is one of the whole deployment as well,
because the group hands an entry out once: dispatchers may crash, be stopped and be started again,
and `XACK` may raise, but no second one is given the entry to begin anew. And as long as no `XACK`
raises, the endpoint that has answered 2xx for an event is not called for it again by anyone.

## Main definitions

* `Webhooks.attempts` — the POSTs for an entry, whoever made them
* `Frugal` — never more than `max_retries`, and none after a success

## Main results

* `Budget.step`, `Silent.step` — what each step preserves
* `frugal_of_run` — every deployment is frugal
-/

namespace Nanogate.Webhook

open Nanogate.Python Nanogate.Redis Nanogate.Bus Nanogate.Semantics

/-- The POSTs for an entry. -/
def Webhooks.attempts (w : Webhooks) (id : ℕ) : ℕ := w.posts.countP fun p => p.entry = id

/-- The attempts that a worker at `pc` has made for the entry it has in hand are all there are. -/
def Spent (maxRetries : ℕ) (w : Webhooks) : Pc → Prop
  | .starting | .reading | .exited | .exhausted _ => True
  | .handed e | .plain e => w.attempts e.1 = 0
  | .attempt e _ n => w.attempts e.1 = n
  | .posting e _ n => w.attempts e.1 = n ∧ n < maxRetries
  | .delivered e _ n | .backoff e _ n => w.attempts e.1 = n + 1

/-- The limit holds, the entries in hand are in one hand each, and nobody has POSTed an entry that
was not handed out. -/
structure Budget (maxRetries : ℕ) (w : Webhooks) : Prop where
  posted : ∀ p ∈ w.posts, w.Handed p.entry
  held : ∀ k d e, w.dispatchers k = some d → d.pc.entry = some e → w.Handed e.1
  holder : ∀ k k' d d' e e', w.dispatchers k = some d → w.dispatchers k' = some d' →
    d.pc.entry = some e → d'.pc.entry = some e' → e.1 = e'.1 → k = k'
  spent : ∀ k d, w.dispatchers k = some d → Spent maxRetries w d.pc
  bounded : ∀ id, w.attempts id ≤ maxRetries

/-- Where a 2xx was answered, it was the last answer, and the worker is about to acknowledge. -/
structure Silent (w : Webhooks) : Prop where
  last : w.posts.Pairwise fun p q => p.entry = q.entry → success p.status = false
  unanswered : ∀ k d e, w.dispatchers k = some d → d.pc.entry = some e →
    (∀ url n, d.pc ≠ .delivered e url n) → ∀ p ∈ w.posts, p.entry = e.1 → success p.status = false

section Steps

variable {maxRetries : ℕ} {w w' : Webhooks} {k k' : ℕ} {d d' : Dispatcher} {pc : Pc} {e : Entry}
  {a : Action} {d₁ : Option Dispatcher}

theorem dispatchers_setDispatcher (h : (w.setDispatcher k d₁).dispatchers k' = some d') :
    (k' = k ∧ d₁ = some d') ∨ (k' ≠ k ∧ w.dispatchers k' = some d') := by
  simp only [Webhooks.setDispatcher, Function.update_apply] at h
  split_ifs at h with hk
  · exact .inl ⟨hk, h⟩
  · exact .inr ⟨hk, h⟩

/-- Whether a worker is in its budget depends on the attempts for its entry. -/
theorem Spent.congr (h : Spent maxRetries w pc)
    (hsame : ∀ e, pc.entry = some e → w'.attempts e.1 = w.attempts e.1) :
    Spent maxRetries w' pc := by
  cases pc with
  | starting | reading | exited | exhausted => trivial
  | handed e | plain e | attempt e | delivered e | backoff e =>
    exact (hsame e rfl).trans h
  | posting e => exact ⟨(hsame e rfl).trans h.1, h.2⟩

/-- A worker is replaced by one that has nothing in hand, or what the old one had. -/
theorem Budget.replace (hw : Budget maxRetries w)
    (hkeep : ∀ d ∈ d₁, ∀ e, d.pc.entry = some e →
      ∃ d₀, w.dispatchers k = some d₀ ∧ d₀.pc.entry = some e)
    (hspent : ∀ d ∈ d₁, Spent maxRetries w d.pc) : Budget maxRetries (w.setDispatcher k d₁) := by
  -- whoever holds an entry afterwards held it before, under the same number
  have hback {k' d' e} (hd : (w.setDispatcher k d₁).dispatchers k' = some d')
      (he : d'.pc.entry = some e) : ∃ d₀, w.dispatchers k' = some d₀ ∧ d₀.pc.entry = some e := by
    rcases dispatchers_setDispatcher hd with ⟨rfl, hd₁⟩ | ⟨-, hold⟩
    · exact hkeep d' hd₁ e he
    · exact ⟨d', hold, he⟩
  refine ⟨hw.posted, fun k' d' e hd he => ?_, fun k₁ k₂ d₁' d₂' e₁ e₂ hd₁ hd₂ he₁ he₂ hid => ?_,
    fun k' d' hd => ?_, hw.bounded⟩
  · obtain ⟨d₀, hd₀, he₀⟩ := hback hd he
    exact hw.held k' d₀ e hd₀ he₀
  · obtain ⟨d₁₀, hd₁₀, he₁₀⟩ := hback hd₁ he₁
    obtain ⟨d₂₀, hd₂₀, he₂₀⟩ := hback hd₂ he₂
    exact hw.holder k₁ k₂ d₁₀ d₂₀ e₁ e₂ hd₁₀ hd₂₀ he₁₀ he₂₀ hid
  · rcases dispatchers_setDispatcher hd with ⟨-, hd₁⟩ | ⟨-, hold⟩
    · exact hspent d' hd₁
    · exact hw.spent k' d' hold

/-- A worker moves on. -/
theorem Budget.goto (hw : Budget maxRetries w) (hk : w.dispatchers k = some d)
    (hentry : ∀ e, pc.entry = some e → d.pc.entry = some e) (hspent : Spent maxRetries w pc) :
    Budget maxRetries (w.goto k d pc) := by
  refine hw.replace ?_ ?_
  · rintro _ ⟨⟩ e he
    exact ⟨d, hk, hentry e he⟩
  · rintro _ ⟨⟩
    exact hspent

/-- What was handed out stays so. -/
theorem Budget.setGroup (hw : Budget maxRetries w) {group : Option ConsumerGroup}
    (hhanded : ∀ id, w.Handed id → Webhooks.Handed { w with group } id) :
    Budget maxRetries { w with group } :=
  ⟨fun p hp => hhanded _ (hw.posted p hp), fun k d e hd he => hhanded _ (hw.held k d e hd he),
    hw.holder, hw.spent, hw.bounded⟩

theorem Budget.ack (hw : Budget maxRetries w) (id : ℕ) :
    Budget maxRetries { w with group := w.group.map fun g => g.ack id } := by
  refine hw.setGroup ?_
  rintro id' ⟨g, hg, hle⟩
  exact ⟨g.ack id, by simp [hg], hle⟩

/-- An entry is read: it was nobody's, and nobody has POSTed it. -/
theorem Budget.read (hw : Budget maxRetries w) {g g' : ConsumerGroup}
    (hgroup : w.group = some g) (hread : g.readNew w.stream d.consumer = some (e, g')) :
    Budget maxRetries { w.goto k d (.handed e) with group := some g' } ∧ w.attempts e.1 = 0 := by
  obtain ⟨hlast, hlt⟩ := ConsumerGroup.lastDelivered_of_readNew hread
  have hold {id : ℕ} (h : w.Handed id) : id ≤ g.lastDelivered := by
    obtain ⟨g₀, hg₀, hle⟩ := h
    obtain rfl := Option.some_inj.mp (hgroup.symm.trans hg₀)
    exact hle
  have hhanded {id : ℕ} (h : id ≤ e.1) :
      Webhooks.Handed { w.goto k d (.handed e) with group := some g' } id := ⟨g', rfl, hlast ▸ h⟩
  have hzero : w.attempts e.1 = 0 := by
    rw [Webhooks.attempts, List.countP_eq_zero]
    intro p hp
    have hle := hold (hw.posted p hp)
    have hne : p.entry ≠ e.1 := by omega
    simp [hne]
  have hnew {k' d' e'} (hd : w.dispatchers k' = some d') (he : d'.pc.entry = some e') :
      e'.1 ≠ e.1 := by
    have hle := hold (hw.held k' d' e' hd he)
    omega
  refine ⟨⟨fun p hp => hhanded ?_, fun k' d' e' hd he => hhanded ?_,
    fun k₁ k₂ d₁ d₂ e₁ e₂ hd₁ hd₂ he₁ he₂ hid => ?_, fun k' d' hd => ?_, hw.bounded⟩, hzero⟩
  · exact (hold (hw.posted p hp)).trans hlt.le
  · rcases dispatchers_setDispatcher hd with ⟨-, ⟨⟩⟩ | ⟨-, hd⟩
    · obtain rfl := Option.some_inj.mp he
      exact Nat.le_refl _
    · exact (hold (hw.held k' d' e' hd he)).trans hlt.le
  · rcases dispatchers_setDispatcher hd₁ with ⟨rfl, ⟨⟩⟩ | ⟨-, hold₁⟩ <;>
      rcases dispatchers_setDispatcher hd₂ with ⟨rfl, ⟨⟩⟩ | ⟨-, hold₂⟩
    · rfl
    · obtain rfl := Option.some_inj.mp he₁
      exact absurd hid.symm (hnew hold₂ he₂)
    · obtain rfl := Option.some_inj.mp he₂
      exact absurd hid (hnew hold₁ he₁)
    · exact hw.holder k₁ k₂ d₁ d₂ e₁ e₂ hold₁ hold₂ he₁ he₂ hid
  · rcases dispatchers_setDispatcher hd with ⟨-, ⟨⟩⟩ | ⟨-, hd⟩
    · exact hzero
    · exact hw.spent k' d' hd

theorem attempts_addPost {post : Post} (id : ℕ) :
    (w.addPost k d pc post).attempts id = w.attempts id + if post.entry = id then 1 else 0 := by
  simp [Webhooks.addPost, Webhooks.goto, Webhooks.setDispatcher, Webhooks.attempts,
    List.countP_append, List.countP_singleton]

/-- A POST for the entry in hand, while the limit is not reached. -/
theorem Budget.addPost (hw : Budget maxRetries w) (hk : w.dispatchers k = some d)
    {post : Post} (hd : d.pc.entry = some e) (hpost : post.entry = e.1)
    (hlt : w.attempts e.1 < maxRetries) (hentry : ∀ e', pc.entry = some e' → e' = e)
    (hspent : Spent maxRetries (w.addPost k d pc post) pc) :
    Budget maxRetries (w.addPost k d pc post) := by
  have hhanded {id : ℕ} (h : w.Handed id) : (w.addPost k d pc post).Handed id := h
  have hback {k' d' e'} (hd' : (w.addPost k d pc post).dispatchers k' = some d')
      (he : d'.pc.entry = some e') :
      (k' = k ∧ e' = e) ∨ (k' ≠ k ∧ w.dispatchers k' = some d') := by
    rcases dispatchers_setDispatcher hd' with ⟨rfl, ⟨⟩⟩ | hother
    · exact .inl ⟨rfl, hentry e' he⟩
    · exact .inr hother
  refine ⟨fun p hp => ?_, fun k' d' e' hd' he => ?_,
    fun k₁ k₂ d₁ d₂ e₁ e₂ hd₁ hd₂ he₁ he₂ hid => ?_, fun k' d' hd' => ?_, fun id => ?_⟩
  · rcases List.mem_append.mp hp with hp | hp
    · exact hhanded (hw.posted p hp)
    · obtain rfl := List.mem_singleton.mp hp
      exact hhanded (hpost ▸ hw.held k d e hk hd)
  · rcases hback hd' he with ⟨rfl, rfl⟩ | ⟨-, hd'⟩
    · exact hhanded (hw.held k' d e' hk hd)
    · exact hhanded (hw.held k' d' e' hd' he)
  · rcases hback hd₁ he₁ with ⟨rfl, rfl⟩ | ⟨-, hold₁⟩ <;>
      rcases hback hd₂ he₂ with ⟨rfl, rfl⟩ | ⟨-, hold₂⟩
    · rfl
    · exact hw.holder k₁ k₂ d d₂ e₁ e₂ hk hold₂ hd he₂ hid
    · exact hw.holder k₁ k₂ d₁ d e₁ e₂ hold₁ hk he₁ hd hid
    · exact hw.holder k₁ k₂ d₁ d₂ e₁ e₂ hold₁ hold₂ he₁ he₂ hid
  · rcases dispatchers_setDispatcher hd' with ⟨-, ⟨⟩⟩ | ⟨hne, hd'⟩
    · exact hspent
    · refine (hw.spent k' d' hd').congr fun e' he' => ?_
      have hother : post.entry ≠ e'.1 := fun heq =>
        hne (hw.holder k' k d' d e' e hd' hk he' hd (heq.symm.trans hpost))
      rw [attempts_addPost, if_neg hother, Nat.add_zero]
  · rw [attempts_addPost]
    split_ifs with hid
    · rw [← hid, hpost]
      exact hlt
    · exact hw.bounded id

/-! ### Every step -/

theorem spent_afterFailure {url : Json} {n : ℕ} (h : w.attempts e.1 = n + 1) :
    Spent maxRetries w (afterFailure maxRetries e url n) := by
  unfold afterFailure
  split_ifs
  · exact h
  · exact h

theorem entry_afterFailure {url : Json} {n : ℕ} :
    (afterFailure maxRetries e url n).entry = some e := by
  unfold afterFailure
  split_ifs <;> rfl

/-- An `XACK` and where it leads. -/
theorem Budget.acknowledge (hw : Budget maxRetries w) (hk : w.dispatchers k = some d)
    (hd : d.pc.entry = some e) (hentry : ∀ e', pc.entry = some e' → e' = e)
    (hspent : Spent maxRetries w pc) (ok : Bool) :
    Budget maxRetries (w.acknowledge k d e pc ok) := by
  have hreading : Spent maxRetries w .reading := trivial
  cases ok with
  | true => exact (hw.goto hk (fun e' he' => absurd he' (by simp [Pc.entry])) hreading).ack e.1
  | false => exact hw.goto hk (fun e' he' => hentry e' he' ▸ hd) hspent

theorem Budget.dispatcherStep {a : Act} (hw : Budget maxRetries w)
    (hk : w.dispatchers k = some d) (h : DispatcherStep maxRetries w k d pc a w')
    (hpc : d.pc = pc) : Budget maxRetries w' := by
  have hspent := hw.spent k d hk
  have hreading : Spent maxRetries w .reading := trivial
  have hnone {pc : Pc} (hpc : pc.entry = none) (e : Entry) (he : pc.entry = some e) :
      d.pc.entry = some e := absurd (hpc.symm.trans he) (by simp)
  cases h with
  | init =>
    refine (hw.goto hk (hnone rfl) hreading).setGroup ?_
    rintro id ⟨g, hg, hle⟩
    have hgroup : w.group = some g := hg
    exact ⟨g, by simp [hgroup], hle⟩
  | read hgroup hread => exact (hw.read hgroup hread).1
  | @check e =>
    rw [hpc] at hspent
    split_ifs
    · exact hw.goto hk (hnone rfl) trivial
    · unfold beginEvent
      split
      · exact hw.goto hk (hnone rfl) trivial
      · exact hw.goto hk (fun _ he => hpc ▸ he) hspent
      · exact hw.goto hk (fun _ he => hpc ▸ he) hspent
  | @attempt e url n =>
    rw [hpc] at hspent
    split_ifs with hlt
    · exact hw.goto hk (hnone rfl) trivial
    · exact hw.goto hk (fun _ he => hpc ▸ he) ⟨hspent, hlt⟩
    · exact hw.goto hk (fun _ he => hpc ▸ he) trivial
  | @answer e url n status =>
    rw [hpc] at hspent
    obtain ⟨hn, hlt⟩ := hspent
    have hentry : d.pc.entry = some e := by
      rw [hpc]
      rfl
    have hnext (pc : Pc) : (w.addPost k d pc ⟨e.1, url, webhookBody e.2.data, status⟩).attempts
        e.1 = n + 1 := by
      rw [attempts_addPost, if_pos rfl, hn]
    refine hw.addPost hk hentry rfl (hn ▸ hlt) (fun e' he' => ?_) ?_
    · split_ifs at he'
      · exact (Option.some_inj.mp he').symm
      · exact (Option.some_inj.mp (entry_afterFailure.symm.trans he')).symm
    · split_ifs
      · exact hnext _
      · exact spent_afterFailure (hnext _)
  | @ackDelivered e url n ok =>
    rw [hpc] at hspent
    exact hw.acknowledge hk (by rw [hpc]; rfl)
      (fun e' he' => (Option.some_inj.mp (entry_afterFailure.symm.trans he')).symm)
      (spent_afterFailure hspent) ok
  | wake =>
    rw [hpc] at hspent
    exact hw.goto hk (fun _ he => hpc ▸ he) hspent
  | ackExhausted =>
    exact hw.acknowledge hk (by rw [hpc]; rfl) (fun _ he => absurd he (by simp [Pc.entry]))
      hreading _
  | ackPlain =>
    exact hw.acknowledge hk (by rw [hpc]; rfl) (fun _ he => absurd he (by simp [Pc.entry]))
      hreading _

theorem Budget.step (hw : Budget maxRetries w) (hstep : WebhookStep maxRetries w a w') :
    Budget maxRetries w' := by
  cases hstep with
  | append => exact ⟨hw.posted, hw.held, hw.holder, hw.spent, hw.bounded⟩
  | start =>
    refine hw.replace ?_ ?_
    · rintro _ ⟨⟩ e he
      exact absurd he (by simp [Pc.entry])
    · rintro _ ⟨⟩
      trivial
  | stop running =>
    have hspent := hw.spent _ _ running
    refine hw.replace ?_ ?_
    · rintro _ ⟨⟩ e he
      exact ⟨_, running, he⟩
    · rintro _ ⟨⟩
      exact hspent
  | crash => exact hw.replace (by simp) (by simp)
  | act running step => exact hw.dispatcherStep running step rfl

theorem budget_empty (maxRetries : ℕ) : Budget maxRetries .empty where
  posted := by simp [Webhooks.empty]
  held := by simp [Webhooks.empty]
  holder := by simp [Webhooks.empty]
  spent := by simp [Webhooks.empty]
  bounded := by simp [Webhooks.attempts, Webhooks.empty]

/-! ### While every `XACK` succeeds -/

/-- A worker is replaced by one that has nothing in hand, or goes on with what is unanswered. -/
theorem Silent.replace (hw : Silent w)
    (hkeep : ∀ d ∈ d₁, ∀ e, d.pc.entry = some e → (∀ url n, d.pc ≠ .delivered e url n) →
      ∃ d₀, w.dispatchers k = some d₀ ∧ d₀.pc.entry = some e ∧
        ∀ url n, d₀.pc ≠ .delivered e url n) :
    Silent (w.setDispatcher k d₁) := by
  refine ⟨hw.last, fun k' d' e hd he hno => ?_⟩
  rcases dispatchers_setDispatcher hd with ⟨-, hd₁⟩ | ⟨-, hold⟩
  · obtain ⟨d₀, hd₀, he₀, hno₀⟩ := hkeep d' hd₁ e he hno
    exact hw.unanswered k d₀ e hd₀ he₀ hno₀
  · exact hw.unanswered k' d' e hold he hno

theorem Silent.goto (hw : Silent w) (hk : w.dispatchers k = some d)
    (hentry : ∀ e, pc.entry = some e → d.pc.entry = some e ∧ ∀ url n, d.pc ≠ .delivered e url n) :
    Silent (w.goto k d pc) := by
  refine hw.replace ?_
  rintro _ ⟨⟩ e he -
  exact ⟨d, hk, hentry e he⟩

theorem Silent.setGroup (hw : Silent w) (group : Option ConsumerGroup) :
    Silent { w with group } := ⟨hw.last, hw.unanswered⟩

theorem Silent.acknowledge (hw : Silent w) (hk : w.dispatchers k = some d) :
    Silent (w.acknowledge k d e pc true) :=
  (hw.goto hk fun e' he' => absurd he' (by simp [Pc.entry])).setGroup _

/-- A POST is made by the one worker that has the entry, which no 2xx was answered for. -/
theorem Silent.addPost (hw : Silent w) (hbudget : Budget maxRetries w)
    (hk : w.dispatchers k = some d) {post : Post} (hd : d.pc.entry = some e)
    (hno : ∀ url n, d.pc ≠ .delivered e url n) (hpost : post.entry = e.1)
    (hentry : ∀ e', pc.entry = some e' → e' = e)
    (hnext : (∀ url n, pc ≠ .delivered e url n) → success post.status = false) :
    Silent (w.addPost k d pc post) := by
  have hmine := hw.unanswered k d e hk hd hno
  refine ⟨?_, fun k' d' e' hd' he' hno' p hp hid => ?_⟩
  · refine List.pairwise_append.mpr ⟨hw.last, List.pairwise_singleton _ _, fun p hp q hq hid => ?_⟩
    obtain rfl := List.mem_singleton.mp hq
    exact hmine p hp (hid.trans hpost)
  · rcases dispatchers_setDispatcher hd' with ⟨-, ⟨⟩⟩ | ⟨hne, hold⟩
    · obtain rfl := hentry e' he'
      rcases List.mem_append.mp hp with hp | hp
      · exact hmine p hp hid
      · obtain rfl := List.mem_singleton.mp hp
        exact hnext hno'
    · rcases List.mem_append.mp hp with hp | hp
      · exact hw.unanswered k' d' e' hold he' hno' p hp hid
      · obtain rfl := List.mem_singleton.mp hp
        exact absurd (hbudget.holder k' k d' d e' e hold hk he' hd (hid.symm.trans hpost)) hne

theorem Silent.dispatcherStep {a : Act} (hw : Silent w) (hbudget : Budget maxRetries w)
    (hk : w.dispatchers k = some d) (h : DispatcherStep maxRetries w k d pc a w')
    (hpc : d.pc = pc) (hok : Action.ackOk (.act k a) = true) : Silent w' := by
  have hgo {pc' : Pc} (hentry : pc'.entry = pc.entry) (hno : ∀ e url n, pc ≠ .delivered e url n)
      (e : Entry) (he : pc'.entry = some e) :
      d.pc.entry = some e ∧ ∀ url n, d.pc ≠ .delivered e url n :=
    ⟨hpc ▸ hentry ▸ he, fun url n => hpc ▸ hno e url n⟩
  have hnone {pc' : Pc} (hpc' : pc'.entry = none) (e : Entry) (he : pc'.entry = some e) :
      d.pc.entry = some e ∧ ∀ url n, d.pc ≠ .delivered e url n :=
    absurd (hpc'.symm.trans he) (by simp)
  cases h with
  | init => exact (hw.goto hk (hnone rfl)).setGroup _
  | @read g e g' hgroup hread =>
    have hzero := (hbudget.read (k := k) hgroup hread).2
    refine ⟨hw.last, fun k' d' e' hd' he' hno' p hp hid => ?_⟩
    rcases dispatchers_setDispatcher hd' with ⟨-, ⟨⟩⟩ | ⟨-, hold⟩
    · -- nobody has POSTed the entry
      obtain rfl := Option.some_inj.mp he'
      rw [Webhooks.attempts, List.countP_eq_zero] at hzero
      exact absurd (decide_eq_true hid) (hzero p hp)
    · exact hw.unanswered k' d' e' hold he' hno' p hp hid
  | check =>
    split_ifs
    · exact hw.goto hk (hnone rfl)
    · unfold beginEvent
      split
      · exact hw.goto hk (hnone rfl)
      · exact hw.goto hk (hgo rfl (by simp))
      · exact hw.goto hk (hgo rfl (by simp))
  | attempt =>
    split_ifs
    · exact hw.goto hk (hnone rfl)
    · exact hw.goto hk (hgo rfl (by simp))
    · exact hw.goto hk (hgo rfl (by simp))
  | @answer e url n status =>
    have hentry : d.pc.entry = some e := by
      rw [hpc]
      rfl
    refine hw.addPost hbudget hk hentry (by simp [hpc]) rfl (fun e' he' => ?_) fun hno => ?_
    · split_ifs at he'
      · exact (Option.some_inj.mp he').symm
      · exact (Option.some_inj.mp (entry_afterFailure.symm.trans he')).symm
    · by_cases hsuccess : success status = true
      · rw [if_pos hsuccess] at hno
        exact absurd rfl (hno url n)
      · exact Bool.eq_false_iff.mpr hsuccess
  | @ackDelivered e url n ok =>
    obtain rfl : ok = true := hok
    exact hw.acknowledge hk
  | wake => exact hw.goto hk (hgo rfl (by simp))
  | @ackExhausted e ok =>
    obtain rfl : ok = true := hok
    exact hw.acknowledge hk
  | @ackPlain e ok =>
    obtain rfl : ok = true := hok
    exact hw.acknowledge hk

theorem Silent.step (hw : Silent w) (hbudget : Budget maxRetries w)
    (hstep : WebhookStep maxRetries w a w') (hok : a.ackOk = true) : Silent w' := by
  cases hstep with
  | append => exact ⟨hw.last, hw.unanswered⟩
  | start =>
    refine hw.replace ?_
    rintro _ ⟨⟩ e he
    exact absurd he (by simp [Pc.entry])
  | stop running =>
    refine hw.replace ?_
    rintro _ ⟨⟩ e he hno
    exact ⟨_, running, he, hno⟩
  | crash => exact hw.replace (by simp)
  | act running step => exact hw.dispatcherStep hbudget running step rfl hok

/-! ### Whole runs -/

/-- Never more than `max_retries` POSTs for an event, and none after one that was answered 2xx if
every `XACK` succeeds. -/
structure Frugal (maxRetries : ℕ) (w : Webhooks) (acks : Prop) : Prop where
  attempts : ∀ id, w.attempts id ≤ maxRetries
  last : acks → w.posts.Pairwise fun p q => p.entry = q.entry → success p.status = false

/-- **No event costs more than its attempts**, however many dispatchers there are, and whenever they
crash, are stopped and are started. -/
theorem frugal_of_run {acts : List Action} (hrun : (machine maxRetries).run acts = some w) :
    Frugal maxRetries w (∀ a ∈ acts, a.ackOk = true) := by
  have hstep {w a w'} (h : (machine maxRetries).step w a = some w') :
      WebhookStep maxRetries w a w' := webhookStep_of_step h
  have hbudget : Budget maxRetries w :=
    Machine.run_invariant' (fun hw h => hw.step (hstep h)) (budget_empty maxRetries) hrun
  refine ⟨hbudget.bounded, fun hacks => ?_⟩
  have hsilent : Budget maxRetries w ∧ Silent w := by
    refine Machine.run_invariant (I := fun w => Budget maxRetries w ∧ Silent w)
      (G := fun _ a => Action.ackOk a = true) ?_ ?_ (Machine.AllSteps.of_labels hacks) hrun
    · rintro w a w' ⟨hw, hsilent⟩ hok h
      exact ⟨hw.step (hstep h), hsilent.step hw (hstep h) hok⟩
    · exact ⟨budget_empty maxRetries, by simp [machine, Webhooks.empty],
        by simp [machine, Webhooks.empty]⟩
  exact hsilent.2.last

/-- A dispatcher crashes between two attempts, and another one is started. -/
def crashedMidway : List Action :=
  [.append withCallback 1, .start 0 "a", .act 0 .init, .act 0 .read, .act 0 .check,
    .act 0 .attempt, .act 0 (.answer (some 500)), .crash 0, .start 1 "b", .act 1 .init]

theorem frugal_crashedMidway : ∃ w, (machine 3).run crashedMidway = some w ∧
    Frugal 3 w (∀ a ∈ crashedMidway, a.ackOk = true) := by
  obtain ⟨w, hw⟩ : ∃ w, (machine 3).run crashedMidway = some w := ⟨_, rfl⟩
  exact ⟨w, hw, frugal_of_run hw⟩

end Steps

end Nanogate.Webhook
