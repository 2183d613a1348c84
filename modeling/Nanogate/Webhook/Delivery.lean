import Nanogate.Webhook.Dispatcher

/-!
# Webhook delivery

An entry is handed to one worker once, so an event is delivered only if that worker sees it
through: nobody reads the pending entries of a worker that went away. The invariant says
that every event that wants a webhook and was handed out is settled or still in the hands
of a worker, and how many attempts that worker has made. It survives every step except
those in which a worker lets go of an unsettled event, because it crashes or finds its stop
flag set.

## Main definitions

* `Settled` — a POST was answered 2xx, or `max_retries` were not
* `abandons` — the entry a worker lets go of without acknowledging it
* `Quiet` — one worker waits in a read that has nothing to return, and no other runs

## Main results

* `settled_of_quiet` — without abandoned events, everything is settled when the system is quiet
* `abandoned_on_stop` — with one, it is not
-/

namespace Nanogate.Webhook

open Nanogate.Python Nanogate.Redis Nanogate.Bus Nanogate.Semantics

/-- The step is not an `XACK` that raises. -/
def Action.ackOk : Action → Bool
  | .act _ (.ack ok) => ok
  | _ => true

namespace Webhooks

variable (w : Webhooks)

/-- The POSTs for an entry that were not answered 2xx. -/
def failures (id : ℕ) : ℕ := w.posts.countP fun p => p.entry = id && !success p.status

/-- Some POST for the entry was answered 2xx. -/
def Delivered (id : ℕ) : Prop := ∃ p ∈ w.posts, p.entry = id ∧ success p.status = true

/-- The entry was delivered, or all its attempts failed. -/
def Settled (maxRetries id : ℕ) : Prop := w.Delivered id ∨ w.failures id = maxRetries

/-- The entry was handed to some worker. -/
def Handed (id : ℕ) : Prop := ∃ g, w.group = some g ∧ id ≤ g.lastDelivered

/-- Some worker has the entry in hand. -/
def InHand (e : Entry) : Prop := ∃ k d, w.dispatchers k = some d ∧ d.pc.entry = some e

/-- The entry that a step lets go of without acknowledging it. -/
def abandons (maxRetries : ℕ) : Action → Option Entry
  | .crash k => (w.dispatchers k).bind fun d => d.pc.entry
  | .act k .check =>
    match w.dispatchers k with
    | some ⟨_, true, .handed e⟩ => some e
    | _ => none
  | .act k .attempt =>
    match w.dispatchers k with
    | some ⟨_, true, .attempt e _ n⟩ => if n < maxRetries then some e else none
    | _ => none
  | _ => none

/-- `XACK` succeeds, and the entry let go of, if any, wants no webhook or is settled. -/
def SeesThrough (maxRetries : ℕ) (a : Action) : Prop :=
  a.ackOk = true ∧ ∀ e ∈ w.abandons maxRetries a, WantsWebhook e → w.Settled maxRetries e.1

instance (id : ℕ) : Decidable (w.Delivered id) := inferInstanceAs (Decidable (∃ p ∈ w.posts, _))

instance (maxRetries id : ℕ) : Decidable (w.Settled maxRetries id) :=
  inferInstanceAs (Decidable (_ ∨ _))

instance (maxRetries : ℕ) (a : Action) : Decidable (w.SeesThrough maxRetries a) :=
  inferInstanceAs (Decidable (_ ∧ ∀ e ∈ _, _))

/-- One worker runs, has no stop flag and waits in a read that has nothing to return. -/
def Quiet : Prop :=
  ∃ k d g, w.dispatchers k = some d ∧ d.pc = .reading ∧ d.stopped = false ∧ w.group = some g ∧
    g.readNew w.stream d.consumer = none ∧
    ∀ k' d', w.dispatchers k' = some d' → k' ≠ k → d'.pc = .exited

end Webhooks

/-- What a worker at `pc` has done for the entry it has in hand. -/
def Progress (maxRetries : ℕ) (w : Webhooks) : Pc → Prop
  | .starting | .reading | .exited => True
  | .handed e => w.failures e.1 = 0
  | .attempt e url n => callbackUrl e.2.data = .ok (some url) ∧ w.failures e.1 = n ∧ n ≤ maxRetries
  | .posting e url n => callbackUrl e.2.data = .ok (some url) ∧ w.failures e.1 = n ∧ n < maxRetries
  | .delivered e _ _ => w.Delivered e.1
  | .backoff e url n =>
    callbackUrl e.2.data = .ok (some url) ∧ w.failures e.1 = n + 1 ∧ n + 1 < maxRetries
  | .exhausted e => w.failures e.1 = maxRetries
  | .plain e => ¬ WantsWebhook e

/-- The invariant of the dispatchers. -/
structure Attended (maxRetries : ℕ) (w : Webhooks) : Prop where
  untrimmed : w.stream.trimmed = 0
  positive : ∀ e ∈ w.stream.log, 0 < e.1
  cursor : ∀ g, w.group = some g → g.lastDelivered ≤ w.stream.lastId
  held : ∀ k d e, w.dispatchers k = some d → d.pc.entry = some e → e ∈ w.stream.log ∧ w.Handed e.1
  holder : ∀ k k' d d' e e', w.dispatchers k = some d → w.dispatchers k' = some d' →
    d.pc.entry = some e → d'.pc.entry = some e' → e.1 = e'.1 → k = k'
  posted : ∀ p ∈ w.posts, w.Handed p.entry
  progress : ∀ k d, w.dispatchers k = some d → Progress maxRetries w d.pc
  covered : ∀ e ∈ w.stream.log, w.Handed e.1 → WantsWebhook e →
    w.Settled maxRetries e.1 ∨ w.InHand e

theorem attended_empty (maxRetries : ℕ) : Attended maxRetries .empty where
  untrimmed := rfl
  positive := by simp [Webhooks.empty]
  cursor := by simp [Webhooks.empty]
  held := by simp [Webhooks.empty]
  holder := by simp [Webhooks.empty]
  posted := by simp [Webhooks.empty]
  progress := by simp [Webhooks.empty]
  covered := by simp [Webhooks.empty]

/-! ### Steps that make no POST -/

namespace Attended

variable {maxRetries : ℕ} {w w' : Webhooks} {k : ℕ} {d : Dispatcher} {pc : Pc} {e : Entry}

/-- A worker is replaced: what it has in hand afterwards it had before, and what it lets go
of is settled or wants no webhook. -/
theorem replace (hw : Attended maxRetries w) {d₀ d₁ : Option Dispatcher}
    (hk : w.dispatchers k = d₀)
    (hkeep : ∀ d e, d₁ = some d → d.pc.entry = some e → ∃ d, d₀ = some d ∧ d.pc.entry = some e)
    (hprogress : ∀ d, d₁ = some d → Progress maxRetries w d.pc)
    (hlet : ∀ d e, d₀ = some d → d.pc.entry = some e →
      (∃ d, d₁ = some d ∧ d.pc.entry = some e) ∨ (WantsWebhook e → w.Settled maxRetries e.1)) :
    Attended maxRetries (w.setDispatcher k d₁) := by
  -- whoever holds an entry afterwards held it before, under the same name
  have hback : ∀ k' d e, (w.setDispatcher k d₁).dispatchers k' = some d → d.pc.entry = some e →
      ∃ d, w.dispatchers k' = some d ∧ d.pc.entry = some e := by
    intro k' d e hd he
    simp only [Webhooks.setDispatcher, Function.update_apply] at hd
    split_ifs at hd with hkk
    · subst hkk
      exact hk ▸ hkeep d e hd he
    · exact ⟨d, hd, he⟩
  refine ⟨hw.untrimmed, hw.positive, hw.cursor, ?_, ?_, hw.posted, ?_, ?_⟩
  · intro k' d e hd he
    obtain ⟨d', hd', he'⟩ := hback k' d e hd he
    exact hw.held k' d' e hd' he'
  · intro k₁ k₂ d₁ d₂ e₁ e₂ hd₁ hd₂ he₁ he₂ hid
    obtain ⟨d₁', hd₁', he₁'⟩ := hback k₁ d₁ e₁ hd₁ he₁
    obtain ⟨d₂', hd₂', he₂'⟩ := hback k₂ d₂ e₂ hd₂ he₂
    exact hw.holder k₁ k₂ d₁' d₂' e₁ e₂ hd₁' hd₂' he₁' he₂' hid
  · intro k' d hd
    simp only [Webhooks.setDispatcher, Function.update_apply] at hd
    split_ifs at hd with hkk
    · exact hprogress d hd
    · exact hw.progress k' d hd
  · intro e he hhanded hwants
    rcases hw.covered e he hhanded hwants with hsettled | ⟨k', d, hd, hentry⟩
    · exact .inl hsettled
    · by_cases hkk : k' = k
      · subst hkk
        rcases hlet d e (hk ▸ hd) hentry with ⟨d', hd', hentry'⟩ | hsettled
        · refine .inr ⟨k', d', ?_, hentry'⟩
          simp [Webhooks.setDispatcher, hd']
        · exact .inl (hsettled hwants)
      · refine .inr ⟨k', d, ?_, hentry⟩
        simpa [Webhooks.setDispatcher, hkk] using hd

/-- A worker moves on with the entry it has in hand. -/
theorem goto (hw : Attended maxRetries w) (hk : w.dispatchers k = some d)
    (hentry : pc.entry = d.pc.entry) (hprogress : Progress maxRetries w pc) :
    Attended maxRetries (w.goto k d pc) := by
  refine hw.replace hk ?_ ?_ ?_
  · rintro _ e ⟨⟩ he
    exact ⟨d, rfl, hentry ▸ he⟩
  · rintro _ ⟨⟩
    exact hprogress
  · rintro _ e ⟨⟩ he
    exact .inl ⟨_, rfl, hentry.trans he⟩

/-- A worker goes back to reading, or leaves the loop. -/
theorem letGo (hw : Attended maxRetries w) (hk : w.dispatchers k = some d)
    (hpc : pc = .reading ∨ pc = .exited)
    (hlet : ∀ e, d.pc.entry = some e → WantsWebhook e → w.Settled maxRetries e.1) :
    Attended maxRetries (w.goto k d pc) := by
  have hnone : pc.entry = none := by rcases hpc with rfl | rfl <;> rfl
  refine hw.replace hk ?_ ?_ ?_
  · rintro _ e ⟨⟩ he
    exact absurd (hnone.symm.trans he) (by simp)
  · rintro _ ⟨⟩
    rcases hpc with rfl | rfl <;> trivial
  · rintro _ e ⟨⟩ he
    exact .inr (hlet e he)

/-- The group may be replaced by one that has handed out the same entries. -/
theorem setGroup (hw : Attended maxRetries w) {group : Option ConsumerGroup}
    (hcursor : ∀ g, group = some g → g.lastDelivered ≤ w.stream.lastId)
    (hhanded : ∀ id, w.Handed id → Webhooks.Handed { w with group } id)
    (hhanded' : ∀ e ∈ w.stream.log, Webhooks.Handed { w with group } e.1 → w.Handed e.1) :
    Attended maxRetries { w with group } where
  untrimmed := hw.untrimmed
  positive := hw.positive
  cursor := hcursor
  held k d e hd he := ⟨(hw.held k d e hd he).1, hhanded _ (hw.held k d e hd he).2⟩
  holder := hw.holder
  posted p hp := hhanded _ (hw.posted p hp)
  progress := hw.progress
  covered e he h := hw.covered e he (hhanded' e he h)

theorem ack (hw : Attended maxRetries w) (id : ℕ) :
    Attended maxRetries { w with group := w.group.map fun g => g.ack id } := by
  have hiff (id' : ℕ) :
      Webhooks.Handed { w with group := w.group.map fun g => g.ack id } id' ↔ w.Handed id' := by
    cases hg : w.group <;> simp [Webhooks.Handed, hg]
  refine hw.setGroup (fun g hg => ?_) (fun id' => (hiff id').mpr) (fun e _ => (hiff e.1).mp)
  obtain ⟨g', hg', rfl⟩ := Option.map_eq_some_iff.mp hg
  exact hw.cursor g' hg'

theorem init (hw : Attended maxRetries w) :
    Attended maxRetries { w with group := some (w.group.getD .create) } := by
  cases hg : w.group with
  | some g =>
    have heq : ({ w with group := some ((some g).getD .create) } : Webhooks) = w := by
      rw [Option.getD_some, ← hg]
    exact heq.symm ▸ hw
  | none =>
    refine hw.setGroup ?_ ?_ ?_
    · rintro g ⟨⟩
      exact Nat.zero_le _
    · rintro id ⟨g, hg', -⟩
      exact absurd (hg.symm.trans hg') (by simp)
    · rintro e he ⟨g, ⟨⟩, hle⟩
      exact absurd hle (Nat.not_le_of_lt (hw.positive e he))

/-- An entry is added to the stream; it was not handed to anybody yet. -/
theorem append (hw : Attended maxRetries w) (ev : Event) (now : ℕ) :
    Attended maxRetries { w with stream := w.stream.xadd 10000 ⟨now, 0⟩ ev } where
  untrimmed := Stream.trimmed_xadd_of_drop hw.untrimmed rfl
  positive e he := by
    rcases Stream.mem_log_xadd.mp he with he | rfl
    · exact hw.positive e he
    · exact Nat.lt_of_le_of_lt (Nat.zero_le _) (Stream.lastId_lt_nextId now)
  cursor g hg := by
    rw [Stream.lastId_xadd]
    exact Nat.le_of_lt (Nat.lt_of_le_of_lt (hw.cursor g hg) (Stream.lastId_lt_nextId now))
  held k d e hd he :=
    ⟨Stream.mem_log_xadd.mpr (.inl (hw.held k d e hd he).1), (hw.held k d e hd he).2⟩
  holder := hw.holder
  posted := hw.posted
  progress := hw.progress
  covered e he hhanded hwants := by
    rcases Stream.mem_log_xadd.mp he with he | rfl
    · exact hw.covered e he hhanded hwants
    · obtain ⟨g, hg, hle⟩ := hhanded
      exact absurd (Nat.le_trans hle (hw.cursor g hg))
        (Nat.not_le_of_lt (Stream.lastId_lt_nextId now))

/-- A worker reads an entry. -/
theorem read (hw : Attended maxRetries w) {g g' : ConsumerGroup} (hk : w.dispatchers k = some d)
    (hreading : d.pc = .reading) (hgroup : w.group = some g)
    (hread : g.readNew w.stream d.consumer = some (e, g')) :
    Attended maxRetries { w.goto k d (.handed e) with group := some g' } := by
  obtain ⟨hlast, hlt⟩ := ConsumerGroup.lastDelivered_of_readNew hread
  have he : e ∈ w.stream.log := ConsumerGroup.mem_log_of_readNew hread
  have hmono : ∀ id, w.Handed id → id ≤ g.lastDelivered := by
    rintro id ⟨g₀, hg₀, hle⟩
    obtain rfl := Option.some_inj.mp (hgroup.symm.trans hg₀)
    exact hle
  have hhanded : ∀ id, w.Handed id →
      Webhooks.Handed { w.goto k d (.handed e) with group := some g' } id := fun id hid =>
    ⟨g', rfl, hlast ▸ Nat.le_trans (hmono id hid) (Nat.le_of_lt hlt)⟩
  -- whoever has an entry in hand afterwards is `k` with the new entry, or had it before
  have hback : ∀ k' d' e', (w.goto k d (.handed e)).dispatchers k' = some d' →
      d'.pc.entry = some e' → (k' = k ∧ e' = e) ∨ (k' ≠ k ∧ w.dispatchers k' = some d') := by
    intro k' d' e' hd' he'
    simp only [Webhooks.goto, Webhooks.setDispatcher, Function.update_apply] at hd'
    split_ifs at hd' with hkk
    · obtain rfl := Option.some_inj.mp hd'
      exact .inl ⟨hkk, (Option.some_inj.mp he').symm⟩
    · exact .inr ⟨hkk, hd'⟩
  refine ⟨hw.untrimmed, hw.positive, ?_, ?_, ?_, fun p hp => hhanded _ (hw.posted p hp), ?_, ?_⟩
  · rintro _ ⟨⟩
    exact hlast ▸ Stream.id_le_lastId he
  · intro k' d' e' hd' he'
    rcases hback k' d' e' hd' he' with ⟨-, rfl⟩ | ⟨-, hold⟩
    · exact ⟨he, g', rfl, hlast.symm ▸ Nat.le_refl _⟩
    · exact ⟨(hw.held k' d' e' hold he').1, hhanded _ (hw.held k' d' e' hold he').2⟩
  · intro k₁ k₂ d₁ d₂ e₁ e₂ hd₁ hd₂ he₁ he₂ hid
    have hnew {k' d' e'} (hold : w.dispatchers k' = some d') (he' : d'.pc.entry = some e') :
        e'.1 ≠ e.1 := by
      have := hmono _ (hw.held k' d' e' hold he').2
      omega
    rcases hback k₁ d₁ e₁ hd₁ he₁ with ⟨rfl, rfl⟩ | ⟨-, hold₁⟩ <;>
      rcases hback k₂ d₂ e₂ hd₂ he₂ with ⟨rfl, rfl⟩ | ⟨-, hold₂⟩
    · rfl
    · exact absurd hid.symm (hnew hold₂ he₂)
    · exact absurd hid (hnew hold₁ he₁)
    · exact hw.holder k₁ k₂ d₁ d₂ e₁ e₂ hold₁ hold₂ he₁ he₂ hid
  · intro k' d' hd'
    simp only [Webhooks.goto, Webhooks.setDispatcher, Function.update_apply] at hd'
    split_ifs at hd' with hkk
    · obtain rfl := Option.some_inj.mp hd'
      -- nothing was POSTed for an entry nobody had
      change List.countP _ w.posts = 0
      rw [List.countP_eq_zero]
      intro p hp
      have := hmono _ (hw.posted p hp)
      have hne : p.entry ≠ e.1 := by omega
      simp [hne]
    · exact hw.progress k' d' hd'
  · intro e' he' hhanded' hwants
    obtain ⟨g₀, hg₀, hle⟩ := hhanded'
    obtain rfl := Option.some_inj.mp hg₀
    rcases ConsumerGroup.handed_of_readNew hw.untrimmed hread he' hle with hle | rfl
    · rcases hw.covered e' he' ⟨g, hgroup, hle⟩ hwants with hsettled | ⟨k', d', hd', hentry⟩
      · exact .inl hsettled
      · have hkk : k' ≠ k := by
          rintro rfl
          obtain rfl := Option.some_inj.mp (hk.symm.trans hd')
          simp [hreading, Pc.entry] at hentry
        refine .inr ⟨k', d', ?_, hentry⟩
        simpa [Webhooks.goto, Webhooks.setDispatcher, hkk] using hd'
    · exact .inr ⟨k, { d with pc := .handed e' }, by simp [Webhooks.goto, Webhooks.setDispatcher],
        rfl⟩

/-! ### A POST -/

theorem failures_addPost {post : Post} {id : ℕ} :
    (w.addPost k d pc post).failures id =
      w.failures id + if post.entry = id && !success post.status then 1 else 0 := by
  simp [Webhooks.addPost, Webhooks.failures, List.countP_append, List.countP_singleton]

theorem delivered_addPost {post : Post} {id : ℕ} :
    (w.addPost k d pc post).Delivered id ↔
      w.Delivered id ∨ (post.entry = id ∧ success post.status = true) := by
  simp only [Webhooks.addPost, Webhooks.Delivered, List.mem_append, List.mem_singleton]
  constructor
  · rintro ⟨p, hp | rfl, hpost⟩
    · exact .inl ⟨p, hp, hpost⟩
    · exact .inr hpost
  · rintro (⟨p, hp, hpost⟩ | hpost)
    · exact ⟨p, .inl hp, hpost⟩
    · exact ⟨post, .inr rfl, hpost⟩

/-- A POST for another entry does not change what was done for this one. -/
theorem progress_addPost {post : Post} {pc' : Pc}
    (hother : ∀ e, pc'.entry = some e → post.entry ≠ e.1) (h : Progress maxRetries w pc') :
    Progress maxRetries (w.addPost k d pc post) pc' := by
  have hfailures (e : Entry) (he : pc'.entry = some e) :
      (w.addPost k d pc post).failures e.1 = w.failures e.1 := by
    simp [failures_addPost, hother e he]
  cases pc' with
  | starting | reading | exited => trivial
  | handed e => exact (hfailures e rfl).trans h
  | attempt e | posting e | backoff e => exact ⟨h.1, (hfailures e rfl).trans h.2.1, h.2.2⟩
  | delivered e => exact delivered_addPost.mpr (.inl h)
  | exhausted e => exact (hfailures e rfl).trans h
  | plain e => exact h

theorem answer (hw : Attended maxRetries w) {post : Post} (hk : w.dispatchers k = some d)
    (hd : d.pc.entry = some e) (hentry : pc.entry = some e) (hpost : post.entry = e.1)
    (hprogress : Progress maxRetries (w.addPost k d pc post) pc) :
    Attended maxRetries (w.addPost k d pc post) := by
  have hback : ∀ k' d' e', (w.addPost k d pc post).dispatchers k' = some d' →
      d'.pc.entry = some e' → ∃ d'', w.dispatchers k' = some d'' ∧ d''.pc.entry = some e' := by
    intro k' d' e' hd' he'
    simp only [Webhooks.addPost, Webhooks.goto, Webhooks.setDispatcher,
      Function.update_apply] at hd'
    split_ifs at hd' with hkk
    · obtain rfl := Option.some_inj.mp hd'
      exact ⟨d, hkk ▸ hk, hd.trans (hentry.symm.trans he')⟩
    · exact ⟨d', hd', he'⟩
  refine ⟨hw.untrimmed, hw.positive, hw.cursor, ?_, ?_, ?_, ?_, ?_⟩
  · intro k' d' e' hd' he'
    obtain ⟨d'', hd'', he''⟩ := hback k' d' e' hd' he'
    exact hw.held k' d'' e' hd'' he''
  · intro k₁ k₂ d₁ d₂ e₁ e₂ hd₁ hd₂ he₁ he₂ hid
    obtain ⟨d₁', hd₁', he₁'⟩ := hback k₁ d₁ e₁ hd₁ he₁
    obtain ⟨d₂', hd₂', he₂'⟩ := hback k₂ d₂ e₂ hd₂ he₂
    exact hw.holder k₁ k₂ d₁' d₂' e₁ e₂ hd₁' hd₂' he₁' he₂' hid
  · intro p hp
    rcases List.mem_append.mp hp with hp | hp
    · exact hw.posted p hp
    · obtain rfl := List.mem_singleton.mp hp
      exact hpost ▸ (hw.held k d e hk hd).2
  · intro k' d' hd'
    simp only [Webhooks.addPost, Webhooks.goto, Webhooks.setDispatcher,
      Function.update_apply] at hd'
    split_ifs at hd' with hkk
    · obtain rfl := Option.some_inj.mp hd'
      exact hprogress
    · refine progress_addPost (fun e' he' hid => hkk ?_) (hw.progress k' d' hd')
      exact hw.holder k' k d' d e' e hd' hk he' hd (hid.symm.trans hpost)
  · intro e' he' hhanded hwants
    by_cases hid : e'.1 = e.1
    · obtain rfl := Stream.eq_of_id_eq he' (hw.held k d e hk hd).1 hid
      refine .inr ⟨k, { d with pc }, ?_, hentry⟩
      simp [Webhooks.addPost, Webhooks.goto, Webhooks.setDispatcher]
    · have hne : post.entry ≠ e'.1 := fun h => hid (h.symm.trans hpost)
      rcases hw.covered e' he' hhanded hwants with (hdelivered | hfailed) | ⟨k', d', hd', hentry'⟩
      · exact .inl (.inl (delivered_addPost.mpr (.inl hdelivered)))
      · refine .inl (.inr ?_)
        simpa [failures_addPost, hne] using hfailed
      · have hkk : k' ≠ k := by
          rintro rfl
          obtain rfl := Option.some_inj.mp (hk.symm.trans hd')
          exact hid (congrArg Prod.fst (Option.some.inj (hentry'.symm.trans hd)))
        refine .inr ⟨k', d', ?_, hentry'⟩
        simpa [Webhooks.addPost, Webhooks.goto, Webhooks.setDispatcher, hkk] using hd'

/-! ### Every step -/

/-- The stop flag is looked at before an event is processed. -/
theorem check (hw : Attended maxRetries w) (hk : w.dispatchers k = some d)
    (hgood : w.SeesThrough maxRetries (.act k .check)) (hpc : d.pc = .handed e)
    (hnone : w.failures e.1 = 0) :
    Attended maxRetries (w.goto k d (if d.stopped then .exited else beginEvent e)) := by
  split_ifs with hstopped
  · refine hw.letGo hk (.inr rfl) fun e' he' => hgood.2 e' ?_
    rw [hpc] at he'
    obtain rfl : e = e' := Option.some.inj he'
    obtain ⟨consumer, stopped, pc⟩ := d
    obtain rfl : pc = .handed e := hpc
    obtain rfl : stopped = true := hstopped
    simp [Webhooks.abandons, hk]
  · unfold beginEvent
    split
    next herror =>
      -- no callback URL can be read from the event
      refine hw.letGo hk (.inl rfl) fun e' he' hannounced => ?_
      obtain ⟨url, hurl⟩ := hannounced
      obtain rfl : e = e' := by simpa [hpc, Pc.entry] using he'
      exact absurd (herror.symm.trans hurl) (by simp)
    next hplain =>
      refine hw.goto hk (by simp [hpc, Pc.entry]) ?_
      rintro ⟨url, hurl⟩
      exact absurd (hplain.symm.trans hurl) (by simp)
    next hurl =>
      exact hw.goto hk (by simp [hpc, Pc.entry]) ⟨hurl, hnone, Nat.zero_le _⟩

/-- The loop over the attempts goes on while there are attempts and no stop flag. -/
theorem attempt (hw : Attended maxRetries w) (hk : w.dispatchers k = some d)
    (hgood : w.SeesThrough maxRetries (.act k .attempt)) {url : Json} {n : ℕ}
    (hpc : d.pc = .attempt e url n) (hprogress : Progress maxRetries w (.attempt e url n)) :
    Attended maxRetries (w.goto k d (
      if n < maxRetries then if d.stopped then .reading else .posting e url n
      else .exhausted e)) := by
  obtain ⟨hurl, hfailures, hle⟩ := hprogress
  split_ifs with hlt hstopped
  · refine hw.letGo hk (.inl rfl) fun e' he' => hgood.2 e' ?_
    rw [hpc] at he'
    obtain rfl : e = e' := Option.some.inj he'
    obtain ⟨consumer, stopped, pc⟩ := d
    obtain rfl : pc = .attempt e url n := hpc
    obtain rfl : stopped = true := hstopped
    simp [Webhooks.abandons, hk, hlt]
  · exact hw.goto hk (by simp [hpc, Pc.entry]) ⟨hurl, hfailures, hlt⟩
  · -- the attempts are used up, and each of them failed
    refine hw.goto hk (by simp [hpc, Pc.entry]) ?_
    change w.failures e.1 = maxRetries
    omega

/-- After a POST, the attempts that failed are those that were made. -/
theorem progress_answered {url : Json} {n : ℕ} {status : Option ℕ}
    (hprogress : Progress maxRetries w (.posting e url n)) (hpc : pc =
      if success status then .delivered e url n else afterFailure maxRetries e url n) :
    Progress maxRetries (w.addPost k d pc ⟨e.1, url, webhookBody e.2.data, status⟩) pc := by
  obtain ⟨hurl, hfailures, hlt⟩ := hprogress
  subst hpc
  split_ifs with hsuccess
  · exact delivered_addPost.mpr (.inr ⟨rfl, hsuccess⟩)
  · have hfailed : (w.addPost k d (afterFailure maxRetries e url n)
        ⟨e.1, url, webhookBody e.2.data, status⟩).failures e.1 = n + 1 := by
      simp [failures_addPost, hfailures, hsuccess]
    unfold afterFailure at hfailed ⊢
    split_ifs at hfailed ⊢ with hmore
    · exact ⟨hurl, hfailed, hmore⟩
    · exact ⟨hurl, hfailed, hlt⟩

/-- An entry is acknowledged when nothing is left to do for it. -/
theorem acknowledge (hw : Attended maxRetries w) (hk : w.dispatchers k = some d) {ok : Bool}
    (hgood : w.SeesThrough maxRetries (.act k (.ack ok))) (hentry : d.pc.entry = some e)
    (hsettled : WantsWebhook e → w.Settled maxRetries e.1) :
    Attended maxRetries (w.acknowledge k d e pc ok) := by
  cases ok with
  | false => exact absurd hgood.1 (by simp [Action.ackOk])
  | true =>
    refine (hw.letGo hk (.inl rfl) fun e' he' hwants => ?_).ack e.1
    obtain rfl := Option.some_inj.mp (hentry.symm.trans he')
    exact hsettled hwants

/-- **Step lemma for a worker**, one case for each place it can stand in. -/
theorem dispatcherStep {a : Act} (hw : Attended maxRetries w) (hk : w.dispatchers k = some d)
    (hgood : w.SeesThrough maxRetries (.act k a)) (hpc : d.pc = pc)
    (hstep : DispatcherStep maxRetries w k d pc a w') : Attended maxRetries w' := by
  have hprogress := hw.progress k d hk
  have hentry : d.pc.entry = pc.entry := by rw [hpc]
  rw [hpc] at hprogress
  cases hstep with
  | init =>
    have hgone := hw.letGo hk (.inl rfl) (by simp [hpc, Pc.entry])
    exact hgone.init
  | read hgroup hread => exact hw.read hk hpc hgroup hread
  | check => exact hw.check hk hgood hpc hprogress
  | attempt => exact hw.attempt hk hgood hpc hprogress
  | answer =>
    refine hw.answer hk hentry ?_ rfl (progress_answered hprogress rfl)
    unfold afterFailure
    split_ifs <;> rfl
  | ackDelivered => exact hw.acknowledge hk hgood hentry fun _ => .inl hprogress
  | wake =>
    obtain ⟨hurl, hfailures, hlt⟩ := hprogress
    exact hw.goto hk hentry.symm ⟨hurl, hfailures, Nat.le_of_lt hlt⟩
  | ackExhausted => exact hw.acknowledge hk hgood hentry fun _ => .inr hprogress
  | ackPlain => exact hw.acknowledge hk hgood hentry fun hwants => absurd hwants hprogress

/-- **Step lemma.** -/
theorem step {a : Action} (hw : Attended maxRetries w) (hgood : w.SeesThrough maxRetries a)
    (hstep : WebhookStep maxRetries w a w') : Attended maxRetries w' := by
  cases hstep with
  | append => exact hw.append _ _
  | start habsent =>
    refine hw.replace habsent ?_ ?_ (by simp)
    · rintro _ e ⟨⟩ he
      exact absurd he (by simp [Pc.entry])
    · rintro _ ⟨⟩
      trivial
  | @stop k d hk =>
    refine hw.replace hk ?_ ?_ ?_
    · rintro _ e ⟨⟩ he
      exact ⟨d, rfl, he⟩
    · rintro _ ⟨⟩
      exact hw.progress k d hk
    · rintro _ e ⟨⟩ he
      exact .inl ⟨_, rfl, he⟩
  | @crash k d hk =>
    refine hw.replace hk (by simp) (by simp) ?_
    rintro _ e ⟨⟩ he
    refine .inr (hgood.2 e ?_)
    simp [Webhooks.abandons, hk, he]
  | act hk hstep => exact hw.dispatcherStep hk hgood rfl hstep

end Attended

/-! ### Runs -/

/-- Quiet states of the invariant have nothing left to do. -/
theorem Attended.settled {maxRetries : ℕ} {w : Webhooks} (hw : Attended maxRetries w)
    (hquiet : w.Quiet) {e : Entry} (he : e ∈ w.stream.log) (hwants : WantsWebhook e) :
    w.Settled maxRetries e.1 := by
  obtain ⟨k, d, g, hk, hreading, -, hgroup, hnone, hothers⟩ := hquiet
  have hhanded : w.Handed e.1 :=
    ⟨g, hgroup, (ConsumerGroup.readNew_eq_none_iff hw.untrimmed).mp hnone e he⟩
  rcases hw.covered e he hhanded hwants with hsettled | ⟨k', d', hk', hentry⟩
  · exact hsettled
  · by_cases hkk : k' = k
    · subst hkk
      obtain rfl := Option.some_inj.mp (hk.symm.trans hk')
      simp [hreading, Pc.entry] at hentry
    · simp [hothers k' d' hk' hkk, Pc.entry] at hentry

/-- **Delivery.** In every run in which no worker lets go of an unsettled event that wants a
webhook, all events that want one are settled whenever the system is quiet. -/
theorem settled_of_quiet {maxRetries : ℕ} {acts : List Action} {w : Webhooks}
    (hgood : (machine maxRetries).AllSteps (fun w a => w.SeesThrough maxRetries a) .empty acts)
    (hrun : (machine maxRetries).run acts = some w) (hquiet : w.Quiet) :
    ∀ e ∈ w.stream.log, WantsWebhook e → w.Settled maxRetries e.1 := by
  have hw : Attended maxRetries w :=
    Machine.run_invariant (fun hw hgood hstep => hw.step hgood (webhookStep_of_step hstep))
      (attended_empty maxRetries) hgood hrun
  exact fun e he hwants => hw.settled hquiet he hwants

/-! ### An event in the hands of a worker that stops -/

/-- A final event for a request with a callback URL. -/
def withCallback : Event :=
  ⟨0, "alice", .obj [("status", .str "done"), ("response", .str "hello"),
    ("request_payload", .obj [("message", .str "hi"), ("callbackUrl", .str "http://callback")]),
    ("_session_id", .str "api:direct")]⟩

/-- A worker delivers the event at the second attempt. -/
def deliveredLate : List Action :=
  [.append withCallback 5, .start 0 "worker", .act 0 .init, .act 0 .read, .act 0 .check,
    .act 0 .attempt, .act 0 (.answer none), .act 0 .wake, .act 0 .attempt,
    .act 0 (.answer (some 200)), .act 0 (.ack true)]

theorem settled_of_quiet_deliveredLate :
    ∃ w, (machine 3).run deliveredLate = some w ∧
      ∀ e ∈ w.stream.log, WantsWebhook e → w.Settled 3 e.1 := by
  refine ⟨_, rfl, @settled_of_quiet 3 deliveredLate _ (by decide) rfl ?_⟩
  refine ⟨0, _, _, rfl, rfl, rfl, rfl, rfl, fun k' d' hd' hne => ?_⟩
  rcases k' with _ | k'
  · exact absurd rfl hne
  · exact absurd (show none = some d' from hd') (by simp)

/-- A worker has read the event when its stop flag is set; a second worker takes over. -/
def stoppedWithEvent : List Action :=
  [.append withCallback 5, .start 0 "worker", .act 0 .init, .act 0 .read, .stop 0, .act 0 .check,
    .start 1 "worker", .act 1 .init]

/-- Delivery is not guaranteed across restarts: the event of a worker that stops after reading
it is never POSTed, although another worker of the group is waiting for work. -/
theorem abandoned_on_stop :
    ¬ ∀ maxRetries acts w, (∀ a ∈ acts, a.ackOk = true) →
      (machine maxRetries).run acts = some w → w.Quiet →
        ∀ e ∈ w.stream.log, WantsWebhook e → w.Settled maxRetries e.1 := by
  intro hclaim
  obtain ⟨w, hrun, hquiet, hlog, hunsettled⟩ : ∃ w, (machine 3).run stoppedWithEvent = some w ∧
      w.Quiet ∧ (5, withCallback) ∈ w.stream.log ∧ ¬ w.Settled 3 5 := by
    refine ⟨_, rfl, ⟨1, _, _, rfl, rfl, rfl, rfl, rfl, fun k' d' hd' hne => ?_⟩, by decide,
      by decide⟩
    rcases k' with _ | _ | k'
    · exact (Option.some.inj hd') ▸ rfl
    · exact absurd rfl hne
    · exact absurd (show none = some d' from hd') (by simp)
  exact hunsettled (hclaim 3 stoppedWithEvent w (by decide) hrun hquiet _ hlog (by decide))

end Nanogate.Webhook
