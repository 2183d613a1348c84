import Nanogate.Tenants.Calls

/-!
# Scanning the stored records

A new process reads every state key back into its cache, and the pruner goes over the same keys
once a minute. Both take the tenant from the key by `key.replace(prefix, "")`, which removes the
prefix wherever it occurs, also inside the id. And a pass of the pruner ends at the first
`stop_tenant` that raises.

## Main definitions

* `Stored` — records that `_save_state` put, and nothing that fails
* `Reloaded` — the cache and the records are what the records said
* `Recovers` — that, and the pruner stops the tenants that are idle
* `Legible` — no id, and no file, stands in the way

## Main results

* `scanned_of_reloadKeys` — what the loop over the keys has done
* `mem_stopCalls_iff` — the tenants that a pass comes to
* `recovers_iff` — scanning recovers the tenants exactly from legible records
-/

namespace Nanogate.Tenants

open Nanogate.Python Nanogate.Semantics Relation

/-! ### Records -/

/-- Redis and Docker are there, no call fails, and each record is where `_save_state` puts it. -/
structure Stored (w : World) : Prop where
  hasClient : w.hasClient = true
  redisWorks : w.RedisWorks
  dockerFaults : w.dockerFaults = []
  fileFaults : w.fileFaults = []
  own : ∀ key state, w.redis.get key = some state → key = stateKey state.tenantId

/-- The record says running, with a container that exists. -/
def World.Runs (w : World) (state : TenantState) : Prop :=
  ∃ id, state.runningContainer = some id ∧ (w.containers.get id).isSome = true

/-- The record says running, with a container that does not exist. -/
def World.Lost (w : World) (state : TenantState) : Prop :=
  ∃ id, state.runningContainer = some id ∧ w.containers.get id = none

/-- The record says running, and nothing happened for longer than the timeout. -/
def TenantState.Idle (state : TenantState) (now : Int) : Prop :=
  state.status = .running ∧ idleTimeout < now - state.lastActivity

instance (state : TenantState) (now : Int) : Decidable (state.Idle now) :=
  inferInstanceAs (Decidable (_ ∧ _))

/-- What reloading the records of `w` is to make of the cache and of the records. -/
structure Reloaded (w u : World) : Prop where
  running : ∀ t, (u.tenants.get t).isSome = true ↔
    ∃ state, w.redis.get (stateKey t) = some state ∧ w.Runs state
  entry : ∀ t tc state, u.tenants.get t = some tc → w.redis.get (stateKey t) = some state →
    tc.tenantId = t ∧ state.containerId = some tc.containerId ∧ tc.port = state.port ∧
      tc.configDir = state.configDir
  missing : ∀ t state, w.redis.get (stateKey t) = some state → w.Lost state →
    u.redis.get (stateKey t) = some state.markStopped
  others : ∀ key, (∀ state, w.redis.get key = some state → ¬w.Lost state) →
    u.redis.get key = w.redis.get key

/-- A pass of the pruner goes over the tenants `ts`, and calls `stop_tenant` on `called`. -/
structure Passes (host : Host) (w : World) (keys ts called : List String) : Prop where
  found : (toPrune keys).run w = .ok ts w
  loop : (prunePass host keys).run w = .ok () (endState (stopAll host ts) w)
  called : called = (stopCalls host w ts).map Call.tenantId

/-- A new process reloads the records of `w`, and a pass of the pruner calls `stop_tenant` on the
tenants that are idle. -/
structure Recovers (host : Host) (w : World) (keys : List String) : Prop where
  reloaded : Reloaded w (endState (reloadRunning keys) { w with tenants := .empty })
  pruned : ∃ ts called, Passes host w keys ts called ∧ ∀ t, t ∈ called ↔
    ∃ state, w.redis.get (stateKey t) = some state ∧ state.Idle w.now

/-- The ids that must be read back can be, and `stop_tenant` raises only where no other idle tenant
comes later. -/
structure Legible (host : Host) (w : World) (keys : List String) : Prop where
  running : ∀ t state, w.redis.get (stateKey t) = some state → w.Runs state →
    ¬Occurs statePrefix t
  idle : ∀ t state, w.redis.get (stateKey t) = some state → state.Idle w.now →
    ∃ t', (w.redis.get (stateKey t')).isSome = true ∧ remove statePrefix t' = t
  stops : ∀ s ∈ w.stale keys, w.StopRaises host s → ∀ t ∈ w.stale keys,
    (w.stale keys).idxOf t ≤ (w.stale keys).idxOf s

/-! ### Ids and keys -/

section Keys

variable {t : String} {keys : List String} {w : World}

theorem statePrefix_ne_empty : statePrefix ≠ "" := by decide

theorem tenantOfKey_stateKey (t : String) : tenantOfKey (stateKey t) = remove statePrefix t :=
  remove_append_self statePrefix_ne_empty

/-- The key gives back its tenant exactly where the prefix does not occur in the id. -/
theorem tenantOfKey_eq_iff : tenantOfKey (stateKey t) = t ↔ ¬Occurs statePrefix t := by
  rw [tenantOfKey_stateKey, remove_eq_self_iff statePrefix_ne_empty]

/-- The tenants that are looked at, whatever the order of the keys. -/
theorem mem_map_tenantOfKey (hw : Stored w) (hkeys : keys.Perm w.redis.keys) :
    t ∈ keys.map tenantOfKey ↔
      ∃ t', (w.redis.get (stateKey t')).isSome = true ∧ remove statePrefix t' = t := by
  rw [List.mem_map]
  constructor
  · rintro ⟨key, hkey, rfl⟩
    obtain ⟨state, hstate⟩ := Dict.mem_keys_iff.mp (hkeys.mem_iff.mp hkey)
    obtain rfl := hw.own key state hstate
    exact ⟨state.tenantId, by rw [hstate]; rfl, (tenantOfKey_stateKey _).symm⟩
  · rintro ⟨t', hsome, rfl⟩
    obtain ⟨state, hstate⟩ := Option.isSome_iff_exists.mp hsome
    exact ⟨stateKey t', hkeys.mem_iff.mpr (Dict.mem_keys_iff.mpr ⟨state, hstate⟩),
      tenantOfKey_stateKey t'⟩

end Keys

/-! ### The loop over the keys -/

/-- One round of the loop of `_reload_running_from_redis`. -/
def World.reload (u : World) (key : String) : World :=
  match u.redis.get key with
  | none => u
  | some state =>
    match state.runningContainer with
    | none => u
    | some id =>
      if (u.containers.get id).isSome then
        { u with tenants := u.tenants.set (tenantOfKey key) (state.toContainer id) }
      else u.put state.markStopped

/-- What the loop has made of the records of `w` once it went over the keys `seen`. -/
structure Scanned (w : World) (seen : List String) (u : World) : Prop where
  redisWorks : u.RedisWorks
  dockerFaults : u.dockerFaults = []
  containers : u.containers = w.containers
  unseen : ∀ key, key ∉ seen → u.redis.get key = w.redis.get key
  lost : ∀ key ∈ seen, ∀ state, w.redis.get key = some state → w.Lost state →
    u.redis.get key = some state.markStopped
  kept : ∀ key, (∀ state, w.redis.get key = some state → ¬w.Lost state) →
    u.redis.get key = w.redis.get key
  cached : ∀ key ∈ seen, ∀ state, w.redis.get key = some state → w.Runs state →
    (u.tenants.get (tenantOfKey key)).isSome = true
  entry : ∀ t tc, u.tenants.get t = some tc → ∃ key ∈ seen, ∃ state id, tenantOfKey key = t ∧
    w.redis.get key = some state ∧ state.runningContainer = some id ∧
      (w.containers.get id).isSome = true ∧ tc = state.toContainer id

section Reload

variable {w u : World} {seen keys : List String} {key t : String} {state : TenantState}

theorem reloadKey_run (hworks : u.RedisWorks) (hdocker : u.dockerFaults = []) :
    (reloadKeys [key]).run u = .ok () (u.reload key) := by
  have hcalled : u.dockerFaults.tail = u.dockerFaults := by rw [hdocker]; rfl
  simp only [reloadKeys, EStateM.run_bind, redisGet_run_of_works hworks]
  unfold World.reload
  cases hstate : u.redis.get key with
  | none => rfl
  | some state =>
    dsimp only
    cases hrun : state.runningContainer with
    | none => rfl
    | some id =>
      simp only [EStateM.run_bind, containerExists_run, hcalled]
      cases hsome : (u.containers.get id).isSome with
      | true => simp [hdocker, cache]
      | false => simp [saveState_run_of_works hworks]

theorem Stored.scanned_nil (hw : Stored w) : Scanned w [] { w with tenants := .empty } where
  redisWorks := hw.redisWorks
  dockerFaults := hw.dockerFaults
  containers := rfl
  unseen _ _ := rfl
  lost := by simp
  kept _ _ := rfl
  cached := by simp
  entry _ _ h := by simp at h

theorem not_lost_of_runningContainer {v : World} (h : state.runningContainer = none) :
    ¬v.Lost state := by
  rintro ⟨id, hid, -⟩
  exact absurd (h.symm.trans hid) (by simp)

theorem not_lost_of_runs (h : w.Runs state) : ¬w.Lost state := by
  rintro ⟨id', hid', hnone⟩
  obtain ⟨id, hid, hsome⟩ := h
  obtain rfl := Option.some.inj (hid.symm.trans hid')
  simp [hnone] at hsome

/-- A key of a record that is not there, or does not say running, changes nothing. -/
theorem Scanned.skip (h : Scanned w seen u)
    (hnone : ∀ state, w.redis.get key = some state → state.runningContainer = none) :
    Scanned w (seen ++ [key]) u where
  redisWorks := h.redisWorks
  dockerFaults := h.dockerFaults
  containers := h.containers
  unseen k hk := h.unseen k fun hmem => hk (List.mem_append_left _ hmem)
  lost k hk state hstate hlost := by
    rcases List.mem_append.mp hk with hk | hk
    · exact h.lost k hk state hstate hlost
    · obtain rfl := List.mem_singleton.mp hk
      exact absurd hlost (not_lost_of_runningContainer (hnone state hstate))
  kept := h.kept
  cached k hk state hstate hruns := by
    rcases List.mem_append.mp hk with hk | hk
    · exact h.cached k hk state hstate hruns
    · obtain rfl := List.mem_singleton.mp hk
      obtain ⟨id, hid, -⟩ := hruns
      exact absurd ((hnone state hstate).symm.trans hid) (by simp)
  entry t tc htc := by
    obtain ⟨k, hk, hentry⟩ := h.entry t tc htc
    exact ⟨k, List.mem_append_left _ hk, hentry⟩

/-- The container exists, and the record enters the cache. -/
theorem Scanned.restore {id : ℕ} (h : Scanned w seen u) (hstate : w.redis.get key = some state)
    (hid : state.runningContainer = some id) (hsome : (w.containers.get id).isSome = true) :
    Scanned w (seen ++ [key])
      { u with tenants := u.tenants.set (tenantOfKey key) (state.toContainer id) } where
  redisWorks := h.redisWorks
  dockerFaults := h.dockerFaults
  containers := h.containers
  unseen k hk := h.unseen k fun hmem => hk (List.mem_append_left _ hmem)
  lost k hk state' hstate' hlost := by
    rcases List.mem_append.mp hk with hk | hk
    · exact h.lost k hk state' hstate' hlost
    · obtain rfl := List.mem_singleton.mp hk
      obtain rfl := Option.some.inj (hstate.symm.trans hstate')
      exact absurd hlost (not_lost_of_runs ⟨id, hid, hsome⟩)
  kept := h.kept
  cached k hk state' hstate' hruns := by
    by_cases hsame : tenantOfKey k = tenantOfKey key
    · rw [hsame, Dict.get_set_self]
      rfl
    · rw [Dict.get_set_of_ne hsame]
      rcases List.mem_append.mp hk with hk | hk
      · exact h.cached k hk state' hstate' hruns
      · exact absurd (congrArg tenantOfKey (List.mem_singleton.mp hk)) hsame
  entry t tc htc := by
    by_cases hsame : t = tenantOfKey key
    · subst hsame
      obtain rfl := Option.some.inj (Dict.get_set_self.symm.trans htc)
      exact ⟨key, by simp, state, id, rfl, hstate, hid, hsome, rfl⟩
    · rw [Dict.get_set_of_ne hsame] at htc
      obtain ⟨k, hk, hentry⟩ := h.entry t tc htc
      exact ⟨k, List.mem_append_left _ hk, hentry⟩

/-- The container does not exist, and the record is saved as stopped. -/
theorem Scanned.discard (h : Scanned w seen u) (hown : key = stateKey state.tenantId)
    (hstate : w.redis.get key = some state) (hlost : w.Lost state) :
    Scanned w (seen ++ [key]) (u.put state.markStopped) := by
  have hput : (u.put state.markStopped).redis = u.redis.set key state.markStopped := by
    rw [hown]
    rfl
  refine
    { redisWorks := h.redisWorks
      dockerFaults := h.dockerFaults
      containers := h.containers
      unseen := fun k hk => ?_
      lost := fun k hk state' hstate' hlost' => ?_
      kept := fun k hk => ?_
      cached := fun k hk state' hstate' hruns => ?_
      entry := fun t tc htc => ?_ }
  · have hne : k ≠ key := fun heq => hk (by simp [heq])
    rw [hput, Dict.get_set_of_ne hne]
    exact h.unseen k fun hmem => hk (List.mem_append_left _ hmem)
  · by_cases hsame : k = key
    · subst hsame
      obtain rfl := Option.some.inj (hstate.symm.trans hstate')
      rw [hput, Dict.get_set_self]
    · rw [hput, Dict.get_set_of_ne hsame]
      refine h.lost k ((List.mem_append.mp hk).resolve_right ?_) state' hstate' hlost'
      exact fun hmem => hsame (List.mem_singleton.mp hmem)
  · have hne : k ≠ key := fun heq => hk state (heq ▸ hstate) hlost
    rw [hput, Dict.get_set_of_ne hne, h.kept k hk]
  · rcases List.mem_append.mp hk with hk | hk
    · exact h.cached k hk state' hstate' hruns
    · obtain rfl := List.mem_singleton.mp hk
      obtain rfl := Option.some.inj (hstate.symm.trans hstate')
      exact absurd hlost (not_lost_of_runs hruns)
  · obtain ⟨k, hk, hentry⟩ := h.entry t tc htc
    exact ⟨k, List.mem_append_left _ hk, hentry⟩

/-- One more key. -/
theorem Scanned.reload (h : Scanned w seen u) (hw : Stored w) (hkey : key ∉ seen) :
    Scanned w (seen ++ [key]) (u.reload key) := by
  unfold World.reload
  rw [h.unseen key hkey]
  cases hstate : w.redis.get key with
  | none => exact h.skip (by simp [hstate])
  | some state =>
    dsimp only
    cases hid : state.runningContainer with
    | none =>
      refine h.skip fun state' hstate' => ?_
      rwa [← Option.some.inj (hstate.symm.trans hstate')]
    | some id =>
      dsimp only
      split_ifs with hsome
      · exact h.restore hstate hid (h.containers ▸ hsome)
      · rw [h.containers] at hsome
        exact h.discard (hw.own key state hstate) hstate ⟨id, hid, by simpa using hsome⟩

/-- **What the loop does.** Once it went over the keys, each in turn. -/
theorem scanned_of_reloadKeys (h : Scanned w seen u) (hw : Stored w)
    (hnodup : (seen ++ keys).Nodup) :
    ∃ v, (reloadKeys keys).run u = .ok () v ∧ Scanned w (seen ++ keys) v := by
  induction keys generalizing seen u with
  | nil => exact ⟨u, rfl, by rwa [List.append_nil]⟩
  | cons key keys ih =>
    have hkey : key ∉ seen := fun hmem =>
      (List.disjoint_of_nodup_append hnodup) hmem (List.mem_cons_self ..)
    have hsplit : seen ++ key :: keys = seen ++ [key] ++ keys := by simp
    rw [hsplit] at hnodup ⊢
    obtain ⟨v, hrun, hv⟩ := ih (h.reload hw hkey) hnodup
    refine ⟨v, ?_, hv⟩
    rw [reloadKeys_cons_run, reloadKey_run h.redisWorks h.dockerFaults]
    exact hrun

/-- The whole method, in a process whose cache is empty. -/
theorem scanned_of_reloadRunning (hw : Stored w) (hkeys : keys.Perm w.redis.keys) :
    Scanned w keys (endState (reloadRunning keys) { w with tenants := .empty }) := by
  have hnodup : ([] ++ keys).Nodup := hkeys.nodup_iff.mpr w.redis.nodup
  obtain ⟨v, hrun, hv⟩ := scanned_of_reloadKeys hw.scanned_nil hw hnodup
  have hend : (reloadRunning keys).run { w with tenants := .empty } = .ok () v := by
    have hboth : (w.hasRedis && w.hasClient) = true := by rw [hw.redisWorks.1, hw.hasClient]; rfl
    have hcall : redisCall.run { w with tenants := .empty } = .ok () { w with tenants := .empty } :=
      redisCall_run_of_works hw.redisWorks
    simp only [reloadRunning, EStateM.run_bind, EStateM.run_get, hboth, if_true, tryCatch_run,
      hcall, hrun]
  rw [endState_of_ok hend]
  exact hv

/-- An entry of the cache, if the ids of the running records can be read back: it is that of the
tenant's own record. -/
theorem Scanned.own_entry {tc : TenantContainer} (h : Scanned w seen u) (hw : Stored w)
    (hread : ∀ t state, w.redis.get (stateKey t) = some state → w.Runs state →
      ¬Occurs statePrefix t) (htc : u.tenants.get t = some tc) :
    ∃ state id, w.redis.get (stateKey t) = some state ∧ state.tenantId = t ∧
      state.runningContainer = some id ∧ (w.containers.get id).isSome = true ∧
        tc = state.toContainer id := by
  obtain ⟨key, -, state, id, rfl, hstate, hid, hsome, rfl⟩ := h.entry t tc htc
  obtain rfl := hw.own key state hstate
  have hback : tenantOfKey (stateKey state.tenantId) = state.tenantId :=
    tenantOfKey_eq_iff.mpr (hread _ state hstate ⟨id, hid, hsome⟩)
  exact ⟨state, id, by rw [hback, hstate], hback.symm, hid, hsome, rfl⟩

/-- Reloading recovers the tenants exactly if the ids of the running records can be read back. -/
theorem Scanned.reloaded_iff (h : Scanned w keys u) (hw : Stored w)
    (hkeys : keys.Perm w.redis.keys) : Reloaded w u ↔
      ∀ t state, w.redis.get (stateKey t) = some state → w.Runs state → ¬Occurs statePrefix t := by
  have hmem {key : String} {state : TenantState} (hstate : w.redis.get key = some state) :
      key ∈ keys := hkeys.mem_iff.mpr (Dict.mem_keys_iff.mpr ⟨state, hstate⟩)
  constructor
  · intro hreloaded t state hstate hruns
    obtain ⟨tc, htc⟩ :=
      Option.isSome_iff_exists.mp ((hreloaded.running t).mpr ⟨state, hstate, hruns⟩)
    -- the entry under `t` is that of a record whose key gives `t`
    obtain ⟨key, -, state', id, hback, hstate', -, -, rfl⟩ := h.entry t tc htc
    obtain ⟨hown, -⟩ := hreloaded.entry t _ state htc hstate
    have hkey : key = stateKey t := by rw [hw.own key state' hstate', ← hown]; rfl
    exact tenantOfKey_eq_iff.mp (hkey ▸ hback)
  · intro hread
    refine ⟨fun t => ⟨fun hsome => ?_, ?_⟩, fun t tc state htc hstate => ?_, ?_, h.kept⟩
    · obtain ⟨tc, htc⟩ := Option.isSome_iff_exists.mp hsome
      obtain ⟨state, id, hstate, -, hid, hex, -⟩ := h.own_entry hw hread htc
      exact ⟨state, hstate, id, hid, hex⟩
    · rintro ⟨state, hstate, hruns⟩
      have hcached := h.cached _ (hmem hstate) state hstate hruns
      rwa [tenantOfKey_eq_iff.mpr (hread t state hstate hruns)] at hcached
    · obtain ⟨state', id, hstate', hown, hid, -, rfl⟩ := h.own_entry hw hread htc
      obtain rfl := Option.some.inj (hstate.symm.trans hstate')
      exact ⟨hown, containerId_of_runningContainer hid, rfl, rfl⟩
    · intro t state hstate hlost
      exact h.lost _ (hmem hstate) state hstate hlost

end Reload

/-! ### The pass of the pruner -/

/-- What lasts from one `stop_tenant` to the next. -/
structure Answering (w : World) : Prop where
  hasClient : w.hasClient = true
  redisWorks : w.RedisWorks
  fileFaults : w.fileFaults = []

section Prune

variable {host : Host} {w u : World} {keys ts : List String} {t a : String}

theorem Stored.answering (h : Stored w) : Answering w := ⟨h.hasClient, h.redisWorks, h.fileFaults⟩

theorem fileFaults_of_change {config : Option Json} {w₀ w w' : World}
    (h : Change host t config w₀ w w') (hw : w.fileFaults = []) : w'.fileFaults = [] := by
  cases h with
  | same hsame =>
    obtain ⟨_, _, _, _, _, hf, rfl⟩ := hsame
    exact List.suffix_nil.mp (hw ▸ hf)
  | _ => exact hw

/-- The calls after a `stop_tenant` are answered too. -/
theorem Answering.stop (h : Answering w) : Ends (stopTenant host a)
    (fun _ u => Answering u ∧ ¬w.StopRaises host a ∧ Stopping host a w u)
    (fun _ => w.StopRaises host a) w := by
  have hends : Ends (stopTenant host a)
      (fun _ u => ¬w.StopRaises host a ∧ Stopping host a w u)
      (fun u => w.StopRaises host a ∧ Stopping host a w u) w :=
    stopTenant_ends h.redisWorks fun _ => h.hasClient
  have hkeeps : Ends (stopTenant host a) (fun _ u => u.RedisWorks ∧ u.fileFaults = [])
      (fun _ => True) w := by
    have hdoes : Does (Change host a none w) (stopTenant host a) (fun _ _ => True) w :=
      stopTenant_does
    refine (Ends.of_does hdoes).mono (fun _ u hu => ?_) fun _ _ => trivial
    exact ⟨redisWorks_of_reaches hu.1 h.redisWorks,
      kept_of_reaches (I := fun v => v.fileFaults = []) (fun _ _ => fileFaults_of_change) hu.1
        h.fileFaults⟩
  refine (hends.and hkeeps).mono ?_ fun _ hu => hu.1.1
  rintro _ u ⟨⟨hno, hstop⟩, hworks, hfiles⟩
  exact ⟨⟨hstop.hasClient_eq ▸ h.hasClient, hworks, hfiles⟩, hno, hstop⟩

/-- Stopping one tenant leaves what `stop_tenant` finds of another alone. -/
theorem Halted.holder_of_ne {tc : TenantContainer} {kept : Json}
    (h : Halted a tc (tc.stopped a kept) w u) (hne : t ≠ a) :
    u.holder t = w.holder t ∧ u.redis.get (stateKey t) = w.redis.get (stateKey t) := by
  have hrecord : u.redis.get (stateKey t) = w.redis.get (stateKey t) := by
    rw [h.redis]
    exact Dict.get_set_of_ne fun heq => hne (stateKey_inj.mp heq)
  refine ⟨?_, hrecord⟩
  rw [World.holder, World.holder, hrecord, h.tenants, Dict.get_erase_of_ne hne]

/-- Whether `stop_tenant` raises does not depend on who was stopped before. -/
theorem Stopping.stopRaises_iff (hstop : Stopping host a w u) (hno : ¬w.StopRaises host a)
    (hw : Answering w) (hu : Answering u) : u.StopRaises host t ↔ w.StopRaises host t := by
  by_cases hsame : t = a
  · subst hsame
    have hnone := hstop.holder_eq_none hno
    refine iff_of_false (fun h => ?_) hno
    obtain ⟨tc, htc, -⟩ := h
    simp [hnone] at htc
  · cases hstop with
    | idle => exact Iff.rfl
    | raised h _ => exact absurd h hno
    | stopped h _ hhalted =>
      obtain ⟨hholder, hrecord⟩ := hhalted.holder_of_ne hsame
      have hkept (tc : TenantContainer) : u.kept host t tc = w.kept host t tc := by
        simp only [World.kept, World.fromFile, World.readAt, World.configAt, hrecord, hhalted.fs,
          hu.fileFaults, hw.fileFaults]
      simp only [World.StopRaises, World.Unreadable, hholder, hkept, hu.fileFaults, hw.fileFaults]

/-- **The tenants a pass comes to**: those that are first met before, or as, the first one for
which `stop_tenant` raises. -/
theorem mem_stopCalls_iff (hw : Answering w) : t ∈ (stopCalls host w ts).map Call.tenantId ↔
    t ∈ ts ∧ ∀ s ∈ ts, w.StopRaises host s → ts.idxOf t ≤ ts.idxOf s := by
  induction ts generalizing w with
  | nil => simp [stopCalls]
  | cons a ts ih =>
    rw [stopCalls, List.map_cons, List.mem_cons]
    by_cases hta : t = a
    · subst hta
      exact iff_of_true (.inl rfl) ⟨List.mem_cons_self .., by simp⟩
    have hidx : (a :: ts).idxOf t = ts.idxOf t + 1 := List.idxOf_cons_ne _ (Ne.symm hta)
    have hstop : Ends (stopTenant host a)
        (fun _ u => Answering u ∧ ¬w.StopRaises host a ∧ Stopping host a w u)
        (fun _ => w.StopRaises host a) w := hw.stop
    have hself := hstop.and (Ends.self _ _)
    cases hrun : (stopTenant host a).run w with
    | error e u =>
      -- the loop ends here
      have hraises : w.StopRaises host a := hstop.error hrun
      refine iff_of_false (by simpa [Call.tenantId] using hta) fun h => ?_
      have hle := h.2 a (List.mem_cons_self ..) hraises
      rw [hidx, List.idxOf_cons_self] at hle
      omega
    | ok _ u =>
      obtain ⟨hu, hno, hstopped⟩ := hstop.ok hrun
      have hraises (s : String) : u.StopRaises host s ↔ w.StopRaises host s :=
        hstopped.stopRaises_iff hno hw hu
      simp only [Call.tenantId, hta, false_or, ih hu, hraises, List.mem_cons]
      refine and_congr_right fun _ => ⟨?_, fun h s hs hraise => ?_⟩
      · rintro h s (rfl | hs) hraise
        · exact absurd hraise hno
        · have hsa : s ≠ a := fun heq => hno (heq ▸ hraise)
          rw [hidx, List.idxOf_cons_ne _ (Ne.symm hsa)]
          exact Nat.succ_le_succ (h s hs hraise)
      · have hsa : s ≠ a := fun heq => hno (heq ▸ hraise)
        have hle := h s (.inr hs) hraise
        rw [hidx, List.idxOf_cons_ne _ (Ne.symm hsa)] at hle
        exact Nat.le_of_succ_le_succ hle

/-- The pass goes over the tenants it finds idle, and ends where that ends. -/
theorem prunePass_run (hw : Answering w) :
    (prunePass host keys).run w = .ok () (endState (stopAll host (w.stale keys)) w) := by
  simp only [prunePass, tryCatch_run, EStateM.run_bind, toPrune_run hw.redisWorks]
  cases hrun : (stopAll host (w.stale keys)).run w with
  | ok _ u => rw [endState_of_ok hrun]
  | error e u => rw [endState_of_error hrun]; rfl

theorem mem_stale_iff (hw : Answering w) : t ∈ w.stale keys ↔ t ∈ keys.map tenantOfKey ∧
    ∃ state, w.redis.get (stateKey t) = some state ∧ state.Idle w.now := by
  rw [World.stale, if_pos hw.redisWorks.1, List.mem_filter]
  refine and_congr_right fun _ => ?_
  cases w.redis.get (stateKey t) <;> simp [TenantState.Idle]

/-- What a pass goes over and calls is settled. -/
theorem Answering.passes_iff (hw : Answering w) {P : List String → Prop} :
    (∃ ts called, Passes host w keys ts called ∧ P called) ↔
      P ((stopCalls host w (w.stale keys)).map Call.tenantId) := by
  have hfound := @toPrune_run w keys hw.redisWorks
  constructor
  · rintro ⟨ts, called, hpasses, hP⟩
    obtain rfl : ts = w.stale keys := (EStateM.Result.ok.inj (hpasses.found.symm.trans hfound)).1
    rwa [← hpasses.called]
  · exact fun hP => ⟨_, _, ⟨hfound, prunePass_run hw, rfl⟩, hP⟩

/-- A pass calls `stop_tenant` on the idle tenants exactly if their ids can be read back and it does
not raise before the last of them. -/
theorem pruned_iff (hw : Stored w) (hkeys : keys.Perm w.redis.keys) :
    (∃ ts called, Passes host w keys ts called ∧ ∀ t, t ∈ called ↔
      ∃ state, w.redis.get (stateKey t) = some state ∧ state.Idle w.now) ↔
    (∀ t state, w.redis.get (stateKey t) = some state → state.Idle w.now →
      ∃ t', (w.redis.get (stateKey t')).isSome = true ∧ remove statePrefix t' = t) ∧
    (∀ s ∈ w.stale keys, w.StopRaises host s → ∀ t ∈ w.stale keys,
      (w.stale keys).idxOf t ≤ (w.stale keys).idxOf s) := by
  refine Iff.trans (hw.answering.passes_iff (P := fun called => ∀ t, t ∈ called ↔
    ∃ state, w.redis.get (stateKey t) = some state ∧ state.Idle w.now)) ?_
  simp only [mem_stopCalls_iff hw.answering, mem_stale_iff hw.answering]
  constructor
  · intro h
    refine ⟨fun t state hstate hidle => ?_, fun s hs hraises t ht => ?_⟩
    · have hmem := ((h t).mpr ⟨state, hstate, hidle⟩).1.1
      exact (mem_map_tenantOfKey hw hkeys).mp hmem
    · exact ((h t).mpr ht.2).2 s hs hraises
  · rintro ⟨hread, hstops⟩ t
    refine ⟨fun h => h.1.2, ?_⟩
    rintro ⟨state, hstate, hidle⟩
    have hmem := (mem_map_tenantOfKey hw hkeys).mpr (hread t state hstate hidle)
    exact ⟨⟨hmem, state, hstate, hidle⟩,
      fun s hs hraises => hstops s hs hraises t ⟨hmem, state, hstate, hidle⟩⟩

/-- **When scanning recovers the tenants.** In every order of the keys: exactly from records that
are legible. -/
theorem recovers_iff (hw : Stored w) (hkeys : keys.Perm w.redis.keys) :
    Recovers host w keys ↔ Legible host w keys := by
  have hreloaded := (scanned_of_reloadRunning hw hkeys).reloaded_iff hw hkeys
  have hpruned := @pruned_iff host w keys hw hkeys
  constructor
  · intro h
    obtain ⟨hidle, hstops⟩ := hpruned.mp h.pruned
    exact ⟨hreloaded.mp h.reloaded, hidle, hstops⟩
  · intro h
    exact ⟨hreloaded.mpr h.running, hpruned.mpr ⟨h.idle, h.stops⟩⟩

end Prune

/-! ### One record -/

/-- The record of a tenant whose container runs. -/
def runningRecord (tenantId : String) : TenantState where
  tenantId
  containerId := some 0
  port := 49152
  configDir := none
  configData := .obj []
  lastActivity := 0
  status := .running

/-- The tenant's container. -/
def sampleContainer (tenantId : String) (port : ℕ) : Container where
  name := containerName tenantId
  image := defaultImage
  port
  environment := .obj []
  volumes := .empty
  running := true

/-- The container is there, and nothing else is recorded. -/
def oneRecord (tenantId : String) : World :=
  { sampleWorld with
    redis := Dict.empty.set (stateKey tenantId) (runningRecord tenantId)
    containers := Dict.empty.set 0 (sampleContainer tenantId 49152) }

theorem stored_oneRecord (tenantId : String) : Stored (oneRecord tenantId) where
  hasClient := rfl
  redisWorks := ⟨rfl, rfl⟩
  dockerFaults := rfl
  fileFaults := rfl
  own key state h := by
    by_cases hkey : key = stateKey tenantId
    · subst hkey
      obtain rfl := Option.some.inj (Dict.get_set_self.symm.trans h)
      rfl
    · simp [oneRecord, Dict.get_set_of_ne hkey] at h

theorem recovers_iff_alice :
    Recovers sampleHost (oneRecord "alice") [stateKey "alice"] ↔
      Legible sampleHost (oneRecord "alice") [stateKey "alice"] :=
  recovers_iff (stored_oneRecord "alice") (.refl _)

/-! ### Two idle tenants -/

/-- Two tenants have been idle for too long, and Alice's agent has put a list into her file. -/
def twoIdle : World :=
  { sampleWorld with
    redis := (Dict.empty.set (stateKey "alice")
        { runningRecord "alice" with
          configDir := some (PurePath.ofString "/tmp/nanogate/tenants/alice") }).set
      (stateKey "bob") { runningRecord "bob" with containerId := some 1, port := 49153 }
    containers := (Dict.empty.set 0 (sampleContainer "alice" 49152)).set 1
      (sampleContainer "bob" 49153)
    now := idleTimeout + 1
    fs := fun place =>
      if place = ["tmp", "nanogate", "tenants", "alice", "config.json"] then
        some (.file (.json (.arr [.null])))
      else if place <+: ["tmp", "nanogate", "tenants", "alice"] then some .dir
      else none }

theorem stored_twoIdle : Stored twoIdle where
  hasClient := rfl
  redisWorks := ⟨rfl, rfl⟩
  dockerFaults := rfl
  fileFaults := rfl
  own key state h := by
    by_cases hbob : key = stateKey "bob"
    · subst hbob
      obtain rfl := Option.some.inj (Dict.get_set_self.symm.trans h)
      rfl
    · rw [twoIdle, Dict.get_set_of_ne hbob] at h
      by_cases halice : key = stateKey "alice"
      · subst halice
        obtain rfl := Option.some.inj (Dict.get_set_self.symm.trans h)
        rfl
      · simp [Dict.get_set_of_ne halice] at h

/-- **One tenant's file keeps the others running**: the pass ends where `stop_tenant` raises for
Alice, and Bob, who comes after her, is not stopped. -/
theorem not_recovers_twoIdle : ¬ ∀ host w keys, Stored w → keys.Perm w.redis.keys →
    Recovers host w keys := by
  intro hlaw
  have hkeys : [stateKey "alice", stateKey "bob"].Perm twoIdle.redis.keys := by decide
  have h := (hlaw sampleHost _ _ stored_twoIdle hkeys).pruned
  have hstale : twoIdle.stale [stateKey "alice", stateKey "bob"] = ["alice", "bob"] := by decide
  have hraises : twoIdle.StopRaises sampleHost "alice" := by decide
  have hstops := ((pruned_iff stored_twoIdle hkeys).mp h).2
  rw [hstale] at hstops
  exact absurd (hstops "alice" (by decide) hraises "bob" (by decide)) (by decide)

end Nanogate.Tenants
