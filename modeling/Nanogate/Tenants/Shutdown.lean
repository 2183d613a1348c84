import Nanogate.Tenants.Failures

/-!
# A gateway that is shut down

`shutdown_all` stops one tenant of the cache after the other. When the calls to Docker and to the
file system are answered from then on, and were answered before where it matters, it leaves
nothing running and forgets nobody: every container is gone, every record says stopped, and the
next process resumes each tenant from its last good configuration.

## Main definitions

* `Answered` — no call to Docker or to the file system is planned to fail
* `Sane` — a step that leaves cache, records and containers in agreement
* `ShutDown` — nothing runs, and every tenant can be resumed

## Main results

* `shutDown_of_run` — what `shutdown_all` leaves behind
* `Agreed.shutDown_restart` — a new process leaves it so
-/

namespace Nanogate.Tenants

open Nanogate.Python Nanogate.Semantics Relation

/-- No call to Docker or to the file system is planned to fail. -/
structure Answered (w : World) : Prop where
  docker : w.dockerFaults = []
  files : w.fileFaults = []

/-- What a run needs for cache, records and containers to stay in agreement: Redis works, the
calls to Docker that decide whether a container is remembered are answered, asking whether the
file of a tenant that is stopped exists does not fail, and tenants are provisioned under ids that
are file names. -/
structure Sane (host : Host) (w : World) (op : Op) : Prop where
  readable : Readable host w op
  reached : Reached host w op
  names : FileNames op

instance (host : Host) (w : World) (op : Op) : Decidable (Sane host w op) :=
  decidable_of_iff (Readable host w op ∧ Reached host w op ∧ FileNames op)
    ⟨fun h => ⟨h.1, h.2.1, h.2.2⟩, fun h => ⟨h.readable, h.reached, h.names⟩⟩

/-- Nothing runs that was started since `start`, and every tenant that was ever started can be
resumed from its last good configuration. -/
structure ShutDown (host : Host) (start w : World) : Prop where
  cache : ∀ t, w.tenants.get t = none
  records : ∀ t state, w.redis.get (stateKey t) = some state →
    state.status = .stopped ∧ state.containerId = none
  containers : ∀ id, start.nextId ≤ id → w.containers.get id = none
  resumed : ∀ t good, PurePath.IsFileName t → lastGood host t w.effects = some good →
    Survives host t good w

section Stopping

variable {host : Host} {w w' w₀ : World} {t : String} {ts : List String} {config : Option Json}

theorem Answered.of_change (h : Answered w) (hstep : Change host t config w₀ w w') :
    Answered w' := by
  cases hstep with
  | same hsame =>
    obtain ⟨_, _, _, -, hdocker, hfiles, rfl⟩ := hsame
    exact ⟨List.suffix_nil.mp (h.docker ▸ hdocker), List.suffix_nil.mp (h.files ▸ hfiles)⟩
  | _ => exact ⟨h.docker, h.files⟩

theorem Answered.asks (h : Answered w) (t : String) : (Call.stop t w).Asks :=
  fun _ => by simp [h.files]

theorem Answered.reaches (h : Answered w) (t : String) : (Call.stop t w).Reaches :=
  fun _ _ _ _ _ _ => by simp [h.docker]

/-- Stopping a tenant takes it out of the cache and nobody else. -/
theorem Stopping.tenants_eq (h : Stopping host t w w') :
    w'.tenants = w.tenants.erase t := by
  cases h with
  | idle hholder =>
    exact (Dict.erase_of_get_none (holder_eq_none_iff.mp hholder).1).symm
  | raised _ hread =>
    obtain ⟨_, _, rfl⟩ := hread
    rfl
  | stopped _ _ hhalted => exact hhalted.tenants

/-- When every call is answered, `stop_tenant` returns, and what follows is answered too. -/
theorem stopTenant_answered (hw : Sound host w) (h : Answered w) :
    Ends (stopTenant host t) (fun _ u => Sound host u ∧ Answered u ∧
      u.tenants = w.tenants.erase t) (fun _ => False) w := by
  have hdoes : Does (Change host t none w) (stopTenant host t) (fun _ _ => True) w :=
    stopTenant_does
  refine ((stop_turn (P := fun _ => True) t hw trivial).and (Ends.of_does hdoes)).mono ?_ ?_
  · rintro _ u ⟨⟨hturn, -, hstop⟩, hchanges, -⟩
    exact ⟨hw.of_turn hturn, kept_of_reaches (fun _ _ hstep hu => hu.of_change hstep) hchanges h,
      hstop.tenants_eq⟩
  · rintro u ⟨⟨-, hraises, -⟩, -⟩
    obtain ⟨-, hfault⟩ := hw.stopRaises_iff.mp hraises
    simp [h.files] at hfault

/-- The loop of `shutdown_all` stops every tenant of its list. -/
theorem stopAll_answered (hw : Sound host w) (h : Answered w) :
    Ends (stopAll host ts) (fun _ u => Sound host u ∧ Answered u ∧
      ∀ t, u.tenants.get t = if t ∈ ts then none else w.tenants.get t) (fun _ => False) w := by
  induction ts generalizing w with
  | nil => exact Ends.pure ⟨hw, h, fun t => by simp⟩
  | cons t ts ih =>
    refine Ends.bind (stopTenant_answered hw h) ?_
    rintro _ u ⟨hu, hanswered, htenants⟩
    refine (ih hu hanswered).mono ?_ fun _ h => h
    rintro _ v ⟨hv, hanswered', hrest⟩
    refine ⟨hv, hanswered', fun t' => ?_⟩
    rw [hrest t', htenants, Dict.get_erase]
    by_cases ht' : t' = t
    · simp [ht']
    · simp [ht']

/-- Each call of the loop is made in a world where every call is answered. -/
theorem answered_of_stopCalls (hw : Sound host w) (h : Answered w) :
    ∀ c ∈ stopCalls host w ts, c.Asks ∧ c.Reaches ∧ c.Named := by
  induction ts generalizing w with
  | nil => simp [stopCalls]
  | cons t ts ih =>
    intro c hc
    rcases List.mem_cons.mp hc with rfl | hc
    · exact ⟨h.asks t, h.reaches t, trivial⟩
    · cases hrun : (stopTenant host t).run w with
      | error e u => simp [hrun] at hc
      | ok r u =>
        obtain ⟨hu, hanswered, -⟩ := (stopTenant_answered hw h).ok hrun
        rw [hrun] at hc
        exact ih hu hanswered c hc

end Stopping

/-! ### What is left behind -/

section Runs

variable {host : Host} {w w' w₀ : World} {t : String} {ops : List Op} {keys : List String}
  {op : Op}

/-- What holds in a sane run. -/
structure Agreed (host : Host) (start w : World) : Prop where
  sound : Sound host w
  mirroring : Mirroring [] w
  remembering : Remembering start w
  safe : ∀ t, PurePath.IsFileName t → Safe host t w

theorem Agreed.step (h : Agreed host w₀ w) (hop : Sane host w op)
    (hstep : (machine host w₀).step w op = some w') : Agreed host w₀ w' := by
  obtain ⟨hsound, hmirroring⟩ := mirroring_of_step hop.readable hstep h.sound h.mirroring
  obtain ⟨hen, rfl⟩ := step_eq_some hstep
  refine ⟨hsound, hmirroring, ?_, fun t ht => ?_⟩
  · exact (keeps_remembering.of_op h.sound hen hop.reached.1 hop.reached.2
      h.remembering.direct).2
  · exact ((keeps_safe ht).of_op h.sound hen hop.reached.1 (fun _ => named_of_calls hop.names)
      (h.safe t ht).direct).2

theorem step_of_enabled (h : op.Enabled w) :
    (machine host w₀).step w op = some (endState (program host op) w) :=
  if_pos h

theorem agreed_of_run (hfresh : Fresh w₀) (hworks : w₀.RedisWorks) (heffects : w₀.effects = [])
    (hops : (machine host w₀).AllSteps (Sane host) w₀ ops)
    (hrun : (machine host w₀).run ops = some w) : Agreed host w₀ w :=
  Machine.run_invariant (I := Agreed host w₀) (fun h hop hstep => h.step hop hstep)
    ⟨hfresh.sound hworks, hfresh.mirroring, hfresh.remembering, fun _ _ => hfresh.safe heffects⟩
    hops hrun

/-- Without an entry in the cache every record says stopped. -/
theorem Agreed.stopped (h : Agreed host w₀ w) (hcache : ∀ t, w.tenants.get t = none) (t : String)
    (state : TenantState) (hstate : w.redis.get (stateKey t) = some state) :
    state.status = .stopped := by
  cases hstatus : state.status with
  | stopped => rfl
  | running =>
    have hcached := (h.mirroring.mirrored.cached_iff t).mpr ⟨state, hstate, hstatus⟩
    simp [hcache] at hcached

theorem holder_of_stopped (hcache : ∀ t, w.tenants.get t = none)
    (hstopped : ∀ t state, w.redis.get (stateKey t) = some state → state.status = .stopped)
    (t : String) : w.holder t = none :=
  holder_eq_none_iff.mpr ⟨hcache t, fun state hstate => by
    rw [TenantState.runningContainer, hstopped t state hstate]⟩

/-- A world that is in agreement and has an empty cache is shut down. -/
theorem Agreed.shutDown (h : Agreed host w₀ w) (hcache : ∀ t, w.tenants.get t = none) :
    ShutDown host w₀ w := by
  have hstopped := h.stopped hcache
  refine ⟨hcache, fun t state hstate => ⟨hstopped t state hstate, ?_⟩, fun id hid => ?_,
    fun t good ht hgood =>
      (h.safe t ht).survives h.sound (holder_of_stopped hcache hstopped t) hgood⟩
  · have hiff := h.mirroring.containerId_iff _ state hstate
    simpa [hstopped t state hstate] using hiff
  · -- a container that is left would be named by a record that says running
    cases hget : w.containers.get id with
    | none => rfl
    | some c =>
      obtain ⟨t, state, -, hstate, hrun⟩ := h.remembering.named id c hid hget
      rw [TenantState.runningContainer, hstopped t state hstate] at hrun
      simp at hrun

/-- A new process finds nobody to take over, whichever calls to Docker fail. -/
theorem Agreed.shutDown_restart (h : Agreed host w₀ w) (hcache : ∀ t, w.tenants.get t = none)
    (hkeys : keys.Perm w.redis.keys) : ShutDown host w₀ (endState (restart host keys) w) := by
  have hstopped := h.stopped hcache
  have hdown := h.shutDown hcache
  -- the records, the containers and the history stay, and nobody is put into the cache
  let Left (_ : List String) (u : World) : Prop :=
    u.redis = w.redis ∧ u.containers = w.containers ∧ u.effects = w.effects ∧
      (∀ t, u.tenants.get t = none) ∧ ∀ t, PurePath.IsFileName t → Safe host t u
  have hleft : Sound host (endState (restart host keys) w) ∧
      Left [] (endState (restart host keys) w) := by
    refine restart_rule (P := fun _ => True) (I := Left) ?_ ?_ ?_ h.sound hkeys
      (fun _ _ => trivial) ⟨rfl, rfl, rfl, fun _ => rfl, fun t ht => ?_⟩
    · rintro key rest u v - - - - - hlook hu
      have hholder := holder_of_stopped hu.2.2.2.1
        (fun t state hstate => hstopped t state (hu.1 ▸ hstate)) (tenantOfKey key)
      rwa [looking_of_holder_none hholder hlook]
    · rintro u v hsame ⟨hredis, hcontainers, heffects, htenants, hsafe⟩
      exact ⟨hsame.redis_eq.trans hredis, hsame.containers_eq.trans hcontainers,
        hsame.effects_eq.trans heffects, fun t => hsame.tenants_eq ▸ htenants t,
        fun t ht => (keeps_safe ht).same u v hsame (hsafe t ht)⟩
    · rintro u image ⟨hredis, hcontainers, heffects, htenants, hsafe⟩
      exact ⟨hredis, hcontainers, heffects, htenants, fun t ht =>
        (keeps_safe ht).build u image (hsafe t ht)⟩
    · have hdirect : direct true w (.restart keys) = w.forgot := h.sound.redisWorks.direct_restart
      exact hdirect ▸ (h.safe t ht).direct
  obtain ⟨hsound, hredis, hcontainers, -, hcache', hsafe⟩ := hleft
  have hholder := holder_of_stopped hcache' fun t state hstate =>
    hstopped t state (hredis ▸ hstate)
  exact ⟨hcache', fun t state hstate => hdown.records t state (hredis ▸ hstate),
    fun id hid => hcontainers ▸ hdown.containers id hid,
    fun t good ht hgood => (hsafe t ht).survives hsound (hholder t) hgood⟩

/-- **A clean shutdown.** After a sane run, when Docker and the file system answer, `shutdown_all`
returns, nothing that was started is left running, and every tenant can be resumed; and so it stays
when a new process starts, even if calls to Docker and to the file system fail then. -/
theorem shutDown_of_run (hfresh : Fresh w₀) (hworks : w₀.RedisWorks) (heffects : w₀.effects = [])
    (hops : (machine host w₀).AllSteps (Sane host) w₀ ops)
    (hrun : (machine host w₀).run ops = some w) (hanswered : Answered w) :
    ∃ w', (shutdownAll host).run w = .ok () w' ∧ ShutDown host w₀ w' ∧
      ∀ keys docker files, keys.Perm w'.redis.keys → ShutDown host w₀ (endState (restart host keys)
        { w' with dockerFaults := docker, fileFaults := files }) := by
  have h := agreed_of_run hfresh hworks heffects hops hrun
  have hends : Ends (shutdownAll host) (fun _ u => Sound host u ∧ Answered u ∧
      ∀ t, u.tenants.get t = if t ∈ w.tenants.keys then none else w.tenants.get t)
      (fun _ => False) w := Ends.get_bind (stopAll_answered h.sound hanswered)
  cases hshutdown : (shutdownAll host).run w with
  | error e u => exact (hends.error hshutdown).elim
  | ok r w' =>
    obtain ⟨-, -, htenants⟩ := hends.ok hshutdown
    have hcalls : ∀ c ∈ calls host w .shutdown, c.Asks ∧ c.Reaches ∧ c.Named :=
      answered_of_stopCalls h.sound hanswered
    have hsane : Sane host w .shutdown :=
      ⟨⟨trivial, fun c hc => (hcalls c hc).1⟩, ⟨trivial, fun c hc => (hcalls c hc).2.1⟩, trivial⟩
    have hend : endState (program host .shutdown) w = w' := endState_of_ok hshutdown
    have hagreed : Agreed host w₀ w' := hend ▸ h.step hsane (step_of_enabled trivial)
    have hcache : ∀ t, w'.tenants.get t = none := by
      intro t
      rw [htenants t]
      split_ifs with ht
      · rfl
      · -- a tenant that is no key has no entry
        exact Option.eq_none_iff_forall_ne_some.mpr fun tc htc =>
          ht (Dict.mem_keys_iff.mpr ⟨tc, htc⟩)
    refine ⟨w', rfl, hagreed.shutDown hcache, fun keys docker files hkeys => ?_⟩
    have hfaults : w'.redisFaults = [] := hagreed.sound.redisWorks.2
    have hplanned : Agreed host w₀ { w' with dockerFaults := docker, fileFaults := files } := by
      have hsane : Sane host w' (.fail [] docker files) :=
        ⟨⟨rfl, by simp [calls]⟩, ⟨rfl, by simp [calls]⟩, trivial⟩
      have hfail := hagreed.step hsane (step_of_enabled trivial)
      rwa [← hfaults] at hfail
    exact hplanned.shutDown_restart hcache hkeys

end Runs

/-- Two tenants are started. A call to Docker fails while one of them is started again, and then
every call is answered. -/
def twoTenants : List Op :=
  [.provision "alice" (.obj []) defaultImage, .provision "bob" (.obj []) defaultImage,
    .fail [] [false, false, false, false, false, true] [],
    .provision "alice" (.obj []) defaultImage, .fail [] [] []]

theorem shutDown_twoTenants : ∃ w w', (machine sampleHost sampleWorld).run twoTenants = some w ∧
    (shutdownAll sampleHost).run w = .ok () w' ∧ ShutDown sampleHost sampleWorld w' ∧
      w'.redis.keys = [stateKey "alice", stateKey "bob"] ∧
      ShutDown sampleHost sampleWorld
        (endState (restart sampleHost w'.redis.keys)
          { w' with dockerFaults := [true], fileFaults := [] }) := by
  have hops : (machine sampleHost sampleWorld).AllSteps (Sane sampleHost) sampleWorld
      twoTenants := by decide +kernel
  have hcheck : ((machine sampleHost sampleWorld).run twoTenants).map (fun w =>
      decide (w.dockerFaults = [] ∧ w.fileFaults = []) &&
        returns (shutdownAll sampleHost) w fun _ w' =>
          w'.redis.keys = [stateKey "alice", stateKey "bob"]) = some true := by decide +kernel
  obtain ⟨w, hrun, hcheck⟩ := Option.map_eq_some_iff.mp hcheck
  obtain ⟨hfaults, hreturns⟩ := (Bool.and_eq_true _ _).mp hcheck
  obtain ⟨hdocker, hfiles⟩ := of_decide_eq_true hfaults
  obtain ⟨w', hshutdown, hdown, hrestart⟩ := shutDown_of_run sampleWorld_fresh
    sampleWorld_redisWorks rfl hops hrun ⟨hdocker, hfiles⟩
  obtain ⟨_, u, hshutdown', hkeys⟩ := exists_of_returns hreturns
  obtain rfl : w' = u := by simpa [hshutdown] using hshutdown'
  exact ⟨w, w', hrun, hshutdown, hdown, of_decide_eq_true hkeys, hrestart _ _ _ (List.Perm.refl _)⟩

end Nanogate.Tenants
