import Nanogate.Tenants.Default
import Nanogate.Tenants.Workspace

/-!
# Resuming a tenant while Redis fails

A call to Redis that raises is answered as if there were no record. `get_or_create` reads the
record in `get_tenant`, in `get_saved_state` and in the `stop_tenant` of the provisioning, and
each of these calls may be answered or not. What it then puts in the place of the saved
configuration depends on which are.

## Main definitions

* `Derived` — the configurations that come from a saved one
* `Harmless` — `get_or_create` puts only such configurations in the place of the saved one
* `Steady` — the answers of Redis with which it does

## Main results

* `harmless_iff_steady`
* `saved_config_lost` — two calls that fail replace the configuration by the default one
-/

namespace Nanogate.Tenants

open Nanogate.Python Nanogate.Semantics Relation

/-! ### Configurations that come from a saved one -/

/-- What a provisioning with the saved configuration writes, starts a container from and saves. -/
inductive Derived (host : Host) (tenantId : String) (saved : Json) : Json → Prop
  | saved : Derived host tenantId saved saved
  | written {written setting : Json} (h : mergeSettings saved = .ok (written, setting)) :
      Derived host tenantId saved written
  | injected {written setting environment injected : Json}
      (h : mergeSettings saved = .ok (written, setting))
      (hinject : injectEnv host tenantId written = .ok (environment, injected)) :
      Derived host tenantId saved injected

/-- The effect puts no other configuration in the place of the saved one. -/
def Preserves (host : Host) (tenantId : String) (saved : Json) : Effect → Prop
  | .redisSet key state => key = stateKey tenantId → Derived host tenantId saved state.configData
  | .writeText path text =>
    path = configPath host tenantId → ∃ v, text = .json v ∧ Derived host tenantId saved v
  | .run _ _ config => Derived host tenantId saved config
  | .stop _ | .remove _ => True

/-- The record of a tenant, with a configuration. -/
structure HasConfig (w : World) (tenantId : String) (state : TenantState) : Prop where
  record : w.redis.get (stateKey tenantId) = some state
  tenantId_eq : state.tenantId = tenantId
  truthy : state.configData.truthy = true

/-- `get_or_create` preserves the configuration that is saved. -/
def Harmless (host : Host) (tenantId : String) (w : World) (state : TenantState) : Prop :=
  ∀ e ∈ w.effectsSince (endState (getOrCreate host tenantId) w),
    Preserves host tenantId state.configData e

/-! ### The answers of Redis -/

/-- The call to Redis after the next `n` is answered. -/
def World.answersAt (w : World) (n : ℕ) : Bool := w.hasRedis && w.redisFaults[n]? ≠ some true

/-- `get_tenant` finds the container of the record. -/
def World.finds (w : World) (state : TenantState) : Bool :=
  w.answersAt 0 && w.hasClient && w.dockerFaults.head? ≠ some true &&
    state.runningContainer.any fun id => (w.containers.get id).isSome

/-- `get_tenant` finds that the container of the record is gone, and saves that it is stopped. -/
def World.misses (w : World) (state : TenantState) : Bool :=
  w.answersAt 0 && w.hasClient && state.runningContainer.isSome && !w.finds state

/-- How many calls `get_tenant` makes. -/
def World.lookups (w : World) (state : TenantState) : ℕ := if w.misses state then 2 else 1

/-- `stop_tenant` reads that the container of the record is running. -/
def World.stops (w : World) (state : TenantState) : Bool :=
  state.runningContainer.isSome && !(w.misses state && w.answersAt 1) &&
    w.answersAt (w.lookups state + 1)

/-- The configuration that `stop_tenant` then saves, if it does not raise. -/
def World.keeps (w : World) (host : Host) (state : TenantState) : Option Json :=
  Option.filter Json.isObj <| match state.configDir with
    | none => some state.configData
    | some dir =>
      if w.fileFaults.head? = some true then none
      else some ((w.readAt host (dir.join "config.json")).or state.configData)

/-- How many calls `stop_tenant` makes to read it. -/
def World.keepCalls (w : World) (host : Host) (state : TenantState) : ℕ :=
  match state.configDir with
  | none => 0
  | some dir => w.readCalls host (dir.join "config.json")

section Lookup

variable {host : Host} {w u : World} {tenantId : String} {state : TenantState} {id n : ℕ}

theorem World.answersAt_zero : w.answersAt 0 = w.answers := by
  rw [answersAt, answers, List.head?_eq_getElem?]

theorem World.asked_answersAt : w.asked.answersAt n = w.answersAt (n + 1) := by
  unfold asked answersAt
  split_ifs with hredis
  · simp
  · simp [hredis]

theorem World.disk_asked (w : World) : w.asked.disk = w.disk := by
  unfold asked
  split_ifs <;> rfl

theorem World.asked_of_hasRedis (h : w.hasRedis = true) :
    w.asked = { w with redisFaults := w.redisFaults.tail } := if_pos h

theorem HasConfig.of_same (h : HasConfig w tenantId state) (hsame : Same w u) :
    HasConfig u tenantId state :=
  ⟨hsame.redis_eq ▸ h.record, h.tenantId_eq, h.truthy⟩

/-- The record after `get_tenant` found nothing. -/
def World.lookedUp (w : World) (state : TenantState) : TenantState :=
  if w.misses state && w.answersAt 1 then state.markStopped else state

/-- What `get_tenant` leaves behind when it found nothing. -/
structure Looked (tenantId : String) (state : TenantState) (w u : World) : Prop where
  tenants : u.tenants = w.tenants
  hasClient : u.hasClient = w.hasClient
  disk : u.disk = w.disk
  answersAt : ∀ n, u.answersAt n = w.answersAt (w.lookups state + n)
  record : HasConfig u tenantId (w.lookedUp state)
  effects : u.effects = w.effects ∨
    u.effects = w.effects ++ [.redisSet (stateKey tenantId) state.markStopped]

theorem looked_asked (h : HasConfig w tenantId state) (hmisses : w.misses state = false) :
    Looked tenantId state w w.asked where
  tenants := w.same_asked.tenants_eq
  hasClient := by unfold World.asked; split_ifs <;> rfl
  disk := w.disk_asked
  answersAt n := by rw [World.asked_answersAt, World.lookups, hmisses, Nat.add_comm]; rfl
  record := by
    rw [World.lookedUp, hmisses]
    exact h.of_same w.same_asked
  effects := .inl w.same_asked.effects_eq

/-- `get_tenant` finds nothing unless it finds a container. -/
theorem getTenant_run_none (h : HasConfig w tenantId state)
    (hentry : w.tenants.get tenantId = none) (hfinds : w.finds state = false) :
    ∃ u, (getTenant tenantId).run w = .ok none u ∧ Looked tenantId state w u := by
  simp only [getTenant, EStateM.run_bind, EStateM.run_get, hentry, loadState_run, h.record]
  rw [← World.answersAt_zero]
  cases hanswer : w.answersAt 0 with
  | false => exact ⟨w.asked, rfl, looked_asked h (by simp [World.misses, hanswer])⟩
  | true =>
    simp only [if_true]
    cases hrun : state.runningContainer with
    | none => exact ⟨w.asked, rfl, looked_asked h (by simp [World.misses, hrun])⟩
    | some id =>
      cases hclient : w.hasClient with
      | false => exact ⟨w.asked, rfl, looked_asked h (by simp [World.misses, hclient])⟩
      | true =>
        have hmisses : w.misses state = true := by
          simp [World.misses, hanswer, hclient, hrun, hfinds]
        have hredis : w.hasRedis = true := by
          unfold World.answersAt at hanswer
          exact (Bool.and_eq_true_iff.mp hanswer).1
        -- the container is not found, so the record is saved as stopped
        have hgone :
            (w.dockerFaults.head? ≠ some true && (w.containers.get id).isSome) = false := by
          simpa [World.finds, hanswer, hclient, hrun] using hfinds
        simp only [if_true, World.asked_of_hasRedis hredis, EStateM.run_bind, containerExists_run,
          hgone, Bool.false_eq_true, if_false, saveState_run, EStateM.run_pure]
        have hanswers : World.answers { w with
            redisFaults := w.redisFaults.tail, dockerFaults := w.dockerFaults.tail } =
            w.answersAt 1 := by
          simp [World.answers, World.answersAt, List.head?_tail]
        refine ⟨_, rfl, ?_⟩
        rw [hanswers]
        have hasked : World.asked { w with
            redisFaults := w.redisFaults.tail, dockerFaults := w.dockerFaults.tail } =
            { w with
              redisFaults := w.redisFaults.tail.tail, dockerFaults := w.dockerFaults.tail } :=
          World.asked_of_hasRedis hredis
        have hkey : stateKey state.markStopped.tenantId = stateKey tenantId :=
          congrArg stateKey h.tenantId_eq
        have hshift (n : ℕ) : (w.hasRedis && w.redisFaults.tail.tail[n]? ≠ some true) =
            w.answersAt (w.lookups state + n) := by
          rw [World.lookups, if_pos hmisses, World.answersAt, List.getElem?_tail,
            List.getElem?_tail, Nat.add_comm 2 n]
        rw [hasked]
        cases hset : w.answersAt 1 with
        | false =>
          refine ⟨rfl, rfl, rfl, hshift, ?_, .inl rfl⟩
          rw [World.lookedUp, hmisses, hset]
          exact ⟨h.record, h.tenantId_eq, h.truthy⟩
        | true =>
          refine ⟨rfl, rfl, rfl, hshift, ?_, .inr (by rw [← hkey]; rfl)⟩
          rw [World.lookedUp, hmisses, hset]
          refine ⟨?_, h.tenantId_eq, h.truthy⟩
          rw [← hkey]
          exact Dict.get_set_self

/-- Otherwise `get_tenant` returns it, and `get_or_create` has no effect. -/
theorem getTenant_run_some (h : HasConfig w tenantId state)
    (hfound : w.tenants.get tenantId ≠ none ∨ w.finds state = true) :
    ∃ tc u, (getTenant tenantId).run w = .ok (some tc) u ∧ u.effects = w.effects := by
  simp only [getTenant, EStateM.run_bind, EStateM.run_get]
  cases hentry : w.tenants.get tenantId with
  | some tc => exact ⟨_, _, rfl, rfl⟩
  | none =>
    have hfinds : w.finds state = true := hfound.resolve_left (by simp [hentry])
    have hfinds' := hfinds
    simp only [World.finds, Bool.and_eq_true, World.answersAt_zero, Option.any_eq_true] at hfinds'
    obtain ⟨⟨⟨hanswers, hclient⟩, hdocker⟩, id, hrun, hsome⟩ := hfinds'
    have hdockerFaults : w.asked.dockerFaults = w.dockerFaults := by
      unfold World.asked
      split_ifs <;> rfl
    have hthere : (w.asked.dockerFaults.head? ≠ some true &&
        (w.asked.containers.get id).isSome) = true := by
      rw [w.same_asked.containers_eq, hsome, Bool.and_true, hdockerFaults, hdocker]
    simp only [loadState_run, hanswers, if_true, h.record, hrun, hclient, EStateM.run_bind,
      containerExists_run, hthere]
    refine ⟨_, _, rfl, ?_⟩
    exact w.same_asked.effects_eq

end Lookup

/-! ### Stopping the tenant again -/

section Stopping

variable {host : Host} {v w : World} {tenantId : String} {state s : TenantState} {id : ℕ}
  {kept : Json}

/-- The record that `stop_tenant` saves. -/
def TenantState.stoppedWith (state : TenantState) (kept : Json) : TenantState :=
  { state.markStopped with configData := kept }

theorem keeps_congr (host : Host) (hdisk : v.disk = w.disk) (hdir : s.configDir = state.configDir)
    (hdata : s.configData = state.configData) :
    v.keeps host s = w.keeps host state ∧ v.keepCalls host s = w.keepCalls host state := by
  have hfs : v.fs = w.fs := congrArg Disk.fs hdisk
  have hfaults : v.fileFaults = w.fileFaults := congrArg Disk.faults hdisk
  simp only [World.keeps, World.keepCalls, World.readAt, World.readCalls, World.configAt, hfs,
    hfaults, hdir, hdata, and_self]

theorem truthy_or (h : state.configData.truthy = true) (v : Json) :
    (v.or state.configData).truthy = true := by
  unfold Json.or
  split_ifs with hv
  · exact hv
  · exact h

/-- Reading the configuration that is saved raises or returns it. -/
theorem configToSave_cases (host : Host) (tenantId : String) (id : ℕ) (w : World)
    (h : state.configData.truthy = true) :
    (w.keeps host state = none ∧ ∃ e u,
      (configToSave host tenantId (state.toContainer id) (some state)).run w = .error e u ∧
        u.effects = w.effects) ∨
      ∃ v, (w.keeps host state = if v.isObj then some v else none) ∧
        (configToSave host tenantId (state.toContainer id) (some state)).run w =
          .ok v { w with fileFaults := w.fileFaults.drop (w.keepCalls host state) } := by
  simp only [configToSave, configFile, TenantState.toContainer, World.keeps, World.keepCalls,
    EStateM.run_bind, Option.map_some, Option.getD_some]
  cases state.configDir with
  | none => exact .inr ⟨state.configData, Option.filter_some, by simp [Json.or, h]⟩
  | some dir =>
    simp only [readConfig_run]
    by_cases hfault : w.fileFaults.head? = some true
    · simp only [if_pos hfault, Option.filter_none, true_and]
      exact .inl ⟨_, _, rfl, rfl⟩
    · refine .inr ⟨_, by rw [if_neg hfault, Option.filter_some], ?_⟩
      simp [hfault, truthy_or h]

/-- When it has nothing to stop, `stop_tenant` only reads. -/
theorem stopTenant_run_idle (h : HasConfig w tenantId state)
    (hentry : w.tenants.get tenantId = none)
    (hidle : (w.answersAt 0 && state.runningContainer.isSome) = false) :
    (stopTenant host tenantId).run w = .ok () w.asked := by
  simp only [stopTenant, EStateM.run_bind, EStateM.run_get, hentry, loadState_run, h.record]
  rw [← World.answersAt_zero]
  cases hanswer : w.answersAt 0 with
  | false => rfl
  | true =>
    have hrun : state.runningContainer = none := by simpa [hanswer] using hidle
    simp only [if_true, hrun]
    rfl

theorem stopTenant_eq (host : Host) (h : HasConfig w tenantId state)
    (hentry : w.tenants.get tenantId = none)
    (hstops : (w.answersAt 0 && state.runningContainer.isSome) = true) :
    ∃ id, (stopTenant host tenantId).run w =
      (stopContainer host tenantId (state.toContainer id) (some state)).run w.asked := by
  simp only [Bool.and_eq_true, World.answersAt_zero, Option.isSome_iff_exists] at hstops
  obtain ⟨hanswers, id, hrun⟩ := hstops
  refine ⟨id, ?_⟩
  simp only [stopTenant, EStateM.run_bind, EStateM.run_get, hentry, loadState_run, hanswers,
    if_true, h.record, hrun]

/-- `stop_tenant` raises before it saves. -/
theorem stopTenant_run_raises (host : Host) (h : HasConfig w tenantId state)
    (hentry : w.tenants.get tenantId = none)
    (hstops : (w.answersAt 0 && state.runningContainer.isSome) = true)
    (hkeeps : w.keeps host state = none) :
    ∃ e u, (stopTenant host tenantId).run w = .error e u ∧ u.effects = w.effects := by
  obtain ⟨id, heq⟩ := stopTenant_eq host h hentry hstops
  have hasked := (keeps_congr host (s := state) w.disk_asked rfl rfl).1
  simp only [heq, stopContainer, EStateM.run_bind]
  rcases configToSave_cases host tenantId id w.asked h.truthy with
    ⟨-, e, u, hrun, heffects⟩ | ⟨v, hv, hrun⟩
  · simp only [hrun]
    exact ⟨e, u, rfl, heffects.trans w.same_asked.effects_eq⟩
  · have hobj : v.isObj = false := by
      rw [hasked, hkeeps] at hv
      by_contra hobj
      simp [hobj] at hv
    simp only [hrun, hobj]
    exact ⟨_, _, rfl, w.same_asked.effects_eq⟩

/-- What `stop_tenant` saves, and that it then only removes the container. -/
theorem stopTenant_run_saves (host : Host) (h : HasConfig w tenantId state)
    (hentry : w.tenants.get tenantId = none)
    (hstops : (w.answersAt 0 && state.runningContainer.isSome) = true)
    (hkeeps : w.keeps host state = some kept) :
    ∃ v u, (stopTenant host tenantId).run w = .ok () u ∧ Removed v u ∧
      v.disk = ⟨w.fs, w.fileFaults.drop (w.keepCalls host state)⟩ ∧
        (v.redis, v.effects) =
          if w.answersAt 1 then
            (w.redis.set (stateKey tenantId) (state.stoppedWith kept),
              w.effects ++ [.redisSet (stateKey tenantId) (state.stoppedWith kept)])
          else (w.redis, w.effects) := by
  obtain ⟨id, heq⟩ := stopTenant_eq host h hentry hstops
  have hasked := keeps_congr host (s := state) w.disk_asked rfl rfl
  rw [heq]
  simp only [stopContainer, EStateM.run_bind]
  rcases configToSave_cases host tenantId id w.asked h.truthy with ⟨hnone, -⟩ | ⟨v, hv, hrun⟩
  · simp [hasked.1, hkeeps] at hnone
  rw [hasked.1, hkeeps] at hv
  split_ifs at hv with hobj
  obtain rfl := Option.some_inj.mp hv
  simp only [hrun, hobj, Bool.not_true, Bool.false_eq_true, if_false, EStateM.run_bind,
    saveState_run, EStateM.run_get]
  -- the world the record is saved in
  generalize hy : ({ w.asked with
    fileFaults := w.asked.fileFaults.drop (w.asked.keepCalls host state) } : World) = y
  have hanswer : y.answers = w.answersAt 1 := by
    rw [← World.asked_answersAt, World.answersAt_zero, ← hy]
    rfl
  have hdisk : y.disk = ⟨w.fs, w.fileFaults.drop (w.keepCalls host state)⟩ := by
    rw [← hasked.2, ← hy]
    exact congrArg (fun disk : Disk => (⟨disk.fs, disk.faults.drop _⟩ : Disk)) w.disk_asked
  have hredis : y.redis = w.redis := by rw [← hy, ← w.same_asked.redis_eq]
  have heffects : y.effects = w.effects := by rw [← hy, ← w.same_asked.effects_eq]
  obtain ⟨u, hu, hremoved⟩ := removeContainer_run (state.toContainer id).containerId
    (if y.answers then y.asked.put (state.stoppedWith kept) else y.asked)
  have htenant := h.tenantId_eq
  subst htenant
  refine ⟨_, u, hu, hremoved, ?_, ?_⟩
  · split_ifs <;> exact y.disk_asked.trans hdisk
  · rw [hanswer]
    split_ifs
    · rw [World.put, y.same_asked.redis_eq, y.same_asked.effects_eq, hredis, heffects]
      rfl
    · rw [y.same_asked.redis_eq, y.same_asked.effects_eq, hredis, heffects]

end Stopping

/-! ### Provisioning the tenant again -/

/-- `get_or_create` comes to a provisioning. -/
def World.reprovisions (w : World) (tenantId : String) (state : TenantState) : Bool :=
  (w.tenants.get tenantId).isNone && w.hasClient && !w.finds state

/-- The configuration that is provisioned again. -/
def World.resumes (w : World) (state : TenantState) : Json :=
  if w.answersAt (w.lookups state) then state.configData else .obj []

/-- The file system when the configuration is written. -/
def World.diskAfterStop (w : World) (host : Host) (state : TenantState) : Disk :=
  ⟨w.fs, w.fileFaults.drop (if w.stops state then w.keepCalls host state else 0)⟩

/-- The answers of Redis with which the saved configuration is preserved. If `get_or_create` comes
to a provisioning, then what `stop_tenant` saves comes from it, and so does the empty configuration
if `get_saved_state` is not answered and the file can be written. -/
structure Steady (host : Host) (tenantId : String) (w : World) (state : TenantState) : Prop where
  kept : w.reprovisions tenantId state = true → w.stops state = true →
    w.answersAt (w.lookups state + 2) = true →
      ∀ v ∈ w.keeps host state, Derived host tenantId state.configData v
  read : w.reprovisions tenantId state = true → w.answersAt (w.lookups state) = false →
    (w.stops state = true → (w.keeps host state).isSome) →
      WritesDefault host tenantId (w.diskAfterStop host state) →
        Derived host tenantId state.configData defaultConfig

section Resuming

variable {host : Host} {u v w w₀ w' x start : World} {tenantId : String}
  {state : TenantState} {c saved : Json}

/-- What a provisioning with `c` writes and saves comes from the saved configuration. -/
def Provides (host : Host) (tenantId : String) (saved c : Json) : Prop :=
  ∀ written setting, mergeSettings c = .ok (written, setting) →
    Derived host tenantId saved written ∧
      ∀ environment injected, injectEnv host tenantId written = .ok (environment, injected) →
        Derived host tenantId saved injected

theorem provides_self : Provides host tenantId saved saved :=
  fun _ _ hmerge => ⟨.written hmerge, fun _ _ hinject => .injected hmerge hinject⟩

/-- The default configuration has no environment that could be changed. -/
theorem provides_empty (h : Derived host tenantId saved defaultConfig) :
    Provides host tenantId saved (.obj []) := by
  intro written setting hmerge
  rw [mergeSettings_empty, Except.ok.injEq, Prod.mk.injEq] at hmerge
  obtain ⟨rfl, -⟩ := hmerge
  refine ⟨h, fun environment injected hinject => ?_⟩
  unfold injectEnv at hinject
  cases henv : customEnv host tenantId defaultConfig
      (((defaultConfig.getD "gateway").getD "env").or (.obj [])) with
  | error e => simp [henv, bind, Except.bind] at hinject
  | ok env =>
    have hnone : ((defaultConfig.getD "gateway").getD "env").truthy = false := by decide
    simp only [henv, bind, Except.bind, pure, Except.pure, hnone, Bool.false_eq_true, if_false,
      Except.ok.injEq, Prod.mk.injEq] at hinject
    exact hinject.2 ▸ h

/-- The record has a configuration that comes from the saved one, and so does everything that was
put in its place since `start`. -/
structure Kind (host : Host) (tenantId : String) (saved : Json) (start w : World) : Prop where
  record : ∀ s, w.redis.get (stateKey tenantId) = some s → Derived host tenantId saved s.configData
  adds : Adds (Preserves host tenantId saved) start w

theorem Kind.of_same (h : Kind host tenantId saved start w) (hsame : Same w w') :
    Kind host tenantId saved start w' :=
  ⟨hsame.redis_eq ▸ h.record, h.adds.of_eq hsame.effects_eq⟩

theorem Kind.of_removed (h : Kind host tenantId saved start w) (hremoved : Removed w w') :
    Kind host tenantId saved start w' := by
  obtain ⟨_, _, es, rfl, hes⟩ := hremoved
  obtain ⟨es', hes', hadds⟩ := h.adds
  refine ⟨h.record, es' ++ es, by rw [hes', List.append_assoc], fun e he => ?_⟩
  rcases List.mem_append.mp he with he | he
  · exact hadds e he
  · obtain ⟨id, rfl | rfl⟩ := hes e he <;> trivial

theorem Kind.of_change (hc : Provides host tenantId saved c)
    (hno : ∀ tc, ¬Known tenantId w₀ tc) (hstep : Change host tenantId (some c) w₀ w w')
    (h : Kind host tenantId saved start w) : Kind host tenantId saved start w' := by
  obtain ⟨hrecord, hadds⟩ := h
  -- a record that is saved has a configuration that comes from the saved one
  have hput {s : TenantState} (hs : Derived host tenantId saved s.configData) :
      Kind host tenantId saved start (w.put s) := by
    refine ⟨fun s' hs' => ?_, hadds.snoc rfl fun _ => hs⟩
    rw [World.put, Dict.get_set] at hs'
    split_ifs at hs'
    · exact Option.some_inj.mp hs' ▸ hs
    · exact hrecord s' hs'
  cases hstep with
  | same hsame => exact ⟨hsame.redis_eq ▸ hrecord, hadds.of_eq hsame.effects_eq⟩
  | save hsaves =>
    cases hsaves with
    | missing hs | touched hs _ =>
      have hs := hrecord _ hs
      exact hput hs
    | stopped hk _ => exact absurd hk (hno _)
    | provisioned hc' _ _ hprepared =>
      obtain rfl := Option.some_inj.mp hc'
      obtain ⟨⟨setting, hmerge, -⟩, hinject⟩ := hprepared
      exact hput ((hc _ _ hmerge).2 _ _ hinject)
  | stop | remove => exact ⟨hrecord, hadds.snoc rfl trivial⟩
  | write hc' _ hmerge =>
    obtain rfl := Option.some_inj.mp hc'
    exact ⟨hrecord, hadds.snoc rfl fun _ => ⟨_, rfl, (hc _ _ hmerge).1⟩⟩
  | run hc' hprepared =>
    obtain rfl := Option.some_inj.mp hc'
    obtain ⟨⟨setting, hmerge, -⟩, hinject⟩ := hprepared
    exact ⟨hrecord, hadds.snoc rfl ((hc _ _ hmerge).2 _ _ hinject)⟩
  | _ => exact ⟨hrecord, hadds.of_eq rfl⟩

/-- Nothing is known of the tenant without cache and records. -/
theorem Kind.of_startTenant (hc : Provides host tenantId saved c)
    (h : Kind host tenantId saved start x) :
    Kind host tenantId saved start (endState (startTenant host tenantId c defaultImage) x) := by
  have hno : ∀ tc, ¬Known tenantId { x with tenants := .empty, redis := .empty } tc := by
    rintro tc (hentry | ⟨hstate, -⟩)
    · simp at hentry
    · simp at hstate
  exact Does.keeps startTenant_does (fun _ _ => Kind.of_change hc hno) h

theorem effects_prefix_of_startTenant :
    x.effects <+: (endState (startTenant host tenantId c defaultImage) x).effects :=
  Does.keeps (R := Change host tenantId (some c) x) (I := fun v => x.effects <+: v.effects)
    startTenant_does (fun _ _ hstep hpre => hpre.trans (effects_prefix_of_change hstep))
    List.prefix_rfl

/-! ### The main result -/

/-- The world when the configuration is written: what `stop_tenant` did to it. -/
structure Ready (host : Host) (tenantId : String) (state : TenantState) (w x : World) : Prop where
  returned : w.stops state = true → (w.keeps host state).isSome
  disk : x.disk = w.diskAfterStop host state
  grows : w.effects <+: x.effects
  saved : w.stops state = true → w.answersAt (w.lookups state + 2) = true →
    ∀ v ∈ w.keeps host state, ∃ s : TenantState, s.configData = v ∧
      ∃ es, w.effects <+: es ∧ es ++ [.redisSet (stateKey tenantId) s] <+: x.effects
  kind : (w.stops state = true → w.answersAt (w.lookups state + 2) = true →
    ∀ v ∈ w.keeps host state, Derived host tenantId state.configData v) →
      Kind host tenantId state.configData w x

theorem World.lookedUp_configData (w : World) (state : TenantState) :
    (w.lookedUp state).configData = state.configData := by
  unfold World.lookedUp
  split_ifs <;> rfl

theorem World.lookedUp_configDir (w : World) (state : TenantState) :
    (w.lookedUp state).configDir = state.configDir := by
  unfold World.lookedUp
  split_ifs <;> rfl

theorem Looked.grows (h : Looked tenantId state w u) : w.effects <+: u.effects := by
  rcases h.effects with h | h <;> rw [h]
  exact List.prefix_append _ _

theorem Looked.kind (h : Looked tenantId state w u) :
    Kind host tenantId state.configData w u := by
  refine ⟨fun s hs => ?_, ?_⟩
  · rw [← Option.some_inj.mp (h.record.record.symm.trans hs), w.lookedUp_configData]
    exact .saved
  · rcases h.effects with heffects | heffects
    · exact (Adds.refl _ _).of_eq heffects
    · exact (Adds.refl _ _).snoc heffects fun _ => .saved

/-- The world is ready once `stop_tenant` saved what it keeps and removed the container. -/
theorem ready_of_saved {y : World} {s : TenantState} {kept : Json} (hstop : w.stops state = true)
    (hkept : w.keeps host state = some kept) (hgrows : w.effects <+: v.effects)
    (hkind : Kind host tenantId state.configData w v) (hdisk : y.disk = w.diskAfterStop host state)
    (hs : s.configData = kept)
    (hsaved : (y.redis, y.effects) =
      if w.answersAt (w.lookups state + 2) then
        (v.redis.set (stateKey tenantId) s, v.effects ++ [.redisSet (stateKey tenantId) s])
      else (v.redis, v.effects))
    (hremoved : Removed y x) : Ready host tenantId state w x := by
  have hgrows' : w.effects <+: y.effects := by
    split_ifs at hsaved
    · rw [(Prod.mk.inj hsaved).2]
      exact hgrows.trans (List.prefix_append _ _)
    · rwa [(Prod.mk.inj hsaved).2]
  have hlast : y.effects <+: x.effects := by
    obtain ⟨_, _, es, rfl, -⟩ := hremoved
    exact List.prefix_append _ _
  refine ⟨by simp [hkept], ?_, hgrows'.trans hlast, fun _ hset v' hv' => ?_, fun hderived => ?_⟩
  · obtain ⟨_, _, es, rfl, -⟩ := hremoved
    exact hdisk
  · obtain rfl := Option.some_inj.mp (hkept.symm.trans hv')
    rw [if_pos hset] at hsaved
    exact ⟨s, hs, v.effects, hgrows, (Prod.mk.inj hsaved).2 ▸ hlast⟩
  · -- removing the container keeps the record
    refine Kind.of_removed ?_ hremoved
    split_ifs at hsaved with hset
    · obtain ⟨hredis, heffects⟩ := Prod.mk.inj hsaved
      have hderived : Derived host tenantId state.configData s.configData :=
        hs ▸ hderived hstop hset kept hkept
      refine ⟨fun s' hs' => ?_, hkind.adds.snoc heffects fun _ => hderived⟩
      rw [hredis, Dict.get_set_self] at hs'
      exact Option.some_inj.mp hs' ▸ hderived
    · obtain ⟨hredis, heffects⟩ := Prod.mk.inj hsaved
      exact ⟨hredis ▸ hkind.record, hkind.adds.of_eq heffects⟩

/-- What `stop_tenant` does after `get_tenant` and `get_saved_state`: it raises without an effect,
or it leaves a world in which the configuration is written. -/
theorem stopTenant_cases (host : Host) (hentry : w.tenants.get tenantId = none)
    (h : Looked tenantId state w u) :
    (w.stops state = true ∧ w.keeps host state = none ∧
        ∃ e x, (stopTenant host tenantId).run u.asked = .error e x ∧ x.effects = u.effects) ∨
      ∃ x, (stopTenant host tenantId).run u.asked = .ok () x ∧ Ready host tenantId state w x := by
  have hasked : HasConfig u.asked tenantId (w.lookedUp state) := h.record.of_same u.same_asked
  have hentry' : u.asked.tenants.get tenantId = none := by
    rw [u.same_asked.tenants_eq, h.tenants, hentry]
  have hanswers (n : ℕ) : u.asked.answersAt n = w.answersAt (w.lookups state + (n + 1)) := by
    rw [World.asked_answersAt, h.answersAt]
  have hdisk : u.asked.disk = w.disk := u.disk_asked.trans h.disk
  have hkeeps := keeps_congr host hdisk (w.lookedUp_configDir state) (w.lookedUp_configData state)
  have hstops : (u.asked.answersAt 0 && (w.lookedUp state).runningContainer.isSome) =
      w.stops state := by
    rw [hanswers, World.stops, World.lookedUp, Bool.and_comm]
    split_ifs with hmarked
    · simp [hmarked, TenantState.markStopped, TenantState.runningContainer]
    · simp [hmarked]
  have hkind : Kind host tenantId state.configData w u.asked := h.kind.of_same u.same_asked
  have hgrows : w.effects <+: u.asked.effects := u.same_asked.effects_eq ▸ h.grows
  -- with nothing to stop the method returns at once
  cases hstop : w.stops state with
  | false =>
    refine .inr ⟨u.asked.asked, stopTenant_run_idle hasked hentry' (hstops.trans hstop), ?_⟩
    refine ⟨by simp [hstop], ?_, ?_, by simp [hstop], fun _ => hkind.of_same u.asked.same_asked⟩
    · rw [World.diskAfterStop, hstop]
      exact u.asked.disk_asked.trans hdisk
    · rwa [u.asked.same_asked.effects_eq]
  | true =>
    cases hkept : w.keeps host state with
    | none =>
      obtain ⟨e, x, hrun, heffects⟩ := stopTenant_run_raises host hasked hentry'
        (hstops.trans hstop) (hkeeps.1.trans hkept)
      exact .inl ⟨rfl, rfl, e, x, hrun, heffects.trans u.same_asked.effects_eq⟩
    | some kept =>
      obtain ⟨y, x, hrun, hremoved, hy, hsaved⟩ := stopTenant_run_saves host hasked
        hentry' (hstops.trans hstop) (hkeeps.1.trans hkept)
      rw [hanswers] at hsaved
      refine .inr ⟨x, hrun, ready_of_saved hstop hkept hgrows hkind ?_ rfl hsaved hremoved⟩
      rw [hy, World.diskAfterStop, hstop, if_pos rfl, ← hkeeps.2]
      exact congrArg (fun disk : Disk => (⟨disk.fs, disk.faults.drop _⟩ : Disk)) hdisk

/-- What `get_or_create` does when it comes to a provisioning. -/
theorem getOrCreate_cases (host : Host) (h : HasConfig w tenantId state)
    (hre : w.reprovisions tenantId state = true) :
    (w.stops state = true ∧ w.keeps host state = none ∧
        Adds (Preserves host tenantId state.configData) w
          (endState (getOrCreate host tenantId) w)) ∨
      ∃ x, Ready host tenantId state w x ∧ endState (getOrCreate host tenantId) w =
        endState (startTenant host tenantId (w.resumes state) defaultImage) x := by
  simp only [World.reprovisions, Bool.and_eq_true, Option.isNone_iff_eq_none,
    Bool.not_eq_true'] at hre
  obtain ⟨⟨hentry, hclient⟩, hfinds⟩ := hre
  obtain ⟨u, hrun, hlooked⟩ := getTenant_run_none h hentry hfinds
  -- the configuration is the one of the record, where it can be loaded
  have hresumes : ((((if u.answers then u.redis.get (stateKey tenantId) else none).map
      TenantState.configData).filter Json.truthy).getD (.obj [])) = w.resumes state := by
    rw [World.resumes, ← World.answersAt_zero, hlooked.answersAt, Nat.add_zero,
      hlooked.record.record]
    split_ifs
    · rw [Option.map_some, Option.filter_some, w.lookedUp_configData, if_pos h.truthy,
        Option.getD_some]
    · rfl
  have hclient' : u.asked.hasClient = true := by
    rw [← hclient, ← hlooked.hasClient]
    unfold World.asked
    split_ifs <;> rfl
  have hend : endState (getOrCreate host tenantId) w = endState (do
      stopTenant host tenantId
      startTenant host tenantId (w.resumes state) defaultImage) u.asked := by
    have hprovision : (provisionTenant host tenantId (w.resumes state) defaultImage).run u.asked =
        (do
          stopTenant host tenantId
          startTenant host tenantId (w.resumes state) defaultImage).run u.asked := by
      simp [provisionTenant, hclient']
    rw [getOrCreate, endState_bind_of_ok hrun]
    dsimp only
    rw [endState_bind_of_ok getSavedState_run, hresumes]
    simp only [endState, hprovision]
  rw [hend]
  rcases stopTenant_cases host hentry hlooked with
    ⟨hstop, hkept, e, x, hstopped, heffects⟩ | ⟨x, hstopped, hready⟩
  · refine .inl ⟨hstop, hkept, ?_⟩
    rw [endState_bind_of_error hstopped]
    exact hlooked.kind.adds.of_eq heffects
  · exact .inr ⟨x, hready, endState_bind_of_ok hstopped⟩

/-- Where it does not come to a provisioning, `get_or_create` saves at most that the container is
gone. -/
theorem harmless_of_not_reprovisions (h : HasConfig w tenantId state)
    (hre : w.reprovisions tenantId state = false) : Harmless host tenantId w state := by
  have hadds : Adds (Preserves host tenantId state.configData) w
      (endState (getOrCreate host tenantId) w) := by
    by_cases hfound : w.tenants.get tenantId ≠ none ∨ w.finds state = true
    · obtain ⟨tc, u, hrun, heffects⟩ := getTenant_run_some h hfound
      rw [getOrCreate, endState_bind_of_ok hrun]
      exact (Adds.refl _ _).of_eq heffects
    · obtain ⟨hentry, hfinds⟩ := not_or.mp hfound
      rw [ne_eq, not_not] at hentry
      obtain ⟨u, hrun, hlooked⟩ := getTenant_run_none h hentry (by simpa using hfinds)
      -- without a client the provisioning raises
      have hclient : u.asked.hasClient = false := by
        have hclient : w.hasClient = false := by
          simpa [World.reprovisions, hentry, hfinds] using hre
        rw [← hclient, ← hlooked.hasClient]
        unfold World.asked
        split_ifs <;> rfl
      rw [getOrCreate, endState_bind_of_ok hrun]
      dsimp only
      rw [endState_bind_of_ok getSavedState_run]
      have hraises (c : Json) : (provisionTenant host tenantId c defaultImage).run u.asked =
          .error (.other "Docker SDK is not initialized") u.asked := by
        simp only [provisionTenant, EStateM.run_bind, EStateM.run_get, hclient, Bool.not_false,
          if_true]
        rfl
      rw [endState_of_error (hraises _)]
      exact hlooked.kind.adds.of_eq u.same_asked.effects_eq
  exact fun e he => hadds.of_mem_effectsSince he

theorem harmless_of_steady (h : HasConfig w tenantId state)
    (hsteady : Steady host tenantId w state) : Harmless host tenantId w state := by
  cases hre : w.reprovisions tenantId state with
  | false => exact harmless_of_not_reprovisions h hre
  | true =>
    intro e he
    rcases getOrCreate_cases host h hre with ⟨-, -, hadds⟩ | ⟨x, hready, hend⟩
    · exact hadds.of_mem_effectsSince he
    have hkind := hready.kind (hsteady.kept hre)
    rw [hend, World.resumes] at he
    split_ifs at he with hanswer
    · exact (hkind.of_startTenant provides_self).adds.of_mem_effectsSince he
    -- the empty configuration is provisioned
    by_cases hwrites : WritesDefault host tenantId x.disk
    · have hdefault := hsteady.read hre (by simpa using hanswer) hready.returned
        (hready.disk ▸ hwrites)
      exact (hkind.of_startTenant (provides_empty hdefault)).adds.of_mem_effectsSince he
    · obtain ⟨e', u, hrun, heffects⟩ := writeConfig_empty_raises hwrites
      rw [startTenant, endState_bind_of_error hrun] at he
      exact (hkind.adds.of_eq heffects).of_mem_effectsSince he

theorem steady_of_harmless (h : HasConfig w tenantId state)
    (hharmless : Harmless host tenantId w state) : Steady host tenantId w state := by
  cases hre : w.reprovisions tenantId state with
  | false => exact ⟨by simp [hre], by simp [hre]⟩
  | true =>
    rcases getOrCreate_cases host h hre with ⟨hstop, hkept, -⟩ | ⟨x, hready, hend⟩
    · exact ⟨by simp [hkept], by simp [hkept, hstop]⟩
    have hlast : x.effects <+: (endState (getOrCreate host tenantId) w).effects :=
      hend ▸ effects_prefix_of_startTenant
    constructor
    · intro _ hstop hset v hv
      obtain ⟨s, rfl, es, hgrows, hes⟩ := hready.saved hstop hset v hv
      exact hharmless _ (mem_effectsSince hgrows (hes.trans hlast)) rfl
    · intro _ hno _ hwrites
      obtain ⟨hwritten, -⟩ := writes_defaultConfig (w := x) (hready.disk ▸ hwrites) defaultImage
      rw [World.resumes, if_neg (by simp [hno])] at hend
      have hmem := mem_effectsSince hready.grows hwritten
      rw [← hend] at hmem
      obtain ⟨v, hv, hderived⟩ := hharmless _ hmem rfl
      rwa [FileText.json.inj hv]

/-- **The saved configuration survives exactly these answers of Redis.** -/
theorem harmless_iff_steady (host : Host) (tenantId : String) (w : World) (state : TenantState)
    (h : HasConfig w tenantId state) :
    Harmless host tenantId w state ↔ Steady host tenantId w state :=
  ⟨steady_of_harmless h, harmless_of_steady h⟩

end Resuming

/-! ### Calls that fail -/

/-- A configuration with a directory of tools. -/
def withTools (path : String) : Json := .obj [("gateway", .obj [("toolsDir", .str path)])]

/-- The tenant is provisioned and stopped, and then calls to Redis fail. -/
def failing (redis : List Bool) : List Op :=
  [.provision "alice" (withTools "/data/tools") defaultImage, .stop "alice", .fail redis [] []]

/-- When only `get_tenant` is not answered, the configuration survives. -/
theorem harmless_iff_steady_oneFailure : ∃ w state,
    (machine sampleHost sampleWorld).run (failing [true]) = some w ∧ HasConfig w "alice" state ∧
      w.reprovisions "alice" state = true ∧ Harmless sampleHost "alice" w state := by
  have hcheck : ((machine sampleHost sampleWorld).run (failing [true])).bind (fun w =>
      (w.redis.get (stateKey "alice")).map fun state =>
        decide (state.tenantId = "alice" ∧ state.configData.truthy = true ∧
          w.reprovisions "alice" state = true ∧ w.stops state = false ∧
            w.answersAt (w.lookups state) = true)) = some true := by decide +kernel
  obtain ⟨w, hrun, hcheck⟩ := Option.bind_eq_some_iff.mp hcheck
  obtain ⟨state, hstate, hcheck⟩ := Option.map_eq_some_iff.mp hcheck
  obtain ⟨htenant, htruthy, hre, hstops, hanswer⟩ := of_decide_eq_true hcheck
  have h : HasConfig w "alice" state := ⟨hstate, htenant, htruthy⟩
  exact ⟨w, state, hrun, h, hre, (harmless_iff_steady sampleHost "alice" w state h).mpr
    ⟨by simp [hstops], by simp [hanswer]⟩⟩

/-- A configuration that comes from another one has its directory of tools. -/
theorem Derived.tools {host : Host} {tenantId : String} {saved v : Json}
    (h : Derived host tenantId saved v) :
    (v.getD "gateway").getD "toolsDir" = (saved.getD "gateway").getD "toolsDir" := by
  cases h with
  | saved => rfl
  | written hmerge => exact (like_written hmerge).tools
  | injected hmerge hinject => exact (like_saved (like_written hmerge) hinject).tools

/-- **Two calls that fail destroy the saved configuration**: neither `get_tenant` nor
`get_saved_state` is answered, and the default configuration takes its place. -/
theorem saved_config_lost : ∃ w state,
    (machine sampleHost sampleWorld).run (failing [true, true]) = some w ∧
      HasConfig w "alice" state ∧ ¬Harmless sampleHost "alice" w state := by
  have hcheck : ((machine sampleHost sampleWorld).run (failing [true, true])).bind (fun w =>
      (w.redis.get (stateKey "alice")).map fun state =>
        decide (state.tenantId = "alice" ∧ state.configData.truthy = true ∧
          w.reprovisions "alice" state = true ∧ w.stops state = false ∧
            w.answersAt (w.lookups state) = false ∧
              WritesDefault sampleHost "alice" (w.diskAfterStop sampleHost state) ∧
                (state.configData.getD "gateway").getD "toolsDir" = .str "/data/tools")) =
      some true := by decide +kernel
  obtain ⟨w, hrun, hcheck⟩ := Option.bind_eq_some_iff.mp hcheck
  obtain ⟨state, hstate, hcheck⟩ := Option.map_eq_some_iff.mp hcheck
  obtain ⟨htenant, htruthy, hre, hstops, hno, hwrites, htools⟩ := of_decide_eq_true hcheck
  have h : HasConfig w "alice" state := ⟨hstate, htenant, htruthy⟩
  refine ⟨w, state, hrun, h, fun hharmless => ?_⟩
  have hdefault := (steady_of_harmless h hharmless).read hre hno (by simp [hstops]) hwrites
  exact absurd (hdefault.tools.trans htools) (by decide)

end Nanogate.Tenants
