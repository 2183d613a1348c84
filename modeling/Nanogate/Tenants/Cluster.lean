import Mathlib.Data.Fintype.Basic
import Nanogate.Tenants.Mirror

/-!
# Several gateways

Each gateway process has a cache of its own; Redis and Docker are shared. `get_tenant` answers
from the cache without asking either, so what it answers is as old as the entry. An entry goes
stale when another process stops the tenant or marks its record as stopped, and when the
container vanishes.

## Main definitions

* `Cluster`, `cluster` — processes that share a world, and their runs
* `Current` — the record says running and names this container, and the container exists
* `Undisturbed` — a step that makes no entry of a cache stale

## Main results

* `current_of_run` — without disturbances `get_tenant` returns current containers only
* `stale_returned` — it returns a container that vanished
-/

namespace Nanogate.Tenants

open Nanogate.Python Nanogate.Semantics Relation

/-! ### Entries that are current -/

/-- The tenant's record says running and names this container, and the container exists. -/
structure Current (w : World) (t : String) (tc : TenantContainer) : Prop where
  record : ∃ state, w.redis.get (stateKey t) = some state ∧ state.status = .running ∧
    state.containerId = some tc.containerId ∧ state.port = tc.port
  container : (w.containers.get tc.containerId).isSome = true

/-- An entry mirrors the tenant's record, and its container exists and is the tenant's. -/
structure Live (w : World) (t : String) (tc : TenantContainer) : Prop where
  mirrored : ∃ state, w.redis.get (stateKey t) = some state ∧ Mirrors tc state
  container : ∃ c, w.containers.get tc.containerId = some c ∧ c.name = containerName t

/-- The call makes a record say stopped that said running. -/
def Call.Disturbs (host : Host) : Call → Prop
  | .stop t w => (w.holder t).isSome = true ∧ ¬w.StopRaises host t
  | .look t w => w.hasClient = true ∧ w.tenants.get t = none ∧
      ∃ state ∈ w.redis.get (stateKey t), ∃ id ∈ state.runningContainer, ¬w.Finds id
  | _ => False

instance (host : Host) : (c : Call) → Decidable (c.Disturbs host)
  | .stop _ _ => inferInstanceAs (Decidable (_ ∧ _))
  | .look t w => inferInstanceAs (Decidable (_ ∧ _ ∧ ∃ state ∈ w.redis.get (stateKey t),
      ∃ id ∈ state.runningContainer, ¬w.Finds id))
  | .touch .. | .start .. => inferInstanceAs (Decidable False)

/-- The entries of a process and those that are held elsewhere are live. -/
def Lively (Held : String → TenantContainer → Prop) (w : World) : Prop :=
  ∀ t tc, w.tenants.get t = some tc ∨ Held t tc → Live w t tc

section Live

variable {host : Host} {w w' : World} {t t' : String} {tc : TenantContainer} {config : Json}
  {c : Call} {Held : String → TenantContainer → Prop}

theorem Live.current (h : Live w t tc) : Current w t tc := by
  obtain ⟨state, hstate, hmirrors⟩ := h.mirrored
  obtain ⟨c, hc, -⟩ := h.container
  exact ⟨⟨state, hstate, hmirrors.status, hmirrors.containerId, hmirrors.port.symm⟩,
    by rw [hc]; rfl⟩

theorem Live.congr (h : Live w t tc)
    (hrecord : ∀ state, w.redis.get (stateKey t) = some state → Mirrors tc state →
      ∃ state', w'.redis.get (stateKey t) = some state' ∧ Mirrors tc state')
    (hcontainer : ∀ c, w.containers.get tc.containerId = some c → c.name = containerName t →
      w'.containers.get tc.containerId = some c) : Live w' t tc := by
  obtain ⟨state, hstate, hmirrors⟩ := h.mirrored
  obtain ⟨c, hc, hname⟩ := h.container
  exact ⟨hrecord state hstate hmirrors, c, hcontainer c hc hname, hname⟩

/-- The last activity of an entry does not matter. -/
theorem Live.touched {now : Int} (h : Live w t tc) : Live w t { tc with lastActivity := now } := by
  obtain ⟨state, hstate, hmirrors⟩ := h.mirrored
  exact ⟨⟨state, hstate, hmirrors.touched.1⟩, h.container⟩

theorem Lively.backed (h : Lively Held w) : Backed w := fun t tc htc => (h t tc (.inl htc)).mirrored

/-- A live entry is something to stop. -/
theorem Lively.holder (h : Lively Held w) (hentry : w.tenants.get t = some tc ∨ Held t tc) :
    (w.holder t).isSome = true := by
  obtain ⟨state, hstate, hmirrors⟩ := (h t tc hentry).mirrored
  have hrun : state.runningContainer = some tc.containerId := by
    unfold TenantState.runningContainer
    rw [hmirrors.status]
    exact hmirrors.containerId
  cases hcache : w.tenants.get t with
  | some tc' => simp [World.holder, hcache]
  | none => simp [World.holder, hcache, hstate, hrun]

/-- A call removes only containers of its tenant. -/
theorem containers_of_leads (hw : Sound host c.world) (hleads : c.Leads host w') {id : ℕ}
    {container : Container} (hget : c.world.containers.get id = some container)
    (hname : container.name ≠ containerName c.tenantId) :
    w'.containers.get id = some container := by
  cases c with
  | stop t w =>
    cases hleads with
    | idle => exact hget
    | raised _ hread => exact hread.same.containers_eq ▸ hget
    | @stopped tc _ hholder _ hhalted =>
      refine (hhalted.others id ?_).trans hget
      rintro rfl
      -- the container that is removed is the tenant's own
      exact hname ((hw.coherent.belongs_of_known (known_of_holder hholder)).owns.2 container hget)
  | look t w => cases hleads <;> exact hget
  | touch t w => cases hleads <;> exact hget
  | start t config w =>
    obtain ⟨-, -, hlaunch⟩ := hleads
    cases hlaunch with
    | failed hsteps => exact (untouched_of_preparing hsteps).kept id container hget hname
    | @launched y _ started _ _ _ hstart _ hsame =>
      have hframe := untouched_of_preparing hstart.reaches
      -- the new container has a new id
      have hne : id ≠ y.nextId := by
        have hlt := hw.coherent.fresh id container hget
        rw [hframe.nextId]
        exact Nat.ne_of_lt hlt
      have hcontainers : w'.containers = y.containers.set y.nextId started := hsame.containers_eq
      rw [hcontainers, Dict.get_set_of_ne hne]
      exact hframe.kept id container hget hname

/-! ### What calls do to entries -/

theorem Lively.of_stopping (h : Lively Held w) (hstop : Stopping host t w w')
    (hquiet : (Call.stop t w).Disturbs host → ∀ tc, ¬Held t tc)
    (hentry : w'.tenants.get t = some tc ∨ Held t tc) : Live w' t tc := by
  cases hstop with
  | idle => exact h t tc hentry
  | raised _ hread =>
    obtain ⟨_, _, rfl⟩ := hread
    -- the entry is gone, and the record stays: other entries are still live
    have hheld : Held t tc := hentry.resolve_left (by simp [World.uncache])
    have hlive := h t tc (.inr hheld)
    exact ⟨hlive.mirrored, hlive.container⟩
  | stopped hholder hno hhalted =>
    rcases hentry with hentry | hheld
    · simp [hhalted.tenants] at hentry
    · -- the record says stopped, so nobody else may hold an entry
      exact absurd hheld (hquiet ⟨by rw [hholder]; rfl, hno⟩ tc)

theorem Lively.of_looking (h : Lively Held w) (hw : Sound host w) (hlook : Looking t w w')
    (hquiet : (Call.look t w).Disturbs host → ∀ tc, ¬Held t tc)
    (hentry : w'.tenants.get t = some tc ∨ Held t tc) : Live w' t tc := by
  have hheld (hentry : Held t tc) : Live w t tc := h t tc (.inr hentry)
  cases hlook with
  | @hit old hold =>
    rcases hentry with hentry | hentry
    · obtain rfl := Option.some_inj.mp (Dict.get_set_self.symm.trans hentry)
      have hlive : Live w t { old with lastActivity := w.now } := (h t old (.inl hold)).touched
      exact ⟨hlive.mirrored, hlive.container⟩
    · exact ⟨(hheld hentry).mirrored, (hheld hentry).container⟩
  | nothing => exact h t tc hentry
  | @restored state id _ hstate hrun hfinds =>
    rcases hentry with hentry | hentry
    · obtain rfl := Option.some_inj.mp (Dict.get_set_self.symm.trans hentry)
      have hid := containerId_of_runningContainer hrun
      -- the container was found, so the new entry is live
      obtain ⟨c, hc⟩ := Option.isSome_iff_exists.mp hfinds.2
      obtain ⟨-, -, howns⟩ := hw.coherent.record t state hstate
      exact ⟨⟨state, hstate, status_of_runningContainer hrun, rfl, hid, rfl, rfl⟩, c, hc,
        (howns id hid).2 c hc⟩
    · exact ⟨(hheld hentry).mirrored, (hheld hentry).container⟩
  | @missing state id hmiss hstate hrun hfinds =>
    have hclient := (hw.registered.record _ _ hstate).2.hasClient
    rcases hentry with hentry | hentry
    · exact absurd (hmiss.symm.trans hentry) (by simp)
    · exact absurd hentry (hquiet ⟨hclient, hmiss, state, hstate, id, hrun, hfinds⟩ tc)

theorem Lively.of_touching (h : Lively Held w) (hw : Sound host w) (htouch : Touching t w w')
    (hentry : w'.tenants.get t = some tc ∨ Held t tc) : Live w' t tc := by
  cases htouch with
  | absent => exact h t tc hentry
  | @cached old hold =>
    rcases hentry with hentry | hentry
    · obtain rfl := Option.some_inj.mp (Dict.get_set_self.symm.trans hentry)
      have hlive : Live w t { old with lastActivity := w.now } := (h t old (.inl hold)).touched
      exact ⟨hlive.mirrored, hlive.container⟩
    · have hlive := h t tc (.inr hentry)
      exact ⟨hlive.mirrored, hlive.container⟩
  | @recorded old state hold hstate _ =>
    have hkey : stateKey state.tenantId = stateKey t := (hw.registered.record _ _ hstate).1.symm
    have hrecord : (w.redis.set (stateKey state.tenantId) { state with lastActivity := w.now }).get
        (stateKey t) = some { state with lastActivity := w.now } := by
      rw [hkey, Dict.get_set_self]
    -- the record changed in its last activity only
    have hlive {entry : TenantContainer} (hlive : Live w t entry) :
        Live ((w.cached t { old with lastActivity := w.now }).put
          { state with lastActivity := w.now }) t entry := by
      refine hlive.congr (fun state' hstate' hmirrors => ⟨_, hrecord, ?_⟩) fun _ hc _ => hc
      obtain rfl := Option.some_inj.mp (hstate.symm.trans hstate')
      exact ⟨hmirrors.status, hmirrors.tenantId, hmirrors.containerId, hmirrors.port,
        hmirrors.configDir⟩
    rcases hentry with hentry | hentry
    · obtain rfl := Option.some_inj.mp (Dict.get_set_self.symm.trans hentry)
      exact hlive (h t old (.inl hold)).touched
    · exact hlive (h t tc (.inr hentry))

theorem Lively.of_launching (h : Lively Held w) (hholder : w.holder t = none)
    (hlaunch : Launching host t config w w') (hentry : w'.tenants.get t = some tc ∨ Held t tc) :
    Live w' t tc := by
  -- there was nothing to stop, so there was no entry anywhere
  have hno (hentry : w.tenants.get t = some tc ∨ Held t tc) : False := by
    have hsome := h.holder hentry
    simp [hholder] at hsome
  cases hlaunch with
  | failed hsteps =>
    rw [(untouched_of_preparing hsteps).tenants] at hentry
    exact (hno hentry).elim
  | @launched y _ container _ _ saved hstart _ hsame =>
    rcases hentry with hentry | hentry
    · obtain ⟨htenants, hredis⟩ := launched_entry hsame
      rw [htenants, Dict.get_set_self] at hentry
      obtain rfl := Option.some_inj.mp hentry
      refine ⟨⟨_, by rw [hredis, Dict.get_set_self], rfl, rfl, rfl, rfl, rfl⟩, container, ?_,
        hstart.name⟩
      rw [hsame.containers_eq]
      exact Dict.get_set_self
    · exact (hno (.inr hentry)).elim

theorem Lively.of_leads (h : Lively Held c.world) (hw : Sound host c.world)
    (hquiet : c.Disturbs host → ∀ tc, ¬Held c.tenantId tc) (hleads : c.Leads host w') :
    Lively Held w' := by
  intro t tc hentry
  by_cases ht : t = c.tenantId
  · subst ht
    cases c with
    | stop t w => exact h.of_stopping hleads hquiet hentry
    | look t w => exact h.of_looking hw hleads hquiet hentry
    | touch t w => exact h.of_touching hw hleads hentry
    | start t config w => exact h.of_launching hleads.1 hleads.2.2 hentry
  · -- another tenant keeps its record and its container
    have hs := settled_of_leads hw h.backed hleads
    rw [hs.tenants t ht] at hentry
    refine (h t tc hentry).congr (fun state hstate hmirrors => ⟨state, ?_, hmirrors⟩)
      fun container hc hname => containers_of_leads hw hleads hc ?_
    · rwa [hs.redis _ fun heq => ht (stateKey_inj.mp heq)]
    · exact fun heq => ht (containerName_inj.mp (hname.symm.trans heq))

theorem keeps_lively : Keeps host (fun c => c.Disturbs host → ∀ tc, ¬Held c.tenantId tc)
    (Lively Held) where
  same u v huv h t tc hentry := by
    rw [huv.tenants_eq] at hentry
    refine (h t tc hentry).congr (fun state hstate hmirrors => ⟨state, ?_, hmirrors⟩)
      fun c hc _ => ?_
    · rwa [huv.redis_eq]
    · rwa [huv.containers_eq]
  build u image h t tc hentry := ⟨(h t tc hentry).mirrored, (h t tc hentry).container⟩
  call _ _ hquiet hw _ hleads _ h := h.of_leads hw hquiet hleads

end Live

/-! ### Processes -/

/-- Gateway processes and the world they share; in each process the world has the cache of that
process. -/
structure Cluster (n : ℕ) where
  world : World
  caches : Fin n → Dict String TenantContainer

/-- What a process finds. -/
def Cluster.view {n : ℕ} (cl : Cluster n) (k : Fin n) : World :=
  { cl.world with tenants := cl.caches k }

/-- Processes on one host, each operation run by one of them. -/
def cluster (host : Host) (n : ℕ) (w : World) : Machine (Cluster n) (Fin n × Op) where
  init := ⟨w, fun _ => .empty⟩
  step cl a :=
    if a.2.Enabled (cl.view a.1) then
      let w := endState (program host a.2) (cl.view a.1)
      some ⟨w, Function.update cl.caches a.1 w.tenants⟩
    else none

/-- A container that vanishes is in no cache. -/
def VanishesUnheld {n : ℕ} (cl : Cluster n) : Op → Prop
  | .vanish id => ∀ k, ∀ e ∈ (cl.caches k).entries, e.2.containerId ≠ id
  | _ => True

instance {n : ℕ} (cl : Cluster n) : (op : Op) → Decidable (VanishesUnheld cl op)
  | .vanish _ => inferInstanceAs (Decidable (∀ k, ∀ e ∈ (cl.caches k).entries, _))
  | .provision .. | .getTenant _ | .getOrCreate _ | .touch _ | .stop _ | .prune _ | .restart _
  | .shutdown | .pass _ | .listen _ | .fail .. => inferInstanceAs (Decidable True)

/-- Redis keeps working, no container vanishes while it is in a cache, and no process makes the
record of a tenant say stopped while the tenant is in the cache of another process. -/
def Undisturbed (host : Host) {n : ℕ} (cl : Cluster n) (a : Fin n × Op) : Prop :=
  KeepsRedis a.2 ∧ VanishesUnheld cl a.2 ∧ ∀ c ∈ calls host (cl.view a.1) a.2, c.Disturbs host →
    ∀ k, k ≠ a.1 → (cl.caches k).get c.tenantId = none

instance (host : Host) {n : ℕ} (cl : Cluster n) (a : Fin n × Op) :
    Decidable (Undisturbed host cl a) :=
  inferInstanceAs (Decidable (_ ∧ _ ∧ ∀ c ∈ calls host (cl.view a.1) a.2, _))

/-- The shared world is sound, and every entry of every cache is live. -/
structure Consistent (host : Host) {n : ℕ} (cl : Cluster n) : Prop where
  sound : Sound host cl.world
  live : ∀ k t tc, (cl.caches k).get t = some tc → Live cl.world t tc

section Processes

variable {host : Host} {n : ℕ} {w w' w₀ : World} {cl cl' : Cluster n} {a : Fin n × Op} {k : Fin n}
  {t : String} {tc : TenantContainer} {acts : List (Fin n × Op)}
  {Held : String → TenantContainer → Prop}

/-- The world is sound for any process whose entries are live. -/
theorem Sound.withCache {cache : Dict String TenantContainer} (h : Sound host w)
    (hlive : ∀ t tc, cache.get t = some tc → Live w t tc) :
    Sound host { w with tenants := cache } := by
  refine ⟨⟨h.coherent.fresh, fun t tc htc => ?_, h.coherent.record⟩, h.redisWorks,
    ⟨fun key state hstate => ?_, fun t tc htc => ?_⟩⟩
  · obtain ⟨⟨state, hstate, hmirrors⟩, c, hc, hname⟩ := hlive t tc htc
    obtain ⟨htenant, hdir, -⟩ := h.coherent.record t state hstate
    -- an entry that mirrors a record belongs to its tenant
    refine ⟨hmirrors.tenantId.trans htenant, hmirrors.configDir.trans hdir,
      h.coherent.fresh _ c hc, fun c' hc' => ?_⟩
    rw [← Option.some_inj.mp (hc.symm.trans hc'), hname]
  · obtain ⟨hkey, hgenuine⟩ := h.registered.record key state hstate
    exact ⟨hkey, hgenuine.congr rfl id⟩
  · obtain ⟨⟨state, hstate, -⟩, -⟩ := hlive t tc htc
    rw [hstate]
    rfl

theorem Consistent.view (h : Consistent host cl) (k : Fin n) : Sound host (cl.view k) :=
  h.sound.withCache (h.live k)

/-- What is in any cache is live for each of the processes. -/
theorem Consistent.lively (h : Consistent host cl) (k : Fin n)
    (hheld : ∀ t tc, Held t tc → ∃ j, (cl.caches j).get t = some tc) :
    Lively Held (cl.view k) := by
  intro t tc hentry
  obtain ⟨j, hj⟩ : ∃ j, (cl.caches j).get t = some tc := hentry.elim (fun h => ⟨k, h⟩) (hheld t tc)
  have hlive := h.live j t tc hj
  exact ⟨hlive.mirrored, hlive.container⟩

theorem Lively.direct {op : Op} (h : Lively Held w)
    (hspares : ∀ id, op = .vanish id → ∀ t tc, w.tenants.get t = some tc ∨ Held t tc →
      tc.containerId ≠ id) : Lively Held (direct true w op) := by
  have hkeep {t : String} {tc : TenantContainer} (hentry : w.tenants.get t = some tc ∨ Held t tc)
      {w' : World} (hredis : w'.redis = w.redis)
      (hcontainers : w'.containers.get tc.containerId = w.containers.get tc.containerId) :
      Live w' t tc := by
    refine (h t tc hentry).congr (fun state hstate hmirrors => ⟨state, ?_, hmirrors⟩)
      fun c hc _ => ?_
    · rwa [hredis]
    · rwa [hcontainers]
  intro t tc hentry
  cases op with
  | vanish id =>
    exact hkeep hentry rfl (Dict.get_erase_of_ne (hspares id rfl t tc hentry))
  | restart keys => exact hkeep (.inr (hentry.resolve_left (by simp [Tenants.direct]))) rfl rfl
  | _ => exact hkeep hentry rfl rfl

/-- Undisturbed steps keep every entry live. -/
theorem consistent_of_step (h : Consistent host cl) (hquiet : Undisturbed host cl a)
    (hstep : (cluster host n w₀).step cl a = some cl') : Consistent host cl' := by
  obtain ⟨k, op⟩ := a
  obtain ⟨hkeeps, hspares, hcalls⟩ := hquiet
  simp only [cluster] at hstep
  split_ifs at hstep with hen
  obtain rfl := Option.some_inj.mp hstep
  -- what the other processes hold
  let Others (t : String) (tc : TenantContainer) : Prop :=
    ∃ j, j ≠ k ∧ (cl.caches j).get t = some tc
  have hlively : Lively Others (cl.view k) := h.lively k fun t tc ⟨j, _, hj⟩ => ⟨j, hj⟩
  obtain ⟨hsound, hlive⟩ := keeps_lively.of_op (h.view k) hen hkeeps
    (fun c hc hdisturbs tc ⟨j, hne, hj⟩ => by simp [hcalls c hc hdisturbs j hne] at hj)
    (hlively.direct fun id hop t tc hentry => by
      subst hop
      obtain ⟨j, hj⟩ : ∃ j, (cl.caches j).get t = some tc :=
        hentry.elim (fun h => ⟨k, h⟩) fun ⟨j, _, hj⟩ => ⟨j, hj⟩
      exact hspares j (t, tc) (Dict.mem_entries_iff.mpr hj))
  -- the process has a new cache, the others keep theirs
  refine ⟨hsound, fun j t tc hentry => ?_⟩
  dsimp only at hentry
  by_cases hj : j = k
  · subst hj
    rw [Function.update_self] at hentry
    exact hlive t tc (.inl hentry)
  · rw [Function.update_of_ne hj] at hentry
    exact hlive t tc (.inr ⟨j, hj, hentry⟩)

theorem Fresh.consistent (h : Fresh w₀) (hworks : w₀.RedisWorks) :
    Consistent host (cluster host n w₀).init :=
  ⟨h.sound hworks, fun k t tc htc => by simp [cluster] at htc⟩

/-- **No stale container**: in a run without disturbances, a container that `get_tenant` returns is
the one that the record names, and it exists. -/
theorem current_of_run (hfresh : Fresh w₀) (hworks : w₀.RedisWorks)
    (hacts : (cluster host n w₀).AllSteps (Undisturbed host) (cluster host n w₀).init acts)
    (hrun : (cluster host n w₀).run acts = some cl)
    (hget : (getTenant t).run (cl.view k) = .ok (some tc) w') : Current w' t tc := by
  have h : Consistent host cl := Machine.run_invariant
    (fun hcl hquiet hstep => consistent_of_step hcl hquiet hstep) (hfresh.consistent hworks) hacts
    hrun
  have hlively : Lively (fun _ _ => False) (cl.view k) := h.lively k fun _ _ h => h.elim
  obtain ⟨hlook, hcached⟩ := (getTenant_ends (h.view k).redisWorks).ok hget
  refine (hlively.of_looking (h.view k) hlook (fun _ _ => id) ?_).current
  exact .inl hcached.symm

end Processes

/-! ### A container that vanishes -/

/-- One process starts a tenant, and both find its container. -/
theorem current_of_run_twoProcesses : ∃ cl tc w',
    (cluster sampleHost 2 sampleWorld).run
        [(0, .provision "alice" (.obj []) defaultImage), (1, .getTenant "alice")] = some cl ∧
      (getTenant "alice").run (cl.view 0) = .ok (some tc) w' ∧ Current w' "alice" tc := by
  have hcheck : ((cluster sampleHost 2 sampleWorld).run
      [(0, .provision "alice" (.obj []) defaultImage), (1, .getTenant "alice")]).map (fun cl =>
        returns (getTenant "alice") (cl.view 0) fun r _ => r.isSome) = some true := by
    decide +kernel
  obtain ⟨cl, hrun, hcheck⟩ := Option.map_eq_some_iff.mp hcheck
  have hacts : (cluster sampleHost 2 sampleWorld).AllSteps (Undisturbed sampleHost)
      (cluster sampleHost 2 sampleWorld).init
      [(0, .provision "alice" (.obj []) defaultImage), (1, .getTenant "alice")] := by
    decide +kernel
  obtain ⟨r, w', hget, hsome⟩ := exists_of_returns hcheck
  obtain ⟨tc, rfl⟩ := Option.isSome_iff_exists.mp hsome
  exact ⟨cl, tc, w', hrun, hget,
    current_of_run sampleWorld_fresh sampleWorld_redisWorks hacts hrun hget⟩

/-- **A stale container**: the container vanishes, and the process that started it still returns
its entry. -/
theorem stale_returned : ∃ acts cl tc w',
    acts = [(0, .provision "alice" (.obj []) defaultImage), (0, .vanish 0)] ∧
      (cluster sampleHost 1 sampleWorld).run acts = some cl ∧ Fresh sampleWorld ∧
      sampleWorld.RedisWorks ∧ (∀ a ∈ acts, KeepsRedis a.2) ∧
      (getTenant "alice").run (cl.view 0) = .ok (some tc) w' ∧ ¬Current w' "alice" tc := by
  have hcheck : ((cluster sampleHost 1 sampleWorld).run
      [(0, .provision "alice" (.obj []) defaultImage), (0, .vanish 0)]).map (fun cl =>
        returns (getTenant "alice") (cl.view 0) fun r w' =>
          r.any fun tc => (w'.containers.get tc.containerId).isNone) = some true := by
    decide +kernel
  obtain ⟨cl, hrun, hcheck⟩ := Option.map_eq_some_iff.mp hcheck
  obtain ⟨r, w', hget, hnone⟩ := exists_of_returns hcheck
  obtain ⟨tc, rfl, hgone⟩ := (Option.any_eq_true _ _).mp hnone
  refine ⟨_, cl, tc, w', rfl, hrun, sampleWorld_fresh, sampleWorld_redisWorks, by decide, hget,
    fun hcurrent => ?_⟩
  simpa [Option.isNone_iff_eq_none.mp hgone] using hcurrent.container

end Nanogate.Tenants
