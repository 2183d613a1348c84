import Mathlib.Data.List.Perm.Basic
import Nanogate.Semantics.Machine
import Nanogate.Tenants.Provisioning

/-!
# Runs of a gateway

The gateway serves requests for its tenants, prunes idle ones and is restarted; meanwhile
time passes, containers go away and calls fail. A run is a list of such operations. A method
runs to its end before the next one starts, and the exception it ends in is the answer to
its request.

## Main definitions

* `Work` — what methods do for some tenants
* `Op`, `machine` — the operations and the runs they form
* `Coherent` — every cache entry and every record names its tenant, the tenant's directory and
  a container that is the tenant's
* `WellNamed` — the tenants have names that Docker accepts

## Main results

* `prunePass_does` — a pass stops only containers of tenants it finds idle
* `WellNamed.readsBack` — the keys that a restart finds give back the tenants they are of
* `Fresh.coherent_of_run` — the manager stays coherent
-/

namespace Nanogate.Tenants

open Nanogate.Python Nanogate.Semantics Relation

/-! ### Work for several tenants -/

/-- A step of methods whose jobs are in `J`: a job is a tenant and the configuration to provision,
if there is one. -/
inductive Work (host : Host) (J : String → Option Json → Prop) : World → World → Prop
  | same {w w' : World} (h : Same w w') : Work host J w w'
  | build {w : World} {image : String} : Work host J w { w with images := w.images ++ [image] }
  | method {w w' : World} {tenantId : String} (config : Option Json) (hjob : J tenantId config)
      (h : ReflTransGen (Change host tenantId config w) w w') : Work host J w w'

/-- A tenant that a pass finds idle. -/
def Stale (w : World) (keys : List String) (tenantId : String) : Prop :=
  if w.hasRedis then
    tenantId ∈ keys.map tenantOfKey ∧
      ∃ state, w.redis.get (stateKey tenantId) = some state ∧ state.status = .running ∧
        idleTimeout < w.now - state.lastActivity
  else ∃ tc, w.tenants.get tenantId = some tc ∧ idleTimeout < w.now - tc.lastActivity

section Work

variable {α : Type} {host : Host} {J J' : String → Option Json → Prop} {tenantId : String}
  {config : Json}
  {w w' : World}

theorem Work.redisWorks (h : Work host J w w') (hw : w.RedisWorks) : w'.RedisWorks := by
  cases h with
  | same h => exact h.redisWorks hw
  | build => exact hw
  | method _ _ h => exact redisWorks_of_reaches h hw

theorem does_reading_work {m : M α} {V : α → World → Prop} (h : Does Same m V w) :
    Does (Work host J) m (fun a w' => Same w w' ∧ V a w') w :=
  does_of_reading (fun _ _ => .same) h

/-- A method for one tenant is one step. -/
theorem does_method {m : M α} {Q : α → World → Prop} (config : Option Json)
    (hjob : J tenantId config) (h : Does (Change host tenantId config w) m Q w) :
    Does (Work host J) m Q w :=
  h.weaken fun _ h => .single (.method config hjob h)

/-- `get_or_create` provisions what `get_saved_state` gives after `get_tenant` found nothing. -/
theorem getOrCreate_does (hread : J tenantId none)
    (hsaved : ∀ u saved, ReflTransGen (Change host tenantId none w) w u →
      (getSavedState tenantId).run u = .ok saved u.asked →
        J tenantId (some (saved.getD (.obj [])))) :
    Does (Work host J) (getOrCreate host tenantId) (fun _ _ => True) w := by
  unfold getOrCreate
  refine Does.bind (P := fun _ t => ReflTransGen (Change host tenantId none w) w t) ?_ ?_
  · exact does_method none hread ((getTenant_does host none).changes.mono fun _ _ _ h => h.1)
  intro tc t hsteps
  cases tc with
  | some tc => exact Does.pure trivial
  | none =>
    refine Does.bind (Does.of_ok (Q := fun saved _ => (getSavedState tenantId).run t =
      .ok saved t.asked) getSavedState_run (.single (.same t.same_asked)) getSavedState_run) ?_
    intro saved u hrun
    exact (does_method _ (hsaved t saved hsteps hrun) provisionTenant_does).mono
      fun _ _ _ _ => trivial

theorem stopAll_does {ts : List String} (hJ : ∀ t ∈ ts, J t none) :
    Does (Work host J) (stopAll host ts) (fun _ _ => True) w := by
  induction ts generalizing w with
  | nil => exact Does.pure trivial
  | cons t ts ih =>
    refine Does.bind (does_method none (hJ t (List.mem_cons_self ..)) stopTenant_does)
      fun _ _ _ => ih fun t' ht' => hJ t' (List.mem_cons_of_mem _ ht')

theorem shutdownAll_does (hJ : ∀ t ∈ w.tenants.keys, J t none) :
    Does (Work host J) (shutdownAll host) (fun _ _ => True) w :=
  Does.get_bind (stopAll_does hJ)

/-! ### The pruner -/

theorem idle_does {now : Int} : Does Same (idle now tenantId) (fun b _ => b = true →
    ∃ state, w.redis.get (stateKey tenantId) = some state ∧ state.status = .running ∧
      idleTimeout < now - state.lastActivity) w := by
  unfold idle
  refine Does.bind loadState_does ?_
  rintro loaded t ⟨hloaded, -⟩
  refine Does.pure fun hidle => ?_
  obtain ⟨state, hstate, hidle⟩ := (Option.any_eq_true ..).mp hidle
  exact ⟨state, hloaded state hstate, by simpa using hidle⟩

theorem idleTenants_does {now : Int} {keys : List String} : Does Same (idleTenants now keys)
    (fun ts _ => ∀ t ∈ ts, t ∈ keys.map tenantOfKey ∧
      ∃ state, w.redis.get (stateKey t) = some state ∧ state.status = .running ∧
        idleTimeout < now - state.lastActivity) w := by
  induction keys generalizing w with
  | nil => exact Does.pure (by simp)
  | cons key keys ih =>
    refine Does.bind (Does.changes idle_does) ?_
    rintro stale t ⟨hsame, hstale⟩
    refine Does.bind ih fun rest u hrest => Does.pure ?_
    rw [(Same.of_reaches hsame).redis_eq] at hrest
    intro t' ht'
    split_ifs at ht' with h
    · rcases List.mem_cons.mp ht' with rfl | ht'
      · exact ⟨List.mem_cons_self .., hstale h⟩
      · exact ⟨List.mem_cons_of_mem _ (hrest t' ht').1, (hrest t' ht').2⟩
    · exact ⟨List.mem_cons_of_mem _ (hrest t' ht').1, (hrest t' ht').2⟩

theorem toPrune_does {keys : List String} :
    Does (Work host J) (toPrune keys) (fun ts _ => ∀ t ∈ ts, Stale w keys t) w := by
  unfold toPrune
  refine Does.get_bind ?_
  cases hredis : w.hasRedis with
  | true =>
    refine Does.bind (does_reading_work redisCall_does) ?_
    rintro _ u ⟨hsame, -⟩
    refine (does_reading_work idleTenants_does).mono ?_
    rintro stale v _ ⟨-, hstale⟩ t ht
    rw [Stale, if_pos hredis, ← hsame.redis_eq]
    exact hstale t ht
  | false =>
    refine Does.pure fun t ht => ?_
    rw [Stale, if_neg (by simp [hredis])]
    obtain ⟨⟨t, tc⟩, hmem, rfl⟩ := List.mem_map.mp ht
    obtain ⟨hmem, hidle⟩ := List.mem_filter.mp hmem
    exact ⟨tc, Dict.mem_entries_iff.mp hmem, of_decide_eq_true hidle⟩

/-- A pass works only for tenants it finds idle. -/
theorem prunePass_does {keys : List String} (hJ : ∀ t, Stale w keys t → J t none) :
    Does (Work host J) (prunePass host keys) (fun _ _ => True) w := by
  unfold prunePass
  refine Does.tryCatch (Does.bind toPrune_does ?_) fun _ _ _ => Does.pure trivial
  exact fun stale u hstale => stopAll_does fun t ht => hJ t (hstale t ht)

/-! ### Starting -/

/-- A key that gives back the tenant it is of. -/
def Canonical (key : String) : Prop := stateKey (tenantOfKey key) = key

instance (key : String) : Decidable (Canonical key) := inferInstanceAs (Decidable (_ = _))

theorem reloadKeys_does {keys : List String} (hkeys : ∀ key ∈ keys, Canonical key)
    (hJ : ∀ key ∈ keys, J (tenantOfKey key) none) :
    Does (Work host J) (reloadKeys keys) (fun _ _ => True) w := by
  induction keys generalizing w with
  | nil => exact Does.pure trivial
  | cons key keys ih =>
    have hcanonical : stateKey (tenantOfKey key) = key := hkeys key (List.mem_cons_self ..)
    have hkey : J (tenantOfKey key) none := hJ key (List.mem_cons_self ..)
    have hrest (u : World) : Does (Work host J) (reloadKeys keys) (fun _ _ => True) u :=
      ih (fun k hk => hkeys k (List.mem_cons_of_mem _ hk)) fun k hk =>
        hJ k (List.mem_cons_of_mem _ hk)
    unfold reloadKeys
    refine Does.bind (does_reading_work redisGet_does) ?_
    rintro found t ⟨hsame, hfound⟩
    rw [← hcanonical, ← hsame.redis_eq] at hfound
    cases found with
    | none => exact hrest t
    | some state =>
      dsimp only
      cases hrun : state.runningContainer with
      | none => exact hrest t
      | some id =>
        refine Does.bind (does_reading_work containerExists_does) ?_
        rintro there u ⟨hsame', -⟩
        rw [← hsame'.redis_eq] at hfound
        refine Does.ite (fun _ => ?_) fun _ => ?_
        · refine Does.modify_bind (.single (.method none hkey (.single ?_))) (hrest _)
          exact .restore hfound.symm hrun
        · refine Does.bind (does_method none hkey (saveState_does (.missing ?_))) fun _ x _ =>
            hrest x
          rw [u.same_asked.redis_eq, ← hfound]

theorem reloadRunning_does {keys : List String} (hkeys : ∀ key ∈ keys, Canonical key)
    (hJ : ∀ key ∈ keys, J (tenantOfKey key) none) :
    Does (Work host J) (reloadRunning keys) (fun _ _ => True) w := by
  unfold reloadRunning
  refine Does.get_bind (Does.ite (fun _ => ?_) fun _ => Does.pure trivial)
  refine Does.tryCatch (Does.bind (does_reading_work redisCall_does) fun _ _ _ => ?_)
    fun _ _ _ => Does.pure trivial
  exact reloadKeys_does hkeys hJ

/-- `_reload_running_from_redis` logs every exception. -/
theorem reloadRunning_returns (keys : List String) (w : World) :
    ∃ t, (reloadRunning keys).run w = .ok () t := by
  unfold reloadRunning
  simp only [EStateM.run_bind, EStateM.run_get]
  split_ifs
  · obtain ⟨_, t, ht⟩ := tryCatch_returns (m := do redisCall; reloadKeys keys) () w
    exact ⟨t, ht⟩
  · exact ⟨w, rfl⟩

/-- A restart forgets the cache, and Redis too when it does not answer the ping; then it is work
for the tenants whose records it finds. -/
theorem restart_reaches {keys : List String} (hkeys : ∀ key ∈ keys, Canonical key)
    (hJ : ∀ key ∈ keys, J (tenantOfKey key) none) :
    ∃ b : Bool, (w.RedisWorks → b = true) ∧ ReflTransGen (Work host J)
      { w with tenants := .empty, hasRedis := b, redisFaults := w.redisFaults.tail }
      (endState (restart host keys) w) := by
  have himage (u : World) :
      ReflTransGen (Work host J) u (endState (ensureImage host defaultImage) u) :=
    (ensureImage_does (fun _ _ => .same) fun _ _ => .build).reaches
  by_cases hfault : w.redisFaults.head? = some true
  · refine ⟨false, fun hw => absurd hfault (by simp [hw.2]), ?_⟩
    have hrun : endState (restart host keys) w = endState (ensureImage host defaultImage)
        { w with tenants := .empty, hasRedis := false, redisFaults := w.redisFaults.tail } := by
      simp only [restart, endState, EStateM.run_bind, EStateM.run_modify, tryCatch_run, redisCall,
        EStateM.run_get, EStateM.run_set, hfault, if_true]
      rfl
    rw [hrun]
    exact himage _
  · refine ⟨true, fun _ => rfl, ?_⟩
    obtain ⟨t, ht⟩ := reloadRunning_returns keys
      { w with tenants := .empty, hasRedis := true, redisFaults := w.redisFaults.tail }
    have hrun : endState (restart host keys) w = endState (ensureImage host defaultImage) t := by
      simp only [restart, endState, EStateM.run_bind, EStateM.run_modify, tryCatch_run, redisCall,
        EStateM.run_get, EStateM.run_set, hfault, if_false, EStateM.run_pure, ht]
    rw [hrun]
    refine ReflTransGen.trans ?_ (himage t)
    rw [← endState_of_ok ht]
    exact (reloadRunning_does hkeys hJ).reaches

end Work

/-! ### Operations -/

/-- A request, an operation of the gateway itself, or something that happens around it. -/
inductive Op where
  | provision (tenantId : String) (config : Json) (image : String)
  | getTenant (tenantId : String)
  | getOrCreate (tenantId : String)
  | touch (tenantId : String)
  | stop (tenantId : String)
  /-- A pass of the pruner, with the keys in the order Redis returns them. -/
  | prune (keys : List String)
  /-- A new gateway process, with the keys in the order Redis returns them. -/
  | restart (keys : List String)
  | shutdown
  /-- Time passes. -/
  | pass (duration : ℕ)
  /-- A container is removed by someone else. -/
  | vanish (id : ℕ)
  /-- Another port is the next free one. -/
  | listen (port : ℕ)
  /-- Which of the next calls fail. -/
  | fail (redis docker files : List Bool)

/-- The keys of a pass or a restart are those Redis holds. -/
def Op.Enabled (w : World) : Op → Prop
  | .prune keys | .restart keys => keys.Perm w.redis.keys
  | _ => True

instance (w : World) : (op : Op) → Decidable (op.Enabled w)
  | .prune keys | .restart keys => inferInstanceAs (Decidable (keys.Perm w.redis.keys))
  | .provision .. | .getTenant _ | .getOrCreate _ | .touch _ | .stop _ | .shutdown | .pass _
  | .vanish _ | .listen _ | .fail .. => inferInstanceAs (Decidable True)

/-- What an operation runs. -/
def program (host : Host) : Op → M Unit
  | .provision tenantId config image => do
    let _ ← provisionTenant host tenantId config image
  | .getTenant tenantId => do
    let _ ← getTenant tenantId
  | .getOrCreate tenantId => do
    let _ ← getOrCreate host tenantId
  | .touch tenantId => touch tenantId
  | .stop tenantId => stopTenant host tenantId
  | .prune keys => prunePass host keys
  | .restart keys => restart host keys
  | .shutdown => shutdownAll host
  | .pass duration => modify fun w => { w with now := w.now + duration }
  | .vanish id => modify fun w => { w with containers := w.containers.erase id }
  | .listen port => modify fun w => { w with freePort := port }
  | .fail redis docker files => modify fun w =>
    { w with redisFaults := redis, dockerFaults := docker, fileFaults := files }

/-- The gateway on a host, from a world on. -/
def machine (host : Host) (w : World) : Machine World Op where
  init := w
  step w op := if op.Enabled w then some (endState (program host op) w) else none

/-- No tenant is known yet. -/
structure Fresh (w : World) : Prop where
  tenants : ∀ tenantId, w.tenants.get tenantId = none
  redis : ∀ key, w.redis.get key = none
  containers : ∀ id c, w.containers.get id = some c → id < w.nextId

/-- The keys found by a restart give back the tenants they are of. -/
def ReadsBack : Op → Prop
  | .restart keys => ∀ key ∈ keys, Canonical key
  | _ => True

instance : (op : Op) → Decidable (ReadsBack op)
  | .restart keys => inferInstanceAs (Decidable (∀ key ∈ keys, Canonical key))
  | .provision .. | .getTenant _ | .getOrCreate _ | .touch _ | .stop _ | .prune _ | .shutdown
  | .pass _ | .vanish _ | .listen _ | .fail .. => inferInstanceAs (Decidable True)

/-- No call to Redis is planned to fail. -/
def KeepsRedis : Op → Prop
  | .fail redis _ _ => redis = []
  | _ => True

instance : (op : Op) → Decidable (KeepsRedis op)
  | .fail redis _ _ => inferInstanceAs (Decidable (redis = []))
  | .provision .. | .getTenant _ | .getOrCreate _ | .touch _ | .stop _ | .prune _ | .restart _
  | .shutdown | .pass _ | .vanish _ | .listen _ => inferInstanceAs (Decidable True)

/-- The jobs of an operation. -/
def Jobs (host : Host) (w : World) : Op → String → Option Json → Prop
  | .provision tenantId config _, t, c => t = tenantId ∧ c = some config
  | .getTenant tenantId, t, c | .touch tenantId, t, c | .stop tenantId, t, c =>
    t = tenantId ∧ c = none
  | .getOrCreate tenantId, t, c => t = tenantId ∧ (c = none ∨ ∃ u saved,
      ReflTransGen (Change host tenantId none w) w u ∧
        (getSavedState tenantId).run u = .ok saved u.asked ∧ c = some (saved.getD (.obj [])))
  | .prune keys, t, c => Stale w keys t ∧ c = none
  | .restart keys, t, c => t ∈ keys.map tenantOfKey ∧ c = none
  | .shutdown, t, c => t ∈ w.tenants.keys ∧ c = none
  | .pass _, _, _ | .vanish _, _, _ | .listen _, _, _ | .fail .., _, _ => False

/-- What an operation changes before it calls a method; `redis` tells whether Redis answers the
ping of a new process. -/
def direct (redis : Bool) (w : World) : Op → World
  | .restart _ =>
    { w with tenants := .empty, hasRedis := redis, redisFaults := w.redisFaults.tail }
  | .pass duration => { w with now := w.now + duration }
  | .vanish id => { w with containers := w.containers.erase id }
  | .listen port => { w with freePort := port }
  | .fail redis docker files =>
    { w with redisFaults := redis, dockerFaults := docker, fileFaults := files }
  | _ => w

/-! ### Coherence -/

/-- A container id that is a tenant's: if there is such a container, it has the tenant's name. -/
def Owns (w : World) (tenantId : String) (id : ℕ) : Prop :=
  id < w.nextId ∧ ∀ c, w.containers.get id = some c → c.name = containerName tenantId

/-- An entry that names its tenant, the tenant's directory and a container of the tenant. -/
structure Belongs (host : Host) (w : World) (tenantId : String) (tc : TenantContainer) :
    Prop where
  tenantId_eq : tc.tenantId = tenantId
  configDir_eq : tc.configDir = some (tenantDir host tenantId)
  owns : Owns w tenantId tc.containerId

/-- Every cache entry and every record is its tenant's. -/
structure Coherent (host : Host) (w : World) : Prop where
  fresh : ∀ id c, w.containers.get id = some c → id < w.nextId
  entry : ∀ t tc, w.tenants.get t = some tc → Belongs host w t tc
  record : ∀ t state, w.redis.get (stateKey t) = some state →
    state.tenantId = t ∧ state.configDir = some (tenantDir host t) ∧
      ∀ id, state.containerId = some id → Owns w t id

section Coherence

variable {host : Host} {w w₀ w' : World} {tenantId t : String} {config : Option Json} {id : ℕ}
  {tc : TenantContainer} {state : TenantState}

theorem stateKey_inj {t t' : String} : stateKey t = stateKey t' ↔ t = t' :=
  String.append_right_inj _

theorem containerName_inj {t t' : String} : containerName t = containerName t' ↔ t = t' :=
  String.append_right_inj _

theorem containerId_of_runningContainer (h : state.runningContainer = some id) :
    state.containerId = some id := by
  unfold TenantState.runningContainer at h
  split at h
  · exact h
  · simp at h

/-- Coherence is about the cache, the records and the containers. -/
theorem Coherent.congr (h : Coherent host w) (htenants : w'.tenants = w.tenants)
    (hredis : w'.redis = w.redis) (hcontainers : w'.containers = w.containers)
    (hnextId : w'.nextId = w.nextId) : Coherent host w' := by
  have howns {t : String} {id : ℕ} (hid : Owns w t id) : Owns w' t id := by
    rw [Owns, hnextId, hcontainers]
    exact hid
  refine ⟨by rw [hcontainers, hnextId]; exact h.fresh, ?_, ?_⟩
  · intro t tc htc
    obtain ⟨ht, hdir, hid⟩ := h.entry t tc (htenants ▸ htc)
    exact ⟨ht, hdir, howns hid⟩
  · intro t state hstate
    obtain ⟨ht, hdir, hid⟩ := h.record t state (hredis ▸ hstate)
    exact ⟨ht, hdir, fun id hi => howns (hid id hi)⟩

theorem Coherent.of_same (h : Coherent host w) (hsame : Same w w') : Coherent host w' := by
  obtain ⟨_, _, _, _, _, _, rfl⟩ := hsame
  exact h.congr rfl rfl rfl rfl

/-- Ids are never used again and containers keep their names. -/
theorem Owns.of_change (hstep : Change host tenantId config w₀ w w') (h : Owns w t id) :
    Owns w' t id := by
  cases hstep with
  | same hsame =>
    obtain ⟨_, _, _, _, _, _, rfl⟩ := hsame
    exact h
  | stop hknown hget =>
    refine ⟨h.1, fun c hc => ?_⟩
    rw [Dict.get_set] at hc
    split_ifs at hc with heq
    · have hname := h.2 _ (heq ▸ hget)
      rwa [← Option.some_inj.mp hc]
    · exact h.2 c hc
  | remove hknown hget =>
    refine ⟨h.1, fun c hc => ?_⟩
    rw [Dict.get_erase] at hc
    split_ifs at hc
    exact h.2 c hc
  | run =>
    refine ⟨Nat.lt_succ_of_lt h.1, fun c hc => ?_⟩
    rw [Dict.get_set_of_ne h.1.ne] at hc
    exact h.2 c hc
  | _ => exact h

theorem Belongs.of_change (hstep : Change host tenantId config w₀ w w')
    (h : Belongs host w t tc) : Belongs host w' t tc :=
  ⟨h.tenantId_eq, h.configDir_eq, h.owns.of_change hstep⟩

/-- What a method takes for the tenant's container is the tenant's. -/
theorem Coherent.belongs_of_known (h : Coherent host w) (hknown : Known tenantId w tc) :
    Belongs host w tenantId tc := by
  cases hknown with
  | entry hentry => exact h.entry _ _ hentry
  | record hstate hrun =>
    obtain ⟨ht, hdir, howns⟩ := h.record _ _ hstate
    exact ⟨ht, hdir, howns _ (containerId_of_runningContainer hrun)⟩

/-- A record that a method saves is the tenant's. -/
theorem Coherent.record_of_saves (h : Coherent host w)
    (hknown : ∀ tc, Known tenantId w₀ tc → Belongs host w tenantId tc)
    (hsaves : Saves host tenantId config w₀ w state) :
    state.tenantId = tenantId ∧ state.configDir = some (tenantDir host tenantId) ∧
      ∀ id, state.containerId = some id → Owns w tenantId id := by
  cases hsaves with
  | missing hstate =>
    obtain ⟨ht, hdir, -⟩ := h.record _ _ hstate
    exact ⟨ht, hdir, by simp [TenantState.markStopped]⟩
  | touched hstate _ =>
    obtain ⟨ht, hdir, howns⟩ := h.record _ _ hstate
    exact ⟨ht, hdir, howns⟩
  | stopped hk _ => exact ⟨rfl, (hknown _ hk).configDir_eq, by simp⟩
  | provisioned _ hid hname _ =>
    refine ⟨rfl, rfl, ?_⟩
    rintro _ ⟨⟩
    exact ⟨h.fresh _ _ hid, fun c hc => by rw [← Option.some_inj.mp (hid.symm.trans hc), hname]⟩

theorem Coherent.of_change (hstep : Change host tenantId config w₀ w w')
    (hknown : ∀ tc, Known tenantId w₀ tc → Belongs host w tenantId tc) (h : Coherent host w) :
    Coherent host w' := by
  -- entries and records that were there stay what they were
  have hentry : ∀ t tc, w.tenants.get t = some tc → Belongs host w' t tc := fun t tc htc =>
    (h.entry t tc htc).of_change hstep
  have hrecord : ∀ t state, w.redis.get (stateKey t) = some state →
      state.tenantId = t ∧ state.configDir = some (tenantDir host t) ∧
        ∀ id, state.containerId = some id → Owns w' t id := by
    intro t state hstate
    obtain ⟨ht, hdir, howns⟩ := h.record t state hstate
    exact ⟨ht, hdir, fun id hid => (howns id hid).of_change hstep⟩
  -- a new entry for the tenant is put in front of the old ones
  have hset : ∀ tc, Belongs host w' tenantId tc → ∀ t tc',
      (w.tenants.set tenantId tc).get t = some tc' → Belongs host w' t tc' := by
    intro tc htc t tc' hget
    rw [Dict.get_set] at hget
    split_ifs at hget with heq
    · rw [← Option.some_inj.mp hget, heq]
      exact htc
    · exact hentry t tc' hget
  cases hstep with
  | same hsame => exact h.of_same hsame
  | uncache =>
    refine ⟨h.fresh, fun t tc htc => ?_, hrecord⟩
    rw [Dict.get_erase] at htc
    split_ifs at htc
    exact hentry t tc htc
  | refresh hget =>
    obtain ⟨ht, hdir, howns⟩ := hentry _ _ hget
    exact ⟨h.fresh, hset _ ⟨ht, hdir, howns⟩, hrecord⟩
  | restore hstate hrun =>
    have hbelongs := h.belongs_of_known (.record hstate hrun)
    exact ⟨h.fresh, hset _ ⟨hbelongs.tenantId_eq, hbelongs.configDir_eq, hbelongs.owns⟩, hrecord⟩
  | provisioned _ hid hname =>
    refine ⟨h.fresh, hset _ ⟨rfl, rfl, h.fresh _ _ hid, fun c hc => ?_⟩, hrecord⟩
    rw [← Option.some_inj.mp (hid.symm.trans hc), hname]
  | save hsaves =>
    obtain ⟨ht, hdir, howns⟩ := h.record_of_saves hknown hsaves
    refine ⟨h.fresh, hentry, fun t' state' hget => ?_⟩
    rw [World.put, Dict.get_set] at hget
    split_ifs at hget with heq
    · rw [← Option.some_inj.mp hget, stateKey_inj.mp heq, ht]
      exact ⟨rfl, hdir, howns⟩
    · exact hrecord t' state' hget
  | stop _ hget =>
    refine ⟨fun id c hc => ?_, hentry, hrecord⟩
    rw [Dict.get_set] at hc
    split_ifs at hc with heq
    · rw [heq]
      exact h.fresh _ _ hget
    · exact h.fresh id c hc
  | remove _ hget =>
    refine ⟨fun id c hc => ?_, hentry, hrecord⟩
    rw [Dict.get_erase] at hc
    split_ifs at hc
    exact h.fresh id c hc
  | run =>
    refine ⟨fun id c hc => ?_, hentry, hrecord⟩
    rw [Dict.get_set] at hc
    split_ifs at hc with heq
    · exact heq ▸ Nat.lt_succ_self _
    · exact Nat.lt_succ_of_lt (h.fresh id c hc)
  | build | mkdir _ | write => exact h.congr rfl rfl rfl rfl

/-- **Invariants of methods.** What the changes of a method keep in coherent worlds, the method
keeps; and it keeps the world coherent. -/
theorem kept_of_method {I : World → Prop} (hw₀ : Coherent host w₀)
    (hI : ∀ w w', Change host tenantId config w₀ w w' → Coherent host w →
      (∀ tc, Known tenantId w₀ tc → Belongs host w tenantId tc) → I w → I w')
    (hR : ReflTransGen (Change host tenantId config w₀) w₀ w') (h : I w₀) :
    Coherent host w' ∧ I w' := by
  obtain ⟨hw', -, hI'⟩ := kept_of_reaches
    (I := fun w => Coherent host w ∧
      (∀ tc, Known tenantId w₀ tc → Belongs host w tenantId tc) ∧ I w)
    (fun u v hstep ⟨hu, hknown, hIu⟩ => ⟨hu.of_change hstep hknown,
      fun tc htc => (hknown tc htc).of_change hstep, hI u v hstep hu hknown hIu⟩)
    hR ⟨hw₀, fun _ => hw₀.belongs_of_known, h⟩
  exact ⟨hw', hI'⟩

/-- What the changes of all jobs keep in coherent worlds, the work keeps. -/
theorem kept_of_work {J : String → Option Json → Prop} {I : World → Prop}
    (hsame : ∀ w w', Same w w' → I w → I w')
    (hbuild : ∀ w image, I w → I { w with images := w.images ++ [image] })
    (hI : ∀ t config w₀ w w', J t config → Coherent host w₀ → I w₀ →
      Change host t config w₀ w w' → Coherent host w →
      (∀ tc, Known t w₀ tc → Belongs host w t tc) → I w → I w')
    (hR : ReflTransGen (Work host J) w w') (hw : Coherent host w) (h : I w) :
    Coherent host w' ∧ I w' := by
  refine kept_of_reaches (I := fun w => Coherent host w ∧ I w) ?_ hR ⟨hw, h⟩
  rintro u v hstep ⟨hu, hIu⟩
  cases hstep with
  | same h => exact ⟨hu.of_same h, hsame u v h hIu⟩
  | build => exact ⟨hu.congr rfl rfl rfl rfl, hbuild _ _ hIu⟩
  | method config hjob h => exact kept_of_method hu (fun x y => hI _ config u x y hjob hu hIu) h hIu

theorem coherent_of_work {J : String → Option Json → Prop}
    (hR : ReflTransGen (Work host J) w w') (hw : Coherent host w) : Coherent host w' :=
  (kept_of_work (I := fun _ => True) (fun _ _ _ _ => trivial) (fun _ _ _ => trivial)
    (fun _ _ _ _ _ _ _ _ _ _ _ _ => trivial) hR hw trivial).1

theorem Fresh.coherent (h : Fresh w) : Coherent host w :=
  ⟨h.containers, fun t tc htc => by simp [h.tenants] at htc,
    fun t state hstate => by simp [h.redis] at hstate⟩

end Coherence

section Runs

variable {host : Host} {w w' : World} {op : Op} {ops : List Op}

/-- Beyond its direct change, an operation does its jobs. -/
theorem program_reaches (host : Host) (w : World) (hop : ReadsBack op) :
    ∃ redis : Bool, (w.RedisWorks → redis = true) ∧
    ReflTransGen (Work host (Jobs host w op)) (direct redis w op)
      (endState (program host op) w) := by
  have hdiscard {α : Type} {m : M α} {Q : α → World → Prop} {J : String → Option Json → Prop}
      (h : Does (Work host J) m Q w) :
      Does (Work host J) (do let _ ← m) (fun _ _ => True) w :=
    Does.bind h fun _ _ _ => Does.pure trivial
  cases op with
  | provision t c image =>
    exact ⟨true, fun _ => rfl, (hdiscard (does_method _ ⟨rfl, rfl⟩ provisionTenant_does)).reaches⟩
  | getTenant t =>
    exact ⟨true, fun _ => rfl,
      (hdiscard (does_method _ ⟨rfl, rfl⟩ (getTenant_does host none))).reaches⟩
  | getOrCreate t =>
    refine ⟨true, fun _ => rfl, (hdiscard (getOrCreate_does ⟨rfl, .inl rfl⟩ ?_)).reaches⟩
    exact fun u saved hsteps hrun => ⟨rfl, .inr ⟨u, saved, hsteps, hrun, rfl⟩⟩
  | touch t => exact ⟨true, fun _ => rfl, (does_method _ ⟨rfl, rfl⟩ (touch_does host none)).reaches⟩
  | stop t => exact ⟨true, fun _ => rfl, (does_method _ ⟨rfl, rfl⟩ stopTenant_does).reaches⟩
  | prune keys => exact ⟨true, fun _ => rfl, (prunePass_does fun t ht => ⟨ht, rfl⟩).reaches⟩
  | restart keys =>
    exact restart_reaches hop fun key hkey => ⟨List.mem_map_of_mem hkey, rfl⟩
  | shutdown => exact ⟨true, fun _ => rfl, (shutdownAll_does fun t ht => ⟨ht, rfl⟩).reaches⟩
  | pass _ | vanish _ | listen _ | fail _ _ _ => exact ⟨true, fun _ => rfl, .refl⟩

/-- Redis keeps working unless its calls are planned to fail. -/
theorem redisWorks_direct {redis : Bool} (hredis : w.RedisWorks → redis = true)
    (hop : KeepsRedis op) (hw : w.RedisWorks) : (direct redis w op).RedisWorks := by
  cases op with
  | restart keys => exact ⟨hredis hw, by simp [direct, hw.2]⟩
  | fail redis docker files => exact ⟨hw.1, hop⟩
  | _ => exact hw

theorem Coherent.direct {redis : Bool} (h : Coherent host w) :
    Coherent host (direct redis w op) := by
  cases op with
  | restart keys =>
    refine ⟨h.fresh, fun t tc htc => ?_, h.record⟩
    exact absurd htc (by simp [Tenants.direct])
  | vanish id =>
    have howns {t : String} {k : ℕ} (hk : Owns w t k) :
        Owns { w with containers := w.containers.erase id } t k := by
      refine ⟨hk.1, fun c hc => hk.2 c ?_⟩
      rw [Dict.get_erase] at hc
      split_ifs at hc
      exact hc
    refine ⟨fun k c hc => ?_, fun t tc htc => ?_, fun t state hstate => ?_⟩
    · dsimp only [Tenants.direct] at hc
      rw [Dict.get_erase] at hc
      split_ifs at hc
      exact h.fresh k c hc
    · obtain ⟨ht, hdir, hk⟩ := h.entry t tc htc
      exact ⟨ht, hdir, howns hk⟩
    · obtain ⟨ht, hdir, hk⟩ := h.record t state hstate
      exact ⟨ht, hdir, fun k hid => howns (hk k hid)⟩
  | _ => exact h.congr rfl rfl rfl rfl

theorem step_eq_some {w₁ : World} (h : (machine host w₁).step w op = some w') :
    op.Enabled w ∧ w' = endState (program host op) w := by
  unfold machine at h
  dsimp only at h
  split_ifs at h with hen
  exact ⟨hen, (Option.some_inj.mp h).symm⟩

theorem redisWorks_of_step {w₁ : World} (hreads : ReadsBack op) (hkeeps : KeepsRedis op)
    (hstep : (machine host w₁).step w op = some w') (hw : w.RedisWorks) : w'.RedisWorks := by
  obtain ⟨-, rfl⟩ := step_eq_some hstep
  obtain ⟨redis, hredis, hwork⟩ := program_reaches host w hreads
  exact kept_of_reaches (fun _ _ => Work.redisWorks) hwork (redisWorks_direct hredis hkeeps hw)

theorem coherent_of_step {w₁ : World} (hreads : ReadsBack op)
    (hstep : (machine host w₁).step w op = some w') (hw : Coherent host w) : Coherent host w' := by
  obtain ⟨-, rfl⟩ := step_eq_some hstep
  obtain ⟨redis, -, hwork⟩ := program_reaches host w hreads
  exact coherent_of_work hwork hw.direct

end Runs

/-! ### Names -/

/-- The cache and the records are of tenants whose containers have names that Docker accepts. -/
structure WellNamed (w : World) : Prop where
  entry : ∀ t tc, w.tenants.get t = some tc → validName (containerName t) = true
  record : ∀ key state, w.redis.get key = some state →
    key = stateKey state.tenantId ∧ validName (containerName state.tenantId) = true

section Names

variable {host : Host} {w w₀ w₁ w' : World} {tenantId t : String} {config : Option Json}
  {tc : TenantContainer} {state : TenantState} {op : Op} {ops : List Op}

/-- A key of a record gives back the tenant it is of: an id that contains the prefix is no part of
a name that Docker accepts. -/
theorem canonical_stateKey (h : validName (containerName t) = true) : Canonical (stateKey t) := by
  have hno : ¬Occurs statePrefix t := by
    intro hoccurs
    have hcolon : ':' ∈ (containerName t).toList := by
      have ht : ':' ∈ t.toList := hoccurs.subset (by decide)
      unfold containerName
      rw [String.toList_append]
      exact List.mem_append_right _ ht
    have hvalid := List.all_eq_true.mp h _ hcolon
    exact absurd hvalid (by decide)
  unfold Canonical tenantOfKey stateKey
  rw [remove_append_of_not_occurs (by decide) hno]

theorem Fresh.wellNamed (h : Fresh w) : WellNamed w :=
  ⟨fun t tc htc => by simp [h.tenants] at htc, fun key state hstate => by simp [h.redis] at hstate⟩

theorem WellNamed.congr (h : WellNamed w) (htenants : w'.tenants = w.tenants)
    (hredis : w'.redis = w.redis) : WellNamed w' :=
  ⟨fun t tc htc => h.entry t tc (htenants ▸ htc),
    fun key state hstate => h.record key state (hredis ▸ hstate)⟩

/-- A record is that of the tenant whose key it is under. -/
theorem WellNamed.valid (h : WellNamed w) (hstate : w.redis.get (stateKey t) = some state) :
    state.tenantId = t ∧ validName (containerName t) = true := by
  obtain ⟨hkey, hvalid⟩ := h.record _ state hstate
  obtain rfl := stateKey_inj.mp hkey
  exact ⟨rfl, hvalid⟩

/-- What is saved is saved for the tenant, and its container could be named. -/
theorem WellNamed.of_saves (h₀ : WellNamed w₀) (h : WellNamed w)
    (hsaves : Saves host tenantId config w₀ w state) :
    state.tenantId = tenantId ∧ validName (containerName tenantId) = true := by
  cases hsaves with
  | missing hstate | touched hstate =>
    obtain ⟨ht, hvalid⟩ := h.valid hstate
    exact ⟨ht, hvalid⟩
  | stopped hknown =>
    refine ⟨rfl, ?_⟩
    cases hknown with
    | entry hentry => exact h₀.entry _ _ hentry
    | record hstate => exact (h₀.valid hstate).2
  | provisioned _ _ _ _ hvalid => exact ⟨rfl, hvalid⟩

theorem WellNamed.of_change (h₀ : WellNamed w₀) (hstep : Change host tenantId config w₀ w w')
    (h : WellNamed w) : WellNamed w' := by
  have hset (tc : TenantContainer) (hvalid : validName (containerName tenantId) = true) (t : String)
      (tc' : TenantContainer) (hget : (w.tenants.set tenantId tc).get t = some tc') :
      validName (containerName t) = true := by
    rw [Dict.get_set] at hget
    split_ifs at hget with heq
    · exact heq ▸ hvalid
    · exact h.entry t tc' hget
  cases hstep with
  | same hsame => exact h.congr hsame.tenants_eq hsame.redis_eq
  | uncache =>
    refine ⟨fun t tc htc => ?_, h.record⟩
    rw [Dict.get_erase] at htc
    split_ifs at htc
    exact h.entry t tc htc
  | refresh hget => exact ⟨hset _ (h.entry _ _ hget), h.record⟩
  | restore hstate => exact ⟨hset _ (h.valid hstate).2, h.record⟩
  | provisioned _ _ _ hvalid => exact ⟨hset _ hvalid, h.record⟩
  | save hsaves =>
    obtain ⟨rfl, hvalid⟩ := h₀.of_saves h hsaves
    refine ⟨h.entry, fun key state' hget => ?_⟩
    rw [World.put, Dict.get_set] at hget
    split_ifs at hget with heq
    · exact Option.some_inj.mp hget ▸ ⟨heq, hvalid⟩
    · exact h.record key state' hget
  | stop | remove | build | mkdir | write | run => exact h.congr rfl rfl

theorem WellNamed.direct {redis : Bool} (h : WellNamed w) : WellNamed (direct redis w op) := by
  cases op with
  | restart keys => exact ⟨fun t tc htc => absurd htc (by simp [Tenants.direct]), h.record⟩
  | _ => exact h.congr rfl rfl

/-- The keys that a restart finds give back their tenants. -/
theorem WellNamed.readsBack (h : WellNamed w) (hop : op.Enabled w) : ReadsBack op := by
  cases op with
  | restart keys =>
    intro key hkey
    obtain ⟨state, hstate⟩ := Dict.mem_keys_iff.mp ((List.Perm.mem_iff hop).mp hkey)
    obtain ⟨rfl, hvalid⟩ := h.record key state hstate
    exact canonical_stateKey hvalid
  | _ => trivial

theorem wellNamed_of_step (hw : Coherent host w) (h : WellNamed w)
    (hstep : (machine host w₁).step w op = some w') : WellNamed w' := by
  obtain ⟨hop, rfl⟩ := step_eq_some hstep
  obtain ⟨redis, -, hwork⟩ := program_reaches host w (h.readsBack hop)
  exact (kept_of_work (fun _ _ hsame hu => hu.congr hsame.tenants_eq hsame.redis_eq)
    (fun _ _ hu => hu.congr rfl rfl)
    (fun _ _ _ _ _ _ _ hu hchange _ _ hx => hu.of_change hchange hx) hwork hw.direct h.direct).2

/-- **The manager stays coherent**, whatever fails, and whatever the tenants are called. -/
theorem Fresh.coherent_of_run (hfresh : Fresh w)
    (hrun : (machine host w₁).runFrom w ops = some w') : Coherent host w' ∧ WellNamed w' := by
  refine Machine.run_invariant' (I := fun w => Coherent host w ∧ WellNamed w) ?_
    ⟨hfresh.coherent, hfresh.wellNamed⟩ hrun
  rintro u op v ⟨hu, hnamed⟩ hstep
  have hreads := hnamed.readsBack (step_eq_some hstep).1
  exact ⟨coherent_of_step hreads hstep hu, wellNamed_of_step hu hnamed hstep⟩

end Names

/-! ### A gateway that was just installed -/

/-- The default base directory, and paths without symbolic links. -/
def sampleHost : Host where
  baseDir := PurePath.ofString "/tmp/nanogate/tenants"
  cwd := ["app"]
  environ _ := none
  resolve s := .ok (PurePath.ofString s)
  hasDockerfile := false

/-- Redis and Docker are there, the image is built and nothing fails. -/
def sampleWorld : World where
  hasRedis := true
  hasClient := true
  tenants := .empty
  redis := .empty
  containers := .empty
  nextId := 0
  images := [defaultImage]
  fs place := if place = [] then some .dir else none
  now := 0
  freePort := 49152
  redisFaults := []
  dockerFaults := []
  fileFaults := []
  effects := []

theorem sampleWorld_fresh : Fresh sampleWorld :=
  ⟨fun _ => rfl, fun _ => rfl, fun _ _ h => by simp [sampleWorld] at h⟩

theorem sampleWorld_redisWorks : sampleWorld.RedisWorks := ⟨rfl, rfl⟩

end Nanogate.Tenants
