import Nanogate.Tenants.ConfigDirs

/-!
# What a method does as a whole

While Redis works, each method of the manager has a handful of outcomes. `get_tenant` answers
from the cache, restores the entry of a running container or marks its record as stopped;
`stop_tenant` has nothing to stop, raises before it saves, or saves a stopped record and then
removes the container as far as Docker lets it.

## Main definitions

* `World.holder` — the container that `stop_tenant` stops
* `Stopping`, `Looking`, `Touching` — the worlds the methods lead to

## Main results

* `stopTenant_ends`, `getTenant_ends`, `touch_ends` — the methods lead nowhere else
-/

namespace Nanogate.Tenants

open Nanogate.Python Nanogate.Semantics Relation

/-! ### Redis that works -/

section Works

variable {w : World} {key tenantId : String} {state : TenantState}

theorem redisCall_run_of_works (hw : w.RedisWorks) : redisCall.run w = .ok () w := by
  have hasked := asked_of_nil hw.2
  rw [World.asked, if_pos hw.1] at hasked
  simp only [redisCall, EStateM.run_bind, EStateM.run_get, EStateM.run_set, hasked]
  rw [if_neg (by simp [hw.2])]
  rfl

theorem redisGet_run_of_works (hw : w.RedisWorks) :
    (redisGet key).run w = .ok (w.redis.get key) w := by
  simp only [redisGet, EStateM.run_bind, redisCall_run_of_works hw, EStateM.run_get,
    EStateM.run_pure]

theorem loadState_run_of_works (hw : w.RedisWorks) :
    (loadState tenantId).run w = .ok (w.redis.get (stateKey tenantId)) w := by
  rw [loadState_run_of_nil hw.2, World.recordOf, if_pos hw.1]

theorem saveState_run_of_works (hw : w.RedisWorks) :
    (saveState state).run w = .ok () (w.put state) := by
  rw [saveState_run, if_pos hw.answers, asked_of_nil hw.2]

end Works

/-! ### Removing a container -/

/-- The next three calls to Docker are answered. -/
def World.Removes (w : World) : Prop := ∀ n < 3, w.dockerFaults[n]? ≠ some true

instance (w : World) : Decidable w.Removes :=
  inferInstanceAs (Decidable (∀ n < 3, w.dockerFaults[n]? ≠ some true))

/-- Docker was asked to stop and remove a container, and may have done one or both. -/
structure Removal (id : ℕ) (w w' : World) : Prop where
  removed : Removed w w'
  others : ∀ k, k ≠ id → w'.containers.get k = w.containers.get k
  name : ∀ c, w'.containers.get id = some c → ∃ c', w.containers.get id = some c' ∧ c.name = c'.name
  gone : w.Removes → w'.containers.get id = none

section Removing

variable {w u : World} {id : ℕ}

/-- Without faults the container is stopped and removed. -/
theorem removeContainer_gone (h : w.Removes) :
    (endState (removeContainer id) w).containers.get id = none := by
  have hget : w.dockerFaults.head? ≠ some true := by
    rw [List.head?_eq_getElem?]
    exact h 0 (by decide)
  have hstop : w.dockerFaults.tail.head? ≠ some true := by
    rw [List.head?_tail]
    exact h 1 (by decide)
  have hremove : w.dockerFaults.tail.tail.head? ≠ some true := by
    rw [List.head?_tail, List.getElem?_tail]
    exact h 2 (by decide)
  simp only [endState, removeContainer, containersGet, containerStop, containerRemove, tryCatch_run,
    EStateM.run_bind, dockerCall_run, if_neg hget, EStateM.run_get]
  cases hc : w.containers.get id with
  | none => exact hc
  | some c =>
    simp only [EStateM.run_pure, if_neg hstop, if_neg hremove, hc, EStateM.run_bind, emit,
      EStateM.run_set, EStateM.run_modify, Dict.get_set_self, Bool.false_and, Bool.not_false,
      Bool.false_eq_true, if_false, Dict.get_erase_self]

theorem removal_of_removeContainer (id : ℕ) (w : World) :
    ∃ u, (removeContainer id).run w = .ok () u ∧ Removal id w u := by
  obtain ⟨_, u, hrun⟩ := tryCatch_returns
    (m := do let _ ← containersGet id; containerStop id; containerRemove id false) () w
  refine ⟨u, hrun, ?_⟩
  have hdoes : Does (fun v v' =>
      (Removed w v ∧ (∀ k, k ≠ id → v.containers.get k = w.containers.get k) ∧
      ∀ c, v.containers.get id = some c → ∃ c', w.containers.get id = some c' ∧ c.name = c'.name) →
        Removed w v' ∧ (∀ k, k ≠ id → v'.containers.get k = w.containers.get k) ∧
          ∀ c, v'.containers.get id = some c →
            ∃ c', w.containers.get id = some c' ∧ c.name = c'.name)
      (removeContainer id) (fun _ _ => True) w := by
    refine removeContainer_does ?_ ?_ ?_
    · rintro v ⟨⟨_, _, es, rfl, hes⟩, hothers, hname⟩
      exact ⟨⟨_, _, es, rfl, hes⟩, hothers, hname⟩
    · rintro v c hget ⟨hremoved, hothers, hname⟩
      refine ⟨hremoved.snoc ⟨id, .inl rfl⟩, fun k hk => ?_, fun c' hc' => ?_⟩
      · exact (Dict.get_set_of_ne hk).trans (hothers k hk)
      · obtain rfl := Option.some_inj.mp (Dict.get_set_self.symm.trans hc')
        exact hname c hget
    · rintro v c hget ⟨hremoved, hothers, hname⟩
      refine ⟨hremoved.snoc ⟨id, .inr rfl⟩, fun k hk => ?_, fun c' hc' => ?_⟩
      · exact (Dict.get_erase_of_ne hk).trans (hothers k hk)
      · exact absurd (Dict.get_erase_self.symm.trans hc') (by simp)
  obtain ⟨hremoved, hothers, hname⟩ := endState_of_ok hrun ▸
    hdoes.keeps (fun _ _ h => h) ⟨Removed.refl w, fun _ _ => rfl, fun c hc => ⟨c, hc, rfl⟩⟩
  exact ⟨hremoved, hothers, hname, fun h => endState_of_ok hrun ▸ removeContainer_gone h⟩

end Removing

/-! ### Stopping -/

/-- The container that `stop_tenant` stops: the one in the cache, or else the one of a record that
says it is running. -/
def World.holder (w : World) (tenantId : String) : Option TenantContainer :=
  (w.tenants.get tenantId).or ((w.redis.get (stateKey tenantId)).bind fun state =>
    state.runningContainer.map state.toContainer)

/-- The cache without a tenant's entry. -/
def World.uncache (w : World) (tenantId : String) : World :=
  { w with tenants := w.tenants.erase tenantId }

/-- Asking whether the file of a container's tenant exists fails. -/
def World.Unreadable (w : World) (tc : TenantContainer) : Prop :=
  tc.configDir.isSome = true ∧ w.fileFaults.head? = some true

instance (w : World) (tc : TenantContainer) : Decidable (w.Unreadable tc) :=
  inferInstanceAs (Decidable (_ ∧ _))

/-- The configuration that `stop_tenant` reads from the file. -/
def World.fromFile (w : World) (host : Host) (tc : TenantContainer) : Json :=
  match tc.configDir with
  | some dir => w.readAt host (dir.join "config.json")
  | none => .obj []

/-- The configuration that `stop_tenant` saves: the file's, or else the record's. -/
def World.kept (w : World) (host : Host) (tenantId : String) (tc : TenantContainer) : Json :=
  (w.fromFile host tc).or
    (((w.redis.get (stateKey tenantId)).map TenantState.configData).getD (w.fromFile host tc))

/-- `stop_tenant` raises before it saves. -/
def World.StopRaises (w : World) (host : Host) (tenantId : String) : Prop :=
  ∃ tc ∈ w.holder tenantId, w.Unreadable tc ∨ (w.kept host tenantId tc).isObj = false

instance (w : World) (host : Host) (tenantId : String) : Decidable (w.StopRaises host tenantId) :=
  inferInstanceAs (Decidable (∃ tc ∈ w.holder tenantId, _ ∨ _))

/-- The record that `stop_tenant` saves. -/
def TenantContainer.stopped (tc : TenantContainer) (tenantId : String) (kept : Json) :
    TenantState where
  tenantId := tenantId
  containerId := none
  port := tc.port
  configDir := tc.configDir
  configData := kept
  lastActivity := tc.lastActivity
  status := .stopped

/-- Some calls to the file system later. -/
def Read (w w' : World) : Prop :=
  ∃ faults, faults <:+ w.fileFaults ∧ w' = { w with fileFaults := faults }

/-- The record was saved and the container removed as far as Docker let it. -/
structure Halted (tenantId : String) (tc : TenantContainer) (state : TenantState) (w u : World) :
    Prop where
  tenants : u.tenants = w.tenants.erase tenantId
  redis : u.redis = w.redis.set (stateKey state.tenantId) state
  hasClient : u.hasClient = w.hasClient
  fs : u.fs = w.fs
  nextId : u.nextId = w.nextId
  others : ∀ k, k ≠ tc.containerId → u.containers.get k = w.containers.get k
  name : ∀ c, u.containers.get tc.containerId = some c →
    ∃ c', w.containers.get tc.containerId = some c' ∧ c.name = c'.name
  gone : w.Removes → u.containers.get tc.containerId = none
  adds : Adds (fun
    | .redisSet key s => key = stateKey state.tenantId ∧ s = state
    | .stop _ | .remove _ => True
    | _ => False) w u

/-- Where `stop_tenant` leads while Redis works. -/
inductive Stopping (host : Host) (tenantId : String) (w : World) : World → Prop
  | idle (h : w.holder tenantId = none) : Stopping host tenantId w w
  | raised {u : World} (h : w.StopRaises host tenantId) (hread : Read (w.uncache tenantId) u) :
      Stopping host tenantId w u
  | stopped {tc : TenantContainer} {u : World} (h : w.holder tenantId = some tc)
      (hno : ¬w.StopRaises host tenantId)
      (hhalted : Halted tenantId tc (tc.stopped tenantId (w.kept host tenantId tc)) w u) :
      Stopping host tenantId w u

section Stop

variable {host : Host} {w u : World} {tenantId : String} {tc : TenantContainer}
  {loaded : Option TenantState} {state : TenantState}

theorem Read.refl (w : World) : Read w w := ⟨_, List.suffix_rfl, rfl⟩

theorem Read.same (h : Read w u) : Same w u := by
  obtain ⟨faults, hfaults, rfl⟩ := h
  exact ⟨_, _, _, List.suffix_rfl, List.suffix_rfl, hfaults, rfl⟩

theorem Read.hasClient_eq (h : Read w u) : u.hasClient = w.hasClient := by
  obtain ⟨_, _, rfl⟩ := h
  rfl

theorem halted_of_removal {v : World} (hread : Read (w.uncache tenantId) v)
    (hremoval : Removal tc.containerId (v.put state) u) : Halted tenantId tc state w u := by
  obtain ⟨hremoved, hothers, hname, hgone⟩ := hremoval
  obtain ⟨_, _, es, rfl, hes⟩ := hremoved
  obtain ⟨_, _, rfl⟩ := hread
  refine ⟨rfl, rfl, rfl, rfl, rfl, hothers, hname, hgone,
    .redisSet (stateKey state.tenantId) state :: es, ?_, fun e he => ?_⟩
  · simp [World.put, World.uncache]
  · rcases List.mem_cons.mp he with rfl | he
    · exact ⟨rfl, rfl⟩
    · obtain ⟨id, rfl | rfl⟩ := hes e he <;> trivial

theorem World.uncache_of_none (h : w.tenants.get tenantId = none) : w.uncache tenantId = w := by
  unfold uncache
  rw [Dict.erase_of_get_none h]

theorem configToSave_ends (hw : w.RedisWorks)
    (hloaded : ∀ state, loaded = some state → w.redis.get (stateKey tenantId) = some state) :
    Ends (configToSave host tenantId tc loaded)
      (fun v u => ¬w.Unreadable tc ∧ v = w.kept host tenantId tc ∧ Read w u)
      (fun u => w.Unreadable tc ∧ Read w u) w := by
  -- reading the file raises only where it cannot be asked for
  have hfile : Ends (configFile host tc)
      (fun v u => ¬w.Unreadable tc ∧ v = w.fromFile host tc ∧ Read w u)
      (fun u => w.Unreadable tc ∧ Read w u) w := by
    unfold configFile World.Unreadable World.fromFile
    cases tc.configDir with
    | none => exact Ends.pure ⟨by simp, rfl, Read.refl w⟩
    | some dir =>
      by_cases hfault : w.fileFaults.head? = some true
      · refine Ends.of_error (by rw [readConfig_run, if_pos hfault]) ⟨⟨rfl, hfault⟩, ?_⟩
        exact ⟨_, List.tail_suffix _, rfl⟩
      · refine Ends.of_ok (by rw [readConfig_run, if_neg hfault]) ⟨by simp [hfault], rfl, ?_⟩
        exact ⟨_, List.drop_suffix _ _, rfl⟩
  unfold configToSave
  refine Ends.bind hfile ?_
  rintro v u ⟨hreadable, rfl, hread⟩
  have hsame := hread.same
  have hload : (loadState tenantId).run u = _ := loadState_run_of_works (hsame.redisWorks hw)
  rw [hsame.redis_eq] at hload
  refine Ends.ite (fun htruthy => Ends.pure ⟨hreadable, ?_, hread⟩) fun hfalsy => ?_
  · -- the file's configuration, or the one of the record that was loaded
    unfold World.kept Json.or
    unfold Json.or at htruthy
    split_ifs with hfile
    · rfl
    · rw [if_neg hfile] at htruthy
      cases loaded with
      | none => exact absurd htruthy hfile
      | some state => rw [hloaded state rfl]
  · -- nothing in the file, so the record decides
    have hfile : ¬(w.fromFile host tc).truthy = true := by
      intro hfile
      rw [Json.or, if_pos hfile] at hfalsy
      exact hfalsy hfile
    refine Ends.bind_of_ok hload (Ends.pure ⟨hreadable, ?_, hread⟩)
    rw [World.kept, Json.or, Json.or, if_neg hfile, if_neg hfile]
    cases hrecord : w.redis.get (stateKey tenantId) with
    | some state => rfl
    | none =>
      cases loaded with
      | none => rfl
      | some state => simp [hrecord] at hloaded

theorem stopContainer_ends {v : World} (hw : v.RedisWorks) (hclient : v.hasClient = true)
    (hloaded : ∀ state, loaded = some state → v.redis.get (stateKey tenantId) = some state) :
    Ends (stopContainer host tenantId tc loaded)
      (fun _ u => ¬(v.Unreadable tc ∨ (v.kept host tenantId tc).isObj = false) ∧
        ∃ y, Read v y ∧ Removal tc.containerId
          (y.put (tc.stopped tenantId (v.kept host tenantId tc))) u)
      (fun u => (v.Unreadable tc ∨ (v.kept host tenantId tc).isObj = false) ∧ Read v u) v := by
  unfold stopContainer
  refine Ends.bind ((configToSave_ends hw hloaded).mono (fun _ _ h => h)
    fun u ⟨h, hread⟩ => ⟨.inl h, hread⟩) ?_
  rintro kept y ⟨hreadable, rfl, hread⟩
  refine Ends.ite (fun hobj => Ends.throw _ ⟨.inr (by simpa using hobj), hread⟩) fun hobj => ?_
  -- a configuration that is no dictionary raises before the record is saved
  have hno : ¬(v.Unreadable tc ∨ (v.kept host tenantId tc).isObj = false) := by
    rintro (h | h)
    · exact hreadable h
    · simp [h] at hobj
  have hy := hread.same.redisWorks hw
  refine Ends.bind_of_ok (t := y.put (tc.stopped tenantId (v.kept host tenantId tc)))
    (saveState_run_of_works hy) (Ends.get_bind ?_)
  have hclient' : (y.put (tc.stopped tenantId (v.kept host tenantId tc))).hasClient = true := by
    rw [World.put, hread.hasClient_eq, hclient]
  obtain ⟨u, hrun, hremoval⟩ := removal_of_removeContainer tc.containerId
    (y.put (tc.stopped tenantId (v.kept host tenantId tc)))
  rw [if_pos hclient']
  exact Ends.of_ok hrun ⟨hno, y, hread, hremoval⟩

/-- Where `stop_tenant` leads while Redis works, if Docker is connected whenever there is a
container. -/
theorem stopTenant_ends (hw : w.RedisWorks)
    (hclient : (w.holder tenantId).isSome = true → w.hasClient = true) :
    Ends (stopTenant host tenantId)
      (fun _ u => ¬w.StopRaises host tenantId ∧ Stopping host tenantId w u)
      (fun u => w.StopRaises host tenantId ∧ Stopping host tenantId w u) w := by
  unfold stopTenant
  refine Ends.get_bind ?_
  have hraises {tc : TenantContainer} (hholder : w.holder tenantId = some tc) :
      w.StopRaises host tenantId ↔ w.Unreadable tc ∨ (w.kept host tenantId tc).isObj = false := by
    simp [World.StopRaises, hholder]
  -- in both cases the container that is stopped is the holder
  have hstop {tc : TenantContainer} {loaded : Option TenantState}
      (hholder : w.holder tenantId = some tc)
      (hloaded : ∀ state, loaded = some state → w.redis.get (stateKey tenantId) = some state) :
      Ends (stopContainer host tenantId tc loaded)
        (fun _ u => ¬w.StopRaises host tenantId ∧ Stopping host tenantId w u)
        (fun u => w.StopRaises host tenantId ∧ Stopping host tenantId w u)
        (w.uncache tenantId) := by
    rw [hraises hholder]
    have hclient : (w.uncache tenantId).hasClient = true := hclient (by rw [hholder]; rfl)
    have hworks : (w.uncache tenantId).RedisWorks := hw
    refine (stopContainer_ends hworks hclient hloaded).mono ?_ ?_
    · rintro _ u ⟨hno, y, hread, hremoval⟩
      exact ⟨hno, .stopped hholder (mt (hraises hholder).mp hno) (halted_of_removal hread hremoval)⟩
    · rintro u ⟨h, hread⟩
      exact ⟨h, .raised ((hraises hholder).mpr h) hread⟩
  cases hentry : w.tenants.get tenantId with
  | some tc => exact Ends.set_bind (hstop (by simp [World.holder, hentry]) (by simp))
  | none =>
    refine Ends.bind_of_ok (loadState_run_of_works hw) ?_
    have hidle (h : w.holder tenantId = none) : Ends (pure () : M Unit)
        (fun _ u => ¬w.StopRaises host tenantId ∧ Stopping host tenantId w u)
        (fun u => w.StopRaises host tenantId ∧ Stopping host tenantId w u) w :=
      Ends.pure ⟨by simp [World.StopRaises, h], .idle h⟩
    cases hrecord : w.redis.get (stateKey tenantId) with
    | none => exact hidle (by simp [World.holder, hentry, hrecord])
    | some state =>
      dsimp only
      cases hrun : state.runningContainer with
      | none => exact hidle (by simp [World.holder, hentry, hrecord, hrun])
      | some id =>
        have hholder : w.holder tenantId = some (state.toContainer id) := by
          simp [World.holder, hentry, hrecord, hrun]
        have h : Ends (stopContainer host tenantId (state.toContainer id) (some state)) _ _
            (w.uncache tenantId) := hstop hholder fun s hs => by rw [hrecord, hs]
        rwa [World.uncache_of_none hentry] at h

end Stop

/-! ### Activity -/

/-- The world after a tenant's entry was put into the cache. -/
def World.cached (w : World) (tenantId : String) (tc : TenantContainer) : World :=
  { w with tenants := w.tenants.set tenantId tc }

/-- The world after a call to Docker. -/
def World.dockerCalled (w : World) : World := { w with dockerFaults := w.dockerFaults.tail }

/-- The existence check finds a container. -/
def World.Finds (w : World) (id : ℕ) : Prop :=
  w.dockerFaults.head? ≠ some true ∧ (w.containers.get id).isSome = true

instance (w : World) (id : ℕ) : Decidable (w.Finds id) := inferInstanceAs (Decidable (_ ∧ _))

/-- Where `get_tenant` leads while Redis works. -/
inductive Looking (tenantId : String) (w : World) : World → Prop
  | hit {tc : TenantContainer} (h : w.tenants.get tenantId = some tc) :
      Looking tenantId w (w.cached tenantId { tc with lastActivity := w.now })
  | nothing (hmiss : w.tenants.get tenantId = none)
      (h : w.hasClient = true → ∀ state, w.redis.get (stateKey tenantId) = some state →
        state.runningContainer = none) :
      Looking tenantId w w
  | restored {state : TenantState} {id : ℕ} (hmiss : w.tenants.get tenantId = none)
      (h : w.redis.get (stateKey tenantId) = some state) (hrun : state.runningContainer = some id)
      (hfinds : w.Finds id) :
      Looking tenantId w (w.dockerCalled.cached tenantId (state.toContainer id))
  | missing {state : TenantState} {id : ℕ} (hmiss : w.tenants.get tenantId = none)
      (h : w.redis.get (stateKey tenantId) = some state) (hrun : state.runningContainer = some id)
      (hfinds : ¬w.Finds id) : Looking tenantId w (w.dockerCalled.put state.markStopped)

/-- Where `touch` leads while Redis works. -/
inductive Touching (tenantId : String) (w : World) : World → Prop
  | absent (h : w.tenants.get tenantId = none) : Touching tenantId w w
  | cached {tc : TenantContainer} (h : w.tenants.get tenantId = some tc) :
      Touching tenantId w (w.cached tenantId { tc with lastActivity := w.now })
  | recorded {tc : TenantContainer} {state : TenantState} (h : w.tenants.get tenantId = some tc)
      (hstate : w.redis.get (stateKey tenantId) = some state) (hrun : state.status = .running) :
      Touching tenantId w ((w.cached tenantId { tc with lastActivity := w.now }).put
        { state with lastActivity := w.now })

section Activity

variable {host : Host} {w : World} {tenantId : String} {state : TenantState} {id : ℕ}

theorem containerExists_finds (w : World) (id : ℕ) : ∃ found,
    (containerExists id).run w = .ok found w.dockerCalled ∧ (found = true ↔ w.Finds id) :=
  ⟨_, containerExists_run, by simp [World.Finds]⟩

/-- The existence check and what follows from it. -/
theorem check_ends (hw : w.RedisWorks) (hmiss : w.tenants.get tenantId = none)
    (h : w.redis.get (stateKey tenantId) = some state)
    (hrun : state.runningContainer = some id) :
    Ends (do
        if ← containerExists id then do
          let tc := state.toContainer id
          cache tenantId tc
          pure (some tc)
        else do
          saveState state.markStopped
          pure none)
      (fun r u => Looking tenantId w u ∧ r = u.tenants.get tenantId) (fun _ => False) w := by
  obtain ⟨found, hexists, hfound⟩ := containerExists_finds w id
  refine Ends.bind_of_ok hexists (Ends.ite (fun htrue => ?_) fun hfalse => ?_)
  · refine Ends.modify_bind (Ends.pure ⟨.restored hmiss h hrun (hfound.mp htrue), ?_⟩)
    exact Dict.get_set_self.symm
  · have hworks : w.dockerCalled.RedisWorks := hw
    refine Ends.bind_of_ok (saveState_run_of_works hworks) (Ends.pure ⟨?_, hmiss.symm⟩)
    exact .missing hmiss h hrun (mt hfound.mpr hfalse)

/-- Where `get_tenant` leads; it returns what is then in the cache. -/
theorem getTenant_ends (hw : w.RedisWorks) :
    Ends (getTenant tenantId) (fun r u => Looking tenantId w u ∧ r = u.tenants.get tenantId)
      (fun _ => False) w := by
  unfold getTenant
  refine Ends.get_bind ?_
  cases hentry : w.tenants.get tenantId with
  | some tc =>
    refine Ends.modify_bind (Ends.pure ⟨.hit hentry, ?_⟩)
    exact Dict.get_set_self.symm
  | none =>
    refine Ends.bind_of_ok (loadState_run_of_works hw) ?_
    cases hrecord : w.redis.get (stateKey tenantId) with
    | none => exact Ends.pure ⟨.nothing hentry (by simp [hrecord]), hentry.symm⟩
    | some state =>
      dsimp only
      cases hrun : state.runningContainer with
      | none => exact Ends.pure ⟨.nothing hentry (by simp [hrecord, hrun]), hentry.symm⟩
      | some id =>
        refine Ends.ite (fun _ => check_ends hw hentry hrecord hrun) fun hclient => ?_
        exact Ends.pure ⟨.nothing hentry fun h => absurd h hclient, hentry.symm⟩

/-- Where `touch` leads. -/
theorem touch_ends (hw : w.RedisWorks) :
    Ends (touch tenantId) (fun _ u => Touching tenantId w u) (fun _ => False) w := by
  unfold touch
  refine Ends.get_bind ?_
  cases hentry : w.tenants.get tenantId with
  | none => exact Ends.pure (.absent hentry)
  | some tc =>
    refine Ends.modify_bind (Ends.ite (fun _ => ?_) fun hno => absurd hw.1 hno)
    have hworks : (w.cached tenantId { tc with lastActivity := w.now }).RedisWorks := hw
    refine Ends.bind_of_ok (loadState_run_of_works hworks) ?_
    cases hrecord : w.redis.get (stateKey tenantId) with
    | none => exact Ends.pure (.cached hentry)
    | some state =>
      refine Ends.ite (fun hrun => ?_) fun _ => Ends.pure (.cached hentry)
      exact Ends.of_ok (saveState_run_of_works hworks) (.recorded hentry hrecord hrun)

end Activity

/-! ### Provisioning -/

/-- The record of a container that was just started. -/
def runningState (host : Host) (tenantId : String) (id port : ℕ) (saved : Json) (now : Int) :
    TenantState where
  tenantId := tenantId
  containerId := some id
  port := port
  configDir := some (tenantDir host tenantId)
  configData := saved
  lastActivity := now
  status := .running

/-- The world after a container was put into the cache and recorded. -/
def World.provisioned (w : World) (host : Host) (tenantId : String) (id port : ℕ) (saved : Json) :
    World :=
  (w.cached tenantId ((runningState host tenantId id port saved w.now).toContainer id)).put
    (runningState host tenantId id port saved w.now)

/-- Where `provision_tenant` leads after it stopped the tenant, while Redis works. -/
inductive Launching (host : Host) (tenantId : String) (config : Json) (w : World) : World → Prop
  | failed {u : World} (h : ReflTransGen (Preparing host tenantId config) w u) :
      Launching host tenantId config w u
  | launched {y u : World} {container : Container} {workspace : PurePath} {written saved : Json}
      (h : Started host tenantId config w y container workspace written saved)
      (hfiled : Filed host tenantId written y)
      (hsame : Same ((y.started container saved).provisioned host tenantId y.nextId container.port
        saved) u) :
      Launching host tenantId config w u

section Launch

variable {host : Host} {w u v : World} {tenantId image : String} {config written : Json}
  {workspace : PurePath}

theorem Preparing.redisWorks (h : Preparing host tenantId config w u) (hw : w.RedisWorks) :
    u.RedisWorks := by
  cases h with
  | same h => exact h.redisWorks hw
  | _ => exact hw

theorem redisWorks_of_preparing (h : ReflTransGen (Preparing host tenantId config) w u)
    (hw : w.RedisWorks) : u.RedisWorks :=
  kept_of_reaches (fun _ _ => Preparing.redisWorks) h hw

theorem launch_ends (hw : w.RedisWorks) (hsteps : ReflTransGen (Preparing host tenantId config) v w)
    (hwritten : Written host tenantId config workspace written w)
    (hfiled : Filed host tenantId written w) :
    Ends (launch host tenantId image (tenantDir host tenantId) workspace written)
      (fun _ u => Launching host tenantId config v u) (Launching host tenantId config v) w := by
  unfold launch
  refine Ends.get_bind ?_
  refine Ends.bind ((Ends.of_does (ensureImage_does (R := Preparing host tenantId config)
    (fun _ _ => .same) fun _ _ => .build)).mono (fun _ _ h => h.1)
      fun u hu => .failed (hsteps.trans hu)) ?_
  intro _ t himage
  refine Ends.bind ((startContainer_ends hwritten.merged).mono (fun _ _ h => h)
    fun u hu => .failed ((hsteps.trans himage).trans hu)) ?_
  rintro ⟨id, saved⟩ _ ⟨y, container, hstart, -, hport, -, rfl, rfl⟩
  obtain ⟨setting, hmerge, -⟩ := hwritten.merged
  have hy : Filed host tenantId written y := kept_of_reaches
    (fun _ _ => Filed.of_preparing hmerge) (himage.trans hstart.reaches) hfiled
  -- the start belongs to the whole of the preparation
  have hstart' : Started host tenantId config v y container workspace written saved :=
    { hstart with reaches := (hsteps.trans himage).trans hstart.reaches }
  have hworks := redisWorks_of_preparing (himage.trans hstart.reaches) hw
  rw [← hport]
  refine Ends.get_bind (Ends.modify_bind ?_)
  have hworks' : ((y.started container saved).cached tenantId ((runningState host tenantId y.nextId
    container.port saved y.now).toContainer y.nextId)).RedisWorks := hworks
  refine Ends.bind_of_ok (saveState_run_of_works hworks') ?_
  -- what follows only calls Docker
  have hdone {z : World} (hz : Same ((y.started container saved).provisioned host tenantId y.nextId
      container.port saved) z) : Launching host tenantId config v z := .launched hstart' hy hz
  refine Ends.bind (ends_lift (hdone (Same.refl _))) ?_
  rintro commands _ ⟨rfl, -⟩
  refine Ends.bind ((Ends.of_does runSetup_does).mono (fun _ _ h => Same.of_reaches h.1)
    fun z hz => hdone (Same.of_reaches hz)) fun _ z hz => Ends.pure (hdone hz)

/-- Where `provision_tenant` leads after it stopped the tenant. -/
theorem startTenant_ends (hw : w.RedisWorks) : Ends (startTenant host tenantId config image)
    (fun _ u => Launching host tenantId config w u) (Launching host tenantId config w) w := by
  unfold startTenant
  refine Ends.bind ((Ends.of_does writeConfig_does).mono (fun _ _ h => h) fun _ h => .failed h) ?_
  rintro ⟨dir, workspace, written⟩ u ⟨hsteps, rfl, hwritten, hfiled, -⟩
  exact launch_ends (redisWorks_of_preparing hsteps hw) hsteps hwritten hfiled

/-- `provision_tenant` with a Docker client stops the tenant first. -/
theorem provisionTenant_run (hclient : w.hasClient = true) :
    (provisionTenant host tenantId config image).run w =
      (do
        stopTenant host tenantId
        startTenant host tenantId config image).run w := by
  simp [provisionTenant, startTenant, hclient]

end Launch

end Nanogate.Tenants
