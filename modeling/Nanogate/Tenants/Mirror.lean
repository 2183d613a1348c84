import Nanogate.Tenants.Calls

/-!
# Cache and records

`_tenants` caches what Redis says: a tenant should be in the cache exactly if its record says
running, and the two should name the same container. `stop_tenant` takes the entry out of the
cache first and saves the stopped record later. In between it reads the tenant's configuration
from disk, and every error of that is logged, except one: whether the file exists is asked outside
the handler. When that question raises, the tenant is gone from the cache while its record says
running.

## Main definitions

* `Mirrored` — the cache and the records agree
* `Readable` — no `stop_tenant` raises when it asks whether the file exists

## Main results

* `mirrored_of_run` — otherwise they agree after every operation
* `running_not_cached` — a re-provisioning that raises there leaves a record without an entry
-/

namespace Nanogate.Tenants

open Nanogate.Python Nanogate.Semantics Relation

/-- An entry and a record that say the same of a running container. -/
structure Mirrors (tc : TenantContainer) (state : TenantState) : Prop where
  status : state.status = .running
  tenantId : tc.tenantId = state.tenantId
  containerId : state.containerId = some tc.containerId
  port : tc.port = state.port
  configDir : tc.configDir = state.configDir

/-- A tenant is in the cache exactly if its record says running, the two then agree, and a record
has a container exactly if it says running. -/
structure Mirrored (w : World) : Prop where
  cached_iff : ∀ t, (w.tenants.get t).isSome = true ↔
    ∃ state, w.redis.get (stateKey t) = some state ∧ state.status = .running
  mirrors : ∀ t tc state, w.tenants.get t = some tc → w.redis.get (stateKey t) = some state →
    Mirrors tc state
  containerId_iff : ∀ key state, w.redis.get key = some state →
    (state.containerId.isSome = true ↔ state.status = .running)

/-- When `stop_tenant` has something to stop, asking whether the file exists does not fail. -/
def Call.Asks : Call → Prop
  | .stop t w => (w.holder t).isSome = true → w.fileFaults.head? ≠ some true
  | _ => True

instance : (c : Call) → Decidable c.Asks
  | .stop t w => inferInstanceAs (Decidable ((w.holder t).isSome = true → _))
  | .look .. | .touch .. | .start .. => inferInstanceAs (Decidable True)

/-- Redis keeps working, and no `stop_tenant` of the operation raises when it asks whether the
file exists. -/
def Readable (host : Host) (w : World) (op : Op) : Prop :=
  KeepsRedis op ∧ ∀ c ∈ calls host w op, c.Asks

instance (host : Host) (w : World) (op : Op) : Decidable (Readable host w op) :=
  inferInstanceAs (Decidable (_ ∧ ∀ c ∈ calls host w op, c.Asks))

/-! ### Entries -/

/-- Every entry of the cache mirrors a record. -/
def Backed (w : World) : Prop :=
  ∀ t tc, w.tenants.get t = some tc →
    ∃ state, w.redis.get (stateKey t) = some state ∧ Mirrors tc state

/-- A call for `t` leaves the other tenants alone, and an entry of `t` mirrors its record
afterwards. -/
structure Settled (t : String) (w w' : World) : Prop where
  tenants : ∀ t', t' ≠ t → w'.tenants.get t' = w.tenants.get t'
  redis : ∀ key, key ≠ stateKey t → w'.redis.get key = w.redis.get key
  entry : ∀ tc, w'.tenants.get t = some tc →
    ∃ state, w'.redis.get (stateKey t) = some state ∧ Mirrors tc state

section Entries

variable {host : Host} {w w' : World} {t : String} {config : Json} {tc : TenantContainer}
  {state : TenantState} {now : Int} {c : Call}

theorem status_of_runningContainer {id : ℕ} (h : state.runningContainer = some id) :
    state.status = .running := by
  unfold TenantState.runningContainer at h
  split at h
  · assumption
  · simp at h

/-- The time of the last activity is not part of what an entry and a record agree on. -/
theorem Mirrors.touched (h : Mirrors tc state) :
    Mirrors { tc with lastActivity := now } state ∧
      Mirrors { tc with lastActivity := now } { state with lastActivity := now } :=
  ⟨⟨h.status, h.tenantId, h.containerId, h.port, h.configDir⟩,
    ⟨h.status, h.tenantId, h.containerId, h.port, h.configDir⟩⟩

theorem Fresh.backed (h : Fresh w) : Backed w := fun t tc htc => by simp [h.tenants] at htc

theorem Backed.of_settled (h : Backed w) (hs : Settled t w w') : Backed w' := by
  intro t' tc htc
  by_cases ht' : t' = t
  · subst ht'
    exact hs.entry tc htc
  · rw [hs.tenants t' ht'] at htc
    rw [hs.redis _ fun heq => ht' (stateKey_inj.mp heq)]
    exact h t' tc htc

theorem Backed.of_same (h : Backed w) (hsame : Same w w') : Backed w' := by
  obtain ⟨_, _, _, _, _, _, rfl⟩ := hsame
  exact h

theorem Backed.direct {op : Op} (h : Backed w) : Backed (direct true w op) := by
  cases op with
  | restart keys => exact fun t tc htc => by simp [Tenants.direct] at htc
  | _ => exact h

theorem Settled.refl (h : Backed w) : Settled t w w := ⟨fun _ _ => rfl, fun _ _ => rfl, h t⟩

theorem settled_of_looking (hw : Sound host w) (h : Backed w) (hlook : Looking t w w') :
    Settled t w w' := by
  have hother {tc : TenantContainer} (t' : String) (ht' : t' ≠ t) :
      (w.tenants.set t tc).get t' = w.tenants.get t' := Dict.get_set_of_ne ht'
  cases hlook with
  | hit hentry =>
    refine ⟨hother, fun _ _ => rfl, fun tc htc => ?_⟩
    obtain rfl := Option.some_inj.mp (Dict.get_set_self.symm.trans htc)
    obtain ⟨state, hstate, hmirrors⟩ := h _ _ hentry
    exact ⟨state, hstate, hmirrors.touched.1⟩
  | nothing => exact Settled.refl h
  | restored _ hstate hrun =>
    refine ⟨hother, fun _ _ => rfl, fun tc htc => ?_⟩
    obtain rfl := Option.some_inj.mp (Dict.get_set_self.symm.trans htc)
    exact ⟨_, hstate, status_of_runningContainer hrun, rfl, containerId_of_runningContainer hrun,
      rfl, rfl⟩
  | @missing state _ hmiss hstate _ _ =>
    have hkey : stateKey state.markStopped.tenantId = stateKey t :=
      (hw.registered.record _ _ hstate).1.symm
    refine ⟨fun _ _ => rfl, fun key hne => Dict.get_set_of_ne (hkey ▸ hne), fun tc htc => ?_⟩
    exact absurd (hmiss.symm.trans htc) (by simp)

theorem settled_of_touching (hw : Sound host w) (h : Backed w) (htouch : Touching t w w') :
    Settled t w w' := by
  have hother {tc : TenantContainer} (t' : String) (ht' : t' ≠ t) :
      (w.tenants.set t tc).get t' = w.tenants.get t' := Dict.get_set_of_ne ht'
  cases htouch with
  | absent => exact Settled.refl h
  | cached hentry =>
    refine ⟨hother, fun _ _ => rfl, fun tc htc => ?_⟩
    obtain rfl := Option.some_inj.mp (Dict.get_set_self.symm.trans htc)
    obtain ⟨state, hstate, hmirrors⟩ := h _ _ hentry
    exact ⟨state, hstate, hmirrors.touched.1⟩
  | @recorded _ state hentry hstate _ =>
    have hkey : stateKey state.tenantId = stateKey t := (hw.registered.record _ _ hstate).1.symm
    refine ⟨hother, fun key hne => Dict.get_set_of_ne (hkey ▸ hne), fun tc htc => ?_⟩
    obtain rfl := Option.some_inj.mp (Dict.get_set_self.symm.trans htc)
    obtain ⟨state', hstate', hmirrors⟩ := h _ _ hentry
    obtain rfl := Option.some_inj.mp (hstate.symm.trans hstate')
    exact ⟨_, by rw [← hkey]; exact Dict.get_set_self, hmirrors.touched.2⟩

theorem settled_of_stopping (h : Backed w) (hstop : Stopping host t w w') : Settled t w w' := by
  have hnone {tc : TenantContainer} (htc : (w.tenants.erase t).get t = some tc) : False := by
    rw [Dict.get_erase_self] at htc
    simp at htc
  cases hstop with
  | idle => exact Settled.refl h
  | raised _ hread =>
    obtain ⟨_, _, rfl⟩ := hread
    exact ⟨fun _ ht' => Dict.get_erase_of_ne ht', fun _ _ => rfl, fun _ htc => (hnone htc).elim⟩
  | stopped _ _ hhalted =>
    refine ⟨fun t' ht' => ?_, fun key hne => ?_, fun tc htc => (hnone (hhalted.tenants ▸ htc)).elim⟩
    · rw [hhalted.tenants, Dict.get_erase_of_ne ht']
    · rw [hhalted.redis]
      exact Dict.get_set_of_ne hne

/-- What a started container leaves in the cache and in the record of its tenant. -/
theorem launched_entry {y : World} {container : Container} {saved : Json}
    (hsame : Same
      ((y.started container saved).provisioned host t y.nextId container.port saved) w') :
    w'.tenants = y.tenants.set t
        ((runningState host t y.nextId container.port saved y.now).toContainer y.nextId) ∧
      w'.redis =
        y.redis.set (stateKey t) (runningState host t y.nextId container.port saved y.now) :=
  ⟨hsame.tenants_eq, hsame.redis_eq⟩

theorem settled_of_launching (h : Backed w) (hlaunch : Launching host t config w w') :
    Settled t w w' := by
  cases hlaunch with
  | failed hsteps =>
    have hframe := untouched_of_preparing hsteps
    refine ⟨fun t' _ => by rw [hframe.tenants], fun key _ => by rw [hframe.redis], fun tc htc => ?_⟩
    rw [hframe.redis]
    exact h t tc (hframe.tenants ▸ htc)
  | launched hstart _ hsame =>
    have hframe := untouched_of_preparing hstart.reaches
    obtain ⟨htenants, hredis⟩ := launched_entry hsame
    rw [hframe.tenants] at htenants
    rw [hframe.redis] at hredis
    refine ⟨fun t' ht' => ?_, fun key hne => ?_, fun tc htc => ?_⟩
    · rw [htenants, Dict.get_set_of_ne ht']
    · rw [hredis, Dict.get_set_of_ne hne]
    · rw [htenants, Dict.get_set_self] at htc
      obtain rfl := Option.some_inj.mp htc
      exact ⟨_, by rw [hredis, Dict.get_set_self], rfl, rfl, rfl, rfl, rfl⟩

theorem settled_of_leads (hw : Sound host c.world) (h : Backed c.world) (hleads : c.Leads host w') :
    Settled c.tenantId c.world w' := by
  cases c with
  | stop t w => exact settled_of_stopping h hleads
  | look t w => exact settled_of_looking hw h hleads
  | touch t w => exact settled_of_touching hw h hleads
  | start t config w => exact settled_of_launching h hleads.2.2

end Entries

/-! ### Records -/

/-- The cache and the records agree, but for records still to be checked by a restart. -/
structure Mirroring (keys : List String) (w : World) : Prop where
  backed : Backed w
  running : ∀ t state, w.redis.get (stateKey t) = some state → state.status = .running →
    (w.tenants.get t).isSome = true ∨ stateKey t ∈ keys
  containerId_iff : ∀ key state, w.redis.get key = some state →
    (state.containerId.isSome = true ↔ state.status = .running)

section Mirroring

variable {host : Host} {w w' w₀ : World} {t : String} {keys : List String} {state : TenantState}
  {op : Op} {ops : List Op}

theorem Mirroring.mirrored (h : Mirroring [] w) : Mirrored w where
  cached_iff t := by
    constructor
    · intro hsome
      obtain ⟨tc, htc⟩ := Option.isSome_iff_exists.mp hsome
      obtain ⟨state, hstate, hmirrors⟩ := h.backed t tc htc
      exact ⟨state, hstate, hmirrors.status⟩
    · rintro ⟨state, hstate, hrun⟩
      exact (h.running t state hstate hrun).resolve_right (by simp)
  mirrors t tc state htc hstate := by
    obtain ⟨state', hstate', hmirrors⟩ := h.backed t tc htc
    rwa [Option.some_inj.mp (hstate.symm.trans hstate')]
  containerId_iff := h.containerId_iff

/-- A call for one tenant settles it, if it leaves no running record without an entry. -/
theorem Mirroring.settle (h : Mirroring (stateKey t :: keys) w) (hs : Settled t w w')
    (hnone : w'.tenants.get t = none → ∀ state, w'.redis.get (stateKey t) = some state →
      state.status = .stopped ∧ state.containerId = none) : Mirroring keys w' := by
  have hne {t' : String} (ht' : t' ≠ t) : stateKey t' ≠ stateKey t := fun heq =>
    ht' (stateKey_inj.mp heq)
  refine ⟨h.backed.of_settled hs, fun t' state hstate hrun => ?_, fun key state hstate => ?_⟩
  · by_cases ht' : t' = t
    · subst ht'
      refine .inl (Option.isSome_iff_ne_none.mpr fun htenants => ?_)
      rw [(hnone htenants state hstate).1] at hrun
      simp at hrun
    · rw [hs.redis _ (hne ht')] at hstate
      rw [hs.tenants t' ht']
      refine (h.running t' state hstate hrun).imp_right fun hmem => ?_
      exact (List.mem_cons.mp hmem).resolve_left (hne ht')
  · by_cases hkey : key = stateKey t
    · subst hkey
      cases htenants : w'.tenants.get t with
      | none => simp [hnone htenants state hstate]
      | some tc =>
        obtain ⟨state', hstate', hmirrors⟩ := hs.entry tc htenants
        obtain rfl := Option.some_inj.mp (hstate.symm.trans hstate')
        simp [hmirrors.status, hmirrors.containerId]
    · exact h.containerId_iff key state (hs.redis key hkey ▸ hstate)

theorem Mirroring.mono {keys' : List String} (h : Mirroring keys w) (hkeys : keys ⊆ keys') :
    Mirroring keys' w :=
  ⟨h.backed, fun t state hstate hrun => (h.running t state hstate hrun).imp_right fun hmem =>
    hkeys hmem, h.containerId_iff⟩

/-- Looking a tenant up settles it, whether or not its record was still to be checked. -/
theorem Mirroring.of_looking (h : Mirroring (stateKey t :: keys) w) (hw : Sound host w)
    (hlook : Looking t w w') : Mirroring keys w' := by
  refine h.settle (settled_of_looking hw h.backed hlook) fun hnone state hstate => ?_
  cases hlook with
  | hit | restored =>
    rw [World.cached, Dict.get_set_self] at hnone
    simp at hnone
  | nothing _ hstopped =>
    have hclient := (hw.registered.record _ _ hstate).2.hasClient
    have hrun := hstopped hclient state hstate
    have hiff := h.containerId_iff _ state hstate
    unfold TenantState.runningContainer at hrun
    cases hstatus : state.status with
    | running => simp [hstatus] at hrun; simp [hrun, hstatus] at hiff
    | stopped => exact ⟨rfl, by simpa [hstatus] using hiff⟩
  | missing _ hstate' =>
    have hkey := (hw.registered.record _ _ hstate').1
    rw [hkey] at hstate
    obtain rfl := Option.some_inj.mp (Dict.get_set_self.symm.trans hstate)
    exact ⟨rfl, rfl⟩

theorem Mirroring.of_call {c : Call} (h : Mirroring [] c.world) (hasks : c.Asks)
    (hw : Sound host c.world) (hleads : c.Leads host w') : Mirroring [] w' := by
  have h' : Mirroring [stateKey c.tenantId] c.world := h.mono (List.nil_subset _)
  have hs := settled_of_leads hw h.backed hleads
  -- a tenant that was not in the cache has no running record
  have hold (hnone : c.world.tenants.get c.tenantId = none) (state : TenantState)
      (hstate : c.world.redis.get (stateKey c.tenantId) = some state) :
      state.status = .stopped ∧ state.containerId = none := by
    have hiff := h.containerId_iff _ state hstate
    cases hstatus : state.status with
    | running =>
      have hcached := (h.running _ state hstate hstatus).resolve_right (by simp)
      simp [hnone] at hcached
    | stopped => exact ⟨rfl, by simpa [hstatus] using hiff⟩
  cases c with
  | look t w => exact h'.of_looking hw hleads
  | touch t w =>
    refine h'.settle hs fun hnone => ?_
    cases hleads with
    -- `touch` leaves a tenant in the cache that was there
    | absent => exact hold hnone
    | cached | recorded => exact absurd (Dict.get_set_self.symm.trans hnone) (by simp)
  | stop t w =>
    refine h'.settle hs fun hnone => ?_
    cases hleads with
    | idle => exact hold hnone
    | raised hraises =>
      obtain ⟨hsome, hfault⟩ := hw.stopRaises_iff.mp hraises
      exact absurd hfault (hasks hsome)
    | stopped _ _ hhalted =>
      -- the record that is saved says stopped
      intro state hstate
      rw [hhalted.redis] at hstate
      obtain rfl := Option.some_inj.mp (Dict.get_set_self.symm.trans hstate)
      exact ⟨rfl, rfl⟩
  | start t config w =>
    obtain ⟨-, -, hlaunch⟩ := hleads
    refine h'.settle hs fun hnone => ?_
    cases hlaunch with
    | failed hsteps =>
      have hframe := untouched_of_preparing hsteps
      rw [hframe.tenants] at hnone
      rw [hframe.redis]
      exact hold hnone
    | launched _ _ hsame =>
      rw [(launched_entry hsame).1] at hnone
      exact absurd (Dict.get_set_self.symm.trans hnone) (by simp)

theorem Mirroring.of_same (h : Mirroring keys w) (hsame : Same w w') : Mirroring keys w' := by
  obtain ⟨_, _, _, _, _, _, rfl⟩ := hsame
  exact ⟨h.backed, h.running, h.containerId_iff⟩

/-! ### Runs -/

theorem mirroring_of_step (hop : Readable host w op)
    (hstep : (machine host w₀).step w op = some w') (hw : Sound host w) (h : Mirroring [] w) :
    Sound host w' ∧ Mirroring [] w' := by
  obtain ⟨hen, rfl⟩ := step_eq_some hstep
  obtain ⟨hkeeps, hasks⟩ := hop
  have hkept : Keeps host Call.Asks (Mirroring []) :=
    ⟨fun _ _ huv hu => hu.of_same huv, fun _ _ hu => ⟨hu.backed, hu.running, hu.containerId_iff⟩,
      fun c _ hc hcw _ hleads _ hI => hI.of_call hc hcw hleads⟩
  cases op with
  | restart keys =>
    -- a restart empties the cache, and all records are still to be checked
    refine restart_rule ?_ hkept.same hkept.build hw hen hasks ?_
    · intro key rest u v _ hu _ hkey _ hlook hIu
      exact Mirroring.of_looking (hkey.symm ▸ hIu) hu hlook
    · refine ⟨fun t tc htc => by simp [World.forgot] at htc, fun t state hstate hrun => .inr ?_,
        h.containerId_iff⟩
      exact hen.mem_iff.mpr (Dict.mem_keys_iff.mpr ⟨state, hstate⟩)
  | _ =>
    exact hkept.of_op hw hen hkeeps hasks ⟨h.backed, h.running, h.containerId_iff⟩

theorem Fresh.mirroring (h : Fresh w) : Mirroring keys w :=
  ⟨h.backed, fun t state hstate => by simp [h.redis] at hstate,
    fun key state hstate => by simp [h.redis] at hstate⟩

/-- **Cache and records agree** after every operation of a run in which no `stop_tenant` raises
when it asks whether the file exists. -/
theorem mirrored_of_run (hfresh : Fresh w₀) (hworks : w₀.RedisWorks)
    (hops : (machine host w₀).AllSteps (Readable host) w₀ ops)
    (hrun : (machine host w₀).run ops = some w) : Mirrored w := by
  have hkept := Machine.run_invariant (I := fun w => Sound host w ∧ Mirroring [] w)
    (fun hu hop hstep => mirroring_of_step hop hstep hu.1 hu.2)
    ⟨hfresh.sound hworks, hfresh.mirroring⟩ hops hrun
  exact hkept.2.mirrored

end Mirroring

/-! ### A file system that fails -/

/-- A tenant is provisioned, provisioned again and stopped. -/
theorem mirrored_of_run_restarted : ∃ w,
    (machine sampleHost sampleWorld).run [.provision "alice" (.obj []) defaultImage,
      .restart [stateKey "alice"], .provision "alice" (.obj []) defaultImage] = some w ∧
        Mirrored w ∧ (w.tenants.get "alice").isSome = true := by
  have hcheck : ((machine sampleHost sampleWorld).run
      [.provision "alice" (.obj []) defaultImage, .restart [stateKey "alice"],
        .provision "alice" (.obj []) defaultImage]).map
          (fun w => (w.tenants.get "alice").isSome) = some true := by decide +kernel
  obtain ⟨w, hrun, hcached⟩ := Option.map_eq_some_iff.mp hcheck
  have hops : (machine sampleHost sampleWorld).AllSteps (Readable sampleHost) sampleWorld
      [.provision "alice" (.obj []) defaultImage, .restart [stateKey "alice"],
        .provision "alice" (.obj []) defaultImage] := by decide +kernel
  exact ⟨w, hrun, mirrored_of_run sampleWorld_fresh sampleWorld_redisWorks hops hrun, hcached⟩

/-- **A record without an entry**: asking whether the file of the running container exists raises
in the `stop_tenant` of a re-provisioning. -/
theorem running_not_cached : ∃ ops w, (machine sampleHost sampleWorld).run ops = some w ∧
    (∀ op ∈ ops, KeepsRedis op) ∧ Fresh sampleWorld ∧ ¬Occurs statePrefix "alice" ∧
      ops = [.provision "alice" (.obj []) defaultImage, .fail [] [] [true],
        .provision "alice" (.obj []) defaultImage] ∧ ¬Mirrored w := by
  have hcheck : ((machine sampleHost sampleWorld).run
      [.provision "alice" (.obj []) defaultImage, .fail [] [] [true],
        .provision "alice" (.obj []) defaultImage]).bind (fun w =>
          (w.redis.get (stateKey "alice")).map fun state =>
            decide (w.tenants.get "alice" = none ∧ state.status = .running)) = some true := by
    decide +kernel
  obtain ⟨w, hrun, hcheck⟩ := Option.bind_eq_some_iff.mp hcheck
  obtain ⟨state, hstate, hcheck⟩ := Option.map_eq_some_iff.mp hcheck
  obtain ⟨hnone, hstatus⟩ := of_decide_eq_true hcheck
  refine ⟨_, w, hrun, by decide, sampleWorld_fresh, by decide, rfl, fun hmirrored => ?_⟩
  have hcached := (hmirrored.cached_iff "alice").mpr ⟨state, hstate, hstatus⟩
  simp [hnone] at hcached

end Nanogate.Tenants
