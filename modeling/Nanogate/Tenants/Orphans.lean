import Nanogate.Tenants.Mirror

/-!
# Containers that are forgotten

A container can only be stopped while its tenant's record names it. `stop_tenant` saves the
stopped record before it asks Docker to stop and remove the container, and logs every error of
that; `get_tenant` and a restart take every error of the existence check for a container that is
gone. In each of these cases one failing call leaves a container that nothing knows of.

## Main definitions

* `Remembered` — every existing container that was started is the one its tenant's record names
* `Reached` — Docker answers the calls on which a container's memory depends

## Main results

* `remembered_of_run` — then no container is forgotten
* `container_forgotten` — one failing call is enough to forget one
-/

namespace Nanogate.Tenants

open Nanogate.Python Nanogate.Semantics Relation

/-- Every container that was started since `start` and still exists is the one that its tenant's
record says is running. -/
def Remembered (start w : World) : Prop :=
  ∀ id container config t, Effect.run id container config ∈ start.effectsSince w →
    container.name = containerName t → (w.containers.get id).isSome = true →
      ∃ state, w.redis.get (stateKey t) = some state ∧ state.status = .running ∧
        state.containerId = some id

/-- The calls to Docker that decide whether a container is remembered are answered: those that
stop and remove an existing container, and the check whether it exists. -/
def Call.Reaches : Call → Prop
  | .stop t w => w.fileFaults.head? ≠ some true → ∀ tc ∈ w.holder t,
      (w.containers.get tc.containerId).isSome = true → w.Removes
  | .look t w => w.tenants.get t = none → ∀ state ∈ w.redis.get (stateKey t),
      ∀ id ∈ state.runningContainer, (w.containers.get id).isSome = true →
        w.dockerFaults.head? ≠ some true
  | _ => True

instance : (c : Call) → Decidable c.Reaches
  | .stop t w => inferInstanceAs (Decidable (_ → ∀ tc ∈ w.holder t, _))
  | .look t w => inferInstanceAs (Decidable (_ → ∀ state ∈ w.redis.get (stateKey t),
      ∀ id ∈ state.runningContainer, _))
  | .touch .. | .start .. => inferInstanceAs (Decidable True)

/-- Redis keeps working, and Docker answers the calls on which a container's memory depends. -/
def Reached (host : Host) (w : World) (op : Op) : Prop :=
  KeepsRedis op ∧ ∀ c ∈ calls host w op, c.Reaches

instance (host : Host) (w : World) (op : Op) : Decidable (Reached host w op) :=
  inferInstanceAs (Decidable (_ ∧ ∀ c ∈ calls host w op, c.Reaches))

/-! ### Containers that were started -/

/-- Containers that were started since `start` have new ids and their tenants' names. -/
structure Tracked (start w : World) : Prop where
  grows : start.effects <+: w.effects
  nextId : start.nextId ≤ w.nextId
  owns : ∀ id container config t, Effect.run id container config ∈ start.effectsSince w →
    container.name = containerName t → start.nextId ≤ id ∧ Owns w t id

section Tracking

variable {host : Host} {w w' w₀ start : World} {t : String} {config : Option Json}

theorem Tracked.refl (w : World) : Tracked w w :=
  ⟨List.prefix_rfl, le_rfl, fun _ _ _ _ h => by simp [World.effectsSince] at h⟩

theorem effectsSince_append {es : List Effect} (h : start.effects <+: w.effects)
    (heq : w'.effects = w.effects ++ es) :
    start.effectsSince w' = start.effectsSince w ++ es := by
  rw [World.effectsSince, World.effectsSince, heq, List.drop_append_of_le_length h.length_le]

/-- A container is only started under the next id. -/
theorem run_of_change (hstep : Change host t config w₀ w w') :
    w.nextId ≤ w'.nextId ∧ ∃ es, w'.effects = w.effects ++ es ∧
      ∀ id container c, Effect.run id container c ∈ es → id = w.nextId ∧
        id < w'.nextId ∧ w'.containers.get id = some container := by
  cases hstep with
  | same hsame =>
    obtain ⟨_, _, _, _, _, _, rfl⟩ := hsame
    exact ⟨le_rfl, [], (List.append_nil _).symm, by simp⟩
  | save | stop | remove | write => exact ⟨le_rfl, _, rfl, by simp⟩
  | run =>
    refine ⟨Nat.le_succ _, _, rfl, fun id container c hmem => ?_⟩
    obtain ⟨rfl, rfl, -⟩ := Effect.run.inj (List.mem_singleton.mp hmem)
    exact ⟨rfl, Nat.lt_succ_self _, Dict.get_set_self⟩
  | _ => exact ⟨le_rfl, [], (List.append_nil _).symm, by simp⟩

theorem Tracked.of_change (hstep : Change host t config w₀ w w') (h : Tracked start w) :
    Tracked start w' := by
  obtain ⟨hnext, es, hes, hruns⟩ := run_of_change hstep
  refine ⟨h.grows.trans (hes ▸ List.prefix_append _ _), h.nextId.trans hnext, ?_⟩
  intro id container c t' hmem hname
  rw [effectsSince_append h.grows hes, List.mem_append] at hmem
  rcases hmem with hmem | hmem
  · obtain ⟨hid, howns⟩ := h.owns id container c t' hmem hname
    exact ⟨hid, howns.of_change hstep⟩
  · obtain ⟨rfl, hlt, hget⟩ := hruns id container c hmem
    refine ⟨h.nextId, hlt, fun c' hc' => ?_⟩
    rw [← Option.some_inj.mp (hget.symm.trans hc'), hname]

theorem Tracked.direct {op : Op} (h : Tracked start w) : Tracked start (direct true w op) := by
  have howns {id k : ℕ} {t : String} (hid : Owns w t id) :
      Owns { w with containers := w.containers.erase k } t id := by
    refine ⟨hid.1, fun c hc => hid.2 c ?_⟩
    rw [Dict.get_erase] at hc
    split_ifs at hc
    exact hc
  cases op with
  | vanish k =>
    refine ⟨h.grows, h.nextId, fun id container c t hmem hname => ?_⟩
    obtain ⟨hid, hown⟩ := h.owns id container c t hmem hname
    exact ⟨hid, howns hown⟩
  | _ => exact ⟨h.grows, h.nextId, h.owns⟩

end Tracking

/-! ### Containers that are remembered -/

/-- A container is the one its tenant's record says is running. -/
def Named (w : World) (id : ℕ) (c : Container) : Prop :=
  ∃ t state, c.name = containerName t ∧ w.redis.get (stateKey t) = some state ∧
    state.runningContainer = some id

/-- Every existing container that was started since `start` is named by its tenant's record. -/
structure Remembering (start w : World) : Prop where
  tracked : Tracked start w
  backed : Backed w
  named : ∀ id c, start.nextId ≤ id → w.containers.get id = some c → Named w id c

section Remembering

variable {host : Host} {w w' w₀ start : World} {t : String} {config : Json}
  {state : TenantState} {id : ℕ} {c : Call} {ops : List Op}

theorem runningContainer_eq_some : state.runningContainer = some id ↔
    state.status = .running ∧ state.containerId = some id := by
  constructor
  · exact fun h => ⟨status_of_runningContainer h, containerId_of_runningContainer h⟩
  · rintro ⟨hstatus, hid⟩
    unfold TenantState.runningContainer
    rw [hstatus]
    exact hid

theorem Remembering.remembered (h : Remembering start w) : Remembered start w := by
  intro id container config t hmem hname hsome
  obtain ⟨hid, howns⟩ := h.tracked.owns id container config t hmem hname
  obtain ⟨c, hc⟩ := Option.isSome_iff_exists.mp hsome
  obtain ⟨t', state, hname', hstate, hrun⟩ := h.named id c hid hc
  obtain rfl : t' = t := containerName_inj.mp (hname'.symm.trans (howns.2 c hc))
  obtain ⟨hstatus, hcontainer⟩ := runningContainer_eq_some.mp hrun
  exact ⟨state, hstate, hstatus, hcontainer⟩

/-- The container of a running record is what `stop_tenant` stops. -/
theorem holder_of_running (h : Backed w) (hstate : w.redis.get (stateKey t) = some state)
    (hrun : state.runningContainer = some id) : ∃ tc ∈ w.holder t, tc.containerId = id := by
  cases hentry : w.tenants.get t with
  | none => exact ⟨state.toContainer id, by simp [World.holder, hentry, hstate, hrun], rfl⟩
  | some tc =>
    refine ⟨tc, by simp [World.holder, hentry], ?_⟩
    obtain ⟨state', hstate', hmirrors⟩ := h t tc hentry
    obtain rfl := Option.some_inj.mp (hstate.symm.trans hstate')
    exact Option.some_inj.mp
      (hmirrors.containerId.symm.trans (containerId_of_runningContainer hrun))

/-- A container stays named when its tenant's record stays or is not the one that changed. -/
theorem Named.congr {c : Container} (h : Named w id c)
    (hredis : ∀ key, key ≠ stateKey t → w'.redis.get key = w.redis.get key)
    (hnew : ∀ state, w.redis.get (stateKey t) = some state → state.runningContainer = some id →
      ∃ state', w'.redis.get (stateKey t) = some state' ∧ state'.runningContainer = some id) :
    Named w' id c := by
  obtain ⟨t', state, hname, hstate, hrun⟩ := h
  by_cases ht' : t' = t
  · subst ht'
    obtain ⟨state', hstate', hrun'⟩ := hnew state hstate hrun
    exact ⟨t', state', hname, hstate', hrun'⟩
  · refine ⟨t', state, hname, ?_, hrun⟩
    rwa [hredis _ fun heq => ht' (stateKey_inj.mp heq)]

theorem named_of_stopping (h : Remembering start w) (hreaches : (Call.stop t w).Reaches)
    (hw : Sound host w) (hs : Settled t w w') (hstop : Stopping host t w w') :
    ∀ id c, start.nextId ≤ id → w'.containers.get id = some c → Named w' id c := by
  intro id c hid hc
  cases hstop with
  | idle => exact h.named id c hid hc
  | raised _ hread =>
    obtain ⟨_, _, rfl⟩ := hread
    exact h.named id c hid hc
  | @stopped tc _ hholder hno hhalted =>
    have hfault : w.fileFaults.head? ≠ some true := fun hfault =>
      hno (hw.stopRaises_iff.mpr ⟨by rw [hholder]; rfl, hfault⟩)
    -- the container that was stopped is gone
    have hne : id ≠ tc.containerId := by
      rintro rfl
      obtain ⟨c', hc', -⟩ := hhalted.name c hc
      rw [hhalted.gone (hreaches hfault tc hholder (by rw [hc']; rfl))] at hc
      simp at hc
    rw [hhalted.others id hne] at hc
    refine (h.named id c hid hc).congr hs.redis fun state hstate hrun => ?_
    obtain ⟨tc', htc', hid'⟩ := holder_of_running h.backed hstate hrun
    obtain rfl := Option.some_inj.mp (hholder.symm.trans htc')
    exact absurd hid'.symm hne

theorem named_of_looking (h : Remembering start w) (hreaches : (Call.look t w).Reaches)
    (hs : Settled t w w') (hlook : Looking t w w') :
    ∀ id c, start.nextId ≤ id → w'.containers.get id = some c → Named w' id c := by
  intro id c hid hc
  cases hlook with
  | hit | nothing | restored => exact h.named id c hid hc
  | missing hmiss hstate hrun hfinds =>
    refine (h.named id c hid hc).congr hs.redis fun state' hstate' hrun' => ?_
    obtain rfl := Option.some_inj.mp (hstate.symm.trans hstate')
    obtain rfl := Option.some_inj.mp (hrun.symm.trans hrun')
    -- an existing container is found
    have hsome : (w.containers.get _).isSome = true := Option.isSome_iff_exists.mpr ⟨c, hc⟩
    exact absurd ⟨hreaches hmiss _ hstate _ hrun hsome, hsome⟩ hfinds

theorem named_of_launching (h : Remembering start w) (hs : Settled t w w')
    (hholder : w.holder t = none) (hlaunch : Launching host t config w w') :
    ∀ id c, start.nextId ≤ id → w'.containers.get id = some c → Named w' id c := by
  intro id c hid hc
  have hold {c : Container} (hc : w.containers.get id = some c) : Named w' id c := by
    refine (h.named id c hid hc).congr hs.redis fun state hstate hrun => ?_
    obtain ⟨tc, htc, -⟩ := holder_of_running h.backed hstate hrun
    rw [hholder] at htc
    simp at htc
  cases hlaunch with
  | failed hsteps => exact hold ((untouched_of_preparing hsteps).old id c hc)
  | @launched y _ container _ _ saved hstart _ hsame =>
    have hcontainers : w'.containers = y.containers.set y.nextId container := hsame.containers_eq
    rw [hcontainers, Dict.get_set] at hc
    split_ifs at hc with heq
    · obtain rfl := Option.some_inj.mp hc
      refine ⟨t, _, hstart.name, by rw [(launched_entry hsame).2, Dict.get_set_self], ?_⟩
      rw [heq]
      rfl
    · exact hold ((untouched_of_preparing hstart.reaches).old id c hc)

theorem named_of_touching (h : Remembering start w) (hw : Sound host w) (hs : Settled t w w')
    (htouch : Touching t w w') :
    ∀ id c, start.nextId ≤ id → w'.containers.get id = some c → Named w' id c := by
  intro id c hid hc
  cases htouch with
  | absent | cached => exact h.named id c hid hc
  | @recorded _ state _ hstate hrunning =>
    refine (h.named id c hid hc).congr hs.redis fun state' hstate' hrun' => ?_
    obtain rfl := Option.some_inj.mp (hstate.symm.trans hstate')
    have hkey : stateKey state.tenantId = stateKey t := (hw.registered.record _ _ hstate).1.symm
    have hget : ((w.redis.set (stateKey state.tenantId) { state with lastActivity := w.now }).get
        (stateKey t)) = some { state with lastActivity := w.now } := by
      rw [hkey, Dict.get_set_self]
    exact ⟨_, hget, hrun'⟩

theorem Remembering.of_leads (h : Remembering start c.world) (hreaches : c.Reaches)
    (hw : Sound host c.world) (hleads : c.Leads host w')
    (hchanges : ReflTransGen (Change host c.tenantId c.config c.world) c.world w') :
    Remembering start w' := by
  have hs := settled_of_leads hw h.backed hleads
  refine ⟨kept_of_reaches (fun _ _ => Tracked.of_change) hchanges h.tracked,
    h.backed.of_settled hs, ?_⟩
  cases c with
  | stop t w => exact named_of_stopping h hreaches hw hs hleads
  | look t w => exact named_of_looking h hreaches hs hleads
  | touch t w => exact named_of_touching h hw hs hleads
  | start t config w => exact named_of_launching h hs hleads.1 hleads.2.2

theorem keeps_remembering : Keeps host Call.Reaches (Remembering start) where
  same u v huv h := by
    refine ⟨h.tracked.of_change (.same huv : Change host "" none u u v), h.backed.of_same huv, ?_⟩
    obtain ⟨_, _, _, _, _, _, rfl⟩ := huv
    exact h.named
  build u image h :=
    ⟨h.tracked.of_change (.build : Change host "" none u u _), h.backed, h.named⟩
  call _ _ hreaches hw _ hleads hchanges h := h.of_leads hreaches hw hleads hchanges

theorem Remembering.direct {op : Op} (h : Remembering start w) :
    Remembering start (direct true w op) := by
  refine ⟨h.tracked.direct, h.backed.direct, fun id c hid hc => ?_⟩
  cases op with
  | vanish k =>
    dsimp only [Tenants.direct] at hc
    rw [Dict.get_erase] at hc
    split_ifs at hc
    exact h.named id c hid hc
  | _ => exact h.named id c hid hc

theorem Fresh.remembering (h : Fresh w) : Remembering w w :=
  ⟨Tracked.refl w, h.backed, fun id c hid hc => absurd (h.containers id c hc) (Nat.not_lt.mpr hid)⟩

/-- **No container is forgotten** in a run in which Docker answers the calls that decide it. -/
theorem remembered_of_run (hfresh : Fresh w₀) (hworks : w₀.RedisWorks)
    (hops : (machine host w₀).AllSteps (Reached host) w₀ ops)
    (hrun : (machine host w₀).run ops = some w) : Remembered w₀ w :=
  (keeps_remembering.of_run (fun _ _ h => h) (fun _ _ h => h.direct) (hfresh.sound hworks)
    hfresh.remembering hops hrun).2.remembered

end Remembering

/-! ### A call to Docker that fails -/

/-- A tenant is provisioned, looked up after a restart, and provisioned again while a call that
only lists an image fails. -/
def remembering : List Op :=
  [.provision "alice" (.obj []) defaultImage, .restart [stateKey "alice"], .getTenant "alice",
    .fail [] [false, false, false, true] [], .provision "alice" (.obj []) defaultImage]

theorem remembered_of_run_imageFails : ∃ w,
    (machine sampleHost sampleWorld).run remembering = some w ∧ Remembered sampleWorld w := by
  have hcheck : ((machine sampleHost sampleWorld).run remembering).isSome = true := by
    decide +kernel
  obtain ⟨w, hrun⟩ := Option.isSome_iff_exists.mp hcheck
  have hops : (machine sampleHost sampleWorld).AllSteps (Reached sampleHost) sampleWorld
      remembering := by decide +kernel
  exact ⟨w, hrun, remembered_of_run sampleWorld_fresh sampleWorld_redisWorks hops hrun⟩

/-- A call to Docker fails when the tenant's container is stopped. -/
def forgetting : List Op :=
  [.provision "alice" (.obj []) defaultImage, .fail [] [true] [], .stop "alice"]

/-- **One call is enough to forget a container**: it exists, and the record says stopped. -/
theorem container_forgotten : ∃ w, (machine sampleHost sampleWorld).run forgetting = some w ∧
    (∀ op ∈ forgetting, KeepsRedis op) ∧ ¬Remembered sampleWorld w := by
  have hcheck : ((machine sampleHost sampleWorld).run forgetting).map (fun w =>
      decide ((w.containers.get 0).isSome = true ∧
        (w.redis.get (stateKey "alice")).all fun state => state.status ≠ .running)) =
      some true := by decide +kernel
  have hstarted : ((machine sampleHost sampleWorld).run forgetting).map (fun w =>
      (sampleWorld.effectsSince w).any fun
        | .run id container _ => decide (id = 0 ∧ container.name = containerName "alice")
        | _ => false) = some true := by decide +kernel
  obtain ⟨w, hrun, hcheck⟩ := Option.map_eq_some_iff.mp hcheck
  rw [hrun, Option.map_some, Option.some_inj, List.any_eq_true] at hstarted
  obtain ⟨hsome, hstopped⟩ := of_decide_eq_true hcheck
  obtain ⟨e, hmem, he⟩ := hstarted
  refine ⟨w, hrun, by decide, fun hremembered => ?_⟩
  cases e with
  | run id container config =>
    obtain ⟨rfl, hname⟩ := of_decide_eq_true he
    obtain ⟨state, hstate, hstatus, -⟩ := hremembered 0 container config "alice" hmem hname hsome
    simp [hstate, hstatus] at hstopped
  | _ => simp at he

end Nanogate.Tenants
