import Nanogate.Bus.Message
import Nanogate.Tenants.Cluster
import Nanogate.Tenants.Downtime

/-!
# Who listens for a tenant's requests

The agent in a container pops the requests of the tenant that `TENANT_ID` names. Every container
is given the tenant it is named for, and Docker gives no name twice. So at most one agent listens
on the list of a tenant, whatever fails and however many gateways there are, and the container
that `get_or_create` returns is the one.

## Main definitions

* `Container.queue` — the list that the agent in a container pops its requests from
* `Docked` — one change of the containers
* `Attended` — every container is named for its tenant, and no two are named alike
* `Awake` — the containers that the records say are running run and publish the ports recorded
* `Serves` — the container runs and listens for the tenant, and no other one does

## Main results

* `attended_of_run` — containers stay named for their tenants and apart
* `serves_of_run` — without disturbances `get_or_create` returns the tenant's only listener
-/

namespace Nanogate.Tenants

open Nanogate.Bus Nanogate.Python Nanogate.Semantics Relation

/-! ### Listeners -/

/-- `tenant_id` of the agent in a container: `os.environ.get("TENANT_ID", "default")`. -/
def Container.tenantId (c : Container) : String :=
  match c.environment.get "TENANT_ID" with
  | some (.str tenantId) => tenantId
  | _ => "default"

/-- The list that the agent in a container pops its requests from. -/
def Container.queue (c : Container) : String := inboundKey c.tenantId

/-- One change of the containers. -/
inductive Docked (w w' : World) : Prop
  | quiet (h : w'.containers = w.containers)
  | halt {id : ℕ} {c : Container} (hget : w.containers.get id = some c)
      (h : w'.containers = w.containers.set id { c with running := false })
  | remove {id : ℕ} (h : w'.containers = w.containers.erase id)
  | run {c : Container} (hname : c.name = containerName c.tenantId)
      (hfree : ∀ k c', w.containers.get k = some c' → c'.name ≠ c.name)
      (h : w'.containers = w.containers.set w.nextId c)

/-- Every container is named for the tenant it listens for, and no two are named alike. -/
structure Attended (w : World) : Prop where
  named : ∀ id c, w.containers.get id = some c → c.name = containerName c.tenantId
  apart : ∀ id id' c c', w.containers.get id = some c → w.containers.get id' = some c' →
    c.name = c'.name → id = id'

section Containers

variable {host : Host} {w w' : World} {tenantId t : String} {config : Json} {id id' : ℕ}
  {c c' : Container}

theorem Attended.of_empty (h : ∀ id, w.containers.get id = none) : Attended w :=
  ⟨fun id c hc => by simp [h] at hc, fun id _ c _ hc => by simp [h] at hc⟩

/-- **Step.** Docker refuses a name that is taken, and the new container has its tenant's. -/
theorem Attended.of_docked (h : Attended w) (hstep : Docked w w') : Attended w' := by
  cases hstep with
  | quiet heq => exact ⟨heq ▸ h.named, heq ▸ h.apart⟩
  | @halt id c hget heq =>
    -- what was stopped was there before, under the same name and for the same tenant
    have hold : ∀ k c', w'.containers.get k = some c' → ∃ c₀, w.containers.get k = some c₀ ∧
        c₀.name = c'.name ∧ c₀.tenantId = c'.tenantId := by
      intro k c' hc'
      rw [heq, Dict.get_set] at hc'
      split_ifs at hc' with hk
      · rw [← Option.some_inj.mp hc']
        exact ⟨c, hk ▸ hget, rfl, rfl⟩
      · exact ⟨c', hc', rfl, rfl⟩
    refine ⟨fun k c' hc' => ?_, fun k k' c₁ c₂ hc₁ hc₂ hname => ?_⟩
    · obtain ⟨c₀, hc₀, hname, htenant⟩ := hold k c' hc'
      rw [← hname, ← htenant]
      exact h.named k c₀ hc₀
    · obtain ⟨_, h₁, hname₁, -⟩ := hold k c₁ hc₁
      obtain ⟨_, h₂, hname₂, -⟩ := hold k' c₂ hc₂
      exact h.apart k k' _ _ h₁ h₂ (hname₁.trans (hname.trans hname₂.symm))
  | @remove id heq =>
    have hold : ∀ k c', w'.containers.get k = some c' → w.containers.get k = some c' := by
      intro k c' hc'
      rw [heq, Dict.get_erase] at hc'
      split_ifs at hc'
      exact hc'
    exact ⟨fun k c' hc' => h.named k c' (hold k c' hc'),
      fun k k' c₁ c₂ hc₁ hc₂ => h.apart k k' c₁ c₂ (hold k c₁ hc₁) (hold k' c₂ hc₂)⟩
  | @run c hname hfree heq =>
    refine ⟨fun k c' hc' => ?_, fun k k' c₁ c₂ hc₁ hc₂ hsame => ?_⟩
    · rw [heq, Dict.get_set] at hc'
      split_ifs at hc'
      · rw [← Option.some_inj.mp hc', hname]
      · exact h.named k c' hc'
    · rw [heq, Dict.get_set] at hc₁ hc₂
      split_ifs at hc₁ hc₂ with hk hk' hk'
      · rw [hk, hk']
      · obtain rfl := Option.some_inj.mp hc₁
        exact absurd hsame.symm (hfree k' c₂ hc₂)
      · obtain rfl := Option.some_inj.mp hc₂
        exact absurd hsame (hfree k c₁ hc₁)
      · exact h.apart k k' c₁ c₂ hc₁ hc₂ hsame

/-- Two containers that listen on one list are one. -/
theorem Attended.eq_of_queue (h : Attended w) (hc : w.containers.get id = some c)
    (hc' : w.containers.get id' = some c') (hqueue : c.queue = c'.queue) : id = id' := by
  refine h.apart id id' c c' hc hc' ?_
  rw [h.named id c hc, h.named id' c' hc', inboundKey_inj.mp hqueue]

/-- A container listens for the tenant it is named for. -/
theorem Attended.queue_eq (h : Attended w) (hc : w.containers.get id = some c)
    (hname : c.name = containerName t) : c.queue = inboundKey t := by
  rw [Container.queue, ← containerName_inj.mp ((h.named id c hc).symm.trans hname)]

/-! ### The tenant a container is given -/

theorem customEnv_of_injectEnv {environment saved : Json}
    (h : injectEnv host tenantId config = .ok (environment, saved)) :
    customEnv host tenantId config (((config.getD "gateway").getD "env").or (.obj [])) =
      .ok environment := by
  unfold injectEnv at h
  cases henv : customEnv host tenantId config (((config.getD "gateway").getD "env").or (.obj []))
    with
  | error e => simp [henv, bind, Except.bind] at h
  | ok injected =>
    simp only [henv, bind, Except.bind, pure, Except.pure, Except.ok.injEq, Prod.mk.injEq] at h
    rw [h.1]

/-- The tenant is set first, and nothing that is set later is called like it. -/
theorem tenantId_of_injectEnv {environment saved : Json}
    (h : injectEnv host tenantId config = .ok (environment, saved)) :
    environment.get "TENANT_ID" = some (.str tenantId) := by
  have hbase {env : Json} : (baseEnv host tenantId env).get "TENANT_ID" = some (.str tenantId) := by
    rw [baseEnv, get_setDefault, if_neg (by decide), Json.get_set_self]
  rcases customEnv_eq_ok (customEnv_of_injectEnv h) with ⟨rfl, -⟩ | ⟨key, rfl, -⟩
  · exact hbase
  · rw [Json.get_set_of_ne (by decide), hbase]

/-- A container that was started listens for its tenant. -/
theorem Started.tenantId_eq {y : World} {workspace : PurePath} {written saved : Json}
    (h : Started host tenantId config w y c workspace written saved) : c.tenantId = tenantId := by
  rw [Container.tenantId, tenantId_of_injectEnv h.prepared.injected]

theorem Started.docked {y : World} {workspace : PurePath} {written saved : Json}
    (h : Started host tenantId config w y c workspace written saved) :
    Docked y (y.started c saved) :=
  .run (h.name.trans (congrArg containerName h.tenantId_eq.symm)) (h.name ▸ h.free) rfl

end Containers

/-! ### What the methods do to containers -/

section Methods

variable {α : Type} {host : Host} {J : String → Option Json → Prop} {w w₀ w' : World}
  {tenantId image : String} {config written : Json} {workspace : PurePath} {keys : List String}

theorem Docked.of_same (h : Same w w') : Docked w w' := .quiet h.containers_eq

/-- A method that provisions nothing starts no container. -/
theorem Docked.of_change (h : Change host tenantId none w₀ w w') : Docked w w' := by
  cases h with
  | same h => exact .of_same h
  | stop _ hget => exact .halt hget rfl
  | remove => exact .remove rfl
  | run hc => simp at hc
  | _ => exact .quiet rfl

theorem Docked.of_preparing (h : Preparing host tenantId config w w') : Docked w w' := by
  cases h with
  | same h => exact .of_same h
  | remove => exact .remove rfl
  | _ => exact .quiet rfl

theorem docked_of_preparing (h : ReflTransGen (Preparing host tenantId config) w w') :
    ReflTransGen Docked w w' :=
  ReflTransGen.mono (fun _ _ => Docked.of_preparing) _ _ h

theorem does_docked {m : M α} {V : α → World → Prop}
    (h : Does (Change host tenantId none w₀) m V w) : Does Docked m V w :=
  h.weaken fun _ => ReflTransGen.mono (fun _ _ => Docked.of_change) _ _

theorem does_docked_of_work {m : M α} {V : α → World → Prop} (hJ : ∀ t c, J t c → c = none)
    (h : Does (Work host J) m V w) : Does Docked m V w := by
  refine h.weaken fun _ hsteps => ?_
  induction hsteps with
  | refl => exact .refl
  | tail _ hwork ih =>
    refine ih.trans ?_
    cases hwork with
    | same h => exact .single (.of_same h)
    | build => exact .single (.quiet rfl)
    | method config hjob h =>
      obtain rfl := hJ _ _ hjob
      exact ReflTransGen.mono (fun _ _ => Docked.of_change) _ _ h

theorem saveState_docked {state : TenantState} :
    Does Docked (saveState state) (fun _ _ => True) w := by
  refine Does.of_ok saveState_run (.single (.quiet ?_)) trivial
  split_ifs
  · exact w.same_asked.containers_eq
  · exact w.same_asked.containers_eq

theorem launch_docked (hmerged : ∃ setting, mergeSettings config = .ok (written, setting) ∧
    hostWorkspace host (tenantDir host tenantId) setting = .ok workspace) :
    Does Docked (launch host tenantId image (tenantDir host tenantId) workspace written)
      (fun _ _ => True) w := by
  unfold launch
  refine Does.get_bind ?_
  refine Does.bind (ensureImage_does (fun _ _ => .of_same) fun _ _ => .quiet rfl) fun _ t _ => ?_
  have hstart : Does Docked (startContainer host tenantId (tenantDir host tenantId) workspace
      w.freePort image written) (fun _ _ => True) t := by
    refine (startContainer_ends hmerged).mono ?_ fun _ => docked_of_preparing
    rintro _ _ ⟨y, container, hstart, -, -, -, -, rfl⟩
    exact ⟨(docked_of_preparing hstart.reaches).tail hstart.docked, trivial⟩
  refine Does.bind hstart ?_
  rintro ⟨id, saved⟩ u -
  refine Does.get_bind (Does.modify_bind (.single (.quiet rfl)) ?_)
  refine Does.bind saveState_docked fun _ v _ => ?_
  refine Does.bind (P := fun _ _ => True) (does_lift fun _ _ => trivial) fun commands x _ => ?_
  exact Does.bind (does_of_reading (fun _ _ => .of_same) runSetup_does) fun _ _ _ =>
    Does.pure trivial

theorem provisionTenant_docked :
    Does Docked (provisionTenant host tenantId config image) (fun _ _ => True) w := by
  unfold provisionTenant
  refine Does.get_bind (Does.ite (fun _ => Does.throw _) fun _ => ?_)
  have hstop : Does (Change host tenantId none w) (stopTenant host tenantId) (fun _ _ => True) w :=
    stopTenant_does
  refine Does.bind (does_docked hstop) fun _ t _ => ?_
  have hwrite : Does Docked (writeConfig host tenantId config) _ t :=
    writeConfig_does.weaken fun _ => docked_of_preparing
  refine Does.bind hwrite ?_
  rintro ⟨dir, workspace, written⟩ u ⟨rfl, hwritten, -⟩
  exact launch_docked hwritten.merged

theorem getOrCreate_docked :
    Does Docked (getOrCreate host tenantId) (fun _ _ => True) w := by
  unfold getOrCreate
  refine Does.bind (does_docked (getTenant_does host none)) fun found t _ => ?_
  cases found with
  | some tc => exact Does.pure trivial
  | none =>
    refine Does.bind (P := fun _ _ => True)
      (Does.of_ok getSavedState_run (.single (.of_same t.same_asked)) trivial) fun saved u _ => ?_
    exact provisionTenant_docked

theorem reloadKeys_docked : Does Docked (reloadKeys keys) (fun _ _ => True) w := by
  induction keys generalizing w with
  | nil => exact Does.pure trivial
  | cons key keys ih =>
    unfold reloadKeys
    refine Does.bind (does_of_reading (fun _ _ => .of_same) redisGet_does) fun found t _ => ?_
    cases found with
    | none => exact ih
    | some state =>
      dsimp only
      cases state.runningContainer with
      | none => exact ih
      | some id =>
        refine Does.bind (does_of_reading (fun _ _ => .of_same) containerExists_does)
          fun _ u _ => ?_
        refine Does.ite (fun _ => ?_) fun _ => Does.bind saveState_docked fun _ _ _ => ih
        exact Does.modify_bind (.single (.quiet rfl)) ih

theorem restart_docked : Does Docked (restart host keys) (fun _ _ => True) w := by
  have hcall {u : World} : Does Docked redisCall (fun _ _ => True) u :=
    (does_of_reading (fun _ _ => .of_same) redisCall_does).mono fun _ _ _ _ => trivial
  unfold restart
  refine Does.modify_bind (.single (.quiet rfl)) ?_
  refine Does.bind (P := fun _ _ => True) (Does.tryCatch ?_ fun _ t _ => ?_) fun _ _ _ => ?_
  · refine Does.bind hcall fun _ t _ => ?_
    unfold reloadRunning
    refine Does.get_bind (Does.ite (fun _ => ?_) fun _ => Does.pure trivial)
    exact Does.tryCatch (Does.bind hcall fun _ _ _ => reloadKeys_docked) fun _ _ _ =>
      Does.pure trivial
  · exact Does.modify (.single (.quiet rfl)) trivial
  · exact ensureImage_does (fun _ _ => .of_same) fun _ _ => .quiet rfl

/-- Whatever fails, an operation changes the containers one at a time. -/
theorem program_docked (host : Host) (w : World) (op : Op) :
    ReflTransGen Docked w (endState (program host op) w) := by
  have hdiscard {α : Type} {m : M α} (h : Does Docked m (fun _ _ => True) w) :
      Does Docked (do let _ ← m) (fun _ _ => True) w :=
    Does.bind h fun _ _ _ => Does.pure trivial
  have hnone : ∀ (_ : String) (c : Option Json), c = none → c = none := fun _ _ h => h
  cases op with
  | provision t config image => exact (hdiscard provisionTenant_docked).reaches
  | getTenant t =>
    exact (hdiscard ((does_docked (getTenant_does host none)).mono fun _ _ _ _ => trivial)).reaches
  | getOrCreate t => exact (hdiscard getOrCreate_docked).reaches
  | touch t => exact (does_docked (touch_does host none)).reaches
  | stop t =>
    have hstop : Does (Change host t none w) (stopTenant host t) (fun _ _ => True) w :=
      stopTenant_does
    exact (does_docked hstop).reaches
  | prune keys =>
    exact (does_docked_of_work (J := fun _ c => c = none) hnone
      (prunePass_does fun _ _ => rfl)).reaches
  | restart keys => exact restart_docked.reaches
  | shutdown =>
    exact (does_docked_of_work (J := fun _ c => c = none) hnone
      (shutdownAll_does fun _ _ => rfl)).reaches
  | vanish id => exact .single (.remove rfl)
  | pass _ | listen _ | fail _ _ _ => exact .single (.quiet rfl)

end Methods

/-! ### Containers that were not stopped -/

/-- The containers that the records say are running were not stopped, and publish the ports of the
records. -/
def Awake (w : World) : Prop :=
  ∀ t state id c, w.redis.get (stateKey t) = some state → state.runningContainer = some id →
    w.containers.get id = some c → c.running = true ∧ c.port = state.port

section Awake

variable {host : Host} {w w' : World} {t : String} {config : Json} {c : Call}

theorem Awake.congr (h : Awake w) (hredis : w'.redis = w.redis)
    (hold : ∀ id c, w'.containers.get id = some c → w.containers.get id = some c) : Awake w' :=
  fun t state id c hstate hrun hc => h t state id c (hredis ▸ hstate) hrun (hold id c hc)

/-- A record that names no other container or port than the one it replaces wakes none. -/
theorem Awake.put {state state' : TenantState} (h : Awake w) (htenant : state'.tenantId = t)
    (hstate : w.redis.get (stateKey t) = some state)
    (hport : state'.port = state.port)
    (hrun : ∀ id, state'.runningContainer = some id → state.runningContainer = some id) :
    Awake (w.put state') := by
  intro t' s id c hs hid hc
  rw [World.put, htenant, Dict.get_set] at hs
  split_ifs at hs with heq
  · obtain rfl := Option.some_inj.mp hs
    exact hport ▸ h t state id c hstate (hrun id hid) hc
  · exact h t' s id c hs hid hc

theorem runningContainer_markStopped (state : TenantState) :
    state.markStopped.runningContainer = none := rfl

/-- A container is stopped only after its record. -/
theorem Awake.of_stopping (h : Awake w) (hw : Sound host w) (hstop : Stopping host t w w') :
    Awake w' := by
  cases hstop with
  | idle => exact h
  | raised _ hread =>
    exact h.congr hread.same.redis_eq fun id c hc => by rwa [hread.same.containers_eq] at hc
  | @stopped tc _ hholder _ hhalted =>
    intro t' state id c hstate hrun hc
    rw [hhalted.redis, Dict.get_set] at hstate
    split_ifs at hstate with heq
    · obtain rfl := Option.some_inj.mp hstate
      simp [TenantContainer.stopped, TenantState.runningContainer] at hrun
    · have ht : t' ≠ t := fun h => heq (congrArg stateKey h)
      by_cases hid : id = tc.containerId
      · -- the container that is stopped is named for the tenant, so no other record names it
        subst hid
        obtain ⟨c', hc', hname⟩ := hhalted.name c hc
        have howns := (hw.coherent.belongs_of_known (known_of_holder hholder)).owns.2 c' hc'
        obtain ⟨-, -, hrecord⟩ := hw.coherent.record t' state hstate
        have howns' := (hrecord _ (containerId_of_runningContainer hrun)).2 c' hc'
        exact absurd (containerName_inj.mp (howns'.symm.trans howns)) ht
      · rw [hhalted.others id hid] at hc
        exact h t' state id c hstate hrun hc

theorem Awake.of_looking (h : Awake w) (hw : Sound host w) (hlook : Looking t w w') : Awake w' := by
  cases hlook with
  | hit | nothing | restored => exact h
  | missing _ hstate =>
    have htenant := (hw.coherent.record _ _ hstate).1
    exact h.put htenant hstate rfl fun id hid => by simp [runningContainer_markStopped] at hid

theorem Awake.of_touching (h : Awake w) (hw : Sound host w) (htouch : Touching t w w') :
    Awake w' := by
  cases htouch with
  | absent | cached => exact h
  | recorded _ hstate _ => exact h.put (hw.coherent.record _ _ hstate).1 hstate rfl fun _ hid => hid

/-- The new record names the new container. -/
theorem Awake.of_launching (h : Awake w) (hw : Sound host w)
    (hlaunch : Launching host t config w w') : Awake w' := by
  cases hlaunch with
  | failed hsteps =>
    have hframe := untouched_of_preparing hsteps
    exact h.congr hframe.redis hframe.old
  | @launched y _ container _ _ saved hstart _ hsame =>
    have hframe := untouched_of_preparing hstart.reaches
    intro t' state id c hstate hrun hc
    rw [(launched_entry hsame).2, Dict.get_set] at hstate
    have hcontainers : w'.containers = y.containers.set y.nextId container := hsame.containers_eq
    rw [hcontainers] at hc
    split_ifs at hstate with heq
    · obtain rfl := Option.some_inj.mp hstate
      obtain rfl : y.nextId = id := Option.some_inj.mp hrun
      rw [Dict.get_set_self] at hc
      exact Option.some_inj.mp hc ▸ ⟨hstart.running, rfl⟩
    · rw [hframe.redis] at hstate
      -- an older record names an older container
      obtain ⟨-, -, hrecord⟩ := hw.coherent.record t' state hstate
      have hlt : id < y.nextId :=
        hframe.nextId ▸ (hrecord id (containerId_of_runningContainer hrun)).1
      rw [Dict.get_set_of_ne hlt.ne] at hc
      exact h t' state id c hstate hrun (hframe.old id c hc)

theorem keeps_awake : Keeps host (fun _ => True) Awake where
  same u v huv h := h.congr huv.redis_eq fun id c hc => by rwa [huv.containers_eq] at hc
  build u image h := h
  call c v _ hc _ hleads _ h := by
    cases c with
    | stop t u => exact h.of_stopping hc hleads
    | look t u => exact h.of_looking hc hleads
    | touch t u => exact h.of_touching hc hleads
    | start t config u => exact h.of_launching hc hleads.2.2

theorem Awake.direct {redis : Bool} {op : Op} (h : Awake w) : Awake (direct redis w op) := by
  cases op with
  | vanish id =>
    refine h.congr rfl fun k c hc => ?_
    rw [Tenants.direct, Dict.get_erase] at hc
    split_ifs at hc
    exact hc
  | _ => exact h

theorem Fresh.awake (h : Fresh w) : Awake w := fun t state _ _ hstate => by
  simp [h.redis] at hstate

end Awake

/-! ### Runs -/

/-- The container runs and listens for the tenant, and no other container does. -/
structure Serves (w : World) (t : String) (id : ℕ) : Prop where
  listens : ∃ c, w.containers.get id = some c ∧ c.running = true ∧ c.queue = inboundKey t
  only : ∀ id' c, w.containers.get id' = some c → c.queue = inboundKey t → id' = id

section Runs

variable {host : Host} {n : ℕ} {w w' w₀ : World} {cl cl' : Cluster n} {a : Fin n × Op} {k : Fin n}
  {t image : String} {tc : TenantContainer} {config written : Json} {dir workspace : PurePath}
  {acts : List (Fin n × Op)}

theorem attended_of_step (h : Attended cl.world)
    (hstep : (cluster host n w₀).step cl a = some cl') : Attended cl'.world := by
  obtain ⟨k, op⟩ := a
  simp only [cluster] at hstep
  split_ifs at hstep
  obtain rfl := Option.some_inj.mp hstep
  have hview : Attended (cl.view k) := ⟨h.named, h.apart⟩
  exact kept_of_reaches (fun _ _ hd hu => hu.of_docked hd) (program_docked host (cl.view k) op)
    hview

/-- **One listener for each tenant.** However many gateways there are and whatever fails, every
container listens for the tenant it is named for, and two that listen on one list are one. -/
theorem attended_of_run (hempty : ∀ id, w₀.containers.get id = none)
    (hrun : (cluster host n w₀).run acts = some cl) {id id' : ℕ} {c c' : Container}
    (hc : cl.world.containers.get id = some c) (hc' : cl.world.containers.get id' = some c') :
    c.name = containerName c.tenantId ∧ (c.queue = c'.queue → id = id') := by
  have h : Attended cl.world := Machine.run_invariant' (I := fun cl => Attended cl.world)
    (fun hcl hstep => attended_of_step hcl hstep) (Attended.of_empty hempty) hrun
  exact ⟨h.named id c hc, h.eq_of_queue hc hc'⟩

theorem awake_of_step (h : Consistent host cl) (hawake : Awake cl.world)
    (hquiet : Undisturbed host cl a) (hstep : (cluster host n w₀).step cl a = some cl') :
    Awake cl'.world := by
  obtain ⟨k, op⟩ := a
  simp only [cluster] at hstep
  split_ifs at hstep with hen
  obtain rfl := Option.some_inj.mp hstep
  have hview : Awake (cl.view k) := hawake
  exact (keeps_awake.of_op (h.view k) hen hquiet.1 (fun _ _ => trivial) hview.direct).2

theorem ends_trivial {α : Type} (m : M α) (w : World) :
    Ends m (fun _ _ => True) (fun _ => True) w :=
  (Ends.self m w).mono (fun _ _ _ => trivial) fun _ _ => trivial

/-- What follows the start of a container leaves the cache alone. -/
theorem record_caches {state : TenantState} {id : ℕ} (htc : w.tenants.get t = some tc) :
    Ends (do
        saveState state
        let commands ← lift (setupCommands config)
        runSetup id commands
        pure tc : M TenantContainer)
      (fun tc u => u.tenants.get t = some tc) (fun _ => True) w := by
  refine Ends.bind (P := fun _ u => u.tenants = w.tenants) (Ends.of_ok saveState_run ?_) ?_
  · split_ifs
    · exact w.same_asked.tenants_eq
    · exact w.same_asked.tenants_eq
  intro _ u hu
  refine Ends.bind (ends_lift trivial) ?_
  rintro commands _ ⟨rfl, -⟩
  refine Ends.bind ((Ends.of_does runSetup_does).mono (fun _ _ h => Same.of_reaches h.1)
    fun _ _ => trivial) fun _ v hsame => Ends.pure ?_
  rw [hsame.tenants_eq, hu, htc]

/-- What `provision_tenant` returns is in the cache. -/
theorem provisionTenant_caches : Ends (provisionTenant host t config image)
    (fun tc u => u.tenants.get t = some tc) (fun _ => True) w := by
  unfold provisionTenant
  refine Ends.get_bind (Ends.ite (fun _ => Ends.throw _ trivial) fun _ => ?_)
  refine Ends.bind (ends_trivial _ _) fun _ u _ => Ends.bind (ends_trivial _ _) ?_
  rintro ⟨dir, workspace, written⟩ v -
  unfold launch
  refine Ends.get_bind (Ends.bind (ends_trivial _ _) fun _ x _ => Ends.bind (ends_trivial _ _) ?_)
  rintro ⟨id, saved⟩ y -
  exact Ends.get_bind (Ends.modify_bind (record_caches Dict.get_set_self))

/-- What `get_or_create` returns is in the cache. -/
theorem getOrCreate_caches (hw : w.RedisWorks) (hget : (getOrCreate host t).run w = .ok tc w') :
    w'.tenants.get t = some tc := by
  have hends : Ends (getOrCreate host t) (fun tc u => u.tenants.get t = some tc) (fun _ => True)
      w := by
    unfold getOrCreate
    refine Ends.bind ((getTenant_ends hw).mono (fun _ _ h => h) fun _ _ => trivial) ?_
    rintro found u ⟨-, hfound⟩
    cases found with
    | some tc => exact Ends.pure hfound.symm
    | none =>
      exact Ends.bind_of_ok getSavedState_run provisionTenant_caches
  exact hends.ok hget

/-- **Chats reach their agent.** In a run without disturbances, the container that `get_or_create`
returns runs and listens on the tenant's list, and it is the only one that does. -/
theorem serves_of_run (hfresh : Fresh w₀) (hworks : w₀.RedisWorks)
    (hempty : ∀ id, w₀.containers.get id = none)
    (hacts : (cluster host n w₀).AllSteps (Undisturbed host) (cluster host n w₀).init acts)
    (hrun : (cluster host n w₀).run acts = some cl)
    (hquiet : Undisturbed host cl (k, .getOrCreate t))
    (hget : (getOrCreate host t).run (cl.view k) = .ok tc w') : Serves w' t tc.containerId := by
  have hinit : Consistent host (cluster host n w₀).init ∧
      Attended (cluster host n w₀).init.world ∧ Awake (cluster host n w₀).init.world :=
    ⟨hfresh.consistent hworks, .of_empty hempty, hfresh.awake⟩
  obtain ⟨hconsistent, hattended, hawake⟩ := Machine.run_invariant
    (I := fun cl : Cluster n => Consistent host cl ∧ Attended cl.world ∧ Awake cl.world)
    (fun h hquiet hstep => ⟨consistent_of_step h.1 hquiet hstep, attended_of_step h.2.1 hstep,
      awake_of_step h.1 h.2.2 hquiet hstep⟩) hinit hacts hrun
  -- `get_or_create` is one more step
  have hend : endState (program host (.getOrCreate t)) (cl.view k) = w' :=
    endState_bind_of_ok hget
  have hstep : (cluster host n w₀).step cl (k, .getOrCreate t) =
      some ⟨w', Function.update cl.caches k w'.tenants⟩ := by
    simp only [cluster, hend]
    exact if_pos trivial
  have hentry : (Function.update cl.caches k w'.tenants k).get t = some tc := by
    rw [Function.update_self]
    exact getOrCreate_caches (hconsistent.view k).redisWorks hget
  have hlive : Live w' t tc := (consistent_of_step hconsistent hquiet hstep).live k t tc hentry
  have hattended' : Attended w' := attended_of_step hattended hstep
  have hawake' : Awake w' := awake_of_step hconsistent hawake hquiet hstep
  obtain ⟨c, hc, hname⟩ := hlive.container
  obtain ⟨state, hstate, hmirrors⟩ := hlive.mirrored
  have hrunning : state.runningContainer = some tc.containerId := by
    rw [TenantState.runningContainer, hmirrors.status]
    exact hmirrors.containerId
  have hqueue := hattended'.queue_eq hc hname
  exact ⟨⟨c, hc, (hawake' t state _ c hstate hrunning hc).1, hqueue⟩, fun id' c' hc' hqueue' =>
    hattended'.eq_of_queue hc' hc (hqueue'.trans hqueue.symm)⟩

end Runs

/-! ### Two gateways -/

/-- One gateway starts a tenant, and the other one fails to remove its container and starts a
second tenant. -/
def twoGateways : List (Fin 2 × Op) :=
  [(0, .provision "alice" (.obj []) defaultImage), (1, .fail [] [true] []), (1, .stop "alice"),
    (1, .provision "bob" (.obj []) defaultImage)]

theorem attended_twoGateways : ∃ cl c c',
    (cluster sampleHost 2 sampleWorld).run twoGateways = some cl ∧
      cl.world.containers.get 0 = some c ∧ cl.world.containers.get 1 = some c' ∧
      c.name = containerName c.tenantId ∧ (c.queue = c'.queue → 0 = 1) := by
  have hcheck : ((cluster sampleHost 2 sampleWorld).run twoGateways).map (fun cl =>
      (cl.world.containers.get 0).isSome && (cl.world.containers.get 1).isSome) = some true := by
    decide +kernel
  obtain ⟨cl, hrun, hcheck⟩ := Option.map_eq_some_iff.mp hcheck
  obtain ⟨hsome, hsome'⟩ := (Bool.and_eq_true _ _).mp hcheck
  obtain ⟨c, hc⟩ := Option.isSome_iff_exists.mp hsome
  obtain ⟨c', hc'⟩ := Option.isSome_iff_exists.mp hsome'
  exact ⟨cl, c, c', hrun, hc, hc', attended_of_run (fun _ => rfl) hrun hc hc'⟩

/-- Each gateway starts a tenant, and the second one is asked for the tenant of the first. -/
theorem serves_twoGateways : ∃ cl tc w',
    (cluster sampleHost 2 sampleWorld).run [(0, .provision "alice" (.obj []) defaultImage),
        (1, .provision "bob" (.obj []) defaultImage)] = some cl ∧
      (getOrCreate sampleHost "alice").run (cl.view 1) = .ok tc w' ∧
      Serves w' "alice" tc.containerId := by
  have hcheck : ((cluster sampleHost 2 sampleWorld).run
      [(0, .provision "alice" (.obj []) defaultImage),
        (1, .provision "bob" (.obj []) defaultImage)]).map (fun cl =>
      returns (getOrCreate sampleHost "alice") (cl.view 1) (fun _ _ => true) &&
        decide (Undisturbed sampleHost cl (1, .getOrCreate "alice"))) = some true := by
    decide +kernel
  obtain ⟨cl, hrun, hcheck⟩ := Option.map_eq_some_iff.mp hcheck
  obtain ⟨hreturns, hquiet⟩ := (Bool.and_eq_true _ _).mp hcheck
  obtain ⟨tc, w', hget, -⟩ := exists_of_returns hreturns
  have hacts : (cluster sampleHost 2 sampleWorld).AllSteps (Undisturbed sampleHost)
      (cluster sampleHost 2 sampleWorld).init [(0, .provision "alice" (.obj []) defaultImage),
        (1, .provision "bob" (.obj []) defaultImage)] := by
    decide +kernel
  exact ⟨cl, tc, w', hrun, hget, serves_of_run sampleWorld_fresh sampleWorld_redisWorks
    (fun _ => rfl) hacts hrun (of_decide_eq_true hquiet) hget⟩

end Nanogate.Tenants
