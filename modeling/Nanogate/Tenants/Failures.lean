import Nanogate.Tenants.LastGood

/-!
# A provisioning that fails

A provisioning that fails may overwrite the tenant's file; but then the tenant was stopped first,
and the file of a stopped tenant is not read again before the next provisioning writes it. So the
tenant is resumed from its last good configuration, unless it was not stopped at all:
`stop_tenant` asks whether the file exists outside the `try` in which it reads it.

## Main definitions

* `Survives` — a stopped tenant is resumed from its last good configuration
* `Parked` — nothing but a start gives a stopped tenant a container

## Main results

* `survives_iff` — a provisioning that fails leaves the last good configuration to be resumed,
  unless it was asking whether the file exists that failed
* `still_running` — then the record still says running
-/

namespace Nanogate.Tenants

open Nanogate.Python Nanogate.Semantics Relation

/-! ### Resuming -/

/-- The tenant is stopped, and the next `get_or_create` provisions its last good configuration. -/
structure Survives (host : Host) (t : String) (good : Json) (w : World) : Prop where
  stopped : ∀ state, w.redis.get (stateKey t) = some state → state.status = .stopped
  uncached : w.tenants.get t = none
  resumed : ∃ d, Gives host t good d ∧
    (getOrCreate host t).run w = (provisionTenant host t d defaultImage).run w

/-- The configuration that `get_or_create` provisions, unless it finds a container. -/
def toProvision (tenantId : String) : M (Option Json) := do
  let tc ← getTenant tenantId
  match tc with
  | some _ => pure none
  | none => do
    let saved ← getSavedState tenantId
    pure (some (saved.getD (.obj [])))

/-- Tenants are provisioned under ids that are file names. -/
def FileNames : Op → Prop
  | .provision t _ _ | .getOrCreate t => PurePath.IsFileName t
  | _ => True

instance : (op : Op) → Decidable (FileNames op)
  | .provision t _ _ | .getOrCreate t => inferInstanceAs (Decidable (PurePath.IsFileName t))
  | .getTenant _ | .touch _ | .stop _ | .prune _ | .restart _ | .shutdown | .pass _ | .vanish _
  | .listen _ | .fail .. => inferInstanceAs (Decidable True)

/-- A tenant that is stopped and has been since `start`, or was started in between. -/
structure Parked (host : Host) (start : World) (t : String) (w : World) : Prop where
  safe : Safe host t w
  grows : start.effects <+: w.effects
  holder : NotStarted t start w → w.holder t = none

section Resuming

variable {host : Host} {t image : String} {w w' w₀ start : World} {config good : Json} {c : Call}
  {e : Err} {ops : List Op} {state : TenantState}

theorem holder_eq_none_iff : w.holder t = none ↔ w.tenants.get t = none ∧
    ∀ state, w.redis.get (stateKey t) = some state → state.runningContainer = none := by
  simp [World.holder, Option.or_eq_none_iff, Option.bind_eq_none_iff]

/-- A tenant that is stopped is looked up without a trace. -/
theorem looking_of_holder_none (hholder : w.holder t = none) (hlook : Looking t w w') : w' = w := by
  obtain ⟨hmiss, hstopped⟩ := holder_eq_none_iff.mp hholder
  cases hlook with
  | hit hentry =>
    rw [hmiss] at hentry
    simp at hentry
  | nothing => rfl
  | restored _ hstate hrun | missing _ hstate hrun =>
    rw [hstopped _ hstate] at hrun
    simp at hrun

theorem getOrCreate_run {d : Json} (h : (toProvision t).run w = .ok (some d) w') :
    (getOrCreate host t).run w = (provisionTenant host t d defaultImage).run w' := by
  simp only [toProvision, getOrCreate, EStateM.run_bind] at h ⊢
  cases hlook : (getTenant t).run w with
  | error e u => simp [hlook] at h
  | ok tc u =>
    rw [hlook] at h
    cases tc with
    | some tc => simp at h
    | none =>
      simp only [EStateM.run_bind] at h ⊢
      cases hsaved : (getSavedState t).run u with
      | error e v => simp [hsaved] at h
      | ok saved v =>
        simp only [hsaved, EStateM.run_pure, EStateM.Result.ok.injEq, Option.some.injEq] at h ⊢
        rw [h.1, h.2]

/-- A stopped tenant is resumed from its record. -/
theorem toProvision_run (hw : w.RedisWorks) (hholder : w.holder t = none)
    (hstate : w.redis.get (stateKey t) = some state) (htruthy : state.configData.truthy = true) :
    (toProvision t).run w = .ok (some state.configData) w := by
  -- there is no container to find
  have hlook : (getTenant t).run w = .ok none w := by
    cases hrun : (getTenant t).run w with
    | error e u => exact ((getTenant_ends hw).error hrun).elim
    | ok r u =>
      obtain ⟨hlook, rfl⟩ := (getTenant_ends hw).ok hrun
      rw [looking_of_holder_none hholder hlook, (holder_eq_none_iff.mp hholder).1]
  have hsaved : (getSavedState t).run w = .ok (some state.configData) w := by
    rw [getSavedState_run, asked_of_nil hw.2, if_pos hw.answers, hstate, Option.map_some,
      Option.filter_some, if_pos htruthy]
  simp only [toProvision, EStateM.run_bind, hlook, hsaved, EStateM.run_pure, Option.getD_some]

/-- A stopped tenant that was started before is resumed from its last good configuration. -/
theorem Safe.survives (h : Safe host t w) (hw : Sound host w) (hholder : w.holder t = none)
    (hgood : lastGood host t w.effects = some good) : Survives host t good w := by
  obtain ⟨state, hstate⟩ := Option.isSome_iff_exists.mp (h.known (by rw [hgood]; rfl))
  obtain ⟨htruthy, good', hgood', hgives⟩ := h.recorded state hstate
  obtain rfl := Option.some_inj.mp (hgood.symm.trans hgood')
  refine ⟨fun state' hstate' => ?_, (holder_eq_none_iff.mp hholder).1, state.configData, hgives,
    getOrCreate_run (toProvision_run hw.redisWorks hholder hstate htruthy)⟩
  -- a record that says running would be something to stop
  cases hstatus : state'.status with
  | stopped => rfl
  | running =>
    have hsome := h.sourced.holder_of_running hstate' hstatus
    simp [hholder] at hsome

/-! ### What follows a failure -/

theorem mem_stopCalls {ts : List String} (h : c ∈ stopCalls host w ts) : ∃ t u, c = .stop t u := by
  induction ts generalizing w with
  | nil => simp [stopCalls] at h
  | cons t ts ih =>
    rcases List.mem_cons.mp h with rfl | h
    · exact ⟨t, w, rfl⟩
    · cases hrun : (stopTenant host t).run w with
      | ok _ u =>
        rw [hrun] at h
        exact ih h
      | error _ _ => simp [hrun] at h

theorem mem_reloadCalls {keys : List String} (h : c ∈ reloadCalls w keys) :
    ∃ t u, c = .look t u := by
  induction keys generalizing w with
  | nil => simp [reloadCalls] at h
  | cons key keys ih =>
    rcases List.mem_cons.mp h with rfl | h
    · exact ⟨_, w, rfl⟩
    · exact ih h

theorem mem_provisionCalls (h : c ∈ provisionCalls host w t config) :
    c = .stop t w ∨ ∃ u, c = .start t config u := by
  unfold provisionCalls at h
  split_ifs at h
  · rcases List.mem_cons.mp h with rfl | h
    · exact .inl rfl
    · split at h
      · exact .inr ⟨_, List.mem_singleton.mp h⟩
      · simp at h
  · simp at h

/-- Only what is provisioned is written. -/
theorem named_of_calls {op : Op} (hop : FileNames op) (h : c ∈ calls host w op) : c.Named := by
  have hprovision {u : World} {t : String} {config : Json} (ht : PurePath.IsFileName t)
      (h : c ∈ provisionCalls host u t config) : c.Named := by
    rcases mem_provisionCalls h with rfl | ⟨_, rfl⟩
    · trivial
    · exact ht
  cases op with
  | provision t config image => exact hprovision hop h
  | getOrCreate t =>
    rcases List.mem_cons.mp h with rfl | h
    · trivial
    · split at h
      · split at h
        · exact hprovision hop h
        · simp at h
      · simp at h
  | getTenant t | touch t | stop t =>
    obtain rfl := List.mem_singleton.mp h
    trivial
  | prune keys | shutdown =>
    -- what is stopped is not written to
    obtain ⟨t, u, rfl⟩ := mem_stopCalls h
    trivial
  | restart keys =>
    unfold calls at h
    split_ifs at h
    · obtain ⟨t, u, rfl⟩ := mem_reloadCalls h
      trivial
    · simp at h
  | pass _ | vanish _ | listen _ | fail _ _ _ => simp [calls] at h

theorem effects_prefix_of_changes {config : Option Json}
    (h : ReflTransGen (Change host t config w₀) w w') : w.effects <+: w'.effects :=
  kept_of_reaches (I := fun v => w.effects <+: v.effects)
    (fun _ _ hstep hw => hw.trans (effects_prefix_of_change hstep)) h List.prefix_rfl

/-- Nothing was started up to a point on the way. -/
theorem NotStarted.of_prefix (h : NotStarted t start w') (hgrows : start.effects <+: w.effects)
    (hrest : w.effects <+: w'.effects) : NotStarted t start w := by
  obtain ⟨es, hes, hP⟩ := h
  obtain ⟨es₁, hes₁⟩ := hgrows
  obtain ⟨es₂, hes₂⟩ := hrest
  refine ⟨es₁, hes₁.symm, fun e he => hP e ?_⟩
  rw [hes, ← hes₁, List.append_assoc, List.append_cancel_left_eq] at hes₂
  exact hes₂ ▸ List.mem_append_left _ he

/-- A launch that did not fail started a container. -/
theorem not_notStarted_of_launched {y : World} {container : Container} {workspace : PurePath}
    {written saved : Json} (hgrows : start.effects <+: y.effects)
    (hstart : Started host t config w y container workspace written saved)
    (hsame : Same ((y.started container saved).provisioned host t y.nextId container.port saved)
      w') : ¬NotStarted t start w' := by
  intro hno
  -- the start is among the effects since `start`
  have heffects : w'.effects = y.effects ++ [.run y.nextId container saved] ++
      [.redisSet (stateKey t) (runningState host t y.nextId container.port saved y.now)] :=
    hsame.effects_eq
  obtain ⟨es, hes, hP⟩ := hno
  obtain ⟨es₁, hes₁⟩ := hgrows
  rw [heffects, ← hes₁, List.append_assoc, List.append_assoc, List.append_cancel_left_eq] at hes
  exact hP (.run y.nextId container saved) (by simp [← hes]) hstart.name

/-- What a failing launch leaves of a stopped tenant. -/
theorem holder_of_launching (hholder : w.holder t = none) (hgrows : start.effects <+: w.effects)
    (hlaunch : Launching host t config w w') (hno : NotStarted t start w') :
    w'.holder t = none := by
  cases hlaunch with
  | failed hsteps =>
    have hframe := untouched_of_preparing hsteps
    rwa [World.holder, hframe.tenants, hframe.redis]
  | launched hstart _ hsame =>
    have hprefix := effects_prefix_of_changes (changes_of_preparing w hstart.reaches)
    exact absurd hno (not_notStarted_of_launched (hgrows.trans hprefix) hstart hsame)

theorem holder_of_leads (h : Backed c.world) (hw : Sound host c.world)
    (hgrows : start.effects <+: c.world.effects) (hleads : c.Leads host w')
    (hno : NotStarted t start w') (hholder : c.world.holder t = none) : w'.holder t = none := by
  by_cases hne : c.tenantId = t
  · subst hne
    obtain ⟨hmiss, hstopped⟩ := holder_eq_none_iff.mp hholder
    cases c with
    | stop t w =>
      -- with nothing to stop, `stop_tenant` does not raise
      have hidle : ¬w.StopRaises host t := by
        rintro ⟨tc, htc, -⟩
        rw [Call.tenantId, Call.world] at hholder
        simp [hholder] at htc
      exact hleads.holder_eq_none hidle
    | look t w => rwa [looking_of_holder_none hholder hleads]
    | touch t w =>
      cases hleads with
      | absent => exact hholder
      | cached hentry | recorded hentry =>
        rw [Call.tenantId, Call.world, hentry] at hmiss
        simp at hmiss
    | start t config w => exact holder_of_launching hholder hgrows hleads.2.2 hno
  · have hs := settled_of_leads hw h hleads
    rwa [World.holder, hs.tenants t fun heq => hne heq.symm,
      hs.redis _ fun heq => hne (stateKey_inj.mp heq).symm]

theorem keeps_parked (ht : PurePath.IsFileName t) :
    Keeps host Call.Named (Parked host start t) where
  same u v huv h := by
    refine ⟨(keeps_safe ht).same u v huv h.safe, huv.effects_eq ▸ h.grows, fun hno => ?_⟩
    rw [World.holder, huv.tenants_eq, huv.redis_eq]
    -- nothing was started before either
    refine h.holder (hno.of_prefix h.grows ?_)
    rw [huv.effects_eq]
  build u image h := ⟨(keeps_safe ht).build u image h.safe, h.grows, h.holder⟩
  call c v hc hw hv hleads hchanges h := by
    have hprefix := effects_prefix_of_changes hchanges
    refine ⟨h.safe.of_leads ht hc hw hleads hchanges, h.grows.trans hprefix, fun hno => ?_⟩
    exact holder_of_leads h.safe.sourced.backed hw h.grows hleads hno
      (h.holder (hno.of_prefix h.grows hprefix))

theorem Parked.direct {op : Op} (h : Parked host start t w) :
    Parked host start t (direct true w op) := by
  refine ⟨h.safe.direct, ?_, fun hno => ?_⟩
  · cases op <;> exact h.grows
  · have hold : NotStarted t start w := by cases op <;> exact hno
    obtain ⟨hmiss, hstopped⟩ := holder_eq_none_iff.mp (h.holder hold)
    rw [holder_eq_none_iff]
    cases op with
    | restart keys => exact ⟨rfl, hstopped⟩
    | _ => exact ⟨hmiss, hstopped⟩

theorem safe_of_run (hfresh : Fresh w₀) (hworks : w₀.RedisWorks) (heffects : w₀.effects = [])
    (ht : PurePath.IsFileName t)
    (hops : (machine host w₀).AllSteps (fun _ op => KeepsRedis op ∧ FileNames op) w₀ ops)
    (hrun : (machine host w₀).run ops = some w) : Sound host w ∧ Safe host t w :=
  (keeps_safe ht).of_run (fun _ _ hop => ⟨hop.1, fun _ => named_of_calls hop.2⟩)
    (fun _ _ h => h.direct) (hfresh.sound hworks) (hfresh.safe heffects) hops hrun

/-- How a provisioning fails before it starts a container: `stop_tenant` raised, or else nothing is
left to stop. -/
theorem holder_of_failed (hw : Sound host w) (hclient : w.hasClient = true)
    (hraise : (provisionTenant host t config image).run w = .error e w')
    (hstarts : NotStarted t w w') :
    (w.StopRaises host t ∧ w'.redis = w.redis) ∨
      (¬w.StopRaises host t ∧ w'.holder t = none) := by
  rw [provisionTenant_run hclient, EStateM.run_bind] at hraise
  have hstop := stop_turn (P := fun _ => True) t hw trivial
  cases hrun : (stopTenant host t).run w with
  | error e' u =>
    -- `stop_tenant` raised before it saved a record
    obtain ⟨-, hraises, hstopping⟩ := hstop.error hrun
    rw [hrun] at hraise
    obtain ⟨-, rfl⟩ := EStateM.Result.error.inj hraise
    refine .inl ⟨hraises, ?_⟩
    cases hstopping with
    | idle => rfl
    | raised _ hread => exact hread.same.redis_eq
    | stopped _ hno => exact absurd hraises hno
  | ok _ u =>
    obtain ⟨hturn, hno, hstopping⟩ := hstop.ok hrun
    rw [hrun] at hraise
    -- it returned, so the failure is one of the start
    have hu := hw.of_turn hturn
    have hlaunch := (startTenant_ends hu.redisWorks).error hraise
    have hdoes : Does (Change host t none w) (stopTenant host t) (fun _ _ => True) w :=
      stopTenant_does
    have hprefix := effects_prefix_of_changes ((Ends.of_does hdoes).ok hrun).1
    exact .inr ⟨hno, holder_of_launching (hstopping.holder_eq_none hno) hprefix hlaunch hstarts⟩

theorem notStarted_of_raise
    (hraise : (provisionTenant host t config image).run w = .error e w')
    (h : ∀ e ∈ w.effectsSince w', ¬e.Starts t) : NotStarted t w w' := by
  have hchanges : ReflTransGen (Change host t (some config) w) w w' :=
    (Ends.of_does provisionTenant_does).error hraise
  exact .of_prefix_of_all (effects_prefix_of_changes hchanges) h

/-- **A provisioning that failed** before it started a container leaves the tenant to be resumed
from its last good configuration, whatever follows until it is started again, unless it failed
when it asked whether the file of a running tenant exists. -/
theorem survives_iff (hfresh : Fresh w₀) (hworks : w₀.RedisWorks) (heffects : w₀.effects = [])
    (ht : PurePath.IsFileName t)
    (hops : (machine host w₀).AllSteps (fun _ op => KeepsRedis op ∧ FileNames op) w₀ ops)
    (hrun : (machine host w₀).run ops = some w)
    (hgood : lastGood host t w.effects = some good)
    (hraise : (provisionTenant host t config image).run w = .error e w')
    (hstarts : NotStarted t w w') :
    (∀ ops' v, (machine host w₀).AllSteps (fun _ op => KeepsRedis op ∧ FileNames op) w' ops' →
        (machine host w₀).runFrom w' ops' = some v → NotStarted t w' v →
          Survives host t good v) ↔
      ¬((w.holder t).isSome = true ∧ w.fileFaults.head? = some true) := by
  obtain ⟨hw, hsafe⟩ := safe_of_run hfresh hworks heffects ht hops hrun
  obtain ⟨state, hstate⟩ := Option.isSome_iff_exists.mp (hsafe.known (by rw [hgood]; rfl))
  have hfailed := holder_of_failed hw (hw.registered.record _ _ hstate).2.hasClient hraise hstarts
  rw [← hw.stopRaises_iff]
  constructor
  · rintro hall hraises
    have hsurvives := hall [] w' trivial rfl (NotStarted.refl t w')
    obtain ⟨-, hredis⟩ := hfailed.resolve_right fun h => h.1 hraises
    -- the record of what was to be stopped still says running
    obtain ⟨tc, htc, -⟩ := hraises
    obtain ⟨running, hrecord, hstatus⟩ := hsafe.sourced.backed.running_of_holder htc
    have hstopped := hsurvives.stopped running (hredis ▸ hrecord)
    simp [hstatus] at hstopped
  · intro hno ops' v hops' hrun' hstarts'
    obtain ⟨-, hholder⟩ := hfailed.resolve_left fun h => hno h.1
    -- a provisioning is an operation like any other
    have hend : endState (program host (.provision t config image)) w = w' := by
      simp only [endState, program, EStateM.run_bind, hraise]
    obtain ⟨hw', hsafe'⟩ := hend ▸ (keeps_safe ht).of_op hw
      (show Op.Enabled w (.provision t config image) from trivial) trivial
      (fun c => named_of_calls ht) hsafe
    have hparked : Parked host w' t w' := ⟨hsafe', List.prefix_rfl, fun _ => hholder⟩
    obtain ⟨hv, hparked'⟩ := (keeps_parked ht).of_run
      (fun _ _ hop => ⟨hop.1, fun _ => named_of_calls hop.2⟩) (fun _ _ h => h.direct) hw' hparked
      hops' hrun'
    refine hparked'.safe.survives hv (hparked'.holder hstarts') ?_
    rw [hstarts'.lastGood_eq, hstarts.lastGood_eq, hgood]

end Resuming

/-! ### Failures -/

/-- A configuration that `write_config` cannot index. -/
def badShape : Json := .obj [("gateway", .num 3)]

/-- A configuration of the wrong shape is refused, and the tenant is resumed as before. -/
theorem survives_iff_badShape : ∃ w w' e good,
    (machine sampleHost sampleWorld).run [.provision "alice" (.obj []) defaultImage] = some w ∧
      lastGood sampleHost "alice" w.effects = some good ∧
      (provisionTenant sampleHost "alice" badShape defaultImage).run w = .error e w' ∧
      Survives sampleHost "alice" good w' := by
  have hcheck : ((machine sampleHost sampleWorld).run
      [.provision "alice" (.obj []) defaultImage]).bind (fun w =>
        (lastGood sampleHost "alice" w.effects).map fun _ =>
          raises (provisionTenant sampleHost "alice" badShape defaultImage) w fun w' =>
            w.fileFaults.head? ≠ some true ∧ ∀ e ∈ w.effectsSince w', ¬e.Starts "alice") =
      some true := by
    decide +kernel
  obtain ⟨w, hrun, hcheck⟩ := Option.bind_eq_some_iff.mp hcheck
  obtain ⟨good, hgood, hcheck⟩ := Option.map_eq_some_iff.mp hcheck
  obtain ⟨e, w', hraise, hcheck⟩ := exists_of_raises hcheck
  obtain ⟨hfault, hall⟩ := of_decide_eq_true hcheck
  refine ⟨w, w', e, good, hrun, hgood, hraise, ?_⟩
  exact (survives_iff sampleWorld_fresh sampleWorld_redisWorks rfl (by decide) (by decide) hrun
    hgood hraise (notStarted_of_raise hraise hall)).mpr (fun h => hfault h.2) [] w' trivial rfl
      (NotStarted.refl _ w')

/-- **A record that still says running**: the provisioning failed when `stop_tenant` asked whether
the file exists. -/
theorem still_running : ∃ ops w w' e good,
    ops = [.provision "alice" (.obj []) defaultImage, .fail [] [] [true]] ∧
      (machine sampleHost sampleWorld).run ops = some w ∧ Fresh sampleWorld ∧
      (∀ op ∈ ops, KeepsRedis op ∧ FileNames op) ∧ PurePath.IsFileName "alice" ∧
      lastGood sampleHost "alice" w.effects = some good ∧
      (provisionTenant sampleHost "alice" (.obj []) defaultImage).run w = .error e w' ∧
      NotStarted "alice" w w' ∧ ¬Survives sampleHost "alice" good w' := by
  have hcheck : ((machine sampleHost sampleWorld).run
      [.provision "alice" (.obj []) defaultImage, .fail [] [] [true]]).bind (fun w =>
        (lastGood sampleHost "alice" w.effects).map fun _ =>
          raises (provisionTenant sampleHost "alice" (.obj []) defaultImage) w fun w' =>
            (∀ e ∈ w.effectsSince w', ¬e.Starts "alice") ∧
              ∃ state ∈ w'.redis.get (stateKey "alice"), state.status = .running) = some true := by
    decide +kernel
  obtain ⟨w, hrun, hcheck⟩ := Option.bind_eq_some_iff.mp hcheck
  obtain ⟨good, hgood, hcheck⟩ := Option.map_eq_some_iff.mp hcheck
  obtain ⟨e, w', hraise, hcheck⟩ := exists_of_raises hcheck
  obtain ⟨hall, state, hstate, hstatus⟩ := of_decide_eq_true hcheck
  refine ⟨_, w, w', e, good, rfl, hrun, sampleWorld_fresh, by decide, by decide, hgood, hraise,
    notStarted_of_raise hraise hall, fun hsurvives => ?_⟩
  rw [hsurvives.stopped state hstate] at hstatus
  simp at hstatus

end Nanogate.Tenants
