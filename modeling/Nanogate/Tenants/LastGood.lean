import Nanogate.Tenants.Orphans

/-!
# The last good configuration

The last good configuration of a tenant is the one that was in its file when its container was
last started. While the container runs, the record holds it with the entries that were injected
into `gateway.env`, and once the tenant is stopped the record keeps it. For tenants whose ids are
file names, the file holds it too while the record says running.

## Main definitions

* `lastGood` — the configuration a tenant was last started from, as it was written
* `Sourced` — a running record holds it with the injected entries
* `Safe` — the record holds it always, and the file while the record says running

## Main results

* `keeps_sourced`, `keeps_safe` — every call keeps both
-/

namespace Nanogate.Tenants

open Nanogate.Python Nanogate.Semantics Relation

/-! ### The history of a tenant -/

/-- `lastGood` of a history from its end. -/
def lastGoodRev (host : Host) (tenantId : String) : List Effect → Option Json
  | [] => none
  | .run _ container _ :: es =>
    if container.name = containerName tenantId then lastWritten host tenantId es.reverse
    else lastGoodRev host tenantId es
  | _ :: es => lastGoodRev host tenantId es

/-- The configuration that was last written to the file of a tenant when its container was last
started. -/
def lastGood (host : Host) (tenantId : String) (effects : List Effect) : Option Json :=
  lastGoodRev host tenantId effects.reverse

/-- The effect is the start of a container of the tenant. -/
def Effect.Starts (tenantId : String) : Effect → Prop
  | .run _ container _ => container.name = containerName tenantId
  | _ => False

instance (tenantId : String) : (e : Effect) → Decidable (e.Starts tenantId)
  | .run _ container _ => inferInstanceAs (Decidable (container.name = _))
  | .redisSet .. | .writeText .. | .stop _ | .remove _ => inferInstanceAs (Decidable False)

/-- No container of the tenant was started in between. -/
def NotStarted (tenantId : String) (w w' : World) : Prop := Adds (fun e => ¬e.Starts tenantId) w w'

section History

variable {host : Host} {t t' : String} {w w' w'' w₀ : World} {config : Option Json}
  {effects : List Effect}

theorem lastGood_snoc_run {id : ℕ} {container : Container} {c : Json}
    (h : container.name = containerName t) :
    lastGood host t (effects ++ [.run id container c]) = lastWritten host t effects := by
  rw [lastGood, List.reverse_append, List.reverse_singleton, List.singleton_append, lastGoodRev,
    if_pos h, List.reverse_reverse]

/-- Only the start of a container of the tenant changes its last good configuration. -/
theorem lastGood_snoc {e : Effect} (h : ¬e.Starts t) :
    lastGood host t (effects ++ [e]) = lastGood host t effects := by
  rw [lastGood, List.reverse_append, List.reverse_singleton, List.singleton_append]
  cases e with
  | run id container c =>
    rw [lastGoodRev, if_neg (show ¬container.name = containerName t from h)]
    rfl
  | _ => rfl

theorem NotStarted.refl (t : String) (w : World) : NotStarted t w w := Adds.refl _ w

theorem NotStarted.lastGood_eq (h : NotStarted t w w') :
    lastGood host t w'.effects = lastGood host t w.effects :=
  Adds.eq_of_snoc (fun _ _ => lastGood_snoc) h

theorem NotStarted.of_prefix_of_all (hgrows : w.effects <+: w'.effects)
    (h : ∀ e ∈ w.effectsSince w', ¬e.Starts t) : NotStarted t w w' := by
  obtain ⟨es, hes⟩ := hgrows
  refine ⟨es, hes.symm, ?_⟩
  rwa [World.effectsSince, ← hes, List.drop_left] at h

theorem NotStarted.trans (h : NotStarted t w w') (h' : NotStarted t w' w'') :
    NotStarted t w w'' :=
  Adds.trans h h'

/-- A method for another tenant, or one that provisions nothing, starts no container of the
tenant. -/
theorem NotStarted.of_change (h : t' ≠ t ∨ config = none) (hstep : Change host t' config w₀ w w') :
    NotStarted t w w' := by
  cases hstep with
  | same hsame => exact ⟨[], by rw [hsame.effects_eq, List.append_nil], by simp⟩
  | save | stop | remove | write => exact ⟨_, rfl, by simp [Effect.Starts]⟩
  -- the container that a method starts has the name of its tenant
  | run hc =>
    refine ⟨_, rfl, fun e he => ?_⟩
    obtain rfl := List.mem_singleton.mp he
    refine fun hname => h.elim (fun hne => hne (containerName_inj.mp hname)) fun hnone => ?_
    rw [hnone] at hc
    simp at hc
  | _ => exact NotStarted.refl t _

theorem notStarted_of_changes (h : t' ≠ t ∨ config = none)
    (hsteps : ReflTransGen (Change host t' config w₀) w w') : NotStarted t w w' :=
  kept_of_reaches (I := NotStarted t w) (fun _ _ hstep hw => hw.trans (.of_change h hstep)) hsteps
    (NotStarted.refl t w)

theorem notStarted_of_preparing {c : Json} (h : ReflTransGen (Preparing host t' c) w w') :
    NotStarted t w w' := by
  obtain ⟨es, hes, hadds⟩ := (untouched_of_preparing h).adds
  refine ⟨es, hes, fun e he hstart => ?_⟩
  have he' := hadds e he
  cases e with
  | run => exact he'
  | _ => exact hstart

end History

/-! ### Running records -/

/-- The record of a tenant that is running holds its last good configuration, with the entries that
were injected. -/
structure Sourced (host : Host) (t : String) (w : World) : Prop where
  backed : Backed w
  running : ∀ state, w.redis.get (stateKey t) = some state → state.status = .running →
    state.containerId.isSome = true ∧ state.configData.truthy = true ∧
      ∃ good env, lastGood host t w.effects = some good ∧
        injectEnv host t good = .ok (env, state.configData)

section Sourced

variable {host : Host} {P : Call → Prop} {t : String} {w w' : World} {config : Json} {c : Call}
  {state : TenantState}

theorem Sourced.congr (h : Sourced host t w) (hbacked : Backed w')
    (hgood : NotStarted t w w')
    (hrecord : ∀ state', w'.redis.get (stateKey t) = some state' → state'.status = .running →
      ∃ state, w.redis.get (stateKey t) = some state ∧ state.status = .running ∧
        state'.containerId = state.containerId ∧ state'.configData = state.configData) :
    Sourced host t w' := by
  refine ⟨hbacked, fun state' hstate' hrun' => ?_⟩
  obtain ⟨state, hstate, hrun, hid, hconfig⟩ := hrecord state' hstate' hrun'
  rw [hid, hconfig, hgood.lastGood_eq]
  exact h.running state hstate hrun

/-- A tenant whose record says running has something to stop. -/
theorem Sourced.holder_of_running (h : Sourced host t w)
    (hstate : w.redis.get (stateKey t) = some state) (hrun : state.status = .running) :
    (w.holder t).isSome = true := by
  obtain ⟨hid, -⟩ := h.running state hstate hrun
  obtain ⟨id, hid⟩ := Option.isSome_iff_exists.mp hid
  obtain ⟨tc, htc, -⟩ := Tenants.holder_of_running h.backed hstate
    (runningContainer_eq_some.mpr ⟨hrun, hid⟩)
  rw [htc]
  rfl

theorem injected_truthy {good env d : Json} (h : injectEnv host t good = .ok (env, d))
    (htruthy : good.truthy = true) : d.truthy = true := by
  rcases injectEnv_saved h with rfl | rfl
  · exact htruthy
  · exact Json.truthy_set

/-- What a started container leaves behind for its tenant. -/
theorem lastGood_launched {y : World} {container : Container} {workspace : PurePath}
    {written saved : Json}
    (hstart : Started host t config w y container workspace written saved)
    (hfiled : Filed host t written y)
    (hsame : Same ((y.started container saved).provisioned host t y.nextId container.port saved)
      w') : lastGood host t w'.effects = some written := by
  have heffects : w'.effects = y.effects ++ [.run y.nextId container saved] ++
      [.redisSet (stateKey t) (runningState host t y.nextId container.port saved y.now)] :=
    hsame.effects_eq
  rw [heffects, lastGood_snoc id, lastGood_snoc_run hstart.name, hfiled.last]

/-- A call that provisions nothing leaves the tenant's record running as it was, or not running. -/
theorem record_of_leads (hw : Sound host c.world) (hleads : c.Leads host w')
    (hc : c.config = none) (hstate : w'.redis.get (stateKey c.tenantId) = some state)
    (hrun : state.status = .running) :
    ∃ state', c.world.redis.get (stateKey c.tenantId) = some state' ∧ state'.status = .running ∧
      state.containerId = state'.containerId ∧ state.configData = state'.configData := by
  -- most calls leave the record as it is
  have hsame {w : World} (hw' : w'.redis = w.redis) (hget : w'.redis.get (stateKey c.tenantId) =
      some state) : ∃ state', w.redis.get (stateKey c.tenantId) = some state' ∧
        state'.status = .running ∧ state.containerId = state'.containerId ∧
          state.configData = state'.configData :=
    ⟨state, hw' ▸ hget, hrun, rfl, rfl⟩
  cases c with
  | stop t w =>
    cases hleads with
    | idle => exact hsame rfl hstate
    | raised _ hread => exact hsame hread.same.redis_eq hstate
    | stopped _ _ hhalted =>
      rw [hhalted.redis] at hstate
      -- a record that was just stopped does not say running
      obtain rfl := Option.some_inj.mp (Dict.get_set_self.symm.trans hstate)
      exact absurd hrun (by simp [TenantContainer.stopped])
  | look t w =>
    cases hleads with
    | hit | nothing | restored => exact hsame rfl hstate
    | missing _ hstate' =>
      rw [Call.tenantId, (hw.registered.record _ _ hstate').1] at hstate
      obtain rfl := Option.some_inj.mp (Dict.get_set_self.symm.trans hstate)
      exact absurd hrun (by simp [TenantState.markStopped])
  | touch t w =>
    cases hleads with
    | absent | cached => exact hsame rfl hstate
    | recorded _ hstate' hrun' =>
      refine ⟨_, hstate', hrun', ?_⟩
      rw [Call.tenantId, (hw.registered.record _ _ hstate').1] at hstate
      obtain rfl := Option.some_inj.mp (Dict.get_set_self.symm.trans hstate)
      exact ⟨rfl, rfl⟩
  | start t config w => simp [Call.config] at hc

theorem Sourced.of_launching (h : Sourced host t w) (hs : Settled t w w')
    (hlaunch : Launching host t config w w') : Sourced host t w' := by
  have hbacked := h.backed.of_settled hs
  cases hlaunch with
  | failed hsteps =>
    refine h.congr hbacked (notStarted_of_preparing hsteps) fun state hstate hrun => ?_
    exact ⟨state, (untouched_of_preparing hsteps).redis ▸ hstate, hrun, rfl, rfl⟩
  | launched hstart hfiled hsame =>
    -- the new record holds what was written, after the injection
    refine ⟨hbacked, fun state hstate _ => ?_⟩
    rw [(launched_entry hsame).2] at hstate
    obtain rfl := Option.some_inj.mp (Dict.get_set_self.symm.trans hstate)
    obtain ⟨setting, hmerge, -⟩ := hstart.prepared.merged
    have hinject := hstart.prepared.injected
    exact ⟨rfl, injected_truthy hinject (isObj_of_mergeSettings hmerge).2, _, _,
      lastGood_launched hstart hfiled hsame, hinject⟩

theorem Sourced.of_leads (h : Sourced host t c.world) (hw : Sound host c.world)
    (hleads : c.Leads host w')
    (hchanges : ReflTransGen (Change host c.tenantId c.config c.world) c.world w') :
    Sourced host t w' := by
  -- only a start changes the last good configuration
  have hs := settled_of_leads hw h.backed hleads
  have hbacked := h.backed.of_settled hs
  by_cases ht : c.tenantId = t
  · subst ht
    cases c with
    | start t config w => exact h.of_launching hs hleads.2.2
    | stop | look | touch =>
      exact h.congr hbacked (notStarted_of_changes (.inr rfl) hchanges) fun state hstate hrun =>
        record_of_leads hw hleads rfl hstate hrun
  · refine h.congr hbacked (notStarted_of_changes (.inl ht) hchanges) fun state hstate hrun => ?_
    rw [hs.redis _ fun heq => ht (stateKey_inj.mp heq).symm] at hstate
    exact ⟨state, hstate, hrun, rfl, rfl⟩

theorem keeps_sourced : Keeps host P (Sourced host t) where
  same u v huv h := by
    refine h.congr (h.backed.of_same huv) ⟨[], by rw [huv.effects_eq, List.append_nil], by simp⟩ ?_
    exact fun state hstate hrun => ⟨state, huv.redis_eq ▸ hstate, hrun, rfl, rfl⟩
  build _ _ h := ⟨h.backed, h.running⟩
  call _ _ _ hw _ hleads hchanges h := h.of_leads hw hleads hchanges

theorem Sourced.direct {op : Op} (h : Sourced host t w) : Sourced host t (direct true w op) := by
  refine ⟨h.backed.direct, ?_⟩
  cases op <;> exact h.running

theorem Fresh.sourced (h : Fresh w) : Sourced host t w :=
  ⟨h.backed, fun state hstate => by simp [h.redis] at hstate⟩

end Sourced

/-! ### Records and files -/

/-- A configuration is another one, with or without the entries that are injected into it. -/
def Gives (host : Host) (t : String) (good d : Json) : Prop :=
  d = good ∨ ∃ env, injectEnv host t good = .ok (env, d)

/-- The record of a tenant holds its last good configuration, and while it says running, the file
does too. -/
structure Safe (host : Host) (t : String) (w : World) : Prop where
  sourced : Sourced host t w
  known : (lastGood host t w.effects).isSome = true → (w.redis.get (stateKey t)).isSome = true
  recorded : ∀ state, w.redis.get (stateKey t) = some state → state.configData.truthy = true ∧
    ∃ good, lastGood host t w.effects = some good ∧ Gives host t good state.configData
  filed : ∀ state, w.redis.get (stateKey t) = some state → state.status = .running →
    ∃ place good, configPlace host t = some place ∧ lastGood host t w.effects = some good ∧
      w.fs.text place = some (.json good)

/-- A call that provisions is for a tenant whose id is a file name. -/
def Call.Named : Call → Prop
  | .start t _ _ => PurePath.IsFileName t
  | _ => True

section Safe

variable {host : Host} {t t' : String} {w w' : World} {config : Json} {c : Call}
  {state : TenantState} {tc : TenantContainer}

/-- Tenants whose ids are file names have files of their own. -/
theorem configPlace_ne (ht : PurePath.IsFileName t) (ht' : PurePath.IsFileName t') (hne : t' ≠ t)
    {place : Location} (hplace : configPlace host t = some place) :
    configPlace host t' ≠ some place := by
  intro hplace'
  -- both files are named by their tenants below the same base
  simp only [configPlace, configPath, tenantDir,
    PurePath.locate_join_of_isFileName _ (show PurePath.IsFileName "config.json" by decide),
    PurePath.locate_join_of_isFileName _ ht, PurePath.locate_join_of_isFileName _ ht',
    Option.map_map, Option.map_eq_some_iff] at hplace hplace'
  obtain ⟨base, hbase, rfl⟩ := hplace
  obtain ⟨base', hbase', heq⟩ := hplace'
  obtain rfl := Option.some_inj.mp (hbase.symm.trans hbase')
  simp only [Function.comp_apply, List.append_assoc, List.append_cancel_left_eq, List.cons_append,
    List.nil_append, List.cons.injEq, and_true] at heq
  exact hne heq

theorem Backed.running_of_holder (h : Backed w) (hholder : w.holder t = some tc) :
    ∃ state, w.redis.get (stateKey t) = some state ∧ state.status = .running := by
  cases known_of_holder hholder with
  | entry hentry =>
    obtain ⟨state, hstate, hmirrors⟩ := h t tc hentry
    exact ⟨state, hstate, hmirrors.status⟩
  | record hstate hrun => exact ⟨_, hstate, status_of_runningContainer hrun⟩

/-- What `stop_tenant` saves is what it reads from the file, or else what the record holds. -/
theorem Sound.kept_eq (h : Sound host w) (hholder : w.holder t = some tc)
    (hstate : w.redis.get (stateKey t) = some state) :
    w.kept host t tc = (w.readAt host (configPath host t)).or state.configData := by
  have hdir := (h.coherent.belongs_of_known (known_of_holder hholder)).configDir_eq
  have hfile : w.fromFile host tc = w.readAt host (configPath host t) := by
    rw [World.fromFile, hdir, configPath]
  rw [World.kept, hfile, hstate, Option.map_some, Option.getD_some]

theorem configAt_eq {place : Location} {v : Json} (hplace : configPlace host t = some place)
    (htext : w.fs.text place = some (.json v)) : w.configAt host (configPath host t) = v := by
  rw [World.configAt, show (configPath host t).locate host.cwd = some place from hplace,
    Option.bind_some, htext]

/-- What `stop_tenant` saves is the last good configuration or what the record holds. -/
theorem Safe.kept (h : Safe host t w) (hw : Sound host w) (hholder : w.holder t = some tc) :
    (w.kept host t tc).truthy = true ∧ ∃ good, lastGood host t w.effects = some good ∧
      Gives host t good (w.kept host t tc) := by
  obtain ⟨state, hstate, hrun⟩ := h.sourced.backed.running_of_holder hholder
  obtain ⟨htruthy, hrecorded⟩ := h.recorded state hstate
  obtain ⟨place, good, hplace, hgood, htext⟩ := h.filed state hstate hrun
  rw [hw.kept_eq hholder hstate, Json.or]
  -- an unreadable or empty file leaves what the record holds
  by_cases hfile : (w.readAt host (configPath host t)).truthy = true
  · rw [if_pos hfile]
    refine ⟨hfile, good, hgood, .inl ?_⟩
    unfold World.readAt at hfile ⊢
    split_ifs at hfile ⊢
    · simp at hfile
    · exact configAt_eq hplace htext
  · rw [if_neg hfile]
    exact ⟨htruthy, hrecorded⟩

theorem Safe.congr (h : Safe host t w) (hsourced : Sourced host t w') (hstarts : NotStarted t w w')
    (hknown : (w.redis.get (stateKey t)).isSome = true →
      (w'.redis.get (stateKey t)).isSome = true)
    (hrecord : ∀ state', w'.redis.get (stateKey t) = some state' →
      ∃ state, w.redis.get (stateKey t) = some state ∧ state'.configData = state.configData ∧
        (state'.status = .running → state.status = .running))
    (hfile : ∀ place, configPlace host t = some place → w'.fs.text place = w.fs.text place) :
    Safe host t w' := by
  refine ⟨hsourced, fun hgood => hknown (h.known ?_), fun state' hstate' => ?_,
    fun state' hstate' hrun' => ?_⟩
  · rwa [← hstarts.lastGood_eq]
  · obtain ⟨state, hstate, hconfig, -⟩ := hrecord state' hstate'
    rw [hconfig, hstarts.lastGood_eq]
    exact h.recorded state hstate
  · obtain ⟨state, hstate, -, hrun⟩ := hrecord state' hstate'
    obtain ⟨place, good, hplace, hgood, htext⟩ := h.filed state hstate (hrun hrun')
    exact ⟨place, good, hplace, hstarts.lastGood_eq.trans hgood, (hfile place hplace).trans htext⟩

theorem Safe.of_stopping (h : Safe host t w) (hw : Sound host w) (hsourced : Sourced host t w')
    (hstarts : NotStarted t w w') (hstop : Stopping host t w w') : Safe host t w' := by
  cases hstop with
  | idle => exact h
  | raised _ hread =>
    obtain ⟨_, _, rfl⟩ := hread
    exact h.congr hsourced hstarts id (fun state' h' => ⟨state', h', rfl, id⟩) fun _ _ => rfl
  | @stopped tc _ hholder _ hhalted =>
    obtain ⟨htruthy, hkept⟩ := h.kept hw hholder
    -- the record now says stopped, so nothing is asked of the file
    have hrecord : w'.redis.get (stateKey t) = some (tc.stopped t (w.kept host t tc)) := by
      rw [hhalted.redis]
      exact Dict.get_set_self
    refine ⟨hsourced, fun _ => by rw [hrecord]; rfl, fun state hstate => ?_,
      fun state hstate hrun => ?_⟩
    · obtain rfl := Option.some_inj.mp (hrecord.symm.trans hstate)
      rw [hstarts.lastGood_eq]
      exact ⟨htruthy, hkept⟩
    · obtain rfl := Option.some_inj.mp (hrecord.symm.trans hstate)
      exact absurd hrun (by simp [TenantContainer.stopped])

theorem Safe.of_looking (h : Safe host t w) (hw : Sound host w) (hsourced : Sourced host t w')
    (hstarts : NotStarted t w w') (hlook : Looking t w w') : Safe host t w' := by
  cases hlook with
  | hit | nothing | restored =>
    exact h.congr hsourced hstarts id (fun state' h' => ⟨state', h', rfl, id⟩) fun _ _ => rfl
  | @missing state _ _ hstate =>
    have hrecord : (w.dockerCalled.put state.markStopped).redis.get (stateKey t) =
        some state.markStopped := by
      rw [(hw.registered.record _ _ hstate).1]
      exact Dict.get_set_self
    refine h.congr hsourced hstarts (fun _ => by rw [hrecord]; rfl) (fun state' hstate' => ?_)
      fun _ _ => rfl
    obtain rfl := Option.some_inj.mp (hrecord.symm.trans hstate')
    exact ⟨state, hstate, rfl, fun hrun => absurd hrun (by simp [TenantState.markStopped])⟩

theorem Safe.of_touching (h : Safe host t w) (hw : Sound host w) (hsourced : Sourced host t w')
    (hstarts : NotStarted t w w') (htouch : Touching t w w') : Safe host t w' := by
  cases htouch with
  | absent | cached =>
    exact h.congr hsourced hstarts id (fun state' h' => ⟨state', h', rfl, id⟩) fun _ _ => rfl
  | @recorded tc state _ hstate hrun =>
    have hrecord : ((w.cached t { tc with lastActivity := w.now }).put
        { state with lastActivity := w.now }).redis.get (stateKey t) =
          some { state with lastActivity := w.now } := by
      rw [(hw.registered.record _ _ hstate).1]
      exact Dict.get_set_self
    refine h.congr hsourced hstarts (fun _ => by rw [hrecord]; rfl) (fun state' hstate' => ?_)
      fun _ _ => rfl
    obtain rfl := Option.some_inj.mp (hrecord.symm.trans hstate')
    exact ⟨state, hstate, rfl, fun _ => hrun⟩

theorem Safe.of_launching (h : Safe host t w) (hsourced : Sourced host t w')
    (hholder : w.holder t = none) (hlaunch : Launching host t config w w') : Safe host t w' := by
  cases hlaunch with
  | failed hsteps =>
    have hframe := untouched_of_preparing hsteps
    have hstarts : NotStarted t w w' := notStarted_of_preparing hsteps
    refine ⟨hsourced, fun hgood => ?_, fun state hstate => ?_, fun state hstate hrun => ?_⟩
    · rw [hframe.redis]
      exact h.known (hstarts.lastGood_eq ▸ hgood)
    · rw [hstarts.lastGood_eq]
      exact h.recorded state (hframe.redis ▸ hstate)
    · -- a tenant without a holder is not recorded as running
      have hsome := h.sourced.holder_of_running (hframe.redis ▸ hstate) hrun
      simp [hholder] at hsome
  | @launched y _ container _ written saved hstart hfiled hsame =>
    -- file and record are those of the new container
    have hgood := lastGood_launched hstart hfiled hsame
    have hrecord : w'.redis.get (stateKey t) =
        some (runningState host t y.nextId container.port saved y.now) := by
      rw [(launched_entry hsame).2, Dict.get_set_self]
    obtain ⟨setting, hmerge, -⟩ := hstart.prepared.merged
    have hinject := hstart.prepared.injected
    refine ⟨hsourced, fun _ => by rw [hrecord]; rfl, fun state hstate => ?_, fun state _ _ => ?_⟩
    · obtain rfl := Option.some_inj.mp (hrecord.symm.trans hstate)
      exact ⟨injected_truthy hinject (isObj_of_mergeSettings hmerge).2, written, hgood,
        .inr ⟨_, hinject⟩⟩
    · obtain ⟨place, hplace, htext⟩ := hfiled.text
      exact ⟨place, written, hplace, hgood, hsame.fs_eq ▸ htext⟩

theorem text_of_leads {place : Location} (hleads : c.Leads host w')
    (hplace : configPlace host c.tenantId ≠ some place ∨ c.config = none) :
    w'.fs.text place = c.world.fs.text place := by
  cases c with
  | stop t w =>
    cases hleads with
    | idle => rfl
    | raised _ hread => rw [hread.same.fs_eq]; rfl
    | stopped _ _ hhalted => rw [hhalted.fs]; rfl
  | look t w => cases hleads <;> rfl
  | touch t w => cases hleads <;> rfl
  | start t config w =>
    have hne : configPlace host t ≠ some place := hplace.resolve_right (by simp [Call.config])
    obtain ⟨-, -, hlaunch⟩ := hleads
    cases hlaunch with
    | failed hsteps => exact (untouched_of_preparing hsteps).text place hne
    | launched hstart _ hsame =>
      exact (congrFun (congrArg Fs.text hsame.fs_eq) place).trans
        ((untouched_of_preparing hstart.reaches).text place hne)

theorem Safe.of_leads (ht : PurePath.IsFileName t) (h : Safe host t c.world) (hc : c.Named)
    (hw : Sound host c.world) (hleads : c.Leads host w')
    (hchanges : ReflTransGen (Change host c.tenantId c.config c.world) c.world w') :
    Safe host t w' := by
  have hsourced := h.sourced.of_leads hw hleads hchanges
  by_cases hne : c.tenantId = t
  · subst hne
    cases c with
    | stop t w => exact h.of_stopping hw hsourced (notStarted_of_changes (.inr rfl) hchanges) hleads
    | look t w => exact h.of_looking hw hsourced (notStarted_of_changes (.inr rfl) hchanges) hleads
    | touch t w =>
      exact h.of_touching hw hsourced (notStarted_of_changes (.inr rfl) hchanges) hleads
    | start t config w => exact h.of_launching hsourced hleads.1 hleads.2.2
  · -- another tenant has a record and a file of its own
    have hs := settled_of_leads hw h.sourced.backed hleads
    have hrecord : w'.redis.get (stateKey t) = c.world.redis.get (stateKey t) :=
      hs.redis _ fun heq => hne (stateKey_inj.mp heq).symm
    refine h.congr hsourced (notStarted_of_changes (.inl hne) hchanges)
      (fun hsome => hrecord ▸ hsome)
      (fun state hstate => ⟨state, hrecord ▸ hstate, rfl, id⟩) fun place hplace => ?_
    refine text_of_leads hleads ?_
    cases c with
    | start t' config w => exact .inl (configPlace_ne ht hc hne hplace)
    | stop | look | touch => exact .inr rfl

theorem keeps_safe (ht : PurePath.IsFileName t) : Keeps host Call.Named (Safe host t) where
  same u v huv h := by
    refine h.congr (keeps_sourced.same (P := fun _ => True) u v huv h.sourced)
      ⟨[], by rw [huv.effects_eq, List.append_nil], by simp⟩ (fun hsome => huv.redis_eq ▸ hsome)
      (fun state hstate => ⟨state, huv.redis_eq ▸ hstate, rfl, id⟩) fun place _ => ?_
    rw [huv.fs_eq]
  build u image h := ⟨⟨h.sourced.backed, h.sourced.running⟩, h.known, h.recorded, h.filed⟩
  call _ _ hc hw _ hleads hchanges h := h.of_leads ht hc hw hleads hchanges

theorem Safe.direct {op : Op} (h : Safe host t w) : Safe host t (direct true w op) := by
  refine ⟨h.sourced.direct, ?_, ?_, ?_⟩
  · cases op <;> exact h.known
  · cases op <;> exact h.recorded
  · cases op <;> exact h.filed

theorem Fresh.safe (h : Fresh w) (heffects : w.effects = []) : Safe host t w :=
  ⟨h.sourced, fun hgood => by simp [heffects, lastGood, lastGoodRev] at hgood,
    fun state hstate => by simp [h.redis] at hstate,
    fun state hstate => by simp [h.redis] at hstate⟩

end Safe

end Nanogate.Tenants
