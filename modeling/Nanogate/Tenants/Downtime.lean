import Nanogate.Tenants.Failures

/-!
# How a tenant goes down

A tenant goes down in two ways: `stop_tenant` saves the configuration it reads from the file, or
the container vanishes and the record is marked as stopped with the configuration it holds. The
file was written before the environment was injected and the record after, so the two differ by
the entries that were injected into a `gateway.env` that is not empty.

## Main definitions

* `Complete` — injecting the environment changes nothing
* `Alike` — both ways lead to the same resumption

## Main results

* `injected_eq_self_iff` — the injection changes nothing exactly for complete configurations
* `alike_iff` — when both ways lead to the same resumption
* `resumed_differently` — a tenant with an entry of its own in `gateway.env`
-/

namespace Nanogate.Tenants

open Nanogate.Python Nanogate.Semantics Relation

/-! ### Injected entries -/

/-- `gateway.env` is empty, or it already has every entry that is injected into it. -/
def Complete (host : Host) (t : String) (config : Json) : Prop :=
  let env := (config.getD "gateway").getD "env"
  env.truthy = true →
    env.get "TENANT_ID" = some (.str t) ∧ (env.get "REDIS_URL").isSome = true ∧
      ((env.get "OPENAI_API_KEY").isSome = true ∨
        ∀ key, openaiKey host config = .ok key → key.truthy = false)

section Injection

variable {host : Host} {t : String} {config env injected saved : Json}

theorem getD_of_truthy {v : Json} {key : String} (h : (v.getD key).truthy = true) :
    v.get key = some (v.getD key) := by
  unfold Json.getD at h ⊢
  cases hget : v.get key with
  | some x => rfl
  | none => simp [hget] at h

theorem get_setDefault {key key' : String} {value : Json} : (setDefault env key value).get key' =
    if key' = key then some ((env.get key).getD value) else env.get key' := by
  unfold setDefault
  cases hget : env.get key with
  | some x =>
    split_ifs with heq
    · rw [heq, hget, Option.getD_some]
    · rfl
  | none =>
    split_ifs with heq
    · rw [heq, Json.get_set_self, Option.getD_none]
    · exact Json.get_set_of_ne heq

theorem setDefault_of_get {key : String} {value : Json} (h : (env.get key).isSome = true) :
    setDefault env key value = env := by
  obtain ⟨x, hx⟩ := Option.isSome_iff_exists.mp h
  rw [setDefault, hx]

/-- `custom_env` before the key of OpenAI. -/
def baseEnv (host : Host) (t : String) (env : Json) : Json :=
  setDefault (env.set "TENANT_ID" (.str t)) "REDIS_URL"
    (.str ((host.environ "NANOGATE_REDIS_URL").getD "redis://host.docker.internal:6379"))

theorem get_openai_baseEnv :
    (baseEnv host t env).get "OPENAI_API_KEY" = env.get "OPENAI_API_KEY" := by
  rw [baseEnv, get_setDefault, if_neg (by decide), Json.get_set_of_ne (by decide)]

/-- The key of OpenAI is injected where it is missing and there is one. -/
theorem customEnv_eq_ok (h : customEnv host t config env = .ok injected) :
    (injected = baseEnv host t env ∧ ((env.get "OPENAI_API_KEY").isSome = true ∨
        ∀ key, openaiKey host config = .ok key → key.truthy = false)) ∨
      ∃ key, injected = (baseEnv host t env).set "OPENAI_API_KEY" key ∧
        env.get "OPENAI_API_KEY" = none ∧ openaiKey host config = .ok key ∧ key.truthy = true := by
  unfold customEnv at h
  split_ifs at h with hobj
  · simp [bind, Except.bind] at h
  · dsimp only at h
    rw [← baseEnv, get_openai_baseEnv] at h
    cases hget : env.get "OPENAI_API_KEY" with
    | some x =>
      simp only [hget, pure, Except.pure, Except.ok.injEq] at h
      exact .inl ⟨h.symm, .inl rfl⟩
    | none =>
      cases hkey : openaiKey host config with
      | error e => simp [hget, hkey, bind, Except.bind] at h
      | ok key =>
        simp only [hget, hkey, bind, Except.bind, pure, Except.pure, Except.ok.injEq] at h
        split_ifs at h with htruthy
        · exact .inr ⟨key, h.symm, rfl, rfl, htruthy⟩
        · refine .inl ⟨h.symm, .inr fun key' hkey' => ?_⟩
          obtain rfl := Except.ok.inj hkey'
          simpa using htruthy

/-- Injecting changes nothing exactly where every entry is there. -/
theorem customEnv_eq_self_iff (h : customEnv host t config env = .ok injected) : injected = env ↔
    env.get "TENANT_ID" = some (.str t) ∧ (env.get "REDIS_URL").isSome = true ∧
      ((env.get "OPENAI_API_KEY").isSome = true ∨
        ∀ key, openaiKey host config = .ok key → key.truthy = false) := by
  have hbase : baseEnv host t env = env ↔
      env.get "TENANT_ID" = some (.str t) ∧ (env.get "REDIS_URL").isSome = true := by
    constructor
    · intro heq
      rw [← heq, baseEnv]
      refine ⟨?_, ?_⟩
      · rw [get_setDefault, if_neg (by decide), Json.get_set_self]
      · rw [get_setDefault, if_pos rfl]
        rfl
    · rintro ⟨htenant, hurl⟩
      rw [baseEnv, Json.set_of_get htenant, setDefault_of_get hurl]
  -- where a key is injected, it was missing
  rcases customEnv_eq_ok h with ⟨rfl, hkey⟩ | ⟨key, rfl, hnone, hkey, htruthy⟩
  · rw [hbase]
    exact ⟨fun ⟨htenant, hurl⟩ => ⟨htenant, hurl, hkey⟩, fun ⟨htenant, hurl, _⟩ => ⟨htenant, hurl⟩⟩
  · constructor
    · intro heq
      rw [← heq, Json.get_set_self] at hnone
      simp at hnone
    · rintro ⟨-, -, hsome | hfalsy⟩
      · simp [hnone] at hsome
      · simp [hfalsy key hkey] at htruthy

/-- Injecting the environment changes nothing exactly for complete configurations. -/
theorem injected_eq_self_iff (h : injectEnv host t config = .ok (env, saved)) :
    saved = config ↔ Complete host t config := by
  unfold injectEnv at h
  cases hcustom : customEnv host t config (((config.getD "gateway").getD "env").or (.obj [])) with
  | error e => simp [hcustom, bind, Except.bind] at h
  | ok injected =>
    simp only [hcustom, bind, Except.bind, pure, Except.pure, Except.ok.injEq, Prod.mk.injEq] at h
    obtain ⟨rfl, rfl⟩ := h
    unfold Complete
    dsimp only
    split_ifs with htruthy
    · rw [Json.or, if_pos htruthy] at hcustom
      rw [← customEnv_eq_self_iff hcustom]
      -- an environment that is not empty is part of the configuration
      have hgateway : config.get "gateway" = some (config.getD "gateway") := by
        refine getD_of_truthy ?_
        exact Json.truthy_of_get (getD_of_truthy htruthy)
      constructor
      · intro heq _
        rw [← heq, Json.getD_set_self, Json.getD_set_self]
      · intro heq
        rw [heq htruthy, Json.set_of_get (getD_of_truthy htruthy), Json.set_of_get hgateway]
    · exact ⟨fun _ h => absurd h htruthy, fun _ => rfl⟩

end Injection

/-! ### Going down -/

/-- The world after a container vanished. -/
def World.vanished (w : World) (id : ℕ) : World := { w with containers := w.containers.erase id }

/-- The container of a tenant vanished, and `get_tenant` or a restart found out. -/
inductive Vanished (host : Host) (t : String) (id : ℕ) (w : World) : World → Prop
  | looked (hmiss : w.tenants.get t = none) :
      Vanished host t id w (endState (getTenant t) (w.vanished id))
  | restarted {keys : List String} (hkeys : keys.Perm w.redis.keys) :
      Vanished host t id w (endState (restart host keys) (w.vanished id))

/-- When nothing fails any more, `get_or_create` provisions the same configuration after
`stop_tenant` as after the container of the tenant vanished. -/
def Alike (host : Host) (t : String) (w : World) : Prop :=
  ∃ d, answer (toProvision t) (endState (stopTenant host t) w.recovered) = .ok (some d) ∧
    ∀ state id v, w.redis.get (stateKey t) = some state → state.containerId = some id →
      Vanished host t id w.recovered v → answer (toProvision t) v = .ok (some d)

section Downtime

variable {host : Host} {t : String} {w w' w₀ : World} {state : TenantState} {id : ℕ} {d : Json}
  {keys : List String} {ops : List Op}

theorem answer_of_ok {α : Type} {m : M α} {a : α} (h : m.run w = .ok a w') :
    answer m w = .ok a := by
  rw [answer, h]

theorem Sound.recovered (h : Sound host w) : Sound host w.recovered :=
  h.direct (show KeepsRedis (.fail [] [] []) from rfl)

theorem Sourced.recovered (h : Sourced host t w) : Sourced host t w.recovered :=
  show Sourced host t (Tenants.direct true w (.fail [] [] [])) from h.direct

/-- `stop_tenant` saves the configuration that is in the file. -/
theorem answer_stopped (hw : Sound host w) (h : Sourced host t w) (hfaults : w.fileFaults = [])
    (hstate : w.redis.get (stateKey t) = some state) (hrun : state.status = .running) :
    answer (toProvision t) (endState (stopTenant host t) w) =
      .ok (some (w.configAt host (configPath host t))) := by
  have hno : ¬w.StopRaises host t := by
    rw [hw.stopRaises_iff, hfaults]
    simp
  have hstop := stop_turn (P := fun _ => True) t hw trivial
  cases hrun' : (stopTenant host t).run w with
  | error e u => exact absurd (hstop.error hrun').2.1 hno
  | ok _ u =>
    obtain ⟨hturn, -, hstopping⟩ := hstop.ok hrun'
    -- nothing is left to stop, and the record holds what was saved
    have hholder := hstopping.holder_eq_none hno
    rw [endState_of_ok hrun']
    cases hstopping with
    | idle hidle =>
      have hsome := h.holder_of_running hstate hrun
      simp [hidle] at hsome
    | raised hraises => exact absurd hraises hno
    | @stopped tc _ htc _ hhalted =>
      -- the file of a tenant with a record holds a configuration
      obtain ⟨hkey, hgenuine⟩ := hw.registered.record _ _ hstate
      obtain rfl : t = state.tenantId := stateKey_inj.mp hkey
      obtain ⟨place, v, hplace, htext, -, htruthy⟩ := hgenuine.file
      have hfile := configAt_eq hplace htext
      have hkept : w.kept host state.tenantId tc = v := by
        rw [hw.kept_eq htc hstate, World.readAt, if_neg (by simp [hfaults]), hfile, Json.or,
          if_pos htruthy]
      have hrecord : u.redis.get (stateKey state.tenantId) =
          some (tc.stopped state.tenantId (w.kept host state.tenantId tc)) := by
        rw [hhalted.redis]
        exact Dict.get_set_self
      rw [hkept] at hrecord
      rw [hfile]
      exact answer_of_ok (toProvision_run (hw.of_turn hturn).redisWorks hholder hrecord htruthy)

/-- The record of a vanished container: still to be marked as stopped, or marked. -/
structure Gone (t : String) (state : TenantState) (id : ℕ) (pending : Prop) (w : World) : Prop where
  container : w.containers.get id = none
  tenants : w.tenants.get t = none
  record : (w.redis.get (stateKey t) = some state ∧ pending) ∨
    w.redis.get (stateKey t) = some state.markStopped

theorem Gone.answer (h : Gone t state id False w) (hw : Sound host w)
    (htruthy : state.configData.truthy = true) :
    answer (toProvision t) w = .ok (some state.configData) := by
  have hrecord := h.record.resolve_left fun hpending => hpending.2
  have hholder : w.holder t = none := by
    rw [holder_eq_none_iff, hrecord]
    refine ⟨h.tenants, fun state' hstate' => ?_⟩
    rw [← Option.some_inj.mp hstate']
    rfl
  have hrun := toProvision_run hw.redisWorks hholder hrecord htruthy
  exact answer_of_ok hrun

/-- Looking the tenant up marks its record. -/
theorem Gone.of_looking {pending : Prop} (h : Gone t state id pending w) (hw : Sound host w)
    (hrun : state.runningContainer = some id) (hlook : Looking t w w') :
    Gone t state id False w' := by
  obtain ⟨hcontainer, hmiss, hrecord⟩ := h
  have hstopped : state.markStopped.runningContainer = none := rfl
  cases hlook with
  | hit hentry =>
    rw [hmiss] at hentry
    simp at hentry
  | nothing _ hnone =>
    refine ⟨hcontainer, hmiss, .inr (hrecord.resolve_left fun ⟨hstate, _⟩ => ?_)⟩
    -- a record that says running is checked
    have hclient := (hw.registered.record _ _ hstate).2.hasClient
    simp [hnone hclient state hstate] at hrun
  | restored _ hstate' hrun' hfinds =>
    rcases hrecord with ⟨hstate, -⟩ | hstate
    · obtain rfl := Option.some_inj.mp (hstate.symm.trans hstate')
      obtain rfl := Option.some_inj.mp (hrun.symm.trans hrun')
      -- the container is gone, so it is not found
      simp [World.Finds, hcontainer] at hfinds
    · obtain rfl := Option.some_inj.mp (hstate.symm.trans hstate')
      simp [hstopped] at hrun'
  | missing _ hstate' hrun' =>
    rcases hrecord with ⟨hstate, -⟩ | hstate
    · obtain rfl := Option.some_inj.mp (hstate.symm.trans hstate')
      refine ⟨hcontainer, hmiss, .inr ?_⟩
      rw [(hw.registered.record _ _ hstate).1]
      exact Dict.get_set_self
    · obtain rfl := Option.some_inj.mp (hstate.symm.trans hstate')
      simp [hstopped] at hrun'

/-- Looking another tenant up leaves the record alone. -/
theorem Gone.of_looking_ne {pending : Prop} {t' : String} (h : Gone t state id pending w)
    (hw : Sound host w) (hne : t' ≠ t) (hlook : Looking t' w w') : Gone t state id pending w' := by
  obtain ⟨hcontainer, hmiss, hrecord⟩ := h
  have htenants := (hlook.tenants_of_ne hne.symm).trans hmiss
  cases hlook with
  | hit | nothing | restored => exact ⟨hcontainer, htenants, hrecord⟩
  | @missing other _ _ hstate =>
    refine ⟨hcontainer, htenants, ?_⟩
    have hkey : stateKey t ≠ stateKey other.markStopped.tenantId := fun heq =>
      hne (stateKey_inj.mp ((hw.registered.record _ _ hstate).1.trans heq.symm))
    have hget : ((w.redis.set (stateKey other.markStopped.tenantId) other.markStopped).get
        (stateKey t)) = w.redis.get (stateKey t) := Dict.get_set_of_ne hkey
    rwa [World.put, World.dockerCalled, hget]

theorem Gone.mono {pending pending' : Prop} (h : Gone t state id pending w)
    (hpending : pending → pending') : Gone t state id pending' w :=
  ⟨h.container, h.tenants, h.record.imp_left fun ⟨hstate, hp⟩ => ⟨hstate, hpending hp⟩⟩

theorem Gone.congr {pending : Prop} (h : Gone t state id pending w)
    (hcontainers : w'.containers = w.containers) (htenants : w'.tenants = w.tenants)
    (hredis : w'.redis = w.redis) : Gone t state id pending w' := by
  obtain ⟨hcontainer, hmiss, hrecord⟩ := h
  exact ⟨by rwa [hcontainers], by rwa [htenants], by rwa [hredis]⟩

/-- A restart marks the record. -/
theorem gone_of_restart (hw : Sound host w) (hkeys : keys.Perm w.redis.keys)
    (hgone : w.containers.get id = none) (hstate : w.redis.get (stateKey t) = some state)
    (hrun : state.runningContainer = some id) :
    Sound host (endState (restart host keys) w) ∧
      Gone t state id False (endState (restart host keys) w) := by
  have hrule := restart_rule (P := fun _ => True)
    (I := fun keys => Gone t state id (stateKey t ∈ keys)) ?_
    (fun u v huv h => h.congr huv.containers_eq huv.tenants_eq huv.redis_eq)
    (fun u image h => h.congr rfl rfl rfl) hw hkeys (fun _ _ => trivial) ?_
  · exact ⟨hrule.1, hrule.2.mono (by simp)⟩
  · intro key rest u v _ hu _ hkey _ hlook h
    -- the tenant's own key marks the record, the others leave it alone
    by_cases heq : tenantOfKey key = t
    · subst heq
      exact (h.of_looking hu hrun hlook).mono False.elim
    · refine (h.of_looking_ne hu heq hlook).mono fun hmem => ?_
      refine (List.mem_cons.mp hmem).resolve_left fun hself => heq ?_
      exact stateKey_inj.mp (hkey.trans hself.symm)
  · refine ⟨hgone, rfl, .inl ⟨hstate, hkeys.mem_iff.mpr ?_⟩⟩
    exact Dict.mem_keys_iff.mpr ⟨state, hstate⟩

/-- However it was found out, the record keeps its configuration. -/
theorem answer_vanished (hw : Sound host w) (hstate : w.redis.get (stateKey t) = some state)
    (hrun : state.runningContainer = some id) (htruthy : state.configData.truthy = true)
    {v : World} (hvanished : Vanished host t id w v) :
    answer (toProvision t) v = .ok (some state.configData) := by
  have hw' : Sound host (w.vanished id) := hw.direct (show KeepsRedis (.vanish id) from trivial)
  have hgone : (w.vanished id).containers.get id = none := Dict.get_erase_self
  cases hvanished with
  | looked hmiss =>
    have hlook := look_turn (P := fun _ => True) host t hw'.redisWorks trivial
    cases hrun' : (getTenant t).run (w.vanished id) with
    | error e u => exact (hlook.error hrun').elim
    | ok r u =>
      obtain ⟨hturn, hlooking, -⟩ := hlook.ok hrun'
      rw [endState_of_ok hrun']
      have h : Gone t state id True (w.vanished id) := ⟨hgone, hmiss, .inl ⟨hstate, trivial⟩⟩
      exact (h.of_looking hw' hrun hlooking).answer (hw'.of_turn hturn) htruthy
  | restarted hkeys =>
    obtain ⟨hv, h⟩ := gone_of_restart hw' hkeys hgone hstate hrun
    exact h.answer hv htruthy

/-- Both ways lead to the same resumption where the file holds what the record holds. -/
theorem Sourced.alike_iff_configAt (hw : Sound host w) (h : Sourced host t w)
    (hstate : w.redis.get (stateKey t) = some state) (hrun : state.status = .running) :
    Alike host t w ↔ w.configAt host (configPath host t) = state.configData := by
  obtain ⟨hid, htruthy, -⟩ := h.running state hstate hrun
  obtain ⟨id, hid⟩ := Option.isSome_iff_exists.mp hid
  have hstopped := answer_stopped hw.recovered h.recovered rfl hstate hrun
  have hvanished {v : World} (hv : Vanished host t id w.recovered v) :=
    answer_vanished hw.recovered hstate (runningContainer_eq_some.mpr ⟨hrun, hid⟩) htruthy hv
  constructor
  · rintro ⟨d, hd, hall⟩
    -- a restart is one way to find out
    have hrestarted : Vanished host t id w.recovered
        (endState (restart host w.redis.keys) (w.recovered.vanished id)) :=
      .restarted (List.Perm.refl _)
    have heq := (hvanished hrestarted).symm.trans (hall state id _ hstate hid hrestarted)
    rw [hstopped] at hd
    exact (Option.some_inj.mp (Except.ok.inj hd)).trans
      (Option.some_inj.mp (Except.ok.inj heq)).symm
  · intro heq
    refine ⟨state.configData, hstopped.trans (by rw [← heq]; rfl), ?_⟩
    intro state' id' v hstate' hid' hv
    obtain rfl := Option.some_inj.mp (hstate.symm.trans hstate')
    obtain rfl := Option.some_inj.mp (hid.symm.trans hid')
    exact hvanished hv

/-- While the file holds the last good configuration, all depends on whether it is complete. -/
theorem Sourced.alike_iff_complete (hw : Sound host w) (h : Sourced host t w)
    (hstate : w.redis.get (stateKey t) = some state) (hrun : state.status = .running)
    (hfile : lastGood host t w.effects = some (w.configAt host (configPath host t))) :
    Alike host t w ↔ Complete host t (w.configAt host (configPath host t)) := by
  obtain ⟨-, -, good, env, hgood, hinject⟩ := h.running state hstate hrun
  obtain rfl := Option.some_inj.mp (hgood.symm.trans hfile)
  rw [h.alike_iff_configAt hw hstate hrun, ← injected_eq_self_iff hinject]
  exact eq_comm

theorem sourced_of_run (hfresh : Fresh w₀) (hworks : w₀.RedisWorks)
    (hops : (machine host w₀).AllSteps (fun _ op => KeepsRedis op) w₀ ops)
    (hrun : (machine host w₀).run ops = some w) : Sound host w ∧ Sourced host t w :=
  (keeps_sourced (P := fun _ => True)).of_run (fun _ _ hop => ⟨hop, fun _ _ => trivial⟩)
    (fun _ _ h => h.direct) (hfresh.sound hworks) hfresh.sourced hops hrun

/-- **How a tenant went down** does not matter exactly if the file already holds the last good
configuration with the injected entries. While it holds that configuration as it was written, this
is so exactly if nothing is left to inject. -/
theorem alike_iff (hfresh : Fresh w₀) (hworks : w₀.RedisWorks)
    (hops : (machine host w₀).AllSteps (fun _ op => KeepsRedis op) w₀ ops)
    (hrun : (machine host w₀).run ops = some w)
    (hstate : w.redis.get (stateKey t) = some state) (hstatus : state.status = .running) :
    (Alike host t w ↔ ∃ good env, lastGood host t w.effects = some good ∧
      injectEnv host t good = .ok (env, w.configAt host (configPath host t))) ∧
    (lastGood host t w.effects = some (w.configAt host (configPath host t)) →
      (Alike host t w ↔ Complete host t (w.configAt host (configPath host t)))) := by
  obtain ⟨hw, h⟩ := sourced_of_run (t := t) hfresh hworks hops hrun
  refine ⟨?_, h.alike_iff_complete hw hstate hstatus⟩
  rw [h.alike_iff_configAt hw hstate hstatus]
  obtain ⟨-, -, good, env, hgood, hinject⟩ := h.running state hstate hstatus
  constructor
  · exact fun hfile => ⟨good, env, hgood, by rw [hfile, hinject]⟩
  · rintro ⟨good', env', hgood', hinject'⟩
    obtain rfl := Option.some_inj.mp (hgood.symm.trans hgood')
    rw [hinject, Except.ok.injEq, Prod.mk.injEq] at hinject'
    exact hinject'.2.symm

/-- Tenants whose ids are file names have files of their own, so the configuration decides. -/
theorem alike_iff_of_fileNames (hfresh : Fresh w₀) (hworks : w₀.RedisWorks)
    (heffects : w₀.effects = []) (ht : PurePath.IsFileName t)
    (hops : (machine host w₀).AllSteps (fun _ op => KeepsRedis op ∧ FileNames op) w₀ ops)
    (hrun : (machine host w₀).run ops = some w)
    (hstate : w.redis.get (stateKey t) = some state) (hstatus : state.status = .running) :
    ∃ good, lastGood host t w.effects = some good ∧ (Alike host t w ↔ Complete host t good) := by
  obtain ⟨hw, hsafe⟩ := safe_of_run hfresh hworks heffects ht hops hrun
  obtain ⟨place, good, hplace, hgood, htext⟩ := hsafe.filed state hstate hstatus
  have hfile := configAt_eq hplace htext
  refine ⟨good, hgood, ?_⟩
  rw [hsafe.sourced.alike_iff_complete hw hstate hstatus (by rw [hgood, hfile]), hfile]

end Downtime

/-! ### An entry of the tenant's own -/

/-- A tenant without a `gateway.env`. -/
theorem alike_iff_noEnv : ∃ w,
    (machine sampleHost sampleWorld).run [.provision "alice" (.obj []) defaultImage] = some w ∧
      Alike sampleHost "alice" w := by
  have hcheck : ((machine sampleHost sampleWorld).run
      [.provision "alice" (.obj []) defaultImage]).bind (fun w =>
        (w.redis.get (stateKey "alice")).map fun state => decide (state.status = .running ∧
          lastGood sampleHost "alice" w.effects =
            some (w.configAt sampleHost (configPath sampleHost "alice")) ∧
          (((w.configAt sampleHost (configPath sampleHost "alice")).getD "gateway").getD
            "env").truthy = false)) = some true := by decide +kernel
  obtain ⟨w, hrun, hcheck⟩ := Option.bind_eq_some_iff.mp hcheck
  obtain ⟨state, hstate, hcheck⟩ := Option.map_eq_some_iff.mp hcheck
  obtain ⟨hstatus, hgood, henv⟩ := of_decide_eq_true hcheck
  have hcomplete : Complete sampleHost "alice"
      (w.configAt sampleHost (configPath sampleHost "alice")) := by
    intro htruthy
    simp [henv] at htruthy
  exact ⟨w, hrun, ((alike_iff sampleWorld_fresh sampleWorld_redisWorks (by decide) hrun hstate
    hstatus).2 hgood).mpr hcomplete⟩

/-- A configuration with an entry in `gateway.env`. -/
def withEntry : Json := .obj [("gateway", .obj [("env", .obj [("A", .str "1")])])]

/-- **A tenant that is resumed differently**: the record has the entries that were injected beside
the tenant's own, the file does not. -/
theorem resumed_differently : ∃ ops w state,
    ops = [.provision "alice" withEntry defaultImage] ∧
      (machine sampleHost sampleWorld).run ops = some w ∧ Fresh sampleWorld ∧
      sampleWorld.RedisWorks ∧ (∀ op ∈ ops, KeepsRedis op) ∧
      w.redis.get (stateKey "alice") = some state ∧ state.status = .running ∧
      ¬Alike sampleHost "alice" w := by
  have hcheck : ((machine sampleHost sampleWorld).run
      [.provision "alice" withEntry defaultImage]).bind (fun w =>
        (w.redis.get (stateKey "alice")).map fun state => decide (state.status = .running ∧
          w.configAt sampleHost (configPath sampleHost "alice") ≠ state.configData)) =
            some true := by decide +kernel
  obtain ⟨w, hrun, hcheck⟩ := Option.bind_eq_some_iff.mp hcheck
  obtain ⟨state, hstate, hcheck⟩ := Option.map_eq_some_iff.mp hcheck
  obtain ⟨hstatus, hne⟩ := of_decide_eq_true hcheck
  obtain ⟨hw, h⟩ := sourced_of_run (t := "alice") sampleWorld_fresh sampleWorld_redisWorks
    (by decide) hrun
  refine ⟨_, w, state, rfl, hrun, sampleWorld_fresh, sampleWorld_redisWorks, by decide, hstate,
    hstatus, ?_⟩
  exact mt (h.alike_iff_configAt hw hstate hstatus).mp hne

end Nanogate.Tenants
