import Nanogate.Tenants.System

/-!
# The workspace of a resumed tenant

`write_config` decides the directory that is mounted as the workspace from the very setting
that it then overwrites with the path inside the container. The overwritten configuration is
what is saved and what a tenant is resumed with, so every later start mounts the directory
`workspace` below the tenant's own, whatever was mounted first.

## Main definitions

* `MountsAt` — a host directory is mounted as the workspace
* `KeepsOwn` — the configuration asks for the tenant's own workspace directory
* `Like` — what a resumption may find in the file and in the record
* `Held` — the record and the file of a tenant that can be resumed

## Main results

* `like_written`, `like_saved` — what is written and what is saved resumes the configuration it
  was made of
* `held_of_run` — operations keep what is needed to resume
* `workspace_kept` — if the first configuration asks for the tenant's own directory, every
  resumption mounts what the first start mounted
* `workspace_lost` — a directory of the host is mounted once and never again
-/

namespace Nanogate.Tenants

open Nanogate.Python Nanogate.Semantics Relation

/-! ### Mounts -/

/-- The host directory that is mounted as the workspace. -/
def MountsAt (volumes : Dict String Bind) (path : String) : Prop :=
  ∃ b ∈ volumes.get path, b.bind = containerWorkspace

instance (volumes : Dict String Bind) (path : String) : Decidable (MountsAt volumes path) :=
  inferInstanceAs (Decidable (∃ b ∈ volumes.get path, b.bind = containerWorkspace))

/-- The tenant's own workspace directory. -/
def ownWorkspace (host : Host) (tenantId : String) : PurePath :=
  (tenantDir host tenantId).join "workspace"

/-- A configured directory is the one given, and takes its place among the volumes. -/
def Replaces (host : Host) (config : Json) (key : String) (dir : PurePath) : Prop :=
  ((config.getD "gateway").getD key).truthy = true ∧
    resolvePath host ((config.getD "gateway").getD key) = .ok dir

/-- What is mounted as the workspace for a tenant that has its own workspace directory. -/
def MountsOwn (host : Host) (tenantId : String) (config : Json) (path : String) : Prop :=
  path = (ownWorkspace host tenantId).toString ∧
    ¬Replaces host config "toolsDir" (ownWorkspace host tenantId) ∧
      ¬Replaces host config "scriptsDir" (ownWorkspace host tenantId)

section Mounts

variable {host : Host} {w : World} {config : Json} {key bind path : String}
  {volumes volumes' : Dict String Bind} {dir workspace : PurePath}

theorem mountsAt_baseVolumes :
    MountsAt (baseVolumes dir workspace) path ↔ path = workspace.toString := by
  unfold MountsAt baseVolumes
  rw [Dict.get_set, Dict.get_set]
  split_ifs with hworkspace hdir
  · simp [hworkspace]
  · simp [hworkspace, containerWorkspace]
  · simp [hworkspace]

/-- A configured directory replaces what was mounted from the same place. -/
theorem mountsAt_mounted (hbind : bind ≠ containerWorkspace)
    (h : mounted host w config key bind volumes = .ok volumes') :
    MountsAt volumes' path ↔ MountsAt volumes path ∧
      ¬∃ dir, Replaces host config key dir ∧ w.dirAt host dir = true ∧ dir.toString = path := by
  unfold mounted at h
  dsimp only at h
  unfold Replaces
  split_ifs at h with hset
  swap
  · obtain rfl := Except.ok.inj h
    simp [hset]
  cases hdir : resolvePath host ((config.getD "gateway").getD key) with
  | error e => simp [hdir] at h
  | ok dir =>
    simp only [hdir, Except.ok.injEq] at h
    simp only [hset, Except.ok.injEq, true_and, exists_eq_left']
    split_ifs at h with hat
    · subst h
      rw [MountsAt, Dict.get_set]
      split_ifs with hpath
      · simp [hat, hpath, hbind]
      · simp [MountsAt, hat, Ne.symm hpath]
    · subst h
      simp [hat]

/-- What a container mounts depends on the configuration alone: the workspace is a directory, and
so is what replaces it. -/
theorem mountsAt_volumesOf (hdir : w.dirAt host workspace = true)
    (h : volumesOf host w dir workspace config = .ok volumes) :
    MountsAt volumes path ↔ path = workspace.toString ∧
      ¬Replaces host config "toolsDir" workspace ∧
        ¬Replaces host config "scriptsDir" workspace := by
  unfold volumesOf at h
  cases htools : mounted host w config "toolsDir" "/app/tenant_tools"
      (baseVolumes dir workspace) with
  | error e => simp [htools] at h
  | ok middle =>
    simp only [htools] at h
    rw [mountsAt_mounted (by decide) h, mountsAt_mounted (by decide) htools, mountsAt_baseVolumes]
    have hreplaces {key : String} (hpath : path = workspace.toString) :
        (∃ q, Replaces host config key q ∧ w.dirAt host q = true ∧ q.toString = path) ↔
          Replaces host config key workspace := by
      constructor
      · rintro ⟨q, hq, -, hsame⟩
        exact PurePath.toString_inj (hsame.trans hpath) ▸ hq
      · exact fun hq => ⟨workspace, hq, hdir, hpath.symm⟩
    constructor
    · rintro ⟨⟨hpath, htools⟩, hscripts⟩
      exact ⟨hpath, fun hq => htools ((hreplaces hpath).mpr hq),
        fun hq => hscripts ((hreplaces hpath).mpr hq)⟩
    · rintro ⟨hpath, htools, hscripts⟩
      exact ⟨⟨hpath, fun hq => htools ((hreplaces hpath).mp hq)⟩,
        fun hq => hscripts ((hreplaces hpath).mp hq)⟩

end Mounts

/-! ### Configurations that are resumed -/

/-- The workspace that a configuration asks for is the tenant's own. -/
def KeepsOwn (host : Host) (tenantId : String) (config : Json) : Prop :=
  ∀ written setting, mergeSettings config = .ok (written, setting) →
    hostWorkspace host (tenantDir host tenantId) setting = .ok (ownWorkspace host tenantId)

/-- A configuration that resumes `config`: it has the workspace of the container and the same
directories to mount. -/
structure Like (config v : Json) : Prop where
  truthy : v.truthy = true
  workspace : workspaceSetting v = .str containerWorkspace
  tools : (v.getD "gateway").getD "toolsDir" = (config.getD "gateway").getD "toolsDir"
  scripts : (v.getD "gateway").getD "scriptsDir" = (config.getD "gateway").getD "scriptsDir"

section Configurations

variable {host : Host} {tenantId : String} {config c written setting environment saved : Json}
  {workspace : PurePath}

theorem Like.trans (h : Like c written) (h' : Like config c) : Like config written :=
  ⟨h.truthy, h.workspace, h.tools.trans h'.tools, h.scripts.trans h'.scripts⟩

/-- What is written resumes what it was made of. -/
theorem like_written (h : mergeSettings config = .ok (written, setting)) : Like config written := by
  obtain ⟨gateway, agents, defaults, hgateway, -, -, -, rfl⟩ := mergeSettings_eq_ok h
  refine ⟨Json.truthy_set, ?_, ?_, ?_⟩
  · simp [workspaceSetting]
  · rw [Json.getD_set_of_ne (by decide), Json.getD_set_self, Json.getD_set_of_ne (by decide),
      getD_sectionOf hgateway]
  · rw [Json.getD_set_of_ne (by decide), Json.getD_set_self, Json.getD_set_of_ne (by decide),
      getD_sectionOf hgateway]

/-- Merging finds the workspace that the configuration has. -/
theorem setting_eq (h : mergeSettings config = .ok (written, setting)) :
    setting = workspaceSetting config := by
  obtain ⟨gateway, agents, defaults, -, hagents, hdefaults, rfl, -⟩ := mergeSettings_eq_ok h
  rw [getD_sectionOf hdefaults, getD_sectionOf hagents, Json.getD_set_of_ne (by decide),
    workspaceSetting]

/-- What a resumption writes, it writes for the tenant's own workspace. -/
theorem Like.keepsOwn (h : Like config c) : KeepsOwn host tenantId c := by
  intro written setting hmerge
  rw [setting_eq hmerge, h.workspace, hostWorkspace, if_neg (by decide)]
  rfl

/-- What is saved resumes what was written. -/
theorem like_saved (h : Like config written)
    (hinject : injectEnv host tenantId written = .ok (environment, saved)) : Like config saved := by
  rcases injectEnv_saved hinject with rfl | rfl
  · exact h
  refine ⟨Json.truthy_set, ?_, ?_, ?_⟩
  · rw [workspaceSetting, Json.getD_set_of_ne (by decide)]
    exact h.workspace
  · rw [Json.getD_set_self, Json.getD_set_of_ne (by decide), h.tools]
  · rw [Json.getD_set_self, Json.getD_set_of_ne (by decide), h.scripts]

theorem Replaces.congr {key : String} {dir : PurePath}
    (h : (c.getD "gateway").getD key = (config.getD "gateway").getD key) :
    Replaces host c key dir ↔ Replaces host config key dir := by
  rw [Replaces, Replaces, h]

/-- A provisioning for the own workspace mounts it, unless a configured directory replaces it. -/
theorem mountsOwn_of_prepared {w : World} {volumes : Dict String Bind}
    (hkeeps : KeepsOwn host tenantId c) (hlike : Like config written)
    (hprepared : Prepared host tenantId c written workspace environment saved)
    (hdir : w.dirAt host workspace = true)
    (hvolumes : volumesOf host w (tenantDir host tenantId) workspace saved = .ok volumes)
    (path : String) : MountsAt volumes path ↔ MountsOwn host tenantId config path := by
  obtain ⟨⟨setting, hmerge, hworkspace⟩, hinject⟩ := hprepared
  obtain rfl := Except.ok.inj (hworkspace.symm.trans (hkeeps _ _ hmerge))
  have hsaved := like_saved hlike hinject
  rw [mountsAt_volumesOf hdir hvolumes, Replaces.congr hsaved.tools, Replaces.congr hsaved.scripts]
  rfl

end Configurations

/-! ### What is kept between resumptions -/

/-- A container of the tenant mounts its own workspace, unless a configured directory replaces
it. -/
def RunsOwn (host : Host) (tenantId : String) (config : Json) : Effect → Prop
  | .run _ c _ => c.name = containerName tenantId →
      ∀ path, MountsAt c.volumes path ↔ MountsOwn host tenantId config path
  | _ => True

/-- The record and the file of the tenant resume `config`, and all containers started since
`start` mount what it asks for. -/
structure Held (host : Host) (tenantId : String) (config : Json) (start w : World) : Prop where
  redis : w.RedisWorks
  record : ∃ state, w.redis.get (stateKey tenantId) = some state ∧ Like config state.configData
  file : ∀ place ∈ configPlace host tenantId, ∀ v,
    w.fs.text place = some (.json v) → Like config v
  runs : Adds (RunsOwn host tenantId config) start w

/-- A job that does not disturb the tenant: it provisions the tenant with a configuration that
resumes `config`, or a tenant whose file is elsewhere. -/
def Fits (host : Host) (tenantId : String) (config : Json) (t : String) (c : Option Json) : Prop :=
  ∀ v, c = some v → if t = tenantId then Like config v else
    ∀ place ∈ configPlace host t,
      configPlace host tenantId ≠ some place

section Resuming

variable {host : Host} {w w₀ w' start : World} {tenantId t : String} {config : Json}
  {c : Option Json} {state : TenantState}

/-- A record that a method saves for the tenant resumes `config`. -/
theorem Held.like_of_saves (h : Held host tenantId config start w) (hworks : w₀.RedisWorks)
    (hfits : Fits host tenantId config tenantId c)
    (hknown : ∀ tc, Known tenantId w₀ tc → Belongs host w tenantId tc)
    (hsaves : Saves host tenantId c w₀ w state) : Like config state.configData := by
  obtain ⟨state', hstate', hlike⟩ := h.record
  have hold {s : TenantState} (hs : w.redis.get (stateKey tenantId) = some s) :
      Like config s.configData := Option.some_inj.mp (hstate'.symm.trans hs) ▸ hlike
  cases hsaves with
  | missing hs | touched hs _ =>
    have := hold hs
    exact this
  | stopped hk hkept =>
    cases hkept with
    | file hdir hplace htext _ =>
      obtain rfl := Option.some_inj.mp (hdir.symm.trans (hknown _ hk).configDir_eq)
      exact h.file _ hplace _ htext
    | record hs =>
      have := hold hs
      exact this
    -- Redis works, so the record was found
    | empty hnone => simp [hnone hworks] at hstate'
  | provisioned hc _ _ hprepared =>
    have hlike := hfits _ hc
    rw [if_pos rfl] at hlike
    obtain ⟨⟨setting, hmerge, -⟩, hinject⟩ := hprepared
    exact like_saved ((like_written hmerge).trans hlike) hinject

/-- What is held is about Redis, the files and the effects. -/
theorem Held.congr (h : Held host tenantId config start w) (hworks : w'.RedisWorks)
    (hredis : w'.redis = w.redis) (hfs : w'.fs = w.fs) (heffects : w'.effects = w.effects) :
    Held host tenantId config start w' :=
  ⟨hworks, hredis ▸ h.record, hfs ▸ h.file, h.runs.of_eq heffects⟩

theorem Held.of_same (h : Held host tenantId config start w) (hsame : Same w w') :
    Held host tenantId config start w' :=
  h.congr (hsame.redisWorks h.redis) hsame.redis_eq hsame.fs_eq hsame.effects_eq

theorem Held.of_change (hfits : Fits host tenantId config t c) (hw₀ : w₀.RedisWorks)
    (hstep : Change host t c w₀ w w') (hw : Coherent host w)
    (hknown : ∀ tc, Known t w₀ tc → Belongs host w t tc) (h : Held host tenantId config start w) :
    Held host tenantId config start w' := by
  have hredis : w'.RedisWorks := hstep.redisWorks h.redis
  have ⟨_, hrecord, hfile, hruns⟩ := h
  cases hstep with
  | same hsame => exact h.of_same hsame
  | save hsaves =>
    refine ⟨hredis, ?_, hfile, hruns.snoc rfl trivial⟩
    have ht := (hw.record_of_saves hknown hsaves).1
    -- the record of the tenant stays like the configuration, and others are not touched
    by_cases heq : t = tenantId
    · subst heq
      refine ⟨_, ?_, h.like_of_saves hw₀ hfits hknown hsaves⟩
      rw [World.put, ht, Dict.get_set_self]
    · obtain ⟨state, hstate, hlike⟩ := hrecord
      refine ⟨state, ?_, hlike⟩
      rw [World.put, ht, Dict.get_set_of_ne fun hkey => heq (stateKey_inj.mp hkey).symm, hstate]
  | stop | remove => exact ⟨hredis, hrecord, hfile, hruns.snoc rfl trivial⟩
  | mkdir hmake =>
    exact ⟨hredis, hrecord, fun place hplace v hv => hfile place hplace v
      ((Fs.text_makeDirs hmake).symm.trans hv), hruns⟩
  | write hc hplace hmerge _ hwrite =>
    refine ⟨hredis, hrecord, fun k hk v hv => ?_, hruns.snoc rfl trivial⟩
    have hfits := hfits _ hc
    rw [Fs.text_writeFile hwrite] at hv
    split_ifs at hv hfits with hsame heq
    · obtain rfl := FileText.json.inj (Option.some_inj.mp hv)
      exact (like_written hmerge).trans hfits
    -- the file of another tenant is elsewhere
    · exact absurd (hsame ▸ hk) (hfits _ hplace)
    · exact hfile k hk v hv
    · exact hfile k hk v hv
  | run hc hprepared hdir hvolumes =>
    refine ⟨hredis, hrecord, hfile, hruns.snoc rfl fun hname => ?_⟩
    -- a container that gets the tenant's name is the tenant's
    obtain rfl := containerName_inj.mp hname
    have hlike := hfits _ hc
    rw [if_pos rfl] at hlike
    obtain ⟨setting, hmerge, -⟩ := hprepared.merged
    exact mountsOwn_of_prepared hlike.keepsOwn ((like_written hmerge).trans hlike) hprepared hdir
      hvolumes
  | _ => exact h.congr hredis rfl rfl rfl

/-- A method that provisions nothing keeps what is held. -/
theorem Held.of_method (h : Held host tenantId config start w) (hw : Coherent host w)
    (hR : ReflTransGen (Change host t none w) w w') : Held host tenantId config start w' :=
  (kept_of_method hw (fun _ _ hstep hu hknown =>
    Held.of_change (fun _ hc => absurd hc (by simp)) h.redis hstep hu hknown) hR h).2

end Resuming

/-! ### Runs -/

/-- The tenant is provisioned by `get_or_create` only, no other tenant has its file, and Redis
works. -/
def Resumes (host : Host) (tenantId : String) : Op → Prop
  | .provision t _ _ => configPlace host t ≠ configPlace host tenantId
  | .getOrCreate t => t = tenantId ∨ configPlace host t ≠ configPlace host tenantId
  | .fail redis _ _ => redis = []
  | _ => True

section Runs

variable {host : Host} {w w₁ w₂ w' start : World} {tenantId t : String} {config : Json}
  {c : Option Json} {op : Op} {ops : List Op}

instance : (op : Op) → Decidable (Resumes host tenantId op)
  | .provision t _ _ => inferInstanceAs (Decidable (configPlace host t ≠ configPlace host tenantId))
  | .getOrCreate t =>
    inferInstanceAs (Decidable (t = tenantId ∨ configPlace host t ≠ configPlace host tenantId))
  | .fail redis _ _ => inferInstanceAs (Decidable (redis = []))
  | .getTenant _ | .touch _ | .stop _ | .prune _ | .restart _ | .shutdown | .pass _ | .vanish _
  | .listen _ => inferInstanceAs (Decidable True)

theorem fits_of_elsewhere (h : configPlace host t ≠ configPlace host tenantId) :
    Fits host tenantId config t c := by
  intro v _
  rw [if_neg fun heq : t = tenantId => h (heq ▸ rfl)]
  intro place hplace hsame
  exact h (hplace.trans hsame.symm)

/-- What `get_or_create` resumes with is the configuration of the record. -/
theorem Held.resumes (h : Held host tenantId config start w) {saved : Option Json}
    (hsaved : (getSavedState tenantId).run w = .ok saved w.asked) :
    Like config (saved.getD (.obj [])) := by
  obtain ⟨state, hstate, hlike⟩ := h.record
  rw [getSavedState_run, if_pos h.redis.answers, hstate, Option.map_some,
    Option.filter_some, if_pos hlike.truthy] at hsaved
  injection hsaved with hsaved
  exact hsaved ▸ hlike

/-- No job of an operation that resumes disturbs the tenant. -/
theorem Held.fits_of_jobs (h : Held host tenantId config start w) (hw : Coherent host w)
    (hop : Resumes host tenantId op) (hjob : Jobs host w op t c) :
    Fits host tenantId config t c := by
  have hnone {t : String} : Fits host tenantId config t none := fun _ hv => absurd hv (by simp)
  cases op with
  | provision t' c' image =>
    obtain ⟨rfl, rfl⟩ := hjob
    exact fits_of_elsewhere hop
  | getOrCreate t' =>
    obtain ⟨rfl, rfl | ⟨u, saved, hsteps, hsaved, rfl⟩⟩ := hjob
    · exact hnone
    rcases hop with rfl | helsewhere
    · rintro v ⟨⟩
      rw [if_pos rfl]
      exact (h.of_method hw hsteps).resumes hsaved
    · exact fits_of_elsewhere helsewhere
  | getTenant | touch | stop | prune | restart | shutdown =>
    obtain ⟨-, rfl⟩ := hjob
    exact hnone
  | pass | vanish | listen | fail => exact hjob.elim

theorem Resumes.redisWorks_direct {redis : Bool} (hop : Resumes host tenantId op)
    (hredis : w.RedisWorks → redis = true) (hw : w.RedisWorks) :
    (direct redis w op).RedisWorks := by
  refine Tenants.redisWorks_direct hredis ?_ hw
  cases op with
  | fail => exact hop
  | _ => trivial

theorem Held.direct {redis : Bool} (h : Held host tenantId config start w)
    (hworks : (direct redis w op).RedisWorks) :
    Held host tenantId config start (direct redis w op) := by
  cases op with
  | _ => exact h.congr hworks rfl rfl rfl

theorem held_of_step (hop : Resumes host tenantId op)
    (hstep : (machine host w₁).step w op = some w') (hnamed : WellNamed w)
    (h : Coherent host w ∧ Held host tenantId config start w) :
    Coherent host w' ∧ Held host tenantId config start w' := by
  obtain ⟨hw, hheld⟩ := h
  obtain ⟨hen, rfl⟩ := step_eq_some hstep
  obtain ⟨redis, hredis, hwork⟩ := program_reaches host w (hnamed.readsBack hen)
  have hdirect := hheld.direct (hop.redisWorks_direct hredis hheld.redis)
  refine kept_of_work (fun _ _ hsame hu => hu.of_same hsame)
    (fun _ _ hu => hu.congr hu.redis rfl rfl rfl) ?_ hwork hw.direct hdirect
  intro t c u v v' hjob _ hu hchange hv hknown
  exact Held.of_change (hheld.fits_of_jobs hw hop hjob) hu.redis hchange hv hknown

theorem held_of_run (hnamed : WellNamed w)
    (h : Coherent host w ∧ Held host tenantId config start w)
    (hops : ∀ op ∈ ops, Resumes host tenantId op)
    (hrun : (machine host w₁).runFrom w ops = some w') :
    Coherent host w' ∧ Held host tenantId config start w' := by
  refine (Machine.run_invariant (I := fun w => WellNamed w ∧ Coherent host w ∧
    Held host tenantId config start w) ?_ ⟨hnamed, h⟩ (Machine.AllSteps.of_labels hops) hrun).2
  rintro u op v ⟨hnamed, hu⟩ hop hstep
  exact ⟨wellNamed_of_step hu.1 hnamed hstep, held_of_step hop hstep hnamed hu⟩

/-! ### The first start -/

/-- What is run for the own workspace. -/
theorem runsOwn_of_change (hkeeps : KeepsOwn host tenantId config)
    (hstep : Change host tenantId (some config) w₁ w w')
    (h : Adds (RunsOwn host tenantId config) start w) :
    Adds (RunsOwn host tenantId config) start w' := by
  cases hstep with
  | same hsame => exact h.of_eq hsame.effects_eq
  | save | stop | remove | write => exact h.snoc rfl trivial
  | run hc hprepared hdir hvolumes =>
    obtain rfl := Option.some_inj.mp hc
    obtain ⟨setting, hmerge, -⟩ := hprepared.merged
    exact h.snoc rfl fun _ =>
      mountsOwn_of_prepared hkeeps (like_written hmerge) hprepared hdir hvolumes
  | _ => exact h

/-- A provisioning that returned leaves a file and a record to resume from. -/
theorem held_of_provision {image : String} {tc : TenantContainer} (hw : Coherent host w)
    (hredis : w.RedisWorks)
    (hrun : (provisionTenant host tenantId config image).run w = .ok tc w') :
    Coherent host w' ∧ Held host tenantId config w' w' := by
  obtain ⟨hsteps, hdone⟩ := provisionTenant_does.ok hrun
  obtain ⟨saved, ⟨workspace, written, environment, hprepared, hwritten⟩, hrecorded⟩ := hdone hredis
  obtain ⟨setting, hmerge, -⟩ := hprepared.merged
  obtain ⟨state, hstate, rfl, -⟩ := hrecorded
  refine ⟨coherent_of_work (.single (.method (J := fun _ _ => True) _ trivial hsteps)) hw,
    redisWorks_of_reaches hsteps hredis, ⟨state, hstate, like_saved (like_written hmerge)
      hprepared.injected⟩, ?_, .refl _ _⟩
  obtain ⟨place, hplace, htext⟩ := hwritten.text
  intro k hk v hv
  obtain rfl := Option.some_inj.mp (hplace.symm.trans hk)
  obtain rfl := FileText.json.inj (Option.some_inj.mp (htext.symm.trans hv))
  exact like_written hmerge

/-- The volumes of the containers of a tenant that were started from `w` to `w'`. -/
def started (tenantId : String) (w w' : World) : List (Dict String Bind) :=
  (w.effectsSince w').filterMap fun
    | .run _ c _ => if c.name = containerName tenantId then some c.volumes else none
    | _ => none

theorem mountsAt_of_started {volumes : Dict String Bind}
    (h : Adds (RunsOwn host tenantId config) w w') (hvolumes : volumes ∈ started tenantId w w')
    (path : String) : MountsAt volumes path ↔ MountsOwn host tenantId config path := by
  obtain ⟨e, he, hvolumes⟩ := List.mem_filterMap.mp hvolumes
  have hrun := h.of_mem_effectsSince he
  cases e with
  | run id c saved =>
    dsimp only at hvolumes
    split_ifs at hvolumes with hname
    obtain rfl := Option.some_inj.mp hvolumes
    exact hrun hname path
  | _ => simp at hvolumes

/-- **A resumed tenant keeps its own workspace.** If the first configuration asks for the
directory below the tenant's own, then every later start by `get_or_create` mounts what the first
one mounted. -/
theorem workspace_kept (host : Host) (tenantId image : String) (config : Json) (w₀ w w₁ w₂ : World)
    (tc : TenantContainer) (before after : List Op) (hfresh : Fresh w₀)
    (hrun : (machine host w₀).run before = some w)
    (hredis : w.RedisWorks) (hkeeps : KeepsOwn host tenantId config)
    (hfirst : (provisionTenant host tenantId config image).run w = .ok tc w₁)
    (hafter : ∀ op ∈ after, Resumes host tenantId op)
    (hresumed : (machine host w₁).run after = some w₂) :
    ∀ volumes ∈ started tenantId w w₁, ∀ volumes' ∈ started tenantId w₁ w₂, ∀ path,
      MountsAt volumes' path ↔ MountsAt volumes path := by
  obtain ⟨hw, hnamed⟩ := hfresh.coherent_of_run hrun
  have hnamed₁ : WellNamed w₁ :=
    kept_of_reaches (fun _ _ => hnamed.of_change) (provisionTenant_does.ok hfirst).1 hnamed
  have hown : Adds (RunsOwn host tenantId config) w w₁ :=
    kept_of_reaches (fun _ _ => runsOwn_of_change hkeeps) (provisionTenant_does.ok hfirst).1
      (.refl _ _)
  obtain ⟨-, hheld⟩ := held_of_run hnamed₁ (held_of_provision hw hredis hfirst) hafter hresumed
  intro volumes hvolumes volumes' hvolumes' path
  rw [mountsAt_of_started hheld.runs hvolumes', mountsAt_of_started hown hvolumes]

end Runs

/-- A configuration that asks for a workspace. -/
def withWorkspace (path : String) : Json :=
  .obj [("agents", .obj [("defaults", .obj [("workspace", .str path)])])]

/-- The tenant is stopped by the pruner, and is asked for again. -/
def resuming : List Op :=
  [.pass 2000000000, .prune [stateKey "alice"], .getOrCreate "alice"]

theorem workspace_kept_afterPrune : ∃ tc w₁ w₂,
    (provisionTenant sampleHost "alice" (withWorkspace "/root/ws") defaultImage).run sampleWorld =
        .ok tc w₁ ∧ (machine sampleHost w₁).run resuming = some w₂ ∧
      (started "alice" sampleWorld w₁).length = 1 ∧ (started "alice" w₁ w₂).length = 1 ∧
      ∀ volumes ∈ started "alice" sampleWorld w₁, ∀ volumes' ∈ started "alice" w₁ w₂, ∀ path,
        MountsAt volumes' path ↔ MountsAt volumes path := by
  have hcheck : returns (provisionTenant sampleHost "alice" (withWorkspace "/root/ws") defaultImage)
      sampleWorld (fun _ w₁ => ((machine sampleHost w₁).run resuming).any fun w₂ =>
        (started "alice" sampleWorld w₁).length = 1 ∧ (started "alice" w₁ w₂).length = 1) =
      true := by
    decide +kernel
  obtain ⟨tc, w₁, hfirst, hcheck⟩ := exists_of_returns hcheck
  obtain ⟨w₂, hresumed, hcheck⟩ := (Option.any_eq_true _ _).mp hcheck
  obtain ⟨hone, hone'⟩ := of_decide_eq_true hcheck
  refine ⟨tc, w₁, w₂, hfirst, hresumed, hone, hone', ?_⟩
  refine workspace_kept sampleHost "alice" defaultImage (withWorkspace "/root/ws") sampleWorld
    sampleWorld w₁ w₂ tc [] resuming sampleWorld_fresh rfl sampleWorld_redisWorks ?_
    hfirst (by decide) hresumed
  intro written setting hmerge
  rw [setting_eq hmerge]
  decide

/-- **A workspace of the host is mounted once**: the next start mounts the directory below the
tenant's own. -/
theorem workspace_lost : ∃ tc w₁ w₂,
    (provisionTenant sampleHost "alice" (withWorkspace "/data/ws") defaultImage).run sampleWorld =
        .ok tc w₁ ∧ (machine sampleHost w₁).run resuming = some w₂ ∧
      ∃ volumes ∈ started "alice" sampleWorld w₁, ∃ volumes' ∈ started "alice" w₁ w₂,
        MountsAt volumes "/data/ws" ∧ ¬MountsAt volumes' "/data/ws" := by
  have hcheck : returns (provisionTenant sampleHost "alice" (withWorkspace "/data/ws") defaultImage)
      sampleWorld (fun _ w₁ => ((machine sampleHost w₁).run resuming).any fun w₂ =>
        (started "alice" sampleWorld w₁).any fun volumes =>
          (started "alice" w₁ w₂).any fun volumes' =>
            MountsAt volumes "/data/ws" ∧ ¬MountsAt volumes' "/data/ws") = true := by
    decide +kernel
  obtain ⟨tc, w₁, hfirst, hcheck⟩ := exists_of_returns hcheck
  simp only [Option.any_eq_true, List.any_eq_true] at hcheck
  obtain ⟨w₂, hresumed, volumes, hvolumes, volumes', hvolumes', hmounts⟩ := hcheck
  exact ⟨tc, w₁, w₂, hfirst, hresumed, volumes, hvolumes, volumes', hvolumes',
    of_decide_eq_true hmounts⟩

end Nanogate.Tenants
