import Nanogate.Tenants.Failures

/-!
# Whose configuration it is

A configuration holds keys and other secrets of its tenant. The gateway keeps it in three places,
the record, the file and the environment of the container, reads it back from two of them and
starts the tenant from it again, after any number of stops, restarts and failures. For tenants
whose ids are file names nothing crosses over: what is written for a tenant always derives from
what was posted for that tenant.

## Main definitions

* `Owned` — the configurations that the manager makes of what was posted for a tenant
* `Effect.Owned` — what a write carries is the tenant's whom it is for
* `Owning` — every record and every file holds a configuration of its tenant

## Main results

* `Owning.of_change` — a change made for a tenant with a configuration of its own keeps that
* `owned_of_run` — in every run every write is owned
-/

namespace Nanogate.Tenants

open Nanogate.Python Nanogate.Semantics Relation

/-! ### Configurations of a tenant -/

/-- The configurations that derive from those posted for a tenant: the empty one that an unknown
tenant starts with, and what `write_config` and the injection into `gateway.env` make of one. -/
inductive Owned (host : Host) (posted : String → Json → Prop) (t : String) : Json → Prop
  | posted {c : Json} (h : posted t c) : Owned host posted t c
  | empty : Owned host posted t (.obj [])
  | merged {c written setting : Json} (h : Owned host posted t c)
      (hmerge : mergeSettings c = .ok (written, setting)) : Owned host posted t written
  | injected {written environment saved : Json} (h : Owned host posted t written)
      (hinject : injectEnv host t written = .ok (environment, saved)) : Owned host posted t saved

/-- The environment and the configuration of a container that was started for a tenant. -/
def Launched (host : Host) (posted : String → Json → Prop) (t : String)
    (environment saved : Json) : Prop :=
  ∃ written, Owned host posted t written ∧ injectEnv host t written = .ok (environment, saved)

/-- What a write carries is the tenant's whom it is for. -/
def Effect.Owned (host : Host) (posted : String → Json → Prop) : Effect → Prop
  | .redisSet key state => ∀ t, key = stateKey t → Tenants.Owned host posted t state.configData
  | .writeText path (.json v) => ∀ t, PurePath.IsFileName t → path = configPath host t →
      Tenants.Owned host posted t v
  | .run _ container saved => ∀ t, container.name = containerName t →
      Launched host posted t container.environment saved
  | _ => True

/-- Every record and every file holds a configuration of its tenant, and only tenants whose ids
are file names are known. -/
structure Owning (host : Host) (posted : String → Json → Prop) (w : World) : Prop where
  entry : ∀ t tc, w.tenants.get t = some tc → PurePath.IsFileName t
  record : ∀ t state, w.redis.get (stateKey t) = some state →
    PurePath.IsFileName t ∧ Owned host posted t state.configData
  file : ∀ t place v, PurePath.IsFileName t → configPlace host t = some place →
    w.fs.text place = some (.json v) → Owned host posted t v

section Changes

variable {host : Host} {posted : String → Json → Prop} {w w₀ w' start : World} {t tenantId : String}
  {config : Option Json} {c v : Json} {tc : TenantContainer} {state : TenantState}

theorem Launched.owned {environment saved : Json} (h : Launched host posted t environment saved) :
    Owned host posted t saved := by
  obtain ⟨written, hwritten, hinject⟩ := h
  exact hwritten.injected hinject

theorem launched_of_prepared {written environment saved : Json} {workspace : PurePath}
    (h : Owned host posted t c)
    (hprepared : Prepared host t c written workspace environment saved) :
    Launched host posted t environment saved := by
  obtain ⟨setting, hmerge, -⟩ := hprepared.merged
  exact ⟨written, h.merged hmerge, hprepared.injected⟩

/-- Paths of files that are named by their tenants are told apart. -/
theorem configPath_inj {t' : String} (ht : PurePath.IsFileName t) (ht' : PurePath.IsFileName t')
    (h : configPath host t = configPath host t') (hplace : (configPlace host t).isSome = true) :
    t = t' := by
  obtain ⟨place, hplace⟩ := Option.isSome_iff_exists.mp hplace
  by_contra hne
  refine configPlace_ne ht ht' (Ne.symm hne) hplace ?_
  rw [configPlace, ← h]
  exact hplace

theorem Owning.congr (h : Owning host posted w) (htenants : w'.tenants = w.tenants)
    (hredis : w'.redis = w.redis)
    (htext : ∀ place v, w'.fs.text place = some (.json v) → w.fs.text place = some (.json v)) :
    Owning host posted w' :=
  ⟨htenants ▸ h.entry, hredis ▸ h.record,
    fun t place v ht hplace hv => h.file t place v ht hplace (htext place v hv)⟩

/-- A tenant whose container is known is known. -/
theorem Owning.isFileName_of_known (h : Owning host posted w) (hknown : Known tenantId w tc) :
    PurePath.IsFileName tenantId := by
  cases hknown with
  | entry hentry => exact h.entry _ _ hentry
  | record hstate => exact (h.record _ _ hstate).1

/-- What is kept for a container that is stopped is its tenant's. -/
theorem Owning.owned_of_kept (h : Owning host posted w) (ht : PurePath.IsFileName tenantId)
    (hdir : tc.configDir = some (tenantDir host tenantId))
    (hkept : Kept host tenantId w₀ w tc v) : Owned host posted tenantId v := by
  cases hkept with
  | file hdir' hplace htext =>
    obtain rfl := Option.some_inj.mp (hdir.symm.trans hdir')
    exact h.file tenantId _ v ht hplace htext
  | record hstate => exact (h.record _ _ hstate).2
  | empty => exact .empty

/-- What a method saves for its tenant is the tenant's. -/
theorem Owning.owned_of_saves (h : Owning host posted w) (h₀ : Owning host posted w₀)
    (hw : Coherent host w) (hknown : ∀ tc, Known tenantId w₀ tc → Belongs host w tenantId tc)
    (hconfig : ∀ c, config = some c → PurePath.IsFileName tenantId ∧ Owned host posted tenantId c)
    (hsaves : Saves host tenantId config w₀ w state) :
    state.tenantId = tenantId ∧ PurePath.IsFileName tenantId ∧
      Owned host posted tenantId state.configData := by
  cases hsaves with
  | missing hstate | touched hstate =>
    obtain ⟨ht, howned⟩ := h.record _ _ hstate
    exact ⟨(hw.record _ _ hstate).1, ht, howned⟩
  | stopped hk hkept =>
    have ht := h₀.isFileName_of_known hk
    exact ⟨rfl, ht, h.owned_of_kept ht (hknown _ hk).configDir_eq hkept⟩
  | provisioned hc _ _ hprepared =>
    obtain ⟨ht, howned⟩ := hconfig _ hc
    exact ⟨rfl, ht, (launched_of_prepared howned hprepared).owned⟩

/-- **Step.** A change made for a tenant, with a configuration of the tenant if there is one, keeps
every configuration where it belongs, and what it writes is owned. -/
theorem Owning.of_change (h₀ : Owning host posted w₀) (hw : Coherent host w)
    (hknown : ∀ tc, Known tenantId w₀ tc → Belongs host w tenantId tc)
    (hconfig : ∀ c, config = some c → PurePath.IsFileName tenantId ∧ Owned host posted tenantId c)
    (hstep : Change host tenantId config w₀ w w')
    (h : Owning host posted w ∧ Adds (Effect.Owned host posted) start w) :
    Owning host posted w' ∧ Adds (Effect.Owned host posted) start w' := by
  obtain ⟨h, hadds⟩ := h
  have hset : PurePath.IsFileName tenantId → ∀ tc t tc',
      (w.tenants.set tenantId tc).get t = some tc' → PurePath.IsFileName t := by
    intro ht tc t tc' hget
    rw [Dict.get_set] at hget
    split_ifs at hget with heq
    · exact heq ▸ ht
    · exact h.entry t tc' hget
  cases hstep with
  | same hsame =>
    exact ⟨h.congr hsame.tenants_eq hsame.redis_eq fun _ _ hv => hsame.fs_eq ▸ hv,
      hadds.of_eq hsame.effects_eq⟩
  | uncache =>
    refine ⟨⟨fun t tc htc => ?_, h.record, h.file⟩, hadds.of_eq rfl⟩
    rw [Dict.get_erase] at htc
    split_ifs at htc
    exact h.entry t tc htc
  | refresh hget => exact ⟨⟨hset (h.entry _ _ hget) _, h.record, h.file⟩, hadds.of_eq rfl⟩
  | restore hstate => exact ⟨⟨hset (h.record _ _ hstate).1 _, h.record, h.file⟩, hadds.of_eq rfl⟩
  | provisioned hc => exact ⟨⟨hset (hconfig _ hc).1 _, h.record, h.file⟩, hadds.of_eq rfl⟩
  | save hsaves =>
    obtain ⟨htenant, ht, howned⟩ := h.owned_of_saves h₀ hw hknown hconfig hsaves
    refine ⟨⟨h.entry, fun t' state' hget => ?_, h.file⟩, hadds.snoc rfl fun t' hkey => ?_⟩
    · rw [World.put, Dict.get_set, htenant] at hget
      split_ifs at hget with heq
      · obtain rfl := stateKey_inj.mp heq
        exact Option.some_inj.mp hget ▸ ⟨ht, howned⟩
      · exact h.record t' state' hget
    · rw [htenant, stateKey_inj] at hkey
      exact hkey ▸ howned
  | stop | remove => exact ⟨⟨h.entry, h.record, h.file⟩, hadds.snoc rfl trivial⟩
  | build => exact ⟨⟨h.entry, h.record, h.file⟩, hadds.of_eq rfl⟩
  | mkdir hmk =>
    exact ⟨h.congr rfl rfl fun _ _ hv => (Fs.text_makeDirs hmk).symm.trans hv, hadds.of_eq rfl⟩
  | @write c place _ written _ hc hplace hmerge _ hwrite =>
    obtain ⟨ht, howned⟩ := hconfig _ hc
    refine ⟨⟨h.entry, h.record, fun t' place' v ht' hplace' hv => ?_⟩,
      hadds.snoc rfl fun t' ht' hpath => ?_⟩
    · rw [Fs.text_writeFile hwrite] at hv
      split_ifs at hv with heq
      · -- only the tenant's own file is where it is
        obtain rfl : tenantId = t' := by
          by_contra hne
          exact configPlace_ne ht' ht hne hplace' (heq ▸ hplace)
        have hvalue : v = written := by simpa using hv.symm
        exact hvalue ▸ howned.merged hmerge
      · exact h.file t' place' v ht' hplace' hv
    · have hsome : (configPlace host tenantId).isSome = true := by
        rw [configPlace, hplace]
        rfl
      exact configPath_inj ht ht' hpath hsome ▸ howned.merged hmerge
  | run hc hprepared =>
    obtain ⟨-, howned⟩ := hconfig _ hc
    refine ⟨⟨h.entry, h.record, h.file⟩, hadds.snoc rfl fun t' hname => ?_⟩
    obtain rfl := containerName_inj.mp hname
    exact launched_of_prepared howned hprepared

end Changes

/-! ### Runs -/

/-- The configurations that are posted in a run. -/
def postedIn (ops : List Op) (t : String) (c : Json) : Prop :=
  ∃ image, Op.provision t c image ∈ ops

section Runs

variable {host : Host} {posted : String → Json → Prop} {w w₀ w' start : World} {t : String}
  {op : Op} {ops : List Op} {c : Json}

theorem Fresh.owning (h : Fresh w) (hfiles : ∀ t place v, PurePath.IsFileName t →
    configPlace host t = some place → w.fs.text place ≠ some (.json v)) : Owning host posted w :=
  ⟨fun t tc htc => by simp [h.tenants] at htc, fun t state hstate => by simp [h.redis] at hstate,
    fun t place v ht hplace hv => absurd hv (hfiles t place v ht hplace)⟩

theorem Owning.direct {redis : Bool} (h : Owning host posted w) :
    Owning host posted (direct redis w op) := by
  cases op with
  | restart keys =>
    exact ⟨fun t tc htc => absurd htc (by simp [Tenants.direct]), h.record, h.file⟩
  | _ => exact h.congr rfl rfl fun _ _ hv => hv

/-- What an operation provisions for a tenant was posted for it, or comes from its record. -/
theorem Owning.owned_of_job (h : Owning host posted w) (hw : Coherent host w)
    (hnames : FileNames op) (hposted : ∀ t c image, op = .provision t c image → posted t c)
    (hjob : Jobs host w op t (some c)) : PurePath.IsFileName t ∧ Owned host posted t c := by
  cases op with
  | provision t' config image =>
    obtain ⟨rfl, hc⟩ := hjob
    obtain rfl := Option.some_inj.mp hc
    exact ⟨hnames, .posted (hposted t c image rfl)⟩
  | getOrCreate t' =>
    obtain ⟨rfl, hc | ⟨u, saved, hsteps, hsaved, hc⟩⟩ := hjob
    · simp at hc
    refine ⟨hnames, ?_⟩
    obtain rfl := Option.some_inj.mp hc
    -- `get_tenant` leaves every record with its tenant
    have hu : Owning host posted u ∧ Adds (Effect.Owned host posted) w u :=
      (kept_of_method (I := fun u => Owning host posted u ∧ Adds (Effect.Owned host posted) w u) hw
        (fun x y hstep hx hknown hI => h.of_change hx hknown (by simp) hstep hI) hsteps
        ⟨h, Adds.refl _ w⟩).2
    rw [getSavedState_run, EStateM.Result.ok.injEq] at hsaved
    obtain ⟨hsaved, -⟩ := hsaved
    cases saved with
    | none => exact .empty
    | some v =>
      obtain ⟨hv, -⟩ := Option.filter_eq_some_iff.mp hsaved
      obtain ⟨state, hstate, rfl⟩ := Option.map_eq_some_iff.mp hv
      split_ifs at hstate
      exact (hu.1.record t state hstate).2
  | getTenant _ | touch _ | stop _ | prune _ | restart _ | shutdown => exact absurd hjob.2 (by simp)
  | pass _ | vanish _ | listen _ | fail _ _ _ => exact hjob.elim

theorem owning_of_step (hnames : FileNames op) (hreads : ReadsBack op)
    (hposted : ∀ t c image, op = .provision t c image → posted t c) (hw : Coherent host w)
    (hstep : (machine host w₀).step w op = some w')
    (h : Owning host posted w ∧ Adds (Effect.Owned host posted) start w) :
    Owning host posted w' ∧ Adds (Effect.Owned host posted) start w' := by
  obtain ⟨-, rfl⟩ := step_eq_some hstep
  obtain ⟨redis, -, hwork⟩ := program_reaches host w hreads
  refine (kept_of_work
    (I := fun u => Owning host posted u ∧ Adds (Effect.Owned host posted) start u)
    ?_ ?_ ?_ hwork hw.direct ⟨h.1.direct, h.2.of_eq ?_⟩).2
  · intro u v hsame hu
    exact ⟨hu.1.congr hsame.tenants_eq hsame.redis_eq fun _ _ hv => hsame.fs_eq ▸ hv,
      hu.2.of_eq hsame.effects_eq⟩
  · exact fun u image hu => ⟨hu.1.congr rfl rfl fun _ _ hv => hv, hu.2⟩
  · intro t config u x y hjob _ hu hchange hx hknown hI
    refine hu.1.of_change hx hknown (fun c hc => ?_) hchange hI
    exact h.1.owned_of_job hw hnames hposted (hc ▸ hjob)
  · cases op <;> rfl

/-- **Nothing crosses over.** In every run, whatever fails, for tenants whose ids are file names:
every record, file and container that is written for a tenant derives from what was posted for
this tenant. -/
theorem owned_of_run (hfresh : Fresh w₀) (hfiles : ∀ t place v, PurePath.IsFileName t →
      configPlace host t = some place → w₀.fs.text place ≠ some (.json v))
    (hops : ∀ op ∈ ops, FileNames op) (hrun : (machine host w₀).run ops = some w) :
    ∀ e ∈ w₀.effectsSince w, e.Owned host (postedIn ops) := by
  have hinit : (Coherent host w₀ ∧ WellNamed w₀) ∧ Owning host (postedIn ops) w₀ ∧
      Adds (Effect.Owned host (postedIn ops)) w₀ w₀ :=
    ⟨⟨hfresh.coherent, hfresh.wellNamed⟩, hfresh.owning hfiles, Adds.refl _ _⟩
  obtain ⟨-, -, hadds⟩ := Machine.run_invariant
    (I := fun w => (Coherent host w ∧ WellNamed w) ∧ Owning host (postedIn ops) w ∧
      Adds (Effect.Owned host (postedIn ops)) w₀ w)
    (G := fun _ op => op ∈ ops)
    (fun {u op v} hu hop hstep => by
      obtain ⟨⟨hcoherent, hnamed⟩, howning⟩ := hu
      have hreads := hnamed.readsBack (step_eq_some hstep).1
      refine ⟨⟨coherent_of_step hreads hstep hcoherent, wellNamed_of_step hcoherent hnamed hstep⟩,
        owning_of_step (hops op hop) hreads ?_ hcoherent hstep howning⟩
      rintro t c image rfl
      exact ⟨image, hop⟩) hinit (Machine.AllSteps.of_labels fun op hop => hop) hrun
  exact fun e he => hadds.of_mem_effectsSince he

end Runs

/-- Two tenants are started, one of them with a key. The second call to Redis fails, the gateway
is restarted, and the tenant with the key is resumed. -/
def withKey : List Op :=
  [.provision "alice" (.obj [("gateway", .obj [("env", .obj [("API_KEY", .str "k-1")])])])
      defaultImage,
    .provision "bob" (.obj []) defaultImage, .fail [false, true] [] [], .stop "alice",
    .restart [stateKey "alice", stateKey "bob"], .getOrCreate "alice"]

theorem owned_withKey : ∃ w, (machine sampleHost sampleWorld).run withKey = some w ∧
    ∀ e ∈ sampleWorld.effectsSince w, e.Owned sampleHost (postedIn withKey) := by
  have hcheck : ((machine sampleHost sampleWorld).run withKey).isSome = true := by decide +kernel
  obtain ⟨w, hrun⟩ := Option.isSome_iff_exists.mp hcheck
  refine ⟨w, hrun, owned_of_run sampleWorld_fresh (fun t place v _ _ => ?_) (by decide) hrun⟩
  simp only [Fs.text, sampleWorld]
  split_ifs <;> simp

end Nanogate.Tenants
