import Nanogate.Tenants.Default
import Nanogate.Tenants.System

/-!
# Whose configuration a provisioning writes

A tenant id is any string, and the tenant's directory is that string joined to the base
directory. Nothing keeps the directory below the base directory or apart from another
tenant's: an absolute id replaces the base directory, `..` leaves it, and `./bob` is `bob`.
The workspace that a configuration names is made a directory wherever it is. What decides is
where the paths lead, and which places they run through.

## Main definitions

* `dirPlaces`, `writtenPlace` — where a provisioning makes directories and writes its file
* `resumption` — what a later stop of a tenant saves and its next start uses
* `Isolated` — no provisioning for `t` writes outside its own directory or touches `u`
* `OwnPlace` — no directory is made in the place of the file of `u`, and the file of `t`, if it is
  written, is strictly below the base directory and not the file of `u`

## Main results

* `isolated_iff` — two tenants are isolated exactly if the places are the first one's own
* `neighbour_overwritten` — the tenant `./bob` writes the file of `bob`
-/

namespace Nanogate.Tenants

open Nanogate.Python Nanogate.Semantics Relation

/-! ### Places -/

/-- A directory strictly below the base directory. -/
def Below (host : Host) (dir : Location) : Prop :=
  ∃ base ∈ host.baseDir.locate host.cwd, base <+: dir ∧ base ≠ dir

/-- The places that `write_config` makes directories of, unless a file is in the way. -/
def dirPlaces (host : Host) (t : String) (config : Json) : List Location :=
  (configDirs host t config).flatMap (placesOf host.cwd)

/-- Where `write_config` writes the configuration, unless it raises before or finds that one of its
own directories is there. -/
def writtenPlace (host : Host) (t : String) (config : Json) : Option Location :=
  if (configWorkspace host t config).isSome then
    (configPlace host t).filter fun place => !(dirPlaces host t config).contains place
  else none

/-- No directory is made in the place of the file of `u`, and the file of `t`, if it is written, is
strictly below the base directory and is not the file of `u`. -/
def OwnPlace (host : Host) (t u : String) (config : Json) : Prop :=
  (∀ place ∈ configPlace host u, place ∉ dirPlaces host t config) ∧
    ∀ place ∈ writtenPlace host t config,
      Below host place.dropLast ∧ configPlace host u ≠ some place

instance (host : Host) (dir : Location) : Decidable (Below host dir) :=
  inferInstanceAs (Decidable (∃ base ∈ host.baseDir.locate host.cwd, base <+: dir ∧ base ≠ dir))

instance (host : Host) (t u : String) (config : Json) : Decidable (OwnPlace host t u config) :=
  inferInstanceAs (Decidable
    ((∀ place ∈ configPlace host u, place ∉ dirPlaces host t config) ∧
      ∀ place ∈ writtenPlace host t config,
        Below host place.dropLast ∧ configPlace host u ≠ some place))

theorem mem_dirPlaces {host : Host} {t : String} {config : Json} {path : PurePath} {k : Location}
    (hpath : path ∈ configDirs host t config) (hk : k ∈ placesOf host.cwd path) :
    k ∈ dirPlaces host t config :=
  List.mem_flatMap.mpr ⟨path, hpath, hk⟩

/-! ### Isolation -/

/-- The same world when nothing fails any more. -/
def World.recovered (w : World) : World :=
  { w with redisFaults := [], dockerFaults := [], fileFaults := [] }

/-- The configuration that a later `stop_tenant` leaves in the record, and the one with which the
next `get_or_create` resumes. -/
def resumption (host : Host) (tenantId : String) : M (Option Json × Option Json) := do
  stopTenant host tenantId
  let w ← get
  let saved := (w.redis.get (stateKey tenantId)).map TenantState.configData
  let tc ← getTenant tenantId
  match tc with
  | some _ => pure (saved, none)
  | none => do
    let config ← getSavedState tenantId
    pure (saved, config)

/-- What a program answers, whatever the world is afterwards. -/
def answer {α : Type} (m : M α) (w : World) : Except Err α :=
  match m.run w with
  | .ok a _ => .ok a
  | .error e _ => .error e

/-- A provisioning for `t` with this configuration, in any world that a gateway reaches, whether it
returns or raises, writes its file only strictly below the base directory, leaves whatever is or is
not in the place of the file of `u` as it is, and does not matter to how `u` is resumed later. -/
def Isolated (host : Host) (t u : String) (config : Json) : Prop :=
  ∀ w₀ ops w image, Fresh w₀ → (machine host w₀).run ops = some w →
      let w' := endState (provisionTenant host t config image) w
      (∀ path text, Effect.writeText path text ∈ w.effectsSince w' →
        ∃ place ∈ path.locate host.cwd, Below host place.dropLast) ∧
      (∀ place ∈ configPlace host u, w'.fs place = w.fs place) ∧
      answer (resumption host u) w'.recovered = answer (resumption host u) w.recovered

/-! ### What a provisioning leaves alone -/

section Frame

variable {host : Host} {w w₀ w' : World} {t u : String} {config : Json}

/-- What isolation asks of two worlds, and what the resumption of `u` depends on. -/
structure Apart (host : Host) (u : String) (w w' : World) : Prop where
  hasRedis : w'.hasRedis = w.hasRedis
  entry : w'.tenants.get u = w.tenants.get u
  record : w'.redis.get (stateKey u) = w.redis.get (stateKey u)
  node : ∀ place ∈ configPlace host u, w'.fs place = w.fs place
  writes : Adds (fun
    | .writeText path _ => ∃ place ∈ path.locate host.cwd, Below host place.dropLast
    | _ => True) w w'

/-- A file that was written is none of the directories. -/
theorem OwnPlace.of_write {place : Location} {text : FileText} {fs : Fs}
    (h : OwnPlace host t u config) (hplace : (configPath host t).locate host.cwd = some place)
    (hdirs : ∀ path ∈ configDirs host t config, ∀ k ∈ placesOf host.cwd path,
      w.fs k = some .dir)
    (hworkspace : (configWorkspace host t config).isSome = true)
    (hwrite : w.fs.writeFile place text = some fs) :
    Below host place.dropLast ∧ configPlace host u ≠ some place := by
  have hnot : place ∉ dirPlaces host t config := by
    intro hmem
    obtain ⟨path, hpath, hk⟩ := List.mem_flatMap.mp hmem
    simp [Fs.writeFile, hdirs path hpath place hk] at hwrite
  refine h.2 place ?_
  rw [writtenPlace, if_pos hworkspace]
  exact Option.mem_filter_iff.mpr ⟨hplace, by simpa using hnot⟩

theorem Apart.of_change {start : World} (htu : t ≠ u) (hown : OwnPlace host t u config)
    (hstep : Change host t (some config) w₀ w w') (hw : Coherent host w)
    (hknown : ∀ tc, Known t w₀ tc → Belongs host w t tc) (h : Apart host u start w) :
    Apart host u start w' := by
  obtain ⟨hredis, hentry, hrecord, hnode, hwrites⟩ := h
  cases hstep with
  | same hsame =>
    obtain ⟨_, _, _, _, _, _, rfl⟩ := hsame
    exact ⟨hredis, hentry, hrecord, hnode, hwrites⟩
  | uncache =>
    exact ⟨hredis, (Dict.get_erase_of_ne htu.symm).trans hentry, hrecord, hnode, hwrites⟩
  | refresh | restore | provisioned =>
    exact ⟨hredis, (Dict.get_set_of_ne htu.symm).trans hentry, hrecord, hnode, hwrites⟩
  | save hsaves =>
    have hne : stateKey u ≠ stateKey _ := fun heq =>
      htu ((hw.record_of_saves hknown hsaves).1.symm.trans (stateKey_inj.mp heq).symm)
    exact ⟨hredis, hentry, (Dict.get_set_of_ne hne).trans hrecord, hnode,
      hwrites.snoc rfl trivial⟩
  | stop | remove | run =>
    exact ⟨hredis, hentry, hrecord, hnode, hwrites.snoc rfl trivial⟩
  | build => exact ⟨hredis, hentry, hrecord, hnode, hwrites⟩
  | mkdir hmake hc hpath =>
    obtain rfl := Option.some_inj.mp hc
    refine ⟨hredis, hentry, hrecord, fun place hplace => ?_, hwrites⟩
    have hnot : place ∉ placesOf host.cwd _ := fun hk =>
      hown.1 place hplace (mem_dirPlaces hpath hk)
    exact (Fs.makeDirs_of_notMem hmake hnot).trans (hnode place hplace)
  | write hc hplace _ hdirs hwrite hworkspace =>
    obtain rfl := Option.some_inj.mp hc
    obtain ⟨hbelow, hne⟩ := hown.of_write hplace hdirs hworkspace hwrite
    refine ⟨hredis, hentry, hrecord, fun k hk => ?_, hwrites.snoc rfl ⟨_, hplace, hbelow⟩⟩
    refine (Fs.writeFile_of_ne hwrite ?_).trans (hnode k hk)
    rintro rfl
    exact hne hk

theorem apart_of_provision (image : String) (htu : t ≠ u) (hown : OwnPlace host t u config)
    (hw : Coherent host w) :
    Coherent host (endState (provisionTenant host t config image) w) ∧
      Apart host u w (endState (provisionTenant host t config image) w) :=
  kept_of_method hw (fun _ _ hstep hv hknown h => h.of_change htu hown hstep hv hknown)
    provisionTenant_does.reaches ⟨rfl, rfl, rfl, fun _ _ => rfl, Adds.refl _ _⟩

end Frame

/-! ### Resuming from two worlds -/

section Resumption

variable {host : Host} {u : String} {v v' : World} {tc : TenantContainer}
  {loaded : Option TenantState}

/-- Two worlds without failures that know the same of `u`. -/
structure Twin (host : Host) (u : String) (v v' : World) : Prop where
  redisFaults : v.redisFaults = [] ∧ v'.redisFaults = []
  fileFaults : v.fileFaults = [] ∧ v'.fileFaults = []
  hasRedis : v'.hasRedis = v.hasRedis
  entry : v'.tenants.get u = v.tenants.get u
  record : v'.redis.get (stateKey u) = v.redis.get (stateKey u)
  node : ∀ place ∈ configPlace host u, v'.fs place = v.fs place

/-- Nothing runs for `u`. -/
def Stopped (u : String) (v : World) : Prop :=
  v.tenants.get u = none ∧
    ∀ state, v.redis.get (stateKey u) = some state → v.hasRedis = true →
      state.runningContainer = none

/-- The record that can be loaded. -/
def World.recordOf (v : World) (u : String) : Option TenantState :=
  if v.hasRedis then v.redis.get (stateKey u) else none

theorem Twin.recordOf_eq (h : Twin host u v v') : v'.recordOf u = v.recordOf u := by
  rw [World.recordOf, World.recordOf, h.hasRedis, h.record]

theorem asked_of_nil (h : v.redisFaults = []) : v.asked = v := by
  cases v
  subst h
  simp [World.asked]

theorem loadState_run_of_nil (h : v.redisFaults = []) :
    (loadState u).run v = .ok (v.recordOf u) v := by
  rw [loadState_run, asked_of_nil h]
  simp [World.answers, World.recordOf, h]

theorem Twin.configAt_eq (h : Twin host u v v') :
    v'.configAt host (configPath host u) = v.configAt host (configPath host u) := by
  unfold World.configAt
  cases hplace : (configPath host u).locate host.cwd with
  | none => rfl
  | some place => rw [Option.bind_some, Option.bind_some, Fs.text, Fs.text, h.node place hplace]

theorem Twin.loadState_run (h : Twin host u v v') :
    (loadState u).run v = .ok (v.recordOf u) v ∧ (loadState u).run v' = .ok (v.recordOf u) v' := by
  refine ⟨loadState_run_of_nil h.redisFaults.1, ?_⟩
  rw [← h.recordOf_eq]
  exact loadState_run_of_nil h.redisFaults.2

theorem Twin.configToSave (h : Twin host u v v') (hdir : tc.configDir = some (tenantDir host u)) :
    Agrees (fun t t' => t = v ∧ t' = v') (configToSave host u tc loaded)
      (configToSave host u tc loaded) v v' := by
  unfold Tenants.configToSave configFile
  rw [hdir]
  refine Agrees.bind_of_ok (readConfig_run_nil h.fileFaults.1)
    (h.configAt_eq ▸ readConfig_run_nil h.fileFaults.2) ?_
  dsimp only
  split_ifs
  · exact Agrees.pure ⟨rfl, rfl⟩
  · exact Agrees.bind_of_ok h.loadState_run.1 h.loadState_run.2 (Agrees.pure ⟨rfl, rfl⟩)

/-- Removing a container matters to nothing that a resumption depends on. -/
theorem Twin.of_removed {t t' : World} (h : Twin host u v v') (ht : Removed v t)
    (ht' : Removed v' t') : Twin host u t t' := by
  obtain ⟨_, _, _, rfl, -⟩ := ht
  obtain ⟨_, _, _, rfl, -⟩ := ht'
  exact ⟨h.redisFaults, h.fileFaults, h.hasRedis, h.entry, h.record, h.node⟩

theorem Stopped.of_removed {t : World} (h : Stopped u v) (ht : Removed v t) : Stopped u t := by
  obtain ⟨_, _, _, rfl, -⟩ := ht
  exact h

/-- Saving a record leaves the worlds alike. -/
theorem Twin.put {state : TenantState} (h : Twin host u v v') :
    Twin host u (v.put state) (v'.put state) where
  redisFaults := h.redisFaults
  fileFaults := h.fileFaults
  hasRedis := h.hasRedis
  entry := h.entry
  record := by rw [World.put, World.put, Dict.get_set, Dict.get_set, h.record]
  node := h.node

theorem Twin.stopContainer (h : Twin host u v v') (hentry : v.tenants.get u = none)
    (hdir : tc.configDir = some (tenantDir host u)) :
    Agrees (fun t t' => Twin host u t t' ∧ Stopped u t) (stopContainer host u tc loaded)
      (stopContainer host u tc loaded) v v' := by
  unfold Tenants.stopContainer
  refine Agrees.bind (h.configToSave hdir) ?_
  rintro config t t' ⟨rfl, rfl⟩
  dsimp only
  split_ifs
  · exact Agrees.throw _
  refine Agrees.bind (P := fun t t' => Twin host u t t' ∧ Stopped u t)
    (Agrees.of_ok saveState_run saveState_run ?_) ?_
  · rw [asked_of_nil h.redisFaults.1, asked_of_nil h.redisFaults.2]
    simp only [World.answers, h.redisFaults.1, h.redisFaults.2, h.hasRedis]
    cases hredis : t.hasRedis with
    | false => exact ⟨h, hentry, by simp [hredis]⟩
    | true =>
      refine ⟨h.put, hentry, fun state hstate _ => ?_⟩
      obtain rfl := Option.some_inj.mp (Dict.get_set_self.symm.trans hstate)
      rfl
  · rintro _ x x' ⟨hx, hstopped⟩
    refine Agrees.get_bind ?_
    obtain ⟨y, hy, hremoved⟩ := removeContainer_run tc.containerId x
    obtain ⟨y', hy', hremoved'⟩ := removeContainer_run tc.containerId x'
    exact Agrees.of_ok hy hy' ⟨hx.of_removed hremoved hremoved', hstopped.of_removed hremoved⟩

/-- Popping the cache entry leaves the worlds alike. -/
theorem Twin.uncache (h : Twin host u v v') :
    Twin host u { v with tenants := v.tenants.erase u } { v' with tenants := v'.tenants.erase u }
    where
  redisFaults := h.redisFaults
  fileFaults := h.fileFaults
  hasRedis := h.hasRedis
  entry := by rw [Dict.get_erase_self, Dict.get_erase_self]
  record := h.record
  node := h.node

theorem Twin.stopTenant (h : Twin host u v v') (hv : Coherent host v) :
    Agrees (fun t t' => Twin host u t t' ∧ Stopped u t) (stopTenant host u) (stopTenant host u)
      v v' := by
  unfold Tenants.stopTenant
  refine Agrees.get_bind ?_
  rw [h.entry]
  cases hentry : v.tenants.get u with
  | some tc =>
    refine Agrees.set_bind ?_
    exact h.uncache.stopContainer Dict.get_erase_self (hv.entry u tc hentry).configDir_eq
  | none =>
    refine Agrees.bind_of_ok h.loadState_run.1 h.loadState_run.2 ?_
    -- without a running record there is nothing to stop
    have hstopped (hnone : ∀ state, v.recordOf u = some state → state.runningContainer = none) :
        Twin host u v v' ∧ Stopped u v :=
      ⟨h, hentry, fun state hstate hredis =>
        hnone state (by rw [World.recordOf, if_pos hredis, hstate])⟩
    cases hloaded : v.recordOf u with
    | none => exact Agrees.pure (hstopped (by simp [hloaded]))
    | some state =>
      dsimp only
      cases hrun : state.runningContainer with
      | none =>
        refine Agrees.pure (hstopped ?_)
        rintro state' hstate'
        rw [← Option.some_inj.mp (hloaded.symm.trans hstate'), hrun]
      | some id =>
        have hstate : v.redis.get (stateKey u) = some state := by
          rw [World.recordOf] at hloaded
          split_ifs at hloaded
          exact hloaded
        exact h.stopContainer hentry (hv.record u state hstate).2.1

/-- Two worlds that know the same of `u` resume it alike. -/
theorem Twin.resumption (h : Twin host u v v') (hv : Coherent host v) :
    Agrees (fun _ _ => True) (resumption host u) (resumption host u) v v' := by
  unfold Tenants.resumption
  refine Agrees.bind (h.stopTenant hv) ?_
  rintro _ t t' ⟨ht, hentry, hstopped⟩
  refine Agrees.get_bind ?_
  rw [ht.record]
  dsimp only
  have hget {x : World} (hx : x.redisFaults = []) (hnone : x.tenants.get u = none)
      (hrecord : ∀ state, x.recordOf u = some state → state.runningContainer = none) :
      (getTenant u).run x = .ok none x := by
    simp only [getTenant, EStateM.run_bind, EStateM.run_get, hnone, loadState_run_of_nil hx]
    cases hstate : x.recordOf u with
    | none => rfl
    | some state =>
      simp only [hrecord state hstate]
      rfl
  have hrecord : ∀ state, t.recordOf u = some state → state.runningContainer = none := by
    intro state hstate
    rw [World.recordOf] at hstate
    split_ifs at hstate with hredis
    exact hstopped state hstate hredis
  refine Agrees.bind_of_ok (hget ht.redisFaults.1 hentry hrecord)
    (hget ht.redisFaults.2 (ht.entry.trans hentry) (ht.recordOf_eq ▸ hrecord)) ?_
  dsimp only
  have hsaved {x : World} (hx : x.redisFaults = []) : (getSavedState u).run x =
      .ok (((x.recordOf u).map TenantState.configData).filter Json.truthy) x := by
    simp [getSavedState, loadState_run_of_nil hx]
  exact Agrees.bind_of_ok (hsaved ht.redisFaults.1)
    (ht.recordOf_eq ▸ hsaved ht.redisFaults.2) (Agrees.pure trivial)

theorem answer_eq_of_agrees {α : Type} {m m' : M α} {Q : World → World → Prop}
    (h : Agrees Q m m' v v') : answer m' v' = answer m v := by
  unfold Agrees at h
  unfold answer
  split at h <;> simp_all

end Resumption

/-! ### Isolated tenants -/

section Isolation

variable {host : Host} {t u : String} {config : Json} {w : World}

/-- Apart worlds know the same of `u` when nothing fails any more. -/
theorem Apart.twin {w w' : World} (h : Apart host u w w') :
    Twin host u w.recovered w'.recovered where
  redisFaults := ⟨rfl, rfl⟩
  fileFaults := ⟨rfl, rfl⟩
  hasRedis := h.hasRedis
  entry := h.entry
  record := h.record
  node := h.node

theorem isolated_of_ownPlace (htu : t ≠ u) (hown : OwnPlace host t u config) :
    Isolated host t u config := by
  intro w₀ ops w image hfresh hrun
  obtain ⟨hw, -⟩ := hfresh.coherent_of_run hrun
  obtain ⟨-, hapart⟩ := apart_of_provision image htu hown hw
  refine ⟨fun path text htext => hapart.writes.of_mem_effectsSince htext, hapart.node, ?_⟩
  have hrecovered : Coherent host w.recovered := hw.congr rfl rfl rfl rfl
  exact answer_eq_of_agrees (hapart.twin.resumption hrecovered)

/-- No call to the file system fails, and no file is in the way of anything. -/
structure Blank (w : World) : Prop where
  faults : w.fileFaults = []
  text : ∀ k, w.fs.text k = none

theorem Blank.fileCall_run (h : Blank w) :
    fileCall.run w = .ok () { w with fileFaults := [] } := by
  simp [Tenants.fileCall_run, h.faults]

theorem Blank.mkdir_ends (h : Blank w) (path : PurePath) : Ends (mkdir host path)
    (fun _ v => Blank v ∧ (path.locate host.cwd).isSome = true ∧
      MakesDirs (placesOf host.cwd path) w v)
    (fun v => path.locate host.cwd = none ∧ v.fs = w.fs) w := by
  unfold mkdir
  refine Ends.bind_of_ok h.fileCall_run (Ends.get_bind ?_)
  cases hplace : path.locate host.cwd with
  | none => exact Ends.throw _ ⟨rfl, rfl⟩
  | some place =>
    have hfree : ∀ k ∈ placesOf host.cwd path, w.fs.text k = none := fun k _ => h.text k
    obtain ⟨fs, hmake⟩ := Fs.makeDirs_of_free hfree
    simp only [hmake]
    refine Ends.of_ok rfl ⟨⟨rfl, fun k => (Fs.text_makeDirs hmake).trans (h.text k)⟩, rfl, ?_⟩
    exact makesDirs_of_makeDirs hmake

theorem Blank.writeText_ends {path : PurePath} {place : Location} {text : FileText} (h : Blank w)
    (hplace : path.locate host.cwd = some place) (hparent : w.fs place.dropLast = some .dir) :
    Ends (writeText host path text) (fun _ _ => True)
      (fun v => v.fs = w.fs ∧ w.fs place = some .dir) w := by
  unfold writeText
  refine Ends.bind_of_ok h.fileCall_run (Ends.get_bind ?_)
  simp only [hplace]
  by_cases hdir : w.fs place = some .dir
  · simp only [Fs.writeFile, if_pos (Or.inl hdir)]
    exact Ends.throw _ ⟨rfl, hdir⟩
  · obtain ⟨fs, hwrite⟩ := Fs.writeFile_of_parent text hdir hparent
    simp only [hwrite]
    exact Ends.of_ok rfl trivial

/-- The directories are made and the file is written. -/
structure Laid (host : Host) (t : String) (config : Json) (w : World) : Prop where
  dirs : ∀ k ∈ dirPlaces host t config, w.fs k = some .dir
  file : ∀ place ∈ writtenPlace host t config, ∃ v,
    Effect.writeText (configPath host t) (.json v) ∈ w.effects ∧ w.fs.text place = some (.json v)

theorem not_dir_of_writtenPlace {place : Location} (h : place ∈ writtenPlace host t config) :
    (configPath host t).locate host.cwd = some place ∧ place ∉ dirPlaces host t config := by
  unfold writtenPlace at h
  split_ifs at h
  · obtain ⟨hplace, hnot⟩ := Option.mem_filter_iff.mp h
    exact ⟨hplace, by simpa using hnot⟩
  · simp at h

/-- The directories are there once the tenant's and the workspace are made. -/
theorem dir_of_makesDirs {workspace : PurePath} {v : World}
    (hworkspace : ∀ path, configWorkspace host t config = some path → path = workspace)
    (hmade : MakesDirs (placesOf host.cwd (tenantDir host t) ++ placesOf host.cwd workspace) w v) :
    ∀ k ∈ dirPlaces host t config, v.fs k = some .dir := by
  intro k hk
  obtain ⟨path, hpath, hk⟩ := List.mem_flatMap.mp hk
  refine (hmade k).mpr (.inr ?_)
  rcases mem_configDirs hpath with rfl | hpath
  · exact List.mem_append_left _ hk
  · obtain rfl := hworkspace path hpath
    exact List.mem_append_right _ hk

/-- Where nothing is in the way, `write_config` raises only when it has nothing more to do. -/
theorem Blank.writeConfig_raises (h : Blank w)
    (hfree : ∀ place ∈ configPlace host t, w.fs place = none) :
    Ends (writeConfig host t config) (fun _ _ => True) (Laid host t config) w := by
  unfold writeConfig
  refine Ends.bind ((h.mkdir_ends (tenantDir host t)).mono (fun _ _ h => h) ?_) ?_
  · rintro v ⟨hnone, -⟩
    have hnoDirs : dirPlaces host t config = [] := by simp [dirPlaces, configDirs, hnone]
    have hnoPlace : configPlace host t = none := by
      rw [configPlace, configPath, PurePath.locate_join_of_isFileName _ (by decide), hnone]
      rfl
    exact ⟨by simp [hnoDirs], by simp [writtenPlace, hnoPlace]⟩
  rintro _ v ⟨hv, hroot, hdirs⟩
  -- without a workspace there is one directory to make and nothing to write
  have hlaid {x : World} (hx : x.fs = v.fs) (hnone : configWorkspace host t config = none) :
      Laid host t config x := by
    refine ⟨fun k hk => ?_, by simp [writtenPlace, hnone]⟩
    obtain ⟨path, hpath, hk⟩ := List.mem_flatMap.mp hk
    obtain rfl : path = tenantDir host t := by simpa [configDirs, hroot, hnone] using hpath
    rw [hx]
    exact (hdirs k).mpr (.inr hk)
  refine Ends.bind (ends_lift_error fun e he => hlaid rfl (by simp [configWorkspace, he])) ?_
  rintro ⟨written, setting⟩ _ ⟨rfl, hmerge⟩
  refine Ends.bind (ends_lift_error fun e he => hlaid rfl
    (by simp [configWorkspace, hmerge, he])) ?_
  rintro workspace _ ⟨rfl, hworkspace⟩
  refine Ends.bind ((hv.mkdir_ends workspace).mono (fun _ _ h => h) fun x hx =>
    hlaid hx.2 (by simp [configWorkspace, hmerge, hworkspace, hx.1])) ?_
  rintro _ x ⟨hx, hlocate, hmade⟩
  have hfound := configWorkspace_of_merge hmerge hworkspace hlocate
  have hmade := hdirs.trans hmade
  -- the file is in the new directory, so writing it raises only if a directory is in its place
  obtain ⟨dir, hdir⟩ := Option.isSome_iff_exists.mp hroot
  have hplace : (configPath host t).locate host.cwd = some (dir ++ ["config.json"]) := by
    rw [configPath, PurePath.locate_join_of_isFileName _ (by decide), hdir, Option.map_some]
  have hparent : x.fs (dir ++ ["config.json"]).dropLast = some .dir := by
    rw [List.dropLast_concat]
    exact (hmade dir).mpr (.inr (List.mem_append_left _ (mem_placesOf hdir)))
  refine Ends.bind ((hx.writeText_ends hplace hparent).mono (fun _ _ h => h) ?_)
    fun _ _ _ => Ends.pure trivial
  rintro y ⟨hy, hnode⟩
  have hall : ∀ k ∈ dirPlaces host t config, x.fs k = some .dir :=
    dir_of_makesDirs (fun path hpath => Option.some_inj.mp (hpath.symm.trans hfound)) hmade
  refine ⟨hy ▸ hall, fun place hwritten => ?_⟩
  obtain ⟨hplace', hnot⟩ := not_dir_of_writtenPlace hwritten
  obtain rfl := Option.some_inj.mp (hplace.symm.trans hplace')
  -- the directory in its place is one of those that were made
  rcases (hmade _).mp hnode with hold | hmem
  · simp [hfree _ hplace] at hold
  · refine absurd ?_ hnot
    rcases List.mem_append.mp hmem with hmem | hmem
    · exact mem_dirPlaces (tenantDir_mem_configDirs hroot) hmem
    · exact mem_dirPlaces (workspace_mem_configDirs hroot hfound) hmem

/-- A launch undoes nothing of what `write_config` did. -/
theorem laid_of_launch {r : PurePath × PurePath × Json} {v : World}
    (hwritten : Written host t config r.2.1 r.2.2 w) (hfiled : Filed host t r.2.2 w)
    (hdirs : ∀ k ∈ dirPlaces host t config, w.fs k = some .dir)
    (hsteps : ReflTransGen (Change host t (some config) w) w v) : Laid host t config v := by
  refine ⟨fun k hk => ?_, fun place hplace => ⟨r.2.2, ?_, ?_⟩⟩
  · exact kept_of_reaches (I := fun x => x.fs k = some .dir) (fun _ _ => dir_of_change) hsteps
      (hdirs k hk)
  · have hprefix : w.effects <+: v.effects :=
      kept_of_reaches (I := fun v => w.effects <+: v.effects)
        (fun _ _ hstep hpre => hpre.trans (effects_prefix_of_change hstep)) hsteps List.prefix_rfl
    exact hprefix.subset (mem_of_lastWritten hfiled.last)
  · obtain ⟨place', hplace', htext⟩ := (hwritten.of_reaches hsteps).text
    obtain ⟨hplace, -⟩ := not_dir_of_writtenPlace hplace
    rwa [Option.some_inj.mp (hplace.symm.trans hplace')]

theorem free_sampleWorld : ∀ place ∈ configPlace host u, sampleWorld.fs place = none := by
  intro place hplace
  rw [configPlace, configPath, PurePath.locate_join_of_isFileName _ (by decide)] at hplace
  obtain ⟨dir, -, rfl⟩ := Option.map_eq_some_iff.mp hplace
  simp [sampleWorld]

/-- Every provisioning does its part on a new gateway. -/
theorem laid_of_provision (host : Host) (t : String) (config : Json) (image : String) :
    Laid host t config (endState (provisionTenant host t config image) sampleWorld) := by
  have hblank : Blank sampleWorld :=
    ⟨rfl, fun k => by by_cases hk : k = [] <;> simp [Fs.text, sampleWorld, hk]⟩
  -- nothing is stopped on a new gateway
  have hend : endState (provisionTenant host t config image) sampleWorld =
      endState (startTenant host t config image) sampleWorld := rfl
  rw [hend]
  unfold startTenant
  refine Ends.endState (Ends.bind (((hblank.writeConfig_raises free_sampleWorld).and
    (Ends.of_does writeConfig_does)).mono (fun _ _ h => h.2.2) fun _ h => h.1) ?_)
  rintro ⟨dir, workspace, written⟩ v ⟨rfl, hwritten, hfiled, hmade⟩
  obtain ⟨setting, hmerge, hworkspace⟩ := hwritten.merged
  have hdirs : ∀ k ∈ dirPlaces host t config, v.fs k = some .dir :=
    dir_of_makesDirs (fun path hpath => eq_of_configWorkspace hpath hmerge hworkspace) hmade
  exact (Ends.of_does (launch_does hwritten)).mono
    (fun _ _ h => laid_of_launch hwritten hfiled hdirs h.1)
    fun _ h => laid_of_launch hwritten hfiled hdirs h

theorem ownPlace_of_isolated (h : Isolated host t u config) : OwnPlace host t u config := by
  obtain ⟨hwrites, hnode, -⟩ := h sampleWorld [] sampleWorld defaultImage sampleWorld_fresh rfl
  have hlaid := laid_of_provision host t config defaultImage
  refine ⟨fun place hplace hmem => ?_, fun place hplace => ⟨?_, fun hu => ?_⟩⟩
  · have hsame := (hlaid.dirs place hmem).symm.trans (hnode place hplace)
    simp [free_sampleWorld place hplace] at hsame
  · obtain ⟨v, hmem, -⟩ := hlaid.file place hplace
    obtain ⟨hplace, -⟩ := not_dir_of_writtenPlace hplace
    obtain ⟨k, hk, hbelow⟩ := hwrites _ _ hmem
    rwa [Option.some_inj.mp (hplace.symm.trans hk)]
  · obtain ⟨v, -, htext⟩ := hlaid.file place hplace
    simp [Fs.text, hnode place hu, free_sampleWorld place hu] at htext

/-- **Isolation of two tenants.** A provisioning for `t` is isolated from `u` exactly if no
directory that it makes is in the place of the file of `u`, and the file of `t`, if it is written,
is strictly below the base directory and not the file of `u`. -/
theorem isolated_iff (host : Host) (t u : String) (config : Json) (htu : t ≠ u) :
    Isolated host t u config ↔ OwnPlace host t u config :=
  ⟨ownPlace_of_isolated, isolated_of_ownPlace htu⟩

theorem isolated_iff_alice_bob : Isolated sampleHost "alice" "bob" (.obj []) :=
  (isolated_iff sampleHost "alice" "bob" (.obj []) (by decide)).mpr (by decide)

/-- **Tenants are not isolated**: the file of `./bob` is the file of `bob`. -/
theorem neighbour_overwritten :
    ¬∀ t u config, t ≠ u → Isolated sampleHost t u config := fun h =>
  ((ownPlace_of_isolated (h "./bob" "bob" (.obj []) (by decide))).2
    ["tmp", "nanogate", "tenants", "bob", "config.json"] (by decide)).2 (by decide)

/-- Nor does every file stay below the base directory, or every directory out of the way of a
file. -/
example : ¬OwnPlace sampleHost "/etc" "bob" (.obj []) ∧
    ¬OwnPlace sampleHost "../x" "bob" (.obj []) ∧ ¬OwnPlace sampleHost "" "bob" (.obj []) ∧
      ¬OwnPlace sampleHost "bob/config.json" "bob" (.obj []) := by decide

end Isolation

end Nanogate.Tenants
