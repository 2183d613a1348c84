import Nanogate.Tenants.Provisioning

/-!
# Provisioning with the empty configuration

`get_or_create` provisions a tenant it finds nothing about with the empty configuration. It is
written to the tenant's file before anything else is known to work.

## Main definitions

* `defaultConfig` — what `write_config` makes of the empty configuration
* `makes`, `writes` — what `mkdir` and `write_text` do to the file system and the calls to it
* `WritesDefault` — the empty configuration can be written

## Main results

* `writeConfig_empty_run` — `write_config` writes it if it can be written, and else raises
* `writes_defaultConfig` — it then stays written
-/

namespace Nanogate.Tenants

open Nanogate.Python Nanogate.Semantics Relation

/-- What `write_config` makes of the empty configuration. -/
def defaultConfig : Json :=
  .obj [("gateway", .obj [("port", .num 8765)]),
    ("agents", .obj [("defaults", .obj [("workspace", .str containerWorkspace)])])]

theorem mergeSettings_empty : mergeSettings (.obj []) = .ok (defaultConfig, .null) := by decide

/-- The file system and which of the next calls to it fail. -/
structure Disk where
  fs : Fs
  faults : List Bool

/-- The file system of a world. -/
def World.disk (w : World) : Disk := ⟨w.fs, w.fileFaults⟩

/-- What `mkdir` makes of the file system, if it does not raise. -/
def makes (host : Host) (path : PurePath) (disk : Disk) : Option Disk :=
  if disk.faults.head? = some true then none
  else (path.locate host.cwd).bind fun _ =>
    (disk.fs.makeDirs (placesOf host.cwd path)).map fun fs => ⟨fs, disk.faults.tail⟩

/-- What `write_text` makes of the file system, if it does not raise. -/
def writes (host : Host) (path : PurePath) (text : FileText) (disk : Disk) : Option Disk :=
  if disk.faults.head? = some true then none
  else (path.locate host.cwd).bind fun place =>
    (disk.fs.writeFile place text).map fun fs => ⟨fs, disk.faults.tail⟩

/-- What `write_config` makes of the file system when it writes the empty configuration. -/
def writesDefault (host : Host) (tenantId : String) (disk : Disk) : Option Disk :=
  ((makes host (tenantDir host tenantId) disk).bind
    (makes host ((tenantDir host tenantId).join "workspace"))).bind
    (writes host (configPath host tenantId) (.json defaultConfig))

/-- The empty configuration can be written. -/
def WritesDefault (host : Host) (tenantId : String) (disk : Disk) : Prop :=
  (writesDefault host tenantId disk).isSome = true

instance {host : Host} {tenantId : String} {disk : Disk} :
    Decidable (WritesDefault host tenantId disk) :=
  inferInstanceAs (Decidable (_ = true))

section Writing

variable {host : Host} {w : World} {path : PurePath} {tenantId image : String} {disk : Disk}

theorem mkdir_run_of_makes (h : makes host path w.disk = some disk) :
    (mkdir host path).run w = .ok () { w with fs := disk.fs, fileFaults := disk.faults } := by
  unfold makes at h
  split_ifs at h with hfault
  obtain ⟨place, hplace, h⟩ := Option.bind_eq_some_iff.mp h
  obtain ⟨fs, hmake, rfl⟩ := Option.map_eq_some_iff.mp h
  simp only [World.disk] at hfault hmake
  simp [mkdir, fileCall_run, hfault, hplace, hmake, World.disk]

theorem mkdir_run_of_not_makes (h : makes host path w.disk = none) :
    ∃ e, (mkdir host path).run w = .error e { w with fileFaults := w.fileFaults.tail } := by
  simp only [mkdir, EStateM.run_bind, fileCall_run, EStateM.run_get]
  by_cases hfault : w.fileFaults.head? = some true
  · exact ⟨_, by rw [if_pos hfault]⟩
  rw [makes, World.disk, if_neg hfault, Option.bind_eq_none_iff] at h
  rw [if_neg hfault]
  cases hplace : path.locate host.cwd with
  | none => exact ⟨_, rfl⟩
  | some place =>
    have hmake : w.fs.makeDirs (placesOf host.cwd path) = none :=
      Option.map_eq_none_iff.mp (h place hplace)
    simp only [hmake]
    exact ⟨_, rfl⟩

theorem writeText_run_of_writes {text : FileText} (h : writes host path text w.disk = some disk) :
    (writeText host path text).run w = .ok () { w with
      fs := disk.fs
      fileFaults := disk.faults
      effects := w.effects ++ [.writeText path text] } := by
  unfold writes at h
  split_ifs at h with hfault
  obtain ⟨place, hplace, h⟩ := Option.bind_eq_some_iff.mp h
  obtain ⟨fs, hwrite, rfl⟩ := Option.map_eq_some_iff.mp h
  simp only [World.disk] at hfault hwrite
  simp [writeText, fileCall_run, hfault, hplace, hwrite, emit, World.disk]

theorem writeText_run_of_not_writes {text : FileText} (h : writes host path text w.disk = none) :
    ∃ e, (writeText host path text).run w =
      .error e { w with fileFaults := w.fileFaults.tail } := by
  simp only [writeText, EStateM.run_bind, fileCall_run, EStateM.run_get]
  by_cases hfault : w.fileFaults.head? = some true
  · exact ⟨_, by rw [if_pos hfault]⟩
  rw [writes, World.disk, if_neg hfault, Option.bind_eq_none_iff] at h
  rw [if_neg hfault]
  cases hplace : path.locate host.cwd with
  | none => exact ⟨_, rfl⟩
  | some place =>
    have hwrite : w.fs.writeFile place text = none := Option.map_eq_none_iff.mp (h place hplace)
    simp only [hwrite]
    exact ⟨_, rfl⟩

/-- Once its directories are made, `write_config` writes the empty configuration or raises. -/
theorem writeConfig_empty_eq : writeConfig host tenantId (.obj []) = (do
    mkdir host (tenantDir host tenantId)
    mkdir host ((tenantDir host tenantId).join "workspace")
    writeText host (configPath host tenantId) (.json defaultConfig)
    pure (tenantDir host tenantId, (tenantDir host tenantId).join "workspace", defaultConfig)) := by
  simp only [writeConfig, mergeSettings_empty, lift, pure_bind, hostWorkspace, usesHostPath,
    Json.truthy_null, Bool.false_and, Bool.false_eq_true, if_false]

theorem writeConfig_empty_run (h : WritesDefault host tenantId w.disk) :
    ∃ u, (writeConfig host tenantId (.obj [])).run w =
        .ok (tenantDir host tenantId, (tenantDir host tenantId).join "workspace", defaultConfig) u ∧
      u.effects = w.effects ++ [.writeText (configPath host tenantId) (.json defaultConfig)] := by
  obtain ⟨disk, hdisk⟩ := Option.isSome_iff_exists.mp h
  obtain ⟨disk₂, hdisk₂, hwrite⟩ := Option.bind_eq_some_iff.mp hdisk
  obtain ⟨disk₁, hmake, hmake'⟩ := Option.bind_eq_some_iff.mp hdisk₂
  refine ⟨{ w with
    fs := disk.fs
    fileFaults := disk.faults
    effects := w.effects ++ [.writeText (configPath host tenantId) (.json defaultConfig)] },
    ?_, rfl⟩
  have hrun₁ := mkdir_run_of_makes hmake
  have hrun₂ :=
    mkdir_run_of_makes (w := { w with fs := disk₁.fs, fileFaults := disk₁.faults }) hmake'
  have hrun₃ := writeText_run_of_writes
    (w := { w with fs := disk₂.fs, fileFaults := disk₂.faults }) hwrite
  simp only [writeConfig_empty_eq, EStateM.run_bind, hrun₁, hrun₂, hrun₃, EStateM.run_pure]

theorem writeConfig_empty_raises (h : ¬WritesDefault host tenantId w.disk) :
    ∃ e u, (writeConfig host tenantId (.obj [])).run w = .error e u ∧ u.effects = w.effects := by
  rw [writeConfig_empty_eq]
  simp only [EStateM.run_bind]
  cases hmake : makes host (tenantDir host tenantId) w.disk with
  | none =>
    obtain ⟨e, hrun⟩ := mkdir_run_of_not_makes hmake
    simp only [hrun]
    exact ⟨e, _, rfl, rfl⟩
  | some disk₁ =>
    rw [mkdir_run_of_makes hmake]
    dsimp only
    cases hmake' : makes host ((tenantDir host tenantId).join "workspace") disk₁ with
    | none =>
      obtain ⟨e, hrun⟩ := mkdir_run_of_not_makes
        (w := { w with fs := disk₁.fs, fileFaults := disk₁.faults }) hmake'
      simp only [hrun]
      exact ⟨e, _, rfl, rfl⟩
    | some disk₂ =>
      rw [mkdir_run_of_makes (w := { w with fs := disk₁.fs, fileFaults := disk₁.faults }) hmake']
      dsimp only
      have hwrite : writes host (configPath host tenantId) (.json defaultConfig) disk₂ = none := by
        simpa [WritesDefault, writesDefault, hmake, hmake'] using h
      obtain ⟨e, hrun⟩ := writeText_run_of_not_writes
        (w := { w with fs := disk₂.fs, fileFaults := disk₂.faults }) hwrite
      simp only [hrun]
      exact ⟨e, _, rfl, rfl⟩

/-- A provisioning that can write the empty configuration writes it and leaves it there. -/
theorem writes_defaultConfig (h : WritesDefault host tenantId w.disk) (image : String) :
    let w' := endState (startTenant host tenantId (.obj []) image) w
    (w.effects ++ [.writeText (configPath host tenantId) (.json defaultConfig)]) <+: w'.effects ∧
      ∃ place, (configPath host tenantId).locate host.cwd = some place ∧
        w'.fs.text place = some (.json defaultConfig) := by
  obtain ⟨u, hrun, heffects⟩ := writeConfig_empty_run h
  obtain ⟨-, -, hwritten, -⟩ := writeConfig_does.ok hrun
  dsimp only
  rw [startTenant, endState_bind_of_ok hrun, ← heffects]
  have hsteps := Does.reaches (R := Change host tenantId (some (.obj [])) w)
    (m := launch host tenantId image _ _ _) (launch_does hwritten)
  refine ⟨?_, (hwritten.of_reaches hsteps).text⟩
  exact kept_of_reaches (I := fun v => u.effects <+: v.effects)
    (fun _ _ hstep hpre => hpre.trans (effects_prefix_of_change hstep)) hsteps List.prefix_rfl

end Writing

end Nanogate.Tenants
