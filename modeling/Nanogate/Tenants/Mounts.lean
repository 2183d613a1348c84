import Nanogate.Tenants.LastGood
import Nanogate.Tenants.Workspace

/-!
# The directories that a container mounts

`provision_tenant` collects the volumes of a container in a dictionary whose keys are paths of the
host: the tenant's directory, the workspace that `write_config` chose, and `toolsDir` and
`scriptsDir` if they are directories. One path has one entry, the last that was assigned, so every
directory is mounted exactly if no two of the paths are the same. What is a directory then is
decided by the files before and by the two directories that `write_config` makes.

## Main definitions

* `binds` — the entries of the volumes, in the order in which they are assigned
* `BindsAll`, `MountsAll` — every directory is among the volumes, and a container got them
* `Separate` — no two of the directories are at the same path
* `World.DirAfter` — what is a directory once `write_config` made its own

## Main results

* `bindsAll_iff` — the volumes have every directory exactly if they are separate
* `provisionTenant_mounts` — what one provisioning starts, and what it leaves of the files
* `mountsAll_iff` — a provisioning mounts every directory exactly if they are separate
-/

namespace Nanogate.Tenants

open Nanogate.Python Nanogate.Semantics Relation

/-! ### Volumes -/

/-- A directory that is configured under a key of `gateway`. -/
def Configured (host : Host) (w : World) (config : Json) (key : String) (path : PurePath) : Prop :=
  Replaces host config key path ∧ w.dirAt host path = true

/-- The entry that a configured directory adds to the volumes. -/
def configuredBind (host : Host) (w : World) (config : Json) (key bind : String) :
    List (String × Bind) :=
  match resolvePath host ((config.getD "gateway").getD key) with
  | .ok path =>
    if ((config.getD "gateway").getD key).truthy ∧ w.dirAt host path then
      [(path.toString, ⟨bind, "ro"⟩)]
    else []
  | .error _ => []

/-- The entries of the volumes, in the order in which they are assigned. -/
def binds (host : Host) (w : World) (dir workspace : PurePath) (config : Json) :
    List (String × Bind) :=
  (dir.toString, ⟨"/root/.nanobot", "rw"⟩) :: (workspace.toString, ⟨containerWorkspace, "rw"⟩) ::
    (configuredBind host w config "toolsDir" "/app/tenant_tools" ++
      configuredBind host w config "scriptsDir" "/app/tenant_scripts")

/-- Every directory is among the volumes, at its place in the container. -/
structure BindsAll (dir workspace : PurePath) (tools scripts : PurePath → Prop)
    (volumes : Dict String Bind) : Prop where
  own : volumes.get dir.toString = some ⟨"/root/.nanobot", "rw"⟩
  workspace : volumes.get workspace.toString = some ⟨containerWorkspace, "rw"⟩
  tools : ∀ path, tools path → volumes.get path.toString = some ⟨"/app/tenant_tools", "ro"⟩
  scripts : ∀ path, scripts path → volumes.get path.toString = some ⟨"/app/tenant_scripts", "ro"⟩

/-- No two of the directories are at the same path. -/
structure Separate (dir workspace : PurePath) (tools scripts : PurePath → Prop) : Prop where
  own : dir ≠ workspace
  ofTools : ∀ path, tools path → dir ≠ path ∧ workspace ≠ path
  ofScripts : ∀ path, scripts path → dir ≠ path ∧ workspace ≠ path
  both : ∀ path, tools path → ¬scripts path

section Volumes

variable {host : Host} {w : World} {config : Json} {key bind : String} {dir workspace : PurePath}
  {volumes volumes' : Dict String Bind} {e : String × Bind}

theorem mem_configuredBind : e ∈ configuredBind host w config key bind ↔
    ∃ path, Configured host w config key path ∧ e = (path.toString, ⟨bind, "ro"⟩) := by
  unfold configuredBind Configured Replaces
  cases hresolve : resolvePath host ((config.getD "gateway").getD key) with
  | error e => simp
  | ok path =>
    dsimp only
    split_ifs with hset
    · simp [hset]
    · simpa using fun hset' hdir => absurd ⟨hset', hdir⟩ hset

/-- A key adds one entry at most. -/
theorem pairwise_configuredBind {r : String × Bind → String × Bind → Prop} :
    (configuredBind host w config key bind).Pairwise r := by
  unfold configuredBind
  split
  · split_ifs
    · exact List.pairwise_singleton _ _
    · exact List.Pairwise.nil
  · exact List.Pairwise.nil

theorem mounted_eq_assign (h : mounted host w config key bind volumes = .ok volumes') :
    volumes' = volumes.assign (configuredBind host w config key bind) := by
  unfold mounted at h
  unfold configuredBind
  dsimp only at h
  split_ifs at h with hset
  · cases hresolve : resolvePath host ((config.getD "gateway").getD key) with
    | error e => simp [hresolve] at h
    | ok path =>
      simp only [hresolve, Except.ok.injEq] at h
      subst h
      simp only [hset, true_and]
      split_ifs <;> rfl
  · obtain rfl := Except.ok.inj h
    split <;> simp [hset, Dict.assign]

theorem volumesOf_eq_assign (h : volumesOf host w dir workspace config = .ok volumes) :
    volumes = Dict.empty.assign (binds host w dir workspace config) := by
  unfold volumesOf at h
  cases htools : mounted host w config "toolsDir" "/app/tenant_tools"
      (baseVolumes dir workspace) with
  | error e => simp [htools] at h
  | ok middle =>
    simp only [htools] at h
    rw [mounted_eq_assign h, mounted_eq_assign htools, ← Dict.assign_append]
    rfl

/-- No configured directory may be at the path of an entry for another place of the container. -/
theorem forall_configuredBind_iff {dir : PurePath} {b : Bind} (hb : b ≠ ⟨bind, "ro"⟩) :
    (∀ e ∈ configuredBind host w config key bind, dir.toString = e.1 → b = e.2) ↔
      ∀ path, Configured host w config key path → dir ≠ path := by
  constructor
  · rintro h path hpath rfl
    exact hb (h _ (mem_configuredBind.mpr ⟨dir, hpath, rfl⟩) rfl)
  · intro h e he hkey
    obtain ⟨path, hpath, rfl⟩ := mem_configuredBind.mp he
    exact absurd (PurePath.toString_inj hkey) (h path hpath)

/-- No two entries have one key and two values exactly if no two directories are at one path. -/
theorem pairwise_binds_iff :
    (binds host w dir workspace config).Pairwise (fun e e' => e.1 = e'.1 → e.2 = e'.2) ↔
      Separate dir workspace (Configured host w config "toolsDir")
        (Configured host w config "scriptsDir") := by
  have hown : (dir.toString = workspace.toString →
      (⟨"/root/.nanobot", "rw"⟩ : Bind) = ⟨containerWorkspace, "rw"⟩) ↔ dir ≠ workspace :=
    ⟨fun h heq => absurd (h (congrArg _ heq)) (by decide),
      fun h hkey => absurd (PurePath.toString_inj hkey) h⟩
  have hboth : (∀ e ∈ configuredBind host w config "toolsDir" "/app/tenant_tools",
      ∀ e' ∈ configuredBind host w config "scriptsDir" "/app/tenant_scripts",
        e.1 = e'.1 → e.2 = e'.2) ↔
      ∀ path, Configured host w config "toolsDir" path →
        ¬Configured host w config "scriptsDir" path := by
    have hbind : (⟨"/app/tenant_tools", "ro"⟩ : Bind) ≠ ⟨"/app/tenant_scripts", "ro"⟩ := by decide
    constructor
    · intro h path htools hscripts
      have hpath := h _ (mem_configuredBind.mpr ⟨path, htools, rfl⟩)
      exact (forall_configuredBind_iff hbind).mp hpath path hscripts rfl
    · intro h e he
      obtain ⟨path, htools, rfl⟩ := mem_configuredBind.mp he
      refine (forall_configuredBind_iff hbind).mpr fun path' hscripts heq => ?_
      exact h path htools (heq ▸ hscripts)
  simp only [binds, List.pairwise_cons, List.pairwise_append, List.forall_mem_cons,
    List.forall_mem_append, pairwise_configuredBind, true_and, hown, hboth]
  rw [forall_configuredBind_iff (by decide), forall_configuredBind_iff (by decide),
    forall_configuredBind_iff (by decide), forall_configuredBind_iff (by decide)]
  constructor
  · rintro ⟨⟨hown, htools, hscripts⟩, ⟨htools', hscripts'⟩, hboth⟩
    exact ⟨hown, fun path hpath => ⟨htools path hpath, htools' path hpath⟩,
      fun path hpath => ⟨hscripts path hpath, hscripts' path hpath⟩, hboth⟩
  · rintro ⟨hown, htools, hscripts, hboth⟩
    refine ⟨⟨hown, ?_, ?_⟩, ⟨?_, ?_⟩, hboth⟩
    · exact fun path hpath => (htools path hpath).1
    · exact fun path hpath => (hscripts path hpath).1
    · exact fun path hpath => (htools path hpath).2
    · exact fun path hpath => (hscripts path hpath).2

/-- **The volumes have every directory** exactly if no two of them are at the same path. -/
theorem bindsAll_iff (h : volumesOf host w dir workspace config = .ok volumes) :
    BindsAll dir workspace (Configured host w config "toolsDir")
        (Configured host w config "scriptsDir") volumes ↔
      Separate dir workspace (Configured host w config "toolsDir")
        (Configured host w config "scriptsDir") := by
  have hall : BindsAll dir workspace (Configured host w config "toolsDir")
      (Configured host w config "scriptsDir") volumes ↔
        ∀ e ∈ binds host w dir workspace config, volumes.get e.1 = some e.2 := by
    simp only [binds, List.forall_mem_cons, List.forall_mem_append, mem_configuredBind]
    constructor
    · rintro ⟨hown, hworkspace, htools, hscripts⟩
      refine ⟨hown, hworkspace, ?_, ?_⟩
      · rintro _ ⟨path, hpath, rfl⟩
        exact htools path hpath
      · rintro _ ⟨path, hpath, rfl⟩
        exact hscripts path hpath
    · rintro ⟨hown, hworkspace, htools, hscripts⟩
      exact ⟨hown, hworkspace, fun path hpath => htools _ ⟨path, hpath, rfl⟩,
        fun path hpath => hscripts _ ⟨path, hpath, rfl⟩⟩
  rw [hall, volumesOf_eq_assign h, Dict.get_assign_iff, pairwise_binds_iff]

end Volumes

/-! ### Directories -/

/-- The workspace that `write_config` chooses for a configuration. -/
def chosenWorkspace (host : Host) (tenantId : String) (config : Json) : Except Err PurePath := do
  let (_, setting) ← mergeSettings config
  hostWorkspace host (tenantDir host tenantId) setting

/-- There is a directory where the path leads, once `write_config` made the tenant's own and the
workspace. -/
def World.DirAfter (w : World) (host : Host) (tenantId : String) (workspace path : PurePath) :
    Prop :=
  ∃ place, path.locate host.cwd = some place ∧ (w.fs place = some .dir ∨
    place ∈ placesOf host.cwd (tenantDir host tenantId) ∨ place ∈ placesOf host.cwd workspace)

theorem World.dirAfter_iff {host : Host} {tenantId : String} {workspace path : PurePath}
    {w w' : World} (h : MakesDirs (placesOf host.cwd (tenantDir host tenantId) ++
      placesOf host.cwd workspace) w w') :
    w.DirAfter host tenantId workspace path ↔ w'.dirAt host path = true := by
  simp only [World.DirAfter, h.dirAt_iff, List.mem_append]

/-! ### What a provisioning starts -/

/-- One container was started for the tenant, and every directory that is configured for it is
among the volumes. -/
def MountsAll (host : Host) (tenantId : String) (config : Json) (w w' : World) : Prop :=
  ∃ workspace volumes, chosenWorkspace host tenantId config = .ok workspace ∧
    started tenantId w w' = [volumes] ∧
      BindsAll (tenantDir host tenantId) workspace (Configured host w' config "toolsDir")
        (Configured host w' config "scriptsDir") volumes

/-- What a provisioning that returned started, and what it left of the files. -/
structure Mounting (host : Host) (tenantId : String) (config : Json) (w w' : World)
    (workspace : PurePath) (saved : Json) (volumes : Dict String Bind) : Prop where
  chosen : chosenWorkspace host tenantId config = .ok workspace
  like : Like config saved
  started : started tenantId w w' = [volumes]
  dirs : MakesDirs (placesOf host.cwd (tenantDir host tenantId) ++ placesOf host.cwd workspace) w w'
  volumes : volumesOf host w' (tenantDir host tenantId) workspace saved = .ok volumes

section Provisioning

variable {host : Host} {tenantId image : String} {w w' u y : World} {config written saved : Json}
  {workspace path : PurePath} {container : Container} {key : String}

theorem volumesOf_congr (h : w'.fs = w.fs) (dir : PurePath) :
    volumesOf host w' dir workspace config = volumesOf host w dir workspace config := by
  have hdirAt (p : PurePath) : w'.dirAt host p = w.dirAt host p := by
    rw [World.dirAt, World.dirAt, h]
  simp only [volumesOf, mounted, hdirAt]

theorem started_trans (h : w.effects <+: y.effects) (h' : y.effects <+: u.effects) :
    started tenantId w u = started tenantId w y ++ started tenantId y u := by
  obtain ⟨es, hes⟩ := h
  obtain ⟨es', hes'⟩ := h'
  have hsince : w.effectsSince u = w.effectsSince y ++ y.effectsSince u := by
    simp only [World.effectsSince, ← hes', ← hes, List.append_assoc, List.drop_left]
    rw [← List.append_assoc, List.drop_left]
  rw [started, hsince, List.filterMap_append]
  rfl

theorem NotStarted.started_eq_nil (h : NotStarted tenantId w u) : started tenantId w u = [] := by
  rw [started, List.filterMap_eq_nil_iff]
  intro e he
  have hstart : ¬e.Starts tenantId := h.of_mem_effectsSince he
  cases e with
  | run id c saved => exact if_neg hstart
  | _ => rfl

theorem NotStarted.grows (h : NotStarted tenantId w u) : w.effects <+: u.effects := by
  obtain ⟨es, hes, -⟩ := h
  exact ⟨es, hes.symm⟩

theorem NotStarted.of_same (h : Same w u) : NotStarted tenantId w u :=
  (NotStarted.refl tenantId w).of_eq h.effects_eq

theorem NotStarted.put (h : NotStarted tenantId w u) (state : TenantState) :
    NotStarted tenantId w (u.put state) := h.snoc rfl id

/-- The one container that was started on the way. -/
theorem started_of_run (hbefore : NotStarted tenantId w y)
    (hname : container.name = containerName tenantId)
    (hafter : NotStarted tenantId (y.started container saved) u) :
    started tenantId w u = [container.volumes] := by
  have hrun : started tenantId y (y.started container saved) = [container.volumes] := by
    simp [started, World.effectsSince, World.started, hname]
  have hgrows : y.effects <+: (y.started container saved).effects := List.prefix_append _ _
  calc started tenantId w u
      = started tenantId w y ++ started tenantId y u :=
        started_trans hbefore.grows (hgrows.trans hafter.grows)
    _ = [] ++ (started tenantId y (y.started container saved) ++
          started tenantId (y.started container saved) u) := by
        rw [hbefore.started_eq_nil, started_trans hgrows hafter.grows]
    _ = [container.volumes] := by rw [hrun, hafter.started_eq_nil]; rfl

/-- After the configuration is written, one container is started and the files stay. -/
theorem launch_starts (hmerged : ∃ setting, mergeSettings config = .ok (written, setting) ∧
      hostWorkspace host (tenantDir host tenantId) setting = .ok workspace) :
    Ends (launch host tenantId image (tenantDir host tenantId) workspace written)
      (fun _ u => ∃ y container saved,
        Started host tenantId config w y container workspace written saved ∧
          y.fs = w.fs ∧ u.fs = w.fs ∧ NotStarted tenantId (y.started container saved) u)
      (fun _ => True) w := by
  unfold launch
  refine Ends.get_bind ?_
  have himage : Does (LeavesFiles (Preparing host tenantId config)) (ensureImage host image)
      (fun _ _ => True) w :=
    ensureImage_does (fun _ _ => .of_same fun _ _ => .same) fun _ _ => ⟨.build, rfl⟩
  refine Ends.bind ((Ends.of_does himage).mono (fun _ _ h => LeavesFiles.of_reaches h.1)
    fun _ _ => trivial) ?_
  rintro _ t ⟨hsteps, hfs⟩
  refine Ends.bind ((startContainer_ends hmerged).mono (fun _ _ h => h) fun _ _ => trivial) ?_
  rintro ⟨id, saved⟩ _ ⟨y, container, hstart, hy, -, -, rfl, rfl⟩
  refine Ends.get_bind (Ends.modify_bind ?_)
  generalize hu : ({ y.started container saved with tenants := _ } : World) = u
  have hfs' : u.fs = w.fs := hu ▸ hy.trans hfs
  have hnone : NotStarted tenantId (y.started container saved) u :=
    hu ▸ NotStarted.refl tenantId (y.started container saved)
  -- the record is saved, and then only Docker is called
  refine Ends.bind (P := fun _ v => v.fs = w.fs ∧
    NotStarted tenantId (y.started container saved) v) (Ends.of_ok saveState_run ?_) ?_
  · have hasked := hnone.trans (.of_same u.same_asked)
    split_ifs
    · exact ⟨u.same_asked.fs_eq.trans hfs', hasked.put _⟩
    · exact ⟨u.same_asked.fs_eq.trans hfs', hasked⟩
  rintro _ v ⟨hv, hsaved⟩
  refine Ends.bind (ends_lift trivial) ?_
  rintro commands _ ⟨rfl, -⟩
  refine Ends.bind ((Ends.of_does runSetup_does).mono (fun _ _ h => Same.of_reaches h.1)
    fun _ _ => trivial) fun _ z hz => Ends.pure ?_
  exact ⟨y, container, saved, { hstart with reaches := hsteps.trans hstart.reaches },
    hy.trans hfs, hz.fs_eq.trans hv, hsaved.trans (.of_same hz)⟩

/-- A provisioning that returns started one container, once `write_config` had made its
directories. -/
theorem provisionTenant_mounts : Ends (provisionTenant host tenantId config image)
    (fun _ u => ∃ workspace saved volumes,
      Mounting host tenantId config w u workspace saved volumes) (fun _ => True) w := by
  unfold provisionTenant
  refine Ends.get_bind (Ends.ite (fun _ => Ends.throw _ trivial) fun _ => ?_)
  have hstop : Does (LeavesFiles (Change host tenantId none w)) (stopTenant host tenantId)
      (fun _ _ => True) w := stopTenant_keeps_files
  refine Ends.bind ((Ends.of_does hstop).mono (fun _ _ h => LeavesFiles.of_reaches h.1)
    fun _ _ => trivial) ?_
  rintro _ t ⟨hstops, hfs⟩
  refine Ends.bind ((Ends.of_does writeConfig_does).mono (fun _ _ h => h) fun _ _ => trivial) ?_
  rintro ⟨dir, workspace, written⟩ u ⟨hwrites, rfl, hwritten, -, hdirs⟩
  refine (launch_starts hwritten.merged).mono ?_ fun _ h => h
  rintro tc v ⟨y, container, saved, hstart, hy, hv, hafter⟩
  obtain ⟨setting, hmerge, hworkspace⟩ := hwritten.merged
  -- the container is started after the tenant was stopped and its configuration was written
  have hbefore : NotStarted tenantId w y :=
    (notStarted_of_changes (.inr rfl) hstops).trans
      ((notStarted_of_preparing hwrites).trans (notStarted_of_preparing hstart.reaches))
  have hfs' : v.fs = y.fs := hv.trans hy.symm
  refine ⟨workspace, saved, container.volumes, ?_, like_saved (like_written hmerge)
    hstart.prepared.injected, started_of_run hbefore hstart.name hafter, ?_,
    (volumesOf_congr hfs' _).trans hstart.volumes⟩
  · simp only [chosenWorkspace, hmerge, bind, Except.bind, hworkspace]
  · simpa using ((MakesDirs.of_fs hfs).trans hdirs).trans (MakesDirs.of_fs hv)

/-- **A provisioning mounts every directory** exactly if no two of them are at the same path: the
tenant's own, the workspace, and those of the configured ones that are directories. -/
theorem mountsAll_iff (host : Host) (tenantId : String) (config : Json) (image : String)
    (w w' : World) (tc : TenantContainer)
    (h : (provisionTenant host tenantId config image).run w = .ok tc w') :
    MountsAll host tenantId config w w' ↔
      ∀ workspace, chosenWorkspace host tenantId config = .ok workspace →
        Separate (tenantDir host tenantId) workspace
          (fun path => Replaces host config "toolsDir" path ∧
            w.DirAfter host tenantId workspace path)
          (fun path => Replaces host config "scriptsDir" path ∧
            w.DirAfter host tenantId workspace path) := by
  obtain ⟨workspace, saved, volumes, hchosen, hlike, hstarted, hdirs, hvolumes⟩ :=
    provisionTenant_mounts.ok h
  -- the saved configuration has the same directories to mount
  have hsaved {key : String}
      (hkey : (saved.getD "gateway").getD key = (config.getD "gateway").getD key) :
      Configured host w' saved key = Configured host w' config key := by
    funext path
    rw [Configured, Configured, Replaces.congr hkey]
  have hbefore (key : String) : Configured host w' config key =
      fun path => Replaces host config key path ∧ w.DirAfter host tenantId workspace path := by
    funext path
    rw [Configured, World.dirAfter_iff hdirs]
  have hbinds := bindsAll_iff hvolumes
  rw [hsaved hlike.tools, hsaved hlike.scripts] at hbinds
  constructor
  · rintro ⟨workspace', volumes', hchosen', hstarted', hall⟩ workspace'' hchosen''
    obtain rfl := Except.ok.inj (hchosen.symm.trans hchosen')
    obtain rfl := Except.ok.inj (hchosen.symm.trans hchosen'')
    obtain rfl := List.singleton_inj.mp (hstarted.symm.trans hstarted')
    rw [← hbefore, ← hbefore]
    exact hbinds.mp hall
  · intro hseparate
    refine ⟨workspace, volumes, hchosen, hstarted, hbinds.mpr ?_⟩
    rw [hbefore, hbefore]
    exact hseparate workspace hchosen

end Provisioning

theorem mountsAll_iff_alice : ∃ tc w',
    (provisionTenant sampleHost "alice" (.obj []) defaultImage).run sampleWorld = .ok tc w' ∧
      MountsAll sampleHost "alice" (.obj []) sampleWorld w' := by
  have hcheck : returns (provisionTenant sampleHost "alice" (.obj []) defaultImage) sampleWorld
      (fun _ _ => true) = true := by decide +kernel
  obtain ⟨tc, w', hrun, -⟩ := exists_of_returns hcheck
  refine ⟨tc, w', hrun, (mountsAll_iff sampleHost "alice" (.obj []) defaultImage sampleWorld w' tc
    hrun).mpr fun workspace hworkspace => ?_⟩
  have hnone {key : String} {path : PurePath} : ¬Replaces sampleHost (.obj []) key path :=
    fun h => absurd h.1 Bool.false_ne_true
  have hchosen : chosenWorkspace sampleHost "alice" (.obj []) =
      .ok (ownWorkspace sampleHost "alice") := by decide +kernel
  obtain rfl := Except.ok.inj (hchosen.symm.trans hworkspace)
  exact ⟨by decide +kernel, fun _ h => absurd h.1 hnone, fun _ h => absurd h.1 hnone,
    fun _ h => absurd h.1 hnone⟩

/-- A configuration whose workspace is also the directory of its tools. -/
def sharedWorkspace : Json :=
  .obj [("gateway", .obj [("toolsDir", .str "/data/ws")]),
    ("agents", .obj [("defaults", .obj [("workspace", .str "/data/ws")])])]

/-- **The tools take the place of the workspace** that is in the same directory. -/
theorem workspace_replaced : ∃ tc w',
    (provisionTenant sampleHost "alice" sharedWorkspace defaultImage).run sampleWorld = .ok tc w' ∧
      ¬MountsAll sampleHost "alice" sharedWorkspace sampleWorld w' := by
  have hcheck : returns (provisionTenant sampleHost "alice" sharedWorkspace defaultImage)
      sampleWorld (fun _ w' => (started "alice" sampleWorld w').all fun volumes =>
        volumes.get "/data/ws" = some ⟨"/app/tenant_tools", "ro"⟩) = true := by decide +kernel
  obtain ⟨tc, w', hrun, hcheck⟩ := exists_of_returns hcheck
  refine ⟨tc, w', hrun, ?_⟩
  rintro ⟨workspace, volumes, hworkspace, hstarted, hall⟩
  have hchosen : chosenWorkspace sampleHost "alice" sharedWorkspace =
      .ok (PurePath.ofString "/data/ws") := by decide +kernel
  obtain rfl := Except.ok.inj (hchosen.symm.trans hworkspace)
  rw [hstarted, List.all_cons, Bool.and_eq_true, decide_eq_true_eq] at hcheck
  have hkey : (PurePath.ofString "/data/ws").toString = "/data/ws" := by decide +kernel
  have hworkspace := hall.workspace
  rw [hkey, hcheck.1] at hworkspace
  exact absurd hworkspace (by decide)

end Nanogate.Tenants
