import Nanogate.Tenants.Changes

/-!
# How a tenant is provisioned

After it stopped the tenant, `provision_tenant` writes the configuration, builds the image if it
has to and removes a container in the way. Only then is the new container started, put into the
cache and recorded. Up to the start an exception leaves the cache and the records alone.

## Main definitions

* `Preparing` — one change before the container is started
* `Written`, `Provisioned` — what the writing and a provisioning that returned leave behind
* `lastWritten` — the configuration last written to a tenant's file
* `MakesDirs` — directories were made at some places and nowhere else

## Main results

* `provisionTenant_does` — a provisioning only makes changes for its tenant
-/

namespace Nanogate.Tenants

open Nanogate.Python Nanogate.Semantics Relation

/-- One change that `provision_tenant` makes after it stopped the tenant and before it starts the
new container. -/
inductive Preparing (host : Host) (tenantId : String) (config : Json) : World → World → Prop
  | same {w w' : World} (h : Same w w') : Preparing host tenantId config w w'
  | build {w : World} {image : String} :
      Preparing host tenantId config w { w with images := w.images ++ [image] }
  | mkdir {w : World} {path : PurePath} {fs : Fs}
      (h : w.fs.makeDirs (placesOf host.cwd path) = some fs)
      (hpath : path ∈ configDirs host tenantId config) :
      Preparing host tenantId config w { w with fs }
  | write {w : World} {place : Location} {fs : Fs} {written setting : Json}
      (hplace : (configPath host tenantId).locate host.cwd = some place)
      (hmerge : mergeSettings config = .ok (written, setting))
      (hdirs : ∀ path ∈ configDirs host tenantId config, ∀ k ∈ placesOf host.cwd path,
        w.fs k = some .dir)
      (hwrite : w.fs.writeFile place (.json written) = some fs)
      (hworkspace : (configWorkspace host tenantId config).isSome = true) :
      Preparing host tenantId config w
        { w with
          fs
          effects := w.effects ++ [.writeText (configPath host tenantId) (.json written)] }
  | remove {w : World} {id : ℕ} {container : Container}
      (hname : container.name = containerName tenantId)
      (hget : w.containers.get id = some container) :
      Preparing host tenantId config w
        { w with containers := w.containers.erase id, effects := w.effects ++ [.remove id] }

/-- What `write_config` leaves behind. -/
structure Written (host : Host) (tenantId : String) (config : Json) (workspace : PurePath)
    (written : Json) (w : World) : Prop where
  merged : ∃ setting, mergeSettings config = .ok (written, setting) ∧
    hostWorkspace host (tenantDir host tenantId) setting = .ok workspace
  dirAt : w.dirAt host workspace = true
  text : ∃ place, (configPath host tenantId).locate host.cwd = some place ∧
    w.fs.text place = some (.json written)

/-- The configuration that the last of some effects wrote to a tenant's file. -/
def lastWritten (host : Host) (tenantId : String) (effects : List Effect) : Option Json :=
  effects.foldl (fun last e =>
    match e with
    | .writeText path (.json v) => if path = configPath host tenantId then some v else last
    | _ => last) none

/-- The configuration is in a tenant's file, and it was the last one written there. -/
structure Filed (host : Host) (tenantId : String) (written : Json) (w : World) : Prop where
  text : ∃ place, (configPath host tenantId).locate host.cwd = some place ∧
    w.fs.text place = some (.json written)
  last : lastWritten host tenantId w.effects = some written

/-- From one world to the next, directories were made at these places and nowhere else. -/
def MakesDirs (places : List Location) (w w' : World) : Prop :=
  ∀ k, w'.fs k = some .dir ↔ w.fs k = some .dir ∨ k ∈ places

section Directories

variable {host : Host} {w w' w'' : World} {path : PurePath} {places places' : List Location}

theorem MakesDirs.of_fs (h : w'.fs = w.fs) : MakesDirs [] w w' := by
  intro k
  rw [h]
  simp

theorem MakesDirs.trans (h : MakesDirs places w w') (h' : MakesDirs places' w' w'') :
    MakesDirs (places ++ places') w w'' := by
  intro k
  rw [h' k, h k, List.mem_append, or_assoc]

theorem makesDirs_of_makeDirs {fs : Fs} (h : w.fs.makeDirs places = some fs) :
    MakesDirs places w { w with fs } := by
  intro k
  by_cases hk : k ∈ places
  · simp [hk, Fs.dir_makeDirs_of_mem h hk]
  · simp [hk, Fs.makeDirs_of_notMem h hk]

/-- Writing a file makes no directory, and takes none away. -/
theorem makesDirs_of_writeFile {fs : Fs} {place : Location} {text : FileText}
    (h : w.fs.writeFile place text = some fs) : MakesDirs [] w { w with fs } := by
  intro k
  unfold Fs.writeFile at h
  split_ifs at h with hdir
  obtain rfl := Option.some_inj.mp h
  by_cases hk : k = place
  · subst hk
    simpa using fun hnode => hdir (.inl hnode)
  · simp [hk]

theorem MakesDirs.dirAt_iff (h : MakesDirs places w w') : w'.dirAt host path = true ↔
    ∃ place, path.locate host.cwd = some place ∧ (w.fs place = some .dir ∨ place ∈ places) := by
  unfold World.dirAt
  rw [Option.any_eq_true]
  simp only [decide_eq_true_eq, h _]

/-- A path leads to a directory once all the places on the way are. -/
theorem MakesDirs.dirAt (h : MakesDirs places w w') (hlocate : (path.locate host.cwd).isSome = true)
    (hplaces : ∀ k ∈ placesOf host.cwd path, k ∈ places) : w'.dirAt host path = true := by
  obtain ⟨place, hplace⟩ := Option.isSome_iff_exists.mp hlocate
  exact h.dirAt_iff.mpr ⟨place, hplace, .inr (hplaces place (mem_placesOf hplace))⟩

end Directories

section Provisioning

variable {α : Type} {host : Host} {tenantId : String} {w₀ w w' : World} {workspace : PurePath}
  {config written : Json} {image name : String}

theorem Preparing.change (h : Preparing host tenantId config w w') :
    Change host tenantId (some config) w₀ w w' := by
  cases h with
  | same h => exact .same h
  | build => exact .build
  | mkdir h hpath => exact .mkdir h rfl hpath
  | write hplace hmerge hdirs hwrite hworkspace =>
    exact .write rfl hplace hmerge hdirs hwrite hworkspace
  | remove hname hget => exact .remove (.inr hname) hget

theorem changes_of_preparing (w₀ : World) (h : ReflTransGen (Preparing host tenantId config) w w') :
    ReflTransGen (Change host tenantId (some config) w₀) w w' :=
  ReflTransGen.mono (fun _ _ => Preparing.change) _ _ h

theorem does_preparing {m : M α} {V : α → World → Prop}
    (h : Does (Preparing host tenantId config) m V w) :
    Does (Change host tenantId (some config) w₀) m V w :=
  h.weaken fun _ => changes_of_preparing w₀

theorem lastWritten_snoc_self {effects : List Effect} {v : Json} :
    lastWritten host tenantId (effects ++ [.writeText (configPath host tenantId) (.json v)]) =
      some v := by
  simp [lastWritten]

/-- What was last written to the file was written there. -/
theorem mem_of_lastWritten {effects : List Effect} {v : Json}
    (h : lastWritten host tenantId effects = some v) :
    .writeText (configPath host tenantId) (.json v) ∈ effects := by
  induction effects using List.reverseRecOn with
  | nil => simp [lastWritten] at h
  | append_singleton es e ih =>
    rw [lastWritten, List.foldl_append, List.foldl_cons, List.foldl_nil] at h
    split at h
    · split_ifs at h with hpath
      · rw [hpath, Option.some_inj.mp h]
        exact List.mem_append_right _ (List.mem_singleton_self _)
      · exact List.mem_append_left _ (ih h)
    · exact List.mem_append_left _ (ih h)

/-- Only a write to the tenant's file changes what was last written there. -/
theorem lastWritten_append {effects es : List Effect}
    (h : ∀ e ∈ es, ∀ v, e ≠ .writeText (configPath host tenantId) (.json v)) :
    lastWritten host tenantId (effects ++ es) = lastWritten host tenantId effects := by
  induction es using List.reverseRecOn with
  | nil => rw [List.append_nil]
  | append_singleton es e ih =>
    rw [← ih fun e' he' => h e' (List.mem_append_left _ he'), ← List.append_assoc]
    have he := h e (by simp)
    unfold lastWritten
    rw [List.foldl_append (l := effects ++ es), List.foldl_cons, List.foldl_nil]
    split
    · rw [if_neg]
      rintro rfl
      exact he _ rfl
    · rfl

/-- A preparation with a configuration that is filed leaves it filed. -/
theorem Filed.of_preparing {setting : Json} (hmerge : mergeSettings config = .ok (written, setting))
    (hstep : Preparing host tenantId config w w') (h : Filed host tenantId written w) :
    Filed host tenantId written w' := by
  obtain ⟨place, hplace, htext⟩ := h.text
  cases hstep with
  | same hsame => exact ⟨⟨place, hplace, hsame.fs_eq ▸ htext⟩, hsame.effects_eq ▸ h.last⟩
  | build => exact ⟨h.text, h.last⟩
  | mkdir hmk => exact ⟨⟨place, hplace, (Fs.text_makeDirs hmk).trans htext⟩, h.last⟩
  | write hplace' hmerge' _ hwrite =>
    rw [hmerge, Except.ok.injEq, Prod.mk.injEq] at hmerge'
    obtain ⟨rfl, -⟩ := hmerge'
    refine ⟨⟨place, hplace, ?_⟩, lastWritten_snoc_self⟩
    rw [Fs.text_writeFile hwrite, htext, ite_self]
  | remove =>
    refine ⟨h.text, (lastWritten_append fun e he v => ?_).trans h.last⟩
    rw [List.mem_singleton.mp he]
    simp

/-- Directories stay. -/
theorem dir_of_change {config : Option Json} {place : Location}
    (h : Change host tenantId config w₀ w w') (hdir : w.fs place = some .dir) :
    w'.fs place = some .dir := by
  cases h with
  | same h => rw [h.fs_eq, hdir]
  | mkdir h => exact Fs.dir_makeDirs h hdir
  | write _ _ _ _ h => exact Fs.dir_writeFile h hdir
  | _ => exact hdir

theorem dirAt_of_change {config : Option Json} (h : Change host tenantId config w₀ w w')
    (hdir : w.dirAt host workspace = true) : w'.dirAt host workspace = true := by
  rw [World.dirAt, Option.any_eq_true] at hdir ⊢
  obtain ⟨place, hplace, hdir⟩ := hdir
  exact ⟨place, hplace, by simpa using dir_of_change h (by simpa using hdir)⟩

/-- A method does not undo what `write_config` left behind. -/
theorem Written.of_change (hstep : Change host tenantId (some config) w₀ w w')
    (h : Written host tenantId config workspace written w) :
    Written host tenantId config workspace written w' := by
  obtain ⟨setting, hmerge, -⟩ := h.merged
  obtain ⟨place, hplace, htext⟩ := h.text
  refine ⟨h.merged, dirAt_of_change hstep h.dirAt, place, hplace, ?_⟩
  cases hstep with
  | same hsame => rw [hsame.fs_eq, htext]
  | mkdir hmk => rw [Fs.text_makeDirs hmk, htext]
  | write hc hplace' hmerge' _ hwrite =>
    obtain rfl := Option.some_inj.mp hc
    rw [hmerge, Except.ok.injEq, Prod.mk.injEq] at hmerge'
    rw [Fs.text_writeFile hwrite, ← hmerge'.1, htext, ite_self]
  | _ => exact htext

theorem Written.of_same (h : Written host tenantId config workspace written w)
    (hsame : Same w w') : Written host tenantId config workspace written w' :=
  h.of_change (.same hsame : Change host tenantId (some config) w w w')

theorem Written.of_reaches (hsteps : ReflTransGen (Change host tenantId (some config) w₀) w w')
    (h : Written host tenantId config workspace written w) :
    Written host tenantId config workspace written w' :=
  kept_of_reaches (fun _ _ => Written.of_change) hsteps h

theorem tenantDir_mem_configDirs
    (h : ((tenantDir host tenantId).locate host.cwd).isSome = true) :
    tenantDir host tenantId ∈ configDirs host tenantId config := by
  rw [configDirs, if_pos h]
  exact List.mem_cons_self ..

theorem mem_configDirs {path : PurePath} (h : path ∈ configDirs host tenantId config) :
    path = tenantDir host tenantId ∨ configWorkspace host tenantId config = some path := by
  unfold configDirs at h
  split_ifs at h
  · simpa [List.mem_cons, Option.mem_toList] using h
  · simp at h

theorem configWorkspace_of_merge {setting : Json}
    (hmerge : mergeSettings config = .ok (written, setting))
    (hworkspace : hostWorkspace host (tenantDir host tenantId) setting = .ok workspace)
    (h : (workspace.locate host.cwd).isSome = true) :
    configWorkspace host tenantId config = some workspace := by
  simp [configWorkspace, hmerge, hworkspace, h]

theorem eq_of_configWorkspace {path : PurePath} {setting : Json}
    (h : configWorkspace host tenantId config = some path)
    (hmerge : mergeSettings config = .ok (written, setting))
    (hworkspace : hostWorkspace host (tenantDir host tenantId) setting = .ok workspace) :
    path = workspace := by
  simp only [configWorkspace, hmerge, hworkspace] at h
  split_ifs at h
  exact (Option.some_inj.mp h).symm

theorem workspace_mem_configDirs
    (hroot : ((tenantDir host tenantId).locate host.cwd).isSome = true)
    (h : configWorkspace host tenantId config = some workspace) :
    workspace ∈ configDirs host tenantId config := by
  simp [configDirs, hroot, h]

theorem mkdir_does {path : PurePath}
    (hpath : (path.locate host.cwd).isSome = true → path ∈ configDirs host tenantId config) :
    Does (Preparing host tenantId config) (mkdir host path)
      (fun _ w' => (path.locate host.cwd).isSome = true ∧
        MakesDirs (placesOf host.cwd path) w w') w := by
  unfold mkdir
  refine Does.bind (does_of_reading (fun _ _ => .same) fileCall_does) ?_
  rintro _ t ⟨hsame, -⟩
  refine Does.get_bind ?_
  cases hplace : path.locate host.cwd with
  | none => exact Does.throw _
  | some place =>
    dsimp only
    cases hmake : t.fs.makeDirs (placesOf host.cwd path) with
    | none => exact Does.throw _
    | some fs =>
      refine Does.set (.single (.mkdir hmake (hpath (by rw [hplace]; rfl)))) ⟨rfl, ?_⟩
      exact (MakesDirs.of_fs hsame.fs_eq).trans (makesDirs_of_makeDirs hmake)

theorem writeText_does {setting : Json} (hmerge : mergeSettings config = .ok (written, setting))
    (hworkspace : configWorkspace host tenantId config = some workspace)
    (hdirs : ∀ path ∈ configDirs host tenantId config, ∀ k ∈ placesOf host.cwd path,
      w.fs k = some .dir) :
    Does (Preparing host tenantId config)
      (writeText host (configPath host tenantId) (.json written))
      (fun _ w' => Filed host tenantId written w' ∧ MakesDirs [] w w') w := by
  unfold writeText
  refine Does.bind (does_of_reading (fun _ _ => .same) fileCall_does) ?_
  rintro _ t ⟨hsame, -⟩
  refine Does.get_bind ?_
  cases hplace : (configPath host tenantId).locate host.cwd with
  | none => exact Does.throw _
  | some place =>
    dsimp only
    cases hwrite : t.fs.writeFile place (.json written) with
    | none => exact Does.throw _
    | some fs =>
      refine Does.of_ok rfl (.single (.write hplace hmerge ?_ hwrite (by rw [hworkspace]; rfl)))
        ⟨⟨⟨place, hplace, ?_⟩, ?_⟩, ?_⟩
      · rwa [hsame.fs_eq]
      · simp [Fs.text_writeFile hwrite]
      · exact lastWritten_snoc_self
      · exact (MakesDirs.of_fs hsame.fs_eq).trans (makesDirs_of_writeFile hwrite)

/-- `write_config` makes the tenant's directory and the workspace it returns, and files the
configuration. -/
theorem writeConfig_does : Does (Preparing host tenantId config) (writeConfig host tenantId config)
    (fun r w' => r.1 = tenantDir host tenantId ∧
      Written host tenantId config r.2.1 r.2.2 w' ∧ Filed host tenantId r.2.2 w' ∧
      MakesDirs (placesOf host.cwd (tenantDir host tenantId) ++ placesOf host.cwd r.2.1) w w')
    w := by
  unfold writeConfig
  refine Does.bind (mkdir_does tenantDir_mem_configDirs) ?_
  rintro _ t ⟨hroot, hdir⟩
  refine Does.bind (P := fun r u => u = t ∧ mergeSettings config = .ok r)
    (does_lift fun _ h => ⟨rfl, h⟩) ?_
  rintro ⟨written, setting⟩ u ⟨rfl, hmerge⟩
  refine Does.bind (P := fun r v => v = u ∧
    hostWorkspace host (tenantDir host tenantId) setting = .ok r) (does_lift fun _ h => ⟨rfl, h⟩) ?_
  rintro workspace v ⟨rfl, hworkspace⟩
  refine Does.bind (mkdir_does fun hlocate => workspace_mem_configDirs hroot
    (configWorkspace_of_merge hmerge hworkspace hlocate)) ?_
  rintro _ x ⟨hlocate, hmade⟩
  have hfound := configWorkspace_of_merge hmerge hworkspace hlocate
  have hdirs := hdir.trans hmade
  refine Does.bind (writeText_does hmerge hfound fun path hpath k hk => (hdirs k).mpr (.inr ?_)) ?_
  · rcases mem_configDirs hpath with rfl | hpath
    · exact List.mem_append_left _ hk
    · obtain rfl := Option.some_inj.mp (hfound.symm.trans hpath)
      exact List.mem_append_right _ hk
  rintro _ y ⟨hfiled, hwrite⟩
  have hdirs' : MakesDirs (placesOf host.cwd (tenantDir host tenantId) ++
      placesOf host.cwd workspace) w y := by
    simpa using hdirs.trans hwrite
  have hat : y.dirAt host workspace = true :=
    hdirs'.dirAt hlocate fun _ hk => List.mem_append_right _ hk
  exact Does.pure ⟨rfl, ⟨⟨setting, hmerge, hworkspace⟩, hat, hfiled.text⟩, hfiled, hdirs'⟩

theorem ensureImage_does {R : World → World → Prop} (hsame : ∀ w w', Same w w' → R w w')
    (hbuild : ∀ w image, R w { w with images := w.images ++ [image] }) :
    Does R (ensureImage host image) (fun _ _ => True) w := by
  unfold ensureImage
  refine Does.get_bind (Does.ite (fun _ => Does.tryCatch ?_ ?_) fun _ => Does.pure trivial)
  · refine Does.bind (does_of_reading hsame dockerCall_does) fun _ _ _ => Does.get_bind ?_
    exact Does.ite (fun _ => Does.pure trivial) fun _ => Does.throw _
  · intro e t _
    cases e with
    | imageNotFound =>
      refine Does.ite (fun _ => ?_) fun _ => Does.pure trivial
      refine Does.bind (does_of_reading hsame dockerCall_does) fun _ _ _ => ?_
      exact Does.modify (.single (hbuild _ _)) trivial
    | notFound => exact Does.throw _
    | other => exact Does.throw _

theorem removeOld_does {R : World → World → Prop} (hsame : ∀ w w', Same w w' → R w w')
    (hremove : ∀ w id c, c.name = name → w.containers.get id = some c → R w
      { w with containers := w.containers.erase id, effects := w.effects ++ [.remove id] }) :
    Does R (removeOld name) (fun _ _ => True) w := by
  unfold removeOld
  refine Does.tryCatch (Does.bind (does_of_reading hsame containersGetByName_does) ?_) ?_
  · rintro id t ⟨hfound, c, hget, hname⟩
    unfold containerRemove
    refine Does.bind (does_of_reading hsame dockerCall_does) ?_
    rintro _ u ⟨hcalled, -⟩
    refine Does.get_bind ?_
    have hget : u.containers.get id = some c := by rw [(hfound.trans hcalled).containers_eq, hget]
    rw [hget]
    refine Does.ite (fun _ => Does.throw _) fun _ => ?_
    exact Does.of_ok rfl (.single (hremove u id c hname hget)) trivial
  · intro e t _
    cases e with
    | notFound => exact Does.pure trivial
    | imageNotFound => exact Does.throw _
    | other => exact Does.throw _

theorem mountDir_does {key bind : String} {volumes : Dict String Bind} :
    Does Same (mountDir host config key bind volumes)
      (fun v _ => mounted host w config key bind volumes = .ok v) w := by
  unfold mountDir mounted
  refine Does.ite (fun hset => ?_) fun hset => Does.pure (by rw [if_neg hset])
  rw [if_pos hset]
  refine Does.bind (P := fun p t => t = w ∧ resolvePath host _ = .ok p)
    (does_lift fun _ h => ⟨rfl, h⟩) ?_
  rintro path t ⟨rfl, hpath⟩
  refine Does.bind isDir_does ?_
  rintro b u rfl
  refine Does.ite (fun hdir => Does.pure ?_) fun hdir => Does.pure ?_
  · rw [hpath]
    simp only [if_pos hdir]
  · rw [hpath]
    simp only [if_neg hdir]

theorem Same.mounted_eq {key bind : String} {volumes : Dict String Bind} (h : Same w w') :
    mounted host w' config key bind volumes = mounted host w config key bind volumes := by
  simp only [mounted, h.dirAt_eq]

theorem ends_lift_error {β : Type} {x : Except Err β} {E : World → Prop}
    (h : ∀ e, x = .error e → E w) : Ends (lift x) (fun r u => w = u ∧ x = .ok r) E w := by
  cases x with
  | ok r => exact Ends.pure ⟨rfl, rfl⟩
  | error e => exact Ends.throw e (h e rfl)

theorem ends_lift {β : Type} {x : Except Err β} {E : World → Prop} (h : E w) :
    Ends (lift x) (fun r u => w = u ∧ x = .ok r) E w :=
  ends_lift_error fun _ _ => h

/-- The world after a container was started. -/
def World.started (w : World) (container : Container) (config : Json) : World :=
  { w with
    containers := w.containers.set w.nextId container
    nextId := w.nextId + 1
    effects := w.effects ++ [.run w.nextId container config] }

theorem containersRun_ends {container : Container} {saved : Json} :
    Ends (containersRun container saved)
      (fun id u => ∃ y, Same w y ∧ id = y.nextId ∧ u = y.started container saved ∧
        validName container.name = true ∧
        ∀ k c, y.containers.get k = some c → c.name ≠ container.name)
      (fun u => Same w u) w := by
  unfold containersRun
  refine Ends.bind ((Ends.of_does dockerCall_does).mono (fun _ _ h => Same.of_reaches h.1)
    fun _ h => Same.of_reaches h) fun _ t hsame => Ends.get_bind ?_
  refine Ends.ite (fun _ => Ends.throw _ hsame) fun _ => Ends.ite (fun _ => Ends.throw _ hsame)
    fun hvalid => Ends.ite (fun _ => Ends.throw _ hsame) fun hfree => ?_
  refine Ends.of_ok rfl ⟨t, hsame, rfl, rfl, by simpa using hvalid, fun k c hget hname => hfree ?_⟩
  exact List.any_eq_true.mpr ⟨(k, c), Dict.mem_entries_iff.mpr hget, by simpa using hname⟩

/-- The container was started from the configuration that was written, after preparations that led
to the world `y`. -/
structure Started (host : Host) (tenantId : String) (config : Json) (w y : World)
    (container : Container) (workspace : PurePath) (written saved : Json) : Prop where
  prepared : Prepared host tenantId config written workspace container.environment saved
  name : container.name = containerName tenantId
  running : container.running = true
  volumes : volumesOf host y (tenantDir host tenantId) workspace saved = .ok container.volumes
  valid : validName (containerName tenantId) = true
  free : ∀ k c, y.containers.get k = some c → c.name ≠ containerName tenantId
  reaches : ReflTransGen (Preparing host tenantId config) w y

theorem Started.change {y : World} {container : Container} {saved : Json}
    (h : Started host tenantId config w y container workspace written saved)
    (hdir : y.dirAt host workspace = true) :
    Change host tenantId (some config) w₀ y (y.started container saved) := by
  obtain ⟨name, image, port, environment, volumes, running⟩ := container
  obtain rfl : name = containerName tenantId := h.name
  obtain rfl : running = true := h.running
  exact .run rfl h.prepared hdir h.volumes

theorem startContainer_ends {port : ℕ} (hmerged : ∃ setting,
    mergeSettings config = .ok (written, setting) ∧
      hostWorkspace host (tenantDir host tenantId) setting = .ok workspace) :
    Ends (startContainer host tenantId (tenantDir host tenantId) workspace port image written)
      (fun r u => ∃ y container, Started host tenantId config w y container workspace written r.2 ∧
        y.fs = w.fs ∧ container.port = port ∧ container.image = image ∧ r.1 = y.nextId ∧
          u = y.started container r.2)
      (ReflTransGen (Preparing host tenantId config) w) w := by
  unfold startContainer
  have hold : Does (LeavesFiles (Preparing host tenantId config))
      (removeOld (containerName tenantId)) (fun _ _ => True) w :=
    removeOld_does (fun _ _ => .of_same fun _ _ => .same) fun _ _ _ hname hget =>
      ⟨.remove hname hget, rfl⟩
  refine Ends.bind ((Ends.of_does hold).mono (fun _ _ h => LeavesFiles.of_reaches h.1)
    fun _ h => (LeavesFiles.of_reaches h).1) ?_
  rintro _ u ⟨hsteps, hfs⟩
  refine Ends.bind (ends_lift hsteps) ?_
  rintro ⟨environment, saved⟩ _ ⟨rfl, hinject⟩
  have hmount {x : World} (hx : Same u x) {key bind : String} {volumes : Dict String Bind} :
      Ends (mountDir host saved key bind volumes)
        (fun v y => Same u y ∧ mounted host u saved key bind volumes = .ok v)
        (ReflTransGen (Preparing host tenantId config) w) x := by
    refine (Ends.of_does mountDir_does).mono (fun v y h => ⟨hx.trans (Same.of_reaches h.1), ?_⟩)
      fun y h => hsteps.tail (.same (hx.trans (Same.of_reaches h)))
    rw [← hx.mounted_eq, h.2]
  refine Ends.bind (hmount (Same.refl u)) ?_
  rintro volumes x ⟨hx, hvolumes⟩
  refine Ends.bind (hmount hx) ?_
  rintro volumes' y ⟨hy, hvolumes'⟩
  refine Ends.bind ((containersRun_ends (w := y)).mono (fun _ _ h => h)
    fun z hz => hsteps.tail (.same (hy.trans hz))) ?_
  rintro id v ⟨z, hz, rfl, rfl, hvalid, hfree⟩
  have hsame : Same u z := hy.trans hz
  refine Ends.pure ⟨z, _, ⟨⟨hmerged, hinject⟩, rfl, rfl, ?_, hvalid, hfree,
    hsteps.tail (.same hsame)⟩, hsame.fs_eq.trans hfs, rfl, rfl, rfl, rfl⟩
  simp only [volumesOf, hsame.mounted_eq, hvolumes, hvolumes']

theorem startContainer_does {port : ℕ}
    (hwritten : Written host tenantId config workspace written w) :
    Does (Change host tenantId (some config) w₀)
      (startContainer host tenantId (tenantDir host tenantId) workspace port image written)
      (fun r w' => (∃ environment,
          Prepared host tenantId config written workspace environment r.2) ∧
        Written host tenantId config workspace written w' ∧
        validName (containerName tenantId) = true ∧
        ∃ c, w'.containers.get r.1 = some c ∧ c.name = containerName tenantId) w := by
  refine (startContainer_ends hwritten.merged).mono ?_ fun _ => changes_of_preparing w₀
  rintro ⟨id, saved⟩ u ⟨y, container, hstart, -, -, -, rfl, rfl⟩
  have hy := hwritten.of_reaches (changes_of_preparing w₀ hstart.reaches)
  have hrun : Change host tenantId (some config) w₀ y (y.started container saved) :=
    hstart.change hy.dirAt
  exact ⟨(changes_of_preparing w₀ hstart.reaches).tail hrun, ⟨_, hstart.prepared⟩,
    hy.of_change hrun, hstart.valid, container, Dict.get_set_self, hstart.name⟩

/-- What a provisioning that returned leaves behind. -/
structure Provisioned (host : Host) (tenantId : String) (config saved : Json) (w : World) :
    Prop where
  prepared : ∃ workspace written environment,
    Prepared host tenantId config written workspace environment saved ∧
      Written host tenantId config workspace written w
  recorded : ∃ state, w.redis.get (stateKey tenantId) = some state ∧ state.configData = saved ∧
    state.lastActivity = w.now

theorem launch_does (hwritten : Written host tenantId config workspace written w) :
    Does (Change host tenantId (some config) w₀)
      (launch host tenantId image (tenantDir host tenantId) workspace written)
      (fun _ w' => w.RedisWorks → ∃ saved, Provisioned host tenantId config saved w') w := by
  unfold launch
  refine Does.get_bind ?_
  refine Does.bind (ensureImage_does (fun _ _ => .same) fun _ _ => .build).changes ?_
  rintro _ v ⟨himage, -⟩
  refine Does.bind (startContainer_does (hwritten.of_reaches himage)).changes ?_
  rintro ⟨id, saved⟩ x ⟨hstart, ⟨environment, hprepared⟩, hwritten, hvalid, container, hget, hname⟩
  have hworks (hw : w.RedisWorks) : x.RedisWorks := redisWorks_of_reaches (himage.trans hstart) hw
  refine Does.get_bind (Does.modify_bind (.single (.provisioned rfl hget hname hvalid)) ?_)
  generalize hy : ({ x with tenants := _ } : World) = y
  have hcontainers : y.asked.containers = x.containers := by rw [y.same_asked.containers_eq, ← hy]
  have hnow : y.asked.now = x.now := by rw [y.same_asked.now_eq, ← hy]
  have hcached : Written host tenantId config workspace written y :=
    hy ▸ hwritten.of_change
      (.provisioned rfl hget hname hvalid : Change host tenantId (some config) w x _)
  refine Does.bind (saveState_does ?_).changes ?_
  · rw [← hnow]
    exact .provisioned rfl (hcontainers ▸ hget) hname hprepared hvalid
  rintro _ z ⟨hsave, hz⟩
  refine Does.bind (P := fun _ t => t = z) (does_lift fun _ _ => rfl) ?_
  rintro commands _ rfl
  refine Does.bind (does_reading runSetup_does) ?_
  rintro _ u ⟨hsame, -⟩
  refine Does.pure fun hw => ⟨saved, ⟨workspace, written, environment, hprepared, ?_⟩, ?_⟩
  · exact (hcached.of_reaches hsave).of_same hsame
  · have hy' : y.RedisWorks := hy ▸ hworks hw
    rw [if_pos hy'.answers] at hz
    refine ⟨_, by rw [hsame.redis_eq, hz]; exact Dict.get_set_self, rfl, ?_⟩
    rw [hsame.now_eq, hz, ← hnow]
    rfl

theorem startTenant_does : Does (Change host tenantId (some config) w₀)
    (startTenant host tenantId config image)
    (fun _ w' => w.RedisWorks → ∃ saved, Provisioned host tenantId config saved w') w := by
  unfold startTenant
  refine Does.bind (does_preparing writeConfig_does).changes ?_
  rintro ⟨dir, workspace, written⟩ u ⟨hwrite, rfl, hwritten, -⟩
  exact (launch_does hwritten).mono fun _ _ _ hdone hw =>
    hdone (redisWorks_of_reaches hwrite hw)

theorem provisionTenant_does : Does (Change host tenantId (some config) w)
    (provisionTenant host tenantId config image)
    (fun _ w' => w.RedisWorks → ∃ saved, Provisioned host tenantId config saved w') w := by
  unfold provisionTenant
  refine Does.get_bind (Does.ite (fun _ => Does.throw _) fun _ => ?_)
  refine Does.bind stopTenant_does.changes ?_
  rintro _ t ⟨hstop, -⟩
  exact startTenant_does.mono fun _ _ _ hdone hw => hdone (redisWorks_of_reaches hstop hw)

theorem effects_prefix_of_change {config : Option Json}
    (h : Change host tenantId config w₀ w w') : w.effects <+: w'.effects := by
  cases h with
  | same h => rw [h.effects_eq]
  | save | stop | remove | write | run => exact List.prefix_append _ _
  | _ => exact List.prefix_rfl

end Provisioning

end Nanogate.Tenants
