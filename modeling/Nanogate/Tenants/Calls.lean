import Nanogate.Tenants.Turns

/-!
# Runs as calls for single tenants

An operation of the gateway is a sequence of calls: a pass of the pruner calls `stop_tenant` for
one tenant after the other, a restart checks one record after the other, `get_or_create` looks a
tenant up, stops it and starts it. While Redis works each call leads to one of the worlds its
method leads to as a whole, so an invariant of a gateway is proved call by call.

## Main definitions

* `Sound` — the world of a gateway whose Redis works
* `Call`, `calls` — the calls of an operation, each with the world it is made in
* `Turn` — where one call leads
* `Keeps` — a property that calls keep

## Main results

* `sound_of_run` — the world of a gateway stays sound
* `Keeps.of_run`, `restart_rule` — what every call keeps, the runs keep
-/

namespace Nanogate.Tenants

open Nanogate.Python Nanogate.Semantics Relation

/-! ### Preparations -/

/-- The file of a tenant holds a configuration that is not empty. -/
def HasFile (host : Host) (w : World) (tenantId : String) : Prop :=
  ∃ place v, configPlace host tenantId = some place ∧ w.fs.text place = some (.json v) ∧
    v.isObj = true ∧ v.truthy = true

/-- What preparations for a tenant leave alone. -/
structure Untouched (host : Host) (tenantId : String) (w w' : World) : Prop where
  tenants : w'.tenants = w.tenants
  redis : w'.redis = w.redis
  hasClient : w'.hasClient = w.hasClient
  now : w'.now = w.now
  nextId : w'.nextId = w.nextId
  old : ∀ k c, w'.containers.get k = some c → w.containers.get k = some c
  kept : ∀ k c, w.containers.get k = some c → c.name ≠ containerName tenantId →
    w'.containers.get k = some c
  file : ∀ t, HasFile host w t → HasFile host w' t
  text : ∀ place, configPlace host tenantId ≠ some place → w'.fs.text place = w.fs.text place
  adds : Adds (fun
    | .writeText path _ => path = configPath host tenantId
    | .remove _ => True
    | _ => False) w w'

section Frame

variable {host : Host} {w w' : World} {tenantId t : String} {config : Json}

/-- A configuration that `write_config` wrote is a dictionary and not empty. -/
theorem isObj_of_mergeSettings {written setting : Json}
    (h : mergeSettings config = .ok (written, setting)) :
    written.isObj = true ∧ written.truthy = true := by
  obtain ⟨_, _, _, -, -, -, -, rfl⟩ := mergeSettings_eq_ok h
  exact ⟨Json.isObj_set, Json.truthy_set⟩

theorem HasFile.of_fs (hfs : w'.fs = w.fs) (h : HasFile host w t) : HasFile host w' t := by
  unfold HasFile at h ⊢
  rwa [hfs]

theorem Untouched.refl (host : Host) (tenantId : String) (w : World) :
    Untouched host tenantId w w :=
  ⟨rfl, rfl, rfl, rfl, rfl, fun _ _ h => h, fun _ _ h _ => h, fun _ h => h, fun _ _ => rfl,
    Adds.refl _ _⟩

theorem Untouched.of_preparing {u : World} (hstep : Preparing host tenantId config w w')
    (h : Untouched host tenantId u w) : Untouched host tenantId u w' := by
  obtain ⟨htenants, hredis, hclient, hnow, hnext, hold, hkept, hfile, htext, hadds⟩ := h
  cases hstep with
  | same hsame =>
    obtain ⟨_, _, _, _, _, _, rfl⟩ := hsame
    exact ⟨htenants, hredis, hclient, hnow, hnext, hold, hkept, hfile, htext, hadds⟩
  | build => exact ⟨htenants, hredis, hclient, hnow, hnext, hold, hkept, hfile, htext, hadds⟩
  | mkdir hmk =>
    refine ⟨htenants, hredis, hclient, hnow, hnext, hold, hkept, fun t ht => ?_,
      fun place hne => ?_, hadds⟩
    · obtain ⟨place, v, hplace, hv, hobj⟩ := hfile t ht
      exact ⟨place, v, hplace, (Fs.text_makeDirs hmk).trans hv, hobj⟩
    · exact (Fs.text_makeDirs hmk).trans (htext place hne)
  | write hplace hmerge _ hwrite =>
    refine ⟨htenants, hredis, hclient, hnow, hnext, hold, hkept, fun t ht => ?_, fun k hne => ?_,
      hadds.snoc rfl rfl⟩
    · obtain ⟨k, v, hplace', hv, hobj⟩ := hfile t ht
      by_cases hk : some k = configPlace host tenantId
      · -- the tenant's own file is a dictionary again
        obtain rfl := Option.some_inj.mp (hk.trans hplace)
        refine ⟨k, _, hplace', ?_, isObj_of_mergeSettings hmerge⟩
        exact (Fs.text_writeFile hwrite).trans (if_pos rfl)
      · refine ⟨k, v, hplace', ((Fs.text_writeFile hwrite).trans (if_neg ?_)).trans hv, hobj⟩
        rintro rfl
        exact hk hplace.symm
    · rw [Fs.text_writeFile hwrite, if_neg, htext k hne]
      rintro rfl
      exact hne hplace
  | remove hname hget =>
    refine ⟨htenants, hredis, hclient, hnow, hnext, fun k c hc => ?_, fun k c hc hne => ?_, hfile,
      htext, hadds.snoc rfl trivial⟩
    · rw [Dict.get_erase] at hc
      split_ifs at hc
      exact hold k c hc
    · refine (Dict.get_erase_of_ne ?_).trans (hkept k c hc hne)
      rintro rfl
      -- only a container of the tenant's name is removed
      rw [hkept k c hc hne, Option.some_inj] at hget
      exact hne (hget ▸ hname)

theorem untouched_of_preparing (h : ReflTransGen (Preparing host tenantId config) w w') :
    Untouched host tenantId w w' :=
  kept_of_reaches (fun _ _ => Untouched.of_preparing) h (Untouched.refl host tenantId w)

end Frame

/-! ### Sound worlds -/

/-- A record that a gateway with a Docker client saved. -/
structure Genuine (host : Host) (w : World) (state : TenantState) : Prop where
  hasClient : w.hasClient = true
  valid : validName (containerName state.tenantId) = true
  isObj : state.configData.isObj = true
  file : HasFile host w state.tenantId

/-- Every record is genuine and under its tenant's key, and every tenant in the cache has one. -/
structure Registered (host : Host) (w : World) : Prop where
  record : ∀ key state, w.redis.get key = some state →
    key = stateKey state.tenantId ∧ Genuine host w state
  known : ∀ t tc, w.tenants.get t = some tc → (w.redis.get (stateKey t)).isSome = true

/-- The world of a gateway whose Redis works. -/
structure Sound (host : Host) (w : World) : Prop where
  coherent : Coherent host w
  redisWorks : w.RedisWorks
  registered : Registered host w

section Soundness

variable {host : Host} {w w' : World} {tenantId t : String} {state : TenantState}
  {tc : TenantContainer}

theorem Genuine.congr (h : Genuine host w state) (hclient : w'.hasClient = w.hasClient)
    (hfile : HasFile host w state.tenantId → HasFile host w' state.tenantId) :
    Genuine host w' state :=
  ⟨hclient.trans h.hasClient, h.valid, h.isObj, hfile h.file⟩

theorem Fresh.sound (h : Fresh w) (hw : w.RedisWorks) : Sound host w :=
  ⟨h.coherent, hw, fun key state hstate => by simp [h.redis] at hstate,
    fun t tc htc => by simp [h.tenants] at htc⟩

theorem Sound.canonical (h : Sound host w) {key : String} (hkey : key ∈ w.redis.keys) :
    Canonical key := by
  obtain ⟨state, hstate⟩ := Dict.mem_keys_iff.mp hkey
  obtain ⟨rfl, hgenuine⟩ := h.registered.record key state hstate
  exact canonical_stateKey hgenuine.valid

/-- There is a holder only where there is a record. -/
theorem Registered.record_of_holder (h : Registered host w)
    (hholder : w.holder tenantId = some tc) :
    ∃ state, w.redis.get (stateKey tenantId) = some state ∧ state.tenantId = tenantId ∧
      Genuine host w state := by
  have hsome : (w.redis.get (stateKey tenantId)).isSome = true := by
    cases hentry : w.tenants.get tenantId with
    | some tc => exact h.known _ _ hentry
    | none =>
      cases hrecord : w.redis.get (stateKey tenantId) with
      | some state => rfl
      | none => simp [World.holder, hentry, hrecord] at hholder
  obtain ⟨state, hstate⟩ := Option.isSome_iff_exists.mp hsome
  obtain ⟨hkey, hgenuine⟩ := h.record _ _ hstate
  exact ⟨state, hstate, (stateKey_inj.mp hkey).symm, hgenuine⟩

theorem Sound.hasClient_of_holder (h : Sound host w) (hholder : (w.holder tenantId).isSome = true) :
    w.hasClient = true := by
  obtain ⟨tc, htc⟩ := Option.isSome_iff_exists.mp hholder
  obtain ⟨_, _, _, hgenuine⟩ := h.registered.record_of_holder htc
  exact hgenuine.hasClient

theorem known_of_holder (hholder : w.holder tenantId = some tc) : Known tenantId w tc := by
  cases hentry : w.tenants.get tenantId with
  | some tc' =>
    obtain rfl : tc' = tc := by simpa [World.holder, hentry] using hholder
    exact .entry hentry
  | none =>
    cases hrecord : w.redis.get (stateKey tenantId) with
    | none => simp [World.holder, hentry, hrecord] at hholder
    | some state =>
      cases hrun : state.runningContainer with
      | none => simp [World.holder, hentry, hrecord, hrun] at hholder
      | some id =>
        obtain rfl : state.toContainer id = tc := by
          simpa [World.holder, hentry, hrecord, hrun] using hholder
        exact .record hrecord hrun

/-- What `stop_tenant` saves is a dictionary. -/
theorem Sound.isObj_kept (h : Sound host w) (hholder : w.holder tenantId = some tc) :
    (w.kept host tenantId tc).isObj = true := by
  obtain ⟨state, hstate, rfl, hgenuine⟩ := h.registered.record_of_holder hholder
  have hdir := (h.coherent.belongs_of_known (known_of_holder hholder)).configDir_eq
  obtain ⟨place, v, hplace, hv, hobj, -⟩ := hgenuine.file
  have hfile : (w.fromFile host tc).isObj = true := by
    unfold World.fromFile
    rw [hdir]
    dsimp only
    unfold World.readAt World.configAt
    split_ifs
    · rfl
    · have hplace :
          ((tenantDir host state.tenantId).join "config.json").locate host.cwd = some place :=
        hplace
      rw [hplace, Option.bind_some, hv]
      exact hobj
  unfold World.kept Json.or
  rw [hstate]
  split_ifs
  · exact hfile
  · exact hgenuine.isObj

/-- In a sound world only the question whether the file exists makes `stop_tenant` raise. -/
theorem Sound.stopRaises_iff (h : Sound host w) : w.StopRaises host tenantId ↔
    (w.holder tenantId).isSome = true ∧ w.fileFaults.head? = some true := by
  constructor
  · rintro ⟨tc, htc, hread | hobj⟩
    · exact ⟨by rw [htc]; rfl, hread.2⟩
    · rw [h.isObj_kept htc] at hobj
      exact absurd hobj (by decide)
  · rintro ⟨hsome, hfault⟩
    obtain ⟨tc, htc⟩ := Option.isSome_iff_exists.mp hsome
    have hdir := (h.coherent.belongs_of_known (known_of_holder htc)).configDir_eq
    exact ⟨tc, htc, .inl ⟨by rw [hdir]; rfl, hfault⟩⟩

end Soundness

/-! ### Calls -/

/-- A call for one tenant, in the world it is made in. -/
inductive Call where
  | stop (tenantId : String) (w : World)
  | look (tenantId : String) (w : World)
  | touch (tenantId : String) (w : World)
  /-- `provision_tenant` after it stopped the tenant. -/
  | start (tenantId : String) (config : Json) (w : World)

/-- The tenant of a call. -/
def Call.tenantId : Call → String
  | .stop t _ | .look t _ | .touch t _ | .start t _ _ => t

/-- The world a call is made in. -/
def Call.world : Call → World
  | .stop _ w | .look _ w | .touch _ w | .start _ _ w => w

/-- The configuration that a call provisions, if it does. -/
def Call.config : Call → Option Json
  | .start _ c _ => some c
  | _ => none

/-- Where a call leads while Redis works. -/
def Call.Leads (host : Host) : Call → World → Prop
  | .stop t w, u => Stopping host t w u
  | .look t w, u => Looking t w u
  | .touch t w, u => Touching t w u
  | .start t c w, u => w.holder t = none ∧ w.hasClient = true ∧ Launching host t c w u

/-- One step of a gateway: a call that meets `P`, or nothing that matters to the tenants. -/
inductive Turn (host : Host) (P : Call → Prop) : World → World → Prop
  | same {w w' : World} (h : Same w w') : Turn host P w w'
  | build {w : World} {image : String} : Turn host P w { w with images := w.images ++ [image] }
  | call {c : Call} {w' : World} (hP : P c) (h : c.Leads host w')
      (hchanges : ReflTransGen (Change host c.tenantId c.config c.world) c.world w') :
      Turn host P c.world w'

section Turns

variable {host : Host} {P : Call → Prop} {w w' : World} {tenantId : String} {state : TenantState}
  {c : Call}

theorem Registered.congr (h : Registered host w) (hredis : w'.redis = w.redis)
    (hclient : w'.hasClient = w.hasClient) (hfile : ∀ t, HasFile host w t → HasFile host w' t)
    (hknown : ∀ t tc, w'.tenants.get t = some tc → (w.tenants.get t).isSome = true) :
    Registered host w' := by
  refine ⟨fun key state hstate => ?_, fun t tc htc => ?_⟩
  · obtain ⟨hkey, hgenuine⟩ := h.record key state (hredis ▸ hstate)
    exact ⟨hkey, hgenuine.congr hclient (hfile _)⟩
  · obtain ⟨tc', htc'⟩ := Option.isSome_iff_exists.mp (hknown t tc htc)
    rw [hredis]
    exact h.known t tc' htc'

theorem Registered.put (h : Registered host w) (hstate : Genuine host w state) :
    Registered host (w.put state) := by
  refine ⟨fun key state' hget => ?_, fun t tc htc => ?_⟩
  · rw [World.put, Dict.get_set] at hget
    split_ifs at hget with heq
    · obtain rfl := Option.some_inj.mp hget
      exact ⟨heq, hstate.congr rfl id⟩
    · obtain ⟨hkey, hgenuine⟩ := h.record key state' hget
      exact ⟨hkey, hgenuine.congr rfl id⟩
  · rw [World.put, Dict.get_set]
    split_ifs
    · rfl
    · exact h.known t tc htc

theorem Registered.cached {tc : TenantContainer} (h : Registered host w)
    (hrecord : (w.redis.get (stateKey tenantId)).isSome = true) :
    Registered host (w.cached tenantId tc) := by
  refine ⟨fun key state hstate => ?_, fun t tc htc => ?_⟩
  · obtain ⟨hkey, hgenuine⟩ := h.record key state hstate
    exact ⟨hkey, hgenuine.congr rfl id⟩
  · rw [World.cached, Dict.get_set] at htc
    split_ifs at htc with heq
    · exact heq ▸ hrecord
    · exact h.known t tc htc

theorem Registered.uncached (h : Registered host w) (hread : Read (w.uncache tenantId) w') :
    Registered host w' := by
  obtain ⟨_, _, rfl⟩ := hread
  refine h.congr rfl rfl (fun _ => id) fun t tc htc => ?_
  rw [World.uncache, Dict.get_erase] at htc
  split_ifs at htc
  rw [htc]
  rfl

theorem Registered.of_same (h : Registered host w) (hsame : Same w w') : Registered host w' := by
  obtain ⟨_, _, _, _, _, _, rfl⟩ := hsame
  exact h.congr rfl rfl (fun _ => id) fun t tc htc => by rw [htc]; rfl

theorem Registered.of_launching {config : Json} (h : Registered host w)
    (hclient : w.hasClient = true) (hlaunch : Launching host tenantId config w w') :
    Registered host w' := by
  have hprepared {y : World} (hsteps : ReflTransGen (Preparing host tenantId config) w y) :
      Registered host y := by
    have hframe := untouched_of_preparing hsteps
    refine h.congr hframe.redis hframe.hasClient hframe.file fun t tc htc => ?_
    rw [hframe.tenants] at htc
    rw [htc]
    rfl
  cases hlaunch with
  | failed hsteps => exact hprepared hsteps
  | @launched y _ container _ written saved hstart hfiled hsame =>
    refine Registered.of_same ?_ hsame
    have hy : Registered host (y.started container saved) :=
      (hprepared hstart.reaches).congr rfl rfl (fun _ => id) fun t tc htc => by
        rw [World.started] at htc
        rw [htc]
        rfl
    -- the new record is genuine: its file was just written
    obtain ⟨⟨setting, hmerge, -⟩, hinject⟩ := hstart.prepared
    obtain ⟨hobj, htruthy⟩ := isObj_of_mergeSettings hmerge
    have hgenuine : Genuine host (y.started container saved)
        (runningState host tenantId y.nextId container.port saved
          (y.started container saved).now) := by
      refine ⟨?_, hstart.valid, ?_, ?_⟩
      · exact (untouched_of_preparing hstart.reaches).hasClient.trans hclient
      · rcases injectEnv_saved hinject with rfl | rfl
        · exact hobj
        · exact Json.isObj_set
      · obtain ⟨place, hplace, htext⟩ := hfiled.text
        exact ⟨place, written, hplace, htext, hobj, htruthy⟩
    refine (hy.put hgenuine).cached ?_
    rw [World.put]
    exact congrArg Option.isSome Dict.get_set_self

theorem Registered.of_leads (h : Registered host c.world) (hleads : c.Leads host w') :
    Registered host w' := by
  cases c with
  | stop t w =>
    cases hleads with
    | idle => exact h
    | raised _ hread => exact h.uncached hread
    | @stopped tc _ hholder hno hhalted =>
      obtain ⟨state, hstate, rfl, hgenuine⟩ := h.record_of_holder hholder
      -- a method that returned saved a dictionary
      have hobj : (w.kept host state.tenantId tc).isObj = true := by
        by_contra hobj
        exact hno ⟨tc, hholder, .inr (by simpa using hobj)⟩
      have hstopped : Genuine host w (tc.stopped state.tenantId (w.kept host state.tenantId tc)) :=
        ⟨hgenuine.hasClient, hgenuine.valid, hobj, hgenuine.file⟩
      refine (h.put hstopped).congr hhalted.redis hhalted.hasClient
        (fun _ => HasFile.of_fs hhalted.fs) fun t tc' htc' => ?_
      rw [hhalted.tenants, Dict.get_erase] at htc'
      split_ifs at htc'
      exact Option.isSome_iff_exists.mpr ⟨tc', htc'⟩
  | look t w =>
    cases hleads with
    | hit hentry => exact h.cached (h.known _ _ hentry)
    | nothing => exact h
    | restored _ hstate =>
      have hcalled : Registered host w.dockerCalled := h.of_same w.same_dockerCalled
      refine hcalled.cached ?_
      rw [World.dockerCalled, hstate]
      rfl
    | missing _ hstate =>
      have hcalled : Registered host w.dockerCalled := h.of_same w.same_dockerCalled
      obtain ⟨-, hgenuine⟩ := hcalled.record _ _ hstate
      exact hcalled.put ⟨hgenuine.hasClient, hgenuine.valid, hgenuine.isObj, hgenuine.file⟩
  | touch t w =>
    cases hleads with
    | absent => exact h
    | cached hentry => exact h.cached (h.known _ _ hentry)
    | recorded hentry hstate _ =>
      obtain ⟨-, hgenuine⟩ := h.record _ _ hstate
      exact (h.cached (h.known _ _ hentry)).put
        ⟨hgenuine.hasClient, hgenuine.valid, hgenuine.isObj, hgenuine.file⟩
  | start t config w => exact h.of_launching hleads.2.1 hleads.2.2

theorem Sound.of_same (h : Sound host w) (hsame : Same w w') : Sound host w' :=
  ⟨h.coherent.of_same hsame, hsame.redisWorks h.redisWorks, h.registered.of_same hsame⟩

theorem Sound.of_leads (h : Sound host c.world) (hleads : c.Leads host w')
    (hchanges : ReflTransGen (Change host c.tenantId c.config c.world) c.world w') :
    Sound host w' :=
  ⟨(kept_of_method (I := fun _ => True) h.coherent (fun _ _ _ _ _ _ => trivial) hchanges trivial).1,
    redisWorks_of_reaches hchanges h.redisWorks, h.registered.of_leads hleads⟩

theorem Sound.of_turn (h : Sound host w) (hturn : Turn host P w w') : Sound host w' := by
  cases hturn with
  | same hsame => exact h.of_same hsame
  | build =>
    exact ⟨h.coherent.congr rfl rfl rfl rfl, h.redisWorks,
      h.registered.congr rfl rfl (fun _ => id) fun t tc htc => by rw [htc]; rfl⟩
  | call _ hleads hchanges => exact h.of_leads hleads hchanges

/-- A property that every call meeting `P` keeps in sound worlds. -/
structure Keeps (host : Host) (P : Call → Prop) (I : World → Prop) : Prop where
  same : ∀ u v, Same u v → I u → I v
  build : ∀ u image, I u → I { u with images := u.images ++ [image] }
  call : ∀ c v, P c → Sound host c.world → Sound host v → c.Leads host v →
    ReflTransGen (Change host c.tenantId c.config c.world) c.world v → I c.world → I v

/-- **Invariants of calls.** What every call that meets `P` keeps, a chain of such calls keeps. -/
theorem Keeps.of_turns {I : World → Prop} (hI : Keeps host P I)
    (hR : ReflTransGen (Turn host P) w w') (hw : Sound host w) (h : I w) :
    Sound host w' ∧ I w' := by
  refine kept_of_reaches (I := fun w => Sound host w ∧ I w) ?_ hR ⟨hw, h⟩
  rintro u v hturn ⟨hu, hIu⟩
  have hv := hu.of_turn hturn
  cases hturn with
  | same h => exact ⟨hv, hI.same _ _ h hIu⟩
  | build => exact ⟨hv, hI.build _ _ hIu⟩
  | call hP hleads hchanges => exact ⟨hv, hI.call _ _ hP hu hv hleads hchanges hIu⟩

end Turns

/-! ### The calls of an operation -/

/-- The tenants that a pass finds idle. -/
def World.stale (w : World) (keys : List String) : List String :=
  if w.hasRedis then
    (keys.map tenantOfKey).filter fun t => (w.redis.get (stateKey t)).any fun state =>
      state.status = .running ∧ idleTimeout < w.now - state.lastActivity
  else (w.tenants.entries.filter fun e => idleTimeout < w.now - e.2.lastActivity).map Prod.fst

/-- The calls of a loop over `stop_tenant`, up to the one that raises. -/
def stopCalls (host : Host) (w : World) : List String → List Call
  | [] => []
  | t :: ts =>
    .stop t w ::
      match (stopTenant host t).run w with
      | .ok _ u => stopCalls host u ts
      | .error _ _ => []

/-- The calls of `provision_tenant`. -/
def provisionCalls (host : Host) (w : World) (t : String) (config : Json) : List Call :=
  if w.hasClient then
    .stop t w ::
      match (stopTenant host t).run w with
      | .ok _ u => [.start t config u]
      | .error _ _ => []
  else []

/-- The calls of `get_or_create`. -/
def getOrCreateCalls (host : Host) (w : World) (t : String) : List Call :=
  .look t w ::
    match (getTenant t).run w with
    | .ok none u =>
      match (getSavedState t).run u with
      | .ok saved v => provisionCalls host v t (saved.getD (.obj []))
      | .error _ _ => []
    | _ => []

/-- The calls of `_reload_running_from_redis`, each a miss of the empty cache. -/
def reloadCalls (w : World) : List String → List Call
  | [] => []
  | key :: keys => .look (tenantOfKey key) w :: reloadCalls (endState (reloadKeys [key]) w) keys

/-- The calls of an operation. -/
def calls (host : Host) (w : World) : Op → List Call
  | .provision t config _ => provisionCalls host w t config
  | .getTenant t => [.look t w]
  | .getOrCreate t => getOrCreateCalls host w t
  | .touch t => [.touch t w]
  | .stop t => [.stop t w]
  | .prune keys => stopCalls host w (w.stale keys)
  | .restart keys =>
    if w.hasClient then reloadCalls { w with tenants := .empty, hasRedis := true } keys else []
  | .shutdown => stopCalls host w w.tenants.keys
  | .pass _ | .vanish _ | .listen _ | .fail .. => []

section Calls

variable {host : Host} {P : Call → Prop} {w w' : World} {tenantId image : String} {config : Json}
  {ts keys : List String}

theorem stop_turn (tenantId : String) (hw : Sound host w) (hP : P (.stop tenantId w)) :
    Ends (stopTenant host tenantId)
      (fun _ u => Turn host P w u ∧ ¬w.StopRaises host tenantId ∧ Stopping host tenantId w u)
      (fun u => Turn host P w u ∧ w.StopRaises host tenantId ∧ Stopping host tenantId w u) w := by
  have hdoes : Does (Change host tenantId none w) (stopTenant host tenantId) (fun _ _ => True) w :=
    stopTenant_does
  refine ((stopTenant_ends hw.redisWorks hw.hasClient_of_holder).and
    (Ends.of_does hdoes)).mono ?_ ?_
  · rintro _ u ⟨⟨hno, h⟩, hchanges, -⟩
    exact ⟨.call (c := .stop tenantId w) hP h hchanges, hno, h⟩
  · rintro u ⟨⟨hraises, h⟩, hchanges⟩
    exact ⟨.call (c := .stop tenantId w) hP h hchanges, hraises, h⟩

theorem look_turn (host : Host) (tenantId : String) (hw : w.RedisWorks)
    (hP : P (.look tenantId w)) :
    Ends (getTenant tenantId)
      (fun r u => Turn host P w u ∧ Looking tenantId w u ∧ r = u.tenants.get tenantId)
      (fun _ => False) w := by
  refine ((getTenant_ends hw).and (Ends.of_does (getTenant_does host none))).mono ?_ ?_
  · rintro r u ⟨⟨h, hr⟩, hchanges, -⟩
    exact ⟨.call (c := .look tenantId w) hP h hchanges, h, hr⟩
  · exact fun _ h => h.1

theorem touch_turn (host : Host) (hw : w.RedisWorks) (hP : P (.touch tenantId w)) :
    Ends (touch tenantId) (fun _ u => Turn host P w u ∧ Touching tenantId w u) (fun _ => False)
      w := by
  refine ((touch_ends hw).and (Ends.of_does (touch_does host none))).mono ?_ ?_
  · rintro r u ⟨h, hchanges, -⟩
    exact ⟨.call (c := .touch tenantId w) hP h hchanges, h⟩
  · exact fun _ h => h.1

theorem start_turn (hw : w.RedisWorks) (hholder : w.holder tenantId = none)
    (hclient : w.hasClient = true) (hP : P (.start tenantId config w)) :
    Ends (startTenant host tenantId config image)
      (fun _ u => Turn host P w u ∧ Launching host tenantId config w u)
      (fun u => Turn host P w u ∧ Launching host tenantId config w u) w := by
  have hdoes : Does (Change host tenantId (some config) w) (startTenant host tenantId config image)
      (fun _ _ => True) w := startTenant_does.mono fun _ _ _ _ => trivial
  refine ((startTenant_ends hw).and (Ends.of_does hdoes)).mono ?_ ?_
  · rintro r u ⟨h, hchanges, -⟩
    exact ⟨.call (c := .start tenantId config w) hP ⟨hholder, hclient, h⟩ hchanges, h⟩
  · rintro u ⟨h, hchanges⟩
    exact ⟨.call (c := .start tenantId config w) hP ⟨hholder, hclient, h⟩ hchanges, h⟩

/-- After `stop_tenant` returned there is no holder. -/
theorem Stopping.holder_eq_none (h : Stopping host tenantId w w')
    (hno : ¬w.StopRaises host tenantId) : w'.holder tenantId = none := by
  cases h with
  | idle h => exact h
  | raised h => exact absurd h hno
  | stopped _ _ hhalted =>
    rw [World.holder, hhalted.tenants, Dict.get_erase_self, hhalted.redis, TenantContainer.stopped,
      Dict.get_set_self]
    rfl

theorem Stopping.hasClient_eq (h : Stopping host tenantId w w') : w'.hasClient = w.hasClient := by
  cases h with
  | idle => rfl
  | raised _ hread => exact hread.hasClient_eq
  | stopped _ _ hhalted => exact hhalted.hasClient

theorem stopAll_turns (hw : Sound host w) (hP : ∀ c ∈ stopCalls host w ts, P c) :
    Does (Turn host P) (stopAll host ts) (fun _ _ => True) w := by
  induction ts generalizing w with
  | nil => exact Does.pure trivial
  | cons t ts ih =>
    refine Does.bind (Does.of_ends (((stop_turn _ hw (hP _ (List.mem_cons_self ..))).and
      (Ends.self _ _)).mono (fun _ _ h => ⟨h.1.1, h⟩) fun _ h => h.1.1)) ?_
    rintro _ u ⟨⟨hturn, -⟩, hrun⟩
    refine ih (hw.of_turn hturn) fun c hc => hP c (List.mem_cons_of_mem _ ?_)
    rwa [hrun]

theorem provisionTenant_turns (hw : Sound host w)
    (hP : ∀ c ∈ provisionCalls host w tenantId config, P c) :
    Does (Turn host P) (provisionTenant host tenantId config image) (fun _ _ => True) w := by
  by_cases hclient : w.hasClient = true
  · rw [provisionCalls, if_pos hclient] at hP
    have hsplit : Does (Turn host P) (do
        stopTenant host tenantId
        startTenant host tenantId config image) (fun _ _ => True) w := by
      refine Does.bind (Does.of_ends (((stop_turn _ hw (hP _ (List.mem_cons_self ..))).and
        (Ends.self _ _)).mono (fun _ _ h => ⟨h.1.1, h⟩) fun _ h => h.1.1)) ?_
      rintro _ u ⟨⟨hturn, hno, hstop⟩, hrun⟩
      have hstart := hP (.start tenantId config u) (by simp [hrun])
      exact Does.of_ends ((start_turn (hw.of_turn hturn).redisWorks (hstop.holder_eq_none hno)
        (hstop.hasClient_eq.trans hclient) hstart).mono (fun _ _ h => ⟨h.1, trivial⟩)
        fun _ h => h.1)
    simpa only [Does, provisionTenant_run hclient] using hsplit
  · unfold provisionTenant
    refine Does.get_bind ?_
    rw [if_pos (by simpa using hclient)]
    exact Does.throw _

theorem getOrCreate_turns (hw : Sound host w)
    (hP : ∀ c ∈ getOrCreateCalls host w tenantId, P c) :
    Does (Turn host P) (getOrCreate host tenantId) (fun _ _ => True) w := by
  unfold getOrCreate
  have hlook := look_turn host tenantId hw.redisWorks (hP _ (List.mem_cons_self ..))
  refine Does.bind (Does.of_ends ((hlook.and (Ends.self _ _)).mono (fun _ _ h => ⟨h.1.1, h⟩)
    fun _ h => h.1.elim)) ?_
  rintro r u ⟨⟨hturn, -⟩, hrun⟩
  have hu := hw.of_turn hturn
  cases r with
  | some tc => exact Does.pure trivial
  | none =>
    have hsaved : (getSavedState tenantId).run u = _ := getSavedState_run
    refine Does.bind (Does.of_ok (Q := fun saved v => (getSavedState tenantId).run u = .ok saved v ∧
      Sound host v) hsaved (.single (.same u.same_asked)) ⟨hsaved, hu.of_same u.same_asked⟩) ?_
    rintro saved v ⟨hsaved, hv⟩
    refine provisionTenant_turns hv fun c hc => hP c ?_
    rw [getOrCreateCalls, hrun]
    exact List.mem_cons_of_mem _ (by simpa only [hsaved] using hc)

/-! ### The pruner -/

theorem idleTenants_run {now : Int} (hw : w.RedisWorks) : (idleTenants now keys).run w =
    .ok ((keys.map tenantOfKey).filter fun t => (w.redis.get (stateKey t)).any fun state =>
      state.status = .running ∧ idleTimeout < now - state.lastActivity) w := by
  induction keys with
  | nil => rfl
  | cons key keys ih =>
    have hidle : (idle now (tenantOfKey key)).run w =
        .ok ((w.redis.get (stateKey (tenantOfKey key))).any fun state =>
          state.status = .running ∧ idleTimeout < now - state.lastActivity) w := by
      simp only [idle, EStateM.run_bind, loadState_run_of_nil hw.2, World.recordOf, if_pos hw.1,
        EStateM.run_pure]
    simp only [idleTenants, EStateM.run_bind, hidle, ih, EStateM.run_pure, List.map_cons,
      List.filter_cons]

theorem toPrune_run (hw : w.RedisWorks) : (toPrune keys).run w = .ok (w.stale keys) w := by
  simp only [toPrune, EStateM.run_bind, EStateM.run_get, hw.1, if_true, redisCall_run_of_works hw,
    idleTenants_run hw, World.stale]

theorem prunePass_turns (hw : Sound host w) (hP : ∀ c ∈ stopCalls host w (w.stale keys), P c) :
    Does (Turn host P) (prunePass host keys) (fun _ _ => True) w := by
  unfold prunePass
  refine Does.tryCatch (Does.bind (P := fun stale u => stale = w.stale keys ∧ w = u)
    (Does.of_ok (toPrune_run hw.redisWorks) .refl ⟨rfl, rfl⟩) ?_) fun _ _ _ => Does.pure trivial
  rintro _ _ ⟨rfl, rfl⟩
  exact stopAll_turns hw hP

/-! ### Starting -/

theorem Looking.changes {u : World} (h : Looking tenantId w u) :
    ReflTransGen (Change host tenantId none w) w u := by
  have hcalled : Change host tenantId none w w w.dockerCalled := .same w.same_dockerCalled
  cases h with
  | hit hentry => exact .single (.refresh hentry)
  | nothing => exact .refl
  | restored _ hstate hrun => exact (ReflTransGen.single hcalled).tail (.restore hstate hrun)
  | missing _ hstate => exact (ReflTransGen.single hcalled).tail (.save (.missing hstate))

/-- The first key is checked before the others. -/
theorem reloadKeys_cons_run (key : String) (keys : List String) (w : World) :
    (reloadKeys (key :: keys)).run w =
      match (reloadKeys [key]).run w with
      | .ok _ u => (reloadKeys keys).run u
      | .error e u => .error e u := by
  simp only [reloadKeys, EStateM.run_bind]
  cases (redisGet key).run w with
  | error e u => rfl
  | ok state u =>
    rcases state with - | state
    · rfl
    · cases hrun : state.runningContainer with
      | none => simp [hrun]
      | some id =>
        simp only [hrun, EStateM.run_bind]
        cases (containerExists id).run u with
        | error e v => rfl
        | ok there v =>
          cases there with
          | true => rfl
          | false =>
            simp only [Bool.false_eq_true, if_false, EStateM.run_bind]
            cases (saveState state.markStopped).run v <;> rfl

/-- A key is checked like a tenant that is not in the cache. -/
theorem reloadKey_ends {key : String} (hw : w.RedisWorks) (hcanonical : Canonical key)
    (hmiss : w.tenants.get (tenantOfKey key) = none) :
    Ends (reloadKeys [key]) (fun _ u => Looking (tenantOfKey key) w u) (fun _ => False) w := by
  unfold reloadKeys
  refine Ends.bind_of_ok (redisGet_run_of_works hw) ?_
  -- canonical keys are those of their tenants
  obtain ⟨t, rfl⟩ : ∃ t, key = stateKey t := ⟨_, hcanonical.symm⟩
  have ht : tenantOfKey (stateKey t) = t := stateKey_inj.mp hcanonical
  rw [ht] at hmiss ⊢
  have hrest {u : World} (h : Looking t w u) :
      Ends (reloadKeys []) (fun _ u => Looking t w u) (fun _ => False) u := Ends.pure h
  cases hrecord : w.redis.get (stateKey t) with
  | none => exact hrest (.nothing hmiss (by simp [hrecord]))
  | some state =>
    dsimp only
    cases hrun : state.runningContainer with
    | none => exact hrest (.nothing hmiss (by simp [hrecord, hrun]))
    | some id =>
      obtain ⟨found, hexists, hfound⟩ := containerExists_finds w id
      refine Ends.bind_of_ok hexists (Ends.ite (fun htrue => ?_) fun hfalse => ?_)
      · exact Ends.modify_bind (hrest (.restored hmiss hrecord hrun (hfound.mp htrue)))
      · have hworks : w.dockerCalled.RedisWorks := hw
        refine Ends.bind_of_ok (saveState_run_of_works hworks) (hrest ?_)
        exact .missing hmiss hrecord hrun (mt hfound.mpr hfalse)

theorem Looking.tenants_of_ne {u : World} {t : String} (h : Looking tenantId w u)
    (ht : t ≠ tenantId) : u.tenants.get t = w.tenants.get t := by
  cases h with
  | hit | restored => exact Dict.get_set_of_ne ht
  | nothing | missing => rfl

/-- **The rule of a reload**: what the check of one key after the other keeps, the loop keeps. -/
theorem reloadKeys_rule {I : List String → World → Prop}
    (hstep : ∀ key rest u v, P (.look (tenantOfKey key) u) → Sound host u → Sound host v →
      Canonical key → u.tenants.get (tenantOfKey key) = none → Looking (tenantOfKey key) u v →
        I (key :: rest) u → I rest v)
    (hkeys : ∀ key ∈ keys, Canonical key) (hnodup : keys.Nodup)
    (hmiss : ∀ key ∈ keys, w.tenants.get (tenantOfKey key) = none) (hw : Sound host w)
    (hP : ∀ c ∈ reloadCalls w keys, P c) (hI : I keys w) :
    Ends (reloadKeys keys) (fun _ u => Sound host u ∧ I [] u) (fun _ => False) w := by
  induction keys generalizing w with
  | nil => exact Ends.pure ⟨hw, hI⟩
  | cons key keys ih =>
    have hkey : Canonical key := hkeys key (List.mem_cons_self ..)
    have hnone : w.tenants.get (tenantOfKey key) = none := hmiss key (List.mem_cons_self ..)
    have hends := reloadKey_ends hw.redisWorks hkey hnone
    cases hrun : (reloadKeys [key]).run w with
    | error e u => exact (hends.error hrun).elim
    | ok _ u =>
      -- reloading a key looks at its tenant
      have hlook := hends.ok hrun
      have hPkey : P (.look (tenantOfKey key) w) := hP _ (List.mem_cons_self ..)
      have hu : Sound host u := hw.of_leads (c := .look _ w) hlook hlook.changes
      have hrest := ih (w := u) (fun k hk => hkeys k (List.mem_cons_of_mem _ hk))
        (List.nodup_cons.mp hnodup).2 ?_ hu ?_
        (hstep key keys w u hPkey hw hu hkey hnone hlook hI)
      · have hcons := reloadKeys_cons_run key keys w
        rw [hrun] at hcons
        simpa only [Ends, hcons] using hrest
      · -- the other keys are of other tenants
        intro k hk
        have hne : tenantOfKey k ≠ tenantOfKey key := by
          intro heq
          have hk' : k = key := by
            rw [← hkeys k (List.mem_cons_of_mem _ hk), heq, hkey]
          exact (List.nodup_cons.mp hnodup).1 (hk' ▸ hk)
        rw [hlook.tenants_of_ne hne]
        exact hmiss k (List.mem_cons_of_mem _ hk)
      · intro c hc
        refine hP c (List.mem_cons_of_mem _ ?_)
        rwa [endState_of_ok hrun]

/-- A gateway that lost its cache. -/
def World.forgot (w : World) : World := { w with tenants := .empty }

theorem World.RedisWorks.direct_restart (hw : w.RedisWorks) :
    direct true w (.restart keys) = w.forgot := by
  obtain ⟨hredis, hfaults⟩ := hw
  cases w
  subst hredis hfaults
  rfl

theorem Sound.direct {op : Op} (h : Sound host w) (hkeeps : KeepsRedis op) :
    Sound host (direct true w op) := by
  refine ⟨h.coherent.direct, redisWorks_direct (fun _ => rfl) hkeeps h.redisWorks, ?_⟩
  cases op with
  | restart keys =>
    exact h.registered.congr rfl rfl (fun _ => id) fun t tc htc => by simp [Tenants.direct] at htc
  | _ =>
    exact h.registered.congr rfl rfl (fun _ => id) fun t tc htc =>
      Option.isSome_iff_exists.mpr ⟨tc, htc⟩

/-- **The rule of a restart**: the records are checked one after the other with an empty cache. -/
theorem restart_rule {I : List String → World → Prop}
    (hstep : ∀ key rest u v, P (.look (tenantOfKey key) u) → Sound host u → Sound host v →
      Canonical key → u.tenants.get (tenantOfKey key) = none → Looking (tenantOfKey key) u v →
        I (key :: rest) u → I rest v)
    (hsame : ∀ u v, Same u v → I [] u → I [] v)
    (hbuild : ∀ u image, I [] u → I [] { u with images := u.images ++ [image] })
    (hw : Sound host w) (hkeys : keys.Perm w.redis.keys)
    (hP : ∀ c ∈ calls host w (.restart keys), P c) (hI : I keys w.forgot) :
    Sound host (endState (restart host keys) w) ∧ I [] (endState (restart host keys) w) := by
  have hworks : ({ w with tenants := .empty, hasRedis := true } : World) = w.forgot := by
    rw [World.forgot, ← hw.redisWorks.1]
  have hdirect : direct true w (.restart keys) = w.forgot := hw.redisWorks.direct_restart
  have hforgot : Sound host w.forgot := hdirect ▸ hw.direct trivial
  -- the image is all that is left after the reload
  have himage {u : World} (hu : Sound host u) (hIu : I [] u) :
      Sound host (endState (ensureImage host defaultImage) u) ∧
        I [] (endState (ensureImage host defaultImage) u) := by
    have hdoes : Does (Turn host fun _ => False) (ensureImage host defaultImage)
        (fun _ _ => True) u := ensureImage_does (fun _ _ => .same) fun _ _ => .build
    have hkeeps : Keeps host (fun _ => False) (I []) := ⟨hsame, hbuild, fun _ _ h => h.elim⟩
    exact hkeeps.of_turns hdoes.reaches hu hIu
  obtain ⟨u, hrun, hu, hIu⟩ : ∃ u, (reloadRunning keys).run w.forgot = .ok () u ∧ Sound host u ∧
      I [] u := by
    unfold reloadRunning
    simp only [EStateM.run_bind, EStateM.run_get]
    cases hclient : w.hasClient with
    | false =>
      -- without a client there are no records
      have hnil : keys = [] := by
        refine List.eq_nil_iff_forall_not_mem.mpr fun key hkey => ?_
        obtain ⟨state, hstate⟩ := Dict.mem_keys_iff.mp (hkeys.subset hkey)
        have hgenuine := (hw.registered.record key state hstate).2
        rw [hgenuine.hasClient] at hclient
        exact absurd hclient (by decide)
      refine ⟨w.forgot, ?_, hforgot, hnil ▸ hI⟩
      simp [World.forgot, hclient]
    | true =>
      have hreload := reloadKeys_rule hstep (fun key hkey => hw.canonical (hkeys.subset hkey))
        (hkeys.nodup_iff.mpr w.redis.nodup) (fun _ _ => rfl) hforgot (fun c hc => hP c ?_) hI
      · rw [if_pos (by simp [World.forgot, hclient, hw.redisWorks.1])]
        simp only [tryCatch_run, EStateM.run_bind, redisCall_run_of_works hforgot.redisWorks]
        cases hrun : (reloadKeys keys).run w.forgot with
        | error e u => exact (hreload.error hrun).elim
        | ok _ u => exact ⟨u, rfl, hreload.ok hrun⟩
      · rw [calls, if_pos hclient, hworks]
        exact hc
  have hend : endState (restart host keys) w = endState (ensureImage host defaultImage) u := by
    simp only [restart, endState, EStateM.run_bind, EStateM.run_modify, tryCatch_run, hworks,
      redisCall_run_of_works hforgot.redisWorks, hrun]
  rw [hend]
  exact himage hu hIu

/-- **Invariants of operations**: what every call keeps, an operation keeps, beyond its direct
change. -/
theorem Keeps.of_op {I : World → Prop} {op : Op} (hkept : Keeps host P I) (hw : Sound host w)
    (hop : op.Enabled w) (hkeeps : KeepsRedis op) (hP : ∀ c ∈ calls host w op, P c)
    (hI : I (direct true w op)) :
    Sound host (endState (program host op) w) ∧ I (endState (program host op) w) := by
  have hturns {m : M Unit} (hm : Does (Turn host P) m (fun _ _ => True) w) (hIw : I w) :
      Sound host (endState m w) ∧ I (endState m w) :=
    hkept.of_turns hm.reaches hw hIw
  have hdiscard {α : Type} {m : M α} (h : Does (Turn host P) m (fun _ _ => True) w) :
      Does (Turn host P) (do let _ ← m) (fun _ _ => True) w :=
    Does.bind h fun _ _ _ => Does.pure trivial
  cases op with
  | provision t config image => exact hturns (hdiscard (provisionTenant_turns hw hP)) hI
  | getTenant t =>
    exact hturns (hdiscard (Does.of_ends ((look_turn host _ hw.redisWorks
      (hP _ (List.mem_cons_self ..))).mono (fun _ _ h => ⟨h.1, trivial⟩) fun _ h => h.elim))) hI
  | getOrCreate t => exact hturns (hdiscard (getOrCreate_turns hw hP)) hI
  | touch t =>
    exact hturns (Does.of_ends ((touch_turn host hw.redisWorks
      (hP _ (List.mem_cons_self ..))).mono (fun _ _ h => ⟨h.1, trivial⟩) fun _ h => h.elim)) hI
  | stop t =>
    exact hturns (Does.of_ends ((stop_turn _ hw (hP _ (List.mem_cons_self ..))).mono
      (fun _ _ h => ⟨h.1, trivial⟩) fun _ h => h.1)) hI
  | prune keys => exact hturns (prunePass_turns hw hP) hI
  | restart keys =>
    -- a restart forgets the cache before it makes its calls
    rw [hw.redisWorks.direct_restart] at hI
    refine restart_rule (I := fun _ => I) ?_ hkept.same hkept.build hw hop hP hI
    intro key rest u v hPkey hu hv _ _ hlook hIu
    exact hkept.call (.look _ u) v hPkey hu hv hlook hlook.changes hIu
  | shutdown => exact hturns (Does.get_bind (stopAll_turns hw hP)) hI
  | pass _ | vanish _ | listen _ | fail _ _ _ => exact ⟨hw.direct hkeeps, hI⟩

theorem sound_of_step {w₁ : World} {op : Op} (hkeeps : KeepsRedis op)
    (hstep : (machine host w₁).step w op = some w') (hw : Sound host w) : Sound host w' := by
  obtain ⟨hop, rfl⟩ := step_eq_some hstep
  have hkept : Keeps host (fun _ => True) fun _ => True :=
    ⟨fun _ _ _ _ => trivial, fun _ _ _ => trivial, fun _ _ _ _ _ _ _ _ => trivial⟩
  exact (hkept.of_op hw hop hkeeps (fun _ _ => trivial) trivial).1

/-- The world of a gateway stays sound while Redis works. -/
theorem sound_of_run {w₁ : World} {ops : List Op} (hw : Sound host w)
    (hops : (machine host w₁).AllSteps (fun _ op => KeepsRedis op) w ops)
    (hrun : (machine host w₁).runFrom w ops = some w') : Sound host w' :=
  Machine.run_invariant (I := Sound host) (fun hu hop hstep => sound_of_step hop hstep hu) hw hops
    hrun

/-- **Invariants of runs**: `G` says of each step what its calls meet. -/
theorem Keeps.of_run {I : World → Prop} {G : World → Op → Prop} {w₁ : World} {ops : List Op}
    (hkept : Keeps host P I)
    (hG : ∀ u op, G u op → KeepsRedis op ∧ ∀ c ∈ calls host u op, P c)
    (hdirect : ∀ u op, I u → I (direct true u op))
    (hw : Sound host w) (hI : I w) (hops : (machine host w₁).AllSteps G w ops)
    (hrun : (machine host w₁).runFrom w ops = some w') : Sound host w' ∧ I w' := by
  refine Machine.run_invariant (I := fun w => Sound host w ∧ I w) ?_ ⟨hw, hI⟩ hops hrun
  rintro u op v ⟨hu, hIu⟩ hop hstep
  obtain ⟨hen, rfl⟩ := step_eq_some hstep
  obtain ⟨hkeeps, hP⟩ := hG u op hop
  exact hkept.of_op hu hen hkeeps hP (hdirect u op hIu)

end Calls

end Nanogate.Tenants
