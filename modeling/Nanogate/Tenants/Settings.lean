import Nanogate.Tenants.Listeners

/-!
# Settings that nothing rewrites

A tenant that was stopped is resumed from what was saved, and what was saved had been rewritten
when it was provisioned: the port and the workspace were set, and some entries were injected into
the environment. Everything else that was posted is in the file that the agent reads at every later
start, whatever calls to Docker and to the file system fail in between.

## Main definitions

* `SameSettings` — two configurations agree on all settings that are not rewritten
* `boots` — the starts of a tenant's container, each with the file the agent found
* `Boots` — the starts since a world are all with the same settings

## Main results

* `booted_of_run` — every start of a tenant that is not provisioned anew is with the settings posted
-/

namespace Nanogate.Tenants

open Nanogate.Python Nanogate.Semantics Relation

/-! ### Settings -/

/-- `custom_env` before the injections. -/
def gatewayEnv (config : Json) : Json := ((config.getD "gateway").getD "env").or (.obj [])

/-- The entries of the environment that are injected. -/
def injectedKeys : List String := ["TENANT_ID", "REDIS_URL", "OPENAI_API_KEY"]

/-- Two configurations agree but for `gateway.port`, `agents.defaults.workspace` and the entries of
`gateway.env` that are injected. -/
structure SameSettings (c d : Json) : Prop where
  top : ∀ key, key ≠ "gateway" → key ≠ "agents" → d.get key = c.get key
  gateway : ∀ key, key ≠ "port" → key ≠ "env" →
    (d.getD "gateway").get key = (c.getD "gateway").get key
  env : ∀ key, key ∉ injectedKeys → (gatewayEnv d).get key = (gatewayEnv c).get key
  agents : ∀ key, key ≠ "defaults" → (d.getD "agents").get key = (c.getD "agents").get key
  defaults : ∀ key, key ≠ "workspace" → ((d.getD "agents").getD "defaults").get key =
    ((c.getD "agents").getD "defaults").get key

section Settings

variable {host : Host} {t : String} {c c' d config env environment written setting saved : Json}

theorem SameSettings.refl (c : Json) : SameSettings c c :=
  ⟨fun _ _ _ => rfl, fun _ _ _ => rfl, fun _ _ => rfl, fun _ _ => rfl, fun _ _ => rfl⟩

theorem SameSettings.symm (h : SameSettings c d) : SameSettings d c where
  top key hg ha := (h.top key hg ha).symm
  gateway key hp he := (h.gateway key hp he).symm
  env key hkey := (h.env key hkey).symm
  agents key hkey := (h.agents key hkey).symm
  defaults key hkey := (h.defaults key hkey).symm

theorem SameSettings.trans (h : SameSettings c c') (h' : SameSettings c' d) : SameSettings c d where
  top key hg ha := (h'.top key hg ha).trans (h.top key hg ha)
  gateway key hp he := (h'.gateway key hp he).trans (h.gateway key hp he)
  env key hkey := (h'.env key hkey).trans (h.env key hkey)
  agents key hkey := (h'.agents key hkey).trans (h.agents key hkey)
  defaults key hkey := (h'.defaults key hkey).trans (h.defaults key hkey)

theorem get_sectionOf {key k : String} {value : Json} (h : sectionOf config key = .ok value) :
    value.get k = (config.getD key).get k := by
  obtain ⟨rfl, -⟩ := sectionOf_eq_ok h
  rw [Json.getD]
  cases config.get key <;> rfl

/-- `write_config` keeps the settings. -/
theorem sameSettings_of_merge (h : mergeSettings config = .ok (written, setting)) :
    SameSettings config written := by
  obtain ⟨gateway, agents, defaults, hgateway, hagents, hdefaults, -, rfl⟩ := mergeSettings_eq_ok h
  have hset {v x : Json} {k : String} (hne : k ≠ "gateway") :
      (v.set "gateway" x).getD k = v.getD k := Json.getD_set_of_ne hne
  constructor
  · intro key hg ha
    rw [Json.get_set_of_ne ha, Json.get_set_of_ne hg]
  · intro key hp _
    rw [Json.getD_set_of_ne (by decide), Json.getD_set_self, Json.get_set_of_ne hp,
      get_sectionOf hgateway]
  · intro key _
    rw [gatewayEnv, gatewayEnv, Json.getD_set_of_ne (by decide), Json.getD_set_self,
      Json.getD_set_of_ne (by decide), getD_sectionOf hgateway]
  · intro key hd
    rw [Json.getD_set_self, Json.get_set_of_ne hd, get_sectionOf hagents, hset (by decide)]
  · intro key hw
    rw [Json.getD_set_self, Json.getD_set_self, Json.get_set_of_ne hw, get_sectionOf hdefaults,
      getD_sectionOf hagents, hset (by decide)]

theorem get_baseEnv {key : String} (hkey : key ∉ injectedKeys) :
    (baseEnv host t env).get key = env.get key := by
  simp only [injectedKeys, List.mem_cons, List.not_mem_nil, not_or, or_false] at hkey
  rw [baseEnv, get_setDefault, if_neg hkey.2.1, Json.get_set_of_ne hkey.1]

/-- The container's environment has the entries that were configured. -/
theorem get_injected {key : String} (h : injectEnv host t config = .ok (environment, saved))
    (hkey : key ∉ injectedKeys) : environment.get key = (gatewayEnv config).get key := by
  have hopenai : key ≠ "OPENAI_API_KEY" := fun heq => hkey (by simp [heq, injectedKeys])
  rcases customEnv_eq_ok (customEnv_of_injectEnv h) with ⟨rfl, -⟩ | ⟨_, rfl, -⟩
  · exact get_baseEnv hkey
  · rw [Json.get_set_of_ne hopenai, get_baseEnv hkey]
    rfl

/-- `provision_tenant` keeps the settings when it injects the environment. -/
theorem sameSettings_of_inject (h : injectEnv host t config = .ok (environment, saved)) :
    SameSettings config saved := by
  rcases injectEnv_saved h with rfl | rfl
  · exact .refl saved
  · have hself {x : Json} : (config.set "gateway" x).getD "gateway" = x := Json.getD_set_self
    have hagents {x : Json} : (config.set "gateway" x).getD "agents" = config.getD "agents" :=
      Json.getD_set_of_ne (by decide)
    have htruthy : environment.truthy = true := Json.truthy_of_get (tenantId_of_injectEnv h)
    constructor
    · intro key hg _
      rw [Json.get_set_of_ne hg]
    · intro key _ he
      rw [hself, Json.get_set_of_ne he]
    · intro key hkey
      rw [gatewayEnv, hself, Json.getD_set_self, Json.or, if_pos htruthy, get_injected h hkey]
    · intro key _
      rw [hagents]
    · intro key _
      rw [hagents]

theorem sameSettings_of_gives (h : Gives host t c d) : SameSettings c d := by
  rcases h with rfl | ⟨env, hinject⟩
  · exact .refl d
  · exact sameSettings_of_inject hinject

end Settings

/-! ### Starts -/

/-- `boots` of a history from its end. -/
def bootsRev (host : Host) (t : String) : List Effect → List (Option Json × Container)
  | [] => []
  | .run _ container _ :: es =>
    if container.name = containerName t then
      (lastWritten host t es.reverse, container) :: bootsRev host t es
    else bootsRev host t es
  | _ :: es => bootsRev host t es

/-- The starts of a tenant's container, the last one first, each with the configuration that the
agent found in the tenant's file. -/
def boots (host : Host) (t : String) (effects : List Effect) : List (Option Json × Container) :=
  bootsRev host t effects.reverse

/-- The agent found the settings of `config` in the tenant's file, and the entries of its
`gateway.env` in the environment. -/
structure BootedWith (config : Json) (b : Option Json × Container) : Prop where
  file : ∃ written, b.1 = some written ∧ written.isObj = true ∧ SameSettings config written
  env : ∀ key, key ∉ injectedKeys → b.2.environment.get key = (gatewayEnv config).get key

/-- The starts of a tenant since a world are all with the settings of `config`. -/
def Boots (host : Host) (t : String) (config : Json) (w w' : World) : Prop :=
  ∃ new, boots host t w'.effects = new ++ boots host t w.effects ∧ ∀ b ∈ new, BootedWith config b

section Starts

variable {host : Host} {t t' : String} {w w' w'' : World} {c config good : Json}
  {effects : List Effect} {image : String} {op : Op} {ops : List Op} {w₀ : World}

theorem boots_snoc_run {id : ℕ} {container : Container} {saved : Json}
    (h : container.name = containerName t) :
    boots host t (effects ++ [.run id container saved]) =
      (lastWritten host t effects, container) :: boots host t effects := by
  rw [boots, List.reverse_append, List.reverse_singleton, List.singleton_append, bootsRev, if_pos h,
    List.reverse_reverse, boots]

theorem boots_snoc {e : Effect} (h : ¬e.Starts t) :
    boots host t (effects ++ [e]) = boots host t effects := by
  rw [boots, List.reverse_append, List.reverse_singleton, List.singleton_append]
  cases e with
  | run id container saved =>
    rw [bootsRev, if_neg (show ¬container.name = containerName t from h)]
    rfl
  | _ => rfl

theorem NotStarted.boots_eq (h : NotStarted t w w') :
    boots host t w'.effects = boots host t w.effects :=
  Adds.eq_of_snoc (fun _ _ => boots_snoc) h

/-- The last good configuration is the file of the last start. -/
theorem lastGood_eq_boots (effects : List Effect) :
    lastGood host t effects = (boots host t effects).head?.bind Prod.fst := by
  induction effects using List.reverseRecOn with
  | nil => rfl
  | append_singleton es e ih =>
    by_cases h : e.Starts t
    · cases e with
      | run id container saved =>
        have hname : container.name = containerName t := h
        rw [lastGood_snoc_run hname, boots_snoc_run hname, List.head?_cons, Option.bind_some]
      | _ => exact h.elim
    · rw [lastGood_snoc h, boots_snoc h, ih]

theorem Boots.refl (host : Host) (t : String) (config : Json) (w : World) :
    Boots host t config w w := ⟨[], rfl, by simp⟩

theorem Boots.of_notStarted (h : NotStarted t w w') : Boots host t config w w' :=
  ⟨[], h.boots_eq, by simp⟩

theorem Boots.trans (h : Boots host t config w w') (h' : Boots host t config w' w'') :
    Boots host t config w w'' := by
  obtain ⟨new, hnew, hall⟩ := h
  obtain ⟨new', hnew', hall'⟩ := h'
  refine ⟨new' ++ new, by rw [hnew', hnew, List.append_assoc], fun b hb => ?_⟩
  rcases List.mem_append.mp hb with hb | hb
  · exact hall' b hb
  · exact hall b hb

/-- The last good configuration keeps the settings. -/
theorem Boots.lastGood (h : Boots host t config w w')
    (hgood : ∃ good, lastGood host t w.effects = some good ∧ SameSettings config good) :
    ∃ good, Tenants.lastGood host t w'.effects = some good ∧ SameSettings config good := by
  obtain ⟨new, hnew, hall⟩ := h
  rw [lastGood_eq_boots] at hgood ⊢
  rw [hnew]
  cases new with
  | nil => exact hgood
  | cons b new =>
    obtain ⟨written, hfile, -, hsame⟩ := (hall b (List.mem_cons_self ..)).file
    exact ⟨written, by rw [List.cons_append, List.head?_cons, Option.bind_some, hfile], hsame⟩

/-- A launch either starts no container and leaves the cache alone, or starts one with the settings
of its configuration. -/
theorem boots_of_launching (h : SameSettings config c) (hlaunch : Launching host t c w w') :
    (NotStarted t w w' ∧ w'.tenants = w.tenants) ∨
      ∃ b, boots host t w'.effects = b :: boots host t w.effects ∧ BootedWith config b := by
  cases hlaunch with
  | failed hsteps =>
    exact .inl ⟨notStarted_of_preparing hsteps, (untouched_of_preparing hsteps).tenants⟩
  | @launched y _ container _ written saved hstart hfiled hsame =>
    have heffects : w'.effects = y.effects ++ [.run y.nextId container saved] ++
        [.redisSet (stateKey t) (runningState host t y.nextId container.port saved y.now)] :=
      hsame.effects_eq
    obtain ⟨setting, hmerge, -⟩ := hstart.prepared.merged
    have hwritten := h.trans (sameSettings_of_merge hmerge)
    refine .inr ⟨(some written, container), ?_, ?_⟩
    · rw [heffects, boots_snoc id, boots_snoc_run hstart.name, hfiled.last,
        (notStarted_of_preparing hstart.reaches).boots_eq]
    · refine ⟨⟨written, rfl, (isObj_of_mergeSettings hmerge).1, hwritten⟩, fun key hkey => ?_⟩
      exact (get_injected hstart.prepared.injected hkey).trans (hwritten.env key hkey)

theorem Boots.of_launching (h : SameSettings config c) (hlaunch : Launching host t c w w') :
    Boots host t config w w' := by
  rcases boots_of_launching h hlaunch with ⟨hstarts, -⟩ | ⟨b, hboots, hb⟩
  · exact .of_notStarted hstarts
  · exact ⟨[b], hboots, fun b' hb' => List.mem_singleton.mp hb' ▸ hb⟩

/-- The call provisions the tenant only with the settings of `config`. -/
def Call.Keeps (t : String) (config : Json) (c : Call) : Prop :=
  c.Named ∧ (c.tenantId = t → ∀ d, c.config = some d → SameSettings config d)

theorem keeps_boots (start : World) :
    Tenants.Keeps host (Call.Keeps t config) (Boots host t config start) where
  same u v huv h := h.trans (.of_notStarted ⟨[], by rw [huv.effects_eq, List.append_nil], by simp⟩)
  build u image h := h
  call c v hc hw _ hleads hchanges h := by
    refine h.trans ?_
    by_cases ht : c.tenantId = t
    · subst ht
      cases c with
      | start t d w => exact .of_launching (hc.2 rfl d rfl) hleads.2.2
      | stop | look | touch => exact .of_notStarted (notStarted_of_changes (.inr rfl) hchanges)
    · exact .of_notStarted (notStarted_of_changes (.inl ht) hchanges)

end Starts

/-! ### Runs -/

/-- The operation does not post a configuration for the tenant. -/
def PostsNothing (t : String) : Op → Prop
  | .provision t' _ _ => t' ≠ t
  | _ => True

instance (t : String) : (op : Op) → Decidable (PostsNothing t op)
  | .provision _ _ _ => inferInstanceAs (Decidable (_ ≠ _))
  | .getTenant _ | .getOrCreate _ | .touch _ | .stop _ | .prune _ | .restart _ | .shutdown
  | .pass _ | .vanish _ | .listen _ | .fail .. => inferInstanceAs (Decidable True)

/-- The tenant's records are safe, and its last good configuration has the settings of `config`. -/
structure SafeWith (host : Host) (t : String) (config : Json) (w : World) : Prop where
  safe : Safe host t w
  good : ∃ good, lastGood host t w.effects = some good ∧ SameSettings config good

section Calls

variable {host : Host} {w u : World} {t t' : String} {d : Json} {op : Op} {c : Call}

theorem start_of_getOrCreateCalls (h : .start t d u ∈ getOrCreateCalls host w t') : t = t' := by
  rcases List.mem_cons.mp h with h | h
  · simp at h
  split at h
  · split at h
    · rcases mem_provisionCalls h with h | ⟨_, h⟩
      · simp at h
      · exact (Call.start.inj h).1
    · simp at h
  · simp at h

/-- A container is started for a tenant whose configuration is posted or who is looked for. -/
theorem start_of_calls (h : .start t d u ∈ calls host w op) :
    (∃ image, op = .provision t d image) ∨ op = .getOrCreate t := by
  cases op with
  | provision t' d' image =>
    rcases mem_provisionCalls h with h | ⟨_, h⟩
    · simp at h
    · obtain ⟨rfl, rfl, -⟩ := Call.start.inj h
      exact .inl ⟨image, rfl⟩
  | getOrCreate t' =>
    obtain rfl := start_of_getOrCreateCalls h
    exact .inr rfl
  | getTenant | touch | stop => simp [calls] at h
  | prune | shutdown =>
    obtain ⟨_, _, h⟩ := mem_stopCalls h
    simp at h
  | restart keys =>
    unfold calls at h
    split_ifs at h
    · obtain ⟨_, _, h⟩ := mem_reloadCalls h
      simp at h
    · simp at h
  | pass _ | vanish _ | listen _ | fail _ _ _ => simp [calls] at h

end Calls

section Runs

variable {host : Host} {t t' : String} {w w' v w₀ : World} {c : Call} {config d : Json}
  {image : String} {op : Op} {ops ops' : List Op} {tc : TenantContainer} {u : World}

/-- What `get_or_create` provisions comes from the record, which holds the last good
configuration. -/
theorem sameSettings_of_getOrCreateCalls (ht : PurePath.IsFileName t) (hw : Sound host w)
    (h : SafeWith host t config w) (hc : .start t' d u ∈ getOrCreateCalls host w t) :
    SameSettings config d := by
  have hlook := look_turn host t hw.redisWorks (P := Call.Named) trivial
  rcases List.mem_cons.mp hc with hc | hc
  · simp at hc
  cases hrun : (getTenant t).run w with
  | error e x => exact (hlook.error hrun).elim
  | ok found x =>
    obtain ⟨hturn, hlooking, -⟩ := hlook.ok hrun
    rw [hrun] at hc
    cases found with
    | some tc => simp at hc
    | none =>
      -- the record is still safe after the lookup
      obtain ⟨hx, hsafe⟩ := (keeps_safe ht).of_turns (.single hturn) hw h.safe
      have hchanges : ReflTransGen (Change host t none w) w x := hlooking.changes
      have hstarts : NotStarted t w x := notStarted_of_changes (.inr rfl) hchanges
      obtain ⟨good, hgood, hsame⟩ := h.good
      rw [← hstarts.lastGood_eq] at hgood
      obtain ⟨state, hstate⟩ := Option.isSome_iff_exists.mp (hsafe.known (by rw [hgood]; rfl))
      obtain ⟨htruthy, good', hgood', hgives⟩ := hsafe.recorded state hstate
      obtain rfl := Option.some_inj.mp (hgood.symm.trans hgood')
      have hsaved : (getSavedState t).run x = .ok (some state.configData) x.asked := by
        rw [getSavedState_run, if_pos hx.redisWorks.answers, hstate, Option.map_some,
          Option.filter_some, if_pos htruthy]
      simp only [hsaved, Option.getD_some] at hc
      rcases mem_provisionCalls hc with hc | ⟨_, hc⟩
      · simp at hc
      · obtain ⟨-, rfl, -⟩ := Call.start.inj hc
        exact hsame.trans (sameSettings_of_gives hgives)

/-- The calls of an operation that posts nothing for the tenant keep its settings. -/
theorem keeps_of_calls (hw : Sound host w) (h : SafeWith host t config w)
    (ht : PurePath.IsFileName t) (hnames : FileNames op) (hposts : PostsNothing t op)
    (hc : c ∈ calls host w op) : c.Keeps t config := by
  refine ⟨named_of_calls hnames hc, fun htenant d hd => ?_⟩
  cases c with
  | start t' d' u =>
    obtain rfl : t' = t := htenant
    obtain rfl : d' = d := Option.some_inj.mp hd
    rcases start_of_calls hc with ⟨image, rfl⟩ | rfl
    · exact absurd rfl hposts
    · exact sameSettings_of_getOrCreateCalls ht hw h hc
  | stop | look | touch => simp [Call.config] at hd

/-- **Step.** What is resumed has the settings it was started with. -/
theorem safeWith_of_step (ht : PurePath.IsFileName t) (hw : Sound host w)
    (h : SafeWith host t config w) (hkeeps : KeepsRedis op) (hnames : FileNames op)
    (hposts : PostsNothing t op) (hstep : (machine host w₀).step w op = some v) :
    Sound host v ∧ SafeWith host t config v ∧ Boots host t config w v := by
  obtain ⟨hen, rfl⟩ := step_eq_some hstep
  obtain ⟨hv, hsafe⟩ := (keeps_safe ht).of_op hw hen hkeeps (fun c => named_of_calls hnames)
    h.safe.direct
  have hdirect : Boots host t config w (direct true w op) := by
    cases op <;> exact .refl host t config w
  obtain ⟨-, hboots⟩ := (keeps_boots w).of_op hw hen hkeeps
    (fun c hc => keeps_of_calls hw h ht hnames hposts hc) hdirect
  exact ⟨hv, ⟨hsafe, hboots.lastGood h.good⟩, hboots⟩

/-- A provisioning that returned started a container with the settings posted. -/
theorem boots_of_provision (hw : Sound host w)
    (hprov : (provisionTenant host t config image).run w = .ok tc w') :
    ∃ b, boots host t w'.effects = b :: boots host t w.effects ∧ BootedWith config b := by
  have hclient : w.hasClient = true := by
    by_contra hno
    have hthrows : Does Eq (provisionTenant host t config image) (fun _ _ => False) w := by
      unfold provisionTenant
      refine Does.get_bind ?_
      rw [if_pos (by simpa using hno)]
      exact Does.throw _
    exact ((Ends.of_does hthrows).ok hprov).2
  have hcached : w'.tenants.get t = some tc := provisionTenant_caches.ok hprov
  rw [provisionTenant_run hclient, EStateM.run_bind] at hprov
  have hstop := stop_turn (P := Call.Named) t hw trivial
  cases hrun : (stopTenant host t).run w with
  | error e u => simp [hrun] at hprov
  | ok _ u =>
    rw [hrun] at hprov
    obtain ⟨hturn, hno, hstopping⟩ := hstop.ok hrun
    have hdoes : Does (Change host t none w) (stopTenant host t) (fun _ _ => True) w :=
      stopTenant_does
    have hstarts : NotStarted t w u :=
      notStarted_of_changes (.inr rfl) ((Ends.of_does hdoes).ok hrun).1
    have hlaunch := (startTenant_ends (hw.of_turn hturn).redisWorks).ok hprov
    rcases boots_of_launching (.refl config) hlaunch with ⟨-, htenants⟩ | ⟨b, hboots, hb⟩
    · -- the tenant was stopped, so its entry comes from a container that was started
      have hmiss := (holder_eq_none_iff.mp (hstopping.holder_eq_none hno)).1
      rw [htenants, hmiss] at hcached
      simp at hcached
    · exact ⟨b, hstarts.boots_eq ▸ hboots, hb⟩

theorem safeWith_of_provision (ht : PurePath.IsFileName t) (hw : Sound host w)
    (h : Safe host t w) (hprov : (provisionTenant host t config image).run w = .ok tc w') :
    Sound host w' ∧ SafeWith host t config w' := by
  have hend : endState (program host (.provision t config image)) w = w' :=
    endState_bind_of_ok hprov
  obtain ⟨hw', hsafe⟩ := hend ▸ (keeps_safe ht).of_op hw
    (show Op.Enabled w (.provision t config image) from trivial) trivial
    (fun c => named_of_calls ht) h
  obtain ⟨b, hboots, ⟨written, hfile, -, hsame⟩, -⟩ := boots_of_provision hw hprov
  refine ⟨hw', hsafe, written, ?_, hsame⟩
  rw [lastGood_eq_boots, hboots, List.head?_cons, Option.bind_some, hfile]

/-- **Settings survive.** Once a provisioning of a tenant returned, its container is started with
the settings that were posted, then and at every later time until a configuration is posted
again. -/
theorem booted_of_run (hfresh : Fresh w₀) (hworks : w₀.RedisWorks) (heffects : w₀.effects = [])
    (ht : PurePath.IsFileName t)
    (hops : (machine host w₀).AllSteps (fun _ op => KeepsRedis op ∧ FileNames op) w₀ ops)
    (hrun : (machine host w₀).run ops = some w)
    (hprov : (provisionTenant host t config image).run w = .ok tc w')
    (hops' : (machine host w₀).AllSteps
      (fun _ op => KeepsRedis op ∧ FileNames op ∧ PostsNothing t op) w' ops')
    (hrun' : (machine host w₀).runFrom w' ops' = some v) : ∃ later first,
      boots host t v.effects = later ++ first :: boots host t w.effects ∧
        ∀ b ∈ later ++ [first], BootedWith config b := by
  obtain ⟨hw, hsafe⟩ := safe_of_run hfresh hworks heffects ht hops hrun
  obtain ⟨first, hfirst, hbooted⟩ := boots_of_provision hw hprov
  obtain ⟨hw', hwith⟩ := safeWith_of_provision ht hw hsafe hprov
  obtain ⟨-, -, later, hlater, hall⟩ : Sound host v ∧ SafeWith host t config v ∧
      Boots host t config w' v := by
    refine Machine.run_invariant
      (I := fun u => Sound host u ∧ SafeWith host t config u ∧ Boots host t config w' u) ?_
      ⟨hw', hwith, .refl host t config w'⟩ hops' hrun'
    rintro u op u' ⟨hu, hwith, hboots⟩ ⟨hkeeps, hnames, hposts⟩ hstep
    obtain ⟨hu', hwith', hboots'⟩ := safeWith_of_step ht hu hwith hkeeps hnames hposts hstep
    exact ⟨hu', hwith', hboots.trans hboots'⟩
  refine ⟨later, first, hlater.trans (congrArg _ hfirst), fun b hb => ?_⟩
  rcases List.mem_append.mp hb with hb | hb
  · exact hall b hb
  · exact List.mem_singleton.mp hb ▸ hbooted

end Runs

end Nanogate.Tenants
