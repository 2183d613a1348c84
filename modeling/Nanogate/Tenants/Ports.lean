import Nanogate.Python.JsonText
import Nanogate.Tenants.Settings

/-!
# Who answers at a tenant's port

The gateway reaches the agent of a tenant at the port of the tenant's entry. A port is found free
before the container is started, and once a container is gone its port may be given to another
tenant. As long as the entries are current, what is sent to the port of a tenant still arrives at
that tenant's container and nowhere else.

## Main definitions

* `World.behind` — the running container that publishes a port
* `proxyTenant` — the generic proxy to a tenant's container
* `FindsFree` — the port that `find_free_port` names is published by no running container
* `Fronts` — behind the port of the entry there is the tenant's container

## Main results

* `addressed_of_run` — the entries of all gateways lead to their tenants' containers
* `proxied_of_run` — the proxy answers for the tenant's own agent
-/

namespace Nanogate.Tenants

open Nanogate.Python Nanogate.Semantics Relation

/-! ### Ports -/

/-- The running container that publishes a port of the host. -/
def World.behind (w : World) (port : ℕ) : Option ℕ :=
  (w.containers.entries.find? fun e => e.2.running && e.2.port == port).map Prod.fst

/-- No two running containers publish one port. -/
def PortsApart (w : World) : Prop :=
  ∀ id id' c c', w.containers.get id = some c → w.containers.get id' = some c' →
    c.running = true → c'.running = true → c.port = c'.port → id = id'

/-- No running container publishes the port that `find_free_port` names. -/
def World.PortFree (w : World) : Prop :=
  ∀ e ∈ w.containers.entries, e.2.running = true → e.2.port ≠ w.freePort

instance (w : World) : Decidable w.PortFree :=
  inferInstanceAs (Decidable (∀ e ∈ w.containers.entries, _))

/-- What runs in the second world ran in the first one. -/
def Older (w w' : World) : Prop :=
  ∀ id c, w'.containers.get id = some c → c.running = true → w.containers.get id = some c

/-- At most one container was started, at the port that was found free. -/
inductive Opened (w w' : World) : Prop
  | quiet (h : Older w w')
  | run {u : World} {id : ℕ} {c : Container} (h : Older w u) (hport : c.port = w.freePort)
      (heq : w'.containers = u.containers.set id c)

section Ports

variable {w w' w'' : World} {port id : ℕ} {c : Container}

theorem Older.of_eq (h : w'.containers = w.containers) : Older w w' := fun id c hc _ => by
  rwa [h] at hc

theorem Older.trans (h : Older w w') (h' : Older w' w'') : Older w w'' := fun id c hc hrun =>
  h id c (h' id c hc hrun) hrun

/-- What is stopped does not run. -/
theorem Older.of_stop {c : Container}
    (h : w'.containers = w.containers.set id { c with running := false }) : Older w w' := by
  intro k c' hc' hrun
  rw [h, Dict.get_set] at hc'
  split_ifs at hc' with hk
  · obtain rfl := Option.some_inj.mp hc'
    exact absurd hrun Bool.false_ne_true
  · exact hc'

theorem Older.of_remove (h : w'.containers = w.containers.erase id) : Older w w' := by
  intro k c' hc' _
  rw [h, Dict.get_erase] at hc'
  split_ifs at hc'
  exact hc'

theorem Opened.congr (h : Opened w w') (heq : w''.containers = w'.containers) : Opened w w'' := by
  cases h with
  | quiet h => exact .quiet (h.trans (.of_eq heq))
  | run h hport heq' => exact .run h hport (heq.trans heq')

theorem PortsApart.of_older (h : PortsApart w) (hold : Older w w') : PortsApart w' :=
  fun id id' c c' hc hc' hrun hrun' =>
    h id id' c c' (hold id c hc hrun) (hold id' c' hc' hrun') hrun hrun'

/-- **Step.** The port that was found free was published by nobody. -/
theorem PortsApart.of_opened (h : PortsApart w) (hfree : w.PortFree) (hstep : Opened w w') :
    PortsApart w' := by
  cases hstep with
  | quiet hold => exact h.of_older hold
  | @run u id c hold hport heq =>
    have hother : ∀ k c', u.containers.get k = some c' → c'.running = true → c'.port ≠ c.port := by
      intro k c' hc' hrun
      rw [hport]
      exact hfree (k, c') (Dict.mem_entries_iff.mpr (hold k c' hc' hrun)) hrun
    intro k k' c₁ c₂ hc₁ hc₂ hrun₁ hrun₂ hsame
    rw [heq, Dict.get_set] at hc₁ hc₂
    split_ifs at hc₁ hc₂ with hk hk' hk'
    · rw [hk, hk']
    · obtain rfl := Option.some_inj.mp hc₁
      exact absurd hsame.symm (hother k' c₂ hc₂ hrun₂)
    · obtain rfl := Option.some_inj.mp hc₂
      exact absurd hsame (hother k c₁ hc₁ hrun₁)
    · exact h.of_older hold k k' c₁ c₂ hc₁ hc₂ hrun₁ hrun₂ hsame

/-- Where ports are apart, the container that publishes a port is the one behind it. -/
theorem PortsApart.behind_eq (h : PortsApart w) (hc : w.containers.get id = some c)
    (hrun : c.running = true) (hport : c.port = port) : w.behind port = some id := by
  cases hfind : w.containers.entries.find? fun e => e.2.running && e.2.port == port with
  | none =>
    have hnone := List.find?_eq_none.mp hfind (id, c) (Dict.mem_entries_iff.mpr hc)
    simp [hrun, hport] at hnone
  | some e =>
    have hmem := List.mem_of_find?_eq_some hfind
    have htrue := List.find?_some hfind
    simp only [Bool.and_eq_true, beq_iff_eq] at htrue
    have hid : e.1 = id := h e.1 id e.2 c (Dict.mem_entries_iff.mp hmem) hc htrue.1 hrun
      (htrue.2.trans hport.symm)
    rw [World.behind, hfind, Option.map_some, hid]

end Ports

/-! ### What operations do to ports -/

/-- The operations that may start a container. -/
def Op.provisions : Op → Bool
  | .provision .. | .getOrCreate _ => true
  | _ => false

/-- What `find_free_port` promises an operation that may start a container. -/
def FindsFree (w : World) (op : Op) : Prop := op.provisions = true → w.PortFree

instance (w : World) (op : Op) : Decidable (FindsFree w op) :=
  inferInstanceAs (Decidable (_ → _))

section Operations

variable {host : Host} {w w₀ w' : World} {tenantId t image : String} {config written : Json}
  {workspace : PurePath} {op : Op}

/-- Preparations keep the port that was found free. -/
structure Fewer (w w' : World) : Prop where
  old : Older w w'
  freePort : w'.freePort = w.freePort

theorem Fewer.refl (w : World) : Fewer w w := ⟨.of_eq rfl, rfl⟩

theorem Fewer.trans {u v : World} (h : Fewer u v) (h' : Fewer v w) : Fewer u w :=
  ⟨h.old.trans h'.old, h'.freePort.trans h.freePort⟩

theorem Fewer.of_reaches {R : World → World → Prop} (hR : ∀ u v, R u v → Fewer u v)
    (h : ReflTransGen R w w') : Fewer w w' := by
  induction h with
  | refl => exact .refl w
  | tail _ hstep ih => exact ih.trans (hR _ _ hstep)

theorem Fewer.of_same (h : Same w w') : Fewer w w' := by
  refine ⟨.of_eq h.containers_eq, ?_⟩
  obtain ⟨_, _, _, _, _, _, rfl⟩ := h
  rfl

theorem Fewer.of_change (h : Change host t none w₀ w w') : Fewer w w' := by
  cases h with
  | same h => exact .of_same h
  | stop => exact ⟨.of_stop rfl, rfl⟩
  | remove => exact ⟨.of_remove rfl, rfl⟩
  | run hc => simp at hc
  | _ => exact ⟨.of_eq rfl, rfl⟩

theorem Fewer.of_preparing (h : Preparing host t config w w') : Fewer w w' := by
  cases h with
  | same h => exact .of_same h
  | remove => exact ⟨.of_remove rfl, rfl⟩
  | _ => exact ⟨.of_eq rfl, rfl⟩

theorem Opened.of_fewer (h : Fewer w w') : Opened w w' := .quiet h.old

/-- What is prepared before a container is started does not matter. -/
theorem Opened.after {u : World} (h : Fewer w u) (hopened : Opened u w') : Opened w w' := by
  cases hopened with
  | quiet hold => exact .quiet (h.old.trans hold)
  | run hold hport heq => exact .run (h.old.trans hold) (hport.trans h.freePort) heq

theorem ends_fewer {α : Type} {m : M α} {R : World → World → Prop} {V : α → World → Prop}
    (hR : ∀ u v, R u v → Fewer u v) (h : Does R m V w) :
    Ends m (fun r u => Fewer w u ∧ V r u) (Opened w) w :=
  (Ends.of_does h).mono (fun _ _ h => ⟨.of_reaches hR h.1, h.2⟩)
    fun _ h => .of_fewer (.of_reaches hR h)

/-- The port that was found goes to the new container. -/
theorem launch_opens (hmerged : ∃ setting, mergeSettings config = .ok (written, setting) ∧
    hostWorkspace host (tenantDir host tenantId) setting = .ok workspace) :
    Ends (launch host tenantId image (tenantDir host tenantId) workspace written)
      (fun _ => Opened w) (Opened w) w := by
  unfold launch
  refine Ends.get_bind (Ends.bind (ends_fewer (R := Preparing host tenantId config)
    (fun _ _ => .of_preparing) (ensureImage_does (fun _ _ => .same) fun _ _ => .build)) ?_)
  rintro _ t ⟨himage, -⟩
  refine Ends.bind ((startContainer_ends hmerged).mono (fun _ _ h => h) fun u hu =>
    .of_fewer (himage.trans (.of_reaches (fun _ _ => .of_preparing) hu))) ?_
  rintro ⟨id, saved⟩ _ ⟨y, container, hstart, -, hport, -, -, rfl⟩
  have hopened : Opened w (y.started container saved) :=
    .run (himage.trans (.of_reaches (fun _ _ => .of_preparing) hstart.reaches)).old hport rfl
  -- what follows leaves the containers alone
  refine Ends.get_bind (Ends.modify_bind ?_)
  refine Ends.bind (P := fun _ u => u.containers = (y.started container saved).containers)
    (Ends.of_ok saveState_run ?_) fun _ u hu => ?_
  · split_ifs
    · exact World.same_asked _ |>.containers_eq
    · exact World.same_asked _ |>.containers_eq
  refine Ends.bind (ends_lift (hopened.congr hu)) ?_
  rintro commands _ ⟨rfl, -⟩
  refine Ends.bind ((Ends.of_does runSetup_does).mono
    (fun _ _ h => (Same.of_reaches h.1).containers_eq)
    fun v hv => hopened.congr ((Same.of_reaches hv).containers_eq.trans hu)) fun _ v hv => ?_
  exact Ends.pure (hopened.congr (hv.trans hu))

theorem provisionTenant_opens :
    Ends (provisionTenant host tenantId config image) (fun _ => Opened w) (Opened w) w := by
  unfold provisionTenant
  refine Ends.get_bind (Ends.ite (fun _ => Ends.throw _ (.of_fewer (.refl w))) fun _ => ?_)
  have hstop : Does (Change host tenantId none w) (stopTenant host tenantId) (fun _ _ => True) w :=
    stopTenant_does
  refine Ends.bind (ends_fewer (fun _ _ => .of_change) hstop) ?_
  rintro _ t ⟨ht, -⟩
  refine Ends.bind ((ends_fewer (fun _ _ => .of_preparing) writeConfig_does).mono
    (fun _ _ h => h) fun _ h => h.after ht) ?_
  rintro ⟨dir, workspace, written⟩ u ⟨hu, rfl, hwritten, -⟩
  exact (launch_opens hwritten.merged).mono (fun _ _ h => h.after (ht.trans hu))
    fun _ h => h.after (ht.trans hu)

theorem getOrCreate_opens :
    Ends (getOrCreate host tenantId) (fun _ => Opened w) (Opened w) w := by
  unfold getOrCreate
  refine Ends.bind (ends_fewer (fun _ _ => .of_change) (getTenant_does host none)) ?_
  rintro found t ⟨ht, -⟩
  cases found with
  | some tc => exact Ends.pure (.of_fewer ht)
  | none =>
    have hu : Fewer w t.asked := ht.trans (.of_same t.same_asked)
    refine Ends.bind_of_ok getSavedState_run ?_
    exact provisionTenant_opens.mono (fun _ _ h => h.after hu) fun _ h => h.after hu

/-- An operation that starts nothing makes no call that does. -/
theorem config_of_calls {c : Call} (hop : op.provisions = false) (h : c ∈ calls host w op) :
    c.config = none := by
  cases c with
  | start t d u => rcases start_of_calls h with ⟨_, rfl⟩ | rfl <;> simp [Op.provisions] at hop
  | stop | look | touch => rfl

theorem keeps_older : Keeps host (fun c => c.config = none) (Older w₀) where
  same u v huv h := h.trans (.of_eq huv.containers_eq)
  build u image h := h
  call c v hc _ _ _ hchanges h := by
    have hchanges' : ReflTransGen (Change host c.tenantId none c.world) c.world v := hc ▸ hchanges
    exact h.trans (Fewer.of_reaches (fun _ _ => .of_change) hchanges').old

theorem Older.direct {redis : Bool} : Older w (direct redis w op) := by
  cases op with
  | vanish id => exact .of_remove rfl
  | _ => exact .of_eq rfl

/-- **Step.** Ports stay apart. -/
theorem portsApart_of_op (h : PortsApart w) (hw : Sound host w) (hop : op.Enabled w)
    (hkeeps : KeepsRedis op) (hfree : FindsFree w op) :
    PortsApart (endState (program host op) w) := by
  cases hprovisions : op.provisions with
  | false =>
    have hold : Older w (endState (program host op) w) :=
      (keeps_older.of_op hw hop hkeeps (fun _ hc => config_of_calls hprovisions hc) .direct).2
    exact h.of_older hold
  | true =>
    have hdiscard {α : Type} {m : M α} (h : Ends m (fun _ => Opened w) (Opened w) w) :
        Opened w (endState (do let _ ← m) w) :=
      Ends.endState (I := Opened w) (Ends.bind h fun _ _ h => Ends.pure h)
    have hopened : Opened w (endState (program host op) w) := by
      cases op with
      | provision t config image => exact hdiscard provisionTenant_opens
      | getOrCreate t => exact hdiscard getOrCreate_opens
      | _ => simp [Op.provisions] at hprovisions
    exact h.of_opened (hfree hprovisions) hopened

end Operations

/-! ### Entries and their containers -/

/-- The container of the tenant runs behind the port. -/
def World.AtPort (w : World) (t : String) (port : ℕ) : Prop :=
  ∃ id c, w.behind port = some id ∧ w.containers.get id = some c ∧ c.running = true ∧
    c.port = port ∧ c.tenantId = t

/-- Behind the port of the tenant's entry there is the tenant's container. -/
structure Fronts (w : World) (t : String) (tc : TenantContainer) : Prop where
  tenantId : tc.tenantId = t
  atPort : w.AtPort t tc.port

/-- The entries of all gateways are live, and the containers are told apart by names and ports. -/
structure Addressed (host : Host) {n : ℕ} (cl : Cluster n) : Prop where
  consistent : Consistent host cl
  attended : Attended cl.world
  awake : Awake cl.world
  apart : PortsApart cl.world

/-- An undisturbed step that finds a free port if it needs one. -/
def Smooth (host : Host) {n : ℕ} (cl : Cluster n) (a : Fin n × Op) : Prop :=
  Undisturbed host cl a ∧ FindsFree cl.world a.2

instance (host : Host) {n : ℕ} (cl : Cluster n) (a : Fin n × Op) : Decidable (Smooth host cl a) :=
  inferInstanceAs (Decidable (_ ∧ _))

section Entries

variable {host : Host} {n : ℕ} {w w' w₀ : World} {cl cl' : Cluster n} {a : Fin n × Op} {k j : Fin n}
  {t t' : String} {tc tc' : TenantContainer} {acts : List (Fin n × Op)}

theorem Live.fronts (h : Live w t tc) (hattended : Attended w) (hawake : Awake w)
    (hapart : PortsApart w) (htenant : ∀ state, w.redis.get (stateKey t) = some state →
      state.tenantId = t) : Fronts w t tc := by
  obtain ⟨state, hstate, hmirrors⟩ := h.mirrored
  obtain ⟨c, hc, hname⟩ := h.container
  have hrunning : state.runningContainer = some tc.containerId := by
    rw [TenantState.runningContainer, hmirrors.status]
    exact hmirrors.containerId
  obtain ⟨hrun, hport⟩ := hawake t state _ c hstate hrunning hc
  have hport' : c.port = tc.port := hport.trans hmirrors.port.symm
  have hc' : c.tenantId = t := containerName_inj.mp ((hattended.named _ c hc).symm.trans hname)
  exact ⟨hmirrors.tenantId.trans (htenant state hstate), _, c, hapart.behind_eq hc hrun hport', hc,
    hrun, hport', hc'⟩

theorem Addressed.fronts (h : Addressed host cl) (hentry : (cl.caches k).get t = some tc) :
    Fronts cl.world t tc :=
  (h.consistent.live k t tc hentry).fronts h.attended h.awake h.apart fun state hstate =>
    (h.consistent.sound.coherent.record t state hstate).1

theorem addressed_of_step (h : Addressed host cl) (hsmooth : Smooth host cl a)
    (hstep : (cluster host n w₀).step cl a = some cl') : Addressed host cl' := by
  refine ⟨consistent_of_step h.consistent hsmooth.1 hstep, attended_of_step h.attended hstep,
    awake_of_step h.consistent h.awake hsmooth.1 hstep, ?_⟩
  obtain ⟨k, op⟩ := a
  simp only [cluster] at hstep
  split_ifs at hstep with hen
  obtain rfl := Option.some_inj.mp hstep
  have hview : PortsApart (cl.view k) := h.apart
  exact portsApart_of_op hview (h.consistent.view k) hen hsmooth.1.1 hsmooth.2

theorem addressed_of_run (hfresh : Fresh w₀) (hworks : w₀.RedisWorks)
    (hempty : ∀ id, w₀.containers.get id = none)
    (hacts : (cluster host n w₀).AllSteps (Smooth host) (cluster host n w₀).init acts)
    (hrun : (cluster host n w₀).run acts = some cl) : Addressed host cl :=
  Machine.run_invariant (fun h hsmooth hstep => addressed_of_step h hsmooth hstep)
    ⟨hfresh.consistent hworks, .of_empty hempty, hfresh.awake,
      fun id _ c _ hc => by simp [cluster, hempty] at hc⟩ hacts hrun

theorem Looking.containers_eq (h : Looking t w w') : w'.containers = w.containers := by
  cases h <;> rfl

/-- What `get_tenant` returns is fronted, whether or not Docker answers. -/
theorem Addressed.fronts_of_get (h : Addressed host cl)
    (hget : (getTenant t).run (cl.view k) = .ok (some tc) w') : Fronts w' t tc := by
  have hview := h.consistent.view k
  obtain ⟨hlook, hcached⟩ := (getTenant_ends hview.redisWorks).ok hget
  have hcontainers : w'.containers = cl.world.containers := hlook.containers_eq
  have hlively : Lively (fun _ _ => False) (cl.view k) :=
    h.consistent.lively k fun _ _ h => h.elim
  have hlive : Live w' t tc := hlively.of_looking hview hlook (fun _ _ => id) (.inl hcached.symm)
  have hawake : Awake (cl.view k) := h.awake
  refine hlive.fronts ?_ (hawake.of_looking hview hlook) ?_ fun state hstate => ?_
  · exact h.attended.of_docked (.quiet hcontainers)
  · exact h.apart.of_older (.of_eq hcontainers)
  · exact ((hview.of_leads (c := .look t _) hlook hlook.changes).coherent.record t state hstate).1

end Entries

/-! ### The proxy -/

/-- What a client sends to the proxy. -/
structure ProxyRequest where
  method : String
  path : String
  params : List (String × String)
  content : String
  contentType : Option String

/-- What the proxy sends to `http://localhost:port/path`. -/
structure Outgoing where
  method : String
  port : ℕ
  path : String
  params : List (String × String)
  content : String
  contentType : String

/-- The response of an agent. -/
structure Response where
  statusCode : ℕ
  text : String

/-- An `HTTPException` whose detail may be any JSON. -/
structure ProxyError where
  statusCode : ℕ
  detail : Json

/-- The request that is forwarded. -/
def ProxyRequest.outgoing (request : ProxyRequest) (port : ℕ) : Outgoing :=
  { method := request.method
    port
    path := request.path
    params := request.params
    content := request.content
    contentType := request.contentType.getD "application/json" }

/-- `resp.json()`, or else `resp.text`. -/
def Response.content (loads : String → Option Json) (resp : Response) : Json :=
  (loads resp.text).getD (.str resp.text)

/-- What becomes of the response; `error` is an `httpx.RequestError`. -/
def proxied (loads : String → Option Json) : Except String Response → Except ProxyError Json
  | .error e => .error ⟨502, .str ("Proxy error: " ++ e)⟩
  | .ok resp =>
    if 400 ≤ resp.statusCode then .error ⟨resp.statusCode, resp.content loads⟩
    else .ok (resp.content loads)

/-- `detail` when the tenant has no container. -/
def tenantNotFound (tenantId : String) : ProxyError :=
  ⟨404, .str ("Tenant " ++ tenantId ++ " not found")⟩

/-- The agents of the containers, by the ids of these. -/
abbrev ContainerAgents := ℕ → Outgoing → Except String Response

/-- `client.request`: the container behind the port answers, or the connection is refused. -/
def World.request (w : World) (agents : ContainerAgents) (out : Outgoing) :
    Except String Response :=
  match w.behind out.port with
  | some id => agents id out
  | none => .error "All connection attempts failed"

/-- `proxy_tenant` -/
def proxyTenant (loads : String → Option Json) (agents : ContainerAgents) (tenantId : String)
    (request : ProxyRequest) : M (Except ProxyError Json) := do
  let tc ← getTenant tenantId
  match tc with
  | none => pure (.error (tenantNotFound tenantId))
  | some tc => do
    let w ← get
    pure (proxied loads (w.request agents (request.outgoing tc.port)))

section Proxy

variable {host : Host} {n : ℕ} {w w' w₀ : World} {cl : Cluster n} {k : Fin n} {t : String}
  {tc : TenantContainer} {acts : List (Fin n × Op)} {loads : String → Option Json}
  {agents : ContainerAgents} {request : ProxyRequest} {reply : Except ProxyError Json} {port : ℕ}

/-- What is sent to the port of a tenant is answered by the tenant's container. -/
theorem World.AtPort.request_eq (h : w.AtPort t port) : ∃ id c, w.containers.get id = some c ∧
    c.running = true ∧ c.tenantId = t ∧
      w.request agents (request.outgoing port) = agents id (request.outgoing c.port) := by
  obtain ⟨id, c, hbehind, hc, hrun, hport, htenant⟩ := h
  refine ⟨id, c, hc, hrun, htenant, ?_⟩
  have hout : (request.outgoing port).port = port := rfl
  rw [World.request, hout, hbehind, hport]

/-- The proxy's reply comes from the tenant's own agent, or says that there is none. -/
def AnswersFor (loads : String → Option Json) (agents : ContainerAgents) (w : World) (t : String)
    (request : ProxyRequest) (reply : Except ProxyError Json) : Prop :=
  reply = .error (tenantNotFound t) ∨ ∃ id c, w.containers.get id = some c ∧ c.running = true ∧
    c.tenantId = t ∧ reply = proxied loads (agents id (request.outgoing c.port))

/-- **The proxy answers for the tenant's own agent**, in every run of several gateways that is not
disturbed: ports that were given up and found free again lead to nobody else's agent. -/
theorem proxied_of_run (hfresh : Fresh w₀) (hworks : w₀.RedisWorks)
    (hempty : ∀ id, w₀.containers.get id = none)
    (hacts : (cluster host n w₀).AllSteps (Smooth host) (cluster host n w₀).init acts)
    (hrun : (cluster host n w₀).run acts = some cl)
    (hreply : (proxyTenant loads agents t request).run (cl.view k) = .ok reply w') :
    AnswersFor loads agents w' t request reply := by
  have h := addressed_of_run hfresh hworks hempty hacts hrun
  unfold proxyTenant at hreply
  rw [EStateM.run_bind] at hreply
  cases hget : (getTenant t).run (cl.view k) with
  | error e u => simp [hget] at hreply
  | ok found u =>
    rw [hget] at hreply
    cases found with
    | none =>
      left
      cases hreply
      rfl
    | some tc =>
      right
      cases hreply
      obtain ⟨id, c, hc, hrunning, htenant, hanswer⟩ := (h.fronts_of_get hget).atPort.request_eq
      exact ⟨id, c, hc, hrunning, htenant, congrArg (proxied loads) hanswer⟩

end Proxy

/-! ### A port that is used again -/

/-- The port of a tenant that was stopped goes to another one, and the first one gets a new port
from another gateway. -/
def portReused : List (Fin 2 × Op) :=
  let first : Fin 2 := (Fin.last 0).castSucc
  let second : Fin 2 := Fin.last 1
  [(first, .provision "alice" (.obj []) defaultImage), (first, .stop "alice"),
    (first, .provision "bob" (.obj []) defaultImage), (second, .listen 49153),
    (second, .getOrCreate "alice")]

theorem smooth_portReused : (cluster sampleHost 2 sampleWorld).AllSteps (Smooth sampleHost)
    (cluster sampleHost 2 sampleWorld).init portReused := by
  decide +kernel

/-- An agent that answers every request. -/
def pong : ContainerAgents := fun _ _ => .ok ⟨200, "pong"⟩

def getStatus : ProxyRequest := ⟨"GET", "status", [], "", none⟩

theorem proxied_portReused : ∃ cl reply w',
    (cluster sampleHost 2 sampleWorld).run portReused = some cl ∧
      (proxyTenant (JsonText.loads id) pong "alice" getStatus).run (cl.view 0) = .ok reply w' ∧
      AnswersFor (JsonText.loads id) pong w' "alice" getStatus reply := by
  have hcheck : ((cluster sampleHost 2 sampleWorld).run portReused).map (fun cl =>
      returns (proxyTenant (JsonText.loads id) pong "alice" getStatus) (cl.view 0)
        fun reply _ => reply.toBool) = some true := by
    decide +kernel
  obtain ⟨cl, hrun, hcheck⟩ := Option.map_eq_some_iff.mp hcheck
  obtain ⟨reply, w', hreply, -⟩ := exists_of_returns hcheck
  exact ⟨cl, reply, w', hrun, hreply, proxied_of_run sampleWorld_fresh sampleWorld_redisWorks
    (fun _ => rfl) smooth_portReused hrun hreply⟩

end Nanogate.Tenants
