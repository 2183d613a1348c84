import Nanogate.Approval.Gateway
import Nanogate.Tenants.Ports

/-!
# Whom an approval is shown to

The gateway sends an approval to the ports of its entries: to that of the tenant the payload names,
or to all of them in turn. The route is a program over the manager's world here, and the agents are
those behind the ports.

## Main definitions

* `approveRoute` — the route, with the lookup before it and the `touch` after it
* `Asked` — the tenants that an approval may be shown to
* `Routed` — nobody else is visited or changed, and the tenant that is touched accepted

## Main results

* `asked_of_run` — approvals stay with the tenants they are for
-/

namespace Nanogate.Tenants

open Nanogate.Approval Nanogate.Python Nanogate.Semantics Relation

/-! ### The route -/

/-- The tenant that a payload names. -/
def namedTenant (payload : Json) : Json :=
  (payload.getD "tenant_id").or (payload.getD "tenantId")

/-- `get_tenant_container`, for a payload with a request id that names a tenant. -/
def namedContainer (payload : Json) : M (Option TenantContainer) :=
  if (payload.getD "request_id").truthy then
    match namedTenant payload with
    | .str tenantId => if tenantId = "" then pure none else getTenant tenantId
    -- an id that is no string is not followed
    | tenantId => if tenantId.truthy then throw (.other "tenant_id") else pure none
  else pure none

/-- `touch` for the tenant whose agent answered 200. -/
def touchAccepted : Option String → M Unit
  | some tenantId => touch tenantId
  | none => pure ()

/-- `POST /approve` of a gateway, with its manager. -/
def approveRoute (web : Web) (payload : Json) (exchange : ℕ → Exchange) (agents : Agents) :
    M GatewayCall := do
  let found ← namedContainer payload
  let w ← get
  let call := Gateway.approve web (fun _ => found) (w.tenants.entries.map Prod.snd) payload exchange
    agents
  touchAccepted call.touched
  pure call

/-! ### What the loop visits -/

/-- Only the agents of the tenants that are asked are visited and changed; the tenant that accepts
is the one whose agent answered 200. -/
structure Routed (w : World) (asked : Set String) (agents : Agents) (visits : List Visit)
    (accepted : Option String) (agents' : Agents) : Prop where
  visited : ∀ v ∈ visits, ∃ t ∈ asked, w.AtPort t v.port
  accepted : ∀ t, accepted = some t → ∃ v ∈ visits, w.AtPort t v.port ∧
    ∃ response, v.answer = some (.ok response)
  spared : ∀ port, (∀ t ∈ asked, ¬w.AtPort t port) → agents' port = agents port

/-- The container that was looked up is the one of the tenant that is named, if one is. -/
structure LookedUp (w : World) (payload : Json) (found : Option TenantContainer) (w' : World) :
    Prop where
  works : w'.RedisWorks
  named : ∀ tc ∈ found, namedTenant payload = .str tc.tenantId ∧ w'.AtPort tc.tenantId tc.port
  stays : (namedTenant payload).truthy = false → w' = w

/-- Whom an approval may be shown to: the tenant it names, or else those in the cache. -/
def Asked (payload : Json) (tenants : Dict String TenantContainer) : Set String :=
  if (namedTenant payload).truthy then {t | namedTenant payload = .str t}
  else {t | (tenants.get t).isSome = true}

section Approvals

variable {host : Host} {n : ℕ} {w w' w₀ : World} {cl : Cluster n} {k : Fin n} {t : String}
  {asked : Set String} {targets tenants : List TenantContainer} {acts : List (Fin n × Op)}
  {web : Web} {payload : Json} {exchange : ℕ → Exchange} {agents agents' : Agents} {v : Visit}
  {visits : List Visit} {accepted : Option String} {tc : TenantContainer}
  {getTenantContainer : Json → Option TenantContainer}

theorem Routed.nil : Routed w asked agents [] none agents :=
  ⟨by simp, by simp, fun _ _ => rfl⟩

/-- The agent that was changed is at a port of one that is asked. -/
theorem spared_update {after : Option Registry} (hasked : t ∈ asked) (hport : w.AtPort t v.port)
    {port : ℕ} (hfar : ∀ t ∈ asked, ¬w.AtPort t port) :
    Function.update agents v.port after port = agents port := by
  refine Function.update_of_ne ?_ _ _
  rintro rfl
  exact hfar t hasked hport

/-- One more agent is visited before the others. -/
theorem Routed.cons {after : Option Registry} (hasked : t ∈ asked) (hport : w.AtPort t v.port)
    (h : Routed w asked (Function.update agents v.port after) visits accepted agents') :
    Routed w asked agents (v :: visits) accepted agents' where
  visited u hu := by
    rcases List.mem_cons.mp hu with rfl | hu
    · exact ⟨t, hasked, hport⟩
    · exact h.visited u hu
  accepted s hs := by
    obtain ⟨u, hu, hrest⟩ := h.accepted s hs
    exact ⟨u, List.mem_cons_of_mem _ hu, hrest⟩
  spared port hfar := (h.spared port hfar).trans (spared_update hasked hport hfar)

theorem Routed.last {after : Option Registry} {response : Json} (hasked : t ∈ asked)
    (hport : w.AtPort t v.port) (hanswer : v.answer = some (.ok response)) :
    Routed w asked agents [v] (some t) (Function.update agents v.port after) where
  visited _ hu := List.mem_singleton.mp hu ▸ ⟨t, hasked, hport⟩
  accepted _ hs := Option.some_inj.mp hs ▸ ⟨v, List.mem_singleton_self v, hport, response, hanswer⟩
  spared _ hfar := spared_update hasked hport hfar

/-- **The loop** stays with its targets. -/
theorem broadcast_routed (web : Web) (payload : Json) (exchange : ℕ → Exchange)
    (agents : Agents)
    (h : ∀ tc ∈ targets, tc.tenantId ∈ asked ∧ w.AtPort tc.tenantId tc.port) :
    Routed w asked agents (broadcast web payload exchange targets agents).visits
      ((broadcast web payload exchange targets agents).accepted.map Prod.fst)
      (broadcast web payload exchange targets agents).agents := by
  induction targets generalizing agents with
  | nil => exact .nil
  | cons tc targets ih =>
    obtain ⟨hasked, hport⟩ := h tc (List.mem_cons_self ..)
    unfold broadcast
    dsimp only
    generalize hv : visit web payload tc.port (agents tc.port) (exchange tc.port) = v
    have hvisit : v.port = tc.port := hv ▸ port_visit
    rw [← hvisit] at hport ⊢
    have hrest := Routed.cons hasked hport
      (ih (Function.update agents v.port v.after) fun tc' htc' =>
        h tc' (List.mem_cons_of_mem _ htc'))
    cases hanswer : v.answer with
    | none => exact hrest
    | some answer =>
      cases answer with
      | error e => exact hrest
      | ok response => exact .last hasked hport hanswer

/-- The route visits the targets of the payload. -/
theorem approve_routed (h : ∀ tc ∈ Gateway.targets getTenantContainer tenants payload,
      tc.tenantId ∈ asked ∧ w.AtPort tc.tenantId tc.port) :
    Routed w asked agents
      (Gateway.approve web getTenantContainer tenants payload exchange agents).visits
      (Gateway.approve web getTenantContainer tenants payload exchange agents).touched
      (Gateway.approve web getTenantContainer tenants payload exchange agents).agents := by
  rcases approve_refused_or web getTenantContainer tenants payload exchange agents with
    ⟨error, hcall⟩ | ⟨hid, htargets⟩
  · rw [hcall]
    exact .nil
  · have hrouted := broadcast_routed web payload exchange agents h
    rw [approve_of_targets hid htargets]
    dsimp only
    cases haccepted : (broadcast web payload exchange
        (Gateway.targets getTenantContainer tenants payload) agents).accepted with
    | none =>
      rw [haccepted] at hrouted
      exact hrouted
    | some accepted =>
      rw [haccepted] at hrouted
      exact hrouted

/-- Each target is visited once at most, in order. -/
theorem broadcast_ports (web : Web) (payload : Json) (exchange : ℕ → Exchange)
    (agents : Agents) :
    ((broadcast web payload exchange targets agents).visits.map Visit.port).Sublist
      (targets.map TenantContainer.port) := by
  induction targets generalizing agents with
  | nil => exact List.Sublist.refl _
  | cons tc targets ih =>
    unfold broadcast
    dsimp only
    generalize hv : visit web payload tc.port (agents tc.port) (exchange tc.port) = v
    have hvisit : v.port = tc.port := hv ▸ port_visit
    cases hanswer : v.answer with
    | none =>
      rw [List.map_cons, List.map_cons, hvisit]
      exact (ih _).cons_cons tc.port
    | some answer =>
      cases answer with
      | error e =>
        rw [List.map_cons, List.map_cons, hvisit]
        exact (ih _).cons_cons tc.port
      | ok response =>
        rw [List.map_cons, List.map_cons, hvisit]
        exact (List.nil_sublist _).cons_cons tc.port

theorem approve_ports
    (h : ((Gateway.targets getTenantContainer tenants payload).map TenantContainer.port).Nodup) :
    ((Gateway.approve web getTenantContainer tenants payload exchange agents).visits.map
      Visit.port).Nodup := by
  rcases approve_refused_or web getTenantContainer tenants payload exchange agents with
    ⟨error, hcall⟩ | ⟨hid, htargets⟩
  · simp [hcall]
  · have hports := h.sublist (broadcast_ports web payload exchange agents)
    rw [approve_of_targets hid htargets]
    dsimp only
    cases (broadcast web payload exchange
      (Gateway.targets getTenantContainer tenants payload) agents).accepted <;> exact hports

theorem World.AtPort.congr {port : ℕ} (h : w.AtPort t port) (heq : w'.containers = w.containers) :
    w'.AtPort t port := by
  obtain ⟨id, c, hbehind, hc, hrest⟩ := h
  exact ⟨id, c, by rwa [World.behind, heq], heq ▸ hc, hrest⟩

theorem World.AtPort.eq {s : String} {port : ℕ} (h : w.AtPort t port) (h' : w.AtPort s port) :
    t = s := by
  obtain ⟨id, c, hbehind, hc, -, -, rfl⟩ := h
  obtain ⟨id', c', hbehind', hc', -, -, rfl⟩ := h'
  obtain rfl := Option.some_inj.mp (hbehind.symm.trans hbehind')
  rw [Option.some_inj.mp (hc.symm.trans hc')]

theorem Routed.congr (h : Routed w asked agents visits accepted agents')
    (heq : w'.containers = w.containers) : Routed w' asked agents visits accepted agents' where
  visited v hv := by
    obtain ⟨t, ht, hport⟩ := h.visited v hv
    exact ⟨t, ht, hport.congr heq⟩
  accepted t ht := by
    obtain ⟨v, hv, hport, hanswer⟩ := h.accepted t ht
    exact ⟨v, hv, hport.congr heq, hanswer⟩
  spared port hfar := h.spared port fun t ht hport => hfar t ht (hport.congr heq)

/-- The entries of a gateway have ports of their own. -/
theorem Addressed.nodup_ports (h : Addressed host cl) (k : Fin n) :
    (((cl.caches k).entries.map Prod.snd).map TenantContainer.port).Nodup := by
  rw [List.map_map]
  refine (List.nodup_map_iff_inj_on (List.Nodup.of_map _ (cl.caches k).nodup)).mpr ?_
  rintro ⟨t, tc⟩ hmem ⟨s, tc'⟩ hmem' hport
  have hentry := Dict.mem_entries_iff.mp hmem
  have hentry' := Dict.mem_entries_iff.mp hmem'
  have hatPort := (h.fronts hentry).atPort
  rw [show tc.port = tc'.port from hport] at hatPort
  obtain rfl := hatPort.eq (h.fronts hentry').atPort
  rw [Option.some_inj.mp (hentry.symm.trans hentry')]

theorem lookedUp_none (h : Addressed host cl) (k : Fin n) (payload : Json) :
    LookedUp (cl.view k) payload none (cl.view k) :=
  ⟨(h.consistent.view k).redisWorks, by simp, fun _ => rfl⟩

theorem namedContainer_lookedUp (h : Addressed host cl) : Ends (namedContainer payload)
    (LookedUp (cl.view k) payload) (fun _ => True) (cl.view k) := by
  have hworks := (h.consistent.view k).redisWorks
  unfold namedContainer
  refine Ends.ite (fun _ => ?_) fun _ => Ends.pure (lookedUp_none h k payload)
  split
  next t hnamed =>
    refine Ends.ite (fun _ => Ends.pure (lookedUp_none h k payload)) fun hne => ?_
    refine ((look_turn host t hworks (P := fun _ => True) trivial).and (Ends.self _ _)).mono ?_
      fun _ _ => trivial
    rintro found u ⟨⟨hturn, -⟩, hget⟩
    refine ⟨((h.consistent.view k).of_turn hturn).redisWorks, fun tc htc => ?_, fun hfalsy => ?_⟩
    · obtain rfl : found = some tc := htc
      have hfronts := h.fronts_of_get hget
      exact ⟨hfronts.tenantId.symm ▸ hnamed, hfronts.tenantId.symm ▸ hfronts.atPort⟩
    · rw [hnamed] at hfalsy
      simp [Json.truthy, hne] at hfalsy
  next =>
    exact Ends.ite (fun _ => Ends.throw _ trivial) fun _ => Ends.pure (lookedUp_none h k payload)

/-- Whom the route asks, once the container is looked up. -/
theorem asked_of_targets {u : World} {found : Option TenantContainer} (h : Addressed host cl)
    (hfound : LookedUp (cl.view k) payload found u) (htc : tc ∈ Gateway.targets
      (fun _ => found) (u.tenants.entries.map Prod.snd) payload) :
    tc.tenantId ∈ Asked payload (cl.caches k) ∧ u.AtPort tc.tenantId tc.port := by
  unfold Gateway.targets at htc
  change tc ∈ if (namedTenant payload).truthy = true then _ else _ at htc
  split_ifs at htc with htruthy
  · obtain ⟨hnamed, hport⟩ := hfound.named tc (Option.mem_toList.mp (List.mem_of_mem_filter htc))
    refine ⟨?_, hport⟩
    rw [Asked, if_pos htruthy]
    exact hnamed
  · obtain rfl := hfound.stays (Bool.not_eq_true _ ▸ htruthy)
    obtain ⟨⟨t, tc'⟩, hmem, rfl⟩ := List.mem_map.mp (List.mem_of_mem_filter htc)
    have hentry : (cl.caches k).get t = some tc' := Dict.mem_entries_iff.mp hmem
    obtain ⟨htenant, hport⟩ := h.fronts hentry
    dsimp only
    rw [htenant, Asked, if_neg htruthy]
    exact ⟨Option.isSome_iff_exists.mpr ⟨tc', hentry⟩, hport.congr rfl⟩

theorem nodup_targets_of_lookedUp {u : World} {found : Option TenantContainer}
    (h : Addressed host cl) (hfound : LookedUp (cl.view k) payload found u) :
    ((Gateway.targets (fun _ => found) (u.tenants.entries.map Prod.snd) payload).map
      TenantContainer.port).Nodup := by
  by_cases htruthy : (namedTenant payload).truthy = true
  · -- the cache does not matter
    have hsame : Gateway.targets (fun _ => found) (u.tenants.entries.map Prod.snd) payload =
        Gateway.targets (fun _ => found) [] payload := by
      unfold Gateway.targets
      exact (if_pos htruthy).trans (if_pos htruthy).symm
    rw [hsame]
    exact nodup_targets _ payload List.nodup_nil
  · obtain rfl := hfound.stays (Bool.not_eq_true _ ▸ htruthy)
    exact nodup_targets _ payload (h.nodup_ports k)

theorem Touching.containers_eq (h : Touching t w w') : w'.containers = w.containers := by
  cases h <;> rfl

/-- **Approvals stay with their tenants.** In a run of several gateways that is not disturbed, an
approval that names a tenant is shown to that tenant's agent only, one that names none is shown to
no agent twice, no other agent changes, and the tenant that is kept alive is the one whose agent
took it. -/
theorem asked_of_run (hfresh : Fresh w₀) (hworks : w₀.RedisWorks)
    (hempty : ∀ id, w₀.containers.get id = none)
    (hacts : (cluster host n w₀).AllSteps (Smooth host) (cluster host n w₀).init acts)
    (hrun : (cluster host n w₀).run acts = some cl) {call : GatewayCall}
    (hcall : (approveRoute web payload exchange agents).run (cl.view k) = .ok call w') :
    Routed w' (Asked payload (cl.caches k)) agents call.visits call.touched call.agents ∧
      (call.visits.map Visit.port).Nodup := by
  have h := addressed_of_run hfresh hworks hempty hacts hrun
  have hends : Ends (approveRoute web payload exchange agents) (fun call u =>
      Routed u (Asked payload (cl.caches k)) agents call.visits call.touched call.agents ∧
        (call.visits.map Visit.port).Nodup) (fun _ => True) (cl.view k) := by
    unfold approveRoute
    refine Ends.bind (namedContainer_lookedUp h) fun found u hfound => ?_
    refine Ends.get_bind ?_
    generalize hcall : Gateway.approve web (fun _ => found) (u.tenants.entries.map Prod.snd) payload
      exchange agents = call
    have hrouted : Routed u (Asked payload (cl.caches k)) agents call.visits call.touched
        call.agents := hcall ▸ approve_routed fun tc htc => asked_of_targets h hfound htc
    have honce : (call.visits.map Visit.port).Nodup :=
      hcall ▸ approve_ports (nodup_targets_of_lookedUp h hfound)
    -- the tenant that accepted is touched
    refine Ends.bind (P := fun _ v => v.containers = u.containers) ?_ fun _ v hv =>
      Ends.pure ⟨hrouted.congr hv, honce⟩
    cases call.touched with
    | none => exact Ends.pure rfl
    | some t =>
      exact (touch_ends hfound.works).mono (fun _ _ h => h.containers_eq) fun _ _ => trivial
  exact hends.ok hcall

end Approvals

/-! ### A port that is used again -/

/-- An approval for a tenant that is named. -/
def aliceApproves : Json := .obj [("request_id", .str "r1"), ("tenant_id", .str "alice")]

/-- The agent at one port waits for the approval. -/
def waitsAt (port : ℕ) : Agents := fun p =>
  if p = port then
    some (Dict.empty.set "exec" (.gatewayExec
      { settings := ⟨true, "", true, none⟩
        pending := Dict.empty.set "r1" ⟨"make", "/root", "api:alice", "api", "direct"⟩ }))
  else none

theorem asked_portReused : ∃ cl call w',
    (cluster sampleHost 2 sampleWorld).run portReused = some cl ∧
      (approveRoute plainWeb aliceApproves (commandEnds (.exited "done" "" 0)) (waitsAt 49153)).run
        (cl.view 0) = .ok call w' ∧
      Routed w' (Asked aliceApproves (cl.caches 0)) (waitsAt 49153) call.visits call.touched
        call.agents ∧ (call.visits.map Visit.port).Nodup := by
  have hcheck : ((cluster sampleHost 2 sampleWorld).run portReused).map (fun cl =>
      returns (approveRoute plainWeb aliceApproves (commandEnds (.exited "done" "" 0))
        (waitsAt 49153)) (cl.view 0) fun call _ => call.touched = some "alice") = some true := by
    decide +kernel
  obtain ⟨cl, hrun, hcheck⟩ := Option.map_eq_some_iff.mp hcheck
  obtain ⟨call, w', hcall, -⟩ := exists_of_returns hcheck
  exact ⟨cl, call, w', hrun, hcall, asked_of_run sampleWorld_fresh sampleWorld_redisWorks
    (fun _ => rfl) smooth_portReused hrun hcall⟩

end Nanogate.Tenants
