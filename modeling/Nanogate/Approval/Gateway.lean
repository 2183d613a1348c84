import Mathlib.Logic.Function.Basic
import Nanogate.Approval.SessionCheck
import Nanogate.Tenants.World

/-!
# Approvals through the gateway

The gateway does not know which agent holds a request id. It asks the agents of the tenants one
after the other until one answers 200, and takes every other answer, and every call that fails,
to mean that the id is not pending there. But an agent that holds the id answers 400 also when
the command it has run timed out or belongs to another session, and a call can fail after the
agent has acted. The gateway then says that no agent holds the id, when one did.

## Main definitions

* `Transport`, `Exchange` — how the call of an agent goes
* `serve`, `visit`, `broadcast` — the agents that are asked
* `Gateway.approve` — the route of the gateway
* `Truthful` — what the gateway's answer says about the agents is so
* `Completes` — a call of the agent that holds the id ends in an answer 200

## Main results

* `truthful_iff` — the answer is truthful exactly when the call of a holder completes
-/

namespace Nanogate.Approval

open Nanogate.Python Nanogate.Bus Nanogate.Tenants

/-! ### One agent -/

/-- How the HTTP call to an agent goes: the request does not get there, or the answer does not
get back, and the client raises; or neither. -/
inductive Transport where
  | lost
  | cut
  | delivered
  deriving DecidableEq, Repr

/-- What happens in the call to one agent: on the way, in the processes it starts and in the turn
it resumes, and what that turn makes of the tools. -/
structure Exchange where
  transport : Transport
  env : Environment
  settle : Registry → Registry

/-- What the web framework does with a payload: the body it is validated to, `none` when it is
refused, and the text of a value in a message. -/
structure Web where
  validate : Json → Option ApproveBody
  str : Json → String

/-- The answer to a body that is refused. -/
def unprocessable : HttpError := { statusCode := 422, detail := "Unprocessable Entity" }

/-- The entry that `POST /approve` of the agent pops. -/
def popped (tools : Registry) (requestId : String) : Option Pending :=
  (lookup tools requestId).bind fun name => (take tools name requestId).map fun t => t.2.1

/-- An agent that was asked: its tools before and after, the entry it popped, what it started, and
the answer the gateway got, `none` when the client raised. -/
structure Visit where
  port : ℕ
  before : Option Registry
  after : Option Registry
  taken : Option Pending
  started : List Started
  answer : Option (Except HttpError Json)

/-- The agent handles the request. -/
def serve (web : Web) (payload : Json) (port : ℕ) (agentLoop : Option Registry) (ex : Exchange) :
    Visit :=
  match web.validate payload with
  | none =>
    { port, before := agentLoop, after := agentLoop, taken := none, started := []
      answer := some (.error unprocessable) }
  | some body =>
    let handled := approve agentLoop body ex.env
    { port
      before := agentLoop
      after := agentLoop.map fun _ =>
        if handled.turns = [] then handled.tools else ex.settle handled.tools
      taken := agentLoop.bind fun tools => popped tools body.requestId
      started := handled.started
      answer := some handled.reply }

/-- `client.post` to the agent. -/
def visit (web : Web) (payload : Json) (port : ℕ) (agentLoop : Option Registry) (ex : Exchange) :
    Visit :=
  match ex.transport with
  | .lost =>
    { port, before := agentLoop, after := agentLoop, taken := none, started := [], answer := none }
  | .cut => { serve web payload port agentLoop ex with answer := none }
  | .delivered => serve web payload port agentLoop ex

/-! ### The route -/

/-- The agents behind the ports; `none` before `agent_loop` is there. -/
abbrev Agents := ℕ → Option Registry

/-- What became of the loop: the agents that were asked, what they are now, and the tenant and the
response of the one that answered 200. -/
structure Broadcast where
  visits : List Visit
  agents : Agents
  accepted : Option (String × Json)

/-- The loop over `targets`. -/
def broadcast (web : Web) (payload : Json) (exchange : ℕ → Exchange) :
    List TenantContainer → Agents → Broadcast
  | [], agents => ⟨[], agents, none⟩
  | tc :: targets, agents =>
    let v := visit web payload tc.port (agents tc.port) (exchange tc.port)
    let agents := Function.update agents tc.port v.after
    match v.answer with
    | some (.ok response) => ⟨[v], agents, some (tc.tenantId, response)⟩
    -- an answer that is not 200 and a call that failed are passed over alike
    | some (.error _) | none =>
      let rest := broadcast web payload exchange targets agents
      { rest with visits := v :: rest.visits }

/-- What one call of the gateway's route did: its answer, the tenant it touched, and the agents. -/
structure GatewayCall where
  reply : Except HttpError Json
  touched : Option String
  visits : List Visit
  agents : Agents

namespace Gateway

/-- The answer when the route raises. -/
def internalServerError : HttpError := { statusCode := 500, detail := "Internal Server Error" }

def missingRequestId : HttpError := { statusCode := 400, detail := "Missing request_id" }

def noActiveTenants : HttpError :=
  { statusCode := 400, detail := "No active tenants to route approval to." }

/-- `detail` when no agent answered 200. -/
def notFound (requestId : String) : HttpError :=
  { statusCode := 400
    detail := "No pending approval found for request_id: " ++ requestId ++
      " across any active tenants." }

/-- `targets`: the tenant that the payload names, or else all of them, as far as they have a
port. -/
def targets (getTenantContainer : Json → Option TenantContainer) (tenants : List TenantContainer)
    (payload : Json) : List TenantContainer :=
  let tenantId := (payload.getD "tenant_id").or (payload.getD "tenantId")
  if tenantId.truthy then (getTenantContainer tenantId).toList.filter fun tc => tc.port ≠ 0
  else tenants.filter fun tc => tc.port ≠ 0

/-- `POST /approve` of the gateway, with what `get_tenant_container` returns and the values of
`_tenants`. -/
def approve (web : Web) (getTenantContainer : Json → Option TenantContainer)
    (tenants : List TenantContainer) (payload : Json) (exchange : ℕ → Exchange) (agents : Agents) :
    GatewayCall :=
  let rawRequestId := payload.getD "request_id"
  -- a body that is no object has no `get`
  if !payload.isObj then ⟨.error internalServerError, none, [], agents⟩
  else if !rawRequestId.truthy then ⟨.error missingRequestId, none, [], agents⟩
  else
    match targets getTenantContainer tenants payload with
    | [] => ⟨.error noActiveTenants, none, [], agents⟩
    | tc :: rest =>
      let asked := broadcast web payload exchange (tc :: rest) agents
      match asked.accepted with
      | some (tenantId, response) => ⟨.ok response, some tenantId, asked.visits, asked.agents⟩
      | none => ⟨.error (notFound (web.str rawRequestId)), none, asked.visits, asked.agents⟩

end Gateway

/-! ### Truthful answers -/

/-- The agent holds the request id of the payload. -/
def Holds (payload : Json) (agentLoop : Option Registry) : Prop :=
  ∃ id tools, payload.get "request_id" = some (.str id) ∧ id ≠ "" ∧ agentLoop = some tools ∧
    Approvable tools id

/-- Nothing was held by the agent, and nothing was done. -/
structure Idle (payload : Json) (v : Visit) : Prop where
  held : ¬ Holds payload v.before
  started : v.started = []
  taken : v.taken = none
  after : v.after = v.before

/-- When the gateway says that no agent holds the id, none of those it asked did, and nothing was
done; and when it answers 200, exactly one agent popped the entry, and no other agent changed. -/
structure Truthful (web : Web) (payload : Json) (agents : Agents) (call : GatewayCall) : Prop where
  notFound : call.reply = .error (Gateway.notFound (web.str (payload.getD "request_id"))) →
    ∀ v ∈ call.visits, Idle payload v
  ok : ∀ response, call.reply = .ok response →
    ∃ v ∈ call.visits, v.taken.isSome ∧ (∀ v' ∈ call.visits, v'.taken.isSome → v' = v) ∧
      ∀ port, port ≠ v.port → call.agents port = agents port

/-- The command of the entry ran to its end; and if that resumes the conversation, the body names
no other session than the entry's. -/
def RunsThrough (body : ApproveBody) (entry : Pending) : ProcessOutcome → Prop
  | .exited _ _ code =>
    (body.autoResume && (code = 0 || body.resumeOnFailure)) = true →
      ∀ session, body.session = some session → session = entry.sessionKey
  | .notStarted _ | .timedOut | .failed _ => False

/-- The call to the agent gets there and back, and what is held runs through. -/
def Completes (web : Web) (payload : Json) (agentLoop : Option Registry) (ex : Exchange) : Prop :=
  ex.transport = .delivered ∧
    ∃ body tools entry, web.validate payload = some body ∧ agentLoop = some tools ∧
      popped tools body.requestId = some entry ∧ RunsThrough body entry ex.env.process

/-- At most one agent holds the id. -/
def HeldOnce (payload : Json) (agents : Agents) : Prop :=
  ∀ p q, Holds payload (agents p) → Holds payload (agents q) → p = q

/-! ### The agent that is asked -/

section Agent

variable {tools tools' : Registry} {tool : GatewayExecTool} {name id : String} {entry : Pending}
  {body : ApproveBody} {env : Environment}

theorem popped_eq_none_iff : popped tools id = none ↔ ¬ Approvable tools id := by
  rw [← lookup_eq_none_iff, popped]
  cases hlookup : lookup tools id with
  | none => simp
  | some name =>
    obtain ⟨tool, entry, htake⟩ := exists_take_of_lookup hlookup
    simp [htake]

/-- After the command the route refuses, or resumes, or answers 200. -/
theorem afterRun_ok_iff (process : ProcessOutcome) :
    (∀ error, afterRun body entry (runResult process) ≠ .answer (.error error)) ↔
      RunsThrough body entry process := by
  cases process with
  | notStarted | timedOut | failed => simp [afterRun, runResult, RunsThrough]
  | exited stdout stderr code => exact afterRun_ne_error_iff rfl

/-- The agent answers 200 exactly when the entry runs through. -/
theorem approve_ok_iff (hpopped : popped tools body.requestId = some entry) :
    (∃ response, (approve (some tools) body env).reply = .ok response) ↔
      RunsThrough body entry env.process := by
  obtain ⟨name, hlookup, htaken⟩ := Option.bind_eq_some_iff.mp hpopped
  obtain ⟨⟨tool, entry', tools'⟩, htake, rfl⟩ := Option.map_eq_some_iff.mp htaken
  rw [approve_of_take hlookup htake, ← afterRun_ok_iff]
  cases afterRun body entry' (runResult env.process) with
  | answer reply => cases reply <;> simp
  | resume turn response => simp

/-- An agent that does not hold the id does nothing and does not answer 200. -/
theorem approve_of_not_approvable (h : ¬ Approvable tools body.requestId) :
    (approve (some tools) body env) =
      { tools
        started := []
        turns := []
        reply := .error (Approval.notFound body.requestId) } := by
  simp only [approve, lookup_eq_none_iff.mpr h]

end Agent

/-! ### One visit -/

section Visit

variable {web : Web} {payload : Json} {port : ℕ} {agentLoop : Option Registry} {ex : Exchange}

/-- What pydantic makes of a payload has its request id. -/
def Web.KeepsId (web : Web) : Prop :=
  ∀ payload body, web.validate payload = some body →
    payload.get "request_id" = some (.str body.requestId)

theorem port_visit : (visit web payload port agentLoop ex).port = port := by
  unfold visit serve
  cases ex.transport <;> cases web.validate payload <;> rfl

theorem before_visit : (visit web payload port agentLoop ex).before = agentLoop := by
  unfold visit serve
  cases ex.transport <;> cases web.validate payload <;> rfl

/-- The agent handles a request whose id it does not hold. -/
theorem serve_of_not_holds (port : ℕ) (ex : Exchange) (hweb : web.KeepsId)
    (hid : payload.getD "request_id" ≠ .str "") (h : ¬ Holds payload agentLoop) :
    Idle payload (serve web payload port agentLoop ex) ∧
      ∀ response, (serve web payload port agentLoop ex).answer ≠ some (.ok response) := by
  unfold serve
  split
  · exact ⟨⟨h, rfl, rfl, rfl⟩, by simp⟩
  next body hbody =>
    have hget := hweb payload body hbody
    cases agentLoop with
    | none => exact ⟨⟨h, rfl, rfl, rfl⟩, by simp [approve]⟩
    | some tools =>
      have hne : body.requestId ≠ "" := fun heq => hid (by rw [Json.getD, hget, heq]; rfl)
      have hnot : ¬ Approvable tools body.requestId :=
        fun happ => h ⟨body.requestId, tools, hget, hne, rfl, happ⟩
      have hpopped : popped tools body.requestId = none := popped_eq_none_iff.mpr hnot
      simp only [approve_of_not_approvable hnot]
      exact ⟨⟨h, rfl, by simpa using hpopped, rfl⟩, by simp⟩

theorem visit_of_not_holds (port : ℕ) (ex : Exchange) (hweb : web.KeepsId)
    (hid : payload.getD "request_id" ≠ .str "") (h : ¬ Holds payload agentLoop) :
    Idle payload (visit web payload port agentLoop ex) ∧
      ∀ response, (visit web payload port agentLoop ex).answer ≠ some (.ok response) := by
  obtain ⟨hidle, hanswer⟩ := serve_of_not_holds port ex hweb hid h
  unfold visit
  split
  · exact ⟨⟨h, rfl, rfl, rfl⟩, by simp⟩
  · exact ⟨⟨hidle.held, hidle.started, hidle.taken, hidle.after⟩, by simp⟩
  · exact ⟨hidle, hanswer⟩

/-- The call of an agent that holds the id is answered 200 exactly when it completes. -/
theorem visit_ok_iff (port : ℕ) (ex : Exchange) (hweb : web.KeepsId)
    (h : Holds payload agentLoop) :
    (∃ response, (visit web payload port agentLoop ex).answer = some (.ok response)) ↔
      Completes web payload agentLoop ex := by
  obtain ⟨id, tools, hget, hne, rfl, happ⟩ := h
  cases htransport : ex.transport with
  | lost => simp [visit, htransport, Completes]
  | cut => simp [visit, htransport, Completes]
  | delivered =>
    cases hbody : web.validate payload with
    | none => simp [visit, htransport, serve, hbody, Completes]
    | some body =>
      obtain rfl : body.requestId = id := by
        simpa [hweb payload body hbody] using hget
      obtain ⟨entry, hentry⟩ := Option.ne_none_iff_exists'.mp
        (fun hnone => (popped_eq_none_iff.mp hnone) happ)
      have hanswer : (visit web payload port (some tools) ex).answer =
          some (approve (some tools) body ex.env).reply := by
        simp only [visit, htransport, serve, hbody]
      simp only [hanswer, Option.some.injEq, approve_ok_iff hentry]
      constructor
      · intro hruns
        exact ⟨htransport, body, tools, entry, hbody, rfl, hentry, hruns⟩
      · rintro ⟨-, body', tools', entry', hbody', htools, hentry', hruns⟩
        obtain rfl := Option.some.inj (hbody.symm.trans hbody')
        obtain rfl := Option.some.inj htools
        obtain rfl := Option.some.inj (hentry.symm.trans hentry')
        exact hruns

/-- A call that is answered 200 popped the entry. -/
theorem taken_of_completes (h : Completes web payload agentLoop ex) :
    (visit web payload port agentLoop ex).taken.isSome = true := by
  obtain ⟨htransport, body, tools, entry, hbody, rfl, hentry, -⟩ := h
  simp [visit, htransport, serve, hbody, hentry]

end Visit

/-! ### The loop -/

section Loop

variable {web : Web} {payload : Json} {exchange : ℕ → Exchange} {tc : TenantContainer}
  {targets before after : List TenantContainer} {agents : Agents}

/-- An agent that does not hold the id is passed over. -/
theorem broadcast_cons_of_not_holds (exchange : ℕ → Exchange) (targets : List TenantContainer)
    (hweb : web.KeepsId) (hid : payload.getD "request_id" ≠ .str "")
    (h : ¬ Holds payload (agents tc.port)) :
    ∃ v, Idle payload v ∧ broadcast web payload exchange (tc :: targets) agents =
      { broadcast web payload exchange targets agents with
        visits := v :: (broadcast web payload exchange targets agents).visits } := by
  obtain ⟨hidle, hanswer⟩ := visit_of_not_holds tc.port (exchange tc.port) hweb hid h
  refine ⟨_, hidle, ?_⟩
  have hsame : Function.update agents tc.port
      (visit web payload tc.port (agents tc.port) (exchange tc.port)).after = agents := by
    rw [hidle.after, before_visit, Function.update_eq_self]
  rw [broadcast]
  dsimp only
  rw [hsame]
  split
  next response hok => exact absurd hok (hanswer response)
  all_goals rfl

/-- So are all of them, up to one that holds it. -/
theorem broadcast_append_of_not_holds (exchange : ℕ → Exchange) (after : List TenantContainer)
    (hweb : web.KeepsId) (hid : payload.getD "request_id" ≠ .str "")
    (h : ∀ tc ∈ before, ¬ Holds payload (agents tc.port)) :
    ∃ vs, (∀ v ∈ vs, Idle payload v) ∧ broadcast web payload exchange (before ++ after) agents =
      { broadcast web payload exchange after agents with
        visits := vs ++ (broadcast web payload exchange after agents).visits } := by
  induction before with
  | nil => exact ⟨[], by simp, rfl⟩
  | cons tc before ih =>
    obtain ⟨vs, hidle, hrest⟩ := ih fun tc' htc => h tc' (List.mem_cons_of_mem _ htc)
    obtain ⟨v, hv, hcons⟩ := broadcast_cons_of_not_holds exchange (before ++ after) hweb hid
      (h tc (List.mem_cons_self ..))
    refine ⟨v :: vs, ?_, by rw [List.cons_append, hcons, hrest]; rfl⟩
    intro v' hv'
    rcases List.mem_cons.mp hv' with rfl | hmem
    · exact hv
    · exact hidle v' hmem

/-- Where nobody holds the id, nothing is done. -/
theorem broadcast_of_not_holds (exchange : ℕ → Exchange) (hweb : web.KeepsId)
    (hid : payload.getD "request_id" ≠ .str "")
    (h : ∀ tc ∈ targets, ¬ Holds payload (agents tc.port)) :
    (broadcast web payload exchange targets agents).accepted = none ∧
      ∀ v ∈ (broadcast web payload exchange targets agents).visits, Idle payload v := by
  obtain ⟨vs, hidle, hrun⟩ := broadcast_append_of_not_holds exchange [] hweb hid h
  rw [List.append_nil] at hrun
  rw [hrun]
  exact ⟨rfl, by simpa [broadcast] using hidle⟩

/-- The agent that holds the id and whose call completes is the last that is asked. -/
theorem broadcast_cons_of_completes (targets : List TenantContainer) (hweb : web.KeepsId)
    (hholds : Holds payload (agents tc.port))
    (h : Completes web payload (agents tc.port) (exchange tc.port)) :
    ∃ response, broadcast web payload exchange (tc :: targets) agents =
      ⟨[visit web payload tc.port (agents tc.port) (exchange tc.port)],
        Function.update agents tc.port
          (visit web payload tc.port (agents tc.port) (exchange tc.port)).after,
        some (tc.tenantId, response)⟩ := by
  obtain ⟨response, hanswer⟩ :=
    (visit_ok_iff tc.port (exchange tc.port) hweb hholds).mpr h
  exact ⟨response, by simp only [broadcast, hanswer]⟩

/-- If its call does not complete, the loop goes on, and nobody else answers 200. -/
theorem broadcast_cons_of_not_completes (hweb : web.KeepsId)
    (hid : payload.getD "request_id" ≠ .str "") (hholds : Holds payload (agents tc.port))
    (h : ¬ Completes web payload (agents tc.port) (exchange tc.port))
    (hothers : ∀ tc' ∈ targets, tc'.port ≠ tc.port ∧ ¬ Holds payload (agents tc'.port)) :
    (broadcast web payload exchange (tc :: targets) agents).accepted = none ∧
      ∃ v ∈ (broadcast web payload exchange (tc :: targets) agents).visits,
        Holds payload v.before := by
  have hanswer := mt (visit_ok_iff tc.port (exchange tc.port) hweb hholds).mp h
  have hvisit : Holds payload
      (visit web payload tc.port (agents tc.port) (exchange tc.port)).before := by
    rwa [before_visit]
  rw [broadcast]
  dsimp only
  split
  next response hok => exact absurd ⟨response, hok⟩ hanswer
  all_goals
    -- the others are as they were
    have hothers' : ∀ tc' ∈ targets, ¬ Holds payload (Function.update agents tc.port
        (visit web payload tc.port (agents tc.port) (exchange tc.port)).after tc'.port) := by
      intro tc' htc
      rw [Function.update_of_ne (hothers tc' htc).1]
      exact (hothers tc' htc).2
    obtain ⟨hnone, -⟩ := broadcast_of_not_holds exchange hweb hid hothers'
    exact ⟨hnone, _, List.mem_cons_self .., hvisit⟩

end Loop

/-! ### The main result -/

section Gateway

variable {web : Web} {payload : Json} {exchange : ℕ → Exchange} {agents : Agents}
  {getTenantContainer : Json → Option TenantContainer} {tenants : List TenantContainer}

/-- A payload that some agent holds the id of names one. -/
theorem truthy_of_holds {agentLoop : Option Registry} (h : Holds payload agentLoop) :
    (payload.getD "request_id").truthy = true := by
  obtain ⟨id, tools, hget, hne, -⟩ := h
  simp [Json.getD, hget, Json.truthy, hne]

theorem nodup_targets (getTenantContainer : Json → Option TenantContainer) (payload : Json)
    (hports : (tenants.map TenantContainer.port).Nodup) :
    ((Gateway.targets getTenantContainer tenants payload).map TenantContainer.port).Nodup := by
  unfold Gateway.targets
  dsimp only
  split_ifs
  · have hone : ((getTenantContainer ((payload.getD "tenant_id").or
        (payload.getD "tenantId"))).toList.map TenantContainer.port).Nodup := by
      cases getTenantContainer ((payload.getD "tenant_id").or (payload.getD "tenantId")) <;> simp
    exact hone.sublist (List.filter_sublist.map _)
  · exact hports.sublist (List.filter_sublist.map _)

/-- The call, once it is known whom it asks. -/
theorem approve_of_targets (hid : (payload.getD "request_id").truthy = true)
    (htargets : Gateway.targets getTenantContainer tenants payload ≠ []) :
    Gateway.approve web getTenantContainer tenants payload exchange agents =
      let asked := broadcast web payload exchange
        (Gateway.targets getTenantContainer tenants payload) agents
      match asked.accepted with
      | some (tenantId, response) => ⟨.ok response, some tenantId, asked.visits, asked.agents⟩
      | none => ⟨.error (Gateway.notFound (web.str (payload.getD "request_id"))), none,
          asked.visits, asked.agents⟩ := by
  unfold Gateway.approve
  cases h : Gateway.targets getTenantContainer tenants payload with
  | nil => exact absurd h htargets
  | cons tc rest =>
    simp only [hid, Json.isObj_of_getD hid, Bool.not_true, Bool.false_eq_true, if_false]

/-- A call that does not come to the loop is refused. -/
theorem approve_refused_or (web : Web) (getTenantContainer : Json → Option TenantContainer)
    (tenants : List TenantContainer) (payload : Json) (exchange : ℕ → Exchange) (agents : Agents) :
    (∃ error, Gateway.approve web getTenantContainer tenants payload exchange agents =
      ⟨.error error, none, [], agents⟩) ∨
    ((payload.getD "request_id").truthy = true ∧
      Gateway.targets getTenantContainer tenants payload ≠ []) := by
  by_cases hobj : payload.isObj = true
  · by_cases hid : (payload.getD "request_id").truthy = true
    · by_cases htargets : Gateway.targets getTenantContainer tenants payload = []
      · exact .inl ⟨Gateway.noActiveTenants, by simp [Gateway.approve, hobj, hid, htargets]⟩
      · exact .inr ⟨hid, htargets⟩
    · exact .inl ⟨Gateway.missingRequestId, by simp [Gateway.approve, hobj, hid]⟩
  · exact .inl ⟨Gateway.internalServerError, by simp [Gateway.approve, hobj]⟩

/-- A call in which nobody does anything is truthful. -/
theorem truthful_of_idle {call : GatewayCall} (hreply : ∀ response, call.reply ≠ .ok response)
    (hidle : ∀ v ∈ call.visits, Idle payload v) : Truthful web payload agents call where
  notFound _ := hidle
  ok response h := absurd h (hreply response)

/-- Without a holder among the targets the gateway's answer is truthful. -/
theorem truthful_of_not_holds (hweb : web.KeepsId)
    (h : ∀ tc ∈ Gateway.targets getTenantContainer tenants payload,
      ¬ Holds payload (agents tc.port)) :
    Truthful web payload agents
      (Gateway.approve web getTenantContainer tenants payload exchange agents) := by
  rcases approve_refused_or web getTenantContainer tenants payload exchange agents with
    ⟨error, hcall⟩ | ⟨hid, htargets⟩
  · rw [hcall]
    exact truthful_of_idle (by simp) (by simp)
  · have hne : payload.getD "request_id" ≠ .str "" := fun heq => by simp [heq, Json.truthy] at hid
    obtain ⟨hnone, hidle⟩ := broadcast_of_not_holds exchange hweb hne h
    rw [approve_of_targets hid htargets]
    dsimp only
    rw [hnone]
    exact truthful_of_idle (by simp) hidle

/-- The targets around the agent that holds the id have other ports, and do not hold it. -/
theorem exists_split_of_holds {targets : List TenantContainer} {tc : TenantContainer}
    (hports : (targets.map TenantContainer.port).Nodup) (hone : HeldOnce payload agents)
    (htc : tc ∈ targets) (hholds : Holds payload (agents tc.port)) :
    ∃ before after, targets = before ++ tc :: after ∧
      ∀ tc' ∈ before ++ after, tc'.port ≠ tc.port ∧ ¬ Holds payload (agents tc'.port) := by
  obtain ⟨before, after, rfl⟩ := List.append_of_mem htc
  rw [List.map_append, List.map_cons, List.nodup_middle, List.nodup_cons,
    ← List.map_append] at hports
  refine ⟨before, after, rfl, fun tc' hmem => ?_⟩
  have hdiffers : tc'.port ≠ tc.port := fun heq => hports.1 (List.mem_map.mpr ⟨tc', hmem, heq⟩)
  exact ⟨hdiffers, fun h => hdiffers (hone _ _ h hholds)⟩

/-- **When the gateway's answer is truthful.** Whichever agents it asks, with the id held by at
most one: exactly when the call of an agent that holds the id gets there and back, and the command
that is held runs to its end and is not stopped by the session check. -/
theorem truthful_iff (hweb : web.KeepsId) (hports : (tenants.map TenantContainer.port).Nodup)
    (hone : HeldOnce payload agents) :
    Truthful web payload agents
        (Gateway.approve web getTenantContainer tenants payload exchange agents) ↔
      ∀ tc ∈ Gateway.targets getTenantContainer tenants payload, Holds payload (agents tc.port) →
        Completes web payload (agents tc.port) (exchange tc.port) := by
  by_cases hholder : ∃ tc ∈ Gateway.targets getTenantContainer tenants payload,
      Holds payload (agents tc.port)
  · obtain ⟨tc, htc, hholds⟩ := hholder
    have hid := truthy_of_holds hholds
    have hne : payload.getD "request_id" ≠ .str "" := fun heq => by simp [heq, Json.truthy] at hid
    obtain ⟨before, after, hsplit, hothers⟩ := exists_split_of_holds
      (nodup_targets getTenantContainer payload hports) hone htc hholds
    -- the loop comes to the holder, whoever is asked before it
    obtain ⟨vs, hidle, hrun⟩ := broadcast_append_of_not_holds exchange (tc :: after) hweb hne
      fun tc' hmem => (hothers tc' (List.mem_append_left _ hmem)).2
    rw [approve_of_targets hid (List.ne_nil_of_mem htc), hsplit, hrun]
    by_cases hcompletes : Completes web payload (agents tc.port) (exchange tc.port)
    · obtain ⟨response, hlast⟩ := broadcast_cons_of_completes after hweb hholds hcompletes
      rw [hlast]
      refine iff_of_true ⟨by simp, fun _ _ => ?_⟩ fun tc' hmem h => ?_
      · refine ⟨visit web payload tc.port (agents tc.port) (exchange tc.port), by simp,
          taken_of_completes hcompletes, fun v' hv' htaken => ?_, fun port hport => ?_⟩
        · -- nobody before the holder took anything
          rcases List.mem_append.mp hv' with hv' | hv'
          · simp [(hidle v' hv').taken] at htaken
          · exact List.mem_singleton.mp hv'
        · rw [port_visit] at hport
          exact Function.update_of_ne hport _ _
      · rw [hone _ _ h hholds]
        exact hcompletes
    · obtain ⟨hnone, v, hv, hheld⟩ := broadcast_cons_of_not_completes hweb hne hholds hcompletes
        fun tc' hmem => hothers tc' (List.mem_append_right _ hmem)
      dsimp only
      rw [hnone]
      refine iff_of_false (fun h => ?_) fun h =>
        hcompletes (h tc (by simp) hholds)
      exact (h.notFound rfl v (List.mem_append_right _ hv)).held hheld
  · have hnone : ∀ tc ∈ Gateway.targets getTenantContainer tenants payload,
        ¬ Holds payload (agents tc.port) := fun tc htc h => hholder ⟨tc, htc, h⟩
    exact iff_of_true (truthful_of_not_holds hweb hnone) fun tc htc h => absurd h (hnone tc htc)

end Gateway

/-! ### A command that times out -/

/-- A web framework that fills in the defaults of the other fields. -/
def plainWeb : Web where
  validate payload :=
    ((payload.get "request_id").bind Json.str?).map fun id =>
      ⟨id, (payload.get "sessionId").bind Json.str?, true, false⟩
  str v := v.str?.getD ""

theorem keepsId_plainWeb : plainWeb.KeepsId := by
  intro payload body h
  obtain ⟨id, hid, rfl⟩ := Option.map_eq_some_iff.mp h
  obtain ⟨v, hget, hstr⟩ := Option.bind_eq_some_iff.mp hid
  cases v with
  | str s => rw [hget, Option.some.inj hstr]
  | null | bool | num | float | arr | obj => simp [Json.str?] at hstr

/-- One tenant, whose agent waits for the approval of a command. -/
def acme : TenantContainer := ⟨"acme", 1, 8001, none, 0⟩

def acmeAgents : Agents := fun port =>
  if port = 8001 then
    some (Dict.empty.set "exec" (.gatewayExec
      { settings := ⟨true, "", true, none⟩
        pending := Dict.empty.set "r1" ⟨"make", "/root", "api:alice", "api", "direct"⟩ }))
  else none

def approval : Json := .obj [("request_id", .str "r1")]

theorem holds_acme : Holds approval (acmeAgents acme.port) :=
  ⟨"r1", _, rfl, by decide, rfl, "exec", _, rfl, rfl⟩

theorem heldOnce_acmeAgents : HeldOnce approval acmeAgents := by
  have hport : ∀ p, Holds approval (acmeAgents p) → p = 8001 := by
    intro p hp
    by_contra hne
    obtain ⟨id, tools, -, -, htools, -⟩ := hp
    simp [acmeAgents, hne] at htools
  intro p q hp hq
  rw [hport p hp, hport q hq]

/-- The answer gets back to the gateway, and the command ends as given. -/
def commandEnds (process : ProcessOutcome) : ℕ → Exchange := fun _ =>
  ⟨.delivered, ⟨process, .ok none⟩, id⟩

theorem truthful_iff_acme :
    Truthful plainWeb approval acmeAgents (Gateway.approve plainWeb (fun _ => none) [acme] approval
        (commandEnds (.exited "done" "" 0)) acmeAgents) ↔
      ∀ tc ∈ Gateway.targets (fun _ => none) [acme] approval, Holds approval (acmeAgents tc.port) →
        Completes plainWeb approval (acmeAgents tc.port)
          (commandEnds (.exited "done" "" 0) tc.port) :=
  truthful_iff keepsId_plainWeb (by decide) heldOnce_acmeAgents

/-- **The gateway denies what it has done**: the command of the agent has run and its entry is gone,
but it took too long, and the answer is that no approval was pending. -/
theorem timed_out_not_found : ¬ ∀ web getTenantContainer tenants payload exchange agents,
    web.KeepsId → (tenants.map TenantContainer.port).Nodup → HeldOnce payload agents →
      Truthful web payload agents
        (Gateway.approve web getTenantContainer tenants payload exchange agents) := by
  intro hlaw
  have h := hlaw plainWeb (fun _ => none) [acme] approval (commandEnds .timedOut) acmeAgents
    keepsId_plainWeb (by decide) heldOnce_acmeAgents
  exact (h.notFound rfl _ (List.mem_singleton.mpr rfl)).held holds_acme

end Nanogate.Approval
