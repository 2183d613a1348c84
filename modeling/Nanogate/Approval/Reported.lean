import Nanogate.Approval.Agent

/-!
# The request ids that a client is told

A blocked command leaves its request id in a context variable, from where `_run_chat` takes it
into the reply once `process_direct` has returned. The variable holds one id, so of several
blocked commands only the last is reported; an exception loses it, in the turn or, before the done
event of the bus is on the stream of the session, in publishing it; and a turn that an approval
resumes does not look at it at all.

## Main definitions

* `Context` — the context variables of a task
* `ToolCall`, `execute`, `ProcessDirect` — the calls of a turn and how it ends
* `added` — the ids under which a turn adds entries
* `Publication` — how `publish_event` goes
* `runChat`, `Origin`, `reply` — the kinds of turns and what they are answered with
* `Reported` — the ids that a turn added are in its reply, and no others

## Main results

* `approvalRequestId_runCalls` — the variable holds the last id that was added
* `approvable_runCalls` — the added ids are those that can be approved afterwards
* `reported_iff` — every id is reported exactly when there is none, or there is just one in a turn
  of `_run_chat` that returns and whose result reaches the client
-/

namespace Nanogate.Approval

open Nanogate.Python Nanogate.Bus

/-! ### Tool calls -/

/-- The context variables of `agent.context`, as a task sees them. -/
structure Context where
  activeSession : Option String
  approvalRequestId : Option String
  approvalContext : Json

/-- A call of an exec tool: the tool it is addressed to, the working directory of the process, the
uuid that is drawn, and the arguments. -/
structure ToolCall where
  tool : String
  getcwd : String
  requestId : String
  command : String
  workingDir : Option String
  sessionKey : Option String

/-- The arguments of the call as `execute` sees them in a context. -/
def ToolCall.inContext (call : ToolCall) (ctx : Context) : ExecuteCall :=
  { command := call.command
    workingDir := call.workingDir
    sessionKey := call.sessionKey
    activeSession := ctx.activeSession }

/-- What `execute` makes of the tools and the context. -/
def execute (call : ToolCall) (tools : Registry) (ctx : Context) : Registry × Context :=
  match tools.get call.tool with
  | some (.gatewayExec tool) =>
    if tool.gated then
      let blocked := tool.block call.getcwd call.requestId (call.inContext ctx)
      (tools.set call.tool (.gatewayExec (tool.record call.requestId blocked.entry)),
        { ctx with
          approvalRequestId := some blocked.approvalRequestId
          approvalContext := blocked.approvalContext })
    else (tools, ctx)
  | _ => (tools, ctx)

/-- The calls that the model makes in a turn, one after the other, in the context of the caller. -/
def runCalls : List ToolCall → Registry → Context → Registry × Context
  | [], tools, ctx => (tools, ctx)
  | call :: calls, tools, ctx =>
    runCalls calls (execute call tools ctx).1 (execute call tools ctx).2

/-- The tool that is addressed is an exec tool that requires approval. -/
def blocks (tools : Registry) (call : ToolCall) : Bool :=
  match tools.get call.tool with
  | some (.gatewayExec tool) => tool.gated
  | _ => false

/-- The request ids under which a turn adds entries. -/
def added (tools : Registry) (calls : List ToolCall) : List String :=
  (calls.filter (blocks tools)).map ToolCall.requestId

/-! ### Turns -/

/-- A call of `process_direct`: the tool calls it makes, and its result or exception. -/
structure ProcessDirect where
  calls : List ToolCall
  result : Except String (Option String)

/-- `_run_chat`: the `ChatResponse` or the exception, and the tools and the context it leaves. -/
def runChat (sessionId : String) (turn : ProcessDirect) (tools : Registry) (_ctx : Context) :
    Outcome × Registry × Context :=
  let (tools, ctx) := runCalls turn.calls tools ⟨some sessionId, none, .null⟩
  match turn.result with
  | .error e => (.raised e, tools, ctx)
  | .ok response =>
    let response := match ctx.approvalRequestId with
      | some id =>
        if id ≠ "" then
          some ("Approval required. To approve, send POST /api/approve with: " ++
            "\x7b\"request_id\": \"" ++ id ++ "\", \"sessionId\": \"" ++ sessionId ++ "\"\x7d")
        else response
      | none => response
    (.response (response.getD "") ctx.approvalRequestId ctx.approvalContext, tools, ctx)

/-- How a `publish_event` with `global_event=True` goes: whether its first `XADD` has put the event
on the stream of the session, and the exception if that `XADD` or the one to the global stream
raises. -/
structure Publication where
  onStream : Bool
  raised : Option String
  onStream_of_returned : raised = none → onStream = true

/-- Where a turn comes from: a `POST /chat` or `POST /chat/async` of the agent, a request of the
bus, with the publication of its done event and of the error event that the handler publishes if
there is an exception, or an approved entry whose command has run. -/
inductive Origin where
  | chat (sessionId : String)
  | chatAsync (sessionId chatId : String)
  | bus (payload : Json) (done error : Publication)
  | approval (entry : Pending) (run : Run)

/-- The turn is run by `_run_chat`, and what that returns reaches the client: of a request of the
bus, the done event is put on the stream of the session. -/
def Origin.fromContext : Origin → Bool
  | chat _ | chatAsync .. => true
  | bus _ done _ => done.onStream
  | approval .. => false

/-- The answer to `POST /chat`, a 500 when the turn raised. -/
def chatAnswer : Outcome → Json
  | .response response id context =>
    .obj [("response", .str response), ("approval_request_id", Bus.optional id),
      ("approval_context", context)]
  | .raised e => .obj [("detail", .str e)]

/-- The last POST to the callback URL of a `POST /chat/async`. -/
def callbackPayload (chatId : String) : Outcome → Json
  | .response response id context =>
    .obj [("chat_id", .str chatId), ("status", .str "done"), ("response", .str response),
      ("approval_request_id", Bus.optional id), ("approval_context", context)]
  | .raised e => .obj [("chat_id", .str chatId), ("error", .str e), ("status", .str "error")]

/-- The event, if it is put on the stream of the session. -/
def Publication.events (publication : Publication) (event : Json) : List Json :=
  if publication.onStream then [event] else []

/-- The final events of a request of the bus: of the result, and of an exception of the turn or of
publishing the result. -/
def finalEvents (payload : Json) (done error : Publication) : Outcome → List Json
  | .response response id context =>
    done.events (finalPayload payload (.response response id context)) ++
      match done.raised with
      | none => []
      | some e => error.events (finalPayload payload (.raised e))
  | .raised e => error.events (finalPayload payload (.raised e))

/-- The reply of a turn, which is one answer or the final events of a request of the bus, and the
tools and the context it leaves. -/
def reply (origin : Origin) (turn : ProcessDirect) (tools : Registry) (ctx : Context) :
    List Json × Registry × Context :=
  match origin with
  | .chat sessionId =>
    let (outcome, tools, ctx) := runChat sessionId turn tools ctx
    ([chatAnswer outcome], tools, ctx)
  | .chatAsync sessionId chatId =>
    let (outcome, tools, ctx) := runChat sessionId turn tools ctx
    ([callbackPayload chatId outcome], tools, ctx)
  | .bus payload done error =>
    let (outcome, tools, ctx) := runChat (requestSession payload) turn tools ctx
    (finalEvents payload done error outcome, tools, ctx)
  | .approval entry run =>
    -- the route calls `process_direct` itself, and does not look at the variables
    let (tools, ctx) := runCalls turn.calls tools ctx
    let response := (runResponse entry run).set "session_id" (.str entry.sessionKey)
    ([resumed response turn.result], tools, ctx)

/-- `approval_request_id` of an answer or an event. -/
def reportedId (answer : Json) : Option String := (answer.get "approval_request_id").bind Json.str?

/-- The ids that a reply carries. -/
def reportedIds (reply : List Json) : List String := reply.filterMap reportedId

/-- The reply carries every id that the turn added, and none when it added none. -/
structure Reported (origin : Origin) (turn : ProcessDirect) (tools : Registry) (ctx : Context) :
    Prop where
  each : ∀ id ∈ added tools turn.calls, id ∈ reportedIds (reply origin turn tools ctx).1
  none : added tools turn.calls = [] → reportedIds (reply origin turn tools ctx).1 = []

/-! ### What the calls leave behind -/

section Calls

variable {call : ToolCall} {calls : List ToolCall} {tools : Registry} {ctx : Context} {id : String}

/-- A call that is blocked. -/
theorem exists_tool_of_blocks (h : blocks tools call = true) :
    ∃ tool, tools.get call.tool = some (.gatewayExec tool) ∧ tool.gated = true := by
  unfold blocks at h
  split at h
  next tool hget => exact ⟨tool, hget, h⟩
  next => exact absurd h Bool.false_ne_true

theorem execute_of_blocks {tool : GatewayExecTool}
    (hget : tools.get call.tool = some (.gatewayExec tool)) (hgated : tool.gated = true) :
    execute call tools ctx =
      (tools.set call.tool (.gatewayExec
          (tool.record call.requestId (tool.block call.getcwd call.requestId
            (call.inContext ctx)).entry)),
        { ctx with
          approvalRequestId := some call.requestId
          approvalContext := (tool.block call.getcwd call.requestId
            (call.inContext ctx)).approvalContext }) := by
  simp only [execute, hget, hgated, if_true]
  rfl

/-- A call that is not blocked leaves the tools and the variables alone. -/
theorem execute_of_not_blocks (h : blocks tools call = false) :
    execute call tools ctx = (tools, ctx) := by
  unfold blocks at h
  unfold execute
  split
  next tool hget =>
    simp only [hget] at h
    simp [h]
  next => rfl

/-- Recording an entry does not change which calls are blocked. -/
theorem blocks_execute (call' : ToolCall) :
    blocks (execute call tools ctx).1 call' = blocks tools call' := by
  cases h : blocks tools call with
  | false => rw [execute_of_not_blocks h]
  | true =>
    obtain ⟨tool, hget, hgated⟩ := exists_tool_of_blocks h
    rw [execute_of_blocks hget hgated]
    by_cases hname : call'.tool = call.tool
    · simp only [blocks, hname, Dict.get_set_self, hget]
      rfl
    · simp only [blocks, Dict.get_set_of_ne hname]

theorem added_execute : added (execute call tools ctx).1 calls = added tools calls := by
  unfold added
  exact congrArg _ (List.filter_congr fun call' _ => blocks_execute call')

/-- What one call does to the variable. -/
theorem approvalRequestId_execute :
    (execute call tools ctx).2.approvalRequestId =
      if blocks tools call then some call.requestId else ctx.approvalRequestId := by
  cases h : blocks tools call with
  | false => rw [execute_of_not_blocks h, if_neg Bool.false_ne_true]
  | true =>
    obtain ⟨tool, hget, hgated⟩ := exists_tool_of_blocks h
    rw [execute_of_blocks hget hgated, if_pos rfl]

/-- **The variable holds the last id.** After the calls it is the last id that they added, or what
it was when they added none. -/
theorem approvalRequestId_runCalls (calls : List ToolCall) (tools : Registry) (ctx : Context) :
    (runCalls calls tools ctx).2.approvalRequestId =
      (added tools calls).getLast?.or ctx.approvalRequestId := by
  induction calls generalizing tools ctx with
  | nil => rfl
  | cons call calls ih =>
    rw [runCalls, ih, added_execute, approvalRequestId_execute]
    cases h : blocks tools call with
    | false => simp [added, h]
    | true =>
      simp only [added, h, if_true, List.filter_cons_of_pos, List.map_cons, List.getLast?_cons]
      cases ((calls.filter (blocks tools)).map ToolCall.requestId).getLast? <;> rfl

/-- What one call makes approvable. -/
theorem approvable_execute :
    Approvable (execute call tools ctx).1 id ↔
      Approvable tools id ∨ (blocks tools call = true ∧ call.requestId = id) := by
  cases h : blocks tools call with
  | false => simp [execute_of_not_blocks h]
  | true =>
    obtain ⟨tool, hget, hgated⟩ := exists_tool_of_blocks h
    rw [execute_of_blocks hget hgated]
    constructor
    · rintro ⟨name, tool', hget', hpending⟩
      by_cases hname : name = call.tool
      · subst hname
        obtain rfl : tool.record call.requestId _ = tool' := by simpa using hget'
        by_cases hid : call.requestId = id
        · exact .inr ⟨rfl, hid⟩
        · rw [GatewayExecTool.record, Dict.get_set_of_ne (Ne.symm hid)] at hpending
          exact .inl ⟨call.tool, tool, hget, hpending⟩
      · rw [Dict.get_set_of_ne hname] at hget'
        exact .inl ⟨name, tool', hget', hpending⟩
    · rintro (⟨name, tool', hget', hpending⟩ | ⟨-, rfl⟩)
      · by_cases hname : name = call.tool
        · subst hname
          obtain rfl : tool = tool' := by simpa using hget.symm.trans hget'
          refine ⟨call.tool, _, Dict.get_set_self, ?_⟩
          by_cases hid : id = call.requestId
          · simp [GatewayExecTool.record, hid]
          · rwa [GatewayExecTool.record, Dict.get_set_of_ne hid]
        · exact ⟨name, tool', by rwa [Dict.get_set_of_ne hname], hpending⟩
      · exact ⟨call.tool, _, Dict.get_set_self, by simp [GatewayExecTool.record]⟩

/-- The ids that can be approved after the calls are those from before and the added ones. -/
theorem approvable_runCalls (calls : List ToolCall) (tools : Registry) (ctx : Context) :
    Approvable (runCalls calls tools ctx).1 id ↔ Approvable tools id ∨ id ∈ added tools calls := by
  induction calls generalizing tools ctx with
  | nil => simp [runCalls, added]
  | cons call calls ih =>
    rw [runCalls, ih, added_execute, approvable_execute, or_assoc]
    refine or_congr_right ?_
    cases h : blocks tools call with
    | false => simp [added, h]
    | true => simp [added, h, @eq_comm _ id]

/-- A step of the agent that executes a tool does to the tools what the call does. -/
theorem tools_of_step_execute {s s' : Agent}
    (h : s.step (.execute call.tool call.getcwd call.requestId (call.inContext ctx)) = some s') :
    s'.tools = (execute call s.tools ctx).1 := by
  cases agentStep_of_step h with
  | issue hget hgated hfresh => rw [execute_of_blocks hget hgated]; rfl
  | direct hget hungated =>
    have hfree : blocks s.tools call = false := by
      unfold blocks
      rw [hget]
      exact hungated
    rw [execute_of_not_blocks hfree]

end Calls

/-! ### What the reply says -/

section Reply

variable {turn : ProcessDirect} {tools : Registry} {ctx : Context} {id : String}

@[simp] theorem str?_optional (id : Option String) : (Bus.optional id).str? = id := by
  cases id <;> rfl

/-- The id in the result of a turn. -/
def idOf : Outcome → Option String
  | .response _ id _ => id
  | .raised _ => none

theorem idOf_runChat (sessionId : String) (turn : ProcessDirect) (tools : Registry)
    (ctx : Context) :
    idOf (runChat sessionId turn tools ctx).1 =
      if turn.result.isOk then (added tools turn.calls).getLast? else none := by
  unfold runChat
  cases turn.result with
  | error e => rfl
  | ok response =>
    refine Eq.trans ?_ (if_pos rfl).symm
    exact (approvalRequestId_runCalls ..).trans Option.or_none

theorem reportedId_chatAnswer (outcome : Outcome) :
    reportedId (chatAnswer outcome) = idOf outcome := by
  cases outcome <;> simp [reportedId, chatAnswer, Json.get, Entries.get, idOf]

theorem reportedId_callbackPayload (chatId : String) (outcome : Outcome) :
    reportedId (callbackPayload chatId outcome) = idOf outcome := by
  cases outcome <;> simp [reportedId, callbackPayload, Json.get, Entries.get, idOf]

theorem reportedId_finalPayload (payload : Json) (outcome : Outcome) :
    reportedId (finalPayload payload outcome) = idOf outcome := by
  cases outcome <;> simp [reportedId, finalPayload, Json.get, Entries.get, idOf]

theorem reportedIds_singleton (answer : Json) :
    reportedIds [answer] = (reportedId answer).toList := by
  rw [reportedIds, List.filterMap_cons]
  cases reportedId answer <;> rfl

/-- An event that is not on the stream carries no id. -/
theorem reportedIds_events (publication : Publication) (payload : Json) (outcome : Outcome) :
    reportedIds (publication.events (finalPayload payload outcome)) =
      if publication.onStream then (idOf outcome).toList else [] := by
  unfold Publication.events
  split_ifs
  · rw [reportedIds_singleton, reportedId_finalPayload]
  · rfl

/-- Of the final events only the done event can carry an id. -/
theorem reportedIds_finalEvents (payload : Json) (done error : Publication) (outcome : Outcome) :
    reportedIds (finalEvents payload done error outcome) =
      if done.onStream then (idOf outcome).toList else [] := by
  have herror (e : String) :
      reportedIds (error.events (finalPayload payload (.raised e))) = [] := by
    rw [reportedIds_events]
    exact ite_self _
  cases outcome with
  | raised e =>
    rw [finalEvents, herror]
    exact (ite_self _).symm
  | response response id context =>
    have htail : reportedIds (match done.raised with
        | none => []
        | some e => error.events (finalPayload payload (.raised e))) = [] := by
      split
      · rfl
      · exact herror _
    rw [finalEvents, reportedIds, List.filterMap_append, ← reportedIds, ← reportedIds, htail,
      List.append_nil, reportedIds_events]

/-- No key of the answer to an approval is `approval_request_id`. -/
theorem reportedId_resumed (entry : Pending) (run : Run)
    (result : Except String (Option String)) :
    reportedId (resumed ((runResponse entry run).set "session_id" (.str entry.sessionKey))
      result) = none := by
  cases result <;>
    simp [reportedId, resumed, runResponse, Json.get, Json.set, Json.entries,
      Entries.get, Entries.set]

/-- The ids of a reply: that of the last entry the turn added, when `_run_chat` returns it and what
it returns reaches the client. -/
theorem reportedIds_reply (origin : Origin) (turn : ProcessDirect) (tools : Registry)
    (ctx : Context) :
    reportedIds (reply origin turn tools ctx).1 =
      if origin.fromContext && turn.result.isOk then (added tools turn.calls).getLast?.toList
      else [] := by
  have hturn (sessionId : String) : (idOf (runChat sessionId turn tools ctx).1).toList =
      if turn.result.isOk then (added tools turn.calls).getLast?.toList else [] := by
    rw [idOf_runChat]
    split_ifs <;> rfl
  cases origin with
  | chat sessionId =>
    rw [reply, reportedIds_singleton, reportedId_chatAnswer, hturn]
    rfl
  | chatAsync sessionId chatId =>
    rw [reply, reportedIds_singleton, reportedId_callbackPayload, hturn]
    rfl
  | bus payload done error =>
    rw [reply, reportedIds_finalEvents, hturn, Origin.fromContext]
    cases done.onStream <;> rfl
  | approval entry run =>
    rw [reply, reportedIds_singleton, reportedId_resumed]
    rfl

/-- A turn that adds nothing reports nothing, whatever the variables held before. -/
theorem reportedIds_of_added_eq_nil {origin : Origin} (h : added tools turn.calls = []) :
    reportedIds (reply origin turn tools ctx).1 = [] := by
  rw [reportedIds_reply, h]
  split_ifs <;> rfl

/-- **When every id is reported.** Whatever ran before: exactly when the turn adds no id, or it is
run by `_run_chat`, which returns and whose result reaches the client, and adds one id only. -/
theorem reported_iff (origin : Origin) (turn : ProcessDirect) (tools : Registry) (ctx : Context) :
    Reported origin turn tools ctx ↔
      added tools turn.calls = [] ∨
        (origin.fromContext = true ∧ turn.result.isOk = true ∧
          ∀ a ∈ added tools turn.calls, ∀ b ∈ added tools turn.calls, a = b) := by
  constructor
  · intro h
    by_cases hnil : added tools turn.calls = []
    · exact .inl hnil
    · -- the reply carries one id at most, and it is the last
      have hlast : ∀ id ∈ added tools turn.calls,
          origin.fromContext = true ∧ turn.result.isOk = true ∧
            (added tools turn.calls).getLast? = some id := by
        intro id hid
        have hreply := h.each id hid
        rw [reportedIds_reply] at hreply
        split_ifs at hreply with hsent
        · obtain ⟨horigin, hok⟩ := Bool.and_eq_true_iff.mp hsent
          exact ⟨horigin, hok, Option.mem_toList.mp hreply⟩
        · simp at hreply
      obtain ⟨id, hid⟩ := List.exists_mem_of_ne_nil _ hnil
      obtain ⟨horigin, hok, -⟩ := hlast id hid
      refine .inr ⟨horigin, hok, fun a ha b hb => ?_⟩
      exact Option.some.inj ((hlast a ha).2.2.symm.trans (hlast b hb).2.2)
  · rintro (hnil | ⟨horigin, hok, hone⟩)
    · exact ⟨by simp [hnil], reportedIds_of_added_eq_nil⟩
    · refine ⟨fun id hid => ?_, reportedIds_of_added_eq_nil⟩
      rw [reportedIds_reply, if_pos (by rw [horigin, hok]; rfl)]
      -- the last id is in the list, so it is the one
      have hlast := List.getLast?_eq_some_getLast (List.ne_nil_of_mem hid)
      rw [hlast, hone _ (List.getLast_mem _) id hid]
      exact List.mem_singleton_self id

end Reply

/-! ### Two commands in one turn -/

def noContext : Context := ⟨none, none, .null⟩

/-- The model tries a second command although the first was blocked. -/
def twoCommands : ProcessDirect where
  calls :=
    [⟨"exec", "/root", "r1", "git pull", none, none⟩, ⟨"exec", "/root", "r2", "make", none, none⟩]
  result := .ok (some "Waiting for approval.")

/-- **The first id is lost**: two commands wait for an approval, and the client is told of the
second only. -/
theorem first_not_reported : ¬ ∀ origin turn tools ctx, Reported origin turn tools ctx := by
  intro hlaw
  have hids := (hlaw (.chat "api:alice") twoCommands gatedTools noContext).each "r1" (by decide)
  rw [reportedIds_reply] at hids
  exact absurd hids (by decide)

end Nanogate.Approval
