import Nanogate.Approval.Reported

/-!
# Chats that are answered by a callback

`POST /chat/async` of the agent is accepted at once, and a background task runs the turn and POSTs
what it says, and what it comes to, to the callback URL of the request. The tasks of several chats
run side by side, on the tools of one agent, and a receiver may serve many chats: it tells them
apart by the chat id.

A POST that raises is logged and forgotten. What can go wrong beside the turn is the HTTP client,
whose opening and closing may raise, and the server, which may cancel the task at any await.

## Main definitions

* `agentChatAsync` — which requests are accepted
* `outcomeOf` — the end of `_run_chat`
* `CallbackTask`, `CallbackTask.advance` — the background task of a chat
* `Callbacks`, `callbacks` — the tasks of an agent and the POSTs they made
* `CalledBack` — what a receiver has of one chat

## Main results

* `taskStep_of_advance` — everything a step of a task can do
* `calledBack_of_run` — each chat's POSTs are its progress and then its answer, at its own URL
-/

namespace Nanogate.Approval

open Nanogate.Python Nanogate.Bus Nanogate.Semantics

/-! ### Requests -/

/-- The body of the agent's `POST /chat/async`, with the default of a field that is left out. -/
structure AsyncChatRequest where
  message : String
  sessionId : Option String
  callbackUrl : String

/-- What the background task of a request is given. -/
structure AsyncChat where
  chatId : String
  sessionId : String
  message : String
  callbackUrl : String
  deriving DecidableEq, Repr

/-- `chat_async` of the agent, up to `add_task`; `uuid` is the id that is drawn. -/
def agentChatAsync (ready : Bool) (uuid : String) (body : AsyncChatRequest) :
    Except HttpError AsyncChat :=
  if !ready then .error ⟨503, "Agent not initialized"⟩
  else if body.message = "" ∨ strip body.message = "" then
    .error ⟨400, "message must be non-empty"⟩
  else
    .ok
      { chatId := uuid
        sessionId := Agent.normalizeSession body.sessionId
        message := strip body.message
        callbackUrl := body.callbackUrl }

/-- `_run_chat` after `process_direct`: what it makes of the result and of the context variables. -/
def outcomeOf (sessionId : String) (ctx : Context) : Except String (Option String) → Outcome
  | .error e => .raised e
  | .ok response =>
    let response := match ctx.approvalRequestId with
      | some id =>
        if id ≠ "" then
          some ("Approval required. To approve, send POST /api/approve with: " ++
            "\x7b\"request_id\": \"" ++ id ++ "\", \"sessionId\": \"" ++ sessionId ++ "\"\x7d")
        else response
      | none => response
    .response (response.getD "") ctx.approvalRequestId ctx.approvalContext

/-- `_run_chat` sets the variables, has the calls made, and looks at the variables again. -/
theorem runChat_eq (sessionId : String) (turn : ProcessDirect) (tools : Registry) (ctx : Context) :
    runChat sessionId turn tools ctx =
      (outcomeOf sessionId (runCalls turn.calls tools ⟨some sessionId, none, .null⟩).2 turn.result,
        runCalls turn.calls tools ⟨some sessionId, none, .null⟩) := by
  unfold runChat outcomeOf
  cases turn.result <;> rfl

theorem idOf_outcomeOf {sessionId : String} {ctx : Context}
    {result : Except String (Option String)}
    (h : (outcomeOf sessionId ctx result).isRaised = false) :
    idOf (outcomeOf sessionId ctx result) = ctx.approvalRequestId := by
  cases result with
  | error e => exact absurd h (by simp [outcomeOf, Outcome.isRaised])
  | ok response => rfl

/-! ### The task -/

/-- The payload of `_on_progress`. -/
def progressBody (chatId content : String) (toolHint : Bool) : Json :=
  .obj [("chat_id", .str chatId), ("status", .str "progress"), ("response", .str content),
    ("tool_hint", .bool toolHint)]

/-- `chat_id` of a body. -/
def chatIdOf (body : Json) : Option String := (body.get "chat_id").bind Json.str?

/-- Where a background task stands. -/
inductive CallbackPc where
  /-- Opening the client. -/
  | opening
  /-- In `process_direct`, with the context variables of the task. -/
  | turn (ctx : Context)
  /-- In the POST of the result. -/
  | sending (outcome : Outcome)
  /-- Closing the client, with the exception of the turn if it raised one. -/
  | closing (error : Option String)
  /-- In the handler, opening a client of its own. -/
  | failed (error : String)
  /-- In the POST of the error. -/
  | reporting (error : String)
  /-- The task is over. -/
  | over

/-- The background task of a chat. What the turn asked for and said, how it ended, and whether the
client raised or the task was cancelled, is kept as history. -/
structure CallbackTask where
  chat : AsyncChat
  pc : CallbackPc
  asked : List String
  said : List (String × Bool)
  result : Option Outcome
  trouble : Bool
  cancelled : Bool

/-- What a task does next. -/
inductive CallbackAct where
  /-- The first client is open, or raised. -/
  | enter (reply : Except String Unit)
  | call (call : ToolCall)
  | progress (content : String) (toolHint : Bool)
  /-- `process_direct` has returned or raised. -/
  | finish (result : Except String (Option String))
  /-- The POST of the result is over, whatever came of it. -/
  | sent
  /-- The first client is closed, or raised. -/
  | leave (reply : Except String Unit)
  /-- The client of the handler is open, or raised. -/
  | reopen (reply : Except String Unit)
  /-- The POST of the error is over, and its client closed, whatever came of it. -/
  | reported
  | cancel

namespace CallbackTask

/-- The task of a chat that was just accepted. -/
def start (chat : AsyncChat) : CallbackTask := ⟨chat, .opening, [], [], none, false, false⟩

/-- The task in the handler of an exception. -/
def raise (task : CallbackTask) (error : String) : CallbackTask :=
  { task with pc := .failed error, trouble := true }

/-- A step of `_run_and_callback`, from one await to the next: the tools and the task after it, and
the bodies that it begins to POST. A POST of progress or of the result never raises. -/
def advance (tools : Registry) (task : CallbackTask) :
    CallbackAct → Option (Registry × CallbackTask × List Json)
  | .enter reply =>
    match task.pc, reply with
    | .opening, .ok () =>
      some (tools, { task with pc := .turn ⟨some task.chat.sessionId, none, .null⟩ }, [])
    | .opening, .error e => some (tools, task.raise e, [])
    | _, _ => none
  | .call call =>
    match task.pc with
    | .turn ctx =>
      some ((execute call tools ctx).1,
        { task with
          pc := .turn (execute call tools ctx).2
          asked := task.asked ++ added tools [call] }, [])
    | _ => none
  | .progress content toolHint =>
    match task.pc with
    | .turn _ =>
      some (tools, { task with said := task.said ++ [(content, toolHint)] },
        [progressBody task.chat.chatId content toolHint])
    | _ => none
  | .finish result =>
    match task.pc with
    | .turn ctx =>
      match outcomeOf task.chat.sessionId ctx result with
      | .response response id context =>
        some (tools,
          { task with
            pc := .sending (.response response id context)
            result := some (.response response id context) },
          [callbackPayload task.chat.chatId (.response response id context)])
      | .raised e =>
        some (tools, { task with pc := .closing (some e), result := some (.raised e) }, [])
    | _ => none
  | .sent =>
    match task.pc with
    | .sending _ => some (tools, { task with pc := .closing none }, [])
    | _ => none
  | .leave reply =>
    match task.pc, reply with
    | .closing none, .ok () => some (tools, { task with pc := .over }, [])
    | .closing (some e), .ok () => some (tools, { task with pc := .failed e }, [])
    -- what the closing raises takes the place of what the turn raised
    | .closing _, .error e => some (tools, task.raise e, [])
    | _, _ => none
  | .reopen reply =>
    match task.pc, reply with
    | .failed e, .ok () =>
      some (tools, { task with pc := .reporting e },
        [callbackPayload task.chat.chatId (.raised e)])
    | .failed _, .error _ => some (tools, { task with pc := .over, trouble := true }, [])
    | _, _ => none
  | .reported =>
    match task.pc with
    | .reporting _ => some (tools, { task with pc := .over }, [])
    | _ => none
  | .cancel =>
    match task.pc with
    | .over => none
    | _ => some (tools, { task with pc := .over, cancelled := true }, [])

end CallbackTask

/-- Everything a step of a task can do. -/
inductive TaskStep (tools : Registry) (task : CallbackTask) :
    Registry → CallbackTask → List Json → Prop
  | entered (h : task.pc = .opening) :
      TaskStep tools task tools
        { task with pc := .turn ⟨some task.chat.sessionId, none, .null⟩ } []
  | called {ctx : Context} {call : ToolCall} (h : task.pc = .turn ctx) :
      TaskStep tools task (execute call tools ctx).1
        { task with
          pc := .turn (execute call tools ctx).2
          asked := task.asked ++ added tools [call] } []
  | said {ctx : Context} {content : String} {toolHint : Bool} (h : task.pc = .turn ctx) :
      TaskStep tools task tools { task with said := task.said ++ [(content, toolHint)] }
        [progressBody task.chat.chatId content toolHint]
  | answered {ctx : Context} {outcome : Outcome} (h : task.pc = .turn ctx)
      (hraised : outcome.isRaised = false) (hid : idOf outcome = ctx.approvalRequestId) :
      TaskStep tools task tools { task with pc := .sending outcome, result := some outcome }
        [callbackPayload task.chat.chatId outcome]
  | turnRaised {ctx : Context} {e : String} (h : task.pc = .turn ctx) :
      TaskStep tools task tools
        { task with pc := .closing (some e), result := some (.raised e) } []
  | sent {outcome : Outcome} (h : task.pc = .sending outcome) :
      TaskStep tools task tools { task with pc := .closing none } []
  | left (h : task.pc = .closing none) : TaskStep tools task tools { task with pc := .over } []
  | leftRaised {e : String} (h : task.pc = .closing (some e)) :
      TaskStep tools task tools { task with pc := .failed e } []
  | clientRaised {e : String} (h : task.pc = .opening ∨ ∃ error, task.pc = .closing error) :
      TaskStep tools task tools (task.raise e) []
  | reopened {e : String} (h : task.pc = .failed e) :
      TaskStep tools task tools { task with pc := .reporting e }
        [callbackPayload task.chat.chatId (.raised e)]
  | gaveUp {e : String} (h : task.pc = .failed e) :
      TaskStep tools task tools { task with pc := .over, trouble := true } []
  | reported {e : String} (h : task.pc = .reporting e) :
      TaskStep tools task tools { task with pc := .over } []
  | cancelled (h : task.pc ≠ .over) :
      TaskStep tools task tools { task with pc := .over, cancelled := true } []

section Steps

variable {tools tools' : Registry} {task task' : CallbackTask} {act : CallbackAct}
  {bodies : List Json}

theorem taskStep_of_advance (h : task.advance tools act = some (tools', task', bodies)) :
    TaskStep tools task tools' task' bodies := by
  cases act with
  | enter reply =>
    simp only [CallbackTask.advance] at h
    split at h <;> try cases h
    next hpc => exact .entered hpc
    next hpc => exact .clientRaised (.inl hpc)
  | call call =>
    simp only [CallbackTask.advance] at h
    split at h <;> cases h
    next hpc => exact .called hpc
  | progress content toolHint =>
    simp only [CallbackTask.advance] at h
    split at h <;> cases h
    next hpc => exact .said hpc
  | finish result =>
    simp only [CallbackTask.advance] at h
    split at h <;> try cases h
    next ctx hpc =>
      have hid : (outcomeOf task.chat.sessionId ctx result).isRaised = false → _ := idOf_outcomeOf
      split at h <;> cases h
      next houtcome =>
        rw [houtcome] at hid
        exact .answered hpc rfl (hid rfl)
      next => exact .turnRaised hpc
  | sent =>
    simp only [CallbackTask.advance] at h
    split at h <;> cases h
    next hpc => exact .sent hpc
  | leave reply =>
    simp only [CallbackTask.advance] at h
    split at h <;> cases h
    next hpc => exact .left hpc
    next hpc => exact .leftRaised hpc
    next hpc => exact .clientRaised (.inr ⟨_, hpc⟩)
  | reopen reply =>
    simp only [CallbackTask.advance] at h
    split at h <;> cases h
    next hpc => exact .reopened hpc
    next hpc => exact .gaveUp hpc
  | reported =>
    simp only [CallbackTask.advance] at h
    split at h <;> cases h
    next hpc => exact .reported hpc
  | cancel =>
    simp only [CallbackTask.advance] at h
    split at h
    · cases h
    next hpc =>
      cases h
      exact .cancelled hpc

end Steps

/-! ### The tasks of an agent -/

/-- A POST that was made. -/
structure CallbackPost where
  url : String
  body : Json
  deriving DecidableEq, Repr

/-- The tools of an agent, the tasks of the chats it accepted, and the POSTs they made. -/
structure Callbacks where
  tools : Registry
  tasks : List CallbackTask
  posts : List CallbackPost

/-- A request, a step of a task, or what others do to the tools: the listener, the other routes and
the approvals. -/
inductive CallbackAction where
  | chatAsync (ready : Bool) (uuid : String) (body : AsyncChatRequest)
  | act (k : ℕ) (act : CallbackAct)
  | elsewhere (tools : Registry)

namespace Callbacks

/-- The POSTs with some bodies to one URL. -/
def postsOf (url : String) (bodies : List Json) : List CallbackPost :=
  bodies.map fun body => ⟨url, body⟩

/-- One step. The id of an accepted request is fresh. -/
def step (s : Callbacks) : CallbackAction → Option Callbacks
  | .chatAsync ready uuid body =>
    match agentChatAsync ready uuid body with
    | .ok chat =>
      if uuid ∈ s.tasks.map (·.chat.chatId) then none
      else some { s with tasks := s.tasks ++ [.start chat] }
    | .error _ => some s
  | .act k act =>
    match s.tasks[k]? with
    | some task =>
      (task.advance s.tools act).map fun (tools, task', bodies) =>
        { tools
          tasks := s.tasks.set k task'
          posts := s.posts ++ postsOf task.chat.callbackUrl bodies }
    | none => none
  | .elsewhere tools => some { s with tools }

end Callbacks

/-- The background tasks of an agent with some tools. -/
def callbacks (tools : Registry) : Machine Callbacks CallbackAction where
  init := ⟨tools, [], []⟩
  step := Callbacks.step

/-! ### What a receiver has -/

/-- The bodies of the POSTs for a chat, in their order. -/
def bodiesFor (posts : List CallbackPost) (chatId : String) : List Json :=
  (posts.map CallbackPost.body).filter fun body => chatIdOf body = some chatId

/-- The bodies of the progress of a task. -/
def CallbackTask.progress (task : CallbackTask) : List Json :=
  task.said.map fun (content, toolHint) => progressBody task.chat.chatId content toolHint

/-- What a task has POSTed after its progress: its answer, and only where a client raised an error
in its place or after it; nothing while it is not that far, or where it came to nothing. -/
inductive Finals (task : CallbackTask) : List Json → Prop
  | nothing (h : task.pc = .over → task.trouble = true ∨ task.cancelled = true) : Finals task []
  | answer {outcome : Outcome} (h : task.result = some outcome) :
      Finals task [callbackPayload task.chat.chatId outcome]
  | replaced {e : String} (htrouble : task.trouble = true)
      (h : ∀ outcome ∈ task.result, outcome.isRaised = true) :
      Finals task [callbackPayload task.chat.chatId (.raised e)]
  | retracted {outcome : Outcome} {e : String} (htrouble : task.trouble = true)
      (h : task.result = some outcome) (hraised : outcome.isRaised = false) :
      Finals task [callbackPayload task.chat.chatId outcome,
        callbackPayload task.chat.chatId (.raised e)]

/-- What a receiver has of a chat: everything at the URL of its request, the progress in its order
and then the answer, which reports the last of the commands that this chat's turn asked for. -/
structure CalledBack (s : Callbacks) (task : CallbackTask) : Prop where
  url : ∀ post ∈ s.posts, chatIdOf post.body = some task.chat.chatId →
    post.url = task.chat.callbackUrl
  bodies : ∃ finals, bodiesFor s.posts task.chat.chatId = task.progress ++ finals ∧
    Finals task finals
  reports : ∀ outcome ∈ task.result, outcome.isRaised = false →
    idOf outcome = task.asked.getLast?

/-- Every chat was called back so, and nobody else was called. -/
structure CallsBack (s : Callbacks) : Prop where
  each : ∀ task ∈ s.tasks, CalledBack s task
  only : ∀ post ∈ s.posts, ∃ task ∈ s.tasks, chatIdOf post.body = some task.chat.chatId

/-! ### A task on its own -/

/-- What a task has POSTed after its progress before the handler of an exception is at it. -/
def CallbackTask.BeforeHandler (task : CallbackTask) (finals : List Json) : Prop :=
  ((∀ outcome ∈ task.result, outcome.isRaised = true) ∧ finals = []) ∨
    ∃ outcome, task.result = some outcome ∧ outcome.isRaised = false ∧
      finals = [callbackPayload task.chat.chatId outcome]

/-- What it has POSTed after its progress when it is in the handler of an exception: the turn's, or
one of the client. -/
def CallbackTask.InHandler (task : CallbackTask) (e : String) (finals : List Json) : Prop :=
  (task.result = some (.raised e) ∧ finals = []) ∨
    (task.trouble = true ∧ task.BeforeHandler finals)

/-- What it has POSTed after its progress, by where it stands. -/
def CallbackTask.Stands (task : CallbackTask) (finals : List Json) : Prop :=
  match task.pc with
  | .opening => task.result = none ∧ task.asked = [] ∧ finals = []
  | .turn ctx => task.result = none ∧ finals = [] ∧ ctx.approvalRequestId = task.asked.getLast?
  | .sending _ | .closing none =>
    ∃ outcome, task.result = some outcome ∧ outcome.isRaised = false ∧
      finals = [callbackPayload task.chat.chatId outcome]
  | .closing (some e) => task.result = some (.raised e) ∧ finals = []
  | .failed e => task.InHandler e finals
  | .reporting e =>
    ∃ before, finals = before ++ [callbackPayload task.chat.chatId (.raised e)] ∧
      task.InHandler e before
  | .over => Finals task finals

/-- The id that a result carries is the last one that the task asked for. -/
def CallbackTask.Reports (task : CallbackTask) : Prop :=
  ∀ outcome ∈ task.result, outcome.isRaised = false → idOf outcome = task.asked.getLast?

/-- A task has POSTed its progress, and then what is due where it stands. -/
def CallbackTask.Posted (task : CallbackTask) (posted : List Json) : Prop :=
  ∃ finals, posted = task.progress ++ finals ∧ task.Stands finals ∧ task.Reports

section OneTask

variable {tools tools' : Registry} {task task' : CallbackTask} {bodies posted finals : List Json}
  {chatId : String}

@[simp] theorem chatIdOf_progressBody (content : String) (toolHint : Bool) :
    chatIdOf (progressBody chatId content toolHint) = some chatId := rfl

@[simp] theorem chatIdOf_callbackPayload (outcome : Outcome) :
    chatIdOf (callbackPayload chatId outcome) = some chatId := by
  cases outcome <;> rfl

theorem TaskStep.chat_eq (h : TaskStep tools task tools' task' bodies) :
    task'.chat = task.chat := by
  cases h <;> rfl

theorem TaskStep.chatIdOf_eq (h : TaskStep tools task tools' task' bodies) :
    ∀ body ∈ bodies, chatIdOf body = some task.chat.chatId := by
  cases h <;> simp

/-- The variable follows what the calls of the task ask for. -/
theorem approvalRequestId_called {ctx : Context} {asked : List String} {call : ToolCall}
    (h : ctx.approvalRequestId = asked.getLast?) :
    (execute call tools ctx).2.approvalRequestId = (asked ++ added tools [call]).getLast? := by
  rw [approvalRequestId_execute]
  cases hblocks : blocks tools call with
  | false => simp [added, hblocks, h]
  | true => simp [added, hblocks]

theorem finals_of_before (h : task.BeforeHandler finals)
    (htrouble : task.trouble = true) : Finals task finals := by
  rcases h with ⟨-, rfl⟩ | ⟨outcome, hresult, -, rfl⟩
  · exact .nothing fun _ => .inl htrouble
  · exact .answer hresult

/-- Before the error is POSTed: nothing where the turn raised, or what the client left. -/
theorem finals_of_failed {e : String} (h : task.InHandler e finals) (hpc : task.pc ≠ .over) :
    Finals task finals := by
  rcases h with ⟨-, rfl⟩ | ⟨htrouble, hbefore⟩
  · exact .nothing fun hover => absurd hover hpc
  · exact finals_of_before hbefore htrouble

/-- After it. -/
theorem finals_of_reporting {e : String} (h : task.InHandler e finals) :
    Finals task (finals ++ [callbackPayload task.chat.chatId (.raised e)]) := by
  rcases h with ⟨hresult, rfl⟩ | ⟨htrouble, ⟨hraised, rfl⟩ | ⟨outcome, hresult, hraised, rfl⟩⟩
  · exact .answer hresult
  · exact .replaced htrouble hraised
  · exact .retracted htrouble hresult hraised

/-- What is due at a place is what a receiver may have. -/
theorem finals_of_stands (h : task.Stands finals) : Finals task finals := by
  unfold CallbackTask.Stands at h
  split at h
  next hpc =>
    obtain ⟨-, -, rfl⟩ := h
    exact .nothing fun hover => by simp [hpc] at hover
  next hpc =>
    obtain ⟨-, rfl, -⟩ := h
    exact .nothing fun hover => by simp [hpc] at hover
  next =>
    obtain ⟨outcome, hresult, -, rfl⟩ := h
    exact .answer hresult
  next =>
    obtain ⟨outcome, hresult, -, rfl⟩ := h
    exact .answer hresult
  next hpc =>
    obtain ⟨-, rfl⟩ := h
    exact .nothing fun hover => by simp [hpc] at hover
  next hpc => exact finals_of_failed h (by simp [hpc])
  next =>
    obtain ⟨before, rfl, h⟩ := h
    exact finals_of_reporting h
  next => exact h

/-- What a task in the handler has POSTed does not depend on where it goes from there. -/
theorem CallbackTask.InHandler.of_error {error : Option String} {e : String}
    (hpc : task.pc = .closing error) (h : task.Stands finals) :
    (task.raise e).InHandler e finals := by
  rw [CallbackTask.Stands, hpc] at h
  refine .inr ⟨rfl, ?_⟩
  cases error with
  | none => exact .inr h
  | some e' =>
    obtain ⟨hresult, rfl⟩ := h
    refine .inl ⟨fun outcome houtcome => ?_, rfl⟩
    obtain rfl := Option.mem_some.mp (hresult ▸ (houtcome : outcome ∈ task.result))
    rfl

/-- **What one step adds** is due there. -/
theorem posted_of_taskStep (h : TaskStep tools task tools' task' bodies)
    (hposted : task.Posted posted) : task'.Posted (posted ++ bodies) := by
  obtain ⟨finals, rfl, hstands, hreports⟩ := hposted
  cases h with
  | entered hpc =>
    rw [CallbackTask.Stands, hpc] at hstands
    obtain ⟨hresult, hasked, rfl⟩ := hstands
    exact ⟨[], by simp [CallbackTask.progress], ⟨hresult, rfl, by simp [hasked]⟩, hreports⟩
  | called hpc =>
    rw [CallbackTask.Stands, hpc] at hstands
    obtain ⟨hresult, rfl, hid⟩ := hstands
    refine ⟨[], by simp [CallbackTask.progress], ⟨hresult, rfl, approvalRequestId_called hid⟩, ?_⟩
    exact fun outcome houtcome => absurd (hresult ▸ houtcome) (by simp)
  | said hpc =>
    rw [CallbackTask.Stands, hpc] at hstands
    obtain ⟨hresult, rfl, hid⟩ := hstands
    refine ⟨[], by simp [CallbackTask.progress], ?_, hreports⟩
    rw [CallbackTask.Stands, hpc]
    exact ⟨hresult, rfl, hid⟩
  | answered hpc hraised hid =>
    rw [CallbackTask.Stands, hpc] at hstands
    obtain ⟨-, rfl, hasked⟩ := hstands
    refine ⟨_, by simp [CallbackTask.progress], ⟨_, rfl, hraised, rfl⟩, ?_⟩
    intro outcome houtcome _
    obtain rfl := Option.mem_some.mp houtcome
    exact hid.trans hasked
  | turnRaised hpc =>
    rw [CallbackTask.Stands, hpc] at hstands
    obtain ⟨-, rfl, -⟩ := hstands
    refine ⟨[], by simp [CallbackTask.progress], ⟨rfl, rfl⟩, fun outcome houtcome hno => ?_⟩
    obtain rfl := Option.mem_some.mp houtcome
    exact absurd hno (by simp [Outcome.isRaised])
  | sent hpc =>
    rw [CallbackTask.Stands, hpc] at hstands
    exact ⟨finals, by simp [CallbackTask.progress], hstands, hreports⟩
  | left hpc =>
    rw [CallbackTask.Stands, hpc] at hstands
    obtain ⟨outcome, hresult, -, rfl⟩ := hstands
    exact ⟨_, by simp [CallbackTask.progress], Finals.answer hresult, hreports⟩
  | leftRaised hpc =>
    rw [CallbackTask.Stands, hpc] at hstands
    exact ⟨finals, by simp [CallbackTask.progress], .inl hstands, hreports⟩
  | clientRaised hpc =>
    refine ⟨finals, by simp [CallbackTask.progress, CallbackTask.raise], ?_, hreports⟩
    rcases hpc with hpc | ⟨error, hpc⟩
    · rw [CallbackTask.Stands, hpc] at hstands
      obtain ⟨hresult, -, rfl⟩ := hstands
      exact .inr ⟨rfl, .inl ⟨fun outcome houtcome => absurd (hresult ▸ houtcome) (by simp), rfl⟩⟩
    · exact .of_error hpc hstands
  | reopened hpc =>
    rw [CallbackTask.Stands, hpc] at hstands
    exact ⟨_, by simp [CallbackTask.progress], ⟨finals, rfl, hstands⟩, hreports⟩
  | gaveUp hpc =>
    rw [CallbackTask.Stands, hpc] at hstands
    refine ⟨finals, by simp [CallbackTask.progress], ?_, hreports⟩
    rcases hstands with ⟨-, rfl⟩ | ⟨-, ⟨-, rfl⟩ | ⟨outcome, hresult, -, rfl⟩⟩
    · exact Finals.nothing fun _ => .inl rfl
    · exact Finals.nothing fun _ => .inl rfl
    · exact Finals.answer hresult
  | @reported e hpc =>
    rw [CallbackTask.Stands, hpc] at hstands
    obtain ⟨before, rfl, hbefore⟩ := hstands
    refine ⟨before ++ [callbackPayload task.chat.chatId (.raised e)],
      by simp [CallbackTask.progress], ?_, hreports⟩
    exact finals_of_reporting hbefore
  | cancelled hpc =>
    refine ⟨finals, by simp [CallbackTask.progress], ?_, hreports⟩
    cases finals_of_stands hstands with
    | nothing => exact .nothing fun _ => .inr rfl
    | answer hresult => exact .answer hresult
    | replaced htrouble hraised => exact .replaced htrouble hraised
    | retracted htrouble hresult hraised => exact .retracted htrouble hresult hraised

end OneTask

/-! ### All tasks -/

/-- Every task has POSTed what is due, at its URL; the ids of the tasks are distinct, and there is
no other POST. -/
structure AllPosted (s : Callbacks) : Prop where
  nodup : (s.tasks.map (·.chat.chatId)).Nodup
  each : ∀ (k : ℕ) (task : CallbackTask), s.tasks[k]? = some task →
    task.Posted (bodiesFor s.posts task.chat.chatId)
  url : ∀ (k : ℕ) (task : CallbackTask), s.tasks[k]? = some task → ∀ post ∈ s.posts,
    chatIdOf post.body = some task.chat.chatId → post.url = task.chat.callbackUrl
  only : ∀ post ∈ s.posts, ∃ chatId ∈ s.tasks.map (·.chat.chatId), chatIdOf post.body = some chatId

section AllTasks

variable {tools tools' : Registry} {s s' : Callbacks} {acts : List CallbackAction}
  {task task' : CallbackTask} {bodies : List Json} {posts : List CallbackPost}
  {url chatId : String} {k : ℕ}

theorem bodiesFor_append (posts' : List CallbackPost) :
    bodiesFor (posts ++ posts') chatId = bodiesFor posts chatId ++ bodiesFor posts' chatId := by
  simp [bodiesFor]

theorem bodiesFor_postsOf (h : ∀ body ∈ bodies, chatIdOf body = some chatId) :
    bodiesFor (Callbacks.postsOf url bodies) chatId = bodies := by
  simpa [bodiesFor, Callbacks.postsOf, Function.comp_def] using h

theorem bodiesFor_postsOf_ne {chatId' : String} (hne : chatId ≠ chatId')
    (h : ∀ body ∈ bodies, chatIdOf body = some chatId) :
    bodiesFor (Callbacks.postsOf url bodies) chatId' = [] := by
  simp only [bodiesFor, Callbacks.postsOf, List.map_map, Function.comp_def, List.map_id',
    List.filter_eq_nil_iff, decide_eq_true_eq]
  intro body hbody heq
  exact hne (Option.some_inj.mp ((h body hbody).symm.trans heq))

/-- Tasks of one id are the same. -/
theorem AllPosted.index_eq (hs : AllPosted s) {j : ℕ} (hj : s.tasks[j]? = some task')
    (hk : s.tasks[k]? = some task) (h : task'.chat.chatId = task.chat.chatId) : j = k := by
  have hj' : (s.tasks.map (·.chat.chatId))[j]? = some task'.chat.chatId := by simp [hj]
  have hk' : (s.tasks.map (·.chat.chatId))[k]? = some task.chat.chatId := by simp [hk]
  obtain ⟨hlt, -⟩ := List.getElem?_eq_some_iff.mp hj'
  exact (List.getElem?_inj hlt hs.nodup).mp (by rw [hj', hk', h])

theorem AllPosted.boot (tools : Registry) : AllPosted ⟨tools, [], []⟩ :=
  ⟨by simp, by simp, by simp, by simp⟩

/-- An id that was never drawn is in no POST. -/
theorem AllPosted.bodiesFor_fresh (hs : AllPosted s)
    (hfresh : chatId ∉ s.tasks.map (·.chat.chatId)) : bodiesFor s.posts chatId = [] := by
  simp only [bodiesFor, List.filter_eq_nil_iff, List.mem_map, decide_eq_true_eq]
  rintro body ⟨post, hpost, rfl⟩ heq
  obtain ⟨chatId', hmem, hid⟩ := hs.only post hpost
  exact hfresh (Option.some_inj.mp (heq.symm.trans hid) ▸ hmem)

theorem AllPosted.accept (hs : AllPosted s) {chat : AsyncChat}
    (hfresh : chat.chatId ∉ s.tasks.map (·.chat.chatId)) :
    AllPosted { s with tasks := s.tasks ++ [.start chat] } := by
  have hnew {k : ℕ} {task : CallbackTask} (hk : (s.tasks ++ [.start chat])[k]? = some task) :
      s.tasks[k]? = some task ∨ task = .start chat := by
    rw [List.getElem?_append] at hk
    split_ifs at hk with hlt
    · exact .inl hk
    · exact .inr (List.mem_singleton.mp (List.mem_of_getElem? hk))
  refine ⟨?_, fun k task hk => ?_, fun k task hk post hpost hid => ?_, fun post hpost => ?_⟩
  · rw [List.map_append, List.nodup_append]
    refine ⟨hs.nodup, List.nodup_singleton _, ?_⟩
    rintro a ha b hb rfl
    obtain rfl : a = chat.chatId := List.mem_singleton.mp hb
    exact hfresh ha
  · rcases hnew hk with hold | rfl
    · exact hs.each k task hold
    · exact ⟨[], hs.bodiesFor_fresh hfresh, ⟨rfl, rfl, rfl⟩, by simp [CallbackTask.Reports,
        CallbackTask.start]⟩
  · rcases hnew hk with hold | rfl
    · exact hs.url k task hold post hpost hid
    · obtain ⟨chatId, hmem, hid'⟩ := hs.only post hpost
      exact absurd (Option.some_inj.mp (hid.symm.trans hid') ▸ hmem) hfresh
  · obtain ⟨chatId, hmem, hid⟩ := hs.only post hpost
    exact ⟨chatId, by simp [List.mem_map.mp hmem], hid⟩

theorem mem_postsOf {post : CallbackPost} :
    post ∈ Callbacks.postsOf url bodies ↔ post.url = url ∧ post.body ∈ bodies := by
  constructor
  · intro h
    obtain ⟨body, hbody, rfl⟩ := List.mem_map.mp h
    exact ⟨rfl, hbody⟩
  · rintro ⟨rfl, hbody⟩
    exact List.mem_map.mpr ⟨post.body, hbody, rfl⟩

theorem AllPosted.act (hs : AllPosted s) (hk : s.tasks[k]? = some task)
    (h : TaskStep tools task tools' task' bodies) :
    AllPosted
      { tools := tools'
        tasks := s.tasks.set k task'
        posts := s.posts ++ Callbacks.postsOf task.chat.callbackUrl bodies } := by
  obtain ⟨hlt, -⟩ := List.getElem?_eq_some_iff.mp hk
  have hmap : (s.tasks.set k task').map (·.chat.chatId) = s.tasks.map (·.chat.chatId) := by
    obtain rfl : s.tasks[k] = task := by simpa [hlt] using hk
    rw [List.map_set, h.chat_eq, ← List.map_set, List.set_getElem_self]
  have hbodies := h.chatIdOf_eq
  -- the tasks of the other places have other ids
  have hother {j : ℕ} {other : CallbackTask} (hj : (s.tasks.set k task')[j]? = some other)
      (hne : j ≠ k) : s.tasks[j]? = some other ∧ task.chat.chatId ≠ other.chat.chatId := by
    rw [List.getElem?_set_ne (Ne.symm hne)] at hj
    exact ⟨hj, fun heq => hne (hs.index_eq hj hk heq.symm)⟩
  have hself {other : CallbackTask} (hj : (s.tasks.set k task')[k]? = some other) :
      task' = other := by
    rw [List.getElem?_set_self hlt] at hj
    exact Option.some_inj.mp hj
  refine ⟨hmap ▸ hs.nodup, fun j other hj => ?_, fun j other hj post hpost hid => ?_,
    fun post hpost => ?_⟩
  · rw [bodiesFor_append]
    by_cases hjk : j = k
    · subst hjk
      obtain rfl := hself hj
      rw [h.chat_eq, bodiesFor_postsOf hbodies]
      exact posted_of_taskStep h (hs.each j task hk)
    · obtain ⟨hj, hne⟩ := hother hj hjk
      rw [bodiesFor_postsOf_ne hne hbodies, List.append_nil]
      exact hs.each j other hj
  · rcases List.mem_append.mp hpost with hold | hnew
    · by_cases hjk : j = k
      · subst hjk
        obtain rfl := hself hj
        rw [h.chat_eq] at hid ⊢
        exact hs.url j task hk post hold hid
      · exact hs.url j other (hother hj hjk).1 post hold hid
    · obtain ⟨hurl, hbody⟩ := mem_postsOf.mp hnew
      have hchat := Option.some_inj.mp ((hbodies _ hbody).symm.trans hid)
      by_cases hjk : j = k
      · subst hjk
        obtain rfl := hself hj
        rw [h.chat_eq, hurl]
      · exact absurd hchat (hother hj hjk).2
  · rw [hmap]
    rcases List.mem_append.mp hpost with hold | hnew
    · exact hs.only post hold
    · exact ⟨_, List.mem_map_of_mem (List.mem_of_getElem? hk),
        hbodies _ (mem_postsOf.mp hnew).2⟩

theorem AllPosted.step {a : CallbackAction} (hs : AllPosted s) (hstep : s.step a = some s') :
    AllPosted s' := by
  cases a with
  | chatAsync ready uuid body =>
    simp only [Callbacks.step] at hstep
    split at hstep
    next chat hchat =>
      split_ifs at hstep with hused
      obtain rfl := Option.some_inj.mp hstep
      have hid : chat.chatId = uuid := by
        unfold agentChatAsync at hchat
        split_ifs at hchat
        obtain rfl := Except.ok.inj hchat
        rfl
      exact hs.accept (hid ▸ hused)
    next => exact Option.some_inj.mp hstep ▸ hs
  | act k act =>
    simp only [Callbacks.step] at hstep
    split at hstep
    next task hk =>
      obtain ⟨⟨tools', task', bodies⟩, hadvance, rfl⟩ := Option.map_eq_some_iff.mp hstep
      exact hs.act hk (taskStep_of_advance hadvance)
    next => exact absurd hstep (by simp)
  | elsewhere tools =>
    obtain rfl := Option.some_inj.mp hstep
    exact ⟨hs.nodup, hs.each, hs.url, hs.only⟩

/-- **Each chat is called back on its own.** However the tasks of the chats run side by side, and
whatever else happens to the tools: a receiver that takes the POSTs with one chat id has, at the URL
of that chat's request, the progress of its turn in order and then its answer. -/
theorem calledBack_of_run (hrun : (callbacks tools).run acts = some s) : CallsBack s := by
  have hs : AllPosted s := Machine.run_invariant' (fun hs hstep => hs.step hstep) (.boot tools) hrun
  refine ⟨fun task htask => ?_, fun post hpost => ?_⟩
  · obtain ⟨k, hk⟩ := List.mem_iff_getElem?.mp htask
    obtain ⟨finals, hbodies, hstands, hreports⟩ := hs.each k task hk
    exact ⟨hs.url k task hk, ⟨finals, hbodies, finals_of_stands hstands⟩, hreports⟩
  · obtain ⟨chatId, hmem, hid⟩ := hs.only post hpost
    obtain ⟨task, htask, rfl⟩ := List.mem_map.mp hmem
    exact ⟨task, htask, hid⟩

/-- Two chats side by side: one asks for an approval, the turn of the other raises. -/
def twoChats : List CallbackAction :=
  [.chatAsync true "c1" ⟨"build it", some "alice", "http://a/cb"⟩,
    .chatAsync true "c2" ⟨"hello", none, "http://b/cb"⟩,
    .act 0 (.enter (.ok ())), .act 1 (.enter (.ok ())),
    .act 0 (.progress "looking" false), .act 1 (.progress "thinking" false),
    .act 0 (.call ⟨"exec", "/root", "r1", "make", none, none⟩), .act 1 (.finish (.error "no key")),
    .act 0 (.finish (.ok none)), .act 1 (.leave (.ok ())), .act 1 (.reopen (.ok ())), .act 0 .sent,
    .act 1 .reported, .act 0 (.leave (.ok ()))]

theorem calledBack_twoChats : ∃ s, (callbacks gatedTools).run twoChats = some s ∧ CallsBack s := by
  obtain ⟨s, hs⟩ : ∃ s, (callbacks gatedTools).run twoChats = some s := ⟨_, rfl⟩
  exact ⟨s, hs, calledBack_of_run hs⟩

end AllTasks

end Nanogate.Approval
