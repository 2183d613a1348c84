import Mathlib.Logic.Function.Basic
import Nanogate.Approval.Tool
import Nanogate.Semantics.Machine

/-!
# One agent with its approval handlers

Calls of `execute` and of `POST /approve` on one agent, interleaved at every await.
A handler of the route stops between its lookup and the pop in `run_approved`, in the
token provider, before and after the subprocess is created, and in the resumed turn.
The stages in between are those of the whole route, and `run_alone` says that a
handler nobody interrupts computes what the whole route computes.

The calls that were blocked, the entries taken and the commands started are kept as
history; no step reads them except to keep request ids fresh.

## Main definitions

* `Pc`, `Handler` — a handler of the route and where it stands
* `Agent`, `machine` — the tools, the handlers and the history
* `AgentStep` — everything a step can do
* `Booted` — the exec tools block commands and have empty tables

## Main results

* `agentStep_of_step` — the inversion of `Agent.step`
* `run_alone` — a handler run without interruption refines `approve`
-/

namespace Nanogate.Approval

open Nanogate.Python Nanogate.Bus Nanogate.Semantics

/-! ### Handlers -/

/-- Where a handler of `POST /approve` stands. -/
inductive Pc where
  /-- Before the loop over the tools. -/
  | arrived
  /-- The tool is found and `run_approved` is about to pop the entry. -/
  | calling (tool : String)
  /-- In `_run_token_provider`. -/
  | fetchingToken (entry : Pending)
  /-- Before `create_subprocess_shell`. -/
  | starting (entry : Pending)
  /-- Waiting for the process. -/
  | running (entry : Pending)
  /-- In `process_direct`. -/
  | resuming (turn : Turn) (response : Json)
  | answered (reply : Except HttpError Json)

namespace Pc

/-- The entry a handler has popped, while its command is still to be run. -/
def entry : Pc → Option Pending
  | fetchingToken entry | starting entry | running entry => some entry
  | arrived | calling _ | resuming .. | answered _ => none

/-- The handler has popped an entry, and has not been refused since. -/
def took : Pc → Bool
  | arrived | calling _ | answered (.error _) => false
  | fetchingToken _ | starting _ | running _ | resuming .. | answered (.ok _) => true

/-- The handler may still create the process of its command. -/
def beforeStart : Pc → Bool
  | arrived | calling _ | fetchingToken _ | starting _ => true
  | running _ | resuming .. | answered _ => false

/-- After the loop over the tools. -/
def afterLookup (requestId : String) : Option String → Pc
  | some name => calling name
  | none => answered (.error (notFound requestId))

/-- After the pop of `tool`. -/
def afterTake (tool : GatewayExecTool) (entry : Pending) : Pc :=
  if tool.tokenCommand = "" then starting entry else fetchingToken entry

/-- After the command. -/
def afterProcess (body : ApproveBody) (entry : Pending) (process : ProcessOutcome) : Pc :=
  match afterRun body entry (runResult process) with
  | .answer reply => answered reply
  | .resume turn response => resuming turn response

end Pc

/-- A call of the route: its body and where it stands. -/
structure Handler where
  body : ApproveBody
  pc : Pc

/-! ### The agent -/

/-- A call of `execute` of a tool that was blocked in a process with this working directory: the
request id it was given, and the entry recorded under it. -/
structure Issued where
  requestId : String
  tool : String
  getcwd : String
  call : ExecuteCall
  entry : Pending
  deriving DecidableEq, Repr

/-- A process that was started: for a command of the model by `execute` itself, for the
token provider, or for a blocked command by the handler of an approval. -/
inductive Start where
  | direct (command cwd : String)
  | tokenProvider (command : String)
  | approved (handler : ℕ) (requestId command cwd : String)
  deriving DecidableEq, Repr

/-- The request id of the blocked command a process was started for. -/
def Start.requestId? : Start → Option String
  | direct .. | tokenProvider _ => none
  | approved _ requestId _ _ => some requestId

/-- The command and the working directory of a process. -/
def Start.process : Start → Started
  | direct command cwd | approved _ _ command cwd => ⟨command, some cwd⟩
  | tokenProvider command => ⟨command, none⟩

/-- The processes `run_approved` starts between popping the entry and its command. -/
def tokenStart (tool : GatewayExecTool) : List Start :=
  if tool.tokenCommand = "" then [] else [.tokenProvider tool.tokenCommand]

/-- The agent and its history. -/
structure Agent where
  tools : Registry
  handlers : ℕ → Option Handler
  issued : List Issued
  taken : List (ℕ × String)
  started : List Start

/-- What happens at an await of a handler. -/
inductive HandlerAct where
  | lookup
  | take
  | token
  /-- `create_subprocess_shell` returns, or raises the exception with this text. -/
  | spawn (raised : Option String)
  /-- The process has ended, or waiting for it has. -/
  | exit (process : ProcessOutcome)
  | resumed (turn : Except String (Option String))
  deriving Repr

/-- One step of an `execute` call or of a handler. -/
inductive Action where
  /-- `execute` of a tool; `getcwd` and the uuid come from outside. -/
  | execute (tool getcwd requestId : String) (call : ExecuteCall)
  | approve (handler : ℕ) (body : ApproveBody)
  | handle (handler : ℕ) (act : HandlerAct)
  deriving Repr

namespace Agent

variable (s : Agent)

/-- Nothing has happened yet. -/
def boot (tools : Registry) : Agent := ⟨tools, fun _ => none, [], [], []⟩

/-- Replace handler `h`. -/
def setHandler (h : ℕ) (body : ApproveBody) (pc : Pc) : Agent :=
  { s with handlers := Function.update s.handlers h (some ⟨body, pc⟩) }

/-- The uuid was not issued before. -/
def Fresh (requestId : String) : Prop := requestId ∉ s.issued.map Issued.requestId

instance (requestId : String) : Decidable (s.Fresh requestId) := inferInstanceAs (Decidable (_ ∉ _))

/-- Record a blocked command under a new request id. -/
def issue (name getcwd requestId : String) (tool : GatewayExecTool) (call : ExecuteCall) : Agent :=
  let entry := (tool.block getcwd requestId call).entry
  { s with
    tools := s.tools.set name (.gatewayExec (tool.record requestId entry))
    issued := s.issued ++ [⟨requestId, name, getcwd, call, entry⟩] }

/-- One step of handler `h` with body `body`. -/
def handle (h : ℕ) (body : ApproveBody) : Pc → HandlerAct → Option Agent
  | .arrived, .lookup =>
    some (s.setHandler h body (.afterLookup body.requestId (lookup s.tools body.requestId)))
  | .calling name, .take =>
    match take s.tools name body.requestId with
    | some (tool, entry, tools) =>
      some { s.setHandler h body (.afterTake tool entry) with
        tools
        taken := s.taken ++ [(h, body.requestId)]
        started := s.started ++ tokenStart tool }
    | none => some (s.setHandler h body (.answered (.error (alreadyTaken body.requestId))))
  | .fetchingToken entry, .token => some (s.setHandler h body (.starting entry))
  | .starting entry, .spawn none =>
    some { s.setHandler h body (.running entry) with
      started := s.started ++ [.approved h body.requestId entry.command entry.cwd] }
  | .starting entry, .spawn (some e) =>
    some (s.setHandler h body (.afterProcess body entry (.notStarted e)))
  | .running entry, .exit process =>
    some (s.setHandler h body (.afterProcess body entry process))
  | .resuming _ response, .resumed turn =>
    some (s.setHandler h body (.answered (.ok (resumed response turn))))
  | _, _ => none

/-- One step. -/
def step : Action → Option Agent
  | .execute name getcwd requestId call =>
    match s.tools.get name with
    | some (.gatewayExec tool) =>
      if tool.gated then
        if s.Fresh requestId then some (s.issue name getcwd requestId tool call) else none
      -- the command is allowed directly
      else some { s with started := s.started ++ [.direct call.command (tool.cwd getcwd call)] }
    | _ => none
  | .approve h body =>
    match s.handlers h with
    | some _ => none
    | none => some (s.setHandler h body .arrived)
  | .handle h act =>
    match s.handlers h with
    | some ⟨body, pc⟩ => s.handle h body pc act
    | none => none

end Agent

/-- Everything a step of handler `h` can do. -/
inductive HandlerStep (s : Agent) (h : ℕ) (body : ApproveBody) :
    Pc → HandlerAct → Agent → Prop where
  | lookup :
    HandlerStep s h body .arrived .lookup
      (s.setHandler h body (.afterLookup body.requestId (Approval.lookup s.tools body.requestId)))
  | take {name tool entry} (holds : s.tools.get name = some (.gatewayExec tool))
      (pending : tool.pending.get body.requestId = some entry) :
    HandlerStep s h body (.calling name) .take
      { s.setHandler h body (.afterTake tool entry) with
        tools := s.tools.set name (.gatewayExec (tool.forget body.requestId))
        taken := s.taken ++ [(h, body.requestId)]
        started := s.started ++ tokenStart tool }
  | gone {name} :
    HandlerStep s h body (.calling name) .take
      (s.setHandler h body (.answered (.error (alreadyTaken body.requestId))))
  | token {entry} :
    HandlerStep s h body (.fetchingToken entry) .token (s.setHandler h body (.starting entry))
  | spawn {entry} :
    HandlerStep s h body (.starting entry) (.spawn none)
      { s.setHandler h body (.running entry) with
        started := s.started ++ [.approved h body.requestId entry.command entry.cwd] }
  | spawnRaised {entry e} :
    HandlerStep s h body (.starting entry) (.spawn (some e))
      (s.setHandler h body (.afterProcess body entry (.notStarted e)))
  | exit {entry process} :
    HandlerStep s h body (.running entry) (.exit process)
      (s.setHandler h body (.afterProcess body entry process))
  | resumed {turn response outcome} :
    HandlerStep s h body (.resuming turn response) (.resumed outcome)
      (s.setHandler h body (.answered (.ok (Approval.resumed response outcome))))

theorem handlerStep_of_handle {s s' : Agent} {h : ℕ} {body : ApproveBody} {pc : Pc}
    {act : HandlerAct} (hstep : s.handle h body pc act = some s') :
    HandlerStep s h body pc act s' := by
  cases pc <;> cases act <;> simp only [Agent.handle, reduceCtorEq] at hstep
  case arrived.lookup => obtain rfl := Option.some_inj.mp hstep; exact .lookup
  case calling.take =>
    split at hstep
    next htake =>
      obtain ⟨hget, hentry, rfl⟩ := take_eq_some_iff.mp htake
      obtain rfl := Option.some_inj.mp hstep
      exact .take hget hentry
    next => obtain rfl := Option.some_inj.mp hstep; exact .gone
  case fetchingToken.token => obtain rfl := Option.some_inj.mp hstep; exact .token
  case starting.spawn raised =>
    cases raised <;> obtain rfl := Option.some_inj.mp hstep
    · exact .spawn
    · exact .spawnRaised
  case running.exit => obtain rfl := Option.some_inj.mp hstep; exact .exit
  case resuming.resumed => obtain rfl := Option.some_inj.mp hstep; exact .resumed

theorem HandlerStep.issued_eq {s s' : Agent} {h : ℕ} {body : ApproveBody} {pc : Pc}
    {act : HandlerAct} (hstep : HandlerStep s h body pc act s') : s'.issued = s.issued := by
  cases hstep <;> rfl

/-- Everything a step of the agent can do. -/
inductive AgentStep (s : Agent) : Action → Agent → Prop where
  | issue {name getcwd requestId call tool}
      (registered : s.tools.get name = some (.gatewayExec tool)) (gated : tool.gated = true)
      (fresh : s.Fresh requestId) :
    AgentStep s (.execute name getcwd requestId call) (s.issue name getcwd requestId tool call)
  | direct {name getcwd requestId call tool}
      (registered : s.tools.get name = some (.gatewayExec tool)) (ungated : tool.gated = false) :
    AgentStep s (.execute name getcwd requestId call)
      { s with started := s.started ++ [.direct call.command (tool.cwd getcwd call)] }
  | approve {h body} (absent : s.handlers h = none) :
    AgentStep s (.approve h body) (s.setHandler h body .arrived)
  | handle {h act body pc s'} (at_ : s.handlers h = some ⟨body, pc⟩)
      (step : HandlerStep s h body pc act s') : AgentStep s (.handle h act) s'

theorem agentStep_of_step {s s' : Agent} {a : Action} (hstep : s.step a = some s') :
    AgentStep s a s' := by
  cases a <;> simp only [Agent.step] at hstep
  case execute =>
    split at hstep
    next hget =>
      split_ifs at hstep with hgated hfresh
      · obtain rfl := Option.some_inj.mp hstep
        exact .issue hget hgated hfresh
      · obtain rfl := Option.some_inj.mp hstep
        exact .direct hget (by simpa using hgated)
    next => exact absurd hstep (by simp)
  case approve =>
    split at hstep
    next => exact absurd hstep (by simp)
    next habsent => obtain rfl := Option.some_inj.mp hstep; exact .approve habsent
  case handle =>
    split at hstep
    next hat => exact .handle hat (handlerStep_of_handle hstep)
    next => exact absurd hstep (by simp)

/-- An agent with these tools. -/
def machine (tools : Registry) : Machine Agent Action where
  init := .boot tools
  step := Agent.step

/-- The exec tools as their constructor leaves them. -/
def EmptyTables (tools : Registry) : Prop :=
  ∀ name tool, tools.get name = some (.gatewayExec tool) → tool.pending = .empty

/-- The exec tools as their constructor leaves them, with approval required. -/
def Booted (tools : Registry) : Prop :=
  ∀ name tool, tools.get name = some (.gatewayExec tool) → tool.gated = true ∧ tool.pending = .empty

theorem Booted.emptyTables {tools : Registry} (h : Booted tools) : EmptyTables tools :=
  fun name tool hget => (h name tool hget).2

/-- An agent whose exec tool requires approval. -/
def gatedTools : Registry :=
  Dict.empty.set "exec" (.gatewayExec { settings := ⟨true, "", true, none⟩, pending := .empty })

theorem booted_gatedTools : Booted gatedTools := by
  intro name tool hget
  rw [gatedTools, Dict.get_set] at hget
  split_ifs at hget
  · obtain rfl := Tool.gatewayExec.inj (Option.some.inj hget)
    exact ⟨rfl, rfl⟩
  · simp at hget

/-! ### A handler nobody interrupts -/

section Alone

variable (tools₀ : Registry) {s s' : Agent} {h : ℕ} {body : ApproveBody} {pc : Pc}
  {env : Environment} {entry : Pending} {tool : GatewayExecTool}

/-- The steps of the command. -/
def commandActs (h : ℕ) : ProcessOutcome → List Action
  | .notStarted e => [.handle h (.spawn (some e))]
  | process => [.handle h (.spawn none), .handle h (.exit process)]

/-- The step of the resumed turn, if there is one. -/
def turnActs (h : ℕ) (decision : Decision) (turn : Except String (Option String)) :
    List Action :=
  match decision with
  | .answer _ => []
  | .resume .. => [.handle h (.resumed turn)]

/-- The steps from the pop of the entry to the answer. -/
def takenActs (h : ℕ) (tool : GatewayExecTool) (decision : Decision) (env : Environment) :
    List Action :=
  .handle h .take ::
    ((if tool.tokenCommand = "" then [] else [.handle h .token]) ++
      (commandActs h env.process ++ turnActs h decision env.turn))

/-- The steps of handler `h` from its arrival to its answer. -/
def aloneActs (h : ℕ) (body : ApproveBody) (env : Environment) (tools : Registry) : List Action :=
  .approve h body :: .handle h .lookup ::
    match lookup tools body.requestId with
    | none => []
    | some name =>
      match take tools name body.requestId with
      | none => [.handle h .take]
      | some (tool, entry, _) =>
        takenActs h tool (afterRun body entry (runResult env.process)) env

theorem handlers_setHandler :
    (s.setHandler h body pc).handlers h = some ⟨body, pc⟩ := by
  simp [Agent.setHandler]

/-- A step of the handler at the head of a run. -/
theorem runFrom_handle {act : HandlerAct} {as : List Action}
    (hat : s.handlers h = some ⟨body, pc⟩) (hstep : s.handle h body pc act = some s') :
    (machine tools₀).runFrom s (.handle h act :: as) = (machine tools₀).runFrom s' as := by
  refine Machine.runFrom_cons_of_step _ ?_
  simp only [machine, Agent.step, hat, hstep]

/-- The end of the route: from the end of the command to the answer. -/
theorem runFrom_turnActs (env : Environment)
    (hat : s.handlers h = some ⟨body, .afterProcess body entry env.process⟩) :
    ∃ s', (machine tools₀).runFrom s
        (turnActs h (afterRun body entry (runResult env.process)) env.turn) = some s' ∧
      s'.tools = s.tools ∧ s'.started = s.started ∧
      s'.handlers h = some ⟨body, .answered
        (match afterRun body entry (runResult env.process) with
          | .answer reply => reply
          | .resume _ response => .ok (resumed response env.turn))⟩ := by
  unfold Pc.afterProcess at hat
  cases hdecision : afterRun body entry (runResult env.process) with
  | answer reply =>
    rw [hdecision] at hat
    exact ⟨s, rfl, rfl, rfl, hat⟩
  | resume turn response =>
    rw [hdecision] at hat
    exact ⟨s.setHandler h body (.answered (.ok (resumed response env.turn))),
      runFrom_handle tools₀ hat rfl, rfl, rfl, handlers_setHandler⟩

/-- The token provider, configured or not, leads to the start of the command. -/
theorem runFrom_token (hat : s.handlers h = some ⟨body, .afterTake tool entry⟩) :
    ∃ s', (machine tools₀).runFrom s
        (if tool.tokenCommand = "" then [] else [.handle h .token]) = some s' ∧
      s'.tools = s.tools ∧ s'.started = s.started ∧
      s'.handlers h = some ⟨body, .starting entry⟩ := by
  unfold Pc.afterTake at hat
  split_ifs at hat ⊢
  · exact ⟨s, rfl, rfl, rfl, hat⟩
  · exact ⟨s.setHandler h body (.starting entry), runFrom_handle tools₀ hat rfl, rfl, rfl,
      handlers_setHandler⟩

/-- The command, whether its process can be created or not. -/
theorem runFrom_command (hat : s.handlers h = some ⟨body, .starting entry⟩)
    (process : ProcessOutcome) :
    ∃ s', (machine tools₀).runFrom s (commandActs h process) = some s' ∧ s'.tools = s.tools ∧
      s'.started.map Start.process = s.started.map Start.process ++ commandStarted entry process ∧
      s'.handlers h = some ⟨body, .afterProcess body entry process⟩ := by
  have hspawn : s.handle h body (.starting entry) (.spawn none) =
      some { s.setHandler h body (.running entry) with
        started := s.started ++ [.approved h body.requestId entry.command entry.cwd] } := rfl
  cases process with
  | notStarted e =>
    refine ⟨s.setHandler h body (.afterProcess body entry (.notStarted e)),
      runFrom_handle tools₀ hat rfl, rfl, ?_, handlers_setHandler⟩
    simp [commandStarted, Agent.setHandler]
  | exited | timedOut | failed =>
    refine ⟨_, (runFrom_handle tools₀ hat hspawn).trans
      (runFrom_handle tools₀ handlers_setHandler rfl), rfl, ?_,
      handlers_setHandler⟩
    simp [commandStarted, Agent.setHandler, Start.process]

/-- From the pop of the entry to the answer. -/
theorem runFrom_taken (env : Environment) {name : String} {tools' : Registry}
    (hat : s.handlers h = some ⟨body, .calling name⟩)
    (htake : take s.tools name body.requestId = some (tool, entry, tools')) :
    ∃ s', (machine tools₀).runFrom s (takenActs h tool (afterRun body entry (runResult env.process))
        env) = some s' ∧
      s'.tools = tools' ∧
      s'.started.map Start.process =
        s.started.map Start.process ++ startedBy tool entry env.process ∧
      s'.handlers h = some ⟨body, .answered
        (match afterRun body entry (runResult env.process) with
          | .answer reply => reply
          | .resume _ response => .ok (resumed response env.turn))⟩ := by
  have hstep : s.handle h body (.calling name) .take =
      some { s.setHandler h body (.afterTake tool entry) with
        tools := tools'
        taken := s.taken ++ [(h, body.requestId)]
        started := s.started ++ tokenStart tool } := by
    simp only [Agent.handle, htake]
  -- the token provider, the command and the turn, one after the other
  obtain ⟨u, hrunToken, htoolsToken, hstartedToken, hatToken⟩ := runFrom_token tools₀
    (s := { s.setHandler h body (.afterTake tool entry) with
      tools := tools'
      taken := s.taken ++ [(h, body.requestId)]
      started := s.started ++ tokenStart tool }) handlers_setHandler
  obtain ⟨v, hrunCommand, htoolsCommand, hstartedCommand, hatCommand⟩ :=
    runFrom_command tools₀ hatToken env.process
  obtain ⟨s', hrunTurn, htoolsTurn, hstartedTurn, hatTurn⟩ :=
    runFrom_turnActs tools₀ env hatCommand
  refine ⟨s', ?_, by rw [htoolsTurn, htoolsCommand, htoolsToken], ?_, hatTurn⟩
  · rw [takenActs, runFrom_handle tools₀ hat hstep]
    refine (Machine.runFrom_append_eq_some _).mpr ⟨u, hrunToken, ?_⟩
    exact (Machine.runFrom_append_eq_some _).mpr ⟨v, hrunCommand, hrunTurn⟩
  · have htoken : (tokenStart tool).map Start.process = tokenStarted tool := by
      unfold tokenStart tokenStarted
      split_ifs <;> rfl
    rw [hstartedTurn, hstartedCommand, hstartedToken]
    simp [htoken, startedBy]

/-- **The steps refine the route.** A handler that nobody interrupts starts the processes, leaves
the tools and gives the answer of `approve`. -/
theorem run_alone (env : Environment) (habsent : s.handlers h = none) :
    ∃ s', (machine tools₀).runFrom s (aloneActs h body env s.tools) = some s' ∧
      s'.tools = (approve (some s.tools) body env).tools ∧
      s'.started.map Start.process =
        s.started.map Start.process ++ (approve (some s.tools) body env).started ∧
      s'.handlers h = some ⟨body, .answered (approve (some s.tools) body env).reply⟩ := by
  have harrive : (machine tools₀).step s (.approve h body) =
      some (s.setHandler h body .arrived) := by
    simp only [machine, Agent.step, habsent]
  -- the lookup decides whether there is anything to run
  have hlooked : (s.setHandler h body .arrived).handle h body .arrived .lookup =
      some (s.setHandler h body (.afterLookup body.requestId (lookup s.tools body.requestId))) := by
    simp [Agent.handle, Agent.setHandler]
  rw [aloneActs, Machine.runFrom_cons_of_step _ harrive,
    runFrom_handle tools₀ handlers_setHandler hlooked]
  cases hlookup : lookup s.tools body.requestId with
  | none =>
    refine ⟨_, rfl, ?_⟩
    simp [approve, hlookup, Agent.setHandler, Pc.afterLookup]
  | some name =>
    obtain ⟨tool, entry, htake⟩ := exists_take_of_lookup hlookup
    obtain ⟨s', hrun, htools, hstarted, hat⟩ := runFrom_taken tools₀ env
      (s := s.setHandler h body (.calling name)) handlers_setHandler htake
    rw [approve_of_take hlookup htake]
    refine ⟨s', by simpa only [htake, Pc.afterLookup] using hrun, ?_, ?_, ?_⟩
    · rw [htools]
      split <;> rfl
    · rw [hstarted]
      split <;> rfl
    · rw [hat]
      split <;> simp_all

end Alone

end Nanogate.Approval
