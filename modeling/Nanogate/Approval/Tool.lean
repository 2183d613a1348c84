import Nanogate.Bus.Message
import Nanogate.Python.Dict

/-!
# The approval tool and the approval route

`GatewayExecTool` refuses to run a command and records it under a fresh request id;
`POST /approve` of the agent finds the tool that holds the id, runs the recorded
command and resumes the conversation it was asked for in. The route is written here
in stages that end where the source awaits something, so that one handler can be
followed alone (`approve`) or step by step among others.

## Main definitions

* `GatewayExecTool`, `GatewayExecTool.block` — the tool and what `execute` does with a
  command that needs approval
* `lookup`, `take`, `runResult`, `afterRun`, `resumed` — the stages of the route
* `approve` — the whole route for given answers of the processes it starts

## Main results

* `lookup_eq_none_iff` — the route finds nothing exactly when no tool that can run an
  approved command holds the id
-/

namespace Nanogate.Approval

open Nanogate.Python Nanogate.Bus

/-! ### The tools of an agent -/

/-- An entry of a `pending` table. -/
structure Pending where
  command : String
  cwd : String
  sessionKey : String
  channel : String
  chatId : String
  deriving DecidableEq, Repr

/-- The part of `GatewayExecTool.config` and of its attributes that decides whether and
how commands run. -/
structure Settings where
  enabled : Bool
  tokenProviderCommand : String
  requireApprovalForApi : Bool
  workingDir : Option String
  deriving DecidableEq, Repr

/-- A `GatewayExecTool`. -/
structure GatewayExecTool where
  settings : Settings
  pending : Dict String Pending

/-- A registered tool: the exec tool, or one without `run_approved`, which may still
have a `pending` table. -/
inductive Tool where
  | gatewayExec (tool : GatewayExecTool)
  | other (pending : Option (Dict String Pending))

/-- `getattr(tool, "pending", {})` -/
def Tool.pending : Tool → Dict String Pending
  | gatewayExec tool => tool.pending
  | other pending => pending.getD .empty

/-- The tools of an agent loop by name, in registration order. -/
abbrev Registry := Dict String Tool

/-! ### Blocking a command -/

/-- A call of `execute`: the arguments of the model, the `session_key` keyword when
there is one, and the session the context variable names. -/
structure ExecuteCall where
  command : String
  workingDir : Option String
  sessionKey : Option String
  activeSession : Option String
  deriving DecidableEq, Repr

/-- What `execute` leaves behind when it blocks a command: the entry it adds, the two
context variables it sets, and the text it returns. -/
structure Blocked where
  entry : Pending
  approvalRequestId : String
  approvalContext : Json
  text : String
  deriving DecidableEq, Repr

namespace GatewayExecTool

variable (tool : GatewayExecTool)

/-- `self.config.get("enabled") and self.config.get("requireApprovalForApi")` -/
def gated : Bool := tool.settings.enabled && tool.settings.requireApprovalForApi

/-- `working_dir or self.working_dir or os.getcwd()` -/
def cwd (getcwd : String) (call : ExecuteCall) : String :=
  orElse call.workingDir (orElse tool.settings.workingDir getcwd)

/-- The blocking branch of `execute`, with `requestId` the new uuid. -/
def block (getcwd requestId : String) (call : ExecuteCall) : Blocked :=
  let cwd := tool.cwd getcwd call
  { entry :=
      { command := call.command
        cwd
        sessionKey := call.sessionKey.getD (call.activeSession.getD "api:direct")
        channel := "api"
        chatId := "direct" }
    approvalRequestId := requestId
    approvalContext := .obj
      [("tool", .str "exec"), ("command", .str call.command),
        ("cwd", if cwd = "" then .null else .str cwd),
        ("description", .str ("Execute shell command: \u0060" ++ call.command ++ "\u0060"))]
    text :=
      "Error: This command requires user approval before it can run. " ++
      "The approval request has been forwarded to the client with request_id " ++ requestId ++
      ". Do not retry — wait for the user to approve or give further instructions." }

/-- What an entry is made of are the settings of the tool. -/
theorem block_congr {tool tool' : GatewayExecTool} (hsettings : tool'.settings = tool.settings)
    (getcwd requestId : String) (call : ExecuteCall) :
    tool'.block getcwd requestId call = tool.block getcwd requestId call := by
  have hcwd : tool'.cwd getcwd call = tool.cwd getcwd call := by rw [cwd, cwd, hsettings]
  rw [block, block, hcwd]

/-- `self.pending[request_id] = {...}` -/
def record (requestId : String) (entry : Pending) : GatewayExecTool :=
  { tool with pending := tool.pending.set requestId entry }

/-- `self.pending.pop(request_id, None)`, the tool that is left. -/
def forget (requestId : String) : GatewayExecTool :=
  { tool with pending := tool.pending.erase requestId }

/-- `(self.config.get("tokenProviderCommand") or "").strip()` -/
def tokenCommand : String := strip tool.settings.tokenProviderCommand

end GatewayExecTool

/-! ### The stages of the route -/

/-- The body of `POST /approve`. -/
structure ApproveBody where
  requestId : String
  sessionId : Option String
  autoResume : Bool
  resumeOnFailure : Bool
  deriving DecidableEq, Repr

/-- The tool can run an approved command and holds the id. -/
def Tool.offers (requestId : String) : Tool → Bool
  | .gatewayExec tool => (tool.pending.get requestId).isSome
  | .other _ => false

/-- The loop over `tool_names`: the first tool that offers the id. -/
def lookup (tools : Registry) (requestId : String) : Option String :=
  (tools.entries.find? fun e => e.2.offers requestId).map Prod.fst

/-- `detail` when no tool holds the id. -/
def notFound (requestId : String) : HttpError :=
  { statusCode := 400
    detail := "No pending approval found across any custom tools for request_id: " ++ requestId }

/-- The first statement of `run_approved` of the tool called `name`: pop the entry. -/
def take (tools : Registry) (name requestId : String) :
    Option (GatewayExecTool × Pending × Registry) :=
  match tools.get name with
  | some (.gatewayExec tool) =>
    (tool.pending.get requestId).map fun entry =>
      (tool, entry, tools.set name (.gatewayExec (tool.forget requestId)))
  | _ => none

/-- `output` of `run_approved` when the entry is gone. -/
def alreadyTaken (requestId : String) : HttpError :=
  { statusCode := 400, detail := "No pending approval for request_id: " ++ requestId }

/-- How the subprocess of an approved command went. -/
inductive ProcessOutcome where
  /-- `create_subprocess_shell` raised. -/
  | notStarted (error : String)
  | exited (stdout stderr : String) (returncode : Int)
  | timedOut
  /-- Waiting for the process raised. -/
  | failed (error : String)
  deriving DecidableEq, Repr

/-- `success`, `output` and `exit_code` of `run_approved`. -/
structure Run where
  success : Bool
  output : String
  exitCode : Int
  deriving DecidableEq, Repr

/-- The end of `run_approved`, whose `timeout` is left at its default. -/
def runResult : ProcessOutcome → Run
  | .notStarted e | .failed e => ⟨false, e, -1⟩
  | .timedOut => ⟨false, "Command timed out after 60 seconds", -1⟩
  | .exited stdout stderr returncode =>
    let out := stdout
    let out := if strip stderr = "" then out else out ++ "\nSTDERR:\n" ++ stderr
    let out := if returncode = 0 then out else out ++ "\nExit code: " ++ toString returncode
    ⟨true, if out = "" then "(no output)" else out, returncode⟩

/-- `truncate_text` -/
def truncateText (text : String) : String :=
  if text.length ≤ 4000 then text
  else String.ofList (text.toList.take 4000) ++
    "\n... (truncated " ++ toString (text.length - 4000) ++ " chars)"

/-- A call of `process_direct`. -/
structure Turn where
  message : String
  sessionKey : String
  channel : String
  chatId : String
  deriving DecidableEq, Repr

/-- The session the body names, normalised; `None` when it is blank or missing. -/
def ApproveBody.session (body : ApproveBody) : Option String :=
  match body.sessionId with
  | some s =>
    if strip s = "" then none
    else some (if contains ':' (strip s) then strip s else "api:" ++ strip s)
  | none => none

/-- What the route does once the command has run: answer, or resume the conversation
and answer with `response` completed. -/
inductive Decision where
  | answer (reply : Except HttpError Json)
  | resume (turn : Turn) (response : Json)

/-- `ok`, `output`, `exit_code` and `approved_command`. An entry that was taken is a
nonempty dictionary, so `if pending` always holds here. -/
def runResponse (entry : Pending) (run : Run) : Json :=
  .obj [("ok", .bool true), ("output", .str run.output), ("exit_code", .num run.exitCode),
    ("approved_command", .str entry.command)]

/-- The route between the end of the command and the resumed turn. -/
def afterRun (body : ApproveBody) (entry : Pending) (run : Run) : Decision :=
  if !run.success then .answer (.error { statusCode := 400, detail := run.output })
  else
    let response := runResponse entry run
    if body.autoResume && (run.exitCode = 0 || body.resumeOnFailure) then
      let mismatch := match body.session with
        | some normalized => if normalized = entry.sessionKey then none else some normalized
        | none => none
      match mismatch with
      | some normalized => .answer (.error
          { statusCode := 400
            detail := "sessionId mismatch for request_id " ++ body.requestId ++ ": expected " ++
              entry.sessionKey ++ ", got " ++ normalized })
      | none => .resume
          { message :=
              "An approved command has been executed. Continue from where you paused.\n\n" ++
              "Approved command:\n" ++ entry.command ++ "\n\n" ++
              "Exit code: " ++ toString run.exitCode ++ "\n" ++
              "Command output:\n" ++ truncateText run.output
            sessionKey := entry.sessionKey
            channel := entry.channel
            chatId := entry.chatId }
          (response.set "session_id" (.str entry.sessionKey))
    else
      let response := response.set "resumed" (.bool false)
      let response := response.set "session_id" (.str entry.sessionKey)
      -- the hint is for a failed command only, not for autoResume=false
      .answer (.ok (if body.autoResume && run.exitCode ≠ 0 && !body.resumeOnFailure then
        response.set "resume_skipped" (.str
          ("Approved command failed; automatic resume skipped to avoid retry loops. " ++
            "Set resumeOnFailure=true to force resume on failures."))
        else response))

/-- The answer once the resumed turn has ended, with its text or its exception. -/
def resumed (response : Json) : Except String (Option String) → Json
  | .ok text =>
    (response.set "agent_response" (.str (text.getD ""))).set "resumed" (.bool true)
  | .error e => (response.set "resumed" (.bool false)).set "resume_error" (.str e)

/-! ### The whole route -/

/-- What the processes and the resumed turn of one call answer. -/
structure Environment where
  process : ProcessOutcome
  turn : Except String (Option String)

/-- A command that was started and the working directory it was given. -/
structure Started where
  command : String
  cwd : Option String
  deriving DecidableEq, Repr

/-- What one call of the route did. -/
structure Handled where
  tools : Registry
  started : List Started
  turns : List Turn
  reply : Except HttpError Json

/-- The token provider is started when one is configured. -/
def tokenStarted (tool : GatewayExecTool) : List Started :=
  if tool.tokenCommand = "" then [] else [⟨tool.tokenCommand, none⟩]

/-- The command is started unless creating its process raised. -/
def commandStarted (entry : Pending) : ProcessOutcome → List Started
  | .notStarted _ => []
  | .exited .. | .timedOut | .failed _ => [⟨entry.command, some entry.cwd⟩]

/-- The processes of `run_approved`. -/
def startedBy (tool : GatewayExecTool) (entry : Pending) (process : ProcessOutcome) :
    List Started :=
  tokenStarted tool ++ commandStarted entry process

/-- `POST /approve` of the agent, `agentLoop` being what `get_agent()` returns. -/
def approve (agentLoop : Option Registry) (body : ApproveBody) (env : Environment) : Handled :=
  match agentLoop with
  | none =>
    { tools := .empty, started := [], turns := []
      reply := .error { statusCode := 503, detail := "Agent not initialized" } }
  | some tools =>
    match lookup tools body.requestId with
    | none => { tools, started := [], turns := [], reply := .error (notFound body.requestId) }
    | some name =>
      match take tools name body.requestId with
      | none => { tools, started := [], turns := [], reply := .error (alreadyTaken body.requestId) }
      | some (tool, entry, tools) =>
        let started := startedBy tool entry env.process
        match afterRun body entry (runResult env.process) with
        | .answer reply => { tools, started, turns := [], reply }
        | .resume turn response =>
          { tools, started, turns := [turn], reply := .ok (resumed response env.turn) }

/-! ### What the stages find -/

section Stages

variable {tools tools' : Registry} {tool : GatewayExecTool} {name id : String} {entry : Pending}

/-- The id can be approved: a tool with `run_approved` holds it. -/
def Approvable (tools : Registry) (id : String) : Prop :=
  ∃ name tool, tools.get name = some (.gatewayExec tool) ∧ (tool.pending.get id).isSome

theorem exists_of_lookup (h : lookup tools id = some name) :
    ∃ tool, tools.get name = some (.gatewayExec tool) ∧ (tool.pending.get id).isSome := by
  obtain ⟨⟨n, tool⟩, hfind, rfl⟩ := Option.map_eq_some_iff.mp h
  have hget := Dict.mem_entries_iff.mp (List.mem_of_find?_eq_some hfind)
  have hoffers := List.find?_some hfind
  cases tool with
  | gatewayExec tool => exact ⟨tool, hget, hoffers⟩
  | other pending => simp [Tool.offers] at hoffers

theorem lookup_eq_none_iff : lookup tools id = none ↔ ¬ Approvable tools id := by
  constructor
  · rintro h ⟨name, tool, hget, hpending⟩
    have hmem := Dict.mem_entries_iff.mpr hget
    rw [lookup, Option.map_eq_none_iff, List.find?_eq_none] at h
    exact h _ hmem hpending
  · intro h
    rw [Option.eq_none_iff_forall_ne_some]
    intro name hname
    obtain ⟨tool, hget, hpending⟩ := exists_of_lookup hname
    exact h ⟨name, tool, hget, hpending⟩

theorem take_eq_some_iff :
    take tools name id = some (tool, entry, tools') ↔
      tools.get name = some (.gatewayExec tool) ∧ tool.pending.get id = some entry ∧
        tools' = tools.set name (.gatewayExec (tool.forget id)) := by
  unfold take
  constructor
  · intro h
    split at h
    next t hget =>
      obtain ⟨e, hentry, heq⟩ := Option.map_eq_some_iff.mp h
      obtain ⟨rfl, rfl, rfl⟩ : t = tool ∧ e = entry ∧ _ = tools' := by
        simpa only [Prod.mk.injEq] using heq
      exact ⟨hget, hentry, rfl⟩
    next => exact absurd h (by simp)
  · rintro ⟨hget, hentry, rfl⟩
    simp only [hget, hentry, Option.map_some]

/-- Looking up and popping without a step in between always finds the entry. -/
theorem exists_take_of_lookup (h : lookup tools id = some name) :
    ∃ tool entry, take tools name id =
      some (tool, entry, tools.set name (.gatewayExec (tool.forget id))) := by
  obtain ⟨tool, hget, hpending⟩ := exists_of_lookup h
  obtain ⟨entry, hentry⟩ := Option.isSome_iff_exists.mp hpending
  exact ⟨tool, entry, take_eq_some_iff.mpr ⟨hget, hentry, rfl⟩⟩

/-- The call once the entry has been popped. -/
theorem approve_of_take {body : ApproveBody} {env : Environment}
    (hlookup : lookup tools body.requestId = some name)
    (htake : take tools name body.requestId = some (tool, entry, tools')) :
    approve (some tools) body env =
      match afterRun body entry (runResult env.process) with
      | .answer reply =>
        { tools := tools', started := startedBy tool entry env.process, turns := [], reply }
      | .resume turn response =>
        { tools := tools', started := startedBy tool entry env.process, turns := [turn]
          reply := .ok (resumed response env.turn) } := by
  simp only [approve, hlookup, htake]

end Stages

end Nanogate.Approval
