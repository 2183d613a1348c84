import Nanogate.Approval.Agent
import Nanogate.Approval.SessionCheck

/-!
# The session a blocked command belongs to

`execute` learns the session from the context variable `ACTIVE_SESSION`. Turns that go through
`_run_chat` set it; a turn resumed by `POST /approve` calls `process_direct` directly, in the
context of its own request, where nobody has set it. A command blocked in such a turn is recorded
under `api:direct`, whatever session is being resumed.

## Main definitions

* `Task`, `TurnRef` — turns and the contexts they run in
* `Site`, `site` — the agent with its turns, and the entries added in them
* `Belongs` — an entry is recorded for a session, and approving it resumes that session
* `EveryEntry` — a property of the entries that are pending or that a handler has taken

## Main results

* `siteStep_of_step` — everything a step can do
* `EveryEntry.step` — entries keep what they have when they are added
* `recorded_run` — which session an entry is recorded for
* `belongs_iff` — entries belong to the session that asked, except in resumed turns
-/

namespace Nanogate.Approval

open Nanogate.Python Nanogate.Bus Nanogate.Semantics

/-! ### Turns and their contexts -/

/-- A task of the event loop: the session of the turn it is in, and what `ACTIVE_SESSION` holds in
its context. -/
structure Task where
  session : Option String
  activeSession : Option String
  deriving DecidableEq, Repr

namespace Task

/-- A task in whose context nothing was set. -/
def fresh : Task := ⟨none, none⟩

/-- `_run_chat` up to the call of `process_direct`. -/
def runChat (_task : Task) (sessionId : String) : Task := ⟨some sessionId, some sessionId⟩

/-- `process_direct` has returned or raised; the context keeps what was set. -/
def done (task : Task) : Task := { task with session := none }

end Task

/-- A turn: of the bus listener, of a `POST /chat`, or resumed by the handler of a
`POST /approve`. -/
inductive TurnRef where
  | bus
  | chat (request : ℕ)
  | resumed (handler : ℕ)
  deriving DecidableEq, Repr

/-- The turn was resumed by `POST /approve`. -/
def TurnRef.isResumed : TurnRef → Bool
  | .resumed _ => true
  | .bus | .chat _ => false

/-- An entry that was added to a `pending` table, with the turn it was added in and the session of
that turn. -/
structure Asked where
  turn : TurnRef
  session : String
  issued : Issued
  deriving DecidableEq, Repr

/-- The agent, the task of the bus listener, those of the requests to `/chat`, and the entries that
were added so far. -/
structure Site where
  agent : Agent
  listener : Task
  requests : ℕ → Option Task
  asked : List Asked

/-- A step of some turn or handler. -/
inductive SiteAction where
  /-- The listener begins a turn for a request of the bus. -/
  | take (payload : Json)
  /-- The turn of the listener ends. -/
  | reply
  /-- A `POST /chat` with a message that is not blank begins its turn. -/
  | chat (request : ℕ) (sessionId : Option String)
  | answer (request : ℕ)
  /-- A call or a handler of `POST /approve` takes a step. -/
  | approval (a : Action)
  /-- The model calls the tool in a turn; it passes no `session_key`. -/
  | execute (turn : TurnRef) (tool getcwd requestId command : String) (workingDir : Option String)

namespace Site

variable (s : Site)

def boot (tools : Registry) : Site := ⟨.boot tools, .fresh, fun _ => none, []⟩

/-- The task of a turn. The handler of an approval runs in the context of its request. -/
def task : TurnRef → Option Task
  | .bus => some s.listener
  | .chat k => s.requests k
  | .resumed h =>
    match s.agent.handlers h with
    | some ⟨_, .resuming turn _⟩ => some { Task.fresh with session := some turn.sessionKey }
    | _ => none

def setRequest (k : ℕ) (task : Task) : Site :=
  { s with requests := Function.update s.requests k (some task) }

/-- The agent moves on in a turn of the session; the entries it has added are noted. -/
def ask (turn : TurnRef) (session : String) (agent : Agent) : Site :=
  { s with
    agent
    asked := s.asked ++ (agent.issued.drop s.agent.issued.length).map (⟨turn, session, ·⟩) }

def step : SiteAction → Option Site
  | .take payload =>
    match s.listener.session with
    | some _ => none
    | none => some { s with listener := s.listener.runChat (requestSession payload) }
  | .reply => some { s with listener := s.listener.done }
  | .chat k sessionId =>
    match s.requests k with
    | some _ => none
    | none => some (s.setRequest k (Task.fresh.runChat (Agent.normalizeSession sessionId)))
  | .answer k => (s.requests k).map fun task => s.setRequest k task.done
  | .approval (.execute ..) => none
  | .approval a => (s.agent.step a).map fun agent => { s with agent }
  | .execute turn tool getcwd requestId command workingDir =>
    match s.task turn with
    | some ⟨some session, activeSession⟩ =>
      (s.agent.step (.execute tool getcwd requestId
        { command, workingDir, sessionKey := none, activeSession })).map (s.ask turn session)
    | _ => none

end Site

/-- Everything a step can do. -/
inductive SiteStep (s : Site) : SiteAction → Site → Prop where
  | take {payload} (idle : s.listener.session = none) :
    SiteStep s (.take payload) { s with listener := s.listener.runChat (requestSession payload) }
  | reply : SiteStep s .reply { s with listener := s.listener.done }
  | chat {k sessionId} (absent : s.requests k = none) :
    SiteStep s (.chat k sessionId)
      (s.setRequest k (Task.fresh.runChat (Agent.normalizeSession sessionId)))
  | answer {k task} (asked : s.requests k = some task) :
    SiteStep s (.answer k) (s.setRequest k task.done)
  | approval {a agent} (handles : ∀ tool getcwd requestId call,
      a ≠ .execute tool getcwd requestId call) (step : AgentStep s.agent a agent) :
    SiteStep s (.approval a) { s with agent }
  | execute {turn tool getcwd requestId command workingDir session activeSession agent}
      (task : s.task turn = some ⟨some session, activeSession⟩)
      (step : AgentStep s.agent (.execute tool getcwd requestId
        { command, workingDir, sessionKey := none, activeSession }) agent) :
    SiteStep s (.execute turn tool getcwd requestId command workingDir) (s.ask turn session agent)

theorem siteStep_of_step {s s' : Site} {act : SiteAction} (h : s.step act = some s') :
    SiteStep s act s' := by
  cases act with
  | take payload =>
    simp only [Site.step] at h
    split at h
    · exact absurd h (by simp)
    next hidle => obtain rfl := Option.some.inj h; exact .take hidle
  | reply => obtain rfl := Option.some.inj h; exact .reply
  | chat k sessionId =>
    simp only [Site.step] at h
    split at h
    · exact absurd h (by simp)
    next habsent => obtain rfl := Option.some.inj h; exact .chat habsent
  | answer k =>
    obtain ⟨task, htask, rfl⟩ := Option.map_eq_some_iff.mp h
    exact .answer htask
  | approval a =>
    cases a with
    | execute => exact absurd h (by simp [Site.step])
    | approve | handle =>
      obtain ⟨agent, hagent, rfl⟩ := Option.map_eq_some_iff.mp h
      exact .approval nofun (agentStep_of_step hagent)
  | execute turn tool getcwd requestId command workingDir =>
    simp only [Site.step] at h
    split at h
    next session active htask =>
      obtain ⟨agent, hagent, rfl⟩ := Option.map_eq_some_iff.mp h
      exact .execute htask (agentStep_of_step hagent)
    next => exact absurd h (by simp)

/-- The agent with its turns as a machine. -/
def site (tools : Registry) : Machine Site SiteAction where
  init := .boot tools
  step := Site.step

/-- The entry is recorded for the session, so that an approval that gives this session and resumes
at all resumes it. -/
structure Belongs (entry : Pending) (session : String) : Prop where
  sessionKey : entry.sessionKey = session
  resumes : ∀ body run, body.sessionId = some session → run.success = true →
    (body.autoResume && (run.exitCode = 0 || body.resumeOnFailure)) = true →
      ∃ turn response, afterRun body entry run = .resume turn response ∧ turn.sessionKey = session

/-! ### Resuming -/

section Resume

variable {body : ApproveBody} {entry : Pending} {session : String}

/-- A normalised session that a client names is the session the route compares with. -/
theorem session_of_normalized (hs : Normalized session) (hbody : body.sessionId = some session) :
    body.session = some session := by
  simp [ApproveBody.session, hbody, hs.stripped, hs.ne_empty, hs.colon]

theorem belongs_of_sessionKey (hs : Normalized session) (hkey : entry.sessionKey = session) :
    Belongs entry session where
  sessionKey := hkey
  resumes body run hbody hsuccess hresume := by
    have hsession : body.session = some session := session_of_normalized hs hbody
    have hsame : ∀ other, body.session = some other → other = entry.sessionKey := fun other h =>
      (Option.some.inj (hsession.symm.trans h)).symm.trans hkey.symm
    obtain ⟨turn, response, hafter⟩ := exists_resume hsame hsuccess hresume
    obtain ⟨-, hturn, -⟩ := session_of_resume hafter
    exact ⟨turn, response, hafter, hturn.trans hkey⟩

end Resume

/-! ### What is kept of an entry -/

/-- `P` holds of every entry and its request id: of those in the tables, of those that a handler has
taken, and of one for every turn that is resumed. -/
structure EveryEntry (P : String → Pending → Prop) (a : Agent) : Prop where
  pending : ∀ name tool id entry, a.tools.get name = some (.gatewayExec tool) →
    tool.pending.get id = some entry → P id entry
  taken : ∀ h body pc entry, a.handlers h = some ⟨body, pc⟩ → pc.entry = some entry →
    P body.requestId entry
  resuming : ∀ h body turn response, a.handlers h = some ⟨body, .resuming turn response⟩ →
    ∃ entry, P body.requestId entry ∧ turn.sessionKey = entry.sessionKey

section Entries

variable {P Q : String → Pending → Prop} {a a' : Agent} {h : ℕ} {body : ApproveBody} {pc : Pc}
  {act : HandlerAct} {b : Action} {tools : Registry} {taken : List (ℕ × String)}
  {started : List Start}

theorem everyEntry_boot (hboot : EmptyTables tools) : EveryEntry P (.boot tools) where
  pending name tool id entry hget hentry := by simp [hboot name tool hget] at hentry
  taken h body pc entry hat := by simp [Agent.boot] at hat
  resuming h body turn response hat := by simp [Agent.boot] at hat

theorem EveryEntry.mono (hs : EveryEntry P a) (hPQ : ∀ id entry, P id entry → Q id entry) :
    EveryEntry Q a where
  pending name tool id entry hget hentry := hPQ id entry (hs.pending name tool id entry hget hentry)
  taken h body pc entry hat hpc := hPQ _ entry (hs.taken h body pc entry hat hpc)
  resuming h body turn response hat := by
    obtain ⟨entry, hentry, hkey⟩ := hs.resuming h body turn response hat
    exact ⟨entry, hPQ _ entry hentry, hkey⟩

/-- A handler moves, and no entry is added to a table. -/
theorem EveryEntry.move (hs : EveryEntry P a)
    (htools : ∀ name tool id entry, tools.get name = some (.gatewayExec tool) →
      tool.pending.get id = some entry →
        ∃ name' tool', a.tools.get name' = some (.gatewayExec tool') ∧
          tool'.pending.get id = some entry)
    (hentry : ∀ entry, pc.entry = some entry → P body.requestId entry)
    (hresuming : ∀ turn response, pc = .resuming turn response →
      ∃ entry, P body.requestId entry ∧ turn.sessionKey = entry.sessionKey) :
    EveryEntry P { a.setHandler h body pc with tools, taken, started } where
  pending name tool id entry hget hpending := by
    obtain ⟨name', tool', hget', hpending'⟩ := htools name tool id entry hget hpending
    exact hs.pending name' tool' id entry hget' hpending'
  taken h' body' pc' entry hat hpc := by
    simp only [Agent.setHandler, Function.update_apply] at hat
    split_ifs at hat
    · obtain ⟨rfl, rfl⟩ := Handler.mk.inj (Option.some.inj hat)
      exact hentry entry hpc
    · exact hs.taken h' body' pc' entry hat hpc
  resuming h' body' turn response hat := by
    simp only [Agent.setHandler, Function.update_apply] at hat
    split_ifs at hat
    · obtain ⟨rfl, rfl⟩ := Handler.mk.inj (Option.some.inj hat)
      exact hresuming turn response rfl
    · exact hs.resuming h' body' turn response hat

/-- After the command, the turn that is resumed is one for the session of the entry. -/
theorem EveryEntry.afterProcess (hs : EveryEntry P a) {entry : Pending}
    (hentry : P body.requestId entry) (process : ProcessOutcome) :
    EveryEntry P (a.setHandler h body (.afterProcess body entry process)) := by
  refine hs.move (fun name tool id e hget he => ⟨name, tool, hget, he⟩) ?_ ?_
  · intro e he
    unfold Pc.afterProcess at he
    split at he <;> simp [Pc.entry] at he
  · intro turn response hpc
    unfold Pc.afterProcess at hpc
    split at hpc
    · exact absurd hpc (by simp)
    next hafter =>
      obtain ⟨rfl, rfl⟩ := Pc.resuming.inj hpc
      exact ⟨entry, hentry, (session_of_resume hafter).2.1⟩

theorem EveryEntry.handlerStep (hs : EveryEntry P a) (hat : a.handlers h = some ⟨body, pc⟩)
    (hstep : HandlerStep a h body pc act a') : EveryEntry P a' := by
  have hentry := hs.taken h body pc
  cases hstep with
  | lookup =>
    refine hs.move (fun name tool id e hget he => ⟨name, tool, hget, he⟩) ?_ ?_ <;>
      unfold Pc.afterLookup <;> split <;> simp [Pc.entry]
  | @take name tool entry hget hpending =>
    refine hs.move (fun name' tool' id e hget' he => ?_) ?_ ?_
    · -- popping an entry leaves the other ones
      rw [Dict.get_set] at hget'
      split_ifs at hget' with hname
      · obtain rfl := Tool.gatewayExec.inj (Option.some.inj hget')
        rw [GatewayExecTool.forget, Dict.get_erase] at he
        split_ifs at he
        exact ⟨name, tool, hget, he⟩
      · exact ⟨name', tool', hget', he⟩
    · intro e he
      obtain rfl : entry = e := by
        unfold Pc.afterTake at he
        split_ifs at he <;> exact Option.some.inj he
      exact hs.pending name tool body.requestId entry hget hpending
    · intro turn response hpc
      unfold Pc.afterTake at hpc
      split_ifs at hpc
  | gone =>
    exact hs.move (fun name tool id e hget he => ⟨name, tool, hget, he⟩) (by simp [Pc.entry])
      (by simp)
  | token | spawn =>
    exact hs.move (fun name tool id e hget he => ⟨name, tool, hget, he⟩)
      (fun e he => hentry e hat he) (by simp)
  | spawnRaised | exit => exact hs.afterProcess (hentry _ hat rfl) _
  | resumed =>
    exact hs.move (fun name tool id e hget he => ⟨name, tool, hget, he⟩) (by simp [Pc.entry])
      (by simp)

/-- What a step issues: nothing, or the entry of one call under a fresh id. -/
theorem AgentStep.exists_issued (hstep : AgentStep a b a') :
    ∃ new, a'.issued = a.issued ++ new ∧ (new = [] ∨
      ∃ name getcwd requestId call tool, b = .execute name getcwd requestId call ∧
        a.Fresh requestId ∧
        new = [⟨requestId, name, getcwd, call,
          (GatewayExecTool.block tool getcwd requestId call).entry⟩]) := by
  cases hstep with
  | issue hget hgated hfresh => exact ⟨_, rfl, .inr ⟨_, _, _, _, _, rfl, hfresh, rfl⟩⟩
  | direct | approve => exact ⟨[], (List.append_nil _).symm, .inl rfl⟩
  | handle hat hstep =>
    exact ⟨[], by rw [hstep.issued_eq, List.append_nil], .inl rfl⟩

/-- **Entries keep what they have when they are added**, wherever they go. -/
theorem EveryEntry.step (hs : EveryEntry P a) (hstep : AgentStep a b a')
    (hnew : ∀ i ∈ a'.issued.drop a.issued.length, P i.requestId i.entry) : EveryEntry P a' := by
  cases hstep with
  | @issue name getcwd requestId call tool hget hgated hfresh =>
    refine ⟨fun name' tool' id entry hget' hentry => ?_, hs.taken, hs.resuming⟩
    rw [Agent.issue, Dict.get_set] at hget'
    split_ifs at hget'
    · obtain rfl := Tool.gatewayExec.inj (Option.some.inj hget')
      rw [GatewayExecTool.record, Dict.get_set] at hentry
      split_ifs at hentry with hid
      · obtain rfl := Option.some.inj hentry
        rw [hid]
        exact hnew ⟨requestId, name, getcwd, call, _⟩ (by simp [Agent.issue])
      · exact hs.pending name tool id entry hget hentry
    · exact hs.pending name' tool' id entry hget' hentry
  | direct => exact ⟨hs.pending, hs.taken, hs.resuming⟩
  | approve =>
    exact hs.move (fun name tool id e hget he => ⟨name, tool, hget, he⟩) (by simp [Pc.entry])
      (by simp)
  | handle hat hstep => exact hs.handlerStep hat hstep

end Entries

/-! ### The sessions of entries and turns are normalised -/

/-- Every entry and every resumed turn of the agent has a normalised session. -/
structure KeysNormalized (a : Agent) : Prop where
  pending : ∀ name tool id entry, a.tools.get name = some (.gatewayExec tool) →
    tool.pending.get id = some entry → Normalized entry.sessionKey
  entry : ∀ h body pc entry, a.handlers h = some ⟨body, pc⟩ → pc.entry = some entry →
    Normalized entry.sessionKey
  resuming : ∀ h body turn response, a.handlers h = some ⟨body, .resuming turn response⟩ →
    Normalized turn.sessionKey

section Keys

variable {a a' : Agent} {b : Action} {tools : Registry}

theorem keysNormalized_iff :
    KeysNormalized a ↔ EveryEntry (fun _ entry => Normalized entry.sessionKey) a := by
  constructor
  · intro hs
    refine ⟨hs.pending, hs.entry, fun h body turn response hat => ?_⟩
    exact ⟨⟨"", "", turn.sessionKey, "", ""⟩, hs.resuming h body turn response hat, rfl⟩
  · intro hs
    refine ⟨hs.pending, hs.taken, fun h body turn response hat => ?_⟩
    obtain ⟨entry, hentry, hkey⟩ := hs.resuming h body turn response hat
    rwa [hkey]

theorem keysNormalized_boot (hboot : EmptyTables tools) : KeysNormalized (.boot tools) :=
  keysNormalized_iff.mpr (everyEntry_boot hboot)

theorem KeysNormalized.step (hs : KeysNormalized a) (hstep : AgentStep a b a')
    (hcall : ∀ tool getcwd requestId call, b = .execute tool getcwd requestId call →
      Normalized (call.sessionKey.getD (call.activeSession.getD "api:direct"))) :
    KeysNormalized a' := by
  refine keysNormalized_iff.mpr ((keysNormalized_iff.mp hs).step hstep fun i hi => ?_)
  obtain ⟨new, hissued, hnew⟩ := hstep.exists_issued
  rw [hissued, List.drop_left] at hi
  rcases hnew with rfl | ⟨name, getcwd, requestId, call, tool, hb, -, rfl⟩
  · simp at hi
  · obtain rfl := List.mem_singleton.mp hi
    exact hcall name getcwd requestId call hb

end Keys

/-! ### Which session an entry is recorded for -/

/-- In the context of the task, `ACTIVE_SESSION` is the session of its turn. -/
def Task.Tracks (task : Task) : Prop :=
  ∀ session, task.session = some session → task.activeSession = some session ∧ Normalized session

/-- The session that an entry added in the turn is recorded for. -/
def TurnRef.recordedFor (turn : TurnRef) (session : String) : String :=
  if turn.isResumed then "api:direct" else session

/-- Turns through `_run_chat` track their session, and entries are recorded accordingly. -/
structure Recorded (s : Site) : Prop where
  keys : KeysNormalized s.agent
  listener : s.listener.Tracks
  requests : ∀ k task, s.requests k = some task → task.Tracks
  asked : ∀ x ∈ s.asked, Normalized x.session ∧
    x.issued.entry.sessionKey = x.turn.recordedFor x.session

section Recorded

variable {s s' : Site} {tools : Registry} {act : SiteAction} {task : Task} {session : String}

theorem normalized_direct : Normalized "api:direct" := normalized_normalizeSessionId none

theorem Task.tracks_runChat (hs : Normalized session) : (task.runChat session).Tracks := by
  intro session' h
  obtain rfl := Option.some.inj h
  exact ⟨rfl, hs⟩

theorem Task.tracks_done : task.done.Tracks := fun _ h => by simp [Task.done] at h

theorem recorded_boot (hboot : EmptyTables tools) : Recorded (.boot tools) where
  keys := keysNormalized_boot hboot
  listener _ h := by simp [Site.boot, Task.fresh] at h
  requests _ _ h := by simp [Site.boot] at h
  asked _ h := by simp [Site.boot] at h

/-- What `ACTIVE_SESSION.get("api:direct")` returns in a turn. -/
theorem Recorded.activeSession (h : Recorded s) {turn : TurnRef} {active : Option String}
    (htask : s.task turn = some ⟨some session, active⟩) :
    Normalized session ∧ active.getD "api:direct" = turn.recordedFor session := by
  cases turn with
  | bus =>
    obtain ⟨hactive, hsession⟩ := h.listener session (by rw [Option.some.inj htask])
    rw [Option.some.inj htask] at hactive
    exact ⟨hsession, by rw [show active = some session from hactive]; rfl⟩
  | chat k =>
    obtain ⟨hactive, hsession⟩ := h.requests k _ htask session rfl
    exact ⟨hsession, by rw [show active = some session from hactive]; rfl⟩
  | resumed k =>
    simp only [Site.task] at htask
    split at htask
    next body turn response hat =>
      -- nothing was set in the context of the request
      obtain ⟨hsession, rfl⟩ := Task.mk.inj (Option.some.inj htask)
      obtain rfl := Option.some.inj hsession
      exact ⟨h.keys.resuming k body turn response hat, rfl⟩
    next => exact absurd htask (by simp)

theorem Recorded.setRequest (h : Recorded s) {k : ℕ} (htask : task.Tracks) :
    Recorded (s.setRequest k task) := by
  refine ⟨h.keys, h.listener, fun k' task' hk' => ?_, h.asked⟩
  simp only [Site.setRequest, Function.update_apply] at hk'
  split_ifs at hk'
  · obtain rfl := Option.some.inj hk'
    exact htask
  · exact h.requests k' task' hk'

/-- A call of the tool in a turn. -/
theorem Recorded.ask {turn : TurnRef} {tool getcwd requestId : String} {call : ExecuteCall}
    {agent : Agent} (h : Recorded s) (hsession : Normalized session)
    (hcall : call.sessionKey.getD (call.activeSession.getD "api:direct") = turn.recordedFor session)
    (hstep : AgentStep s.agent (.execute tool getcwd requestId call) agent) :
    Recorded (s.ask turn session agent) := by
  have hrecorded : Normalized (turn.recordedFor session) := by
    unfold TurnRef.recordedFor
    split_ifs
    · exact normalized_direct
    · exact hsession
  refine ⟨h.keys.step hstep fun _ _ _ _ heq => ?_, h.listener, h.requests, fun x hx => ?_⟩
  · obtain ⟨-, -, -, rfl⟩ := Action.execute.inj heq
    rw [hcall]
    exact hrecorded
  · rcases List.mem_append.mp hx with hold | hnew
    · exact h.asked x hold
    · cases hstep with
      | issue hget hgated hfresh =>
        simp only [Agent.issue, List.drop_left, List.map_singleton, List.mem_singleton] at hnew
        obtain rfl := hnew
        exact ⟨hsession, hcall⟩
      | direct => simp at hnew

theorem Recorded.step (h : Recorded s) (hstep : SiteStep s act s') : Recorded s' := by
  cases hstep with
  | @take payload hidle =>
    -- the task serves the session of the request that it took
    have htracks : (s.listener.runChat (requestSession payload)).Tracks :=
      Task.tracks_runChat (normalized_normalizeSessionId _)
    exact ⟨h.keys, htracks, h.requests, h.asked⟩
  | reply => exact ⟨h.keys, Task.tracks_done, h.requests, h.asked⟩
  | chat => exact h.setRequest (Task.tracks_runChat (normalized_normalizeSessionId _))
  | answer => exact h.setRequest Task.tracks_done
  | approval handles hagent =>
    exact ⟨h.keys.step hagent fun _ _ _ _ heq => absurd heq (handles _ _ _ _), h.listener,
      h.requests, h.asked⟩
  | execute htask hagent =>
    -- the entry is recorded for the active session of the task
    obtain ⟨hsession, hactive⟩ := h.activeSession htask
    exact h.ask hsession hactive hagent

theorem recorded_run {acts : List SiteAction} (hboot : EmptyTables tools)
    (hrun : (site tools).run acts = some s) : Recorded s :=
  Machine.run_invariant' (fun h hstep => h.step (siteStep_of_step hstep)) (recorded_boot hboot) hrun

end Recorded

/-! ### The main result -/

/-- **Attribution.** In every run, an entry belongs to the session of the turn it was added in
exactly when the turn was not resumed by an approval, or was one of `api:direct`. -/
theorem belongs_iff {tools : Registry} {acts : List SiteAction} {s : Site}
    (hboot : EmptyTables tools) (hrun : (site tools).run acts = some s) {x : Asked}
    (hx : x ∈ s.asked) :
    Belongs x.issued.entry x.session ↔ x.turn.isResumed = false ∨ x.session = "api:direct" := by
  obtain ⟨hsession, hkey⟩ := (recorded_run hboot hrun).asked x hx
  have hbelongs : Belongs x.issued.entry x.session ↔ x.turn.recordedFor x.session = x.session := by
    rw [← hkey]
    exact ⟨fun h => h.sessionKey, belongs_of_sessionKey hsession⟩
  rw [hbelongs, TurnRef.recordedFor]
  cases x.turn.isResumed with
  | false => simp
  | true => simp [eq_comm]

/-- A command is blocked in a turn of Alice's session, approved and run, and in the turn that is
resumed another command is blocked. -/
def chainedApproval : List SiteAction :=
  [.chat 0 (some "alice"), .execute (.chat 0) "exec" "/root" "r1" "make" none, .answer 0,
    .approval (.approve 0 ⟨"r1", some "alice", true, false⟩), .approval (.handle 0 .lookup),
    .approval (.handle 0 .take), .approval (.handle 0 (.spawn none)),
    .approval (.handle 0 (.exit (.exited "done" "" 0))),
    .execute (.resumed 0) "exec" "/root" "r2" "make install" none]

theorem belongs_iff_chainedApproval :
    ∃ s x, (site gatedTools).run chainedApproval = some s ∧ x ∈ s.asked ∧
      Belongs x.issued.entry x.session :=
  ⟨_, _, rfl, List.mem_cons_self .., (belongs_iff booted_gatedTools.emptyTables
    (show (site gatedTools).run chainedApproval = some _ from rfl)
    (List.mem_cons_self ..)).mpr (.inl rfl)⟩

/-- **The session is lost on the way**: the second command is recorded for `api:direct`. -/
theorem resumed_asks_for_direct : ¬∀ tools acts s, EmptyTables tools →
    (site tools).run acts = some s → ∀ x ∈ s.asked, Belongs x.issued.entry x.session := by
  intro hlaw
  have h := hlaw gatedTools chainedApproval _ booted_gatedTools.emptyTables rfl _
    (List.mem_cons_of_mem _ (List.mem_cons_self ..))
  exact absurd h.sessionKey (by decide)

end Nanogate.Approval
