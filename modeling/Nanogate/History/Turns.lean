import Mathlib.Data.List.Basic
import Mathlib.Logic.Function.Basic
import Nanogate.History.Persistence
import Nanogate.Semantics.Machine

/-!
# Conversation turns and the copy of the history in Redis

Turns come from the bus, from resumed approvals and from the agent's own chat route. Only
the bus brings the file in line with Redis before a turn and Redis in line with the file
after it; the other entry points append to the file and leave the copy behind. So the
copy written back before a bus turn may be older than the file it replaces. The
invariant is kept by every run in which that does not happen.

Turns in progress may overlap, and the agent may go down at any await; the workspace
survives it. The turns that completed are kept as history.

## Main definitions

* `SessionFormat` — how completed turns are appended to a session file and read from it
* `Activity`, `Conversations`, `machine` — turns in progress, and the two copies
* `Kept` — the session file contains every completed turn of the session
* `UpToDate` — a state written back is the one the file would be saved as

## Main results

* `kept_of_upToDate` — no turn is lost while what is written back is up to date
* `turn_lost_after_resume` — a turn resumed by an approval is lost to the next bus turn
-/

namespace Nanogate.History

open Nanogate.Python Nanogate.Bus Nanogate.Semantics

/-- What the agent's library does with a session file: it appends a completed turn to the
text, which may be missing, and reads the turns from it. It writes no text that would be
mistaken for another one when it is stored. -/
structure SessionFormat (T : Type) (loads : String → Option Json) where
  append : Option FileText → T → FileText
  turns : FileText → List T
  turns_append : ∀ text turn, turns (append text turn) = (text.elim [] turns) ++ [turn]
  plain_append : ∀ text turn, Plain loads (append text turn)

/-! ### Turns in progress -/

/-- Where a turn in progress stands. -/
inductive Phase where
  /-- In `get_session_state`. -/
  | fetching
  /-- The state has arrived and is about to be written over the file. -/
  | fetched (state : Option Json)
  /-- `process_direct` is about to start. -/
  | ready
  /-- In `process_direct`. -/
  | turn
  /-- The turn completed, and its event is being published. -/
  | completed
  /-- The file has been read and `set_session_state` is about to store it. -/
  | saving (state : Json)
  deriving Repr

/-- The state a turn in progress carries from one side to the other. -/
def Phase.state? : Phase → Option Json
  | fetched state => state
  | saving state => some state
  | fetching | ready | turn | completed => none

/-- A turn in progress: its session, whether it came from the bus, and where it stands. -/
structure Activity where
  session : String
  fromBus : Bool
  phase : Phase

/-- The workspace, the states in Redis by key, the turns in progress, and the turns that
completed with their sessions, oldest first. -/
structure Conversations (T : Type) where
  ws : Workspace
  redis : String → Option Json
  activities : ℕ → Option Activity
  completed : List (String × T)

/-- What happens at an await of a turn. -/
inductive Act (T : Type) where
  | fetch
  | restore
  | begin
  /-- `process_direct` completes a turn, or raises. -/
  | finish (turn : Option T)
  | read
  | store

/-- One step of a turn, or a restart of the container. -/
inductive Action (T : Type) where
  /-- The listener has taken a request with a message. -/
  | bus (a : ℕ) (session : String)
  /-- `POST /approve` resumes a turn, or `POST /chat` of the agent starts one. -/
  | direct (a : ℕ) (session : String)
  | act (a : ℕ) (act : Act T)
  | restart

variable {T : Type} {loads : String → Option Json}

namespace Conversations

variable (sys : Conversations T)

/-- A fresh agent with an empty workspace. -/
def fresh : Conversations T := ⟨none, fun _ => none, fun _ => none, []⟩

/-- Replace a turn in progress; `none` ends it. -/
def setActivity (a : ℕ) (activity : Option Activity) : Conversations T :=
  { sys with activities := Function.update sys.activities a activity }

/-- Move a turn in progress to another phase. -/
def goto (a : ℕ) (activity : Activity) (phase : Phase) : Conversations T :=
  sys.setActivity a (some { activity with phase })

/-- The session file of a session. -/
def sessionFile (session : String) : Option FileText := sys.ws.file (safeSessionFilename session)

/-- Append a completed turn to the session file. -/
def complete (format : SessionFormat T loads) (session : String) (turn : T) : Conversations T :=
  { sys with
    ws := sys.ws.write (safeSessionFilename session) (format.append (sys.sessionFile session) turn)
    completed := sys.completed ++ [(session, turn)] }

/-- One step of the turn `a`. -/
def advance (tenantId : String) (format : SessionFormat T loads) (a : ℕ) (activity : Activity) :
    Phase → Act T → Option (Conversations T)
  | .fetching, .fetch =>
    some (sys.goto a activity (.fetched (sys.redis (sessionStateKey tenantId activity.session))))
  | .fetched state, .restore =>
    some { sys.goto a activity .ready with ws := sys.ws.restore loads activity.session state }
  | .ready, .begin => some (sys.goto a activity .turn)
  | .turn, .finish (some turn) =>
    -- only the listener goes on to save the file
    some ((sys.setActivity a
      (if activity.fromBus then some { activity with phase := .completed } else none)).complete
        format activity.session turn)
  | .turn, .finish none => some (sys.setActivity a none)
  | .completed, .read =>
    some (sys.setActivity a ((sys.ws.sessionFile activity.session).map fun text =>
      { activity with phase := .saving (savedState text) }))
  | .saving state, .store =>
    some { sys.setActivity a none with
      redis := Function.update sys.redis (sessionStateKey tenantId activity.session) (some state) }
  | _, _ => none

/-- One step. -/
def step (tenantId : String) (format : SessionFormat T loads) : Action T → Option (Conversations T)
  | .bus a session =>
    match sys.activities a with
    | some _ => none
    | none => some (sys.setActivity a (some ⟨session, true, .fetching⟩))
  | .direct a session =>
    match sys.activities a with
    | some _ => none
    | none => some (sys.setActivity a (some ⟨session, false, .ready⟩))
  | .act a act =>
    match sys.activities a with
    | some activity => sys.advance tenantId format a activity activity.phase act
    | none => none
  | .restart => some { sys with activities := fun _ => none }

/-- The completed turns of a session. -/
def turnsOf (session : String) : List T :=
  (sys.completed.filter fun p => p.1 = session).map Prod.snd

/-- The turns a session file holds. -/
def fileTurns (format : SessionFormat T loads) (session : String) : List T :=
  (sys.sessionFile session).elim [] format.turns

/-- The session file contains every completed turn of the session. -/
def Kept (format : SessionFormat T loads) (session : String) : Prop :=
  (sys.turnsOf session).Sublist (sys.fileTurns format session)

/-- The next step of some turn of the session is the start of `process_direct`. -/
def AboutToStart (session : String) : Prop :=
  ∃ a activity, sys.activities a = some activity ∧ activity.session = session ∧
    activity.phase = .ready

/-- The state that a step writes over a session file, and the text that is there. -/
def overwrites : Action T → Option (Json × FileText)
  | .act a .restore =>
    match sys.activities a with
    | some ⟨session, _, .fetched (some state)⟩ =>
      (sys.sessionFile session).map fun text => (state, text)
    | _ => none
  | _ => none

/-- A state written over a session file is the one that file would be saved as. -/
def UpToDate (action : Action T) : Prop :=
  ∀ p ∈ sys.overwrites action, p.1 = savedState p.2

instance (action : Action T) : Decidable (sys.UpToDate action) :=
  inferInstanceAs (Decidable (∀ p ∈ _, _))

end Conversations

/-- Everything a step of the turn `a` can do. -/
inductive TurnStep (tenantId : String) (format : SessionFormat T loads) (sys : Conversations T)
    (a : ℕ) (activity : Activity) : Phase → Act T → Conversations T → Prop where
  | fetch :
    TurnStep tenantId format sys a activity .fetching .fetch
      (sys.goto a activity (.fetched (sys.redis (sessionStateKey tenantId activity.session))))
  | restore {state} :
    TurnStep tenantId format sys a activity (.fetched state) .restore
      { sys.goto a activity .ready with ws := sys.ws.restore loads activity.session state }
  | begin : TurnStep tenantId format sys a activity .ready .begin (sys.goto a activity .turn)
  | complete {turn} :
    TurnStep tenantId format sys a activity .turn (.finish (some turn))
      ((sys.setActivity a
        (if activity.fromBus then some { activity with phase := .completed } else none)).complete
          format activity.session turn)
  | raise : TurnStep tenantId format sys a activity .turn (.finish none) (sys.setActivity a none)
  | read :
    TurnStep tenantId format sys a activity .completed .read
      (sys.setActivity a ((sys.ws.sessionFile activity.session).map fun text =>
        { activity with phase := .saving (savedState text) }))
  | store {state} :
    TurnStep tenantId format sys a activity (.saving state) .store
      { sys.setActivity a none with
        redis :=
          Function.update sys.redis (sessionStateKey tenantId activity.session) (some state) }

theorem turnStep_of_advance {tenantId : String} {format : SessionFormat T loads}
    {sys sys' : Conversations T} {a : ℕ} {activity : Activity} {phase : Phase} {act : Act T}
    (h : sys.advance tenantId format a activity phase act = some sys') :
    TurnStep tenantId format sys a activity phase act sys' := by
  cases phase <;> cases act <;> simp only [Conversations.advance, reduceCtorEq] at h
  case fetching.fetch => obtain rfl := Option.some_inj.mp h; exact .fetch
  case fetched.restore => obtain rfl := Option.some_inj.mp h; exact .restore
  case ready.begin => obtain rfl := Option.some_inj.mp h; exact .begin
  case turn.finish turn =>
    cases turn <;> obtain rfl := Option.some_inj.mp h
    · exact .raise
    · exact .complete
  case completed.read => obtain rfl := Option.some_inj.mp h; exact .read
  case saving.store => obtain rfl := Option.some_inj.mp h; exact .store

/-- The conversations of one agent. -/
def machine (tenantId : String) (format : SessionFormat T loads) :
    Machine (Conversations T) (Action T) where
  init := .fresh
  step sys := sys.step tenantId format

/-! ### The invariant -/

/-- A state that some file was saved as. -/
def SavedFromFile (loads : String → Option Json) (state : Json) : Prop :=
  ∃ text : FileText, Plain loads text ∧ state = savedState text

/-- The session files hold all completed turns, and every state on its way between the
workspace and Redis is the state of some session file. -/
structure Recorded (format : SessionFormat T loads) (sys : Conversations T) : Prop where
  kept : ∀ session, sys.Kept format session
  plain : ∀ name text, sys.ws.file name = some text → Plain loads text
  stored : ∀ key state, sys.redis key = some state → SavedFromFile loads state
  carried : ∀ a activity state, sys.activities a = some activity →
    activity.phase.state? = some state → SavedFromFile loads state

namespace Recorded

variable {tenantId : String} {format : SessionFormat T loads} {sys sys' : Conversations T} {a : ℕ}
  {activity : Activity} {session : String} {state : Option Json}

theorem fresh : Recorded format .fresh where
  kept session := by
    change List.Sublist [] _
    exact List.nil_sublist _
  plain := by simp [Conversations.fresh, Workspace.file]
  stored := by simp [Conversations.fresh]
  carried := by simp [Conversations.fresh]

/-- Turns in progress may change, as long as the states they carry come from files. -/
theorem setActivity (h : Recorded format sys) (activity' : Option Activity)
    (hcarried : ∀ activity st, activity' = some activity → activity.phase.state? = some st →
      SavedFromFile loads st) : Recorded format (sys.setActivity a activity') where
  kept := h.kept
  plain := h.plain
  stored := h.stored
  carried a' activity st hact hst := by
    simp only [Conversations.setActivity, Function.update_apply] at hact
    split_ifs at hact with ha
    · exact hcarried activity st hact hst
    · exact h.carried a' activity st hact hst

theorem goto (h : Recorded format sys) (phase : Phase)
    (hcarried : ∀ st, phase.state? = some st → SavedFromFile loads st) :
    Recorded format (sys.goto a activity phase) := by
  refine h.setActivity _ ?_
  rintro _ st ⟨⟩ hst
  exact hcarried st hst

/-- A completed turn is appended to the file of its session. -/
theorem complete (h : Recorded format sys) (session : String) (turn : T) :
    Recorded format (sys.complete format session turn) where
  kept s := by
    have hturns : (sys.complete format session turn).turnsOf s =
        sys.turnsOf s ++ if session = s then [turn] else [] := by
      simp only [Conversations.complete, Conversations.turnsOf, List.filter_append,
        List.map_append, List.filter_cons, List.filter_nil, decide_eq_true_eq]
      split_ifs <;> rfl
    have hfile : (sys.complete format session turn).fileTurns format s =
        if safeSessionFilename s = safeSessionFilename session
        then sys.fileTurns format s ++ [turn] else sys.fileTurns format s := by
      simp only [Conversations.complete, Conversations.fileTurns, Conversations.sessionFile,
        Workspace.file_write]
      split_ifs with hname
      · rw [hname]
        exact format.turns_append _ _
      · rfl
    rw [Conversations.Kept, hturns, hfile]
    split_ifs with hs hname hname
    · exact (h.kept s).append (List.Sublist.refl _)
    · exact absurd (hs ▸ rfl) hname
    · rw [List.append_nil]
      exact (h.kept s).trans (List.sublist_append_left _ _)
    · rw [List.append_nil]
      exact h.kept s
  plain name text hfile := by
    simp only [Conversations.complete, Workspace.file_write] at hfile
    split_ifs at hfile with hname
    · obtain rfl := Option.some_inj.mp hfile
      exact format.plain_append _ _
    · exact h.plain name text hfile
  stored := h.stored
  carried := h.carried

/-- A state that comes from a file is written back as that file, if at all. -/
theorem restored (hstate : ∀ st, state = some st → SavedFromFile loads st) {text : FileText}
    (hfile : (sys.ws.restore loads session state).file (safeSessionFilename session) =
      some text) :
    sys.sessionFile session = some text ∨
      (Plain loads text ∧ state = some (savedState text)) := by
  rcases sys.ws.file_restore loads session state with hsame | ⟨st, text', rfl, htext, hnew⟩
  · exact .inl (hsame.symm.trans hfile)
  · obtain ⟨text₀, hplain, rfl⟩ := hstate st rfl
    obtain rfl := Option.some_inj.mp (hnew.symm.trans hfile)
    obtain rfl := restoredText_savedState hplain htext
    exact .inr ⟨hplain, rfl⟩

/-- Writing back a state that is up to date leaves an existing file as it is. -/
theorem restore (h : Recorded format sys)
    (hstate : ∀ st, state = some st → SavedFromFile loads st)
    (hfresh : ∀ st text, state = some st → sys.sessionFile session = some text →
      st = savedState text) :
    Recorded format { sys with ws := sys.ws.restore loads session state } where
  kept s := by
    change (sys.turnsOf s).Sublist
      (((sys.ws.restore loads session state).file (safeSessionFilename s)).elim [] format.turns)
    by_cases hname : safeSessionFilename s = safeSessionFilename session
    · have hkept := h.kept s
      rw [Conversations.Kept, Conversations.fileTurns, Conversations.sessionFile, hname] at hkept
      rw [hname]
      rcases sys.ws.file_restore loads session state with hsame | ⟨st, text, rfl, htext, hnew⟩
      · rw [hsame]
        exact hkept
      · cases hold : sys.ws.file (safeSessionFilename session) with
        | none =>
          rw [hold] at hkept
          exact (List.sublist_nil.mp hkept) ▸ List.nil_sublist _
        | some old =>
          -- what is written back is the text that is already there
          obtain rfl := hfresh st old rfl hold
          obtain rfl := restoredText_savedState (h.plain _ _ hold) htext
          rw [hnew]
          rwa [hold] at hkept
    · rw [Workspace.file_restore_of_ne _ hname]
      exact h.kept s
  plain name text hfile := by
    by_cases hname : name = safeSessionFilename session
    · subst hname
      rcases restored hstate hfile with hold | ⟨hplain, -⟩
      · exact h.plain _ _ hold
      · exact hplain
    · exact h.plain name text ((Workspace.file_restore_of_ne _ hname).symm.trans hfile)
  stored := h.stored
  carried := h.carried

/-- **Step lemma for a turn**, one case for each phase. -/
theorem turnStep {phase : Phase} {act : Act T} (h : Recorded format sys)
    (hact : sys.activities a = some activity) (hphase : activity.phase = phase)
    (hgood : sys.UpToDate (.act a act))
    (hstep : TurnStep tenantId format sys a activity phase act sys') : Recorded format sys' := by
  cases hstep with
  | fetch => exact h.goto _ fun st hst => h.stored _ st hst
  | @restore state =>
    -- what was fetched was saved from a file of the session
    have hstate : ∀ st, state = some st → SavedFromFile loads st := fun st hst =>
      h.carried a activity st hact (by rw [hphase]; exact hst)
    have hfresh : ∀ st text, state = some st → sys.sessionFile activity.session = some text →
        st = savedState text := by
      rintro st text rfl hfile
      refine hgood (st, text) ?_
      obtain ⟨session, fromBus, phase⟩ := activity
      obtain rfl : phase = .fetched (some st) := hphase
      simp [Conversations.overwrites, hact, hfile]
    exact (h.restore hstate hfresh).goto .ready (by simp [Phase.state?])
  | begin => exact h.goto .turn (by simp [Phase.state?])
  | complete =>
    refine (h.setActivity _ ?_).complete _ _
    intro activity' st hact' hst
    split_ifs at hact'
    obtain rfl := Option.some_inj.mp hact'
    simp [Phase.state?] at hst
  | raise => exact h.setActivity _ (by simp)
  | read =>
    refine h.setActivity _ ?_
    intro activity' st hact' hst
    -- what is read is saved in turn
    obtain ⟨text, htext, rfl⟩ := Option.map_eq_some_iff.mp hact'
    obtain ⟨name, hname⟩ := Workspace.exists_file_of_sessionFile _ htext
    exact ⟨text, h.plain name text hname, (Option.some_inj.mp hst).symm⟩
  | @store state =>
    have hstate : SavedFromFile loads state :=
      h.carried a activity state hact (by rw [hphase]; rfl)
    have hdone := h.setActivity (a := a) none (by simp)
    refine ⟨hdone.kept, hdone.plain, fun key st hst => ?_, hdone.carried⟩
    simp only [Function.update_apply] at hst
    split_ifs at hst
    · obtain rfl := Option.some_inj.mp hst
      exact hstate
    · exact h.stored key st hst

/-- **Step lemma.** -/
theorem step {action : Action T} (h : Recorded format sys) (hgood : sys.UpToDate action)
    (hstep : sys.step tenantId format action = some sys') : Recorded format sys' := by
  cases action <;> simp only [Conversations.step] at hstep
  case bus =>
    split at hstep
    next => exact absurd hstep (by simp)
    next =>
      obtain rfl := Option.some_inj.mp hstep
      refine h.setActivity _ ?_
      rintro _ st ⟨⟩ hst
      simp [Phase.state?] at hst
  case direct =>
    split at hstep
    next => exact absurd hstep (by simp)
    next =>
      obtain rfl := Option.some_inj.mp hstep
      refine h.setActivity _ ?_
      rintro _ st ⟨⟩ hst
      simp [Phase.state?] at hst
  case act =>
    split at hstep
    next hact => exact h.turnStep hact rfl hgood (turnStep_of_advance hstep)
    next => exact absurd hstep (by simp)
  case restart =>
    obtain rfl := Option.some_inj.mp hstep
    exact ⟨h.kept, h.plain, h.stored, by simp⟩

end Recorded

/-- **No turn is lost** while every state written back is up to date: wherever such a run
leads, and so at the start of each `process_direct`, the session file contains every
completed turn of the session. -/
theorem kept_of_upToDate {tenantId : String} {format : SessionFormat T loads}
    {acts : List (Action T)} {sys : Conversations T}
    (hgood : (machine tenantId format).AllSteps Conversations.UpToDate .fresh acts)
    (hrun : (machine tenantId format).run acts = some sys) (session : String) :
    sys.Kept format session := by
  have h : Recorded format sys :=
    Machine.run_invariant (fun h hgood hstep => h.step hgood hstep) .fresh hgood hrun
  exact h.kept session

/-! ### A turn that only the file knows -/

/-- The messages in a session file that is an object with a list of them. -/
def messages : FileText → List String
  | .json v =>
    match v.get "messages" with
    | some (.arr xs) => xs.filterMap Json.str?
    | _ => []
  | .text _ => []

/-- Session files that are JSON objects with a list of messages, one for each turn. -/
def messageFormat : SessionFormat String fun _ => none where
  append text turn := .json (.obj
    [("messages", .arr ((text.elim [] messages ++ [turn]).map Json.str))])
  turns := messages
  turns_append text turn := by
    have hstr : Json.str? ∘ Json.str = some := rfl
    simp [messages, Json.get, Entries.get, hstr, Json.str?]
  plain_append text turn := by
    intro s
    simp [Json.get, Entries.get]

/-- A turn from the bus, from the request to the saved file. -/
def busTurn (a : ℕ) (session turn : String) : List (Action String) :=
  [.bus a session, .act a .fetch, .act a .restore, .act a .begin, .act a (.finish (some turn)),
    .act a .read, .act a .store]

/-- Two turns from the bus with a restart in between. -/
def acrossRestart : List (Action String) :=
  busTurn 0 "api:alice" "first" ++ .restart :: busTurn 1 "api:alice" "second"

theorem kept_of_upToDate_acrossRestart :
    ∃ sys, (machine "alice" messageFormat).run acrossRestart = some sys ∧
      sys.Kept messageFormat "api:alice" :=
  ⟨_, rfl, @kept_of_upToDate _ _ "alice" messageFormat acrossRestart _ (by decide) rfl "api:alice"⟩

/-- A turn from the bus, a resumed approval, and the next request from the bus. -/
def resumedBetween : List (Action String) :=
  busTurn 0 "api:alice" "first" ++
    [.direct 1 "api:alice", .act 1 .begin, .act 1 (.finish (some "second")),
      .bus 2 "api:alice", .act 2 .fetch, .act 2 .restore]

/-- The turn of a resumed approval is gone from the session file when the next turn from the bus
starts. -/
theorem turn_lost_after_resume :
    ¬ ∀ (T : Type) (loads : String → Option Json) (tenantId : String)
      (format : SessionFormat T loads) (acts : List (Action T)) (sys : Conversations T),
      (machine tenantId format).run acts = some sys →
        ∀ session, sys.AboutToStart session → sys.Kept format session := by
  intro hclaim
  obtain ⟨sys, hrun, hstart, hturns, hfile⟩ :
      ∃ sys, (machine "alice" messageFormat).run resumedBetween = some sys ∧
        sys.AboutToStart "api:alice" ∧ sys.turnsOf "api:alice" = ["first", "second"] ∧
        sys.fileTurns messageFormat "api:alice" = ["first"] :=
    ⟨_, rfl, ⟨2, _, rfl, rfl, rfl⟩, by decide, by decide⟩
  have hkept := hclaim _ _ "alice" messageFormat resumedBetween sys hrun "api:alice" hstart
  rw [Conversations.Kept, hturns, hfile] at hkept
  exact absurd hkept.length_le (by decide)

end Nanogate.History
