import Mathlib.Data.List.Nodup
import Nanogate.Approval.Agent

/-!
# A blocked command runs at most once

The entry of a blocked command is the only permission to run it, and popping it from its
table is one step. The invariant follows that permission: an id that was issued is in
the table of its tool until exactly one handler takes it, and that handler starts at
most one process, for the command that was blocked and in the directory it was to run in.

## Main definitions

* `TablesKept`, `HandlersKept`, `Consistent` — the invariant of the tables and the handlers
* `RunsOnce` — what an observer of the agent sees

## Main results

* `Consistent.step` — every step keeps the invariant
* `runsOnce` — every run of a booted agent runs blocked commands at most once, and only
  for an approval
-/

namespace Nanogate.Approval

open Nanogate.Python Nanogate.Bus Nanogate.Semantics

/-- The step is a call of `execute`. -/
def Action.isExecute : Action → Bool
  | .execute .. => true
  | .approve .. | .handle .. => false

/-- The step in which a command was blocked. -/
def Issued.action (i : Issued) : Action := .execute i.tool i.getcwd i.requestId i.call

namespace Agent

/-- The ids that were issued. -/
def issuedIds (s : Agent) : List String := s.issued.map Issued.requestId

/-- The ids that some handler has taken. -/
def takenIds (s : Agent) : List String := s.taken.map Prod.snd

/-- The entry was recorded under the id in the table of the tool called `name`. -/
def HasIssued (s : Agent) (id name : String) (entry : Pending) : Prop :=
  ∃ i ∈ s.issued, i.requestId = id ∧ i.tool = name ∧ i.entry = entry

/-- The id is in the table of an exec tool, with this entry. -/
def Holds (s : Agent) (id : String) (entry : Pending) : Prop :=
  ∃ name tool, s.tools.get name = some (.gatewayExec tool) ∧ tool.pending.get id = some entry

end Agent

/-- The tables hold exactly the ids that were issued and not taken. -/
structure TablesKept (s : Agent) : Prop where
  gated : ∀ name tool, s.tools.get name = some (.gatewayExec tool) → tool.gated = true
  issued_nodup : s.issuedIds.Nodup
  issued_tool : ∀ i ∈ s.issued, ∃ tool, s.tools.get i.tool = some (.gatewayExec tool) ∧
    i.entry = (tool.block i.getcwd i.requestId i.call).entry
  taken_nodup : s.takenIds.Nodup
  taken_issued : ∀ id ∈ s.takenIds, id ∈ s.issuedIds
  pending_iff : ∀ name tool, s.tools.get name = some (.gatewayExec tool) →
    ∀ id entry, tool.pending.get id = some entry ↔ s.HasIssued id name entry ∧ id ∉ s.takenIds

/-- A handler past the pop has taken its id, runs the command recorded for it, and has
started it at most once. -/
structure HandlersKept (s : Agent) : Prop where
  took : ∀ h body pc, s.handlers h = some ⟨body, pc⟩ → pc.took = true →
    (h, body.requestId) ∈ s.taken
  recorded : ∀ h body pc entry, s.handlers h = some ⟨body, pc⟩ → pc.entry = some entry →
    ∃ name, s.HasIssued body.requestId name entry
  started : ∀ st ∈ s.started, ∀ id, st.requestId? = some id → ∃ h body pc i, i ∈ s.issued ∧
    s.handlers h = some ⟨body, pc⟩ ∧ body.requestId = id ∧ i.requestId = id ∧
    pc.beforeStart = false ∧ (h, id) ∈ s.taken ∧
    st = .approved h id i.entry.command i.entry.cwd
  started_nodup : (s.started.filterMap Start.requestId?).Nodup
  not_direct : ∀ command cwd, Start.direct command cwd ∉ s.started

/-! ### The tables -/

namespace TablesKept

variable {s : Agent} {name id : String} {tool : GatewayExecTool} {entry : Pending}

theorem boot {tools : Registry} (h : Booted tools) : TablesKept (.boot tools) where
  gated name tool hget := (h name tool hget).1
  issued_nodup := List.nodup_nil
  issued_tool := by simp [Agent.boot]
  taken_nodup := List.nodup_nil
  taken_issued := by simp [Agent.boot, Agent.takenIds]
  pending_iff name tool hget id entry := by
    simp [(h name tool hget).2, Agent.boot, Agent.HasIssued]

/-- An id is issued once, by one tool and with one entry. -/
theorem issued_eq (hs : TablesKept s) {i j : Issued} (hi : i ∈ s.issued) (hj : j ∈ s.issued)
    (hid : i.requestId = j.requestId) : i = j :=
  List.inj_on_of_nodup_map hs.issued_nodup hi hj hid

/-- An id is taken once. -/
theorem taken_eq (hs : TablesKept s) {h h' : ℕ} (ht : (h, id) ∈ s.taken)
    (ht' : (h', id) ∈ s.taken) : h = h' :=
  congrArg Prod.fst (List.inj_on_of_nodup_map hs.taken_nodup ht ht' rfl)

/-- The tool of a blocked call stays registered with its settings. -/
theorem issued_tool_set (hs : TablesKept s) (tool' : GatewayExecTool)
    (hget : s.tools.get name = some (.gatewayExec tool))
    (hsettings : tool'.settings = tool.settings) {i : Issued} (hi : i ∈ s.issued) :
    ∃ u, (s.tools.set name (.gatewayExec tool')).get i.tool = some (.gatewayExec u) ∧
      i.entry = (u.block i.getcwd i.requestId i.call).entry := by
  obtain ⟨t, ht, hentry⟩ := hs.issued_tool i hi
  rw [Dict.get_set]
  split_ifs with hname
  · obtain rfl : tool = t := by simpa [hname, hget] using ht
    exact ⟨tool', rfl, by rw [GatewayExecTool.block_congr hsettings, hentry]⟩
  · exact ⟨t, ht, hentry⟩

theorem issue {getcwd : String} {call : ExecuteCall} (hs : TablesKept s)
    (hget : s.tools.get name = some (.gatewayExec tool)) (hgated : tool.gated = true)
    (hfresh : s.Fresh id) : TablesKept (s.issue name getcwd id tool call) where
  gated name' tool' hget' := by
    rw [Agent.issue, Dict.get_set] at hget'
    split_ifs at hget' with hname
    · obtain rfl := Tool.gatewayExec.inj (Option.some.inj hget')
      exact hgated
    · exact hs.gated name' tool' hget'
  issued_nodup := by
    simp only [Agent.issuedIds, Agent.issue, List.map_append, List.map_cons, List.map_nil]
    exact List.Nodup.append hs.issued_nodup (List.nodup_singleton id)
      (List.disjoint_singleton.mpr hfresh)
  issued_tool i hi := by
    rcases List.mem_append.mp hi with hi | hi
    · exact hs.issued_tool_set (tool.record id _) hget rfl hi
    · obtain rfl := List.mem_singleton.mp hi
      exact ⟨_, Dict.get_set_self, (congrArg Blocked.entry
        (GatewayExecTool.block_congr rfl getcwd id call)).symm⟩
  taken_nodup := hs.taken_nodup
  taken_issued id' hid' := by
    simp only [Agent.issuedIds, Agent.issue, List.map_append]
    exact List.mem_append_left _ (hs.taken_issued id' hid')
  pending_iff name' tool' hget' id' entry' := by
    -- a fresh id was neither issued nor taken
    have hnot : id ∉ s.takenIds := fun htaken => hfresh (hs.taken_issued id htaken)
    have hnone (n : String) (e : Pending) : ¬ s.HasIssued id n e := by
      rintro ⟨i, hi, hid, -⟩
      exact hfresh (List.mem_map.mpr ⟨i, hi, hid⟩)
    have hissued : (s.issue name getcwd id tool call).HasIssued id' name' entry' ↔
        s.HasIssued id' name' entry' ∨
          (id = id' ∧ name = name' ∧ (tool.block getcwd id call).entry = entry') := by
      simp [Agent.HasIssued, Agent.issue, or_and_right, exists_or]
    change _ ↔ _ ∧ id' ∉ s.takenIds
    rw [hissued]
    rw [Agent.issue, Dict.get_set] at hget'
    split_ifs at hget' with hname
    · subst hname
      obtain rfl := Tool.gatewayExec.inj (Option.some.inj hget')
      simp only [GatewayExecTool.record, Dict.get_set]
      split_ifs with hid
      · subst hid
        simp [hnone, hnot]
      · rw [hs.pending_iff name' tool hget id' entry']
        simp [Ne.symm hid]
    · rw [hs.pending_iff name' tool' hget' id' entry']
      simp [Ne.symm hname]

theorem take {h : ℕ} (hs : TablesKept s) (hget : s.tools.get name = some (.gatewayExec tool))
    (hentry : tool.pending.get id = some entry) {handlers : ℕ → Option Handler}
    {started : List Start} :
    TablesKept
      { s with
        handlers, started
        tools := s.tools.set name (.gatewayExec (tool.forget id))
        taken := s.taken ++ [(h, id)] } where
  gated name' tool' hget' := by
    rw [Dict.get_set] at hget'
    split_ifs at hget' with hname
    · obtain rfl := Tool.gatewayExec.inj (Option.some.inj hget')
      exact hs.gated name tool hget
    · exact hs.gated name' tool' hget'
  issued_nodup := hs.issued_nodup
  issued_tool _ hi := hs.issued_tool_set (tool.forget id) hget rfl hi
  -- an id that is pending was not taken before
  taken_nodup := by
    simp only [Agent.takenIds, List.map_append, List.map_cons, List.map_nil]
    exact List.Nodup.append hs.taken_nodup (List.nodup_singleton id)
      (List.disjoint_singleton.mpr ((hs.pending_iff name tool hget id entry).mp hentry).2)
  taken_issued id' hid' := by
    simp only [Agent.takenIds, List.map_append, List.map_cons, List.map_nil, List.mem_append,
      List.mem_singleton] at hid'
    rcases hid' with hid' | rfl
    · exact hs.taken_issued id' hid'
    · obtain ⟨⟨i, hi, hid, -⟩, -⟩ := (hs.pending_iff name tool hget _ entry).mp hentry
      exact List.mem_map.mpr ⟨i, hi, hid⟩
  pending_iff name' tool' hget' id' entry' := by
    obtain ⟨⟨i, hi, hiid, hitool, -⟩, -⟩ := (hs.pending_iff name tool hget id entry).mp hentry
    change _ ↔ s.HasIssued id' name' entry' ∧ _
    simp only [Agent.takenIds, List.map_append, List.map_cons, List.map_nil, List.mem_append,
      List.mem_singleton, not_or]
    rw [Dict.get_set] at hget'
    split_ifs at hget' with hname
    · subst hname
      obtain rfl := Tool.gatewayExec.inj (Option.some.inj hget')
      simp only [GatewayExecTool.forget, Dict.get_erase]
      -- popping the id removes its entry and no other
      split_ifs with hid
      · simp [hid]
      · rw [hs.pending_iff name' tool hget id' entry']
        simp [hid, Agent.takenIds]
    · rw [hs.pending_iff name' tool' hget' id' entry']
      -- the id taken was issued by another tool
      have hid (hmem : s.HasIssued id' name' entry') : id' ≠ id := by
        rintro rfl
        obtain ⟨j, hj, hjid, hjtool, -⟩ := hmem
        obtain rfl := hs.issued_eq hi hj (hiid.trans hjid.symm)
        exact hname (hjtool.symm.trans hitool)
      constructor
      · rintro ⟨hmem, hnot⟩
        exact ⟨hmem, hnot, hid hmem⟩
      · rintro ⟨hmem, hnot, -⟩
        exact ⟨hmem, hnot⟩

end TablesKept

/-! ### The handlers -/

namespace HandlersKept

variable {s : Agent} {h : ℕ} {body : ApproveBody} {pc pc' : Pc} {entry : Pending}

theorem boot (tools : Registry) : HandlersKept (.boot tools) where
  took := by simp [Agent.boot]
  recorded := by simp [Agent.boot]
  started := by simp [Agent.boot]
  started_nodup := List.nodup_nil
  not_direct := by simp [Agent.boot]

/-- A handler moves on, without a new process. -/
theorem move (hs : HandlersKept s)
    (hfrom : ∀ body' pc, s.handlers h = some ⟨body', pc⟩ →
      body' = body ∧ (pc.beforeStart = false → pc'.beforeStart = false))
    (htook : pc'.took = true → (h, body.requestId) ∈ s.taken)
    (hrecorded : ∀ entry, pc'.entry = some entry →
      ∃ name, s.HasIssued body.requestId name entry) :
    HandlersKept (s.setHandler h body pc') where
  took h' body' pc'' hat := by
    simp only [Agent.setHandler, Function.update_apply] at hat
    split_ifs at hat with hh
    · obtain ⟨rfl, rfl⟩ := Handler.mk.inj (Option.some.inj hat)
      exact hh ▸ htook
    · exact hs.took h' body' pc'' hat
  recorded h' body' pc'' entry hat := by
    simp only [Agent.setHandler, Function.update_apply] at hat
    split_ifs at hat with hh
    · obtain ⟨rfl, rfl⟩ := Handler.mk.inj (Option.some.inj hat)
      exact hrecorded entry
    · exact hs.recorded h' body' pc'' entry hat
  started st hst id hid := by
    obtain ⟨h', body', pc'', i, hi, hat, hbody, hissued, hafter, htaken, heq⟩ :=
      hs.started st hst id hid
    by_cases hh : h' = h
    · subst hh
      obtain ⟨rfl, hmono⟩ := hfrom body' pc'' hat
      exact ⟨h', body', pc', i, hi, handlers_setHandler, hbody, hissued, hmono hafter, htaken, heq⟩
    · refine ⟨h', body', pc'', i, hi, ?_, hbody, hissued, hafter, htaken, heq⟩
      simpa [Agent.setHandler, hh] using hat
  started_nodup := hs.started_nodup
  not_direct := hs.not_direct

/-- The history of ids grows, and the token provider may be started. -/
theorem grow (hs : HandlersKept s) (tools : Registry) (issued : List Issued)
    (taken : List (ℕ × String)) (started : List Start)
    (hstarted : ∀ st ∈ started, ∃ command, st = .tokenProvider command) :
    HandlersKept
      { s with
        tools
        issued := s.issued ++ issued
        taken := s.taken ++ taken
        started := s.started ++ started } where
  took h body pc hat hpc := List.mem_append_left _ (hs.took h body pc hat hpc)
  recorded h body pc entry hat hpc := by
    obtain ⟨name, i, hi, hentry⟩ := hs.recorded h body pc entry hat hpc
    exact ⟨name, i, List.mem_append_left _ hi, hentry⟩
  started st hst id hid := by
    rcases List.mem_append.mp hst with hst | hst
    · obtain ⟨h, body, pc, i, hi, hat, hbody, hissued, hafter, htaken, heq⟩ :=
        hs.started st hst id hid
      exact ⟨h, body, pc, i, List.mem_append_left _ hi, hat, hbody, hissued, hafter,
        List.mem_append_left _ htaken, heq⟩
    · -- a token provider is not started for an approval
      obtain ⟨command, rfl⟩ := hstarted st hst
      simp [Start.requestId?] at hid
  started_nodup := by
    have hnone : started.filterMap Start.requestId? = [] := by
      rw [List.filterMap_eq_nil_iff]
      intro st hst
      obtain ⟨command, rfl⟩ := hstarted st hst
      rfl
    rw [List.filterMap_append, hnone, List.append_nil]
    exact hs.started_nodup
  not_direct command cwd hmem := by
    rcases List.mem_append.mp hmem with hmem | hmem
    · exact hs.not_direct command cwd hmem
    · obtain ⟨command, heq⟩ := hstarted _ hmem
      exact absurd heq (by simp)

/-- A handler before its process has not started one. -/
theorem notMem_of_starting (hs : HandlersKept s) (ht : TablesKept s)
    (hat : s.handlers h = some ⟨body, .starting entry⟩) :
    body.requestId ∉ s.started.filterMap Start.requestId? := by
  intro hmem
  obtain ⟨st, hst, hid⟩ := List.mem_filterMap.mp hmem
  obtain ⟨h', body', pc, i, -, hat', -, -, hafter, htaken, -⟩ := hs.started st hst _ hid
  obtain rfl := ht.taken_eq (hs.took h body _ hat rfl) htaken
  rw [hat] at hat'
  obtain ⟨-, rfl⟩ := Handler.mk.inj (Option.some.inj hat')
  simp [Pc.beforeStart] at hafter

/-- The process of a handler is created. -/
theorem spawn (hs : HandlersKept s) (ht : TablesKept s)
    (hat : s.handlers h = some ⟨body, .starting entry⟩) :
    HandlersKept
      { s.setHandler h body (.running entry) with
        started := s.started ++ [.approved h body.requestId entry.command entry.cwd] } := by
  have htook : (h, body.requestId) ∈ s.taken := hs.took h body _ hat rfl
  obtain ⟨name, i, hissued, hid, htool, rfl⟩ := hs.recorded h body _ entry hat rfl
  have hmoved : HandlersKept (s.setHandler h body (.running i.entry)) := by
    refine hs.move (fun body' pc hat' => ?_) (fun _ => htook) (fun e he => ?_)
    · rw [hat] at hat'
      obtain ⟨rfl, rfl⟩ := Handler.mk.inj (Option.some.inj hat')
      exact ⟨rfl, fun _ => rfl⟩
    · obtain rfl : i.entry = e := Option.some.inj he
      exact ⟨name, i, hissued, hid, htool, rfl⟩
  refine ⟨hmoved.took, hmoved.recorded, fun st hst id hst' => ?_, ?_, fun command cwd hmem => ?_⟩
  · rcases List.mem_append.mp hst with hst | hst
    · exact hmoved.started st hst id hst'
    · obtain rfl := List.mem_singleton.mp hst
      obtain rfl : body.requestId = id := Option.some.inj hst'
      exact ⟨h, body, .running i.entry, i, hissued, handlers_setHandler, rfl, hid, rfl, htook, rfl⟩
  · rw [List.filterMap_append]
    exact List.Nodup.append hmoved.started_nodup (List.nodup_singleton _)
      (List.disjoint_singleton.mpr (hs.notMem_of_starting ht hat))
  · rcases List.mem_append.mp hmem with hmem | hmem
    · exact hmoved.not_direct command cwd hmem
    · simp at hmem

end HandlersKept

/-! ### Runs -/

/-- The invariant of the agent. -/
structure Consistent (s : Agent) : Prop where
  tables : TablesKept s
  handlers : HandlersKept s

theorem Consistent.boot {tools : Registry} (h : Booted tools) : Consistent (.boot tools) :=
  ⟨.boot h, .boot tools⟩

namespace Consistent

variable {s s' : Agent} {h : ℕ} {body : ApproveBody} {pc pc' : Pc} {act : HandlerAct}

/-- A handler moves on and nothing else changes. -/
theorem move (hs : Consistent s) (hat : s.handlers h = some ⟨body, pc⟩)
    (hstart : pc.beforeStart = false → pc'.beforeStart = false)
    (htook : pc'.took = true → pc.took = true)
    (hentry : ∀ entry, pc'.entry = some entry → pc.entry = some entry) :
    Consistent (s.setHandler h body pc') where
  tables := ⟨hs.tables.gated, hs.tables.issued_nodup, hs.tables.issued_tool, hs.tables.taken_nodup,
    hs.tables.taken_issued, hs.tables.pending_iff⟩
  handlers := by
    refine hs.handlers.move (fun body' pc'' hat' => ?_)
      (fun hpc => hs.handlers.took h body pc hat (htook hpc))
      (fun entry he => hs.handlers.recorded h body pc entry hat (hentry entry he))
    rw [hat] at hat'
    obtain ⟨rfl, rfl⟩ := Handler.mk.inj (Option.some.inj hat')
    exact ⟨rfl, hstart⟩

theorem beforeStart_afterProcess {entry : Pending} {process : ProcessOutcome} :
    (Pc.afterProcess body entry process).beforeStart = false := by
  unfold Pc.afterProcess
  split <;> rfl

theorem entry_afterProcess {entry : Pending} {process : ProcessOutcome} :
    (Pc.afterProcess body entry process).entry = none := by
  unfold Pc.afterProcess
  split <;> rfl

/-- **Step lemma for a handler**, one case for each await. -/
theorem handlerStep (hs : Consistent s) (hat : s.handlers h = some ⟨body, pc⟩)
    (hstep : HandlerStep s h body pc act s') : Consistent s' := by
  cases hstep with
  | lookup =>
    refine hs.move hat (by simp [Pc.beforeStart]) ?_ ?_ <;> unfold Pc.afterLookup <;>
      split <;> simp [Pc.took, Pc.entry]
  | gone => exact hs.move hat (by simp [Pc.beforeStart]) (by simp [Pc.took]) (by simp [Pc.entry])
  | token => exact hs.move hat id id (fun _ => id)
  | spawnRaised =>
    exact hs.move hat (fun _ => beforeStart_afterProcess) (fun _ => rfl)
      (by simp [entry_afterProcess])
  | exit =>
    exact hs.move hat (fun _ => beforeStart_afterProcess) (fun _ => rfl)
      (by simp [entry_afterProcess])
  | resumed => exact hs.move hat id (fun _ => rfl) (by simp [Pc.entry])
  -- the process is started for the entry that the handler took
  | spawn =>
    refine ⟨?_, hs.handlers.spawn hs.tables hat⟩
    exact ⟨hs.tables.gated, hs.tables.issued_nodup, hs.tables.issued_tool, hs.tables.taken_nodup,
      hs.tables.taken_issued, hs.tables.pending_iff⟩
  | @take name tool entry hget hentry =>
    refine ⟨hs.tables.take hget hentry, ?_⟩
    -- the entry was pending, so it was issued
    have hissued := ((hs.tables.pending_iff name tool hget _ entry).mp hentry).1
    have htoken : ∀ st ∈ tokenStart tool, ∃ command, st = .tokenProvider command := by
      unfold tokenStart
      split_ifs <;> simp
    have hgrown := hs.handlers.grow (s.tools.set name (.gatewayExec (tool.forget body.requestId)))
      [] [(h, body.requestId)] (tokenStart tool) htoken
    rw [List.append_nil] at hgrown
    refine hgrown.move (fun body' pc hat' => ?_) (fun _ => by simp) (fun e he => ?_)
    · obtain ⟨rfl, rfl⟩ := Handler.mk.inj (Option.some.inj (hat.symm.trans hat'))
      exact ⟨rfl, by simp [Pc.beforeStart]⟩
    · obtain rfl : entry = e := by
        unfold Pc.afterTake at he
        split_ifs at he <;> exact Option.some.inj he
      exact ⟨name, hissued⟩

/-- **Step lemma.** -/
theorem step {a : Action} (hs : Consistent s) (hstep : AgentStep s a s') : Consistent s' := by
  cases hstep with
  | @issue name getcwd requestId call tool hget hgated hfresh =>
    refine ⟨hs.tables.issue hget hgated hfresh, ?_⟩
    have hgrown := hs.handlers.grow (s.issue name getcwd requestId tool call).tools
      [⟨requestId, name, getcwd, call, (tool.block getcwd requestId call).entry⟩] [] [] (by simp)
    rwa [List.append_nil, List.append_nil] at hgrown
  | direct hget hungated =>
    exact absurd (hs.tables.gated _ _ hget) (by simp [hungated])
  | approve habsent =>
    refine ⟨?_, hs.handlers.move (fun body' pc hat => ?_) (by simp [Pc.took]) (by simp [Pc.entry])⟩
    · exact ⟨hs.tables.gated, hs.tables.issued_nodup, hs.tables.issued_tool, hs.tables.taken_nodup,
        hs.tables.taken_issued, hs.tables.pending_iff⟩
    · exact absurd (habsent.symm.trans hat) (by simp)
  | handle hat hstep => exact hs.handlerStep hat hstep

end Consistent

/-- What an observer of a run sees: the calls that were made are those that were blocked; every
process for a blocked command has an id of its own, an approval of that id, and the command and the
directory of the call that was given the id; at most one approval of an id is answered 200; and the
tables hold what was issued and not taken. -/
structure RunsOnce (acts : List Action) (s : Agent) : Prop where
  issued : s.issued.map Issued.action = acts.filter Action.isExecute
  once : (s.started.filterMap Start.requestId?).Nodup
  approved : ∀ st ∈ s.started, (∃ command, st = .tokenProvider command) ∨
    ∃ h body pc i tool, i ∈ s.issued ∧ s.tools.get i.tool = some (.gatewayExec tool) ∧
      s.handlers h = some ⟨body, pc⟩ ∧ body.requestId = i.requestId ∧
      st = .approved h i.requestId i.call.command (tool.cwd i.getcwd i.call)
  answered : ∀ h h' body body' response response',
    s.handlers h = some ⟨body, .answered (.ok response)⟩ →
    s.handlers h' = some ⟨body', .answered (.ok response')⟩ →
    body.requestId = body'.requestId → h = h'
  pending : ∀ id, (∃ entry, s.Holds id entry) ↔ id ∈ s.issuedIds ∧ id ∉ s.takenIds

namespace Consistent

variable {s : Agent} {tools : Registry} {acts : List Action}

/-- A process for a blocked command is what an approval of its id was to start. -/
theorem approved (hs : Consistent s) {st : Start} (hst : st ∈ s.started) :
    (∃ command, st = .tokenProvider command) ∨
      ∃ h body pc i tool, i ∈ s.issued ∧ s.tools.get i.tool = some (.gatewayExec tool) ∧
        s.handlers h = some ⟨body, pc⟩ ∧ body.requestId = i.requestId ∧
        st = .approved h i.requestId i.call.command (tool.cwd i.getcwd i.call) := by
  cases hst' : st with
  | direct command cwd => exact absurd (hst' ▸ hst) (hs.handlers.not_direct command cwd)
  | tokenProvider command => exact .inl ⟨command, rfl⟩
  | approved h id command cwd =>
    obtain ⟨h', body, pc, i, hi, hat, hbody, hid, -, -, heq⟩ :=
      hs.handlers.started st hst id (by rw [hst']; rfl)
    -- the entry that was taken is what the call left
    obtain ⟨tool, hget, hentry⟩ := hs.tables.issued_tool i hi
    refine .inr ⟨h', body, pc, i, tool, hi, hget, hat, hbody.trans hid.symm, ?_⟩
    rw [← hst', heq, hid, hentry]
    rfl

theorem answered (hs : Consistent s) {h h' : ℕ} {body body' : ApproveBody}
    {response response' : Json}
    (hat : s.handlers h = some ⟨body, .answered (.ok response)⟩)
    (hat' : s.handlers h' = some ⟨body', .answered (.ok response')⟩)
    (hid : body.requestId = body'.requestId) : h = h' := by
  have htook := hs.handlers.took h body _ hat rfl
  have htook' := hs.handlers.took h' body' _ hat' rfl
  exact hs.tables.taken_eq (hid ▸ htook) htook'

theorem pending (hs : Consistent s) (id : String) :
    (∃ entry, s.Holds id entry) ↔ id ∈ s.issuedIds ∧ id ∉ s.takenIds := by
  constructor
  · rintro ⟨entry, name, tool, hget, hentry⟩
    obtain ⟨⟨i, hi, hid, -⟩, hnot⟩ := (hs.tables.pending_iff name tool hget id entry).mp hentry
    exact ⟨List.mem_map.mpr ⟨i, hi, hid⟩, hnot⟩
  · rintro ⟨hissued, hnot⟩
    obtain ⟨i, hi, rfl⟩ := List.mem_map.mp hissued
    obtain ⟨tool, hget, -⟩ := hs.tables.issued_tool i hi
    exact ⟨i.entry, i.tool, tool, hget,
      (hs.tables.pending_iff _ _ hget _ _).mpr ⟨⟨i, hi, rfl, rfl, rfl⟩, hnot⟩⟩

/-- The calls of a run are what was blocked in it. -/
theorem issued_of_run (hboot : Booted tools) (hrun : (machine tools).run acts = some s) :
    Consistent s ∧ s.issued.map Issued.action = acts.filter Action.isExecute := by
  refine Machine.history_invariant
    (I := fun s acts => Consistent s ∧ s.issued.map Issued.action = acts.filter Action.isExecute)
    ?_ ⟨.boot hboot, rfl⟩ hrun
  rintro s acts a s' ⟨hs, hissued⟩ hstep
  refine ⟨hs.step (agentStep_of_step hstep), ?_⟩
  rw [List.filter_append, ← hissued]
  cases agentStep_of_step hstep with
  | issue =>
    rw [Agent.issue, List.map_append]
    rfl
  | direct hget hungated => exact absurd (hs.tables.gated _ _ hget) (by simp [hungated])
  | approve => simp [Agent.setHandler, Action.isExecute]
  | handle hat hstep => simp [hstep.issued_eq, Action.isExecute]

end Consistent

/-- What an observer sees of a run of a booted agent. -/
theorem Booted.runs_once {tools : Registry} {acts : List Action} {s : Agent} (hboot : Booted tools)
    (hrun : (machine tools).run acts = some s) : RunsOnce acts s := by
  obtain ⟨hs, hissued⟩ := Consistent.issued_of_run hboot hrun
  exact
    { issued := hissued
      once := hs.handlers.started_nodup
      approved _ hst := hs.approved hst
      answered _ _ _ _ _ _ hat hat' hid := hs.answered hat hat' hid
      pending := hs.pending }

/-- **A blocked command runs at most once and only when approved**, in every run of `execute`
calls and approvals interleaved at any await. -/
theorem runsOnce {tools : Registry} {acts : List Action} {s : Agent} (hboot : Booted tools)
    (hrun : (machine tools).run acts = some s) : RunsOnce acts s :=
  hboot.runs_once hrun

/-- Two approvals of one command that both find its entry before either takes it. -/
def doubleApprove : List Action :=
  [.execute "exec" "/root" "r1" ⟨"make", none, none, some "api:alice"⟩,
    .approve 0 ⟨"r1", none, true, false⟩, .approve 1 ⟨"r1", none, true, false⟩,
    .handle 0 .lookup, .handle 1 .lookup, .handle 0 .take, .handle 1 .take, .handle 0 (.spawn none),
    .handle 0 (.exit (.exited "done" "" 0)), .handle 0 (.resumed (.ok (some "built")))]

theorem runsOnce_doubleApprove :
    ∃ s, (machine gatedTools).run doubleApprove = some s ∧ RunsOnce doubleApprove s :=
  ⟨_, rfl, @runsOnce gatedTools doubleApprove _ booted_gatedTools rfl⟩

end Nanogate.Approval
