import Mathlib.Data.List.Perm.Basic
import Nanogate.Approval.Once
import Nanogate.Approval.Reported

/-!
# What is shown of pending approvals

`GET /approvals/pending` lists the tables of all tools, and a reply of `_run_chat` shows the last
blocked command with its request id. Whoever approves has seen one of the two. Both show what will
be run: the list is exactly what was blocked and not approved yet, each command once and under the
tool that an approval goes to; and the command and directory of a reply are those that are started
for its id.

## Main definitions

* `pendingItem`, `listPendingApprovals` — the route
* `waiting` — what was blocked and not approved yet
* `contextOf` — the approval context that shows an entry

## Main results

* `listed_of_run` — the list is what is waiting
* `shown_is_run` — the context of a reply shows the command that an approval of its id starts
-/

namespace Nanogate.Approval

open Nanogate.Python Nanogate.Bus Nanogate.Semantics

/-! ### The route -/

/-- ``f"Execute shell command: `{command}`"`` -/
def executeShellCommand (command : String) : String :=
  "Execute shell command: \u0060" ++ command ++ "\u0060"

/-- An item of the list. -/
def pendingItem (name requestId : String) (info : Pending) : Json :=
  .obj [("request_id", .str requestId), ("tool", .str name), ("session_id", .str info.sessionKey),
    ("command", .str info.command), ("cwd", .str info.cwd),
    ("description", .str (executeShellCommand info.command))]

/-- `GET /approvals/pending` of the agent, `agentLoop` being what `get_agent()` returns. -/
def listPendingApprovals (agentLoop : Option Registry) : Except HttpError (List Json) :=
  match agentLoop with
  | none => .error { statusCode := 503, detail := "Agent not initialized" }
  | some tools => .ok (tools.entries.flatMap fun e =>
      e.2.pending.entries.map fun p => pendingItem e.1 p.1 p.2)

/-- An entry that can be approved, with its request id and the name of its tool. -/
structure Offer where
  requestId : String
  tool : String
  entry : Pending

/-- The item of an entry. -/
def Offer.item (o : Offer) : Json := pendingItem o.tool o.requestId o.entry

/-- The entries of a tool that can run an approved command. -/
def Tool.offered (name : String) : Tool → List Offer
  | .gatewayExec tool => tool.pending.entries.map fun p => ⟨p.1, name, p.2⟩
  | .other _ => []

/-- The items of a tool that cannot. -/
def Tool.standing (name : String) : Tool → List Json
  | .gatewayExec _ => []
  | .other pending => (pending.getD .empty).entries.map fun p => pendingItem name p.1 p.2

/-- The entries that can be approved, tool by tool. -/
def offered (tools : Registry) : List Offer := tools.entries.flatMap fun e => e.2.offered e.1

/-- The items that no approval takes away. -/
def standing (tools : Registry) : List Json := tools.entries.flatMap fun e => e.2.standing e.1

/-- What a blocked call offers. -/
def Issued.offer (i : Issued) : Offer := ⟨i.requestId, i.tool, i.entry⟩

/-- The item of an entry that was issued. -/
def Issued.item (i : Issued) : Json := pendingItem i.tool i.requestId i.entry

/-- What was blocked and not approved yet, in the order in which it was blocked. -/
def waiting (s : Agent) : List Issued := s.issued.filter fun i => i.requestId ∉ s.takenIds

/-! ### Tools keep their places -/

/-- The tool as its constructor leaves it. -/
def Tool.bare : Tool → Tool
  | .gatewayExec tool => .gatewayExec { tool with pending := .empty }
  | .other pending => .other pending

/-- The tools apart from their tables. -/
def bare (tools : Registry) : List (String × Tool) := tools.entries.map fun e => (e.1, e.2.bare)

section Bare

variable {tools : Registry} {name : String} {tool tool' : GatewayExecTool}

theorem bare_set (hget : tools.get name = some (.gatewayExec tool))
    (hsettings : tool'.settings = tool.settings) :
    bare (tools.set name (.gatewayExec tool')) = bare tools := by
  have hbare : (Tool.gatewayExec tool').bare = (Tool.gatewayExec tool).bare := by
    simp [Tool.bare, hsettings]
  have hall (entries : List (String × Tool))
      (h : Entries.get entries name = some (.gatewayExec tool)) :
      (Entries.set entries name (.gatewayExec tool')).map (fun e => (e.1, e.2.bare)) =
        entries.map fun e => (e.1, e.2.bare) := by
    induction entries with
    | nil => simp at h
    | cons e entries ih =>
      by_cases hname : e.1 = name
      · rw [Entries.get, if_pos hname, Option.some_inj] at h
        simp [Entries.set, hname, hbare, h]
      · rw [Entries.get_cons_of_ne hname] at h
        simp [Entries.set, hname, ih h]
  exact hall tools.entries hget

theorem bare_handlerStep {s s' : Agent} {h : ℕ} {body : ApproveBody} {pc : Pc} {act : HandlerAct}
    (hstep : HandlerStep s h body pc act s') : bare s'.tools = bare s.tools := by
  cases hstep with
  | take hget hentry => exact bare_set hget rfl
  | lookup | gone | token | spawn | spawnRaised | exit | resumed => rfl

/-- No step registers a tool or changes its settings. -/
theorem bare_step {s s' : Agent} {a : Action} (hstep : AgentStep s a s') :
    bare s'.tools = bare s.tools := by
  cases hstep with
  | issue hget => exact bare_set hget rfl
  | direct | approve => rfl
  | handle hat hstep => exact bare_handlerStep hstep

theorem bare_run {acts : List Action} {s s' : Agent}
    (hrun : (machine tools).runFrom s acts = some s') : bare s'.tools = bare s.tools :=
  Machine.run_invariant' (I := fun x => bare x.tools = bare s.tools)
    (fun h hstep => (bare_step (agentStep_of_step hstep)).trans h) rfl hrun

theorem standing_eq (tools : Registry) :
    standing tools = (bare tools).flatMap fun e => e.2.standing e.1 := by
  rw [standing, bare, List.flatMap_map]
  refine List.flatMap_congr fun e _ => ?_
  cases e.2 <;> rfl

/-- A tool of a name is there with the same settings. -/
theorem exists_of_bare_eq {tools' : Registry} (hbare : bare tools' = bare tools)
    (hget : tools.get name = some (.gatewayExec tool)) :
    ∃ tool', tools'.get name = some (.gatewayExec tool') ∧ tool'.settings = tool.settings := by
  have hmem : (name, (Tool.gatewayExec tool).bare) ∈ bare tools' := by
    rw [hbare]
    exact List.mem_map.mpr ⟨_, Dict.mem_entries_iff.mpr hget, rfl⟩
  obtain ⟨⟨name', tool'⟩, hmem', heq⟩ := List.mem_map.mp hmem
  obtain ⟨rfl, hsame⟩ := Prod.mk.inj heq
  cases tool' with
  | gatewayExec tool' =>
    refine ⟨tool', Dict.mem_entries_iff.mp hmem', ?_⟩
    simpa [Tool.bare] using hsame
  | other pending => simp [Tool.bare] at hsame

end Bare

/-! ### The list -/

section Listed

variable {tools : Registry} {s : Agent} {acts : List Action} {o : Offer}

theorem mem_offered_iff : o ∈ offered tools ↔ ∃ tool, tools.get o.tool = some (.gatewayExec tool) ∧
    tool.pending.get o.requestId = some o.entry := by
  rw [offered, List.mem_flatMap]
  constructor
  · rintro ⟨⟨name, tool⟩, hmem, ho⟩
    cases tool with
    | gatewayExec tool =>
      obtain ⟨p, hp, rfl⟩ := List.mem_map.mp ho
      exact ⟨tool, Dict.mem_entries_iff.mp hmem, Dict.mem_entries_iff.mp hp⟩
    | other pending => simp [Tool.offered] at ho
  · rintro ⟨tool, hget, hentry⟩
    exact ⟨(o.tool, .gatewayExec tool), Dict.mem_entries_iff.mpr hget,
      List.mem_map.mpr ⟨(o.requestId, o.entry), Dict.mem_entries_iff.mpr hentry, rfl⟩⟩

/-- A table has each id once, and each tool a table of its own. -/
theorem nodup_offered (tools : Registry) : (offered tools).Nodup := by
  rw [offered, List.nodup_flatMap]
  constructor
  · rintro ⟨name, tool⟩ -
    cases tool with
    | gatewayExec tool =>
      refine List.Nodup.of_map Offer.requestId ?_
      rw [Tool.offered, List.map_map]
      exact tool.pending.nodup
    | other pending => exact List.nodup_nil
  · have hnames : tools.entries.Pairwise fun e e' => e.1 ≠ e'.1 := List.pairwise_map.mp tools.nodup
    have htool {e : String × Tool} {o : Offer} (ho : o ∈ e.2.offered e.1) : o.tool = e.1 := by
      obtain ⟨name, tool⟩ := e
      cases tool with
      | gatewayExec tool =>
        obtain ⟨p, -, rfl⟩ := List.mem_map.mp ho
        rfl
      | other pending => simp [Tool.offered] at ho
    exact hnames.imp fun hne o ho ho' => hne ((htool ho).symm.trans (htool ho'))

/-- The list is the tables of the tools that can run a command, and the standing items. -/
theorem list_perm (tools : Registry) :
    (tools.entries.flatMap fun e => e.2.pending.entries.map fun p => pendingItem e.1 p.1 p.2).Perm
      ((offered tools).map Offer.item ++ standing tools) := by
  have hparts : (tools.entries.flatMap fun e =>
      e.2.pending.entries.map fun p => pendingItem e.1 p.1 p.2) =
        tools.entries.flatMap fun e => (e.2.offered e.1).map Offer.item ++ e.2.standing e.1 := by
    refine List.flatMap_congr fun e _ => ?_
    cases e.2 with
    | gatewayExec tool => simp [Tool.pending, Tool.offered, Tool.standing, Offer.item]
    | other pending => simp [Tool.pending, Tool.offered, Tool.standing]
  rw [hparts, offered, List.map_flatMap]
  exact (List.flatMap_append_perm ..).symm

theorem mem_waiting_iff {i : Issued} : i ∈ waiting s ↔ i ∈ s.issued ∧ i.requestId ∉ s.takenIds := by
  rw [waiting, List.mem_filter, decide_eq_true_iff]

/-- What can be approved is what is waiting. -/
theorem offered_perm (hs : TablesKept s) :
    (offered s.tools).Perm ((waiting s).map Issued.offer) := by
  have hnodup : ((waiting s).map Issued.offer).Nodup := by
    refine List.Nodup.of_map Offer.requestId ?_
    rw [List.map_map]
    exact hs.issued_nodup.sublist (List.filter_sublist.map _)
  refine (List.perm_ext_iff_of_nodup (nodup_offered _) hnodup).mpr fun o => ?_
  rw [mem_offered_iff, List.mem_map]
  constructor
  · rintro ⟨tool, hget, hentry⟩
    obtain ⟨⟨i, hi, hid, htool, hsame⟩, hnot⟩ := (hs.pending_iff _ tool hget _ _).mp hentry
    refine ⟨i, mem_waiting_iff.mpr ⟨hi, hid ▸ hnot⟩, ?_⟩
    rw [Issued.offer, hid, htool, hsame]
  · rintro ⟨i, hi, rfl⟩
    obtain ⟨hissued, hnot⟩ := mem_waiting_iff.mp hi
    obtain ⟨tool, hget, -⟩ := hs.issued_tool i hissued
    exact ⟨tool, hget, (hs.pending_iff _ tool hget _ _).mpr ⟨⟨i, hissued, rfl, rfl, rfl⟩, hnot⟩⟩

/-- An approval goes to the tool under which the command is listed, and finds no other. -/
theorem lookup_eq_iff (hs : TablesKept s) {id name : String} :
    lookup s.tools id = some name ↔ ∃ i ∈ waiting s, i.requestId = id ∧ i.tool = name := by
  -- a tool that is found has the id of a command that is waiting
  have hwaiting {name : String} (h : lookup s.tools id = some name) :
      ∃ i ∈ waiting s, i.requestId = id ∧ i.tool = name := by
    obtain ⟨tool, hget, hpending⟩ := exists_of_lookup h
    obtain ⟨entry, hentry⟩ := Option.isSome_iff_exists.mp hpending
    obtain ⟨⟨i, hi, rfl, htool, -⟩, hnot⟩ := (hs.pending_iff _ tool hget _ _).mp hentry
    exact ⟨i, mem_waiting_iff.mpr ⟨hi, hnot⟩, rfl, htool⟩
  constructor
  · exact hwaiting
  · rintro ⟨i, hi, rfl, rfl⟩
    obtain ⟨tool, hget, hentry⟩ :=
      mem_offered_iff.mp ((offered_perm hs).mem_iff.mpr (List.mem_map_of_mem hi))
    cases hlookup : lookup s.tools i.requestId with
    | none =>
      have happrovable : Approvable s.tools i.requestId :=
        ⟨i.tool, tool, hget, Option.isSome_iff_exists.mpr ⟨_, hentry⟩⟩
      exact absurd happrovable (lookup_eq_none_iff.mp hlookup)
    | some name =>
      obtain ⟨j, hj, hid, rfl⟩ := hwaiting hlookup
      exact congrArg (some ∘ Issued.tool)
        (hs.issued_eq (mem_waiting_iff.mp hj).1 (mem_waiting_iff.mp hi).1 hid)

/-- The list has what is waiting, each command once, beside what the other tools
have of their own; and an approval of an id goes to the tool that is listed with it. -/
structure ListsWaiting (tools : Registry) (s : Agent) : Prop where
  lists : ∃ items, listPendingApprovals (some s.tools) = .ok items ∧
    items.Perm ((waiting s).map Issued.item ++ standing tools)
  once : ((waiting s).map Issued.requestId).Nodup
  approves : ∀ id name, lookup s.tools id = some name ↔
    ∃ i ∈ waiting s, i.requestId = id ∧ i.tool = name

theorem consistent_of_run (hboot : Booted tools) (hrun : (machine tools).run acts = some s) :
    Consistent s :=
  Machine.run_invariant' (fun hs hstep => hs.step (agentStep_of_step hstep)) (.boot hboot) hrun

/-- **The list is what is waiting**, in every state of an agent. -/
theorem listed_of_run (hboot : Booted tools) (hrun : (machine tools).run acts = some s) :
    ListsWaiting tools s := by
  have hs := (consistent_of_run hboot hrun).tables
  have hstanding : standing s.tools = standing tools := by
    rw [standing_eq, standing_eq, bare_run hrun]
    rfl
  refine ⟨⟨_, rfl, ?_⟩, ?_, fun id name => lookup_eq_iff hs⟩
  · rw [← hstanding]
    have hitems := (offered_perm hs).map Offer.item
    rw [List.map_map] at hitems
    exact (list_perm _).trans (hitems.append_right _)
  · exact hs.issued_nodup.sublist (List.filter_sublist.map _)

theorem listed_doubleApprove :
    ∃ s, (machine gatedTools).run (doubleApprove.take 6) = some s ∧ ListsWaiting gatedTools s :=
  ⟨_, rfl, @listed_of_run gatedTools _ (doubleApprove.take 6) booted_gatedTools rfl⟩

end Listed

/-! ### What a reply shows -/

/-- The approval context that shows an entry. -/
def contextOf (entry : Pending) : Json :=
  .obj [("tool", .str "exec"), ("command", .str entry.command),
    ("cwd", if entry.cwd = "" then .null else .str entry.cwd),
    ("description", .str (executeShellCommand entry.command))]

/-- The entry that a call of an exec tool is to be recorded with. -/
def entryOf (tools : Registry) (activeSession : Option String) (call : ToolCall) : Option Pending :=
  match tools.get call.tool with
  | some (.gatewayExec tool) =>
    some (tool.block call.getcwd call.requestId
      ⟨call.command, call.workingDir, call.sessionKey, activeSession⟩).entry
  | _ => none

section Shown

variable {tools tools' : Registry} {s s' : Agent} {acts acts' : List Action} {call : ToolCall}
  {ctx : Context} {entry : Pending}

theorem entryOf_eq_some_iff {activeSession : Option String} :
    entryOf tools activeSession call = some entry ↔
      ∃ tool, tools.get call.tool = some (.gatewayExec tool) ∧
        (tool.block call.getcwd call.requestId
          ⟨call.command, call.workingDir, call.sessionKey, activeSession⟩).entry = entry := by
  unfold entryOf
  constructor
  · intro h
    split at h
    next tool hget => exact ⟨tool, hget, Option.some.inj h⟩
    next => exact absurd h (by simp)
  · rintro ⟨tool, hget, rfl⟩
    rw [hget]

theorem entryOf_of_bare {activeSession : Option String} (hbare : bare tools' = bare tools)
    (h : entryOf tools activeSession call = some entry) :
    entryOf tools' activeSession call = some entry := by
  obtain ⟨tool, hget, hentry⟩ := entryOf_eq_some_iff.mp h
  obtain ⟨tool', hget', hsettings⟩ := exists_of_bare_eq hbare hget
  exact entryOf_eq_some_iff.mpr
    ⟨tool', hget', by rw [GatewayExecTool.block_congr hsettings, hentry]⟩

theorem bare_execute (call : ToolCall) (tools : Registry) (ctx : Context) :
    bare (execute call tools ctx).1 = bare tools := by
  cases h : blocks tools call with
  | false => rw [execute_of_not_blocks h]
  | true =>
    obtain ⟨tool, hget, hgated⟩ := exists_tool_of_blocks h
    rw [execute_of_blocks hget hgated]
    exact bare_set hget rfl

theorem activeSession_execute :
    (execute call tools ctx).2.activeSession = ctx.activeSession := by
  cases h : blocks tools call with
  | false => rw [execute_of_not_blocks h]
  | true =>
    obtain ⟨tool, hget, hgated⟩ := exists_tool_of_blocks h
    rw [execute_of_blocks hget hgated]

/-- The variables show the entry of a call that was blocked, or have been left alone. -/
theorem runCalls_context (calls : List ToolCall) (tools : Registry) (ctx : Context) :
    (runCalls calls tools ctx).2 = ctx ∨
      ∃ call ∈ calls, ∃ entry, blocks tools call = true ∧
        entryOf tools ctx.activeSession call = some entry ∧
        (runCalls calls tools ctx).2.approvalRequestId = some call.requestId ∧
        (runCalls calls tools ctx).2.approvalContext = contextOf entry := by
  induction calls generalizing tools ctx with
  | nil => exact .inl rfl
  | cons call calls ih =>
    rw [runCalls]
    rcases ih (execute call tools ctx).1 (execute call tools ctx).2 with
      hsame | ⟨call', hcall', entry, hblocks, hentry, hid, hcontext⟩
    · rw [hsame]
      cases h : blocks tools call with
      | false => exact .inl (by rw [execute_of_not_blocks h])
      | true =>
        obtain ⟨tool, hget, hgated⟩ := exists_tool_of_blocks h
        have hentry : entryOf tools ctx.activeSession call =
            some (tool.block call.getcwd call.requestId (call.inContext ctx)).entry :=
          entryOf_eq_some_iff.mpr ⟨tool, hget, rfl⟩
        refine .inr ⟨call, List.mem_cons_self .., _, h, hentry, ?_, ?_⟩
        · rw [execute_of_blocks hget hgated]
        · rw [execute_of_blocks hget hgated]
          rfl
    · rw [blocks_execute] at hblocks
      rw [activeSession_execute] at hentry
      exact .inr ⟨call', List.mem_cons_of_mem _ hcall', entry, hblocks,
        entryOf_of_bare (bare_execute call tools ctx).symm hentry, hid, hcontext⟩

/-- What was issued stays so. -/
theorem mem_issued_of_run {i : Issued} (hi : i ∈ s.issued)
    (hrun : (machine tools).runFrom s acts = some s') : i ∈ s'.issued := by
  refine Machine.run_invariant' (I := fun x => i ∈ x.issued) (fun h hstep => ?_) hi hrun
  cases agentStep_of_step hstep with
  | issue => exact List.mem_append_left _ h
  | direct | approve => exact h
  | handle hat hstep =>
    rw [hstep.issued_eq]
    exact h

theorem agentStep_of_machine {a : Action} (hstep : (machine tools).step s a = some s') :
    AgentStep s a s' :=
  agentStep_of_step hstep

/-- A call that was made and blocked is recorded with its entry. -/
theorem issued_of_execute (hs : Consistent s) {activeSession : Option String}
    (hentry : entryOf s.tools activeSession call = some entry)
    (hcall : .execute call.tool call.getcwd call.requestId
      ⟨call.command, call.workingDir, call.sessionKey, activeSession⟩ ∈ acts)
    (hrun : (machine tools).runFrom s acts = some s') :
    ⟨call.requestId, call.tool, call.getcwd,
      ⟨call.command, call.workingDir, call.sessionKey, activeSession⟩, entry⟩ ∈ s'.issued := by
  obtain ⟨before, after, rfl⟩ := List.append_of_mem hcall
  obtain ⟨u, hbefore, hrest⟩ := Machine.runFrom_append_eq_some _ |>.mp hrun
  obtain ⟨v, hstep, hafter⟩ := (machine tools).runFrom_cons_eq_some.mp hrest
  have hu : Consistent u :=
    Machine.run_invariant' (fun hs hstep => hs.step (agentStep_of_step hstep)) hs hbefore
  refine mem_issued_of_run ?_ hafter
  obtain ⟨tool, hget, rfl⟩ :=
    entryOf_eq_some_iff.mp (entryOf_of_bare (bare_run hbefore) hentry)
  cases agentStep_of_machine hstep with
  | issue hget' hgated hfresh =>
    obtain rfl := Tool.gatewayExec.inj (Option.some.inj (hget.symm.trans hget'))
    exact List.mem_append_right _ (List.mem_singleton_self _)
  | direct hget' hungated =>
    exact absurd (hu.tables.gated _ _ hget') (by simp [hungated])

/-- What a client was shown of an entry is what it is. -/
structure Shows (s : Agent) (id : String) (context : Json) (i : Issued) : Prop where
  issued : i ∈ s.issued
  requestId : i.requestId = id
  context : context = contextOf i.entry
  listed : id ∉ s.takenIds → i ∈ waiting s
  run : ∀ st ∈ s.started, st.requestId? = some id →
    ∃ h, st = .approved h id i.entry.command i.entry.cwd

/-- **What is shown is what is run.** A turn begins in some state, and its calls are made while
whatever else is going on. Then the context in its reply shows the entry that is recorded under the
id in its reply: it is what the list shows as long as it is not approved, and what is started when
it is. -/
theorem shown_is_run (hboot : Booted tools) (hrun : (machine tools).run acts = some s)
    (hrun' : (machine tools).runFrom s acts' = some s') {turn : ProcessDirect} {ctx : Context}
    {sessionId response id : String} {context : Json}
    (hcalls : ∀ call ∈ turn.calls, blocks s.tools call = true →
      .execute call.tool call.getcwd call.requestId
        ⟨call.command, call.workingDir, call.sessionKey, some sessionId⟩ ∈ acts')
    (hreply : (runChat sessionId turn s.tools ctx).1 = .response response (some id) context) :
    ∃ i, Shows s' id context i := by
  have hs := consistent_of_run hboot hrun
  have hs' : Consistent s' :=
    Machine.run_invariant' (fun hs hstep => hs.step (agentStep_of_step hstep)) hs hrun'
  have hvars : (runCalls turn.calls s.tools ⟨some sessionId, none, .null⟩).2.approvalRequestId =
        some id ∧
      (runCalls turn.calls s.tools ⟨some sessionId, none, .null⟩).2.approvalContext = context := by
    unfold runChat at hreply
    cases hresult : turn.result with
    | error e => simp [hresult] at hreply
    | ok result =>
      rw [hresult] at hreply
      obtain ⟨-, hid, hcontext⟩ := Outcome.response.inj hreply
      exact ⟨hid, hcontext⟩
  rcases runCalls_context turn.calls s.tools ⟨some sessionId, none, .null⟩ with
    hsame | ⟨call, hcall, entry, hblocks, hentry, hid, hcontext⟩
  · rw [hsame] at hvars
    exact absurd hvars.1 (by simp)
  · obtain rfl := Option.some.inj (hid.symm.trans hvars.1)
    have hissued := issued_of_execute hs hentry (hcalls call hcall hblocks) hrun'
    refine ⟨_, hissued, rfl, hvars.2.symm.trans hcontext, fun hnot => ?_, fun st hst hst' => ?_⟩
    · exact mem_waiting_iff.mpr ⟨hissued, hnot⟩
    · obtain ⟨h, body, pc, i, hi, -, -, hrequest, -, -, heq⟩ := hs'.handlers.started st hst _ hst'
      obtain rfl := hs'.tables.issued_eq hi hissued hrequest
      exact ⟨h, heq⟩

/-- A turn of Alice's that is blocked, and the approval of its command. -/
def askToMake : ProcessDirect where
  calls := [⟨"exec", "/root", "r1", "make", none, none⟩]
  result := .ok (some "Waiting for approval.")

theorem shown_doubleApprove :
    ∃ s i, (machine gatedTools).run doubleApprove = some s ∧
      Shows s "r1" (contextOf ⟨"make", "/root", "api:alice", "api", "direct"⟩) i := by
  have hcalls : ∀ call ∈ askToMake.calls, blocks (Agent.boot gatedTools).tools call = true →
      .execute call.tool call.getcwd call.requestId
        ⟨call.command, call.workingDir, call.sessionKey, some "api:alice"⟩ ∈ doubleApprove := by
    simp [askToMake, doubleApprove]
  obtain ⟨response, hreply⟩ : ∃ response,
      (runChat "api:alice" askToMake (Agent.boot gatedTools).tools noContext).1 =
        .response response (some "r1")
          (contextOf ⟨"make", "/root", "api:alice", "api", "direct"⟩) := ⟨_, rfl⟩
  obtain ⟨i, hi⟩ := shown_is_run booted_gatedTools (rfl : (machine gatedTools).run [] = some _)
    (rfl : (machine gatedTools).runFrom _ doubleApprove = some _) hcalls hreply
  exact ⟨_, i, rfl, hi⟩

end Shown

end Nanogate.Approval
