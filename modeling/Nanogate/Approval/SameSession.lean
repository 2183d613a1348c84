import Nanogate.Approval.Attribution

/-!
# The session id of a client

A client sends its session id to the gateway's chat route, from where it gets to the agent through
the bus, or to the agent's own, and sends it again when it approves a command. The two chat routes
normalise it by one rule, once or twice; the approval route has a rule of its own, which leaves a
blank id out of the comparison. All three come to one normal form. So an approval with the id that
was chatted with is never refused for its session, if the entry was added in the turn of that chat.

## Main definitions

* `Compares`, `Passes` — what the session check of the approval route makes of a body
* `InTurn` — the states of a run that lie in the turn of a client's chat
* `Agree` — the routes agree on an id

## Main results

* `not_refused_of_inTurn` — an approval with the id of the chat is not refused
* `routes_agree` — the routes agree on every id
-/

namespace Nanogate.Approval

open Nanogate.Python Nanogate.Bus Nanogate.Semantics

/-! ### The session check -/

/-- `should_resume` -/
def ApproveBody.shouldResume (body : ApproveBody) (run : Run) : Bool :=
  body.autoResume && (run.exitCode = 0 || body.resumeOnFailure)

/-- The check compares `normalized` with the session of the entry: the turn is resumed if they are
equal, and the call is refused if not. -/
def Compares (body : ApproveBody) (normalized : String) : Prop :=
  ∀ entry run, run.success = true → body.shouldResume run = true →
    if normalized = entry.sessionKey then
      ∃ turn response, afterRun body entry run = .resume turn response
    else afterRun body entry run = .answer (.error (sessionMismatch body entry normalized))

/-- The check makes no comparison: every turn is resumed. -/
def Passes (body : ApproveBody) : Prop :=
  ∀ entry run, run.success = true → body.shouldResume run = true →
    ∃ turn response, afterRun body entry run = .resume turn response

/-- The id is missing or nothing but white space. -/
def Blank (raw : Option String) : Prop := stripped raw = ""

instance (raw : Option String) : Decidable (Blank raw) := inferInstanceAs (Decidable (_ = _))

section Check

variable {raw : Option String} {body : ApproveBody} {normalized : String}

theorem compares_of_session (h : body.session = some normalized) : Compares body normalized := by
  intro entry run hsuccess hresume
  split_ifs with hsame
  · refine exists_resume (fun other hother => ?_) hsuccess hresume
    rw [← Option.some.inj (h.symm.trans hother), hsame]
  · exact afterRun_of_mismatch h hsame hsuccess hresume

theorem passes_of_session (h : body.session = none) : Passes body := fun _ _ hsuccess hresume =>
  exists_resume (fun _ hother => absurd hother (by simp [h])) hsuccess hresume

theorem stripped_some (s : String) : stripped (some s) = strip s := by
  by_cases hs : s = "" <;> simp [stripped, orElse, hs]

/-- The rule of the approval route comes to the normal form of the chat routes. -/
theorem session_of_not_blank (hbody : body.sessionId = raw) (hraw : ¬ Blank raw) :
    body.session = some (Agent.normalizeSession raw) := by
  cases raw with
  | none => exact absurd (by decide) hraw
  | some s =>
    rw [Blank, stripped_some] at hraw
    have hs : s ≠ "" := by
      rintro rfl
      exact hraw (by decide)
    simp [ApproveBody.session, hbody, Agent.normalizeSession, normalizeSessionId, hs, hraw, orElse]

/-- A blank id is left out. -/
theorem session_of_blank (hbody : body.sessionId = raw) (hraw : Blank raw) :
    body.session = none := by
  cases raw with
  | none => simp [ApproveBody.session, hbody]
  | some s =>
    rw [Blank, stripped_some] at hraw
    simp [ApproveBody.session, hbody, hraw]

end Check

/-! ### The turn of a chat -/

/-- The step begins a turn for a client that has sent `raw` as its session id, to the gateway, whose
request has come through the bus, or to the agent itself. -/
def SiteAction.Begins (turn : TurnRef) (raw : Option String) : SiteAction → Prop
  | .take payload => turn = .bus ∧ ∃ defaultTenantId request acc,
      Bus.chat defaultTenantId request = .ok acc ∧ acc.payload = payload ∧ request.sessionId = raw
  | .chat k sessionId => turn = .chat k ∧ sessionId = raw
  | .reply | .answer _ | .approval _ | .execute .. => False

/-- The step ends the turn. -/
def SiteAction.ends (turn : TurnRef) : SiteAction → Bool
  | .reply => turn = .bus
  | .answer k => turn = .chat k
  | .take _ | .chat .. | .approval _ | .execute .. => false

/-- In some run the turn of a client that sent `raw` began with the step to `s₀` and has not ended
in `s₁`. -/
structure InTurn (tools : Registry) (raw : Option String) (turn : TurnRef) (s₀ s₁ : Site) :
    Prop where
  began : ∃ before act, SiteAction.Begins turn raw act ∧
    (site tools).run (before ++ [act]) = some s₀
  lasts : ∃ during : List SiteAction, (∀ act ∈ during, act.ends turn = false) ∧
    (site tools).runFrom s₀ during = some s₁

section Turn

variable {tools : Registry} {raw : Option String} {turn : TurnRef} {s s' s₀ s₁ : Site}
  {act : SiteAction} {session : String} {task : Task} {n : ℕ}

/-- A turn that a chat begins is one of the session that the id stands for. -/
theorem SiteStep.task_of_begins (hstep : SiteStep s act s') (h : act.Begins turn raw) :
    turn.isResumed = false ∧
      s'.task turn =
        some ⟨some (Agent.normalizeSession raw), some (Agent.normalizeSession raw)⟩ := by
  cases hstep with
  | take =>
    obtain ⟨rfl, defaultTenantId, request, acc, hchat, rfl, rfl⟩ := h
    rw [requestSession_of_chat hchat, sessionId_of_chat hchat]
    exact ⟨rfl, rfl⟩
  | chat =>
    obtain ⟨rfl, rfl⟩ := h
    exact ⟨rfl, by simp [Site.task, Site.setRequest, Task.runChat]⟩
  | reply | answer | approval | execute => exact absurd h (by simp [SiteAction.Begins])

theorem task_setRequest {k : ℕ} (hne : turn ≠ .chat k) :
    (s.setRequest k task).task turn = s.task turn := by
  cases turn with
  | bus | resumed => rfl
  | chat k' =>
    have hk : k' ≠ k := fun heq => hne (congrArg _ heq)
    simp [Site.task, Site.setRequest, hk]

/-- A turn that a chat has begun goes on until it ends. -/
theorem SiteStep.task_of_not_ends (hstep : SiteStep s act s') (hturn : turn.isResumed = false)
    (htask : s.task turn = some task) (hsession : task.session ≠ none)
    (hends : act.ends turn = false) : s'.task turn = some task := by
  -- what the agent does leaves the tasks of the other turns alone
  have hagent {agent : Agent} {asked : List Asked} :
      ({ s with agent, asked } : Site).task turn = s.task turn := by
    cases turn with
    | bus | chat => rfl
    | resumed => simp [TurnRef.isResumed] at hturn
  cases hstep with
  | take hidle =>
    cases turn with
    | bus =>
      obtain rfl := Option.some.inj htask
      exact absurd hidle hsession
    | chat => exact htask
    | resumed => simp [TurnRef.isResumed] at hturn
  | reply =>
    cases turn with
    | bus => simp [SiteAction.ends] at hends
    | chat => exact htask
    | resumed => simp [TurnRef.isResumed] at hturn
  | chat habsent =>
    refine (task_setRequest ?_).trans htask
    rintro rfl
    exact absurd (habsent.symm.trans htask) (by simp)
  | answer =>
    refine (task_setRequest ?_).trans htask
    simpa [SiteAction.ends] using hends
  | approval => exact hagent.trans htask
  | execute => exact hagent.trans htask

/-- What is asked in a turn is asked for its session. -/
theorem SiteStep.exists_asked (hstep : SiteStep s act s') :
    ∃ new, s'.asked = s.asked ++ new ∧ ∀ x ∈ new, x.issued ∈ s'.agent.issued ∧
      ∃ activeSession, s.task x.turn = some ⟨some x.session, activeSession⟩ := by
  cases hstep with
  | execute htask hagent =>
    refine ⟨_, rfl, fun x hx => ?_⟩
    obtain ⟨i, hi, rfl⟩ := List.mem_map.mp hx
    exact ⟨List.mem_of_mem_drop hi, _, htask⟩
  | take | reply | chat | answer | approval => exact ⟨[], (List.append_nil _).symm, by simp⟩

/-- The turn of the session has not ended, and what was asked in it since there were `n` entries was
asked for the session. -/
structure InSession (turn : TurnRef) (session : String) (n : ℕ) (s : Site) : Prop where
  task : s.task turn = some ⟨some session, some session⟩
  length : n ≤ s.asked.length
  asked : ∀ x ∈ s.asked.drop n, x.turn = turn → x.session = session

theorem InSession.step (h : InSession turn session n s) (hturn : turn.isResumed = false)
    (hends : act.ends turn = false) (hstep : SiteStep s act s') : InSession turn session n s' := by
  obtain ⟨new, hasked, hnew⟩ := hstep.exists_asked
  refine ⟨hstep.task_of_not_ends hturn h.task (by simp) hends, ?_, fun x hx hxturn => ?_⟩
  · rw [hasked, List.length_append]
    exact h.length.trans (Nat.le_add_right _ _)
  · rw [hasked, List.drop_append_of_le_length h.length] at hx
    rcases List.mem_append.mp hx with hold | hx
    · exact h.asked x hold hxturn
    · obtain ⟨-, activeSession, htask⟩ := hnew x hx
      rw [hxturn, h.task] at htask
      exact (Option.some.inj (Task.mk.inj (Option.some.inj htask)).1).symm

/-- The entries that are added in the turn of a chat are for the session of the client. -/
theorem session_of_inTurn (h : InTurn tools raw turn s₀ s₁) :
    turn.isResumed = false ∧ ∀ x ∈ s₁.asked.drop s₀.asked.length, x.turn = turn →
      x.session = Agent.normalizeSession raw := by
  obtain ⟨⟨before, act, hbegins, hrun₀⟩, during, hlasts, hrun₁⟩ := h
  obtain ⟨u, -, hstep⟩ := (Machine.runFrom_append_eq_some _).mp hrun₀
  obtain ⟨v, hact, hnil⟩ := (Machine.runFrom_cons_eq_some _).mp hstep
  obtain rfl := Option.some.inj hnil
  obtain ⟨hturn, htask⟩ := (siteStep_of_step hact).task_of_begins hbegins
  have hstart : InSession turn (Agent.normalizeSession raw) v.asked.length v :=
    ⟨htask, le_rfl, by simp⟩
  have hlast : InSession turn (Agent.normalizeSession raw) v.asked.length s₁ :=
    Machine.run_invariant (G := fun _ act => act.ends turn = false)
      (fun h hends hstep => h.step hturn hends (siteStep_of_step hstep)) hstart
      (Machine.AllSteps.of_labels hlasts) hrun₁
  exact ⟨hturn, hlast.asked⟩

end Turn

/-! ### The entry that an approval takes -/

/-- Request ids are issued once, and whatever is pending or was taken is what was issued under its
id. -/
structure Issuing (a : Agent) : Prop where
  nodup : (a.issued.map Issued.requestId).Nodup
  entries : EveryEntry (fun id entry => ∃ i ∈ a.issued, i.requestId = id ∧ i.entry = entry) a

section Issuing

variable {a a' : Agent} {b : Action} {tools : Registry} {s s' : Site} {acts : List SiteAction}

theorem Issuing.step (h : Issuing a) (hstep : AgentStep a b a') : Issuing a' := by
  obtain ⟨new, hissued, hnew⟩ := hstep.exists_issued
  have hkept :
      EveryEntry (fun id entry => ∃ i ∈ a'.issued, i.requestId = id ∧ i.entry = entry) a := by
    refine h.entries.mono fun id entry ⟨i, hi, hentry⟩ => ⟨i, ?_, hentry⟩
    rw [hissued]
    exact List.mem_append_left _ hi
  refine ⟨?_, hkept.step hstep fun i hi => ⟨i, List.mem_of_mem_drop hi, rfl, rfl⟩⟩
  rw [hissued, List.map_append]
  rcases hnew with rfl | ⟨name, getcwd, requestId, call, tool, -, hfresh, rfl⟩
  · simpa using h.nodup
  · exact h.nodup.append (List.nodup_singleton _) (List.disjoint_singleton.mpr hfresh)

/-- What was asked was issued. -/
structure Asking (s : Site) : Prop where
  issuing : Issuing s.agent
  issued : ∀ x ∈ s.asked, x.issued ∈ s.agent.issued

theorem Asking.step {act : SiteAction} (h : Asking s) (hstep : SiteStep s act s') : Asking s' := by
  have hgrown {b : Action} {agent : Agent} (hagent : AgentStep s.agent b agent) :
      ∀ x ∈ s.asked, x.issued ∈ agent.issued := fun x hx => by
    obtain ⟨new, hissued, -⟩ := hagent.exists_issued
    rw [hissued]
    exact List.mem_append_left _ (h.issued x hx)
  cases hstep with
  | take | reply | chat | answer => exact ⟨h.issuing, h.issued⟩
  | approval handles hagent => exact ⟨h.issuing.step hagent, hgrown hagent⟩
  | execute htask hagent =>
    refine ⟨h.issuing.step hagent, fun x hx => ?_⟩
    rcases List.mem_append.mp hx with hold | hnew
    · exact hgrown hagent x hold
    · obtain ⟨i, hi, rfl⟩ := List.mem_map.mp hnew
      exact List.mem_of_mem_drop hi

theorem asking_boot (hboot : EmptyTables tools) : Asking (.boot tools) where
  issuing := ⟨List.nodup_nil, everyEntry_boot hboot⟩
  issued x hx := by simp [Site.boot] at hx

/-- The entry that a handler has taken for the id of an entry that was asked for is that one. -/
theorem Asking.entry_eq (hs : Asking s) {x : Asked} (hx : x ∈ s.asked) {h : ℕ} {body : ApproveBody}
    {pc : Pc} {entry : Pending} (hat : s.agent.handlers h = some ⟨body, pc⟩)
    (hentry : pc.entry = some entry) (hid : body.requestId = x.issued.requestId) :
    entry = x.issued.entry := by
  obtain ⟨i, hissued, hrequest, rfl⟩ := hs.issuing.entries.taken h body pc entry hat hentry
  exact congrArg Issued.entry
    (List.inj_on_of_nodup_map hs.issuing.nodup hissued (hs.issued x hx) (hrequest.trans hid))

end Issuing

/-! ### The main result -/

section Agree

variable {tools : Registry} {raw : Option String} {turn : TurnRef} {s₀ s₁ s : Site}
  {after : List SiteAction}

theorem InTurn.exists_run (h : InTurn tools raw turn s₀ s₁) :
    ∃ acts, (site tools).run acts = some s₁ := by
  obtain ⟨⟨before, act, -, hrun₀⟩, during, -, hrun₁⟩ := h
  exact ⟨_, (Machine.runFrom_append_eq_some _).mpr ⟨s₀, hrun₀, hrun₁⟩⟩

/-- An entry that was added in the turn of a chat is recorded for the session of the client. -/
theorem sessionKey_of_inTurn (hboot : EmptyTables tools) (h : InTurn tools raw turn s₀ s₁)
    {x : Asked} (hx : x ∈ s₁.asked.drop s₀.asked.length) (hxturn : x.turn = turn) :
    x.issued.entry.sessionKey = Agent.normalizeSession raw := by
  obtain ⟨acts, hrun⟩ := h.exists_run
  obtain ⟨hturn, hsession⟩ := session_of_inTurn h
  obtain ⟨-, hkey⟩ := (recorded_run hboot hrun).asked x (List.mem_of_mem_drop hx)
  rw [hkey, TurnRef.recordedFor, hxturn, hturn, hsession x hx hxturn]
  rfl

/-- A body that names the id of a chat names the session of it, or none. -/
theorem session_of_chatted {body : ApproveBody} {session : String}
    (hbody : body.sessionId = raw ∨ body.sessionId = some (Agent.normalizeSession raw))
    (hsession : body.session = some session) : session = Agent.normalizeSession raw := by
  rcases hbody with hbody | hbody
  · by_cases hraw : Blank raw
    · simp [session_of_blank hbody hraw] at hsession
    · exact Option.some.inj (hsession.symm.trans (session_of_not_blank hbody hraw))
  · exact Option.some.inj (hsession.symm.trans
      (session_of_normalized (normalized_normalizeSessionId raw) hbody))

/-- **The id of the chat is accepted.** Whoever approves an entry that was added in the turn of a
chat, with the id that was chatted with or with its normal form, is not refused for the session:
however long after and whatever else happens, a command that has succeeded is not answered by an
error. -/
theorem not_refused_of_inTurn (hboot : EmptyTables tools) (h : InTurn tools raw turn s₀ s₁)
    (hrun : (site tools).runFrom s₁ after = some s) {x : Asked}
    (hx : x ∈ s₁.asked.drop s₀.asked.length) (hxturn : x.turn = turn) {n : ℕ} {body : ApproveBody}
    {pc : Pc} {entry : Pending} (hat : s.agent.handlers n = some ⟨body, pc⟩)
    (hentry : pc.entry = some entry) (hid : body.requestId = x.issued.requestId)
    (hbody : body.sessionId = raw ∨ body.sessionId = some (Agent.normalizeSession raw)) {run : Run}
    (hsuccess : run.success = true) (error : HttpError) :
    afterRun body entry run ≠ .answer (.error error) := by
  obtain ⟨acts, hacts⟩ := h.exists_run
  have hasking : Asking s₁ := Machine.run_invariant'
    (fun hs hstep => hs.step (siteStep_of_step hstep)) (asking_boot hboot) hacts
  -- the entry is still what was asked for
  obtain ⟨hlater, hmem⟩ : Asking s ∧ x ∈ s.asked := by
    refine Machine.run_invariant' (I := fun s => Asking s ∧ x ∈ s.asked) ?_
      ⟨hasking, List.mem_of_mem_drop hx⟩ hrun
    rintro s act s' ⟨hs, hmem⟩ hstep
    obtain ⟨new, hasked, -⟩ := (siteStep_of_step hstep).exists_asked
    exact ⟨hs.step (siteStep_of_step hstep), hasked ▸ List.mem_append_left _ hmem⟩
  have hkey : entry.sessionKey = Agent.normalizeSession raw := by
    rw [hlater.entry_eq hmem hat hentry hid]
    exact sessionKey_of_inTurn hboot h hx hxturn
  refine (afterRun_ne_error_iff hsuccess).mpr (fun _ session hsession => ?_) error
  rw [hkey]
  exact session_of_chatted hbody hsession

/-- The routes agree on a session id: the chat routes on its normal form, which they keep, and the
approval route, which is given the id or its normal form, on comparing that, or nothing if the id
is blank; so that who chats with the id and approves with it is not refused for the session. -/
structure Agree (raw : Option String) : Prop where
  same : Gateway.normalizeSession raw = Agent.normalizeSession raw
  gateway : Gateway.normalizeSession (some (Agent.normalizeSession raw)) =
    Agent.normalizeSession raw
  agent : Agent.normalizeSession (some (Agent.normalizeSession raw)) = Agent.normalizeSession raw
  normalized : Normalized (Agent.normalizeSession raw)
  compares : ¬ Blank raw → ∀ body : ApproveBody, body.sessionId = raw →
    Compares body (Agent.normalizeSession raw)
  passes : Blank raw → ∀ body : ApproveBody, body.sessionId = raw → Passes body
  comparesNormal : ∀ body : ApproveBody, body.sessionId = some (Agent.normalizeSession raw) →
    Compares body (Agent.normalizeSession raw)
  accepts : ∀ tools turn s₀ s₁ after s, EmptyTables tools → InTurn tools raw turn s₀ s₁ →
    (site tools).runFrom s₁ after = some s →
    ∀ x ∈ s₁.asked.drop s₀.asked.length, x.turn = turn →
      ∀ n body pc entry, s.agent.handlers n = some ⟨body, pc⟩ → pc.entry = some entry →
        body.requestId = x.issued.requestId →
        (body.sessionId = raw ∨ body.sessionId = some (Agent.normalizeSession raw)) →
          ∀ run : Run, run.success = true →
            ∀ error, afterRun body entry run ≠ .answer (.error error)

/-- **All routes agree** on every session id. -/
theorem routes_agree (raw : Option String) : Agree raw where
  same := rfl
  gateway := normalizeSessionId_of_normalized (normalized_normalizeSessionId raw)
  agent := normalizeSessionId_of_normalized (normalized_normalizeSessionId raw)
  normalized := normalized_normalizeSessionId raw
  compares hraw _ hbody := compares_of_session (session_of_not_blank hbody hraw)
  passes hraw _ hbody := passes_of_session (session_of_blank hbody hraw)
  comparesNormal _ hbody :=
    compares_of_session (session_of_normalized (normalized_normalizeSessionId raw) hbody)
  accepts _ _ _ _ _ _ hboot hturn hrun _ hx hxturn _ _ _ _ hat hentry hid hbody _ hsuccess error :=
    not_refused_of_inTurn hboot hturn hrun hx hxturn hat hentry hid hbody hsuccess error

/-- Alice approves a command of her chat with the id that she chats with. -/
def aliceApproves : ApproveBody := ⟨"r1", some " alice ", true, false⟩

/-- Her chat has ended, and the handler of her approval has taken the entry. -/
def aliceApproving : List SiteAction :=
  [.answer 0, .approval (.approve 0 aliceApproves), .approval (.handle 0 .lookup),
    .approval (.handle 0 .take)]

theorem routes_agree_alice : ∃ s₀ s₁ s entry, InTurn gatedTools (some " alice ") (.chat 0) s₀ s₁ ∧
    (site gatedTools).runFrom s₁ aliceApproving = some s ∧
    s.agent.handlers 0 = some ⟨aliceApproves, .starting entry⟩ ∧
      ∀ run : Run, run.success = true → ∀ error,
        afterRun aliceApproves entry run ≠ .answer (.error error) := by
  have hturn : InTurn gatedTools (some " alice ") (.chat 0) _ _ :=
    ⟨⟨[], .chat 0 (some " alice "), ⟨rfl, rfl⟩, rfl⟩,
      [.execute (.chat 0) "exec" "/root" "r1" "make" none], by decide, rfl⟩
  refine ⟨_, _, _, _, hturn, rfl, rfl, ?_⟩
  exact (routes_agree (some " alice ")).accepts _ _ _ _ aliceApproving _
    booted_gatedTools.emptyTables hturn rfl _ (List.mem_cons_self ..) rfl 0 aliceApproves
    (.starting _) _ rfl rfl rfl (.inl rfl)

end Agree

end Nanogate.Approval
