import Nanogate.Approval.Tool

/-!
# Approvals for the wrong session

The route compares the session an approval names with the session the command was
blocked in, but it does so on the way to resuming the conversation: by then the entry
has left the table and the command has run. So an approval is without effect exactly
when the route finds no tool to approve it with, whatever session it names. What the
check does achieve is that no conversation is resumed.

## Main definitions

* `WrongSession` — the id is pending, and the body names another session than its entry
* `NoEffect` — answered 400, nothing started, nothing resumed, no table changed

## Main results

* `afterRun_ne_error_iff` — when a run that has succeeded is refused
* `noEffect_iff` — a call has no effect exactly when the id is not approvable
* `turns_of_wrongSession` — the wrong session never gets a resumed turn
-/

namespace Nanogate.Approval

open Nanogate.Python Nanogate.Bus

variable {tools : Registry} {body : ApproveBody} {env : Environment}

/-- The id of the body is in the table of some tool, and the body names a session that
is not the one recorded there. -/
def WrongSession (tools : Registry) (body : ApproveBody) : Prop :=
  ∃ name tool entry session, tools.get name = some tool ∧
    tool.pending.get body.requestId = some entry ∧
    body.session = some session ∧ session ≠ entry.sessionKey

/-- Answered 400 with nothing done. -/
structure NoEffect (tools : Registry) (h : Handled) : Prop where
  refused : ∃ detail, h.reply = .error { statusCode := 400, detail }
  started : h.started = []
  turns : h.turns = []
  tools_eq : h.tools = tools

/-! ### The check -/

section Check

variable {entry : Pending} {run : Run} {session : String} {turn : Turn} {response : Json}

/-- `detail` when the sessions differ. -/
def sessionMismatch (body : ApproveBody) (entry : Pending) (normalized : String) : HttpError :=
  { statusCode := 400
    detail := "sessionId mismatch for request_id " ++ body.requestId ++ ": expected " ++
      entry.sessionKey ++ ", got " ++ normalized }

/-- A body that names no other session than the entry's lets the turn be resumed. -/
theorem exists_resume (hsession : ∀ session, body.session = some session →
      session = entry.sessionKey) (hsuccess : run.success = true)
    (hresume : (body.autoResume && (run.exitCode = 0 || body.resumeOnFailure)) = true) :
    ∃ turn response, afterRun body entry run = .resume turn response := by
  rw [afterRun, if_neg (by simp [hsuccess]), if_pos hresume]
  cases hbody : body.session with
  | none => exact ⟨_, _, rfl⟩
  | some session =>
    obtain rfl := hsession session hbody
    simp only [if_true]
    exact ⟨_, _, rfl⟩

/-- A body that names another one is refused. -/
theorem afterRun_of_mismatch (hsession : body.session = some session)
    (hne : session ≠ entry.sessionKey) (hsuccess : run.success = true)
    (hresume : (body.autoResume && (run.exitCode = 0 || body.resumeOnFailure)) = true) :
    afterRun body entry run = .answer (.error (sessionMismatch body entry session)) := by
  rw [afterRun, if_neg (by simp [hsuccess]), if_pos hresume]
  simp only [hsession, hne, if_false, sessionMismatch]

/-- Without a resumed turn the session is not looked at, and a successful approval for the
wrong session is answered 200. -/
theorem afterRun_of_not_resumed (hsuccess : run.success = true)
    (hstay : (body.autoResume && (run.exitCode = 0 || body.resumeOnFailure)) = false) :
    ∃ response, afterRun body entry run = .answer (.ok response) := by
  unfold afterRun
  rw [if_neg (by simp [hsuccess]), if_neg (by simpa using hstay)]
  exact ⟨_, rfl⟩

/-- A run that has succeeded is answered by an error exactly if its turn is to be resumed and the
sessions differ. -/
theorem afterRun_ne_error_iff (hsuccess : run.success = true) :
    (∀ error, afterRun body entry run ≠ .answer (.error error)) ↔
      ((body.autoResume && (run.exitCode = 0 || body.resumeOnFailure)) = true →
        ∀ session, body.session = some session → session = entry.sessionKey) := by
  constructor
  · intro h hresume session hsession
    by_contra hne
    exact h _ (afterRun_of_mismatch hsession hne hsuccess hresume)
  · intro h error herror
    cases hresume : (body.autoResume && (run.exitCode = 0 || body.resumeOnFailure)) with
    | true =>
      obtain ⟨turn, response, hafter⟩ := exists_resume (h hresume) hsuccess hresume
      simp [hafter] at herror
    | false =>
      obtain ⟨response, hafter⟩ : ∃ response, afterRun body entry run = .answer (.ok response) :=
        afterRun_of_not_resumed hsuccess hresume
      simp [hafter] at herror

/-- A turn is resumed for the session of the entry, and only if the body names no other one. -/
theorem session_of_resume (h : afterRun body entry run = .resume turn response) :
    (∀ session, body.session = some session → session = entry.sessionKey) ∧
      turn.sessionKey = entry.sessionKey ∧
      response = (runResponse entry run).set "session_id" (.str entry.sessionKey) := by
  unfold afterRun at h
  dsimp only at h
  split_ifs at h
  split at h
  next => exact absurd h (by simp)
  next hmismatch =>
    obtain ⟨rfl, rfl⟩ := Decision.resume.inj h
    refine ⟨fun session hsession => ?_, rfl, rfl⟩
    simpa [hsession] using hmismatch

end Check

/-! ### A call that finds its entry -/

/-- However the command and the turn go, the entry is gone afterwards. -/
theorem tools_approve_ne {name : String} (hlookup : lookup tools body.requestId = some name) :
    (approve (some tools) body env).tools ≠ tools := by
  obtain ⟨tool, entry, htake⟩ := exists_take_of_lookup hlookup
  obtain ⟨hget, hentry, -⟩ := take_eq_some_iff.mp htake
  have htools : (approve (some tools) body env).tools =
      tools.set name (.gatewayExec (tool.forget body.requestId)) := by
    rw [approve_of_take hlookup htake]
    split <;> rfl
  rw [htools]
  intro heq
  have hself : tools.get name = some (.gatewayExec (tool.forget body.requestId)) := by
    rw [← heq, Dict.get_set_self]
  rw [hget] at hself
  have hforget : tool = tool.forget body.requestId := Tool.gatewayExec.inj (Option.some.inj hself)
  have hgone : (tool.forget body.requestId).pending.get body.requestId = none :=
    Dict.get_erase_self
  rw [← hforget, hentry] at hgone
  exact absurd hgone (by simp)

/-- **When an approval has no effect.** The call is answered 400 and leaves nothing behind
exactly when no tool that can run an approved command holds the id; the session named
by the body plays no part. -/
theorem noEffect_iff (tools : Registry) (body : ApproveBody) (env : Environment) :
    NoEffect tools (approve (some tools) body env) ↔ ¬ Approvable tools body.requestId := by
  rw [← lookup_eq_none_iff]
  constructor
  · intro h
    rw [Option.eq_none_iff_forall_ne_some]
    intro name hname
    exact tools_approve_ne hname h.tools_eq
  · intro hnone
    simp only [approve, hnone]
    exact ⟨⟨_, rfl⟩, rfl, rfl, rfl⟩

/-! ### The wrong session -/

/-- An exec tool holding a command that was blocked in the session `api:alice`. -/
def aliceAsked : Registry :=
  Dict.empty.set "exec" (.gatewayExec
    { settings := ⟨true, "", true, none⟩
      pending := Dict.empty.set "r1" ⟨"rm -r out", "/root", "api:alice", "api", "direct"⟩ })

/-- An approval of that command that names the session `api:bob`. -/
def bobApproves : ApproveBody := ⟨"r1", some "bob", true, false⟩

/-- The session check comes too late: the call below is refused, but the command has run and
its entry is gone. -/
theorem wrongSession_has_effect :
    ¬ ∀ tools body env, WrongSession tools body →
      NoEffect tools (approve (some tools) body env) := by
  intro hclaim
  have hwrong : WrongSession aliceAsked bobApproves :=
    ⟨"exec", _, _, "api:bob", rfl, rfl, by decide, by decide⟩
  have h := hclaim aliceAsked bobApproves ⟨.exited "" "" 0, .ok none⟩ hwrong
  exact absurd h.started (by decide)

/-- What the check achieves: whichever tool the id is taken from, a body that names another
session than its entry starts no turn. -/
theorem turns_of_wrongSession {session : String} (hsession : body.session = some session)
    (hne : ∀ name tool entry, tools.get name = some (.gatewayExec tool) →
      tool.pending.get body.requestId = some entry → session ≠ entry.sessionKey) :
    (approve (some tools) body env).turns = [] := by
  cases hlookup : lookup tools body.requestId with
  | none => simp only [approve, hlookup]
  | some name =>
    obtain ⟨tool, entry, htake⟩ := exists_take_of_lookup hlookup
    obtain ⟨hget, hentry, -⟩ := take_eq_some_iff.mp htake
    rw [approve_of_take hlookup htake]
    split
    next => rfl
    next hresume =>
      exact absurd ((session_of_resume hresume).1 session hsession)
        (hne name tool entry hget hentry)

end Nanogate.Approval
