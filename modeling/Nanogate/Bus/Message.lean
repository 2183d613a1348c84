import Nanogate.Python.Json
import Nanogate.Python.Text

/-!
# Sessions, keys and payloads of the message bus

What the gateway's chat route and the agent's listener agree on without speaking
to each other: how a client's session id is normalised, the Redis keys built from
tenant and session ids, and the dictionaries that travel through the lists and
streams. Keys are built by plain interpolation; the lemmas below say what still
keeps them apart.

## Main definitions

* `Gateway.normalizeSession`, `Agent.normalizeSession` — the two `_normalize_session`
* `inboundKey`, `streamKey`, `globalOutboundStream` — the keys of the bus
* `ChatRequest`, `chat` — the body of `POST /chat` and what the handler publishes
* `requestSession`, `requestMessage` — what the listener reads back from it

## Main results

* `normalizeSession_idem` — the agent's normalisation keeps what the gateway
  normalised
* `inboundKey_inj`, `streamKey_inj`, `streamKey_ne_global` — distinct tenants have
  distinct inbound keys, distinct sessions distinct streams
* `requestSession_of_chat` — the listener recovers the session the gateway returned
-/

namespace Nanogate.Bus

open Nanogate.Python

/-! ### Session ids -/

/-- The rule that the gateway and the agent each spell out for themselves. -/
def normalizeSessionId (raw : Option String) : String :=
  let stripped := raw.bind fun s => if s ≠ "" then some (strip s) else none
  let sessionId := orElse stripped "api:direct"
  if contains ':' sessionId then sessionId else "api:" ++ sessionId

/-- `_normalize_session` of the gateway's chat route. -/
def Gateway.normalizeSession (raw : Option String) : String := normalizeSessionId raw

/-- `_normalize_session` of the agent's chat route. -/
def Agent.normalizeSession (raw : Option String) : String := normalizeSessionId raw

/-- A session id as `_normalize_session` returns it. -/
structure Normalized (s : String) : Prop where
  ne_empty : s ≠ ""
  stripped : strip s = s
  colon : contains ':' s = true

theorem contains_append {c : Char} {s t : String} :
    contains c (s ++ t) = (contains c s || contains c t) := by
  simp [contains]

theorem normalized_normalizeSessionId (raw : Option String) :
    Normalized (normalizeSessionId raw) := by
  have hdirect : strip "api:direct" = "api:direct" := by decide
  set sessionId := orElse (raw.bind fun s => if s ≠ "" then some (strip s) else none)
    "api:direct" with hid
  have hne : sessionId ≠ "" := orElse_ne_empty (by decide)
  have hstrip : strip sessionId = sessionId := by
    rw [hid]
    rcases raw with _ | s
    · exact hdirect
    · by_cases hs : s = ""
      · simpa [hs] using hdirect
      · by_cases hs' : strip s = ""
        · simpa [hs, orElse, hs'] using hdirect
        · simp [hs, orElse, hs', strip_strip]
  have hval : normalizeSessionId raw =
      if contains ':' sessionId then sessionId else "api:" ++ sessionId := rfl
  rw [hval]
  split_ifs with hc
  · exact ⟨hne, hstrip, hc⟩
  · have hapi : contains ':' "api:" = true := by decide
    refine ⟨fun h => ?_, strip_append (by decide) hstrip (by decide) hne,
      by rw [contains_append, hapi, Bool.true_or]⟩
    simpa using congrArg String.toList h

theorem normalizeSessionId_of_normalized {s : String} (hs : Normalized s) :
    normalizeSessionId (some s) = s := by
  simp [normalizeSessionId, orElse, hs.ne_empty, hs.stripped, hs.colon]

/-- The ids that `_normalize_session` returns. -/
theorem normalized_iff {s : String} : Normalized s ↔ ∃ raw, Agent.normalizeSession raw = s :=
  ⟨fun hs => ⟨some s, normalizeSessionId_of_normalized hs⟩,
    fun ⟨raw, hraw⟩ => hraw ▸ normalized_normalizeSessionId raw⟩

theorem Normalized.colon_mem {s : String} (hs : Normalized s) : ':' ∈ s.toList := by
  simpa [contains] using hs.colon

/-- Normalising a normalised id changes nothing, on whichever side. -/
theorem normalizeSession_idem (raw : Option String) :
    Agent.normalizeSession (some (Gateway.normalizeSession raw)) = Gateway.normalizeSession raw :=
  normalizeSessionId_of_normalized (normalized_normalizeSessionId raw)

/-! ### Keys -/

/-- `GLOBAL_OUTBOUND_STREAM` -/
def globalOutboundStream : String := "nanogate:outbound:all"

/-- `SESSION_STREAM_PREFIX` -/
def sessionStreamPrefix : String := "nanogate:session:"

/-- `TENANT_INBOUND_PREFIX` -/
def tenantInboundPrefix : String := "nanogate:tenant:"

/-- The list that `publish_request` pushes to and `consume_request` pops from. -/
def inboundKey (tenantId : String) : String := tenantInboundPrefix ++ tenantId ++ ":inbound"

/-- The stream that `publish_event` writes and `subscribe_events` reads. -/
def streamKey (sessionId : String) : String := sessionStreamPrefix ++ sessionId ++ ":outbound"

theorem inboundKey_inj {t u : String} : inboundKey t = inboundKey u ↔ t = u := by
  simp [inboundKey]

theorem streamKey_inj {s r : String} : streamKey s = streamKey r ↔ s = r := by
  simp [streamKey]

theorem streamKey_ne_global (s : String) : streamKey s ≠ globalOutboundStream := by
  intro h
  have := congrArg (fun k : String => k.toList.take 10) h
  simp [streamKey, sessionStreamPrefix, globalOutboundStream] at this

/-! ### Requests -/

/-- The JSON value of an optional field. -/
def optional : Option String → Json
  | some s => .str s
  | none => .null

/-- `(v or "").strip()` of an optional field. -/
def stripped (v : Option String) : String := strip (orElse v "")

/-- The body of the gateway's `POST /chat`. -/
structure ChatRequest where
  message : String
  sessionId : Option String
  tenantId : Option String
  callbackUrl : Option String
  deriving DecidableEq, Repr

/-- `body.model_dump(by_alias=True, exclude_none=True)` -/
def ChatRequest.modelDump (body : ChatRequest) : Json :=
  .obj ([("message", Json.str body.message)] ++
    (body.sessionId.map fun s => ("sessionId", Json.str s)).toList ++
    (body.tenantId.map fun s => ("tenantId", Json.str s)).toList ++
    (body.callbackUrl.map fun s => ("callbackUrl", Json.str s)).toList)

/-- An `HTTPException`. -/
structure HttpError where
  statusCode : ℕ
  detail : String
  deriving DecidableEq, Repr

/-- What `POST /chat` does with a body it accepts: the tenant whose queue the payload
goes to, the payload, and the session id and stream url it returns. -/
structure Accepted where
  tenantId : String
  payload : Json
  sessionId : String
  streamUrl : String
  deriving DecidableEq, Repr

/-- The gateway's `chat` handler, up to `publish_request`. -/
def chat (defaultTenantId : String) (body : ChatRequest) : Except HttpError Accepted :=
  if strip body.message = "" then
    .error { statusCode := 400, detail := "message must be non-empty" }
  else
    let tenantId := orElse (some (stripped body.tenantId)) defaultTenantId
    let payload := body.modelDump
    let sessionId := Gateway.normalizeSession
      (((payload.getD "sessionId").or (payload.getD "session_id")).str?)
    let payload := (payload.set "sessionId" (.str sessionId)).set "session_id" (.str sessionId)
    let payload := match body.callbackUrl with
      | some url => if url ≠ "" then payload.set "callbackUrl" (.str url) else payload
      | none => payload
    let payload := match payload.get "message" with
      | some _ => payload
      | none => payload.set "message" (.str body.message)
    .ok { tenantId, payload, sessionId, streamUrl := "/api/chat/stream/" ++ sessionId }

/-- The gateway's `chat_async` handler. -/
def chatAsync (defaultTenantId : String) (body : ChatRequest) : Except HttpError Accepted :=
  if body.callbackUrl.getD "" = "" then
    .error { statusCode := 400, detail := "callbackUrl required for /api/chat/async" }
  else chat defaultTenantId body

/-- The `message` the listener reads from a payload. -/
def requestMessage (payload : Json) : Json := payload.getD "message"

/-- The session id the listener computes from a payload. -/
def requestSession (payload : Json) : String :=
  Agent.normalizeSession
    (((payload.getD "session_id").or (payload.getD "sessionId")).str?)

/-! ### Events -/

/-- What `process_direct` and the approval context variables amount to for one turn:
the `ChatResponse` of `_run_chat`, or the exception it raised. -/
inductive Outcome where
  | response (response : String) (approvalRequestId : Option String) (approvalContext : Json)
  | raised (error : String)
  deriving Repr

/-- The turn ended with an exception, so its final event is published by the handler. -/
def Outcome.isRaised : Outcome → Bool
  | .response .. => false
  | .raised _ => true

/-- The payload of `_on_progress`. -/
def progressPayload (content : String) (toolHint : Bool) : Json :=
  .obj [("status", .str "progress"), ("response", .str content), ("tool_hint", .bool toolHint)]

/-- `final_payload` or `err_payload` of the listener. -/
def finalPayload (payload : Json) : Outcome → Json
  | .response r rid ctx =>
    .obj [("status", .str "done"), ("response", .str r), ("approval_request_id", optional rid),
      ("approval_context", ctx), ("request_payload", payload)]
  | .raised e => .obj [("status", .str "error"), ("error", .str e), ("request_payload", payload)]

/-- `data.get("status") in ("done", "error")` -/
def isFinal (data : Json) : Bool :=
  data.get "status" = some (.str "done") || data.get "status" = some (.str "error")

@[simp] theorem isFinal_finalPayload (payload : Json) (o : Outcome) :
    isFinal (finalPayload payload o) = true := by
  cases o <;> simp [isFinal, finalPayload, Json.get, Entries.get]

@[simp] theorem isFinal_progressPayload (content : String) (hint : Bool) :
    isFinal (progressPayload content hint) = false := by
  simp [isFinal, progressPayload, Json.get, Entries.get]

/-! ### What the listener reads back -/

/-- The handler's later assignments leave the session id it stored alone. -/
theorem getD_sessionId_of_chat {defaultTenantId : String} {body : ChatRequest} {acc : Accepted}
    (h : chat defaultTenantId body = .ok acc) :
    acc.payload.getD "session_id" = .str acc.sessionId := by
  unfold chat at h
  split_ifs at h with hblank
  obtain rfl := Except.ok.inj h
  have hcallback : "session_id" ≠ "callbackUrl" := by decide
  have hmessage : "session_id" ≠ "message" := by decide
  dsimp only [Json.getD]
  split <;> split <;> try split_ifs
  all_goals simp [Json.get_set_of_ne hcallback, Json.get_set_of_ne hmessage]

theorem normalized_of_chat {defaultTenantId : String} {body : ChatRequest} {acc : Accepted}
    (h : chat defaultTenantId body = .ok acc) : Normalized acc.sessionId := by
  unfold chat at h
  split_ifs at h with hblank
  obtain rfl := Except.ok.inj h
  exact normalized_normalizeSessionId _

/-- The id in the answer is the client's, normalised. -/
theorem sessionId_of_chat {defaultTenantId : String} {body : ChatRequest} {acc : Accepted}
    (h : chat defaultTenantId body = .ok acc) :
    acc.sessionId = Gateway.normalizeSession body.sessionId := by
  unfold chat at h
  split_ifs at h with hblank
  obtain rfl := Except.ok.inj h
  obtain ⟨message, sessionId, tenantId, url⟩ := body
  have hsession : (ChatRequest.modelDump ⟨message, sessionId, tenantId, url⟩).getD "sessionId" =
      optional sessionId := by
    cases sessionId <;> cases tenantId <;> cases url <;>
      simp [ChatRequest.modelDump, Json.getD, Json.get, Entries.get, optional]
  have hother : (ChatRequest.modelDump ⟨message, sessionId, tenantId, url⟩).getD "session_id" =
      .null := by
    cases sessionId <;> cases tenantId <;> cases url <;>
      simp [ChatRequest.modelDump, Json.getD, Json.get, Entries.get]
  dsimp only
  rw [hsession, hother]
  cases sessionId with
  | none => rfl
  | some s =>
    by_cases hs : s = ""
    · subst hs
      rfl
    · simp [optional, Json.or, Json.truthy, hs, Json.str?]

/-- The listener computes the session id that the gateway returned. -/
theorem requestSession_of_chat {defaultTenantId : String} {body : ChatRequest} {acc : Accepted}
    (h : chat defaultTenantId body = .ok acc) : requestSession acc.payload = acc.sessionId := by
  have hne := (normalized_of_chat h).ne_empty
  rw [requestSession, getD_sessionId_of_chat h]
  simpa [Json.or, Json.truthy, hne, Json.str?, Agent.normalizeSession] using
    normalizeSessionId_of_normalized (normalized_of_chat h)

/-- The dump always carries the message, and no assignment overwrites it. -/
theorem getD_message_of_chat {defaultTenantId : String} {body : ChatRequest} {acc : Accepted}
    (h : chat defaultTenantId body = .ok acc) :
    requestMessage acc.payload = .str body.message := by
  unfold chat at h
  split_ifs at h with hblank
  obtain rfl := Except.ok.inj h
  have hdump : body.modelDump.get "message" = some (.str body.message) := by
    simp [ChatRequest.modelDump, Json.get, Entries.get]
  have hcallback : "message" ≠ "callbackUrl" := by decide
  have hsession : "message" ≠ "session_id" := by decide
  have hsession' : "message" ≠ "sessionId" := by decide
  dsimp only [requestMessage, Json.getD]
  split <;> split <;> try split_ifs
  all_goals simp_all [Json.get_set_of_ne hcallback, Json.get_set_of_ne hsession,
    Json.get_set_of_ne hsession']

/-- The callback URL reaches the payload under its alias and under no other name. -/
theorem get_callbackUrl_of_chat {defaultTenantId : String} {body : ChatRequest} {acc : Accepted}
    (h : chat defaultTenantId body = .ok acc) :
    acc.payload.get "callbackUrl" = body.callbackUrl.map .str ∧
      acc.payload.get "callback_url" = none := by
  unfold chat at h
  split_ifs at h with hblank
  obtain rfl := Except.ok.inj h
  have hdump : body.modelDump.get "callbackUrl" = body.callbackUrl.map .str ∧
      body.modelDump.get "callback_url" = none := by
    obtain ⟨message, sessionId, tenantId, url⟩ := body
    cases sessionId <;> cases tenantId <;> cases url <;>
      simp [ChatRequest.modelDump, Json.get, Entries.get]
  have hne {key : String} (hkey : key = "callbackUrl" ∨ key = "callback_url") :
      key ≠ "session_id" ∧ key ≠ "sessionId" ∧ key ≠ "message" := by
    rcases hkey with rfl | rfl <;> decide
  have hsession {key : String} (hkey : key = "callbackUrl" ∨ key = "callback_url") {x y : Json} :
      ((body.modelDump.set "sessionId" x).set "session_id" y).get key = body.modelDump.get key := by
    rw [Json.get_set_of_ne (hne hkey).1, Json.get_set_of_ne (hne hkey).2.1]
  -- the message that is put in where there is none is another entry
  have hmessage {key : String} (hkey : key = "callbackUrl" ∨ key = "callback_url")
      (payload : Json) :
      (match payload.get "message" with
        | some _ => payload
        | none => payload.set "message" (.str body.message)).get key = payload.get key := by
    split
    · rfl
    · exact Json.get_set_of_ne (hne hkey).2.2
  dsimp only
  rw [hmessage (.inl rfl), hmessage (.inr rfl)]
  split
  next url hurl =>
    split_ifs
    · rw [Json.get_set_self, Json.get_set_of_ne (by decide), hsession (.inr rfl), hurl]
      exact ⟨rfl, hdump.2⟩
    · rw [hsession (.inl rfl), hsession (.inr rfl)]
      exact hdump
  next =>
    rw [hsession (.inl rfl), hsession (.inr rfl)]
    exact hdump

theorem chat_of_chatAsync {defaultTenantId : String} {body : ChatRequest} {acc : Accepted}
    (h : chatAsync defaultTenantId body = .ok acc) : chat defaultTenantId body = .ok acc := by
  unfold chatAsync at h
  split_ifs at h
  exact h

/-- Only requests with a message that is not blank are accepted. -/
theorem message_ne_empty_of_chat {defaultTenantId : String} {body : ChatRequest} {acc : Accepted}
    (h : chat defaultTenantId body = .ok acc) : body.message ≠ "" := by
  unfold chat at h
  split_ifs at h with hblank
  rintro hempty
  exact hblank (by rw [hempty]; decide)

end Nanogate.Bus
