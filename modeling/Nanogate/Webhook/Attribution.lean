import Nanogate.Bus.Provenance
import Nanogate.Webhook.Dispatcher

/-!
# Whose result a webhook carries

A request travels from the gateway through the inbound list to a listener, which puts the request
itself into the event it publishes; a dispatcher takes the URL out of it and POSTs what is left of
the event. Two invariants meet at the global stream: every entry there is made of an outcome of an
accepted request, and every POST is made of an entry.

## Main definitions

* `resultFields` — the fields of an event that tell how a turn went
* `Deployment`, `deployment` — the bus and the dispatchers over one Redis, with what the gateway
  answered and what the agents produced
* `Attributed` — a POST carries the outcome of a request to the URL of that request

## Main results

* `callbackUrl_event`, `webhookBody_event` — what a dispatcher makes of an event
* `attributed_of_run` — every POST is attributed, and none to a request without a URL
-/

namespace Nanogate.Webhook

open Nanogate.Python Nanogate.Redis Nanogate.Bus Nanogate.Semantics

/-! ### What a dispatcher makes of an event -/

/-- The fields of a final event that tell how the turn went. -/
def resultFields : Outcome → List (String × Json)
  | .response r rid ctx =>
    [("status", .str "done"), ("response", .str r), ("approval_request_id", Bus.optional rid),
      ("approval_context", ctx)]
  | .raised e => [("status", .str "error"), ("error", .str e)]

/-- The event that `publish_event` writes to the global stream for a final payload. -/
def globalEvent (payload : Json) (outcome : Outcome) (sessionId : String) : Json :=
  (finalPayload payload outcome).set "_session_id" (.str sessionId)

theorem globalEvent_eq (payload : Json) (outcome : Outcome) (sessionId : String) :
    globalEvent payload outcome sessionId = .obj (resultFields outcome ++
      [("request_payload", payload), ("_session_id", .str sessionId)]) := by
  cases outcome <;> simp [globalEvent, finalPayload, resultFields, Json.set, Entries.set]

/-- The dispatcher POSTs the result and the session id, and nothing of the request. -/
theorem webhookBody_event (payload : Json) (outcome : Outcome) (sessionId : String) :
    webhookBody (globalEvent payload outcome sessionId) =
      .obj (resultFields outcome ++ [("session_id", .str sessionId)]) := by
  rw [globalEvent_eq]
  cases outcome <;>
    simp [webhookBody, resultFields, Json.erase, Json.set, Json.getD, Json.get, Entries.erase,
      Entries.set, Entries.get]

/-- The dispatcher POSTs to the URL of the request, if that is not empty. -/
theorem callbackUrl_event {d : String} {body : ChatRequest} {acc : Accepted}
    (h : chat d body = .ok acc) (outcome : Outcome) (sessionId : String) {url : Json}
    (hurl : callbackUrl (globalEvent acc.payload outcome sessionId) = .ok (some url)) :
    ∃ u, body.callbackUrl = some u ∧ u ≠ "" ∧ url = .str u := by
  obtain ⟨hcamel, hsnake⟩ := get_callbackUrl_of_chat h
  have hpayload : (globalEvent acc.payload outcome sessionId).getD "request_payload" =
      acc.payload := by
    rw [globalEvent_eq]
    cases outcome <;> simp [resultFields, Json.getD, Json.get, Entries.get]
  -- the payload is a dictionary, since it has a message
  have hmessage := getD_message_of_chat h
  obtain ⟨message, hget⟩ : ∃ x, acc.payload.get "message" = some x := by
    cases hget : acc.payload.get "message" with
    | none => simp [requestMessage, Json.getD, hget] at hmessage
    | some x => exact ⟨x, rfl⟩
  have hor : acc.payload.or (.obj []) = acc.payload := by
    rw [Json.or, if_pos (Json.truthy_of_get hget)]
  have hobj : (globalEvent acc.payload outcome sessionId).isObj = true := Json.isObj_set
  have hcamel : acc.payload.getD "callbackUrl" = Bus.optional body.callbackUrl := by
    rw [Json.getD, hcamel]
    cases body.callbackUrl <;> rfl
  have hsnake : acc.payload.getD "callback_url" = .null := by rw [Json.getD, hsnake]; rfl
  simp only [callbackUrl, hobj, hpayload, hor, Json.isObj_of_get hget, Bool.not_true,
    Bool.false_eq_true, if_false, hcamel, hsnake] at hurl
  cases hbody : body.callbackUrl with
  | none => simp [hbody, Bus.optional, Json.or] at hurl
  | some u =>
    by_cases hu : u = ""
    · simp [hbody, Bus.optional, hu, Json.or, Json.truthy] at hurl
    · refine ⟨u, rfl, hu, ?_⟩
      have hstr := hurl
      simp only [hbody, Bus.optional, Json.or, Json.truthy, decide_not, hu, decide_false,
        Bool.not_false, if_true, Except.ok.injEq, Option.some.injEq] at hstr
      exact hstr.symm

/-! ### What a POST is made of -/

/-- The entry a worker is to deliver, with its URL. -/
def Pc.target : Pc → Option (Entry × Json)
  | .attempt e url _ | .posting e url _ | .delivered e url _ | .backoff e url _ => some (e, url)
  | .starting | .reading | .handed _ | .exhausted _ | .plain _ | .exited => none

/-- A worker at `pc` has its entry from the log, and the URL from the entry. -/
structure Grounded (log : List Entry) (pc : Pc) : Prop where
  entry : ∀ e, pc.entry = some e → e ∈ log
  target : ∀ e url, pc.target = some (e, url) → callbackUrl e.2.data = .ok (some url)

/-- Workers and POSTs go back to entries of the log. -/
structure MadeOf (log : List Entry) (w : Webhooks) : Prop where
  worker : ∀ k d, w.dispatchers k = some d → Grounded log d.pc
  post : ∀ p ∈ w.posts, ∃ e ∈ log, p.entry = e.1 ∧ callbackUrl e.2.data = .ok (some p.url) ∧
    p.body = webhookBody e.2.data

section MadeOf

variable {maxRetries k n : ℕ} {log log' : List Entry} {w w' : Webhooks} {d : Dispatcher} {pc : Pc}
  {a : Act} {e : Entry} {url : Json}

theorem grounded_of_idle (hentry : pc.entry = none) (htarget : pc.target = none) :
    Grounded log pc :=
  ⟨fun e he => by simp [hentry] at he, fun e url he => by simp [htarget] at he⟩

theorem Grounded.mono (h : Grounded log pc) (hsub : ∀ e ∈ log, e ∈ log') : Grounded log' pc :=
  ⟨fun e he => hsub e (h.entry e he), h.target⟩

theorem MadeOf.mono (h : MadeOf log w) (hsub : ∀ e ∈ log, e ∈ log') : MadeOf log' w where
  worker k d hd := (h.worker k d hd).mono hsub
  post p hp := by
    obtain ⟨e, he, hrest⟩ := h.post p hp
    exact ⟨e, hsub e he, hrest⟩

theorem MadeOf.setDispatcher (h : MadeOf log w) {new : Option Dispatcher}
    (hnew : ∀ d, new = some d → Grounded log d.pc) : MadeOf log (w.setDispatcher k new) where
  worker k' d hd := by
    simp only [Webhooks.setDispatcher, Function.update_apply] at hd
    split_ifs at hd
    · exact hnew d hd
    · exact h.worker k' d hd
  post := h.post

theorem MadeOf.goto (h : MadeOf log w) (hpc : Grounded log pc) : MadeOf log (w.goto k d pc) :=
  h.setDispatcher fun d' hd' => by
    obtain rfl := Option.some_inj.mp hd'
    exact hpc

/-- Whatever a worker does next with an entry and its URL, it has them from where it had them. -/
theorem Grounded.next {pc' : Pc} (h : Grounded log pc)
    (hentry : ∀ e, pc'.entry = some e → pc.entry = some e)
    (htarget : ∀ x, pc'.target = some x → pc.target = some x) : Grounded log pc' :=
  ⟨fun e he => h.entry e (hentry e he), fun e url he => h.target e url (htarget _ he)⟩

theorem grounded_afterFailure (h : Grounded log pc) (hentry : pc.entry = some e)
    (htarget : pc.target = some (e, url)) : Grounded log (afterFailure maxRetries e url n) := by
  unfold afterFailure
  split_ifs
  · exact h.next (fun x hx => hentry.trans hx) fun x hx => htarget.trans hx
  · exact h.next (fun x hx => hentry.trans hx) fun x hx => htarget.trans hx

theorem MadeOf.acknowledge (h : MadeOf log w) {raised : Pc} (hraised : Grounded log raised)
    (ok : Bool) : MadeOf log (w.acknowledge k d e raised ok) := by
  cases ok with
  | true =>
    have hgoto := h.goto (k := k) (d := d)
      (show Grounded log .reading from grounded_of_idle rfl rfl)
    exact ⟨hgoto.worker, hgoto.post⟩
  | false => exact h.goto hraised

theorem MadeOf.advance (h : MadeOf w.stream.log w) (running : w.dispatchers k = some d)
    (hstep : DispatcherStep maxRetries w k d d.pc a w') : MadeOf w.stream.log w' := by
  have hgrounded := h.worker k d running
  generalize hpc : d.pc = pc at hgrounded hstep
  have hidle : Grounded w.stream.log .reading := grounded_of_idle rfl rfl
  cases hstep with
  | init =>
    have hgoto := h.goto (k := k) (d := d) hidle
    exact ⟨hgoto.worker, hgoto.post⟩
  | @read g e g' group handed =>
    -- an entry that is handed out is in the stream
    have hmem : e ∈ w.stream.log := ConsumerGroup.mem_log_of_readNew handed
    have hhanded : Grounded w.stream.log (.handed e) :=
      ⟨fun x hx => Option.some_inj.mp hx ▸ hmem, fun _ _ hx => by simp [Pc.target] at hx⟩
    have hgoto := h.goto (k := k) (d := d) hhanded
    exact ⟨hgoto.worker, hgoto.post⟩
  | @check e =>
    refine h.goto ?_
    split_ifs
    · exact grounded_of_idle rfl rfl
    · unfold beginEvent
      split
      · exact hidle
      · exact hgrounded.next (fun _ hx => hx) fun _ hx => by simp [Pc.target] at hx
      next url hurl =>
        -- the URL is read from the entry itself
        refine ⟨hgrounded.entry, fun x u hx => ?_⟩
        obtain ⟨rfl, rfl⟩ := Prod.mk.inj (Option.some_inj.mp hx)
        exact hurl
  | attempt =>
    refine h.goto ?_
    split_ifs
    · exact hidle
    · exact hgrounded.next (fun _ hx => hx) fun _ hx => hx
    · exact hgrounded.next (fun _ hx => hx) fun _ hx => by simp [Pc.target] at hx
  | @answer e url n status =>
    have hnext : Grounded w.stream.log
        (if success status then .delivered e url n else afterFailure maxRetries e url n) := by
      split_ifs
      · exact hgrounded.next (fun _ hx => hx) fun _ hx => hx
      · exact grounded_afterFailure hgrounded rfl rfl
    refine ⟨(h.goto hnext).worker, fun p hp => ?_⟩
    rcases List.mem_append.mp hp with hold | hnew
    · exact h.post p hold
    · -- the POST is made of the entry and its URL
      obtain rfl := List.mem_singleton.mp hnew
      exact ⟨e, hgrounded.entry e rfl, rfl, hgrounded.target e url rfl, rfl⟩
  | ackDelivered => exact h.acknowledge (grounded_afterFailure hgrounded rfl rfl) _
  | wake => exact h.goto (hgrounded.next (fun _ hx => hx) fun _ hx => hx)
  | ackExhausted | ackPlain => exact h.acknowledge hidle _

/-- A worker does not write to the stream. -/
theorem DispatcherStep.stream_eq (h : DispatcherStep maxRetries w k d pc a w') :
    w'.stream = w.stream := by
  cases h with
  | @ackDelivered _ _ _ ok | @ackExhausted _ ok | @ackPlain _ ok => cases ok <;> rfl
  | init | read | check | attempt | answer | wake => rfl

theorem WebhookStep.stream_eq {act : Action} (h : WebhookStep maxRetries w act w')
    (hact : ∀ e now, act ≠ .append e now) : w'.stream = w.stream := by
  cases h with
  | append => exact absurd rfl (hact _ _)
  | act running step => exact step.stream_eq
  | start | stop | crash => rfl

theorem MadeOf.step {act : Action} (h : MadeOf w.stream.log w)
    (hstep : WebhookStep maxRetries w act w') : MadeOf w'.stream.log w' := by
  cases hstep with
  | @append e now =>
    have hmono : MadeOf (w.stream.xadd 10000 ⟨now, 0⟩ e).log w :=
      h.mono fun e he => Stream.mem_log_xadd.mpr (.inl he)
    exact ⟨hmono.worker, hmono.post⟩
  | start absent =>
    refine h.setDispatcher fun d hd => ?_
    obtain rfl := Option.some_inj.mp hd
    exact grounded_of_idle rfl rfl
  | @stop k d running =>
    refine h.setDispatcher fun d' hd' => ?_
    obtain rfl := Option.some_inj.mp hd'
    exact h.worker k d running
  | crash running => exact h.setDispatcher fun d hd => by simp at hd
  | act running step =>
    rw [step.stream_eq]
    exact h.advance running step

end MadeOf

/-! ### The bus with its dispatchers -/

/-- One Redis with the bus and the dispatchers, and two pieces of history: what the gateway
answered to each request it accepted, and the outcomes the agents produced. -/
structure Deployment where
  bus : System
  hooks : Webhooks
  replies : List (ℕ × ChatRequest × Accepted)
  produced : List (ℕ × Outcome)

/-- A step of some component. -/
inductive DeploymentAction where
  /-- `POST /chat`, or `POST /chat/async` if `async` is set, the request being numbered `rid`. -/
  | chat (async : Bool) (rid : ℕ) (body : ChatRequest)
  /-- A step of the bus that is not a request. -/
  | bus (a : Bus.Action)
  /-- A step of a dispatcher. -/
  | hook (a : Webhook.Action)

/-- What the route answers. -/
def handle (d : String) (async : Bool) (body : ChatRequest) : Except HttpError Accepted :=
  if async then chatAsync d body else chat d body

namespace Deployment

def init : Deployment := ⟨.init, .empty, [], []⟩

/-- The dispatchers read the global stream of the bus. -/
def setBus (x : Deployment) (bus : System) : Deployment :=
  { x with bus, hooks := { x.hooks with stream := bus.bus.streams globalOutboundStream } }

def step (d : String) (maxRetries : ℕ) (x : Deployment) : DeploymentAction → Option Deployment
  | .chat async rid body =>
    match handle d async body with
    | .error _ => some x
    | .ok acc => (x.bus.step d (.chat rid body)).map fun bus =>
        { x.setBus bus with replies := x.replies ++ [(rid, body, acc)] }
  | .bus (.chat ..) => none
  | .bus a => (x.bus.step d a).map fun bus =>
      { x.setBus bus with produced := x.produced ++ outcomeOf x.bus a }
  -- entries are written by the listeners alone
  | .hook (.append ..) => none
  | .hook a => (x.hooks.step maxRetries a).map fun hooks => { x with hooks }

end Deployment

/-- The deployment as a machine. -/
def deployment (d : String) (maxRetries : ℕ) : Machine Deployment DeploymentAction where
  init := .init
  step := Deployment.step d maxRetries

/-- The POST was caused by the request numbered `rid`: its entry was published for it. -/
def CausedBy (x : Deployment) (rid : ℕ) (p : Post) : Prop :=
  ∃ event, (p.entry, event) ∈ (x.bus.bus.streams globalOutboundStream).log ∧ event.rid = rid

/-- The POST goes to the URL of the request, and carries its session id and the outcome that the
agent produced for it. -/
structure Attributed (x : Deployment) (p : Post) (rid : ℕ) (body : ChatRequest) (acc : Accepted)
    (outcome : Outcome) : Prop where
  caused : CausedBy x rid p
  reply : (rid, body, acc) ∈ x.replies
  produced : (rid, outcome) ∈ x.produced
  url : ∃ url, body.callbackUrl = some url ∧ url ≠ "" ∧ p.url = .str url
  body : p.body = .obj (resultFields outcome ++ [("session_id", .str acc.sessionId)])
  stripped : p.body.get "request_payload" = none ∧ p.body.get "_session_id" = none

/-! ### The invariant -/

/-- Every accepted request was answered as the payload says, and every entry of the global stream
is made of an outcome of an accepted request. -/
structure Sound (d : String) (x : Deployment) : Prop where
  traced : Traced x.bus
  numbered : (x.replies.map Prod.fst).Nodup
  replied : ∀ v req, (v, req) ∈ x.bus.accepted → ∃ body acc, (req.rid, body, acc) ∈ x.replies ∧
    chat d body = .ok acc ∧ req.payload = acc.payload
  fresh : ∀ r ∈ x.replies, ∃ v req, (v, req) ∈ x.bus.accepted ∧ req.rid = r.1
  publishing : ∀ v n pc req final, x.bus.listeners v n = some pc →
    pc.publishes = some (req, final) →
      ∃ outcome, (req.rid, outcome) ∈ x.produced ∧ final = finalPayload req.payload outcome
  event : ∀ p ∈ (x.bus.bus.streams globalOutboundStream).log, ∃ v req outcome,
    (v, req) ∈ x.bus.accepted ∧ req.rid = p.2.rid ∧ (req.rid, outcome) ∈ x.produced ∧
      p.2.data = globalEvent req.payload outcome (requestSession req.payload)
  stream : x.hooks.stream = x.bus.bus.streams globalOutboundStream
  posts : MadeOf x.hooks.stream.log x.hooks

section Sound

variable {d : String} {maxRetries : ℕ} {sys' : System} {a : Bus.Action} {x x' : Deployment}
  {act : DeploymentAction}

theorem sound_init : Sound d .init where
  traced := traced_init
  numbered := List.nodup_nil
  replied _ _ h := by simp [Deployment.init, System.init] at h
  fresh _ h := by simp [Deployment.init] at h
  publishing _ _ _ _ _ h := by simp [Deployment.init, System.init] at h
  event _ h := by simp [Deployment.init, System.init, Keyspace.empty] at h
  stream := rfl
  posts := ⟨fun k d hd => by simp [Deployment.init, Webhooks.empty] at hd,
    fun p hp => by simp [Deployment.init, Webhooks.empty] at hp⟩

/-- The bus takes a step, and the gateway's answers still tell the accepted requests. -/
theorem Sound.setBus (h : Sound d x) (hstep : SystemStep d x.bus a sys')
    {replies : List (ℕ × ChatRequest × Accepted)} (hnumbered : (replies.map Prod.fst).Nodup)
    (hreplied : ∀ v req, (v, req) ∈ sys'.accepted → ∃ body acc, (req.rid, body, acc) ∈ replies ∧
      chat d body = .ok acc ∧ req.payload = acc.payload)
    (hfresh : ∀ r ∈ replies, ∃ v req, (v, req) ∈ sys'.accepted ∧ req.rid = r.1) :
    Sound d { x.setBus sys' with replies, produced := x.produced ++ outcomeOf x.bus a } where
  traced := h.traced.step hstep
  numbered := hnumbered
  replied := hreplied
  fresh := hfresh
  publishing v n pc req final hl hf := by
    -- a payload that is published was composed before or is composed now
    rcases hstep.publishes_cases hl hf with ⟨pc', hl', hf'⟩ | ⟨outcome, hnew, hfinal⟩
    · obtain ⟨outcome, hold, hfinal⟩ := h.publishing v n pc' req final hl' hf'
      exact ⟨outcome, List.mem_append_left _ hold, hfinal⟩
    · exact ⟨outcome, List.mem_append_right _ hnew, hfinal⟩
  event p hp := by
    rcases hstep.global_cases hp with hold | ⟨v, n, pc, req, s, final, hl, hc, hf, hrid, hdata⟩
    · obtain ⟨v, req, outcome, hacc, hrid, hproduced, hdata⟩ := h.event p hold
      exact ⟨v, req, outcome, hstep.accepted_mono hacc, hrid, List.mem_append_left _ hproduced,
        hdata⟩
    · -- the listener carries the request whose outcome it publishes
      obtain ⟨hacc, rfl⟩ := h.traced.carried hl hc
      obtain ⟨outcome, hproduced, rfl⟩ := h.publishing v n pc req final hl hf
      exact ⟨v, req, outcome, hstep.accepted_mono hacc, hrid.symm,
        List.mem_append_left _ hproduced, hdata⟩
  stream := rfl
  posts := by
    have hposts := h.posts
    rw [h.stream] at hposts
    have hmono := hposts.mono fun e he => hstep.global_mono he
    exact ⟨hmono.worker, hmono.post⟩

theorem chat_of_handle {async : Bool} {body : ChatRequest} {acc : Accepted}
    (h : handle d async body = .ok acc) : chat d body = .ok acc := by
  unfold handle at h
  split_ifs at h with hasync
  · exact chat_of_chatAsync h
  · exact h

/-- The gateway accepts a request and pushes it. -/
theorem Sound.chat {rid : ℕ} {body : ChatRequest} {acc : Accepted} (h : Sound d x)
    (hchat : chat d body = .ok acc) (hstep : SystemStep d x.bus (.chat rid body) sys') :
    Sound d { x.setBus sys' with replies := x.replies ++ [(rid, body, acc)] } := by
  have hsound : Sound d { x.setBus sys' with
      replies := x.replies ++ [(rid, body, acc)]
      produced := x.produced ++ outcomeOf x.bus (.chat rid body) } := h.setBus hstep ?_ ?_ ?_
  · simpa only [outcomeOf, List.append_nil, Deployment.setBus] using hsound
  all_goals
    cases hstep with
    | rejected reply => exact absurd (hchat.symm.trans reply) (by simp)
    | @chat _ _ acc' reply fresh => ?_
    obtain rfl := Except.ok.inj (hchat.symm.trans reply)
  · -- the number is new to the accepted requests, and so to the replies
    rw [List.map_append, List.map_singleton, List.nodup_append]
    refine ⟨h.numbered, List.nodup_singleton _, fun r hr r' hr' heq => ?_⟩
    obtain ⟨reply, hreply, rfl⟩ := List.mem_map.mp hr
    obtain ⟨v, req, hacc, hrid⟩ := h.fresh reply hreply
    have hsame : req.rid = rid := hrid.trans (heq.trans (List.mem_singleton.mp hr'))
    exact fresh (List.mem_map.mpr ⟨_, hacc, hsame⟩)
  · intro v req hmem
    rcases List.mem_append.mp hmem with hold | hnew
    · obtain ⟨body', acc', hreply, hrest⟩ := h.replied v req hold
      exact ⟨body', acc', List.mem_append_left _ hreply, hrest⟩
    · obtain ⟨rfl, rfl⟩ := Prod.mk.inj (List.mem_singleton.mp hnew)
      exact ⟨body, acc, List.mem_append_right _ (List.mem_singleton.mpr rfl), hchat, rfl⟩
  · intro r hr
    rcases List.mem_append.mp hr with hold | hnew
    · obtain ⟨v, req, hacc, hrid⟩ := h.fresh r hold
      exact ⟨v, req, List.mem_append_left _ hacc, hrid⟩
    · obtain rfl := List.mem_singleton.mp hnew
      exact ⟨acc.tenantId, _, List.mem_append_right _ (List.mem_singleton.mpr rfl), rfl⟩

/-- A dispatcher takes a step. -/
theorem Sound.hook {w : Webhooks} {b : Action} (h : Sound d x)
    (hstep : WebhookStep maxRetries x.hooks b w) (hstream : w.stream = x.hooks.stream) :
    Sound d { x with hooks := w } :=
  { h with
    stream := hstream.trans h.stream
    posts := h.posts.step hstep }

theorem Sound.step (h : Sound d x) (hstep : x.step d maxRetries act = some x') : Sound d x' := by
  cases act with
  | chat async rid body =>
    simp only [Deployment.step] at hstep
    split at hstep
    next => exact Option.some_inj.mp hstep ▸ h
    next acc hreply =>
      obtain ⟨sys', hsys', rfl⟩ := Option.map_eq_some_iff.mp hstep
      exact h.chat (chat_of_handle hreply) (systemStep_of_step hsys')
  | bus b =>
    cases b with
    | chat => exact absurd hstep (by simp [Deployment.step])
    | start | stop | listen | subscribe | fetch | next =>
      simp only [Deployment.step] at hstep
      obtain ⟨sys', hsys', rfl⟩ := Option.map_eq_some_iff.mp hstep
      have hsystem := systemStep_of_step hsys'
      -- only the gateway accepts requests
      have haccepted : sys'.accepted = x.bus.accepted := by
        cases hsystem
        rfl
      refine h.setBus hsystem h.numbered ?_ ?_
      · rw [haccepted]
        exact h.replied
      · rw [haccepted]
        exact h.fresh
  | hook b =>
    cases b with
    | append => exact absurd hstep (by simp [Deployment.step])
    | start | stop | crash | act =>
      obtain ⟨w, hw, rfl⟩ := Option.map_eq_some_iff.mp hstep
      have hhook := webhookStep_of_step hw
      exact h.hook hhook (hhook.stream_eq fun _ _ => by simp)

theorem sound_run {acts : List DeploymentAction}
    (hrun : (deployment d maxRetries).run acts = some x) : Sound d x :=
  Machine.run_invariant' (fun h hstep => h.step hstep) sound_init hrun

/-- An id belongs to one entry. -/
theorem CausedBy.rid_eq {rid : ℕ} {p : Post} {e : Entry} (h : CausedBy x rid p)
    (he : e ∈ (x.bus.bus.streams globalOutboundStream).log) (hentry : p.entry = e.1) :
    e.2.rid = rid := by
  obtain ⟨event, hlog, rfl⟩ := h
  obtain rfl := Stream.eq_of_id_eq he hlog hentry.symm
  rfl

/-- Every POST is made of an event of a request with a URL. -/
theorem Sound.attributed (h : Sound d x) {p : Post} (hp : p ∈ x.hooks.posts) :
    ∃ rid body acc outcome, Attributed x p rid body acc outcome := by
  obtain ⟨e, hlog, hentry, hurl, hbody⟩ := h.posts.post p hp
  rw [h.stream] at hlog
  obtain ⟨v, req, outcome, hacc, hrid, hproduced, hdata⟩ := h.event e hlog
  obtain ⟨body, acc, hreply, hchat, hpayload⟩ := h.replied v req hacc
  rw [hdata, hpayload, requestSession_of_chat hchat] at hurl hbody
  rw [webhookBody_event] at hbody
  refine ⟨req.rid, body, acc, outcome, ⟨e.2, hentry ▸ hlog, hrid.symm⟩, hreply, hproduced, ?_,
    hbody, ?_⟩
  · exact callbackUrl_event hchat outcome _ hurl
  · rw [hbody]
    cases outcome <;> exact ⟨rfl, rfl⟩

/-- **Attribution.** Every POST goes to the URL of an accepted request and carries the session id
that the gateway returned for it and the outcome that the agent produced for it; a request without
a URL causes no POST. -/
theorem attributed_of_run {acts : List DeploymentAction}
    (hrun : (deployment d maxRetries).run acts = some x) :
    (∀ p ∈ x.hooks.posts, ∃ rid body acc outcome, Attributed x p rid body acc outcome) ∧
      ∀ rid body acc, (rid, body, acc) ∈ x.replies → body.callbackUrl.getD "" = "" →
        ∀ p ∈ x.hooks.posts, ¬CausedBy x rid p := by
  have h := sound_run hrun
  refine ⟨fun p hp => h.attributed hp, fun rid body acc hreply hnone p hp hcaused => ?_⟩
  obtain ⟨rid', body', acc', outcome, hattributed⟩ := h.attributed hp
  -- the entry has one number, and the number belongs to one request
  have hrid : rid' = rid := by
    obtain ⟨event, hlog, rfl⟩ := hattributed.caused
    exact hcaused.rid_eq hlog rfl
  have hsame : (rid', body', acc') = (rid, body, acc) :=
    List.inj_on_of_nodup_map h.numbered hattributed.reply hreply hrid
  obtain ⟨url, hurl, hne, -⟩ := hattributed.url
  rw [(Prod.mk.inj (Prod.mk.inj hsame).2).1] at hurl
  rw [hurl] at hnone
  exact hne hnone

/-- Two requests of one session, of which one has a URL; both are answered before a dispatcher
makes its POST. -/
def oneWithCallback : List DeploymentAction :=
  [.chat true 0 ⟨"hi", none, some "alice", some "http://alice"⟩,
    .chat false 1 ⟨"hi", none, some "alice", none⟩, .bus (.start "alice" 0),
    .bus (.listen "alice" 0 .take), .bus (.listen "alice" 0 (.finish (.response "one" none .null))),
    .bus (.listen "alice" 0 (.post (.ok ⟨1, 0⟩))),
    .bus (.listen "alice" 0 (.postGlobal (.ok ⟨1, 0⟩))),
    .bus (.listen "alice" 0 .save), .bus (.listen "alice" 0 .take),
    .bus (.listen "alice" 0 (.finish (.response "two" none .null))),
    .bus (.listen "alice" 0 (.post (.ok ⟨2, 0⟩))),
    .bus (.listen "alice" 0 (.postGlobal (.ok ⟨2, 0⟩))),
    .hook (.start 0 "w"), .hook (.act 0 .init), .hook (.act 0 .read), .hook (.act 0 .check),
    .hook (.act 0 .attempt), .hook (.act 0 (.answer (some 200)))]

theorem attributed_oneWithCallback :
    ∃ x, (deployment "default" 3).run oneWithCallback = some x ∧ x.hooks.posts.length = 1 ∧
      (∀ p ∈ x.hooks.posts, ∃ rid body acc outcome, Attributed x p rid body acc outcome) ∧
      ∀ rid body acc, (rid, body, acc) ∈ x.replies → body.callbackUrl.getD "" = "" →
        ∀ p ∈ x.hooks.posts, ¬CausedBy x rid p :=
  ⟨_, rfl, rfl, attributed_of_run
    (show (deployment "default" 3).run oneWithCallback = some _ from rfl)⟩

end Sound

end Nanogate.Webhook
