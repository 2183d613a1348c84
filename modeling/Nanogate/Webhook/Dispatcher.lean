import Nanogate.Bus.System
import Nanogate.Redis.ConsumerGroup

/-!
# Webhook dispatchers

Background workers of the gateways read the global stream through one consumer group
and POST final results to the callback URL of the request. Each worker is a loop with
a stop flag that it looks at after every read and before every attempt. A worker can be
cancelled or crash at any await, and new ones can be started at any time.

The POSTs made are kept as history; no step reads them.

## Main definitions

* `callbackUrl`, `webhookBody` — where an event is to be POSTed, and what
* `Pc`, `Dispatcher` — a worker and where it stands
* `Webhooks`, `machine` — the stream, the group and the workers

## Main results

* `dispatcherStep_of_advance` — everything a worker's step can do
-/

namespace Nanogate.Webhook

open Nanogate.Python Nanogate.Redis Nanogate.Bus Nanogate.Semantics

/-! ### Events -/

/-- `callback_url` of `_process_event`. A `request_payload` that is neither falsy nor a
dictionary has no `get`, and the event is dropped by the handler of `start`. -/
def callbackUrl (event : Json) : Except Unit (Option Json) :=
  if !event.isObj then .error ()
  else
    let requestPayload := (event.getD "request_payload").or (.obj [])
    if !requestPayload.isObj then .error ()
    else
      let url := (requestPayload.getD "callbackUrl").or (requestPayload.getD "callback_url")
      .ok (if url.truthy then some url else none)

/-- `final_payload` of `_process_event`. -/
def webhookBody (event : Json) : Json :=
  ((event.erase "_session_id").erase "request_payload").set "session_id" (event.getD "_session_id")

/-- An entry of the global stream. -/
abbrev Entry := ℕ × Event

/-- The event asks for a webhook. -/
def WantsWebhook (e : Entry) : Prop := ∃ url, callbackUrl e.2.data = .ok (some url)

instance (e : Entry) : Decidable (WantsWebhook e) :=
  match h : callbackUrl e.2.data with
  | .ok (some url) => isTrue ⟨url, h⟩
  | .ok none => isFalse fun ⟨_, hurl⟩ => absurd (h.symm.trans hurl) (by simp)
  | .error _ => isFalse fun ⟨_, hurl⟩ => absurd (h.symm.trans hurl) (by simp)

/-- A POST: the entry it was made for, its URL and body, and the status code of the answer;
`none` when the client raised. -/
structure Post where
  entry : ℕ
  url : Json
  body : Json
  status : Option ℕ
  deriving DecidableEq, Repr

/-- `200 <= response.status_code < 300` -/
def success (status : Option ℕ) : Bool :=
  match status with
  | some code => 200 ≤ code && code < 300
  | none => false

/-! ### Workers -/

/-- Where a worker stands. -/
inductive Pc where
  /-- In `init_consumer_group`. -/
  | starting
  /-- In `XREADGROUP`. -/
  | reading
  /-- The entry has been read, and the stop flag is looked at. -/
  | handed (e : Entry)
  /-- At the head of the retry loop, before attempt `n`. -/
  | attempt (e : Entry) (url : Json) (n : ℕ)
  /-- In attempt `n`. -/
  | posting (e : Entry) (url : Json) (n : ℕ)
  /-- Acknowledging after attempt `n` succeeded, inside the `try`. -/
  | delivered (e : Entry) (url : Json) (n : ℕ)
  /-- Sleeping after attempt `n` failed. -/
  | backoff (e : Entry) (url : Json) (n : ℕ)
  /-- Acknowledging after the last attempt failed. -/
  | exhausted (e : Entry)
  /-- Acknowledging an event without a callback URL. -/
  | plain (e : Entry)
  /-- `start` has returned. -/
  | exited

/-- The entry a worker has in hand. -/
def Pc.entry : Pc → Option Entry
  | .starting | .reading | .exited => none
  | .handed e | .attempt e _ _ | .posting e _ _ | .delivered e _ _ | .backoff e _ _ | .exhausted e
  | .plain e => some e

/-- A `WebhookDispatcher`. -/
structure Dispatcher where
  consumer : String
  stopped : Bool
  pc : Pc

/-- After a failed attempt `n`: the loop sleeps unless it was the last one. -/
def afterFailure (maxRetries : ℕ) (e : Entry) (url : Json) (n : ℕ) : Pc :=
  if n + 1 < maxRetries then .backoff e url n else .attempt e url (n + 1)

/-- After the stop flag was found unset: `_process_event` up to its first await. -/
def beginEvent (e : Entry) : Pc :=
  match callbackUrl e.2.data with
  | .error _ => .reading
  | .ok none => .plain e
  | .ok (some url) => .attempt e url 0

/-- The global stream, its consumer group, the workers and the POSTs made. -/
structure Webhooks where
  stream : Stream Event
  group : Option ConsumerGroup
  dispatchers : ℕ → Option Dispatcher
  posts : List Post

/-- What happens at a step of a worker. -/
inductive Act where
  | init
  | read
  | check
  | attempt
  /-- The POST is answered with a status code, or raises. -/
  | answer (status : Option ℕ)
  /-- `XACK` succeeds or raises. -/
  | ack (ok : Bool)
  | wake
  deriving Repr

/-- One step of some component. -/
inductive Action where
  /-- A final event is added to the global stream, with the clock of the server. The stream is not
  trimmed here, so no dispatcher falls behind its oldest entry. -/
  | append (e : Event) (now : ℕ)
  | start (k : ℕ) (consumer : String)
  | stop (k : ℕ)
  | crash (k : ℕ)
  | act (k : ℕ) (a : Act)
  deriving Repr

namespace Webhooks

variable (w : Webhooks)

/-- Nothing was published and no worker runs. -/
def empty : Webhooks := ⟨.empty, none, fun _ => none, []⟩

/-- Replace worker `k`. -/
def setDispatcher (k : ℕ) (d : Option Dispatcher) : Webhooks :=
  { w with dispatchers := Function.update w.dispatchers k d }

/-- Move worker `k` to `pc`. -/
def goto (k : ℕ) (d : Dispatcher) (pc : Pc) : Webhooks := w.setDispatcher k (some { d with pc })

/-- The answer to a POST, and where it leads. -/
def addPost (k : ℕ) (d : Dispatcher) (pc : Pc) (post : Post) : Webhooks :=
  { w.goto k d pc with posts := w.posts ++ [post] }

/-- `XACK` of an entry, where the worker goes when it raises, and where it goes otherwise. -/
def acknowledge (k : ℕ) (d : Dispatcher) (e : Entry) (raised : Pc) : Bool → Webhooks
  | true => { w.goto k d .reading with group := w.group.map fun g => g.ack e.1 }
  | false => w.goto k d raised

/-- One step of worker `k`. -/
def advance (maxRetries : ℕ) (k : ℕ) (d : Dispatcher) : Pc → Act → Option Webhooks
  | .starting, .init => some { w.goto k d .reading with group := some (w.group.getD .create) }
  | .reading, .read =>
    match w.group with
    | some g =>
      match g.readNew w.stream d.consumer with
      | some (e, g') => some { w.goto k d (.handed e) with group := some g' }
      | none => none
    | none => none
  | .handed e, .check => some (w.goto k d (if d.stopped then .exited else beginEvent e))
  | .attempt e url n, .attempt =>
    some (w.goto k d (
      if n < maxRetries then if d.stopped then .reading else .posting e url n
      else .exhausted e))
  | .posting e url n, .answer status =>
    some (w.addPost k d
      (if success status then .delivered e url n else afterFailure maxRetries e url n)
      ⟨e.1, url, webhookBody e.2.data, status⟩)
  -- an `XACK` that raises inside the `try` counts as a failed attempt
  | .delivered e url n, .ack ok => some (w.acknowledge k d e (afterFailure maxRetries e url n) ok)
  | .backoff e url n, .wake => some (w.goto k d (.attempt e url (n + 1)))
  | .exhausted e, .ack ok => some (w.acknowledge k d e .reading ok)
  | .plain e, .ack ok => some (w.acknowledge k d e .reading ok)
  | _, _ => none

/-- One step. -/
def step (maxRetries : ℕ) : Action → Option Webhooks
  | .append e now => some { w with stream := w.stream.xadd 10000 ⟨now, 0⟩ e }
  | .start k consumer =>
    match w.dispatchers k with
    | some _ => none
    | none => some (w.setDispatcher k (some ⟨consumer, false, .starting⟩))
  | .stop k =>
    match w.dispatchers k with
    | some d => some (w.setDispatcher k (some { d with stopped := true }))
    | none => none
  | .crash k =>
    match w.dispatchers k with
    | some _ => some (w.setDispatcher k none)
    | none => none
  | .act k a =>
    match w.dispatchers k with
    | some d => w.advance maxRetries k d d.pc a
    | none => none

end Webhooks

/-- Everything a step of worker `k` can do. -/
inductive DispatcherStep (maxRetries : ℕ) (w : Webhooks) (k : ℕ) (d : Dispatcher) :
    Pc → Act → Webhooks → Prop where
  | init :
    DispatcherStep maxRetries w k d .starting .init
      { w.goto k d .reading with group := some (w.group.getD .create) }
  | read {g e g'} (group : w.group = some g)
      (handed : g.readNew w.stream d.consumer = some (e, g')) :
    DispatcherStep maxRetries w k d .reading .read
      { w.goto k d (.handed e) with group := some g' }
  | check {e} :
    DispatcherStep maxRetries w k d (.handed e) .check
      (w.goto k d (if d.stopped then .exited else beginEvent e))
  | attempt {e url n} :
    DispatcherStep maxRetries w k d (.attempt e url n) .attempt
      (w.goto k d (
        if n < maxRetries then if d.stopped then .reading else .posting e url n
        else .exhausted e))
  | answer {e url n status} :
    DispatcherStep maxRetries w k d (.posting e url n) (.answer status)
      (w.addPost k d
        (if success status then .delivered e url n else afterFailure maxRetries e url n)
        ⟨e.1, url, webhookBody e.2.data, status⟩)
  | ackDelivered {e url n ok} :
    DispatcherStep maxRetries w k d (.delivered e url n) (.ack ok)
      (w.acknowledge k d e (afterFailure maxRetries e url n) ok)
  | wake {e url n} :
    DispatcherStep maxRetries w k d (.backoff e url n) .wake (w.goto k d (.attempt e url (n + 1)))
  | ackExhausted {e ok} :
    DispatcherStep maxRetries w k d (.exhausted e) (.ack ok) (w.acknowledge k d e .reading ok)
  | ackPlain {e ok} :
    DispatcherStep maxRetries w k d (.plain e) (.ack ok) (w.acknowledge k d e .reading ok)

theorem dispatcherStep_of_advance {maxRetries : ℕ} {w w' : Webhooks} {k : ℕ} {d : Dispatcher}
    {pc : Pc} {a : Act} (h : w.advance maxRetries k d pc a = some w') :
    DispatcherStep maxRetries w k d pc a w' := by
  cases pc <;> cases a <;> simp only [Webhooks.advance, reduceCtorEq] at h
  case starting.init => obtain rfl := Option.some_inj.mp h; exact .init
  case reading.read =>
    split at h
    next hgroup =>
      split at h
      next hread => obtain rfl := Option.some_inj.mp h; exact .read hgroup hread
      next => exact absurd h (by simp)
    next => exact absurd h (by simp)
  case handed.check => obtain rfl := Option.some_inj.mp h; exact .check
  case attempt.attempt => obtain rfl := Option.some_inj.mp h; exact .attempt
  case posting.answer => obtain rfl := Option.some_inj.mp h; exact .answer
  case delivered.ack => obtain rfl := Option.some_inj.mp h; exact .ackDelivered
  case backoff.wake => obtain rfl := Option.some_inj.mp h; exact .wake
  case exhausted.ack => obtain rfl := Option.some_inj.mp h; exact .ackExhausted
  case plain.ack => obtain rfl := Option.some_inj.mp h; exact .ackPlain

/-- Everything a step can do. -/
inductive WebhookStep (maxRetries : ℕ) (w : Webhooks) : Action → Webhooks → Prop where
  | append {e now} :
    WebhookStep maxRetries w (.append e now) { w with stream := w.stream.xadd 10000 ⟨now, 0⟩ e }
  | start {k consumer} (absent : w.dispatchers k = none) :
    WebhookStep maxRetries w (.start k consumer)
      (w.setDispatcher k (some ⟨consumer, false, .starting⟩))
  | stop {k d} (running : w.dispatchers k = some d) :
    WebhookStep maxRetries w (.stop k) (w.setDispatcher k (some { d with stopped := true }))
  | crash {k d} (running : w.dispatchers k = some d) :
    WebhookStep maxRetries w (.crash k) (w.setDispatcher k none)
  | act {k d a w'} (running : w.dispatchers k = some d)
      (step : DispatcherStep maxRetries w k d d.pc a w') : WebhookStep maxRetries w (.act k a) w'

theorem webhookStep_of_step {maxRetries : ℕ} {w w' : Webhooks} {a : Action}
    (h : w.step maxRetries a = some w') : WebhookStep maxRetries w a w' := by
  cases a <;> simp only [Webhooks.step] at h
  case append => obtain rfl := Option.some_inj.mp h; exact .append
  case start =>
    split at h
    next => exact absurd h (by simp)
    next habsent => obtain rfl := Option.some_inj.mp h; exact .start habsent
  case stop =>
    split at h
    next hrunning => obtain rfl := Option.some_inj.mp h; exact .stop hrunning
    next => exact absurd h (by simp)
  case crash =>
    split at h
    next hrunning => obtain rfl := Option.some_inj.mp h; exact .crash hrunning
    next => exact absurd h (by simp)
  case act =>
    split at h
    next hrunning => exact .act hrunning (dispatcherStep_of_advance h)
    next => exact absurd h (by simp)

/-- The dispatchers of one consumer group, each with `max_retries`. -/
def machine (maxRetries : ℕ) : Machine Webhooks Action where
  init := .empty
  step w a := w.step maxRetries a

end Nanogate.Webhook
