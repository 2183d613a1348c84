import Mathlib.Logic.Function.Basic
import Nanogate.Bus.Message
import Nanogate.Redis.Stream
import Nanogate.Semantics.Machine

/-!
# The message bus with its gateways, listeners and readers

The gateway pushes accepted requests to the tenant's inbound list; the container of
a tenant runs `bus_listener_loop`, which pops a request, runs a turn and publishes
events; readers follow a session's stream. Every await point of the listener is a
state of its own, so any interleaving, with containers started and stopped at any
point, is a run of one machine.

Requests carry a number given at acceptance. No step reads it: it is the history
information needed to say that an event is *for* a request.

## Main definitions

* `Keyspace` — the lists and streams in Redis
* `Pc`, `listen` — the listener and its steps
* `Reader` — a `subscribe_events` generator
* `System`, `machine` — everything together, one label per step

## Main results

* `listenStep_of_listen`, `systemStep_of_step` — everything a step can do, as an
  inductive relation to take cases on
-/

namespace Nanogate.Bus

open Nanogate.Python Nanogate.Redis Nanogate.Semantics

/-! ### Redis -/

/-- An accepted request: its payload, numbered by acceptance. -/
structure Request where
  rid : ℕ
  payload : Json
  deriving DecidableEq, Repr

/-- An event on a stream, with the request it was published for and the tenant whose
listener published it. -/
structure Event where
  rid : ℕ
  tenantId : String
  data : Json
  deriving DecidableEq, Repr

/-- The lists and streams of the bus. -/
structure Keyspace where
  lists : String → List Request
  streams : String → Stream Event

namespace Keyspace

variable (bus : Keyspace)

/-- No key was ever written. -/
def empty : Keyspace := ⟨fun _ => [], fun _ => .empty⟩

/-- Replace the list at `key`. -/
def setList (key : String) (l : List Request) : Keyspace :=
  { bus with lists := Function.update bus.lists key l }

/-- `LPUSH key x`: the newest element is in front. -/
def lpush (key : String) (x : Request) : Keyspace := bus.setList key (x :: bus.lists key)

/-- `BRPOP key`, when the list is not empty: the oldest element. -/
def brpop (key : String) : Option (Request × Keyspace) :=
  (bus.lists key).getLast?.map fun x =>
    (x, bus.setList key (bus.lists key).dropLast)

/-- `XADD key MAXLEN ~ maxlen *` -/
def xadd (key : String) (maxlen : ℕ) (c : Xadd) (e : Event) : Keyspace :=
  { bus with streams := Function.update bus.streams key ((bus.streams key).xadd maxlen c e) }

/-- `publish_event`, first write: the session's own stream. -/
def publishSession (sessionId : String) (c : Xadd) (e : Event) : Keyspace :=
  bus.xadd (streamKey sessionId) 1000 c e

/-- `publish_event`, second write: the global stream, with `_session_id` added. -/
def publishGlobal (sessionId : String) (c : Xadd) (e : Event) : Keyspace :=
  bus.xadd globalOutboundStream 10000 c
    { e with data := e.data.set "_session_id" (.str sessionId) }

theorem lists_setList (key k : String) (l : List Request) :
    (bus.setList key l).lists k = if k = key then l else bus.lists k := by
  simp only [setList, Function.update_apply]

@[simp] theorem streams_setList (key : String) (l : List Request) :
    (bus.setList key l).streams = bus.streams := rfl

@[simp] theorem lists_xadd (key : String) (n : ℕ) (c : Xadd) (e : Event) :
    (bus.xadd key n c e).lists = bus.lists := rfl

@[simp] theorem streams_lpush (key : String) (x : Request) :
    (bus.lpush key x).streams = bus.streams := rfl

theorem streams_xadd (key : String) (n : ℕ) (c : Xadd) (e : Event) :
    (bus.xadd key n c e).streams =
      Function.update bus.streams key ((bus.streams key).xadd n c e) := rfl

theorem brpop_eq_some {key : String} {x : Request} {bus' : Keyspace} :
    bus.brpop key = some (x, bus') ↔
      ∃ rest, bus.lists key = rest ++ [x] ∧ bus' = bus.setList key rest := by
  unfold brpop
  rcases List.eq_nil_or_concat (bus.lists key) with hnil | ⟨rest, y, hcons⟩
  · simp [hnil]
  · rw [List.concat_eq_append] at hcons
    simp only [hcons, List.getLast?_concat, Option.map_some, Option.some_inj, Prod.mk.injEq,
      List.dropLast_concat]
    constructor
    · rintro ⟨rfl, rfl⟩
      exact ⟨rest, rfl, rfl⟩
    · rintro ⟨rest', happ, rfl⟩
      obtain ⟨rfl, hxy⟩ := List.append_inj' happ rfl
      exact ⟨List.singleton_inj.mp hxy, rfl⟩

end Keyspace

/-! ### The listener -/

/-- Where a listener stands between two awaits of `bus_listener_loop`. -/
inductive Pc where
  /-- In `consume_request`. -/
  | waiting
  /-- In `_run_chat` for a request. -/
  | turn (req : Request) (sessionId : String)
  /-- About to write a final payload to the session stream; `handler` in the
  `except` block that publishes errors. -/
  | posting (req : Request) (sessionId : String) (final : Json) (handler : Bool)
  /-- Between the two writes of `publish_event`. -/
  | postingGlobal (req : Request) (sessionId : String) (final : Json) (handler : Bool)
  /-- In `save_session_state_to_redis`. -/
  | saving (req : Request) (sessionId : String)
  /-- In the five seconds after an error. -/
  | sleeping
  deriving DecidableEq, Repr

/-- What happens at an await of the listener. An `XADD` that raises carries the
text of the exception. -/
inductive ListenerAct where
  | take
  | progress (content : String) (toolHint : Bool) (reply : Except String Xadd)
  | finish (outcome : Outcome)
  | post (reply : Except String Xadd)
  | postGlobal (reply : Except String Xadd)
  | save
  | wake
  deriving Repr

/-- The listener after `consume_request` returned `req`: a payload without a message is
dropped (`agent_loop` is set before the listener starts and cleared after it ends). -/
def received (req : Request) : Pc :=
  if (requestMessage req.payload).truthy then .turn req (requestSession req.payload) else .waiting

/-- Where an `XADD` that raised leads: out of the `try` block an error is published in
place of the result; out of the handler the error reaches the outer loop. -/
def publishFailed (req : Request) (sessionId : String) (handler : Bool) (error : String) : Pc :=
  if handler then .sleeping
  else .posting req sessionId (finalPayload req.payload (.raised error)) true

/-- One step of `bus_listener_loop` of the tenant. -/
def listen (tenantId : String) (bus : Keyspace) : Pc → ListenerAct → Option (Keyspace × Pc)
  | .waiting, .take =>
    match bus.brpop (inboundKey tenantId) with
    | some (req, bus') => some (bus', received req)
    | none => none
  | .turn req sessionId, .progress content hint reply =>
    -- a failed progress event is swallowed by the callback
    match reply with
    | .ok c =>
      some (bus.publishSession sessionId c ⟨req.rid, tenantId, progressPayload content hint⟩,
        .turn req sessionId)
    | .error _ => some (bus, .turn req sessionId)
  | .turn req sessionId, .finish outcome =>
    some (bus, .posting req sessionId (finalPayload req.payload outcome) outcome.isRaised)
  | .posting req sessionId final handler, .post reply =>
    match reply with
    | .ok c =>
      some (bus.publishSession sessionId c ⟨req.rid, tenantId, final⟩,
        .postingGlobal req sessionId final handler)
    | .error e => some (bus, publishFailed req sessionId handler e)
  | .postingGlobal req sessionId final handler, .postGlobal reply =>
    match reply with
    | .ok c =>
      some (bus.publishGlobal sessionId c ⟨req.rid, tenantId, final⟩,
        if handler then .waiting else .saving req sessionId)
    | .error e => some (bus, publishFailed req sessionId handler e)
  | .saving _ _, .save => some (bus, .waiting)
  | .sleeping, .wake => some (bus, .waiting)
  | _, _ => none

/-- Everything a listener step can do, one constructor for each await and reply. -/
inductive ListenStep (tenantId : String) (bus : Keyspace) :
    Pc → ListenerAct → Keyspace → Pc → Prop where
  | take {req rest} (queued : bus.lists (inboundKey tenantId) = rest ++ [req]) :
    ListenStep tenantId bus .waiting .take
      (bus.setList (inboundKey tenantId) rest) (received req)
  | progress {req sessionId content hint c} :
    ListenStep tenantId bus (.turn req sessionId) (.progress content hint (.ok c))
      (bus.publishSession sessionId c ⟨req.rid, tenantId, progressPayload content hint⟩)
      (.turn req sessionId)
  | progressFailed {req sessionId content hint e} :
    ListenStep tenantId bus (.turn req sessionId) (.progress content hint (.error e)) bus
      (.turn req sessionId)
  | finish {req sessionId outcome} :
    ListenStep tenantId bus (.turn req sessionId) (.finish outcome) bus
      (.posting req sessionId (finalPayload req.payload outcome) outcome.isRaised)
  | post {req sessionId final handler c} :
    ListenStep tenantId bus (.posting req sessionId final handler) (.post (.ok c))
      (bus.publishSession sessionId c ⟨req.rid, tenantId, final⟩)
      (.postingGlobal req sessionId final handler)
  | postFailed {req sessionId final handler e} :
    ListenStep tenantId bus (.posting req sessionId final handler) (.post (.error e)) bus
      (publishFailed req sessionId handler e)
  | postGlobal {req sessionId final handler c} :
    ListenStep tenantId bus (.postingGlobal req sessionId final handler) (.postGlobal (.ok c))
      (bus.publishGlobal sessionId c ⟨req.rid, tenantId, final⟩)
      (if handler then .waiting else .saving req sessionId)
  | postGlobalFailed {req sessionId final handler e} :
    ListenStep tenantId bus (.postingGlobal req sessionId final handler) (.postGlobal (.error e))
      bus (publishFailed req sessionId handler e)
  | save {req sessionId} : ListenStep tenantId bus (.saving req sessionId) .save bus .waiting
  | wake : ListenStep tenantId bus .sleeping .wake bus .waiting

theorem listenStep_of_listen {tenantId : String} {bus bus' : Keyspace} {pc pc' : Pc}
    {act : ListenerAct} (h : listen tenantId bus pc act = some (bus', pc')) :
    ListenStep tenantId bus pc act bus' pc' := by
  cases pc <;> cases act <;> simp only [listen, reduceCtorEq, Option.some_inj, Prod.mk.injEq] at h
  case waiting.take =>
    split at h
    next req rest hpop =>
      obtain ⟨rest, hqueued, rfl⟩ := (Keyspace.brpop_eq_some _).mp hpop
      obtain ⟨rfl, rfl⟩ := h
      exact .take hqueued
    next => exact absurd h (by simp)
  case turn.progress reply =>
    cases reply <;> obtain ⟨rfl, rfl⟩ := h
    · exact .progressFailed
    · exact .progress
  case turn.finish => obtain ⟨rfl, rfl⟩ := h; exact .finish
  case posting.post reply =>
    cases reply <;> obtain ⟨rfl, rfl⟩ := h
    · exact .postFailed
    · exact .post
  case postingGlobal.postGlobal reply =>
    cases reply <;> obtain ⟨rfl, rfl⟩ := h
    · exact .postGlobalFailed
    · exact .postGlobal
  case saving.save => obtain ⟨rfl, rfl⟩ := h; exact .save
  case sleeping.wake => obtain ⟨rfl, rfl⟩ := h; exact .wake

/-! ### Readers -/

/-- A `subscribe_events` generator: the id it has read up to, the rest of the batch
in hand, what it has yielded, and whether it has returned. -/
structure Reader where
  sessionId : String
  lastId : ℕ
  batch : List (ℕ × Event)
  yielded : List (ℕ × Event)
  closed : Bool

namespace Reader

/-- `subscribe_events(session_id, last_id)` before its first `XREAD`. -/
def start (sessionId : String) (lastId : ℕ) : Reader :=
  { sessionId, lastId, batch := [], yielded := [], closed := false }

/-- One `XREAD`, when the batch in hand is used up. -/
def fetch (r : Reader) (s : Stream Event) : Reader :=
  if r.closed then r
  else match r.batch with
    | [] => { r with batch := s.after r.lastId }
    | _ :: _ => r

/-- Yield the next event of the batch; the generator returns after a final one. -/
def next (r : Reader) : Reader :=
  if r.closed then r
  else match r.batch with
    | [] => r
    | (id, e) :: batch =>
      { r with
        lastId := id
        batch
        yielded := r.yielded ++ [(id, e)]
        closed := isFinal e.data }

@[simp] theorem sessionId_fetch (r : Reader) (s : Stream Event) :
    (r.fetch s).sessionId = r.sessionId := by
  unfold fetch
  split_ifs
  · rfl
  · split <;> rfl

@[simp] theorem sessionId_next (r : Reader) : r.next.sessionId = r.sessionId := by
  unfold next
  split_ifs
  · rfl
  · split <;> rfl

end Reader

/-! ### The whole system -/

/-- Redis, the listeners of the running containers by tenant and container number,
the readers, and two pieces of history: the requests accepted so far with their
tenants, and the requests a listener held unanswered when its container went down. -/
structure System where
  bus : Keyspace
  listeners : String → ℕ → Option Pc
  readers : ℕ → Option Reader
  accepted : List (String × Request)
  cut : List Request

/-- One step of some component. -/
inductive Action where
  /-- `POST /chat` on some gateway, the request being numbered `rid`. -/
  | chat (rid : ℕ) (body : ChatRequest)
  /-- A container of the tenant starts its listener. -/
  | start (tenantId : String) (container : ℕ)
  /-- The container goes down, whatever its listener is doing. -/
  | stop (tenantId : String) (container : ℕ)
  /-- The listener of a container takes a step. -/
  | listen (tenantId : String) (container : ℕ) (act : ListenerAct)
  | subscribe (reader : ℕ) (sessionId : String) (lastId : ℕ)
  | fetch (reader : ℕ)
  | next (reader : ℕ)

/-- The request a listener has taken and not yet published a final event for on the
session stream. -/
def Pc.unanswered : Pc → Option Request
  | .turn req _ | .posting req _ _ _ => some req
  | .waiting | .postingGlobal .. | .saving .. | .sleeping => none

namespace System

variable (sys : System)

def init : System := ⟨.empty, fun _ _ => none, fun _ => none, [], []⟩

def setListener (tenantId : String) (n : ℕ) (pc : Option Pc) : System :=
  { sys with
    listeners := Function.update sys.listeners tenantId
      (Function.update (sys.listeners tenantId) n pc) }

def setReader (r : ℕ) (reader : Reader) : System :=
  { sys with readers := Function.update sys.readers r (some reader) }

/-- A number that no accepted request has. -/
def Fresh (rid : ℕ) : Prop := rid ∉ sys.accepted.map fun p => p.2.rid

instance (rid : ℕ) : Decidable (sys.Fresh rid) := inferInstanceAs (Decidable (_ ∉ _))

/-- Push an accepted request to its tenant's list. -/
def push (tenantId : String) (req : Request) : System :=
  { sys with
    bus := sys.bus.lpush (inboundKey tenantId) req
    accepted := sys.accepted ++ [(tenantId, req)] }

/-- One step. Labels that do not fit the state are not enabled; a read that finds
nothing new changes nothing. -/
def step (defaultTenantId : String) (sys : System) : Action → Option System
  | .chat rid body =>
    match chat defaultTenantId body with
    | .error _ => some sys
    | .ok acc =>
      if sys.Fresh rid then some (sys.push acc.tenantId ⟨rid, acc.payload⟩) else none
  | .start t n =>
    match sys.listeners t n with
    | some _ => none
    | none => some (sys.setListener t n (some .waiting))
  | .stop t n =>
    match sys.listeners t n with
    | some pc =>
      some { sys.setListener t n none with cut := sys.cut ++ pc.unanswered.toList }
    | none => none
  | .listen t n act =>
    match sys.listeners t n with
    | some pc =>
      match listen t sys.bus pc act with
      | some (bus, pc') => some { sys.setListener t n (some pc') with bus }
      | none => none
    | none => none
  | .subscribe r sessionId lastId => some (sys.setReader r (.start sessionId lastId))
  | .fetch r =>
    match sys.readers r with
    | some reader =>
      some (sys.setReader r (reader.fetch (sys.bus.streams (streamKey reader.sessionId))))
    | none => none
  | .next r =>
    match sys.readers r with
    | some reader => some (sys.setReader r reader.next)
    | none => none

end System

/-- Everything a step of the system can do. -/
inductive SystemStep (defaultTenantId : String) (sys : System) : Action → System → Prop where
  | rejected {rid body e} (reply : chat defaultTenantId body = .error e) :
    SystemStep defaultTenantId sys (.chat rid body) sys
  | chat {rid body acc} (reply : chat defaultTenantId body = .ok acc) (fresh : sys.Fresh rid) :
    SystemStep defaultTenantId sys (.chat rid body) (sys.push acc.tenantId ⟨rid, acc.payload⟩)
  | start {t n} (absent : sys.listeners t n = none) :
    SystemStep defaultTenantId sys (.start t n) (sys.setListener t n (some .waiting))
  | stop {t n pc} (running : sys.listeners t n = some pc) :
    SystemStep defaultTenantId sys (.stop t n)
      { sys.setListener t n none with cut := sys.cut ++ pc.unanswered.toList }
  | listen {t n act pc bus pc'} (running : sys.listeners t n = some pc)
      (step : ListenStep t sys.bus pc act bus pc') :
    SystemStep defaultTenantId sys (.listen t n act) { sys.setListener t n (some pc') with bus }
  | subscribe {r sessionId lastId} :
    SystemStep defaultTenantId sys (.subscribe r sessionId lastId)
      (sys.setReader r (.start sessionId lastId))
  | fetch {r reader} (open_ : sys.readers r = some reader) :
    SystemStep defaultTenantId sys (.fetch r)
      (sys.setReader r (reader.fetch (sys.bus.streams (streamKey reader.sessionId))))
  | next {r reader} (open_ : sys.readers r = some reader) :
    SystemStep defaultTenantId sys (.next r) (sys.setReader r reader.next)

theorem systemStep_of_step {defaultTenantId : String} {sys sys' : System} {a : Action}
    (h : sys.step defaultTenantId a = some sys') : SystemStep defaultTenantId sys a sys' := by
  cases a <;> simp only [System.step] at h
  case chat rid body =>
    split at h
    next hreply => obtain rfl := Option.some_inj.mp h; exact .rejected hreply
    next hreply =>
      split_ifs at h with hfresh
      obtain rfl := Option.some_inj.mp h
      exact .chat hreply hfresh
  case start =>
    split at h
    next => exact absurd h (by simp)
    next habsent => obtain rfl := Option.some_inj.mp h; exact .start habsent
  case stop =>
    split at h
    next hrunning => obtain rfl := Option.some_inj.mp h; exact .stop hrunning
    next => exact absurd h (by simp)
  case listen =>
    split at h
    next hrunning =>
      split at h
      next hstep =>
        obtain rfl := Option.some_inj.mp h
        exact .listen hrunning (listenStep_of_listen hstep)
      next => exact absurd h (by simp)
    next => exact absurd h (by simp)
  case subscribe => obtain rfl := Option.some_inj.mp h; exact .subscribe
  case fetch =>
    split at h
    next hopen => obtain rfl := Option.some_inj.mp h; exact .fetch hopen
    next => exact absurd h (by simp)
  case next =>
    split at h
    next hopen => obtain rfl := Option.some_inj.mp h; exact .next hopen
    next => exact absurd h (by simp)

/-- The bus as a machine. -/
def machine (defaultTenantId : String) : Machine System Action where
  init := .init
  step := System.step defaultTenantId

end Nanogate.Bus
