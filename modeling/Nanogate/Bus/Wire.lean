import Mathlib.Data.Fintype.EquivFin
import Nanogate.Bus.Subscription
import Nanogate.Python.JsonText

/-!
# The bus as Redis holds it

What is in the lists and streams are texts: everyone who pushes or publishes calls `json.dumps`, and
everyone who pops or reads calls `json.loads`. The system is written here once more with the texts,
and without the numbers of the requests, which nobody sends. Its runs are those of the bus of
values, each value being written as its text. So nothing that is read fails to be read, and what is
read is what was written.

A `loads` that raises, or that returns something other than a dictionary, is a step like any other:
the listener sleeps, with the popped text gone, and the generator of a subscription is at its end.

## Main definitions

* `Wire.Keyspace`, `Wire.listen`, `Wire.Reader`, `Wire.machine` — the system with its texts
* `IsDict` — a dictionary that Python holds
* `encode` — the bus of values, written in texts

## Main results

* `encoding` — the two systems do the same
* `run_texts_iff` — they have the same runs, every text on the bus is that of a dictionary, and no
  subscription has raised
-/

namespace Nanogate.Bus.Wire

open Nanogate.Python Nanogate.Python.JsonText Nanogate.Redis Nanogate.Semantics

/-! ### Redis -/

/-- The lists and streams of the bus. -/
structure Keyspace where
  lists : String → List String
  streams : String → Stream String

namespace Keyspace

variable (bus : Keyspace)

/-- No key was ever written. -/
def empty : Keyspace := ⟨fun _ => [], fun _ => .empty⟩

/-- Replace the list at `key`. -/
def setList (key : String) (l : List String) : Keyspace :=
  { bus with lists := Function.update bus.lists key l }

/-- `LPUSH key x` -/
def lpush (key : String) (x : String) : Keyspace := bus.setList key (x :: bus.lists key)

/-- `BRPOP key`, when the list is not empty. -/
def brpop (key : String) : Option (String × Keyspace) :=
  (bus.lists key).getLast?.map fun x => (x, bus.setList key (bus.lists key).dropLast)

/-- `XADD key MAXLEN ~ maxlen * data text` -/
def xadd (key : String) (maxlen : ℕ) (c : Xadd) (text : String) : Keyspace :=
  { bus with streams := Function.update bus.streams key ((bus.streams key).xadd maxlen c text) }

/-- `publish_event`, first write. -/
def publishSession (sessionId : String) (c : Xadd) (payload : Json) : Keyspace :=
  bus.xadd (streamKey sessionId) 1000 c (dumps payload)

/-- `publish_event`, second write. -/
def publishGlobal (sessionId : String) (c : Xadd) (payload : Json) : Keyspace :=
  bus.xadd globalOutboundStream 10000 c (dumps (payload.set "_session_id" (.str sessionId)))

end Keyspace

section Loads

variable (floatRepr : String → String)

/-- `json.loads(data)`, where only a dictionary can be used: what is then asked of it or put into
it raises otherwise. -/
def loadsDict (text : String) : Option Json :=
  match loads floatRepr text with
  | some v => if v.isObj then some v else none
  | none => none

/-- A dictionary that Python holds. -/
structure IsDict (v : Json) : Prop where
  python : IsPython floatRepr v
  isObj : v.isObj = true

variable {floatRepr}

/-- A dictionary is read as it was written. -/
theorem loadsDict_dumps {v : Json} (hv : IsDict floatRepr v) :
    loadsDict floatRepr (dumps v) = some v := by
  rw [loadsDict, loads_dumps hv.python]
  exact if_pos hv.isObj

theorem IsDict.set {v x : Json} {k : String} (hv : IsDict floatRepr v)
    (hx : IsPython floatRepr x) : IsDict floatRepr (v.set k x) :=
  ⟨hv.python.set hx, rfl⟩

end Loads

/-! ### The listener -/

/-- Where a listener stands between two awaits of `bus_listener_loop`. -/
inductive Pc where
  | waiting
  | turn (payload : Json) (sessionId : String)
  | posting (payload : Json) (sessionId : String) (final : Json) (handler : Bool)
  | postingGlobal (payload : Json) (sessionId : String) (final : Json) (handler : Bool)
  | saving (sessionId : String)
  | sleeping
  deriving Repr

/-- The listener after `consume_request` has returned. -/
def received (payload : Json) : Pc :=
  if (requestMessage payload).truthy then .turn payload (requestSession payload) else .waiting

/-- Where an `XADD` that raised leads. -/
def publishFailed (payload : Json) (sessionId : String) (handler : Bool) (error : String) : Pc :=
  if handler then .sleeping
  else .posting payload sessionId (finalPayload payload (.raised error)) true

/-- One step of `bus_listener_loop` of the tenant. -/
def listen (floatRepr : String → String) (tenantId : String) (bus : Keyspace) :
    Pc → ListenerAct → Option (Keyspace × Pc)
  | .waiting, .take =>
    match bus.brpop (inboundKey tenantId) with
    | some (text, bus') =>
      match loadsDict floatRepr text with
      | some payload => some (bus', received payload)
      | none => some (bus', .sleeping)
    | none => none
  | .turn payload sessionId, .progress content hint reply =>
    match reply with
    | .ok c =>
      some (bus.publishSession sessionId c (progressPayload content hint), .turn payload sessionId)
    | .error _ => some (bus, .turn payload sessionId)
  | .turn payload sessionId, .finish outcome =>
    some (bus, .posting payload sessionId (finalPayload payload outcome) outcome.isRaised)
  | .posting payload sessionId final handler, .post reply =>
    match reply with
    | .ok c =>
      some (bus.publishSession sessionId c final, .postingGlobal payload sessionId final handler)
    | .error e => some (bus, publishFailed payload sessionId handler e)
  | .postingGlobal payload sessionId final handler, .postGlobal reply =>
    match reply with
    | .ok c =>
      some (bus.publishGlobal sessionId c final, if handler then .waiting else .saving sessionId)
    | .error e => some (bus, publishFailed payload sessionId handler e)
  | .saving _, .save => some (bus, .waiting)
  | .sleeping, .wake => some (bus, .waiting)
  | _, _ => none

/-! ### Readers -/

/-- A `subscribe_events` generator; `failed` when it has raised. -/
structure Reader where
  sessionId : String
  lastId : ℕ
  batch : List (ℕ × String)
  yielded : List Json
  closed : Bool
  failed : Bool

namespace Reader

/-- `subscribe_events(session_id, last_id)` before its first `XREAD`. -/
def start (sessionId : String) (lastId : ℕ) : Reader :=
  { sessionId, lastId, batch := [], yielded := [], closed := false, failed := false }

/-- One `XREAD`, when the batch in hand is used up. -/
def fetch (r : Reader) (s : Stream String) : Reader :=
  if r.closed then r
  else match r.batch with
    | [] => { r with batch := s.after r.lastId }
    | _ :: _ => r

/-- Read the next text of the batch and yield the event. -/
def next (floatRepr : String → String) (r : Reader) : Reader :=
  if r.closed then r
  else match r.batch with
    | [] => r
    | (id, text) :: batch =>
      match loadsDict floatRepr text with
      | some data =>
        let data := data.set "event_id" (.str (idText id))
        { r with lastId := id, batch, yielded := r.yielded ++ [data], closed := isFinal data }
      | none => { r with lastId := id, batch, closed := true, failed := true }

end Reader

/-! ### The whole system -/

/-- Redis, the listeners and the readers. -/
structure System where
  bus : Keyspace
  listeners : String → ℕ → Option Pc
  readers : ℕ → Option Reader

/-- One step of some component. -/
inductive Action where
  | chat (body : ChatRequest)
  | start (tenantId : String) (container : ℕ)
  | stop (tenantId : String) (container : ℕ)
  | listen (tenantId : String) (container : ℕ) (act : ListenerAct)
  | subscribe (reader : ℕ) (sessionId : String) (lastId : ℕ)
  | fetch (reader : ℕ)
  | next (reader : ℕ)

namespace System

variable (sys : System)

def init : System := ⟨.empty, fun _ _ => none, fun _ => none⟩

def setListener (tenantId : String) (n : ℕ) (pc : Option Pc) : System :=
  { sys with
    listeners := Function.update sys.listeners tenantId
      (Function.update (sys.listeners tenantId) n pc) }

def setReader (r : ℕ) (reader : Reader) : System :=
  { sys with readers := Function.update sys.readers r (some reader) }

/-- One step. -/
def step (floatRepr : String → String) (defaultTenantId : String) (sys : System) :
    Action → Option System
  | .chat body =>
    match Bus.chat defaultTenantId body with
    | .error _ => some sys
    | .ok acc =>
      some { sys with bus := sys.bus.lpush (inboundKey acc.tenantId) (dumps acc.payload) }
  | .start t n =>
    match sys.listeners t n with
    | some _ => none
    | none => some (sys.setListener t n (some .waiting))
  | .stop t n =>
    match sys.listeners t n with
    | some _ => some (sys.setListener t n none)
    | none => none
  | .listen t n act =>
    match sys.listeners t n with
    | some pc =>
      match Wire.listen floatRepr t sys.bus pc act with
      | some (bus, pc') => some { sys.setListener t n (some pc') with bus }
      | none => none
    | none => none
  | .subscribe r sessionId lastId => some (sys.setReader r (.start sessionId lastId))
  | .fetch r =>
    match sys.readers r with
    | some reader =>
      some (sys.setReader r (reader.fetch (sys.bus.streams (streamKey reader.sessionId))))
    | none => none
  | .next r =>
    match sys.readers r with
    | some reader => some (sys.setReader r (reader.next floatRepr))
    | none => none

end System

/-- The bus with its texts as a machine. -/
def machine (floatRepr : String → String) (defaultTenantId : String) : Machine System Action where
  init := .init
  step := System.step floatRepr defaultTenantId

/-! ### Values written as texts -/

/-- Lists and streams of texts. -/
def encodeKeyspace (bus : Bus.Keyspace) : Keyspace where
  lists key := (bus.lists key).map fun req => dumps req.payload
  streams key := (bus.streams key).map fun e => dumps e.data

/-- A listener without the number of its request. -/
def encodePc : Bus.Pc → Pc
  | .waiting => .waiting
  | .turn req sessionId => .turn req.payload sessionId
  | .posting req sessionId final handler => .posting req.payload sessionId final handler
  | .postingGlobal req sessionId final handler => .postingGlobal req.payload sessionId final handler
  | .saving _ sessionId => .saving sessionId
  | .sleeping => .sleeping

/-- A generator with texts in hand, which has not raised. -/
def encodeReader (r : Bus.Reader) : Reader where
  sessionId := r.sessionId
  lastId := r.lastId
  batch := r.batch.map fun e => (e.1, dumps e.2.data)
  yielded := r.yielded.map tagged
  closed := r.closed
  failed := false

/-- The bus of values, written in texts. -/
def encode (sys : Bus.System) : System where
  bus := encodeKeyspace sys.bus
  listeners t n := (sys.listeners t n).map encodePc
  readers r := (sys.readers r).map encodeReader

/-- A step without the number of the request. -/
def label : Bus.Action → Action
  | .chat _ body => .chat body
  | .start t n => .start t n
  | .stop t n => .stop t n
  | .listen t n act => .listen t n act
  | .subscribe r sessionId lastId => .subscribe r sessionId lastId
  | .fetch r => .fetch r
  | .next r => .next r

/-! ### Everything that is held is a dictionary -/

section Held

variable (floatRepr : String → String)

/-- The payloads and events that a listener holds are dictionaries. -/
def HeldPc : Bus.Pc → Prop
  | .turn req _ => IsDict floatRepr req.payload
  | .posting req _ final _ | .postingGlobal req _ final _ =>
    IsDict floatRepr req.payload ∧ IsDict floatRepr final
  | .waiting | .saving _ _ | .sleeping => True

/-- What process_direct hands back is what Python holds. -/
def HeldAct : ListenerAct → Prop
  | .finish (.response _ _ approvalContext) => IsPython floatRepr approvalContext
  | _ => True

/-- The turns of a step hand back what Python holds. -/
def HeldAction : Action → Prop
  | .listen _ _ act => HeldAct floatRepr act
  | _ => True

/-- Everything that is queued, published or held is a dictionary. -/
structure Held (sys : Bus.System) : Prop where
  lists : ∀ key, ∀ req ∈ sys.bus.lists key, IsDict floatRepr req.payload
  streams : ∀ key, ∀ e ∈ (sys.bus.streams key).log, IsDict floatRepr e.2.data
  listeners : ∀ t n pc, sys.listeners t n = some pc → HeldPc floatRepr pc
  readers : ∀ r reader, sys.readers r = some reader →
    ∀ e ∈ reader.batch, IsDict floatRepr e.2.data

variable {floatRepr} {d : String}

theorem isDict_modelDump (body : ChatRequest) : IsDict floatRepr body.modelDump := by
  obtain ⟨message, sessionId, tenantId, callbackUrl⟩ := body
  refine ⟨?_, rfl⟩
  cases sessionId <;> cases tenantId <;> cases callbackUrl <;>
    simp [ChatRequest.modelDump, IsPython, HoldPython, Entries.keys]

theorem isDict_of_chat {body : ChatRequest} {acc : Accepted} (h : Bus.chat d body = .ok acc) :
    IsDict floatRepr acc.payload := by
  unfold Bus.chat at h
  split_ifs at h
  obtain rfl := Except.ok.inj h
  have hsession (x y : String) : IsDict floatRepr
      ((body.modelDump.set "sessionId" (.str x)).set "session_id" (.str y)) :=
    ((isDict_modelDump body).set (isPython_str x)).set (isPython_str y)
  dsimp only
  split <;> split <;> try split_ifs
  all_goals first
    | exact hsession _ _
    | exact (hsession _ _).set (isPython_str _)
    | exact ((hsession _ _).set (isPython_str _)).set (isPython_str _)

theorem isDict_progressPayload (content : String) (hint : Bool) :
    IsDict floatRepr (progressPayload content hint) := by
  refine ⟨?_, rfl⟩
  simp [progressPayload, IsPython, HoldPython, Entries.keys]

theorem isDict_raised {payload : Json} (hpayload : IsDict floatRepr payload) (error : String) :
    IsDict floatRepr (finalPayload payload (.raised error)) := by
  refine ⟨?_, rfl⟩
  simp [finalPayload, IsPython, HoldPython, Entries.keys, hpayload.python]

theorem isDict_finalPayload {payload : Json} (hpayload : IsDict floatRepr payload)
    {outcome : Outcome} (hact : HeldAct floatRepr (.finish outcome)) :
    IsDict floatRepr (finalPayload payload outcome) := by
  cases outcome with
  | raised error => exact isDict_raised hpayload error
  | response response rid context =>
    have hrid : IsPython floatRepr (optional rid) := by cases rid <;> trivial
    refine ⟨?_, rfl⟩
    simp [finalPayload, IsPython, HoldPython, Entries.keys, hpayload.python, hrid,
      show IsPython floatRepr context from hact]

/-! What a listener's step keeps. -/

theorem held_streams_xadd {bus : Bus.Keyspace} {key : String} {n : ℕ} {c : Xadd} {event : Event}
    (h : ∀ key, ∀ e ∈ (bus.streams key).log, IsDict floatRepr e.2.data)
    (hevent : IsDict floatRepr event.data) (key' : String) :
    ∀ e ∈ ((bus.xadd key n c event).streams key').log, IsDict floatRepr e.2.data := by
  rw [Bus.Keyspace.streams_xadd, Function.update_apply]
  split_ifs
  · intro e he
    rcases Stream.mem_log_xadd.mp he with he | rfl
    · exact h key e he
    · exact hevent
  · exact h key'

theorem heldPc_publishFailed {req : Request} (hpayload : IsDict floatRepr req.payload)
    (sessionId : String) (handler : Bool) (error : String) :
    HeldPc floatRepr (Bus.publishFailed req sessionId handler error) := by
  unfold Bus.publishFailed
  split_ifs
  · trivial
  · exact ⟨hpayload, isDict_raised hpayload error⟩

theorem held_of_listenStep {t : String} {bus bus' : Bus.Keyspace} {pc pc' : Bus.Pc}
    {act : ListenerAct} (hstep : ListenStep t bus pc act bus' pc') (hpc : HeldPc floatRepr pc)
    (hact : HeldAct floatRepr act)
    (hlists : ∀ key, ∀ req ∈ bus.lists key, IsDict floatRepr req.payload)
    (hstreams : ∀ key, ∀ e ∈ (bus.streams key).log, IsDict floatRepr e.2.data) :
    (∀ key, ∀ req ∈ bus'.lists key, IsDict floatRepr req.payload) ∧
      (∀ key, ∀ e ∈ (bus'.streams key).log, IsDict floatRepr e.2.data) ∧
      HeldPc floatRepr pc' := by
  cases hstep with
  | @take req rest queued =>
    refine ⟨fun key req hreq => ?_, hstreams, ?_⟩
    · rw [Bus.Keyspace.lists_setList] at hreq
      split_ifs at hreq
      · exact hlists _ req (by rw [queued]; exact List.mem_append_left _ hreq)
      · exact hlists key req hreq
    · have hreq := hlists (inboundKey t) req (by rw [queued]; simp)
      unfold Bus.received
      split_ifs
      · exact hreq
      · trivial
  | progress =>
    exact ⟨hlists, held_streams_xadd hstreams (isDict_progressPayload _ _), hpc⟩
  | progressFailed => exact ⟨hlists, hstreams, hpc⟩
  | finish => exact ⟨hlists, hstreams, hpc, isDict_finalPayload hpc hact⟩
  | post => exact ⟨hlists, held_streams_xadd hstreams hpc.2, hpc⟩
  | postFailed => exact ⟨hlists, hstreams, heldPc_publishFailed hpc.1 ..⟩
  | postGlobal =>
    refine ⟨hlists, held_streams_xadd hstreams (hpc.2.set (isPython_str _)), ?_⟩
    split_ifs <;> trivial
  | postGlobalFailed => exact ⟨hlists, hstreams, heldPc_publishFailed hpc.1 ..⟩
  | save | wake => exact ⟨hlists, hstreams, trivial⟩

theorem Held.setListener {sys : Bus.System} (h : Held floatRepr sys) {t : String} {n : ℕ}
    {pc : Option Bus.Pc} (hpc : ∀ pc' ∈ pc, HeldPc floatRepr pc') :
    Held floatRepr (sys.setListener t n pc) where
  lists := h.lists
  streams := h.streams
  listeners t' n' pc' heq := by
    simp only [Bus.System.setListener, Function.update_apply] at heq
    split_ifs at heq with ht
    · rw [Function.update_apply] at heq
      split_ifs at heq
      · exact hpc pc' heq
      · exact h.listeners t n' pc' heq
    · exact h.listeners t' n' pc' heq
  readers := h.readers

theorem Held.setReader {sys : Bus.System} (h : Held floatRepr sys) {r : ℕ} {reader : Bus.Reader}
    (hreader : ∀ e ∈ reader.batch, IsDict floatRepr e.2.data) :
    Held floatRepr (sys.setReader r reader) where
  lists := h.lists
  streams := h.streams
  listeners := h.listeners
  readers r' reader' heq := by
    simp only [Bus.System.setReader, Function.update_apply] at heq
    split_ifs at heq
    · obtain rfl := Option.some_inj.mp heq
      exact hreader
    · exact h.readers r' reader' heq

theorem held_fetch {reader : Bus.Reader} {s : Stream Event}
    (hreader : ∀ e ∈ reader.batch, IsDict floatRepr e.2.data)
    (hs : ∀ e ∈ s.log, IsDict floatRepr e.2.data) :
    ∀ e ∈ (reader.fetch s).batch, IsDict floatRepr e.2.data := by
  unfold Bus.Reader.fetch
  split_ifs
  · exact hreader
  · split
    · exact fun e he => hs e (Stream.mem_log_of_mem_after he)
    · exact hreader

theorem held_next {reader : Bus.Reader}
    (hreader : ∀ e ∈ reader.batch, IsDict floatRepr e.2.data) :
    ∀ e ∈ reader.next.batch, IsDict floatRepr e.2.data := by
  unfold Bus.Reader.next
  split_ifs
  · exact hreader
  · split
    · exact hreader
    next hbatch => exact fun e he => hreader e (by rw [hbatch]; exact List.mem_cons_of_mem _ he)

/-- A step of the bus of values adds dictionaries only. -/
theorem held_step {sys sys' : Bus.System} {a : Bus.Action} (h : Held floatRepr sys)
    (ha : HeldAction floatRepr (label a)) (hstep : sys.step d a = some sys') :
    Held floatRepr sys' := by
  cases systemStep_of_step hstep with
  | rejected => exact h
  | chat reply =>
    refine ⟨fun key req hreq => ?_, h.streams, h.listeners, h.readers⟩
    simp only [Bus.System.push, Bus.Keyspace.lpush, Bus.Keyspace.lists_setList] at hreq
    split_ifs at hreq
    · rcases List.mem_cons.mp hreq with rfl | hreq
      · exact isDict_of_chat reply
      · exact h.lists _ req hreq
    · exact h.lists key req hreq
  | start => exact h.setListener fun pc hpc => Option.mem_some.mp hpc ▸ trivial
  | stop => exact
      have hnone : ∀ pc' ∈ (none : Option Bus.Pc), HeldPc floatRepr pc' := by simp
      ⟨h.lists, h.streams, (h.setListener hnone).listeners, h.readers⟩
  | listen running step =>
    obtain ⟨hlists, hstreams, hpc⟩ :=
      held_of_listenStep step (h.listeners _ _ _ running) ha h.lists h.streams
    exact ⟨hlists, hstreams, (h.setListener fun pc heq => Option.mem_some.mp heq ▸ hpc).listeners,
      h.readers⟩
  | subscribe => exact h.setReader (by simp [Bus.Reader.start])
  | fetch open_ => exact h.setReader (held_fetch (h.readers _ _ open_) (h.streams _))
  | next open_ => exact h.setReader (held_next (h.readers _ _ open_))

theorem held_init : Held floatRepr .init where
  lists := by simp [Bus.System.init, Bus.Keyspace.empty]
  streams := by simp [Bus.System.init, Bus.Keyspace.empty]
  listeners := by simp [Bus.System.init]
  readers := by simp [Bus.System.init]

end Held

/-! ### The two systems do the same -/

section Encode

variable {floatRepr : String → String} {d : String} {bus : Bus.Keyspace} {sys : Bus.System}

theorem encode_setList (key : String) (l : List Request) :
    encodeKeyspace (bus.setList key l) =
      (encodeKeyspace bus).setList key (l.map fun req => dumps req.payload) := by
  simp only [encodeKeyspace, Bus.Keyspace.setList, Keyspace.setList, Keyspace.mk.injEq, and_true]
  funext k
  simp only [Function.update_apply]
  split_ifs <;> rfl

theorem encode_lpush (key : String) (req : Request) :
    encodeKeyspace (bus.lpush key req) = (encodeKeyspace bus).lpush key (dumps req.payload) :=
  encode_setList key _

theorem encode_brpop (key : String) :
    (encodeKeyspace bus).brpop key =
      (bus.brpop key).map fun p => (dumps p.1.payload, encodeKeyspace p.2) := by
  rw [Keyspace.brpop, Bus.Keyspace.brpop, Option.map_map]
  have hlist : (encodeKeyspace bus).lists key =
      (bus.lists key).map fun req => dumps req.payload := rfl
  rw [hlist, List.getLast?_map, Option.map_map, ← List.map_dropLast, ← encode_setList]
  rfl

theorem encode_xadd (key : String) (n : ℕ) (c : Xadd) (e : Event) :
    encodeKeyspace (bus.xadd key n c e) = (encodeKeyspace bus).xadd key n c (dumps e.data) := by
  simp only [encodeKeyspace, Bus.Keyspace.xadd, Keyspace.xadd, Keyspace.mk.injEq, true_and]
  funext k
  simp only [Function.update_apply]
  split_ifs
  · exact Stream.map_xadd _
  · rfl

theorem encode_received (req : Request) : encodePc (Bus.received req) = received req.payload := by
  unfold Bus.received received
  split_ifs <;> rfl

theorem encode_publishFailed (req : Request) (sessionId : String) (handler : Bool)
    (error : String) : encodePc (Bus.publishFailed req sessionId handler error) =
      publishFailed req.payload sessionId handler error := by
  unfold Bus.publishFailed publishFailed
  split_ifs <;> rfl

/-- A listener does the same with the texts. -/
theorem listen_encode {t : String} (pc : Bus.Pc) (act : ListenerAct)
    (hlists : ∀ req ∈ bus.lists (inboundKey t), IsDict floatRepr req.payload) :
    listen floatRepr t (encodeKeyspace bus) (encodePc pc) act =
      (Bus.listen t bus pc act).map fun p => (encodeKeyspace p.1, encodePc p.2) := by
  cases pc with
  | waiting =>
    cases act with
    | take =>
      have hwaiting : encodePc .waiting = .waiting := rfl
      simp only [hwaiting, listen, Bus.listen, encode_brpop]
      cases hpop : bus.brpop (inboundKey t) with
      | none => rfl
      | some p =>
        obtain ⟨rest, hqueued, -⟩ := (Bus.Keyspace.brpop_eq_some _).mp hpop
        have hp : IsDict floatRepr p.1.payload := hlists p.1 (by rw [hqueued]; simp)
        simp only [Option.map_some, loadsDict_dumps hp]
        rw [encode_received]
    | progress | finish | post | postGlobal | save | wake => rfl
  | turn req sessionId =>
    cases act with
    | progress content hint reply =>
      cases reply with
      | ok c => simp [encodePc, listen, Bus.listen, Bus.Keyspace.publishSession,
          Keyspace.publishSession, encode_xadd]
      | error e => rfl
    | take | finish | post | postGlobal | save | wake => rfl
  | posting req sessionId final handler =>
    cases act with
    | post reply =>
      cases reply with
      | ok c => simp [encodePc, listen, Bus.listen, Bus.Keyspace.publishSession,
          Keyspace.publishSession, encode_xadd]
      | error e =>
        exact congrArg (fun pc => some (encodeKeyspace bus, pc))
          (encode_publishFailed req sessionId handler e).symm
    | take | progress | finish | postGlobal | save | wake => rfl
  | postingGlobal req sessionId final handler =>
    cases act with
    | postGlobal reply =>
      cases reply with
      | ok c => cases handler <;> simp [encodePc, listen, Bus.listen, Bus.Keyspace.publishGlobal,
          Keyspace.publishGlobal, encode_xadd]
      | error e =>
        exact congrArg (fun pc => some (encodeKeyspace bus, pc))
          (encode_publishFailed req sessionId handler e).symm
    | take | progress | finish | post | save | wake => rfl
  | saving req sessionId => cases act <;> rfl
  | sleeping => cases act <;> rfl

theorem encode_fetch (reader : Bus.Reader) (s : Stream Event) :
    encodeReader (reader.fetch s) =
      (encodeReader reader).fetch (s.map fun e => dumps e.data) := by
  unfold Bus.Reader.fetch Reader.fetch
  split_ifs with hclosed hclosed' hclosed'
  · rfl
  · exact absurd hclosed hclosed'
  · exact absurd hclosed' hclosed
  · obtain ⟨sessionId, lastId, batch, yielded, closed⟩ := reader
    cases batch with
    | nil => simp [encodeReader, Stream.after_map]
    | cons e batch => rfl

/-- A subscription reads the events that were written. -/
theorem encode_next {reader : Bus.Reader}
    (hbatch : ∀ e ∈ reader.batch, IsDict floatRepr e.2.data) :
    encodeReader reader.next = (encodeReader reader).next floatRepr := by
  unfold Bus.Reader.next Reader.next
  split_ifs with hclosed hclosed' hclosed'
  · rfl
  · exact absurd hclosed hclosed'
  · exact absurd hclosed' hclosed
  · obtain ⟨sessionId, lastId, batch, yielded, closed⟩ := reader
    cases batch with
    | nil => rfl
    | cons e batch =>
      have he : IsDict floatRepr e.2.data := hbatch e (List.mem_cons_self ..)
      have htagged : e.2.data.set "event_id" (.str (idText e.1)) = tagged e := rfl
      have hfinal : isFinal (tagged e) = isFinal e.2.data := isFinal_tagged e
      simp only [encodeReader, List.map_cons, loadsDict_dumps he, List.map_append, List.map_nil,
        htagged, hfinal]

theorem encode_setListener (t : String) (n : ℕ) (pc : Option Bus.Pc) :
    encode (sys.setListener t n pc) = (encode sys).setListener t n (pc.map encodePc) := by
  simp only [encode, Bus.System.setListener, System.setListener, System.mk.injEq, true_and,
    and_true]
  funext t' n'
  simp only [Function.update_apply]
  split_ifs
  · simp only [Function.update_apply]
    split_ifs <;> rfl
  · rfl

theorem encode_setReader (r : ℕ) (reader : Bus.Reader) :
    encode (sys.setReader r reader) = (encode sys).setReader r (encodeReader reader) := by
  simp only [encode, Bus.System.setReader, System.setReader, System.mk.injEq, true_and]
  funext r'
  simp only [Function.update_apply]
  split_ifs <;> rfl

theorem encode_push (t : String) (req : Request) : encode (sys.push t req) =
    { encode sys with bus := (encode sys).bus.lpush (inboundKey t) (dumps req.payload) } := by
  simp only [encode, Bus.System.push, encode_lpush]

theorem listeners_encode (t : String) (n : ℕ) :
    (encode sys).listeners t n = (sys.listeners t n).map encodePc := rfl

theorem readers_encode (r : ℕ) :
    (encode sys).readers r = (sys.readers r).map encodeReader := rfl

/-- A step with the texts is the step with the values, the number of an accepted request apart,
which is to be a new one. -/
theorem step_encode {a : Bus.Action} (h : Held floatRepr sys)
    (hfresh : ∀ rid body, a = .chat rid body → sys.Fresh rid) :
    (encode sys).step floatRepr d (label a) = (sys.step d a).map encode := by
  cases a with
  | chat rid body =>
    simp only [label, System.step, Bus.System.step, if_pos (hfresh rid body rfl)]
    cases Bus.chat d body with
    | error e => rfl
    | ok acc => simp only [Option.map_some, encode_push]
  | start t n =>
    simp only [label, System.step, Bus.System.step, listeners_encode]
    cases sys.listeners t n with
    | none =>
      simp only [Option.map_none, Option.map_some, encode_setListener]
      rfl
    | some pc => rfl
  | stop t n =>
    simp only [label, System.step, Bus.System.step, listeners_encode]
    cases sys.listeners t n with
    | none => rfl
    | some pc => exact congrArg some (encode_setListener t n none).symm
  | listen t n act =>
    simp only [label, System.step, Bus.System.step, listeners_encode]
    cases sys.listeners t n with
    | none => rfl
    | some pc =>
      have hlisten := listen_encode pc act (h.lists (inboundKey t))
      simp only [Option.map_some]
      rw [show (encode sys).bus = encodeKeyspace sys.bus from rfl, hlisten]
      cases Bus.listen t sys.bus pc act with
      | none => rfl
      | some p =>
        exact congrArg (fun x : System => some { x with bus := encodeKeyspace p.1 })
          (encode_setListener t n (some p.2)).symm
  | subscribe r sessionId lastId =>
    exact congrArg some (encode_setReader r (.start sessionId lastId)).symm
  | fetch r =>
    simp only [label, System.step, Bus.System.step, readers_encode]
    cases sys.readers r with
    | none => rfl
    | some reader =>
      simp only [Option.map_some, encode_setReader, encode_fetch]
      rfl
  | next r =>
    simp only [label, System.step, Bus.System.step, readers_encode]
    cases hr : sys.readers r with
    | none => rfl
    | some reader =>
      simp only [Option.map_some, encode_setReader, encode_next (h.readers r reader hr)]

/-- There is always a number for another request. -/
theorem exists_fresh (sys : Bus.System) : ∃ rid, sys.Fresh rid := by
  obtain ⟨rid, hrid⟩ := Infinite.exists_notMem_finset (sys.accepted.map fun p => p.2.rid).toFinset
  exact ⟨rid, fun hmem => hrid (List.mem_toFinset.mpr hmem)⟩

/-- Every step with the texts is a step with the values. -/
theorem exists_label (sys : Bus.System) (a : Action) :
    ∃ b, label b = a ∧ ∀ rid body, b = .chat rid body → sys.Fresh rid := by
  obtain ⟨fresh, hfresh⟩ := exists_fresh sys
  cases a with
  | chat body =>
    refine ⟨.chat fresh body, rfl, fun rid body' h => ?_⟩
    obtain ⟨rfl, -⟩ := Bus.Action.chat.inj h
    exact hfresh
  | start t n => exact ⟨.start t n, rfl, by simp⟩
  | stop t n => exact ⟨.stop t n, rfl, by simp⟩
  | listen t n act => exact ⟨.listen t n act, rfl, by simp⟩
  | subscribe r sessionId lastId => exact ⟨.subscribe r sessionId lastId, rfl, by simp⟩
  | fetch r => exact ⟨.fetch r, rfl, by simp⟩
  | next r => exact ⟨.next r, rfl, by simp⟩

/-- A request that the bus of values takes has a new number, or is not accepted. -/
theorem forth_of_step {sys' : Bus.System} {b : Bus.Action} (h : Held floatRepr sys)
    (hstep : sys.step d b = some sys') :
    (encode sys).step floatRepr d (label b) = some (encode sys') := by
  by_cases hfresh : ∀ rid body, b = .chat rid body → sys.Fresh rid
  · rw [step_encode h hfresh, hstep, Option.map_some]
  · push Not at hfresh
    obtain ⟨rid, body, rfl, hused⟩ := hfresh
    simp only [Bus.System.step, if_neg hused] at hstep
    cases hreply : chat d body with
    | error e =>
      simp only [hreply, Option.some_inj] at hstep
      simp only [label, System.step, hreply, hstep]
    | ok reply =>
      simp only [hreply] at hstep
      exact absurd hstep (by simp)

/-- **The bus with its texts is the bus of values**, for turns that hand back what Python holds. -/
theorem encoding (floatRepr : String → String) (d : String) :
    (machine floatRepr d).Encoding (Bus.machine d) label (HeldAction floatRepr) (Held floatRepr)
      encode where
  init := rfl
  inv_init := held_init
  inv_step h hb hstep := held_step h hb hstep
  forth h _ hstep := forth_of_step h hstep
  back {sys a s'} h ha hstep := by
    obtain ⟨b, rfl, hfresh⟩ := exists_label sys a
    have hstep' : ((Bus.System.step d sys b).map encode) = some s' :=
      (step_encode h hfresh).symm.trans hstep
    obtain ⟨sys', hsys', rfl⟩ := Option.map_eq_some_iff.mp hstep'
    exact ⟨b, sys', rfl, hsys', rfl⟩

/-- Nothing on the bus or in the hands of a subscription fails to be read. -/
structure Intact (floatRepr : String → String) (w : System) : Prop where
  lists : ∀ key, ∀ text ∈ w.bus.lists key, ∃ v, IsDict floatRepr v ∧ dumps v = text
  streams : ∀ key, ∀ e ∈ (w.bus.streams key).log, ∃ v, IsDict floatRepr v ∧ dumps v = e.2
  readers : ∀ r reader, w.readers r = some reader → reader.failed = false

theorem intact_encode (h : Held floatRepr sys) : Intact floatRepr (encode sys) where
  lists key text htext := by
    obtain ⟨req, hreq, rfl⟩ := List.mem_map.mp htext
    exact ⟨_, h.lists key req hreq, rfl⟩
  streams key e he := by
    obtain ⟨e', he', rfl⟩ := List.mem_map.mp he
    exact ⟨_, h.streams key e' he', rfl⟩
  readers r reader hreader := by
    obtain ⟨reader, -, rfl⟩ := Option.map_eq_some_iff.mp hreader
    rfl

/-- **Texts and values have the same runs.** The runs of the bus with its texts are those of the bus
of values, written in texts; and what is written can be read. -/
theorem run_texts_iff {acts : List Action} {w : System}
    (hacts : ∀ a ∈ acts, HeldAction floatRepr a) :
    ((machine floatRepr d).run acts = some w ↔
      ∃ valued sys, valued.map label = acts ∧ (Bus.machine d).run valued = some sys ∧
        encode sys = w) ∧
      ((machine floatRepr d).run acts = some w → Intact floatRepr w) := by
  have hiff : (machine floatRepr d).run acts = some w ↔
      ∃ valued sys, valued.map label = acts ∧ (Bus.machine d).run valued = some sys ∧
        encode sys = w := (encoding floatRepr d).run_iff hacts
  refine ⟨hiff, fun hrun => ?_⟩
  obtain ⟨valued, sys, rfl, hvalued, rfl⟩ := hiff.mp hrun
  exact intact_encode ((encoding floatRepr d).inv_run
    (fun b hb => hacts _ (List.mem_map_of_mem hb)) held_init hvalued)

/-- One message, its answer, and a client who reads it. -/
def oneAnswer : List Bus.Action :=
  [.chat 0 ⟨"hi", none, some "alice", none⟩, .start "alice" 0, .listen "alice" 0 .take,
    .subscribe 0 "api:direct" 0,
    .listen "alice" 0 (.finish (.response "hello" (some "r1") (.obj [("command", .str "ls")]))),
    .listen "alice" 0 (.post (.ok ⟨1, 0⟩)), .fetch 0, .next 0,
    .listen "alice" 0 (.postGlobal (.ok ⟨1, 0⟩)), .listen "alice" 0 .save]

theorem run_texts_oneAnswer : ∃ w,
    (machine id "default").run (oneAnswer.map label) = some w ∧ Intact id w := by
  have hacts : ∀ a ∈ oneAnswer.map label, HeldAction id a := by
    simp [oneAnswer, label, HeldAction, HeldAct, IsPython, HoldPython, Entries.keys]
  have hvalued : ∃ sys, (Bus.machine "default").run oneAnswer = some sys := ⟨_, rfl⟩
  obtain ⟨sys, hsys⟩ := hvalued
  have hrun := (run_texts_iff hacts).1.mpr ⟨oneAnswer, sys, rfl, hsys, rfl⟩
  exact ⟨encode sys, hrun, (run_texts_iff hacts).2 hrun⟩

end Encode

end Nanogate.Bus.Wire
