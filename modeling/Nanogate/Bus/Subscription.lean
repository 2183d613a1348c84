import Nanogate.Bus.Chained
import Nanogate.Redis.StreamId

/-!
# What a subscription yields

`subscribe_events` reads a stream in rounds: an `XREAD` from the last id it has come to, and the
events of the reply one after the other, until one of them is final. In how many replies the
entries arrive makes no difference. What has been yielded is what the stream holds beyond the id
that the subscription began at, up to and including the first final event. A subscription that is
stopped before that event goes on where it was, in a new one from the `event_id` of the last event.
Beyond the final event a new one yields the next turn.

The loops are written here as the source has them, for the states that the `XREAD`s find Redis in.
The `Reader` of the whole system makes the same rounds.

## Main definitions

* `subscribeEvents` — the generator
* `streamChat` — the route of the gateway that follows it
* `eventsAfter` — what a subscription is to yield
* `Growing` — Redis as the `XREAD`s of a subscription find it
* `ReadsExactly` — the subscription yields that, and goes on with it in a new one

## Main results

* `subscribeEvents_of_growing` — what is yielded does not depend on how the entries arrive
* `readsExactly_of_growing` — a subscription can be resumed after each event but the final one
* `agrees_rounds` — a `Reader` yields what the generator does
-/

namespace Nanogate.Bus

open Nanogate.Python Nanogate.Redis Nanogate.Semantics

/-! ### The generator -/

/-- Where a generator stands: about to read on from an id, returned, or raised. -/
inductive Standing where
  | reading (lastId : String)
  | returned
  | raised (error : String)
  deriving DecidableEq, Repr

/-- What a generator has yielded, and where it stands. -/
structure Generated where
  yielded : List Json
  standing : Standing
  deriving DecidableEq, Repr

/-- The generator goes on from the id it has come to, unless it has returned or raised. -/
def Generated.andThen (g : Generated) (next : String → Generated) : Generated :=
  match g.standing with
  | .reading lastId => ⟨g.yielded ++ (next lastId).yielded, (next lastId).standing⟩
  | .returned | .raised _ => g

/-- A reply to `XREAD`: the streams that have something new, each with its entries. -/
abbrev Reply := List (String × List (String × Event))

/-- `XREAD STREAMS key lastId` -/
def Keyspace.xread (bus : Keyspace) (key lastId : String) : Except String Reply :=
  match parseId lastId with
  | none => .error "Invalid stream ID specified as stream command argument"
  | some id =>
    match (bus.streams key).after id with
    | [] => .ok []
    | entries => .ok [(key, entries.map fun e => (idText e.1, e.2))]

/-- `for event_id, event_data in stream_events` -/
def readEvents : List (String × Event) → String → Generated
  | [], lastId => ⟨[], .reading lastId⟩
  | (eventId, event) :: events, _ =>
    let data := event.data.set "event_id" (.str eventId)
    if isFinal data then ⟨[data], .returned⟩
    else Generated.andThen ⟨[data], .reading eventId⟩ (readEvents events)

/-- `for _, stream_events in events` -/
def readReply : Reply → String → Generated
  | [], lastId => ⟨[], .reading lastId⟩
  | (_, events) :: reply, lastId => (readEvents events lastId).andThen (readReply reply)

/-- `subscribe_events(session_id, last_id)`, one answer of Redis for each time around the loop: the
state that the `XREAD` finds, or the exception it raises. -/
def subscribeEvents (sessionId : String) : List (Except String Keyspace) → String → Generated
  | [], lastId => ⟨[], .reading lastId⟩
  | .error e :: _, _ => ⟨[], .raised e⟩
  | .ok bus :: answers, lastId =>
    match bus.xread (streamKey sessionId) lastId with
    | .error e => ⟨[], .raised e⟩
    -- `if not events: continue`
    | .ok [] => subscribeEvents sessionId answers lastId
    | .ok events => (readReply events lastId).andThen (subscribeEvents sessionId answers)

/-! ### The route -/

/-- `event_generator` of the route: the objects it sends for the events from the `n`-th on, where
`isDisconnected n` is what the request says when the `n`-th event is there. -/
def eventGenerator (isDisconnected : ℕ → Bool) (standing : Standing) : ℕ → List Json → List Json
  | _, [] =>
    match standing with
    | .raised e => [.obj [("status", .str "error"), ("error", .str e)]]
    | .reading _ | .returned => []
  | n, event :: events =>
    if isDisconnected n then []
    else if isFinal event then [event]
    else event :: eventGenerator isDisconnected standing (n + 1) events

/-- `GET /chat/stream/{session_id}` of the gateway. -/
def streamChat (sessionId lastEventId : String) (isDisconnected : ℕ → Bool)
    (answers : List (Except String Keyspace)) : List Json :=
  let events := subscribeEvents sessionId answers lastEventId
  eventGenerator isDisconnected events.standing 0 events.yielded

/-! ### What is to be yielded -/

/-- An entry as it is yielded. -/
def tagged (e : ℕ × Event) : Json := e.2.data.set "event_id" (.str (idText e.1))

/-- The entries beyond `id`, up to and including the first that is final. -/
def eventsAfter (id : ℕ) (log : List (ℕ × Event)) : List Json :=
  (upToEnd endsStream (log.filter fun e => id < e.1)).map tagged

/-- The log of a session's stream. -/
def Keyspace.sessionLog (bus : Keyspace) (sessionId : String) : List (ℕ × Event) :=
  (bus.streams (streamKey sessionId)).log

/-- The states in which the `XREAD`s of a subscription from `id` find Redis: the stream of the
session grows, by as much as it may each time, and no entry beyond `id` is trimmed. -/
structure Growing (sessionId : String) (id : ℕ) (buses : List Keyspace) : Prop where
  grows : buses.Pairwise fun b b' => b.sessionLog sessionId <+: b'.sessionLog sessionId
  untrimmed : ∀ b ∈ buses,
    ∀ e ∈ (b.sessionLog sessionId).take (b.streams (streamKey sessionId)).trimmed, e.1 ≤ id

/-- What a subscription that has made an `XREAD` in each of the states has yielded, the last of them
being `bus`. -/
def subscribed (sessionId lastId : String) (buses : List Keyspace) (bus : Keyspace) : Generated :=
  subscribeEvents sessionId ((buses ++ [bus]).map .ok) lastId

/-- The subscription has yielded the events after `id` that are there, it returns with the first
final one, and whoever stops it after an event that `mayStop` and subscribes again from the id in
that event is given the rest: then and later, both together have the events after `id`. -/
structure ReadsExactly (sessionId lastId : String) (id : ℕ) (buses : List Keyspace) (bus : Keyspace)
    (mayStop : Json → Bool) : Prop where
  yields : (subscribed sessionId lastId buses bus).yielded =
    eventsAfter id (bus.sessionLog sessionId)
  ends : (subscribed sessionId lastId buses bus).standing = .returned ↔
    ∃ e ∈ bus.sessionLog sessionId, id < e.1 ∧ endsStream e = true
  resumes : ∀ front event back,
    (subscribed sessionId lastId buses bus).yielded = front ++ event :: back →
    mayStop event = true →
    ∃ eventId eid, event.get "event_id" = some (.str eventId) ∧ parseId eventId = some eid ∧
      ∀ buses' bus', Growing sessionId eid (buses' ++ [bus']) →
        bus.sessionLog sessionId <+: bus'.sessionLog sessionId →
        front ++ event :: (subscribed sessionId eventId buses' bus').yielded =
          eventsAfter id (bus'.sessionLog sessionId)

@[simp] theorem isFinal_tagged (e : ℕ × Event) : isFinal (tagged e) = endsStream e := by
  have hkey : "status" ≠ "event_id" := by decide
  rw [isFinal, tagged, Json.get_set_of_ne hkey]
  rfl

theorem get_tagged (e : ℕ × Event) : (tagged e).get "event_id" = some (.str (idText e.1)) :=
  Json.get_set_self

/-! ### One reply -/

section Round

variable {sessionId lastId : String} {id : ℕ} {bus : Keyspace}
  {answers : List (Except String Keyspace)} {entries : List (ℕ × Event)}

theorem andThen_reading (f : String → Generated) :
    Generated.andThen ⟨[], .reading lastId⟩ f = f lastId := by
  simp [Generated.andThen]

theorem andThen_reading_right (g : Generated) :
    (g.andThen fun lastId => ⟨[], .reading lastId⟩) = g := by
  obtain ⟨yielded, standing⟩ := g
  cases standing <;> simp [Generated.andThen]

/-- What the inner loop makes of the entries. -/
def readEntries (entries : List (ℕ × Event)) (lastId : String) : Generated where
  yielded := (upToEnd endsStream entries).map tagged
  standing := if entries.any endsStream then .returned
    else .reading ((entries.map fun e => idText e.1).getLastD lastId)

theorem readEntries_cons_of_end {e : ℕ × Event} (he : endsStream e = true) :
    readEntries (e :: entries) lastId = ⟨[tagged e], .returned⟩ := by
  simp [readEntries, upToEnd_cons_of_end he, he]

theorem readEntries_cons_of_not_end {e : ℕ × Event} (he : endsStream e = false) :
    readEntries (e :: entries) lastId =
      Generated.andThen ⟨[tagged e], .reading (idText e.1)⟩ (readEntries entries) := by
  simp only [Generated.andThen, readEntries, upToEnd_cons_of_not_end he, List.map_cons,
    List.singleton_append, List.any_cons, he, Bool.false_or, List.getLastD_cons]

theorem readEvents_map (entries : List (ℕ × Event)) (lastId : String) :
    readEvents (entries.map fun e => (idText e.1, e.2)) lastId = readEntries entries lastId := by
  induction entries generalizing lastId with
  | nil => rfl
  | cons e entries ih =>
    have hdata : e.2.data.set "event_id" (.str (idText e.1)) = tagged e := rfl
    simp only [List.map_cons, readEvents, hdata, isFinal_tagged]
    cases he : endsStream e with
    | true => exact (readEntries_cons_of_end he).symm
    | false =>
      rw [readEntries_cons_of_not_end he, if_neg (by simp)]
      simp only [Generated.andThen, ih]

/-- Once around the outer loop. -/
theorem subscribeEvents_cons (hid : parseId lastId = some id) :
    subscribeEvents sessionId (.ok bus :: answers) lastId =
      (readEntries ((bus.streams (streamKey sessionId)).after id) lastId).andThen
        (subscribeEvents sessionId answers) := by
  simp only [subscribeEvents, Keyspace.xread, hid]
  cases (bus.streams (streamKey sessionId)).after id with
  | nil => exact (andThen_reading _).symm
  | cons e entries =>
    have hreply : readReply [(streamKey sessionId, (e :: entries).map fun e => (idText e.1, e.2))]
        lastId = readEntries (e :: entries) lastId := by
      rw [readReply, readEvents_map]
      exact andThen_reading_right _
    simp only [hreply]

/-- A reply with a final event is the last one. -/
theorem readEntries_andThen_of_end (h : ∃ e ∈ entries, endsStream e = true)
    (f : String → Generated) :
    (readEntries entries lastId).andThen f =
      ⟨(upToEnd endsStream entries).map tagged, .returned⟩ := by
  simp only [readEntries, Generated.andThen, if_pos (List.any_eq_true.mpr h)]

/-- After a reply without one the generator reads on from its last entry. -/
theorem readEntries_andThen_of_unended (h : Unended endsStream entries) (f : String → Generated) :
    (readEntries entries lastId).andThen f =
      ⟨entries.map tagged ++ (f ((entries.map fun e => idText e.1).getLastD lastId)).yielded,
        (f ((entries.map fun e => idText e.1).getLastD lastId)).standing⟩ := by
  have hany : entries.any endsStream = false := by
    rw [List.any_eq_false]
    intro e he
    simp [h e he]
  simp only [readEntries, Generated.andThen, hany, Bool.false_eq_true, if_false,
    upToEnd_of_unended h]

/-- The id that the generator has come to is that of the last entry. -/
theorem parseId_getLastD (hid : parseId lastId = some id) :
    parseId ((entries.map fun e => idText e.1).getLastD lastId) =
      some (Stream.reached id entries) := by
  rcases List.eq_nil_or_concat entries with rfl | ⟨init, last, rfl⟩
  · exact hid
  · rw [List.concat_eq_append, Stream.reached_concat, List.map_append, List.map_singleton,
      List.getLastD_concat, parseId_idText]

end Round

/-! ### All replies -/

section Growing

variable {sessionId lastId : String} {id : ℕ} {bus : Keyspace} {buses : List Keyspace}

/-- What is beyond `id` is what a first reply has of it, and what is beyond that. -/
theorem Growing.filter_eq_append {b : Keyspace} (h : Growing sessionId id (b :: buses ++ [bus])) :
    (bus.sessionLog sessionId).filter (fun e => id < e.1) =
      ((b.streams (streamKey sessionId)).after id) ++
        (bus.sessionLog sessionId).filter fun e =>
          Stream.reached id ((b.streams (streamKey sessionId)).after id) < e.1 := by
  have hprefix : b.sessionLog sessionId <+: bus.sessionLog sessionId :=
    (List.pairwise_cons.mp h.grows).1 bus (by simp)
  rw [Stream.after_eq_filter (h.untrimmed b (by simp))]
  exact Stream.filter_lt_eq_append hprefix

/-- The other replies are those to a subscription from the id that the first one has led to. -/
theorem Growing.tail {b : Keyspace} (h : Growing sessionId id (b :: buses)) :
    Growing sessionId (Stream.reached id ((b.streams (streamKey sessionId)).after id)) buses where
  grows := (List.pairwise_cons.mp h.grows).2
  untrimmed b' hb' e he :=
    (h.untrimmed b' (List.mem_cons_of_mem _ hb') e he).trans
      (Stream.le_reached fun _ he => Stream.lt_of_mem_after he)

theorem exists_end_iff {log : List (ℕ × Event)} :
    (∃ e ∈ log, id < e.1 ∧ endsStream e = true) ↔
      ∃ e ∈ log.filter (fun e => id < e.1), endsStream e = true := by
  simp [List.mem_filter, and_assoc]

/-- **The replies make no difference.** After an `XREAD` in each of the states, however much the
stream has grown from one to the next, the subscription has yielded the events after `id` that are
there, and has returned if one of them is final. -/
theorem subscribeEvents_of_growing (hid : parseId lastId = some id)
    (h : Growing sessionId id (buses ++ [bus])) :
    (subscribed sessionId lastId buses bus).yielded =
        eventsAfter id (bus.sessionLog sessionId) ∧
      ((subscribed sessionId lastId buses bus).standing = .returned ↔
        ∃ e ∈ bus.sessionLog sessionId, id < e.1 ∧ endsStream e = true) := by
  induction buses generalizing lastId id with
  | nil =>
    have hone : subscribed sessionId lastId [] bus =
        readEntries ((bus.sessionLog sessionId).filter fun e => id < e.1) lastId := by
      rw [Keyspace.sessionLog, ← Stream.after_eq_filter (h.untrimmed bus (by simp))]
      exact (subscribeEvents_cons hid).trans (andThen_reading_right _)
    rw [hone, exists_end_iff, ← List.any_eq_true]
    refine ⟨rfl, ?_⟩
    simp only [readEntries]
    split_ifs with hany
    · simp [hany]
    · simp [hany]
  | cons b buses ih =>
    have hcons : subscribed sessionId lastId (b :: buses) bus =
        (readEntries ((b.streams (streamKey sessionId)).after id) lastId).andThen
          (subscribeEvents sessionId ((buses ++ [bus]).map .ok)) := subscribeEvents_cons hid
    rw [hcons, eventsAfter, exists_end_iff, h.filter_eq_append]
    by_cases hend : ∃ e ∈ (b.streams (streamKey sessionId)).after id, endsStream e = true
    · -- the generator does not come to the other replies
      rw [readEntries_andThen_of_end hend]
      obtain ⟨e, he, hfinal⟩ := hend
      rw [upToEnd_append_of_mem he hfinal]
      exact ⟨rfl, iff_of_true rfl ⟨e, List.mem_append_left _ he, hfinal⟩⟩
    · have hunended := Unended.of_not_exists hend
      obtain ⟨hyielded, hstanding⟩ := ih (parseId_getLastD hid) h.tail
      rw [exists_end_iff] at hstanding
      rw [readEntries_andThen_of_unended hunended, upToEnd_append hunended,
        List.map_append (f := tagged)]
      refine ⟨congrArg (_ ++ ·) hyielded, hstanding.trans ?_⟩
      simp only [List.mem_append, or_and_right, exists_or, hend, false_or]

/-- From an entry that does not end the turn, the events go on with those after it. -/
theorem eventsAfter_eq_append {front rest : List (ℕ × Event)} {e : ℕ × Event}
    (hlog : (bus.sessionLog sessionId).filter (fun e => id < e.1) = front ++ e :: rest)
    (hunended : Unended endsStream (front ++ [e])) :
    eventsAfter id (bus.sessionLog sessionId) =
      front.map tagged ++ tagged e :: eventsAfter e.1 (bus.sessionLog sessionId) := by
  have hrest : (bus.sessionLog sessionId).filter (fun e' => e.1 < e'.1) = rest :=
    Stream.filter_lt_of_filter_eq hlog
  rw [eventsAfter, eventsAfter, hrest, hlog, List.append_cons, upToEnd_append hunended]
  simp

/-- **A subscription is an exact reading that can be resumed**: however the entries arrive, it
yields the events after its start id up to the first final one, and a new one from the id of any
other event it has yielded yields the rest. -/
theorem readsExactly_of_growing (hid : parseId lastId = some id)
    (h : Growing sessionId id (buses ++ [bus])) :
    ReadsExactly sessionId lastId id buses bus fun event => !isFinal event where
  yields := (subscribeEvents_of_growing hid h).1
  ends := (subscribeEvents_of_growing hid h).2
  resumes front event back hyielded hstop := by
    rw [(subscribeEvents_of_growing hid h).1, eventsAfter] at hyielded
    obtain ⟨read, others, hread, rfl, hothers⟩ := List.map_eq_append_iff.mp hyielded
    obtain ⟨e, unread, rfl, rfl, rfl⟩ := List.map_eq_cons_iff.mp hothers
    have hnot : endsStream e = false := by simpa using hstop
    obtain ⟨rest, hlog, hunended, -⟩ := exists_of_upToEnd_eq hread hnot
    refine ⟨idText e.1, e.1, get_tagged e, parseId_idText _, fun buses' bus' h' hgrown => ?_⟩
    obtain ⟨new, hnew⟩ := hgrown
    -- what has been read is still there, and everything new comes after it
    have hlog' : (bus'.sessionLog sessionId).filter (fun e => id < e.1) =
        read ++ e :: (rest ++ new.filter fun e => id < e.1) := by
      rw [← hnew, List.filter_append, hlog, List.append_assoc, List.cons_append]
    rw [(subscribeEvents_of_growing (parseId_idText _) h').1, eventsAfter_eq_append hlog' hunended]

end Growing

/-- The final event of a turn. -/
def answered (rid : ℕ) : Event := ⟨rid, "default", .obj [("status", .str "done")]⟩

/-- The stream of Alice's session while a turn goes on that has said something. -/
def halfTurn : Keyspace :=
  Keyspace.empty.publishSession "api:alice" ⟨1, 0⟩ ⟨0, "default", progressPayload "so" false⟩

/-- The stream when the turn has come to its end. -/
def oneTurn : Keyspace := halfTurn.publishSession "api:alice" ⟨2, 0⟩ (answered 0)

theorem growing_oneTurn : Growing "api:alice" 0 ([.empty, halfTurn] ++ [oneTurn]) where
  grows := by decide
  untrimmed b hb e he := by
    have htrimmed : (b.streams (streamKey "api:alice")).trimmed = 0 := by
      simp only [List.cons_append, List.nil_append, List.mem_cons, List.not_mem_nil, or_false] at hb
      rcases hb with rfl | rfl | rfl <;> decide
    simp [htrimmed] at he

/-- A subscription of Alice's that finds nothing at first, then what was said, then the answer. -/
theorem readsExactly_alice :
    ReadsExactly "api:alice" "0" 0 [.empty, halfTurn] oneTurn fun event => !isFinal event :=
  readsExactly_of_growing (by decide) growing_oneTurn

/-! ### Through the route -/

section Route

variable {sessionId lastId : String} {id : ℕ} {standing : Standing} {events : List Json} {n : ℕ}
  {bus : Keyspace} {buses : List Keyspace}

/-- A client is sent events from the first one on. -/
theorem eventGenerator_prefix (hstanding : ∀ error, standing ≠ .raised error)
    (isDisconnected : ℕ → Bool) :
    eventGenerator isDisconnected standing n events <+: events := by
  induction events generalizing n with
  | nil =>
    cases standing with
    | raised error => exact absurd rfl (hstanding error)
    | reading | returned => exact List.prefix_rfl
  | cons event events ih =>
    simp only [eventGenerator]
    split_ifs
    · exact List.nil_prefix
    · exact ⟨events, rfl⟩
    · exact List.cons_prefix_cons.mpr ⟨rfl, ih⟩

/-- A client that stays is sent all of them. -/
theorem eventGenerator_of_connected (hstanding : ∀ error, standing ≠ .raised error) :
    eventGenerator (fun _ => false) standing n events = upToEnd isFinal events := by
  induction events generalizing n with
  | nil =>
    cases standing with
    | raised error => exact absurd rfl (hstanding error)
    | reading | returned => rfl
  | cons event events ih =>
    cases hevent : isFinal event with
    | true => simp [eventGenerator, hevent, upToEnd_cons_of_end]
    | false => simp [eventGenerator, hevent, upToEnd_cons_of_not_end, ih]

/-- Where Redis answers, the generator does not raise. -/
theorem standing_ne_raised (hid : parseId lastId = some id) (error : String) :
    (subscribeEvents sessionId (buses.map .ok) lastId).standing ≠ .raised error := by
  induction buses generalizing lastId id with
  | nil => simp [subscribeEvents]
  | cons b buses ih =>
    rw [List.map_cons, subscribeEvents_cons hid]
    by_cases hend : ∃ e ∈ (b.streams (streamKey sessionId)).after id, endsStream e = true
    · rw [readEntries_andThen_of_end hend]
      simp
    · rw [readEntries_andThen_of_unended (Unended.of_not_exists hend)]
      exact ih (parseId_getLastD hid)

/-- The route sends what the subscription yields, as long as the client is there. -/
theorem streamChat_of_growing (hid : parseId lastId = some id)
    (h : Growing sessionId id (buses ++ [bus])) (isDisconnected : ℕ → Bool) :
    streamChat sessionId lastId isDisconnected ((buses ++ [bus]).map .ok) <+:
        eventsAfter id (bus.sessionLog sessionId) ∧
      streamChat sessionId lastId (fun _ => false) ((buses ++ [bus]).map .ok) =
        eventsAfter id (bus.sessionLog sessionId) := by
  have hyielded := (subscribeEvents_of_growing hid h).1
  have hstanding := @standing_ne_raised sessionId lastId id (buses ++ [bus]) hid
  rw [subscribed] at hyielded
  rw [streamChat, streamChat, eventGenerator_of_connected hstanding, hyielded]
  refine ⟨?_, ?_⟩
  · exact eventGenerator_prefix hstanding isDisconnected
  · simp only [eventsAfter, upToEnd_map, isFinal_tagged]
    exact congrArg (List.map tagged) (upToEnd_upToEnd _)

end Route

/-! ### The states of a run -/

section Run

variable {d : String} {sys sys' : System} {acts : List Action}

/-- A session's stream only grows. -/
theorem sessionLog_prefix_of_run (sessionId : String)
    (hrun : (machine d).runFrom sys acts = some sys') :
    sys.bus.sessionLog sessionId <+: sys'.bus.sessionLog sessionId := by
  refine Machine.run_invariant' (I := fun x => sys.bus.sessionLog sessionId <+:
    x.bus.sessionLog sessionId) (fun h hstep => ?_) List.prefix_rfl hrun
  obtain ⟨new, hlog, -⟩ := (systemStep_of_step hstep).exists_log sessionId
  exact h.trans ⟨new, hlog.symm⟩

/-- The states of the bus that come one after the other in a run are such as the `XREAD`s of a
subscription may find, as long as nothing it has to read is trimmed. -/
theorem growing_of_run {sessionId : String} {id : ℕ} {states : List System}
    (hruns : states.IsChain fun sys sys' => ∃ acts, (machine d).runFrom sys acts = some sys')
    (htrim : ∀ sys ∈ states, ∀ e ∈ (sys.bus.sessionLog sessionId).take
      (sys.bus.streams (streamKey sessionId)).trimmed, e.1 ≤ id) :
    Growing sessionId id (states.map System.bus) where
  grows := by
    have htrans : IsTrans System fun sys sys' =>
        sys.bus.sessionLog sessionId <+: sys'.bus.sessionLog sessionId :=
      ⟨fun _ _ _ h h' => h.trans h'⟩
    rw [List.pairwise_map, ← List.isChain_iff_pairwise]
    exact hruns.imp fun _ _ ⟨_, hrun⟩ => sessionLog_prefix_of_run sessionId hrun
  untrimmed b hb := by
    obtain ⟨sys, hsys, rfl⟩ := List.mem_map.mp hb
    exact htrim sys hsys

end Run

/-! ### The reader of the system -/

section Agrees

variable {sessionId : String} {g : Generated} {r : Reader}

/-- Once around the outer loop: an `XREAD`, and its batch to the end. -/
def Reader.round (stream : Stream Event) (r : Reader) : Reader :=
  Reader.next^[(r.fetch stream).batch.length] (r.fetch stream)

/-- The reader has yielded what the generator has, and stands where it stands. -/
structure Agrees (g : Generated) (r : Reader) : Prop where
  yielded : g.yielded = r.yielded.map tagged
  standing : g.standing = if r.closed then .returned else .reading (idText r.lastId)
  batch : r.closed = false → r.batch = []

theorem andThen_assoc (g : Generated) (f f' : String → Generated) :
    (g.andThen f).andThen f' = g.andThen fun lastId => (f lastId).andThen f' := by
  obtain ⟨yielded, standing⟩ := g
  cases standing with
  | returned | raised => rfl
  | reading lastId =>
    rcases hf : f lastId with ⟨yielded', standing'⟩
    cases standing' <;> simp [Generated.andThen, hf]

theorem Reader.next_of_closed (h : r.closed = true) : r.next = r := if_pos h

theorem Reader.round_of_closed (h : r.closed = true) (stream : Stream Event) :
    r.round stream = r := by
  rw [Reader.round, Reader.fetch, if_pos h]
  exact Function.iterate_fixed (Reader.next_of_closed h) _

/-- The reader goes through its batch as the inner loop does. -/
theorem agrees_iterate_next (hopen : r.closed = false) :
    Agrees (Generated.andThen ⟨r.yielded.map tagged, .reading (idText r.lastId)⟩
      (readEntries r.batch)) (Reader.next^[r.batch.length] r) := by
  induction hbatch : r.batch generalizing r with
  | nil => exact ⟨by simp [Generated.andThen, readEntries, upToEnd],
      by simp [Generated.andThen, readEntries, hopen], fun _ => hbatch⟩
  | cons p batch ih =>
    have hnext : r.next = { r with
        lastId := p.1, batch, yielded := r.yielded ++ [p], closed := endsStream p } := by
      simp only [Reader.next, hopen, Bool.false_eq_true, if_false, hbatch, endsStream]
    rw [List.length_cons, Function.iterate_succ_apply]
    cases hp : endsStream p with
    | true =>
      have hclosed : r.next.closed = true := by rw [hnext, hp]
      rw [Function.iterate_fixed (Reader.next_of_closed hclosed), hnext]
      exact ⟨by simp [Generated.andThen, readEntries_cons_of_end hp],
        by simp [Generated.andThen, readEntries_cons_of_end hp, hp], by simp [hp]⟩
    | false =>
      have hrest := ih (r := r.next) (by rw [hnext, hp]) (by rw [hnext])
      have hsame : Generated.andThen ⟨r.yielded.map tagged, .reading (idText r.lastId)⟩
          (readEntries (p :: batch)) =
            Generated.andThen ⟨r.next.yielded.map tagged, .reading (idText r.next.lastId)⟩
              (readEntries batch) := by
        rw [hnext]
        simp [Generated.andThen, readEntries_cons_of_not_end hp]
      rwa [hsame]

/-- A generator that has returned and a reader that is closed stay as they are. -/
theorem Agrees.andThen_of_closed (h : Agrees g r) (hclosed : r.closed = true)
    (f : String → Generated) : g.andThen f = g := by
  have hreturned : g.standing = .returned := by
    rw [h.standing, hclosed]
    rfl
  simp only [Generated.andThen, hreturned]

/-- One round of both. -/
theorem Agrees.round (h : Agrees g r) (hopen : r.closed = false) (stream : Stream Event) :
    g = ⟨r.yielded.map tagged, .reading (idText r.lastId)⟩ ∧
      Agrees (g.andThen (readEntries (stream.after r.lastId))) (r.round stream) := by
  have hg : g = ⟨r.yielded.map tagged, .reading (idText r.lastId)⟩ := by
    obtain ⟨yielded, standing⟩ := g
    obtain rfl := h.yielded
    obtain rfl : standing = .reading (idText r.lastId) := by
      simpa [hopen] using h.standing
    rfl
  have hfetch : r.fetch stream = { r with batch := stream.after r.lastId } := by
    simp only [Reader.fetch, hopen, Bool.false_eq_true, if_false, h.batch hopen]
  refine ⟨hg, ?_⟩
  rw [hg, Reader.round, hfetch]
  exact agrees_iterate_next (r := { r with batch := stream.after r.lastId }) hopen

/-- **The reader of the system is the generator.** In the same states it makes the same rounds. -/
theorem agrees_rounds (sessionId : String) (id : ℕ) (buses : List Keyspace) :
    Agrees (subscribeEvents sessionId (buses.map .ok) (idText id))
      (buses.foldl (fun r bus => r.round (bus.streams (streamKey sessionId)))
        (.start sessionId id)) := by
  have hall : ∀ g r, Agrees g r → Agrees (g.andThen (subscribeEvents sessionId (buses.map .ok)))
      (buses.foldl (fun r bus => r.round (bus.streams (streamKey sessionId))) r) := by
    induction buses with
    | nil =>
      intro g r h
      have hsame : g.andThen (subscribeEvents sessionId ([].map .ok)) = g :=
        andThen_reading_right g
      rwa [hsame]
    | cons bus buses ih =>
      intro g r h
      cases hclosed : r.closed with
      | true =>
        have hrest := ih g r h
        rw [h.andThen_of_closed hclosed] at hrest ⊢
        rwa [List.foldl_cons, Reader.round_of_closed hclosed]
      | false =>
        obtain ⟨hg, hround⟩ := h.round hclosed (bus.streams (streamKey sessionId))
        have hrest := ih _ _ hround
        have hcons : g.andThen (subscribeEvents sessionId ((bus :: buses).map .ok)) =
            (g.andThen (readEntries ((bus.streams (streamKey sessionId)).after r.lastId))).andThen
              (subscribeEvents sessionId (buses.map .ok)) := by
          rw [andThen_assoc, hg]
          simp only [Generated.andThen, List.map_cons, subscribeEvents_cons (parseId_idText _)]
        rwa [hcons, List.foldl_cons]
  have hstart := hall ⟨[], .reading (idText id)⟩ (.start sessionId id)
    ⟨rfl, rfl, fun _ => rfl⟩
  rwa [andThen_reading] at hstart

end Agrees

/-! ### Beyond the final event -/

/-- The stream of Alice's session after two turns. -/
def twoTurns : Keyspace :=
  (Keyspace.empty.publishSession "api:alice" ⟨1, 0⟩ (answered 0)).publishSession "api:alice" ⟨2, 0⟩
    (answered 1)

theorem sessionLog_twoTurns :
    twoTurns.sessionLog "api:alice" = [(1, answered 0), (2, answered 1)] := by
  decide

theorem growing_twoTurns (id : ℕ) : Growing "api:alice" id ([] ++ [twoTurns]) where
  grows := List.pairwise_singleton ..
  untrimmed b hb e he := by
    obtain rfl := List.mem_singleton.mp hb
    have htrimmed : (twoTurns.streams (streamKey "api:alice")).trimmed = 0 := by decide
    simp [htrimmed] at he

/-- **Beyond the final event the next turn begins**: a subscription from the id of the event that
has ended another one does not yield what was left of that, which is nothing. -/
theorem final_not_resumed : ¬ ∀ sessionId lastId id buses bus, parseId lastId = some id →
    Growing sessionId id (buses ++ [bus]) →
      ReadsExactly sessionId lastId id buses bus fun _ => true := by
  intro hlaw
  have h := hlaw "api:alice" "0" 0 [] twoTurns (by decide) (growing_twoTurns 0)
  have hfirst : eventsAfter 0 (twoTurns.sessionLog "api:alice") = [tagged (1, answered 0)] := by
    rw [sessionLog_twoTurns]
    decide
  have hsecond : eventsAfter 1 (twoTurns.sessionLog "api:alice") = [tagged (2, answered 1)] := by
    rw [sessionLog_twoTurns]
    decide
  obtain ⟨eventId, eid, hget, hparse, hrest⟩ :=
    h.resumes [] (tagged (1, answered 0)) [] (h.yields.trans hfirst) rfl
  -- the id in the event is that of its entry
  obtain rfl : idText 1 = eventId := by simpa using (get_tagged _).symm.trans hget
  obtain rfl : 1 = eid := Option.some.inj ((parseId_idText 1).symm.trans hparse)
  have hboth := hrest [] twoTurns (growing_twoTurns 1) List.prefix_rfl
  rw [(subscribeEvents_of_growing (parseId_idText 1) (growing_twoTurns 1)).1, hfirst,
    hsecond] at hboth
  simp at hboth

end Nanogate.Bus
