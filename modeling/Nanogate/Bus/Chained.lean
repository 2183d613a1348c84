import Nanogate.Bus.Produced
import Nanogate.Semantics.Segments

/-!
# Streams opened one after the other

A client reads the answer to each message of its session from a stream of its own: the first one
from the beginning, and every further one from the `event_id` of the final event that ended the
stream before it. Where one container serves the tenant, the streams follow the turns: the `i`-th
stream yields the events of the `i`-th request of the session.

The client and the bus are separate here. The bus makes the session's log a sequence of complete
turns in the order of the requests (`Served`); the client cuts whatever log it reads after each
final event (`Reading`); and a log can be cut into turns in one way only.

## Main definitions

* `Following` — the bus with a client that chains its streams
* `Following.Allowed` — what is assumed of the steps of a run
* `produced` — what the turns of a run produce
* `YieldsTurn`, `YieldsProducts` — a stream yields the events of a request, and what its turn has
  produced
* `Reading` — what a chained client has read of a log

## Main results

* `reading_served_run` — the client's and the bus's invariant in every run
* `yieldsTurn_of_run` — the `i`-th stream yields the turn of the `i`-th request
-/

namespace Nanogate.Bus

open Nanogate.Python Nanogate.Redis Nanogate.Semantics

/-! ### The client -/

/-- The bus with a client: the streams that have ended, oldest first, and the current one. -/
structure Following where
  sys : System
  finished : List Reader
  current : Reader

/-- A step of the bus or of the client. -/
inductive FollowAction where
  | bus (a : Action)
  /-- The current stream has ended, and the client opens the next one. -/
  | reopen
  | fetch
  | next

/-- Redis calls succeed, other tenants keep off the session `s`, and the tenant `t` is served by
the container `n`, which is not stopped. -/
def FollowAction.regular (d t s : String) (n : ℕ) : FollowAction → Bool
  | .bus a => a.redisOk && a.keepsOff d (fun v => v ≠ t) s && a.byOneListener t n
  | .reopen | .fetch | .next => true

namespace Following

variable (f : Following)

/-- The client begins with a stream from `0`. -/
def init (s : String) : Following := ⟨.init, [], .start s 0⟩

/-- All streams of the client, in the order they were opened. -/
def streams : List Reader := f.finished ++ [f.current]

/-- What Redis has of the client's session. -/
def stream : Stream Event := f.sys.bus.streams (streamKey f.current.sessionId)

/-- The next stream starts at the last event of the one that has ended. -/
def step (d : String) (f : Following) : FollowAction → Option Following
  | .bus a => (f.sys.step d a).map fun sys => { f with sys }
  | .reopen =>
    if f.current.closed then
      some { f with
        finished := f.finished ++ [f.current]
        current := .start f.current.sessionId (Stream.lastOf f.current.yielded) }
    else none
  | .fetch => some { f with current := f.current.fetch f.stream }
  | .next => some { f with current := f.current.next }

/-- Whatever was trimmed, the client has been given. -/
def TrimmedRead : Prop := ∀ p ∈ f.stream.log.take f.stream.trimmed, p.1 ≤ f.current.lastId

instance : Decidable f.TrimmedRead := inferInstanceAs (Decidable (∀ _ ∈ _, _))

/-- What is assumed of the steps: they are regular, and no event is trimmed before the client was
given it. -/
def Allowed (d t s : String) (n : ℕ) (f : Following) (a : FollowAction) : Prop :=
  a.regular d t s n = true ∧ ∀ f' ∈ f.step d a, f'.TrimmedRead

instance (d t s : String) (n : ℕ) (f : Following) (a : FollowAction) :
    Decidable (f.Allowed d t s n a) := inferInstanceAs (Decidable (_ ∧ _))

end Following

/-- The bus and the client as a machine. -/
def following (d s : String) : Machine Following FollowAction where
  init := .init s
  step := Following.step d

/-- What a step produces, with the number of the request. -/
def Following.productOf (f : Following) : FollowAction → List (ℕ × Product)
  | .bus a => Bus.productOf f.sys a
  | .reopen | .fetch | .next => []

/-- What the turns of a run produce. -/
def produced (d s : String) (acts : List FollowAction) : List (ℕ × Product) :=
  (following d s).observed Following.productOf (following d s).init acts

/-! ### What a stream yields -/

/-- The entry ends a stream. -/
def endsStream (p : ℕ × Event) : Bool := isFinal p.2.data

/-- Once around the loop of `subscribe_events` for one event. -/
def Reader.readOn (stream : Stream Event) (r : Reader) : Reader := (r.fetch stream).next

/-- The stream yields the events of the request: it begins with them, has all of them as soon as it
has read what there is, ends once the answer is there to be read, and has all there will be when
it has ended. -/
structure YieldsTurn (t s : String) (sys : System) (req : Request) (r : Reader) : Prop where
  begins : r.yielded <+: eventsFor s sys req
  caughtUp : r.batch = [] → (sys.bus.streams (streamKey s)).after r.lastId = [] →
    r.yielded = eventsFor s sys req
  ends : (∃ p ∈ eventsFor s sys req, endsStream p = true) →
    ∃ k, ((Reader.readOn (sys.bus.streams (streamKey s)))^[k] r).closed = true
  all : r.closed = true → r.yielded = eventsFor s sys req ∧ CompleteTurn t req r.yielded

/-- What the stream yields for the request is made of what its turn has produced: all of it when the
stream has ended. -/
structure YieldsProducts (t s : String) (sys : System) (made : List (ℕ × Product)) (req : Request)
    (r : Reader) : Prop extends YieldsTurn t s sys req r where
  payloads : r.yielded.map (fun p => p.2.data) <+: payloadsFor made req
  whole : r.closed = true → r.yielded.map (fun p => p.2.data) = payloadsFor made req

/-! ### What a chained client has read -/

/-- The client has cut the first entries of the log into streams; `rest` is what it has not been
given yet. -/
structure Reading (s : String) (log : List (ℕ × Event)) (finished : List Reader)
    (current : Reader) (rest : List (ℕ × Event)) : Prop where
  session : current.sessionId = s
  log_eq : log = ((finished.map Reader.yielded).flatten ++ current.yielded) ++ rest
  ended : ∀ r ∈ finished, r.closed = true ∧ Terminated endsStream r.yielded
  closed : current.closed = true → Terminated endsStream current.yielded
  unended : current.closed = false → Unended endsStream current.yielded
  batch : current.batch <+: rest
  lastId : current.lastId =
    Stream.lastOf ((finished.map Reader.yielded).flatten ++ current.yielded)

section Reading

variable {d t s : String} {n : ℕ} {log new rest : List (ℕ × Event)} {finished : List Reader}
  {current : Reader}

theorem reading_init : Reading s [] [] (.start s 0) [] where
  session := rfl
  log_eq := rfl
  ended _ h := by simp at h
  closed h := by simp [Reader.start] at h
  unended _ := .nil
  batch := List.prefix_rfl
  lastId := rfl

/-- Further events lie beyond what the client has read. -/
theorem Reading.append (h : Reading s log finished current rest) :
    Reading s (log ++ new) finished current (rest ++ new) :=
  { h with
    log_eq := by rw [h.log_eq, List.append_assoc]
    batch := h.batch.trans (List.prefix_append _ _) }

theorem Reading.reopen (h : Reading s log finished current rest) (hclosed : current.closed = true) :
    Reading s log (finished ++ [current])
      (.start current.sessionId (Stream.lastOf current.yielded)) rest where
  session := h.session
  log_eq := by simpa [Reader.start] using h.log_eq
  ended r hr := by
    rcases List.mem_append.mp hr with hold | hnew
    · exact h.ended r hold
    · obtain rfl := List.mem_singleton.mp hnew
      exact ⟨hclosed, h.closed hclosed⟩
  closed hc := by simp [Reader.start] at hc
  unended _ := .nil
  batch := List.nil_prefix
  lastId := by
    -- the stream that has ended is not empty, so its last event is the last one read
    obtain ⟨front, last, hyielded, -, -⟩ := h.closed hclosed
    have hread : ((finished ++ [current]).map Reader.yielded).flatten =
        ((finished.map Reader.yielded).flatten ++ front) ++ [last] := by
      rw [List.map_append, List.flatten_append, List.map_singleton, List.flatten_singleton,
        hyielded, List.append_assoc]
    change Stream.lastOf current.yielded = Stream.lastOf (_ ++ [])
    rw [List.append_nil, hread, hyielded, Stream.lastOf_concat, Stream.lastOf_concat]

/-- After an `XREAD` the client has a batch of what is left, empty only if nothing is left. -/
theorem Reading.exists_fetch {stream : Stream Event}
    (h : Reading s stream.log finished current rest) (hpos : ∀ p ∈ stream.log, 0 < p.1)
    (htrim : ∀ p ∈ stream.log.take stream.trimmed, p.1 ≤ current.lastId)
    (hopen : current.closed = false) :
    ∃ batch, current.fetch stream = { current with batch } ∧ batch <+: rest ∧
      (batch = [] → rest = []) := by
  cases hbatch : current.batch with
  | nil =>
    -- the batch is used up: `XREAD` returns all that is left
    have hafter : stream.after current.lastId = rest := by
      rw [h.lastId] at htrim ⊢
      exact Stream.after_lastOf h.log_eq hpos htrim
    refine ⟨rest, ?_, List.prefix_rfl, id⟩
    simp only [Reader.fetch, hopen, Bool.false_eq_true, if_false, hbatch, hafter]
  | cons p batch =>
    have hsame : current.fetch stream = current := by
      simp only [Reader.fetch, hopen, Bool.false_eq_true, if_false, hbatch]
    exact ⟨current.batch, hsame, h.batch, fun hnil => by simp [hbatch] at hnil⟩

theorem Reading.fetch {stream : Stream Event} (h : Reading s stream.log finished current rest)
    (hpos : ∀ p ∈ stream.log, 0 < p.1)
    (htrim : ∀ p ∈ stream.log.take stream.trimmed, p.1 ≤ current.lastId) :
    Reading s stream.log finished (current.fetch stream) rest := by
  cases hclosed : current.closed with
  | true => rwa [Reader.fetch, if_pos hclosed]
  | false =>
    obtain ⟨batch, hfetch, hbatch, -⟩ := h.exists_fetch hpos htrim hclosed
    rw [hfetch]
    exact { h with batch := hbatch }

/-- The next event of the batch is the next one of the log. -/
theorem Reading.next_cons {p : ℕ × Event} {batch : List (ℕ × Event)}
    (h : Reading s log finished current rest) (hopen : current.closed = false)
    (hbatch : current.batch = p :: batch) :
    current.next.closed = endsStream p ∧ current.next.lastId = p.1 ∧
      ∃ rest', rest = p :: rest' ∧ Reading s log finished current.next rest' := by
  obtain ⟨more, hrest⟩ := h.batch
  rw [hbatch, List.cons_append] at hrest
  have hnext : current.next = { current with
      lastId := p.1, batch, yielded := current.yielded ++ [p], closed := endsStream p } := by
    simp only [Reader.next, hopen, Bool.false_eq_true, if_false, hbatch, endsStream]
  rw [hnext]
  refine ⟨rfl, rfl, batch ++ more, hrest.symm, h.session, ?_, h.ended, fun hc => ?_, fun hc => ?_,
    List.prefix_append _ _, ?_⟩
  · rw [h.log_eq, ← hrest]
    simp
  · exact (h.unended hopen).terminated hc
  · exact (h.unended hopen).concat hc
  · change p.1 = Stream.lastOf (_ ++ (current.yielded ++ [p]))
    rw [← List.append_assoc, Stream.lastOf_concat]

theorem Reading.next (h : Reading s log finished current rest) :
    ∃ rest', Reading s log finished current.next rest' := by
  cases hclosed : current.closed with
  | true =>
    refine ⟨rest, ?_⟩
    rwa [Reader.next, if_pos hclosed]
  | false =>
    cases hbatch : current.batch with
    | nil =>
      refine ⟨rest, ?_⟩
      simp only [Reader.next, hclosed, Bool.false_eq_true, if_false, hbatch]
      exact h
    | cons p batch =>
      obtain ⟨-, -, rest', -, hreading⟩ := h.next_cons hclosed hbatch
      exact ⟨rest', hreading⟩

/-- A client that keeps reading comes to the end of its stream if there is one to be read. -/
theorem Reading.exists_ended {stream : Stream Event} (hpos : ∀ p ∈ stream.log, 0 < p.1)
    (h : Reading s stream.log finished current rest)
    (htrim : ∀ p ∈ stream.log.take stream.trimmed, p.1 ≤ current.lastId)
    (hend : ∃ p ∈ rest, endsStream p = true) :
    ∃ k, ((Reader.readOn stream)^[k] current).closed = true := by
  induction rest generalizing current with
  | nil => simp at hend
  | cons p rest ih =>
    cases hclosed : current.closed with
    | true => exact ⟨0, hclosed⟩
    | false =>
      have hfetched := h.fetch hpos htrim
      obtain ⟨batch, hfetch, hprefix, hne⟩ := h.exists_fetch hpos htrim hclosed
      cases batch with
      | nil => simp at hne
      | cons q batch =>
        rw [hfetch] at hfetched
        obtain ⟨hended, hid, rest', hrest, hreading⟩ := hfetched.next_cons hclosed rfl
        obtain ⟨rfl, rfl⟩ := List.cons.inj hrest
        rw [← hfetch] at hended hid hreading
        by_cases hp : endsStream p = true
        · exact ⟨1, hended.trans hp⟩
        · -- one event less is left, and the end is among the others
          obtain ⟨e, he, hend⟩ := hend
          have he : e ∈ rest := by
            rcases List.mem_cons.mp he with rfl | he
            · exact absurd hend hp
            · exact he
          have hlt : current.lastId < p.1 := by
            rw [h.lastId]
            exact Stream.lastOf_lt h.log_eq hpos (List.mem_cons_self ..)
          have htrim' : ∀ x ∈ stream.log.take stream.trimmed,
              x.1 ≤ (current.fetch stream).next.lastId := fun x hx => by
            rw [hid]
            exact (htrim x hx).trans hlt.le
          obtain ⟨k, hk⟩ := ih hreading htrim' ⟨e, he, hend⟩
          exact ⟨k + 1, hk⟩

end Reading

/-! ### Both invariants along a run -/

section Run

variable {d t s : String} {n : ℕ} {sys sys' : System} {a : Action} {f f' : Following}
  {acts : List FollowAction} {made : List (ℕ × Product)}

/-- A listener only appends to a stream, and no entry has the id `0`. -/
theorem ListenStep.exists_log {bus bus' : Keyspace} {pc pc' : Pc} {act : ListenerAct}
    (h : ListenStep t bus pc act bus' pc') (s : String) :
    ∃ new, (bus'.streams (streamKey s)).log = (bus.streams (streamKey s)).log ++ new ∧
      ∀ p ∈ new, 0 < p.1 := by
  cases h with
  | @progress req r | @post req r =>
    rw [Keyspace.streams_publishSession]
    split_ifs with hr
    · rw [Stream.log_xadd, hr]
      refine ⟨_, rfl, fun p hp => ?_⟩
      obtain rfl := List.mem_singleton.mp hp
      exact Stream.nextId_pos _
    · exact ⟨[], (List.append_nil _).symm, by simp⟩
  | postGlobal =>
    rw [Keyspace.streams_publishGlobal]
    exact ⟨[], (List.append_nil _).symm, by simp⟩
  | take | progressFailed | finish | postFailed | postGlobalFailed | save | wake =>
    exact ⟨[], (List.append_nil _).symm, by simp⟩

theorem SystemStep.exists_log (h : SystemStep d sys a sys') (s : String) :
    ∃ new, (sys'.bus.streams (streamKey s)).log = (sys.bus.streams (streamKey s)).log ++ new ∧
      ∀ p ∈ new, 0 < p.1 := by
  cases h with
  | listen running step => exact step.exists_log s
  | rejected | chat | start | stop | subscribe | fetch | next =>
    exact ⟨[], (List.append_nil _).symm, by simp⟩

/-- What holds of the client in every state. -/
def ClientAt (s : String) (f : Following) : Prop :=
  (∀ p ∈ (f.sys.bus.streams (streamKey s)).log, 0 < p.1) ∧ f.TrimmedRead ∧
    ∃ rest, Reading s (f.sys.bus.streams (streamKey s)).log f.finished f.current rest

theorem ClientAt.step {a : FollowAction} (h : ClientAt s f) (htrim : f'.TrimmedRead)
    (hstep : f.step d a = some f') : ClientAt s f' := by
  obtain ⟨hpos, htrimmed, rest, hreading⟩ := h
  refine ⟨?_, htrim, ?_⟩ <;> cases a <;> simp only [Following.step] at hstep
  case refine_1.bus b =>
    obtain ⟨sys', hsys', rfl⟩ := Option.map_eq_some_iff.mp hstep
    obtain ⟨new, hlog, hnew⟩ := (systemStep_of_step hsys').exists_log s
    intro p hp
    rw [hlog] at hp
    exact (List.mem_append.mp hp).elim (hpos p) (hnew p)
  case refine_2.bus b =>
    obtain ⟨sys', hsys', rfl⟩ := Option.map_eq_some_iff.mp hstep
    -- new events come after everything that was read
    obtain ⟨new, hlog, -⟩ := (systemStep_of_step hsys').exists_log s
    exact ⟨rest ++ new, hlog ▸ hreading.append⟩
  case refine_1.reopen =>
    split_ifs at hstep
    obtain rfl := Option.some_inj.mp hstep
    exact hpos
  case refine_2.reopen =>
    split_ifs at hstep with hclosed
    obtain rfl := Option.some_inj.mp hstep
    exact ⟨rest, hreading.reopen hclosed⟩
  case refine_2.fetch =>
    obtain rfl := Option.some_inj.mp hstep
    have hstream : f.stream = f.sys.bus.streams (streamKey s) := by
      rw [Following.stream, hreading.session]
    rw [Following.TrimmedRead, hstream] at htrimmed
    refine ⟨rest, ?_⟩
    dsimp only
    rw [hstream]
    exact hreading.fetch hpos htrimmed
  case refine_2.next =>
    obtain rfl := Option.some_inj.mp hstep
    exact hreading.next
  all_goals
    obtain rfl := Option.some_inj.mp hstep
    exact hpos

/-- What holds of the bus in every state, `made` being what the turns have produced. -/
def BusAt (t s : String) (n : ℕ) (sys : System) (made : List (ℕ × Product)) : Prop :=
  Custody sys ∧ Conserved sys ∧ Composed sys ∧ Written t s n sys made ∧
    ∃ turns begun, Served t s n sys turns begun

theorem BusAt.step (h : BusAt t s n sys made) (hok : a.redisOk = true)
    (hoff : a.keepsOff d (fun v => v ≠ t) s = true) (hone : a.byOneListener t n = true)
    (hstep : SystemStep d sys a sys') : BusAt t s n sys' (made ++ productOf sys a) := by
  obtain ⟨hcustody, hconserved, hcomposed, hwritten, turns, begun, hserved⟩ := h
  exact ⟨hcustody.step hstep, hconserved.step hok hstep, hcomposed.step hstep,
    hwritten.step hcustody hserved hok hone hstep,
    hserved.step hconserved hcomposed hok hoff hone hstep⟩

theorem reading_served_run (hrun : (following d s).run acts = some f)
    (hallowed : (following d s).AllSteps (Following.Allowed d t s n) (following d s).init acts) :
    ClientAt s f ∧ BusAt t s n f.sys (produced d s acts) := by
  have hall : ClientAt s f ∧ BusAt t s n f.sys ([] ++ produced d s acts) := by
    refine Machine.observed_invariant (M := following d s)
      (I := fun f made => ClientAt s f ∧ BusAt t s n f.sys made) ?_ ?_ hallowed hrun
    · intro f made a f' ⟨hclient, hbus⟩ ⟨hallowed, htrim⟩ hstep
      refine ⟨hclient.step (htrim f' hstep) hstep, ?_⟩
      cases a with
      | bus b =>
        obtain ⟨sys', hsys', rfl⟩ := Option.map_eq_some_iff.mp hstep
        simp only [FollowAction.regular, Bool.and_eq_true] at hallowed
        obtain ⟨⟨hok, hoff⟩, hone⟩ := hallowed
        exact hbus.step hok hoff hone (systemStep_of_step hsys')
      | reopen =>
        change (if _ then _ else _) = _ at hstep
        split_ifs at hstep
        obtain rfl := Option.some_inj.mp hstep
        exact (List.append_nil made).symm ▸ hbus
      | fetch | next =>
        obtain rfl := Option.some_inj.mp hstep
        exact (List.append_nil made).symm ▸ hbus
    · refine ⟨⟨?_, ?_, [], reading_init⟩, custody_init, conserved_init, composed_init, written_init,
        [], [], served_init⟩
      · intro p hp
        simp [following, Following.init, System.init, Keyspace.empty] at hp
      · intro p hp
        simp [following, Following.init, Following.stream, System.init, Keyspace.empty] at hp
  exact hall

end Run

/-! ### The streams follow the turns -/

section Turns

variable {d t s : String} {n : ℕ} {sys : System} {turns : List (Request × List (ℕ × Event))}
  {begun events rest : List (ℕ × Event)} {req : Request} {x : Request × List (ℕ × Event)}
  {cs : List (List (ℕ × Event))} {made : List (ℕ × Product)}

theorem IsProgress.not_final {p : ℕ × Event} (h : IsProgress t req p) : endsStream p = false := by
  obtain ⟨content, hint, hdata⟩ := h.data
  rw [endsStream, hdata, isFinal_progressPayload]

theorem IsAnswer.final {p : ℕ × Event} (h : IsAnswer t req p) : endsStream p = true := by
  obtain ⟨outcome, hdata⟩ := h.data
  rw [endsStream, hdata, isFinal_finalPayload]

theorem CompleteTurn.terminated (h : CompleteTurn t req events) :
    Terminated endsStream events := by
  obtain ⟨progress, answer, rfl, hprogress, hanswer⟩ := h
  exact ⟨progress, answer, rfl, fun p hp => (hprogress p hp).not_final, hanswer.final⟩

theorem CompleteTurn.rid (h : CompleteTurn t req events) : ∀ p ∈ events, p.2.rid = req.rid := by
  obtain ⟨progress, answer, rfl, hprogress, hanswer⟩ := h
  intro p hp
  rcases List.mem_append.mp hp with hp | hp
  · exact (hprogress p hp).rid
  · obtain rfl := List.mem_singleton.mp hp
    exact hanswer.rid

theorem Served.terminated (h : Served t s n sys turns begun) :
    ∀ b ∈ turns.map Prod.snd, Terminated endsStream b := by
  intro b hb
  obtain ⟨x, hx, rfl⟩ := List.mem_map.mp hb
  exact (h.complete x hx).terminated

theorem Served.unended (h : Served t s n sys turns begun) : Unended endsStream begun := by
  intro p hp
  obtain ⟨req, -, hprogress⟩ := h.begun p hp
  exact hprogress.not_final

/-- The events of one number in a sequence of complete turns. -/
theorem filter_turns (hcomplete : ∀ x ∈ turns, CompleteTurn t x.1 x.2) (rid : ℕ) :
    (turns.map Prod.snd).flatten.filter (fun p => p.2.rid = rid) =
      ((turns.filter fun x => x.1.rid = rid).map Prod.snd).flatten := by
  induction turns with
  | nil => rfl
  | cons x turns ih =>
    have hx := (hcomplete x (List.mem_cons_self ..)).rid
    have hrest := ih fun y hy => hcomplete y (List.mem_cons_of_mem _ hy)
    rw [List.map_cons, List.flatten_cons, List.filter_append, hrest, List.filter_cons]
    by_cases hrid : x.1.rid = rid
    · have hall : x.2.filter (fun p => p.2.rid = rid) = x.2 :=
        List.filter_eq_self.mpr fun p hp => by simp [hx p hp, hrid]
      simp [hrid, hall]
    · have hnone : x.2.filter (fun p => p.2.rid = rid) = [] :=
        List.filter_eq_nil_iff.mpr fun p hp => by simp [hx p hp, hrid]
      simp [hrid, hnone]

/-- The requests of a session have different numbers. -/
theorem Custody.nodup_pushed (h : Custody sys) : ((pushed s sys).map Request.rid).Nodup := by
  have hsub : ((pushed s sys).map Request.rid).Sublist
      ((sys.accepted.map Prod.snd).map Request.rid) :=
    (List.filter_sublist).map _
  rw [List.map_map] at hsub
  exact h.numbered.sublist hsub

/-- The events for a request whose turn is complete are the events of that turn. -/
theorem Served.eventsFor_turn (h : Served t s n sys turns begun) (hsys : Custody sys)
    (hx : x ∈ turns) : eventsFor s sys x.1 = x.2 := by
  have hnodup := hsys.nodup_pushed (s := s)
  rw [h.requests, List.append_assoc, List.map_append, List.map_map, List.nodup_append] at hnodup
  obtain ⟨hturns, -, hdisjoint⟩ := hnodup
  have hbegun : begun.filter (fun p => p.2.rid = x.1.rid) = [] := by
    refine List.filter_eq_nil_iff.mpr fun p hp => ?_
    obtain ⟨req, hreq, hprogress⟩ := h.begun p hp
    have hne := hdisjoint _ (List.mem_map_of_mem hx) _
      (List.mem_map_of_mem (List.mem_append_left _ hreq))
    simpa [hprogress.rid] using hne.symm
  have hone : turns.filter (fun y => y.1.rid = x.1.rid) = [x] := by
    obtain ⟨before, behind, rfl⟩ := List.append_of_mem hx
    rw [List.map_append, List.map_cons, List.nodup_append, List.nodup_cons] at hturns
    obtain ⟨-, ⟨hbehind, -⟩, hbefore⟩ := hturns
    rw [List.filter_append, List.filter_cons_of_pos (by simp)]
    have hnil : before.filter (fun y => y.1.rid = x.1.rid) = [] :=
      List.filter_eq_nil_iff.mpr fun y hy => by
        simpa using hbefore _ (List.mem_map_of_mem hy) _ (List.mem_cons_self ..)
    have hnil' : behind.filter (fun y => y.1.rid = x.1.rid) = [] :=
      List.filter_eq_nil_iff.mpr fun y hy => by
        simpa using fun heq => hbehind (List.mem_map.mpr ⟨y, hy, heq⟩)
    rw [hnil, hnil', List.nil_append]
  rw [eventsFor, h.log, List.filter_append, filter_turns h.complete, hone, hbegun]
  simp

/-- What has been written for the first request without a complete turn is what follows the
complete turns. -/
theorem Served.eventsFor_begun (h : Served t s n sys turns begun) (hsys : Custody sys)
    (hreq : (inHand s (sys.listeners t n) ++
      inQueue s (sys.bus.lists (inboundKey t)))[0]? = some req) :
    eventsFor s sys req = begun := by
  have hnodup := hsys.nodup_pushed (s := s)
  rw [h.requests, List.append_assoc, List.map_append, List.map_map, List.nodup_append] at hnodup
  obtain ⟨-, -, hdisjoint⟩ := hnodup
  have hnone : turns.filter (fun y => y.1.rid = req.rid) = [] := by
    refine List.filter_eq_nil_iff.mpr fun y hy => ?_
    simpa using hdisjoint _ (List.mem_map_of_mem hy) _
      (List.mem_map_of_mem (List.mem_of_getElem? hreq))
  have hall : begun.filter (fun p => p.2.rid = req.rid) = begun := by
    refine List.filter_eq_self.mpr fun p hp => ?_
    obtain ⟨req', hreq', hprogress⟩ := h.begun p hp
    -- at most one request is in hand, so it is the first one
    have hhand : inHand s (sys.listeners t n) = [req'] := by
      cases hpc : (sys.listeners t n).bind Pc.unanswered with
      | none => simp [inHand, hpc] at hreq'
      | some y =>
        rw [inHand, hpc] at hreq' ⊢
        obtain ⟨hmem, hfor⟩ := List.mem_filter.mp hreq'
        obtain rfl := List.mem_singleton.mp hmem
        exact List.filter_eq_self.mpr fun z hz => by rwa [List.mem_singleton.mp hz]
    rw [hhand, List.singleton_append, List.getElem?_cons_zero] at hreq
    obtain rfl := Option.some_inj.mp hreq
    simpa using hprogress.rid
  rw [eventsFor, h.log, List.filter_append, filter_turns h.complete, hnone, hall]
  rfl

/-- The requests with complete turns are the first ones that were pushed. -/
theorem Served.pushed_of_turn {i : ℕ} {x : Request × List (ℕ × Event)}
    (h : Served t s n sys turns begun) (hx : turns[i]? = some x) :
    (pushed s sys)[i]? = some x.1 := by
  have hlt : i < (turns.map Prod.fst).length := by
    rw [List.length_map]
    exact (List.getElem?_eq_some_iff.mp hx).1
  rw [h.requests, List.append_assoc, List.getElem?_append_left hlt, List.getElem?_map, hx]
  rfl

/-- The request after them is in hand or next in the queue. -/
theorem Served.pushed_next (h : Served t s n sys turns begun) :
    (pushed s sys)[turns.length]? =
      (inHand s (sys.listeners t n) ++ inQueue s (sys.bus.lists (inboundKey t)))[0]? := by
  have hlength : (turns.map Prod.fst).length = turns.length := List.length_map ..
  rw [h.requests, List.append_assoc, List.getElem?_append_right hlength.le, hlength, Nat.sub_self]

/-- A stream that has a segment of the log which is a complete turn has the turn of that
request. -/
theorem Served.yieldsTurn {as : List (List (ℕ × Event))} {i : ℕ} {r : Reader}
    (h : Served t s n sys turns begun) (hsys : Custody sys)
    (hcut : turns.map Prod.snd = as ++ cs) (hi : as[i]? = some r.yielded)
    (hclosed : r.closed = true) :
    ∃ req, (pushed s sys)[i]? = some req ∧ YieldsTurn t s sys req r := by
  have hsegment : (turns.map Prod.snd)[i]? = some r.yielded := by
    have hlt : i < as.length := (List.getElem?_eq_some_iff.mp hi).1
    rw [hcut, List.getElem?_append_left hlt, hi]
  rw [List.getElem?_map, Option.map_eq_some_iff] at hsegment
  obtain ⟨x, hx, hyielded⟩ := hsegment
  have hmem := List.mem_of_getElem? hx
  have hevents := h.eventsFor_turn hsys hmem
  have hcomplete := h.complete x hmem
  rw [hyielded] at hevents hcomplete
  refine ⟨x.1, h.pushed_of_turn hx, ?_, fun _ _ => hevents.symm, fun _ => ⟨0, hclosed⟩,
    fun _ => ⟨hevents.symm, hcomplete⟩⟩
  rw [hevents]

/-- An end that is not among the events of a stream is still to be read. -/
theorem exists_closed_of_ends {r : Reader} {events : List (ℕ × Event)}
    (hunended : Unended endsStream r.yielded)
    (hreadOn : (∃ p ∈ rest, endsStream p = true) →
      ∃ k, ((Reader.readOn (sys.bus.streams (streamKey s)))^[k] r).closed = true)
    (hsub : ∀ p ∈ events, p ∈ r.yielded ++ rest) (hends : ∃ p ∈ events, endsStream p = true) :
    ∃ k, ((Reader.readOn (sys.bus.streams (streamKey s)))^[k] r).closed = true := by
  obtain ⟨p, hp, hend⟩ := hends
  rcases List.mem_append.mp (hsub p hp) with hold | hnew
  · exact absurd hend (by simp [hunended p hold])
  · exact hreadOn ⟨p, hnew, hend⟩

/-- An open stream that begins after all complete turns has what there is of the turn in hand. -/
theorem Served.yieldsTurn_begun {r : Reader} (h : Served t s n sys turns begun)
    (hsys : Custody sys) (hrest : r.yielded ++ rest = begun)
    (hunended : Unended endsStream r.yielded) (hopen : r.closed = false)
    (hread : (sys.bus.streams (streamKey s)).after r.lastId = rest)
    (hreadOn : (∃ p ∈ rest, endsStream p = true) →
      ∃ k, ((Reader.readOn (sys.bus.streams (streamKey s)))^[k] r).closed = true) :
    (∀ req, (pushed s sys)[turns.length]? = some req → YieldsTurn t s sys req r) ∧
      ((pushed s sys)[turns.length]? = none → r.yielded = []) := by
  rw [h.pushed_next]
  constructor
  · intro req hreq
    have hevents := h.eventsFor_begun hsys hreq
    refine ⟨?_, fun _ hafter => ?_, exists_closed_of_ends hunended hreadOn fun p hp => ?_,
      by simp [hopen]⟩
    · rw [hevents]
      exact ⟨rest, hrest⟩
    · rw [hread] at hafter
      rw [hevents, ← hrest, hafter, List.append_nil]
    · rwa [hevents, ← hrest] at hp
  · intro hnone
    have hnil : inHand s (sys.listeners t n) = [] := by
      rw [List.getElem?_eq_none_iff, List.length_append] at hnone
      exact List.eq_nil_of_length_eq_zero (by omega)
    rw [h.begun_eq_nil hnil] at hrest
    exact (List.append_eq_nil_iff.mp hrest).1

/-- An open stream that begins at a complete turn has a part of it. -/
theorem Served.yieldsTurn_part {i : ℕ} {r : Reader} {x : Request × List (ℕ × Event)}
    {later : List (ℕ × Event)} (h : Served t s n sys turns begun) (hsys : Custody sys)
    (hx : turns[i]? = some x) (hrest : r.yielded ++ rest = x.2 ++ later)
    (hunended : Unended endsStream r.yielded) (hopen : r.closed = false)
    (hread : (sys.bus.streams (streamKey s)).after r.lastId = rest)
    (hreadOn : (∃ p ∈ rest, endsStream p = true) →
      ∃ k, ((Reader.readOn (sys.bus.streams (streamKey s)))^[k] r).closed = true) :
    YieldsTurn t s sys x.1 r := by
  have hmem := List.mem_of_getElem? hx
  have hevents := h.eventsFor_turn hsys hmem
  have hterminated := (h.complete x hmem).terminated
  refine ⟨?_, fun _ hafter => ?_, exists_closed_of_ends hunended hreadOn fun p hp => ?_,
    by simp [hopen]⟩
  · rw [hevents]
    exact prefix_of_unended hunended hterminated hrest
  · -- the answer is in the log, so a stream without it has something left to read
    rw [hread] at hafter
    rw [hafter, List.append_nil] at hrest
    exact absurd hunended (hterminated.not_unended ⟨_, hrest.symm⟩)
  · rw [hevents] at hp
    rw [hrest]
    exact List.mem_append_left _ hp

/-- An open stream that begins where the complete turns `as` end has what there is of the next
turn. -/
theorem Served.yieldsTurn_open {as : List (List (ℕ × Event))} {r : Reader}
    (h : Served t s n sys turns begun) (hsys : Custody sys)
    (hcut : turns.map Prod.snd = as ++ cs) (hrest : r.yielded ++ rest = cs.flatten ++ begun)
    (hunended : Unended endsStream r.yielded) (hopen : r.closed = false)
    (hread : (sys.bus.streams (streamKey s)).after r.lastId = rest)
    (hreadOn : (∃ p ∈ rest, endsStream p = true) →
      ∃ k, ((Reader.readOn (sys.bus.streams (streamKey s)))^[k] r).closed = true) :
    (∀ req, (pushed s sys)[as.length]? = some req → YieldsTurn t s sys req r) ∧
      ((pushed s sys)[as.length]? = none → r.yielded = []) := by
  cases cs with
  | nil =>
    -- every turn that is complete belongs to an earlier stream
    rw [List.append_nil] at hcut
    rw [List.flatten_nil, List.nil_append] at hrest
    have hlength : as.length = turns.length := by rw [← hcut, List.length_map]
    rw [hlength]
    exact h.yieldsTurn_begun hsys hrest hunended hopen hread hreadOn
  | cons c cs =>
    have hsegment : (turns.map Prod.snd)[as.length]? = some c := by
      rw [hcut, List.getElem?_append_right (le_refl _), Nat.sub_self, List.getElem?_cons_zero]
    rw [List.getElem?_map, Option.map_eq_some_iff] at hsegment
    obtain ⟨x, hx, rfl⟩ := hsegment
    rw [List.flatten_cons, List.append_assoc] at hrest
    rw [h.pushed_of_turn hx]
    refine ⟨fun req hreq => ?_, fun hnone => by simp at hnone⟩
    obtain rfl := Option.some_inj.mp hreq
    exact h.yieldsTurn_part hsys hx hrest hunended hopen hread hreadOn

/-- The answer to a request that has been written is not about to be written. -/
theorem Served.unwritten_eq_nil (h : Served t s n sys turns begun) (hsys : Custody sys)
    (hacc : (t, req) ∈ sys.accepted) (hfor : req.isFor s = true)
    (hcomplete : CompleteTurn t req (eventsFor s sys req)) :
    unwritten req.rid (sys.listeners t n) = [] := by
  rcases hpc : sys.listeners t n with - | pc
  · rfl
  cases pc with
  | posting req' s' final handler =>
    refine if_neg fun hrid => ?_
    obtain rfl := (hsys.eq_of_rid (hsys.traced.carried hpc rfl).1 hacc hrid).2
    -- its turn is in hand, and there is no answer in what has been written for it
    have hhand : inHand s (sys.listeners t n) = [req'] := by
      rw [hpc, inHand_of_some rfl, if_pos hfor]
    have hbegun : eventsFor s sys req' = begun := h.eventsFor_begun hsys (by rw [hhand]; rfl)
    rw [hbegun] at hcomplete
    exact hcomplete.terminated.not_unended List.prefix_rfl h.unended
  | waiting | turn | postingGlobal | saving | sleeping => rfl

/-- A stream that yields the turn of a request yields what was produced for it. -/
theorem Written.yieldsProducts {r : Reader} (h : Written t s n sys made)
    (hserved : Served t s n sys turns begun) (hsys : Custody sys) (hreq : req ∈ pushed s sys)
    (hyields : YieldsTurn t s sys req r) : YieldsProducts t s sys made req r := by
  obtain ⟨hmem, hfor⟩ := List.mem_filter.mp hreq
  obtain ⟨⟨v, _⟩, hacc, rfl⟩ := List.mem_map.mp hmem
  obtain rfl := hserved.own hacc hfor
  have hevents := h.events _ hacc hfor
  refine { hyields with payloads := ?_, whole := fun hclosed => ?_ }
  · exact (hyields.begins.map _).trans ⟨_, hevents⟩
  · obtain ⟨hyielded, hcomplete⟩ := hyields.all hclosed
    rw [hyielded] at hcomplete
    rw [hserved.unwritten_eq_nil hsys hacc hfor hcomplete, List.append_nil] at hevents
    rw [hyielded, hevents]

/-- In every state a chained client can be in, its streams follow the requests. -/
theorem BusAt.yieldsTurn {f : Following} {i : ℕ} {r : Reader} (hclient : ClientAt s f)
    (h : BusAt t s n f.sys made) (hr : f.streams[i]? = some r) :
    (∀ req, (pushed s f.sys)[i]? = some req → YieldsTurn t s f.sys req r) ∧
      ((pushed s f.sys)[i]? = none → r.yielded = []) := by
  obtain ⟨hpos, htrimmed, rest, hreading⟩ := hclient
  obtain ⟨hcustody, -, -, -, turns, begun, hserved⟩ := h
  have hended : ∀ a ∈ f.finished.map Reader.yielded, Terminated endsStream a := by
    intro a ha
    obtain ⟨r, hr, rfl⟩ := List.mem_map.mp ha
    exact (hreading.ended r hr).2
  have hcuts : (f.finished.map Reader.yielded).flatten ++ (f.current.yielded ++ rest) =
      (turns.map Prod.snd).flatten ++ begun := by
    rw [← List.append_assoc, ← hreading.log_eq, hserved.log]
  -- a stream that has ended has one of the turns
  have hdone {as cs : List (List (ℕ × Event))} (hcut : turns.map Prod.snd = as ++ cs)
      (hi : as[i]? = some r.yielded) (hclosed : r.closed = true) :
      (∀ req, (pushed s f.sys)[i]? = some req → YieldsTurn t s f.sys req r) ∧
        ((pushed s f.sys)[i]? = none → r.yielded = []) := by
    obtain ⟨req, hreq, hyields⟩ := hserved.yieldsTurn hcustody hcut hi hclosed
    rw [hreq]
    refine ⟨fun req' hreq' => ?_, fun hnone => by simp at hnone⟩
    obtain rfl := Option.some_inj.mp hreq'
    exact hyields
  rw [Following.streams] at hr
  rcases lt_or_ge i f.finished.length with hlt | hge
  · rw [List.getElem?_append_left hlt] at hr
    obtain ⟨cs, hcut, -⟩ :=
      exists_of_flatten_append hended hserved.terminated hserved.unended hcuts
    exact hdone hcut (by rw [List.getElem?_map, hr]; rfl)
      (hreading.ended r (List.mem_of_getElem? hr)).1
  · rw [List.getElem?_append_right hge, List.getElem?_singleton] at hr
    split_ifs at hr with hi
    obtain rfl := Option.some_inj.mp hr
    have hi : i = (f.finished.map Reader.yielded).length := by
      rw [List.length_map]
      omega
    cases hclosed : f.current.closed with
    | true =>
      -- the current stream has ended as well
      have hended' : ∀ a ∈ f.finished.map Reader.yielded ++ [f.current.yielded],
          Terminated endsStream a := by
        intro a ha
        rcases List.mem_append.mp ha with hold | hnew
        · exact hended a hold
        · obtain rfl := List.mem_singleton.mp hnew
          exact hreading.closed hclosed
      obtain ⟨cs, hcut, -⟩ := exists_of_flatten_append (r := rest) hended' hserved.terminated
        hserved.unended (by simpa using hcuts)
      exact hdone hcut (by rw [hi, List.getElem?_concat_length]) hclosed
    | false =>
      obtain ⟨cs, hcut, hrest⟩ :=
        exists_of_flatten_append hended hserved.terminated hserved.unended hcuts
      rw [hi]
      have hstream : f.stream = f.sys.bus.streams (streamKey s) := by
        rw [Following.stream, hreading.session]
      rw [Following.TrimmedRead, hstream] at htrimmed
      refine hserved.yieldsTurn_open hcustody hcut hrest (hreading.unended hclosed) hclosed ?_
        (hreading.exists_ended hpos htrimmed)
      rw [hreading.lastId] at htrimmed ⊢
      exact Stream.after_lastOf hreading.log_eq hpos htrimmed

/-- With what the requests' turns have produced. -/
theorem BusAt.yieldsProducts {f : Following} {i : ℕ} {r : Reader} (hclient : ClientAt s f)
    (h : BusAt t s n f.sys made) (hr : f.streams[i]? = some r) :
    (∀ req, (pushed s f.sys)[i]? = some req → YieldsProducts t s f.sys made req r) ∧
      ((pushed s f.sys)[i]? = none → r.yielded = []) := by
  obtain ⟨hyields, hnone⟩ := h.yieldsTurn hclient hr
  obtain ⟨hcustody, -, -, hwritten, turns, begun, hserved⟩ := h
  exact ⟨fun req hreq => hwritten.yieldsProducts hserved hcustody (List.mem_of_getElem? hreq)
    (hyields req hreq), hnone⟩

/-- **Chained streams.** Where one container serves the tenant and nothing unread is trimmed, the
`i`-th stream of the client yields the events of the session's `i`-th request, which are made of
what its turn has produced; before that request was accepted it yields nothing. -/
theorem yieldsTurn_of_run {acts : List FollowAction} {f : Following}
    (hrun : (following d s).run acts = some f)
    (hallowed : (following d s).AllSteps (Following.Allowed d t s n) (following d s).init acts)
    {i : ℕ} {r : Reader} (hr : f.streams[i]? = some r) :
    (∀ req, (pushed s f.sys)[i]? = some req →
        YieldsProducts t s f.sys (produced d s acts) req r) ∧
      ((pushed s f.sys)[i]? = none → r.yielded = []) := by
  obtain ⟨hclient, hbus⟩ := reading_served_run hrun hallowed
  exact hbus.yieldsProducts hclient hr

/-- Two messages of one session and a client that reads both answers. The second turn has begun
when the client opens the second stream, and it ends with an error. -/
def twoAnswers : List FollowAction :=
  [.bus (.chat 0 ⟨"hi", none, some "alice", none⟩), .bus (.start "alice" 0),
    .bus (.listen "alice" 0 .take), .bus (.chat 1 ⟨"and?", none, some "alice", none⟩),
    .bus (.listen "alice" 0 (.finish (.response "hello" none .null))),
    .bus (.listen "alice" 0 (.post (.ok ⟨1, 0⟩))), .fetch, .next,
    .bus (.listen "alice" 0 (.postGlobal (.ok ⟨1, 0⟩))), .bus (.listen "alice" 0 .save),
    .bus (.listen "alice" 0 .take), .bus (.listen "alice" 0 (.progress "so" false (.ok ⟨2, 0⟩))),
    .reopen, .fetch, .bus (.listen "alice" 0 (.finish (.raised "timeout"))),
    .bus (.listen "alice" 0 (.post (.ok ⟨2, 0⟩))), .next, .fetch, .next]

theorem yieldsTurn_twoAnswers :
    ∃ f r req, (following "default" "api:direct").run twoAnswers = some f ∧
      f.streams[1]? = some r ∧ r.yielded.length = 2 ∧
      (pushed "api:direct" f.sys)[1]? = some req ∧
      YieldsProducts "alice" "api:direct" f.sys (produced "default" "api:direct" twoAnswers) req
        r :=
  ⟨_, _, _, rfl, rfl, rfl, rfl,
    (yieldsTurn_of_run (s := "api:direct") (t := "alice") (n := 0) (i := 1)
      (show (following "default" "api:direct").run twoAnswers = some _ from rfl)
      (by decide) rfl).1 _ rfl⟩

end Turns

end Nanogate.Bus
