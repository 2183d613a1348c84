import Nanogate.Bus.Provenance

/-!
# Whose events a reader sees

A session stream's key carries the session id and not the tenant, so two tenants
whose clients use the same session id share one stream. As long as the other
tenants' requests keep off a session, though, its stream is theirs to read alone:
leaving out everything the other tenants do changes nothing a reader of that stream
sees. This is a statement about two runs, proved by unwinding.

## Main definitions

* `Action.ofOthers` — the steps of a set of tenants: their requests, containers and
  listeners
* `Action.keepsOff` — a step is not a request of those tenants for the session
* `StreamIsolated` — readers of the session's stream see the same with and without
  the other tenants, and only events of their own

## Main results

* `streamIsolated_of_keepsOff` — isolation in every run whose other tenants keep off
  the session
* `stream_shared_by_default` — without that, the default session is shared
-/

namespace Nanogate.Bus

open Nanogate.Python Nanogate.Redis Nanogate.Semantics

/-- The tenant a step belongs to; reads belong to no tenant. -/
def Action.tenant (d : String) : Action → Option String
  | .chat _ body =>
    match Bus.chat d body with
    | .ok acc => some acc.tenantId
    | .error _ => none
  | .start t _ | .stop t _ | .listen t _ _ => some t
  | .subscribe .. | .fetch _ | .next _ => none

/-- The steps of the tenants in `others`. -/
def Action.ofOthers (d : String) (others : String → Bool) (a : Action) : Bool :=
  (a.tenant d).any others

/-- The step is not a request of a tenant in `others` for the session `s`. -/
def Action.keepsOff (d : String) (others : String → Bool) (s : String) : Action → Bool
  | .chat _ body =>
    match Bus.chat d body with
    | .ok acc => !(others acc.tenantId && acc.sessionId = s)
    | .error _ => true
  | .start .. | .stop .. | .listen .. | .subscribe .. | .fetch _ | .next _ => true

/-- The run without the steps of `others`. -/
def without (d : String) (others : String → Bool) (acts : List Action) : List Action :=
  acts.filter fun a => !a.ofOthers d others

/-- Whatever a reader of the session's stream has been given by the end of the run, it
is given the same events, ids aside, when the steps of `others` do not take place, and
all of it was published by a listener of another tenant for a request of that tenant. -/
def StreamIsolated (d : String) (others : String → Bool) (s : String) (acts : List Action) :
    Prop :=
  ∀ sys, (machine d).run acts = some sys →
    ∃ sys', (machine d).run (without d others acts) = some sys' ∧
      ∀ r reader, sys.readers r = some reader → reader.sessionId = s →
        (∃ reader', sys'.readers r = some reader' ∧
          reader'.yielded.map (·.2.data) = reader.yielded.map (·.2.data)) ∧
        ∀ p ∈ reader.yielded, others p.2.tenantId = false ∧
          ∃ req, (p.2.tenantId, req) ∈ sys.accepted ∧ req.rid = p.2.rid

/-! ### The unwinding relation -/

/-- The run with everybody on the left, without `others` on the right: the two agree on
the session's stream and on whatever the remaining tenants own, and the others' requests
on the left are all for different sessions. -/
structure Agree (others : String → Bool) (s : String) (x y : System) : Prop where
  lists : ∀ {v}, others v = false → x.bus.lists (inboundKey v) = y.bus.lists (inboundKey v)
  listeners : ∀ {v}, others v = false → x.listeners v = y.listeners v
  stream : x.bus.streams (streamKey s) = y.bus.streams (streamKey s)
  sessions : ∀ r, (x.readers r).map Reader.sessionId = (y.readers r).map Reader.sessionId
  readers : ∀ {r reader}, x.readers r = some reader → reader.sessionId = s →
    y.readers r = some reader
  accepted : ∀ {p}, p ∈ y.accepted → p ∈ x.accepted
  keepOff : ∀ {v req}, others v = true → (v, req) ∈ x.accepted → requestSession req.payload ≠ s

namespace Agree

variable {d s t : String} {n : ℕ} {others : String → Bool} {x y x' : System} {a : Action}
  {req : Request}

theorem init : Agree others s .init .init where
  lists _ := rfl
  listeners _ := rfl
  stream := rfl
  sessions _ := rfl
  readers h _ := h
  accepted h := h
  keepOff _ h := by simp [System.init] at h

/-- A reader on the right with the same session. -/
theorem exists_reader (h : Agree others s x y) {r : ℕ} {reader : Reader}
    (hr : x.readers r = some reader) :
    ∃ reader', y.readers r = some reader' ∧ reader'.sessionId = reader.sessionId := by
  have hmap := h.sessions r
  rw [hr, Option.map_some] at hmap
  obtain ⟨reader', hr', hs⟩ := Option.map_eq_some_iff.mp hmap.symm
  exact ⟨reader', hr', hs⟩

/-- Both sides put a reader of the same session in place. -/
theorem setReader (h : Agree others s x y) (r : ℕ) {p q : Reader}
    (hpq : p.sessionId = q.sessionId) (heq : p.sessionId = s → q = p) :
    Agree others s (x.setReader r p) (y.setReader r q) where
  lists := h.lists
  listeners := h.listeners
  stream := h.stream
  sessions k := by
    simp only [System.readers_setReader]
    split_ifs
    · simp [hpq]
    · exact h.sessions k
  readers {k reader} hk hs := by
    rw [System.readers_setReader] at hk ⊢
    split_ifs at hk ⊢
    · obtain rfl := Option.some_inj.mp hk
      rw [heq hs]
    · exact h.readers hk hs
  accepted := h.accepted
  keepOff := h.keepOff

/-- Another tenant's request for another session stays on the left. -/
theorem push_hidden (h : Agree others s x y) (ht : others t = true)
    (hs : requestSession req.payload ≠ s) : Agree others s (x.push t req) y where
  lists {v} hv := by
    have hne : v ≠ t := fun h => by simp [h, ht] at hv
    rw [System.push, Keyspace.lists_lpush_inbound, if_neg hne]
    exact h.lists hv
  listeners := h.listeners
  stream := h.stream
  sessions := h.sessions
  readers := h.readers
  accepted hp := List.mem_append_left _ (h.accepted hp)
  keepOff {v r} hv hmem := by
    rcases List.mem_append.mp hmem with hold | hnew
    · exact h.keepOff hv hold
    · obtain ⟨rfl, rfl⟩ := Prod.mk.inj (List.mem_singleton.mp hnew)
      exact hs

/-- A remaining tenant's request is pushed on both sides. -/
theorem push_visible (h : Agree others s x y) (ht : others t = false) :
    Agree others s (x.push t req) (y.push t req) where
  lists {v} hv := by
    simp only [System.push, Keyspace.lists_lpush_inbound]
    split_ifs
    · rw [h.lists ht]
    · exact h.lists hv
  listeners := h.listeners
  stream := h.stream
  sessions := h.sessions
  readers := h.readers
  accepted hp := by
    rcases List.mem_append.mp hp with hp | hp
    · exact List.mem_append_left _ (h.accepted hp)
    · exact List.mem_append_right _ hp
  keepOff {v r} hv hmem := by
    rcases List.mem_append.mp hmem with hold | hnew
    · exact h.keepOff hv hold
    · obtain ⟨rfl, rfl⟩ := Prod.mk.inj (List.mem_singleton.mp hnew)
      simp [ht] at hv

/-- Another tenant's container starts or stops. -/
theorem setListener_hidden (h : Agree others s x y) (ht : others t = true) (pc : Option Pc) :
    Agree others s (x.setListener t n pc) y where
  lists := h.lists
  listeners {v} hv := by
    have hne : v ≠ t := fun h => by simp [h, ht] at hv
    exact (Function.update_of_ne hne _ _).trans (h.listeners hv)
  stream := h.stream
  sessions := h.sessions
  readers := h.readers
  accepted := h.accepted
  keepOff := h.keepOff

theorem setListener_visible (h : Agree others s x y) (ht : others t = false) (pc : Option Pc) :
    Agree others s (x.setListener t n pc) (y.setListener t n pc) where
  lists := h.lists
  listeners {v} hv := by
    simp only [System.setListener, Function.update_apply, h.listeners ht]
    split_ifs
    · rfl
    · exact h.listeners hv
  stream := h.stream
  sessions := h.sessions
  readers := h.readers
  accepted := h.accepted
  keepOff := h.keepOff

/-- Redis may change where the remaining tenants do not look. -/
theorem setBus_left (h : Agree others s x y) {bus : Keyspace}
    (hlists : ∀ {v}, others v = false → bus.lists (inboundKey v) = x.bus.lists (inboundKey v))
    (hstream : bus.streams (streamKey s) = x.bus.streams (streamKey s)) :
    Agree others s { x with bus } y :=
  { h with
    lists := fun hv => (hlists hv).trans (h.lists hv)
    stream := hstream.trans h.stream }

/-- A step of `others` for another session changes nothing on the right. -/
theorem hidden_step (h : Agree others s x y) (hx : Traced x) (hoff : a.keepsOff d others s = true)
    (ha : a.ofOthers d others = true) (hstep : SystemStep d x a x') : Agree others s x' y := by
  cases hstep with
  | @chat rid body acc reply =>
    have ht : others acc.tenantId = true := by
      simpa [Action.ofOthers, Action.tenant, reply] using ha
    have hs : acc.sessionId ≠ s := by simpa [Action.keepsOff, reply, ht] using hoff
    rw [← requestSession_of_chat reply] at hs
    exact h.push_hidden ht hs
  | @start t n =>
    have ht : others t = true := by simpa [Action.ofOthers, Action.tenant] using ha
    exact h.setListener_hidden ht _
  | @stop t n =>
    have ht : others t = true := by simpa [Action.ofOthers, Action.tenant] using ha
    exact { h.setListener_hidden ht none with }
  | @listen t n act pc bus pc' running step =>
    have ht : others t = true := by simpa [Action.ofOthers, Action.tenant] using ha
    refine (h.setListener_hidden ht (some pc')).setBus_left (fun {v} hv => ?_) ?_
    · exact step.lists_of_ne fun h => by simp [h, ht] at hv
    · refine step.streams_of_carries_ne fun req hc => ?_
      obtain ⟨hacc, hs⟩ := hx.carried running hc
      exact h.keepOff ht hacc hs.symm
  | rejected reply => simp [Action.ofOthers, Action.tenant, reply] at ha
  | subscribe | fetch | next => simp [Action.ofOthers, Action.tenant] at ha

/-- Every other step is possible on the right as well, and the two sides still agree. -/
theorem visible_step (h : Agree others s x y) (ha : a.ofOthers d others = false)
    (hstep : SystemStep d x a x') :
    ∃ y', y.step d a = some y' ∧ Agree others s x' y' := by
  cases hstep with
  | rejected reply => exact ⟨y, by simp only [System.step, reply], h⟩
  | @chat rid body acc reply fresh =>
    have ht : others acc.tenantId = false := by
      simpa [Action.ofOthers, Action.tenant, reply] using ha
    -- the number is fresh without the others as well
    have hfresh : y.Fresh rid := fun hmem => by
      obtain ⟨p, hp, hrid⟩ := List.mem_map.mp hmem
      exact fresh (List.mem_map.mpr ⟨p, h.accepted hp, hrid⟩)
    exact ⟨_, by simp only [System.step, reply, if_pos hfresh], h.push_visible ht⟩
  | @start t n absent =>
    have ht : others t = false := by simpa [Action.ofOthers, Action.tenant] using ha
    rw [h.listeners ht] at absent
    exact ⟨_, by simp only [System.step, absent], h.setListener_visible ht _⟩
  | @stop t n pc running =>
    have ht : others t = false := by simpa [Action.ofOthers, Action.tenant] using ha
    rw [h.listeners ht] at running
    refine ⟨{ y.setListener t n none with cut := y.cut ++ pc.unanswered.toList }, ?_,
      { h.setListener_visible ht none with }⟩
    simp only [System.step, running]
  | @listen t n act pc bus pc' running step =>
    have ht : others t = false := by simpa [Action.ofOthers, Action.tenant] using ha
    rw [h.listeners ht] at running
    -- the listener finds the same queue, so it can take the same step
    obtain ⟨bus', hlisten, hlist, hstream⟩ := step.exists_listen (h.lists ht)
    have step' := listenStep_of_listen hlisten
    refine ⟨{ y.setListener t n (some pc') with bus := bus' }, ?_,
      { h.setListener_visible ht (some pc') with
        lists := fun {v} hv => ?_
        stream := hstream s h.stream }⟩
    · simp only [System.step, running, hlisten]
    · by_cases hvt : v = t
      · rw [hvt]
        exact hlist.symm
      · exact (step.lists_of_ne hvt).trans ((h.lists hv).trans (step'.lists_of_ne hvt).symm)
  | @subscribe r sessionId lastId => exact ⟨_, rfl, h.setReader r rfl fun _ => rfl⟩
  | @fetch r reader open_ =>
    obtain ⟨reader', open', hs⟩ := h.exists_reader open_
    refine ⟨y.setReader r (reader'.fetch (y.bus.streams (streamKey reader'.sessionId))), ?_,
      h.setReader r (by simp [hs]) fun hrs => ?_⟩
    · simp only [System.step, open']
    · -- a reader of the session finds the same events
      rw [Reader.sessionId_fetch] at hrs
      rw [h.readers open_ hrs] at open'
      rw [← Option.some_inj.mp open', hrs, h.stream]
  | @next r reader open_ =>
    obtain ⟨reader', open', hs⟩ := h.exists_reader open_
    refine ⟨y.setReader r reader'.next, ?_, h.setReader r (by simp [hs]) fun hrs => ?_⟩
    · simp only [System.step, open']
    · rw [Reader.sessionId_next] at hrs
      rw [h.readers open_ hrs] at open'
      rw [← Option.some_inj.mp open']

end Agree

/-- Leaving out `others` is an unwinding as long as their requests keep off `s`. -/
theorem unwinding_others (d s : String) (others : String → Bool) :
    (machine d).Unwinding (Action.ofOthers d others) (fun _ a => a.keepsOff d others s = true)
      fun x y => Agree others s x y ∧ Traced x where
  hidden_step hxy hoff ha hstep :=
    have h := systemStep_of_step hstep
    ⟨hxy.1.hidden_step hxy.2 hoff ha h, hxy.2.step h⟩
  visible_step hxy _ ha hstep := by
    have h := systemStep_of_step hstep
    obtain ⟨y', hy', hagree⟩ := hxy.1.visible_step ha h
    exact ⟨y', hy', hagree, hxy.2.step h⟩

/-- **Isolation.** In a run in which no request of `others` is for the session `s`, the
readers of its stream cannot tell whether `others` take any steps at all. -/
theorem streamIsolated_of_keepsOff {d s : String} {others : String → Bool} {acts : List Action}
    (hoff : ∀ a ∈ acts, a.keepsOff d others s = true) : StreamIsolated d others s acts := by
  intro sys hrun
  obtain ⟨sys', hrun', hagree, htraced⟩ :=
    (unwinding_others d s others).run ⟨Agree.init, traced_init⟩ (.of_labels hoff) hrun
  refine ⟨sys', hrun', fun r reader hr hs => ⟨⟨reader, hagree.readers hr hs, rfl⟩, ?_⟩⟩
  intro p hp
  have hlog := htraced.reading hr (.inr hp)
  rw [hs] at hlog
  obtain ⟨req, hacc, hrid, hsession⟩ := htraced.event hlog
  refine ⟨?_, req, hacc, hrid⟩
  by_contra hother
  exact hagree.keepOff (Bool.not_eq_false _ ▸ hother) hacc hsession

/-- What a reader has been given at the end of a run. -/
def yieldedData (d : String) (acts : List Action) (r : ℕ) : Option (List Json) :=
  ((machine d).run acts).bind fun sys => (sys.readers r).map fun reader =>
    reader.yielded.map (·.2.data)

/-- Alice and Bob name different sessions, and both are served before Alice reads. -/
def ownSessions : List Action :=
  [.chat 0 ⟨"hi", some "notes", some "alice", none⟩, .chat 1 ⟨"hello", none, some "bob", none⟩,
    .start "alice" 0, .start "bob" 0, .listen "bob" 0 .take, .listen "alice" 0 .take,
    .listen "bob" 0 (.finish (.response "for bob" none .null)),
    .listen "alice" 0 (.finish (.response "for alice" none .null)),
    .listen "bob" 0 (.post (.ok ⟨1, 0⟩)), .listen "alice" 0 (.post (.ok ⟨2, 0⟩)),
    .subscribe 0 "api:notes" 0, .fetch 0, .next 0]

theorem streamIsolated_ownSessions :
    (yieldedData "default" ownSessions 0).map List.length = some 1 ∧
      StreamIsolated "default" (fun t => t = "bob") "api:notes" ownSessions :=
  ⟨by decide, streamIsolated_of_keepsOff (by decide)⟩

/-! ### The default session -/

/-- Isolation of the tenant `A` from the tenant `B`: for every request of `A` in every run,
its session's stream is isolated from what `B` does. -/
def TenantIsolated (d A B : String) : Prop :=
  ∀ acts rid body acc, Action.chat rid body ∈ acts → Bus.chat d body = .ok acc →
    acc.tenantId = A → StreamIsolated d (fun t => t = B) acc.sessionId acts

/-- Two clients leave out the session id, and Bob's answer is published first. -/
def defaultSessions : List Action :=
  [.chat 0 ⟨"hi", none, some "alice", none⟩, .subscribe 0 "api:direct" 0,
    .chat 1 ⟨"hello", none, some "bob", none⟩, .start "bob" 0, .listen "bob" 0 .take,
    .listen "bob" 0 (.finish (.response "for bob" none .null)),
    .listen "bob" 0 (.post (.ok ⟨1, 0⟩)), .fetch 0, .next 0]

theorem StreamIsolated.yieldedData_eq {d s : String} {others : String → Bool}
    {acts : List Action} (h : StreamIsolated d others s acts) {r : ℕ} {sys : System}
    {reader : Reader} (hrun : (machine d).run acts = some sys) (hr : sys.readers r = some reader)
    (hs : reader.sessionId = s) :
    yieldedData d (without d others acts) r = yieldedData d acts r := by
  obtain ⟨sys', hrun', hreaders⟩ := h sys hrun
  obtain ⟨⟨reader', hr', hdata⟩, -⟩ := hreaders r reader hr hs
  simp only [yieldedData, hrun, hrun', Option.bind_some, hr, hr', Option.map_some, hdata]

theorem stream_shared_by_default : ¬ TenantIsolated "default" "alice" "bob" := by
  intro h
  have hiso := h defaultSessions 0 ⟨"hi", none, some "alice", none⟩
    ⟨"alice", _, "api:direct", "/api/chat/stream/api:direct"⟩ (by simp [defaultSessions]) rfl rfl
  have heq := hiso.yieldedData_eq (r := 0) rfl rfl rfl
  revert heq
  decide

end Nanogate.Bus
