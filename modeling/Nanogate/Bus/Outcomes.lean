import Nanogate.Bus.Custody

/-!
# One outcome for a request

The final payload of a request goes to the session stream and then to the global stream, and
both writes stand inside the `try` block whose handler publishes an error in the same way. A
global write that fails after the session write succeeded is therefore answered with a second
final event on the session stream, unless that one fails too.

## Main definitions

* `Target`, `attempts` — the writes of final payloads for a request, and how they went
* `OneOutcome` — at most one final event on either stream, and the same outcome on both
* `Published`, `Tallied` — what each final payload came to, and the streams it adds up to

## Main results

* `oneOutcome_iff` — the writes with which a request has one outcome
* `two_outcomes` — a result and an error for one request
-/

namespace Nanogate.Bus

open Nanogate.Python Nanogate.Redis Nanogate.Semantics

/-! ### Attempts and events -/

/-- The stream that the `XADD` of a final payload writes to. -/
inductive Target where
  | session
  | global
  deriving DecidableEq, Repr

/-- The `XADD` of a final payload for the request numbered `rid` that a step of a listener makes,
and whether it succeeds. -/
def Pc.attempts (rid : ℕ) : Pc → ListenerAct → List (Target × Bool)
  | .posting req _ _ _, .post reply => if req.rid = rid then [(.session, reply.toBool)] else []
  | .postingGlobal req _ _ _, .postGlobal reply =>
    if req.rid = rid then [(.global, reply.toBool)] else []
  | _, _ => []

/-- The `XADD` of a final payload for the request that a step of the system makes. -/
def System.attempts (rid : ℕ) (sys : System) : Action → List (Target × Bool)
  | .listen t n act => (sys.listeners t n).elim [] fun pc => pc.attempts rid act
  | .chat .. | .start .. | .stop .. | .subscribe .. | .fetch _ | .next _ => []

/-- The `XADD`s of final payloads for the request in a run, in the order they were made. -/
def attempts (d : String) (rid : ℕ) (acts : List Action) : List (Target × Bool) :=
  (machine d).observed (System.attempts rid) .init acts

/-- The final events for a request on a stream. -/
def finals (rid : ℕ) (s : Stream Event) : List Json :=
  (s.log.filter fun p => p.2.rid = rid && isFinal p.2.data).map fun p => p.2.data

/-- The request has at most one final event on its session stream and at most one on the global
stream, and if it has both, they carry the same outcome. -/
structure OneOutcome (sys : System) (req : Request) : Prop where
  session : (finals req.rid
    (sys.bus.streams (streamKey (requestSession req.payload)))).length ≤ 1
  global : (finals req.rid (sys.bus.streams globalOutboundStream)).length ≤ 1
  same : ∀ e ∈ finals req.rid (sys.bus.streams (streamKey (requestSession req.payload))),
    ∀ e' ∈ finals req.rid (sys.bus.streams globalOutboundStream),
      ∀ key ∈ ["status", "response", "error"], e.get key = e'.get key

section Finals

variable {bus : Keyspace} {s r : String} {c : Xadd} {e : Event} {rid maxlen : ℕ}
  {stream : Stream Event}

theorem finals_xadd : finals rid (stream.xadd maxlen c e) =
    finals rid stream ++ if e.rid = rid ∧ isFinal e.data = true then [e.data] else [] := by
  simp only [finals, Stream.log_xadd, List.filter_append, List.map_append, List.filter_cons,
    List.filter_nil, Bool.and_eq_true, decide_eq_true_eq]
  split_ifs <;> rfl

theorem finals_publishSession : finals rid ((bus.publishSession s c e).streams (streamKey r)) =
    finals rid (bus.streams (streamKey r)) ++
      if r = s ∧ e.rid = rid ∧ isFinal e.data = true then [e.data] else [] := by
  rw [Keyspace.streams_publishSession]
  by_cases hr : r = s
  · rw [if_pos hr, finals_xadd, hr]
    simp only [true_and]
  · simp [hr]

/-- The session id that is added for the global stream leaves the outcome alone. -/
theorem get_set_sessionId {data : Json} {x : Json} {key : String} (h : key ≠ "_session_id") :
    (data.set "_session_id" x).get key = data.get key :=
  Json.get_set_of_ne h

@[simp] theorem isFinal_set_sessionId {data x : Json} :
    isFinal (data.set "_session_id" x) = isFinal data := by
  unfold isFinal
  rw [get_set_sessionId (by decide)]

theorem finals_publishGlobal :
    finals rid ((bus.publishGlobal s c e).streams globalOutboundStream) =
      finals rid (bus.streams globalOutboundStream) ++
        if e.rid = rid ∧ isFinal e.data = true then [e.data.set "_session_id" (.str s)]
        else [] := by
  rw [Keyspace.publishGlobal, Keyspace.streams_xadd, Function.update_self, finals_xadd,
    isFinal_set_sessionId]

end Finals

/-! ### What the payloads came to -/

/-- How far the two writes of a final payload came. -/
inductive Published where
  | sessionFailed
  | onSession
  | globalFailed
  | onBoth
  deriving DecidableEq

namespace Published

/-- The `XADD`s made for the payload. -/
def attempts : Published → List (Target × Bool)
  | sessionFailed => [(.session, false)]
  | onSession => [(.session, true)]
  | globalFailed => [(.session, true), (.global, false)]
  | onBoth => [(.session, true), (.global, true)]

/-- What is then on the session stream. -/
def session (final : Json) : Published → List Json
  | sessionFailed => []
  | onSession | globalFailed | onBoth => [final]

/-- What is then on the global stream. -/
def global (sessionId : String) (final : Json) : Published → List Json
  | sessionFailed | onSession | globalFailed => []
  | onBoth => [final.set "_session_id" (.str sessionId)]

/-- A write raised. -/
def Failed (p : Published) : Prop := p = sessionFailed ∨ p = globalFailed

end Published

/-- A final payload that a listener has begun to publish. -/
abbrev Try := Json × Published

/-- What has been tried when a listener begins to publish: nothing, or in the handler one payload
that could not be published. -/
def Before (handler : Bool) (tries : List Try) : Prop :=
  tries = [] ∨ handler = true ∧ ∃ x, tries = [x] ∧ x.2.Failed

/-- Where a listener stands tells what has been tried for the request it carries. -/
def At : Pc → List Try → Prop
  | .turn _ _, tries => tries = []
  | .posting _ _ _ handler, tries => Before handler tries
  | .postingGlobal _ _ final handler, tries =>
    ∃ before, Before handler before ∧ tries = before ++ [(final, .onSession)]
  | .waiting, _ | .saving _ _, _ | .sleeping, _ => True

/-- The attempts made for a request and its final events add up: they come from at most two
payloads, of which the first could not be published. -/
structure Tallied (req : Request) (sys : System) (made : List (Target × Bool)) (tries : List Try) :
    Prop where
  attempts : made = tries.flatMap fun x => x.2.attempts
  session : finals req.rid (sys.bus.streams (streamKey (requestSession req.payload))) =
    tries.flatMap fun x => x.2.session x.1
  global : finals req.rid (sys.bus.streams globalOutboundStream) =
    tries.flatMap fun x => x.2.global (requestSession req.payload) x.1
  few : tries = [] ∨ ∃ before x, Before true before ∧ tries = before ++ [x]
  fresh : sys.Fresh req.rid → tries = []
  queued : ∀ v x, x ∈ sys.bus.lists (inboundKey v) → x.rid = req.rid → tries = []
  held : ∀ v n pc x s, sys.listeners v n = some pc → pc.carries = some (x, s) →
    x.rid = req.rid → At pc tries

section Tally

variable {d t v : String} {n : ℕ} {sys sys' : System} {a : Action} {act : ListenerAct}
  {req x : Request} {s : String} {pc pc' : Pc} {bus : Keyspace} {made : List (Target × Bool)}
  {tries before : List Try} {final : Json} {handler : Bool}

theorem before_true (h : Before handler before) : Before true before := by
  rcases h with rfl | ⟨-, hx⟩
  · exact .inl rfl
  · exact .inr ⟨rfl, hx⟩

theorem few_append (h : Before handler before) (y : Try) :
    before ++ [y] = [] ∨ ∃ before' x, Before true before' ∧ before ++ [y] = before' ++ [x] :=
  .inr ⟨before, y, before_true h, rfl⟩

/-- What the tally says about the outcome. -/
theorem Tallied.outcomes_iff (h : Tallied req sys made tries) :
    OneOutcome sys req ↔
      ¬[(Target.session, true), (Target.global, false), (Target.session, true)] <+: made := by
  have hsame (data x : Json) : data.get "status" = (data.set "_session_id" x).get "status" ∧
      data.get "response" = (data.set "_session_id" x).get "response" ∧
        data.get "error" = (data.set "_session_id" x).get "error" :=
    ⟨(get_set_sessionId (by decide)).symm, (get_set_sessionId (by decide)).symm,
      (get_set_sessionId (by decide)).symm⟩
  have hone (session global : List Json)
      (hs : finals req.rid (sys.bus.streams (streamKey (requestSession req.payload))) = session)
      (hg : finals req.rid (sys.bus.streams globalOutboundStream) = global) :
      OneOutcome sys req ↔ session.length ≤ 1 ∧ global.length ≤ 1 ∧ ∀ e ∈ session, ∀ e' ∈ global,
        ∀ key ∈ ["status", "response", "error"], e.get key = e'.get key := by
    subst hs hg
    exact ⟨fun h => ⟨h.session, h.global, h.same⟩, fun h => ⟨h.1, h.2.1, h.2.2⟩⟩
  rw [hone _ _ h.session h.global, h.attempts]
  rcases h.few with rfl | ⟨before, ⟨f, p⟩, rfl | ⟨-, ⟨f', p'⟩, rfl, rfl | rfl⟩, rfl⟩
  · simp
  · -- one payload: the two streams carry the same one, if both have it
    cases p <;> simp [Published.attempts, Published.session, Published.global]
    exact hsame f _
  · -- the result never reached the session stream
    cases p <;> simp [Published.attempts, Published.session, Published.global]
    exact hsame f _
  · -- the result is on the session stream, and only the error can follow it there
    cases p <;> simp [Published.attempts, Published.session, Published.global]

/-! ### One step -/

/-- A listener adds final events, and makes attempts, only for the request it carries. -/
theorem ListenStep.finals_of_not_carried (h : ListenStep t sys.bus pc act bus pc') {rid : ℕ}
    (hpc : ∀ x s, pc.carries = some (x, s) → x.rid ≠ rid) :
    pc.attempts rid act = [] ∧
      (∀ s, finals rid (bus.streams (streamKey s)) = finals rid (sys.bus.streams (streamKey s))) ∧
      finals rid (bus.streams globalOutboundStream) =
        finals rid (sys.bus.streams globalOutboundStream) := by
  cases h with
  | @progress x s | @post x s =>
    have hne : x.rid ≠ rid := hpc x s rfl
    refine ⟨by simp [Pc.attempts, hne], fun r => ?_, by rw [Keyspace.streams_publishSession_global]⟩
    rw [finals_publishSession, if_neg (fun h => hne h.2.1), List.append_nil]
  | @postGlobal x s =>
    have hne : x.rid ≠ rid := hpc x s rfl
    refine ⟨by simp [Pc.attempts, hne], fun r => by rw [Keyspace.streams_publishGlobal], ?_⟩
    rw [finals_publishGlobal, if_neg (fun h => hne h.1), List.append_nil]
  | @postFailed x s | @postGlobalFailed x s =>
    have hne : x.rid ≠ rid := hpc x s rfl
    exact ⟨by simp [Pc.attempts, hne], fun _ => rfl, rfl⟩
  | take | progressFailed | finish | save | wake => exact ⟨rfl, fun _ => rfl, rfl⟩

/-- A listener that does not carry the request leaves the tally as it is. -/
theorem Tallied.idle (h : Tallied req sys made tries) (running : sys.listeners t n = some pc)
    (step : ListenStep t sys.bus pc act bus pc')
    (hpc : ∀ x s, pc.carries = some (x, s) → x.rid ≠ req.rid) :
    Tallied req { sys.setListener t n (some pc') with bus } (made ++ pc.attempts req.rid act)
      tries := by
  obtain ⟨hattempts, hsession, hglobal⟩ := step.finals_of_not_carried hpc
  refine ⟨by rw [hattempts, List.append_nil, h.attempts], (hsession _).trans h.session,
    hglobal.trans h.global, h.few, h.fresh,
    fun v x hx hrid => h.queued v x (step.lists_subset hx) hrid, ?_⟩
  intro v m qc x s hl hc hrid
  change (System.setListener ..).listeners _ _ = _ at hl
  rw [System.listeners_setListener] at hl
  split_ifs at hl
  · -- the listener has just taken the request off the list
    obtain rfl := Option.some_inj.mp hl
    rcases step.hands with ⟨-, hcarries⟩ | ⟨rest, y, hqueue, -, rfl, rfl⟩
    · exact absurd hrid (hpc x s (hcarries _ hc))
    · obtain rfl := eq_of_carries_received hc
      have hnothing : tries = [] := h.queued t x (by rw [hqueue]; simp) hrid
      unfold received at hc ⊢
      split_ifs at hc ⊢
      · exact hnothing
      · simp [Pc.carries] at hc
  · exact h.held v m qc x s hl hc hrid

/-- The listener that carries the request takes a step. -/
theorem Tallied.advance {tries' : List Try} (hsys : Custody sys)
    (running : sys.listeners t n = some pc) (hc : pc.carries = some (req, s))
    (hlists : ∀ {v x}, x ∈ bus.lists (inboundKey v) → x ∈ sys.bus.lists (inboundKey v))
    (hmade : made = tries'.flatMap fun x => x.2.attempts)
    (hsession : finals req.rid (bus.streams (streamKey (requestSession req.payload))) =
      tries'.flatMap fun x => x.2.session x.1)
    (hglobal : finals req.rid (bus.streams globalOutboundStream) =
      tries'.flatMap fun x => x.2.global (requestSession req.payload) x.1)
    (hfew : tries' = [] ∨ ∃ before x, Before true before ∧ tries' = before ++ [x])
    (hat : At pc' tries') :
    Tallied req { sys.setListener t n (some pc') with bus } made tries' := by
  have hacc : (t, req) ∈ sys.accepted := (hsys.traced.carried running hc).1
  refine ⟨hmade, hsession, hglobal, hfew, fun hfresh => ?_, fun v x hx hrid => ?_, ?_⟩
  · exact absurd (List.mem_map.mpr ⟨_, hacc, rfl⟩) hfresh
  · exact absurd hrid (hsys.not_held_of_queued (hlists hx) running hc)
  · intro v m qc x s' hl hc' hrid
    change (System.setListener ..).listeners _ _ = _ at hl
    rw [System.listeners_setListener] at hl
    split_ifs at hl with hvm
    · exact Option.some_inj.mp hl ▸ hat
    · exact absurd (hsys.eq_holder hl running hc' hc hrid) hvm

/-- After a failed write the listener is in the handler with one payload that failed, or is done
with the request. -/
theorem at_publishFailed {p : Published} {error : String} (h : Before handler before)
    (hp : p.Failed) : At (publishFailed req s handler error) (before ++ [(final, p)]) := by
  cases handler with
  | true => trivial
  | false =>
    rcases h with rfl | ⟨hfalse, -⟩
    · exact .inr ⟨rfl, _, rfl, hp⟩
    · cases hfalse

theorem Tallied.carrying (h : Tallied req sys made tries) (hsys : Custody sys)
    (hfinal : ∀ x f, pc.publishes = some (x, f) → isFinal f = true)
    (running : sys.listeners t n = some pc) (step : ListenStep t sys.bus pc act bus pc')
    (hc : pc.carries = some (req, s)) :
    ∃ tries', Tallied req { sys.setListener t n (some pc') with bus }
      (made ++ pc.attempts req.rid act) tries' := by
  -- the payload is published for the session of the request
  obtain ⟨-, rfl⟩ := hsys.traced.carried running hc
  have hat := h.held t n pc req _ running hc rfl
  have hlists : ∀ {v x}, x ∈ bus.lists (inboundKey v) → x ∈ sys.bus.lists (inboundKey v) :=
    step.lists_subset
  cases step with
  | take | wake => simp [Pc.carries] at hc
  | progress =>
    obtain ⟨rfl, rfl⟩ := Prod.mk.inj (Option.some_inj.mp hc)
    refine ⟨tries, Tallied.advance hsys running rfl hlists (by simp [Pc.attempts, h.attempts]) ?_ ?_
      h.few hat⟩
    · rw [finals_publishSession, if_neg (by simp), List.append_nil, h.session]
    · rw [Keyspace.streams_publishSession_global, h.global]
  | progressFailed =>
    obtain ⟨rfl, rfl⟩ := Prod.mk.inj (Option.some_inj.mp hc)
    exact ⟨tries, Tallied.advance hsys running rfl hlists (by simp [Pc.attempts, h.attempts])
      h.session h.global h.few hat⟩
  | finish =>
    obtain ⟨rfl, rfl⟩ := Prod.mk.inj (Option.some_inj.mp hc)
    exact ⟨tries, Tallied.advance hsys running rfl hlists (by simp [Pc.attempts, h.attempts])
      h.session h.global h.few (.inl hat)⟩
  -- a final payload reaches the session stream
  | @post _ _ final handler =>
    obtain ⟨rfl, rfl⟩ := Prod.mk.inj (Option.some_inj.mp hc)
    refine ⟨tries ++ [(final, .onSession)], Tallied.advance hsys running rfl hlists ?_ ?_ ?_
      (few_append hat _) ⟨tries, hat, rfl⟩⟩
    · simp [Pc.attempts, Published.attempts, h.attempts, Except.toBool]
    · rw [finals_publishSession, if_pos ⟨rfl, rfl, hfinal _ _ rfl⟩, h.session]
      simp [Published.session]
    · rw [Keyspace.streams_publishSession_global, h.global]
      simp [Published.global]
  | @postFailed _ _ final handler =>
    obtain ⟨rfl, rfl⟩ := Prod.mk.inj (Option.some_inj.mp hc)
    refine ⟨tries ++ [(final, .sessionFailed)], Tallied.advance hsys running rfl hlists ?_ ?_ ?_
      (few_append hat _) (at_publishFailed hat (.inl rfl))⟩
    · simp [Pc.attempts, Published.attempts, h.attempts, Except.toBool]
    · rw [h.session]
      simp [Published.session]
    · rw [h.global]
      simp [Published.global]
  -- and then the global stream, where the attempt is complete
  | @postGlobal _ _ final handler =>
    obtain ⟨rfl, rfl⟩ := Prod.mk.inj (Option.some_inj.mp hc)
    obtain ⟨before, hbefore, rfl⟩ := hat
    refine ⟨before ++ [(final, .onBoth)], Tallied.advance hsys running rfl hlists ?_ ?_ ?_
      (few_append hbefore _) ?_⟩
    · simp [Pc.attempts, Published.attempts, h.attempts, Except.toBool]
    · rw [Keyspace.streams_publishGlobal, h.session]
      simp [Published.session]
    · rw [finals_publishGlobal, if_pos ⟨rfl, hfinal _ _ rfl⟩, h.global]
      simp [Published.global]
    · cases handler <;> trivial
  -- or the session stream only: then the handler publishes an error
  | @postGlobalFailed _ _ final handler =>
    obtain ⟨rfl, rfl⟩ := Prod.mk.inj (Option.some_inj.mp hc)
    obtain ⟨before, hbefore, rfl⟩ := hat
    refine ⟨before ++ [(final, .globalFailed)], Tallied.advance hsys running rfl hlists ?_ ?_ ?_
      (few_append hbefore _) (at_publishFailed hbefore (.inr rfl))⟩
    · simp [Pc.attempts, Published.attempts, h.attempts, Except.toBool]
    · rw [h.session]
      simp [Published.session]
    · rw [h.global]
      simp [Published.global]
  | save =>
    obtain ⟨rfl, rfl⟩ := Prod.mk.inj (Option.some_inj.mp hc)
    exact ⟨tries, Tallied.advance hsys running rfl hlists (by simp [Pc.attempts, h.attempts])
      h.session h.global h.few trivial⟩

theorem tallied_of_step (hsys : Custody sys) (hcomposed : Composed sys)
    (hown : ∀ v x, (v, x) ∈ sys.accepted → x.rid = req.rid → x = req)
    (h : Tallied req sys made tries) (hstep : SystemStep d sys a sys') :
    ∃ tries', Tallied req sys' (made ++ sys.attempts req.rid a) tries' := by
  cases hstep with
  | rejected => exact ⟨tries, by simpa only [System.attempts, List.append_nil] using h⟩
  | @chat rid body acc reply fresh =>
    refine ⟨tries, by simpa only [System.attempts, List.append_nil] using h.attempts, h.session,
      h.global, h.few, fun hfresh => h.fresh fun hold => hfresh ?_, fun v x hx hrid => ?_, h.held⟩
    · rw [System.push, List.map_append]
      exact List.mem_append_left _ hold
    · rw [System.push, Keyspace.lists_lpush_inbound] at hx
      split_ifs at hx
      · -- a fresh number was not used before, so nothing was tried for it
        rcases List.mem_cons.mp hx with rfl | hx
        · exact h.fresh (hrid ▸ fresh)
        · exact h.queued _ x hx hrid
      · exact h.queued v x hx hrid
  | @start t n absent =>
    refine ⟨tries, by simpa only [System.attempts, List.append_nil] using h.attempts, h.session,
      h.global, h.few, h.fresh, h.queued, fun v m qc x s hl hc hrid => ?_⟩
    rw [System.listeners_setListener] at hl
    split_ifs at hl
    · obtain rfl := Option.some_inj.mp hl
      simp [Pc.carries] at hc
    · exact h.held v m qc x s hl hc hrid
  | @stop t n pc running =>
    refine ⟨tries, by simpa only [System.attempts, List.append_nil] using h.attempts, h.session,
      h.global, h.few, h.fresh, h.queued, fun v m qc x s hl hc hrid => ?_⟩
    change (System.setListener ..).listeners _ _ = _ at hl
    rw [System.listeners_setListener] at hl
    split_ifs at hl
    exact h.held v m qc x s hl hc hrid
  | @listen t n act pc bus pc' running step =>
    simp only [System.attempts, running, Option.elim_some]
    by_cases hpc : ∃ x s, pc.carries = some (x, s) ∧ x.rid = req.rid
    · obtain ⟨x, s, hc, hrid⟩ := hpc
      obtain rfl := hown t x (hsys.traced.carried running hc).1 hrid
      refine h.carrying hsys (fun y f hf => ?_) running step hc
      obtain ⟨outcome, rfl⟩ := hcomposed t n pc y f running hf
      exact isFinal_finalPayload _ _
    · exact ⟨tries, h.idle running step fun x s hc hrid => hpc ⟨x, s, hc, hrid⟩⟩
  | subscribe | fetch | next =>
    exact ⟨tries, by simpa only [System.attempts, List.append_nil] using h.attempts, h.session,
      h.global, h.few, h.fresh, h.queued, h.held⟩

theorem tallied_init : Tallied req .init [] [] where
  attempts := rfl
  session := rfl
  global := rfl
  few := .inl rfl
  fresh _ := rfl
  queued _ _ _ _ := rfl
  held _ _ _ _ _ hl := by simp [System.init] at hl

/-- In every run the events for an accepted request add up. -/
theorem tallied_run {acts : List Action} (hrun : (machine d).run acts = some sys)
    (hacc : (v, req) ∈ sys.accepted) :
    ∃ tries, Tallied req sys (attempts d req.rid acts) tries := by
  have hsys := custody_run hrun
  -- the invariant needs that the number will turn out to be this request's
  have hall : Custody sys ∧ Composed sys ∧
      ((∀ v x, (v, x) ∈ sys.accepted → x.rid = req.rid → x = req) →
        ∃ tries, Tallied req sys ([] ++ attempts d req.rid acts) tries) := by
    refine Machine.observed_invariant' (M := machine d)
      (I := fun sys made => Custody sys ∧ Composed sys ∧
        ((∀ v x, (v, x) ∈ sys.accepted → x.rid = req.rid → x = req) →
          ∃ tries, Tallied req sys made tries)) ?_ ?_ hrun
    · intro u made a u' ⟨hu, hcomposed, htallied⟩ hstep
      have hstep := systemStep_of_step hstep
      refine ⟨hu.step hstep, hcomposed.step hstep, fun hown => ?_⟩
      have hown' : ∀ v x, (v, x) ∈ u.accepted → x.rid = req.rid → x = req :=
        fun v x hx => hown v x (hstep.accepted_mono hx)
      obtain ⟨tries, h⟩ := htallied hown'
      exact tallied_of_step hu hcomposed hown' h hstep
    · exact ⟨custody_init, composed_init, fun _ => ⟨[], tallied_init⟩⟩
  exact hall.2.2 fun v' x hx hrid => (hsys.eq_of_rid hx hacc hrid).2

end Tally

/-! ### The main result -/

/-- The result was written to the session stream but not to the global one, and the error that
the handler then published was written to the session stream. -/
def PublishedTwice (made : List (Target × Bool)) : Prop :=
  [(.session, true), (.global, false), (.session, true)] <+: made

instance (made : List (Target × Bool)) : Decidable (PublishedTwice made) :=
  inferInstanceAs (Decidable (_ <+: _))

/-- **One outcome.** In every run an accepted request has one outcome unless a result was
published whose global write failed, followed by an error whose session write succeeded. -/
theorem oneOutcome_iff {d : String} {acts : List Action} {sys : System}
    (hrun : (machine d).run acts = some sys) {v : String} {req : Request}
    (hacc : (v, req) ∈ sys.accepted) :
    OneOutcome sys req ↔ ¬PublishedTwice (attempts d req.rid acts) := by
  obtain ⟨tries, h⟩ := tallied_run hrun hacc
  exact h.outcomes_iff

/-- The turn of a request returns a result, which reaches the session stream and not the global
one; `reply` is how the write of the error to the session stream goes. -/
def globalWriteFails (reply : Except String Xadd) : List Action :=
  [.chat 0 ⟨"hi", none, some "alice", none⟩, .start "alice" 0, .listen "alice" 0 .take,
    .listen "alice" 0 (.finish (.response "hello" none .null)),
    .listen "alice" 0 (.post (.ok ⟨1, 0⟩)), .listen "alice" 0 (.postGlobal (.error "reset")),
    .listen "alice" 0 (.post reply)]

/-- When the error cannot be written either, the result stays the only outcome. -/
theorem oneOutcome_iff_bothFail :
    ∃ sys req, (machine "default").run (globalWriteFails (.error "reset")) = some sys ∧
      ("alice", req) ∈ sys.accepted ∧ OneOutcome sys req :=
  ⟨_, _, rfl, List.mem_singleton.mpr rfl,
    (oneOutcome_iff
      (show (machine "default").run (globalWriteFails (.error "reset")) = some _ from rfl)
      (List.mem_singleton.mpr rfl)).mpr (by decide)⟩

/-- **Two outcomes for one request**: the session stream has the result and then an error. -/
theorem two_outcomes : ¬∀ d acts sys v req, (machine d).run acts = some sys →
    (v, req) ∈ sys.accepted → OneOutcome sys req := by
  intro hone
  have h := hone "default" (globalWriteFails (.ok ⟨2, 0⟩)) _ "alice" _ rfl
    (List.mem_singleton.mpr rfl)
  exact absurd h.session (by decide)

end Nanogate.Bus
