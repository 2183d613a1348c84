import Nanogate.Bus.Conservation
import Nanogate.Bus.Isolation

/-!
# A session's stream, turn by turn

`LPUSH` and `BRPOP` make the inbound list first in, first out, and a listener is done with one
request before it takes the next. So when a single listener serves a tenant, the stream of one
of the tenant's sessions is a sequence of complete turns, one for each of the session's requests
in the order they were pushed, and then what has been written of the turn in hand.

## Main definitions

* `IsProgress`, `IsAnswer`, `CompleteTurn` — the events that are written for a request
* `pushed`, `inHand`, `inQueue` — the requests for a session, and where they wait
* `Action.byOneListener` — the steps of a tenant that is served by one container
* `Served` — how requests and stream go together

## Main results

* `ListenStep.serves` — what a step of a listener means for the requests of its tenant
* `Served.step` — requests and stream stay together, whoever takes the step
-/

namespace Nanogate.Bus

open Nanogate.Python Nanogate.Redis Nanogate.Semantics

/-! ### Requests and their events -/

/-- The request is for the session. -/
def Request.isFor (s : String) (req : Request) : Bool := requestSession req.payload = s

/-- A progress event for the request, written by the tenant's listener. -/
structure IsProgress (tenantId : String) (req : Request) (p : ℕ × Event) : Prop where
  rid : p.2.rid = req.rid
  tenantId : p.2.tenantId = tenantId
  data : ∃ content hint, p.2.data = progressPayload content hint

/-- The `done` or `error` event for the request, written by the tenant's listener. -/
structure IsAnswer (tenantId : String) (req : Request) (p : ℕ × Event) : Prop where
  rid : p.2.rid = req.rid
  tenantId : p.2.tenantId = tenantId
  data : ∃ outcome, p.2.data = finalPayload req.payload outcome

/-- All events for a request: its progress events, and then the answer. -/
def CompleteTurn (tenantId : String) (req : Request) (events : List (ℕ × Event)) : Prop :=
  ∃ progress answer, events = progress ++ [answer] ∧
    (∀ p ∈ progress, IsProgress tenantId req p) ∧ IsAnswer tenantId req answer

/-- The requests for the session that were accepted, in the order they were pushed. -/
def pushed (s : String) (sys : System) : List Request :=
  (sys.accepted.map Prod.snd).filter (Request.isFor s)

/-- The request for the session that a listener has taken and not answered. -/
def inHand (s : String) (pc : Option Pc) : List Request :=
  (pc.bind Pc.unanswered).toList.filter (Request.isFor s)

/-- The requests for the session in an inbound list, the oldest first. -/
def inQueue (s : String) (l : List Request) : List Request := l.reverse.filter (Request.isFor s)

/-- The tenant's containers are `n` and no other, and `n` is not stopped. -/
def Action.byOneListener (t : String) (n : ℕ) : Action → Bool
  | .start v m => v ≠ t || m = n
  | .stop v _ => v ≠ t
  | .chat .. | .listen .. | .subscribe .. | .fetch _ | .next _ => true

/-! ### What a listener's step means for its requests -/

/-- A step that does nothing to requests and session streams, takes a request, or writes a
progress event or the answer for the request in hand. -/
inductive Serves (t : String) (bus : Keyspace) (pc : Pc) (bus' : Keyspace) (pc' : Pc) : Prop where
  | idle (hand : pc'.unanswered = pc.unanswered)
      (queue : bus'.lists (inboundKey t) = bus.lists (inboundKey t))
      (logs : ∀ s, (bus'.streams (streamKey s)).log = (bus.streams (streamKey s)).log)
  | take (req : Request) (free : pc.unanswered = none) (hand : pc'.unanswered = some req)
      (queue : bus.lists (inboundKey t) = bus'.lists (inboundKey t) ++ [req])
      (logs : ∀ s, (bus'.streams (streamKey s)).log = (bus.streams (streamKey s)).log)
  | progress (req : Request) (p : ℕ × Event) (hand : pc.unanswered = some req)
      (hand' : pc'.unanswered = some req) (event : IsProgress t req p)
      (queue : bus'.lists (inboundKey t) = bus.lists (inboundKey t))
      (logs : ∀ s, (bus'.streams (streamKey s)).log =
        (bus.streams (streamKey s)).log ++ if req.isFor s then [p] else [])
  | answer (req : Request) (p : ℕ × Event) (hand : pc.unanswered = some req)
      (done : pc'.unanswered = none) (event : IsAnswer t req p)
      (queue : bus'.lists (inboundKey t) = bus.lists (inboundKey t))
      (logs : ∀ s, (bus'.streams (streamKey s)).log =
        (bus.streams (streamKey s)).log ++ if req.isFor s then [p] else [])

theorem log_publishSession {bus : Keyspace} {c : Xadd} {e : Event} {req : Request} (s : String) :
    ((bus.publishSession (requestSession req.payload) c e).streams (streamKey s)).log =
      (bus.streams (streamKey s)).log ++
        if req.isFor s then
          [((bus.streams (streamKey (requestSession req.payload))).nextId c.now, e)]
        else [] := by
  rw [Keyspace.streams_publishSession]
  by_cases hs : s = requestSession req.payload
  · rw [if_pos hs, Stream.log_xadd, hs, if_pos (by simp [Request.isFor])]
  · rw [if_neg hs, if_neg, List.append_nil]
    simpa [Request.isFor] using fun h => hs h.symm

theorem ListenStep.serves {t : String} {n : ℕ} {bus bus' : Keyspace} {pc pc' : Pc}
    {act : ListenerAct} (h : ListenStep t bus pc act bus' pc')
    (hok : (Action.listen t n act).redisOk = true)
    (hsession : ∀ req s, pc.carries = some (req, s) → s = requestSession req.payload)
    (hcomposed : ∀ req final, pc.publishes = some (req, final) →
      ∃ outcome, final = finalPayload req.payload outcome)
    (hmessage : ∀ req ∈ bus.lists (inboundKey t), (requestMessage req.payload).truthy = true) :
    Serves t bus pc bus' pc' := by
  cases h with
  | @take req rest queued =>
    have hlast : req ∈ bus.lists (inboundKey t) := by
      rw [queued]
      exact List.mem_append_right _ (List.mem_singleton.mpr rfl)
    refine .take req rfl ?_ ?_ fun _ => rfl
    · rw [received, if_pos (hmessage req hlast)]
      rfl
    · rw [queued, Keyspace.lists_setList, if_pos rfl]
  | @progress req s content hint c =>
    obtain rfl := hsession req s rfl
    exact .progress req _ rfl rfl ⟨rfl, rfl, content, hint, rfl⟩ rfl log_publishSession
  | @post req s final handler c =>
    obtain rfl := hsession req s rfl
    exact .answer req _ rfl rfl ⟨rfl, rfl, hcomposed req final rfl⟩ rfl log_publishSession
  | @postGlobal req s final handler c =>
    refine .idle ?_ rfl fun s => by rw [Keyspace.streams_publishGlobal]
    cases handler <;> rfl
  | progressFailed | postFailed | postGlobalFailed => simp [Action.redisOk, Except.toBool] at hok
  | finish | save | wake => exact .idle rfl rfl fun _ => rfl

/-! ### The invariant -/

/-- The stream of the session is the complete turns of its first requests, in the order they were
pushed, followed by what has been written for the request in hand; the other requests are queued
behind it. -/
structure Served (t s : String) (n : ℕ) (sys : System)
    (turns : List (Request × List (ℕ × Event))) (begun : List (ℕ × Event)) : Prop where
  own : ∀ {v req}, (v, req) ∈ sys.accepted → req.isFor s = true → v = t
  single : ∀ {m}, m ≠ n → sys.listeners t m = none
  requests : pushed s sys = turns.map Prod.fst ++ inHand s (sys.listeners t n) ++
    inQueue s (sys.bus.lists (inboundKey t))
  log : (sys.bus.streams (streamKey s)).log = (turns.map Prod.snd).flatten ++ begun
  complete : ∀ x ∈ turns, CompleteTurn t x.1 x.2
  begun : ∀ p ∈ begun, ∃ req ∈ inHand s (sys.listeners t n), IsProgress t req p

section Served

variable {d t s v : String} {n : ℕ} {sys sys' : System} {a : Action} {bus : Keyspace} {pc pc' : Pc}
  {turns : List (Request × List (ℕ × Event))} {begun : List (ℕ × Event)} {req : Request}

theorem inHand_of_none (h : pc.unanswered = none) : inHand s (some pc) = [] := by
  simp [inHand, h]

theorem inHand_of_some (h : pc.unanswered = some req) :
    inHand s (some pc) = if req.isFor s then [req] else [] := by
  simp [inHand, h, List.filter_cons]

theorem inQueue_concat {l : List Request} :
    inQueue s (l ++ [req]) = (if req.isFor s then [req] else []) ++ inQueue s l := by
  simp only [inQueue, List.reverse_append, List.reverse_singleton, List.filter_append,
    List.filter_cons, List.filter_nil]

theorem inQueue_cons {l : List Request} :
    inQueue s (req :: l) = inQueue s l ++ if req.isFor s then [req] else [] := by
  simp only [inQueue, List.reverse_cons, List.filter_append, List.filter_cons, List.filter_nil]

theorem pushed_push : pushed s (sys.push t req) =
    pushed s sys ++ if req.isFor s then [req] else [] := by
  simp only [pushed, System.push, List.map_append, List.map_singleton, List.filter_append,
    List.filter_cons, List.filter_nil]

theorem served_init : Served t s n .init [] [] where
  own h := by simp [System.init] at h
  single _ := rfl
  requests := rfl
  log := rfl
  complete _ h := by simp at h
  begun _ h := by simp at h

/-- With nothing in hand, nothing of a further turn has been written. -/
theorem Served.begun_eq_nil (h : Served t s n sys turns begun)
    (hhand : inHand s (sys.listeners t n) = []) : begun = [] := by
  refine List.eq_nil_iff_forall_not_mem.mpr fun p hp => ?_
  obtain ⟨req, hreq, -⟩ := h.begun p hp
  simp [hhand] at hreq

/-- The tenant's listener takes a step that keeps the requests and the stream together. -/
theorem Served.listen_own {turns' : List (Request × List (ℕ × Event))}
    {begun' : List (ℕ × Event)} (h : Served t s n sys turns begun)
    (hrequests : pushed s sys = turns'.map Prod.fst ++ inHand s (some pc') ++
      inQueue s (bus.lists (inboundKey t)))
    (hlog : (bus.streams (streamKey s)).log = (turns'.map Prod.snd).flatten ++ begun')
    (hcomplete : ∀ x ∈ turns', CompleteTurn t x.1 x.2)
    (hbegun : ∀ p ∈ begun', ∃ req ∈ inHand s (some pc'), IsProgress t req p) :
    Served t s n { sys.setListener t n (some pc') with bus } turns' begun' := by
  have hself : (sys.setListener t n (some pc')).listeners t n = some pc' := by
    rw [System.listeners_setListener, if_pos ⟨rfl, rfl⟩]
  refine ⟨h.own, fun {m} hm => ?_, ?_, hlog, hcomplete, ?_⟩
  · change (System.setListener ..).listeners _ _ = _
    rw [System.listeners_setListener, if_neg fun heq => hm heq.2]
    exact h.single hm
  · change pushed s sys = _ ++ inHand s ((System.setListener ..).listeners _ _) ++ _
    rw [hself]
    exact hrequests
  · change ∀ p ∈ _, ∃ req ∈ inHand s ((System.setListener ..).listeners _ _), _
    rw [hself]
    exact hbegun

theorem Served.serve (h : Served t s n sys turns begun) (running : sys.listeners t n = some pc)
    (hstep : Serves t sys.bus pc bus pc') :
    ∃ turns' begun', Served t s n { sys.setListener t n (some pc') with bus } turns' begun' := by
  have hrequests := h.requests
  have hbegun := h.begun
  rw [running] at hrequests hbegun
  cases hstep with
  | idle hand queue logs =>
    have hsame : inHand s (some pc') = inHand s (some pc) := by
      simp only [inHand, Option.bind, hand]
    refine ⟨turns, begun, h.listen_own ?_ ((logs s).trans h.log) h.complete ?_⟩
    · rw [hsame, queue, hrequests]
    · rw [hsame]
      exact hbegun
  | take req free hand queue logs =>
    -- the oldest request moves from the queue into the listener's hands
    have hnothing : begun = [] := h.begun_eq_nil (by rw [running, inHand_of_none free])
    refine ⟨turns, begun, h.listen_own ?_ ((logs s).trans h.log) h.complete ?_⟩
    · rw [hrequests, inHand_of_none free, inHand_of_some hand, queue, inQueue_concat,
        List.append_nil, List.append_assoc]
    · simp [hnothing]
  | progress req p hand hand' event queue logs =>
    rw [inHand_of_some hand] at hrequests hbegun
    refine ⟨turns, begun ++ if req.isFor s then [p] else [], h.listen_own ?_ ?_ h.complete ?_⟩
    · rw [hrequests, inHand_of_some hand', queue]
    · rw [logs s, h.log, List.append_assoc]
    · intro q hq
      rw [inHand_of_some hand']
      rcases List.mem_append.mp hq with hold | hnew
      · exact hbegun q hold
      · split_ifs at hnew ⊢
        · obtain rfl := List.mem_singleton.mp hnew
          exact ⟨req, List.mem_singleton.mpr rfl, event⟩
        · simp at hnew
  | answer req p hand done event queue logs =>
    rw [inHand_of_some hand] at hrequests hbegun
    by_cases hfor : req.isFor s = true
    · -- the turn is complete, and the stream goes on with the next one
      rw [if_pos hfor] at hrequests hbegun
      refine ⟨turns ++ [(req, begun ++ [p])], [], h.listen_own ?_ ?_ ?_ (by simp)⟩
      · rw [hrequests, inHand_of_none done, queue, List.map_append, List.map_singleton,
          List.append_nil]
      · rw [logs s, h.log, if_pos hfor, List.map_append, List.flatten_append, List.map_singleton,
          List.flatten_singleton, List.append_nil, List.append_assoc]
      · intro x hx
        rcases List.mem_append.mp hx with hold | hnew
        · exact h.complete x hold
        · obtain rfl := List.mem_singleton.mp hnew
          refine ⟨begun, p, rfl, fun q hq => ?_, event⟩
          obtain ⟨req', hreq', hprogress⟩ := hbegun q hq
          obtain rfl := List.mem_singleton.mp hreq'
          exact hprogress
    · rw [if_neg hfor] at hrequests hbegun
      refine ⟨turns, begun, h.listen_own ?_ ?_ h.complete ?_⟩
      · rw [hrequests, inHand_of_none done, queue]
      · rw [logs s, h.log, if_neg hfor, List.append_nil]
      · rw [inHand_of_none done]
        exact hbegun

/-- A step that does not touch the tenant's requests, its listener and the session's stream. -/
theorem Served.of_elsewhere (h : Served t s n sys turns begun)
    (haccepted : sys'.accepted = sys.accepted)
    (hlisteners : ∀ k, sys'.listeners t k = sys.listeners t k)
    (hqueue : sys'.bus.lists (inboundKey t) = sys.bus.lists (inboundKey t))
    (hstream : sys'.bus.streams (streamKey s) = sys.bus.streams (streamKey s)) :
    Served t s n sys' turns begun where
  own hmem := h.own (haccepted ▸ hmem)
  single hm := (hlisteners _).trans (h.single hm)
  requests := by
    have hpushed : pushed s sys' = pushed s sys := by simp only [pushed, haccepted]
    rw [hpushed, hlisteners, hqueue]
    exact h.requests
  log := by
    rw [hstream]
    exact h.log
  complete := h.complete
  begun := by
    rw [hlisteners]
    exact h.begun

/-- A request is accepted: for the session it is the tenant's, and then it is queued last. -/
theorem Served.chat {rid : ℕ} {body : ChatRequest} {acc : Accepted}
    (h : Served t s n sys turns begun) (reply : chat d body = .ok acc)
    (hoff : (Action.chat rid body).keepsOff d (fun v => v ≠ t) s = true) :
    Served t s n (sys.push acc.tenantId ⟨rid, acc.payload⟩) turns begun := by
  have hfor : (Request.mk rid acc.payload).isFor s = decide (acc.sessionId = s) := by
    simp only [Request.isFor, requestSession_of_chat reply]
  refine ⟨fun {v req} hmem hreq => ?_, h.single, ?_, h.log, h.complete, h.begun⟩
  · rcases List.mem_append.mp hmem with hold | hnew
    · exact h.own hold hreq
    · obtain ⟨rfl, rfl⟩ := Prod.mk.inj (List.mem_singleton.mp hnew)
      rw [hfor, decide_eq_true_eq] at hreq
      simpa [Action.keepsOff, reply, hreq] using hoff
  · rw [pushed_push, h.requests]
    change _ = _ ++ inHand s (sys.listeners t n) ++ inQueue s _
    rw [System.push, Keyspace.lists_lpush_inbound]
    by_cases ht : t = acc.tenantId
    · rw [if_pos ht, inQueue_cons, ← ht, List.append_assoc (_ ++ _)]
    · -- another tenant's request is for another session
      have hne : acc.sessionId ≠ s := by
        simpa [Action.keepsOff, reply, Ne.symm ht] using hoff
      rw [if_neg ht, hfor, decide_eq_false hne]
      simp

/-- A listener starts with nothing in hand. -/
theorem Served.start {m : ℕ} (h : Served t s n sys turns begun)
    (absent : sys.listeners v m = none)
    (hone : (Action.start v m).byOneListener t n = true) :
    Served t s n (sys.setListener v m (some .waiting)) turns begun := by
  refine ⟨h.own, fun {k} hk => ?_, ?_, h.log, h.complete, ?_⟩
  · rw [System.listeners_setListener, if_neg, h.single hk]
    rintro ⟨rfl, rfl⟩
    simp [Action.byOneListener, hk] at hone
  all_goals
    rw [System.listeners_setListener]
    split_ifs with hvm
  · obtain ⟨rfl, rfl⟩ := hvm
    have hrequests := h.requests
    rw [absent] at hrequests
    exact hrequests
  · exact h.requests
  · obtain ⟨rfl, rfl⟩ := hvm
    have hbegun := h.begun
    rw [absent] at hbegun
    exact hbegun
  · exact h.begun

theorem Served.eq_of_running {m : ℕ} (h : Served t s n sys turns begun)
    (running : sys.listeners t m = some pc) : m = n := by
  by_contra hm
  simp [h.single hm] at running

/-- Another tenant's listener has no request for the session, so it does not write to its
stream. -/
theorem Served.streams_of_ne {m : ℕ} {act : ListenerAct} (h : Served t s n sys turns begun)
    (hsys : Traced sys) (hv : v ≠ t) (running : sys.listeners v m = some pc)
    (step : ListenStep v sys.bus pc act bus pc') :
    bus.streams (streamKey s) = sys.bus.streams (streamKey s) := by
  refine step.streams_of_carries_ne fun req hc => hv ?_
  obtain ⟨hacc, hs⟩ := hsys.carried running hc
  exact h.own hacc (by simp [Request.isFor, hs])

/-- **Step lemma.** -/
theorem Served.step (h : Served t s n sys turns begun) (hsys : Conserved sys)
    (hcomposed : Composed sys) (hok : a.redisOk = true)
    (hoff : a.keepsOff d (fun v => v ≠ t) s = true) (hone : a.byOneListener t n = true)
    (hstep : SystemStep d sys a sys') : ∃ turns' begun', Served t s n sys' turns' begun' := by
  cases hstep with
  | rejected => exact ⟨turns, begun, h⟩
  | chat reply => exact ⟨turns, begun, h.chat reply hoff⟩
  | start absent => exact ⟨turns, begun, h.start absent hone⟩
  | @stop v m pc running =>
    -- the tenant's own container is not stopped
    have hne : t ≠ v := Ne.symm (of_decide_eq_true hone)
    refine ⟨turns, begun, h.of_elsewhere rfl (fun k => ?_) rfl rfl⟩
    change (System.setListener ..).listeners _ _ = _
    rw [System.listeners_setListener, if_neg fun heq => hne heq.1]
  | @listen v m act pc bus pc' running step =>
    by_cases hv : v = t
    · subst hv
      obtain rfl := h.eq_of_running running
      refine h.serve running (step.serves hok (fun req r hc => ?_) (fun req final hf => ?_) ?_)
      · exact (hsys.traced.carried running hc).2
      · exact hcomposed _ _ _ _ _ running hf
      · exact fun req hreq => hsys.message (hsys.traced.queued hreq)
    · have hstream := h.streams_of_ne hsys.traced hv running step
      have hlist := step.lists_of_ne (Ne.symm hv)
      refine ⟨turns, begun, h.of_elsewhere rfl (fun k => ?_) hlist hstream⟩
      change (System.setListener ..).listeners _ _ = _
      rw [System.listeners_setListener, if_neg fun heq => hv heq.1.symm]
  | subscribe | fetch | next => exact ⟨turns, begun, h.of_elsewhere rfl (fun _ => rfl) rfl rfl⟩

end Served

end Nanogate.Bus
