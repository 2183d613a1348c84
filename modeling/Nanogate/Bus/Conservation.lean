import Nanogate.Bus.Provenance

/-!
# What becomes of an accepted request

`consume_request` takes a request off the list for good, and nothing but the
listener's memory holds it until the final event is on the session stream. So a
request is queued, held or answered, except for those a listener held when its
container went down: cancellation leaves the loop without publishing, and nothing
puts the request back.

## Main definitions

* `Kept` — a request is queued, held by a listener that exists, or answered
* `Action.redisOk` — the Redis calls of a step succeed

## Main results

* `ListenStep.unanswered_cases` — a step answers the request or leaves it in hand
* `kept_or_cut` — the conservation law over every run
* `request_lost_on_stop` — a stop in the middle of a turn loses the request
-/

namespace Nanogate.Bus

open Nanogate.Python Nanogate.Redis Nanogate.Semantics

/-- The Redis calls of the step succeed. -/
def Action.redisOk : Action → Bool
  | .listen _ _ (.progress _ _ reply) | .listen _ _ (.post reply)
  | .listen _ _ (.postGlobal reply) => reply.toBool
  | .listen .. | .chat .. | .start .. | .stop .. | .subscribe .. | .fetch _ | .next _ => true

/-- A final event for the request was written to its session's stream; a later `XADD` may have
trimmed it. -/
def Answered (sys : System) (req : Request) : Prop :=
  ∃ p ∈ (sys.bus.streams (streamKey (requestSession req.payload))).log,
    p.2.rid = req.rid ∧ isFinal p.2.data = true

/-- The request is still in the tenant's list, or in the hands of the listener of a container
that exists, or has had a final event on its session stream. -/
def Kept (sys : System) (tenantId : String) (req : Request) : Prop :=
  req ∈ sys.bus.lists (inboundKey tenantId) ∨
    (∃ n pc, sys.listeners tenantId n = some pc ∧ pc.unanswered = some req) ∨
    Answered sys req

/-! ### One step of a listener -/

namespace ListenStep

variable {t : String} {bus bus' : Keyspace} {pc pc' : Pc} {act : ListenerAct} {req : Request}

/-- A request in the queue stays there or is now in the listener's hands. -/
theorem queued_cases (h : ListenStep t bus pc act bus' pc')
    (hmessage : (requestMessage req.payload).truthy = true)
    (hreq : req ∈ bus.lists (inboundKey t)) :
    req ∈ bus'.lists (inboundKey t) ∨ pc'.unanswered = some req := by
  cases h with
  | @take req' rest queued =>
    rw [queued, List.mem_append, List.mem_singleton] at hreq
    rcases hreq with hrest | rfl
    · exact .inl (by rwa [Keyspace.lists_setList, if_pos rfl])
    · exact .inr (by rw [received, if_pos hmessage]; rfl)
  | progress | progressFailed | finish | post | postFailed | postGlobal | postGlobalFailed | save
  | wake => exact .inl hreq

/-- With Redis working, a request in hand stays in hand until its final event is written. -/
theorem unanswered_cases (h : ListenStep t bus pc act bus' pc') {n : ℕ}
    (hok : (Action.listen t n act).redisOk = true) (hpc : pc.unanswered = some req) :
    pc'.unanswered = some req ∨
      ∃ s final handler id, pc = .posting req s final handler ∧
        (id, ⟨req.rid, t, final⟩) ∈ (bus'.streams (streamKey s)).log := by
  cases h with
  | progress | progressFailed | finish => exact .inl hpc
  | @post req' s final handler c =>
    obtain rfl := Option.some_inj.mp hpc
    exact .inr ⟨s, final, handler, _, rfl,
      Keyspace.mem_log_publishSession.mpr (.inr ⟨rfl, rfl⟩)⟩
  | postFailed => simp [Action.redisOk, Except.toBool] at hok
  | take | postGlobal | postGlobalFailed | save | wake => simp [Pc.unanswered] at hpc

/-- A payload about to be published as final is final. -/
theorem isFinal_of_posting (h : ListenStep t bus pc act bus' pc') {s : String} {final : Json}
    {handler : Bool} (hpc : pc' = .posting req s final handler) : isFinal final = true := by
  cases h with
  | finish =>
    cases hpc
    exact isFinal_finalPayload _ _
  | @postFailed _ _ _ handler | @postGlobalFailed _ _ _ handler =>
    cases handler <;> cases hpc
    exact isFinal_finalPayload _ _
  | take => unfold received at hpc; split_ifs at hpc
  | postGlobal => split_ifs at hpc
  | progress | progressFailed | post | save | wake => cases hpc

end ListenStep

/-! ### The conservation law -/

/-- Every accepted request is kept or was cut off, with what the steps need for it. -/
structure Conserved (sys : System) : Prop where
  traced : Traced sys
  message : ∀ {v req}, (v, req) ∈ sys.accepted → (requestMessage req.payload).truthy = true
  final : ∀ {v n req s final handler}, sys.listeners v n = some (.posting req s final handler) →
    isFinal final = true
  kept : ∀ {v req}, (v, req) ∈ sys.accepted → Kept sys v req ∨ req ∈ sys.cut

theorem conserved_init : Conserved .init where
  traced := traced_init
  message h := by simp [System.init] at h
  final h := by simp [System.init] at h
  kept h := by simp [System.init] at h

section Step

variable {d t v : String} {n : ℕ} {sys sys' : System} {a : Action} {req : Request}

/-- What a step must not take away from a request that is kept. -/
theorem Kept.mono (h : Kept sys v req)
    (hqueue : req ∈ sys.bus.lists (inboundKey v) → req ∈ sys'.bus.lists (inboundKey v))
    (hheld : ∀ m pc, sys.listeners v m = some pc → pc.unanswered = some req →
      sys'.listeners v m = some pc)
    (hlog : ∀ p s, p ∈ (sys.bus.streams (streamKey s)).log →
      p ∈ (sys'.bus.streams (streamKey s)).log) : Kept sys' v req := by
  rcases h with hq | ⟨m, pc, hl, hpc⟩ | ⟨p, hp, hans⟩
  · exact .inl (hqueue hq)
  · exact .inr (.inl ⟨m, pc, hheld m pc hl hpc, hpc⟩)
  · exact .inr (.inr ⟨p, hlog p _ hp, hans⟩)

/-- An accepted request is queued, and the other ones stay where they are. -/
theorem Conserved.chat {rid : ℕ} {body : ChatRequest} {acc : Accepted} (hsys : Conserved sys)
    (htraced : Traced (sys.push acc.tenantId ⟨rid, acc.payload⟩))
    (reply : chat d body = .ok acc) : Conserved (sys.push acc.tenantId ⟨rid, acc.payload⟩) := by
  refine ⟨htraced, fun hmem => ?_, hsys.final, fun {v req} hmem => ?_⟩
  · rcases List.mem_append.mp hmem with hold | hnew
    · exact hsys.message hold
    · obtain ⟨rfl, rfl⟩ := Prod.mk.inj (List.mem_singleton.mp hnew)
      simp [getD_message_of_chat reply, Json.truthy, message_ne_empty_of_chat reply]
  · rcases List.mem_append.mp hmem with hold | hnew
    · refine (hsys.kept hold).imp_left fun hkept =>
        hkept.mono (fun hq => ?_) (fun _ _ hl _ => hl) fun _ _ hp => hp
      rw [System.push, Keyspace.lists_lpush_inbound]
      split_ifs with hv
      · exact List.mem_cons_of_mem _ (hv ▸ hq)
      · exact hq
    · obtain ⟨rfl, rfl⟩ := Prod.mk.inj (List.mem_singleton.mp hnew)
      refine .inl (.inl ?_)
      rw [System.push, Keyspace.lists_lpush_inbound, if_pos rfl]
      exact List.mem_cons_self ..

/-- A listener starts where there was none, so no request loses its listener. -/
theorem Conserved.start (hsys : Conserved sys)
    (htraced : Traced (sys.setListener t n (some .waiting)))
    (absent : sys.listeners t n = none) : Conserved (sys.setListener t n (some .waiting)) := by
  refine ⟨htraced, hsys.message, fun hl => ?_, fun {v req} hmem => ?_⟩
  · rw [System.listeners_setListener] at hl
    split_ifs at hl
    · cases hl
    · exact hsys.final hl
  · refine (hsys.kept hmem).imp_left fun hkept =>
      hkept.mono id (fun m pc hl _ => ?_) fun _ _ hp => hp
    rw [System.listeners_setListener, if_neg]
    · exact hl
    · rintro ⟨rfl, rfl⟩
      simp [absent] at hl

/-- A listener that goes down cuts off the request it holds, and no other one. -/
theorem Conserved.stop {pc : Pc} (hsys : Conserved sys)
    (htraced : Traced { sys.setListener t n none with cut := sys.cut ++ pc.unanswered.toList })
    (running : sys.listeners t n = some pc) :
    Conserved { sys.setListener t n none with cut := sys.cut ++ pc.unanswered.toList } := by
  refine ⟨htraced, hsys.message, fun hl => ?_, fun {v req} hmem => ?_⟩
  · change (System.setListener ..).listeners _ _ = _ at hl
    rw [System.listeners_setListener] at hl
    split_ifs at hl
    exact hsys.final hl
  · rcases hsys.kept hmem with hkept | hcut
    · by_cases hown : v = t ∧ pc.unanswered = some req
      · exact .inr (List.mem_append_right _ (by simp [hown.2]))
      · refine .inl (hkept.mono id (fun m qc hl hqc => ?_) fun _ _ hp => hp)
        change (System.setListener ..).listeners _ _ = _
        rw [System.listeners_setListener, if_neg]
        · exact hl
        · rintro ⟨rfl, rfl⟩
          obtain rfl := Option.some_inj.mp (running.symm.trans hl)
          exact hown ⟨rfl, hqc⟩
    · exact .inr (List.mem_append_left _ hcut)

/-- A listener takes a request from the queue into its hands, and answers the one it holds. -/
theorem Conserved.listen {act : ListenerAct} {pc pc' : Pc} {bus : Keyspace} (hsys : Conserved sys)
    (htraced : Traced { sys.setListener t n (some pc') with bus })
    (hok : (Action.listen t n act).redisOk = true) (running : sys.listeners t n = some pc)
    (step : ListenStep t sys.bus pc act bus pc') :
    Conserved { sys.setListener t n (some pc') with bus } := by
  refine ⟨htraced, hsys.message, fun hl => ?_, fun {v req} hmem => ?_⟩
  · change (System.setListener ..).listeners _ _ = _ at hl
    rw [System.listeners_setListener] at hl
    split_ifs at hl
    · exact step.isFinal_of_posting (Option.some_inj.mp hl)
    · exact hsys.final hl
  · have hself : (sys.setListener t n (some pc')).listeners t n = some pc' := by
      rw [System.listeners_setListener, if_pos ⟨rfl, rfl⟩]
    refine (hsys.kept hmem).imp_left ?_
    rintro (hq | ⟨m, qc, hl, hqc⟩ | ⟨p, hp, hans⟩)
    · by_cases hv : v = t
      · subst hv
        rcases step.queued_cases (hsys.message hmem) hq with hq' | hheld
        · exact .inl hq'
        · exact .inr (.inl ⟨n, pc', hself, hheld⟩)
      · exact .inl ((step.lists_of_ne hv).symm ▸ hq)
    · by_cases hvm : v = t ∧ m = n
      · obtain ⟨rfl, rfl⟩ := hvm
        obtain rfl := Option.some_inj.mp (running.symm.trans hl)
        rcases step.unanswered_cases hok hqc with hheld | ⟨s, final, handler, id, rfl, hp⟩
        · exact .inr (.inl ⟨m, pc', hself, hheld⟩)
        · obtain ⟨-, rfl⟩ := hsys.traced.carried running rfl
          exact .inr (.inr ⟨_, hp, rfl, hsys.final running⟩)
      · -- another listener keeps the request it holds
        refine .inr (.inl ⟨m, qc, ?_, hqc⟩)
        change (System.setListener ..).listeners _ _ = _
        rw [System.listeners_setListener, if_neg hvm]
        exact hl
    · exact .inr (.inr ⟨p, step.log_mono hp, hans⟩)

/-- **Step lemma.** -/
theorem Conserved.step (hsys : Conserved sys) (hok : a.redisOk = true)
    (h : SystemStep d sys a sys') : Conserved sys' := by
  have htraced := hsys.traced.step h
  cases h with
  | rejected => exact hsys
  | chat reply => exact hsys.chat htraced reply
  | start absent => exact hsys.start htraced absent
  | stop running => exact hsys.stop htraced running
  | listen running step => exact hsys.listen htraced hok running step
  | subscribe | fetch | next => exact ⟨htraced, hsys.message, hsys.final, hsys.kept⟩

end Step

/-- **Conservation.** With Redis working, in every reachable state every accepted request is
queued, or held by the listener of a container that exists, or answered on its session
stream, or was held unanswered by a listener when its container went down. -/
theorem kept_or_cut {d : String} {acts : List Action} {sys : System}
    (hok : ∀ a ∈ acts, a.redisOk = true) (hrun : (machine d).run acts = some sys)
    {v : String} {req : Request} (hacc : (v, req) ∈ sys.accepted) :
    Kept sys v req ∨ req ∈ sys.cut := by
  have hsys : Conserved sys :=
    Machine.run_invariant (G := fun _ a => a.redisOk = true)
      (fun h hok hstep => h.step hok (systemStep_of_step hstep)) conserved_init
      (.of_labels hok) hrun
  exact hsys.kept hacc

/-- A request is taken, and the container goes down during the turn. -/
def stoppedMidTurn : List Action :=
  [.chat 0 ⟨"hi", none, some "alice", none⟩, .start "alice" 0, .listen "alice" 0 .take,
    .stop "alice" 0]

/-- What `POST /chat` stores for the request above. -/
def hiFromAlice : Request :=
  ⟨0, .obj [("message", .str "hi"), ("tenantId", .str "alice"), ("sessionId", .str "api:direct"),
    ("session_id", .str "api:direct")]⟩

theorem kept_or_cut_stoppedMidTurn :
    ∃ sys, (machine "default").run stoppedMidTurn = some sys ∧
      ("alice", hiFromAlice) ∈ sys.accepted ∧
      (Kept sys "alice" hiFromAlice ∨ hiFromAlice ∈ sys.cut) :=
  ⟨_, rfl, by decide, @kept_or_cut "default" stoppedMidTurn _ (by decide) rfl _ _ (by decide)⟩

/-- Where that run leads: the queue and the stream are empty and no listener is left. -/
theorem run_stoppedMidTurn :
    ∃ sys, (machine "default").run stoppedMidTurn = some sys ∧
      ("alice", hiFromAlice) ∈ sys.accepted ∧ sys.bus.lists (inboundKey "alice") = [] ∧
      (∀ n, sys.listeners "alice" n = none) ∧
      (sys.bus.streams (streamKey (requestSession hiFromAlice.payload))).log = [] := by
  refine ⟨_, rfl, by decide, by decide, fun n => ?_, by decide⟩
  rcases n with _ | n <;> rfl

/-- Without the last alternative the law fails: nothing is left of a request whose container
goes down in the middle of its turn. -/
theorem request_lost_on_stop :
    ¬ ∀ d acts sys, (∀ a ∈ acts, a.redisOk = true) → (machine d).run acts = some sys →
      ∀ v req, (v, req) ∈ sys.accepted → Kept sys v req := by
  intro hlaw
  obtain ⟨sys, hrun, hacc, hlists, hlisteners, hlog⟩ := run_stoppedMidTurn
  rcases hlaw "default" stoppedMidTurn sys (by decide) hrun "alice" hiFromAlice hacc with
    hqueued | ⟨n, pc, hl, -⟩ | ⟨p, hp, -⟩
  · simp [hlists] at hqueued
  · simp [hlisteners] at hl
  · simp [hlog] at hp

end Nanogate.Bus
