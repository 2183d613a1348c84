import Nanogate.Bus.System

/-!
# Where requests and events come from

Along every run of the bus, whatever is queued, in the hands of a listener or on a
session stream goes back to an accepted request of the tenant it is filed under:
inbound keys determine the tenant, and a listener writes only to the stream of the
request it carries. Readers never hold anything their stream did not contain.

## Main definitions

* `Pc.carries` — the request a listener carries and the session it computed
* `Pc.publishes`, `Pc.produces`, `outcomeOf` — the final payload it is publishing, and the outcome
  that such a payload is made of
* `Traced` — everything in the system goes back to an accepted request

## Main results

* `ListenStep.lists_subset`, `ListenStep.carries_cases`, `ListenStep.log_cases`,
  `ListenStep.global_cases` — what a listener step can do to queues, to its own request and to
  the streams
* `SystemStep.publishes_cases` — a final payload is made of an outcome of the request
* `traced_run` — `Traced` holds in every reachable state
-/

namespace Nanogate.Bus

open Nanogate.Python Nanogate.Redis Nanogate.Semantics

/-- The request a listener carries, with its session. -/
def Pc.carries : Pc → Option (Request × String)
  | .turn req s | .posting req s _ _ | .postingGlobal req s _ _ | .saving req s => some (req, s)
  | .waiting | .sleeping => none

/-- The final payload a listener is publishing, with its request. -/
def Pc.publishes : Pc → Option (Request × Json)
  | .posting req _ final _ | .postingGlobal req _ final _ => some (req, final)
  | .waiting | .turn .. | .saving .. | .sleeping => none

/-- The outcome of a request that a step brings about: that of the turn, or the exception that
keeps a result from being published. -/
def Pc.produces : Pc → ListenerAct → Option (Request × Outcome)
  | .turn req _, .finish outcome => some (req, outcome)
  | .posting req _ _ false, .post (.error e) => some (req, .raised e)
  | .postingGlobal req _ _ false, .postGlobal (.error e) => some (req, .raised e)
  | _, _ => none

/-! ### Keys after an update -/

namespace Keyspace

variable {bus : Keyspace} {t v s r : String} {c : Xadd} {e : Event} {id : ℕ} {x : Request}

theorem lists_lpush_inbound :
    (bus.lpush (inboundKey t) x).lists (inboundKey v) =
      if v = t then x :: bus.lists (inboundKey t) else bus.lists (inboundKey v) := by
  simp only [lpush, lists_setList, inboundKey_inj]

theorem streams_publishSession :
    (bus.publishSession s c e).streams (streamKey r) =
      if r = s then (bus.streams (streamKey s)).xadd 1000 c e else bus.streams (streamKey r) := by
  simp only [publishSession, streams_xadd, Function.update_apply, streamKey_inj]

@[simp] theorem streams_publishGlobal :
    (bus.publishGlobal s c e).streams (streamKey r) = bus.streams (streamKey r) := by
  simp [publishGlobal, streams_xadd, streamKey_ne_global]

@[simp] theorem streams_publishSession_global :
    (bus.publishSession s c e).streams globalOutboundStream = bus.streams globalOutboundStream := by
  rw [publishSession, streams_xadd, Function.update_of_ne (streamKey_ne_global s).symm]

@[simp] theorem log_publishGlobal : ((bus.publishGlobal s c e).streams globalOutboundStream).log =
    (bus.streams globalOutboundStream).log ++
      [((bus.streams globalOutboundStream).nextId c.now,
        { e with data := e.data.set "_session_id" (.str s) })] := by
  rw [publishGlobal, streams_xadd, Function.update_self, Stream.log_xadd]

@[simp] theorem lists_publishSession : (bus.publishSession s c e).lists = bus.lists := rfl

@[simp] theorem lists_publishGlobal : (bus.publishGlobal s c e).lists = bus.lists := rfl

theorem mem_log_publishSession {p : ℕ × Event} :
    p ∈ ((bus.publishSession s c e).streams (streamKey r)).log ↔
      p ∈ (bus.streams (streamKey r)).log ∨
        r = s ∧ p = ((bus.streams (streamKey s)).nextId c.now, e) := by
  rw [streams_publishSession]
  split_ifs with h
  · subst h
    simp
  · simp [h]

end Keyspace

/-! ### One step of a listener -/

namespace ListenStep

variable {t v : String} {bus bus' : Keyspace} {pc pc' : Pc} {act : ListenerAct}

/-- A listener only ever removes requests, and only from its own tenant's list. -/
theorem lists_subset (h : ListenStep t bus pc act bus' pc') {key : String} {req : Request}
    (hreq : req ∈ bus'.lists key) : req ∈ bus.lists key := by
  cases h with
  | @take req' rest queued =>
    rw [Keyspace.lists_setList] at hreq
    split_ifs at hreq with hkey
    · rw [hkey, queued]
      exact List.mem_append_left _ hreq
    · exact hreq
  | progress | progressFailed | finish | post | postFailed | postGlobal | postGlobalFailed | save
  | wake => exact hreq

theorem lists_of_ne (h : ListenStep t bus pc act bus' pc') (hv : v ≠ t) :
    bus'.lists (inboundKey v) = bus.lists (inboundKey v) := by
  cases h with
  | take => rw [Keyspace.lists_setList, if_neg fun hk => hv (inboundKey_inj.mp hk)]
  | progress | progressFailed | finish | post | postFailed | postGlobal | postGlobalFailed | save
  | wake => rfl

/-- A listener carries what it carried before, or a request it has just taken. -/
theorem carries_cases (h : ListenStep t bus pc act bus' pc') {req : Request} {s : String}
    (hc : pc'.carries = some (req, s)) :
    pc.carries = some (req, s) ∨
      req ∈ bus.lists (inboundKey t) ∧ s = requestSession req.payload := by
  cases h with
  | @take req' rest queued =>
    unfold received at hc
    split_ifs at hc
    · obtain ⟨rfl, rfl⟩ := Prod.mk.inj (Option.some_inj.mp hc)
      exact .inr ⟨by rw [queued]; simp, rfl⟩
    · exact absurd hc (by simp [Pc.carries])
  | @postFailed _ _ _ handler | @postGlobalFailed _ _ _ handler =>
    cases handler
    · exact .inl hc
    · exact absurd hc (by simp [publishFailed, Pc.carries])
  | @postGlobal _ _ _ handler =>
    cases handler
    · exact .inl hc
    · exact absurd hc (by simp [Pc.carries])
  | progress | progressFailed | finish | post => exact .inl hc
  | save | wake => exact absurd hc (by simp [Pc.carries])

/-- Everything a listener adds to a session stream is for the request it carries. -/
theorem log_cases (h : ListenStep t bus pc act bus' pc') {s : String} {p : ℕ × Event}
    (hp : p ∈ (bus'.streams (streamKey s)).log) :
    p ∈ (bus.streams (streamKey s)).log ∨
      ∃ req, pc.carries = some (req, s) ∧ p.2.rid = req.rid ∧ p.2.tenantId = t := by
  cases h with
  | progress | post =>
    rcases Keyspace.mem_log_publishSession.mp hp with hold | ⟨rfl, rfl⟩
    · exact .inl hold
    · exact .inr ⟨_, rfl, rfl, rfl⟩
  | postGlobal => exact .inl (by simpa using hp)
  | take | progressFailed | finish | postFailed | postGlobalFailed | save | wake => exact .inl hp

/-- A session stream changes only at the hands of a listener that carries a request for
that session. -/
theorem streams_of_carries_ne (h : ListenStep t bus pc act bus' pc') {s : String}
    (hs : ∀ req, pc.carries ≠ some (req, s)) :
    bus'.streams (streamKey s) = bus.streams (streamKey s) := by
  cases h with
  | @progress req r | @post req r =>
    have hne : s ≠ r := fun h => hs req (by rw [h]; rfl)
    rw [Keyspace.streams_publishSession, if_neg hne]
  | postGlobal => exact Keyspace.streams_publishGlobal
  | take | progressFailed | finish | postFailed | postGlobalFailed | save | wake => rfl

/-- A step depends on Redis only through the tenant's own list, and what it does to a
session stream only on that stream. -/
theorem exists_listen (h : ListenStep t bus pc act bus' pc') {other : Keyspace}
    (hlist : bus.lists (inboundKey t) = other.lists (inboundKey t)) :
    ∃ other', listen t other pc act = some (other', pc') ∧
      other'.lists (inboundKey t) = bus'.lists (inboundKey t) ∧
      ∀ s, bus.streams (streamKey s) = other.streams (streamKey s) →
        bus'.streams (streamKey s) = other'.streams (streamKey s) := by
  cases h with
  | @take req rest queued =>
    refine ⟨other.setList (inboundKey t) rest, ?_, ?_, fun s hs => hs⟩
    · have hpop := (Keyspace.brpop_eq_some other).mpr ⟨rest, hlist ▸ queued, rfl⟩
      simp only [listen, hpop]
    · rw [Keyspace.lists_setList, Keyspace.lists_setList, if_pos rfl, if_pos rfl]
  | @progress _ r | @post _ r =>
    refine ⟨_, rfl, hlist.symm, fun s hs => ?_⟩
    rw [Keyspace.streams_publishSession, Keyspace.streams_publishSession]
    split_ifs with hr
    · rw [hr] at hs
      rw [hs]
    · exact hs
  | postGlobal =>
    refine ⟨_, rfl, hlist.symm, fun s hs => ?_⟩
    rw [Keyspace.streams_publishGlobal, Keyspace.streams_publishGlobal, hs]
  | progressFailed | finish | postFailed | postGlobalFailed | save | wake =>
    exact ⟨other, rfl, hlist.symm, fun s hs => hs⟩

/-- A listener goes on with the final payload it has, or makes one of an outcome. -/
theorem publishes_cases (h : ListenStep t bus pc act bus' pc') {req : Request} {final : Json}
    (hf : pc'.publishes = some (req, final)) :
    pc.publishes = some (req, final) ∨
      ∃ outcome, pc.produces act = some (req, outcome) ∧
        final = finalPayload req.payload outcome := by
  cases h with
  | take =>
    unfold received at hf
    split_ifs at hf <;> simp [Pc.publishes] at hf
  | finish =>
    obtain ⟨rfl, rfl⟩ := Prod.mk.inj (Option.some_inj.mp hf)
    exact .inr ⟨_, rfl, rfl⟩
  | post => exact .inl hf
  | @postFailed _ _ _ handler | @postGlobalFailed _ _ _ handler =>
    cases handler
    · obtain ⟨rfl, rfl⟩ := Prod.mk.inj (Option.some_inj.mp hf)
      exact .inr ⟨_, rfl, rfl⟩
    · simp [publishFailed, Pc.publishes] at hf
  | postGlobal => split_ifs at hf <;> simp [Pc.publishes] at hf
  | progress | progressFailed | save | wake => simp [Pc.publishes] at hf

/-- A listener never removes an event. -/
theorem log_mono (h : ListenStep t bus pc act bus' pc') {s : String} {p : ℕ × Event}
    (hp : p ∈ (bus.streams (streamKey s)).log) : p ∈ (bus'.streams (streamKey s)).log := by
  cases h with
  | progress | post => exact Keyspace.mem_log_publishSession.mpr (.inl hp)
  | postGlobal => simpa using hp
  | take | progressFailed | finish | postFailed | postGlobalFailed | save | wake => exact hp

/-- What a listener adds to the global stream is the final payload it is publishing, with the
session id. -/
theorem global_cases (h : ListenStep t bus pc act bus' pc') {p : ℕ × Event}
    (hp : p ∈ (bus'.streams globalOutboundStream).log) :
    p ∈ (bus.streams globalOutboundStream).log ∨
      ∃ req s final, pc.carries = some (req, s) ∧ pc.publishes = some (req, final) ∧
        p.2.rid = req.rid ∧ p.2.data = final.set "_session_id" (.str s) := by
  cases h with
  | @postGlobal req s final =>
    rw [Keyspace.log_publishGlobal] at hp
    rcases List.mem_append.mp hp with hold | hnew
    · exact .inl hold
    · obtain rfl := List.mem_singleton.mp hnew
      exact .inr ⟨req, s, final, rfl, rfl, rfl, rfl⟩
  | progress | post => exact .inl (by simpa using hp)
  | take | progressFailed | finish | postFailed | postGlobalFailed | save | wake => exact .inl hp

theorem global_mono (h : ListenStep t bus pc act bus' pc') {p : ℕ × Event}
    (hp : p ∈ (bus.streams globalOutboundStream).log) :
    p ∈ (bus'.streams globalOutboundStream).log := by
  cases h with
  | postGlobal =>
    rw [Keyspace.log_publishGlobal]
    exact List.mem_append_left _ hp
  | progress | post => simpa using hp
  | take | progressFailed | finish | postFailed | postGlobalFailed | save | wake => exact hp

end ListenStep

/-! ### The invariant -/

namespace System

variable {sys : System} {t v : String} {n m : ℕ} {pc : Option Pc}

theorem listeners_setListener :
    (sys.setListener t n pc).listeners v m =
      if v = t ∧ m = n then pc else sys.listeners v m := by
  unfold setListener
  by_cases hv : v = t
  · subst hv
    simp [Function.update_apply]
  · simp [hv]

theorem readers_setReader {r k : ℕ} {reader : Reader} :
    (sys.setReader r reader).readers k = if k = r then some reader else sys.readers k := by
  simp only [setReader, Function.update_apply]

end System

/-- An accepted request stays accepted. -/
theorem SystemStep.accepted_mono {d : String} {sys sys' : System} {a : Action}
    (h : SystemStep d sys a sys') {p : String × Request} (hp : p ∈ sys.accepted) :
    p ∈ sys'.accepted := by
  cases h with
  | chat => exact List.mem_append_left _ hp
  | rejected | start | stop | listen | subscribe | fetch | next => exact hp

/-- The outcome that a step of the bus brings about, with the number of its request. -/
def outcomeOf (sys : System) : Action → List (ℕ × Outcome)
  | .listen t n act =>
    (((sys.listeners t n).bind fun pc => pc.produces act).map fun x => (x.1.rid, x.2)).toList
  | .chat .. | .start .. | .stop .. | .subscribe .. | .fetch _ | .next _ => []

section Step

variable {d v : String} {n : ℕ} {sys sys' : System} {a : Action} {pc : Pc} {req : Request}
  {final : Json}

/-- A final payload was on its way before the step, or is made of an outcome that the step brings
about. -/
theorem SystemStep.publishes_cases (h : SystemStep d sys a sys')
    (hl : sys'.listeners v n = some pc) (hf : pc.publishes = some (req, final)) :
    (∃ pc', sys.listeners v n = some pc' ∧ pc'.publishes = some (req, final)) ∨
      ∃ outcome, (req.rid, outcome) ∈ outcomeOf sys a ∧
        final = finalPayload req.payload outcome := by
  cases h with
  | rejected | chat | subscribe | fetch | next => exact .inl ⟨pc, hl, hf⟩
  | start =>
    rw [System.listeners_setListener] at hl
    split_ifs at hl
    · obtain rfl := Option.some_inj.mp hl
      simp [Pc.publishes] at hf
    · exact .inl ⟨pc, hl, hf⟩
  | stop =>
    change (System.setListener ..).listeners _ _ = _ at hl
    rw [System.listeners_setListener] at hl
    split_ifs at hl
    exact .inl ⟨pc, hl, hf⟩
  | @listen t m act qc bus qc' running step =>
    change (System.setListener ..).listeners _ _ = _ at hl
    rw [System.listeners_setListener] at hl
    split_ifs at hl with hvm
    · obtain ⟨rfl, rfl⟩ := hvm
      obtain rfl := Option.some_inj.mp hl
      rcases step.publishes_cases hf with hold | ⟨outcome, hproduces, hfinal⟩
      · exact .inl ⟨qc, running, hold⟩
      · exact .inr ⟨outcome, by simp [outcomeOf, running, hproduces], hfinal⟩
    · exact .inl ⟨pc, hl, hf⟩

theorem SystemStep.global_cases (h : SystemStep d sys a sys') {p : ℕ × Event}
    (hp : p ∈ (sys'.bus.streams globalOutboundStream).log) :
    p ∈ (sys.bus.streams globalOutboundStream).log ∨
      ∃ v n pc req s final, sys.listeners v n = some pc ∧ pc.carries = some (req, s) ∧
        pc.publishes = some (req, final) ∧ p.2.rid = req.rid ∧
          p.2.data = final.set "_session_id" (.str s) := by
  cases h with
  | listen running step =>
    rcases step.global_cases hp with hold | ⟨req, s, final, hrest⟩
    · exact .inl hold
    · exact .inr ⟨_, _, _, req, s, final, running, hrest⟩
  | rejected | chat | start | stop | subscribe | fetch | next => exact .inl hp

theorem SystemStep.global_mono (h : SystemStep d sys a sys') {p : ℕ × Event}
    (hp : p ∈ (sys.bus.streams globalOutboundStream).log) :
    p ∈ (sys'.bus.streams globalOutboundStream).log := by
  cases h with
  | listen running step => exact step.global_mono hp
  | rejected | chat | start | stop | subscribe | fetch | next => exact hp

end Step

/-- Everything in the system goes back to an accepted request of the right tenant. -/
structure Traced (sys : System) : Prop where
  queued : ∀ {v req}, req ∈ sys.bus.lists (inboundKey v) → (v, req) ∈ sys.accepted
  carried : ∀ {v n pc req s}, sys.listeners v n = some pc → pc.carries = some (req, s) →
    (v, req) ∈ sys.accepted ∧ s = requestSession req.payload
  event : ∀ {s p}, p ∈ (sys.bus.streams (streamKey s)).log →
    ∃ req, (p.2.tenantId, req) ∈ sys.accepted ∧ req.rid = p.2.rid ∧
      requestSession req.payload = s
  reading : ∀ {r reader p}, sys.readers r = some reader →
    p ∈ reader.batch ∨ p ∈ reader.yielded → p ∈ (sys.bus.streams (streamKey reader.sessionId)).log

theorem traced_init : Traced .init where
  queued h := by simp [System.init, Keyspace.empty] at h
  carried h := by simp [System.init] at h
  event h := by simp [System.init, Keyspace.empty] at h
  reading h := by simp [System.init] at h

theorem Reader.mem_of_fetch {reader : Reader} {stream : Stream Event} {p : ℕ × Event}
    (hp : p ∈ (reader.fetch stream).batch ∨ p ∈ (reader.fetch stream).yielded) :
    (p ∈ reader.batch ∨ p ∈ reader.yielded) ∨ p ∈ stream.log := by
  unfold Reader.fetch at hp
  split_ifs at hp
  · exact .inl hp
  · split at hp
    · exact hp.elim (fun h => .inr (Stream.mem_log_of_mem_after h)) fun h => .inl (.inr h)
    · exact .inl hp

theorem Reader.mem_of_next {reader : Reader} {p : ℕ × Event}
    (hp : p ∈ reader.next.batch ∨ p ∈ reader.next.yielded) :
    p ∈ reader.batch ∨ p ∈ reader.yielded := by
  unfold Reader.next at hp
  split_ifs at hp
  · exact hp
  · split at hp
    next => exact hp
    next id e batch hbatch =>
      rw [hbatch]
      rcases hp with hp | hp
      · exact .inl (List.mem_cons_of_mem _ hp)
      · rcases List.mem_append.mp hp with hp | hp
        · exact .inr hp
        · exact .inl (List.mem_cons.mpr (.inl (List.mem_singleton.mp hp)))

/-- A reader may be replaced by one that read what is on the stream of its session. -/
theorem Traced.setReader {sys : System} (h : Traced sys) (r : ℕ) {reader : Reader}
    (hreader : ∀ p, p ∈ reader.batch ∨ p ∈ reader.yielded →
      p ∈ (sys.bus.streams (streamKey reader.sessionId)).log) :
    Traced (sys.setReader r reader) := by
  refine ⟨h.queued, h.carried, h.event, fun hr hp => ?_⟩
  rw [System.readers_setReader] at hr
  split_ifs at hr
  · obtain rfl := Option.some_inj.mp hr
    exact hreader _ hp
  · exact h.reading hr hp

/-- A listener may be replaced by one that carries nothing. -/
theorem Traced.setListener {sys : System} (h : Traced sys) (t : String) (n : ℕ) {pc : Option Pc}
    (hpc : ∀ pc' ∈ pc, pc'.carries = none) : Traced (sys.setListener t n pc) := by
  refine ⟨h.queued, fun hl hc => ?_, h.event, h.reading⟩
  rw [System.listeners_setListener] at hl
  split_ifs at hl
  · rw [hpc _ hl] at hc
    simp at hc
  · exact h.carried hl hc

theorem Traced.step {d : String} {sys sys' : System} {a : Action} (hsys : Traced sys)
    (h : SystemStep d sys a sys') : Traced sys' := by
  cases h with
  | rejected => exact hsys
  | @chat rid body acc =>
    refine ⟨fun {v req} hreq => ?_, fun hl hc => ?_, fun hp => ?_, hsys.reading⟩
    · -- a request is accepted and queued in one step
      rw [System.push, Keyspace.lists_lpush_inbound] at hreq
      split_ifs at hreq with hv
      · subst hv
        rcases List.mem_cons.mp hreq with rfl | hreq
        · exact List.mem_append_right _ (List.mem_singleton.mpr rfl)
        · exact List.mem_append_left _ (hsys.queued hreq)
      · exact List.mem_append_left _ (hsys.queued hreq)
    · exact ⟨List.mem_append_left _ (hsys.carried hl hc).1, (hsys.carried hl hc).2⟩
    · obtain ⟨req, hacc, hrest⟩ := hsys.event hp
      exact ⟨req, List.mem_append_left _ hacc, hrest⟩
  | @start t n =>
    refine hsys.setListener t n ?_
    rintro pc ⟨⟩
    rfl
  -- a stopped listener carries nothing any more
  | @stop t n =>
    have hnone : Traced (sys.setListener t n none) := hsys.setListener t n (by simp)
    exact ⟨hnone.queued, hnone.carried, hnone.event, hnone.reading⟩
  | @listen t n act pc bus pc' running step =>
    refine ⟨fun hreq => hsys.queued (step.lists_subset hreq), fun {v m qc req s} hl hc => ?_,
      fun {s p} hp => ?_, fun hr hp => step.log_mono (hsys.reading hr hp)⟩
    · change (System.setListener ..).listeners _ _ = _ at hl
      rw [System.listeners_setListener] at hl
      split_ifs at hl with hvm
      · obtain ⟨rfl, rfl⟩ := hvm
        obtain rfl := Option.some_inj.mp hl
        -- what a listener carries it carried before or takes from the queue
        rcases step.carries_cases hc with hold | ⟨hqueued, hs⟩
        · exact hsys.carried running hold
        · exact ⟨hsys.queued hqueued, hs⟩
      · exact hsys.carried hl hc
    · -- what it writes is for the request that it carries
      rcases step.log_cases hp with hold | ⟨req, hc, hrid, ht⟩
      · exact hsys.event hold
      · obtain ⟨hacc, hs⟩ := hsys.carried running hc
        exact ⟨req, ht ▸ hacc, hrid.symm, hs.symm⟩
  | subscribe => exact hsys.setReader _ fun p hp => absurd hp (by simp [Reader.start])
  | fetch open_ =>
    refine hsys.setReader _ fun p hp => ?_
    -- a batch is read from the stream of the reader's session
    rw [Reader.sessionId_fetch]
    exact (Reader.mem_of_fetch hp).elim (hsys.reading open_) id
  | next open_ =>
    refine hsys.setReader _ fun p hp => ?_
    rw [Reader.sessionId_next]
    exact hsys.reading open_ (Reader.mem_of_next hp)

/-- Every final payload on its way to a stream is made of an outcome of its request. -/
def Composed (sys : System) : Prop :=
  ∀ v n pc req final, sys.listeners v n = some pc → pc.publishes = some (req, final) →
    ∃ outcome, final = finalPayload req.payload outcome

theorem composed_init : Composed .init := by
  intro v n pc req final hl
  simp [System.init] at hl

theorem Composed.step {d : String} {sys sys' : System} {a : Action} (hsys : Composed sys)
    (h : SystemStep d sys a sys') : Composed sys' := by
  intro v n pc req final hl hf
  rcases h.publishes_cases hl hf with ⟨pc', hl', hf'⟩ | ⟨outcome, -, hfinal⟩
  · exact hsys v n pc' req final hl' hf'
  · exact ⟨outcome, hfinal⟩

theorem traced_run {d : String} {acts : List Action} {sys : System}
    (hrun : (machine d).run acts = some sys) : Traced sys :=
  Machine.run_invariant' (fun hsys hstep => hsys.step (systemStep_of_step hstep)) traced_init hrun

end Nanogate.Bus
