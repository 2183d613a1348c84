import Nanogate.Bus.Custody
import Nanogate.Bus.Served

/-!
# What a turn produces

A turn says something in progress, any number of times, and comes to an outcome. The listener makes
an event of each and appends it to the stream of the session. So while Redis works, and where one
container serves the tenant, the events for a request are those of what its turn has produced, in
this order and once each; only the last one may still have to be written.

## Main definitions

* `Product`, `productOf` — what a turn produces, and in which steps
* `eventsFor`, `payloadsFor` — the events for a request, and those of what was produced for it
* `Written` — the ones are the others

## Main results

* `Written.step` — what is produced is written once and in order
-/

namespace Nanogate.Bus

open Nanogate.Python Nanogate.Redis Nanogate.Semantics

/-- What a turn produces: something said in progress, or what it comes to. -/
inductive Product where
  | progress (content : String) (toolHint : Bool)
  | outcome (outcome : Outcome)
  deriving Repr

/-- The payload of the event that is made of it. -/
def Product.payload (req : Request) : Product → Json
  | .progress content hint => progressPayload content hint
  | .outcome result => finalPayload req.payload result

/-- What a step of the turn in hand produces. -/
def Pc.product : Pc → ListenerAct → Option (Request × Product)
  | .turn req _, .progress content hint _ => some (req, .progress content hint)
  | .turn req _, .finish outcome => some (req, .outcome outcome)
  | _, _ => none

/-- What a step of the bus produces, with the number of the request. -/
def productOf (sys : System) : Action → List (ℕ × Product)
  | .listen t n act =>
    (((sys.listeners t n).bind fun pc => pc.product act).map fun x => (x.1.rid, x.2)).toList
  | .chat .. | .start .. | .stop .. | .subscribe .. | .fetch _ | .next _ => []

/-- What was produced for the request of a number. -/
def productsFor (made : List (ℕ × Product)) (rid : ℕ) : List Product :=
  (made.filter fun x => x.1 = rid).map Prod.snd

/-- The payloads of what was produced for a request. -/
def payloadsFor (made : List (ℕ × Product)) (req : Request) : List Json :=
  (productsFor made req.rid).map (Product.payload req)

/-- The events that were written for the request. -/
def eventsFor (s : String) (sys : System) (req : Request) : List (ℕ × Event) :=
  (sys.bus.streams (streamKey s)).log.filter fun p => p.2.rid = req.rid

/-- What a listener is about to write for the request of a number. -/
def unwritten (rid : ℕ) : Option Pc → List Json
  | some (.posting req _ final _) => if req.rid = rid then [final] else []
  | _ => []

/-- The events for a request of the session are made of what was produced for it, apart from the one
that is about to be written. -/
structure Written (t s : String) (n : ℕ) (sys : System) (made : List (ℕ × Product)) : Prop where
  accepted : ∀ x ∈ made, ∃ v req, (v, req) ∈ sys.accepted ∧ req.rid = x.1
  events : ∀ req, (t, req) ∈ sys.accepted → req.isFor s = true →
    (eventsFor s sys req).map (fun p => p.2.data) ++ unwritten req.rid (sys.listeners t n) =
      payloadsFor made req

section Written

variable {d t s v : String} {n m : ℕ} {sys sys' : System} {a : Action} {act : ListenerAct}
  {pc pc' : Pc} {req : Request} {made new : List (ℕ × Product)} {bus : Keyspace}
  {turns : List (Request × List (ℕ × Event))} {begun : List (ℕ × Event)}

theorem written_init : Written t s n .init [] where
  accepted x hx := by simp at hx
  events req hacc := by simp [System.init] at hacc

theorem payloadsFor_append :
    payloadsFor (made ++ new) req = payloadsFor made req ++ payloadsFor new req := by
  simp [payloadsFor, productsFor]

theorem payloadsFor_of_ne (h : ∀ x ∈ new, x.1 ≠ req.rid) : payloadsFor new req = [] := by
  have hnone : new.filter (fun x => x.1 = req.rid) = [] :=
    List.filter_eq_nil_iff.mpr fun x hx => by simpa using h x hx
  rw [payloadsFor, productsFor, hnone]
  rfl

/-- What a step produces is for a request that the listener carries. -/
theorem carries_of_product {product : Product} (h : pc.product act = some (req, product)) :
    ∃ r, pc.carries = some (req, r) := by
  cases pc <;> cases act <;> simp only [Pc.product, reduceCtorEq] at h
  all_goals
    obtain ⟨rfl, -⟩ := Prod.mk.inj (Option.some_inj.mp h)
    exact ⟨_, rfl⟩

theorem mem_productOf (running : sys.listeners v m = some pc) {x : ℕ × Product}
    (hx : x ∈ productOf sys (.listen v m act)) :
    ∃ req, pc.product act = some (req, x.2) ∧ req.rid = x.1 := by
  simp only [productOf, running, Option.bind_some, Option.mem_toList, Option.map_eq_some_iff] at hx
  obtain ⟨⟨req, product⟩, hproduct, rfl⟩ := hx
  exact ⟨req, hproduct, rfl⟩

/-- A step that leaves alone the requests, the stream and what is about to be written to it. -/
theorem Written.of_elsewhere (h : Written t s n sys made) (haccepted : sys'.accepted = sys.accepted)
    (hpc : ∀ rid, unwritten rid (sys'.listeners t n) = unwritten rid (sys.listeners t n))
    (hlog : (sys'.bus.streams (streamKey s)).log = (sys.bus.streams (streamKey s)).log) :
    Written t s n sys' made where
  accepted x hx := haccepted ▸ h.accepted x hx
  events req hacc hfor := by
    rw [eventsFor, hlog, hpc]
    exact h.events req (haccepted ▸ hacc) hfor

/-- What another tenant's listener produces is for requests of that tenant. -/
theorem Written.append (h : Written t s n sys made) (hsys : Custody sys) (hv : v ≠ t)
    (hnew : ∀ x ∈ new, ∃ req, (v, req) ∈ sys.accepted ∧ req.rid = x.1) :
    Written t s n sys (made ++ new) where
  accepted x hx := by
    rcases List.mem_append.mp hx with hold | hnew'
    · exact h.accepted x hold
    · exact ⟨v, hnew x hnew'⟩
  events req hacc hfor := by
    have hnone : payloadsFor new req = [] := payloadsFor_of_ne fun x hx hrid => by
      obtain ⟨req', hacc', hrid'⟩ := hnew x hx
      exact hv (hsys.eq_of_rid hacc' hacc (hrid'.trans hrid)).1
    rw [payloadsFor_append, hnone, List.append_nil]
    exact h.events req hacc hfor

/-- The tenant's listener produces something for the request it carries, writes something for it, or
both. -/
theorem Written.advance (events : List (ℕ × Event)) (h : Written t s n sys made)
    (hsys : Custody sys) (running : sys.listeners t n = some pc) (hacc : (t, req) ∈ sys.accepted)
    (hlog : (bus.streams (streamKey s)).log =
      (sys.bus.streams (streamKey s)).log ++ if req.isFor s then events else [])
    (hevents : ∀ p ∈ events, p.2.rid = req.rid) (hnew : ∀ x ∈ new, x.1 = req.rid)
    (hothers : ∀ rid, rid ≠ req.rid → unwritten rid (some pc) = [] ∧ unwritten rid (some pc') = [])
    (hbalance : events.map (fun p => p.2.data) ++ unwritten req.rid (some pc') =
      unwritten req.rid (some pc) ++ payloadsFor new req) :
    Written t s n { sys.setListener t n (some pc') with bus } (made ++ new) := by
  have hself : (sys.setListener t n (some pc')).listeners t n = some pc' := by
    rw [System.listeners_setListener, if_pos ⟨rfl, rfl⟩]
  refine ⟨fun x hx => ?_, fun req' hacc' hfor => ?_⟩
  · rcases List.mem_append.mp hx with hold | hnew'
    · exact h.accepted x hold
    · exact ⟨t, req, hacc, (hnew x hnew').symm⟩
  · have hheld := h.events req' hacc' hfor
    rw [running] at hheld
    change ((bus.streams (streamKey s)).log.filter _).map _ ++
      unwritten _ ((System.setListener ..).listeners _ _) = _
    rw [hself, hlog, List.filter_append, List.map_append, payloadsFor_append, ← hheld]
    by_cases hrid : req'.rid = req.rid
    · obtain rfl := (hsys.eq_of_rid hacc' hacc hrid).2
      have hall : events.filter (fun p => p.2.rid = req'.rid) = events :=
        List.filter_eq_self.mpr fun p hp => by simpa using hevents p hp
      rw [if_pos hfor, hall, List.append_assoc, hbalance, ← List.append_assoc]
      rfl
    · -- the other requests have other numbers
      have hnone : (if req.isFor s then events else []).filter (fun p => p.2.rid = req'.rid) =
          [] := by
        refine List.filter_eq_nil_iff.mpr fun p hp => ?_
        split_ifs at hp
        · simpa [hevents p hp] using Ne.symm hrid
        · simp at hp
      have hproducts : payloadsFor new req' = [] :=
        payloadsFor_of_ne fun x hx hx' => hrid (hx'.symm.trans (hnew x hx))
      obtain ⟨hbefore, hafter⟩ := hothers req'.rid hrid
      rw [hnone, hproducts, hbefore, hafter]
      rfl

theorem Written.listen_own (h : Written t s n sys made) (hsys : Custody sys)
    (hok : (Action.listen t n act).redisOk = true) (running : sys.listeners t n = some pc)
    (step : ListenStep t sys.bus pc act bus pc') :
    Written t s n { sys.setListener t n (some pc') with bus }
      (made ++ productOf sys (.listen t n act)) := by
  have hself : (sys.setListener t n (some pc')).listeners t n = some pc' := by
    rw [System.listeners_setListener, if_pos ⟨rfl, rfl⟩]
  have hproduct : productOf sys (.listen t n act) =
      ((pc.product act).map fun x => (x.1.rid, x.2)).toList := by
    rw [productOf, running, Option.bind_some]
  -- a step that neither produces nor writes anything
  have hidle (hnone : pc.product act = none)
      (hpc : ∀ rid, unwritten rid (some pc') = unwritten rid (some pc))
      (hlog : (bus.streams (streamKey s)).log = (sys.bus.streams (streamKey s)).log) :
      Written t s n { sys.setListener t n (some pc') with bus }
        (made ++ productOf sys (.listen t n act)) := by
    rw [hproduct, hnone, Option.map_none, Option.toList_none, List.append_nil]
    refine h.of_elsewhere rfl (fun rid => ?_) hlog
    change unwritten rid ((System.setListener ..).listeners _ _) = _
    rw [hself, running]
    exact hpc rid
  cases step with
  | @take req rest queued =>
    refine hidle rfl (fun rid => ?_) rfl
    unfold received
    split_ifs <;> rfl
  | @progress req r content hint c =>
    obtain ⟨hacc, rfl⟩ := hsys.traced.carried running (rfl : Pc.carries (.turn req r) = _)
    rw [hproduct]
    exact h.advance [_] hsys running hacc (log_publishSession s) (by simp)
      (by simp [Pc.product]) (fun rid _ => ⟨rfl, rfl⟩)
      (by simp [Pc.product, payloadsFor, productsFor, Product.payload, unwritten])
  | @finish req r outcome =>
    obtain ⟨hacc, -⟩ := hsys.traced.carried running (rfl : Pc.carries (.turn req r) = _)
    rw [hproduct]
    exact h.advance [] hsys running hacc (by simp) (by simp) (by simp [Pc.product])
      (fun rid hrid => ⟨rfl, if_neg (Ne.symm hrid)⟩)
      (by simp [Pc.product, payloadsFor, productsFor, Product.payload, unwritten])
  | @post req r final handler c =>
    obtain ⟨hacc, rfl⟩ := hsys.traced.carried running
      (rfl : Pc.carries (.posting req r final handler) = _)
    rw [hproduct]
    exact h.advance [_] hsys running hacc (log_publishSession s) (by simp) (by simp [Pc.product])
      (fun rid hrid => ⟨if_neg (Ne.symm hrid), rfl⟩)
      (by simp [Pc.product, payloadsFor, productsFor, unwritten])
  | @postGlobal req r final handler c =>
    refine hidle rfl (fun rid => ?_) (by rw [Keyspace.streams_publishGlobal])
    cases handler <;> rfl
  | progressFailed | postFailed | postGlobalFailed => simp [Action.redisOk, Except.toBool] at hok
  | save | wake => exact hidle rfl (fun _ => rfl) rfl

/-- Nothing was produced or written for a request that is just accepted. -/
theorem Written.push (h : Written t s n sys made) (hsys : Custody sys)
    (hfresh : sys.Fresh req.rid) : Written t s n (sys.push v req) made where
  accepted x hx := by
    obtain ⟨v', req', hacc, hrid⟩ := h.accepted x hx
    exact ⟨v', req', List.mem_append_left _ hacc, hrid⟩
  events req' hacc hfor := by
    change ((sys.bus.streams (streamKey s)).log.filter _).map _ ++
      unwritten _ (sys.listeners t n) = _
    rcases List.mem_append.mp hacc with hold | hnew
    · exact h.events req' hold hfor
    · obtain ⟨rfl, rfl⟩ := Prod.mk.inj (List.mem_singleton.mp hnew)
      have hne {v : String} {r : Request} (hr : (v, r) ∈ sys.accepted) : r.rid ≠ req'.rid :=
        fun hrid => hfresh (List.mem_map.mpr ⟨_, hr, hrid⟩)
      have hevents : (sys.bus.streams (streamKey s)).log.filter (fun p => p.2.rid = req'.rid) =
          [] := by
        refine List.filter_eq_nil_iff.mpr fun p hp => ?_
        obtain ⟨r, hr, hrid, -⟩ := hsys.traced.event hp
        simpa [← hrid] using hne hr
      have hpayloads : payloadsFor made req' = [] := payloadsFor_of_ne fun x hx hrid => by
        obtain ⟨v', r, hr, hr'⟩ := h.accepted x hx
        exact hne hr (hr'.trans hrid)
      have hunwritten : unwritten req'.rid (sys.listeners t n) = [] := by
        rcases hl : sys.listeners t n with - | pc
        · rfl
        cases pc with
        | posting r r' final handler =>
          exact if_neg (hne (hsys.traced.carried hl rfl).1)
        | waiting | turn | postingGlobal | saving | sleeping => rfl
      rw [hevents, hpayloads, hunwritten]
      rfl

/-- **Step lemma.** What is produced is written once and in order. -/
theorem Written.step (h : Written t s n sys made) (hsys : Custody sys)
    (hserved : Served t s n sys turns begun) (hok : a.redisOk = true)
    (hone : a.byOneListener t n = true) (hstep : SystemStep d sys a sys') :
    Written t s n sys' (made ++ productOf sys a) := by
  have hothers {v : String} {m : ℕ} {pc : Option Pc} (hne : t ≠ v) :
      (sys.setListener v m pc).listeners t n = sys.listeners t n := by
    rw [System.listeners_setListener, if_neg fun heq => hne heq.1]
  cases hstep with
  | rejected =>
    rw [productOf, List.append_nil]
    exact h
  | chat reply fresh =>
    rw [productOf, List.append_nil]
    exact h.push hsys fresh
  | @start v m absent =>
    rw [productOf, List.append_nil]
    refine h.of_elsewhere rfl (fun rid => ?_) rfl
    rw [System.listeners_setListener]
    split_ifs with hvm
    · obtain ⟨rfl, rfl⟩ := hvm
      rw [absent]
      rfl
    · rfl
  | @stop v m pc running =>
    -- the tenant's own container is not stopped
    have hne : t ≠ v := Ne.symm (of_decide_eq_true hone)
    rw [productOf, List.append_nil]
    exact h.of_elsewhere rfl (fun rid => congrArg (unwritten rid) (hothers hne)) rfl
  | @listen v m act pc bus pc' running step =>
    by_cases hv : v = t
    · subst hv
      obtain rfl := hserved.eq_of_running running
      exact h.listen_own hsys hok running step
    · have hstream := hserved.streams_of_ne hsys.traced hv running step
      refine (h.append hsys hv fun x hx => ?_).of_elsewhere rfl
        (fun rid => congrArg (unwritten rid) (hothers (Ne.symm hv)))
        (congrArg Stream.log hstream)
      obtain ⟨req, hproduct, hrid⟩ := mem_productOf running hx
      obtain ⟨r, hc⟩ := carries_of_product hproduct
      exact ⟨req, (hsys.traced.carried running hc).1, hrid⟩
  | subscribe | fetch | next =>
    rw [productOf, List.append_nil]
    exact h.of_elsewhere rfl (fun _ => rfl) rfl

end Written

end Nanogate.Bus
