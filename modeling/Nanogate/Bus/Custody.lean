import Mathlib.Data.List.Nodup
import Nanogate.Bus.Provenance

/-!
# Who has a request

Requests are numbered when they are accepted, `BRPOP` hands a request to one listener, and
no listener puts it back. So at any time a request is in one place at most: once in the
list of its tenant, or in the hands of one listener.

## Main definitions

* `Custody` — no two places hold requests of the same number

## Main results

* `ListenStep.hands` — a listener keeps what it has, or has what it has just taken
* `custody_run` — `Custody` holds in every reachable state
-/

namespace Nanogate.Bus

open Nanogate.Python Nanogate.Redis Nanogate.Semantics

/-! ### One step of a listener -/

namespace ListenStep

variable {t : String} {bus bus' : Keyspace} {pc pc' : Pc} {act : ListenerAct}

/-- A step leaves the list of the tenant alone and carries nothing new, or it takes the last
request off the list. -/
theorem hands (h : ListenStep t bus pc act bus' pc') :
    (bus'.lists (inboundKey t) = bus.lists (inboundKey t) ∧
        ∀ r, pc'.carries = some r → pc.carries = some r) ∨
      ∃ rest req, bus.lists (inboundKey t) = rest ++ [req] ∧
        bus'.lists (inboundKey t) = rest ∧ pc = .waiting ∧ pc' = received req := by
  cases h with
  | @take req rest queued =>
    right
    exact ⟨rest, req, queued, by rw [Keyspace.lists_setList, if_pos rfl], rfl, rfl⟩
  | progress | progressFailed | finish | post | save | wake =>
    left
    constructor
    · rfl
    · intro r hr
      first
        | exact hr
        | simp [Pc.carries] at hr
  | @postGlobal req s final handler =>
    left
    refine ⟨rfl, fun r hr => ?_⟩
    cases handler
    · exact hr
    · simp [Pc.carries] at hr
  | @postFailed req s final handler | @postGlobalFailed req s final handler =>
    left
    refine ⟨rfl, fun r hr => ?_⟩
    cases handler
    · exact hr
    · simp [publishFailed, Pc.carries] at hr

end ListenStep

theorem eq_of_carries_received {req req' : Request} {s : String}
    (h : (received req).carries = some (req', s)) : req' = req := by
  unfold received at h
  split_ifs at h
  · exact ((Prod.mk.inj (Option.some_inj.mp h)).1).symm
  · simp [Pc.carries] at h

/-! ### The invariant -/

/-- Requests have different numbers, and a number is in one place at most. -/
structure Custody (sys : System) : Prop where
  traced : Traced sys
  numbered : (sys.accepted.map fun p => p.2.rid).Nodup
  queued_once : ∀ v, ((sys.bus.lists (inboundKey v)).map Request.rid).Nodup
  not_both : ∀ {v n pc req req' s}, req ∈ sys.bus.lists (inboundKey v) →
    sys.listeners v n = some pc → pc.carries = some (req', s) → req.rid ≠ req'.rid
  held_once : ∀ {v n m pc pc' req req' s s'}, sys.listeners v n = some pc →
    sys.listeners v m = some pc' → pc.carries = some (req, s) → pc'.carries = some (req', s') →
      req.rid = req'.rid → n = m

theorem custody_init : Custody .init where
  traced := traced_init
  numbered := List.nodup_nil
  queued_once _ := List.nodup_nil
  not_both h := by simp [System.init, Keyspace.empty] at h
  held_once h := by simp [System.init] at h

namespace Custody

variable {d v v' : String} {n n' : ℕ} {sys sys' : System} {a : Action} {req req' : Request}

/-- A number belongs to one request of one tenant. -/
theorem eq_of_rid (h : Custody sys) (hacc : (v, req) ∈ sys.accepted)
    (hacc' : (v', req') ∈ sys.accepted) (hrid : req.rid = req'.rid) : v = v' ∧ req = req' := by
  have heq := List.inj_on_of_nodup_map h.numbered hacc hacc' hrid
  exact Prod.mk.inj heq

/-- Whoever holds a number is the one listener that holds it. -/
theorem eq_holder (h : Custody sys) {pc pc' : Pc} {s s' : String}
    (hl : sys.listeners v n = some pc) (hl' : sys.listeners v' n' = some pc')
    (hc : pc.carries = some (req, s)) (hc' : pc'.carries = some (req', s'))
    (hrid : req.rid = req'.rid) : v = v' ∧ n = n' := by
  have hacc := (h.traced.carried hl hc).1
  have hacc' := (h.traced.carried hl' hc').1
  obtain ⟨rfl, -⟩ := h.eq_of_rid hacc hacc' hrid
  exact ⟨rfl, h.held_once hl hl' hc hc' hrid⟩

/-- A request that is queued is in nobody's hands. -/
theorem not_held_of_queued (h : Custody sys) {pc : Pc} {s : String}
    (hqueued : req ∈ sys.bus.lists (inboundKey v)) (hl : sys.listeners v' n = some pc)
    (hc : pc.carries = some (req', s)) : req.rid ≠ req'.rid := by
  intro hrid
  have hacc := h.traced.queued hqueued
  have hacc' := (h.traced.carried hl hc).1
  obtain ⟨rfl, -⟩ := h.eq_of_rid hacc hacc' hrid
  exact h.not_both hqueued hl hc hrid

theorem push (h : Custody sys) {t : String} (hfresh : sys.Fresh req.rid)
    (htraced : Traced (sys.push t req)) : Custody (sys.push t req) where
  traced := htraced
  numbered := by
    rw [System.push, List.map_append, List.map_singleton, List.nodup_append]
    refine ⟨h.numbered, List.nodup_singleton _, ?_⟩
    intro x hx y hy hxy
    obtain rfl := List.mem_singleton.mp hy
    exact hfresh (hxy ▸ hx)
  queued_once v := by
    rw [System.push, Keyspace.lists_lpush_inbound]
    split_ifs with hv
    · rw [List.map_cons, List.nodup_cons]
      refine ⟨fun hmem => ?_, h.queued_once t⟩
      -- a number in the queue is the number of an accepted request
      obtain ⟨x, hx, hrid⟩ := List.mem_map.mp hmem
      exact hfresh (List.mem_map.mpr ⟨_, h.traced.queued hx, hrid⟩)
    · exact h.queued_once v
  not_both {v n pc x y s} hx hl hc := by
    rw [System.push, Keyspace.lists_lpush_inbound] at hx
    have hy := (h.traced.carried hl hc).1
    split_ifs at hx with hv
    · rcases List.mem_cons.mp hx with rfl | hx
      · exact fun hrid => hfresh (List.mem_map.mpr ⟨_, hy, hrid.symm⟩)
      · exact h.not_both (hv ▸ hx) hl hc
    · exact h.not_both hx hl hc
  held_once := h.held_once

/-- What the listeners of a tenant carry after one of them was replaced. -/
theorem setListener (h : Custody sys) {t : String} {pc : Option Pc} {bus : Keyspace}
    {accepted : List (String × Request)} {cut : List Request}
    (haccepted : accepted = sys.accepted)
    (htraced : Traced { sys.setListener t n pc with bus, accepted, cut })
    (hqueued : ∀ v, ((bus.lists (inboundKey v)).map Request.rid).Nodup)
    (hlists : ∀ {v x}, x ∈ bus.lists (inboundKey v) → x ∈ sys.bus.lists (inboundKey v))
    (hnew : ∀ qc y s, pc = some qc → qc.carries = some (y, s) →
      (∀ x ∈ bus.lists (inboundKey t), x.rid ≠ y.rid) ∧
        ∀ m qc' y' s', m ≠ n → sys.listeners t m = some qc' → qc'.carries = some (y', s') →
          y.rid ≠ y'.rid) :
    Custody { sys.setListener t n pc with bus, accepted, cut } where
  traced := htraced
  numbered := haccepted ▸ h.numbered
  queued_once := hqueued
  not_both {v m qc x y s} hx hl hc := by
    change (System.setListener ..).listeners _ _ = _ at hl
    rw [System.listeners_setListener] at hl
    split_ifs at hl with hvm
    · obtain ⟨rfl, rfl⟩ := hvm
      exact (hnew qc y s hl hc).1 x hx
    · exact h.not_both (hlists hx) hl hc
  held_once {v m k qc qc' y y' s s'} hl hl' hc hc' hrid := by
    change (System.setListener ..).listeners _ _ = _ at hl hl'
    rw [System.listeners_setListener] at hl hl'
    split_ifs at hl hl' with hm hk hk
    · exact hm.2.trans hk.2.symm
    · obtain ⟨rfl, rfl⟩ := hm
      have hne : k ≠ m := fun h => hk ⟨rfl, h⟩
      exact absurd hrid ((hnew qc y s hl hc).2 k qc' y' s' hne hl' hc')
    · obtain ⟨rfl, rfl⟩ := hk
      have hne : m ≠ k := fun h => hm ⟨rfl, h⟩
      exact absurd hrid.symm ((hnew qc' y' s' hl' hc').2 m qc y s hne hl hc)
    · exact h.held_once hl hl' hc hc' hrid

theorem listen (h : Custody sys) {t : String} {act : ListenerAct} {pc pc' : Pc} {bus : Keyspace}
    (running : sys.listeners t n = some pc) (step : ListenStep t sys.bus pc act bus pc')
    (htraced : Traced { sys.setListener t n (some pc') with bus }) :
    Custody { sys.setListener t n (some pc') with bus } := by
  rcases step.hands with ⟨hsame, hcarries⟩ | ⟨rest, x, hqueue, hrest, rfl, rfl⟩
  · -- nothing is taken: whatever is carried was carried before
    refine h.setListener rfl htraced (fun v => ?_) step.lists_subset ?_
    · by_cases hv : v = t
      · rw [hv, hsame]
        exact h.queued_once t
      · rw [step.lists_of_ne hv]
        exact h.queued_once v
    · rintro _ y s ⟨⟩ hc
      have hold := hcarries _ hc
      refine ⟨fun x hx => h.not_both (hsame ▸ hx) running hold, ?_⟩
      intro m qc' y' s' hm hl' hc' hrid
      exact hm (h.held_once running hl' hold hc' hrid).symm
  · -- the last request of the list changes hands
    have hnodup : ((rest ++ [x]).map Request.rid).Nodup := hqueue ▸ h.queued_once t
    rw [List.map_append, List.nodup_append] at hnodup
    refine h.setListener rfl htraced (fun v => ?_) step.lists_subset ?_
    · by_cases hv : v = t
      · rw [hv, hrest]
        exact hnodup.1
      · rw [step.lists_of_ne hv]
        exact h.queued_once v
    · rintro _ y s ⟨⟩ hc
      obtain rfl := eq_of_carries_received hc
      have hmem : y ∈ sys.bus.lists (inboundKey t) := by
        rw [hqueue]
        exact List.mem_append_right _ (List.mem_singleton.mpr rfl)
      refine ⟨fun z hz => ?_, fun m qc' y' s' _ hl' hc' => h.not_both hmem hl' hc'⟩
      rw [hrest] at hz
      exact hnodup.2.2 _ (List.mem_map_of_mem hz) _ (by simp)

theorem step (hsys : Custody sys) (h : SystemStep d sys a sys') : Custody sys' := by
  have htraced := hsys.traced.step h
  cases h with
  | rejected => exact hsys
  | chat reply fresh => exact hsys.push fresh htraced
  | start absent =>
    refine hsys.setListener rfl htraced hsys.queued_once (fun hx => hx) ?_
    rintro _ y s ⟨⟩ hc
    simp [Pc.carries] at hc
  | stop running =>
    refine hsys.setListener rfl htraced hsys.queued_once (fun hx => hx) ?_
    rintro _ y s ⟨⟩
  | listen running step => exact hsys.listen running step htraced
  | subscribe | fetch | next =>
    exact ⟨htraced, hsys.numbered, hsys.queued_once, hsys.not_both, hsys.held_once⟩

end Custody

theorem custody_run {d : String} {acts : List Action} {sys : System}
    (hrun : (machine d).run acts = some sys) : Custody sys :=
  Machine.run_invariant' (fun hsys hstep => hsys.step (systemStep_of_step hstep)) custody_init hrun

end Nanogate.Bus
