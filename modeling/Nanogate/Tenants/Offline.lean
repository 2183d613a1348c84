import Nanogate.Tenants.Pruner
import Nanogate.Tenants.Turns

/-!
# A gateway without Redis

When Redis does not answer the ping of a new process, the manager works from its cache alone, and
so does the pruner. The time of a use is then where the pruner looks for it: `get_tenant` and
`touch` write it to the entry, and an entry that is put into the cache has the time it was started.
So the fallback spares every tenant in use, as the pass over the records does not.

## Main definitions

* `Calm` — nothing happened to the cache
* `Dated` — the entry of one tenant is of now, and the others are as they were
* `Attentive` — every entry has the time of its tenant's last use

## Main results

* `spares_of_offline` — without Redis every pass spares the tenants in use
-/

namespace Nanogate.Tenants

open Nanogate.Python Nanogate.Semantics Relation

/-! ### The cache -/

/-- Nothing happened to the cache, and without Redis nothing to the records. -/
structure Calm (u v : World) : Prop where
  hasRedis : v.hasRedis = u.hasRedis
  hasClient : v.hasClient = u.hasClient
  now : v.now = u.now
  tenants : v.tenants = u.tenants
  redis : u.hasRedis = false → v.redis = u.redis

/-- Without Redis the tenant was used: its entry, if there is one, is of now. -/
structure Dated (t : String) (w u : World) : Prop where
  offline : u.hasRedis = false
  hasClient : u.hasClient = w.hasClient
  now : u.now = w.now
  redis : u.redis = w.redis
  client : w.hasClient = true ∨ u.tenants = w.tenants
  others : ∀ t', t' ≠ t → u.tenants.get t' = w.tenants.get t'
  entry : ∀ tc, u.tenants.get t = some tc → tc.lastActivity = w.now

/-- Without Redis no tenant was used: entries were only dropped. -/
structure Dropped (w u : World) : Prop where
  offline : u.hasRedis = false
  hasClient : u.hasClient = w.hasClient
  redis : u.redis = w.redis
  entry : ∀ t tc, u.tenants.get t = some tc → w.tenants.get t = some tc

section Cache

variable {host : Host} {w u v : World} {t : String} {config : Json}

theorem Calm.refl (w : World) : Calm w w := ⟨rfl, rfl, rfl, rfl, fun _ => rfl⟩

theorem Calm.trans (h : Calm w u) (h' : Calm u v) : Calm w v :=
  ⟨h'.hasRedis.trans h.hasRedis, h'.hasClient.trans h.hasClient, h'.now.trans h.now,
    h'.tenants.trans h.tenants, fun hoff =>
      (h'.redis (h.hasRedis.trans hoff)).trans (h.redis hoff)⟩

theorem Calm.of_same (h : Same w u) : Calm w u := by
  obtain ⟨_, _, _, -, -, -, rfl⟩ := h
  exact ⟨rfl, rfl, rfl, rfl, fun _ => rfl⟩

theorem Calm.of_preparing (h : Preparing host t config w u) : Calm w u := by
  cases h with
  | same h => exact .of_same h
  | _ => exact ⟨rfl, rfl, rfl, rfl, fun _ => rfl⟩

theorem Calm.of_reaches (h : ReflTransGen Calm w u) : Calm w u :=
  kept_of_reaches (fun _ _ hstep h => h.trans hstep) h (.refl w)

theorem Dated.refl (hoff : w.hasRedis = false) (hmiss : w.tenants.get t = none) : Dated t w w :=
  ⟨hoff, rfl, rfl, rfl, .inr rfl, fun _ _ => rfl, fun _ htc => by simp [hmiss] at htc⟩

theorem Dated.of_calm (h : Dated t w u) (hcalm : Calm u v) : Dated t w v :=
  ⟨hcalm.hasRedis.trans h.offline, hcalm.hasClient.trans h.hasClient, hcalm.now.trans h.now,
    (hcalm.redis h.offline).trans h.redis, hcalm.tenants ▸ h.client, hcalm.tenants ▸ h.others,
    hcalm.tenants ▸ h.entry⟩

/-- An entry of now is put into the cache. -/
theorem Dated.cached {tc : TenantContainer} (h : Dated t w u) (hc : w.hasClient = true)
    (htime : tc.lastActivity = u.now) : Dated t w (u.cached t tc) := by
  refine ⟨h.offline, h.hasClient, h.now, h.redis, .inl hc, fun t' hne => ?_, fun tc' htc' => ?_⟩
  · exact (Dict.get_set_of_ne hne).trans (h.others t' hne)
  · rw [World.cached, Dict.get_set_self, Option.some_inj] at htc'
    rw [← htc', htime, h.now]

/-- Entries are there only when there is a client, so one that is found may be renewed. -/
theorem Dated.of_hit {tc tc' : TenantContainer} (hoff : w.hasRedis = false)
    (hclient : w.hasClient = false → w.tenants.get t = none) (hentry : w.tenants.get t = some tc)
    (htime : tc'.lastActivity = w.now) : Dated t w (w.cached t tc') := by
  have hc : w.hasClient = true := by
    cases hc : w.hasClient with
    | true => rfl
    | false => simp [hclient hc] at hentry
  refine ⟨hoff, rfl, rfl, rfl, .inl hc, fun t' hne => Dict.get_set_of_ne hne, fun tc'' h => ?_⟩
  rw [World.cached, Dict.get_set_self, Option.some_inj] at h
  rw [← h, htime]

theorem Dated.of_uncached (hoff : w.hasRedis = false) (hc : w.hasClient = true)
    (hcalm : Calm (w.uncache t) u) : Dated t w u := by
  have herased : Dated t w (w.uncache t) := by
    refine ⟨hoff, rfl, rfl, rfl, .inl hc, fun t' hne => Dict.get_erase_of_ne hne,
      fun tc htc => ?_⟩
    rw [World.uncache, Dict.get_erase_self] at htc
    simp at htc
  exact herased.of_calm hcalm

theorem Dropped.refl (hoff : w.hasRedis = false) : Dropped w w := ⟨hoff, rfl, rfl, fun _ _ h => h⟩

theorem Dropped.trans (h : Dropped w u) (h' : Dropped u v) : Dropped w v :=
  ⟨h'.offline, h'.hasClient.trans h.hasClient, h'.redis.trans h.redis,
    fun t tc htc => h.entry t tc (h'.entry t tc htc)⟩

theorem Dropped.of_calm (hoff : w.hasRedis = false) (h : Calm w u) : Dropped w u :=
  ⟨h.hasRedis.trans hoff, h.hasClient, h.redis hoff, fun _ _ htc => h.tenants ▸ htc⟩

theorem Dropped.of_uncached (hoff : w.hasRedis = false) (hcalm : Calm (w.uncache t) u) :
    Dropped w u := by
  have herased : Dropped w (w.uncache t) := by
    refine ⟨hoff, rfl, rfl, fun t' tc htc => ?_⟩
    rw [World.uncache, Dict.get_erase] at htc
    split_ifs at htc
    exact htc
  exact herased.trans (.of_calm hoff hcalm)

end Cache

/-! ### Methods without Redis -/

section Methods

variable {host : Host} {w u : World} {t image : String} {config : Json} {ts keys : List String}

theorem answers_of_offline (hoff : w.hasRedis = false) : w.answers = false := by
  rw [World.answers, hoff, Bool.false_and]

theorem asked_of_offline (hoff : w.hasRedis = false) : w.asked = w := by
  rw [World.asked, hoff]
  rfl

theorem loadState_run_of_offline (hoff : w.hasRedis = false) :
    (loadState t).run w = .ok none w := by
  rw [loadState_run, answers_of_offline hoff, asked_of_offline hoff]
  rfl

theorem saveState_calm {state : TenantState} :
    Does Calm (saveState state) (fun _ _ => True) w := by
  refine Does.of_ok saveState_run (.single ?_) trivial
  split_ifs with hanswers
  · have hasked : Calm w w.asked := .of_same w.same_asked
    refine ⟨hasked.hasRedis, hasked.hasClient, hasked.now, hasked.tenants, fun hoff => ?_⟩
    rw [answers_of_offline hoff] at hanswers
    simp at hanswers
  · exact .of_same w.same_asked

theorem stopContainer_calm {tc : TenantContainer} :
    Does Calm (stopContainer host t tc none) (fun _ _ => True) w := by
  unfold stopContainer
  have hconfig : Does Same (configToSave host t tc none)
      (fun v _ => v.isObj = true → Kept host t w w tc v) w := configToSave_does (by simp) id
  refine Does.bind (does_of_reading (fun _ _ => .of_same) hconfig) fun _ u _ => ?_
  refine Does.ite (fun _ => Does.throw _) fun _ => Does.bind saveState_calm fun _ v _ => ?_
  refine Does.get_bind (Does.ite (fun _ => ?_) fun _ => Does.pure trivial)
  refine removeContainer_does ?_ ?_ ?_
  · exact fun _ => ⟨rfl, rfl, rfl, rfl, fun _ => rfl⟩
  · exact fun _ _ _ => ⟨rfl, rfl, rfl, rfl, fun _ => rfl⟩
  · exact fun _ _ _ => ⟨rfl, rfl, rfl, rfl, fun _ => rfl⟩

/-- The entry of a tenant that is stopped is dropped. -/
theorem stopTenant_offline (hoff : w.hasRedis = false) : Ends (stopTenant host t)
    (fun _ u => Calm (w.uncache t) u) (fun u => Calm (w.uncache t) u) w := by
  unfold stopTenant
  refine Ends.get_bind ?_
  cases hentry : w.tenants.get t with
  | some tc =>
    refine Ends.set_bind ?_
    exact (Ends.of_does stopContainer_calm).mono (fun _ _ h => .of_reaches h.1)
      fun _ h => .of_reaches h
  | none =>
    refine Ends.bind_of_ok (loadState_run_of_offline hoff) (Ends.pure ?_)
    rw [World.uncache_of_none hentry]
    exact .refl w

/-- What keeps entries dated, one change after the other. -/
theorem ends_dated {α : Type} {m : M α} {V : α → World → Prop}
    (hm : Does (fun u v => Dated t w u → Dated t w v) m V u) (hu : Dated t w u) :
    Ends m (fun _ => Dated t w) (Dated t w) u :=
  (Ends.of_does hm).mono (fun _ _ h => kept_of_reaches (fun _ _ hstep => hstep) h.1 hu)
    fun _ h => kept_of_reaches (fun _ _ hstep => hstep) h hu

theorem startTenant_dated (hc : w.hasClient = true) : Does (fun u v => Dated t w u → Dated t w v)
    (startTenant host t config image) (fun _ _ => True) u := by
  have hcalm {u v : World} (h : Calm u v) : Dated t w u → Dated t w v := fun hu => hu.of_calm h
  have hsame (u v : World) (h : Same u v) : Dated t w u → Dated t w v := hcalm (.of_same h)
  have hpreparing {u v : World} (h : ReflTransGen (Preparing host t config) u v) :
      ReflTransGen (fun u v => Dated t w u → Dated t w v) u v :=
    ReflTransGen.mono (fun _ _ h => hcalm (.of_preparing h)) _ _ h
  unfold startTenant
  have hwrite : Does (fun u v => Dated t w u → Dated t w v) (writeConfig host t config) _ u :=
    writeConfig_does.weaken fun _ => hpreparing
  refine Does.bind hwrite ?_
  rintro ⟨dir, workspace, written⟩ v ⟨rfl, hwritten, -⟩
  unfold launch
  refine Does.get_bind (Does.bind (ensureImage_does hsame fun _ _ => ?_) fun _ x _ => ?_)
  · exact hcalm ⟨rfl, rfl, rfl, rfl, fun _ => rfl⟩
  have hstart : Does (fun u v => Dated t w u → Dated t w v)
      (startContainer host t (tenantDir host t) workspace v.freePort image written)
      (fun _ _ => True) x := by
    refine (startContainer_ends hwritten.merged).mono ?_ fun _ => hpreparing
    rintro _ _ ⟨y, container, hstart, -, -, -, -, rfl⟩
    exact ⟨(hpreparing hstart.reaches).tail (hcalm ⟨rfl, rfl, rfl, rfl, fun _ => rfl⟩), trivial⟩
  refine Does.bind hstart ?_
  rintro ⟨id, saved⟩ y -
  refine Does.get_bind (Does.modify_bind (.single fun hy => hy.cached hc rfl) ?_)
  refine Does.bind (saveState_calm.weaken fun _ => ReflTransGen.mono (fun _ _ => hcalm) _ _)
    fun _ _ _ => ?_
  refine Does.bind (P := fun _ _ => True) (does_lift fun _ _ => trivial) fun _ _ _ => ?_
  exact Does.bind (does_of_reading hsame runSetup_does) fun _ _ _ => Does.pure trivial

theorem provisionTenant_dated (hoff : w.hasRedis = false)
    (hclient : w.hasClient = false → w.tenants.get t = none) :
    Ends (provisionTenant host t config image) (fun _ => Dated t w) (Dated t w) w := by
  cases hc : w.hasClient with
  | true =>
    refine Ends.congr (Ends.bind ((stopTenant_offline hoff).mono
      (fun _ _ h => Dated.of_uncached hoff hc h) fun _ h => Dated.of_uncached hoff hc h) ?_)
      (provisionTenant_run hc)
    exact fun _ u hu => ends_dated (startTenant_dated hc) hu
  | false =>
    unfold provisionTenant
    refine Ends.get_bind ?_
    rw [if_pos (by simp [hc])]
    exact Ends.throw _ (.refl hoff (hclient hc))

/-- Only the cache answers. -/
theorem getTenant_offline (hoff : w.hasRedis = false)
    (hclient : w.hasClient = false → w.tenants.get t = none) : Ends (getTenant t)
    (fun
      | some _, u => Dated t w u
      | none, u => u = w ∧ w.tenants.get t = none) (fun _ => False) w := by
  unfold getTenant
  refine Ends.get_bind ?_
  cases hentry : w.tenants.get t with
  | some tc =>
    exact Ends.modify_bind (Ends.pure (.of_hit hoff hclient hentry rfl))
  | none =>
    exact Ends.bind_of_ok (loadState_run_of_offline hoff) (Ends.pure ⟨rfl, rfl⟩)

theorem getOrCreate_dated (hoff : w.hasRedis = false)
    (hclient : w.hasClient = false → w.tenants.get t = none) :
    Ends (getOrCreate host t) (fun _ => Dated t w) (Dated t w) w := by
  unfold getOrCreate
  refine Ends.bind ((getTenant_offline hoff hclient).mono (fun _ _ h => h) fun _ h => h.elim) ?_
  rintro (_ | tc) u hu
  · obtain ⟨rfl, hmiss⟩ := hu
    refine Ends.bind_of_ok getSavedState_run ?_
    rw [asked_of_offline hoff]
    exact provisionTenant_dated hoff fun _ => hmiss
  · exact Ends.pure hu

theorem touch_dated (hoff : w.hasRedis = false)
    (hclient : w.hasClient = false → w.tenants.get t = none) :
    Ends (touch t) (fun _ => Dated t w) (Dated t w) w := by
  unfold touch
  refine Ends.get_bind ?_
  cases hentry : w.tenants.get t with
  | none => exact Ends.pure (.refl hoff hentry)
  | some tc =>
    refine Ends.modify_bind ?_
    rw [if_neg (by simp [hoff])]
    exact Ends.pure (.of_hit hoff hclient hentry rfl)

theorem stopAll_dropped (hoff : w.hasRedis = false) :
    Ends (stopAll host ts) (fun _ => Dropped w) (Dropped w) w := by
  induction ts generalizing w with
  | nil => exact Ends.pure (.refl hoff)
  | cons t ts ih =>
    refine Ends.bind ((stopTenant_offline hoff).mono (fun _ _ h => Dropped.of_uncached hoff h)
      fun _ h => Dropped.of_uncached hoff h) ?_
    exact fun _ u hu => (ih hu.offline).mono (fun _ _ h => hu.trans h) fun _ h => hu.trans h

theorem prunePass_dropped (hoff : w.hasRedis = false) :
    Ends (prunePass host keys) (fun _ => Dropped w) (Dropped w) w := by
  -- without Redis `to_prune` is made from the cache
  have hfound : ∃ ts, (toPrune keys).run w = .ok ts w := by
    simp only [toPrune, EStateM.run_bind, EStateM.run_get, hoff, Bool.false_eq_true, if_false]
    exact ⟨_, rfl⟩
  obtain ⟨ts, hfound⟩ := hfound
  unfold prunePass
  refine Ends.tryCatch (Ends.bind_of_ok hfound ?_) fun _ _ h => Ends.pure h
  exact stopAll_dropped hoff

/-- A new process that Redis does not answer has an empty cache. -/
theorem restart_dropped (hfault : w.redisFaults.head? = some true) :
    Ends (restart host keys) (fun _ => Dropped w) (Dropped w) w := by
  unfold restart
  refine Ends.modify_bind (Ends.bind (P := fun _ => Dropped w) ?_ fun _ u hu => ?_)
  · -- the ping raises
    have hping : Ends redisCall (fun _ _ => False) (fun u => u.tenants = .empty ∧
        u.hasClient = w.hasClient ∧ u.redis = w.redis)
        { w with tenants := .empty, hasRedis := true } := by
      unfold redisCall
      refine Ends.get_bind (Ends.set_bind ?_)
      rw [if_pos hfault]
      exact Ends.throw _ ⟨rfl, rfl, rfl⟩
    refine Ends.tryCatch (hping.bind fun _ _ h => h.elim) ?_
    rintro _ u ⟨htenants, hclient, hredis⟩
    refine Ends.of_ok rfl ⟨rfl, hclient, hredis, fun t tc htc => ?_⟩
    simp [htenants] at htc
  · have himage : Does Calm (ensureImage host defaultImage) (fun _ _ => True) u :=
      ensureImage_does (fun _ _ => .of_same) fun _ _ => ⟨rfl, rfl, rfl, rfl, fun _ => rfl⟩
    exact (Ends.of_does himage).mono (fun _ _ h => hu.trans (.of_calm hu.offline (.of_reaches h.1)))
      fun _ h => hu.trans (.of_calm hu.offline (.of_reaches h))

end Methods

/-! ### Runs without Redis -/

/-- Redis does not answer the ping of a new process. -/
def Unanswered (s : Timed) : Op → Prop
  | .restart _ => s.world.redisFaults.head? = some true
  | _ => True

instance (s : Timed) : (op : Op) → Decidable (Unanswered s op)
  | .restart _ => inferInstanceAs (Decidable (_ = _))
  | .provision .. | .getTenant _ | .getOrCreate _ | .touch _ | .stop _ | .prune _ | .shutdown
  | .pass _ | .vanish _ | .listen _ | .fail .. => inferInstanceAs (Decidable True)

/-- There is no Redis, and every entry of the cache has the time of its tenant's last use. -/
structure Attentive (host : Host) (s : Timed) : Prop where
  coherent : Coherent host s.world
  offline : s.world.hasRedis = false
  redis : ∀ key, s.world.redis.get key = none
  client : s.world.hasClient = false → ∀ t, s.world.tenants.get t = none
  dated : ∀ t tc, s.world.tenants.get t = some tc → s.lastUse t = some tc.lastActivity

section Runs

variable {host : Host} {w : World} {s s' : Timed} {op : Op} {ops : List Op} {keys : List String}

/-- An operation uses one tenant or none. -/
theorem Attentive.used (hs : Attentive host s) (hop : Unanswered s op) :
    (∃ t recorded, Tenants.used host s.world op = some (t, recorded) ∧
      Dated t s.world (endState (program host op) s.world)) ∨
    (Tenants.used host s.world op = none ∧
      Dropped s.world (endState (program host op) s.world)) := by
  have hoff := hs.offline
  have hclient (t : String) : s.world.hasClient = false → s.world.tenants.get t = none :=
    fun hc => hs.client hc t
  cases op with
  | provision t config image =>
    have hdated : Ends (provisionTenant host t config image) (fun _ => Dated t s.world)
        (Dated t s.world) s.world := provisionTenant_dated hoff (hclient t)
    have hends := hdated.drop.endState
    left
    cases hrun : (provisionTenant host t config image).run s.world with
    | ok _ _ => exact ⟨t, true, by rw [Tenants.used, hrun], hends⟩
    | error _ _ => exact ⟨t, false, by rw [Tenants.used, hrun], hends⟩
  | getTenant t =>
    have hget := getTenant_offline hoff (hclient t)
    cases hrun : (getTenant t).run s.world with
    | error e u => exact (hget.error hrun).elim
    | ok found u =>
      rw [program, endState_bind_of_ok hrun]
      cases found with
      | some tc => exact .inl ⟨t, false, by rw [Tenants.used, hrun], hget.ok hrun⟩
      | none =>
        obtain ⟨rfl, -⟩ := hget.ok hrun
        exact .inr ⟨by rw [Tenants.used, hrun], .refl hoff⟩
  | getOrCreate t =>
    have hdated : Ends (getOrCreate host t) (fun _ => Dated t s.world) (Dated t s.world) s.world :=
      getOrCreate_dated hoff (hclient t)
    have hends := hdated.drop.endState
    left
    cases hget : (getTenant t).run s.world with
    | error e u => exact ⟨t, false, by rw [Tenants.used, hget], hends⟩
    | ok found u =>
      cases found with
      | some tc => exact ⟨t, false, by rw [Tenants.used, hget], hends⟩
      | none =>
        cases hrun : (getOrCreate host t).run s.world with
        | ok _ _ => exact ⟨t, true, by simp only [Tenants.used, hget, hrun], hends⟩
        | error _ _ => exact ⟨t, false, by simp only [Tenants.used, hget, hrun], hends⟩
  | touch t => exact .inl ⟨t, _, rfl, (touch_dated hoff (hclient t)).endState⟩
  | stop t =>
    refine .inr ⟨rfl, ?_⟩
    exact ((stopTenant_offline hoff).mono (fun _ _ h => Dropped.of_uncached hoff h)
      fun _ h => Dropped.of_uncached hoff h).endState
  | prune keys => exact .inr ⟨rfl, (prunePass_dropped hoff).endState⟩
  | restart keys => exact .inr ⟨rfl, (restart_dropped hop).endState⟩
  | shutdown => exact .inr ⟨rfl, (Ends.get_bind (stopAll_dropped hoff)).endState⟩
  | pass _ | vanish _ | listen _ | fail _ _ _ =>
    exact .inr ⟨rfl, ⟨hoff, rfl, rfl, fun _ _ h => h⟩⟩

/-- **Step.** Uses are written to the entries. -/
theorem Attentive.step (hs : Attentive host s) (hop : Unanswered s op)
    (hstep : (timed host w).step s op = some s') : Attentive host s' := by
  have hworldStep := world_of_timed_step hstep
  obtain ⟨hen, hworld⟩ := step_eq_some hworldStep
  have hreads : ReadsBack op := by
    cases op with
    | restart keys =>
      -- there are no records to reload
      intro key hkey
      obtain ⟨state, hstate⟩ := Dict.mem_keys_iff.mp (hen.subset hkey)
      rw [hs.redis key] at hstate
      simp at hstate
    | _ => trivial
  have hcoherent := coherent_of_step hreads hworldStep hs.coherent
  rcases hs.used hop with ⟨t, recorded, hused, hdated⟩ | ⟨hunused, hdropped⟩
  · rw [← hworld] at hdated
    refine ⟨hcoherent, hdated.offline, hdated.redis ▸ hs.redis, fun hclient t' => ?_,
      fun t' tc htc => ?_⟩
    · rcases hdated.client with hc | htenants
      · rw [hdated.hasClient, hc] at hclient
        simp at hclient
      · rw [htenants]
        exact hs.client (hdated.hasClient ▸ hclient) t'
    · rw [(uses_of_step_of_used hstep hused).1, Function.update_apply]
      split_ifs with hne
      · rw [hdated.entry tc (hne ▸ htc)]
      · exact hs.dated t' tc (hdated.others t' hne ▸ htc)
  · rw [← hworld] at hdropped
    refine ⟨hcoherent, hdropped.offline, hdropped.redis ▸ hs.redis, fun hclient t => ?_,
      fun t tc htc => ?_⟩
    · have hold := hs.client (hdropped.hasClient ▸ hclient) t
      cases htc : s'.world.tenants.get t with
      | none => rfl
      | some tc =>
        rw [hdropped.entry t tc htc] at hold
        simp at hold
    · rw [(uses_of_step_of_unused hstep hunused).1]
      exact hs.dated t tc (hdropped.entry t tc htc)

/-- **The fallback spares tenants in use.** In every run of a gateway that Redis never answered,
whatever fails in Docker and in the file system, a pass stops only containers whose tenants were
last used longer ago than the idle timeout. -/
theorem spares_of_offline (host : Host) (w : World) (hw : Fresh w) (hoff : w.hasRedis = false)
    (ops : List Op) (keys : List String) (s s' : Timed)
    (hops : (timed host w).AllSteps Unanswered (timed host w).init ops)
    (hrun : (timed host w).run ops = some s)
    (hstep : (timed host w).step s (.prune keys) = some s') : Spares s s' := by
  have hinit : Attentive host (timed host w).init :=
    ⟨hw.coherent, hoff, hw.redis, fun _ => hw.tenants, fun t _ htc => by
      simp [timed, hw.tenants t] at htc⟩
  have hs : Attentive host s := Machine.run_invariant (I := Attentive host)
    (fun h hop hstep => h.step hop hstep) hinit hops hrun
  obtain ⟨-, hworld⟩ := step_eq_some (world_of_timed_step hstep)
  intro id c t use hstop hget hname huse
  rw [hworld] at hstop
  obtain ⟨t', hstale, hnames⟩ := (prune_stops keys hs.coherent).of_mem_effectsSince hstop
  obtain rfl : t = t' := containerName_inj.mp (hname.symm.trans (hnames c hget))
  -- the pass looked at the entry, and the entry has the last use
  rw [Stale, if_neg (by simp [hs.offline])] at hstale
  obtain ⟨tc, hentry, hidle⟩ := hstale
  rw [hs.dated t tc hentry, Option.some_inj] at huse
  rwa [← huse]

end Runs

/-- Two tenants are provisioned, one chats after 1000 seconds, and both are looked at after
1900. -/
def oneChats : List Op :=
  [.provision "alice" (.obj []) defaultImage, .provision "bob" (.obj []) defaultImage,
    .pass 1000000000, .getTenant "alice", .pass 900000000]

theorem spares_of_offline_oneChats : ∃ s s',
    (timed sampleHost { sampleWorld with hasRedis := false }).run oneChats = some s ∧
      (timed sampleHost { sampleWorld with hasRedis := false }).step s (.prune []) = some s' ∧
        s.world.containers.keys = [0, 1] ∧ s'.world.containers.keys = [0] ∧ Spares s s' := by
  have hfresh : Fresh { sampleWorld with hasRedis := false } :=
    ⟨sampleWorld_fresh.tenants, sampleWorld_fresh.redis, sampleWorld_fresh.containers⟩
  have hops : (timed sampleHost { sampleWorld with hasRedis := false }).AllSteps Unanswered
      (timed sampleHost { sampleWorld with hasRedis := false }).init oneChats := by decide +kernel
  have hcheck : (((timed sampleHost { sampleWorld with hasRedis := false }).run oneChats).bind
      fun s => ((timed sampleHost { sampleWorld with hasRedis := false }).step s (.prune [])).map
        fun s' => decide (s.world.containers.keys = [0, 1] ∧
          s'.world.containers.keys = [0])) = some true := by decide +kernel
  obtain ⟨s, hrun, hcheck⟩ := Option.bind_eq_some_iff.mp hcheck
  obtain ⟨s', hstep, hcheck⟩ := Option.map_eq_some_iff.mp hcheck
  obtain ⟨hbefore, hafter⟩ := of_decide_eq_true hcheck
  exact ⟨s, s', hrun, hstep, hbefore, hafter, spares_of_offline sampleHost
    { sampleWorld with hasRedis := false } hfresh rfl oneChats [] s s' hops hrun hstep⟩

end Nanogate.Tenants
