import Nanogate.Tenants.System

/-!
# Whom the pruner stops

The pruner reads the last activity of a tenant from its record. `provision_tenant` and `touch`
write it there; `get_tenant`, which every chat request goes through, only writes it to the
cache. A pass therefore stops a tenant that was in use, unless every use that was not recorded
is older than the idle timeout.

## Main definitions

* `Timed` — a world with the time of each tenant's last use, and of its last use that was not
  recorded
* `Spares` — no container is stopped whose tenant was used within the idle timeout
* `Recorded` — a use that was not recorded is long past at every pass

## Main results

* `spares_of_recorded` — in runs of recorded uses every pass spares the tenants in use
* `chatting_tenant_stopped` — a tenant that chatted fifteen minutes ago is stopped
-/

namespace Nanogate.Tenants

open Nanogate.Python Nanogate.Semantics Relation

/-! ### Timed runs -/

/-- A world and what happened to the tenants so far. -/
structure Timed where
  world : World
  /-- The last time a container was provisioned for a tenant, handed out or touched. -/
  lastUse : String → Option Int
  /-- The last such time that did not reach the tenant's record. -/
  lastMissed : String → Option Int

/-- The tenant an operation uses, and whether the method writes the time to its record. -/
def used (host : Host) (w : World) : Op → Option (String × Bool)
  | .provision t config image =>
    match (provisionTenant host t config image).run w with
    | .ok _ _ => some (t, true)
    | .error _ _ => some (t, false)
  | .getTenant t =>
    match (getTenant t).run w with
    | .ok (some _) _ => some (t, false)
    | _ => none
  | .getOrCreate t =>
    match (getTenant t).run w with
    | .ok none _ =>
      match (getOrCreate host t).run w with
      | .ok _ _ => some (t, true)
      | .error _ _ => some (t, false)
    | _ => some (t, false)
  | .touch t => some (t, (w.tenants.get t).isSome)
  | _ => none

/-- The runs of a gateway, with the uses of its tenants. -/
def timed (host : Host) (w : World) : Machine Timed Op where
  init := ⟨w, fun _ => none, fun _ => none⟩
  step s op := ((machine host w).step s.world op).map fun w' =>
    match used host s.world op with
    | none => { s with world := w' }
    | some (t, recorded) =>
      { world := w'
        lastUse := Function.update s.lastUse t (some s.world.now)
        lastMissed :=
          if recorded then s.lastMissed else Function.update s.lastMissed t (some s.world.now) }

/-- From `s` to `s'`, every container that was stopped is of a tenant whose last use was longer
ago than the idle timeout. -/
def Spares (s s' : Timed) : Prop :=
  ∀ id c t use, Effect.stop id ∈ s.world.effectsSince s'.world →
    s.world.containers.get id = some c → c.name = containerName t → s.lastUse t = some use →
      idleTimeout < s.world.now - use

/-- Redis keeps working, and when a pass finds a tenant idle, its last use that was not recorded is
longer ago than the idle timeout. -/
def Recorded (s : Timed) : Op → Prop
  | .prune keys => ∀ key ∈ keys, ∀ state ∈ s.world.redis.get (stateKey (tenantOfKey key)),
      state.status = .running → idleTimeout < s.world.now - state.lastActivity →
        ∀ missed ∈ s.lastMissed (tenantOfKey key), idleTimeout < s.world.now - missed
  | .fail redis _ _ => redis = []
  | _ => True

instance (s : Timed) : (op : Op) → Decidable (Recorded s op)
  | .prune keys => inferInstanceAs (Decidable (∀ key ∈ keys, ∀ state ∈ s.world.redis.get _, _))
  | .fail redis _ _ => inferInstanceAs (Decidable (redis = []))
  | .provision .. | .getTenant _ | .getOrCreate _ | .touch _ | .stop _ | .restart _ | .shutdown
  | .pass _ | .vanish _ | .listen _ => inferInstanceAs (Decidable True)

/-! ### Records that say running -/

section Records

variable {host : Host} {w w₀ w' : World} {tenantId : String} {config : Option Json} {key : String}
  {state : TenantState} {op : Op} {image : String}

theorem now_of_change (hstep : Change host tenantId config w₀ w w') : w'.now = w.now := by
  cases hstep with
  | same h => exact h.now_eq
  | _ => rfl

/-- A record that says running is an old one, or it was written now. -/
theorem running_of_change (hstep : Change host tenantId config w₀ w w')
    (hstate : w'.redis.get key = some state) (hrun : state.status = .running) :
    w.redis.get key = some state ∨ state.lastActivity = w.now := by
  cases hstep with
  | same h => exact .inl (h.redis_eq ▸ hstate)
  | save hsaves =>
    rw [World.put, Dict.get_set] at hstate
    split_ifs at hstate
    · obtain rfl := Option.some_inj.mp hstate
      cases hsaves with
      | missing => simp [TenantState.markStopped] at hrun
      | touched => exact .inr rfl
      | stopped => simp at hrun
      | provisioned => exact .inr rfl
    · exact .inl hstate
  | _ => exact .inl hstate

/-- The records of `w'` that say running are those of `w`, or were written at this time. -/
def Renewed (w w' : World) : Prop :=
  w'.now = w.now ∧ ∀ key state, w'.redis.get key = some state → state.status = .running →
    w.redis.get key = some state ∨ state.lastActivity = w.now

theorem Renewed.of_change (hstep : Change host tenantId config w₀ w w')
    {start : World} (h : Renewed start w) : Renewed start w' := by
  refine ⟨(now_of_change hstep).trans h.1, fun key state hstate hrun => ?_⟩
  rcases running_of_change hstep hstate hrun with hold | hnew
  · exact h.2 key state hold hrun
  · exact .inr (hnew.trans h.1)

theorem renewed_of_work {J : String → Option Json → Prop} (hR : ReflTransGen (Work host J) w w')
    (hw : Coherent host w) : Renewed w w' := by
  have hrefl : Renewed w w := ⟨rfl, fun _ _ h _ => .inl h⟩
  refine (kept_of_work (I := Renewed w) ?_ ?_ ?_ hR hw hrefl).2
  · rintro u v hsame ⟨hnow, hold⟩
    exact ⟨hsame.now_eq.trans hnow,
      fun key state hstate => hold key state (hsame.redis_eq ▸ hstate)⟩
  · exact fun u _ h => h
  · exact fun t c w₀ u v _ _ _ hstep _ _ h => h.of_change hstep

/-! ### Uses that reach the record -/

/-- `touch` logs every exception of Redis. -/
theorem touch_returns (tenantId : String) (w : World) : ∃ u, (touch tenantId).run w = .ok () u := by
  unfold touch
  simp only [EStateM.run_bind, EStateM.run_get]
  cases w.tenants.get tenantId with
  | none => exact ⟨w, rfl⟩
  | some tc =>
    simp only [cache, EStateM.run_bind, EStateM.run_modify]
    split_ifs
    · simp only [EStateM.run_bind, loadState_run]
      split
      · split_ifs
        · exact ⟨_, saveState_run⟩
        · exact ⟨_, rfl⟩
      · exact ⟨_, rfl⟩
    · exact ⟨_, rfl⟩

theorem now_of_reaches (hR : ReflTransGen (Change host tenantId config w₀) w w') :
    w'.now = w.now :=
  kept_of_reaches (I := fun u => u.now = w.now) (fun _ _ hstep h => (now_of_change hstep).trans h)
    hR rfl

/-- The record of a provisioning that returned was written now. -/
theorem recorded_of_provision {c : Json} {tc : TenantContainer} (hw : w.RedisWorks)
    (hrun : (provisionTenant host tenantId c image).run w = .ok tc w')
    (hstate : w'.redis.get (stateKey tenantId) = some state) : state.lastActivity = w.now := by
  obtain ⟨hsteps, hprovisioned⟩ := provisionTenant_does.ok hrun
  obtain ⟨saved, -, state', hstate', -, htime⟩ := hprovisioned hw
  rw [hstate, Option.some_inj] at hstate'
  rw [hstate', htime, now_of_reaches hsteps]

/-- After a use that reached the record, a record that says running was written now. -/
theorem recorded_of_used (hcoherent : Coherent host w) (hw : w.RedisWorks)
    (hused : used host w op = some (tenantId, true))
    (hstate : (endState (program host op) w).redis.get (stateKey tenantId) = some state)
    (hrun : state.status = .running) : state.lastActivity = w.now := by
  cases op with
  | provision t c image =>
    cases hprovision : (provisionTenant host t c image).run w with
    | error e u => simp [used, hprovision] at hused
    | ok tc u =>
      obtain rfl : t = tenantId := by simpa [used, hprovision] using hused
      rw [program, endState_bind_of_ok hprovision] at hstate
      exact recorded_of_provision hw hprovision hstate
  | getOrCreate t =>
    cases hget : (getTenant t).run w with
    | error e u => simp [used, hget] at hused
    | ok found u =>
      cases found with
      | some tc => simp [used, hget] at hused
      | none =>
        -- nothing was found, so the tenant is provisioned
        have hsaved : (getOrCreate host t).run w = (provisionTenant host t
            ((((if u.answers then u.redis.get (stateKey t) else none).map
              TenantState.configData).filter Json.truthy).getD (.obj [])) defaultImage).run
                u.asked := by
          simp only [getOrCreate, EStateM.run_bind, hget, getSavedState_run]
        cases hcreate : (getOrCreate host t).run w with
        | error e v => simp [used, hget, hcreate] at hused
        | ok tc v =>
          obtain rfl : t = tenantId := by simpa [used, hget, hcreate] using hused
          rw [program, endState_bind_of_ok hcreate] at hstate
          have hsteps := (getTenant_does host none).ok hget |>.1
          have hu : u.RedisWorks := redisWorks_of_reaches hsteps hw
          rw [recorded_of_provision (u.same_asked.redisWorks hu) (hsaved ▸ hcreate) hstate,
            u.same_asked.now_eq, now_of_reaches hsteps]
  | touch t =>
    -- `touch` records its use while Redis works
    obtain ⟨u, hu⟩ := touch_returns t w
    simp only [used, Option.some.injEq, Prod.mk.injEq] at hused
    obtain ⟨rfl, hsome⟩ := hused
    rw [program, endState_of_ok hu] at hstate
    exact (touch_does host none).ok hu |>.2 hw hsome
      (fun state' h => (hcoherent.record _ _ h).1) state hstate hrun
  | getTenant t =>
    simp only [used] at hused
    split at hused <;> simp at hused
  | _ => simp [used] at hused

end Records

/-! ### Timed invariants -/

/-- Every use of a tenant whose record says running was missed or is in the record. -/
structure Timely (host : Host) (s : Timed) : Prop where
  coherent : Coherent host s.world
  named : WellNamed s.world
  redis : s.world.RedisWorks
  past : ∀ t use, s.lastUse t = some use → use ≤ s.world.now
  recorded : ∀ t state use, s.world.redis.get (stateKey t) = some state →
    state.status = .running → s.lastUse t = some use →
      s.lastMissed t = some use ∨ use ≤ state.lastActivity

section Runs

variable {host : Host} {w : World} {s s' : Timed} {op : Op} {ops : List Op}

theorem keepsRedis_of_recorded (hop : Recorded s op) : KeepsRedis op := by
  cases op with
  | fail redis docker files => exact hop
  | _ => trivial

theorem renewed_direct {redis : Bool} : ∀ key state,
    (direct redis s.world op).redis.get key = some state → s.world.redis.get key = some state := by
  cases op <;> exact fun _ _ h => h

theorem now_le_direct {redis : Bool} : s.world.now ≤ (direct redis s.world op).now := by
  cases op with
  | pass duration =>
    dsimp only [direct]
    omega
  | _ => exact Int.le_refl _

theorem world_of_timed_step (h : (timed host w).step s op = some s') :
    (machine host w).step s.world op = some s'.world := by
  simp only [timed] at h
  obtain ⟨w', hw', rfl⟩ := Option.map_eq_some_iff.mp h
  rw [hw']
  split <;> rfl

/-- The uses after an operation that is none. -/
theorem uses_of_step_of_unused (h : (timed host w).step s op = some s')
    (hused : used host s.world op = none) :
    s'.lastUse = s.lastUse ∧ s'.lastMissed = s.lastMissed := by
  simp only [timed, hused] at h
  obtain ⟨w', -, rfl⟩ := Option.map_eq_some_iff.mp h
  exact ⟨rfl, rfl⟩

/-- The uses after an operation that uses a tenant. -/
theorem uses_of_step_of_used {t : String} {recorded : Bool}
    (h : (timed host w).step s op = some s') (hused : used host s.world op = some (t, recorded)) :
    s'.lastUse = Function.update s.lastUse t (some s.world.now) ∧
      s'.lastMissed =
        if recorded then s.lastMissed
        else Function.update s.lastMissed t (some s.world.now) := by
  simp only [timed, hused] at h
  obtain ⟨w', -, rfl⟩ := Option.map_eq_some_iff.mp h
  exact ⟨rfl, rfl⟩

/-- **Step.** A recorded step keeps the uses timely. -/
theorem Timely.step (hs : Timely host s) (hop : Recorded s op)
    (hstep : (timed host w).step s op = some s') : Timely host s' := by
  have hworldStep := world_of_timed_step hstep
  obtain ⟨hen, hworld⟩ := step_eq_some hworldStep
  have hreads := hs.named.readsBack hen
  obtain ⟨redis, -, hwork⟩ := program_reaches host s.world hreads
  rw [← hworld] at hwork
  have hcoherent : Coherent host (direct redis s.world op) := hs.coherent.direct
  obtain ⟨hnow, hrenewed⟩ := renewed_of_work hwork hcoherent
  have hlater : s.world.now ≤ s'.world.now := hnow ▸ now_le_direct
  -- uses lie in the past
  have hpast : ∀ t use, s'.lastUse t = some use → use ≤ s.world.now := by
    intro t use huse
    cases hused : used host s.world op with
    | none => exact hs.past t use ((uses_of_step_of_unused hstep hused).1 ▸ huse)
    | some u =>
      rw [(uses_of_step_of_used hstep hused).1, Function.update_apply] at huse
      split_ifs at huse
      · exact Int.le_of_eq (Option.some_inj.mp huse).symm
      · exact hs.past t use huse
  refine ⟨coherent_of_step hreads hworldStep hs.coherent,
    wellNamed_of_step hs.coherent hs.named hworldStep,
    redisWorks_of_step hreads (keepsRedis_of_recorded hop) hworldStep hs.redis,
    fun t use huse => Int.le_trans (hpast t use huse) hlater, ?_⟩
  intro t state use hstate hrun huse
  -- a running record was there before or was renewed by this step
  rcases hrenewed _ state hstate hrun with hold | hnew
  · have hold := renewed_direct _ state hold
    cases hused : used host s.world op with
    | none =>
      obtain ⟨hlast, hmissed⟩ := uses_of_step_of_unused hstep hused
      rw [hmissed]
      exact hs.recorded t state use hold hrun (hlast ▸ huse)
    | some u =>
      obtain ⟨t', recorded⟩ := u
      obtain ⟨hlast, hmissed⟩ := uses_of_step_of_used hstep hused
      rw [hlast] at huse
      rw [hmissed]
      by_cases ht : t = t'
      · -- the tenant that is used: its use is recorded or missed
        subst ht
        rw [Function.update_self, Option.some_inj] at huse
        subst huse
        cases recorded with
        | false => exact .inl (by simp)
        | true =>
          rw [hworld] at hstate
          exact .inr (Int.le_of_eq (recorded_of_used hs.coherent hs.redis hused hstate hrun).symm)
      · rw [Function.update_of_ne ht] at huse
        rcases hs.recorded t state use hold hrun huse with hleft | hright
        · exact .inl (by split_ifs <;> simp [ht, hleft])
        · exact .inr hright
  · exact .inr (hnew ▸ Int.le_trans (hpast t use huse) now_le_direct)

/-! ### Passes -/

/-- A stopped container is one of a tenant that the pass found idle. -/
def StopsStale (w : World) (keys : List String) : Effect → Prop
  | .stop id => ∃ t, Stale w keys t ∧
      ∀ c, w.containers.get id = some c → c.name = containerName t
  | _ => True

/-- Containers that are still there are those of the world the pass began in. -/
def Remaining (w w' : World) : Prop :=
  ∀ id c', w'.containers.get id = some c' → ∃ c, w.containers.get id = some c ∧ c.name = c'.name

theorem prune_stops (keys : List String) (hw : Coherent host w) :
    Adds (StopsStale w keys) w (endState (program host (.prune keys)) w) := by
  have hreads : ReadsBack (.prune keys) := trivial
  obtain ⟨_, -, hwork⟩ := program_reaches host w hreads
  have hstart : Remaining w w ∧ Adds (StopsStale w keys) w w :=
    ⟨fun _ c hc => ⟨c, hc, rfl⟩, Adds.refl _ _⟩
  refine (kept_of_work (I := fun u => Remaining w u ∧ Adds (StopsStale w keys) w u)
    ?_ ?_ ?_ hwork hw hstart).2.2
  · rintro u v hsame ⟨hrem, hadds⟩
    exact ⟨fun id c hc => hrem id c (hsame.containers_eq ▸ hc), hadds.of_eq hsame.effects_eq⟩
  · exact fun _ _ h => h
  rintro t config w₀ u v ⟨hstale, hconfig⟩ - - hchange - hknown ⟨hrem, hadds⟩
  cases hchange with
  | same hsame =>
    exact ⟨fun id c hc => hrem id c (hsame.containers_eq ▸ hc), hadds.of_eq hsame.effects_eq⟩
  | save _ => exact ⟨hrem, hadds.snoc rfl trivial⟩
  | stop hk hget =>
    refine ⟨fun id c hc => ?_, hadds.snoc rfl ⟨t, hstale, fun c hc => ?_⟩⟩
    · rw [Dict.get_set] at hc
      split_ifs at hc with heq
      · -- the container is still the one that the stale record named
        obtain ⟨c₀, hc₀, hname⟩ := hrem _ _ hget
        exact ⟨c₀, heq ▸ hc₀, by rw [hname, ← Option.some_inj.mp hc]⟩
      · exact hrem id c hc
    · obtain ⟨c₀, hc₀, hname⟩ := hrem _ _ hget
      rw [← Option.some_inj.mp (hc₀.symm.trans hc), hname]
      exact (hknown _ hk).owns.2 _ hget
  | remove _ _ =>
    refine ⟨fun id c hc => ?_, hadds.snoc rfl trivial⟩
    rw [Dict.get_erase] at hc
    split_ifs at hc
    exact hrem id c hc
  -- a pass provisions nothing
  | write hc | run hc | provisioned hc => simp [hconfig] at hc
  | _ => exact ⟨hrem, hadds⟩

/-- **The pruner spares tenants in use.** While Redis works, in every run that starts without
tenants and whose uses are recorded, a pass stops only containers whose tenants were last used
longer ago than the idle timeout. -/
theorem spares_of_recorded (host : Host) (w : World) (hw : Fresh w) (hredis : w.RedisWorks)
    (ops : List Op) (keys : List String) (s s' : Timed)
    (hops : (timed host w).AllSteps Recorded (timed host w).init ops)
    (hrun : (timed host w).run ops = some s) (hpass : Recorded s (.prune keys))
    (hstep : (timed host w).step s (.prune keys) = some s') : Spares s s' := by
  have hinit : Timely host (timed host w).init :=
    ⟨hw.coherent, hw.wellNamed, hredis, fun _ _ h => by simp [timed] at h,
      fun _ _ _ _ _ h => by simp [timed] at h⟩
  have hs : Timely host s :=
    Machine.run_invariant (I := Timely host) (fun h hop hstep => h.step hop hstep) hinit hops hrun
  obtain ⟨-, hworld⟩ := step_eq_some (world_of_timed_step hstep)
  intro id c t use hstop hget hname huse
  rw [hworld] at hstop
  obtain ⟨t', hstale, hnames⟩ := (prune_stops keys hs.coherent).of_mem_effectsSince hstop
  -- the tenant of the container is the one the pass found idle
  obtain rfl : t = t' := containerName_inj.mp (hname.symm.trans (hnames c hget))
  rw [Stale, if_pos hs.redis.1] at hstale
  obtain ⟨hkey, state, hstate, hrunning, hidle⟩ := hstale
  obtain ⟨key, hmem, rfl⟩ := List.mem_map.mp hkey
  rcases hs.recorded _ state use hstate hrunning huse with hmissed | hle
  · exact hpass key hmem state hstate hrunning hidle use hmissed
  · omega

end Runs

/-- A tenant is provisioned, chats and is touched after 1000 seconds, and is looked at when more
than half an hour has gone by. -/
def touching : List Op :=
  [.provision "alice" (.obj []) defaultImage, .pass 1000000000, .getTenant "alice",
    .touch "alice", .pass 1801000000]

theorem spares_of_recorded_touching : ∃ s s',
    (timed sampleHost sampleWorld).run touching = some s ∧
      (timed sampleHost sampleWorld).step s (.prune [stateKey "alice"]) = some s' ∧
        s.world.containers.keys = [0] ∧ s'.world.containers.keys = [] ∧ Spares s s' := by
  have hops : (timed sampleHost sampleWorld).AllSteps Recorded
      (timed sampleHost sampleWorld).init touching := by decide +kernel
  have hcheck : (((timed sampleHost sampleWorld).run touching).bind fun s =>
      ((timed sampleHost sampleWorld).step s (.prune [stateKey "alice"])).map fun s' =>
        decide (Recorded s (.prune [stateKey "alice"]) ∧ s.world.containers.keys = [0] ∧
          s'.world.containers.keys = [])) = some true := by decide +kernel
  obtain ⟨s, hrun, hcheck⟩ := Option.bind_eq_some_iff.mp hcheck
  obtain ⟨s', hstep, hcheck⟩ := Option.map_eq_some_iff.mp hcheck
  obtain ⟨hpass, hbefore, hafter⟩ := of_decide_eq_true hcheck
  exact ⟨s, s', hrun, hstep, hbefore, hafter, spares_of_recorded sampleHost sampleWorld
    sampleWorld_fresh sampleWorld_redisWorks touching _ s s' hops hrun hpass hstep⟩

/-! ### A tenant that only chats -/

/-- From `s` to `s'` the container `id` of tenant `t` was stopped, though `t` was used. -/
def stopsUsed (s s' : Timed) (id : ℕ) (t : String) : Bool :=
  ((s.world.effectsSince s'.world).any fun
    | .stop id' => id' = id
    | _ => false) &&
    (s.world.containers.get id).any (fun c => c.name = containerName t) &&
    (s.lastUse t).any fun use => s.world.now - use ≤ idleTimeout

theorem not_spares_of_stopsUsed {s s' : Timed} {id : ℕ} {t : String}
    (h : stopsUsed s s' id t = true) : ¬Spares s s' := by
  intro hspares
  simp only [stopsUsed, Bool.and_eq_true, List.any_eq_true, Option.any_eq_true] at h
  obtain ⟨⟨⟨e, he, hstop⟩, c, hget, hname⟩, use, huse, hrecent⟩ := h
  have hstop : e = .stop id := by
    cases e with
    | stop id' => simpa using hstop
    | _ => simp at hstop
  have := hspares id c t use (hstop ▸ he) hget (by simpa using hname) huse
  have hrecent := of_decide_eq_true hrecent
  omega

/-- A tenant is provisioned, chats after 1000 seconds and is looked at after 1900. -/
def chatting : List Op :=
  [.provision "alice" (.obj []) defaultImage, .pass 1000000000, .getTenant "alice",
    .pass 900000000]

/-- **A tenant in use is stopped**, fifteen minutes after it chatted. -/
theorem chatting_tenant_stopped : ∃ s s', (timed sampleHost sampleWorld).run chatting = some s ∧
    (timed sampleHost sampleWorld).step s (.prune [stateKey "alice"]) = some s' ∧
      ¬Spares s s' := by
  have hcheck : (((timed sampleHost sampleWorld).run chatting).bind fun s =>
      ((timed sampleHost sampleWorld).step s (.prune [stateKey "alice"])).map fun s' =>
        stopsUsed s s' 0 "alice") = some true := by decide +kernel
  obtain ⟨s, hrun, hcheck⟩ := Option.bind_eq_some_iff.mp hcheck
  obtain ⟨s', hstep, hcheck⟩ := Option.map_eq_some_iff.mp hcheck
  exact ⟨s, s', hrun, hstep, not_spares_of_stopsUsed hcheck⟩

end Nanogate.Tenants
