import Nanogate.Tenants.Calls
import Nanogate.Tenants.Commands

/-!
# A record that comes back

`touch` loads a tenant's record, sets its last activity and writes the whole record back. When
`stop_tenant` or `provision_tenant` writes the record in between, the older one comes back with
its configuration, container, port and status.

## Main definitions

* `Threads`, `threads` — any number of methods for one tenant, interleaved command by command
* `Delayed` — a `touch` about to write back a record that was written since

## Main results

* `sameRecord_of_run` — without such a step the record differs from the last one written in its
  activity only
* `stopped_record_lost` — a stopped tenant whose record says running again
-/

namespace Nanogate.Tenants

open Nanogate.Python Nanogate.Semantics Relation

/-! ### Threads -/

/-- A method under way in a gateway process. -/
structure Thread where
  process : ℕ
  point : Point
  /-- How often the record had been written when `touch` loaded it. -/
  seen : ℕ

/-- Methods for one tenant under way, with what they share and what they wrote: the last record
that `stop_tenant` or `provision_tenant` wrote, and how often they did. -/
structure Threads where
  world : World
  caches : ℕ → Dict String TenantContainer
  threads : List Thread
  last : Option TenantState
  writes : ℕ

/-- A request for the tenant. -/
inductive Request where
  | touch
  | stop
  | provision (config : Json) (image : String)

/-- Where the method of a request begins. -/
def Request.point (tenantId : String) : Request → Point
  | .touch => .touch tenantId
  | .stop => .stop tenantId none
  | .provision config image => .provision tenantId config image

def Point.isDone : Point → Bool
  | .done => true
  | _ => false

/-- The record that `stop_tenant` or `provision_tenant` is about to write. -/
def Point.writes : Point → Option TenantState
  | .stopSet state _ _ | .startSet state _ => some state
  | _ => none

/-- All methods returned. -/
def Threads.Done (s : Threads) : Prop := ∀ thread ∈ s.threads, thread.point.isDone = true

instance (s : Threads) : Decidable s.Done :=
  inferInstanceAs (Decidable (∀ thread ∈ s.threads, _))

/-- What a thread finds. -/
def Threads.view (s : Threads) (process : ℕ) : World :=
  { s.world with tenants := s.caches process }

/-- The record that a thread is about to write, if Redis answers. -/
def Threads.written (s : Threads) (thread : Thread) : Option TenantState :=
  if (s.view thread.process).answers then thread.point.writes else none

/-- A thread ran up to its next command, or was ended by an exception. -/
def Threads.resumed (s : Threads) (i : ℕ) (thread : Thread) (point : Point) (w : World) :
    Threads where
  world := w
  caches := Function.update s.caches thread.process w.tenants
  threads := s.threads.set i
    { thread with
      point
      seen := match thread.point with
        | .touchGet .. => s.writes
        | _ => thread.seen }
  last := (s.written thread).or s.last
  writes := if (s.written thread).isSome then s.writes + 1 else s.writes

/-- What the threads do. -/
inductive Act where
  | request (process : ℕ) (r : Request)
  | resume (i : ℕ)
  /-- Something happens around the gateways. -/
  | around (op : Op)

/-- An operation that no gateway process takes part in. -/
def Op.IsAround : Op → Prop
  | .pass _ | .vanish _ | .listen _ | .fail .. => True
  | _ => False

instance : (op : Op) → Decidable op.IsAround
  | .pass _ | .vanish _ | .listen _ | .fail .. => inferInstanceAs (Decidable True)
  | .provision .. | .getTenant _ | .getOrCreate _ | .touch _ | .stop _ | .prune _ | .restart _
  | .shutdown => inferInstanceAs (Decidable False)

/-- The threads for a tenant, from a world and caches on. -/
def threads (host : Host) (t : String) (w : World) (caches : ℕ → Dict String TenantContainer) :
    Machine Threads Act where
  init := ⟨w, caches, [], w.redis.get (stateKey t), 0⟩
  step s
    | .request process r =>
      some { s with threads := s.threads ++ [⟨process, r.point t, s.writes⟩] }
    | .resume i =>
      match s.threads[i]? with
      | none => none
      | some thread =>
        match (resume host thread.point).run (s.view thread.process) with
        | .ok point w => some (s.resumed i thread point w)
        | .error _ w => some (s.resumed i thread .done w)
    | .around op =>
      if op.IsAround then some { s with world := endState (program host op) s.world } else none

/-- A `touch` that is about to write back a record loaded before the last write. -/
def Delayed (s : Threads) : Act → Prop
  | .resume i =>
    match s.threads[i]? with
    | some ⟨_, .touchSet _, seen⟩ => seen ≠ s.writes
    | _ => False
  | _ => False

instance (s : Threads) : (a : Act) → Decidable (Delayed s a)
  | .resume i =>
    match h : s.threads[i]? with
    | some ⟨_, .touchSet _, seen⟩ => decidable_of_iff (seen ≠ s.writes) (by simp [Delayed, h])
    | some ⟨_, .touch .., _⟩ | some ⟨_, .touchGet .., _⟩ | some ⟨_, .provision .., _⟩
    | some ⟨_, .stop .., _⟩ | some ⟨_, .stopGet .., _⟩ | some ⟨_, .stopGetConfig .., _⟩
    | some ⟨_, .stopSet .., _⟩ | some ⟨_, .startSet .., _⟩ | some ⟨_, .done, _⟩
    | none => isFalse (by simp [Delayed, h])
  | .request .. | .around _ => inferInstanceAs (Decidable False)

/-- Two records differ at most in their last activity. -/
def SameRecord (a b : Option TenantState) : Prop :=
  a.map (fun state => { state with lastActivity := 0 }) =
    b.map fun state => { state with lastActivity := 0 }

/-! ### One command -/

/-- A point of a method for the tenant where no record is about to be written back. -/
def Point.Of (t : String) : Point → Prop
  | .touch t' | .touchGet t' _ | .provision t' _ _ | .stop t' _ | .stopGet t' _
  | .stopGetConfig t' _ _ _ => t' = t
  | .stopSet state _ _ | .startSet state _ => state.tenantId = t
  | .touchSet _ => False
  | .done => True

/-- The point after one of the tenant's: a record that is about to be written back was loaded. -/
def Point.Next (t : String) (w : World) (p p' : Point) : Prop :=
  p'.Of t ∨ ∃ now state, p = .touchGet t now ∧ w.redis.get (stateKey t) = some state ∧
    p' = .touchSet { state with lastActivity := now }

/-- No record is written. -/
def Unwritten (w w' : World) : Prop := w'.redis = w.redis

/-- The records after a point where one may be written. -/
def World.afterWrite (w : World) (state : Option TenantState) : Dict String TenantState :=
  match if w.answers then state else none with
  | some state => w.redis.set (stateKey state.tenantId) state
  | none => w.redis

section Command

variable {host : Host} {t : String} {w u : World} {p : Point} {state : TenantState}
  {tc : TenantContainer} {config : Json} {next : Option (Json × String)}

theorem unwritten_of_reaches (h : ReflTransGen Unwritten w u) : u.redis = w.redis :=
  kept_of_reaches (I := fun v => v.redis = w.redis) (fun _ _ hstep hw => hstep.trans hw) h rfl

theorem does_unwritten {α : Type} {m : M α} {V : α → World → Prop} (h : Does Same m V w) :
    Does Unwritten m V w :=
  (does_of_reading (fun _ _ hsame => hsame.redis_eq) h).mono fun _ _ _ h => h.2

theorem stopNext_does : Does Unwritten (stopNext t tc config next) (fun p _ => p.Of t) w := by
  unfold stopNext
  split_ifs
  · exact Does.throw _
  · exact Does.pure rfl

theorem stopKnown_does {loaded : Option TenantState} :
    Does Unwritten (stopKnown host t tc loaded next) (fun p _ => p.Of t) w := by
  unfold stopKnown
  refine Does.bind (does_unwritten (@configFile_does host t w w tc)) fun fromFile u _ => ?_
  exact Does.ite (fun _ => stopNext_does) fun _ => Does.pure rfl

theorem stopFirst_does : Does Unwritten (stopFirst host t next) (fun p _ => p.Of t) w := by
  unfold stopFirst
  refine Does.get_bind ?_
  cases w.tenants.get t with
  | none => exact Does.pure rfl
  | some tc => exact Does.set_bind (.single rfl) stopKnown_does

theorem startNext_does : Does Unwritten (startNext host t next) (fun p _ => p.Of t) w := by
  cases next with
  | none => exact Does.pure trivial
  | some next =>
    obtain ⟨config, image⟩ := next
    unfold startNext
    have hprepared {v v' : World} (h : ReflTransGen (Preparing host t config) v v') :
        Unwritten v v' := (untouched_of_preparing h).redis
    refine Does.bind (writeConfig_does.weaken fun _ h => .single (hprepared h)) ?_
    rintro ⟨dir, workspace, written⟩ u ⟨rfl, hwritten, -⟩
    refine Does.get_bind ?_
    refine Does.bind (ensureImage_does (fun _ _ hsame => hsame.redis_eq) fun _ _ => rfl) ?_
    intro _ v _
    -- the container is started, and the record is not written yet
    refine Does.bind (P := fun _ _ => True) (Does.of_ends
      ((startContainer_ends hwritten.merged).mono ?_ fun _ => hprepared)) ?_
    · rintro _ _ ⟨y, container, hstart, -, -, -, -, rfl⟩
      exact ⟨(untouched_of_preparing hstart.reaches).redis, trivial⟩
    · rintro ⟨id, saved⟩ y -
      exact Does.get_bind (Does.modify_bind (.single rfl) (Does.pure rfl))

theorem removed_does {id : ℕ} : Does Unwritten (do
      let w ← get
      if w.hasClient then removeContainer id
      startNext host t next) (fun p _ => p.Of t) w := by
  refine Does.get_bind (Does.ite (fun _ => ?_) fun _ => startNext_does)
  exact Does.bind (P := fun _ _ => True)
    (removeContainer_does (fun _ => rfl) (fun _ _ _ => rfl) fun _ _ _ => rfl)
    fun _ _ _ => startNext_does

theorem saveState_ends {E : World → Prop} : Ends (saveState state)
    (fun _ u => u.redis = w.afterWrite (some state)) E w := by
  refine Ends.of_ok saveState_run ?_
  unfold World.afterWrite
  split_ifs
  · rw [World.put, w.same_asked.redis_eq]
  · exact w.same_asked.redis_eq

/-- Run from a point, a program writes at most the record that is to be written there. -/
def Commits (t : String) (w : World) (p : Point) (m : M Point) : Prop :=
  Ends m (fun p' u => u.redis = w.afterWrite p.writes ∧ Point.Next t w p p')
    (fun u => u.redis = w.afterWrite p.writes) w

@[simp] theorem World.afterWrite_none : w.afterWrite none = w.redis := by
  simp [World.afterWrite]

theorem Commits.of_unwritten {m : M Point} (hnone : p.writes = none)
    (h : Does Unwritten m (fun p' _ => p'.Of t) w) : Commits t w p m := by
  unfold Commits
  rw [hnone, World.afterWrite_none]
  exact (Ends.of_does h).mono (fun _ _ h => ⟨unwritten_of_reaches h.1, .inl h.2⟩)
    fun _ h => unwritten_of_reaches h

theorem Commits.of_load {f : Option TenantState → M Point} (hnone : p.writes = none)
    (h : ∀ state, Does Unwritten (f state) (fun p' _ => p'.Of t) w.asked) :
    Commits t w p (loadState t >>= f) := by
  have hload : Does Unwritten (loadState t) (fun _ u => w.asked = u) w :=
    Does.of_ok loadState_run (.single w.same_asked.redis_eq) rfl
  refine .of_unwritten hnone (hload.bind ?_)
  rintro state _ rfl
  exact h state

theorem Commits.of_save {f : Unit → M Point} (hstate : p.writes = some state)
    (h : ∀ u, Does Unwritten (f ⟨⟩) (fun p' _ => p'.Of t) u) :
    Commits t w p (saveState state >>= f) := by
  unfold Commits
  rw [hstate]
  refine saveState_ends.bind fun _ u hredis => ?_
  exact (Ends.of_does (h u)).mono
    (fun _ _ h => ⟨(unwritten_of_reaches h.1).trans hredis, .inl h.2⟩)
    fun _ h => (unwritten_of_reaches h).trans hredis

theorem touchFirst_does : Does Unwritten (touchFirst t) (fun p _ => p.Of t) w := by
  unfold touchFirst
  refine Does.get_bind ?_
  cases w.tenants.get t with
  | none => exact Does.pure trivial
  | some tc =>
    refine Does.modify_bind (.single rfl) (Does.pure ?_)
    split_ifs
    · rfl
    · trivial

/-- The `GET` of `touch`: what it is about to write back is the record that it loads. -/
theorem commits_touchGet {now : Int} :
    Commits t w (.touchGet t now) (resume host (.touchGet t now)) := by
  have hload : Ends (loadState t) (fun loaded u => u.redis = w.redis ∧
      ∀ state, loaded = some state → w.redis.get (stateKey t) = some state)
      (fun u => u.redis = w.redis) w := by
    refine Ends.of_ok loadState_run ⟨w.same_asked.redis_eq, fun state h => ?_⟩
    split_ifs at h
    exact h
  unfold Commits
  rw [show (Point.touchGet t now).writes = none from rfl, World.afterWrite_none]
  refine hload.bind ?_
  rintro loaded u ⟨hredis, hloaded⟩
  cases loaded with
  | none => exact Ends.pure ⟨hredis, .inl trivial⟩
  | some state =>
    refine Ends.pure ⟨hredis, ?_⟩
    split_ifs
    · exact .inr ⟨now, state, rfl, hloaded state rfl, rfl⟩
    · exact .inl trivial

/-- A command of the tenant's writes at most the record it is about to write. -/
theorem commits_of (host : Host) (w : World) (hp : p.Of t) : Commits t w p (resume host p) := by
  cases p with
  | touch t' =>
    obtain rfl := hp
    exact .of_unwritten rfl touchFirst_does
  | touchGet t' now =>
    obtain rfl := hp
    exact commits_touchGet
  | touchSet state => exact hp.elim
  | provision t' config image =>
    obtain rfl := hp
    exact .of_unwritten rfl
      (Does.get_bind (Does.ite (fun _ => Does.throw _) fun _ => stopFirst_does))
  | stop t' next =>
    obtain rfl := hp
    exact .of_unwritten rfl stopFirst_does
  | stopGet t' next =>
    obtain rfl := hp
    -- the record decides whether there is something to stop
    refine .of_load rfl fun loaded => ?_
    cases loaded with
    | none => exact startNext_does
    | some state =>
      dsimp only
      cases state.runningContainer with
      | none => exact startNext_does
      | some id => exact stopKnown_does
  | stopGetConfig t' tc config next =>
    obtain rfl := hp
    exact .of_load rfl fun loaded => stopNext_does
  | stopSet state id next =>
    obtain rfl := hp
    exact .of_save rfl fun u => removed_does
  | startSet state id =>
    -- setup commands only talk to Docker
    refine .of_save rfl fun u => ?_
    refine Does.bind (does_lift (Q := fun _ _ => True) fun _ _ => trivial) fun commands v _ => ?_
    exact Does.bind (does_unwritten runSetup_does) fun _ _ _ => Does.pure trivial
  | done => exact .of_unwritten rfl (Does.pure trivial)

/-- The `SET` of `touch`. -/
theorem touchSet_ends : Ends (resume host (.touchSet state))
    (fun p u => u.redis = w.afterWrite (some state) ∧ p = .done) (fun _ => False) w :=
  saveState_ends.bind fun _ _ hredis => Ends.pure ⟨hredis, rfl⟩

end Command

/-! ### Every command of every thread -/

/-- A thread is at a point of the tenant's, or it is about to write a record back that is the last
one written unless one was written since. -/
structure Thread.Intact (t : String) (last : Option TenantState) (writes : ℕ) (thread : Thread) :
    Prop where
  seen : thread.seen ≤ writes
  point : thread.point.Of t ∨ ∃ state, thread.point = .touchSet state ∧
    (thread.seen = writes → SameRecord (some state) last)

/-- The tenant's record is the last one written, but for its activity, and the threads keep it. -/
structure Threads.Intact (t : String) (s : Threads) : Prop where
  record : SameRecord (s.world.redis.get (stateKey t)) s.last
  threads : ∀ thread ∈ s.threads, thread.Intact t s.last s.writes

section Threads

variable {host : Host} {t : String} {w : World} {caches : ℕ → Dict String TenantContainer}
  {s s' : Threads} {thread : Thread} {last : Option TenantState} {state : TenantState}
  {writes i : ℕ} {a : Act} {as : List Act}

theorem SameRecord.setActivity {now : Int} (h : SameRecord (some state) last) :
    SameRecord (some { state with lastActivity := now }) last := h

theorem Request.point_of (r : Request) : (r.point t).Of t := by
  cases r <;> rfl

/-- What was loaded before a write is out of date after it. -/
theorem Thread.Intact.written (h : thread.Intact t last writes) {last' : Option TenantState} :
    thread.Intact t last' (writes + 1) where
  seen := h.seen.trans (Nat.le_succ _)
  point := by
    refine h.point.imp_right fun ⟨state, hpoint, _⟩ => ⟨state, hpoint, fun heq => ?_⟩
    have := h.seen
    omega

theorem intact_of_request (h : s.Intact t) (process : ℕ) (r : Request) :
    ({ s with threads := s.threads ++ [⟨process, r.point t, s.writes⟩] } : Threads).Intact t where
  record := h.record
  threads thread hthread := by
    obtain hthread | rfl := List.mem_append.mp hthread |>.imp_right List.mem_singleton.mp
    · exact h.threads thread hthread
    · exact ⟨le_rfl, .inl r.point_of⟩

theorem intact_of_around (h : s.Intact t) {op : Op} (hop : op.IsAround) :
    ({ s with world := endState (program host op) s.world } : Threads).Intact t where
  record := by
    have hredis : (endState (program host op) s.world).redis = s.world.redis := by
      cases op <;> first | exact hop.elim | rfl
    exact hredis ▸ h.record
  threads := h.threads

theorem Point.Of.tenantId_eq {p : Point} (h : p.Of t) (hstate : p.writes = some state) :
    state.tenantId = t := by
  cases p <;> simp_all [Point.Of, Point.writes]

/-- What a thread writes is the last record written. -/
theorem Threads.Intact.record_of_write (h : s.Intact t) (hof : thread.point.Of t) :
    SameRecord (((s.view thread.process).afterWrite thread.point.writes).get (stateKey t))
      ((s.written thread).or s.last) := by
  unfold World.afterWrite Threads.written
  split_ifs
  · cases hwrites : thread.point.writes with
    | none => exact h.record
    | some state => simp [hof.tenantId_eq hwrites, SameRecord]
  · exact h.record

/-- A record that is written back is the last one written, but for its activity. -/
theorem Threads.Intact.record_of_touch (h : s.Intact t) (hlast : SameRecord (some state) s.last)
    (process : ℕ) :
    SameRecord (((s.view process).afterWrite (some state)).get (stateKey t)) s.last := by
  unfold World.afterWrite
  split_ifs
  · -- a record that names another tenant is written to that one's key
    by_cases ht : state.tenantId = t
    · simpa [ht] using hlast
    · rw [Dict.get_set_of_ne fun heq => ht (stateKey_inj.mp heq).symm]
      exact h.record
  · exact h.record

/-- The threads after one of them ran up to a point, where it left the records of `w`. -/
theorem intact_of_resumed (h : s.Intact t) (hthread : thread ∈ s.threads) {p : Point}
    (hredis : SameRecord (w.redis.get (stateKey t)) ((s.written thread).or s.last))
    (hpoint : p.Of t ∨ ∃ now state, thread.point = .touchGet t now ∧
      s.world.redis.get (stateKey t) = some state ∧
      p = .touchSet { state with lastActivity := now }) :
    (s.resumed i thread p w).Intact t where
  record := hredis
  threads other hother := by
    have hle : s.writes ≤ (s.resumed i thread p w).writes := by
      cases hwritten : s.written thread <;> simp [Threads.resumed, hwritten]
    obtain hother | rfl := List.mem_or_eq_of_mem_set hother
    · have hintact := h.threads other hother
      cases hwritten : s.written thread with
      | none => simpa [Threads.resumed, hwritten] using hintact
      | some state => simpa [Threads.resumed, hwritten] using hintact.written
    · refine ⟨?_, hpoint.imp_right ?_⟩
      · dsimp only
        split
        · exact hle
        · exact (h.threads thread hthread).seen.trans hle
      -- the record was just loaded
      · rintro ⟨now, state, htouch, hstate, rfl⟩
        refine ⟨_, rfl, fun _ => ?_⟩
        have hnone : s.written thread = none := by simp [Threads.written, htouch, Point.writes]
        have hlast := hstate ▸ h.record
        simpa [Threads.resumed, hnone] using hlast.setActivity

/-- A thread of the tenant's runs up to its next command. -/
theorem intact_of_resume (h : s.Intact t) (hthread : thread ∈ s.threads) (hof : thread.point.Of t)
    (hs' : (match (resume host thread.point).run (s.view thread.process) with
      | .ok p w => some (s.resumed i thread p w)
      | .error _ w => some (s.resumed i thread .done w)) = some s') : s'.Intact t := by
  have hends : Ends (resume host thread.point) _ _ (s.view thread.process) :=
    commits_of host (s.view thread.process) hof
  split at hs'
  · rename_i hrun
    obtain rfl := Option.some_inj.mp hs'
    obtain ⟨hredis, hnext⟩ := hends.ok hrun
    exact intact_of_resumed h hthread (hredis ▸ h.record_of_write hof) hnext
  · rename_i hrun
    obtain rfl := Option.some_inj.mp hs'
    exact intact_of_resumed h hthread (hends.error hrun ▸ h.record_of_write hof) (.inl trivial)

/-- A `touch` writes back a record that is still the last one. -/
theorem intact_of_writeBack {process seen : ℕ} (h : s.Intact t)
    (hthread : ⟨process, .touchSet state, seen⟩ ∈ s.threads)
    (hlast : SameRecord (some state) s.last)
    (hs' : (match (resume host (.touchSet state)).run (s.view process) with
      | .ok p w => some (s.resumed i ⟨process, .touchSet state, seen⟩ p w)
      | .error _ w => some (s.resumed i ⟨process, .touchSet state, seen⟩ .done w)) = some s') :
    s'.Intact t := by
  have hnone : s.written ⟨process, .touchSet state, seen⟩ = none := by
    simp [Threads.written, Point.writes]
  split at hs'
  · rename_i hrun
    obtain rfl := Option.some_inj.mp hs'
    obtain ⟨hredis, rfl⟩ := touchSet_ends.ok hrun
    refine intact_of_resumed h hthread ?_ (.inl trivial)
    rw [hnone, Option.none_or, hredis]
    exact h.record_of_touch hlast process
  · rename_i hrun
    exact (touchSet_ends.error hrun).elim

/-- **Step lemma.** -/
theorem intact_of_step (h : s.Intact t) (hquick : ¬Delayed s a)
    (hstep : (threads host t w caches).step s a = some s') : s'.Intact t := by
  cases a with
  | request process r =>
    obtain rfl := Option.some_inj.mp hstep
    exact intact_of_request h process r
  | around op =>
    simp only [threads] at hstep
    split_ifs at hstep with hop
    obtain rfl := Option.some_inj.mp hstep
    exact intact_of_around h hop
  | resume i =>
    simp only [threads] at hstep
    cases hthread : s.threads[i]? with
    | none => simp [hthread] at hstep
    | some thread =>
      simp only [hthread] at hstep
      have hmem : thread ∈ s.threads := List.mem_of_getElem? hthread
      obtain hof | ⟨state, htouch, hlast⟩ := (h.threads thread hmem).point
      · exact intact_of_resume h hmem hof hstep
      · obtain ⟨process, point, seen⟩ := thread
        obtain rfl : point = .touchSet state := htouch
        -- nothing was written since the record was loaded
        have hseen : seen = s.writes := by simpa [Delayed, hthread] using hquick
        exact intact_of_writeBack h hmem (hlast hseen) hstep

/-- **No record comes back**: as long as no `touch` writes a record back that was written since it
loaded it, the tenant's record is the last one that `stop_tenant` or `provision_tenant` wrote, but
for its activity. -/
theorem sameRecord_of_run
    (hacts : (threads host t w caches).AllSteps (fun s a => ¬Delayed s a)
      (threads host t w caches).init as)
    (hrun : (threads host t w caches).run as = some s) :
    SameRecord (s.world.redis.get (stateKey t)) s.last := by
  have hinit : (threads host t w caches).init.Intact t :=
    ⟨rfl, fun thread h => by simp [threads] at h⟩
  exact (Machine.run_invariant intact_of_step hinit hacts hrun).record

end Threads

/-! ### A tenant that is stopped during a touch -/

/-- One process starts a tenant. -/
def provisioned : List Act :=
  [.request 0 (.provision (.obj []) defaultImage), .resume 0, .resume 0, .resume 0]

/-- Another one stops the tenant after a `touch` of the first one. -/
def touchedThenStopped : List Act :=
  provisioned ++
    [.request 0 .touch, .resume 1, .resume 1, .resume 1,
      .request 1 .stop, .resume 2, .resume 2, .resume 2]

/-- Another one stops the tenant between the two commands of a `touch` of the first one. -/
def stoppedDuringTouch : List Act :=
  provisioned ++
    [.request 0 .touch, .resume 1, .resume 1,
      .request 1 .stop, .resume 2, .resume 2, .resume 2, .resume 1]

theorem sameRecord_of_run_touchedThenStopped : ∃ s,
    (threads sampleHost "alice" sampleWorld fun _ => .empty).run touchedThenStopped = some s ∧
      s.Done ∧ SameRecord (s.world.redis.get (stateKey "alice")) s.last := by
  have hdone : ((threads sampleHost "alice" sampleWorld fun _ => .empty).run
      touchedThenStopped).map (fun s => decide s.Done) = some true := by decide +kernel
  obtain ⟨s, hrun, hdone⟩ := Option.map_eq_some_iff.mp hdone
  exact ⟨s, hrun, of_decide_eq_true hdone, sameRecord_of_run (by decide +kernel) hrun⟩

/-- **A stopped tenant whose record says running**: the record that `touch` loaded before the
tenant was stopped is written back. -/
theorem stopped_record_lost : ∃ s,
    (threads sampleHost "alice" sampleWorld fun _ => .empty).run stoppedDuringTouch = some s ∧
      s.Done ∧ s.last.map TenantState.status = some .stopped ∧
      (s.world.redis.get (stateKey "alice")).map TenantState.status = some .running ∧
      ¬SameRecord (s.world.redis.get (stateKey "alice")) s.last := by
  have hcheck : ((threads sampleHost "alice" sampleWorld fun _ => .empty).run
      stoppedDuringTouch).map (fun s => decide (s.Done ∧
        s.last.map TenantState.status = some .stopped ∧
        (s.world.redis.get (stateKey "alice")).map TenantState.status = some .running)) =
      some true := by decide +kernel
  obtain ⟨s, hrun, hcheck⟩ := Option.map_eq_some_iff.mp hcheck
  obtain ⟨hdone, hlast, hrecord⟩ := of_decide_eq_true hcheck
  refine ⟨s, hrun, hdone, hlast, hrecord, fun hsame => ?_⟩
  -- the two would have the same status
  have hstatus := congrArg (Option.map TenantState.status) hsame
  simp only [Option.map_map] at hstatus
  exact absurd (hrecord.symm.trans (hstatus.trans hlast)) (by decide)

end Nanogate.Tenants
