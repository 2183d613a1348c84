import Nanogate.Tenants.Pruner
import Nanogate.Tenants.Settings

/-!
# What the manager is for

Seen from outside, the manager keeps a ledger: with which settings a tenant was started last, and
whether it is running. A configuration that is posted starts the tenant with it, a tenant that is
asked for is started with the settings it had, and whatever else happens at most stops it. While
Redis works, the methods of the manager do nothing else, whatever calls to Docker and to the file
system fail: each of them is a step of the ledger, and an exception leaves one of few ledgers.

## Main definitions

* `Ledger` — the tenants with their settings and last uses
* `Ledger.Step` — the steps of the ledger, for an operation that returned or raised
* `Shows` — the records and the files are those of the ledger

## Main results

* `refines` — every operation of the manager is a step of the ledger
* `shows_of_run` — a run of the manager is a chain of steps of the ledger
* `Ledger.settings_of_chain` — only a configuration that is posted changes the settings
-/

namespace Nanogate.Tenants

open Nanogate.Python Nanogate.Semantics Relation

/-! ### The ledger -/

/-- A tenant that was started: its settings, and while it runs, its last use. -/
structure Tenancy where
  settings : Json
  lastUse : Option Int

/-- The tenants that were started so far, and the time. -/
structure Ledger where
  tenancy : String → Option Tenancy
  now : Int

namespace Ledger

/-- Nobody was started yet. -/
def empty (now : Int) : Ledger := ⟨fun _ => none, now⟩

/-- The tenant is started with the settings. -/
def started (l : Ledger) (t : String) (settings : Json) : Ledger :=
  { l with tenancy := Function.update l.tenancy t (some ⟨settings, some l.now⟩) }

/-- The tenant stops running. -/
def halted (l : Ledger) (t : String) : Ledger :=
  { l with
    tenancy := Function.update l.tenancy t
      ((l.tenancy t).map fun e => { e with lastUse := none }) }

/-- A use of the tenant is written down, if it is running. -/
def touched (l : Ledger) (t : String) : Ledger :=
  { l with
    tenancy := Function.update l.tenancy t
      ((l.tenancy t).map fun e => { e with lastUse := e.lastUse.map fun _ => l.now }) }

/-- Tenants stop running, one after the other. -/
def haltedAll (l : Ledger) (ts : List String) : Ledger := ts.foldl halted l

/-- The settings that the tenant was started with last, or none. -/
def kept (l : Ledger) (t : String) : Json := ((l.tenancy t).map Tenancy.settings).getD (.obj [])

/-- The tenant is running. -/
def Runs (l : Ledger) (t : String) : Prop := ∃ e ∈ l.tenancy t, e.lastUse.isSome = true

/-- The tenant is running and was not used within the idle timeout. -/
def Idle (l : Ledger) (t : String) : Prop :=
  ∃ e ∈ l.tenancy t, ∃ use ∈ e.lastUse, idleTimeout < l.now - use

/-- The steps of the ledger, each for an operation and whether it returned. -/
inductive Step : Ledger → Op × Bool → Ledger → Prop
  | provisioned {l : Ledger} {t : String} {config : Json} {image : String} :
      Step l (.provision t config image, true) (l.started t config)
  | provisionRaised {l l' : Ledger} {t : String} {config : Json} {image : String}
      (h : l' = l ∨ l' = l.halted t ∨ l' = l.started t config) :
      Step l (.provision t config image, false) l'
  | found {l : Ledger} {t : String} : Step l (.getTenant t, true) l
  | lost {l : Ledger} {t : String} : Step l (.getTenant t, true) (l.halted t)
  | served {l : Ledger} {t : String} (h : l.Runs t) : Step l (.getOrCreate t, true) l
  | resumed {l : Ledger} {t : String} : Step l (.getOrCreate t, true) (l.started t (l.kept t))
  | resumeRaised {l l' : Ledger} {t : String}
      (h : l' = l.halted t ∨ l' = l.started t (l.kept t)) : Step l (.getOrCreate t, false) l'
  | unrecorded {l : Ledger} {t : String} : Step l (.touch t, true) l
  | touched {l : Ledger} {t : String} : Step l (.touch t, true) (l.touched t)
  | stopped {l : Ledger} {t : String} : Step l (.stop t, true) (l.halted t)
  | stopRaised {l : Ledger} {t : String} : Step l (.stop t, false) l
  | pruned {l : Ledger} {keys ts : List String} (h : ∀ t ∈ ts, l.Idle t) :
      Step l (.prune keys, true) (l.haltedAll ts)
  | restarted {l : Ledger} {keys ts : List String} {returned : Bool} :
      Step l (.restart keys, returned) (l.haltedAll ts)
  | shutDown {l : Ledger} {ts : List String} {returned : Bool} :
      Step l (.shutdown, returned) (l.haltedAll ts)
  | passed {l : Ledger} {duration : ℕ} :
      Step l (.pass duration, true) { l with now := l.now + duration }
  | vanished {l : Ledger} {id : ℕ} : Step l (.vanish id, true) l
  | listened {l : Ledger} {port : ℕ} : Step l (.listen port, true) l
  | failing {l : Ledger} {redis docker files : List Bool} :
      Step l (.fail redis docker files, true) l

section Laws

variable {l l' : Ledger} {t t' : String} {settings : Json} {ts : List String}

theorem tenancy_started_self : (l.started t settings).tenancy t = some ⟨settings, some l.now⟩ :=
  Function.update_self ..

theorem tenancy_started_of_ne (h : t' ≠ t) :
    (l.started t settings).tenancy t' = l.tenancy t' := Function.update_of_ne h ..

theorem tenancy_halted_self :
    (l.halted t).tenancy t = (l.tenancy t).map fun e => { e with lastUse := none } :=
  Function.update_self ..

theorem tenancy_halted_of_ne (h : t' ≠ t) : (l.halted t).tenancy t' = l.tenancy t' :=
  Function.update_of_ne h ..

theorem tenancy_touched_self : (l.touched t).tenancy t =
    (l.tenancy t).map fun e => { e with lastUse := e.lastUse.map fun _ => l.now } :=
  Function.update_self ..

theorem tenancy_touched_of_ne (h : t' ≠ t) : (l.touched t).tenancy t' = l.tenancy t' :=
  Function.update_of_ne h ..

/-- A tenant that is started need not be stopped before. -/
theorem started_halted : (l.halted t).started t settings = l.started t settings := by
  unfold started halted
  rw [Function.update_idem]

theorem halted_halted : (l.halted t).halted t = l.halted t := by
  unfold halted
  simp only [Function.update_self, Function.update_idem, Option.map_map]
  rfl

theorem haltedAll_cons : l.haltedAll (t :: ts) = (l.halted t).haltedAll ts := rfl

theorem haltedAll_snoc : l.haltedAll (ts ++ [t]) = (l.haltedAll ts).halted t := by
  rw [haltedAll, List.foldl_append]
  rfl

/-- Stopping tenants changes no settings. -/
theorem settings_halted :
    ((l.halted t).tenancy t').map Tenancy.settings = (l.tenancy t').map Tenancy.settings := by
  by_cases h : t' = t
  · rw [h, tenancy_halted_self, Option.map_map]
    rfl
  · rw [tenancy_halted_of_ne h]

theorem settings_haltedAll :
    ((l.haltedAll ts).tenancy t').map Tenancy.settings =
      (l.tenancy t').map Tenancy.settings := by
  induction ts generalizing l with
  | nil => rfl
  | cons t ts ih => rw [haltedAll_cons, ih, settings_halted]

theorem settings_touched :
    ((l.touched t).tenancy t').map Tenancy.settings = (l.tenancy t').map Tenancy.settings := by
  by_cases h : t' = t
  · rw [h, tenancy_touched_self, Option.map_map]
    rfl
  · rw [tenancy_touched_of_ne h]

theorem kept_halted : (l.halted t).kept t' = l.kept t' := by
  rw [kept, kept, settings_halted]

/-- Starting a tenant with the settings it had changes no settings. -/
theorem settings_resumed (h : (l.tenancy t').isSome = true) :
    ((l.started t (l.kept t)).tenancy t').map Tenancy.settings =
      (l.tenancy t').map Tenancy.settings := by
  by_cases ht : t' = t
  · subst ht
    obtain ⟨e, he⟩ := Option.isSome_iff_exists.mp h
    rw [tenancy_started_self, kept, he]
    rfl
  · rw [tenancy_started_of_ne ht]

/-- A step that posts nothing for a tenant that was started leaves its settings. -/
theorem Step.settings_eq {a : Op × Bool} (hstep : Step l a l') (hposts : PostsNothing t a.1)
    (h : (l.tenancy t).map Tenancy.settings = some settings) :
    (l'.tenancy t).map Tenancy.settings = some settings := by
  have hsome : (l.tenancy t).isSome = true := by
    rw [← Option.isSome_map, h]
    rfl
  cases hstep with
  | provisioned => exact (congrArg _ (tenancy_started_of_ne (Ne.symm hposts))).trans h
  | provisionRaised hl =>
    rcases hl with rfl | rfl | rfl
    · exact h
    · exact settings_halted.trans h
    · exact (congrArg _ (tenancy_started_of_ne (Ne.symm hposts))).trans h
  | lost | stopped => exact settings_halted.trans h
  | resumed => exact (settings_resumed hsome).trans h
  | resumeRaised hl =>
    rcases hl with rfl | rfl
    · exact settings_halted.trans h
    · exact (settings_resumed hsome).trans h
  | touched => exact settings_touched.trans h
  | pruned | restarted | shutDown => exact settings_haltedAll.trans h
  | _ => exact h

/-- Only a configuration that is posted for a tenant changes its settings. -/
theorem settings_of_chain {as : List (Op × Bool)} (hchain : Machine.Chain Step l as l')
    (hposts : ∀ a ∈ as, PostsNothing t a.1)
    (h : (l.tenancy t).map Tenancy.settings = some settings) :
    (l'.tenancy t).map Tenancy.settings = some settings :=
  hchain.keeps (I := fun l => (l.tenancy t).map Tenancy.settings = some settings)
    (P := fun a => PostsNothing t a.1) (fun h hposts hstep => hstep.settings_eq hposts h) hposts h

end Laws

end Ledger

/-! ### What the world shows of the ledger -/

/-- A record that holds what the ledger says of its tenant. -/
inductive ShowsAt : Option TenantState → Option Tenancy → Prop
  | unknown : ShowsAt none none
  | known {state : TenantState} {e : Tenancy} (hsame : SameSettings e.settings state.configData)
      (huse : e.lastUse = if state.status = .running then some state.lastActivity else none) :
      ShowsAt (some state) (some e)

/-- The records of the tenants hold what the ledger says, and so do the files of those that are
running. -/
structure Shows (host : Host) (w : World) (l : Ledger) : Prop where
  now : w.now = l.now
  record : ∀ t, PurePath.IsFileName t → ShowsAt (w.redis.get (stateKey t)) (l.tenancy t)
  file : ∀ t e, PurePath.IsFileName t → l.tenancy t = some e → e.lastUse.isSome = true →
    ∃ place written, configPlace host t = some place ∧
      w.fs.text place = some (.json written) ∧ SameSettings e.settings written

/-- The records hold what the ledger says, and are safe. -/
structure Tallies (host : Host) (w : World) (l : Ledger) : Prop where
  sound : Sound host w
  safe : ∀ t, PurePath.IsFileName t → Safe host t w
  now : w.now = l.now
  record : ∀ t, PurePath.IsFileName t → ShowsAt (w.redis.get (stateKey t)) (l.tenancy t)

section Records

variable {host : Host} {w w' u : World} {l l' : Ledger} {t t' : String} {config : Json}
  {o : Option TenantState} {e : Option Tenancy} {state state' : TenantState}
  {P : Call → Prop}

theorem ShowsAt.exists_of_some (h : ShowsAt (some state) e) : ∃ e' ∈ e,
    SameSettings e'.settings state.configData ∧
      e'.lastUse = if state.status = .running then some state.lastActivity else none := by
  cases h with
  | known hsame huse => exact ⟨_, rfl, hsame, huse⟩

/-- A tenant of the ledger has a record. -/
theorem ShowsAt.exists_record {e : Tenancy} (h : ShowsAt o (some e)) : ∃ state ∈ o,
    SameSettings e.settings state.configData ∧
      e.lastUse = if state.status = .running then some state.lastActivity else none := by
  cases h with
  | known hsame huse => exact ⟨_, rfl, hsame, huse⟩

/-- A tenant whose record does not say running need not be stopped. -/
theorem ShowsAt.halted (h : ShowsAt o e) (hno : ∀ state ∈ o, state.status ≠ .running) :
    ShowsAt o (e.map fun e => { e with lastUse := none }) := by
  cases h with
  | unknown => exact .unknown
  | known hsame _ => exact .known hsame (if_neg (hno _ rfl)).symm

/-- A record with the same settings that does not say running is written. -/
theorem ShowsAt.put_halted (h : ShowsAt (some state) e)
    (hsame : SameSettings state.configData state'.configData) (hno : state'.status ≠ .running) :
    ShowsAt (some state') (e.map fun e => { e with lastUse := none }) := by
  obtain ⟨e', rfl, hsame', -⟩ := h.exists_of_some
  exact .known (hsame'.trans hsame) (if_neg hno).symm

theorem now_of_turn (h : Turn host P w w') : w'.now = w.now := by
  cases h with
  | same h => exact h.now_eq
  | build => rfl
  | @call c _ _ _ hchanges =>
    exact kept_of_reaches (I := fun u => u.now = c.world.now)
      (fun _ _ hstep h => (now_of_change hstep).trans h) hchanges rfl

namespace Tallies

theorem backed (h : Tallies host w l) : Backed w :=
  (h.safe "default" (by decide)).sourced.backed

/-- A call that leaves the records alone. -/
theorem of_redis (h : Tallies host w l) (hturn : Turn host Call.Named w u)
    (hredis : u.redis = w.redis) : Tallies host u l :=
  ⟨h.sound.of_turn hturn,
    fun t ht => ((keeps_safe ht).of_turns (.single hturn) h.sound (h.safe t ht)).2,
    (now_of_turn hturn).trans h.now, fun t ht => hredis ▸ h.record t ht⟩

/-- A call for one tenant. -/
theorem of_turn (h : Tallies host w l) (hturn : Turn host Call.Named w u) (hs : Settled t w u)
    (hnow : l'.now = l.now) (hothers : ∀ t', t' ≠ t → l'.tenancy t' = l.tenancy t')
    (hat : PurePath.IsFileName t → ShowsAt (u.redis.get (stateKey t)) (l'.tenancy t)) :
    Tallies host u l' := by
  refine ⟨h.sound.of_turn hturn,
    fun t ht => ((keeps_safe ht).of_turns (.single hturn) h.sound (h.safe t ht)).2,
    (now_of_turn hturn).trans (h.now.trans hnow.symm), fun t' ht' => ?_⟩
  by_cases hne : t' = t
  · exact hne ▸ hat (hne ▸ ht')
  · rw [hs.redis _ (mt stateKey_inj.mp hne), hothers t' hne]
    exact h.record t' ht'

/-- What is stopped is written down, with the settings it had. -/
theorem of_stopping (h : Tallies host w l) (hturn : Turn host Call.Named w u)
    (hstop : Stopping host t w u) (hno : ¬w.StopRaises host t) : Tallies host u (l.halted t) := by
  refine h.of_turn hturn (settled_of_stopping h.backed hstop) rfl
    (fun _ => Ledger.tenancy_halted_of_ne) fun ht => ?_
  rw [Ledger.tenancy_halted_self]
  cases hstop with
  | idle hholder =>
    refine (h.record t ht).halted fun state hstate hrun => ?_
    have hsome := (h.safe t ht).sourced.holder_of_running hstate hrun
    rw [hholder] at hsome
    simp at hsome
  | raised hraises => exact absurd hraises hno
  | @stopped tc _ hholder _ hhalted =>
    obtain ⟨state, hstate, -⟩ := h.backed.running_of_holder hholder
    -- the record and the file hold the last good configuration
    obtain ⟨-, good, hgood, hkept⟩ := (h.safe t ht).kept h.sound hholder
    obtain ⟨-, good', hgood', hrecorded⟩ := (h.safe t ht).recorded state hstate
    obtain rfl := Option.some_inj.mp (hgood.symm.trans hgood')
    have hrecord : u.redis.get (stateKey t) = some (tc.stopped t (w.kept host t tc)) := by
      rw [hhalted.redis]
      exact Dict.get_set_self
    rw [hrecord]
    refine (hstate ▸ h.record t ht).put_halted ?_ (by simp [TenantContainer.stopped])
    exact (sameSettings_of_gives hrecorded).symm.trans (sameSettings_of_gives hkept)

theorem of_found (h : Tallies host w l) (hturn : Turn host Call.Named w u)
    (hlook : Looking t w u) (hfound : (u.tenants.get t).isSome = true) :
    Tallies host u l ∧ (PurePath.IsFileName t → l.Runs t) := by
  have hredis : u.redis = w.redis := by
    cases hlook with
    | hit | nothing | restored => rfl
    | missing hmiss =>
      have hnone : w.tenants.get t = none := hmiss
      simp [World.put, World.dockerCalled, hnone] at hfound
  refine ⟨h.of_redis hturn hredis, fun ht => ?_⟩
  obtain ⟨tc, htc⟩ := Option.isSome_iff_exists.mp hfound
  obtain ⟨state, hstate, hmirrors⟩ := (h.of_redis hturn hredis).backed t tc htc
  have hshows := h.record t ht
  rw [← hredis, hstate] at hshows
  obtain ⟨e, he, -, huse⟩ := hshows.exists_of_some
  exact ⟨e, he, by rw [huse, if_pos hmirrors.status]; rfl⟩

theorem of_missed (h : Tallies host w l) (hturn : Turn host Call.Named w u)
    (hlook : Looking t w u) (hmissed : u.tenants.get t = none) : Tallies host u (l.halted t) := by
  refine h.of_turn hturn (settled_of_looking h.sound h.backed hlook) rfl
    (fun _ => Ledger.tenancy_halted_of_ne) fun ht => ?_
  rw [Ledger.tenancy_halted_self]
  cases hlook with
  | hit | restored => simp [World.cached] at hmissed
  | nothing hmiss hnone =>
    -- a record that says running names a container, which would have been found
    refine (h.record t ht).halted fun state hstate hrun => ?_
    have hsome := (h.safe t ht).sourced.holder_of_running hstate hrun
    have hrunning := hnone (h.sound.hasClient_of_holder hsome) state hstate
    rw [World.holder, hmiss, hstate] at hsome
    simp [hrunning] at hsome
  | @missing state _ hmiss hstate =>
    have hrecord : (w.dockerCalled.put state.markStopped).redis.get (stateKey t) =
        some state.markStopped := by
      rw [(h.sound.registered.record _ _ hstate).1]
      exact Dict.get_set_self
    rw [hrecord]
    exact (hstate ▸ h.record t ht).put_halted (.refl _) (by simp [TenantState.markStopped])

theorem of_touching (h : Tallies host w l) (hturn : Turn host Call.Named w u)
    (htouch : Touching t w u) : Tallies host u l ∨ Tallies host u (l.touched t) := by
  cases htouch with
  | absent | cached => exact .inl (h.of_redis hturn rfl)
  | @recorded tc state hentry hstate hrun =>
    refine .inr (h.of_turn hturn (settled_of_touching h.sound h.backed
      (.recorded hentry hstate hrun)) rfl (fun _ => Ledger.tenancy_touched_of_ne) fun ht => ?_)
    obtain ⟨e, he, hsame, huse⟩ := (hstate ▸ h.record t ht).exists_of_some
    have hrecord : ((w.cached t { tc with lastActivity := w.now }).put
        { state with lastActivity := w.now }).redis.get (stateKey t) =
          some { state with lastActivity := w.now } := by
      rw [(h.sound.registered.record _ _ hstate).1]
      exact Dict.get_set_self
    rw [hrecord, Ledger.tenancy_touched_self, he]
    refine .known hsame ?_
    dsimp only
    rw [huse, if_pos hrun, Option.map_some, if_pos hrun, h.now]

theorem of_launching (h : Tallies host w l) (hturn : Turn host Call.Named w u)
    (hlaunch : Launching host t config w u) :
    (Tallies host u l ∧ u.tenants = w.tenants) ∨ Tallies host u (l.started t config) := by
  have hs := settled_of_launching h.backed hlaunch
  cases hlaunch with
  | failed hsteps =>
    have huntouched := untouched_of_preparing hsteps
    exact .inl ⟨h.of_redis hturn huntouched.redis, huntouched.tenants⟩
  | @launched y _ container _ written saved hstart hfiled hsame =>
    right
    refine h.of_turn hturn hs rfl (fun _ => Ledger.tenancy_started_of_ne) fun _ => ?_
    obtain ⟨setting, hmerge, -⟩ := hstart.prepared.merged
    have hrecord : u.redis.get (stateKey t) =
        some (runningState host t y.nextId container.port saved y.now) := by
      rw [hsame.redis_eq]
      exact Dict.get_set_self
    rw [hrecord, Ledger.tenancy_started_self]
    refine .known ((sameSettings_of_merge hmerge).trans
      (sameSettings_of_inject hstart.prepared.injected)) ?_
    change some l.now = some y.now
    rw [(untouched_of_preparing hstart.reaches).now, h.now]

/-- A tenant that is stopped and no file's name need not be stopped. -/
theorem of_halted (h : Tallies host w (l.halted t)) (ht : ¬PurePath.IsFileName t) :
    Tallies host w l := by
  refine ⟨h.sound, h.safe, h.now, fun t' ht' => ?_⟩
  have hne : t' ≠ t := fun heq => ht (heq ▸ ht')
  rw [← Ledger.tenancy_halted_of_ne hne]
  exact h.record t' ht'

/-- A tenant may have been started with other settings that are the same. -/
theorem of_started (h : Tallies host w (l.started t config)) {settings : Json}
    (hsame : SameSettings settings config) : Tallies host w (l.started t settings) := by
  refine ⟨h.sound, h.safe, h.now, fun t' ht' => ?_⟩
  have hrecord := h.record t' ht'
  by_cases hne : t' = t
  · subst hne
    rw [Ledger.tenancy_started_self] at hrecord ⊢
    obtain ⟨state, hstate, hsame', huse⟩ := hrecord.exists_record
    rw [Option.mem_def.mp hstate]
    exact .known (hsame.trans hsame') huse
  · rw [Ledger.tenancy_started_of_ne hne] at hrecord ⊢
    exact hrecord

/-- The files of the tenants that are running hold their settings. -/
theorem shows (h : Tallies host w l) : Shows host w l := by
  refine ⟨h.now, h.record, fun t e ht he hrunning => ?_⟩
  have hrecord := h.record t ht
  rw [he] at hrecord
  obtain ⟨state, hstate, hsame, huse⟩ := hrecord.exists_record
  have hrun : state.status = .running := by
    by_contra hno
    rw [huse, if_neg hno] at hrunning
    simp at hrunning
  obtain ⟨place, good, hplace, hgood, htext⟩ := (h.safe t ht).filed state hstate hrun
  obtain ⟨-, good', hgood', hgives⟩ := (h.safe t ht).recorded state hstate
  obtain rfl := Option.some_inj.mp (hgood.symm.trans hgood')
  exact ⟨place, good, hplace, htext, hsame.trans (sameSettings_of_gives hgives).symm⟩

end Tallies

end Records

/-! ### Methods -/

section Methods

variable {host : Host} {w u : World} {l : Ledger} {t image : String} {config : Json}
  {ts keys : List String} {op : Op}

theorem stopTenant_tallies (h : Tallies host w l) (t : String) : Ends (stopTenant host t)
    (fun _ u => Tallies host u (l.halted t) ∧ u.holder t = none ∧ u.hasClient = w.hasClient)
    (fun u => Tallies host u l) w := by
  refine (stop_turn (P := Call.Named) t h.sound trivial).mono ?_ ?_
  · rintro _ u ⟨hturn, hno, hstop⟩
    exact ⟨h.of_stopping hturn hstop hno, hstop.holder_eq_none hno, hstop.hasClient_eq⟩
  · rintro u ⟨hturn, hraises, hstop⟩
    cases hstop with
    | idle => exact h
    | raised _ hread => exact h.of_redis hturn hread.same.redis_eq
    | stopped _ hno => exact absurd hraises hno

theorem getTenant_tallies (h : Tallies host w l) (t : String) : Ends (getTenant t)
    (fun
      | some _, u => Tallies host u l ∧ (PurePath.IsFileName t → l.Runs t)
      | none, u => Tallies host u (l.halted t))
    (fun _ => False) w := by
  refine (look_turn (P := Call.Named) host t h.sound.redisWorks trivial).mono ?_ fun _ h => h
  rintro r u ⟨hturn, hlook, hr⟩
  cases r with
  | some tc => exact h.of_found hturn hlook (by rw [← hr]; rfl)
  | none => exact h.of_missed hturn hlook hr.symm

theorem touch_tallies (h : Tallies host w l) (t : String) : Ends (touch t)
    (fun _ u => Tallies host u l ∨ Tallies host u (l.touched t)) (fun _ => False) w :=
  (touch_turn (P := Call.Named) host h.sound.redisWorks trivial).mono
    (fun _ _ hends => h.of_touching hends.1 hends.2) fun _ h => h

theorem provisionTenant_tallies (h : Tallies host w l) (ht : PurePath.IsFileName t) :
    Ends (provisionTenant host t config image) (fun _ u => Tallies host u (l.started t config))
      (fun u => Tallies host u l ∨ Tallies host u (l.halted t) ∨
        Tallies host u (l.started t config)) w := by
  by_cases hclient : w.hasClient = true
  · have hsplit : Ends (do
        stopTenant host t
        startTenant host t config image)
        (fun _ u => (Tallies host u (l.halted t) ∧ u.tenants.get t = none) ∨
          Tallies host u (l.started t config))
        (fun u => Tallies host u l ∨ Tallies host u (l.halted t) ∨
          Tallies host u (l.started t config)) w := by
      refine Ends.bind ((stopTenant_tallies h t).mono (fun _ _ h => h) fun _ h => .inl h) ?_
      rintro _ u ⟨hu, hholder, hclient'⟩
      refine (start_turn (P := Call.Named) hu.sound.redisWorks hholder (hclient'.trans hclient)
        ht).mono ?_ ?_
      · rintro _ v ⟨hturn, hlaunch⟩
        rcases hu.of_launching hturn hlaunch with ⟨hv, htenants⟩ | hv
        · exact .inl ⟨hv, htenants ▸ (holder_eq_none_iff.mp hholder).1⟩
        · exact .inr (Ledger.started_halted ▸ hv)
      · rintro v ⟨hturn, hlaunch⟩
        rcases hu.of_launching hturn hlaunch with ⟨hv, -⟩ | hv
        · exact .inr (.inl hv)
        · exact .inr (.inr (Ledger.started_halted ▸ hv))
    -- an entry is left only by a container that was started
    refine ((hsplit.congr (provisionTenant_run hclient)).and provisionTenant_caches).mono ?_
      fun _ h => h.1
    rintro tc u ⟨⟨-, hmiss⟩ | hu, hcached⟩
    · rw [hmiss] at hcached
      simp at hcached
    · exact hu
  · unfold provisionTenant
    refine Ends.get_bind ?_
    rw [if_pos (by simpa using hclient)]
    exact Ends.throw _ (.inl h)

/-- What is resumed has the settings that the tenant was started with last. -/
theorem getSavedState_tallies (h : Tallies host w l) (ht : PurePath.IsFileName t) :
    Ends (getSavedState t)
      (fun saved u => Tallies host u l ∧ SameSettings (l.kept t) (saved.getD (.obj [])))
      (fun _ => False) w := by
  have hasked : Tallies host w.asked l :=
    h.of_redis (.same w.same_asked) w.same_asked.redis_eq
  refine Ends.of_ok getSavedState_run ⟨hasked, ?_⟩
  have hrecord := h.record t ht
  rw [if_pos h.sound.redisWorks.answers, Ledger.kept]
  cases hstate : w.redis.get (stateKey t) with
  | none =>
    rw [hstate] at hrecord
    generalize l.tenancy t = e at hrecord ⊢
    cases hrecord
    exact .refl _
  | some state =>
    rw [hstate] at hrecord
    obtain ⟨e, he, hsame, -⟩ := hrecord.exists_of_some
    obtain ⟨htruthy, -⟩ := (h.safe t ht).recorded state hstate
    rw [he, Option.map_some, Option.map_some, Option.filter_some, if_pos htruthy]
    exact hsame

theorem getOrCreate_tallies (h : Tallies host w l) (ht : PurePath.IsFileName t) :
    Ends (getOrCreate host t)
      (fun _ u => (Tallies host u l ∧ l.Runs t) ∨ Tallies host u (l.started t (l.kept t)))
      (fun u => Tallies host u (l.halted t) ∨ Tallies host u (l.started t (l.kept t))) w := by
  unfold getOrCreate
  refine Ends.bind ((getTenant_tallies h t).mono (fun _ _ h => h) fun _ h => h.elim) ?_
  rintro (_ | tc) u hu
  · refine Ends.bind ((getSavedState_tallies hu ht).mono (fun _ _ h => h) fun _ h => h.elim) ?_
    rintro saved v ⟨hv, hsame⟩
    rw [Ledger.kept_halted] at hsame
    have hstarted {x : World}
        (hx : Tallies host x ((l.halted t).started t (saved.getD (.obj [])))) :
        Tallies host x (l.started t (l.kept t)) :=
      (Ledger.started_halted ▸ hx).of_started hsame
    refine (provisionTenant_tallies hv ht).mono (fun _ _ hx => .inr (hstarted hx)) ?_
    rintro x (hx | hx | hx)
    · exact .inl hx
    · exact .inl (Ledger.halted_halted ▸ hx)
    · exact .inr (hstarted hx)
  · exact Ends.pure (.inl ⟨hu.1, hu.2 ht⟩)

/-- A loop over `stop_tenant` stops tenants of its list, and those that were recorded have names of
files. -/
theorem stopAll_tallies (h : Tallies host w l) (ts : List String) :
    Ends (stopAll host ts)
      (fun _ u => ∃ ts', (∀ t ∈ ts', t ∈ ts ∧ PurePath.IsFileName t) ∧
        Tallies host u (l.haltedAll ts'))
      (fun u => ∃ ts', (∀ t ∈ ts', t ∈ ts ∧ PurePath.IsFileName t) ∧
        Tallies host u (l.haltedAll ts')) w := by
  induction ts generalizing w l with
  | nil => exact Ends.pure ⟨[], by simp, h⟩
  | cons t ts ih =>
    refine Ends.bind ((stopTenant_tallies h t).mono (fun _ _ h => h.1)
      fun _ h => ⟨[], by simp, h⟩) ?_
    rintro _ u hu
    by_cases ht : PurePath.IsFileName t
    · have hcons {v : World} : (∃ ts', (∀ t' ∈ ts', t' ∈ ts ∧ PurePath.IsFileName t') ∧
          Tallies host v ((l.halted t).haltedAll ts')) → ∃ ts',
            (∀ t' ∈ ts', t' ∈ t :: ts ∧ PurePath.IsFileName t') ∧
              Tallies host v (l.haltedAll ts') := by
        rintro ⟨ts', hts', hv⟩
        refine ⟨t :: ts', fun t' ht' => ?_, hv⟩
        rcases List.mem_cons.mp ht' with rfl | ht'
        · exact ⟨List.mem_cons_self .., ht⟩
        · exact ⟨List.mem_cons_of_mem _ (hts' t' ht').1, (hts' t' ht').2⟩
      exact (ih hu).mono (fun _ _ => hcons) fun _ => hcons
    · have hcons {v : World} : (∃ ts', (∀ t' ∈ ts', t' ∈ ts ∧ PurePath.IsFileName t') ∧
          Tallies host v (l.haltedAll ts')) → ∃ ts',
            (∀ t' ∈ ts', t' ∈ t :: ts ∧ PurePath.IsFileName t') ∧
              Tallies host v (l.haltedAll ts') := by
        rintro ⟨ts', hts', hv⟩
        exact ⟨ts', fun t' ht' => ⟨List.mem_cons_of_mem _ (hts' t' ht').1, (hts' t' ht').2⟩, hv⟩
      exact (ih (hu.of_halted ht)).mono (fun _ _ => hcons) fun _ => hcons

/-- What a pass finds idle is idle in the ledger. -/
theorem Tallies.idle (h : Tallies host w l) (ht : t ∈ w.stale keys)
    (hname : PurePath.IsFileName t) : l.Idle t := by
  rw [World.stale, if_pos h.sound.redisWorks.1, List.mem_filter, Option.any_eq_true] at ht
  obtain ⟨-, state, hstate, hidle⟩ := ht
  obtain ⟨hrun, hidle⟩ := of_decide_eq_true hidle
  obtain ⟨e, he, -, huse⟩ := (hstate ▸ h.record t hname).exists_of_some
  exact ⟨e, he, state.lastActivity, by rw [huse, if_pos hrun]; rfl, h.now ▸ hidle⟩

theorem prunePass_tallies (h : Tallies host w l) (keys : List String) :
    Ends (prunePass host keys)
      (fun _ u => ∃ ts, (∀ t ∈ ts, l.Idle t) ∧ Tallies host u (l.haltedAll ts)) (fun _ => False)
      w := by
  unfold prunePass
  -- the handler logs, so it leaves what the body leaves
  have hlogged (u : World) (hu : ∃ ts, (∀ t ∈ ts, l.Idle t) ∧ Tallies host u (l.haltedAll ts)) :
      Ends (pure () : M Unit) (fun _ u => ∃ ts, (∀ t ∈ ts, l.Idle t) ∧
        Tallies host u (l.haltedAll ts)) (fun _ => False) u := Ends.pure hu
  refine Ends.tryCatch (Ends.bind_of_ok (toPrune_run h.sound.redisWorks) ?_) fun _ => hlogged
  have hidle {u : World} : (∃ ts, (∀ t ∈ ts, t ∈ w.stale keys ∧ PurePath.IsFileName t) ∧
      Tallies host u (l.haltedAll ts)) →
        ∃ ts, (∀ t ∈ ts, l.Idle t) ∧ Tallies host u (l.haltedAll ts) := by
    rintro ⟨ts, hts, hu⟩
    exact ⟨ts, fun t ht => h.idle (hts t ht).1 (hts t ht).2, hu⟩
  exact (stopAll_tallies h (w.stale keys)).mono (fun _ _ => hidle) fun _ => hidle

/-- A restart drops the tenants whose containers are gone. -/
theorem restart_tallies (h : Tallies host w l) (hkeys : keys.Perm w.redis.keys) :
    ∃ ts, Tallies host (endState (restart host keys) w) (l.haltedAll ts) := by
  have hforgot : Tallies host w.forgot l := by
    have hdirect : direct true w (.restart keys) = w.forgot := h.sound.redisWorks.direct_restart
    exact ⟨hdirect ▸ h.sound.direct trivial, fun t ht => hdirect ▸ (h.safe t ht).direct, h.now,
      h.record⟩
  have hnamed : ∀ c ∈ calls host w (.restart keys), c.Named := by
    have hkeep : FileNames (.restart keys) := trivial
    exact fun _ => named_of_calls hkeep
  refine (restart_rule (P := Call.Named) (I := fun _ u => ∃ ts, Tallies host u (l.haltedAll ts))
    ?_ ?_ ?_ h.sound hkeys hnamed
    ⟨[], hforgot⟩).2
  · rintro key rest u v hnamed - - - - hlook ⟨ts, hu⟩
    have hturn : Turn host Call.Named u v :=
      .call (c := .look (tenantOfKey key) u) hnamed hlook hlook.changes
    cases hv : v.tenants.get (tenantOfKey key) with
    | some tc => exact ⟨ts, (hu.of_found hturn hlook (by rw [hv]; rfl)).1⟩
    | none => exact ⟨ts ++ [tenantOfKey key], Ledger.haltedAll_snoc ▸ hu.of_missed hturn hlook hv⟩
  · rintro u v hsame ⟨ts, hu⟩
    exact ⟨ts, hu.of_redis (.same hsame) hsame.redis_eq⟩
  · rintro u image ⟨ts, hu⟩
    exact ⟨ts, hu.of_redis .build rfl⟩

end Methods

/-! ### Runs -/

/-- An operation and whether it returns. -/
def outcome (host : Host) (w : World) (op : Op) : Op × Bool :=
  (op, returns (program host op) w fun _ _ => true)

section Runs

variable {host : Host} {w w₀ : World} {l : Ledger} {op : Op} {ops : List Op}

theorem outcome_of_ends (op : Op) {Q E : World → Prop}
    (h : Ends (program host op) (fun _ => Q) E w) :
    (outcome host w op = (op, true) ∧ Q (endState (program host op) w)) ∨
      (outcome host w op = (op, false) ∧ E (endState (program host op) w)) := by
  unfold outcome returns
  cases hrun : (program host op).run w with
  | ok _ u => exact .inl ⟨rfl, endState_of_ok hrun ▸ h.ok hrun⟩
  | error e u => exact .inr ⟨rfl, endState_of_error hrun ▸ h.error hrun⟩

theorem Tallies.direct {l' : Ledger} (h : Tallies host w l) (op : Op) (hkeeps : KeepsRedis op)
    (hnow : (direct true w op).now = l'.now) (hl : l'.tenancy = l.tenancy) :
    Tallies host (direct true w op) l' := by
  refine ⟨h.sound.direct hkeeps, fun t ht => (h.safe t ht).direct, hnow, ?_⟩
  rw [hl]
  cases op <;> exact h.record

/-- **Step.** An operation of the manager is a step of the ledger. -/
theorem Tallies.step (h : Tallies host w l) (hkeeps : KeepsRedis op) (hnames : FileNames op)
    (hen : op.Enabled w) :
    ∃ l', Ledger.Step l (outcome host w op) l' ∧
      Tallies host (endState (program host op) w) l' := by
  cases op with
  | provision t config image =>
    have hends : Ends (program host (.provision t config image)) _ _ w :=
      (provisionTenant_tallies h hnames).drop
    rcases outcome_of_ends (.provision t config image) hends
      with ⟨hout, hu⟩ | ⟨hout, hu | hu | hu⟩ <;> rw [hout]
    · exact ⟨_, .provisioned, hu⟩
    · exact ⟨_, .provisionRaised (.inl rfl), hu⟩
    · exact ⟨_, .provisionRaised (.inr (.inl rfl)), hu⟩
    · exact ⟨_, .provisionRaised (.inr (.inr rfl)), hu⟩
  | getTenant t =>
    have hends : Ends (program host (.getTenant t))
        (fun _ u => Tallies host u l ∨ Tallies host u (l.halted t)) (fun _ => False) w := by
      refine Ends.bind ((getTenant_tallies h t).mono (fun _ _ h => h) fun _ h => h) ?_
      rintro (_ | tc) u hu
      · exact Ends.pure (.inr hu)
      · exact Ends.pure (.inl hu.1)
    rcases outcome_of_ends _ hends with ⟨hout, hu | hu⟩ | ⟨-, hraise⟩
    · exact ⟨_, hout ▸ .found, hu⟩
    · exact ⟨_, hout ▸ .lost, hu⟩
    · exact hraise.elim
  | getOrCreate t =>
    rcases outcome_of_ends (.getOrCreate t) (getOrCreate_tallies h hnames).drop with
      ⟨hout, ⟨hu, hruns⟩ | hu⟩ | ⟨hout, hu | hu⟩ <;> rw [hout]
    · exact ⟨_, .served hruns, hu⟩
    · exact ⟨_, .resumed, hu⟩
    · exact ⟨_, .resumeRaised (.inl rfl), hu⟩
    · exact ⟨_, .resumeRaised (.inr rfl), hu⟩
  | touch t =>
    rcases outcome_of_ends (.touch t) (touch_tallies h t) with ⟨hout, hu | hu⟩ | ⟨-, hraise⟩
    · exact ⟨_, hout ▸ .unrecorded, hu⟩
    · exact ⟨_, hout ▸ .touched, hu⟩
    · exact hraise.elim
  | stop t =>
    rcases outcome_of_ends (.stop t) ((stopTenant_tallies h t).mono (fun _ _ h => h.1)
      fun _ h => h) with ⟨hout, hu⟩ | ⟨hout, hu⟩ <;> rw [hout]
    · exact ⟨_, .stopped, hu⟩
    · exact ⟨_, .stopRaised, hu⟩
  | prune keys =>
    rcases outcome_of_ends (.prune keys) (prunePass_tallies h keys) with
      ⟨hout, ts, hts, hu⟩ | ⟨-, hraise⟩
    · exact ⟨_, hout ▸ .pruned hts, hu⟩
    · exact hraise.elim
  | restart keys =>
    obtain ⟨ts, hu⟩ := restart_tallies h hen
    exact ⟨_, .restarted, hu⟩
  | shutdown =>
    have hends : Ends (program host .shutdown) _ _ w :=
      Ends.get_bind (stopAll_tallies h w.tenants.keys)
    obtain ⟨ts, -, hu⟩ := hends.endState
    exact ⟨_, .shutDown, hu⟩
  | pass duration =>
    exact ⟨_, .passed, h.direct (.pass duration) trivial (congrArg (· + _) h.now) rfl⟩
  | vanish id => exact ⟨l, .vanished, h.direct (.vanish id) trivial h.now rfl⟩
  | listen port => exact ⟨l, .listened, h.direct (.listen port) trivial h.now rfl⟩
  | fail redis docker files =>
    exact ⟨l, .failing, h.direct (.fail redis docker files) hkeeps h.now rfl⟩

/-- The manager refines the ledger. -/
theorem refines (host : Host) (w₀ : World) :
    (machine host w₀).Refines (fun _ op => KeepsRedis op ∧ FileNames op) (outcome host) Ledger.Step
      (Tallies host) where
  step h hop hstep := by
    obtain ⟨hen, rfl⟩ := step_eq_some hstep
    exact h.step hop.1 hop.2 hen

theorem Fresh.tallies (h : Fresh w) (hworks : w.RedisWorks) (heffects : w.effects = []) :
    Tallies host w (.empty w.now) :=
  ⟨h.sound hworks, fun t _ => h.safe heffects, rfl, fun t _ => by
    rw [h.redis]
    exact .unknown⟩

/-- **The manager keeps a ledger.** With the operations of a run, and whether each returned or
raised, the ledger takes steps that lead to what the records and files then hold. -/
theorem shows_of_run (hfresh : Fresh w₀) (hworks : w₀.RedisWorks) (heffects : w₀.effects = [])
    (hops : (machine host w₀).AllSteps (fun _ op => KeepsRedis op ∧ FileNames op) w₀ ops)
    (hrun : (machine host w₀).run ops = some w) :
    ∃ l, Machine.Chain Ledger.Step (.empty w₀.now)
        ((machine host w₀).observed (fun w op => [outcome host w op]) w₀ ops) l ∧
      Shows host w l := by
  obtain ⟨l, hchain, hl⟩ := (refines host w₀).run (hfresh.tallies hworks heffects) hops hrun
  exact ⟨l, hchain, hl.shows⟩

/-- Once a provisioning of a tenant returned, its record holds the settings that were posted, until
a configuration is posted again. -/
theorem recorded_of_run {t image : String} {config : Json} {tc : TenantContainer} {w' v : World}
    {ops' : List Op} (hfresh : Fresh w₀) (hworks : w₀.RedisWorks) (heffects : w₀.effects = [])
    (ht : PurePath.IsFileName t)
    (hops : (machine host w₀).AllSteps (fun _ op => KeepsRedis op ∧ FileNames op) w₀ ops)
    (hrun : (machine host w₀).run ops = some w)
    (hprov : (provisionTenant host t config image).run w = .ok tc w')
    (hops' : (machine host w₀).AllSteps (fun _ op => KeepsRedis op ∧ FileNames op) w' ops')
    (hposts : ∀ op ∈ ops', PostsNothing t op)
    (hrun' : (machine host w₀).runFrom w' ops' = some v) :
    ∃ state, v.redis.get (stateKey t) = some state ∧ SameSettings config state.configData := by
  obtain ⟨l, -, hl⟩ := (refines host w₀).run (hfresh.tallies hworks heffects) hops hrun
  have hstarted : Tallies host w' (l.started t config) := (provisionTenant_tallies hl ht).ok hprov
  obtain ⟨l', hchain, hl'⟩ := (refines host w₀).run hstarted hops' hrun'
  have hlabels := Machine.observed_labels (M := machine host w₀) (s := w')
    (P := fun a : Op × Bool => PostsNothing t a.1)
    fun u op hop a (ha : a ∈ [outcome host u op]) => by
      rw [List.mem_singleton.mp ha]
      exact hposts op hop
  have hsettings : (l'.tenancy t).map Tenancy.settings = some config := by
    refine Ledger.settings_of_chain hchain hlabels ?_
    rw [Ledger.tenancy_started_self]
    rfl
  have hrecord := hl'.record t ht
  obtain ⟨e, he, rfl⟩ := Option.map_eq_some_iff.mp hsettings
  rw [he] at hrecord
  obtain ⟨state, hstate, hsame, -⟩ := hrecord.exists_record
  exact ⟨state, hstate, hsame⟩

end Runs

/-! ### A provisioning that raised -/

/-- A tenant is posted with a configuration that is refused, and asked for again. -/
def refusedThenBack : List Op :=
  [.provision "alice" (.obj []) defaultImage, .provision "alice" badShape defaultImage,
    .listen 49153, .getOrCreate "alice"]

theorem shows_refusedThenBack : ∃ w, (machine sampleHost sampleWorld).run refusedThenBack = some w ∧
    ((machine sampleHost sampleWorld).observed (fun w op => [outcome sampleHost w op]) sampleWorld
      refusedThenBack).map Prod.snd = [true, false, true, true] ∧
    ∃ l, Machine.Chain Ledger.Step (.empty 0)
        ((machine sampleHost sampleWorld).observed (fun w op => [outcome sampleHost w op])
          sampleWorld refusedThenBack) l ∧
      Shows sampleHost w l := by
  have hops : (machine sampleHost sampleWorld).AllSteps
      (fun _ op => KeepsRedis op ∧ FileNames op) sampleWorld refusedThenBack := by decide +kernel
  have hcheck : ((machine sampleHost sampleWorld).run refusedThenBack).isSome = true := by
    decide +kernel
  obtain ⟨w, hrun⟩ := Option.isSome_iff_exists.mp hcheck
  exact ⟨w, hrun, by decide +kernel,
    shows_of_run sampleWorld_fresh sampleWorld_redisWorks rfl hops hrun⟩

end Nanogate.Tenants
