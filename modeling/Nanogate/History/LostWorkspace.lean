import Mathlib.Data.Set.Function
import Nanogate.History.Grammar
import Nanogate.History.Names
import Nanogate.Semantics.Machine

/-!
# Conversations whose workspace is lost

The copies in Redis are there for the restart in which a container comes back without its workspace.
The listener then restores the file of a session before the next turn of that session, and saves it
after the turn. The turns are those of the bus, which the listener takes one at a time: a turn is
one step here, from restoring to saving.

## Main definitions

* `Copies`, `copies` — the sessions directory and Redis, from one turn of the bus to the next
* `Resumes` — what a turn finds of its session

## Main results

* `resumes_of_run` — texts that survive one restart survive any number of them, whatever the other
  sessions do
-/

namespace Nanogate.History

open Nanogate.Python Nanogate.Bus Nanogate.Semantics

/-! ### Turns and losses -/

/-- The sessions directory and what Redis holds. The text that the last completed turn of each
session left is kept as history. -/
structure Copies where
  ws : SessionsDir
  redis : Redis
  left : String → Option String

/-- What happens to them. -/
inductive CopyAction where
  /-- A turn of the bus that completes: the session is restored, `process_direct` leaves a text in
  its file, and the session is saved. -/
  | turn (sessionKey text : String)
  /-- A turn of the bus that raises: the session is restored, and its file left alone. -/
  | failed (sessionKey : String)
  /-- The container is started again with another workspace. -/
  | lose

/-- The session of a turn. -/
def CopyAction.session : CopyAction → Option String
  | turn sessionKey _ | failed sessionKey => some sessionKey
  | lose => none

namespace Copies

variable (json : JsonText) (tenantId : String)

/-- The directory as a turn of a session finds it. -/
def restored (c : Copies) (sessionKey : String) : SessionsDir :=
  (loadSessionState json tenantId sessionKey c.redis c.ws).2

/-- The directory after `process_direct` has left a text for a session. -/
def written (ws : SessionsDir) (sessionKey text : String) : SessionsDir :=
  some ((ws.getD .empty).set (safeSessionFilename sessionKey) (.text text))

/-- One step. -/
def step (c : Copies) : CopyAction → Copies
  | .turn sessionKey text =>
    let ws := written (c.restored json tenantId sessionKey) sessionKey text
    { ws
      redis := saveSessionState json tenantId sessionKey ws c.redis
      left := Function.update c.left sessionKey (some text) }
  | .failed sessionKey => { c with ws := c.restored json tenantId sessionKey }
  | .lose => { c with ws := none }

end Copies

/-- The agent of a tenant, at first without a workspace. -/
def copies (json : JsonText) (tenantId : String) : Machine Copies CopyAction where
  init := ⟨none, fun _ => none, fun _ => none⟩
  step c a := some (c.step json tenantId a)

/-- A turn of the session finds what its last turn left, or nothing if it has had none. -/
def Resumes (json : JsonText) (tenantId : String) (c : Copies) (sessionKey : String) : Prop :=
  match c.left sessionKey with
  | none =>
    (c.restored json tenantId sessionKey).node (safeSessionFilename sessionKey) = none
  | some text =>
    ∃ found, (c.restored json tenantId sessionKey).node (safeSessionFilename sessionKey) =
      some (.text found) ∧ SameContent json text found

section Copied

variable {floatRepr : String → String} {json : JsonText} {tenantId s r text found : String}
  {c : Copies} {sessions : Set String} {acts : List CopyAction}

theorem sameContent_self (json : JsonText) (text : String) : SameContent json text text := by
  unfold SameContent
  cases json.loads text <;> rfl

theorem sessionStateKey_ne (h : safeSessionFilename s ≠ safeSessionFilename r) :
    sessionStateKey tenantId s ≠ sessionStateKey tenantId r :=
  fun heq => h (congrArg (· ++ ".json") (sanitized_of_sessionStateKey heq))

/-- The text survives, and the `json` module treats it as the grammar says. -/
structure Kept (floatRepr : String → String) (json : JsonText) (text : String) : Prop where
  survives : Survives json text
  grammatical : Grammatical floatRepr json text

/-- The copy of a session and its file: neither before the first turn, and then the state that was
saved, and what is in the file, if it is there. -/
def CopyOf (floatRepr : String → String) (json : JsonText) (tenantId : String) (c : Copies)
    (s : String) : Prop :=
  match c.left s with
  | none => c.ws.node (safeSessionFilename s) = none ∧ c.redis (sessionStateKey tenantId s) = none
  | some text =>
    Kept floatRepr json text ∧
      c.redis (sessionStateKey tenantId s) = some (json.dumps (json.stateOf text)) ∧
      (c.ws.node (safeSessionFilename s) = none ∨
        ∃ found, c.ws.node (safeSessionFilename s) = some (.text found) ∧
          SameContent json text found)

/-- **A session with a copy is resumed.** -/
theorem CopyOf.resumes (hspells : Spells floatRepr) (h : CopyOf floatRepr json tenantId c s) :
    Resumes json tenantId c s := by
  unfold CopyOf at h
  unfold Resumes Copies.restored
  cases hleft : c.left s with
  | none =>
    rw [hleft] at h
    have hstate : getSessionState json tenantId s c.redis = none := by
      simp [getSessionState, h.2]
    simpa [loadSessionState, hstate] using h.1
  | some text =>
    rw [hleft] at h
    obtain ⟨hkept, hredis, hnode⟩ := h
    obtain ⟨new, htruthy, hwritten, hsame⟩ :=
      written_of_survives hkept.survives (hkept.grammatical.loads_dumpsIndent hspells)
    have hstate : getSessionState json tenantId s c.redis =
        some (json.stateOf text) := by
      rw [getSessionState, hredis, Option.bind_some, hkept.grammatical.loads_dumps hspells]
    -- a session's file is no directory
    have hplace : (c.ws.getD .empty).get (safeSessionFilename s) ≠ some .directory := by
      have hget : (c.ws.getD .empty).get (safeSessionFilename s) =
          c.ws.node (safeSessionFilename s) := @node_getD_empty c.ws (safeSessionFilename s)
      rcases hnode with hnone | ⟨found, hfound, -⟩
      · simp [hget, hnone]
      · simp [hget, hfound]
    refine ⟨new, ?_, hsame⟩
    simp only [loadSessionState, hstate, Option.filter_some, htruthy, if_true, hwritten,
      if_neg hplace]
    exact Dict.get_set_self

/-- What a step on another session leaves of a copy. -/
theorem CopyOf.of_ne {c' : Copies} (h : CopyOf floatRepr json tenantId c r)
    (hleft : c'.left r = c.left r)
    (hnode : c'.ws.node (safeSessionFilename r) = c.ws.node (safeSessionFilename r))
    (hredis : c'.redis (sessionStateKey tenantId r) = c.redis (sessionStateKey tenantId r)) :
    CopyOf floatRepr json tenantId c' r := by
  unfold CopyOf at h ⊢
  rwa [hleft, hnode, hredis]

/-- Every session has its copy. -/
def Copied (floatRepr : String → String) (json : JsonText) (tenantId : String)
    (sessions : Set String) (c : Copies) : Prop :=
  ∀ s ∈ sessions, CopyOf floatRepr json tenantId c s

theorem copyOf_turn (hkept : Kept floatRepr json text) :
    CopyOf floatRepr json tenantId (c.step json tenantId (.turn s text)) s := by
  have hnode : (Copies.written (c.restored json tenantId s) s text).node
      (safeSessionFilename s) = some (.text text) := Dict.get_set_self
  have hleft : (c.step json tenantId (.turn s text)).left s = some text :=
    Function.update_self ..
  unfold CopyOf
  rw [hleft]
  refine ⟨hkept, ?_, .inr ⟨text, hnode, sameContent_self _ _⟩⟩
  simp only [Copies.step]
  rw [saveSessionState_of_file hnode]
  exact Function.update_self ..

theorem copyOf_turn_of_ne (hne : s ≠ r) (hnames : safeSessionFilename s ≠ safeSessionFilename r)
    (h : CopyOf floatRepr json tenantId c r) :
    CopyOf floatRepr json tenantId (c.step json tenantId (.turn s text)) r := by
  refine h.of_ne (Function.update_of_ne hne.symm _ _) ?_ ?_
  · refine (Dict.get_set_of_ne hnames.symm).trans ?_
    exact (node_getD_empty _).trans (node_loadSessionState_of_ne hnames.symm)
  · exact saveSessionState_of_ne (sessionStateKey_ne hnames).symm

theorem copyOf_failed (hspells : Spells floatRepr) (h : CopyOf floatRepr json tenantId c s) :
    CopyOf floatRepr json tenantId (c.step json tenantId (.failed s)) s := by
  have hresumes := h.resumes hspells
  unfold CopyOf at h
  unfold Resumes at hresumes
  unfold CopyOf
  simp only [Copies.step]
  cases hleft : c.left s with
  | none =>
    rw [hleft] at h hresumes
    exact ⟨hresumes, h.2⟩
  | some text =>
    rw [hleft] at h hresumes
    exact ⟨h.1, h.2.1, .inr hresumes⟩

theorem copyOf_lose (h : CopyOf floatRepr json tenantId c s) :
    CopyOf floatRepr json tenantId (c.step json tenantId .lose) s := by
  unfold CopyOf at h ⊢
  simp only [Copies.step]
  cases hleft : c.left s with
  | none =>
    rw [hleft] at h
    exact ⟨rfl, h.2⟩
  | some text =>
    rw [hleft] at h
    exact ⟨h.1, h.2.1, .inl rfl⟩

/-- What is asked of a step: its session is one of the sessions, and the text that it leaves
survives. -/
structure CopyAction.Fits (floatRepr : String → String) (json : JsonText) (sessions : Set String)
    (a : CopyAction) : Prop where
  session : ∀ s ∈ a.session, s ∈ sessions
  text : ∀ s text, a = .turn s text → Kept floatRepr json text

theorem fits_turn (hs : s ∈ sessions) (htext : Kept floatRepr json text) :
    (CopyAction.turn s text).Fits floatRepr json sessions :=
  ⟨fun _ h => Option.mem_some.mp h ▸ hs, fun _ _ h => (CopyAction.turn.inj h).2 ▸ htext⟩

theorem fits_failed (hs : s ∈ sessions) : (CopyAction.failed s).Fits floatRepr json sessions :=
  ⟨fun _ h => Option.mem_some.mp h ▸ hs, fun _ _ h => absurd h (by simp)⟩

theorem fits_lose : CopyAction.lose.Fits floatRepr json sessions :=
  ⟨fun _ h => absurd h (by simp [CopyAction.session]), fun _ _ h => absurd h (by simp)⟩

theorem Copied.step {a : CopyAction} (hnames : Set.InjOn safeSessionFilename sessions)
    (hspells : Spells floatRepr) (h : Copied floatRepr json tenantId sessions c)
    (ha : a.Fits floatRepr json sessions) :
    Copied floatRepr json tenantId sessions (c.step json tenantId a) := by
  intro r hr
  have hapart {s : String} (hs : s ∈ sessions) (hne : s ≠ r) :
      safeSessionFilename s ≠ safeSessionFilename r := fun heq => hne (hnames hs hr heq)
  cases a with
  | turn s text =>
    by_cases hsr : s = r
    · subst hsr
      exact copyOf_turn (ha.text s text rfl)
    · exact copyOf_turn_of_ne hsr (hapart (ha.session s rfl) hsr) (h r hr)
  | failed s =>
    by_cases hsr : s = r
    · subst hsr
      exact copyOf_failed hspells (h s hr)
    · refine (h r hr).of_ne rfl ?_ rfl
      exact node_loadSessionState_of_ne (hapart (ha.session s rfl) hsr).symm
  | lose => exact copyOf_lose (h r hr)

/-- **Conversations survive the loss of the workspace.** In every run of turns and losses, each turn
finds in the file of its session what the last completed turn of that session left there, as far as
JSON goes. The sessions have distinct file names, and the turns leave texts that survive. -/
theorem resumes_of_run (hspells : Spells floatRepr)
    (hnames : Set.InjOn safeSessionFilename sessions)
    (hrun : (copies json tenantId).run acts = some c)
    (hacts : ∀ a ∈ acts, a.Fits floatRepr json sessions) :
    ∀ s ∈ sessions, Resumes json tenantId c s := by
  have hcopied : Copied floatRepr json tenantId sessions c := by
    refine Machine.run_invariant (G := fun _ a => a.Fits floatRepr json sessions) ?_ ?_
      (Machine.AllSteps.of_labels hacts) hrun
    · intro c a c' h ha hstep
      exact Option.some_inj.mp hstep ▸ h.step hnames hspells ha
    · exact fun s _ => ⟨rfl, rfl⟩
  exact fun s hs => (hcopied s hs).resumes hspells

end Copied

theorem kept_saying (message : String) : Kept oneHalf (grammar oneHalf) (saying message) where
  survives v hv := by
    have hpython : Python.JsonText.IsPython oneHalf
        (.obj [("messages", .arr [.str message])]) := by
      simp [Python.JsonText.IsPython, Python.JsonText.HoldPython, Python.JsonText.ArePython,
        Entries.keys]
    rw [loads_grammar, saying, Python.JsonText.loads_dumps hpython] at hv
    obtain rfl := Option.some_inj.mp hv
    exact ⟨rfl, by simp [Json.get, Entries.get]⟩
  grammatical := grammatical_grammar oneHalf (saying message)

/-- Two sessions take turns; the workspace is lost in between. -/
def twoConversations : List CopyAction :=
  [.turn "api:alice" (saying "hi"), .turn "api:bob" (saying "good day"), .lose,
    .failed "api:bob", .turn "api:bob" (saying "still here"), .lose]

theorem resumes_twoConversations :
    ∃ c, (copies (grammar oneHalf) "acme").run twoConversations = some c ∧
      Resumes (grammar oneHalf) "acme" c "api:alice" := by
  have hnames : Set.InjOn safeSessionFilename ({"api:alice", "api:bob"} : Set String) := by
    have hne : safeSessionFilename "api:alice" ≠ safeSessionFilename "api:bob" := by
      decide +kernel
    rintro s (rfl | rfl) r (rfl | rfl) heq
    · rfl
    · exact absurd heq hne
    · exact absurd heq.symm hne
    · rfl
  have halice : "api:alice" ∈ ({"api:alice", "api:bob"} : Set String) := .inl rfl
  have hbob : "api:bob" ∈ ({"api:alice", "api:bob"} : Set String) := .inr rfl
  have hfits : ∀ a ∈ twoConversations,
      a.Fits oneHalf (grammar oneHalf) {"api:alice", "api:bob"} := by
    simp only [twoConversations, List.forall_mem_cons]
    exact ⟨fits_turn halice (kept_saying _), fits_turn hbob (kept_saying _), fits_lose,
      fits_failed hbob, fits_turn hbob (kept_saying _), fits_lose, by simp⟩
  obtain ⟨c, hc⟩ : ∃ c, (copies (grammar oneHalf) "acme").run twoConversations = some c := ⟨_, rfl⟩
  exact ⟨c, hc, resumes_of_run spells_oneHalf hnames hc hfits "api:alice" halice⟩

end Nanogate.History
