import Mathlib.Data.List.Forall2
import Nanogate.History.SessionFiles

/-!
# Which keys and names collide

Redis keys and file names are built by pasting tenant and session ids into fixed texts. The
part after the last colon of a key has no colon of its own, so a key can be parsed from the
right, and tenants are kept apart whatever their ids are. Sessions are not: the characters that
are replaced by an underscore may have been different ones.

## Main definitions

* `sanitized` — a session id as it appears in a file name
* `Alike` — two session ids differ only in characters that are replaced
* `Separate` — two sessions share neither key nor file

## Main results

* `keys_of_tenants` — tenants share no queue and no session state
* `separate_iff` — two sessions are separate exactly when they are not alike
-/

namespace Nanogate.History

open Nanogate.Python Nanogate.Bus

variable {t u s r : String}

theorem sessionName_of_normalized (hs : Normalized s) : sessionName s = s := by
  simp [sessionName, orElse, hs.ne_empty]

/-! ### Keys of tenants -/

/-- A key with its last field cut off. -/
theorem toList_inboundKey (t : String) :
    (inboundKey t).toList = (tenantInboundPrefix ++ t).toList ++ ':' :: "inbound".toList := by
  simp [inboundKey]

theorem toList_sessionStateKey (t s : String) :
    (sessionStateKey t s).toList = (tenantInboundPrefix ++ t ++ ":session_state").toList ++
      ':' :: (replaceChar ':' '_' (sessionName s)).toList := by
  simp [sessionStateKey]

theorem sessionStateKey_inj :
    sessionStateKey t s = sessionStateKey u r ↔
      t = u ∧ replaceChar ':' '_' (sessionName s) = replaceChar ':' '_' (sessionName r) := by
  have hlast : ∀ x, ':' ∉ (replaceChar ':' '_' x).toList := notMem_replaceChar (by decide)
  rw [← String.toList_inj, toList_sessionStateKey, toList_sessionStateKey,
    append_cons_inj_of_notMem_right (hlast _) (hlast _), String.toList_inj, String.toList_inj]
  simp

/-- An underscore tells the last field of a session state from `inbound`. -/
theorem inboundKey_ne_sessionStateKey (hr : Normalized r) : inboundKey t ≠ sessionStateKey u r := by
  intro h
  have hlast : ':' ∉ (replaceChar ':' '_' (sessionName r)).toList :=
    notMem_replaceChar (by decide) _
  rw [← String.toList_inj, toList_inboundKey, toList_sessionStateKey,
    append_cons_inj_of_notMem_right (by decide) hlast, sessionName_of_normalized hr] at h
  have hunderscore : '_' ∈ (replaceChar ':' '_' r).toList := mem_replaceChar hr.colon_mem
  rw [← h.2] at hunderscore
  exact absurd hunderscore (by decide)

/-- **Tenants are kept apart.** Whatever the ids of two tenants are, they share no queue and no
session state, and no queue is a session state. -/
theorem keys_of_tenants (hs : Normalized s) (hr : Normalized r) :
    (inboundKey t = inboundKey u → t = u) ∧
      (sessionStateKey t s = sessionStateKey u r → t = u) ∧
      inboundKey t ≠ sessionStateKey u s ∧ inboundKey t ≠ sessionStateKey u r :=
  ⟨inboundKey_inj.mp, fun h => (sessionStateKey_inj.mp h).1, inboundKey_ne_sessionStateKey hs,
    inboundKey_ne_sessionStateKey hr⟩

/-- Two tenants whose ids look like parts of keys. -/
theorem keys_of_tenants_inbound :
    (inboundKey "a" = inboundKey "a:session_state" → "a" = "a:session_state") ∧
      (sessionStateKey "a" "api:inbound" = sessionStateKey "a:session_state" "x:inbound" →
        "a" = "a:session_state") ∧
      inboundKey "a" ≠ sessionStateKey "a:session_state" "api:inbound" ∧
      inboundKey "a" ≠ sessionStateKey "a:session_state" "x:inbound" :=
  keys_of_tenants ⟨by decide, by decide, by decide⟩ ⟨by decide, by decide, by decide⟩

/-! ### Sessions -/

/-- A session id as it appears in the name of its file. -/
def sanitized (sessionKey : String) : String :=
  replaceChar '/' '_' (replaceChar ':' '_' (sessionName sessionKey))

/-- The characters that come out as an underscore. -/
def isMark (c : Char) : Bool := c = ':' || c = '/' || c = '_'

/-- Two ids that differ at most in which mark stands in which place. -/
def Alike (s r : String) : Prop :=
  List.Forall₂ (fun c d => c = d ∨ (isMark c = true ∧ isMark d = true)) s.toList r.toList

instance (s r : String) : Decidable (Alike s r) :=
  inferInstanceAs (Decidable (List.Forall₂ _ s.toList r.toList))

/-- Two sessions of a tenant share neither the key of their state nor the name of their file; so
what is saved for one is not loaded for the other, and loading one leaves the file of the
other. -/
structure Separate (tenantId s r : String) : Prop where
  keys : sessionStateKey tenantId s ≠ sessionStateKey tenantId r
  names : safeSessionFilename s ≠ safeSessionFilename r
  saved : ∀ json ws redis,
    getSessionState json tenantId r (saveSessionState json tenantId s ws redis) =
      getSessionState json tenantId r redis
  loaded : ∀ json redis ws,
    (loadSessionState json tenantId s redis ws).2.node (safeSessionFilename r) =
      SessionsDir.node ws (safeSessionFilename r)

/-- Names and keys keep sessions apart, and then so does everything done with them. -/
theorem separate_of_ne {tenantId : String}
    (hkeys : sessionStateKey tenantId s ≠ sessionStateKey tenantId r)
    (hnames : safeSessionFilename s ≠ safeSessionFilename r) : Separate tenantId s r where
  keys := hkeys
  names := hnames
  saved json ws redis := by rw [getSessionState, saveSessionState_of_ne hkeys.symm, getSessionState]
  loaded json redis ws := node_loadSessionState_of_ne hnames.symm

theorem toList_sanitized (hs : Normalized s) :
    (sanitized s).toList = s.toList.map fun c => if isMark c then '_' else c := by
  rw [sanitized, sessionName_of_normalized hs, toList_replaceChar, toList_replaceChar, List.map_map]
  congr 1
  funext c
  by_cases hcolon : c = ':'
  · simp [hcolon, isMark]
  · by_cases hslash : c = '/'
    · simp [hslash, isMark]
    · by_cases hunderscore : c = '_' <;> simp [hcolon, hslash, hunderscore, isMark]

/-- File names are the same exactly when the ids are alike. -/
theorem sanitized_eq_iff (hs : Normalized s) (hr : Normalized r) :
    sanitized s = sanitized r ↔ Alike s r := by
  rw [← String.toList_inj, toList_sanitized hs, toList_sanitized hr, ← List.forall₂_eq_eq_eq,
    List.forall₂_map_left_iff, List.forall₂_map_right_iff, Alike]
  have hchar : ∀ c d : Char, ((if isMark c then '_' else c) = if isMark d then '_' else d) ↔
      (c = d ∨ (isMark c = true ∧ isMark d = true)) := by
    intro c d
    have hmark : isMark '_' = true := by decide
    -- a mark is not equal to a character that is none
    cases hc : isMark c <;> cases hd : isMark d <;> simp <;> constructor <;> rintro rfl <;>
      simp_all
  simp only [hchar]

theorem safeSessionFilename_eq_iff : safeSessionFilename s = safeSessionFilename r ↔
    sanitized s = sanitized r := by
  simp [safeSessionFilename, sanitized]

/-- Sessions that share a key share a file. -/
theorem sanitized_of_sessionStateKey {tenantId : String}
    (h : sessionStateKey tenantId s = sessionStateKey tenantId r) : sanitized s = sanitized r :=
  congrArg (replaceChar '/' '_') (sessionStateKey_inj.mp h).2

/-- **Which sessions are separate.** Two sessions of a tenant share no stored history exactly
when their ids are not alike. -/
theorem separate_iff (tenantId : String) (hs : Normalized s) (hr : Normalized r) :
    Separate tenantId s r ↔ ¬ Alike s r := by
  rw [← sanitized_eq_iff hs hr]
  constructor
  · intro h heq
    exact h.names (safeSessionFilename_eq_iff.mpr heq)
  · intro hne
    exact separate_of_ne (fun h => hne (sanitized_of_sessionStateKey h))
      fun h => hne (safeSessionFilename_eq_iff.mp h)

theorem separate_iff_alice_bob :
    Separate "acme" "api:alice" "api:bob" ↔ ¬ Alike "api:alice" "api:bob" :=
  separate_iff "acme" ⟨by decide, by decide, by decide⟩ ⟨by decide, by decide, by decide⟩

/-- **Two sessions with one history**: the ids differ only in which underscore was a colon. -/
theorem alike_share_history : ¬ ∀ tenantId s r, Normalized s → Normalized r → s ≠ r →
    Separate tenantId s r := by
  intro hlaw
  have hs : Normalized "api:team_a:x" := ⟨by decide, by decide, by decide⟩
  have hr : Normalized "api:team:a_x" := ⟨by decide, by decide, by decide⟩
  have halike : Alike "api:team_a:x" "api:team:a_x" := by decide
  have h := hlaw "acme" _ _ hs hr (by decide)
  exact h.names (safeSessionFilename_eq_iff.mpr ((sanitized_eq_iff hs hr).mpr halike))

end Nanogate.History
