import Nanogate.History.Names

/-!
# Saving when the session's file is missing

Without the file of its own name, a session is saved from the first file listed whose name
contains the session's. Such a name is rarely the session's own: it is that of a longer
session, with or without `.json`. What is stored is then the history of another session,
except where the name could not have come from any.

## Main definitions

* `Foreign` — a file is named after another session
* `StoresOwn` — saving reads no file that is named after another session
* `Lookalike` — a name that some other session has

## Main results

* `foreign_iff` — of the names the search accepts, those of other sessions
* `storesOwn_iff` — when saving stores no other session's history
-/

namespace Nanogate.History

open Nanogate.Python Nanogate.Bus

variable {s r name : String} {dir : Dict String Node}

/-- The file is named after a session that has another file than `s`, with or without `.json`.
The file of `s` itself is not: it is also the bare name of the session `s.json`. -/
def Foreign (s name : String) : Prop :=
  name ≠ safeSessionFilename s ∧
    ∃ r, Normalized r ∧ safeSessionFilename r ≠ safeSessionFilename s ∧
      (name = safeSessionFilename r ∨ name ++ ".json" = safeSessionFilename r)

/-- No other session's file is stored for `s`, and nothing is when there are only such files. -/
structure StoresOwn (dir : Dict String Node) (s : String) : Prop where
  own : ∀ name raw, source dir s = some (name, .text raw) → ¬ Foreign s name
  nothing : (∀ name ∈ dir.keys, Foreign s name) → ∀ json tenantId redis,
    saveSessionState json tenantId s (some dir) redis = redis

/-- A name as the files of sessions have them, with no mark but the underscore and no white space
around it; and not the session's own name without `.json`, unless it ends in `.json` itself. -/
def Lookalike (s name : String) : Prop :=
  ':' ∉ name.toList ∧ '/' ∉ name.toList ∧ strip name = name ∧
    (name ≠ sanitized s ∨ ∃ q, sanitized s = q ++ ".json" ∧ strip q = q)

/-! ### The names of sessions -/

theorem safeSessionFilename_eq (s : String) : safeSessionFilename s = sanitized s ++ ".json" := rfl

theorem notMem_sanitized {c : Char} (hc : c = ':' ∨ c = '/') (s : String) :
    c ∉ (sanitized s).toList := by
  rcases hc with rfl | rfl
  · intro hmem
    -- a colon cannot come from the second replacement
    rw [sanitized, toList_replaceChar] at hmem
    obtain ⟨d, hd, heq⟩ := List.mem_map.mp hmem
    split_ifs at heq
    · exact absurd heq (by decide)
    · exact notMem_replaceChar (by decide) _ (heq ▸ hd)
  · exact notMem_replaceChar (by decide) _

theorem strip_sanitized (hs : Normalized s) : strip (sanitized s) = sanitized s := by
  rw [sanitized, sessionName_of_normalized hs, strip_replaceChar (by decide) (by decide),
    strip_replaceChar (by decide) (by decide), hs.stripped]

theorem mark_mem_sanitized (hs : Normalized s) : '_' ∈ (sanitized s).toList := by
  rw [toList_sanitized hs]
  exact List.mem_map.mpr ⟨':', hs.colon_mem, rfl⟩

/-- A stripped name with an underscore and no other mark is that of a session. -/
theorem exists_sanitized (hcolon : ':' ∉ name.toList) (hslash : '/' ∉ name.toList)
    (hmark : '_' ∈ name.toList) (hstrip : strip name = name) :
    ∃ r, Normalized r ∧ sanitized r = name := by
  have hmem : ':' ∈ (replaceChar '_' ':' name).toList := mem_replaceChar hmark
  have hr : Normalized (replaceChar '_' ':' name) :=
    { ne_empty := fun h => by simp [h] at hmem
      stripped := by rw [strip_replaceChar (by decide) (by decide), hstrip]
      colon := by simpa [contains] using hmem }
  refine ⟨_, hr, String.toList_inj.mp ?_⟩
  rw [toList_sanitized hr, toList_replaceChar, List.map_map]
  conv_rhs => rw [← List.map_id name.toList]
  refine List.map_congr_left fun c hc => ?_
  have hne : c ≠ ':' ∧ c ≠ '/' := ⟨fun h => hcolon (h ▸ hc), fun h => hslash (h ▸ hc)⟩
  by_cases hunderscore : c = '_'
  · simp [hunderscore, isMark]
  · simp [hunderscore, hne.1, hne.2, isMark]

theorem sanitized_ne_empty (hs : Normalized s) : sanitized s ≠ "" := by
  intro h
  simpa [h] using mark_mem_sanitized hs

/-- The name of a file of a session has neither marks nor white space around it. -/
theorem plain_safeSessionFilename (hr : Normalized r) :
    ':' ∉ (safeSessionFilename r).toList ∧ '/' ∉ (safeSessionFilename r).toList ∧
      strip (safeSessionFilename r) = safeSessionFilename r := by
  rw [safeSessionFilename_eq, String.toList_append]
  refine ⟨?_, ?_, strip_append (strip_sanitized hr) (by decide) (sanitized_ne_empty hr) (by decide)⟩
  · exact fun h => (List.mem_append.mp h).elim (notMem_sanitized (.inl rfl) r) (by decide)
  · exact fun h => (List.mem_append.mp h).elim (notMem_sanitized (.inr rfl) r) (by decide)

/-! ### Names of other sessions -/

theorem lookalike_of_foreign (h : Foreign s name) : Lookalike s name := by
  obtain ⟨-, r, hr, hne, rfl | hbare⟩ := h
  · obtain ⟨hcolon, hslash, hstrip⟩ := plain_safeSessionFilename hr
    refine ⟨hcolon, hslash, hstrip, ?_⟩
    by_cases heq : safeSessionFilename r = sanitized s
    · exact .inr ⟨sanitized r, heq.symm, strip_sanitized hr⟩
    · exact .inl heq
  · obtain rfl : name = sanitized r := by simpa [safeSessionFilename_eq] using hbare
    exact ⟨notMem_sanitized (.inl rfl) r, notMem_sanitized (.inr rfl) r, strip_sanitized hr,
      .inl fun h => hne (safeSessionFilename_eq_iff.mpr h)⟩

/-- A name that contains the session's contains an underscore. -/
theorem mark_mem_of_looksLike (hs : Normalized s) (h : looksLike s name = true) :
    '_' ∈ name.toList := by
  have hoccurs : Occurs (replaceChar ':' '_' s) name := by
    simp only [looksLike, Bool.and_eq_true, decide_eq_true_eq] at h
    exact h.2
  exact hoccurs.subset (mem_replaceChar hs.colon_mem)

theorem foreign_of_lookalike (hmark : '_' ∈ name.toList) (hname : name ≠ safeSessionFilename s)
    (h : Lookalike s name) : Foreign s name := by
  obtain ⟨hcolon, hslash, hstrip, hother⟩ := h
  refine ⟨hname, ?_⟩
  by_cases heq : name = sanitized s
  · -- the name is the session's own, but also what is called `q.json` for another session
    obtain ⟨q, hq, hqstrip⟩ := hother.resolve_left fun h => h heq
    rw [heq, hq, String.toList_append] at hcolon hslash hmark
    have hqmark : '_' ∈ q.toList := (List.mem_append.mp hmark).resolve_right (by decide)
    obtain ⟨r, hr, hrq⟩ := exists_sanitized (fun h => hcolon (List.mem_append_left _ h))
      (fun h => hslash (List.mem_append_left _ h)) hqmark hqstrip
    have hfile : safeSessionFilename r = name := by rw [safeSessionFilename_eq, hrq, heq, hq]
    exact ⟨r, hr, fun h => hname (hfile.symm.trans h), .inl hfile.symm⟩
  · obtain ⟨r, hr, rfl⟩ := exists_sanitized hcolon hslash hmark hstrip
    exact ⟨r, hr, fun h => heq (safeSessionFilename_eq_iff.mp h), .inr rfl⟩

/-- Of the names the search accepts, those of other sessions. -/
theorem foreign_iff (hs : Normalized s) (h : looksLike s name = true)
    (hname : name ≠ safeSessionFilename s) : Foreign s name ↔ Lookalike s name :=
  ⟨lookalike_of_foreign, foreign_of_lookalike (mark_mem_of_looksLike hs h) hname⟩

/-! ### What is stored -/

/-- The session's own file is there. -/
def HasFile (dir : Dict String Node) (s : String) : Prop :=
  ∃ node, dir.get (safeSessionFilename s) = some node ∧ node.isFile = true

/-- The first name listed that the search accepts. -/
def firstHit (dir : Dict String Node) (s : String) : Option (String × Node) :=
  dir.entries.find? fun e => looksLike s e.1

theorem source_of_hasFile (h : HasFile dir s) :
    ∃ node, source dir s = some (safeSessionFilename s, node) := by
  obtain ⟨node, hget, hfile⟩ := h
  exact ⟨node, by simp only [source, hget, Option.filter_some, hfile, if_true]⟩

theorem source_of_not_hasFile (h : ¬ HasFile dir s) : source dir s = firstHit dir s := by
  have hfilter : (dir.get (safeSessionFilename s)).filter Node.isFile = none := by
    rw [Option.filter_eq_none_iff]
    exact fun node hget hfile => h ⟨node, hget, hfile⟩
  simp only [source, hfilter, firstHit]

/-- A hit that is read is not the session's own file, since that is missing. -/
theorem ne_of_firstHit {raw : String} (h : ¬ HasFile dir s)
    (hhit : firstHit dir s = some (name, .text raw)) : name ≠ safeSessionFilename s := by
  rintro rfl
  exact h ⟨_, Dict.mem_entries_iff.mp (List.mem_of_find?_eq_some hhit), rfl⟩

/-- Nothing is stored when no text is read. -/
theorem saveSessionState_of_no_text {json : JsonText} {tenantId : String} {redis : Redis}
    (h : ∀ name raw, source dir s ≠ some (name, .text raw)) :
    saveSessionState json tenantId s (some dir) redis = redis := by
  unfold saveSessionState
  split
  next name raw hsource => exact absurd hsource (h name raw)
  all_goals rfl

/-- What is read is listed. -/
theorem mem_keys_of_source {node : Node} (h : source dir s = some (name, node)) :
    name ∈ dir.keys := by
  by_cases hfile : HasFile dir s
  · obtain ⟨own, hsource⟩ := source_of_hasFile hfile
    obtain ⟨rfl, -⟩ := Prod.mk.inj (Option.some.inj (hsource.symm.trans h))
    obtain ⟨node, hget, -⟩ := hfile
    exact Dict.mem_keys_iff.mpr ⟨node, hget⟩
  · rw [source_of_not_hasFile hfile] at h
    exact Dict.mem_keys_iff.mpr ⟨node, Dict.mem_entries_iff.mp (List.mem_of_find?_eq_some h)⟩

/-- If no other session's file is read, then none is stored. -/
theorem storesOwn_of_own
    (h : ∀ name raw, source dir s = some (name, .text raw) → ¬Foreign s name) :
    StoresOwn dir s where
  own := h
  nothing hforeign _ _ _ := saveSessionState_of_no_text fun name raw hsource =>
    h name raw hsource (hforeign name (mem_keys_of_source hsource))

/-- **When saving stores no other session's history.** Either the session's own file is there,
or the first file the search finds has a name that no other session's file has. -/
theorem storesOwn_iff (hs : Normalized s) (dir : Dict String Node) :
    StoresOwn dir s ↔
      HasFile dir s ∨ ∀ name raw, firstHit dir s = some (name, .text raw) → ¬ Lookalike s name := by
  constructor
  · intro h
    refine or_iff_not_imp_left.mpr fun hfile name raw hhit hlook => ?_
    have haccepted : looksLike s (name, Node.text raw).1 = true :=
      @List.find?_some _ (fun e : String × Node => looksLike s e.1) _ _ hhit
    exact h.own name raw ((source_of_not_hasFile hfile).trans hhit)
      ((foreign_iff hs haccepted (ne_of_firstHit hfile hhit)).mpr hlook)
  · intro h
    refine storesOwn_of_own fun name raw hsource hforeign => ?_
    by_cases hfile : HasFile dir s
    · obtain ⟨node, hown⟩ := source_of_hasFile hfile
      obtain ⟨rfl, -⟩ := Prod.mk.inj (Option.some.inj (hown.symm.trans hsource))
      exact hforeign.1 rfl
    · rw [source_of_not_hasFile hfile] at hsource
      exact h.resolve_left hfile name raw hsource (lookalike_of_foreign hforeign)

/-- The directory holds the file of session `api:12`. -/
def twelveOnly : Dict String Node := Dict.empty.set "api_12.json" (.text "[\"hi\"]")

theorem storesOwn_iff_twelveOnly :
    StoresOwn twelveOnly "api:7" ↔ HasFile twelveOnly "api:7" ∨
      ∀ name raw, firstHit twelveOnly "api:7" = some (name, .text raw) → ¬ Lookalike "api:7" name :=
  storesOwn_iff ⟨by decide, by decide, by decide⟩ twelveOnly

/-- **A neighbour's history is stored**: the file of session `api:12` is saved for session
`api:1`. -/
theorem neighbour_stored : ¬ ∀ dir s, Normalized s → StoresOwn dir s := by
  intro hlaw
  have hs : Normalized "api:1" := ⟨by decide, by decide, by decide⟩
  have hr : Normalized "api:12" := ⟨by decide, by decide, by decide⟩
  have hsource : source twelveOnly "api:1" = some ("api_12.json", .text "[\"hi\"]") := by
    decide +kernel
  have hforeign : Foreign "api:1" "api_12.json" :=
    ⟨by decide +kernel, "api:12", hr, by decide +kernel, .inl (by decide +kernel)⟩
  exact (hlaw twelveOnly _ hs).own _ _ hsource hforeign

end Nanogate.History
