import Nanogate.Bus.Message
import Nanogate.Python.Url

/-!
# The stream URL

`POST /chat` answers with a URL into which the session id is pasted as it is. Whoever follows it
sends the part before the first `?` or `#`, the server decodes the escapes in it, and the route
takes one segment. The agent publishes under the id itself, so the two ends meet only if the id
gets through unchanged.

## Main definitions

* `pathOf`, `streamRoute`, `followed` — the stream that following a URL leads to
* `Plain` — a text without any character or escape that means something in a path

## Main results

* `followed_append_iff` — a pasted id leads to its own stream exactly if it is plain
* `leads_iff` — the URL leads to the agent's stream exactly if the client's id is plain
-/

namespace Nanogate.Bus

open Nanogate.Python

/-! ### Following a URL -/

/-- The path of a URL that begins with its path. -/
def pathOf (url : String) : String :=
  String.ofList (url.toList.takeWhile fun c => c ≠ '?' && c ≠ '#')

/-- The part of the stream URL before the session id. -/
def streamPath : String := "/api/chat/stream/"

/-- The path parameter of `/api/chat/stream/{session_id}`. -/
def streamRoute (path : String) : Option String :=
  if startsWith streamPath path then
    let sessionId := path.toList.drop streamPath.length
    if sessionId ≠ [] ∧ '/' ∉ sessionId then some (String.ofList sessionId) else none
  else none

/-- The key that `stream_chat` subscribes to when a client issues GET on the URL; `none` when the
route does not match. -/
def followed (url : String) : Option String :=
  (streamRoute (unquote (pathOf url))).map streamKey

/-! ### Plain ids -/

/-- What ends a path, separates its segments or is decoded. -/
inductive Reserved : List Char → Prop
  | question : Reserved ['?']
  | hash : Reserved ['#']
  | slash : Reserved ['/']
  | escape {m : List Char} (h : Escape m) : Reserved m

/-- Nothing in the text is reserved. -/
def Plain (s : String) : Prop := ∀ m, Reserved m → ¬ m <:+: s.toList

section Plain

variable {s : String} {m l pre : List Char} {c : Char}

theorem Reserved.ne_nil (h : Reserved m) : m ≠ [] := by
  cases h with
  | escape h => cases h; simp
  | question | hash | slash => simp

theorem Reserved.head_mem (h : Reserved m) (hc : c ∈ m.head?) : c ∈ ['?', '#', '/', '%'] := by
  cases h with
  | escape h =>
    cases h
    obtain rfl := Option.some.inj hc
    simp
  | question | hash | slash =>
    obtain rfl := Option.some.inj hc
    simp

/-- No white space is part of an escape. -/
theorem isSpace_of_hexDigit (h : (hexDigit c).isSome = true) : isSpace c = false := by
  have hrange : ('0' ≤ c ∧ c ≤ '9') ∨ ('a' ≤ c ∧ c ≤ 'f') ∨ ('A' ≤ c ∧ c ≤ 'F') := by
    unfold hexDigit at h
    split_ifs at h with h₁ h₂ h₃
    · exact .inl h₁
    · exact .inr (.inl h₂)
    · exact .inr (.inr h₃)
    · simp at h
  have hnat : 0x30 ≤ c.toNat ∧ c.toNat ≤ 0x66 := by
    rcases hrange with ⟨hlow, hhigh⟩ | ⟨hlow, hhigh⟩ | ⟨hlow, hhigh⟩
    all_goals
      have hlow' := Char.le_def.mp hlow
      have hhigh' := Char.le_def.mp hhigh
      simp only [UInt32.le_iff_toNat_le] at hlow' hhigh'
      exact ⟨le_trans (by decide) hlow', le_trans hhigh' (by decide)⟩
  simp only [isSpace, Bool.or_eq_false_iff, Bool.and_eq_false_iff, decide_eq_false_iff_not,
    beq_eq_false_iff_ne]
  omega

theorem Reserved.isSpace_eq_false (h : Reserved m) : ∀ a ∈ m, isSpace a = false := by
  cases h with
  | escape h =>
    obtain ⟨ha, hb⟩ := h
    simp only [List.forall_mem_cons, List.not_mem_nil, IsEmpty.forall_iff, implies_true, and_true]
    exact ⟨by decide, isSpace_of_hexDigit ha, isSpace_of_hexDigit hb⟩
  | question | hash | slash => simp only [List.forall_mem_singleton]; decide

/-- Stripping takes nothing reserved away. -/
theorem plain_strip : Plain (strip s) ↔ Plain s := by
  unfold Plain
  refine forall₂_congr fun m hm => not_congr ?_
  rw [strip, String.toList_ofList]
  exact infix_trim_iff isSpace hm.ne_nil hm.isSpace_eq_false

/-- What begins with a character that a list does not have occurs only behind it. -/
theorem infix_append_iff (hm : m ≠ []) (h : ∀ c ∈ m.head?, c ∉ pre) :
    m <:+: pre ++ l ↔ m <:+: l := by
  refine ⟨fun hoccurs => ?_, fun hoccurs => hoccurs.trans (List.suffix_append pre l).isInfix⟩
  induction pre with
  | nil => exact hoccurs
  | cons c pre ih =>
    refine ih (fun d hd hmem => h d hd (List.mem_cons_of_mem _ hmem))
      ((List.infix_cons_iff.mp hoccurs).resolve_left fun hpre => ?_)
    obtain ⟨a, m, rfl⟩ := List.exists_cons_of_ne_nil hm
    obtain ⟨rfl, -⟩ := List.cons_prefix_cons.mp hpre
    exact h a rfl (List.mem_cons_self ..)

/-- So a text in front that has none of the characters may be left out. -/
theorem plain_append {t : String} (h : (['?', '#', '/', '%'].all (· ∉ t.toList)) = true) :
    Plain (t ++ s) ↔ Plain s := by
  unfold Plain
  refine forall₂_congr fun m hm => not_congr ?_
  rw [String.toList_append]
  refine infix_append_iff hm.ne_nil fun c hc => ?_
  exact of_decide_eq_true (List.all_eq_true.mp h c (hm.head_mem hc))

theorem plain_empty : Plain "" := fun _ hm hoccurs => hm.ne_nil (List.infix_nil.mp hoccurs)

theorem plain_direct : Plain "api:direct" :=
  (plain_append (t := "api:direct") (s := "") (by decide)).mpr plain_empty

/-- Normalising an id neither adds nor removes what is reserved. -/
theorem plain_normalizeSessionId (raw : Option String) :
    Plain (normalizeSessionId raw) ↔ ∀ s, raw = some s → Plain s := by
  cases raw with
  | none => simpa [normalizeSessionId, orElse, contains] using plain_direct
  | some s =>
    simp only [Option.some.injEq, forall_eq']
    by_cases hblank : strip s = ""
    · -- a blank id is replaced, and is plain
      have hplain : Plain s := plain_strip.mp (hblank ▸ plain_empty)
      have hdirect : normalizeSessionId (some s) = "api:direct" := by
        by_cases hs : s = "" <;> simp [normalizeSessionId, orElse, hs, hblank, contains]
      exact iff_of_true (hdirect ▸ plain_direct) hplain
    · have hs : s ≠ "" := by
        rintro rfl
        exact hblank (by decide)
      have hid : normalizeSessionId (some s) =
          if contains ':' (strip s) then strip s else "api:" ++ strip s := by
        simp [normalizeSessionId, orElse, hs, hblank]
      rw [hid, ← plain_strip (s := s)]
      split_ifs
      · exact Iff.rfl
      · exact plain_append (by decide)

end Plain

/-! ### The two ends -/

section Follow

variable {sessionId : String}

/-- What is left of a pasted id. -/
theorem followed_append (sessionId : String) :
    followed (streamPath ++ sessionId) =
      let rest := unquoteFrom 0 none (sessionId.toList.takeWhile fun c => c ≠ '?' && c ≠ '#')
      if rest ≠ [] ∧ '/' ∉ rest then some (streamKey (String.ofList rest)) else none := by
  have hcut : (streamPath ++ sessionId).toList.takeWhile (fun c => c ≠ '?' && c ≠ '#') =
      streamPath.toList ++ sessionId.toList.takeWhile fun c => c ≠ '?' && c ≠ '#' := by
    rw [String.toList_append, List.takeWhile_append_of_pos (List.all_eq_true.mp (by decide))]
  have hpercent : '%' ∉ streamPath.toList := by decide
  have hlength : streamPath.length = streamPath.toList.length := rfl
  simp only [followed, pathOf, unquote, String.toList_ofList, hcut, unquoteFrom_append hpercent,
    streamRoute, startsWith, List.isPrefixOf_iff_prefix.mpr (List.prefix_append _ _), if_true,
    hlength, List.drop_left]
  split_ifs <;> rfl

/-- A plain id is cut nowhere, is one segment of the path and is not decoded. -/
theorem plain_iff : Plain sessionId ↔
    (∀ c ∈ sessionId.toList, c ≠ '?' ∧ c ≠ '#') ∧ '/' ∉ sessionId.toList ∧
      unquoteFrom 0 none sessionId.toList = sessionId.toList := by
  constructor
  · intro h
    have hmem {c : Char} (hc : Reserved [c]) : c ∉ sessionId.toList := fun hin =>
      h [c] hc ((List.singleton_infix_iff _ _).mpr hin)
    refine ⟨fun c hc => ⟨?_, ?_⟩, hmem .slash, ?_⟩
    · rintro rfl
      exact hmem .question hc
    · rintro rfl
      exact hmem .hash hc
    · exact unquoteFrom_of_not_escape fun m hm => h m (.escape hm)
  · rintro ⟨hcut, hslash, hdecoded⟩ m hm hoccurs
    cases hm with
    | question => exact (hcut _ (hoccurs.subset (by simp))).1 rfl
    | hash => exact (hcut _ (hoccurs.subset (by simp))).2 rfl
    | slash => exact hslash (hoccurs.subset (by simp))
    | escape hm => exact unquoteFrom_eq_self_iff.mp hdecoded m hm hoccurs

/-- **A pasted id leads to its own stream exactly if it is plain.** -/
theorem followed_append_iff (hne : sessionId ≠ "") :
    followed (streamPath ++ sessionId) = some (streamKey sessionId) ↔ Plain sessionId := by
  rw [followed_append, plain_iff]
  set cut := sessionId.toList.takeWhile fun c => c ≠ '?' && c ≠ '#' with hcut
  have hwhole_iff : cut = sessionId.toList ↔ ∀ c ∈ sessionId.toList, c ≠ '?' ∧ c ≠ '#' := by
    rw [hcut, List.takeWhile_eq_self_iff]
    simp
  constructor
  · intro h
    dsimp only at h
    split_ifs at h with hroute
    have hrest : unquoteFrom 0 none cut = sessionId.toList := by
      rw [← String.toList_ofList (l := unquoteFrom 0 none cut)]
      exact congrArg String.toList (streamKey_inj.mp (Option.some.inj h))
    -- decoding and cutting only shorten, so neither happened
    have hlength : sessionId.toList.length ≤ cut.length := by
      have hle := length_unquoteFrom_le 0 none cut
      rwa [hrest] at hle
    have hwhole : cut = sessionId.toList := (List.takeWhile_prefix _).eq_of_length_le hlength
    rw [hrest] at hroute
    rw [hwhole] at hrest
    exact ⟨hwhole_iff.mp hwhole, hroute.2, hrest⟩
  · rintro ⟨hkept, hslash, hdecoded⟩
    have hnil : sessionId.toList ≠ [] := fun h => hne (String.toList_eq_nil_iff.mp h)
    rw [hwhole_iff.mpr hkept, hdecoded, if_pos ⟨hnil, hslash⟩, String.ofList_toList]

end Follow

theorem streamUrl_of_chat {defaultTenantId : String} {body : ChatRequest} {acc : Accepted}
    (h : chat defaultTenantId body = .ok acc) : acc.streamUrl = streamPath ++ acc.sessionId := by
  unfold chat at h
  split_ifs at h
  obtain rfl := Except.ok.inj h
  rfl

/-- The URL in the answer leads to the stream of the id in the answer exactly if the client's is
plain. -/
theorem followed_streamUrl_iff {defaultTenantId : String} {body : ChatRequest} {acc : Accepted}
    (h : chat defaultTenantId body = .ok acc) :
    followed acc.streamUrl = some (streamKey acc.sessionId) ↔
      ∀ s, body.sessionId = some s → Plain s := by
  rw [streamUrl_of_chat h, followed_append_iff (normalized_of_chat h).ne_empty,
    sessionId_of_chat h]
  exact plain_normalizeSessionId body.sessionId

/-- **When the stream URL leads to the agent's stream.** For every request that is accepted: exactly
when the id that the client sent, if it sent one, is plain. -/
theorem leads_iff {defaultTenantId : String} {body : ChatRequest} {acc : Accepted}
    (h : chat defaultTenantId body = .ok acc) :
    followed acc.streamUrl = some (streamKey (requestSession acc.payload)) ↔
      ∀ s, body.sessionId = some s → Plain s := by
  rw [requestSession_of_chat h]
  exact followed_streamUrl_iff h

/-- A request of a session that the client names. -/
def chatAs (sessionId : String) : ChatRequest := ⟨"hi", some sessionId, none, none⟩

theorem leads_iff_alice : ∃ acc, chat "default" (chatAs "alice") = .ok acc ∧
    (followed acc.streamUrl = some (streamKey (requestSession acc.payload)) ↔
      ∀ s, (chatAs "alice").sessionId = some s → Plain s) :=
  ⟨_, rfl, leads_iff rfl⟩

/-- **A stream nobody writes to**: the part of the id behind the question mark is lost. -/
theorem question_lost : ¬ ∀ defaultTenantId body acc, chat defaultTenantId body = .ok acc →
    followed acc.streamUrl = some (streamKey (requestSession acc.payload)) := by
  intro hlaw
  obtain ⟨acc, hchat⟩ : ∃ acc, chat "default" (chatAs "lost?") = .ok acc := ⟨_, rfl⟩
  have hleads := hlaw _ _ _ hchat
  rw [requestSession_of_chat hchat] at hleads
  have hplain := (followed_streamUrl_iff hchat).mp hleads "lost?" rfl
  exact hplain ['?'] .question (by decide)

end Nanogate.Bus
