import Nanogate.Bus.Wire

/-!
# Events as a text

The route sends each event as a line `data: ` with its JSON and an empty line. A client takes the
text line by line, as `str.splitlines` cuts it, and collects the answer: what the progress events
say is put together until a final event comes, whose own response counts if it has one. The JSON of
an event is printable ASCII, so whatever is in it, it is one line, and the client reads the objects
that were sent.

The client here is that of the repository's integration tests.

## Main definitions

* `eventText` — an event as it is sent
* `splitLines` — `str.splitlines`
* `collectLines`, `chatResult` — what the client makes of the lines
* `answerOf` — what a turn comes to

## Main results

* `collectLines_eventText` — the client reads the event that was sent
* `collected_of_turn` — from the text of a turn the client has what the turn came to
* `client_of_run` — and so it has for each message, if it chains its streams
-/

namespace Nanogate.Bus

open Nanogate.Python Nanogate.Python.JsonText Nanogate.Redis Nanogate.Semantics Wire

/-! ### Lines -/

/-- The characters at which `str.splitlines` ends a line. -/
def isLineBreak (c : Char) : Bool :=
  c ∈ ['\n', '\r', '\x0b', '\x0c', '\x1c', '\x1d', '\x1e', '\x85', '\u2028', '\u2029']

/-- The lines of a text of which `line` has been read, in reverse. -/
def splitLinesFrom (line : List Char) : List Char → List (List Char)
  | [] => if line = [] then [] else [line.reverse]
  | '\r' :: '\n' :: cs => line.reverse :: splitLinesFrom [] cs
  | c :: cs => if isLineBreak c then line.reverse :: splitLinesFrom [] cs
    else splitLinesFrom (c :: line) cs

/-- `str.splitlines` -/
def splitLines (text : List Char) : List (List Char) := splitLinesFrom [] text

/-- `"data: "` -/
def dataField : List Char := ['d', 'a', 't', 'a', ':', ' ']

/-- `f"data: {json.dumps(event)}\n\n"` -/
def eventText (event : Json) : List Char := dataField ++ ((dumps event).toList ++ ['\n', '\n'])

theorem isLineBreak_of_isPrintable {c : Char} (h : isPrintable c = true) :
    isLineBreak c = false := by
  have hall : ['\n', '\r', '\x0b', '\x0c', '\x1c', '\x1d', '\x1e', '\x85', '\u2028', '\u2029'].all
      (fun b => !isPrintable b) = true := by decide
  refine decide_eq_false fun hmem => ?_
  have hc := List.all_eq_true.mp hall c hmem
  rw [h] at hc
  exact absurd hc (by decide)

theorem splitLinesFrom_cons {c : Char} (hc : c ≠ '\r') (line cs : List Char) :
    splitLinesFrom line (c :: cs) =
      if isLineBreak c then line.reverse :: splitLinesFrom [] cs
      else splitLinesFrom (c :: line) cs := by
  rw [splitLinesFrom]
  rintro _ rfl
  exact absurd rfl hc

/-- Printable text is read on to the end of its line. -/
theorem splitLinesFrom_append {text : List Char} (htext : Printable text) (line rest : List Char) :
    splitLinesFrom line (text ++ '\n' :: rest) =
      (line.reverse ++ text) :: splitLinesFrom [] rest := by
  induction text generalizing line with
  | nil =>
    have hbreak : isLineBreak '\n' = true := by decide
    rw [List.nil_append, List.append_nil, splitLinesFrom_cons (by decide), if_pos hbreak]
  | cons c text ih =>
    have hc := isLineBreak_of_isPrintable (htext c (List.mem_cons_self ..))
    have hreturn : c ≠ '\r' := by
      rintro rfl
      exact absurd hc (by decide)
    rw [List.cons_append, splitLinesFrom_cons hreturn, hc, if_neg Bool.false_ne_true,
      ih (fun c hc => htext c (List.mem_cons_of_mem _ hc)), List.reverse_cons, List.append_assoc,
      List.singleton_append]

/-- What is sent for an event is a line with the event and an empty line. -/
theorem splitLines_eventText {floatRepr : String → String} {event : Json}
    (hevent : IsPython floatRepr event) (rest : List Char) :
    splitLines (eventText event ++ rest) =
      (dataField ++ (dumps event).toList) :: [] :: splitLines rest := by
  have hprintable : Printable (dataField ++ (dumps event).toList) :=
    Printable.append (by decide) (printable_dumps hevent)
  have htext : eventText event ++ rest =
      (dataField ++ (dumps event).toList) ++ '\n' :: ([] ++ '\n' :: rest) := by
    simp [eventText]
  rw [htext, splitLines, splitLinesFrom_append hprintable,
    splitLinesFrom_append (by simp [Printable])]
  rfl

/-! ### The client -/

/-- Why a client has no result: the test's own error, or an exception on the way. -/
inductive ClientError where
  | assertion (err : Json)
  | raised
  deriving DecidableEq, Repr

/-- `full_response` and `last_event` -/
structure Collected where
  fullResponse : Json
  lastEvent : Json
  deriving DecidableEq, Repr

/-- `a + b`, where `a` is a string. -/
def addStr (a b : Json) : Option Json :=
  match a, b with
  | .str a, .str b => some (.str (a ++ b))
  | _, _ => none

/-- The loop over the lines. -/
def collectLines (floatRepr : String → String) :
    List (List Char) → Collected → Except ClientError Collected
  | [], c => .ok c
  | line :: lines, c =>
    if dataField.isPrefixOf line then
      match loadsDict floatRepr (String.ofList (line.drop 6)) with
      | none => .error .raised
      | some event =>
        if event.get "status" = some (.str "progress") then
          match addStr c.fullResponse ((event.get "response").getD (.str "")) with
          | some fullResponse => collectLines floatRepr lines ⟨fullResponse, event⟩
          | none => .error .raised
        else if isFinal event then
          .ok ⟨if (event.getD "response").truthy then event.getD "response" else c.fullResponse,
            event⟩
        else collectLines floatRepr lines { c with lastEvent := event }
    else collectLines floatRepr lines c

/-- What `chat` of the tests returns. -/
structure ChatResult where
  response : Json
  approvalRequestId : Json
  approvalContext : Json
  status : Json
  sessionId : String
  eventId : Json
  deriving DecidableEq, Repr

/-- The result, or the test's error. -/
def chatResult (sessionId : String) (c : Collected) : Except ClientError ChatResult :=
  let status := (c.lastEvent.get "status").getD (.str "unknown")
  if status = .str "error" then
    .error (.assertion ((c.lastEvent.get "error").getD (.str "unknown error")))
  else
    .ok {
      response := c.fullResponse
      approvalRequestId := c.lastEvent.getD "approval_request_id"
      approvalContext := c.lastEvent.getD "approval_context"
      status
      sessionId
      eventId := c.lastEvent.getD "event_id" }

/-- `chat` of the tests, once the stream is there. -/
def clientChat (floatRepr : String → String) (sessionId : String) (text : List Char) :
    Except ClientError ChatResult :=
  match collectLines floatRepr (splitLines text) ⟨.str "", .obj []⟩ with
  | .ok c => chatResult sessionId c
  | .error e => .error e

/-! ### What the client reads -/

section Client

variable {floatRepr : String → String} {c : Collected} {event : Json} {rest : List Char}

theorem drop_dataField (text : List Char) : (dataField ++ text).drop 6 = text := rfl

/-- **The client reads the event that was sent.** -/
theorem collectLines_eventText (hevent : IsDict floatRepr event) :
    collectLines floatRepr (splitLines (eventText event ++ rest)) c =
      if event.get "status" = some (.str "progress") then
        match addStr c.fullResponse ((event.get "response").getD (.str "")) with
        | some fullResponse => collectLines floatRepr (splitLines rest) ⟨fullResponse, event⟩
        | none => .error .raised
      else if isFinal event then
        .ok ⟨if (event.getD "response").truthy then event.getD "response" else c.fullResponse,
          event⟩
      else collectLines floatRepr (splitLines rest) { c with lastEvent := event } := by
  have hfield : dataField.isPrefixOf (dataField ++ (dumps event).toList) = true := by simp
  have hempty : ¬ dataField.isPrefixOf [] = true := by decide
  have hskip (c : Collected) : collectLines floatRepr ([] :: splitLines rest) c =
      collectLines floatRepr (splitLines rest) c := by
    rw [collectLines, if_neg hempty]
  rw [splitLines_eventText hevent.python, collectLines, if_pos hfield, drop_dataField,
    String.ofList_toList, loadsDict_dumps hevent]
  simp only [hskip]

end Client

/-! ### A turn -/

/-- The texts that the route sends for events. -/
def sent (events : List Json) : List Char := events.flatMap eventText

/-- What a progress event says. -/
def saidBy (e : ℕ × Event) : String := ((e.2.data.getD "response").str?).getD ""

/-- What a turn comes to for the client of a session: its response, or what was said in progress
where the response is empty; the exception of a turn that raised is the test's error. -/
def answerOf (sessionId : String) (said : List String) (eventId : String) :
    Outcome → Except ClientError ChatResult
  | .response response rid context =>
    .ok {
      response := .str (if response = "" then String.join said else response)
      approvalRequestId := optional rid
      approvalContext := context
      status := .str "done"
      sessionId
      eventId := .str eventId }
  | .raised error => .error (.assertion (.str error))

section Turn

variable {floatRepr : String → String} {t s : String} {req : Request} {e answer : ℕ × Event}
  {progress events : List (ℕ × Event)} {rest : List Char} {last : Json} {said : String}

theorem get_tagged_of_ne {k : String} (hk : k ≠ "event_id") :
    (tagged e).get k = e.2.data.get k :=
  Json.get_set_of_ne hk

theorem isDict_tagged (h : IsDict floatRepr e.2.data) : IsDict floatRepr (tagged e) :=
  h.set (isPython_str _)

/-- A progress event adds what it says. -/
theorem collectLines_progress (he : IsProgress t req e) (hdict : IsDict floatRepr e.2.data) :
    collectLines floatRepr (splitLines (eventText (tagged e) ++ rest)) ⟨.str said, last⟩ =
      collectLines floatRepr (splitLines rest) ⟨.str (said ++ saidBy e), tagged e⟩ := by
  obtain ⟨content, hint, hdata⟩ := he.data
  have hstatus : (tagged e).get "status" = some (.str "progress") := by
    rw [get_tagged_of_ne (by decide), hdata]
    simp [progressPayload, Json.get, Entries.get]
  have hresponse : (tagged e).get "response" = some (.str (saidBy e)) := by
    rw [get_tagged_of_ne (by decide), saidBy, hdata]
    simp [progressPayload, Json.getD, Json.get, Entries.get, Json.str?]
  rw [collectLines_eventText (isDict_tagged hdict), if_pos hstatus, hresponse]
  rfl

theorem collectLines_progresses (rest : List Char)
    (hprogress : ∀ e ∈ progress, IsProgress t req e)
    (hdict : ∀ e ∈ progress, IsDict floatRepr e.2.data) (said : String) (last : Json) :
    ∃ last', collectLines floatRepr (splitLines (sent (progress.map tagged) ++ rest))
        ⟨.str said, last⟩ =
      collectLines floatRepr (splitLines rest)
        ⟨.str (said ++ String.join (progress.map saidBy)), last'⟩ := by
  induction progress generalizing said last with
  | nil => exact ⟨last, by simp [sent]⟩
  | cons e progress ih =>
    obtain ⟨last', hrest⟩ := ih (fun e he => hprogress e (List.mem_cons_of_mem _ he))
      (fun e he => hdict e (List.mem_cons_of_mem _ he)) (said ++ saidBy e) (tagged e)
    refine ⟨last', ?_⟩
    have hsent : sent ((e :: progress).map tagged) ++ rest =
        eventText (tagged e) ++ (sent (progress.map tagged) ++ rest) := by
      simp [sent]
    rw [hsent, collectLines_progress (hprogress e (List.mem_cons_self ..))
      (hdict e (List.mem_cons_self ..)), hrest]
    simp [String.append_assoc]

/-- The final event is the last one that the client reads, and carries what the turn came to. -/
theorem collectLines_answer {outcome : Outcome}
    (hdata : answer.2.data = finalPayload req.payload outcome)
    (hdict : IsDict floatRepr answer.2.data) :
    (match collectLines floatRepr (splitLines (eventText (tagged answer) ++ rest))
        ⟨.str said, last⟩ with
      | .ok c => chatResult s c
      | .error e => .error e) = answerOf s [said] (idText answer.1) outcome := by
  have hfinal : isFinal (tagged answer) = true := by
    rw [isFinal_tagged, endsStream, hdata, isFinal_finalPayload]
  have hget {k : String} (hk : k ≠ "event_id") :
      (tagged answer).get k = (finalPayload req.payload outcome).get k := by
    rw [get_tagged_of_ne hk, hdata]
  have hstatus : (tagged answer).get "status" ≠ some (.str "progress") := by
    rw [hget (by decide)]
    cases outcome <;> simp [finalPayload, Json.get, Entries.get]
  rw [collectLines_eventText (isDict_tagged hdict), if_neg hstatus, if_pos hfinal]
  cases outcome with
  | raised error =>
    simp only [chatResult, hget (show "status" ≠ "event_id" by decide),
      hget (show "error" ≠ "event_id" by decide)]
    rfl
  | response response rid context =>
    simp only [chatResult, Json.getD, hget (show "status" ≠ "event_id" by decide),
      hget (show "response" ≠ "event_id" by decide), get_tagged,
      hget (show "approval_request_id" ≠ "event_id" by decide),
      hget (show "approval_context" ≠ "event_id" by decide)]
    by_cases hresponse : response = ""
    · subst hresponse
      simp [finalPayload, Json.get, Entries.get, answerOf, Json.truthy]
    · simp [finalPayload, Json.get, Entries.get, answerOf, Json.truthy, hresponse]

/-- **From the text of a turn the client has what the turn came to.** -/
theorem collected_of_turn {outcome : Outcome}
    (hprogress : ∀ e ∈ progress, IsProgress t req e)
    (hdata : answer.2.data = finalPayload req.payload outcome)
    (hdict : ∀ e ∈ progress ++ [answer], IsDict floatRepr e.2.data) :
    clientChat floatRepr s (sent ((progress ++ [answer]).map tagged)) =
      answerOf s (progress.map saidBy) (idText answer.1) outcome := by
  obtain ⟨last, hcollected⟩ := collectLines_progresses (eventText (tagged answer) ++ [])
    hprogress (fun e he => hdict e (List.mem_append_left _ he)) "" (.obj [])
  have hsent : sent ((progress ++ [answer]).map tagged) =
      sent (progress.map tagged) ++ (eventText (tagged answer) ++ []) := by
    simp [sent]
  rw [clientChat, hsent, hcollected,
    collectLines_answer hdata (hdict answer (List.mem_append_right _ (List.mem_singleton_self _)))]
  cases outcome <;> simp [answerOf]

end Turn

/-! ### One message after the other -/

section Run

variable {floatRepr : String → String} {d t s : String} {n i : ℕ} {acts : List FollowAction}
  {f : Following} {r : Reader} {made : List (ℕ × Product)}

/-- What is on the bus are dictionaries, as long as the turns hand back what Python holds. -/
theorem held_of_following (hrun : (following d s).run acts = some f)
    (hheld : ∀ a, FollowAction.bus a ∈ acts → HeldAction floatRepr (label a)) :
    Held floatRepr f.sys := by
  have hall : ∀ b ∈ acts, ∀ a, b = .bus a → HeldAction floatRepr (label a) := fun b hb a h =>
    hheld a (h ▸ hb)
  refine Machine.run_invariant (M := following d s) (I := fun f => Held floatRepr f.sys)
    (fun {f a f'} h hact hstep => ?_) held_init (Machine.AllSteps.of_labels hall) hrun
  cases a with
  | bus a =>
    obtain ⟨sys', hsys', rfl⟩ := Option.map_eq_some_iff.mp hstep
    exact held_step h (hact a rfl) hsys'
  | reopen =>
    change (if _ then _ else _) = _ at hstep
    split_ifs at hstep
    obtain rfl := Option.some_inj.mp hstep
    exact h
  | fetch | next =>
    obtain rfl := Option.some_inj.mp hstep
    exact h

/-- A stream that has ended is not empty. -/
theorem ClientAt.ne_nil (h : ClientAt s f) (hr : f.streams[i]? = some r)
    (hclosed : r.closed = true) : r.yielded ≠ [] := by
  obtain ⟨-, -, rest, hreading⟩ := h
  have hterminated : Terminated endsStream r.yielded := by
    rcases List.mem_append.mp (List.mem_of_getElem? hr) with hfinished | hcurrent
    · exact (hreading.ended r hfinished).2
    · obtain rfl := List.mem_singleton.mp hcurrent
      exact hreading.closed hclosed
  obtain ⟨front, last, hyielded, -, -⟩ := hterminated
  simp [hyielded]

/-- A stream that has ended yields the turn of its request. -/
theorem yieldsProducts_of_closed (hclient : ClientAt s f) (hbus : BusAt t s n f.sys made)
    (hr : f.streams[i]? = some r) (hclosed : r.closed = true) :
    ∃ req, (pushed s f.sys)[i]? = some req ∧ YieldsProducts t s f.sys made req r := by
  obtain ⟨hyields, hnone⟩ := hbus.yieldsProducts hclient hr
  cases hreq : (pushed s f.sys)[i]? with
  | none => exact absurd (hnone hreq) (hclient.ne_nil hr hclosed)
  | some req => exact ⟨req, rfl, hyields req hreq⟩

/-- Something said in progress, and whether it is a hint on a tool. -/
def Product.ofSaid (x : String × Bool) : Product := .progress x.1 x.2

theorem exists_said {req : Request} {progress : List (ℕ × Event)} {products : List Product}
    (hprogress : ∀ p ∈ progress, IsProgress t req p)
    (hpayloads : progress.map (fun p => p.2.data) = products.map (Product.payload req)) :
    ∃ said : List (String × Bool),
      products = said.map Product.ofSaid ∧ progress.map saidBy = said.map Prod.fst := by
  induction products generalizing progress with
  | nil =>
    rw [List.map_nil, List.map_eq_nil_iff] at hpayloads
    exact ⟨[], rfl, by rw [hpayloads]; rfl⟩
  | cons product products ih =>
    obtain ⟨p, progress, rfl, hpayload, hrest⟩ := List.map_eq_cons_iff.mp hpayloads
    obtain ⟨said, rfl, hsaid⟩ := ih (fun q hq => hprogress q (List.mem_cons_of_mem _ hq)) hrest
    cases product with
    | progress content hint =>
      refine ⟨(content, hint) :: said, rfl, ?_⟩
      have hsays : saidBy p = content := by
        rw [saidBy, hpayload]
        rfl
      rw [List.map_cons, List.map_cons, hsays, hsaid]
    | outcome outcome =>
      -- an outcome makes a final event
      have hfinal : endsStream p = true := by
        rw [endsStream, hpayload, Product.payload, isFinal_finalPayload]
      exact absurd hfinal (by simp [(hprogress p (List.mem_cons_self ..)).not_final])

/-- The events of a complete turn are made of what was said in progress and of one outcome. -/
theorem exists_products {req : Request} {progress : List (ℕ × Event)} {answer : ℕ × Event}
    {products : List Product} (hprogress : ∀ p ∈ progress, IsProgress t req p)
    (hanswer : IsAnswer t req answer)
    (hpayloads : (progress ++ [answer]).map (fun p => p.2.data) =
      products.map (Product.payload req)) :
    ∃ (said : List (String × Bool)) (outcome : Outcome),
      products = said.map Product.ofSaid ++ [.outcome outcome] ∧
      progress.map saidBy = said.map Prod.fst ∧
      answer.2.data = finalPayload req.payload outcome := by
  rw [List.map_append] at hpayloads
  obtain ⟨front, last, rfl, hfront, hlast⟩ := List.map_eq_append_iff.mp hpayloads.symm
  obtain ⟨product, rfl, hproduct⟩ := List.map_eq_singleton_iff.mp hlast
  have hproduct : product.payload req = answer.2.data := hproduct
  obtain ⟨said, rfl, hsaid⟩ := exists_said hprogress hfront.symm
  cases product with
  | progress content hint =>
    have hfinal := hanswer.final
    rw [endsStream, ← hproduct, Product.payload, isFinal_progressPayload] at hfinal
    exact absurd hfinal (by decide)
  | outcome outcome => exact ⟨said, outcome, rfl, hsaid, hproduct.symm⟩

/-- What the client of the `i`-th message of a session gets: of the text that its stream sends it
makes what the turn of the session's `i`-th request has said and what it came to, and the id with
which it opens its next stream is that of the last event. -/
structure GetsAnswer (floatRepr : String → String) (s : String) (sys : System)
    (made : List (ℕ × Product)) (i : ℕ) (r : Reader) (req : Request) (said : List (String × Bool))
    (outcome : Outcome) (eventId : String) : Prop where
  request : (pushed s sys)[i]? = some req
  products : productsFor made req.rid = said.map Product.ofSaid ++ [.outcome outcome]
  result : clientChat floatRepr s
      (sent (eventGenerator (fun _ => false) .returned 0 (r.yielded.map tagged))) =
    answerOf s (said.map Prod.fst) eventId outcome
  next : parseId eventId = some (Stream.lastOf r.yielded)

/-- **Each message gets its own answer.** Where one container serves the tenant, a client that
sends its messages and reads a stream for each, from the id that the answer before it came with, has
for each message what the turn of that message came to. -/
theorem client_of_run (hrun : (following d s).run acts = some f)
    (hallowed : (following d s).AllSteps (Following.Allowed d t s n) (following d s).init acts)
    (hheld : ∀ a, FollowAction.bus a ∈ acts → HeldAction floatRepr (label a))
    (hr : f.streams[i]? = some r) (hclosed : r.closed = true) :
    ∃ req said outcome eventId,
      GetsAnswer floatRepr s f.sys (produced d s acts) i r req said outcome eventId := by
  obtain ⟨hclient, hbus⟩ := reading_served_run hrun hallowed
  obtain ⟨req, hreq, hyields⟩ := yieldsProducts_of_closed hclient hbus hr hclosed
  obtain ⟨hevents, progress, answer, hyielded, hprogress, hanswer⟩ := hyields.all hclosed
  obtain ⟨said, outcome, hproducts, hsaid, hdata⟩ :=
    exists_products hprogress hanswer (hyielded ▸ hyields.whole hclosed)
  refine ⟨req, said, outcome, idText answer.1, hreq, hproducts, ?_, ?_⟩
  · have hdict : ∀ e ∈ progress ++ [answer], IsDict floatRepr e.2.data := by
      rw [← hyielded, hevents]
      exact fun e he => (held_of_following hrun hheld).streams _ e (List.mem_of_mem_filter he)
    have hunended : Unended endsStream progress := fun p hp => (hprogress p hp).not_final
    rw [eventGenerator_of_connected (by simp), upToEnd_map]
    simp only [isFinal_tagged]
    rw [hyielded, upToEnd_append hunended, upToEnd_cons_of_end hanswer.final,
      collected_of_turn hprogress hdata hdict, hsaid]
  · rw [parseId_idText, hyielded, Stream.lastOf_concat]

/-- The client of two messages has an answer for each. -/
theorem client_twoAnswers : ∃ f r req said outcome eventId,
    (following "default" "api:direct").run twoAnswers = some f ∧ f.streams[1]? = some r ∧
      GetsAnswer id "api:direct" f.sys (produced "default" "api:direct" twoAnswers) 1 r req said
        outcome eventId := by
  have hrun : ∃ f, (following "default" "api:direct").run twoAnswers = some f := ⟨_, rfl⟩
  have hheld : ∀ a, FollowAction.bus a ∈ twoAnswers → HeldAction id (label a) := by
    simp [twoAnswers, label, HeldAction, HeldAct, IsPython]
  obtain ⟨f, hf⟩ := hrun
  obtain ⟨r, hr, hclosed⟩ : ∃ r, f.streams[1]? = some r ∧ r.closed = true := by
    obtain rfl := Option.some_inj.mp hf
    exact ⟨_, rfl, rfl⟩
  obtain ⟨req, said, outcome, eventId, h⟩ := client_of_run (t := "alice") (n := 0) (i := 1) hf
    (by decide) hheld hr hclosed
  exact ⟨f, r, req, said, outcome, eventId, hf, hr, h⟩

end Run

end Nanogate.Bus
