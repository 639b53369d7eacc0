import DebugAdapter.Proofs.Wire.Requests
import DebugAdapter.Wire.Session

/-!
# Reactions

What a session does about a message. Whether the message ends the session is known from the options
alone (`react_finished`), and so is the kind of the answer to a request that begins or ends one. To
the debugger a message is what its client can ask for (`react_keeps`).
-/

namespace DebugAdapter.Wire

/-! ## Messages -/

def requestOf? : Received → Option Request
  | .malformed => none
  | .value j => (Request.decode j).toOption.filter (·.kind = "request")

/-- The request presents the secret that clients are asked for. -/
def admits (o : Options) (r : Request) : Bool :=
  o.secret.isSome && (AttachArguments.ofJson r.arguments).secret == o.secret

/-- The message ends the session: the client leaves, or it is sent away. -/
def ends (o : Options) (m : Received) : Bool :=
  (requestOf? m).any fun r => r.command == "disconnect" || r.command == "attach" && !admits o r

section
variable {m : Received} {r : Request}

theorem requestOf?_eq_some (h : requestOf? m = some r) :
    ∃ j, m = .value j ∧ Request.decode j = .ok r ∧ r.kind = "request" := by
  cases m with
  | malformed => contradiction
  | value j =>
    rw [requestOf?, Option.filter_eq_some_iff, decide_eq_true_eq] at h
    obtain ⟨hdecode, hkind⟩ := h
    cases hj : Request.decode j with
    | error e =>
      rw [hj] at hdecode
      contradiction
    | ok r' =>
      rw [hj] at hdecode
      cases hdecode
      exact ⟨j, rfl, hj, hkind⟩

theorem requestOf?_eq_none (h : requestOf? m = none) :
    m = .malformed ∨ (∃ j e, m = .value j ∧ Request.decode j = .error e) ∨
      ∃ j r, m = .value j ∧ Request.decode j = .ok r ∧ r.kind ≠ "request" := by
  cases m with
  | malformed => exact Or.inl rfl
  | value j =>
    right
    cases hj : Request.decode j with
    | error e => exact Or.inl ⟨j, e, rfl, hj⟩
    | ok r =>
      refine Or.inr ⟨j, r, rfl, hj, ?_⟩
      intro hkind
      rw [requestOf?, hj, Except.toOption, Option.filter_some, if_pos (decide_eq_true hkind)] at h
      contradiction

end

variable {C : Type} [Context C]

section
variable {d : Debugger C} {p : Debuggee} {m : Received} {r : Request}

theorem react_of_request (h : requestOf? m = some r) : react d p m = reply r (handle d p r) := by
  obtain ⟨j, rfl, hdecode, hkind⟩ := requestOf?_eq_some h
  simp only [react, hdecode, if_pos hkind]

theorem react_of_none (h : requestOf? m = none) :
    (react d p m).debugger = d ∧ (react d p m).finished = false := by
  rcases requestOf?_eq_none h with rfl | ⟨j, e, rfl, hdecode⟩ | ⟨j, r, rfl, hdecode, hkind⟩
  · exact ⟨rfl, rfl⟩
  · simp only [react, hdecode, and_self]
  · simp only [react, hdecode, if_neg hkind, and_self]

omit [Context C] in
theorem reply_debugger (r : Request) (o : Outcome C) : (reply r o).debugger = o.2 := by
  unfold reply
  split <;> rfl

/-- What is not asked for by an attach is not refused as one. -/
theorem Asks.outcome_ne {e : Debugger.Event C} (h : Asks p r e) (reason : String) :
    d.outcome e ≠ .error (.attachRejected reason) := by
  intro hrejected
  cases h with
  | setBreakpoints | setFunctionBreakpoints | setExceptionBreakpoints =>
    simp only [Debugger.outcome, Debugger.setBreakpoints, Debugger.setFunctionBreakpoints,
      Debugger.setExceptionBreakpoints] at hrejected
    split at hrejected <;> cases hrejected
  | stackTrace | scopes | children => cases hrejected
  | evaluate =>
    simp only [Debugger.outcome, Debugger.evaluate] at hrejected
    repeat' split at hrejected
    all_goals cases hrejected
  | resume =>
    simp only [Debugger.outcome, Debugger.resume] at hrejected
    repeat' split at hrejected
    all_goals cases hrejected
  | step =>
    simp only [Debugger.outcome, Debugger.step] at hrejected
    split at hrejected <;> cases hrejected
  | pause =>
    simp only [Debugger.outcome, Debugger.pause] at hrejected
    repeat' split at hrejected
    all_goals cases hrejected

omit [Context C] in
theorem reply_answer {answer : Except RequestError (Option Json)}
    (hanswer : ∀ reason, answer ≠ .error (.attachRejected reason)) (d : Debugger C) :
    ∃ success body text, reply r (answer.map .answer, d) =
      ⟨[.response r.seq r.command success body text], d, false⟩ := by
  cases answer with
  | ok body => exact ⟨true, body, none, rfl⟩
  | error e =>
    refine ⟨false, none, some e.message, ?_⟩
    cases e with
    | attachRejected reason => exact absurd rfl (hanswer reason)
    | _ => rfl

theorem reply_inner (hinner : Inner r) :
    ∃ success body text d', reply r (handle d p r) =
      ⟨[.response r.seq r.command success body text], d', false⟩ := by
  generalize ho : handle d p r = o
  have hhandled := handle_cases d p r
  rw [ho] at hhandled
  cases hhandled with
  | looked answer _ hkind =>
    obtain ⟨success, body, text, hreply⟩ := reply_answer hkind d
    exact ⟨success, body, text, _, hreply⟩
  | @did e hasks answer houtcome =>
    have hkind : ∀ reason, answer ≠ .error (.attachRejected reason) := by
      rintro reason rfl
      exact hasks.outcome_ne reason houtcome
    obtain ⟨success, body, text, hreply⟩ := reply_answer hkind (d.after e)
    exact ⟨success, body, text, _, hreply⟩
  | released _ body => exact ⟨true, body, none, _, rfl⟩
  | attached hcommand => exact absurd hcommand hinner.1
  | left hcommand => exact absurd hcommand hinner.2

omit [Context C] in
theorem attach_of_admits (hadmits : admits d.options r = true) :
    (d.attach (.ofJson r.arguments)).1 = .ok () := by
  rw [admits, Bool.and_eq_true, beq_iff_eq] at hadmits
  obtain ⟨hsome, hequal⟩ := hadmits
  obtain ⟨expected, hexpected⟩ := Option.isSome_iff_exists.mp hsome
  rw [hexpected] at hequal
  simp [Debugger.attach, hexpected, hequal]

omit [Context C] in
theorem attach_of_not_admits (hadmits : admits d.options r = false) :
    (∃ reason, (d.attach (.ofJson r.arguments)).1 = .error (.attachRejected reason)) ∧
      (d.attach (.ofJson r.arguments)).2 = d := by
  unfold Debugger.attach
  split
  · exact ⟨⟨_, rfl⟩, rfl⟩
  · rename_i expected hexpected
    have hother : (AttachArguments.ofJson r.arguments).secret ≠ some expected := by
      intro hequal
      simp [admits, hexpected, hequal] at hadmits
    rw [if_pos hother]
    exact ⟨⟨_, rfl⟩, rfl⟩

theorem handle_attach (h : r.command = "attach") :
    handle d p r = ((d.attach (.ofJson r.arguments)).1.map fun _ => .answerThen none "initialized",
      (d.attach (.ofJson r.arguments)).2) := by
  simp only [handle, h]
  rfl

theorem handle_disconnect (h : r.command = "disconnect") :
    handle d p r = (.ok (.finish none), d.detach) := by
  simp only [handle, h]

theorem react_of_admitted (h : requestOf? m = some r) (hcommand : r.command = "attach")
    (hadmits : admits d.options r = true) :
    react d p m = ⟨[.response r.seq "attach" true none none, .event "initialized" none],
      (d.attach (.ofJson r.arguments)).2, false⟩ := by
  rw [react_of_request h, handle_attach hcommand, attach_of_admits hadmits, ← hcommand]
  rfl

theorem react_of_rejected (h : requestOf? m = some r) (hcommand : r.command = "attach")
    (hadmits : admits d.options r = false) :
    ∃ reason, react d p m =
      ⟨[.response r.seq "attach" false none (some (RequestError.attachRejected reason).message),
        terminated], d, true⟩ := by
  obtain ⟨⟨reason, hreason⟩, hsame⟩ := attach_of_not_admits hadmits
  refine ⟨reason, ?_⟩
  rw [react_of_request h, handle_attach hcommand, hreason, hsame, ← hcommand]
  rfl

theorem react_of_disconnect (h : requestOf? m = some r) (hcommand : r.command = "disconnect") :
    react d p m = ⟨[.response r.seq "disconnect" true none none, terminated], d.detach, true⟩ := by
  rw [react_of_request h, handle_disconnect hcommand, ← hcommand]
  rfl

theorem ends_of_request {o : Options} (h : requestOf? m = some r) :
    ends o m = (r.command == "disconnect" || r.command == "attach" && !admits o r) := by
  rw [ends, h]
  rfl

theorem react_finished (d : Debugger C) (p : Debuggee) (m : Received) :
    (react d p m).finished = ends d.options m := by
  cases h : requestOf? m with
  | none => rw [(react_of_none h).2, ends, h, Option.any_none]
  | some r =>
    rw [ends_of_request h]
    by_cases hattach : r.command = "attach"
    · have hstays : (r.command == "disconnect") = false := by
        rw [hattach]
        decide
      rw [hstays, beq_iff_eq.mpr hattach, Bool.false_or, Bool.true_and]
      cases hadmits : admits d.options r with
      | true => rw [react_of_admitted h hattach hadmits, Bool.not_true]
      | false =>
        obtain ⟨reason, hreact⟩ := react_of_rejected (p := p) h hattach hadmits
        rw [hreact, Bool.not_false]
    · by_cases hdisconnect : r.command = "disconnect"
      · rw [react_of_disconnect h hdisconnect, beq_iff_eq.mpr hdisconnect, Bool.true_or]
      · obtain ⟨_, _, _, _, hreply⟩ := reply_inner (d := d) (p := p) ⟨hattach, hdisconnect⟩
        rw [react_of_request h, hreply, beq_eq_false_iff_ne.mpr hattach,
          beq_eq_false_iff_ne.mpr hdisconnect, Bool.false_and, Bool.or_false]

end

/-! ## What requests leave alone -/

/-- What the client asks for, as opposed to what the debuggee does. -/
def ofClient : Debugger.Event C → Bool
  | .report _ _ | .announce _ _ _ | .exited _ | .output _ _ => false
  | _ => true

/-- An event that a message can lead to. -/
inductive Brings (m : Received) : Debugger.Event C → Prop where
  | asks {p : Debuggee} {r : Request} {e : Debugger.Event C} (hrequest : requestOf? m = some r)
      (hasks : Asks p r e) : Brings m e
  | reclaim (p : Debuggee) : Brings m (.reclaim p)
  | attach {r : Request} (hrequest : requestOf? m = some r) (hcommand : r.command = "attach") :
      Brings m (.attach (.ofJson r.arguments))
  | detach : Brings m .detach

omit [Context C] in
theorem Brings.ofClient {m : Received} {e : Debugger.Event C} (h : Brings m e) :
    Wire.ofClient e = true := by
  cases h with
  | asks _ hasks => cases hasks <;> rfl
  | reclaim | attach | detach => rfl

/-- What every event that a message can lead to keeps, the reaction to it keeps. -/
theorem react_keeps {P : Debugger C → Prop} {m : Received}
    (step : ∀ (d : Debugger C) e, Brings m e → P d → P (d.after e)) {d : Debugger C} (h : P d)
    (p : Debuggee) : P (react d p m).debugger := by
  cases hrequest : requestOf? m with
  | none =>
    rw [(react_of_none hrequest).1]
    exact h
  | some r =>
    rw [react_of_request hrequest, reply_debugger]
    generalize ho : handle d p r = o
    have hhandled := handle_cases d p r
    rw [ho] at hhandled
    cases hhandled with
    | looked => exact h
    | did hasks => exact step d _ (.asks hrequest hasks) h
    | released hasks => exact step _ _ (.reclaim p) (step d _ (.asks hrequest hasks) h)
    | attached hcommand => exact step d _ (.attach hrequest hcommand) h
    | left => exact step d _ .detach h

end DebugAdapter.Wire
