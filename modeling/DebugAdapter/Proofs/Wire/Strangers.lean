import DebugAdapter.Proofs.Wire.Replies

/-!
# Clients without the secret

A client that never presents the secret gets nowhere, whatever else it asks for. Most requests are
not refused to it. But a debugger that has no session keeps its setup (`Shut`), and only an attach
that is granted opens one.
-/

namespace DebugAdapter.Wire

open Debugger (Rested)

variable {C : Type} [Context C]

/-- There is no session, and the setup is what it was. -/
structure Shut (start now : Debugger C) : Prop where
  rested : Rested now
  session : now.session = none
  options : now.options = start.options
  setup : now.coordinator.setup = start.coordinator.setup

namespace Shut
variable {start d : Debugger C}

theorem after (h : Shut start d) {e : Debugger.Event C}
    (he : ∀ a, e = .attach a → d.outcome e ≠ .ok ()) : Shut start (d.after e) := by
  have hsame := h.rested.arrange_eq h.session he
  refine ⟨h.rested.after e, ?_, ?_, ?_⟩
  · rw [Debugger.after_session, hsame]
  · exact (Debugger.after_options d e).trans h.options
  · rw [Debugger.after_setup, hsame]
    exact h.setup

theorem react (h : Shut start d) {m : Received}
    (hm : ∀ r, requestOf? m = some r → r.command = "attach" → admits start.options r = false)
    (p : Debuggee) : Shut start (react d p m).debugger := by
  refine react_keeps ?_ h p
  intro d' e hbrings hd'
  apply hd'.after
  rintro a rfl hgranted
  cases hbrings with
  | asks _ hasks => contradiction
  | attach hrequest hcommand =>
    have hunknown := hm _ hrequest hcommand
    rw [← hd'.options] at hunknown
    obtain ⟨⟨reason, hreason⟩, _⟩ := attach_of_not_admits hunknown
    change (d'.attach _).1 = _ at hgranted
    rw [hgranted] at hreason
    contradiction

omit [Context C] in
theorem handedOver (h : Shut start d) (outbox : List Delivery) (released : List (Suspension C))
    (inspector : Inspector) :
    Shut start { d with coordinator := { d.coordinator with outbox, released }, inspector } :=
  ⟨h.rested.handedOver outbox released inspector, h.session, h.options, h.setup⟩

theorem meet (h : Shut start d) (i : Incident C) : Shut start (d.meet i) := by
  refine meet_keeps ?_ ?_ h i
  · intro d' e hown hd'
    apply hd'.after
    rintro a rfl
    contradiction
  · intro d' released now hd'
    exact hd'.handedOver d'.coordinator.outbox released { d'.inspector with now }

theorem detach (h : Shut start d) : Shut start d.detach :=
  h.after (e := .detach) nofun

/-- As long as no attach is granted, everything stays shut. -/
theorem run {s : Service C} (h : Shut start s.debugger) {ms : List (Move C)}
    (hms : ∀ m ∈ handled s ms, ∀ r, requestOf? m = some r → r.command = "attach" →
      admits start.options r = false) : Shut start (s.run ms).debugger := by
  have hrun := noted_run (f := fun _ _ m => [m]) (g := fun _ _ => [])
    (P := fun d l => (∀ m ∈ l, ∀ r, requestOf? m = some r → r.command = "attach" →
      admits start.options r = false) → Shut start d) ?_ ?_ ?_ ?_ (s := s) (l := []) ?_ ms
  · exact hrun hms
  · intro d p m l hd hl
    refine (hd fun m' hm' => hl m' (List.mem_append_left _ hm')).react ?_ p
    exact hl m (List.mem_append_right _ List.mem_cons_self)
  · intro d i l hd hl
    rw [List.append_nil] at hl
    exact (hd hl).meet i
  · intro d l hd hl
    exact (hd hl).handedOver [] d.coordinator.released d.inspector
  · intro d l hd hl
    exact (hd hl).detach
  · intro _
    exact h

end Shut

/-- No client is there, no report or announcement makes a thread stop, and what former clients have
set is untouched. -/
structure Undisturbed (start now : Debugger C) : Prop where
  session : now.isAttached = false
  attached : now.coordinator.attached = false
  reports : ∀ ctx r, (now.coordinator.hear ctx r).1 = false
  lines : ∀ ctx file line, (now.coordinator.checkLine ctx file line).1 = false
  entries : ∀ ctx function component file line,
    (now.coordinator.checkEntry ctx function component file line).1 = false
  exceptions : ∀ t e caught, (now.coordinator.announce t e caught).1 = false
  breakpoints : now.coordinator.breakpoints = start.coordinator.breakpoints
  functions : now.coordinator.functions = start.coordinator.functions
  breakOnUncaught : now.coordinator.breakOnUncaught = start.coordinator.breakOnUncaught

theorem Shut.undisturbed {start now : Debugger C} (h : Shut start now) : Undisturbed start now := by
  have hattached := h.rested.attached h.session
  have hcurrent := h.rested.settled.current
  have hrest := h.rested.settled.rest
  have hinactive : now.coordinator.active = false := by
    rw [show now.coordinator.active = now.coordinator.canStop from hcurrent, Coordinator.canStop,
      hattached, Bool.false_and]
  constructor
  · rw [Debugger.isAttached, h.session, Option.isSome_none]
  · exact hattached
  · intro ctx r
    rw [h.rested.hear_eq h.session]
  · intro ctx file line
    rw [Coordinator.checkLine_of_inactive hcurrent hrest hinactive]
  · intro ctx function component file line
    rw [Coordinator.checkEntry_of_inactive hcurrent hrest hinactive]
  · intro t e caught
    simp [Coordinator.announce, Coordinator.stopsOnUncaught, hattached]
  · exact congrArg Setup.breakpoints h.setup
  · exact congrArg Setup.functions h.setup
  · exact congrArg Setup.breakOnUncaught h.setup

/-- In every session that begins with a debugger without a client: as long as no attach presents the
secret, or if there is none, the debugger is undisturbed at every moment, whatever else is asked and
happens. The first attach, unless the client leaves before, is answered by a refusal and the event
that the session is over, and nothing behind it is reacted to. -/
theorem stranger_changes_nothing (o : Options) (hs : List (Debugger.Happening C))
    (ms : List (Move C)) (hdetached : ((Debugger.new o).through hs).isAttached = false)
    (hstranger : o.secret = none ∨ ∀ m ∈ received ms, ∀ r, requestOf? m = some r →
      r.command = "attach" → (AttachArguments.ofJson r.arguments).secret ≠ o.secret) :
    let d := (Debugger.new o).through hs
    let s := Service.start d
    (∀ earlier, earlier <+: ms → Undisturbed d (s.run earlier).debugger) ∧
    ∀ before m behind r, received ms = before ++ m :: behind → requestOf? m = some r →
      r.command = "attach" → before.any (ends o) = false →
      handled s ms = before ++ [m] ∧ (s.run ms).session.ending = some (.ok ()) ∧
      (s.written ms).filterMap sign? =
        before.flatMap (course o) ++ [.response r.seq "attach" false, .terminated] := by
  intro d s
  have hoptions : d.options = o := Debugger.through_options _ hs
  have hunknown : ∀ m ∈ received ms, ∀ r, requestOf? m = some r → r.command = "attach" →
      admits o r = false := by
    intro m hm r hrequest hcommand
    rcases hstranger with hnone | hother
    · rw [admits, hnone]
      rfl
    · rw [admits, beq_eq_false_iff_ne.mpr (hother m hm r hrequest hcommand), Bool.and_false]
  refine ⟨?_, ?_⟩
  · rintro earlier ⟨later, rfl⟩
    have hnone : d.session = none :=
      Option.not_isSome_iff_eq_none.mp (Bool.eq_false_iff.mp hdetached)
    have hshut : Shut d d := ⟨Debugger.rested_through o hs, hnone, rfl, rfl⟩
    refine (hshut.run (s := s) ?_).undisturbed
    intro m hm
    have hmem : m ∈ handled s (earlier ++ later) := by
      rw [handled, noted_append]
      exact List.mem_append_left _ hm
    rw [hoptions]
    rw [handled_start] at hmem
    exact hunknown m (upTo_subset _ _ hmem)
  · intro before m behind r hreceived hrequest hcommand hbefore
    have hmem : m ∈ received ms := by
      rw [hreceived]
      exact List.mem_append_right _ List.mem_cons_self
    have hrefused := hunknown m hmem r hrequest hcommand
    have hends : ends o m = true := by
      rw [ends_of_request hrequest, hcommand, hrefused]
      rfl
    rw [← hoptions] at hbefore hends
    obtain ⟨hhandled, hending⟩ := handled_until hreceived hbefore hends
    refine ⟨hhandled, hending, ?_⟩
    have hcourse : course o m = [.response r.seq "attach" false, .terminated] := by
      simp only [course, hrequest, hrefused, hcommand]
      rfl
    rw [signs_written, hhandled, List.flatMap_append, List.flatMap_singleton,
      show s.debugger.options = o from hoptions, hcourse]

/-- A client sets a breakpoint, presents another secret, and goes on regardless, while a thread
reaches the line. -/
def intrusion : List (Move DescribedThread) :=
  let p : Debugger DescribedThread → Debuggee := fun _ => ⟨[⟨10, "ten"⟩], fun _ => [3], ["/a"], []⟩
  let ten : DescribedThread := ⟨10, "ten", [], []⟩
  [.receive (frame "[1,\"request\",\"setBreakpoints\",\x7b\"lines\":[3]\x7d]").toUTF8.toList false p,
    .incident (.report ten (.line "/a" 3)),
    .receive (frame "[2,\"request\",\"attach\",\x7b\"secret\":\"x\"\x7d]").toUTF8.toList false p,
    .incident (.report ten (.halt "/a" 3 none)),
    .receive (frame "[3,\"request\",\"pause\"]").toUTF8.toList true p]

theorem stranger_changes_nothing_intrusion :
    let o : Options := ⟨true, some "secret", 8, none⟩
    let s := Service.start (Debugger.new o : Debugger DescribedThread)
    (received intrusion).length = 3 ∧ (handled s intrusion).length = 2 ∧
      Undisturbed (Debugger.new o) (s.run intrusion).debugger := by
  intro o s
  have hall : (((received intrusion).all fun m => (requestOf? m).all fun r =>
      r.command != "attach" || (AttachArguments.ofJson r.arguments).secret != o.secret) &&
      (handled s intrusion).length == 2) = true := by
    decide +kernel
  rw [Bool.and_eq_true] at hall
  obtain ⟨hall, htwo⟩ := hall
  have hstranger : ∀ m ∈ received intrusion, ∀ r, requestOf? m = some r → r.command = "attach" →
      (AttachArguments.ofJson r.arguments).secret ≠ o.secret := by
    intro m hm r hrequest hcommand
    have hr := List.all_eq_true.mp hall m hm
    rw [hrequest, Option.all_some, hcommand] at hr
    exact bne_iff_ne.mp hr
  refine ⟨by decide +kernel, eq_of_beq htwo, ?_⟩
  exact (stranger_changes_nothing o [] intrusion rfl (Or.inr hstranger)).1 intrusion
    (List.prefix_refl _)

end DebugAdapter.Wire
