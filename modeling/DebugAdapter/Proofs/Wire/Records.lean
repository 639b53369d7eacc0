import DebugAdapter.Proofs.Suspension.Accounting
import DebugAdapter.Proofs.Wire.Interleaving

/-!
# What a session leaves on record

Two records are kept of the course of a session from outside: the settings that its client made, as
far as they were accepted, and the threads that began to wait or went on. The first decides the
breakpoints (`settings_run`); by the second each wait has been ended once, is being ended or still
lasts (`passages_run`).
-/

namespace DebugAdapter.Wire

variable {C : Type} [Context C]

/-! ## Settings -/

inductive Setting where
  | lines (file : String) (requested : List Breakpoint.Request) (valid : List Nat)
  | functions (requested : List FunctionBreakpoint.Request)

def Setting.apply (s : LineBreakpoints × FunctionBreakpoints) :
    Setting → LineBreakpoints × FunctionBreakpoints
  | .lines file requested valid => (s.1.after (.replace file requested valid), s.2)
  | .functions requested => (s.1, (s.2.replace requested).2)

/-- What a message sets: nothing without a session, or if it cannot be read. -/
def settings (d : Debugger C) (p : Debuggee) (m : Received) : List Setting :=
  match d.session, requestOf? m with
  | some mapper, some r =>
    if r.command = "setBreakpoints" then
      match arguments r SetBreakpoints.decode with
      | .ok a =>
        let file := mapper.toDebuggee a.path
        [.lines file a.requested (p.executableLines file)]
      | .error _ => []
    else if r.command = "setFunctionBreakpoints" then
      match arguments r functionBreakpoints with
      | .ok requested => [.functions requested]
      | .error _ => []
    else []
  | _, _ => []

def breakpointsOf (d : Debugger C) : LineBreakpoints × FunctionBreakpoints :=
  (d.coordinator.breakpoints, d.coordinator.functions)

theorem breakpointsOf_after (d : Debugger C) (e : Debugger.Event C) :
    breakpointsOf (d.after e) = ((d.arrange e).2.breakpoints, (d.arrange e).2.functions) := by
  rw [← Debugger.after_setup]
  rfl

def leavesBreakpoints : Debugger.Event C → Bool
  | .setBreakpoints _ _ _ | .setFunctionBreakpoints _ => false
  | _ => true

theorem breakpointsOf_of_leaves (d : Debugger C) {e : Debugger.Event C}
    (he : leavesBreakpoints e = true) : breakpointsOf (d.after e) = breakpointsOf d := by
  rw [breakpointsOf_after]
  cases e with
  | setBreakpoints | setFunctionBreakpoints => contradiction
  | attach a =>
    rw [Debugger.arrange]
    split <;> rfl
  | _ => rfl

section
variable (d : Debugger C) (p : Debuggee) {m : Received} {r : Request}

theorem handle_setBreakpoints (h : r.command = "setBreakpoints") :
    (handle d p r).2 =
      match arguments r SetBreakpoints.decode with
      | .ok a => d.after (.setBreakpoints p a.path a.requested)
      | .error _ => d := by
  simp only [handle, h, withArguments]
  cases arguments r SetBreakpoints.decode <;> rfl

theorem handle_setFunctionBreakpoints (h : r.command = "setFunctionBreakpoints") :
    (handle d p r).2 =
      match arguments r functionBreakpoints with
      | .ok requested => d.after (.setFunctionBreakpoints requested)
      | .error _ => d := by
  simp only [handle, h, withArguments]
  cases arguments r functionBreakpoints <;> rfl

theorem settings_of_lines (hrequest : requestOf? m = some r) (h : r.command = "setBreakpoints") :
    breakpointsOf (handle d p r).2 = (settings d p m).foldl Setting.apply (breakpointsOf d) := by
  rw [handle_setBreakpoints d p h, settings, hrequest]
  cases harguments : arguments r SetBreakpoints.decode with
  | error e => cases d.session <;> simp only [h, if_true, harguments, List.foldl_nil]
  | ok a =>
    simp only [breakpointsOf_after, Debugger.arrange]
    cases d.session with
    | none => rfl
    | some mapper =>
      simp only [h, if_true, harguments]
      rfl

theorem settings_of_functions (hrequest : requestOf? m = some r)
    (h : r.command = "setFunctionBreakpoints") :
    breakpointsOf (handle d p r).2 = (settings d p m).foldl Setting.apply (breakpointsOf d) := by
  have hlines : ¬r.command = "setBreakpoints" := by
    rw [h]
    decide
  rw [handle_setFunctionBreakpoints d p h, settings, hrequest]
  cases harguments : arguments r functionBreakpoints with
  | error e =>
    cases d.session <;> simp only [if_neg hlines, if_pos h, harguments, List.foldl_nil]
  | ok requested =>
    simp only [breakpointsOf_after, Debugger.arrange]
    cases d.session with
    | none => rfl
    | some mapper =>
      simp only [if_neg hlines, if_pos h, harguments]
      rfl

omit [Context C] in
theorem Brings.leavesBreakpoints (hrequest : requestOf? m = some r)
    (hlines : ¬r.command = "setBreakpoints") (hfunctions : ¬r.command = "setFunctionBreakpoints")
    {e : Debugger.Event C} (h : Brings m e) : Wire.leavesBreakpoints e = true := by
  cases h with
  | asks hsame hasks =>
    rw [hrequest] at hsame
    cases hsame
    cases hasks with
    | setBreakpoints hcommand => exact absurd hcommand hlines
    | setFunctionBreakpoints hcommand => exact absurd hcommand hfunctions
    | _ => rfl
  | _ => rfl

end

theorem react_settings (d : Debugger C) (p : Debuggee) (m : Received) :
    breakpointsOf (react d p m).debugger = (settings d p m).foldl Setting.apply (breakpointsOf d) := by
  cases hrequest : requestOf? m with
  | none =>
    rw [(react_of_none hrequest).1, settings, hrequest]
    cases d.session <;> rfl
  | some r =>
    by_cases hlines : r.command = "setBreakpoints"
    · rw [react_of_request hrequest, reply_debugger]
      exact settings_of_lines d p hrequest hlines
    · by_cases hfunctions : r.command = "setFunctionBreakpoints"
      · rw [react_of_request hrequest, reply_debugger]
        exact settings_of_functions d p hrequest hfunctions
      · -- No other request is taken apart: what it can ask for leaves the breakpoints alone.
        have hnothing : settings d p m = [] := by
          rw [settings, hrequest]
          cases d.session with
          | none => rfl
          | some mapper => simp only [if_neg hlines, if_neg hfunctions]
        rw [hnothing]
        refine react_keeps (P := fun d' => breakpointsOf d' = breakpointsOf d) ?_ rfl p
        intro d' e hbrings hd'
        have hleaves := hbrings.leavesBreakpoints hrequest hlines hfunctions
        exact (breakpointsOf_of_leaves d' hleaves).trans hd'

/-- No touch has to do with breakpoints. -/
theorem breakpointsOf_touch (d : Debugger C) (x : Touch C) :
    breakpointsOf (d.touch x) = breakpointsOf d := by
  cases x with
  | park h =>
    have hkept : ∀ c : Coordinator C, c.breakpoints = d.coordinator.breakpoints →
        c.functions = d.coordinator.functions →
        breakpointsOf { d with coordinator := c } = breakpointsOf d := by
      intro c hlines hfunctions
      rw [breakpointsOf, breakpointsOf, hlines, hfunctions]
    apply hkept
    all_goals
      simp only [Coordinator.touch, Coordinator.park?]
      repeat' split
      all_goals rfl
  | send n =>
    simp only [Debugger.touch, Coordinator.touch, Coordinator.notify]
    split <;> rfl
  | _ => rfl

omit [Context C] in
theorem breakpointsOf_store (d : Debugger C) (x : Store C) :
    breakpointsOf (d.store x).1 = breakpointsOf d := by
  cases x <;> rfl

/-- The breakpoints are what the client has set, on top of those before the session. -/
theorem settings_run (s : Course C) (ms : List (Section C)) :
    breakpointsOf (s.run ms).debugger =
      (s.noted settings (fun _ _ => []) ms).foldl Setting.apply (breakpointsOf s.debugger) := by
  refine Course.noted_run (l := [])
    (P := fun d _ l => breakpointsOf d = l.foldl Setting.apply (breakpointsOf s.debugger))
    ?_ ?_ ?_ ?_ ?_ ?_ rfl ms
  · intro d p m l hd
    rw [react_settings, hd, List.foldl_append]
  · intro d l hd
    exact hd
  · intro d x todo l hd
    exact (breakpointsOf_store d x).trans hd
  · intro d x todo l hd
    rw [List.append_nil]
    exact (breakpointsOf_touch d x).trans hd
  · intro d t e todo l hd
    exact hd
  · intro d todo l hd
    exact hd

/-! ## Passages -/

/-- A thread begins to wait, or it goes on. -/
inductive Passage (C : Type) where
  | parked (site : C × String × Nat)
  | wentOn (site : C × String × Nat)

def Passage.parked? : Passage C → Option (C × String × Nat)
  | .parked site => some site
  | .wentOn _ => none

def Passage.wentOn? : Passage C → Option (C × String × Nat)
  | .parked _ => none
  | .wentOn site => some site

def passages (d : Debugger C) : Touch C → List (Passage C)
  | .park h => if d.coordinator.parks h then [.parked (h.context, h.file, h.line)] else []
  | .goOn => (d.coordinator.released.map Suspension.site).map .wentOn
  | _ => []

omit [Context C] in
theorem filterMap_wentOn (sites : List (C × String × Nat)) :
    (sites.map Passage.wentOn).filterMap Passage.parked? = [] ∧
      (sites.map Passage.wentOn).filterMap Passage.wentOn? = sites := by
  induction sites with
  | nil => exact ⟨rfl, rfl⟩
  | cons site sites ih => exact ⟨ih.1, congrArg (site :: ·) ih.2⟩

theorem sites_of_ofClient (d : Debugger C) {e : Debugger.Event C} (he : ofClient e = true) :
    (d.after e).coordinator.sites.Perm d.coordinator.sites := by
  have hunmoved : ∀ {d' : Debugger C}, Debugger.Unmoved d d' →
      d'.coordinator.sites.Perm d.coordinator.sites := by
    intro d' hd'
    rw [hd'.1]
  cases e with
  | report | announce | exited | output => contradiction
  | stackTrace t start levels => exact hunmoved (Debugger.stackTrace_unmoved d t start levels)
  | scopes frame => exact hunmoved (Debugger.scopes_unmoved d frame)
  | evaluate frame expression => exact hunmoved (Debugger.evaluate_unmoved d frame expression)
  | children | reclaim => exact .refl _
  | attach a =>
    simp only [Debugger.after, Debugger.attach]
    split
    · exact .refl _
    · split <;> exact .refl _
  | detach => exact .of_eq (Coordinator.sites_resumeAll _)
  | setBreakpoints | setFunctionBreakpoints | setExceptionBreakpoints =>
    simp only [Debugger.after, Debugger.setBreakpoints, Debugger.setFunctionBreakpoints,
      Debugger.setExceptionBreakpoints]
    split <;> exact .refl _
  | resume t =>
    simp only [Debugger.after, Debugger.resume]
    split
    · exact .of_eq (Coordinator.sites_resumeAll _)
    · exact Coordinator.sites_resume _ t
  | step t mode =>
    simp only [Debugger.after, Debugger.step, Coordinator.step]
    split
    · exact Coordinator.sites_resume _ t
    · exact .refl _
  | pause p t =>
    simp only [Debugger.after, Debugger.pause]
    split
    · exact .refl _
    · split <;> exact .refl _

theorem sites_park {d : Debugger C} {h : Halt C} (hparks : d.coordinator.parks h = true) :
    (d.touch (.park h)).coordinator.sites.Perm
      (d.coordinator.sites ++ [(h.context, h.file, h.line)]) := by
  obtain ⟨hfree, hattached⟩ := Bool.and_eq_true_iff.mp hparks
  have habsent : d.coordinator.suspended.get? (Context.thread h.context) = none := by
    rw [Bool.not_eq_true', Coordinator.isSuspended, Table.contains] at hfree
    exact Option.not_isSome_iff_eq_none.mp (Bool.eq_false_iff.mp hfree)
  have hpark : d.coordinator.park? h.context h.file h.line h.stop = some _ := if_pos hattached
  simp only [Debugger.touch, Coordinator.touch, if_pos hparks, hpark, Option.getD_some,
    Coordinator.sites, Table.values_insert habsent, List.map_append, List.map_cons]
  rw [List.append_assoc]
  exact (List.perm_append_singleton _ _).symm.append_left _

theorem sites_touch (d : Debugger C) (x : Touch C) :
    ((passages d x).filterMap Passage.wentOn? ++ (d.touch x).coordinator.sites).Perm
      (d.coordinator.sites ++ (passages d x).filterMap Passage.parked?) := by
  have hquiet : ∀ {c : Coordinator C}, c.sites = d.coordinator.sites →
      (([] : List (Passage C)).filterMap Passage.wentOn? ++ c.sites).Perm
        (d.coordinator.sites ++ ([] : List (Passage C)).filterMap Passage.parked?) := by
    intro c hc
    rw [hc, List.filterMap_nil, List.filterMap_nil, List.nil_append, List.append_nil]
  cases x with
  | dropStep | dropPause | dropPending | refresh | reclaim | passTo => exact hquiet rfl
  | send n => exact hquiet (Coordinator.sites_notify _ _)
  | goOn =>
    have hsplit : d.coordinator.sites =
        d.coordinator.released.map Suspension.site ++
          d.coordinator.suspended.values.map Suspension.site := List.map_append
    obtain ⟨hparked, hwentOn⟩ := filterMap_wentOn (d.coordinator.released.map Suspension.site)
    rw [passages, hparked, hwentOn, hsplit, List.append_nil]
    exact .refl _
  | park h =>
    by_cases hparks : d.coordinator.parks h = true
    · rw [passages, if_pos hparks]
      exact sites_park hparks
    · rw [passages, if_neg hparks]
      apply hquiet
      simp only [Debugger.touch, Coordinator.touch, if_neg hparks]

/-- The entries that have been drained and not yet released. -/
def drained (todo : List (Store C)) : List (C × String × Nat) :=
  (todo.filterMap Store.entry?).map Suspension.site

omit [Context C] in
theorem drained_releases (waiting : List (Suspension C)) (todo : List (Store C)) :
    drained (waiting.map .release ++ todo) = waiting.map Suspension.site ++ drained todo := by
  have hentries : (waiting.map Store.release).filterMap Store.entry? = waiting := by
    rw [List.filterMap_map]
    exact List.filterMap_some
  rw [drained, List.filterMap_append, hentries, List.map_append]
  rfl

omit [Context C] in
/-- A store moves entries on their way out, and none gets lost. -/
theorem sites_store (d : Debugger C) (x : Store C) (todo : List (Store C)) :
    ((d.store x).1.coordinator.sites ++ drained ((d.store x).2 ++ todo)).Perm
      (d.coordinator.sites ++ drained (x :: todo)) := by
  cases x with
  | drain =>
    refine .of_eq ?_
    simp only [Debugger.store, Coordinator.drain, Coordinator.sites, drained_releases,
      Table.values_empty, List.append_nil, List.map_append, List.append_assoc]
    rfl
  | release x =>
    have hsites : (d.coordinator.release x).sites.Perm (d.coordinator.sites ++ [x.site]) := by
      simp only [Coordinator.release, Coordinator.sites, List.map_append, List.map_cons,
        List.map_nil, List.append_assoc]
      exact List.perm_append_comm.append_left _
    rw [show drained (.release x :: todo) = [x.site] ++ drained todo from rfl, ← List.append_assoc]
    exact hsites.append_right _
  | _ => exact .refl _

/-- The record agrees with who waits, who is being released and who has been released and not gone
on. -/
def Balanced (before : List (C × String × Nat)) (d : Debugger C) (todo : List (Store C))
    (record : List (Passage C)) : Prop :=
  (record.filterMap Passage.wentOn? ++ (d.coordinator.sites ++ drained todo)).Perm
    (before ++ record.filterMap Passage.parked?)

section
variable {before : List (C × String × Nat)} {d : Debugger C} {todo : List (Store C)}
  {record : List (Passage C)}

omit [Context C] in
theorem Balanced.of_perm (h : Balanced before d todo record) {d' : Debugger C}
    {todo' : List (Store C)} (hsites : (d'.coordinator.sites ++ drained todo').Perm
      (d.coordinator.sites ++ drained todo)) : Balanced before d' todo' record :=
  (hsites.append_left _).trans h

theorem Balanced.touch (h : Balanced before d todo record) (x : Touch C) :
    Balanced before (d.touch x) todo (record ++ passages d x) := by
  rw [Balanced] at h ⊢
  rw [List.filterMap_append, List.filterMap_append]
  have htouch := sites_touch d x
  generalize record.filterMap Passage.wentOn? = wentOn at h ⊢
  generalize record.filterMap Passage.parked? = parked at h ⊢
  generalize (passages d x).filterMap Passage.wentOn? = now at htouch ⊢
  generalize (passages d x).filterMap Passage.parked? = new at htouch ⊢
  have hpassed : List.Perm (wentOn ++ (now ++ (d.touch x).coordinator.sites ++ drained todo))
      (wentOn ++ (d.coordinator.sites ++ new ++ drained todo)) :=
    (htouch.append_right (drained todo)).append_left wentOn
  have haside : List.Perm (wentOn ++ (d.coordinator.sites ++ new ++ drained todo))
      (wentOn ++ (d.coordinator.sites ++ drained todo) ++ new) := by
    simp only [List.append_assoc]
    exact (List.perm_append_comm.append_left _).append_left wentOn
  have hbalance := (hpassed.trans haside).trans (h.append_right new)
  simp only [List.append_assoc] at hbalance ⊢
  exact hbalance

end

theorem passages_run (s : Course C) (hopen : s.closing = none) (ms : List (Section C)) :
    Balanced s.debugger.coordinator.sites (s.run ms).debugger (s.run ms).left
      (s.noted (fun _ _ _ => []) passages ms) := by
  let sites := s.debugger.coordinator.sites
  have hbefore : Balanced sites s.debugger (s.closing.getD []) [] := by
    rw [Balanced, hopen]
    simp [sites, drained]
  refine Course.noted_run (P := fun d o record => Balanced sites d (o.getD []) record) (l := [])
    ?_ ?_ ?_ ?_ ?_ ?_ hbefore ms
  · intro d p m record hd
    rw [List.append_nil]
    refine react_keeps (P := fun d' => Balanced sites d' [] record) ?_ hd p
    intro d' e hbrings hd'
    exact hd'.of_perm ((sites_of_ofClient d' hbrings.ofClient).append_right _)
  · intro d record hd
    exact hd
  · intro d x todo record hd
    exact hd.of_perm (sites_store d x todo)
  · intro d x o record hd
    exact hd.touch x
  · intro d t e o record hd
    exact hd
  · intro d o record hd
    exact hd

end DebugAdapter.Wire
