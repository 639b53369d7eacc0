import DebugAdapter.Proofs.Debugger.Setup
import DebugAdapter.Proofs.Path.Transform
import DebugAdapter.Suspension.Described

/-!
# One file in many spellings

A file is known to a debugger by one canonical path of the debuggee's side. Clients and threads may
write it as they like: `spellings_agree` says that they reach the same breakpoints and the same
executable lines. It rests on the session and the registry folding letters alike, which no event
changes (`folds_run`).
-/

namespace DebugAdapter.Debugger

variable {C : Type} [Context C]

/-- A session folds letters as the registry of breakpoints does. -/
structure FoldsAlike (o : Options) (d : Debugger C) : Prop where
  options : d.options = o
  registry : d.coordinator.breakpoints.fold = o.fold
  session : ∀ m ∈ d.session, m.fold = o.fold

theorem FoldsAlike.after {o : Options} {d : Debugger C} (h : FoldsAlike o d) (e : Event C) :
    FoldsAlike o (d.after e) := by
  have hregistry : (d.after e).coordinator.breakpoints = (d.arrange e).2.breakpoints :=
    congrArg Setup.breakpoints (after_setup d e)
  refine ⟨(after_options d e).trans h.options, ?_, ?_⟩
  · rw [hregistry]
    cases e with
    | attach a =>
      rw [arrange]
      split <;> exact h.registry
    | setBreakpoints p path requested =>
      rw [arrange]
      cases d.session <;> exact h.registry
    | _ => exact h.registry
  · rw [after_session]
    cases e with
    | attach a =>
      rw [arrange]
      split
      · rintro m ⟨⟩
        rw [h.options]
      · exact h.session
    | detach => exact fun m hm => absurd hm (Option.not_mem_none m)
    | _ => exact h.session

theorem folds_run (o : Options) (es : List (Event C)) :
    FoldsAlike o ((new o : Debugger C).run es) := by
  have hnew : FoldsAlike o (new o : Debugger C) := ⟨rfl, rfl, nofun⟩
  unfold run
  generalize (new o : Debugger C) = d at hnew
  induction es generalizing d with
  | nil => exact hnew
  | cons e es ih => exact ih _ (hnew.after e)

/-- What has just been set for a file is all that is found there. -/
theorem check_replace (r : LineBreakpoints) (file : String) (requested : List Breakpoint.Request)
    (valid : List Nat) {spelling : String}
    (hsame : Path.canonical r.fold spelling = Path.canonical r.fold file) (line : Nat) :
    (r.replace file requested valid).2.check spelling line =
      ((r.replace file requested valid).1.find?
        (·.covers (Path.canonical r.fold file) line)).map Breakpoint.hit := by
  have hothers : (r.all.filter (·.file != Path.canonical r.fold file)).find?
      (·.covers (Path.canonical r.fold file) line) = none := by
    rw [List.find?_eq_none]
    intro b hb hcovers
    obtain ⟨-, hother⟩ := List.mem_filter.mp hb
    obtain ⟨-, -, hfile⟩ := covers_iff.mp hcovers
    simp [hfile] at hother
  rw [LineBreakpoints.check_eq_find rfl]
  change ((r.all.filter (·.file != Path.canonical r.fold file) ++
    (r.replace file requested valid).1).find?
      (·.covers (Path.canonical r.fold spelling) line)).map Breakpoint.hit = _
  rw [hsame, List.find?_append, hothers, Option.none_or]

theorem replace_rows (r : LineBreakpoints) (file : String) (requested : List Breakpoint.Request)
    (valid : List Nat) :
    (r.replace file requested valid).1.map (fun b => (b.file, b.line, b.verified)) =
      requested.map fun q => (Path.canonical r.fold file, q.line, decide (q.line ∈ valid)) := by
  have hrows := congrArg (List.map fun x : String × Nat × Option String × Bool =>
    (x.1, x.2.1, x.2.2.2))
    (LineBreakpoints.created_rows (Path.canonical r.fold file) valid r.nextId requested)
  rwa [List.map_map, List.map_map] at hrows

/-- Two spellings of a client's path, each of whose characters is folded to a single one, name the
same canonical path of the debuggee. In a session they lead to the same executable lines and to the
same breakpoints, which are those that a thread finds, however it spells that path. -/
theorem spellings_agree (sensitive : Bool) (transforms : List Path.Transform) {p q : String}
    (hp : ∀ c ∈ p.toList, (Path.Folding.ofCaseSensitive sensitive c).length = 1)
    (hq : ∀ c ∈ q.toList, (Path.Folding.ofCaseSensitive sensitive c).length = 1)
    (hpq : Path.canonical (.ofCaseSensitive sensitive) p =
      Path.canonical (.ofCaseSensitive sensitive) q) :
    let m : Path.Mapper := ⟨transforms, .ofCaseSensitive sensitive⟩
    let file := m.toDebuggee p
    m.toDebuggee q = file ∧ Path.canonical m.fold file = file ∧
    ∀ (o : Options) (es : List (Event C)) (debuggee : Debuggee),
      let d := (new o : Debugger C).run es
      d.session = some m →
      (∀ line endLine, d.breakpointLocations debuggee q line endLine =
        d.breakpointLocations debuggee p line endLine) ∧
      ∀ requested, d.setBreakpoints debuggee q requested = d.setBreakpoints debuggee p requested ∧
        ∃ made d', d.setBreakpoints debuggee p requested = (.ok made, d') ∧
          made.map (fun b => (b.file, b.line, b.verified)) = requested.map (fun r =>
            (file, r.line, decide (r.line ∈ debuggee.executableLines file))) ∧
          ∀ spelling line, Path.canonical m.fold spelling = file →
            d'.coordinator.breakpoints.check spelling line =
              (made.find? (·.covers file line)).map Breakpoint.hit := by
  intro m file
  have hfold := Path.Folding.final_ofCaseSensitive sensitive
  have hfile : m.toDebuggee q = file :=
    (Path.toDebuggee_congr hfold hp hq hpq transforms).symm
  have hfixed : Path.canonical m.fold file = file := Path.canonical_canonical hfold _
  refine ⟨hfile, hfixed, ?_⟩
  intro o es debuggee d hsession
  have halike : d.coordinator.breakpoints.fold = m.fold :=
    (folds_run o es).registry.trans ((folds_run o es).session m hsession).symm
  refine ⟨?_, ?_⟩
  · intro line endLine
    simp only [breakpointLocations, displayMapper, hsession, Option.getD_some, hfile, file]
  · intro requested
    refine ⟨?_, ?_⟩
    · simp only [setBreakpoints, hsession, hfile, file]
    · simp only [setBreakpoints, hsession]
      refine ⟨_, _, rfl, ?_, ?_⟩
      · rw [replace_rows, halike, hfixed]
      · intro spelling line hspelling
        have hsame : Path.canonical d.coordinator.breakpoints.fold spelling =
            Path.canonical d.coordinator.breakpoints.fold file := by
          rw [halike, hspelling, hfixed]
        have hcheck := check_replace d.coordinator.breakpoints file requested
          (debuggee.executableLines file) hsame line
        rw [halike, hfixed] at hcheck
        exact hcheck

/-- Backslashes, doubled separators and capitals, in a session that has a transform. -/
theorem spellings_agree_mixed :
    let fold := Path.Folding.ofCaseSensitive false
    let p := "C:\\Work\\\\App\\Lib/X.src"
    let q := "c:/work/app//lib\\x.SRC"
    let transforms : List Path.Transform := [⟨"c:/home", "/srv"⟩, ⟨"C:/Work/App/", "/srv/app/"⟩]
    let es : List (Event DescribedThread) := [.attach ⟨some "secret", transforms, false⟩]
    let d := (new ⟨false, some "secret", 50, none⟩ : Debugger DescribedThread).run es
    (∀ c ∈ p.toList, (fold c).length = 1) ∧ (∀ c ∈ q.toList, (fold c).length = 1) ∧
      Path.canonical fold p = Path.canonical fold q ∧ d.session = some ⟨transforms, fold⟩ ∧
      Path.Mapper.toDebuggee ⟨transforms, fold⟩ q = Path.Mapper.toDebuggee ⟨transforms, fold⟩ p ∧
      ∀ debuggee requested,
        d.setBreakpoints debuggee q requested = d.setBreakpoints debuggee p requested := by
  intro fold p q transforms es d
  have hall : (p ++ q).toList.all (fun c => (fold c).length == 1) = true := by decide
  simp only [String.toList_append, List.all_append, Bool.and_eq_true, List.all_eq_true,
    beq_iff_eq] at hall
  obtain ⟨hp, hq⟩ := hall
  have hpq : Path.canonical fold p = Path.canonical fold q := by decide
  have hsession : d.session = some ⟨transforms, fold⟩ := rfl
  obtain ⟨hsame, -, hdebugger⟩ :=
    spellings_agree (C := DescribedThread) false transforms hp hq hpq
  exact ⟨hp, hq, hpq, hsession, hsame, fun debuggee requested =>
    ((hdebugger _ es debuggee hsession).2 requested).1⟩

end DebugAdapter.Debugger
