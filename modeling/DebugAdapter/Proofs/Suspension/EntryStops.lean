import DebugAdapter.Proofs.Breakpoint.Functions
import DebugAdapter.Proofs.Suspension.Stops

/-!
# Stops on function entries

Names with stars overlap, so several function breakpoints may cover one function. As on lines only
the first is asked; and it is asked only if the size of the function's name is within the bounds
that the names in lowercase set.
-/

namespace DebugAdapter.Coordinator

variable {C : Type} [Context C]

/-- While a client is there, whatever function breakpoints were asked for: a thread stops on a
function entry exactly if the size of the function's name is within bounds and the first breakpoint
that covers the function applies. So "some breakpoint that covers the function applies" is the same
as stopping exactly where that is so or no such breakpoint applies; and the bounds leave nothing out
where lowercase keeps the size of the name. -/
theorem stops_for_first_covering (fold : Path.Folding) (ops : List (Operation C))
    (r : FunctionBreakpoints) (requested : List FunctionBreakpoint.Request) (ctx : C)
    (function : String) (component : Option String) (file : String) (line : Nat)
    (hattached : ((new fold : Coordinator C).run ops).attached = true)
    (hfunctions : ((new fold : Coordinator C).run ops).functions = (r.replace requested).2) :
    let stops :=
      (((new fold : Coordinator C).run ops).atEntry ctx function component file line).1 = true
    let covering := requested.filter (·.Covers function component)
    (stops ↔ WithinBounds requested function ∧
      ∃ q, covering.head? = some q ∧ Applies ctx q.condition?) ∧
    ((stops ↔ ∃ q ∈ covering, Applies ctx q.condition?) ↔
      (WithinBounds requested function ∧ ∃ q, covering.head? = some q ∧ Applies ctx q.condition?) ∨
        ∀ q ∈ covering, ¬Applies ctx q.condition?) ∧
    ((Text.lower function).utf8ByteSize = function.utf8ByteSize →
      ∀ q ∈ covering, WithinBounds requested function) := by
  intro stops covering
  have hfirst : stops ↔ WithinBounds requested function ∧
      ∃ q, covering.head? = some q ∧ Applies ctx q.condition? := by
    have hfires : stops ↔ ∃ id, Fires ctx
        (((new fold : Coordinator C).run ops).functions.check function component) id :=
      hear_entry_iff (run_current fold ops) hattached
    rw [hfires, exists_fires_iff, hfunctions]
    have hcheck := FunctionBreakpoints.check_condition r requested function component
    constructor
    · rintro ⟨hit, hhit, happlies⟩
      obtain ⟨hwithin, q, hq, hcondition⟩ := (hcheck hit.condition).mp ⟨hit, hhit, rfl⟩
      exact ⟨hwithin, q, hq, hcondition ▸ happlies⟩
    · rintro ⟨hwithin, q, hq, happlies⟩
      obtain ⟨hit, hhit, hcondition⟩ := (hcheck q.condition?).mpr ⟨hwithin, q, hq, rfl⟩
      exact ⟨hit, hhit, hcondition ▸ happlies⟩
  have hsome : stops → ∃ q ∈ covering, Applies ctx q.condition? := by
    intro hstops
    obtain ⟨_, q, hq, happlies⟩ := hfirst.mp hstops
    exact ⟨q, List.mem_of_mem_head? hq, happlies⟩
  refine ⟨hfirst, ?_, ?_⟩
  · rw [iff_exists_mem_iff hsome, hfirst]
  · intro hsize q hq
    obtain ⟨hrequested, hcovers⟩ := List.mem_filter.mp hq
    exact .of_covers hrequested (of_decide_eq_true hcovers) hsize

/-- A client is there and has asked for function breakpoints. -/
def askingFor (requested : List FunctionBreakpoint.Request) : List (Operation DescribedThread) :=
  [.attach false, .setFunctions (FunctionBreakpoints.new.replace requested).2]

/-- Two breakpoints that overlap, of which the first has a condition. -/
def prefixFirst : List FunctionBreakpoint.Request := [⟨"on*", some "x"⟩, ⟨"Cart.onLoad", none⟩]

/-- A breakpoint named by the sign for kelvins, whose small letter is that of the alphabet. -/
def kelvin : List FunctionBreakpoint.Request := [⟨"\u212a", none⟩]

theorem stops_for_first_covering_prefixFirst :
    let c := (new .exact : Coordinator DescribedThread).run (askingFor prefixFirst)
    c.attached = true ∧ c.functions = (FunctionBreakpoints.new.replace prefixFirst).2 ∧
      (prefixFirst.filter (·.Covers "ONLOAD" (some "cart"))).length = 2 ∧
      (c.atEntry (deciding true) "ONLOAD" (some "cart") "/a" 10).1 = true := by
  intro c
  obtain ⟨hfirst, _, hwithin⟩ := stops_for_first_covering .exact (askingFor prefixFirst)
    FunctionBreakpoints.new prefixFirst (deciding true) "ONLOAD" (some "cart") "/a" 10 rfl rfl
  have happlies : Applies (deciding true) (some "x") := by
    rintro _ ⟨⟩
    exact ⟨_, rfl, rfl⟩
  have hhead : (prefixFirst.filter (·.Covers "ONLOAD" (some "cart"))).head? =
      some ⟨"on*", some "x"⟩ := rfl
  exact ⟨rfl, rfl, by decide,
    hfirst.mpr ⟨hwithin (by decide) _ (List.mem_of_mem_head? hhead), _, hhead, happlies⟩⟩

/-- The first breakpoint that covers the function does not apply, and the second is not asked. The
other function is not even looked up under its own name, which is longer than its small letter. -/
theorem covering_passed_over :
    let overlapping := (new .exact : Coordinator DescribedThread).run (askingFor prefixFirst)
    let shrinking := (new .exact : Coordinator DescribedThread).run (askingFor kelvin)
    overlapping.attached = true ∧ shrinking.attached = true ∧
    ¬((overlapping.atEntry (deciding false) "ONLOAD" (some "cart") "/a" 10).1 = true ↔
      ∃ q ∈ prefixFirst, q.Covers "ONLOAD" (some "cart") ∧
        Applies (deciding false) q.condition?) ∧
    ¬((shrinking.atEntry (deciding false) "\u212a" none "/a" 10).1 = true ↔
      ∃ q ∈ kelvin, q.Covers "\u212a" none ∧ Applies (deciding false) q.condition?) := by
  have hnone : Applies (deciding false) none := by simp [Applies]
  refine ⟨rfl, rfl, ?_, ?_⟩
  · intro hsame
    have hstops := hsame.mpr ⟨⟨"Cart.onLoad", none⟩, by simp [prefixFirst], by decide, hnone⟩
    have hgoes : (((new .exact : Coordinator DescribedThread).run (askingFor prefixFirst)).atEntry
        (deciding false) "ONLOAD" (some "cart") "/a" 10).1 = false := rfl
    exact Bool.false_ne_true (hgoes.symm.trans hstops)
  · intro hsame
    have hstops := hsame.mpr ⟨⟨"\u212a", none⟩, by simp [kelvin], by decide, hnone⟩
    have hgoes : (((new .exact : Coordinator DescribedThread).run (askingFor kelvin)).atEntry
        (deciding false) "\u212a" none "/a" 10).1 = false := rfl
    exact Bool.false_ne_true (hgoes.symm.trans hstops)

end DebugAdapter.Coordinator
