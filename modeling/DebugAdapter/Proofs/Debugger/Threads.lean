import DebugAdapter.Debugger.Requests
import DebugAdapter.Proofs.Thread.Order

/-!
# The list of threads

Threads come in any order and are listed in one. Rows that the comparison cannot tell apart are equal,
so sorted rows are known as soon as it is known which ones there are (`sortRows_perm`). The marker of
suspended threads comes after the sorting and moves none of them.
-/

namespace DebugAdapter

namespace Thread

/-- The name comes first, or the names agree and the identifier is not behind. -/
def Row.Precedes (a b : Row) : Prop :=
  compareNames a.name b.name = .lt ∨ a.name = b.name ∧ a.id ≤ b.id

instance (a b : Row) : Decidable (a.Precedes b) := inferInstanceAs (Decidable (_ ∨ _))

instance : Std.TransCmp Row.compare := by
  have hnames : Std.TransCmp fun a b : Row => compareNames a.name b.name :=
    { eq_swap := Std.OrientedCmp.eq_swap
      isLE_trans := Std.TransCmp.isLE_trans }
  exact inferInstanceAs (Std.TransCmp (compareLex _ (compareOn Row.id)))

theorem compare_isLE_iff (a b : Row) : (a.compare b).isLE = true ↔ a.Precedes b := by
  rw [Row.compare, Ordering.isLE_then_iff_or, compareNames_eq_iff, Int.isLE_compare, Row.Precedes]

theorem Row.Precedes.antisymm {a b : Row} (hab : a.Precedes b) (hba : b.Precedes a) : a = b := by
  have heq : a.compare b = .eq :=
    Std.OrientedCmp.isLE_antisymm ((compare_isLE_iff a b).mpr hab) ((compare_isLE_iff b a).mpr hba)
  rw [Row.compare, Ordering.then_eq_eq, compareNames_eq_iff, Int.compare_eq_eq] at heq
  obtain ⟨hname, hid⟩ := heq
  cases a
  cases b
  simp_all

theorem pairwise_sortRows (rows : List Row) : (sortRows rows).Pairwise Row.Precedes := by
  have htotal : ∀ a b : Row, ((a.compare b).isLE || (b.compare a).isLE) = true := by
    intro a b
    have hswap : b.compare a = (a.compare b).swap := Std.OrientedCmp.eq_swap
    rw [hswap]
    cases a.compare b <;> rfl
  have hsorted : (sortRows rows).Pairwise fun a b => (a.compare b).isLE = true :=
    List.pairwise_mergeSort (fun _ _ _ => Std.TransCmp.isLE_trans) htotal rows
  exact hsorted.imp (compare_isLE_iff _ _).mp

theorem sortRows_perm {rows other : List Row} (h : rows.Perm other) :
    sortRows rows = sortRows other := by
  have hanti : ∀ a b : Row, a ∈ sortRows rows → b ∈ sortRows other → a.Precedes b →
      b.Precedes a → a = b := fun a b _ _ hab hba => hab.antisymm hba
  apply List.Perm.eq_of_pairwise hanti
  · exact pairwise_sortRows rows
  · exact pairwise_sortRows other
  · exact (List.mergeSort_perm rows _).trans (h.trans (List.mergeSort_perm other _).symm)

end Thread

namespace Debugger

/-- However the threads of a debuggee are enumerated, and whichever of them are suspended, they are
listed in one order behind the entry that stands for all of them; those that are suspended are
marked. -/
theorem threads_listed {C : Type} (debuggee : Debuggee) :
    ∃ sorted : List Thread.Row, sorted.Perm debuggee.threads ∧
      sorted.Pairwise Thread.Row.Precedes ∧
      ∀ (d : Debugger C) (other : Debuggee), other.threads.Perm debuggee.threads →
        d.threads other = d.threads debuggee ∧
        d.threads other = ⟨Coordinator.allThreads, "All Threads"⟩ :: sorted.map fun row =>
          ⟨row.id, row.name ++ if (d.coordinator.suspended.get? row.id).isSome then " (suspended)"
            else ""⟩ := by
  refine ⟨Thread.sortRows debuggee.threads, List.mergeSort_perm _ _,
    Thread.pairwise_sortRows _, ?_⟩
  intro d other h
  have hrow : ∀ row : Thread.Row,
      (if d.coordinator.isSuspended row.id then { row with name := row.name ++ " (suspended)" }
        else row) =
      ⟨row.id, row.name ++ if (d.coordinator.suspended.get? row.id).isSome then " (suspended)"
        else ""⟩ := by
    intro row
    rw [Coordinator.isSuspended, Table.contains]
    cases (d.coordinator.suspended.get? row.id).isSome with
    | true => rfl
    | false => simp
  simp only [threads, Thread.sortRows_perm h, hrow, and_self]

/-- Of two threads with one name, the one that is suspended keeps its place. -/
theorem threads_listed_sameName :
    let waiting : Suspension Unit := ⟨(), "/srv/main.src", 4, ⟨.step, none, none, none⟩, 0⟩
    let fresh : Debugger Unit := new ⟨true, none, 8, none⟩
    let suspended := fresh.coordinator.suspended.insert 3 waiting
    let stopped := { fresh with coordinator := { fresh.coordinator with suspended } }
    let debuggee : Debuggee :=
      ⟨[⟨12, "Worker"⟩, ⟨7, "worker-2"⟩, ⟨3, "Worker"⟩], fun _ => [], [], []⟩
    let other : Debuggee :=
      { debuggee with threads := [⟨3, "Worker"⟩, ⟨12, "Worker"⟩, ⟨7, "worker-2"⟩] }
    other.threads.Perm debuggee.threads ∧ stopped.threads other = stopped.threads debuggee ∧
      stopped.threads other =
        [⟨1, "All Threads"⟩, ⟨3, "Worker (suspended)"⟩, ⟨12, "Worker"⟩, ⟨7, "worker-2"⟩] := by
  intro waiting fresh suspended stopped debuggee other
  have hperm : other.threads.Perm debuggee.threads := by decide
  obtain ⟨sorted, hsame, hsorted, hlisted⟩ := threads_listed (C := Unit) debuggee
  obtain ⟨hequal, hrows⟩ := hlisted stopped other hperm
  have hrow : sorted = [⟨3, "Worker"⟩, ⟨12, "Worker"⟩, ⟨7, "worker-2"⟩] := by
    apply List.Perm.eq_of_pairwise fun a b _ _ => Thread.Row.Precedes.antisymm
    · exact hsorted
    · decide
    · exact hsame.trans hperm.symm
  refine ⟨hperm, hequal, ?_⟩
  rw [hrows, hrow]
  decide

end Debugger

end DebugAdapter
