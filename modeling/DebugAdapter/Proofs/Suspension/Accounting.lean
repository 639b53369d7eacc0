import DebugAdapter.Proofs.Suspension.History
import DebugAdapter.Suspension.Described

/-!
# Every wait is accounted for

A history is read once more from outside: `parkings` lists the reports that were answered by a wait,
with the receiver there was. The list decides what the coordinator holds in the end. Each parking is
still in the table or has been released, once; and the stops that were notified are the parkings, in
their order and to their receivers.

The only assumption is that a thread that waits reports nothing.
-/

namespace DebugAdapter

variable {C : Type}

/-- A report that was answered by a wait. -/
structure Parking (C : Type) where
  context : C
  report : Report
  receiver : Option Nat

/-- Who waits, and where. -/
def Suspension.site (s : Suspension C) : C × String × Nat := (s.context, s.file, s.line)

def Parking.site (p : Parking C) : C × String × Nat :=
  (p.context, p.report.file, p.report.lineNumber)

/-- The receiver that is told of a stop, and the thread that stopped. -/
def Delivery.stopped? : Delivery → Option (Option Nat × ThreadId)
  | ⟨r, .stopped t _ _ _ _⟩ => some (some r, t)
  | ⟨_, .output _ _⟩ => none

/-- The number of attaches and the receiver, before and after an operation. -/
def Operation.tune : Operation C → Nat × Option Nat → Nat × Option Nat
  | .attach _, (n, _) => (n + 1, some (n + 1))
  | .detach, (n, _) => (n, none)
  | _, s => s

variable [Context C]

def Suspension.thread (s : Suspension C) : ThreadId := Context.thread s.context

def Parking.thread (p : Parking C) : ThreadId := Context.thread p.context

/-- Who has to be told of a parking, and of which thread. -/
def Parking.told (p : Parking C) : Option Nat × ThreadId := (p.receiver, p.thread)

namespace Coordinator

def parking? (c : Coordinator C) : Operation C → Option (Parking C)
  | .report ctx r => if (c.hear ctx r).1 then some ⟨ctx, r, c.receiver⟩ else none
  | _ => none

/-- The waits that begin along a history. -/
def parkings (c : Coordinator C) : List (Operation C) → List (Parking C)
  | [] => []
  | op :: ops => (c.parking? op).toList ++ (c.after op).parkings ops

/-- A thread that waits reports nothing. -/
def Admits (c : Coordinator C) : Operation C → Prop
  | .report ctx _ => c.isSuspended (Context.thread ctx) = false
  | _ => True

/-! ## Sites -/

/-- Who has been released and who waits, and where. -/
def sites (c : Coordinator C) : List (C × String × Nat) :=
  (c.released ++ c.suspended.values).map Suspension.site

omit [Context C] in
theorem sites_notify (c : Coordinator C) (n : Notification) : (c.notify n).sites = c.sites := by
  unfold notify
  split <;> rfl

theorem sites_parked {c : Coordinator C} {ctx : C} {file : String} {line : Nat} {stop : Stop}
    (habsent : c.suspended.get? (Context.thread ctx) = none) :
    (c.parked ctx file line stop).sites.Perm (c.sites ++ [(ctx, file, line)]) := by
  simp only [sites, Coordinator.parked, satisfy, refresh, Table.values_insert habsent,
    List.map_append, List.map_cons]
  exact List.perm_middle.trans (List.perm_append_singleton _ _).symm

omit [Context C] in
theorem sites_resume (c : Coordinator C) (t : ThreadId) : (c.resume t).2.sites.Perm c.sites := by
  cases hs : c.suspended.get? t with
  | none => rw [resume_of_absent hs]
  | some s =>
    rw [resume_of_waiting hs]
    refine List.Perm.map _ ?_
    simp only [release, List.append_assoc, List.singleton_append]
    exact (Table.values_perm_cons_erase hs).symm.append_left _

omit [Context C] in
theorem sites_resumeAll (c : Coordinator C) : c.resumeAll.2.sites = c.sites := by
  rw [resumeAll_eq]
  simp [sites, refresh]

theorem sites_hear {c : Coordinator C} {ctx : C} {r : Report}
    (habsent : c.suspended.get? (Context.thread ctx) = none) :
    (c.hear ctx r).2.sites.Perm
      (c.sites ++ (c.parking? (.report ctx r)).toList.map Parking.site) := by
  rcases hear_cases c ctx r with hhear | ⟨stop, d, hdecided, hhear⟩
  · simp [parking?, hhear]
  · have htable : d.suspended = c.suspended := by cases hdecided <;> rfl
    have hsites : d.sites = c.sites := by cases hdecided <;> rfl
    rw [← htable] at habsent
    rw [parking?, hhear, ← hsites]
    cases hattached : d.attached with
    | true =>
      rw [suspend_of_attached hattached, sites_notify]
      exact sites_parked habsent
    | false =>
      rw [suspend_of_detached hattached]
      simp [sites, satisfy, refresh]

/-! ## Accounts -/

/-- The state of a coordinator agrees with the waits that have begun. -/
structure Accounts (c : Coordinator C) (ps : List (Parking C)) : Prop where
  keyed : ∀ t s, c.suspended.get? t = some s → s.thread = t
  received : c.receiver.isSome = c.attached
  sites : ((c.released ++ c.suspended.values).map Suspension.site).Perm (ps.map Parking.site)
  told : c.outbox.filterMap Delivery.stopped? = ps.map Parking.told

theorem accounts_new (fold : Path.Folding) : Accounts (new fold : Coordinator C) [] where
  keyed := by simp [new]
  received := rfl
  sites := .refl _
  told := rfl

namespace Accounts
variable {c c' : Coordinator C} {ps : List (Parking C)}

/-- An operation that moves no thread and stops none keeps the account. -/
theorem of_unmoved (h : Accounts c ps) (htable : c'.suspended = c.suspended)
    (hreleased : c'.released = c.released) (houtbox : c'.outbox = c.outbox)
    (hreceived : c'.receiver.isSome = c'.attached) : Accounts c' ps where
  keyed := htable ▸ h.keyed
  received := hreceived
  sites := by
    rw [htable, hreleased]
    exact h.sites
  told := houtbox ▸ h.told

theorem parked (h : Accounts c ps) {ctx : C} {r : Report} {stop : Stop}
    (hattached : c.attached = true) (habsent : c.suspended.get? (Context.thread ctx) = none) :
    Accounts ((c.parked ctx r.file r.lineNumber stop).notify
      (stop.notification (Context.thread ctx))) (ps ++ [⟨ctx, r, c.receiver⟩]) := by
  -- Where a client is there is a receiver, so the stop is not lost.
  have hreceiver : c.receiver.isSome = true := h.received.trans hattached
  obtain ⟨n, hn⟩ := Option.isSome_iff_exists.mp hreceiver
  have hnotify : (c.parked ctx r.file r.lineNumber stop).notify
      (stop.notification (Context.thread ctx)) =
        { c.parked ctx r.file r.lineNumber stop with
          outbox := c.outbox ++ [⟨n, stop.notification (Context.thread ctx)⟩] } := by
    have : (c.parked ctx r.file r.lineNumber stop).receiver = some n := hn
    simp only [notify, this]
    rfl
  rw [hnotify]
  constructor
  · intro t s hs
    simp only [Coordinator.parked, Table.get?_insert] at hs
    split at hs
    · rename_i ht
      cases hs
      exact ht.symm
    · exact h.keyed t s hs
  · exact hreceiver.trans hattached.symm
  · have hsites : (c.parked ctx r.file r.lineNumber stop).sites.Perm
        (ps.map Parking.site ++ [(ctx, r.file, r.lineNumber)]) :=
      (sites_parked habsent).trans (h.sites.append_right _)
    have hmap : (ps ++ [(⟨ctx, r, c.receiver⟩ : Parking C)]).map Parking.site =
        ps.map Parking.site ++ [(ctx, r.file, r.lineNumber)] := List.map_append
    rw [hmap]
    exact hsites
  · simp only [List.filterMap_append, h.told, List.map_append]
    simp [Delivery.stopped?, Stop.notification, Parking.told, Parking.thread, hn]

theorem outputSent (h : Accounts c ps) {text : String} {isError : Bool} :
    Accounts (c.notify (.output text isError)) ps := by
  unfold notify
  split
  · refine ⟨h.keyed, h.received, h.sites, ?_⟩
    rw [List.filterMap_append, h.told]
    exact List.append_nil _
  · exact h

theorem resumed (h : Accounts c ps) (t : ThreadId) : Accounts (c.resume t).2 ps := by
  cases hs : c.suspended.get? t with
  | none =>
    rw [resume_of_absent hs]
    exact h
  | some s =>
    rw [resume_of_waiting hs]
    have hsites := sites_resume c t
    rw [resume_of_waiting hs] at hsites
    refine ⟨?_, h.received, hsites.trans h.sites, h.told⟩
    intro u e he
    simp only [release, Table.get?_erase] at he
    split at he
    · contradiction
    · exact h.keyed u e he

theorem resumedAll (h : Accounts c ps) : Accounts c.resumeAll.2 ps := by
  rw [resumeAll_eq]
  refine ⟨by simp [refresh], h.received, ?_, h.told⟩
  simpa [refresh] using h.sites

theorem decided (h : Accounts c ps) (hdecided : Decided c c') : Accounts c' ps := by
  cases hdecided with
  | nothing => exact h
  | pause target => exact h.of_unmoved rfl rfl rfl h.received
  | exception t => exact h.of_unmoved rfl rfl rfl h.received

theorem heard (h : Accounts c ps) {ctx : C} {r : Report}
    (habsent : c.suspended.get? (Context.thread ctx) = none) :
    Accounts (c.hear ctx r).2 (ps ++ (c.parking? (.report ctx r)).toList) := by
  rcases hear_cases c ctx r with hhear | ⟨stop, d, hdecided, hhear⟩
  · simpa [parking?, hhear] using h
  · -- The decision may have used something up, but no thread has moved yet.
    have hd := h.decided hdecided
    have htable : d.suspended = c.suspended := by cases hdecided <;> rfl
    have hreceiver : c.receiver = d.receiver := by cases hdecided <;> rfl
    rw [← htable] at habsent
    cases hattached : d.attached with
    | true =>
      rw [suspend_of_attached hattached] at hhear
      simpa [parking?, hhear, hreceiver] using hd.parked hattached habsent
    | false =>
      rw [suspend_of_detached hattached] at hhear
      have hsatisfied : Accounts (d.satisfy (Context.thread ctx)) ps :=
        hd.of_unmoved rfl rfl rfl hd.received
      simpa [parking?, hhear] using hsatisfied

theorem after (h : Accounts c ps) {op : Operation C} (hop : c.Admits op) :
    Accounts (c.after op) (ps ++ (c.parking? op).toList) := by
  have hquiet : ∀ {d : Coordinator C}, Accounts d ps →
      Accounts d (ps ++ (none : Option (Parking C)).toList) := by
    intro d hd
    simpa using hd
  cases op with
  | report ctx r => exact h.heard (Option.isSome_eq_false_iff.mp hop |> Option.isNone_iff_eq_none.mp)
  | resume t => exact hquiet (h.resumed t)
  | resumeAll => exact hquiet h.resumedAll
  | detach =>
    have hclosed : Accounts { c with
        attached := false
        breakOnUncaught := false
        consoleOutput := false
        receiver := none } ps := h.of_unmoved rfl rfl rfl rfl
    exact hquiet hclosed.resumedAll
  | attach consoleOutput => exact hquiet (h.of_unmoved rfl rfl rfl rfl)
  | setBreakOnUncaught enabled => exact hquiet (h.of_unmoved rfl rfl rfl h.received)
  | setBreakpoints b => exact hquiet (h.of_unmoved rfl rfl rfl h.received)
  | setFunctions b => exact hquiet (h.of_unmoved rfl rfl rfl h.received)
  | requestPause t => exact hquiet (h.of_unmoved rfl rfl rfl h.received)
  | announce t e caught =>
    apply hquiet
    simp only [Coordinator.after, announce]
    split
    · exact h
    · exact h.of_unmoved rfl rfl rfl h.received
  | exited t =>
    apply hquiet
    simp only [Coordinator.after, exited]
    split
    · exact h.of_unmoved rfl rfl rfl h.received
    · exact h
  | output text isError =>
    apply hquiet
    simp only [Coordinator.after, output]
    split
    · exact h.outputSent
    · exact h
  | step t mode =>
    apply hquiet
    simp only [Coordinator.after, Coordinator.step]
    split
    · apply resumed
      exact h.of_unmoved rfl rfl rfl h.received
    · exact h

end Accounts

theorem accounts_run {c : Coordinator C} {ps : List (Parking C)} {ops : List (Operation C)}
    (h : Accounts c ps) (hops : Along Admits c ops) :
    Accounts (c.run ops) (ps ++ c.parkings ops) := by
  induction ops generalizing c ps with
  | nil => simpa [run, parkings] using h
  | cons op ops ih =>
    have hrest := ih (h.after hops.1) hops.2
    rw [List.append_assoc] at hrest
    exact hrest

/-! ## The receiver -/

/-- The receiver after a history: that of the latest attach, unless a detach came later. -/
def receiverAfter (ops : List (Operation C)) : Option Nat :=
  (ops.foldl (fun s op => op.tune s) (0, none)).2

omit [Context C] in
theorem foldl_tune (ops : List (Operation C)) (s : Setup) :
    (ops.foldl (fun n op => op.tune n) (s.attaches, s.receiver)).2 =
      (ops.foldl (fun s op => op.configure s) s).receiver := by
  induction ops generalizing s with
  | nil => rfl
  | cons op ops ih =>
    have htune : op.tune (s.attaches, s.receiver) =
        ((op.configure s).attaches, (op.configure s).receiver) := by cases op <;> rfl
    rw [List.foldl_cons, List.foldl_cons, htune]
    exact ih (op.configure s)

theorem run_receiver (fold : Path.Folding) (ops : List (Operation C)) :
    ((new fold : Coordinator C).run ops).receiver = receiverAfter ops := by
  have hsetup := congrArg Setup.receiver (run_setup (new fold : Coordinator C) ops)
  exact hsetup.trans (foldl_tune ops (new fold : Coordinator C).setup).symm

/-! ## Counting -/

def waitsOf (t : ThreadId) (ps : List (Parking C)) : Nat := ps.countP (·.thread = t)

def releasesOf (c : Coordinator C) (t : ThreadId) : Nat := c.released.countP (·.thread = t)

theorem countP_waiting {c : Coordinator C} (t : ThreadId)
    (hkeyed : ∀ t s, c.suspended.get? t = some s → s.thread = t) :
    c.suspended.values.countP (·.thread = t) = if c.isSuspended t then 1 else 0 := by
  cases hs : c.suspended.get? t with
  | none =>
    have habsent : c.isSuspended t = false := by simp [isSuspended, Table.contains, hs]
    rw [habsent, if_neg Bool.false_ne_true, List.countP_eq_zero]
    intro s hmem hthread
    obtain ⟨u, hu⟩ := Table.mem_values.mp hmem
    have hut : u = t := (hkeyed u s hu).symm.trans (of_decide_eq_true hthread)
    rw [hut, hs] at hu
    contradiction
  | some s =>
    have hpresent : c.isSuspended t = true := by simp [isSuspended, Table.contains, hs]
    rw [hpresent, if_pos rfl, (Table.values_perm_cons_erase hs).countP_eq, List.countP_cons]
    have hrest : (c.suspended.erase t).values.countP (·.thread = t) = 0 := by
      rw [List.countP_eq_zero]
      intro e hmem hthread
      obtain ⟨u, hu⟩ := Table.mem_values.mp hmem
      rw [Table.get?_erase] at hu
      split at hu
      · contradiction
      · rename_i hne
        exact hne ((hkeyed u e hu).symm.trans (of_decide_eq_true hthread))
    rw [hrest, if_pos (decide_eq_true (hkeyed t s hs))]

theorem Accounts.waitsOf_eq {c : Coordinator C} {ps : List (Parking C)} (h : Accounts c ps)
    (t : ThreadId) :
    waitsOf t ps = c.releasesOf t + if c.isSuspended t then 1 else 0 := by
  have hcount := h.sites.countP_eq (fun s => decide (Context.thread s.1 = t))
  rw [List.countP_map, List.countP_map, List.countP_append] at hcount
  rw [← countP_waiting t h.keyed]
  exact hcount.symm

/-! ## The account of a history -/

/-- For every history of a new coordinator in which no waiting thread reports: a thread is in the
table exactly if it has begun to wait more often than it was released, and then by one; each wait was
told once, to the receiver of that moment; each wait has been released once or is still in the
table; requests for a thread that does not wait are refused and change nothing; and releasing all
threads leaves none, and counts them. -/
theorem parkings_accounted (fold : Path.Folding) (ops : List (Operation C))
    (hops : Along Admits (new fold) ops) :
    let c := (new fold : Coordinator C).run ops
    let ps := (new fold : Coordinator C).parkings ops
    (∀ t, (c.isSuspended t = true ↔ c.releasesOf t < waitsOf t ps) ∧
      waitsOf t ps = c.releasesOf t + if c.isSuspended t then 1 else 0) ∧
    c.outbox.filterMap Delivery.stopped? = ps.map Parking.told ∧
    c.receiver = receiverAfter ops ∧
    ((c.released ++ c.suspended.values).map Suspension.site).Perm (ps.map Parking.site) ∧
    (∀ t mode, c.isSuspended t = false → c.resume t = (false, c) ∧ c.step t mode = (false, c)) ∧
    c.resumeAll.1 = c.suspended.size ∧ c.resumeAll.2.suspended = ∅ ∧ c.detach.suspended = ∅ := by
  intro c ps
  have h : Accounts c ps := accounts_run (accounts_new fold) hops
  refine ⟨?_, h.told, run_receiver fold ops, h.sites, ?_, ?_, ?_, ?_⟩
  · intro t
    have hwaits := h.waitsOf_eq t
    refine ⟨?_, hwaits⟩
    cases hsuspended : c.isSuspended t <;> simp [hwaits, hsuspended]
  · intro t mode hsuspended
    have habsent : c.suspended.get? t = none :=
      Option.isNone_iff_eq_none.mp (Option.isSome_eq_false_iff.mp hsuspended)
    exact ⟨resume_of_absent habsent, by simp only [step, habsent]⟩
  · rw [resumeAll_eq]
  · rw [resumeAll_eq]
    rfl
  · simp only [detach, resumeAll_eq]
    rfl

/-- Two threads stop twice each, under two receivers. -/
def twoReceivers : List (Operation DescribedThread) :=
  let ten : DescribedThread := ⟨10, "ten", [], []⟩
  let eleven : DescribedThread := ⟨11, "eleven", [], []⟩
  [.attach false, .requestPause 1, .report ten (.line "a" 1), .report eleven (.line "a" 1),
    .report eleven (.halt "a" 2 none), .step 10 .into, .attach true, .report ten (.line "a" 3),
    .resumeAll, .report eleven (.halt "a" 4 none)]

theorem parkings_accounted_twoReceivers :
    let c := (new .exact : Coordinator DescribedThread).run twoReceivers
    Along Admits (new .exact) twoReceivers ∧ c.isSuspended 10 = false ∧ c.isSuspended 11 = true ∧
      c.outbox.filterMap Delivery.stopped? =
        [(some 1, 10), (some 1, 11), (some 2, 10), (some 2, 11)] ∧
      c.releasesOf 11 < waitsOf 11 ((new .exact : Coordinator DescribedThread).parkings
        twoReceivers) := by
  have hops : Along Admits (new .exact : Coordinator DescribedThread) twoReceivers :=
    ⟨trivial, trivial, rfl, rfl, rfl, trivial, trivial, rfl, trivial, rfl, trivial⟩
  obtain ⟨hcount, htold, _⟩ := parkings_accounted .exact twoReceivers hops
  exact ⟨hops, rfl, rfl, htold.trans rfl, (hcount 11).1.mp rfl⟩

end Coordinator

end DebugAdapter
