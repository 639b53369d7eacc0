import DebugAdapter.Proofs.Suspension.Interleaving
import DebugAdapter.Suspension.Described
import Mathlib.Data.List.Perm.Basic

/-!
# The end of a session strands no thread

`Sound` is kept by every move of a `System`. It says who is responsible for a gate: each gate there
has been belongs to one entry, which is in the table or on its way out, and the gate is open exactly
if the entry is past the point where it is opened. Two facts about the end of the session make the
rest work. A thread finds out under the lock whether a client is there, so nothing is put into the
table once the end of the session has begun; and the table is drained after that.
-/

namespace DebugAdapter.System

variable {C : Type}

/-- The entries that stand at a gate. -/
def holders (g : Nat) (xs : List (Suspension C)) : Nat := xs.countP fun x => x.gate = g

@[simp] theorem holders_nil (g : Nat) : holders g ([] : List (Suspension C)) = 0 := rfl

@[simp] theorem holders_cons (g : Nat) (x : Suspension C) (xs : List (Suspension C)) :
    holders g (x :: xs) = holders g xs + if x.gate = g then 1 else 0 := by
  simp [holders, List.countP_cons]

@[simp] theorem holders_append (g : Nat) (xs ys : List (Suspension C)) :
    holders g (xs ++ ys) = holders g xs + holders g ys := List.countP_append

theorem holders_perm {xs ys : List (Suspension C)} (h : xs.Perm ys) (g : Nat) :
    holders g xs = holders g ys := h.countP_eq _

theorem holders_pos {g : Nat} {xs : List (Suspension C)} :
    0 < holders g xs ↔ ∃ x ∈ xs, x.gate = g := by
  simp [holders, List.countP_pos_iff]

theorem holders_eraseIdx {xs : List (Suspension C)} {i : Nat} {x : Suspension C}
    (h : xs[i]? = some x) (g : Nat) : holders g xs = holders g (x :: xs.eraseIdx i) := by
  obtain ⟨hi, rfl⟩ := List.getElem?_eq_some_iff.mp h
  exact holders_perm (List.getElem_cons_eraseIdx_perm hi).symm g

theorem count_gate (g : Nat) (xs : List (Suspension C)) :
    (xs.map (·.gate)).count g = holders g xs := by
  simp only [List.count_eq_countP, List.countP_map, holders]
  rfl

/-! ## Responsibility for gates -/

/-- The entries whose gates nobody has opened. -/
def shut (s : System C) : List (Suspension C) :=
  s.coordinator.suspended.values ++ s.taken ++ s.teardown.unopened

/-- The entries whose gates are open. -/
def free (s : System C) : List (Suspension C) :=
  s.freed ++ s.teardown.unsignalled ++ s.coordinator.released

/-- Each gate belongs to one entry. -/
structure Balanced (s : System C) : Prop where
  owned : ∀ g, holders g s.shut + holders g s.free = if g < s.coordinator.gates then 1 else 0
  opened : ∀ g, g ∈ s.opened ↔ 0 < holders g s.free

namespace Balanced
variable {s s' : System C}

/-- Entries change hands, and no gate is opened. -/
theorem handed (h : Balanced s) (hgates : s'.coordinator.gates = s.coordinator.gates)
    (hopened : s'.opened = s.opened) (hshut : ∀ g, holders g s'.shut = holders g s.shut)
    (hfree : ∀ g, holders g s'.free = holders g s.free) : Balanced s' := by
  constructor
  · intro g
    rw [hshut, hfree, hgates]
    exact h.owned g
  · intro g
    rw [hopened, hfree]
    exact h.opened g

theorem openGate (h : Balanced s) {x : Suspension C}
    (hgates : s'.coordinator.gates = s.coordinator.gates)
    (hopened : s'.opened = x.gate :: s.opened)
    (hshut : ∀ g, holders g s.shut = holders g (x :: s'.shut))
    (hfree : ∀ g, holders g s'.free = holders g (x :: s.free)) : Balanced s' := by
  constructor
  · intro g
    have howned := h.owned g
    rw [hshut, holders_cons] at howned
    rw [hfree, holders_cons, hgates]
    omega
  · intro g
    rw [hopened, hfree, holders_cons, List.mem_cons, h.opened g]
    by_cases hx : x.gate = g
    · simp [hx]
    · have hx' : g ≠ x.gate := fun he => hx he.symm
      simp [hx, hx']

theorem newGate (h : Balanced s) {x : Suspension C} (hx : x.gate = s.coordinator.gates)
    (hgates : s'.coordinator.gates = s.coordinator.gates + 1) (hopened : s'.opened = s.opened)
    (hshut : ∀ g, holders g s'.shut = holders g (x :: s.shut)) (hfree : s'.free = s.free) :
    Balanced s' := by
  constructor
  · intro g
    have howned := h.owned g
    rw [hshut, hfree, hgates, holders_cons, hx]
    rcases Nat.lt_trichotomy g s.coordinator.gates with hlt | rfl | hgt
    · rw [if_pos hlt] at howned
      rw [if_neg (Nat.ne_of_gt hlt), if_pos (Nat.lt_succ_of_lt hlt)]
      exact howned
    · rw [if_neg (Nat.lt_irrefl _)] at howned
      rw [if_pos rfl, if_pos (Nat.lt_succ_self _)]
      omega
    · rw [if_neg (Nat.not_lt.mpr (Nat.le_of_lt hgt))] at howned
      rw [if_neg (Nat.ne_of_lt hgt), if_neg (Nat.not_lt.mpr hgt)]
      exact howned
  · intro g
    rw [hopened, hfree]
    exact h.opened g

end Balanced

variable [Context C]

structure Sound (s : System C) : Prop where
  balanced : Balanced s
  seated : ∀ t x, s.coordinator.suspended.get? t = some x → (s.places t).gate? = some x.gate
  behind : ∀ t g, (s.places t).gate? = some g → g < s.coordinator.gates
  own : ∀ t h, (s.places t).halt? = some h → Context.thread h.context = t
  attached : s.teardown ≠ .idle → s.coordinator.attached = false
  drained : s.teardown.drained = true → s.coordinator.suspended = ∅

theorem sound_start (fold : Path.Folding) : Sound (start fold : System C) where
  balanced := ⟨fun _ => rfl, by simp [start, free, Teardown.unsignalled, Coordinator.new]⟩
  seated := by simp [start, Coordinator.new]
  behind := by simp [start, Place.gate?]
  own := by simp [start, Place.halt?]
  attached := by simp [start]
  drained := by simp [start, Teardown.drained]

omit [Context C] in
theorem seat_places_of_ne (s : System C) {t u : ThreadId} (p : Place C) (hu : u ≠ t) :
    (s.seat t p).places u = s.places u := if_neg hu

/-- Nobody is put into the table, taken out of it or told to go on. -/
structure Unmoved (c c' : Coordinator C) : Prop where
  suspended : c'.suspended = c.suspended
  gates : c'.gates = c.gates
  released : c'.released = c.released

omit [Context C] in
theorem notify_unmoved (c : Coordinator C) (n : Notification) : Unmoved c (c.notify n) := by
  unfold Coordinator.notify
  split <;> exact ⟨rfl, rfl, rfl⟩

namespace Sound
variable {s : System C} {c : Coordinator C} {t : ThreadId} {x : Suspension C}

theorem reseat (hs : Sound s) {p : Place C}
    (hbalanced : Balanced ({ s with coordinator := c }.seat t p))
    (hentry : ∀ x, c.suspended.get? t = some x → p.gate? = some x.gate)
    (hothers : ∀ u x, u ≠ t → c.suspended.get? u = some x →
      s.coordinator.suspended.get? u = some x)
    (hgates : s.coordinator.gates ≤ c.gates) (hgate : ∀ g, p.gate? = some g → g < c.gates)
    (hown : ∀ h, p.halt? = some h → Context.thread h.context = t)
    (hattached : s.teardown ≠ .idle → c.attached = false)
    (hdrained : s.teardown.drained = true → c.suspended = ∅) :
    Sound ({ s with coordinator := c }.seat t p) := by
  refine ⟨hbalanced, ?_, ?_, ?_, hattached, hdrained⟩
  · intro u x hx
    by_cases hu : u = t
    · subst u
      rw [seat_places_self]
      exact hentry x hx
    · rw [seat_places_of_ne _ _ hu]
      exact hs.seated u x (hothers u x hu hx)
  · intro u g hg
    by_cases hu : u = t
    · subst u
      rw [seat_places_self] at hg
      exact hgate g hg
    · rw [seat_places_of_ne _ _ hu] at hg
      exact Nat.lt_of_lt_of_le (hs.behind u g hg) hgates
  · intro u h hh
    by_cases hu : u = t
    · subst u
      rw [seat_places_self] at hh
      exact hown h hh
    · rw [seat_places_of_ne _ _ hu] at hh
      exact hs.own u h hh

/-- A thread stays on its side of the gate. -/
theorem seat (hs : Sound s) {p p' : Place C} (hplace : s.places t = p)
    (hc : Unmoved s.coordinator c) (hattached : c.attached = s.coordinator.attached)
    (hgate : p'.gate? = p.gate?) (hown : ∀ h, p'.halt? = some h → Context.thread h.context = t) :
    Sound ({ s with coordinator := c }.seat t p') := by
  subst hplace
  have hbalanced : Balanced ({ s with coordinator := c }.seat t p') := by
    refine hs.balanced.handed hc.gates rfl (fun g => ?_) (fun g => ?_)
    · simp [shut, System.seat, hc.suspended]
    · simp [free, System.seat, hc.released]
  refine hs.reseat hbalanced ?_ ?_ (Nat.le_of_eq hc.gates.symm) ?_ hown ?_ ?_
  · intro x hx
    exact hgate.trans (hs.seated t x (hc.suspended ▸ hx))
  · intro u x _ hx
    exact hc.suspended ▸ hx
  · intro g hg
    exact Nat.lt_of_lt_of_eq (hs.behind t g (hgate.symm.trans hg)) hc.gates.symm
  · intro hidle
    exact hattached.trans (hs.attached hidle)
  · intro hdrained
    exact hc.suspended.trans (hs.drained hdrained)

theorem shut_of_get? (hs : Sound s) (hx : s.coordinator.suspended.get? t = some x) :
    x.gate ∉ s.opened := by
  rw [hs.balanced.opened]
  have hshut : 0 < holders x.gate s.shut := by
    refine holders_pos.mpr ⟨x, ?_, rfl⟩
    exact List.mem_append_left _ (List.mem_append_left _ (Table.mem_values.mpr ⟨t, hx⟩))
  have howned := hs.balanced.owned x.gate
  split at howned <;> omega

/-- A thread leaves an open gate. -/
theorem wake (hs : Sound s) {g : Nat} (hplace : s.places t = .waiting g) (hopen : g ∈ s.opened) :
    Sound (s.seat t .running) := by
  have hbalanced : Balanced (s.seat t .running) :=
    hs.balanced.handed rfl rfl (fun _ => rfl) (fun _ => rfl)
  refine hs.reseat hbalanced ?_ (fun _ _ _ hx => hx) (Nat.le_refl _) (by simp [Place.gate?])
    (by simp [Place.halt?]) hs.attached hs.drained
  -- Its entry has left the table, or the gate would be closed.
  intro x hx
  have hseated := hs.seated t x hx
  rw [hplace] at hseated
  cases hseated
  exact absurd hopen (hs.shut_of_get? hx)

theorem park (hs : Sound s) {h : Halt C} (hplace : s.places t = .refreshed h)
    (hpark : s.coordinator.park? h.context h.file h.line h.stop = some c) :
    Sound ({ s with coordinator := c }.seat t
      (.parked s.coordinator.gates (h.stop.notification t))) := by
  have hthread : Context.thread h.context = t := hs.own t h (by rw [hplace]; rfl)
  have habsent : s.coordinator.suspended.get? t = none := by
    cases hx : s.coordinator.suspended.get? t with
    | none => rfl
    | some x =>
      have hseated := hs.seated t x hx
      rw [hplace] at hseated
      contradiction
  simp only [Coordinator.park?, Option.ite_none_right_eq_some, Option.some.injEq, hthread] at hpark
  obtain ⟨hattached, rfl⟩ := hpark
  -- The client was there under the lock, so the table has not been drained and will be.
  have hidle : s.teardown = .idle := by
    refine Classical.byContradiction fun hidle => ?_
    rw [hs.attached hidle] at hattached
    contradiction
  refine hs.reseat ?_ ?_ ?_ (Nat.le_succ _) ?_ (by simp [Place.halt?]) ?_ ?_
  · refine hs.balanced.newGate (x := ⟨h.context, h.file, h.line, h.stop, s.coordinator.gates⟩)
      rfl rfl rfl (fun g => ?_) rfl
    simp [shut, System.seat, Table.values_insert habsent]
  · intro x hx
    rw [Table.get?_insert, if_pos rfl] at hx
    cases hx
    rfl
  · intro u x hu hx
    rwa [Table.get?_insert, if_neg hu] at hx
  · rintro _ ⟨⟩
    exact Nat.lt_succ_self _
  · intro hne
    exact absurd hidle hne
  · intro hdrained
    rw [hidle] at hdrained
    contradiction

theorem take (hs : Sound s) (htake : s.coordinator.take? t = some (x, c)) :
    Sound { s with coordinator := c, taken := x :: s.taken } := by
  simp only [Coordinator.take?, Option.map_eq_some_iff, Prod.mk.injEq] at htake
  obtain ⟨_, hx, rfl, rfl⟩ := htake
  constructor
  · refine hs.balanced.handed rfl rfl (fun g => ?_) (fun _ => rfl)
    have hvalues := holders_perm (Table.values_perm_cons_erase hx) g
    simp only [shut, holders_append, holders_cons] at hvalues ⊢
    omega
  · intro u y hy
    simp only [Table.get?_erase] at hy
    split at hy
    · contradiction
    · exact hs.seated u y hy
  · exact hs.behind
  · exact hs.own
  · exact hs.attached
  · intro hdrained
    have hempty : s.coordinator.suspended = ∅ := hs.drained hdrained
    simp [hempty]

theorem openGate (hs : Sound s) {i : Nat} (hx : s.taken[i]? = some x) :
    Sound { s with
      opened := x.gate :: s.opened, taken := s.taken.eraseIdx i, freed := x :: s.freed } where
  balanced := by
    refine hs.balanced.openGate (x := x) rfl rfl (fun g => ?_) (fun g => ?_)
    · have htaken := holders_eraseIdx hx g
      simp only [shut, holders_append, holders_cons] at htaken ⊢
      omega
    · simp only [free, holders_append, holders_cons]
      omega
  seated := hs.seated
  behind := hs.behind
  own := hs.own
  attached := hs.attached
  drained := hs.drained

theorem signal (hs : Sound s) {i : Nat} (hx : s.freed[i]? = some x) :
    Sound { s with
      coordinator := s.coordinator.release x, freed := s.freed.eraseIdx i } where
  balanced := by
    refine hs.balanced.handed rfl rfl (fun _ => rfl) (fun g => ?_)
    have hfreed := holders_eraseIdx hx g
    simp only [free, Coordinator.release, holders_append, holders_cons, holders_nil] at hfreed ⊢
    omega
  seated := hs.seated
  behind := hs.behind
  own := hs.own
  attached := hs.attached
  drained := hs.drained

/-- The end of the session goes on without touching entries. -/
theorem proceed (hs : Sound s) {d d' : Teardown C} (hteardown : s.teardown = d)
    (hc : Unmoved s.coordinator c) (hunopened : d'.unopened = d.unopened)
    (hunsignalled : d'.unsignalled = d.unsignalled) (hattached : c.attached = false)
    (hdrained : d'.drained = true → d.drained = true) :
    Sound { s with coordinator := c, teardown := d' } := by
  subst hteardown
  constructor
  · refine hs.balanced.handed hc.gates rfl (fun g => ?_) (fun g => ?_)
    · simp only [shut, hc.suspended, hunopened]
    · simp only [free, hc.released, hunsignalled]
  · intro u x hx
    exact hs.seated u x (hc.suspended ▸ hx)
  · intro u g hg
    exact Nat.lt_of_lt_of_eq (hs.behind u g hg) hc.gates.symm
  · exact hs.own
  · exact fun _ => hattached
  · intro hd
    exact hc.suspended.trans (hs.drained (hdrained hd))

theorem drain (hs : Sound s) (hteardown : s.teardown = .disconnected) :
    Sound { s with
      coordinator := s.coordinator.drain.2, teardown := .opening s.coordinator.drain.1 } where
  balanced := by
    refine hs.balanced.handed rfl rfl (fun g => ?_) (fun g => ?_)
    · simp only [shut, Coordinator.drain, hteardown, Teardown.unopened, holders_append,
        Table.values_empty, holders_nil]
      omega
    · simp only [free, Coordinator.drain, hteardown, Teardown.unsignalled]
  seated := by simp [Coordinator.drain]
  behind := hs.behind
  own := hs.own
  attached := fun _ => hs.attached (by simp [hteardown])
  drained := fun _ => rfl

theorem openDrained (hs : Sound s) {left : List (Suspension C)}
    (hteardown : s.teardown = .opening (x :: left)) :
    Sound { s with opened := x.gate :: s.opened, teardown := .signalling x left } where
  balanced := by
    refine hs.balanced.openGate (x := x) rfl rfl (fun g => ?_) (fun g => ?_)
    · simp only [shut, hteardown, Teardown.unopened, holders_append, holders_cons]
      omega
    · simp only [free, hteardown, Teardown.unsignalled, holders_append, holders_cons]
      omega
  seated := hs.seated
  behind := hs.behind
  own := hs.own
  attached := fun _ => hs.attached (by simp [hteardown])
  drained := fun _ => hs.drained (by simp [hteardown, Teardown.drained])

theorem signalDrained (hs : Sound s) {left : List (Suspension C)}
    (hteardown : s.teardown = .signalling x left) :
    Sound { s with coordinator := s.coordinator.release x, teardown := .opening left } where
  balanced := by
    refine hs.balanced.handed rfl rfl (fun g => ?_) (fun g => ?_)
    · simp only [shut, hteardown, Teardown.unopened, Coordinator.release]
    · simp [free, hteardown, Teardown.unsignalled, Coordinator.release]
  seated := hs.seated
  behind := hs.behind
  own := hs.own
  attached := fun _ => hs.attached (by simp [hteardown])
  drained := fun _ => hs.drained (by simp [hteardown, Teardown.drained])

theorem endSession (hs : Sound s) : Sound s.endSession := by
  cases hteardown : s.teardown with
  | idle =>
    simp only [System.endSession, hteardown]
    exact hs.proceed hteardown ⟨rfl, rfl, rfl⟩ rfl rfl rfl id
  | closed | unfiltered | muted | stepsDropped | pausesDropped | pendingDropped =>
    have hattached : s.coordinator.attached = false := hs.attached (by simp [hteardown])
    simp only [System.endSession, hteardown]
    exact hs.proceed hteardown ⟨rfl, rfl, rfl⟩ rfl rfl hattached id
  | disconnected =>
    simp only [System.endSession, hteardown]
    exact hs.drain hteardown
  | opening left =>
    cases left with
    | nil =>
      have hattached : s.coordinator.attached = false := hs.attached (by simp [hteardown])
      simp only [System.endSession, hteardown]
      exact hs.proceed hteardown ⟨rfl, rfl, rfl⟩ rfl rfl hattached id
    | cons x left =>
      simp only [System.endSession, hteardown]
      exact hs.openDrained hteardown
  | signalling x left =>
    simp only [System.endSession, hteardown]
    exact hs.signalDrained hteardown
  | returned =>
    simp only [System.endSession, hteardown]
    exact hs

theorem work (hs : Sound s) (t : ThreadId) : Sound (s.work t) := by
  cases hplace : s.places t with
  | running =>
    rw [work_of_running hplace]
    exact hs
  | stepDropped h | pauseDropped h =>
    have hown : Context.thread h.context = t := hs.own t h (by rw [hplace]; rfl)
    simp only [System.work, hplace]
    refine hs.seat hplace ⟨rfl, rfl, rfl⟩ rfl rfl ?_
    rintro _ ⟨⟩
    exact hown
  | refreshed h =>
    cases hpark : s.coordinator.park? h.context h.file h.line h.stop with
    | some c =>
      rw [work_of_refreshed hplace hpark]
      exact hs.park hplace hpark
    | none =>
      rw [work_of_refused hplace hpark]
      exact hs.seat hplace ⟨rfl, rfl, rfl⟩ rfl rfl (by simp [Place.halt?])
  | parked g n =>
    have hattached : (s.coordinator.notify n).attached = s.coordinator.attached :=
      congrArg Setup.attached (Coordinator.notify_setup _ _)
    rw [work_of_parked hplace]
    exact hs.seat hplace (notify_unmoved _ n) hattached rfl (by simp [Place.halt?])
  | waiting g =>
    simp only [System.work, hplace]
    split
    · rename_i hopen
      exact hs.wake hplace hopen
    · exact hs

theorem move (hs : Sound s) (m : Move C) : Sound (s.move m) := by
  cases m with
  | attach consoleOutput =>
    simp only [System.move]
    split
    · rename_i hidle
      exact ⟨hs.balanced.handed rfl rfl (fun _ => rfl) (fun _ => rfl), hs.seated, hs.behind, hs.own,
        fun hne => absurd hidle hne, hs.drained⟩
    · exact hs
  | halt h =>
    cases hplace : s.places (Context.thread h.context) with
    | running =>
      rw [halt_of_running hplace]
      refine hs.seat hplace ⟨rfl, rfl, rfl⟩ rfl rfl ?_
      rintro _ ⟨⟩
      rfl
    | _ =>
      simp only [System.move, hplace]
      exact hs
  | work t => exact hs.work t
  | resume t =>
    simp only [System.move]
    split
    · rename_i htake
      exact hs.take htake
    · exact hs
  | openGate i =>
    simp only [System.move]
    split
    · rename_i hx
      exact hs.openGate hx
    · exact hs
  | signal i =>
    simp only [System.move]
    split
    · rename_i hx
      exact hs.signal hx
    · exact hs
  | detach => exact hs.endSession

theorem run (hs : Sound s) (ms : List (Move C)) : Sound (s.run ms) := by
  induction ms generalizing s with
  | nil => exact hs
  | cons m ms ih => exact ih (hs.move m)

/-- A closed gate is that of an entry in the table or on its way out. -/
theorem holder_of_shut (hs : Sound s) {g : Nat} (hg : g < s.coordinator.gates)
    (hshut : g ∉ s.opened) : ∃ x, x.gate = g ∧ ((∃ t, s.coordinator.suspended.get? t = some x) ∨
      x ∈ s.taken ∨ x ∈ s.teardown.unopened) := by
  have howned := hs.balanced.owned g
  rw [hs.balanced.opened] at hshut
  rw [if_pos hg] at howned
  obtain ⟨x, hx, hgate⟩ := holders_pos.mp (show 0 < holders g s.shut by omega)
  refine ⟨x, hgate, ?_⟩
  simp only [shut, List.mem_append, Table.mem_values, or_assoc] at hx
  exact hx

/-- No context is told twice to go on from one wait. -/
theorem released_nodup (hs : Sound s) : (s.coordinator.released.map (·.gate)).Nodup := by
  refine List.nodup_iff_count.mpr fun g => ?_
  have howned := hs.balanced.owned g
  simp only [free, holders_append] at howned
  rw [count_gate]
  split at howned <;> omega

end Sound

/-! ## After the end of the session -/

/-- The end of the session is over and no release is under way. -/
structure Finished (s : System C) : Prop where
  returned : s.teardown = .returned
  taken : s.taken = []
  freed : s.freed = []

namespace Finished
variable {s : System C}

theorem suspended_eq (hf : Finished s) (hs : Sound s) : s.coordinator.suspended = ∅ :=
  hs.drained (by rw [hf.returned]; rfl)

theorem shut_eq (hf : Finished s) (hs : Sound s) : s.shut = [] := by
  simp [shut, hf.suspended_eq hs, hf.taken, hf.returned, Teardown.unopened]

theorem mem_opened (hf : Finished s) (hs : Sound s) {g : Nat} (hg : g < s.coordinator.gates) :
    g ∈ s.opened := by
  have howned := hs.balanced.owned g
  rw [hf.shut_eq hs, if_pos hg] at howned
  rw [hs.balanced.opened]
  simp only [holders_nil] at howned
  omega

theorem not_blocked (hf : Finished s) (hs : Sound s) (t : ThreadId) : ¬Blocked s t := by
  rintro ⟨g, hplace, hshut⟩
  have hg : g < s.coordinator.gates := hs.behind t g (by rw [hplace]; rfl)
  exact hshut (hf.mem_opened hs hg)

theorem released_perm (hf : Finished s) (hs : Sound s) :
    (s.coordinator.released.map (·.gate)).Perm (List.range s.coordinator.gates) := by
  refine List.perm_iff_count.mpr fun g => ?_
  have howned := hs.balanced.owned g
  rw [hf.shut_eq hs] at howned
  simp only [free, hf.freed, hf.returned, Teardown.unsignalled, holders_nil, holders_append,
    Nat.zero_add] at howned
  rw [count_gate, howned, List.count_range]

/-- Afterwards nothing begins: threads find that the client has gone, and releases find no entry. -/
theorem move (hf : Finished s) (hs : Sound s) (m : Move C) :
    Finished (s.move m) ∧ (s.move m).coordinator.gates = s.coordinator.gates := by
  have hattached : s.coordinator.attached = false := hs.attached (by simp [hf.returned])
  cases m with
  | attach consoleOutput =>
    simp only [System.move, hf.returned]
    exact ⟨hf, trivial⟩
  | halt h =>
    simp only [System.move]
    split
    · exact ⟨⟨hf.returned, hf.taken, hf.freed⟩, rfl⟩
    · exact ⟨hf, rfl⟩
  | work t =>
    cases hplace : s.places t with
    | running =>
      simp only [System.move, work_of_running hplace]
      exact ⟨hf, trivial⟩
    | stepDropped h | pauseDropped h =>
      simp only [System.move, work, hplace]
      exact ⟨⟨hf.returned, hf.taken, hf.freed⟩, rfl⟩
    | refreshed h =>
      -- The thread was on its way when the session ended.
      have hpark : s.coordinator.park? h.context h.file h.line h.stop = none := by
        simp [Coordinator.park?, hattached]
      simp only [System.move, work_of_refused hplace hpark]
      exact ⟨⟨hf.returned, hf.taken, hf.freed⟩, rfl⟩
    | parked g n =>
      simp only [System.move, work_of_parked hplace]
      exact ⟨⟨hf.returned, hf.taken, hf.freed⟩, (notify_unmoved _ n).gates⟩
    | waiting g =>
      simp only [System.move, work, hplace]
      split
      · exact ⟨⟨hf.returned, hf.taken, hf.freed⟩, rfl⟩
      · exact ⟨hf, rfl⟩
  | resume t =>
    have htake : s.coordinator.take? t = none := by
      simp [Coordinator.take?, hf.suspended_eq hs]
    simp only [System.move, htake]
    exact ⟨hf, trivial⟩
  | openGate i =>
    simp only [System.move, hf.taken, List.getElem?_nil]
    exact ⟨hf, trivial⟩
  | signal i =>
    simp only [System.move, hf.freed, List.getElem?_nil]
    exact ⟨hf, trivial⟩
  | detach =>
    simp only [System.move, endSession, hf.returned]
    exact ⟨hf, trivial⟩

theorem run (hf : Finished s) (hs : Sound s) (ms : List (Move C)) :
    Finished (s.run ms) ∧ (s.run ms).coordinator.gates = s.coordinator.gates := by
  induction ms generalizing s with
  | nil => exact ⟨hf, rfl⟩
  | cons m ms ih =>
    obtain ⟨hmove, hgates⟩ := hf.move hs m
    obtain ⟨hrun, hgates'⟩ := ih hmove (hs.move m)
    exact ⟨hrun, hgates'.trans hgates⟩

end Finished

/-- Under every schedule, a closed gate is that of an entry in the table or of one taken out whose
release has yet to open it, and no context is told twice to go on from one wait. Once the end of the
session is over and no release is under way, each context has been told, the table is empty, all
gates are open, and whatever happens later there is no new gate and no blocked thread. -/
theorem teardown_strands_none (fold : Path.Folding) (ms : List (Move C)) :
    let s := (start fold : System C).run ms
    (∀ g, g < s.coordinator.gates → g ∉ s.opened → ∃ x, x.gate = g ∧
      ((∃ t, s.coordinator.suspended.get? t = some x) ∨ x ∈ s.taken ∨ x ∈ s.teardown.unopened)) ∧
    (s.coordinator.released.map (·.gate)).Nodup ∧
    (Finished s →
      (s.coordinator.released.map (·.gate)).Perm (List.range s.coordinator.gates) ∧
      ∀ later, let s' := s.run later
        s'.coordinator.suspended = ∅ ∧ s'.coordinator.gates = s.coordinator.gates ∧
          (∀ g, g < s.coordinator.gates → g ∈ s'.opened) ∧ ∀ t, ¬Blocked s' t) := by
  intro s
  have hs : Sound s := (sound_start fold).run ms
  refine ⟨fun g hg hshut => hs.holder_of_shut hg hshut, hs.released_nodup, fun hf => ?_⟩
  refine ⟨hf.released_perm hs, fun later => ?_⟩
  intro s'
  have hs' : Sound s' := hs.run later
  obtain ⟨hf', hgates⟩ := hf.run hs later
  refine ⟨hf'.suspended_eq hs', hgates, fun g hg => ?_, hf'.not_blocked hs'⟩
  exact hf'.mem_opened hs' (Nat.lt_of_lt_of_eq hg hgates.symm)

/-- One thread is released while the session ends, one is drained, and one comes too late. -/
def crossing : List (Move DescribedThread) :=
  let stop (t : ThreadId) : Halt DescribedThread :=
    ⟨⟨t, "thread", [], []⟩, "a", 1, { reason := .pause }⟩
  [.attach false, .halt (stop 10), .work 10, .work 10, .work 10, .work 10, .halt (stop 11),
    .work 11, .resume 10, .work 11, .work 11, .detach, .halt (stop 12), .work 12, .work 12,
    .detach, .work 12, .detach, .detach, .detach, .openGate 0, .detach, .work 10, .detach, .signal 0,
    .detach, .detach, .detach, .detach]

theorem teardown_strands_none_crossing :
    let s := (start .exact : System DescribedThread).run crossing
    Finished s ∧ s.coordinator.gates = 2 ∧
      (s.coordinator.released.map (·.gate)).Perm [0, 1] ∧
      ¬Blocked (s.run [.work 11, .halt ⟨⟨11, "thread", [], []⟩, "a", 2, { reason := .step }⟩]) 11 := by
  intro s
  have hf : Finished s := ⟨rfl, rfl, rfl⟩
  obtain ⟨_, _, hfinished⟩ := teardown_strands_none (C := DescribedThread) .exact crossing
  obtain ⟨hreleased, hlater⟩ := hfinished hf
  exact ⟨hf, rfl, hreleased, (hlater _).2.2.2 11⟩

end DebugAdapter.System
