import DebugAdapter.Proofs.Wire.Teardown
import Mathlib.Data.List.Induction

/-!
# Announcements that come too late

An announcement adds its exception some time after it has looked for a client. If in between the
client has gone and the announcements have been dropped, the exception stays behind (`Stray`); all
that is announced after a session is of this kind (`pending_iff_stray`).
-/

namespace DebugAdapter.Wire.Course

variable {C : Type} [Context C] {s : Course C} {x : Store C} {t : ThreadId} {e : Exception}
  {m : Section C}

/-- The end begins with a piece of the stream and goes on store by store. -/
theorem closing_after (s : Course C) (m : Section C) :
    (s.after m).closing = s.closing ∨
      (s.closing = none ∧ (s.after m).closing = some Store.all) ∨
      ∃ y rest, m = .close ∧ s.closing = some (y :: rest) ∧
        s.after m = { s with
          debugger := (s.debugger.store y).1
          closing := some ((s.debugger.store y).2 ++ rest) } := by
  cases m with
  | receive bytes ended p =>
    cases hclosing : s.closing with
    | some todo =>
      left
      simp only [after, hclosing, Option.isSome_some, if_true]
    | none =>
      rw [after_receive hclosing]
      dsimp only
      generalize conclusion _ _ = e
      cases e with
      | none => exact Or.inl rfl
      | some e => exact Or.inr (Or.inl ⟨rfl, rfl⟩)
  | close =>
    rw [after]
    split
    · rename_i y rest hclosing
      exact Or.inr (Or.inr ⟨y, rest, rfl, hclosing, rfl⟩)
    · exact Or.inl rfl
  | forward | touch => exact Or.inl rfl
  | ask | look | note =>
    left
    rw [after]
    repeat' split
    all_goals rfl

theorem past_run (hall : x ∈ Store.all) (h : s.Past x) (ms : List (Section C)) :
    (s.run ms).Past x := by
  refine run_keeps (P := fun _ o => ∃ todo, o = some todo ∧ x ∉ todo) ?_ ?_ ?_ ?_ ?_ ?_ h ms
  · rintro d p m ⟨todo, hnone, _⟩
    contradiction
  · rintro d ⟨todo, hnone, _⟩
    contradiction
  · rintro d y rest ⟨todo, htodo, hpast⟩
    cases htodo
    refine ⟨_, rfl, ?_⟩
    intro hmem
    rcases List.mem_append.mp hmem with hmore | hleft
    · obtain ⟨z, rfl⟩ := Store.mem_store hmore
      simp [Store.all] at hall
    · exact hpast (List.mem_cons_of_mem y hleft)
  · exact fun d y o h => h
  · exact fun d t e o h => h
  · exact fun d o h => h

/-- A store is made at one moment. -/
theorem past_begins (hall : x ∈ Store.all) (hleft : ¬s.Past x) (hpast : (s.after m).Past x) :
    ∃ rest, m = .close ∧ s.closing = some (x :: rest) ∧
      s.after m = { s with
        debugger := (s.debugger.store x).1
        closing := some ((s.debugger.store x).2 ++ rest) } := by
  obtain ⟨todo, htodo, hx⟩ := hpast
  rcases closing_after s m with hsame | ⟨_, hbegins⟩ | ⟨y, rest, rfl, hclosing, hafter⟩
  · exact absurd ⟨todo, hsame ▸ htodo, hx⟩ hleft
  · rw [hbegins] at htodo
    cases htodo
    exact absurd hall hx
  · rw [hafter] at htodo
    cases htodo
    by_cases hxy : x = y
    · subst hxy
      exact ⟨rest, rfl, hclosing, hafter⟩
    · refine absurd ⟨y :: rest, hclosing, ?_⟩ hleft
      intro hmem
      rcases List.mem_cons.mp hmem with hsame | hrest
      · exact hxy hsame
      · exact hx (List.mem_append_right _ hrest)

/-- Only a thread of its own gets on with an announcement. -/
theorem notices_after_of_ne (h : m.announcer? ≠ some t) : (s.after m).notices t = s.notices t := by
  cases m with
  | forward | touch => rfl
  | receive | close =>
    rw [after]
    split <;> rfl
  | ask u | look u | note u =>
    have hu : t ≠ u := by
      rintro rfl
      exact h rfl
    rw [after]
    repeat' split
    all_goals first | rfl | exact if_neg hu

/-- Who is going to add an exception has been before, or has just seen that a client is there. -/
theorem due_of_after (h : (s.after m).notices t = .due e) :
    s.notices t = .due e ∨ s.debugger.coordinator.attached = true := by
  by_cases hm : m.announcer? = some t
  · cases m with
    | receive | close | forward | touch => contradiction
    | ask u =>
      cases hm
      rw [after] at h
      split at h
      · split at h
        · rw [notice_notices_self] at h
          contradiction
        · exact Or.inl h
      · exact Or.inl h
    | look u =>
      cases hm
      rw [after] at h
      split at h
      · rw [notice_notices_self] at h
        cases hattached : s.debugger.coordinator.attached with
        | true => exact Or.inr rfl
        | false =>
          rw [hattached, if_neg Bool.false_ne_true] at h
          contradiction
      · exact Or.inl h
    | note u =>
      cases hm
      rw [after] at h
      split at h
      · rw [notice_notices_self] at h
        contradiction
      · exact Or.inl h
  · rw [notices_after_of_ne hm] at h
    exact Or.inl h

/-- Who has added its exception is done. -/
theorem not_due_after_note (s : Course C) (t : ThreadId) (e : Exception) :
    (s.after (.note t)).notices t ≠ .due e := by
  rw [after]
  split
  · rw [notice_notices_self]
    exact Notice.noConfusion
  · rename_i hother
    exact hother e

theorem pending_touch (d : Debugger C) {x : Touch C} (hx : ∀ u, x ≠ .dropPending u) :
    (d.touch x).coordinator.pending = d.coordinator.pending := by
  cases x with
  | dropPending u => exact absurd rfl (hx u)
  | park h =>
    simp only [Debugger.touch, Coordinator.touch, Coordinator.park?]
    repeat' split
    all_goals rfl
  | send n =>
    simp only [Debugger.touch, Coordinator.touch, Coordinator.notify]
    split <;> rfl
  | _ => rfl

omit [Context C] in
theorem pending_store (d : Debugger C) {x : Store C} (hx : x ≠ .pending) :
    (d.store x).1.coordinator.pending = d.coordinator.pending := by
  cases x with
  | pending => contradiction
  | _ => rfl

/-- Once all exceptions have been dropped, they change by sections of their own threads. -/
theorem pending_after (hpast : s.Past .pending) (hdrop : m ≠ .touch (.dropPending t))
    (hnote : m = .note t → ∀ e, s.notices t ≠ .due e) :
    (s.after m).debugger.coordinator.pending.get? t = s.debugger.coordinator.pending.get? t := by
  obtain ⟨todo, hclosing, hdropped⟩ := hpast
  cases m with
  | receive bytes ended p =>
    rw [after, hclosing, Option.isSome_some, if_pos rfl]
  | forward => rfl
  | close =>
    rw [after, hclosing]
    cases todo with
    | nil => rfl
    | cons x rest =>
      have hx : x ≠ .pending := by
        rintro rfl
        exact hdropped List.mem_cons_self
      exact congrArg (Table.get? · t) (pending_store s.debugger hx)
  | touch x =>
    by_cases hx : ∃ u, x = .dropPending u
    · obtain ⟨u, rfl⟩ := hx
      have hu : t ≠ u := by
        rintro rfl
        exact hdrop rfl
      change (s.debugger.coordinator.pending.erase u).get? t = _
      rw [Table.get?_erase, if_neg hu]
    · exact congrArg (Table.get? · t) (pending_touch s.debugger fun u hu => hx ⟨u, hu⟩)
  | ask | look =>
    rw [after]
    repeat' split
    all_goals rfl
  | note u =>
    rw [after]
    split
    · rename_i e he
      have hu : t ≠ u := by
        rintro rfl
        exact hnote rfl e he
      change (s.debugger.coordinator.pending.insert u e).get? t = _
      rw [Table.get?_insert, if_neg hu]
    · rfl

theorem pending_after_drop (s : Course C) (t : ThreadId) :
    (s.after (.touch (.dropPending t))).debugger.coordinator.pending.get? t = none := by
  change (s.debugger.coordinator.pending.erase t).get? t = none
  rw [Table.get?_erase, if_pos rfl]

theorem pending_after_note (h : s.notices t = .due e) :
    (s.after (.note t)).debugger.coordinator.pending.get? t = some e := by
  rw [after, h]
  change (s.debugger.coordinator.pending.insert t e).get? t = some e
  rw [Table.get?_insert, if_pos rfl]

/-- An exception that has been added after all had been dropped, and not taken up since. -/
def Late (s : Course C) (ms : List (Section C)) (t : ThreadId) (e : Exception) : Prop :=
  ∃ before behind, ms = before ++ .note t :: behind ∧ (s.run before).notices t = .due e ∧
    (s.run before).Past .pending ∧ .touch (.dropPending t) ∉ behind

theorem run_concat (s : Course C) (ms : List (Section C)) (m : Section C) :
    s.run (ms ++ [m]) = (s.run ms).after m := run_append s ms [m]

theorem late_concat {ms : List (Section C)} : s.Late (ms ++ [m]) t e ↔
    (m = .note t ∧ (s.run ms).notices t = .due e ∧ (s.run ms).Past .pending) ∨
      (m ≠ .touch (.dropPending t) ∧ s.Late ms t e) := by
  constructor
  · rintro ⟨before, behind, hms, hdue, hpast, hkept⟩
    rcases List.eq_nil_or_concat behind with rfl | ⟨behind, last, rfl⟩
    · obtain ⟨rfl, hm⟩ := List.append_inj' hms rfl
      cases hm
      exact Or.inl ⟨rfl, hdue, hpast⟩
    · rw [List.concat_eq_append, ← List.cons_append, ← List.append_assoc] at hms
      obtain ⟨rfl, hm⟩ := List.append_inj' hms rfl
      cases hm
      rw [List.concat_eq_append, List.mem_append, not_or] at hkept
      refine Or.inr ⟨?_, before, behind, rfl, hdue, hpast, hkept.1⟩
      rintro rfl
      exact hkept.2 List.mem_cons_self
  · rintro (⟨rfl, hdue, hpast⟩ | ⟨hm, before, behind, rfl, hdue, hpast, hkept⟩)
    · exact ⟨ms, [], rfl, hdue, hpast, List.not_mem_nil⟩
    · refine ⟨before, behind ++ [m], by simp, hdue, hpast, ?_⟩
      rw [List.mem_append, not_or]
      exact ⟨hkept, fun hmem => hm (List.mem_singleton.mp hmem).symm⟩

omit [Context C] in
theorem Orderly.attached (h : s.Orderly) (hpast : s.Past .attached) :
    s.debugger.coordinator.attached = false := by
  obtain ⟨todo, htodo, hx⟩ := hpast
  exact (h todo htodo).attached hx

omit [Context C] in
theorem Orderly.past_attached (h : s.Orderly) (hpast : s.Past .pending) : s.Past .attached := by
  obtain ⟨todo, htodo, hx⟩ := hpast
  exact ⟨todo, htodo, (h todo htodo).attached_of_pending hx⟩

/-- Once the client has gone, nobody is going to add an exception who has not been before. -/
theorem due_of_run (h : s.Orderly) (hpast : s.Past .attached) {ms : List (Section C)}
    (hdue : (s.run ms).notices t = .due e) : s.notices t = .due e ∧ .note t ∉ ms := by
  induction ms generalizing s with
  | nil => exact ⟨hdue, List.not_mem_nil⟩
  | cons m ms ih =>
    obtain ⟨hafter, hms⟩ := ih (h.run [m]) (past_run (by simp [Store.all]) hpast [m]) hdue
    rcases due_of_after hafter with hbefore | hattached
    · refine ⟨hbefore, ?_⟩
      intro hmem
      rcases List.mem_cons.mp hmem with rfl | hmem
      · exact not_due_after_note s t e hafter
      · exact hms hmem
    · rw [h.attached hpast] at hattached
      contradiction

theorem Late.not_due (h : s.Orderly) {ms : List (Section C)} (hlate : s.Late ms t e)
    (e' : Exception) : (s.run ms).notices t ≠ .due e' := by
  obtain ⟨before, behind, rfl, hdue, hpast, _⟩ := hlate
  intro hagain
  have hgone := (h.run before).past_attached hpast
  rw [run_append] at hagain
  exact (due_of_run (h.run before) hgone hagain).2 List.mem_cons_self

theorem pending_iff_late (h : s.Orderly) (hopen : ¬s.Past .pending) {ms : List (Section C)}
    (hpast : (s.run ms).Past .pending) :
    (s.run ms).debugger.coordinator.pending.get? t = some e ↔ s.Late ms t e := by
  induction ms using List.reverseRecOn with
  | nil => exact absurd hpast hopen
  | append_singleton ms m ih =>
    rw [run_concat] at hpast ⊢
    rw [late_concat]
    by_cases hearlier : (s.run ms).Past .pending
    · by_cases hdrop : m = .touch (.dropPending t)
      · subst hdrop
        rw [pending_after_drop]
        simp
      · by_cases hnote : ∃ e', m = .note t ∧ (s.run ms).notices t = .due e'
        · obtain ⟨e', rfl, hdue⟩ := hnote
          rw [pending_after_note hdue, hdue]
          constructor
          · rintro ⟨⟩
            exact Or.inl ⟨rfl, rfl, hearlier⟩
          · rintro (⟨_, hsame, _⟩ | ⟨_, hlate⟩)
            · cases hsame
              rfl
            · exact absurd hdue (hlate.not_due h e')
        · have hother : m = .note t → ∀ e, (s.run ms).notices t ≠ .due e :=
            fun hm e hdue => hnote ⟨e, hm, hdue⟩
          rw [pending_after hearlier hdrop hother, ih hearlier]
          constructor
          · exact fun hlate => Or.inr ⟨hdrop, hlate⟩
          · rintro (⟨hm, hdue, _⟩ | ⟨_, hlate⟩)
            · exact absurd hdue (hother hm e)
            · exact hlate
    · -- This is where all are dropped, so nothing can have been added after it.
      obtain ⟨rest, rfl, _, hafter⟩ := past_begins (by simp [Store.all]) hearlier hpast
      rw [hafter]
      constructor
      · intro hsome
        contradiction
      · rintro (⟨hm, _⟩ | ⟨_, before, behind, rfl, _, hdropped, _⟩)
        · contradiction
        · rw [run_append] at hearlier
          exact absurd (past_run (by simp [Store.all]) hdropped _) hearlier

/-! ## Who adds them -/

/-- An announcement that the end of a session misses. Its thread has seen that a client is there,
before the client has gone; it adds its exception when the announced ones have been dropped, and does
not take it up. -/
def Stray (s : Course C) (ms : List (Section C)) (t : ThreadId) (e : Exception) : Prop :=
  ∃ before between behind, ms = before ++ between ++ .note t :: behind ∧
    (s.run before).notices t = .due e ∧ ¬(s.run before).Past .attached ∧
    .note t ∉ between ∧ (s.run (before ++ between)).Past .pending ∧
    .touch (.dropPending t) ∉ behind

theorem due_after (h : s.notices t = .due e) (hm : m ≠ .note t) : (s.after m).notices t = .due e := by
  by_cases hown : m.announcer? = some t
  · cases m with
    | receive | close | forward | touch => contradiction
    | ask | look =>
      cases hown
      rw [after, h]
      exact h
    | note =>
      cases hown
      exact absurd rfl hm
  · rw [notices_after_of_ne hown]
    exact h

theorem due_run (h : s.notices t = .due e) {ms : List (Section C)} (hms : .note t ∉ ms) :
    (s.run ms).notices t = .due e := by
  induction ms generalizing s with
  | nil => exact h
  | cons m ms ih =>
    rw [List.mem_cons, not_or] at hms
    exact ih (due_after h (Ne.symm hms.1)) hms.2

theorem exists_begins (hall : x ∈ Store.all) (hleft : ¬s.Past x) {ms : List (Section C)}
    (hpast : (s.run ms).Past x) :
    ∃ before behind, ms = before ++ .close :: behind ∧ ¬(s.run before).Past x ∧
      ((s.run before).after .close).Past x := by
  induction ms generalizing s with
  | nil => exact absurd hpast hleft
  | cons m ms ih =>
    by_cases hafter : (s.after m).Past x
    · obtain ⟨_, rfl, _⟩ := past_begins hall hleft hafter
      exact ⟨[], ms, rfl, hleft, hafter⟩
    · obtain ⟨before, behind, rfl, hnot, hbegins⟩ := ih hafter hpast
      exact ⟨m :: before, behind, rfl, hnot, hbegins⟩

theorem late_iff_stray (h : s.Orderly) (hopen : ¬s.Past .attached) {ms : List (Section C)} :
    s.Late ms t e ↔ s.Stray ms t e := by
  constructor
  · rintro ⟨early, behind, rfl, hdue, hdropped, hkept⟩
    have hgone := (h.run early).past_attached hdropped
    obtain ⟨before, between, rfl, hthere, hleaves⟩ := exists_begins (by simp [Store.all]) hopen hgone
    -- From the store by which the client goes back to where it was still there, nothing changes.
    have hsplit : s.run (before ++ .close :: between) = ((s.run before).after .close).run between := by
      rw [run_append]
      rfl
    rw [hsplit] at hdue
    obtain ⟨hafter, hbetween⟩ := due_of_run ((h.run before).run [.close]) hleaves hdue
    have hlooked : (s.run before).notices t = .due e := by
      rw [← notices_after_of_ne (m := .close) (Option.some_ne_none t).symm]
      exact hafter
    refine ⟨before, .close :: between, behind, rfl, hlooked, hthere, ?_, hdropped, hkept⟩
    intro hmem
    rcases List.mem_cons.mp hmem with hclose | hmem
    · contradiction
    · exact hbetween hmem
  · rintro ⟨before, between, behind, rfl, hdue, _, hbetween, hdropped, hkept⟩
    refine ⟨before ++ between, behind, rfl, ?_, hdropped, hkept⟩
    rw [run_append]
    exact due_run hdue hbetween

theorem pending_iff_stray (hopen : s.closing = none) {ms : List (Section C)}
    (hpast : (s.run ms).Past .pending) (t : ThreadId) (e : Exception) :
    (s.run ms).debugger.coordinator.pending.get? t = some e ↔ s.Stray ms t e := by
  have hnothing : ∀ x, ¬s.Past x := by
    rintro x ⟨todo, htodo, _⟩
    rw [hopen] at htodo
    contradiction
  have horderly : s.Orderly := by
    intro todo htodo
    rw [hopen] at htodo
    contradiction
  rw [pending_iff_late horderly (hnothing .pending) hpast, late_iff_stray horderly (hnothing .attached)]

end DebugAdapter.Wire.Course
