import DebugAdapter.Proofs.Wire.Interleaving

/-!
# The end of a session on its way

The end of a session is made store by store while the threads of the debuggee go on. Each store
leaves something behind it (`Store.Done`). Once the client is gone neither another store nor a thread
does anything to that, so what is left of the end says what has been done (`Underway`).
-/

namespace DebugAdapter

variable {C : Type}

/-- What is so once a store has been made and the client is gone. -/
def Store.Done (d : Debugger C) : Store C → Prop
  | .session => d.session = none
  | .attached => d.coordinator.attached = false
  | .uncaught => d.coordinator.breakOnUncaught = false
  | .console => d.coordinator.consoleOutput = false
  | .receiver => d.coordinator.receiver = none
  | .drain => d.coordinator.suspended = ∅
  | .release _ | .pending => True
  | .steps => d.coordinator.steps = ∅
  | .pauses => d.coordinator.pauses = ∅
  | .refresh => d.coordinator.active = false
  | .frames => d.frames.frames = ∅ ∧ d.frames.byPosition = ∅ ∧ d.frames.exceptions = ∅
  | .pins => d.inspector.pins.entries = ∅ ∧ d.inspector.pins.order = []
  | .handles =>
    d.inspector.handles.byId = ∅ ∧ d.inspector.handles.byAddress = ∅ ∧
      d.inspector.handles.paths = ∅ ∧ d.inspector.handles.frames = ∅

theorem Coordinator.active_refresh {c : Coordinator C} (hgone : c.attached = false) :
    c.refresh.active = false := by
  rw [refresh, canStop, hgone, Bool.false_and]

namespace Store

variable {d : Debugger C} {x : Store C}

theorem done_self (hgone : d.coordinator.attached = false) (x : Store C) : x.Done (d.store x).1 := by
  cases x with
  | refresh => exact Coordinator.active_refresh hgone
  | release | pending => trivial
  | frames => exact ⟨rfl, rfl, rfl⟩
  | pins => exact ⟨rfl, rfl⟩
  | handles => exact ⟨rfl, rfl, rfl, rfl⟩
  | _ => rfl

/-- A store does nothing to what others have done. -/
theorem Done.store (h : x.Done d) (hgone : d.coordinator.attached = false) (y : Store C) :
    x.Done (d.store y).1 := by
  by_cases hxy : x = y
  · subst hxy
    exact done_self hgone x
  · cases x <;> cases y <;> first | exact h | exact absurd rfl hxy

/-- Only releases are added to what is left. -/
theorem exists_releases (d : Debugger C) (x : Store C) :
    ∃ waiting : List (Suspension C), (d.store x).2 = waiting.map .release := by
  cases x with
  | drain => exact ⟨d.coordinator.suspended.values, rfl⟩
  | _ => exact ⟨[], rfl⟩

theorem mem_store {y : Store C} (h : y ∈ (d.store x).2) : ∃ z, y = .release z := by
  obtain ⟨waiting, hwaiting⟩ := exists_releases d x
  rw [hwaiting] at h
  obtain ⟨z, _, rfl⟩ := List.mem_map.mp h
  exact ⟨z, rfl⟩

variable [Context C]

theorem Done.reclaim (h : x.Done d) (p : Debuggee) : x.Done (d.reclaim p).2 := by
  cases x with
  | pins =>
    obtain ⟨hentries, horder⟩ := h
    refine ⟨?_, ?_⟩
    · change (d.inspector.pins.purge d.inspector.now).2.entries = ∅
      rw [PinCache.purge, hentries]
      rfl
    · change (d.inspector.pins.purge d.inspector.now).2.order = []
      rw [PinCache.purge, horder]
      rfl
  | handles =>
    have hnothing : ∀ alive, (d.inspector.handles.reclaim alive).2 = d.inspector.handles := by
      intro alive
      rw [Handles.reclaim, Handles.dead, h.1]
      rfl
    have hhandles : (d.reclaim p).2.inspector.handles = d.inspector.handles := hnothing _
    simp only [Store.Done, hhandles]
    exact h
  | _ => exact h

/-- Nor does a thread, once the client is gone. -/
theorem Done.touch (h : x.Done d) (hgone : d.coordinator.attached = false) (y : Touch C) :
    x.Done (d.touch y) := by
  cases y with
  | reclaim p => exact h.reclaim p
  | park k =>
    have hrefused : ¬d.coordinator.parks k = true := by
      rw [Coordinator.parks, hgone, Bool.and_false]
      exact Bool.false_ne_true
    have hsame : d.touch (.park k) = d := by
      simp only [Debugger.touch, Coordinator.touch, if_neg hrefused]
    rw [hsame]
    exact h
  | refresh => exact h.store hgone .refresh
  | send n =>
    simp only [Debugger.touch, Coordinator.touch, Coordinator.notify]
    split
    · cases x <;> exact h
    · exact h
  | dropStep t =>
    cases x with
    | steps =>
      change d.coordinator.steps.erase t = ∅
      rw [show d.coordinator.steps = ∅ from h]
      rfl
    | _ => exact h
  | dropPause t =>
    cases x with
    | pauses =>
      change d.coordinator.pauses.erase t = ∅
      rw [show d.coordinator.pauses = ∅ from h]
      rfl
    | _ => exact h
  | dropPending | passTo | goOn => cases x <;> exact h

end Store

namespace Wire

/-! ## What is left of the end -/

/-- While the end is being made: the client is there until its second store, and from then on what
is not left has been done. -/
inductive Underway (d : Debugger C) (todo : List (Store C)) : Prop where
  | begun (htodo : todo = Store.all)
  | unbound (htodo : todo = Store.all.tail) (hsession : d.session = none)
  | gone (hgone : d.coordinator.attached = false) (hattached : .attached ∉ todo)
    (hdone : ∀ x, x ∉ todo → x.Done d)

namespace Underway

variable {d : Debugger C} {todo : List (Store C)}

theorem store {x : Store C} (h : Underway d (x :: todo)) :
    Underway (d.store x).1 ((d.store x).2 ++ todo) := by
  cases h with
  | begun htodo =>
    obtain ⟨rfl, rfl⟩ := List.cons.inj htodo
    exact .unbound rfl rfl
  | unbound htodo hsession =>
    obtain ⟨rfl, rfl⟩ := List.cons.inj htodo
    refine .gone rfl (by simp [Debugger.store]) ?_
    intro x hx
    cases x with
    | session => exact hsession
    | attached => rfl
    | release => trivial
    | _ => exact absurd (by simp [Debugger.store]) hx
  | gone hgone hattached hdone =>
    refine .gone (Store.Done.store (x := .attached) hgone hgone x) ?_ ?_
    · intro hmem
      rcases List.mem_append.mp hmem with hmore | hleft
      · obtain ⟨z, hz⟩ := Store.mem_store hmore
        contradiction
      · exact hattached (List.mem_cons_of_mem x hleft)
    · intro y hy
      by_cases hyx : y = x
      · rw [hyx]
        exact Store.done_self hgone x
      · refine (hdone y ?_).store hgone x
        intro hmem
        rcases List.mem_cons.mp hmem with hsame | hleft
        · exact hyx hsame
        · exact hy (List.mem_append_right _ hleft)

/-- What every step keeps of a debugger without a client, the end keeps on its way. -/
theorem keep (h : Underway d todo) {d' : Debugger C} (hsession : d'.session = d.session)
    (hdone : d.coordinator.attached = false → ∀ x : Store C, x.Done d → x.Done d') :
    Underway d' todo := by
  cases h with
  | begun htodo => exact .begun htodo
  | unbound htodo hnone => exact .unbound htodo (hsession.trans hnone)
  | gone hgone hattached hall =>
    exact .gone (hdone hgone .attached hgone) hattached fun x hx => hdone hgone x (hall x hx)

theorem attached (h : Underway d todo) (hpast : .attached ∉ todo) :
    d.coordinator.attached = false := by
  cases h with
  | begun htodo => exact absurd (htodo ▸ by simp [Store.all]) hpast
  | unbound htodo => exact absurd (htodo ▸ by simp [Store.all]) hpast
  | gone hgone => exact hgone

theorem attached_of_pending (h : Underway d todo) (hpast : .pending ∉ todo) : .attached ∉ todo := by
  cases h with
  | begun htodo => exact absurd (htodo ▸ by simp [Store.all]) hpast
  | unbound htodo => exact absurd (htodo ▸ by simp [Store.all]) hpast
  | gone _ hattached => exact hattached

end Underway

variable [Context C]

theorem touch_session (d : Debugger C) (x : Touch C) : (d.touch x).session = d.session := by
  cases x <;> rfl

/-- The end, if it has begun, is under way. -/
def Course.Orderly (s : Course C) : Prop := ∀ todo, s.closing = some todo → Underway s.debugger todo

theorem Course.Orderly.run {s : Course C} (h : s.Orderly) (ms : List (Section C)) :
    (s.run ms).Orderly := by
  refine Course.run_keeps (P := fun d o => ∀ todo, o = some todo → Underway d todo)
    ?_ ?_ ?_ ?_ ?_ ?_ h ms
  · intro d p m _ todo hnone
    contradiction
  · intro d _ todo htodo
    exact .begun (Option.some.inj htodo).symm
  · intro d x rest hd todo htodo
    cases htodo
    exact (hd _ rfl).store
  · intro d x o hd todo ho
    exact (hd todo ho).keep (touch_session d x) fun hgone y hy => hy.touch hgone x
  · intro d t e o hd todo ho
    exact (hd todo ho).keep rfl fun _ y hy => by cases y <;> exact hy
  · intro d o hd todo ho
    exact (hd todo ho).keep rfl fun _ y hy => by cases y <;> exact hy

end Wire

end DebugAdapter
