import DebugAdapter.Proofs.Script.Lines
import DebugAdapter.Proofs.Value.Memory
import DebugAdapter.Script.Stack

/-!
# Functions among values

A script comes by a function through values: of variables, of parameters, or on their way from a call
to its caller. `Carries vs d` says that a function with the definition `d` is among the values, or
inside one of them. Evaluation finds no other functions than those that variables carry
(`eval_carries`), and the stack gets no others than are assigned or passed.
-/

namespace DebugAdapter.Script

/-- A function with the definition is one of the values or part of one. -/
def Carries (vs : List Value) (d : FunctionDef) : Prop :=
  ∃ v fields, Value.Within vs v ∧ v.shape = .function d fields

/-- The definition is that of a shape, or of a function among its parts. -/
def ShapeCarries (s : Shape) (d : FunctionDef) : Prop :=
  (∃ fields, s = .function d fields) ∨ Carries s.parts d

section
variable {vs ws : List Value} {v : Value} {d : FunctionDef}

theorem not_carries_nil : ¬Carries [] d := by
  rintro ⟨v, fields, hv, _⟩
  exact Value.not_within_nil hv

theorem Carries.mono (h : Carries vs d) (hsub : vs ⊆ ws) : Carries ws d := by
  obtain ⟨v, fields, hv, hd⟩ := h
  exact ⟨v, fields, hv.mono hsub, hd⟩

theorem carries_append_iff : Carries (vs ++ ws) d ↔ Carries vs d ∨ Carries ws d := by
  constructor
  · rintro ⟨v, fields, hv, hd⟩
    exact (Value.within_append_iff.mp hv).imp (⟨v, fields, ·, hd⟩) (⟨v, fields, ·, hd⟩)
  · rintro (h | h)
    · exact h.mono (List.subset_append_left ..)
    · exact h.mono (List.subset_append_right ..)

theorem carries_cons_iff : Carries (v :: vs) d ↔ ShapeCarries v.shape d ∨ Carries vs d := by
  constructor
  · rintro ⟨w, fields, hw, hd⟩
    rcases Value.within_cons_iff.mp hw with rfl | hw | hw
    · exact Or.inl (Or.inl ⟨fields, hd⟩)
    · exact Or.inl (Or.inr ⟨w, fields, hw, hd⟩)
    · exact Or.inr ⟨w, fields, hw, hd⟩
  · rintro ((⟨fields, hd⟩ | ⟨w, fields, hw, hd⟩) | h)
    · exact ⟨v, fields, .held (List.mem_cons_self ..), hd⟩
    · exact ⟨w, fields, Value.within_cons_iff.mpr (Or.inr (Or.inl hw)), hd⟩
    · exact h.mono (List.subset_cons_self ..)

theorem carries_of_mem (hv : v ∈ vs) (h : ShapeCarries v.shape d) : Carries vs d := by
  have hone : Carries [v] d := carries_cons_iff.mpr (Or.inl h)
  exact hone.mono (List.cons_subset.mpr ⟨hv, List.nil_subset _⟩)

theorem carries_iff : Carries vs d ↔ ∃ v ∈ vs, ShapeCarries v.shape d := by
  constructor
  · intro h
    induction vs with
    | nil => exact absurd h not_carries_nil
    | cons v vs ih =>
      rcases carries_cons_iff.mp h with h | h
      · exact ⟨v, List.mem_cons_self .., h⟩
      · obtain ⟨w, hw, h⟩ := ih h
        exact ⟨w, List.mem_cons_of_mem _ hw, h⟩
  · rintro ⟨v, hv, h⟩
    exact carries_of_mem hv h

/-- A shape that neither is a function nor has parts. -/
def Plain (s : Shape) : Prop := (∀ d fields, s ≠ .function d fields) ∧ s.parts = []

theorem Plain.not_carries {s : Shape} (h : Plain s) : ¬ShapeCarries s d := by
  rintro (⟨fields, hs⟩ | hs)
  · exact h.1 d fields hs
  · rw [h.2] at hs
    exact not_carries_nil hs

end

/-! ## Evaluation -/

section
variable {a b s : Shape} {op : BinOp} {d : FunctionDef}

theorem plain_of_checked {n : Int} (h : checked n = .ok s) : Plain s := by
  unfold checked at h
  split at h
  · cases h
    exact ⟨nofun, rfl⟩
  · contradiction

theorem plain_of_arith (h : arith op a b = .ok s) : Plain s := by
  unfold arith at h
  split at h
  · unfold intArith at h
    split at h
    · exact plain_of_checked h
    · exact plain_of_checked h
    · split at h
      · contradiction
      · exact plain_of_checked h
    · exact plain_of_checked h
  · split at h
    · cases h
      exact ⟨nofun, rfl⟩
    · contradiction

theorem plain_of_ordered (h : ordered op a b = .ok s) : Plain s := by
  unfold ordered at h
  split at h
  · cases h
    exact ⟨nofun, rfl⟩
  · split at h
    · cases h
      exact ⟨nofun, rfl⟩
    · contradiction

theorem plain_of_negated (h : negated a = .ok s) : Plain s := by
  unfold negated at h
  split at h
  · exact plain_of_checked h
  · cases h
    exact ⟨nofun, rfl⟩
  · contradiction

theorem plus_carries (h : plus a b = .ok s) (hs : ShapeCarries s d) :
    ShapeCarries a d ∨ ShapeCarries b d := by
  unfold plus at h
  split at h
  · cases h
    exact absurd hs (Plain.not_carries ⟨nofun, rfl⟩)
  · cases h
    exact absurd hs (Plain.not_carries ⟨nofun, rfl⟩)
  · rename_i xs ys
    cases h
    rcases hs with ⟨fields, hs⟩ | hs
    · contradiction
    · exact (carries_append_iff.mp hs).imp Or.inr Or.inr
  · exact absurd hs (plain_of_arith h).not_carries

theorem binary_carries (h : binary op a b = .ok s) (hs : ShapeCarries s d) :
    ShapeCarries a d ∨ ShapeCarries b d := by
  unfold binary at h
  split at h
  · cases h
    exact absurd hs (Plain.not_carries ⟨nofun, rfl⟩)
  · cases h
    exact absurd hs (Plain.not_carries ⟨nofun, rfl⟩)
  · exact plus_carries h hs
  · exact absurd hs (plain_of_arith h).not_carries
  · exact absurd hs (plain_of_arith h).not_carries
  · exact absurd hs (plain_of_arith h).not_carries
  · exact absurd hs (plain_of_ordered h).not_carries

theorem fieldOf_carries {name : String} {v : Value} (h : fieldOf s name = .ok v)
    (hv : ShapeCarries v.shape d) : ShapeCarries s d := by
  unfold fieldOf at h
  split at h
  · split at h
    · rename_i hfind
      cases h
      exact Or.inr (carries_of_mem (List.mem_map_of_mem (List.mem_of_find?_eq_some hfind)) hv)
    · contradiction
  · contradiction

theorem mem_of_itemAt? {α : Type} {xs : List α} {n : Int} {x : α} (h : itemAt? xs n = some x) :
    x ∈ xs := by
  unfold itemAt? at h
  split at h
  · exact List.mem_of_getElem? h
  · contradiction

theorem indexed_carries {region n m : Nat} {k : Int} {v : Value}
    (h : indexed region s k n = .ok (v, m)) (hv : ShapeCarries v.shape d) : ShapeCarries s d := by
  unfold indexed at h
  split at h
  · contradiction
  · split at h
    · split at h
      · rename_i hitem
        cases h
        exact Or.inr (carries_of_mem (mem_of_itemAt? hitem) hv)
      · contradiction
    · rename_i columns rows
      split at h
      · rename_i row hrow
        cases h
        rcases hv with ⟨fields, hv⟩ | hv
        · contradiction
        · obtain ⟨w, hw, hd⟩ := carries_iff.mp hv
          obtain ⟨field, hfield, rfl⟩ := List.mem_map.mp hw
          have hcell : field.2 ∈ rows.flatten :=
            List.mem_flatten.mpr ⟨row, mem_of_itemAt? hrow, (List.of_mem_zip hfield).2⟩
          exact Or.inr (carries_of_mem hcell hd)
      · contradiction
    · contradiction

end

section
variable {region : Nat} {lookup : String → Option Value} {d : FunctionDef}

/-- A variable carries the function. -/
def Sees (lookup : String → Option Value) (d : FunctionDef) : Prop :=
  ∃ name v, lookup name = some v ∧ ShapeCarries v.shape d

mutual

/-- The functions in the value of an expression are those that its variables carry. -/
theorem eval_carries {e : Expr} {n m : Nat} {v : Value} (h : eval region lookup e n = .ok (v, m))
    (hv : ShapeCarries v.shape d) : Sees lookup d := by
  cases e with
  | null | bool | int | decimal | str =>
    rw [eval] at h
    cases h
    exact absurd hv (Plain.not_carries ⟨nofun, rfl⟩)
  | list items =>
    rw [eval] at h
    obtain ⟨⟨vs, k⟩, hitems, h⟩ := ok_of_bind h
    cases h
    rcases hv with ⟨fields, hv⟩ | hv
    · contradiction
    · exact evalAll_carries hitems hv
  | record fields =>
    rw [eval] at h
    obtain ⟨⟨vs, k⟩, hfields, h⟩ := ok_of_bind h
    cases h
    rcases hv with ⟨fields, hv⟩ | hv
    · contradiction
    · exact evalFields_carries hfields hv
  | table columns rows =>
    rw [eval] at h
    obtain ⟨⟨vs, k⟩, hrows, h⟩ := ok_of_bind h
    cases h
    rcases hv with ⟨fields, hv⟩ | hv
    · contradiction
    · exact evalRows_carries hrows hv
  | var name =>
    rw [eval] at h
    split at h
    · rename_i hlookup
      cases h
      exact ⟨name, v, hlookup, hv⟩
    · contradiction
  | field target name =>
    rw [eval] at h
    obtain ⟨⟨u, k⟩, htarget, h⟩ := ok_of_bind h
    obtain ⟨w, hw, h⟩ := ok_of_bind h
    cases h
    exact eval_carries htarget (fieldOf_carries hw hv)
  | index target position =>
    rw [eval] at h
    obtain ⟨⟨u, k⟩, htarget, h⟩ := ok_of_bind h
    obtain ⟨⟨i, l⟩, hposition, h⟩ := ok_of_bind h
    simp only at h
    split at h
    · exact eval_carries htarget (indexed_carries h hv)
    · contradiction
  | neg operand =>
    rw [eval] at h
    obtain ⟨⟨u, k⟩, hoperand, h⟩ := ok_of_bind h
    obtain ⟨s, hs, h⟩ := ok_of_bind h
    cases h
    exact absurd hv (plain_of_negated hs).not_carries
  | binary op left right =>
    rw [eval] at h
    obtain ⟨⟨a, k⟩, hleft, h⟩ := ok_of_bind h
    obtain ⟨⟨b, l⟩, hright, h⟩ := ok_of_bind h
    obtain ⟨s, hs, h⟩ := ok_of_bind h
    cases h
    rcases binary_carries hs hv with hv | hv
    · exact eval_carries hleft hv
    · exact eval_carries hright hv

theorem evalAll_carries {es : List Expr} {n m : Nat} {vs : List Value}
    (h : evalAll region lookup es n = .ok (vs, m)) (hvs : Carries vs d) : Sees lookup d := by
  cases es with
  | nil =>
    rw [evalAll] at h
    cases h
    exact absurd hvs not_carries_nil
  | cons e es =>
    rw [evalAll] at h
    obtain ⟨⟨v, k⟩, he, h⟩ := ok_of_bind h
    obtain ⟨⟨rest, l⟩, hes, h⟩ := ok_of_bind h
    cases h
    rcases carries_cons_iff.mp hvs with hv | hvs
    · exact eval_carries he hv
    · exact evalAll_carries hes hvs

theorem evalFields_carries {es : List (String × Expr)} {n m : Nat} {vs : List (String × Value)}
    (h : evalFields region lookup es n = .ok (vs, m)) (hvs : Carries (vs.map (·.2)) d) :
    Sees lookup d := by
  cases es with
  | nil =>
    rw [evalFields] at h
    cases h
    exact absurd hvs not_carries_nil
  | cons e es =>
    obtain ⟨name, e⟩ := e
    rw [evalFields] at h
    obtain ⟨⟨v, k⟩, he, h⟩ := ok_of_bind h
    obtain ⟨⟨rest, l⟩, hes, h⟩ := ok_of_bind h
    cases h
    rcases carries_cons_iff.mp hvs with hv | hvs
    · exact eval_carries he hv
    · exact evalFields_carries hes hvs

theorem evalRows_carries {rs : List (List Expr)} {n m : Nat} {vs : List (List Value)}
    (h : evalRows region lookup rs n = .ok (vs, m)) (hvs : Carries vs.flatten d) :
    Sees lookup d := by
  cases rs with
  | nil =>
    rw [evalRows] at h
    cases h
    exact absurd hvs not_carries_nil
  | cons r rs =>
    rw [evalRows] at h
    obtain ⟨⟨v, k⟩, hr, h⟩ := ok_of_bind h
    obtain ⟨⟨rest, l⟩, hrs, h⟩ := ok_of_bind h
    cases h
    rcases carries_append_iff.mp hvs with hv | hvs
    · exact evalAll_carries hr hv
    · exact evalRows_carries hrs hvs

end

end

/-! ## The stack -/

/-- The values of a scope's variables. -/
def Variables.all (v : Variables) : List Value := v.values.map (·.2)

theorem Variables.mem_all_of_get? {scope : Variables} {name : String} {v : Value}
    (h : scope.get? name = some v) : v ∈ scope.all := by
  obtain ⟨before, behind, hsplit, _⟩ := List.lookup_eq_some_iff.mp h
  rw [all, hsplit]
  simp

theorem Variables.mem_all_set {scope : Variables} {name : String} {v w : Value}
    (h : w ∈ (scope.set name v).all) : w = v ∨ w ∈ scope.all := by
  have hset : ∀ vs : List (String × Value), w ∈ (setIn name v vs).map (·.2) →
      w = v ∨ w ∈ vs.map (·.2) := by
    intro vs
    induction vs with
    | nil => exact fun h => Or.inl (List.mem_singleton.mp h)
    | cons u vs ih =>
      intro h
      rw [setIn] at h
      split at h
      · exact (List.mem_cons.mp h).imp_right (List.mem_cons_of_mem _)
      · rcases List.mem_cons.mp h with rfl | h
        · exact Or.inr (List.mem_cons_self ..)
        · exact (ih h).imp_right (List.mem_cons_of_mem _)
  exact hset scope.values h

/-- The values of the variables that a frame has of its own. -/
def Frame.values (f : Frame) : List Value :=
  match f.own with
  | some own => own.locals.all ++ own.args.all
  | none => []

namespace Stack

/-- The values of all variables. -/
def values (s : Stack) : List Value := s.globals.all ++ s.frames.flatMap Frame.values

section
variable {s : Stack} {v w : Value} {name : String}

theorem mem_values_of_lookup {i : Nat} (h : s.lookup i name = some v) : v ∈ s.values := by
  unfold lookup at h
  split at h
  · contradiction
  · rename_i f hf
    have hglobals : s.globals.get? name = some v → v ∈ s.values := fun hget =>
      List.mem_append_left _ (Variables.mem_all_of_get? hget)
    split at h
    · rename_i own hown
      have hframe : v ∈ own.locals.all ++ own.args.all → v ∈ s.values := by
        intro hv
        apply List.mem_append_right
        apply List.mem_flatMap.mpr
        refine ⟨f, List.mem_of_getElem? hf, ?_⟩
        rw [Frame.values, hown]
        exact hv
      rcases Option.or_eq_some_iff.mp h with h | ⟨_, h⟩
      · exact hframe (List.mem_append_left _ (Variables.mem_all_of_get? h))
      · rcases Option.or_eq_some_iff.mp h with h | ⟨_, h⟩
        · exact hframe (List.mem_append_right _ (Variables.mem_all_of_get? h))
        · exact hglobals h
    · exact hglobals h

theorem values_push (s : Stack) (f : Frame) :
    (s.push f).values = s.globals.all ++ (f.values ++ s.frames.flatMap Frame.values) := rfl

theorem values_pop_subset (s : Stack) : s.pop.values ⊆ s.values := by
  obtain ⟨frames, globals⟩ := s
  cases frames with
  | nil => exact List.Subset.refl _
  | cons f rest =>
    intro v hv
    rcases List.mem_append.mp hv with hv | hv
    · exact List.mem_append_left _ hv
    · exact List.mem_append_right _ (List.mem_append_right _ hv)

theorem values_setLine (s : Stack) (n : Nat) : (s.setLine n).values = s.values := by
  obtain ⟨frames, globals⟩ := s
  cases frames <;> rfl

theorem mem_values_assign (h : w ∈ (s.assign name v).values) : w = v ∨ w ∈ s.values := by
  obtain ⟨frames, globals⟩ := s
  have hglobals : ∀ frames : List Frame, w ∈ (globals.set name v).all ++ frames.flatMap Frame.values →
      w = v ∨ w ∈ globals.all ++ frames.flatMap Frame.values := by
    intro frames h
    rcases List.mem_append.mp h with h | h
    · exact (Variables.mem_all_set h).imp_right (List.mem_append_left _)
    · exact Or.inr (List.mem_append_right _ h)
  cases frames with
  | nil => exact hglobals [] h
  | cons f rest =>
    obtain ⟨function, file, line, own⟩ := f
    cases own with
    | none => exact hglobals _ h
    | some own =>
      simp only [assign] at h
      simp only [values, List.flatMap_cons, Frame.values, List.mem_append] at h ⊢
      split at h
      · rcases h with h | (h | h) | h
        · exact Or.inr (Or.inl h)
        · exact Or.inr (Or.inr (Or.inl (Or.inl h)))
        · exact (Variables.mem_all_set h).imp_right fun h => Or.inr (Or.inl (Or.inr h))
        · exact Or.inr (Or.inr (Or.inr h))
      · rcases h with h | (h | h) | h
        · exact Or.inr (Or.inl h)
        · exact (Variables.mem_all_set h).imp_right fun h => Or.inr (Or.inl (Or.inl h))
        · exact Or.inr (Or.inr (Or.inl (Or.inr h)))
        · exact Or.inr (Or.inr (Or.inr h))

end

end Stack

end DebugAdapter.Script
