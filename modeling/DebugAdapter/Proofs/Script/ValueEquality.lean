import DebugAdapter.Proofs.Value.Memory
import DebugAdapter.Script.Eval
import Mathlib.Data.List.Forall2

/-!
# Equality of values

Without floating-point numbers, two values are equal exactly if they have the same content
(`equals_iff_content`), so equality is symmetric and transitive. Records and tables have no content:
equality does not look into them, and a value that is one, or a list that holds one, is equal to
nothing, not even to itself.
-/

namespace DebugAdapter.Script

/-- What a value is to the equality of scripts, wherever it is allocated. -/
inductive Content where
  | null
  | bool (b : Bool)
  | int (n : Int)
  | text (s : String)
  | list (items : List Content)
  | function (file : String) (line : Nat)

mutual

def content? : Value → Option Content
  | .mk _ _ shape => shapeContent? shape

def shapeContent? : Shape → Option Content
  | .null => some .null
  | .bool b => some (.bool b)
  | .number (.int n) => some (.int n)
  | .text s => some (.text s)
  | .array items => (contents? items).map .list
  | .function d _ => some (.function d.file d.line)
  | _ => none

def contents? : List Value → Option (List Content)
  | [] => some []
  | v :: vs => (content? v).bind fun c => (contents? vs).map (c :: ·)

end

/-- A shape of scripts that is no floating-point number. -/
def ShapeFloatless : Shape → Prop
  | .number (.int _) => True
  | .number _ | .other .. => False
  | _ => True

/-- A value that is made without floating-point numbers, at any depth. -/
def Floatless (v : Value) : Prop := ∀ w, Value.Within [v] w → ShapeFloatless w.shape

/-- A record or a table, or a list that holds one. -/
inductive HoldsRecord : Value → Prop where
  | record {v : Value} {fields : List (String × Value)} (h : v.shape = .struct fields) :
    HoldsRecord v
  | table {v : Value} {columns : List String} {rows : List (List Value)}
    (h : v.shape = .table columns rows) : HoldsRecord v
  | list {v w : Value} {items : List Value} (h : v.shape = .array items) (hw : w ∈ items)
    (hholds : HoldsRecord w) : HoldsRecord v

theorem Floatless.shapeFloatless {v : Value} (h : Floatless v) : ShapeFloatless v.shape :=
  h v (.held List.mem_cons_self)

theorem Floatless.of_mem_parts {v w : Value} (h : Floatless v) (hw : w ∈ v.parts) : Floatless w := by
  intro x hx
  apply h
  apply hx.trans
  intro y hy
  obtain rfl := List.mem_singleton.mp hy
  exact .part (.held List.mem_cons_self) hw

/-- Of two shapes of which one is no list, neither is looked into. -/
theorem shapeEquals_iff {s t : Shape} (hs : ShapeFloatless s) (ht : ShapeFloatless t)
    (hlists : ∀ items others, s = .array items → t ≠ .array others) :
    s.equals t = true ↔ ∃ c, shapeContent? t = some c ∧ shapeContent? s = some c := by
  cases s with
  | other => contradiction
  | number n =>
    cases n with
    | real | written => contradiction
    | int n =>
      cases t with
      | number m =>
        cases m with
        | real | written => contradiction
        | int m => simp [Shape.equals, shapeContent?]
      | _ => simp [Shape.equals, shapeContent?, Shape.real?]
  | array items =>
    cases t with
    | array others => exact absurd rfl (hlists items others rfl)
    | number m =>
      cases m <;> simp [Shape.equals, shapeContent?, Shape.real?]
    | _ => simp [Shape.equals, shapeContent?, Shape.real?]
  | function d fields =>
    cases t with
    | number m => cases m <;> simp [Shape.equals, shapeContent?, Shape.real?]
    | function d' fields' => simp [Shape.equals, shapeContent?, FunctionDef.same]
    | _ => simp [Shape.equals, shapeContent?, Shape.real?]
  | null | bool | text | struct | table =>
    cases t with
    | number m => cases m <;> simp [Shape.equals, shapeContent?, Shape.real?]
    | _ => simp [Shape.equals, shapeContent?, Shape.real?]

theorem contents?_cons_eq_some_iff {v : Value} {vs : List Value} {cs : List Content} :
    contents? (v :: vs) = some cs ↔
      ∃ c rest, content? v = some c ∧ contents? vs = some rest ∧ c :: rest = cs := by
  cases hv : content? v <;> cases hvs : contents? vs <;> simp [contents?, hv, hvs]

mutual

theorem equals_iff_content (v w : Value) (hv : Floatless v) (hw : Floatless w) :
    v.equals w = true ↔ ∃ c, content? w = some c ∧ content? v = some c := by
  obtain ⟨i, source, s⟩ := v
  obtain ⟨j, source', t⟩ := w
  rw [Value.equals, content?, content?]
  cases s with
  | array items =>
    cases t with
    | array others =>
      rw [Shape.equals, equalItems_iff_contents items others (fun _ h => hv.of_mem_parts h)
        (fun _ h => hw.of_mem_parts h)]
      simp [shapeContent?]
    | _ => exact shapeEquals_iff hv.shapeFloatless hw.shapeFloatless (by simp)
  | _ => exact shapeEquals_iff hv.shapeFloatless hw.shapeFloatless (by simp)

theorem equalItems_iff_contents (vs ws : List Value) (hvs : ∀ v ∈ vs, Floatless v)
    (hws : ∀ w ∈ ws, Floatless w) :
    equalItems vs ws = true ↔ ∃ cs, contents? ws = some cs ∧ contents? vs = some cs := by
  cases vs with
  | nil =>
    cases ws with
    | nil => simp [equalItems, contents?]
    | cons w ws =>
      have hnil : contents? [] = some [] := rfl
      simp [equalItems, contents?_cons_eq_some_iff, hnil]
  | cons v vs =>
    cases ws with
    | nil =>
      have hnil : contents? [] = some [] := rfl
      simp [equalItems, contents?_cons_eq_some_iff, hnil]
    | cons w ws =>
      have hhead := equals_iff_content v w (hvs v List.mem_cons_self) (hws w List.mem_cons_self)
      have htail := equalItems_iff_contents vs ws (fun x hx => hvs x (List.mem_cons_of_mem v hx))
        (fun x hx => hws x (List.mem_cons_of_mem w hx))
      simp only [equalItems, Bool.and_eq_true, hhead, htail, contents?_cons_eq_some_iff]
      constructor
      · rintro ⟨⟨c, hw, hv⟩, cs, hws, hvs⟩
        exact ⟨c :: cs, ⟨c, cs, hw, hws, rfl⟩, c, cs, hv, hvs, rfl⟩
      · rintro ⟨_, ⟨c, cs, hw, hws, rfl⟩, c', cs', hv, hvs, hsame⟩
        obtain ⟨rfl, rfl⟩ := List.cons.inj hsame
        exact ⟨⟨c', hw, hv⟩, cs', hws, hvs⟩

end

theorem contents?_eq_none_iff {vs : List Value} :
    contents? vs = none ↔ ∃ v ∈ vs, content? v = none := by
  induction vs with
  | nil => simp [contents?]
  | cons v vs ih =>
    cases hv : content? v <;> simp [contents?, hv, ih]

theorem HoldsRecord.content?_eq {v : Value} (h : HoldsRecord v) : content? v = none := by
  induction h with
  | @record v fields h =>
    obtain ⟨i, source, s⟩ := v
    obtain rfl : s = .struct fields := h
    rfl
  | @table v columns rows h =>
    obtain ⟨i, source, s⟩ := v
    obtain rfl : s = .table columns rows := h
    rfl
  | @list v w items h hw _ ih =>
    obtain ⟨i, source, s⟩ := v
    obtain rfl : s = .array items := h
    rw [content?, shapeContent?, contents?_eq_none_iff.mpr ⟨w, hw, ih⟩]
    rfl

mutual

theorem holdsRecord_of_content? (v : Value) (hv : Floatless v) (h : content? v = none) :
    HoldsRecord v := by
  obtain ⟨i, source, s⟩ := v
  have hs := hv.shapeFloatless
  cases s with
  | struct fields => exact .record rfl
  | table columns rows => exact .table rfl
  | array items =>
    rw [content?, shapeContent?, Option.map_eq_none_iff] at h
    obtain ⟨w, hw, hholds⟩ := exists_holdsRecord items (fun _ hw => hv.of_mem_parts hw) h
    exact .list rfl hw hholds
  | number n =>
    cases n with
    | int => contradiction
    | real | written => contradiction
  | other => contradiction
  | null | bool | text | function => contradiction

theorem exists_holdsRecord (vs : List Value) (hvs : ∀ v ∈ vs, Floatless v)
    (h : contents? vs = none) : ∃ v ∈ vs, HoldsRecord v := by
  cases vs with
  | nil => contradiction
  | cons v vs =>
    cases hv : content? v with
    | none =>
      have hholds := holdsRecord_of_content? v (hvs v List.mem_cons_self) hv
      exact ⟨v, List.mem_cons_self, hholds⟩
    | some c =>
      have hrest : contents? vs = none := by simpa [contents?, hv] using h
      obtain ⟨w, hw, hholds⟩ := exists_holdsRecord vs
        (fun w hw => hvs w (List.mem_cons_of_mem v hw)) hrest
      exact ⟨w, List.mem_cons_of_mem v hw, hholds⟩

end

theorem equals_eq (v w : Value) : v.equals w = v.shape.equals w.shape := by
  obtain ⟨i, source, s⟩ := v
  obtain ⟨j, source', t⟩ := w
  rw [Value.equals]
  rfl

/-- Lists are compared item by item, whatever the items are. -/
theorem equalItems_iff {vs ws : List Value} :
    equalItems vs ws = true ↔ vs.length = ws.length ∧ ∀ p ∈ vs.zip ws, p.1.equals p.2 = true := by
  induction vs generalizing ws with
  | nil => cases ws <;> simp [equalItems]
  | cons v vs ih =>
    cases ws with
    | nil => simp [equalItems]
    | cons w ws =>
      rw [equalItems, Bool.and_eq_true, ih, List.zip_cons_cons, List.forall_mem_cons,
        List.length_cons, List.length_cons, Nat.add_right_cancel_iff]
      exact and_left_comm

section
variable {u v w : Value} (hu : Floatless u) (hv : Floatless v) (hw : Floatless w)

include hv in
theorem equals_self_iff : v.equals v = true ↔ ¬HoldsRecord v := by
  rw [equals_iff_content v v hv hv]
  constructor
  · rintro ⟨c, hc, -⟩ hholds
    rw [hholds.content?_eq] at hc
    contradiction
  · intro hholds
    cases hc : content? v with
    | none => exact absurd (holdsRecord_of_content? v hv hc) hholds
    | some c => exact ⟨c, rfl, rfl⟩

include hv hw in
theorem equals_comm : v.equals w = w.equals v := by
  rw [Bool.eq_iff_iff, equals_iff_content v w hv hw, equals_iff_content w v hw hv]
  apply exists_congr
  intro c
  exact and_comm

include hu hv hw in
theorem equals_trans (h : u.equals v = true) (h' : v.equals w = true) : u.equals w = true := by
  obtain ⟨c, hvc, huc⟩ := (equals_iff_content u v hu hv).mp h
  obtain ⟨d, hwd, hvd⟩ := (equals_iff_content v w hv hw).mp h'
  obtain rfl : c = d := Option.some.inj (hvc.symm.trans hvd)
  exact (equals_iff_content u w hu hw).mpr ⟨c, hwd, huc⟩

end

theorem eval_equality {region n m k : Nat} {lookup : String → Option Value} {left right : Expr}
    {v w : Value} (hleft : eval region lookup left n = .ok (v, m))
    (hright : eval region lookup right m = .ok (w, k)) :
    eval region lookup (.binary .eq left right) n =
      .ok (allocate region (.bool (v.equals w)) k) := by
  rw [eval, hleft, equals_eq]
  simp only [bind, Except.bind, hright, binary]
  rfl

/-- Among values without floating-point numbers, equality is symmetric and transitive, and lists are
equal item by item. A value is equal to itself exactly if it is neither a record nor a table nor a
list that holds one. -/
theorem equals_equivalence {v : Value} (hv : Floatless v) :
    (v.equals v = true ↔ ¬HoldsRecord v) ∧
    (∀ w, Floatless w → v.equals w = w.equals v) ∧
    (∀ w x, Floatless w → Floatless x → v.equals w = true → w.equals x = true →
      v.equals x = true) ∧
    (∀ (w : Value) vs ws, v.shape = .array vs → w.shape = .array ws → (v.equals w = true ↔
      vs.length = ws.length ∧ ∀ p ∈ vs.zip ws, p.1.equals p.2 = true)) ∧
    (∀ region lookup left right n m w k, eval region lookup left n = .ok (v, m) →
      eval region lookup right m = .ok (w, k) → eval region lookup (.binary .eq left right) n =
        .ok (allocate region (.bool (v.equals w)) k)) ∧
    ∀ region lookup name n, lookup name = some v →
      ∃ w, eval region lookup (.binary .eq (.var name) (.var name)) n = .ok (w, n + 1) ∧
        (w.shape = .bool true ↔ ¬HoldsRecord v) := by
  refine ⟨equals_self_iff hv, fun w => equals_comm hv, fun w x => equals_trans hv, ?_,
    fun _ _ _ _ _ _ _ _ => eval_equality, ?_⟩
  · intro w vs ws hvs hws
    rw [equals_eq, hvs, hws, Shape.equals, equalItems_iff]
  · intro region lookup name n hname
    have hvalue : eval region lookup (.var name) n = .ok (v, n) := by
      rw [eval, hname]
    refine ⟨_, eval_equality hvalue hvalue, ?_⟩
    rw [← equals_self_iff hv]
    simp [Value.shape]

/-- A list of a function, which is shown with a list of its own, and of a text. -/
theorem equals_equivalence_nested :
    let parameters := Value.mk (.first 1 1) none (.array [.mk (.first 1 0) none (.text "x")])
    let function := Value.mk (.first 1 2) (some "/a.src")
      (.function ⟨"f", ["x"], [], "/a.src", 3⟩ [("parameters", parameters)])
    let v := Value.mk (.first 1 4) none (.array [function, .mk (.first 1 3) none (.text "y")])
    Floatless v ∧ ¬HoldsRecord v ∧ v.equals v = true := by
  intro parameters function v
  have hv : Floatless v := by
    intro w hw
    simp only [v, function, parameters, Value.within_cons_iff, Value.parts, Value.shape, Shape.parts,
      List.map_cons, List.map_nil, Value.not_within_nil, or_false] at hw
    rcases hw with rfl | rfl | (rfl | rfl) | rfl <;> trivial
  have hself : v.equals v = true := by decide
  exact ⟨hv, (equals_equivalence hv).1.mp hself, hself⟩

/-- A record is not equal to itself, and a variable that has it is not equal to itself. -/
theorem record_unequal :
    let v := Value.mk (.first 1 1) none (.struct [("a", .mk (.first 1 0) none (.int 1))])
    Floatless v ∧ v.equals v = false ∧
      eval 1 (fun _ => some v) (.binary .eq (.var "x") (.var "x")) 2 =
        .ok (.mk (.first 1 2) none (.bool false), 3) := by
  intro v
  refine ⟨?_, rfl, rfl⟩
  intro w hw
  simp only [v, Value.within_cons_iff, Value.parts, Value.shape, Shape.parts, List.map_cons,
    List.map_nil, Value.not_within_nil, or_false] at hw
  rcases hw with rfl | rfl <;> trivial

end DebugAdapter.Script
