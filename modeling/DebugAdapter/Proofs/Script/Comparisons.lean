import DebugAdapter.Proofs.Script.Rounding
import DebugAdapter.Script.Eval

/-!
# Comparisons of whole numbers

Scripts compare whole numbers for equality as they are, but for order as floating-point.  Of two
numbers that are nearest to one floating-point number none is less than the other, although they are
not equal.  That is the only way in which the six comparisons disagree with the order of the whole
numbers, and it takes more than 53 bits.
-/

namespace DebugAdapter.Script

/-- The operators that compare for order. -/
def orderings : List BinOp := [.lt, .gt, .le, .ge]

/-- The operators that compare. -/
def comparisons : List BinOp := .eq :: .ne :: orderings

/-- What a comparison says of whole numbers as such. -/
def intCompare (op : BinOp) (a b : Int) : Bool :=
  match op with
  | .eq => a == b
  | .ne => a != b
  | .lt => a < b
  | .gt => b < a
  | .le => a ≤ b
  | _ => b ≤ a

theorem realCompare_of_floatHolds {x y : Float} {a b : Int} (hx : FloatHolds x a)
    (hy : FloatHolds y b) {op : BinOp} (hop : op ∈ orderings) :
    realCompare op x y = intCompare op a b := by
  simp only [orderings, List.mem_cons, List.not_mem_nil, or_false] at hop
  rcases hop with rfl | rfl | rfl | rfl
  · simp only [realCompare, intCompare, hx.lt_iff hy]
  · simp only [realCompare, intCompare, hy.lt_iff hx]
  · simp only [realCompare, intCompare, hx.le_iff hy]
  · simp only [realCompare, intCompare, hy.le_iff hx]

/-- Equality is that of the whole numbers. -/
theorem binary_equality (a b : Int) {op : BinOp} (hop : op ∈ [BinOp.eq, .ne]) :
    binary op (.int a) (.int b) = .ok (.bool (intCompare op a b)) := by
  simp only [List.mem_cons, List.not_mem_nil, or_false] at hop
  rcases hop with rfl | rfl
  · simp only [binary, Shape.equals, intCompare]
  · simp only [binary, Shape.equals, intCompare, bne]

/-- The order is that of the nearest numbers of 53 bits. -/
theorem binary_ordering {a b : Int} (ha : a.natAbs < 2 ^ 64) (hb : b.natAbs < 2 ^ 64) {op : BinOp}
    (hop : op ∈ orderings) :
    binary op (.int a) (.int b) = .ok (.bool (intCompare op (nearest a) (nearest b))) := by
  have hordered : binary op (.int a) (.int b) =
      .ok (.bool (realCompare op (Float.ofInt a) (Float.ofInt b))) := by
    simp only [orderings, List.mem_cons, List.not_mem_nil, or_false] at hop
    rcases hop with rfl | rfl | rfl | rfl <;> rfl
  rw [hordered, realCompare_of_floatHolds (floatHolds_ofInt ha) (floatHolds_ofInt hb) hop]

/-- Comparisons of the nearest numbers are those of the numbers themselves, unless two numbers fall
together. -/
theorem intCompare_nearest_iff (a b : Int) :
    (∀ op ∈ orderings, intCompare op (nearest a) (nearest b) = intCompare op a b) ↔
      a = b ∨ nearest a ≠ nearest b := by
  constructor
  · intro h
    by_cases hab : a = b
    · exact Or.inl hab
    · have hlt := h .lt (by simp [orderings])
      have hgt := h .gt (by simp [orderings])
      simp only [intCompare, decide_eq_decide] at hlt hgt
      right
      omega
  · rintro (rfl | hne) op hop
    · simp only [orderings, List.mem_cons, List.not_mem_nil, or_false] at hop
      rcases hop with rfl | rfl | rfl | rfl <;> simp [intCompare]
    · -- Rounding keeps the order, and here it also keeps the numbers apart.
      have hlt : nearest a < nearest b ↔ a < b := by
        constructor
        · intro hlt
          by_contra hle
          exact absurd (nearest_le_nearest (Int.not_lt.mp hle)) (Int.not_le.mpr hlt)
        · intro hlt
          exact lt_of_le_of_ne (nearest_le_nearest hlt.le) hne
      have hle : nearest a ≤ nearest b ↔ a ≤ b := by
        constructor
        · intro hle
          by_contra hlt
          have := nearest_le_nearest (Int.not_le.mp hlt).le
          omega
        · exact nearest_le_nearest
      simp only [orderings, List.mem_cons, List.not_mem_nil, or_false] at hop
      rcases hop with rfl | rfl | rfl | rfl
      · simp only [intCompare, hlt]
      · simp only [intCompare, ← Int.not_le, hle]
      · simp only [intCompare, hle]
      · simp only [intCompare, ← Int.not_lt, hlt]

theorem natAbs_toInt_lt (a : Int64) : a.toInt.natAbs < 2 ^ 64 := by
  have hleast := a.le_toInt
  have hgreatest := a.toInt_lt
  omega

/-- Scripts compare two whole numbers for equality as they are, and for order as the nearest numbers
of 53 bits.  So all comparisons agree with the order of the whole numbers exactly if the numbers are
equal or rounding keeps them apart, which it does up to 53 bits. -/
theorem compares_as_nearest (a b : Int64) :
    (∀ op ∈ [BinOp.eq, .ne],
      binary op (.int a.toInt) (.int b.toInt) = .ok (.bool (intCompare op a.toInt b.toInt))) ∧
    (∀ op ∈ orderings,
      binary op (.int a.toInt) (.int b.toInt) =
        .ok (.bool (intCompare op (nearest a.toInt) (nearest b.toInt)))) ∧
    ((∀ op ∈ comparisons,
        binary op (.int a.toInt) (.int b.toInt) = .ok (.bool (intCompare op a.toInt b.toInt))) ↔
      a = b ∨ nearest a.toInt ≠ nearest b.toInt) ∧
    (a.toInt.natAbs ≤ 2 ^ 53 → b.toInt.natAbs ≤ 2 ^ 53 → ∀ op ∈ comparisons,
      binary op (.int a.toInt) (.int b.toInt) = .ok (.bool (intCompare op a.toInt b.toInt))) := by
  let value := fun op => binary op (.int a.toInt) (.int b.toInt)
  have hequality : ∀ op ∈ [BinOp.eq, .ne], value op = .ok (.bool (intCompare op a.toInt b.toInt)) :=
    fun op hop => binary_equality a.toInt b.toInt hop
  have hordering : ∀ op ∈ orderings,
      value op = .ok (.bool (intCompare op (nearest a.toInt) (nearest b.toInt))) :=
    fun op hop => binary_ordering (natAbs_toInt_lt a) (natAbs_toInt_lt b) hop
  have hagree : (∀ op ∈ comparisons, value op = .ok (.bool (intCompare op a.toInt b.toInt))) ↔
      a = b ∨ nearest a.toInt ≠ nearest b.toInt := by
    rw [← Int64.toInt_inj, ← intCompare_nearest_iff]
    constructor
    · intro h op hop
      have hvalue := (hordering op hop).symm.trans
        (h op (List.mem_cons_of_mem _ (List.mem_cons_of_mem _ hop)))
      simpa using hvalue
    · intro h op hop
      rcases List.mem_append.mp (show op ∈ [BinOp.eq, .ne] ++ orderings from hop) with hop | hop
      · exact hequality op hop
      · rw [hordering op hop, h op hop]
  refine ⟨hequality, hordering, hagree, ?_⟩
  intro ha hb
  apply hagree.mpr
  rw [nearest_of_natAbs_le ha, nearest_of_natAbs_le hb, ne_eq, Int64.toInt_inj]
  exact em _

/-- The first whole number of 54 bits that is odd falls together with the even one before it: they
are not equal, neither is less, and each is at most the other. -/
theorem neighbours_fall_together :
    let value := fun op => binary op (.int 9007199254740992) (.int 9007199254740993)
    value .eq = .ok (.bool false) ∧ value .ne = .ok (.bool true) ∧
      value .lt = .ok (.bool false) ∧ value .gt = .ok (.bool false) ∧
      value .le = .ok (.bool true) ∧ value .ge = .ok (.bool true) := by
  refine ⟨rfl, rfl, rfl, rfl, rfl, rfl⟩

end DebugAdapter.Script
