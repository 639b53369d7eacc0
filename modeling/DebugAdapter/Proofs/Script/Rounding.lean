import Mathlib

/-!
# Whole numbers as floating-point

What becomes of a whole number as floating-point: `nearest` has the 53 leading bits, rounded half
to even, and `floatHolds_ofInt` says that the conversion gives it, bit by bit.  Floating-point
numbers that hold whole numbers compare as these do (`Holds.compare_eq`).
-/

namespace DebugAdapter.Script

/-- A number without its last `k` bits, rounded half to even. -/
def halfEven (n k : Nat) : Nat :=
  match compare (2 * (n % 2 ^ k)) (2 ^ k) with
  | .lt => n / 2 ^ k
  | .eq => n / 2 ^ k + n / 2 ^ k % 2
  | .gt => n / 2 ^ k + 1

/-- The number of 53 significant bits next to a number. -/
def nearestNat (n : Nat) : Nat :=
  halfEven n (n.log2 - 52) * 2 ^ (n.log2 - 52)

/-- The whole number of 53 significant bits next to a whole number, on its side of zero. -/
def nearest : Int → Int
  | .ofNat n => nearestNat n
  | .negSucc n => -nearestNat (n + 1)

theorem halfEven_zero (n : Nat) : halfEven n 0 = n := by
  have hcompare : compare (2 * (n % 2 ^ 0)) (2 ^ 0) = .lt := by
    rw [Nat.pow_zero, Nat.mod_one]
    rfl
  rw [halfEven, hcompare]
  exact Nat.div_one n

theorem halfEven_mul_pow (n k i : Nat) : halfEven (n * 2 ^ i) (k + i) = halfEven n k := by
  have hpos : 0 < 2 ^ i := Nat.two_pow_pos i
  have hdiv : n * 2 ^ i / 2 ^ (k + i) = n / 2 ^ k := by
    rw [Nat.pow_add, Nat.mul_div_mul_right _ _ hpos]
  have hmod : 2 * (n * 2 ^ i % 2 ^ (k + i)) = 2 * (n % 2 ^ k) * 2 ^ i := by
    rw [Nat.pow_add, Nat.mul_mod_mul_right, Nat.mul_assoc]
  have hcompare : compare (2 * (n % 2 ^ k) * 2 ^ i) (2 ^ k * 2 ^ i) =
      compare (2 * (n % 2 ^ k)) (2 ^ k) := by
    simp only [Nat.compare_eq_ite_lt, Nat.mul_lt_mul_right hpos]
  rw [halfEven, halfEven, hdiv, hmod, Nat.pow_add, hcompare]

theorem halfEven_bounds (n k : Nat) : n / 2 ^ k ≤ halfEven n k ∧ halfEven n k ≤ n / 2 ^ k + 1 := by
  unfold halfEven
  split <;> omega

theorem halfEven_le_halfEven {n m : Nat} (k : Nat) (h : n ≤ m) : halfEven n k ≤ halfEven m k := by
  have hdiv : n / 2 ^ k ≤ m / 2 ^ k := Nat.div_le_div_right h
  rcases Nat.lt_or_eq_of_le hdiv with hlt | heq
  · exact Nat.le_trans (halfEven_bounds n k).2 (Nat.le_trans hlt (halfEven_bounds m k).1)
  · have hmod : n % 2 ^ k ≤ m % 2 ^ k := by
      have hn := Nat.div_add_mod n (2 ^ k)
      have hm := Nat.div_add_mod m (2 ^ k)
      rw [heq] at hn
      omega
    unfold halfEven
    rw [heq]
    split <;> rename_i hcompare <;> split <;> rename_i hcompare' <;>
      simp only [Nat.compare_eq_lt, Nat.compare_eq_eq, Nat.compare_eq_gt] at hcompare hcompare' <;>
      omega

/-- Of a number of more than 52 bits at least 52 are left, and a carry makes them no more than
that many zeros behind a one. -/
theorem halfEven_bounds_of_log2 {n k : Nat} (hn : n ≠ 0) (hlog : n.log2 = 52 + k) :
    2 ^ 52 ≤ halfEven n k ∧ halfEven n k ≤ 2 ^ 53 := by
  obtain ⟨hle, hge⟩ := halfEven_bounds n k
  obtain ⟨hfloor, hceil⟩ := (Nat.log2_eq_iff hn).mp hlog
  have hleast : 2 ^ 52 ≤ n / 2 ^ k := by
    rw [Nat.le_div_iff_mul_le (Nat.two_pow_pos k), ← Nat.pow_add]
    exact hfloor
  have hgreatest : n / 2 ^ k < 2 ^ 53 := by
    rw [Nat.div_lt_iff_lt_mul (Nat.two_pow_pos k), ← Nat.pow_add]
    rwa [Nat.add_right_comm] at hceil
  exact ⟨Nat.le_trans hleast hle, Nat.le_trans hge hgreatest⟩

theorem nearestNat_of_log2_le {n : Nat} (h : n.log2 ≤ 52) : nearestNat n = n := by
  rw [nearestNat, Nat.sub_eq_zero_of_le h, halfEven_zero, Nat.pow_zero, Nat.mul_one]

theorem nearestNat_of_le {n : Nat} (h : n ≤ 2 ^ 53) : nearestNat n = n := by
  rcases Nat.lt_or_eq_of_le h with hlt | rfl
  · by_cases hn : n = 0
    · subst hn
      decide
    · apply nearestNat_of_log2_le
      have := (Nat.log2_lt hn).mpr hlt
      omega
  · decide +kernel

theorem nearestNat_bounds {n : Nat} (hn : n ≠ 0) :
    2 ^ n.log2 ≤ nearestNat n ∧ nearestNat n ≤ 2 ^ (n.log2 + 1) := by
  by_cases hlog : n.log2 ≤ 52
  · obtain ⟨hle, hlt⟩ := (Nat.log2_eq_iff hn).mp rfl
    rw [nearestNat_of_log2_le hlog]
    exact ⟨hle, hlt.le⟩
  · obtain ⟨k, hk⟩ : ∃ k, n.log2 = 52 + k := Nat.exists_eq_add_of_le (by omega)
    obtain ⟨hleast, hgreatest⟩ := halfEven_bounds_of_log2 hn hk
    rw [nearestNat, hk, Nat.add_sub_cancel_left, Nat.add_right_comm, Nat.pow_add, Nat.pow_add]
    exact ⟨Nat.mul_le_mul_right _ hleast, Nat.mul_le_mul_right _ hgreatest⟩

theorem nearestNat_le_nearestNat {n m : Nat} (h : n ≤ m) : nearestNat n ≤ nearestNat m := by
  by_cases hn : n = 0
  · subst hn
    exact Nat.zero_le _
  have hm : m ≠ 0 := by omega
  have hlog : n.log2 ≤ m.log2 := (Nat.le_log2 hm).mpr (Nat.le_trans (Nat.log2_self_le hn) h)
  rcases Nat.lt_or_eq_of_le hlog with hlt | heq
  · calc nearestNat n ≤ 2 ^ (n.log2 + 1) := (nearestNat_bounds hn).2
      _ ≤ 2 ^ m.log2 := Nat.pow_le_pow_right Nat.zero_lt_two hlt
      _ ≤ nearestNat m := (nearestNat_bounds hm).1
  · rw [nearestNat, nearestNat, heq]
    exact Nat.mul_le_mul_right _ (halfEven_le_halfEven _ h)

theorem nearest_le_nearest {a b : Int} (h : a ≤ b) : nearest a ≤ nearest b := by
  cases a with
  | ofNat a =>
    cases b with
    | ofNat b => exact Int.ofNat_le.mpr (nearestNat_le_nearestNat (Int.ofNat_le.mp h))
    | negSucc b =>
      rw [Int.ofNat_eq_natCast] at h
      omega
  | negSucc a =>
    cases b with
    | ofNat b =>
      simp only [nearest]
      omega
    | negSucc b =>
      have := nearestNat_le_nearestNat (n := b + 1) (m := a + 1) (by omega)
      simp only [nearest]
      omega

theorem nearest_of_natAbs_le {n : Int} (h : n.natAbs ≤ 2 ^ 53) : nearest n = n := by
  cases n with
  | ofNat n => rw [nearest, nearestNat_of_le (by simpa using h), Int.ofNat_eq_natCast]
  | negSucc n =>
    rw [nearest, nearestNat_of_le (by simpa using h)]
    rfl

/-! ## Shifts that remember what they drop -/

open Float.Model Float.Model.UnpackedFloat

/-- The last `k` bits of a number have been dropped, and the two bits tell whether they come to half
of the last bit that is left, and whether to neither half nor nothing. -/
structure Dropped (n k : Nat) (em : ExtendedMantissa) : Prop where
  mantissa : em.mantissa = n / 2 ^ k
  roundBit : em.roundBit = decide (2 ^ k ≤ 2 * (n % 2 ^ k))
  stickyBit : em.stickyBit = decide (2 * (n % 2 ^ k) ≠ 0 ∧ 2 * (n % 2 ^ k) ≠ 2 ^ k)

theorem Dropped.shiftRightOne {n k : Nat} {em : ExtendedMantissa} (h : Dropped n k em) :
    Dropped n (k + 1) em.shiftRightOne := by
  have hlast : n % 2 ^ (k + 1) = n % 2 ^ k + 2 ^ k * (n / 2 ^ k % 2) := by
    rw [Nat.pow_succ, Nat.mod_mul]
  have hlt : n % 2 ^ k < 2 ^ k := Nat.mod_lt n (Nat.two_pow_pos k)
  have hpow : 2 ^ (k + 1) = 2 * 2 ^ k := by rw [Nat.pow_succ, Nat.mul_comm]
  constructor
  · rw [ExtendedMantissa.shiftRightOne, h.mantissa, Nat.div_div_eq_div_mul, Nat.pow_succ]
  · rw [ExtendedMantissa.shiftRightOne, h.mantissa, hlast, hpow]
    rcases Nat.mod_two_eq_zero_or_one (n / 2 ^ k) with hbit | hbit
    · simp [hbit]
      omega
    · simp [hbit]
  · rw [ExtendedMantissa.shiftRightOne, h.roundBit, h.stickyBit, hlast, hpow, Bool.eq_iff_iff]
    simp only [Bool.or_eq_true, decide_eq_true_eq]
    rcases Nat.mod_two_eq_zero_or_one (n / 2 ^ k) with hbit | hbit
    · rw [hbit]
      omega
    · rw [hbit]
      omega

theorem dropped_shiftRight (n k : Nat) :
    Dropped n k (ExtendedMantissa.ofMantissaAndAccuracy n .exact >>> k) := by
  change Dropped n k (k.repeat ExtendedMantissa.shiftRightOne _)
  induction k with
  | zero => constructor <;> simp [Nat.repeat, ExtendedMantissa.ofMantissaAndAccuracy, Nat.mod_one]
  | succ k ih => exact ih.shiftRightOne

theorem Dropped.roundedMantissa_eq {n k : Nat} {em : ExtendedMantissa} (h : Dropped n k em) :
    em.roundedMantissa = halfEven n k := by
  obtain ⟨mantissa, round, sticky⟩ := em
  obtain ⟨rfl, hround, hsticky⟩ := h
  simp only at hround hsticky
  have hpos : 0 < 2 ^ k := Nat.two_pow_pos k
  cases round with
  | false =>
    have hlt : 2 * (n % 2 ^ k) < 2 ^ k := Nat.lt_of_not_le (of_decide_eq_false hround.symm)
    rw [halfEven, Nat.compare_eq_lt.mpr hlt]
    cases sticky <;> rfl
  | true =>
    have hle : 2 ^ k ≤ 2 * (n % 2 ^ k) := of_decide_eq_true hround.symm
    cases sticky with
    | false =>
      have heq : 2 * (n % 2 ^ k) = 2 ^ k := by
        have := of_decide_eq_false hsticky.symm
        omega
      rw [halfEven, Nat.compare_eq_eq.mpr heq]
      rfl
    | true =>
      have hgt : 2 ^ k < 2 * (n % 2 ^ k) := by
        have := (of_decide_eq_true hsticky.symm).2
        omega
      rw [halfEven, Nat.compare_eq_gt.mpr hgt]
      rfl

theorem shiftToTargetExponent_eq {n k : Nat} {e : Int} (hlog : n.log2 = 52 + k)
    (he : -1074 ≤ e + k) :
    shiftToTargetExponent Format.binary64 n e .exact =
      (ExtendedMantissa.ofMantissaAndAccuracy n .exact >>> k, e + k) := by
  have htarget : Format.binary64.targetExponent (totalExponent n e) = e + k := by
    simp only [Format.targetExponent, totalExponent, Format.minExponent, Format.mantissaBits, hlog]
    omega
  have hshift : (e + k - e).toNat = k := by omega
  rw [shiftToTargetExponent, htarget]
  simp only [shiftToExponent, hshift]

/-! ## Floating-point numbers that hold whole numbers -/

/-- An unpacked floating-point number has the value of a whole number, and its mantissa has all of
its bits. -/
inductive Holds : UnpackedFloat → Int → Prop where
  | zero (s : Sign) : Holds (.zero s) 0
  | finite (s : Sign) {m k n : Nat} (hpos : 0 < m) (hleast : 2 ^ 52 ≤ m) (hbits : m < 2 ^ 53)
      (hrange : k < 1024) (hvalue : m * 2 ^ k = n * 2 ^ 52) :
      Holds (.finite s m (k - 52) hpos) (s.apply n)

theorem log2_mul_two_pow {n : Nat} (hn : n ≠ 0) (k : Nat) : (n * 2 ^ k).log2 = n.log2 + k := by
  rw [Nat.log2_eq_iff (Nat.mul_ne_zero hn (Nat.two_pow_pos k).ne')]
  have hbits := (Nat.log2_eq_iff hn).mp rfl
  constructor
  · rw [Nat.pow_add]
    exact Nat.mul_le_mul_right _ hbits.1
  · rw [Nat.add_right_comm, Nat.pow_add]
    exact Nat.mul_lt_mul_of_pos_right hbits.2 (Nat.two_pow_pos k)

/-- The value of what is left when all but 53 bits are dropped. -/
theorem halfEven_mul_two_pow_log2 {n j : Nat} (hj : 52 ≤ n.log2 + j) :
    halfEven (n * 2 ^ j) (n.log2 + j - 52) * 2 ^ n.log2 = nearestNat n * 2 ^ 52 := by
  by_cases hlog : 52 ≤ n.log2
  · have hshift : n.log2 + j - 52 = n.log2 - 52 + j := by omega
    have hpow : 2 ^ n.log2 = 2 ^ (n.log2 - 52) * 2 ^ 52 := by
      rw [← Nat.pow_add, Nat.sub_add_cancel hlog]
    rw [hshift, halfEven_mul_pow, nearestNat, Nat.mul_assoc, ← hpow]
  · -- The number has fewer than 53 bits, so only zeros are dropped.
    have hfill : n * 2 ^ j = n * 2 ^ (52 - n.log2) * 2 ^ (n.log2 + j - 52) := by
      rw [Nat.mul_assoc, ← Nat.pow_add]
      congr 2
      omega
    have hnothing := halfEven_mul_pow (n * 2 ^ (52 - n.log2)) 0 (n.log2 + j - 52)
    rw [Nat.zero_add, halfEven_zero, ← hfill] at hnothing
    rw [hnothing, nearestNat_of_log2_le (by omega), Nat.mul_assoc, ← Nat.pow_add,
      Nat.sub_add_cancel (by omega)]

/-- A rounded mantissa takes 53 bits, unless the carry makes them one more; then the last one is
zero and can go. -/
theorem exists_shift_of_rounded {q : Nat} {e : Int} (hleast : 2 ^ 52 ≤ q) (hgreatest : q ≤ 2 ^ 53)
    (he : -1074 ≤ e) :
    ∃ em k, shiftToTargetExponent Format.binary64 q e .exact = (em, e + (k : Nat)) ∧ k ≤ 1 ∧
      2 ^ 52 ≤ em.mantissa ∧ em.mantissa < 2 ^ 53 ∧ em.mantissa * 2 ^ k = q := by
  rcases Nat.lt_or_eq_of_le hgreatest with hbits | rfl
  · have hlog : q.log2 = 52 + 0 := (Nat.log2_eq_iff (by omega)).mpr ⟨hleast, hbits⟩
    have hmantissa := (dropped_shiftRight q 0).mantissa
    rw [Nat.pow_zero, Nat.div_one] at hmantissa
    refine ⟨_, 0, shiftToTargetExponent_eq hlog (by omega), by omega, ?_⟩
    rw [hmantissa, Nat.pow_zero, Nat.mul_one]
    exact ⟨hleast, hbits, rfl⟩
  · have hlog : (2 ^ 53).log2 = 52 + 1 := Nat.log2_two_pow
    have hmantissa := (dropped_shiftRight (2 ^ 53) 1).mantissa
    refine ⟨_, 1, shiftToTargetExponent_eq hlog (by omega), by omega, ?_⟩
    rw [hmantissa]
    decide

theorem roundWithAccuracy_eq {s : Sign} {n : Nat} {e e' e'' : Int} {em em' : ExtendedMantissa}
    (hfirst : shiftToTargetExponent Format.binary64 n e .exact = (em, e'))
    (hsecond : shiftToTargetExponent Format.binary64 em.roundedMantissa e' .exact = (em', e''))
    (hpos : 0 < em'.mantissa) :
    roundWithAccuracy Format.binary64 s n e .exact = .finite s em'.mantissa e'' hpos := by
  unfold roundWithAccuracy
  simp only [hfirst, hsecond]
  exact dif_neg hpos.ne'

theorem holds_roundWithAccuracy {n j : Nat} (hn : n ≠ 0) (hlt : n < 2 ^ 64)
    (hj : 52 ≤ n.log2 + j) :
    Holds (roundWithAccuracy Format.binary64 .positive (n * 2 ^ j) (-j) .exact) (nearestNat n) := by
  let k := n.log2 + j - 52
  have hlog : (n * 2 ^ j).log2 = 52 + k := by
    rw [log2_mul_two_pow hn]
    omega
  have hsmall : n.log2 < 64 := (Nat.log2_lt hn).mpr hlt
  have hfirst := shiftToTargetExponent_eq (e := -(j : Int)) hlog (by omega)
  have hrounded := (dropped_shiftRight (n * 2 ^ j) k).roundedMantissa_eq
  have hbounds := halfEven_bounds_of_log2 (Nat.mul_ne_zero hn (Nat.two_pow_pos j).ne') hlog
  obtain ⟨em, i, hsecond, hi, hleast, hbits, hvalue⟩ :=
    exists_shift_of_rounded (e := -(j : Int) + k) hbounds.1 hbounds.2 (by omega)
  rw [← hrounded] at hsecond
  have hpos : 0 < em.mantissa := by omega
  rw [roundWithAccuracy_eq hfirst hsecond hpos]
  have hexponent : -(j : Int) + k + i = ((n.log2 + i : Nat) : Int) - 52 := by omega
  simp only [hexponent]
  refine Holds.finite .positive hpos hleast hbits (by omega) ?_
  calc em.mantissa * 2 ^ (n.log2 + i)
      = em.mantissa * 2 ^ i * 2 ^ n.log2 := by ring
    _ = halfEven (n * 2 ^ j) k * 2 ^ n.log2 := by rw [hvalue]
    _ = nearestNat n * 2 ^ 52 := halfEven_mul_two_pow_log2 hj

/-! ## Packing -/

theorem toNat_append_implicit {m : Nat} (hleast : 2 ^ 52 ≤ m) (hbits : m < 2 ^ 53) :
    (1#1 ++ BitVec.ofNat 52 m).toNat = m := by
  have hmod : m % 2 ^ 52 = m - 2 ^ 52 := by omega
  rw [BitVec.toNat_append, ← Nat.shiftLeft_add_eq_or_of_lt (BitVec.isLt _)]
  simp only [BitVec.toNat_ofNat, hmod, Nat.shiftLeft_eq]
  omega

theorem Holds.unpack_pack {x : UnpackedFloat} {n : Int} (h : Holds x n) :
    UnpackedFloat.unpack Format.binary64 (UnpackedFloat.pack Format.binary64 x) = x := by
  cases h with
  | zero s => cases s <;> rfl
  | @finite s m k n hpos hleast hbits hrange hvalue =>
    have hlog : m.log2 = 52 := (Nat.log2_eq_iff hpos.ne').mpr ⟨hleast, hbits⟩
    have hbias : Format.binary64.exponentBias = 1023 := rfl
    have hbiased : ((k : Int) - 52 + Format.binary64.exponentBias +
        Format.binary64.mantissaBitsWithoutImplicit).toNat = k + 1023 := by
      simp only [hbias]
      omega
    have hpack : UnpackedFloat.pack Format.binary64 (.finite s m (k - 52) hpos) =
        packComponents Format.binary64 s (BitVec.ofNat 11 (k + 1023)) (BitVec.ofNat 52 m) := by
      simp only [UnpackedFloat.pack, hbiased, hlog]
      rw [if_neg (by omega)]
      exact if_pos rfl
    have hexponent : (BitVec.ofNat 11 (k + 1023)).toNat = k + 1023 := by
      rw [BitVec.toNat_ofNat, Nat.mod_eq_of_lt (by omega)]
    have hones : BitVec.ofNat 11 (k + 1023) ≠ -1#11 := by
      intro heq
      have := congrArg BitVec.toNat heq
      rw [hexponent, show (-1#11).toNat = 2047 from rfl] at this
      omega
    have hzeros : BitVec.ofNat 11 (k + 1023) ≠ 0#11 := by
      intro heq
      have := congrArg BitVec.toNat heq
      rw [hexponent, show (0#11).toNat = 0 from rfl] at this
      omega
    rw [hpack]
    unfold UnpackedFloat.unpack
    simp only [unpackMantissa_packComponents, unpackExponent_packComponents,
      unpackSign_packComponents, Sign.ofBitVec_toBitVec, hones, hzeros, if_false, hexponent,
      toNat_append_implicit hleast hbits]
    rw [UnpackedFloat.finite.injEq, hbias]
    refine ⟨rfl, rfl, ?_⟩
    omega

/-! ## Comparing and converting -/

theorem compare_of_scaled {m m' k k' n n' : Nat} (hleast : 2 ^ 52 ≤ m) (hbits : m < 2 ^ 53)
    (hleast' : 2 ^ 52 ≤ m') (hbits' : m' < 2 ^ 53) (hvalue : m * 2 ^ k = n * 2 ^ 52)
    (hvalue' : m' * 2 ^ k' = n' * 2 ^ 52) :
    (compare ((k : Int) - 52) (k' - 52)).then (compare m m') = compare n n' := by
  -- The greater exponent outweighs every mantissa.
  have hlt : ∀ {m m' k k' n n' : Nat}, m < 2 ^ 53 → 2 ^ 52 ≤ m' → m * 2 ^ k = n * 2 ^ 52 →
      m' * 2 ^ k' = n' * 2 ^ 52 → k < k' → n < n' := by
    intro m m' k k' n n' hbits hleast hvalue hvalue' hk
    apply Nat.lt_of_mul_lt_mul_right (a := 2 ^ 52)
    calc n * 2 ^ 52 = m * 2 ^ k := hvalue.symm
      _ < 2 ^ 53 * 2 ^ k := Nat.mul_lt_mul_of_pos_right hbits (Nat.two_pow_pos k)
      _ = 2 ^ 52 * 2 ^ (k + 1) := by ring
      _ ≤ 2 ^ 52 * 2 ^ k' := Nat.mul_le_mul_left _ (Nat.pow_le_pow_right Nat.zero_lt_two hk)
      _ ≤ m' * 2 ^ k' := Nat.mul_le_mul_right _ hleast
      _ = n' * 2 ^ 52 := hvalue'
  rcases Nat.lt_trichotomy k k' with hk | rfl | hk
  · rw [Nat.compare_eq_lt.mpr (hlt hbits hleast' hvalue hvalue' hk), compare_lt_iff_lt.mpr (by omega)]
    rfl
  · rw [compare_eq_iff_eq.mpr rfl, Ordering.eq_then]
    have hpos : 0 < 2 ^ k := Nat.two_pow_pos k
    have hlt_iff : ∀ {m m' n n' : Nat}, m * 2 ^ k = n * 2 ^ 52 → m' * 2 ^ k = n' * 2 ^ 52 →
        (m < m' ↔ n < n') := by
      intro m m' n n' hvalue hvalue'
      rw [← Nat.mul_lt_mul_right hpos, hvalue, hvalue', Nat.mul_lt_mul_right (Nat.two_pow_pos 52)]
    simp only [Nat.compare_eq_ite_lt, hlt_iff hvalue hvalue', hlt_iff hvalue' hvalue]
  · rw [Nat.compare_eq_gt.mpr (hlt hbits' hleast hvalue' hvalue hk), compare_gt_iff_gt.mpr (by omega)]
    rfl

theorem pos_of_scaled {m k n : Nat} (hpos : 0 < m) (hvalue : m * 2 ^ k = n * 2 ^ 52) : 0 < n := by
  have hscaled : 0 < n * 2 ^ 52 := hvalue ▸ Nat.mul_pos hpos (Nat.two_pow_pos k)
  exact Nat.pos_of_mul_pos_right hscaled

theorem Holds.compare_eq {x y : UnpackedFloat} {a b : Int} (hx : Holds x a) (hy : Holds y b) :
    x.compare y = some (compare a b) := by
  cases hx with
  | zero s =>
    cases hy with
    | zero s' => rfl
    | @finite s' m' k' n' hpos' _ _ _ hvalue' =>
      have hn' := pos_of_scaled hpos' hvalue'
      cases s' with
      | negative =>
        rw [compare_gt_iff_gt.mpr (show (Sign.negative.apply n' : Int) < 0 by simpa [Sign.apply])]
        rfl
      | positive =>
        rw [compare_lt_iff_lt.mpr (show (0 : Int) < Sign.positive.apply n' by simpa [Sign.apply])]
        rfl
  | @finite s m k n hpos hleast hbits _ hvalue =>
    have hn := pos_of_scaled hpos hvalue
    cases hy with
    | zero s' =>
      cases s with
      | negative =>
        rw [compare_lt_iff_lt.mpr (show (Sign.negative.apply n : Int) < 0 by simpa [Sign.apply])]
        rfl
      | positive =>
        rw [compare_gt_iff_gt.mpr (show (0 : Int) < Sign.positive.apply n by simpa [Sign.apply])]
        rfl
    | @finite s' m' k' n' hpos' hleast' hbits' _ hvalue' =>
      have hn' := pos_of_scaled hpos' hvalue'
      have hsize := compare_of_scaled hleast hbits hleast' hbits' hvalue hvalue'
      cases s with
      | negative =>
        cases s' with
        | negative =>
          -- Of two negative numbers the one of greater size is less.
          have hswap : compare (Sign.negative.apply n) (Sign.negative.apply n') =
              (compare n n').swap := by
            simp only [Sign.apply, Int.compare_eq_ite_lt, Nat.compare_eq_ite_lt, Int.neg_lt_neg_iff, Int.ofNat_lt]
            split_ifs <;> first | rfl | omega
          rw [hswap, ← hsize]
          rfl
        | positive =>
          rw [compare_lt_iff_lt.mpr (show Sign.negative.apply n < Sign.positive.apply n' by
            simp only [Sign.apply]; omega)]
          rfl
      | positive =>
        cases s' with
        | negative =>
          rw [compare_gt_iff_gt.mpr (show Sign.negative.apply n' < Sign.positive.apply n by
            simp only [Sign.apply]; omega)]
          rfl
        | positive =>
          have hcast : compare (Sign.positive.apply n) (Sign.positive.apply n') = compare n n' := by
            simp only [Sign.apply, Int.compare_eq_ite_lt, Nat.compare_eq_ite_lt, Int.ofNat_lt]
          rw [hcast, ← hsize]
          rfl

theorem Holds.neg {x : UnpackedFloat} {n : Int} (h : Holds x n) : Holds x.neg (-n) := by
  cases h with
  | zero s => exact Holds.zero (-s)
  | @finite s m k n hpos hleast hbits hrange hvalue =>
    have hneg : Sign.apply (-s) n = -s.apply n := by
      cases s with
      | negative => exact (Int.neg_neg _).symm
      | positive => rfl
    rw [← hneg]
    exact Holds.finite (-s) hpos hleast hbits hrange hvalue

/-- A floating-point number has the value of a whole number. -/
def FloatHolds (x : Float) (n : Int) : Prop := Holds x.toModel.unpack n

theorem floatHolds_pack {x : UnpackedFloat} {n : Int} (h : Holds x n) :
    FloatHolds (.ofModel (.pack x)) n := by
  have hunpack : (Float.ofModel (.pack x)).toModel.unpack = x := h.unpack_pack
  rw [FloatHolds, hunpack]
  exact h

theorem FloatHolds.lt_iff {x y : Float} {a b : Int} (hx : FloatHolds x a) (hy : FloatHolds y b) :
    x < y ↔ a < b := by
  have hunfold : x < y ↔ (x.toModel.unpack.compare y.toModel.unpack == some .lt) = true :=
    decide_eq_true_iff
  rw [hunfold, Holds.compare_eq hx hy, beq_iff_eq, Option.some_inj, compare_lt_iff_lt]

theorem FloatHolds.le_iff {x y : Float} {a b : Int} (hx : FloatHolds x a) (hy : FloatHolds y b) :
    x ≤ y ↔ a ≤ b := by
  have hunfold : x ≤ y ↔ (x.toModel.unpack.compare y.toModel.unpack).any (·.isLE) = true :=
    decide_eq_true_iff
  rw [hunfold, Holds.compare_eq hx hy, Option.any_some, Ordering.isLE_iff_ne_gt,
    not_congr compare_gt_iff_gt]
  exact Int.not_lt

theorem holds_ofNat {n : Nat} (hn : n ≠ 0) (hlt : n < 2 ^ 64) :
    Holds (UnpackedFloat.ofNat Format.binary64 n) (nearestNat n) := by
  have hcompare : compare (n : Int) 0 = .gt := compare_gt_iff_gt.mpr (by omega)
  have hfill : (0 - Format.binary64.targetExponent (totalExponent n 0)).toNat = 52 - n.log2 := by
    simp only [Format.targetExponent, totalExponent, Format.minExponent, Format.mantissaBits]
    omega
  have hround : UnpackedFloat.ofNat Format.binary64 n = roundWithAccuracy Format.binary64 .positive
      (n * 2 ^ (52 - n.log2)) (-(52 - n.log2 : Nat)) .exact := by
    simp only [UnpackedFloat.ofNat, UnpackedFloat.ofInt, UnpackedFloat.normalize, hcompare,
      UnpackedFloat.round, decreaseExponent, Int.toNat_natCast, hfill, Nat.shiftLeft_eq]
    rw [Int.zero_sub]
  rw [hround]
  exact holds_roundWithAccuracy hn hlt (by omega)

theorem Holds.mul_one {x : UnpackedFloat} {n : Nat} (hn : n ≠ 0) (hlt : n < 2 ^ 53)
    (h : Holds x n) :
    Holds (mul Format.binary64 x (.finite .positive (2 ^ 52) (-52) (Nat.two_pow_pos 52)))
      (nearestNat n) := by
  generalize hvalue : (n : Int) = value at h
  cases h with
  | zero s => omega
  | @finite s m k n' hpos hleast hbits hrange hscaled =>
    cases s with
    | negative =>
      have := pos_of_scaled hpos hscaled
      simp only [Sign.apply] at hvalue
      omega
    | positive =>
      obtain rfl : n = n' := Int.ofNat_inj.mp hvalue
      have hk : k < 53 := by
        have hpow : 2 ^ 52 * 2 ^ k < 2 ^ 52 * 2 ^ 53 :=
          calc 2 ^ 52 * 2 ^ k ≤ m * 2 ^ k := Nat.mul_le_mul_right _ hleast
            _ = n * 2 ^ 52 := hscaled
            _ < 2 ^ 53 * 2 ^ 52 := Nat.mul_lt_mul_of_pos_right hlt (Nat.two_pow_pos 52)
            _ = 2 ^ 52 * 2 ^ 53 := Nat.mul_comm _ _
        exact (Nat.pow_lt_pow_iff_right Nat.one_lt_two).mp (Nat.lt_of_mul_lt_mul_left hpow)
      have hproduct : m * 2 ^ 52 = n * 2 ^ (104 - k) := by
        apply Nat.eq_of_mul_eq_mul_right (Nat.two_pow_pos k)
        calc m * 2 ^ 52 * 2 ^ k = m * 2 ^ k * 2 ^ 52 := by ring
          _ = n * 2 ^ 52 * 2 ^ 52 := by rw [hscaled]
          _ = n * 2 ^ (104 - k + k) := by rw [Nat.sub_add_cancel (by omega)]; ring
          _ = n * 2 ^ (104 - k) * 2 ^ k := by ring
      have hexponent : (k : Int) - 52 + -52 = -(104 - k : Nat) := by omega
      rw [UnpackedFloat.mul, hproduct, hexponent]
      exact holds_roundWithAccuracy hn (by omega) (by omega)

theorem floatHolds_ofNat {n : Nat} (hlt : n < 2 ^ 64) :
    FloatHolds (Float.ofNat n) (nearestNat n) := by
  by_cases hn : n = 0
  · subst hn
    have hzero : Float.ofNat 0 = .ofModel (.pack (.zero .positive)) := by decide
    rw [hzero]
    exact floatHolds_pack (Holds.zero .positive)
  by_cases hsmall : n < 2 ^ 53
  · -- Such a number is converted exactly and multiplied by one.
    have hone : (Float.ofBits 0x3FF0000000000000).toModel.unpack =
        .finite .positive (2 ^ 52) (-52) (Nat.two_pow_pos 52) := rfl
    have hword : n.toUInt64.toNat = n := Nat.mod_eq_of_lt hlt
    have hexact : FloatHolds n.toUInt64.toFloat n := by
      have hholds := holds_ofNat hn hlt
      rw [nearestNat_of_le (by omega)] at hholds
      have hconverted : n.toUInt64.toFloat =
          .ofModel (.pack (UnpackedFloat.ofNat Format.binary64 n.toUInt64.toNat)) := rfl
      rw [hconverted, hword]
      exact floatHolds_pack hholds
    have hproduct : Float.ofNat n = .ofModel (.pack (mul Format.binary64
        n.toUInt64.toFloat.toModel.unpack (Float.ofBits 0x3FF0000000000000).toModel.unpack)) :=
      dif_pos ⟨hsmall, by decide⟩
    rw [hproduct, hone]
    exact floatHolds_pack (hexact.mul_one hn hsmall)
  · have hpower : Float.ofNat n = .ofModel (.pack (UnpackedFloat.ofScientific Format.binary64 n 0)) :=
      dif_neg fun h => hsmall h.1
    have hround : UnpackedFloat.ofScientific Format.binary64 n 0 =
        roundWithAccuracy Format.binary64 .positive (n * 2 ^ 53) (-(53 : Nat)) .exact := by
      have hrange : ¬(0 : Int) < -((2 ^ Format.binary64.exponentBits : Int) + n.log2) := by
        rw [show (2 ^ Format.binary64.exponentBits : Int) = 2048 from rfl]
        omega
      rw [UnpackedFloat.ofScientific, dif_neg hn, if_neg (by decide), if_neg hrange,
        if_pos (Int.le_refl 0), UnpackedFloat.mul, Nat.shiftLeft_eq, Int.toNat_zero, Nat.pow_zero,
        Nat.mul_one]
      rfl
    rw [hpower, hround]
    exact floatHolds_pack (holds_roundWithAccuracy hn hlt (by omega))

theorem floatHolds_ofInt {n : Int} (h : n.natAbs < 2 ^ 64) : FloatHolds (Float.ofInt n) (nearest n) := by
  cases n with
  | ofNat n => exact floatHolds_ofNat h
  | negSucc n => exact floatHolds_pack (floatHolds_ofNat h).neg

end DebugAdapter.Script
