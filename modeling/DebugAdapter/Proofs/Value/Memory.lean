import DebugAdapter.Value.Parts
import Mathlib.Data.List.Nodup

/-!
# Memory

`Within held v` says that `v` is held, or part at some depth of a value that is. The walk behind
`Value.holding` finds nothing else (`Value.within_of_holding`), and together with a value it finds
all of its parts (`Value.alive_of_mem_parts`).

What the debuggee keeps in memory is beyond the adapter. `Coherent` is all that is asked of it: at one
moment there is one value at an address.
-/

namespace DebugAdapter.Value

/-- A value that is held, or part of one that is. -/
inductive Within (held : List Value) : Value → Prop where
  | held {v : Value} (h : v ∈ held) : Within held v
  | part {v w : Value} (h : Within held v) (hw : w ∈ v.parts) : Within held w

variable {held others : List Value} {v w : Value} {i : Identity}

theorem Within.trans (h : Within held v) (hheld : ∀ w ∈ held, Within others w) :
    Within others v := by
  induction h with
  | held h => exact hheld _ h
  | part _ hw ih => exact .part ih hw

theorem Within.mono (h : Within held v) (hsub : held ⊆ others) : Within others v :=
  h.trans fun _ hw => .held (hsub hw)

theorem not_within_nil : ¬Within [] v := by
  intro h
  induction h with
  | held h => contradiction
  | part _ _ ih => exact ih

/-- To look into the first value is to look into its parts. -/
theorem within_cons_iff : Within (v :: held) w ↔ w = v ∨ Within v.parts w ∨ Within held w := by
  constructor
  · intro h
    induction h with
    | held h =>
      rcases List.mem_cons.mp h with rfl | h
      · exact Or.inl rfl
      · exact Or.inr (Or.inr (.held h))
    | part _ hw ih =>
      rcases ih with rfl | h | h
      · exact Or.inr (Or.inl (.held hw))
      · exact Or.inr (Or.inl (.part h hw))
      · exact Or.inr (Or.inr (.part h hw))
  · rintro (rfl | h | h)
    · exact .held (List.mem_cons_self ..)
    · exact h.trans fun x hx => .part (.held (List.mem_cons_self ..)) hx
    · exact h.mono (List.subset_cons_self ..)

theorem within_append_iff : Within (held ++ others) w ↔ Within held w ∨ Within others w := by
  constructor
  · intro h
    induction h with
    | held h => exact (List.mem_append.mp h).imp .held .held
    | part _ hw ih => exact ih.imp (.part · hw) (.part · hw)
  · rintro (h | h)
    · exact h.mono (List.subset_append_left ..)
    · exact h.mono (List.subset_append_right ..)

/-- Values whose parts are there already bring up nothing but themselves. -/
theorem Within.of_append (h : Within (others ++ held) v)
    (hparts : ∀ x ∈ others, ∀ w ∈ x.parts, Within held w) : v ∈ others ∨ Within held v := by
  induction h with
  | held h => exact (List.mem_append.mp h).imp id .held
  | part _ hw ih =>
    rcases ih with hx | hx
    · exact Or.inr (hparts _ hx _ hw)
    · exact Or.inr (.part hx hw)

/-! ## The walk -/

theorem getElem?_gather {values : List Value} {found : Holding}
    (h : (gather values found)[i]? = some v) :
    found[i]? = some v ∨ v.identity = i ∧ Within values v := by
  fun_induction gather values found with
  | case1 => exact Or.inl h
  | case2 w rest found seen ih =>
    rcases ih h with hfound | ⟨hi, hv⟩
    · exact Or.inl hfound
    · exact Or.inr ⟨hi, hv.mono (List.subset_cons_self ..)⟩
  | case3 w rest found _ ih =>
    rcases ih h with hfound | ⟨hi, hv⟩
    · rw [Std.TreeMap.getElem?_insert] at hfound
      split at hfound
      · rename_i hw
        obtain rfl := Option.some.inj hfound
        exact Or.inr ⟨Std.LawfulEqOrd.eq_of_compare hw, .held (List.mem_cons_self ..)⟩
      · exact Or.inl hfound
    · refine Or.inr ⟨hi, within_cons_iff.mpr ?_⟩
      exact Or.inr (within_append_iff.mp hv)

/-- The walk looks into what it finds: of every found value, each part is found or still to be
visited. -/
def Closed (pending : List Value) (found : Holding) : Prop :=
  ∀ (i : Identity) (v : Value), found[i]? = some v →
    ∀ w ∈ v.parts, found.contains w.identity = true ∨ w ∈ pending

theorem closed_gather {values : List Value} {found : Holding} (h : Closed values found) :
    Closed [] (gather values found) := by
  fun_induction gather values found with
  | case1 => exact h
  | case2 w rest found seen ih =>
    apply ih
    intro i v hv x hx
    rcases h i v hv x hx with hfound | hx
    · exact Or.inl hfound
    · rcases List.mem_cons.mp hx with rfl | hx
      · exact Or.inl seen
      · exact Or.inr hx
  | case3 w rest found _ ih =>
    apply ih
    intro i v hv x hx
    rw [Std.TreeMap.getElem?_insert] at hv
    rw [Std.TreeMap.contains_insert, Bool.or_eq_true]
    split at hv
    · obtain rfl := Option.some.inj hv
      exact Or.inr (List.mem_append_left _ hx)
    · rcases h i v hv x hx with hfound | hx
      · exact Or.inl (Or.inr hfound)
      · rcases List.mem_cons.mp hx with rfl | hx
        · exact Or.inl (Or.inl (beq_iff_eq.mpr Std.ReflCmp.compare_self))
        · exact Or.inr (List.mem_append_right _ hx)

/-! ## What is alive -/

/-- The allocation holds a value that is held. -/
def Alive (held : List Value) (i : Identity) : Prop := (holding held).contains i = true

theorem alive_iff : Alive held i ↔ ∃ v, (holding held)[i]? = some v := by
  rw [Alive, Std.TreeMap.contains_eq_isSome_getElem?, Option.isSome_iff_exists]

theorem within_of_holding (h : (holding held)[i]? = some v) : Within held v ∧ v.identity = i := by
  rcases getElem?_gather h with hnone | ⟨hi, hv⟩
  · simp at hnone
  · exact ⟨hv, hi⟩

theorem Alive.exists_within (h : Alive held i) : ∃ v, Within held v ∧ v.identity = i := by
  obtain ⟨v, hv⟩ := alive_iff.mp h
  exact ⟨v, within_of_holding hv⟩

theorem alive_of_mem (h : v ∈ held) : Alive held v.identity := contains_holding h

theorem alive_of_mem_parts (h : (holding held)[i]? = some v) (hw : w ∈ v.parts) :
    Alive held w.identity := by
  have hclosed : Closed [] (holding held) := closed_gather (by simp [Closed])
  exact (hclosed i v h w hw).resolve_right (List.not_mem_nil)

/-! ## One value at an address -/

/-- At an address there is at most one value. -/
def Coherent (held : List Value) : Prop :=
  ∀ v w, Within held v → Within held w → v.identity.address = w.identity.address → v = w

/-- Memory that is listed in full, each value with an address of its own. -/
theorem coherent_of_listed (values : List Value) (hall : ∀ v, Within held v → v ∈ values)
    (hnodup : (values.map fun v => v.identity.address).Nodup) : Coherent held :=
  fun v w hv hw => List.inj_on_of_nodup_map hnodup (hall v hv) (hall w hw)

namespace Coherent

theorem holding_eq (h : Coherent held) (hv : Within held v) :
    (holding held)[v.identity]? = some v := by
  have hfind : ∀ {w}, Within held w → Alive held w.identity → (holding held)[w.identity]? = some w := by
    intro w hw halive
    obtain ⟨x, hx⟩ := alive_iff.mp halive
    obtain ⟨hwithin, hidentity⟩ := within_of_holding hx
    rw [hx, h x w hwithin hw (congrArg Identity.address hidentity)]
  induction hv with
  | held hmem => exact hfind (.held hmem) (alive_of_mem hmem)
  | part hv hw ih => exact hfind (.part hv hw) (alive_of_mem_parts ih hw)

theorem holding_eq_some_iff (h : Coherent held) :
    (holding held)[i]? = some v ↔ Within held v ∧ v.identity = i := by
  refine ⟨within_of_holding, ?_⟩
  rintro ⟨hv, rfl⟩
  exact h.holding_eq hv

theorem alive (h : Coherent held) (hv : Within held v) : Alive held v.identity :=
  alive_iff.mpr ⟨v, h.holding_eq hv⟩

end Coherent

end DebugAdapter.Value
