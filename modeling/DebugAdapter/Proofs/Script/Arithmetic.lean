import DebugAdapter.Proofs.Script.ValueEquality

/-!
# Whole-number arithmetic

Evaluation against the exact values of expressions, which are unbounded whole numbers and lists of
them. Operands are settled before what is computed from them (`Settles.bind`), so either all parts of
an expression are representable and its value is the exact one, or the error is that of the first part
that is not (`settles_of_tree`).
-/

namespace DebugAdapter.Script

/-- The whole numbers of 64 bits. -/
def InRange (n : Int) : Prop := -9223372036854775808 ≤ n ∧ n ≤ 9223372036854775807

instance (n : Int) : Decidable (InRange n) := inferInstanceAs (Decidable (_ ∧ _))

/-- Whole numbers of 64 bits, in lists that are nested to a depth. -/
def Content.Nested : Nat → Content → Prop
  | 0, .int n => InRange n
  | d + 1, .list items => ∀ c ∈ items, c.Nested d
  | _, _ => False

/-- Division goes toward zero, and nothing is divided by zero. -/
def BinOp.result? : BinOp → Int → Int → Option Int
  | add, a, b => some (a + b)
  | sub, a, b => some (a - b)
  | mul, a, b => some (a * b)
  | div, a, b => if b = 0 then none else some (a.tdiv b)
  | _, _, _ => none

section
variable (lookup : String → Option Value)

mutual

def exactValue? : Expr → Option Content
  | .int n => some (.int n)
  | .var name => (lookup name).bind content?
  | .list items => (exactValues? items).map .list
  | .index target position =>
    match exactValue? target, exactValue? position with
    | some (.list items), some (.int n) => if 1 ≤ n then items[n.toNat - 1]? else none
    | _, _ => none
  | .neg operand =>
    match exactValue? operand with
    | some (.int n) => some (.int (-n))
    | _ => none
  | .binary op left right =>
    match exactValue? left, exactValue? right with
    | some (.int a), some (.int b) => (op.result? a b).map .int
    | _, _ => none
  | _ => none

def exactValues? : List Expr → Option (List Content)
  | [] => some []
  | e :: es => (exactValue? e).bind fun c => (exactValues? es).map (c :: ·)

end

/-- Arithmetic on whole numbers of 64 bits, which may be taken from lists. The value is a list of the
given depth, or a whole number if this is zero. -/
inductive Tree : Nat → Expr → Prop where
  | int {n : Nat} (hn : InRange n) : Tree 0 (.int n)
  | var {d : Nat} {name : String} {v : Value} {c : Content} (hname : lookup name = some v)
    (hv : content? v = some c) (hc : c.Nested d) : Tree d (.var name)
  | list {d : Nat} {items : List Expr} (hitems : ∀ e ∈ items, Tree d e) :
    Tree (d + 1) (.list items)
  | index {d : Nat} {target position : Expr} (htarget : Tree (d + 1) target)
    (hposition : Tree 0 position) : Tree d (.index target position)
  | neg {operand : Expr} (hoperand : Tree 0 operand) : Tree 0 (.neg operand)
  | binary {op : BinOp} {left right : Expr} (hop : op ∈ [.add, .sub, .mul, .div])
    (hleft : Tree 0 left) (hright : Tree 0 right) : Tree 0 (.binary op left right)

/-- There is an exact value, and a whole number has 64 bits. -/
def Representable (e : Expr) : Prop :=
  ∃ c, exactValue? lookup e = some c ∧ ∀ n, c = .int n → InRange n

/-- Why an expression with representable operands is not representable. -/
inductive Fails : Expr → String → Prop where
  | overflow {e : Expr} {n : Int} (he : exactValue? lookup e = some (.int n)) (hn : ¬InRange n) :
    Fails e "integer overflow"
  | divisor {left right : Expr} (hright : exactValue? lookup right = some (.int 0)) :
    Fails (.binary .div left right) "division by zero"
  | position {target position : Expr} {items : List Content} {n : Int}
    (htarget : exactValue? lookup target = some (.list items))
    (hposition : exactValue? lookup position = some (.int n)) (hn : ¬(1 ≤ n ∧ n ≤ items.length)) :
    Fails (.index target position) ("index " ++ toString n ++ " out of range")

/-- The text says why the first expression that is not representable is not. -/
def FirstFails (es : List Expr) (text : String) : Prop :=
  ∃ before e after, es = before ++ e :: after ∧ (∀ s ∈ before, Representable lookup s) ∧
    ¬Representable lookup e ∧ Fails lookup e text

end

mutual

/-- The expressions that arithmetic consists of, from left to right, each after its operands. -/
def inOrder : Expr → List Expr
  | .list items => inOrderAll items ++ [.list items]
  | .index target position => inOrder target ++ inOrder position ++ [.index target position]
  | .neg operand => inOrder operand ++ [.neg operand]
  | .binary op left right => inOrder left ++ inOrder right ++ [.binary op left right]
  | e => [e]

def inOrderAll : List Expr → List Expr
  | [] => []
  | e :: es => inOrder e ++ inOrderAll es

end

/-! ## Expressions one after the other -/

section
variable {lookup : String → Option Value} {α β : Type} {P : α → Prop} {Q : β → Prop}
  {es fs : List Expr} {r : Except EvalError α}

/-- All expressions are representable, and what comes of them is as it should be; or the first that is
not representable fails. -/
def Settles (lookup : String → Option Value) (es : List Expr) (r : Except EvalError α)
    (P : α → Prop) : Prop :=
  (∃ a, r = .ok a ∧ P a ∧ ∀ e ∈ es, Representable lookup e) ∨
    ∃ err, r = .error err ∧ FirstFails lookup es err.message

theorem FirstFails.append_left {text : String} (h : FirstFails lookup es text) (fs : List Expr) :
    FirstFails lookup (es ++ fs) text := by
  obtain ⟨before, e, after, rfl, hbefore, he, hfails⟩ := h
  exact ⟨before, e, after ++ fs, by simp, hbefore, he, hfails⟩

theorem FirstFails.append_right {text : String} (h : FirstFails lookup fs text)
    (hes : ∀ e ∈ es, Representable lookup e) : FirstFails lookup (es ++ fs) text := by
  obtain ⟨before, e, after, rfl, hbefore, he, hfails⟩ := h
  exact ⟨es ++ before, e, after, by simp, List.forall_mem_append.mpr ⟨hes, hbefore⟩, he, hfails⟩

theorem Settles.bind {f : α → Except EvalError β} (h : Settles lookup es r P)
    (hf : ∀ a, P a → Settles lookup fs (f a) Q) : Settles lookup (es ++ fs) (r >>= f) Q := by
  rcases h with ⟨a, rfl, ha, hes⟩ | ⟨err, rfl, hfails⟩
  · rcases hf a ha with ⟨b, hb, hq, hfs⟩ | ⟨err, herr, hfails⟩
    · exact Or.inl ⟨b, hb, hq, List.forall_mem_append.mpr ⟨hes, hfs⟩⟩
    · exact Or.inr ⟨err, herr, hfails.append_right hes⟩
  · exact Or.inr ⟨err, rfl, hfails.append_left fs⟩

theorem settles_of_representable {e : Expr} {a : α} (he : Representable lookup e) (ha : P a) :
    Settles lookup [e] (.ok a) P :=
  Or.inl ⟨a, rfl, ha, List.forall_mem_singleton.mpr he⟩

theorem settles_of_fails {e : Expr} {err : EvalError} (he : ¬Representable lookup e)
    (h : Fails lookup e err.message) : Settles lookup [e] (.error err) P :=
  Or.inr ⟨err, rfl, [], e, [], rfl, List.forall_mem_nil _, he, h⟩

theorem not_representable_of_eq_none {e : Expr} (h : exactValue? lookup e = none) :
    ¬Representable lookup e := by
  rintro ⟨c, hc, -⟩
  rw [h] at hc
  contradiction

end

/-! ## Single expressions -/

section
variable {lookup : String → Option Value} {region d m : Nat} {e : Expr}

/-- The value that is computed is the exact one. -/
def IsExact (lookup : String → Option Value) (d : Nat) (e : Expr) (result : Value × Nat) : Prop :=
  ∃ c, content? result.1 = some c ∧ exactValue? lookup e = some c ∧ c.Nested d

theorem checked_eq (n : Int) :
    checked n = if InRange n then .ok (.int n) else .error .overflow := by
  have hpow : Nat.pow 2 63 = 9223372036854775808 := rfl
  have hiff : (-Nat.pow 2 63 ≤ n ∧ n < Nat.pow 2 63) ↔ InRange n := by
    rw [hpow, InRange]
    omega
  rw [checked, if_congr hiff rfl rfl]

theorem settles_checked {n : Int} (h : exactValue? lookup e = some (.int n)) :
    Settles lookup [e] (checked n >>= fun s => pure (allocate region s m)) (IsExact lookup 0 e) := by
  rw [checked_eq]
  by_cases hn : InRange n
  · rw [if_pos hn]
    apply settles_of_representable
    · exact ⟨.int n, h, by rintro k ⟨rfl⟩; exact hn⟩
    · exact ⟨.int n, rfl, h, hn⟩
  · rw [if_neg hn]
    apply settles_of_fails _ (.overflow h hn)
    rintro ⟨c, hc, hrange⟩
    exact hn (hrange n (Option.some.inj (hc.symm.trans h)))

theorem Content.Nested.exists_int {c : Content} (h : c.Nested 0) : ∃ n, c = .int n ∧ InRange n := by
  cases c with
  | int n => exact ⟨n, rfl, h⟩
  | _ => contradiction

theorem Content.Nested.exists_list {c : Content} (h : c.Nested (d + 1)) :
    ∃ items, c = .list items ∧ ∀ c ∈ items, c.Nested d := by
  cases c with
  | list items => exact ⟨items, rfl, h⟩
  | _ => contradiction

theorem Content.Nested.inRange {c : Content} (h : c.Nested d) (n : Int) (hn : c = .int n) :
    InRange n := by
  subst hn
  cases d with
  | zero => exact h
  | succ d => contradiction

theorem shape_of_content?_int {v : Value} {n : Int} (h : content? v = some (.int n)) :
    v.shape = .int n := by
  obtain ⟨i, source, s⟩ := v
  cases s with
  | number k => cases k <;> simp_all [content?, shapeContent?, Value.shape]
  | array items => simp [content?, shapeContent?] at h
  | _ => simp [content?, shapeContent?] at h

theorem shape_of_content?_list {v : Value} {cs : List Content} (h : content? v = some (.list cs)) :
    ∃ items, v.shape = .array items ∧ contents? items = some cs := by
  obtain ⟨i, source, s⟩ := v
  cases s with
  | number k => cases k <;> simp [content?, shapeContent?] at h
  | array items =>
    refine ⟨items, rfl, ?_⟩
    simpa [content?, shapeContent?] using h
  | _ => simp [content?, shapeContent?] at h

theorem IsExact.exists_int {result : Value × Nat} (h : IsExact lookup 0 e result) :
    ∃ n, result.1.shape = .int n ∧ exactValue? lookup e = some (.int n) := by
  obtain ⟨c, hv, he, hc⟩ := h
  obtain ⟨n, rfl, -⟩ := hc.exists_int
  exact ⟨n, shape_of_content?_int hv, he⟩

theorem IsExact.exists_list {result : Value × Nat} (h : IsExact lookup (d + 1) e result) :
    ∃ items cs, result.1.shape = .array items ∧ contents? items = some cs ∧
      exactValue? lookup e = some (.list cs) ∧ ∀ c ∈ cs, c.Nested d := by
  obtain ⟨c, hv, he, hc⟩ := h
  obtain ⟨cs, rfl, hcs⟩ := hc.exists_list
  obtain ⟨items, hshape, hitems⟩ := shape_of_content?_list hv
  exact ⟨items, cs, hshape, hitems, he, hcs⟩

theorem settles_binary {op : BinOp} {left right : Expr} {a b : Int}
    (hop : op ∈ [.add, .sub, .mul, .div]) (hleft : exactValue? lookup left = some (.int a))
    (hright : exactValue? lookup right = some (.int b)) :
    Settles lookup [.binary op left right]
      (binary op (.int a) (.int b) >>= fun s => pure (allocate region s m))
      (IsExact lookup 0 (.binary op left right)) := by
  have hexact : exactValue? lookup (.binary op left right) = (op.result? a b).map .int := by
    rw [exactValue?, hleft, hright]
  cases op with
  | add | sub | mul => exact settles_checked hexact
  | div =>
    by_cases hb : b = 0
    · subst hb
      exact settles_of_fails (not_representable_of_eq_none hexact) (.divisor hright)
    · have hdiv : binary .div (.int a) (.int b) = checked (a.tdiv b) := if_neg hb
      rw [BinOp.result?, if_neg hb] at hexact
      rw [hdiv]
      exact settles_checked hexact
  | _ => simp at hop

/-! ## Lists -/

theorem contents?_eq_some_iff {vs : List Value} {cs : List Content} :
    contents? vs = some cs ↔ vs.map content? = cs.map some := by
  induction vs generalizing cs with
  | nil => cases cs <;> simp [contents?]
  | cons v vs ih =>
    cases cs with
    | nil => simp [contents?_cons_eq_some_iff]
    | cons c cs => simp [contents?_cons_eq_some_iff, ih]

theorem indexed_array (items : List Value) (n : Int) :
    indexed region (.array items) n m =
      if h : 1 ≤ n ∧ n ≤ items.length then .ok (items[n.toNat - 1], m)
      else .error (.indexOutOfRange n) := by
  unfold indexed
  by_cases hlow : n < 1
  · rw [if_pos hlow, dif_neg (by omega)]
  · have hone : 1 ≤ n := by omega
    have hnat : (n - 1).toNat = n.toNat - 1 := by omega
    rw [if_neg hlow]
    simp only [itemAt?, if_pos hone, hnat]
    by_cases hhigh : n ≤ items.length
    · rw [dif_pos ⟨hone, hhigh⟩, List.getElem?_eq_getElem (by omega)]
    · rw [dif_neg (by omega), List.getElem?_eq_none (by omega)]

theorem settles_indexed {target position : Expr} {items : List Value} {cs : List Content} {n : Int}
    (hitems : contents? items = some cs) (hcs : ∀ c ∈ cs, c.Nested d)
    (htarget : exactValue? lookup target = some (.list cs))
    (hposition : exactValue? lookup position = some (.int n)) :
    Settles lookup [.index target position] (indexed region (.array items) n m)
      (IsExact lookup d (.index target position)) := by
  have hmap := contents?_eq_some_iff.mp hitems
  have hlength : items.length = cs.length := by simpa using congrArg List.length hmap
  rw [indexed_array]
  by_cases hn : 1 ≤ n ∧ n ≤ items.length
  · have hlt : n.toNat - 1 < cs.length := by omega
    have hget : content? items[n.toNat - 1] = some cs[n.toNat - 1] := by
      simpa [hlt, hlength] using congrArg (·[n.toNat - 1]?) hmap
    have hexact : exactValue? lookup (.index target position) = some cs[n.toNat - 1] := by
      simp only [exactValue?, htarget, hposition, if_pos hn.1, List.getElem?_eq_getElem hlt]
    have hnested := hcs _ (List.getElem_mem hlt)
    rw [dif_pos hn]
    apply settles_of_representable
    · exact ⟨_, hexact, hnested.inRange⟩
    · exact ⟨_, hget, hexact, hnested⟩
  · rw [dif_neg hn]
    rw [hlength] at hn
    apply settles_of_fails _ (.position htarget hposition hn)
    apply not_representable_of_eq_none
    simp only [exactValue?, htarget, hposition]
    split
    · exact List.getElem?_eq_none (by omega)
    · rfl

end

/-! ## Evaluation -/

section
variable {lookup : String → Option Value} {d : Nat} {e : Expr}

theorem settles_all (region : Nat) {items : List Expr}
    (h : ∀ e ∈ items, ∀ m, Settles lookup (inOrder e) (eval region lookup e m) (IsExact lookup d e))
    (m : Nat) :
    Settles lookup (inOrderAll items) (evalAll region lookup items m) fun result =>
      ∃ cs, contents? result.1 = some cs ∧ exactValues? lookup items = some cs ∧
        ∀ c ∈ cs, c.Nested d := by
  induction items generalizing m with
  | nil =>
    exact Or.inl ⟨([], m), rfl, ⟨[], rfl, rfl, List.forall_mem_nil _⟩, List.forall_mem_nil _⟩
  | cons e es ih =>
    obtain ⟨he, hes⟩ := List.forall_mem_cons.mp h
    rw [inOrderAll, evalAll]
    apply (he m).bind
    rintro ⟨v, k⟩ ⟨c, hv, hexact, hc⟩
    rw [← List.append_nil (inOrderAll es)]
    apply (ih hes k).bind
    rintro ⟨vs, l⟩ ⟨cs, hvs, hexacts, hcs⟩
    have hall : exactValues? lookup (e :: es) = some (c :: cs) := by
      rw [exactValues?, hexact, hexacts]
      rfl
    have hcontents : contents? (v :: vs) = some (c :: cs) :=
      contents?_cons_eq_some_iff.mpr ⟨c, cs, hv, hvs, rfl⟩
    exact Or.inl ⟨_, rfl, ⟨c :: cs, hcontents, hall, List.forall_mem_cons.mpr ⟨hc, hcs⟩⟩,
      List.forall_mem_nil _⟩

theorem settles_of_tree (h : Tree lookup d e) (region m : Nat) :
    Settles lookup (inOrder e) (eval region lookup e m) (IsExact lookup d e) := by
  induction h generalizing m with
  | @int n hn =>
    simp only [inOrder, eval]
    apply settles_of_representable
    · exact ⟨.int n, rfl, by rintro k ⟨rfl⟩; exact hn⟩
    · exact ⟨.int n, rfl, rfl, hn⟩
  | @var d name v c hname hv hc =>
    have hexact : exactValue? lookup (.var name) = some c := by
      rw [exactValue?, hname]
      exact hv
    simp only [inOrder, eval, hname]
    apply settles_of_representable
    · exact ⟨c, hexact, hc.inRange⟩
    · exact ⟨c, hv, hexact, hc⟩
  | @list d items _ ih =>
    rw [inOrder, eval]
    apply (settles_all region ih m).bind
    rintro ⟨vs, k⟩ ⟨cs, hvs, hexacts, hcs⟩
    have hexact : exactValue? lookup (.list items) = some (.list cs) := by
      rw [exactValue?, hexacts]
      rfl
    have hnested : (Content.list cs).Nested (d + 1) := hcs
    apply settles_of_representable
    · exact ⟨.list cs, hexact, hnested.inRange⟩
    · refine ⟨.list cs, ?_, hexact, hnested⟩
      rw [allocate, content?, shapeContent?, hvs]
      rfl
  | @index d target position _ _ ihtarget ihposition =>
    rw [inOrder, eval, List.append_assoc]
    apply (ihtarget m).bind
    rintro ⟨v, k⟩ hv
    apply (ihposition k).bind
    rintro ⟨i, l⟩ hi
    obtain ⟨items, cs, hshape, hitems, htarget, hcs⟩ := hv.exists_list
    obtain ⟨n, hn, hposition⟩ := hi.exists_int
    simp only [hn, hshape]
    exact settles_indexed hitems hcs htarget hposition
  | @neg operand _ ih =>
    rw [inOrder, eval]
    apply (ih m).bind
    rintro ⟨v, k⟩ hv
    obtain ⟨n, hn, hexact⟩ := hv.exists_int
    simp only [hn]
    apply settles_checked
    rw [exactValue?, hexact]
  | @binary op left right hop _ _ ihleft ihright =>
    rw [inOrder, eval, List.append_assoc]
    apply (ihleft m).bind
    rintro ⟨v, k⟩ hv
    apply (ihright k).bind
    rintro ⟨w, l⟩ hw
    obtain ⟨a, ha, hleft⟩ := hv.exists_int
    obtain ⟨b, hb, hright⟩ := hw.exists_int
    simp only [ha, hb]
    exact settles_binary hop hleft hright

theorem not_representable_of_firstFails {text : String} {es : List Expr}
    (h : FirstFails lookup es text) : ¬∀ s ∈ es, Representable lookup s := by
  obtain ⟨before, s, after, rfl, -, hs, -⟩ := h
  intro hparts
  exact hs (hparts s (by simp))

theorem eval_index {region m k l : Nat} {target position : Expr} {v i : Value} {items : List Value}
    {n : Int} (htarget : eval region lookup target m = .ok (v, k)) (hv : v.shape = .array items)
    (hposition : eval region lookup position k = .ok (i, l)) (hi : i.shape = .int n) :
    eval region lookup (.index target position) m =
      if h : 1 ≤ n ∧ n ≤ items.length then .ok (items[n.toNat - 1], l)
      else .error (.indexOutOfRange n) := by
  rw [eval, htarget]
  simp only [bind, Except.bind, hposition, hi, hv]
  exact indexed_array items n

end

/-- Arithmetic has a whole number as its value exactly if all that it consists of is representable, and
then this is the exact value. Otherwise the error is that of the first part from the left that is not.
Any list, whatever it holds, is indexed by any whole number: there is the item of this position, counted
from one, or an error if there is none. -/
theorem eval_exact :
    (∀ lookup region e m, Tree lookup 0 e →
      ((∃ v k n, eval region lookup e m = .ok (v, k) ∧ v.shape = .int n) ↔
        ∀ s ∈ inOrder e, Representable lookup s) ∧
      (∀ v k n, eval region lookup e m = .ok (v, k) → v.shape = .int n →
        exactValue? lookup e = some (.int n)) ∧
      ((¬∀ s ∈ inOrder e, Representable lookup s) → ∃ err, eval region lookup e m = .error err ∧
        FirstFails lookup (inOrder e) err.message)) ∧
    ∀ lookup region target position m v k i l items n,
      eval region lookup target m = .ok (v, k) → v.shape = .array items →
      eval region lookup position k = .ok (i, l) → i.shape = .int n →
      (∀ h : 1 ≤ n ∧ n ≤ items.length,
        eval region lookup (.index target position) m = .ok (items[n.toNat - 1], l)) ∧
      (¬(1 ≤ n ∧ n ≤ items.length) → ∃ err,
        eval region lookup (.index target position) m = .error err ∧
        err.message = "index " ++ toString n ++ " out of range") := by
  refine ⟨?_, ?_⟩
  · intro lookup region e m he
    rcases settles_of_tree he region m with ⟨⟨v, k⟩, heval, hvalue, hparts⟩ | ⟨err, heval, hfails⟩
    · obtain ⟨n, hn, hexact⟩ := hvalue.exists_int
      refine ⟨⟨fun _ => hparts, fun _ => ⟨v, k, n, heval, hn⟩⟩, ?_, absurd hparts⟩
      intro w l n' hw hn'
      rw [heval] at hw
      cases hw
      rw [hn] at hn'
      cases hn'
      exact hexact
    · have hnot := not_representable_of_firstFails hfails
      refine ⟨⟨?_, fun h => absurd h hnot⟩, ?_, fun _ => ⟨err, heval, hfails⟩⟩
      · rintro ⟨v, k, n, hv, -⟩
        rw [heval] at hv
        contradiction
      · intro v k n hv
        rw [heval] at hv
        contradiction
  · intro lookup region target position m v k i l items n htarget hv hposition hi
    have heval := eval_index htarget hv hposition hi
    refine ⟨fun h => ?_, fun h => ⟨.indexOutOfRange n, ?_, rfl⟩⟩
    · rw [heval, dif_pos h]
    · rw [heval, dif_neg h]

/-- The least whole number may be divided and taken from a list, but not negated; that the negated
number is divided by zero then does not matter. -/
theorem eval_exact_least :
    let lookup := fun _ : String => some (Value.mk (.first 1 0) none (.int (-9223372036854775808)))
    let quotient := Expr.binary .div (.index (.list [.int 7, .var "least"]) (.int 2)) (.neg (.int 3))
    let negated := Expr.binary .div (.neg (.var "least")) (.int 0)
    Tree lookup 0 quotient ∧ (∀ s ∈ inOrder quotient, Representable lookup s) ∧
      exactValue? lookup quotient = some (.int 3074457345618258602) ∧ Tree lookup 0 negated ∧
      (∃ err, eval 1 lookup negated 1 = .error err ∧
        FirstFails lookup (inOrder negated) err.message) ∧
      ∃ err, eval 1 lookup (.index (.list [.null]) (.var "least")) 1 = .error err ∧
        err.message = "index -9223372036854775808 out of range" := by
  intro lookup quotient negated
  have hleast : Tree lookup 0 (.var "least") :=
    .var rfl rfl (by decide : InRange _)
  have hquotient : Tree lookup 0 quotient := by
    apply Tree.binary (by simp)
    · apply Tree.index _ (.int (by decide))
      apply Tree.list
      intro e he
      simp only [List.mem_cons, List.not_mem_nil, or_false] at he
      rcases he with rfl | rfl
      · exact .int (by decide)
      · exact hleast
    · exact .neg (.int (by decide))
  have hnegated : Tree lookup 0 negated :=
    .binary (by simp) (.neg hleast) (.int (by decide))
  obtain ⟨hiff, hexact, -⟩ := eval_exact.1 lookup 1 quotient 1 hquotient
  obtain ⟨hiff', -, hfails⟩ := eval_exact.1 lookup 1 negated 1 hnegated
  have heval : eval 1 lookup quotient 1 =
      .ok (.mk (.first 1 6) none (.int 3074457345618258602), 7) := rfl
  have herr : eval 1 lookup negated 1 = .error .overflow := rfl
  refine ⟨hquotient, hiff.mp ⟨_, _, _, heval, rfl⟩, hexact _ _ _ heval rfl, hnegated,
    hfails ?_, ?_⟩
  · intro hall
    obtain ⟨v, k, n, hv, -⟩ := hiff'.mpr hall
    rw [herr] at hv
    contradiction
  · obtain ⟨-, houtside⟩ := eval_exact.2 lookup 1 (.list [.null]) (.var "least") 1 _ _ _ _ _ _
      rfl rfl rfl rfl
    exact houtside (by decide)

end DebugAdapter.Script
