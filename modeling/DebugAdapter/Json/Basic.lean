/-!
# JSON values

The tree that messages, request arguments and configuration files are read into.  A message's
objects keep their members in key order, which `Json.insert` maintains.
-/

namespace DebugAdapter

/-- A number: whole and within 64 bits, signed or unsigned, or floating-point. -/
inductive Number where
  | int (n : Int)
  | real (x : Float)

inductive Json where
  | null
  | bool (b : Bool)
  | num (n : Number)
  | str (s : String)
  | arr (items : List Json)
  | obj (members : List (String × Json))

namespace Json

instance : Inhabited Json := ⟨.null⟩

/-- Puts a member into its place; a member of the same key is replaced. -/
def insert (key : String) (value : Json) : List (String × Json) → List (String × Json)
  | [] => [(key, value)]
  | (k, v) :: rest =>
    if key < k then (key, value) :: (k, v) :: rest
    else if key == k then (key, value) :: rest
    else (k, v) :: insert key value rest

theorem lookup_insert (key k : String) (value : Json) (members : List (String × Json)) :
    (insert key value members).lookup k = if k == key then some value else members.lookup k := by
  induction members with
  | nil =>
    rw [insert, List.lookup_cons]
    cases k == key <;> rfl
  | cons m rest ih =>
    obtain ⟨a, v⟩ := m
    rw [insert]
    split
    · rw [List.lookup_cons]
      cases k == key <;> rfl
    · split
      · rename_i hkey
        rw [List.lookup_cons, List.lookup_cons, ← eq_of_beq hkey]
        cases k == key <;> rfl
      · rename_i hkey
        rw [List.lookup_cons, List.lookup_cons, ih]
        cases hk : k == key with
        | false => cases k == a <;> rfl
        | true =>
          have hka : (k == a) = false := by
            rw [eq_of_beq hk]
            exact Bool.eq_false_iff.mpr hkey
          rw [hka]

/-- The object of the given members, the last one of a key counting. -/
def ofMembers (members : List (String × Json)) : Json :=
  .obj (members.foldl (fun acc m => insert m.1 m.2 acc) [])

/-- The object of the members that are present. -/
def ofSome (members : List (String × Option Json)) : Json :=
  ofMembers (members.filterMap fun (k, v) => v.map (k, ·))

def ofNat (n : Nat) : Json := .num (.int n)

def ofInt (n : Int) : Json := .num (.int n)

def ofList {α : Type} (f : α → Json) (xs : List α) : Json := .arr (xs.map f)

/-- The value if there is one, else null. -/
def ofOption {α : Type} (f : α → Json) : Option α → Json
  | some a => f a
  | none => .null

/-- The member of a key, if the value is an object that has it. -/
def get? (key : String) : Json → Option Json
  | .obj members => members.lookup key
  | _ => none

def str? : Json → Option String
  | .str s => some s
  | _ => none

def bool? : Json → Option Bool
  | .bool b => some b
  | _ => none

def int? : Json → Option Int
  | .num (.int n) => some n
  | _ => none

def arr? : Json → Option (List Json)
  | .arr items => some items
  | _ => none

def isNull : Json → Bool
  | .null => true
  | _ => false

/-! ## Members -/

theorem lookup_eq_none_of_not_mem {β : Type} {members : List (String × β)} {key : String}
    (h : key ∉ members.map (·.1)) : members.lookup key = none := by
  rw [List.lookup_eq_none_iff]
  intro m hm
  rw [bne_iff_ne]
  rintro rfl
  exact h (List.mem_map_of_mem hm)

theorem lookup_foldl_insert {members : List (String × Json)} (h : (members.map (·.1)).Nodup)
    (key : String) (acc : List (String × Json)) :
    (members.foldl (fun acc m => insert m.1 m.2 acc) acc).lookup key =
      (members.lookup key).or (acc.lookup key) := by
  induction members generalizing acc with
  | nil => rfl
  | cons m rest ih =>
    rw [List.map_cons, List.nodup_cons] at h
    rw [List.foldl_cons, ih h.2, lookup_insert, List.lookup_cons]
    cases hkey : key == m.1 with
    | false => rfl
    | true =>
      rw [eq_of_beq hkey, lookup_eq_none_of_not_mem h.1]
      rfl

theorem lookup_present (members : List (String × Option Json)) (key : String)
    (h : (members.map (·.1)).Nodup) :
    (members.filterMap fun (k, v) => v.map (k, ·)).lookup key = (members.lookup key).join := by
  induction members with
  | nil => rfl
  | cons m rest ih =>
    obtain ⟨k, v⟩ := m
    rw [List.map_cons, List.nodup_cons] at h
    rw [List.lookup_cons]
    cases v with
    | some v =>
      simp only [List.filterMap_cons, Option.map_some, List.lookup_cons]
      cases key == k with
      | true => rfl
      | false => exact ih h.2
    | none =>
      simp only [List.filterMap_cons, Option.map_none, ih h.2]
      cases hkey : key == k with
      | false => rfl
      | true =>
        rw [eq_of_beq hkey, lookup_eq_none_of_not_mem h.1]
        rfl

/-- The members of an object of distinct keys. -/
theorem get?_ofSome {members : List (String × Option Json)} (h : (members.map (·.1)).Nodup)
    (key : String) : (ofSome members).get? key = (members.lookup key).join := by
  have hpresent : ((members.filterMap fun (k, v) => v.map (k, ·)).map (·.1)).Nodup := by
    refine List.Nodup.sublist ?_ h
    induction members with
    | nil => exact List.Sublist.refl _
    | cons m rest ih =>
      obtain ⟨k, v⟩ := m
      have hrest := ih (List.nodup_cons.mp h).2
      cases v with
      | some v => exact hrest.cons_cons k
      | none => exact hrest.cons k
  rw [ofSome, ofMembers, get?, lookup_foldl_insert hpresent, lookup_present members key h]
  exact Option.or_none

end Json

end DebugAdapter
