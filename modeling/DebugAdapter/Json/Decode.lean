import DebugAdapter.Json.Basic
import DebugAdapter.Decimal.Compact
import DebugAdapter.Text.Quoted

/-!
# Decoding JSON

Reading a tree as data of a given form.  A record is read from an object by the names of its fields,
or from a list by their order.  An error says what was found and what was expected.
-/

namespace DebugAdapter.Json

/-- A value found in the wrong place. -/
inductive Found where
  | null
  | bool (b : Bool)
  | int (n : Int)
  | real (x : Float)
  | text (s : String)
  | list
  | record

def found : Json → Found
  | .null => .null
  | .bool b => .bool b
  | .num (.int n) => .int n
  | .num (.real x) => .real x
  | .str s => .text s
  | .arr _ => .list
  | .obj _ => .record

/-- How a found value is named; formats differ in how they write floating-point numbers. -/
def Found.describe (realText : Float → String) : Found → String
  | .null => "null"
  | .bool b => "boolean `" ++ (if b then "true" else "false") ++ "`"
  | .int n => "integer `" ++ toString n ++ "`"
  | .real x => "floating point `" ++ realText x ++ "`"
  | .text s => "string " ++ Text.quoted s
  | .list => "sequence"
  | .record => "map"

inductive DecodeError where
  | wrongType (found : Found) (expected : String)
  | wrongValue (found : Found) (expected : String)
  | missingField (name : String)
  | unknownField (name : String) (expected : List String)
  | tooShort (length : Nat) (expected : String)
  | tooLong (length : Nat)

/-- The names a record has, as an error lists them. -/
def describeNames : List String → String
  | [] => "there are no fields"
  | [a] => "expected `" ++ a ++ "`"
  | [a, b] => "expected `" ++ a ++ "` or `" ++ b ++ "`"
  | names => "expected one of " ++ ", ".intercalate (names.map fun n => "`" ++ n ++ "`")

def DecodeError.message (realText : Float → String) : DecodeError → String
  | .wrongType found expected =>
    "invalid type: " ++ found.describe realText ++ ", expected " ++ expected
  | .wrongValue found expected =>
    "invalid value: " ++ found.describe realText ++ ", expected " ++ expected
  | .missingField name => "missing field `" ++ name ++ "`"
  | .unknownField name expected => "unknown field `" ++ name ++ "`, " ++ describeNames expected
  | .tooShort n expected => "invalid length " ++ toString n ++ ", expected " ++ expected
  | .tooLong n => "invalid length " ++ toString n ++ ", expected fewer elements in array"

abbrev Decoder (α : Type) := Json → Except DecodeError α

/-- A whole number within bounds, under the name of its kind. -/
def whole (low high : Int) (kind : String) : Decoder Int
  | .num (.int n) =>
    if low ≤ n && n ≤ high then .ok n else .error (.wrongValue (.int n) kind)
  | j => .error (.wrongType j.found kind)

def int64 : Decoder Int := whole (-Nat.pow 2 63) (Nat.pow 2 63 - 1) "i64"

/-- A natural number of the given number of bits, under the name of its kind. -/
def natural (bits : Nat) (kind : String) : Decoder Nat :=
  fun j => (whole 0 (Nat.pow 2 bits - 1) kind j).map Int.toNat

def nat16 : Decoder Nat := natural 16 "u16"

def nat32 : Decoder Nat := natural 32 "u32"

def nat64 : Decoder Nat := natural 64 "u64"

/-- A size or a position. -/
def sizeNat : Decoder Nat := natural 64 "usize"

/-- A text, under the name of what it is for. -/
def textFor (kind : String) : Decoder String
  | .str s => .ok s
  | j => .error (.wrongType j.found kind)

def text : Decoder String := textFor "a string"

def boolean : Decoder Bool
  | .bool b => .ok b
  | j => .error (.wrongType j.found "a boolean")

/-- Null is nothing; anything else is read by `d`. -/
def optional {α : Type} (d : Decoder α) : Decoder (Option α)
  | .null => .ok none
  | j => (d j).map some

def list {α : Type} (d : Decoder α) : Decoder (List α)
  | .arr items => items.mapM d
  | j => .error (.wrongType j.found "a sequence")

/-- A field of a record: its name, and the check that its value has the right form. -/
structure Field where
  name : String
  check : Json → Except DecodeError Unit

/-- The fields of a record in order, and how the record is made from them.  `read` gets the values
that are there and the error to raise for a field that must be there and is not. -/
structure Fields (α : Type) where
  fields : List Field
  read : (String → Option Json) → (String → DecodeError) → Except DecodeError α

namespace Fields

instance : Functor Fields where
  map f a := ⟨a.fields, fun get missing => (a.read get missing).map f⟩

instance : Seq Fields where
  seq f a :=
    let a := a ()
    ⟨f.fields ++ a.fields, fun get missing => do
      let g ← f.read get missing
      let x ← a.read get missing
      return g x⟩

/-- A field that must be there. -/
def required {α : Type} (name : String) (d : Decoder α) : Fields α where
  fields := [⟨name, fun j => (d j).map fun _ => ()⟩]
  read get missing :=
    match get name with
    | some j => d j
    | none => .error (missing name)

/-- A field that may be left out. -/
def withDefault {α : Type} (name : String) (d : Decoder α) (default : α) : Fields α where
  fields := [⟨name, fun j => (d j).map fun _ => ()⟩]
  read get _ :=
    match get name with
    | some j => d j
    | none => .ok default

/-- Whether members of other names, and list items beyond the fields, are passed over. -/
structure Strictness where
  unknownNames : Bool
  extraItems : Bool

/-- Checks members in their order. -/
def checkMembers (fields : List Field) (strict : Bool) : List (String × Json) →
    Except DecodeError Unit
  | [] => .ok ()
  | (k, v) :: rest =>
    match fields.find? (·.name == k) with
    | some f =>
      match f.check v with
      | .ok _ => checkMembers fields strict rest
      | .error e => .error e
    | none =>
      if strict then .error (.unknownField k (fields.map (·.name)))
      else checkMembers fields strict rest

/-- What a record that is too short a list is said to be. -/
def describeLength (name : String) (n : Nat) : String :=
  "struct " ++ name ++ " with " ++ toString n ++ (if n == 1 then " element" else " elements")

/-- Reads a record of the given name.  Members are checked in the order they stand in, and missing
ones are found afterwards, in the order of the fields.  A list that is too short is told by the
position of the first field that it lacks. -/
def decode {α : Type} (r : Fields α) (name : String) (s : Strictness) : Decoder α
  | .obj members => do
    checkMembers r.fields (!s.unknownNames) members
    r.read (fun k => members.lookup k) .missingField
  | .arr items => do
    let names := r.fields.map (·.name)
    let named := names.zip items
    let value ← r.read (fun k => named.lookup k) fun k =>
      .tooShort (names.idxOf k) (describeLength name names.length)
    if !s.extraItems && r.fields.length < items.length then throw (.tooLong items.length)
    return value
  | j => .error (.wrongType j.found ("struct " ++ name))

end Fields

end DebugAdapter.Json
