import DebugAdapter.Toml.Scalar

/-!
# TOML documents

A document is read line by line into tables, and then into the same tree as JSON, the members in
the order they were written; a table counts as written where its header stands, even if the header
of a table inside it comes before.  A key may be given once; a table may be opened once, after parts
of it have been opened or not; a table that stands in braces is complete.
-/

namespace DebugAdapter.Toml

/-- How a table came about. -/
inductive Origin where
  /-- By a header of its own. -/
  | header
  /-- By the header of a table inside it. -/
  | implied
  /-- By a key with dots. -/
  | dotted
  deriving DecidableEq

inductive Node where
  | value (j : Json)
  | table (origin : Origin) (members : List (String × Node))
  | tables (items : List (List (String × Node)))

abbrev Members := List (String × Node)

mutual

def Node.toJson : Node → Json
  | .value j => j
  | .table _ members => .obj (membersToJson members)
  | .tables items => .arr (itemsToJson items)

def membersToJson : List (String × Node) → List (String × Json)
  | [] => []
  | (k, n) :: rest => (k, n.toJson) :: membersToJson rest

def itemsToJson : List (List (String × Node)) → List Json
  | [] => []
  | m :: rest => .obj (membersToJson m) :: itemsToJson rest

end

/-- Changes the node of a key, which may be absent before. -/
def alter (key : String) (f : Option Node → Option Node) : Members → Option Members
  | [] => (f none).map fun n => [(key, n)]
  | (k, n) :: rest =>
    if k == key then (f (some n)).map fun n => (k, n) :: rest
    else (alter key f rest).map ((k, n) :: ·)

/-- Changes the last item of a list. -/
def alterLast {α : Type} (f : α → Option α) : List α → Option (List α)
  | [] => none
  | [x] => (f x).map ([·])
  | x :: xs => (alterLast f xs).map (x :: ·)

/-- Changes the table at the path of a header; tables on the way are implied. -/
def atHeader (f : Members → Option Members) : List String → Members → Option Members
  | [], members => f members
  | k :: path, members => alter k (fun
    | none => (atHeader f path []).map (.table .implied)
    | some (.table origin inner) => (atHeader f path inner).map (.table origin)
    | some (.tables items) => (alterLast (atHeader f path) items).map .tables
    | some (.value _) => none) members

/-- Sets a key with dots.  On its way it may pass tables that have no header and the last of a list
of tables, but the table that gets the value must have come about by keys with dots; `direct` says
that the table at hand may get it. -/
def setDotted (j : Json) (direct : Bool) : List String → Members → Option Members
  | [], _ => none
  | [k], members =>
    if direct && !members.any (·.1 == k) then some (members ++ [(k, .value j)]) else none
  | k :: path, members => alter k (fun
    | none => (setDotted j true path []).map (.table .dotted)
    | some (.table .header _) => none
    | some (.table origin inner) => (setDotted j (origin == .dotted) path inner).map (.table origin)
    | some (.tables items) => (alterLast (setDotted j false path) items).map .tables
    | some (.value _) => none) members

/-- Opens the table `k`, behind all others: a table that was only implied moves there. -/
def openLast (k : String) (members : Members) : Option Members :=
  let others := members.filter (·.1 != k)
  match members.find? (·.1 == k) with
  | none => some (others ++ [(k, .table .header [])])
  | some (_, .table .implied inner) => some (others ++ [(k, .table .header inner)])
  | some _ => none

/-- Opens the table of a header. -/
def openTable (path : List String) (root : Members) : Option Members :=
  match path.getLast? with
  | none => none
  | some k => atHeader (openLast k) path.dropLast root

/-- Opens one more table of a list of tables. -/
def openItem (path : List String) (root : Members) : Option Members :=
  match path.getLast? with
  | none => none
  | some k => atHeader (alter k fun
    | none => some (.tables [[]])
    | some (.tables items) => some (.tables (items ++ [[]]))
    | some _ => none) path.dropLast root

def isBareKeyChar (c : Char) : Bool := c.isAlphanum || c == '_' || c == '-'

/-- One part of a key. -/
def readKeyPart? (cs : List Char) : Option (String × List Char) :=
  match cs with
  | '"' :: r => readLineString? '"' true [] (r.length + 1) r
  | '\'' :: r => readLineString? '\'' false [] (r.length + 1) r
  | _ =>
    let k := cs.takeWhile isBareKeyChar
    if k.isEmpty then none else some (String.ofList k, cs.drop k.length)

/-- How deep values may nest, and how many parts a key may have. -/
def depthLimit : Nat := 79

/-- A key: at most `parts` parts with dots between them. -/
def readParts? : Nat → List Char → Option (List String × List Char)
  | 0, _ => none
  | parts + 1, cs => do
    let (k, rest) ← readKeyPart? (skipSpace cs)
    match skipSpace rest with
    | '.' :: rest => do
      let (ks, rest) ← readParts? parts rest
      return (k :: ks, rest)
    | rest => return ([k], rest)

def readKey? (cs : List Char) : Option (List String × List Char) := readParts? depthLimit cs

/-- A comment, if there is one, up to the end of its line. -/
def skipComment? (cs : List Char) : Option (List Char) :=
  match cs with
  | '#' :: r =>
    let text := r.takeWhile fun c => c != '\n'
    let text := if text.getLast? == some '\r' then text.dropLast else text
    if text.any isControl then none else some (r.drop text.length)
  | cs => some cs

/-- Blanks, comments and line ends between the items of an array. -/
def skipLines? : Nat → List Char → Option (List Char)
  | 0, _ => none
  | fuel + 1, cs => do
    match ← skipComment? (skipSpace cs) with
    | '\n' :: r => skipLines? fuel r
    | '\r' :: '\n' :: r => skipLines? fuel r
    | r => return r

/-- The items of an array after its bracket. -/
def readItems? (item : List Char → Option (Json × List Char)) :
    Nat → List Char → Option (List Json × List Char)
  | 0, _ => none
  | fuel + 1, cs => do
    match ← skipLines? (cs.length + 1) cs with
    | ']' :: rest => return ([], rest)
    | cs =>
      let (v, rest) ← item cs
      match ← skipLines? (rest.length + 1) rest with
      | ',' :: rest =>
        let (vs, rest) ← readItems? item fuel rest
        return (v :: vs, rest)
      | ']' :: rest => return ([v], rest)
      | _ => none

/-- The members of a table in braces, at least one of them. -/
def readInline? (item : List Char → Option (Json × List Char)) (members : Members) :
    Nat → List Char → Option (Members × List Char)
  | 0, _ => none
  | fuel + 1, cs => do
    let (key, rest) ← readKey? cs
    match rest with
    | '=' :: rest =>
      let (v, rest) ← item (skipSpace rest)
      let members ← setDotted v true key members
      match skipSpace rest with
      | ',' :: rest => readInline? item members fuel rest
      | '\x7d' :: rest => return (members, rest)
      | _ => none
    | _ => none

/-- A value that nests at most `depth` deep. -/
def readValue? : Nat → List Char → Option (Json × List Char)
  | depth, cs =>
    match cs with
    | '[' :: rest =>
      match depth with
      | 0 => none
      | depth + 1 => (readItems? (readValue? depth) (rest.length + 1) rest).map fun (vs, r) =>
        (.arr vs, r)
    | '\x7b' :: rest =>
      match depth with
      | 0 => none
      | depth + 1 =>
        match skipSpace rest with
        | '\x7d' :: rest => some (.obj [], rest)
        | _ => (readInline? (readValue? depth) [] (rest.length + 1) rest).map fun (ms, r) =>
          (.obj (membersToJson ms), r)
    | '"' :: _ => (readString? cs).map fun (s, r) => (.str s, r)
    | '\'' :: _ => (readString? cs).map fun (s, r) => (.str s, r)
    | _ => readWord? cs

/-- The end of a line: blanks, a comment, and a line end or the end of the text. -/
def endLine? (cs : List Char) : Option (List Char) := do
  match ← skipComment? (skipSpace cs) with
  | [] => return []
  | '\n' :: r => return r
  | '\r' :: '\n' :: r => return r
  | _ => none

/-- The rest of a document; `path` is that of the table whose header came last. -/
def readLines? (path : List String) (root : Members) : Nat → List Char → Option Members
  | 0, _ => none
  | fuel + 1, cs =>
    match skipSpace cs with
    | [] => some root
    | '\n' :: r => readLines? path root fuel r
    | '\r' :: '\n' :: r => readLines? path root fuel r
    | '#' :: r => do readLines? path root fuel (← endLine? ('#' :: r))
    | '[' :: '[' :: r => do
      let (key, rest) ← readKey? r
      match rest with
      | ']' :: ']' :: rest => readLines? key (← openItem key root) fuel (← endLine? rest)
      | _ => none
    | '[' :: r => do
      let (key, rest) ← readKey? r
      match rest with
      | ']' :: rest => readLines? key (← openTable key root) fuel (← endLine? rest)
      | _ => none
    | r => do
      let (key, rest) ← readKey? r
      match rest with
      | '=' :: rest =>
        let (v, rest) ← readValue? depthLimit (skipSpace rest)
        let root ← atHeader (setDotted v true key) path root
        readLines? path root fuel (← endLine? rest)
      | _ => none

/-- A document as a tree. -/
def read? (text : String) : Option Json :=
  let cs := match text.toList with
    | '\uFEFF' :: r => r
    | r => r
  (readLines? [] [] (cs.length + 1) cs).map fun members => .obj (membersToJson members)

end DebugAdapter.Toml
