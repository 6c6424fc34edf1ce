import EventReporter.Toml.Number
namespace EventReporter.Toml

/-!
# TOML documents

Reads the whole of a document into its top table, or refuses it. A document is a table of keys and
values. A table comes about in one of four ways, and it depends on the way who may add to it: a
header may name each table once, dotted keys add only to tables that dotted keys have made, and a
table written inside braces is closed.

* `Entries.updateAt` : changes the table at the end of a path, if the path may lead there.
* `parse?` : the top table of a document.
-/

/-! ### Tables -/

/-- How a table came about. -/
inductive Origin where
  /-- A header names it. -/
  | header
  /-- A header names a table inside it. -/
  | implied
  /-- A dotted key leads through it. -/
  | dotted
  /-- It is written inside braces. -/
  | inline
deriving DecidableEq, Repr

/-- A value of a document. -/
inductive Node where
  | string (s : String)
  | integer (i : Int)
  | float
  | boolean (b : Bool)
  /-- A date, a time, or both. -/
  | dateTime
  /-- A list inside brackets. -/
  | array (items : List Node)
  /-- A table. -/
  | table (origin : Origin) (entries : List (String × Node))
  /-- The tables that headers in double brackets have added, in order. -/
  | tables (items : List (List (String × Node)))

/-- The entries of a table. -/
abbrev Entries := List (String × Node)

namespace Entries

/-- The value of a key. -/
def get? (es : Entries) (key : String) : Option Node :=
  (List.find? (·.1 == key) es).map (·.2)

/-- The entries with another value for a key that is there. -/
def replace (es : Entries) (key : String) (n : Node) : Entries :=
  es.map fun e => if e.1 = key then (key, n) else e

/-- Whether keys may lead through a table that is there. -/
def passable (byDots : Bool) : Origin → Bool
  | .inline => false
  | .header => !byDots
  | .implied | .dotted => true

/-- Changes the table at the end of a path, making the tables that are missing. Of tables added
    by headers the path goes through the last. -/
def updateAt (byDots : Bool) (f : Origin → Entries → Option (Origin × Entries)) :
    List String → Origin → Entries → Option (Origin × Entries)
  | [], origin, es => f origin es
  | k :: ks, origin, es =>
    match es.get? k with
    | none => do
      let (made, below) ← updateAt byDots f ks (if byDots then .dotted else .implied) []
      some (origin, es ++ [(k, .table made below)])
    | some (.table o below) =>
      if passable byDots o then do
        let (o, below) ← updateAt byDots f ks o below
        some (origin, replace es k (.table o below))
      else none
    | some (.tables items) =>
      -- dotted keys and headers alike go on in the table that was added last
      match items.getLast? with
      | some last => do
        let (_, last) ← updateAt byDots f ks .header last
        some (origin, replace es k (.tables (items.dropLast ++ [last])))
      | none => none
    | some _ => none

/-- Adds a key with its value to a table. -/
def addHere (key : String) (n : Node) (origin : Origin) (es : Entries) :
    Option (Origin × Entries) :=
  match es.get? key with
  | some _ => none
  | none => some (origin, es ++ [(key, n)])

/-- Adds a value under a dotted key. Dots in front of the last part have to lead to a table that
    dotted keys have made. -/
def add (parents : List String) (key : String) (n : Node) (origin : Origin) (es : Entries) :
    Option (Origin × Entries) :=
  match parents with
  | [] => addHere key n origin es
  | _ => updateAt true
      (fun o below => if o = .dotted then addHere key n o below else none) parents origin es

/-- Starts the table that a header names. -/
def openTable (key : String) (origin : Origin) (es : Entries) : Option (Origin × Entries) :=
  match es.get? key with
  | none => some (origin, es ++ [(key, .table .header [])])
  | some (.table .implied below) => some (origin, replace es key (.table .header below))
  | some _ => none

/-- Starts another of the tables that a header in double brackets names. -/
def openElement (key : String) (origin : Origin) (es : Entries) : Option (Origin × Entries) :=
  match es.get? key with
  | none => some (origin, es ++ [(key, .tables [[]])])
  | some (.tables items) => some (origin, replace es key (.tables (items ++ [[]])))
  | some _ => none

end Entries

/-! ### Documents -/

/-- How deep lists and tables in braces may be nested. -/
def maxNesting : Nat := 79

/-- Adds pairs of a dotted key and a value to a table inside braces. -/
def collect (pairs : List (List String × Node)) : Option Entries :=
  pairs.foldlM
    (fun es (key, n) => do
      let last ← key.getLast?
      let (_, es) ← Entries.add key.dropLast last n .inline es
      some es) []

/-- The items of a list up to its closing bracket, after those in `done`, last one first; at most
    `room` of them. -/
def itemsFrom (item : Scan Node) (done : List Node) : (room : Nat) → Scan (List Node)
  | 0, _ => none
  | room + 1, cs =>
    match skipLines cs with
    | ']' :: rest => some (done.reverse, rest)
    | ahead => do
      let (x, behind) ← item ahead
      match skipLines behind with
      | ',' :: rest => itemsFrom item (x :: done) room rest
      | ']' :: rest => some ((x :: done).reverse, rest)
      | _ => none

/-- A key with its value. -/
def pair (item : Scan Node) : Scan (List String × Node) := fun cs => do
  let (k, afterKey) ← key cs
  match afterKey with
  | '=' :: rest =>
    let (x, behind) ← item (skipBlanks rest)
    some ((k, x), behind)
  | _ => none

/-- The pairs of a table inside braces up to the closing one, after those in `done`, last one
    first; at most `room` of them. -/
def pairsFrom (item : Scan Node) (done : List (List String × Node)) :
    (room : Nat) → Scan (List (List String × Node))
  | 0, _ => none
  | room + 1, cs => do
    let (p, behind) ← pair item cs
    match skipBlanks behind with
    | ',' :: rest => pairsFrom item (p :: done) room rest
    | '}' :: rest => some ((p :: done).reverse, rest)
    | _ => none

/-- A table inside braces, after the opening one. -/
def inlineTable (item : Scan Node) : Scan Node := fun cs =>
  match skipBlanks cs with
  | '}' :: rest => some (.table .inline [], rest)
  | _ => do
    let (pairs, rest) ← pairsFrom item [] (cs.length + 1) cs
    let es ← collect pairs
    some (.table .inline es, rest)

/-- A number or a date. -/
def numeric : Scan Node := fun cs =>
  match dateTime cs with
  | some (_, rest) => some (.dateTime, rest)
  | none =>
    match (finite cs).or (special cs) with
    | some (_, rest) => some (.float, rest)
    | none => (integer cs).map fun (i, rest) => (.integer i, rest)

/-- A value without parts. -/
def plain : Scan Node
  | '"' :: rest => (string ('"' :: rest)).map fun (s, rest) => (.string s, rest)
  | '\'' :: rest => (string ('\'' :: rest)).map fun (s, rest) => (.string s, rest)
  | 't' :: 'r' :: 'u' :: 'e' :: rest => some (.boolean true, rest)
  | 'f' :: 'a' :: 'l' :: 's' :: 'e' :: rest => some (.boolean false, rest)
  | cs => numeric cs

/-- A value with at most `depth` lists and tables around each other. -/
def value : (depth : Nat) → Scan Node
  | depth + 1, '[' :: rest =>
    (itemsFrom (value depth) [] (rest.length + 1) rest).map fun (xs, rest) => (.array xs, rest)
  | depth + 1, '{' :: rest => inlineTable (value depth) rest
  | _, cs => plain cs

/-- A document so far: the top table, and the headers around the current table. -/
structure Progress where
  /-- The top table. -/
  root : Entries
  /-- The path of the current table. -/
  path : List String

namespace Progress

/-- Adds a key with its value to the current table. -/
def add (p : Progress) (key : List String) (n : Node) : Option Progress := do
  let last ← key.getLast?
  let (_, root) ← Entries.updateAt false (Entries.add key.dropLast last n) p.path .header p.root
  some { p with root }

/-- Goes on to the table that a header names. -/
def enter (p : Progress) (opened : String → Origin → Entries → Option (Origin × Entries))
    (path : List String) : Option Progress := do
  let last ← path.getLast?
  let (_, root) ← Entries.updateAt false (opened last) path.dropLast .header p.root
  some ⟨root, path⟩

end Progress

/-- A header, and the end of its line. -/
def header (p : Progress) : Scan Progress
  | '[' :: '[' :: rest => do
    let (path, behind) ← key rest
    match behind with
    | ']' :: ']' :: rest =>
      let p ← p.enter Entries.openElement path
      some (p, ← lineEnd? rest)
    | _ => none
  | '[' :: rest => do
    let (path, behind) ← key rest
    match behind with
    | ']' :: rest =>
      let p ← p.enter Entries.openTable path
      some (p, ← lineEnd? rest)
    | _ => none
  | _ => none

/-- A line with something on it. -/
def line (p : Progress) : Scan Progress
  | '[' :: rest => header p ('[' :: rest)
  | cs => do
    let ((k, n), behind) ← pair (value maxNesting) cs
    let p ← p.add k n
    some (p, ← lineEnd? behind)

/-- Reads line by line, at most `room` of them. -/
def linesFrom (p : Progress) : (room : Nat) → List Char → Option Progress
  | 0, _ => none
  | room + 1, cs =>
    match skipBlanks cs with
    | [] => some p
    | '#' :: rest => do
      linesFrom p room (← lineEnd? ('#' :: rest))
    | ahead =>
      match lineFeed? ahead with
      | some rest => linesFrom p room rest
      | none => do
        let (p, rest) ← line p ahead
        linesFrom p room rest

/-- The text after a byte order mark. -/
def skipMark : List Char → List Char
  | '\ufeff' :: rest => rest
  | cs => cs

/-- The top table of a document. -/
def parse? (cs : List Char) : Option Entries :=
  (linesFrom ⟨[], []⟩ (cs.length + 1) (skipMark cs)).map Progress.root

end EventReporter.Toml
