import EventWire.Toml.Scalar

/-!
# TOML statements

A document is a row of statements: headers, and assignments of a value to a
dotted key. `statements?` reads them; what they mean together is decided later.
Arrays and inline tables nest up to `maxDepth` levels.
-/

namespace EventWire.Toml

/-- A statement. -/
inductive Statement where
  | header (asRow : Bool) (path : List String)
  | assign (path : List String) (v : Value)

/-- The levels to which arrays and inline tables nest. -/
def maxDepth : Nat := 80

/-! ## Blanks and comments -/

/-- Drops a comment, up to its line end, if one begins here; `none` when it holds a
control. -/
def dropComment? (cs : List Char) : Option (List Char) :=
  match cs with
  | '#' :: _ =>
    let line := cs.takeWhile (· ≠ '\n')
    let after := cs.dropWhile (· ≠ '\n')
    if line.getLast? = some '\r' && !after.isEmpty then
      if line.dropLast.any isControl then none else some after
    else if line.any isControl then none
    else some after
  | _ => some cs

/-- Drops the rest of a line, which holds at most a comment. -/
def endLine? (cs : List Char) : Option (List Char) := do
  let rest ← dropComment? (cs.dropWhile isSpace)
  match rest with
  | [] => some []
  | _ => dropLineEnd? rest

/-- Drops blanks, comments and line ends, as many as there are. -/
def dropLinesWithin : Nat → List Char → Option (List Char)
  | 0, cs => some cs
  | fuel + 1, cs => do
    let rest ← dropComment? (cs.dropWhile isSpace)
    match dropLineEnd? rest with
    | some after => dropLinesWithin fuel after
    | none => some rest

/-- Drops all blanks, comments and line ends at the beginning. -/
def dropLines? (cs : List Char) : Option (List Char) :=
  dropLinesWithin cs.length cs

/-! ## Keys -/

/-- True for the characters of bare keys. -/
def inBareKey (c : Char) : Bool :=
  c.isAlphanum || c = '_' || c = '-'

/-- Reads one part of a key: bare, or a string on one line. -/
def scanKey (cs : List Char) : Option (String × List Char) :=
  match cs with
  | '"' :: rest => (scanBasic rest).map fun (s, after) => (String.ofList s, after)
  | '\'' :: rest => (scanLiteral rest).map fun (s, after) => (String.ofList s, after)
  | _ =>
    let key := cs.takeWhile inBareKey
    if key.isEmpty then none else some (String.ofList key, cs.dropWhile inBareKey)

/-- Reads a dotted key of as many parts at most. -/
def scanPathWithin : Nat → List Char → Option (List String × List Char)
  | 0, _ => none
  | fuel + 1, cs => do
    let (key, rest) ← scanKey (cs.dropWhile isSpace)
    match rest.dropWhile isSpace with
    | '.' :: rest => do
      let (path, after) ← scanPathWithin fuel rest
      some (key :: path, after)
    | after => some ([key], after)

/-- Reads a dotted key, with the blanks around it. -/
def scanPath (cs : List Char) : Option (List String × List Char) :=
  scanPathWithin cs.length cs

/-! ## Values -/

/-- Reads the items of an array, behind its bracket, by the reader for one of them. -/
def scanItemsWithin (item : List Char → Option (Value × List Char)) :
    Nat → List Char → Option (List Value × List Char)
  | 0, _ => none
  | fuel + 1, cs => do
    match ← dropLines? cs with
    | ']' :: after => some ([], after)
    | rest =>
      let (v, rest) ← item rest
      match ← dropLines? rest with
      | ']' :: after => some ([v], after)
      | ',' :: rest =>
        let (vs, after) ← scanItemsWithin item fuel rest
        some (v :: vs, after)
      | _ => none

/-- Reads one assignment by the reader for its value. -/
def scanAssignment (item : List Char → Option (Value × List Char)) (cs : List Char) :
    Option ((List String × Value) × List Char) := do
  let (path, rest) ← scanPath cs
  match rest with
  | '=' :: rest =>
    let (v, after) ← item (rest.dropWhile isSpace)
    some ((path, v), after)
  | _ => none

/-- Reads the entries of an inline table, behind its brace. -/
def scanEntriesWithin (item : List Char → Option (Value × List Char)) :
    Nat → Entries → List Char → Option (Entries × List Char)
  | 0, _, _ => none
  | fuel + 1, entries, cs => do
    match ← dropLines? cs with
    | '\x7d' :: after => some (entries, after)
    | rest =>
      let ((path, v), rest) ← scanAssignment item rest
      let entries ← entries.insert? v path
      match ← dropLines? rest with
      | '\x7d' :: after => some (entries, after)
      | ',' :: rest => scanEntriesWithin item fuel entries rest
      | _ => none

/-- Reads a value that nests to as many levels at most. -/
def scanValueWithin : Nat → List Char → Option (Value × List Char)
  | 0, cs => scanScalar cs
  | depth + 1, cs =>
    match cs with
    | '[' :: rest =>
      (scanItemsWithin (scanValueWithin depth) cs.length rest).map fun (items, after) =>
        (.list items, after)
    | '\x7b' :: rest =>
      (scanEntriesWithin (scanValueWithin depth) cs.length [] rest).map fun (entries, after) =>
        (.table .inline entries, after)
    | _ => scanScalar cs

/-- Reads a value. -/
def scanValue (cs : List Char) : Option (Value × List Char) :=
  scanValueWithin maxDepth cs

/-! ## Statements -/

/-- Reads the path of a header in single brackets, behind the opening one. -/
def scanHeader (cs : List Char) : Option (List String × List Char) := do
  let (path, rest) ← scanPath cs
  match rest with
  | ']' :: after => some (path, after)
  | _ => none

/-- Reads the path of a header in double brackets, behind the opening ones. -/
def scanRowHeader (cs : List Char) : Option (List String × List Char) := do
  let (path, rest) ← scanPath cs
  match rest with
  | ']' :: ']' :: after => some (path, after)
  | _ => none

/-- Reads one statement, up to the end of its line. -/
def scanStatement (cs : List Char) : Option (Statement × List Char) :=
  match cs with
  | '[' :: '[' :: rest => (scanRowHeader rest).map fun (path, after) => (.header true path, after)
  | '[' :: rest => (scanHeader rest).map fun (path, after) => (.header false path, after)
  | _ => (scanAssignment scanValue cs).map fun ((path, v), after) => (.assign path v, after)

/-- Reads as many statements at most. -/
def statementsWithin : Nat → List Char → Option (List Statement)
  | 0, _ => none
  | fuel + 1, cs => do
    match ← dropLines? cs with
    | [] => some []
    | rest =>
      let (s, rest) ← scanStatement rest
      let rest ← endLine? rest
      (statementsWithin fuel rest).map (s :: ·)

/-- The statements of a text. -/
def statements? (cs : List Char) : Option (List Statement) :=
  statementsWithin (cs.length + 1) cs

end EventWire.Toml
