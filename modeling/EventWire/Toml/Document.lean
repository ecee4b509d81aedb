import EventWire.Toml.Statement

/-!
# TOML documents

The table that a document writes down. The assignments between two headers make up
the body of a section; the bodies are put in place in their order.
-/

namespace EventWire.Toml

/-- The part of a document that is being read: the finished sections in one table,
and the section that assignments go to. -/
structure Draft where
  root : Entries
  header : Option (Bool × List String)
  body : Entries

namespace Draft

/-- Before the first statement. -/
def empty : Draft where
  root := []
  header := none
  body := []

/-- The table with the open section put in place. -/
def close? (d : Draft) : Option Entries :=
  match d.header with
  | none => some d.body
  | some (asRow, path) => Entries.insertSection? asRow d.body path d.root

/-- The draft after a statement. -/
def add? (d : Draft) : Statement → Option Draft
  | .header asRow path => d.close?.map fun root => ⟨root, some (asRow, path), []⟩
  | .assign path v => (d.body.insert? v path).map fun body => { d with body }

end Draft

/-- The table of some statements. -/
def ofStatements? (statements : List Statement) : Option Entries := do
  let d ← statements.foldlM Draft.add? Draft.empty
  d.close?

/-- The text without a byte order mark at its beginning. -/
def dropMark : List Char → List Char
  | '\ufeff' :: rest => rest
  | cs => cs

/-- The table that a text writes down; `none` when the text is no document. -/
def parse? (text : String) : Option Entries := do
  let statements ← statements? (dropMark text.toList)
  ofStatements? statements

end EventWire.Toml
