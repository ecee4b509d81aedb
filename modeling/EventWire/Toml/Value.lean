/-!
# TOML values

The values of a TOML document, and the two ways in which entries come into its
tables: under a dotted key, and as the body of a section with a header. A table
remembers how it came about, because that decides what may still be added: a
dotted key adds only to tables that dotted keys made, a header adds only to a
table that was a mere step on the way to another header, and nothing adds to an
inline table or to an array in brackets. No key is ever given twice.
-/

namespace EventWire.Toml

/-- How a table came about. -/
inductive Origin where
  | header
  | implied
  | dotted
  | inline
  deriving DecidableEq, Repr

/-- A value. Numbers with a fraction and moments of time keep their text; `rows`
are the tables that headers in double brackets add one by one. -/
inductive Value where
  | text (s : String)
  | integer (i : Int)
  | decimal (written : String)
  | truth (b : Bool)
  | moment (written : String)
  | list (items : List Value)
  | table (origin : Origin) (entries : List (String × Value))
  | rows (items : List (List (String × Value)))

/-- The contents of a table, in order. -/
abbrev Entries := List (String × Value)

/-- The value under a key. -/
def Entries.get? (entries : Entries) (key : String) : Option Value :=
  (List.find? (fun e => e.1 = key) entries).map (·.2)

/-- Exchanges the value under a key that is there. -/
def Entries.replace (key : String) (v : Value) (entries : Entries) : Entries :=
  List.map (fun e => if e.1 = key then (key, v) else e) entries

/-- Puts a value under a dotted key. -/
def Entries.insert? (v : Value) : List String → Entries → Option Entries
  | [], _ => none
  | [key], entries =>
    match entries.get? key with
    | none => some (entries ++ [(key, v)])
    | some _ => none
  | key :: path, entries =>
    match entries.get? key with
    | none => (insert? v path []).map fun inner => entries ++ [(key, .table .dotted inner)]
    | some (.table .dotted inner) =>
      (insert? v path inner).map fun inner => replace key (.table .dotted inner) entries
    | some _ => none

/-- True when no key of one table stands in the other. -/
def Entries.disjoint (a b : Entries) : Bool :=
  List.all a fun e => (b.get? e.1).isNone

/-- Changes the last row. -/
def changeLast? (change : Entries → Option Entries) : List Entries → Option (List Entries)
  | [] => none
  | [row] => (change row).map fun row => [row]
  | row :: rest => (changeLast? change rest).map (row :: ·)

/-- Puts the body of a section in place; `asRow` tells a header in double brackets. -/
def Entries.insertSection? (asRow : Bool) (body : Entries) : List String → Entries → Option Entries
  | [], _ => none
  | [key], entries =>
    match asRow, entries.get? key with
    | false, none => some (entries ++ [(key, .table .header body)])
    | false, some (.table .implied inner) =>
      if body.disjoint inner then some (replace key (.table .header (inner ++ body)) entries)
      else none
    | true, none => some (entries ++ [(key, .rows [body])])
    | true, some (.rows items) => some (replace key (.rows (items ++ [body])) entries)
    | _, _ => none
  | key :: path, entries =>
    match entries.get? key with
    | none =>
      (insertSection? asRow body path []).map fun inner => entries ++ [(key, .table .implied inner)]
    | some (.table .inline _) => none
    | some (.table origin inner) =>
      (insertSection? asRow body path inner).map fun inner =>
        replace key (.table origin inner) entries
    | some (.rows items) =>
      (changeLast? (insertSection? asRow body path) items).map fun items =>
        replace key (.rows items) entries
    | some _ => none

end EventWire.Toml
