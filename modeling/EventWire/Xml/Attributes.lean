import EventWire.Text.Blank

/-!
# The attributes of a tag

Attributes stand after the name of a tag. Their values must be quoted; no blank is
needed between two of them, and names are not checked. A tag whose attributes
cannot be read to the end is `broken` from that place on. What can be made out
beyond such places are the legible attributes.
-/

namespace EventWire.Xml

/-- The attributes of a tag as they are written, up to the first that cannot be
read. -/
structure RawAttributes where
  items : List (List Char × List Char)
  broken : Bool
  deriving DecidableEq

/-- Reads a quoted value. -/
def quotedValue? : List Char → Option (List Char × List Char)
  | q :: rest =>
    if q = '"' || q = '\'' then
      match rest.dropWhile fun c => c ≠ q with
      | [] => none
      | _ :: after => some (rest.takeWhile fun c => c ≠ q, after)
    else none
  | [] => none

/-- True for the characters of an attribute's name after the first. -/
def inAttributeName (c : Char) : Bool :=
  c ≠ '=' && !Text.isPlainBlank c

/-- Reads an attribute whose name begins with `first`. -/
def readAttribute? (first : Char) (rest : List Char) :
    Option ((List Char × List Char) × List Char) :=
  let name := first :: rest.takeWhile inAttributeName
  match (rest.dropWhile inAttributeName).dropWhile Text.isPlainBlank with
  | '=' :: after =>
    (quotedValue? (after.dropWhile Text.isPlainBlank)).map fun (value, after) =>
      ((name, value), after)
  | _ => none

/-- Reads attributes. Each takes at least one character, so as many rounds as
there are characters are enough. -/
def rawAttributesWithin : Nat → List Char → RawAttributes
  | 0, _ => { items := [], broken := false }
  | fuel + 1, cs =>
    match cs.dropWhile Text.isPlainBlank with
    | [] => { items := [], broken := false }
    | first :: rest =>
      match readAttribute? first rest with
      | none => { items := [], broken := true }
      | some (item, after) =>
        let r := rawAttributesWithin fuel after
        { r with items := item :: r.items }

/-- The attributes written in what follows a tag's name. -/
def rawAttributes (cs : List Char) : RawAttributes :=
  rawAttributesWithin cs.length cs

/-- What follows the next blank, with the blank. -/
def afterWord (cs : List Char) : List Char :=
  cs.dropWhile fun c => !Text.isPlainBlank c

/-- Reads attributes and passes over what is none: a name without a value, a value
without quotes and a name that was `seen` before. Nothing is read after a quote that
is not closed. Each round takes at least one character. -/
def legibleWithin : Nat → (seen : List (List Char)) → List Char → List (List Char × List Char)
  | 0, _, _ => []
  | fuel + 1, seen, cs =>
    match cs.dropWhile Text.isPlainBlank with
    | [] => []
    | first :: rest =>
      let name := first :: rest.takeWhile inAttributeName
      match (rest.dropWhile inAttributeName).dropWhile Text.isPlainBlank with
      | '=' :: after =>
        if name ∈ seen then legibleWithin fuel seen (afterWord after)
        else
          let after := after.dropWhile Text.isPlainBlank
          match quotedValue? after with
          | some (value, after) => (name, value) :: legibleWithin fuel (name :: seen) after
          | none =>
            if after.head? = some '"' ∨ after.head? = some '\'' then []
            else legibleWithin fuel (name :: seen) (afterWord after)
      | rest => legibleWithin fuel seen rest

/-- The attributes that can be made out in what follows a tag's name. -/
def legibleAttributes (cs : List Char) : List (List Char × List Char) :=
  legibleWithin cs.length [] cs

end EventWire.Xml
