import EventWire.Text.Blank

/-!
# XML events

The pieces of XML text in order: tags, texts, CDATA sections and what stands
beside the content. Names, attributes and texts are kept as they are written. A
piece that is not well-formed is a `fault`, and nothing is read after it. An end
tag must name the innermost open element, and `matchEnds` puts a fault in the
place of one that does not.
-/

namespace EventWire.Xml

/-- A piece of XML text. -/
inductive Event where
  | declaration (attributes : List Char)
  | start (name attributes : List Char)
  | empty (name attributes : List Char)
  | close (name : List Char)
  | text (raw : List Char)
  | cdata (text : List Char)
  | comment
  | instruction
  | doctype
  | fault
  deriving DecidableEq

/-- Cuts after the first occurrence of a mark. -/
def cutAfter (mark : List Char) : List Char → Option (List Char × List Char)
  | [] => if mark.isEmpty then some ([], []) else none
  | c :: rest =>
    if mark.isPrefixOf (c :: rest) then some ([], (c :: rest).drop mark.length)
    else (cutAfter mark rest).map fun (before, after) => (c :: before, after)

/-- Cuts after the first `>` outside of quotes. -/
def cutTag (quote : Option Char) : List Char → Option (List Char × List Char)
  | [] => none
  | c :: rest =>
    let (done, quote) :=
      match quote with
      | none => (c == '>', if c = '"' || c = '\'' then some c else none)
      | some q => (false, if c = q then none else some q)
    if done then some ([], rest)
    else (cutTag quote rest).map fun (before, after) => (c :: before, after)

/-- Cuts after the `>` that no open `<` belongs to. -/
def cutBalanced (nested : Nat) : List Char → Option (List Char × List Char)
  | [] => none
  | c :: rest =>
    if c = '>' && nested = 0 then some ([], rest)
    else
      let nested := if c = '<' then nested + 1 else if c = '>' then nested - 1 else nested
      (cutBalanced nested rest).map fun (before, after) => (c :: before, after)

/-- A tag's name and what follows it. -/
def splitTag (cs : List Char) : List Char × List Char :=
  (cs.takeWhile fun c => !Text.isPlainBlank c, cs.dropWhile fun c => !Text.isPlainBlank c)

/-- The event of a start tag or an empty element, by what is between the brackets. -/
def openingEvent (inside : List Char) : Event :=
  if inside.getLast? = some '/' then
    let (name, attributes) := splitTag inside.dropLast
    .empty name attributes
  else
    let (name, attributes) := splitTag inside
    .start name attributes

/-- The event of an end tag; blanks may follow the name. -/
def closingEvent (inside : List Char) : Event :=
  let name := Text.dropEndWhile Text.isPlainBlank inside
  -- Blanks alone are a name too, which no start tag has.
  .close (if name.isEmpty then inside else name)

/-- The event of a processing instruction; one with the target `xml` is a
declaration. -/
def instructionEvent : List Char → Event
  | 'x' :: 'm' :: 'l' :: rest =>
    match rest with
    | [] => .declaration []
    | c :: _ => if Text.isPlainBlank c then .declaration rest else .instruction
  | _ => .instruction

/-- The event of a document type; it must be spelled out and name something. -/
def doctypeEvent (inside : List Char) : Event :=
  if (inside.take 7).map Char.toLower = ['d', 'o', 'c', 't', 'y', 'p', 'e'] ∧
      ¬(inside.drop 7).all Text.isPlainBlank then .doctype
  else .fault

/-- Reads what follows `<!`. -/
def bangEvent (cs : List Char) : Event × List Char :=
  let found : Option (Event × List Char) :=
    match cs with
    | '-' :: '-' :: rest => (cutAfter ['-', '-', '>'] rest).map fun (_, after) => (.comment, after)
    | '[' :: 'C' :: 'D' :: 'A' :: 'T' :: 'A' :: '[' :: rest =>
      (cutAfter [']', ']', '>'] rest).map fun (text, after) => (.cdata text, after)
    | c :: _ =>
      if c = 'D' || c = 'd' then
        (cutBalanced 0 cs).map fun (inside, after) => (doctypeEvent inside, after)
      else none
    | [] => none
  found.getD (.fault, [])

/-- Reads what follows `<`. -/
def markupEvent (cs : List Char) : Event × List Char :=
  match cs with
  | [] => (.fault, [])
  | '!' :: rest => bangEvent rest
  | '/' :: rest =>
    match cutTag none rest with
    | some (inside, after) => (closingEvent inside, after)
    | none => (.fault, [])
  | '?' :: rest =>
    if rest.head? = some '>' then (.fault, [])
    else
      match cutAfter ['?', '>'] rest with
      | some (inside, after) => (instructionEvent inside, after)
      | none => (.fault, [])
  | _ =>
    match cutTag none cs with
    | some (inside, after) => (openingEvent inside, after)
    | none => (.fault, [])

/-- Reads one event. -/
def Event.next (c : Char) (rest : List Char) : Event × List Char :=
  if c = '<' then markupEvent rest
  else
    (.text (c :: rest.takeWhile fun c => c ≠ '<'), rest.dropWhile fun c => c ≠ '<')

/-- Cuts a text into events. Every event takes at least one character, so as many
rounds as there are characters are enough. -/
def eventsWithin : Nat → List Char → List Event
  | 0, _ => []
  | _ + 1, [] => []
  | fuel + 1, c :: rest =>
    let (event, after) := Event.next c rest
    if event = .fault then [.fault] else event :: eventsWithin fuel after

/-- Lets end tags match start tags: `names` are those of the open elements. -/
def matchEnds : (names : List (List Char)) → List Event → List Event
  | _, [] => []
  | names, .start name attributes :: rest => .start name attributes :: matchEnds (name :: names) rest
  | names, .close name :: rest =>
    match names with
    | innermost :: names =>
      if name = innermost then .close name :: matchEnds names rest else [.fault]
    | [] => [.fault]
  | names, event :: rest => event :: matchEnds names rest

/-- Drops a byte order mark. -/
def dropMark : List Char → List Char
  | '\ufeff' :: rest => rest
  | cs => cs

/-- The events of a text. -/
def events (cs : List Char) : List Event :=
  let cs := dropMark cs
  matchEnds [] (eventsWithin cs.length cs)

end EventWire.Xml
