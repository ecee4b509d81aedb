import EventWire.Json.Token

/-!
# JSON as it is written

Between tokens and values stands the `Source`: the structure of a text with all
members of an object, repeated keys included, and with no limit on depth. A
reader that wants only some members takes them from here and leaves the others
unread. `Source.toJson?` reads the whole of it as a value.

`Source.ofTokens?` is a machine over the tokens with a stack of open arrays and
objects, so it is structural on the tokens and takes text of any depth.
-/

namespace EventWire.Json

/-- JSON text by its structure. A key without a text is written with half of a
surrogate pair. -/
inductive Source where
  | null
  | bool (b : Bool)
  | number (n : Number)
  | string (s : String)
  | loneSurrogate
  | outOfRange
  | array (items : List Source)
  | object (members : List (Option String × Source))
  deriving Inhabited

namespace Source

/-- An array or object that is still open: what it holds so far, latest first. -/
inductive Frame where
  | array (done : List Source)
  | object (done : List (Option String × Source)) (key : Option String)

/-- What may come next. -/
inductive State where
  | value (outer : List Frame)
  | itemOrEnd (outer : List Frame)
  | keyOrEnd (outer : List Frame)
  | key (done : List (Option String × Source)) (outer : List Frame)
  | colon (done : List (Option String × Source)) (key : Option String) (outer : List Frame)
  | after (v : Source) (outer : List Frame)

/-- The state after the first token of a value. -/
def start (outer : List Frame) : Token → Option State
  | .null => some (.after .null outer)
  | .bool b => some (.after (.bool b) outer)
  | .number n => some (.after (.number n) outer)
  | .string s => some (.after (.string s) outer)
  | .loneSurrogate => some (.after .loneSurrogate outer)
  | .outOfRange => some (.after .outOfRange outer)
  | .openArray => some (.itemOrEnd outer)
  | .openObject => some (.keyOrEnd outer)
  | _ => none

/-- The state after a key. -/
def startMember (done : List (Option String × Source)) (outer : List Frame) :
    Token → Option State
  | .string s => some (.colon done (some s) outer)
  | .loneSurrogate => some (.colon done none outer)
  | _ => none

/-- One step of the machine. -/
def State.step : State → Token → Option State
  | .value outer, t => start outer t
  | .itemOrEnd outer, .closeArray => some (.after (.array []) outer)
  | .itemOrEnd outer, t => start (.array [] :: outer) t
  | .keyOrEnd outer, .closeObject => some (.after (.object []) outer)
  | .keyOrEnd outer, t => startMember [] outer t
  | .key done outer, t => startMember done outer t
  | .colon done k outer, .colon => some (.value (.object done k :: outer))
  | .after v (.array done :: outer), .comma => some (.value (.array (v :: done) :: outer))
  | .after v (.array done :: outer), .closeArray =>
    some (.after (.array (v :: done).reverse) outer)
  | .after v (.object done k :: outer), .comma => some (.key ((k, v) :: done) outer)
  | .after v (.object done k :: outer), .closeObject =>
    some (.after (.object ((k, v) :: done).reverse) outer)
  | _, _ => none

/-- The machine on a list of tokens. -/
def State.run : State → List Token → Option State
  | s, [] => some s
  | s, t :: rest => (s.step t).bind fun s => s.run rest

/-- The structure of a list of tokens that is one whole value. -/
def ofTokens? (ts : List Token) : Option Source :=
  match (State.value []).run ts with
  | some (.after v []) => some v
  | _ => none

/-- The structure of a text. -/
def ofText? (cs : List Char) : Option Source :=
  (scan cs).bind ofTokens?

mutual

/-- The value of a text that nests at most `levels` deep. Of a repeated key the
last value counts, at the first place. -/
def toJson? (levels : Nat) : Source → Option Json
  | .null => some .null
  | .bool b => some (.bool b)
  | .number n => some (.number n)
  | .string s => some (.string s)
  | .loneSurrogate => none
  | .outOfRange => none
  | .array items =>
    match levels with
    | 0 => none
    | levels + 1 => (itemsToJson? levels items).map .array
  | .object members =>
    match levels with
    | 0 => none
    | levels + 1 => (membersToJson? levels [] members).map .object

/-- The values of the items. -/
def itemsToJson? (levels : Nat) : List Source → Option (List Json)
  | [] => some []
  | s :: rest =>
    match toJson? levels s, itemsToJson? levels rest with
    | some v, some vs => some (v :: vs)
    | _, _ => none

/-- The members, put one after the other into those read before. -/
def membersToJson? (levels : Nat) (before : List (String × Json)) :
    List (Option String × Source) → Option (List (String × Json))
  | [] => some before
  | (some key, s) :: rest =>
    match toJson? levels s with
    | some v => membersToJson? levels (Json.insert key v before) rest
    | none => none
  | (none, _) :: _ => none

end

end Source

/-- Reads a JSON value. -/
def parse? (s : String) : Option Json :=
  (Source.ofText? s.toList).bind (Source.toJson? maxDepth)

/-- Reads JSON text that is one string. -/
def parseString? (s : String) : Option String :=
  (parse? s).bind text?

end EventWire.Json
