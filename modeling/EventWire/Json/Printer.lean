import EventWire.Json.Token

/-!
# Printing JSON

The compact form: a value is a list of tokens, and its text is their texts one
after the other, with no blanks.
-/

namespace EventWire.Json

mutual

/-- The tokens of a value. -/
def tokens : Json → List Token
  | .null => [.null]
  | .bool b => [.bool b]
  | .number n => [.number n]
  | .string s => [.string s]
  | .array items => .openArray :: itemTokens items ++ [.closeArray]
  | .object members => .openObject :: memberTokens members ++ [.closeObject]

/-- The tokens of items, with a comma before each but the first. -/
def itemTokens : List Json → List Token
  | [] => []
  | v :: rest => tokens v ++ laterItemTokens rest

/-- The tokens of items that stand after another one. -/
def laterItemTokens : List Json → List Token
  | [] => []
  | v :: rest => .comma :: tokens v ++ laterItemTokens rest

/-- The tokens of members, with a comma before each but the first. -/
def memberTokens : List (String × Json) → List Token
  | [] => []
  | (k, v) :: rest => .string k :: .colon :: tokens v ++ laterMemberTokens rest

/-- The tokens of members that stand after another one. -/
def laterMemberTokens : List (String × Json) → List Token
  | [] => []
  | (k, v) :: rest => .comma :: .string k :: .colon :: tokens v ++ laterMemberTokens rest

end

/-- The compact text of a value. -/
def print (v : Json) : String :=
  String.ofList ((tokens v).flatMap Token.text)

end EventWire.Json
