import EventWire.Text.Ascii
import EventWire.Text.Blank
import EventWire.Text.Quoted
import EventWire.Text.Utf8

/-!
# Charsets

Three charsets turn text into bytes and back. US-ASCII and ISO-8859-1 give every
byte one character and differ in how far they reach. Encoding reports the first
character out of reach, decoding the place of the first byte that cannot be read.
-/

namespace EventWire

/-- A charset. -/
inductive Charset where
  | utf8
  | usAscii
  | latin1
  deriving DecidableEq

/-- Why text and bytes cannot be converted. -/
inductive CharsetError where
  | unsupported (name : String)
  | unmappable (charset : Charset) (c : Char)
  | invalidInput (charset : Charset) (position : Nat)
  deriving DecidableEq

namespace Charset

/-- The registered name. -/
def name : Charset → String
  | .utf8 => "UTF-8"
  | .usAscii => "US-ASCII"
  | .latin1 => "ISO-8859-1"

/-- The names a charset goes by, in small letters. -/
def aliases : Charset → List String
  | .utf8 => ["utf-8", "utf8"]
  | .usAscii => ["us-ascii", "ascii"]
  | .latin1 => ["iso-8859-1", "iso8859-1", "latin1", "latin-1"]

/-- All charsets. -/
def all : List Charset := [.utf8, .usAscii, .latin1]

/-- Finds a charset by name, regardless of case and of blanks around it. -/
def ofName (name : String) : Except CharsetError Charset :=
  match all.find? fun c => (Text.asciiLower (Text.trim name)) ∈ c.aliases with
  | some c => .ok c
  | none => .error (.unsupported name)

/-- The first code point out of reach of a charset of one byte a character. -/
def reach : Charset → Nat
  | .utf8 => 0x110000
  | .usAscii => 0x80
  | .latin1 => 0x100

/-- One byte for each character below `c.reach`. -/
def encodeNarrow (c : Charset) : List Char → Except CharsetError Bytes
  | [] => .ok []
  | x :: rest =>
    if x.toNat < c.reach then
      match encodeNarrow c rest with
      | .ok bs => .ok (x.toNat.toUInt8 :: bs)
      | .error e => .error e
    else .error (.unmappable c x)

/-- One character for each byte below `c.reach`. -/
def decodeNarrow (c : Charset) (position : Nat) : Bytes → Except CharsetError (List Char)
  | [] => .ok []
  | b :: rest =>
    if b.toNat < c.reach then
      match decodeNarrow c (position + 1) rest with
      | .ok cs => .ok (Char.ofNat b.toNat :: cs)
      | .error e => .error e
    else .error (.invalidInput c position)

/-- Encodes text. -/
def encode (c : Charset) (s : String) : Except CharsetError Bytes :=
  match c with
  | .utf8 => .ok (Text.Utf8.encode s.toList)
  | _ => c.encodeNarrow s.toList

/-- Decodes bytes. -/
def decode (c : Charset) (bs : Bytes) : Except CharsetError String :=
  match c with
  | .utf8 =>
    match Text.Utf8.decode bs with
    | .ok cs => .ok (String.ofList cs)
    | .error position => .error (.invalidInput .utf8 position)
  | _ =>
    match c.decodeNarrow 0 bs with
    | .ok cs => .ok (String.ofList cs)
    | .error e => .error e

theorem ofName_name (c : Charset) : ofName c.name = .ok c := by
  cases c <;> rfl

end Charset

/-- The error in words. -/
def CharsetError.message : CharsetError → String
  | .unsupported name => s!"unsupported charset: {name}"
  | .unmappable charset c => s!"character {Text.quotedChar c} cannot be encoded as {charset.name}"
  | .invalidInput charset position => s!"invalid {charset.name} input at byte {position}"

end EventWire
