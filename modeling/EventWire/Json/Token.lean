import EventWire.Bytes
import EventWire.Decimal.Layout
import EventWire.Json.Basic

/-!
# JSON tokens

The pieces that JSON text is made of. `Token.text` writes one, `Token.next?` reads
one, and `scan` cuts a whole text into tokens. Two tokens are well-formed text
without a value: a string with half of a surrogate pair, and a number beyond the
doubles. They may stand where nothing is read from them.
-/

namespace EventWire.Json

open Decimal (Binary64 Layout)

/-- A piece of JSON text. -/
inductive Token where
  | openArray
  | closeArray
  | openObject
  | closeObject
  | comma
  | colon
  | null
  | bool (b : Bool)
  | number (n : Number)
  | string (s : String)
  | loneSurrogate
  | outOfRange
  deriving DecidableEq

/-! ## Writing -/

/-- Doubles have a fraction or an exponent; from `10^16` on and below `10^-5` the
exponent is used, with its sign, and ties go to even digits. -/
def numberLayout : Layout where
  tie := .toEven
  positional := fun point => -5 < point && point ≤ 16
  wholeFraction := true
  exponentSign := true

/-- The text of a number. -/
def numberText : Number → List Char
  | .integer i _ _ => Decimal.integerDigits i
  | .float x => numberLayout.render x

/-- What stands for one character in a string. -/
def escapeChar (c : Char) : List Char :=
  match c with
  | '"' => ['\\', '"']
  | '\\' => ['\\', '\\']
  | '\n' => ['\\', 'n']
  | '\r' => ['\\', 'r']
  | '\t' => ['\\', 't']
  | '\x08' => ['\\', 'b']
  | '\x0c' => ['\\', 'f']
  | _ =>
    if c.toNat < 0x20 then
      ['\\', 'u', '0', '0', hexDigit (c.toNat / 16), hexDigit (c.toNat % 16)]
    else [c]

/-- The text of a string. -/
def stringText (s : String) : List Char :=
  '"' :: s.toList.flatMap escapeChar ++ ['"']

/-- The text of a token. -/
def Token.text : Token → List Char
  | .openArray => ['[']
  | .closeArray => [']']
  | .openObject => ['\x7b']
  | .closeObject => ['\x7d']
  | .comma => [',']
  | .colon => [':']
  | .null => ['n', 'u', 'l', 'l']
  | .bool true => ['t', 'r', 'u', 'e']
  | .bool false => ['f', 'a', 'l', 's', 'e']
  | .number n => numberText n
  | .string s => stringText s
  | .loneSurrogate => ['"', '\\', 'u', 'd', '8', '0', '0', '"']
  | .outOfRange => ['1', 'e', '9', '9', '9']

/-! ## Strings -/

/-- A piece of a string as it is written: a character, or a UTF-16 unit by its
number. -/
inductive Piece where
  | char (c : Char)
  | unit (n : Nat)
  deriving DecidableEq

/-- The character of a short escape. -/
def shortEscape? : Char → Option Char
  | '"' => some '"'
  | '\\' => some '\\'
  | '/' => some '/'
  | 'b' => some '\x08'
  | 'f' => some '\x0c'
  | 'n' => some '\n'
  | 'r' => some '\r'
  | 't' => some '\t'
  | _ => none

/-- The number written by four hexadecimal digits. -/
def unitValue? (a b c d : Char) : Option Nat := do
  let a ← hexValue? a
  let b ← hexValue? b
  let c ← hexValue? c
  let d ← hexValue? d
  return ((a * 16 + b) * 16 + c) * 16 + d

/-- Reads up to the closing quote. Controls must be escaped. -/
def scanString : List Char → Option (List Piece × List Char)
  | '"' :: rest => some ([], rest)
  | '\\' :: 'u' :: a :: b :: c :: d :: rest =>
    match unitValue? a b c d, scanString rest with
    | some n, some (pieces, after) => some (.unit n :: pieces, after)
    | _, _ => none
  | '\\' :: e :: rest =>
    match shortEscape? e, scanString rest with
    | some c, some (pieces, after) => some (.char c :: pieces, after)
    | _, _ => none
  | c :: rest =>
    if c.toNat < 0x20 || c = '\\' then none
    else
      match scanString rest with
      | some (pieces, after) => some (.char c :: pieces, after)
      | none => none
  | [] => none

/-- The characters that the pieces stand for; two units make one character when
they are a surrogate pair, and half a pair makes none. -/
def joinPieces : List Piece → Option (List Char)
  | [] => some []
  | .char c :: rest => (joinPieces rest).map (c :: ·)
  | .unit n :: rest =>
    if 0xD800 ≤ n ∧ n < 0xDC00 then
      match rest with
      | .unit m :: rest =>
        if 0xDC00 ≤ m ∧ m < 0xE000 then
          (joinPieces rest).map (Char.ofNat (0x10000 + (n - 0xD800) * 0x400 + (m - 0xDC00)) :: ·)
        else none
      | _ => none
    else if 0xDC00 ≤ n ∧ n < 0xE000 then none
    else (joinPieces rest).map (Char.ofNat n :: ·)

/-! ## Numbers -/

/-- A number as it is written. -/
structure Literal where
  negative : Bool
  whole : List Nat
  fraction : Option (List Nat)
  exponent : Option (Bool × List Nat)
  deriving DecidableEq

/-- The digits at the beginning of a text, and the rest. -/
def scanDigits (cs : List Char) : List Nat × List Char :=
  ((cs.takeWhile Char.isDigit).map fun c => c.toNat - '0'.toNat, cs.dropWhile Char.isDigit)

/-- Reads a fraction, if one begins here. -/
def scanFraction : List Char → Option (Option (List Nat) × List Char)
  | '.' :: rest =>
    match scanDigits rest with
    | ([], _) => none
    | (digits, after) => some (some digits, after)
  | cs => some (none, cs)

/-- The digits of an exponent, after its mark and sign. -/
def scanPower (negative : Bool) (cs : List Char) : Option (Option (Bool × List Nat) × List Char) :=
  match scanDigits cs with
  | ([], _) => none
  | (digits, after) => some (some (negative, digits), after)

/-- Reads an exponent, if one begins here. -/
def scanExponent : List Char → Option (Option (Bool × List Nat) × List Char)
  | [] => some (none, [])
  | c :: rest =>
    if c = 'e' || c = 'E' then
      match rest with
      | '+' :: rest => scanPower false rest
      | '-' :: rest => scanPower true rest
      | _ => scanPower false rest
    else some (none, c :: rest)

/-- Reads a number without its sign: no leading zeros, and at least one digit
wherever digits stand. -/
def scanMagnitude (negative : Bool) (cs : List Char) : Option (Literal × List Char) := do
  let (whole, rest) := scanDigits cs
  if whole.isEmpty || (whole.head? = some 0 && 1 < whole.length) then none
  let (fraction, rest) ← scanFraction rest
  let (exponent, rest) ← scanExponent rest
  return ({ negative, whole, fraction, exponent }, rest)

/-- Takes digits on as long as the number stays below `2^64`; gives the number and
the count of digits taken. -/
def takeFitting (n : Nat) : List Nat → Nat × Nat
  | [] => (n, 0)
  | d :: rest =>
    if n * 10 + d < 0x10000000000000000 then
      let (m, k) := takeFitting (n * 10 + d) rest
      (m, k + 1)
    else (n, 0)

/-- The exponent by its digits; `none` from `2^31` on. -/
def powerOf? (digits : List Nat) : Option Nat :=
  digits.foldl
    (fun acc d => acc.bind fun n => if n * 10 + d < 0x80000000 then some (n * 10 + d) else none)
    (some 0)

/-- A sum kept within 32 bits. -/
def clamp32 (i : Int) : Int :=
  max (-0x80000000) (min 0x7FFFFFFF i)

/-- The double of a significand and a written exponent. -/
def floatOf? (negative : Bool) (significand : Nat) (shift : Int) :
    Option (Bool × List Nat) → Option Number
  | none => (Binary64.ofParts? negative significand shift).map .float
  | some (down, digits) =>
    match powerOf? digits with
    | some k =>
      let power := clamp32 (if down then shift - k else shift + k)
      (Binary64.ofParts? negative significand power).map .float
    | none =>
      if significand ≠ 0 ∧ down = false then none
      else some (.float { negative := negative, pattern := 0 })

/-- The number a literal stands for. Integers that fit stay integers, apart from
`-0`. Otherwise the digits that fit 64 bits count, a whole digit beyond them only
as a factor of ten and a fraction digit beyond them not at all. -/
def Literal.value? (l : Literal) : Option Number :=
  let (high, taken) := takeFitting 0 l.whole
  let dropped := l.whole.length - taken
  match l.fraction, l.exponent with
  | none, none =>
    if dropped = 0 then
      if l.negative then
        if high = 0 then some (.float { negative := true, pattern := 0 })
        else
          match Number.ofInt? (-high) with
          | some n => some n
          | none => floatOf? true high 0 none
      else Number.ofInt? high
    else floatOf? l.negative high dropped none
  | fraction, exponent =>
    let (significand, used) := takeFitting high (fraction.getD [])
    floatOf? l.negative significand (dropped - used) exponent

/-! ## Reading -/

/-- True for the blanks between tokens. -/
def isSpace (c : Char) : Bool :=
  c = ' ' || c = '\n' || c = '\t' || c = '\r'

/-- The token of a string's pieces. -/
def stringToken (pieces : List Piece) : Token :=
  match joinPieces pieces with
  | some cs => .string (String.ofList cs)
  | none => .loneSurrogate

/-- The token of a number. -/
def numberToken (l : Literal) : Token :=
  match l.value? with
  | some n => .number n
  | none => .outOfRange

/-- Reads the token that the text begins with. -/
def Token.next? : List Char → Option (Token × List Char)
  | '[' :: rest => some (.openArray, rest)
  | ']' :: rest => some (.closeArray, rest)
  | '\x7b' :: rest => some (.openObject, rest)
  | '\x7d' :: rest => some (.closeObject, rest)
  | ',' :: rest => some (.comma, rest)
  | ':' :: rest => some (.colon, rest)
  | 'n' :: 'u' :: 'l' :: 'l' :: rest => some (.null, rest)
  | 't' :: 'r' :: 'u' :: 'e' :: rest => some (.bool true, rest)
  | 'f' :: 'a' :: 'l' :: 's' :: 'e' :: rest => some (.bool false, rest)
  | '"' :: rest => (scanString rest).map fun (pieces, after) => (stringToken pieces, after)
  | '-' :: rest => (scanMagnitude true rest).map fun (l, after) => (numberToken l, after)
  | cs => (scanMagnitude false cs).map fun (l, after) => (numberToken l, after)

/-- Cuts a text into tokens. Every token takes at least one character, so as many
rounds as there are characters are enough. -/
def scanWithin : Nat → List Char → Option (List Token)
  | 0, cs => if (cs.dropWhile isSpace).isEmpty then some [] else none
  | fuel + 1, cs =>
    match cs.dropWhile isSpace with
    | [] => some []
    | c :: rest =>
      match Token.next? (c :: rest) with
      | none => none
      | some (t, after) => (scanWithin fuel after).map (t :: ·)

/-- The tokens of a text; `none` where no token begins. -/
def scan (cs : List Char) : Option (List Token) :=
  scanWithin cs.length cs

end EventWire.Json
