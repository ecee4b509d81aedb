import EventWire.Bytes
import EventWire.Decimal.Binary64
import EventWire.Toml.Value

/-!
# TOML strings, numbers and moments

The readers of the values that hold no others. A string reader stands behind the
opening quotes and gives the characters and the rest of the text. Numbers,
moments and the two truth values are bare words, so they are cut out whole first
(`scanWord`) and judged afterwards (`ofWord?`).
-/

namespace EventWire.Toml

/-- True for the blanks within a line. -/
def isSpace (c : Char) : Bool :=
  c = ' ' || c = '\t'

/-- Controls other than the tab, which stand nowhere but in line ends. -/
def isControl (c : Char) : Bool :=
  (c.toNat < 0x20 && c ≠ '\t') || c.toNat = 0x7F

/-- Drops one line end, if the text begins with one. -/
def dropLineEnd? : List Char → Option (List Char)
  | '\n' :: rest => some rest
  | '\r' :: '\n' :: rest => some rest
  | _ => none

/-! ## Strings -/

/-- The character of a short escape. -/
def shortEscape? : Char → Option Char
  | '"' => some '"'
  | '\\' => some '\\'
  | 'b' => some '\x08'
  | 'e' => some '\x1b'
  | 'f' => some '\x0c'
  | 'n' => some '\n'
  | 'r' => some '\r'
  | 't' => some '\t'
  | _ => none

/-- The character that hexadecimal digits number. -/
def numberedChar? (digits : List Char) : Option Char := do
  let values ← digits.mapM hexValue?
  let n := values.foldl (fun n d => n * 16 + d) 0
  if h : n.isValidChar then some (Char.ofNatAux n h) else none

/-- Reads an escape, behind its backslash. -/
def scanEscape : List Char → Option (Char × List Char)
  | 'x' :: rest =>
    if rest.length < 2 then none else (numberedChar? (rest.take 2)).map (·, rest.drop 2)
  | 'u' :: rest =>
    if rest.length < 4 then none else (numberedChar? (rest.take 4)).map (·, rest.drop 4)
  | 'U' :: rest =>
    if rest.length < 8 then none else (numberedChar? (rest.take 8)).map (·, rest.drop 8)
  | e :: rest => (shortEscape? e).map (·, rest)
  | [] => none

theorem length_lt_of_scanEscape {cs rest : List Char} {c : Char}
    (h : scanEscape cs = some (c, rest)) : rest.length < cs.length := by
  unfold scanEscape at h
  split at h
  · split at h
    · cases h
    · simp only [Option.map_eq_some_iff, Prod.mk.injEq] at h
      obtain ⟨_, _, _, rfl⟩ := h
      simp only [List.length_drop, List.length_cons]; omega
  · split at h
    · cases h
    · simp only [Option.map_eq_some_iff, Prod.mk.injEq] at h
      obtain ⟨_, _, _, rfl⟩ := h
      simp only [List.length_drop, List.length_cons]; omega
  · split at h
    · cases h
    · simp only [Option.map_eq_some_iff, Prod.mk.injEq] at h
      obtain ⟨_, _, _, rfl⟩ := h
      simp only [List.length_drop, List.length_cons]; omega
  · simp only [Option.map_eq_some_iff, Prod.mk.injEq] at h
    obtain ⟨_, _, _, rfl⟩ := h
    simp
  · cases h

/-- Reads a string in double quotes on one line. -/
def scanBasic (cs : List Char) : Option (List Char × List Char) :=
  match cs with
  | [] => none
  | '"' :: rest => some ([], rest)
  | '\\' :: rest =>
    match _h : scanEscape rest with
    | some (c, after) => (scanBasic after).map fun (s, after) => (c :: s, after)
    | none => none
  | c :: rest =>
    if isControl c then none else (scanBasic rest).map fun (s, after) => (c :: s, after)
  termination_by cs.length
  decreasing_by
    · have := length_lt_of_scanEscape _h; simp only [List.length_cons]; omega
    · simp

/-- Reads a string in single quotes on one line: nothing is escaped. -/
def scanLiteral : List Char → Option (List Char × List Char)
  | [] => none
  | '\'' :: rest => some ([], rest)
  | c :: rest =>
    if isControl c then none else (scanLiteral rest).map fun (s, after) => (c :: s, after)

/-- The end of a string between triple quotes `q`: up to two more quotes belong to
the string. -/
def closeTriple? (q : Char) : List Char → Option (List Char × List Char)
  | a :: b :: c :: rest =>
    if a = q ∧ b = q ∧ c = q then
      match rest with
      | d :: e :: after =>
        if d = q then if e = q then some ([q, q], after) else some ([q], e :: after)
        else some ([], d :: e :: after)
      | [d] => if d = q then some ([q], []) else some ([], [d])
      | [] => some ([], [])
    else none
  | _ => none

/-- True when nothing but blanks stand before the next line end. -/
def restOfLineBlank (cs : List Char) : Bool :=
  (dropLineEnd? (cs.dropWhile isSpace)).isSome

/-- Reads a string in triple double quotes. A backslash at the end of a line takes
the line end and all blanks and line ends that follow; they are being dropped while
`folding`. -/
def scanBasicLines (folding : Bool) (cs : List Char) : Option (List Char × List Char) :=
  match closeTriple? '"' cs with
  | some done => some done
  | none =>
    match cs with
    | [] => none
    | '\r' :: '\n' :: rest =>
      if folding then scanBasicLines true rest
      else (scanBasicLines false rest).map fun (s, after) => ('\r' :: '\n' :: s, after)
    | '\\' :: rest =>
      if restOfLineBlank rest then scanBasicLines true rest
      else
        match _h : scanEscape rest with
        | some (c, after) => (scanBasicLines false after).map fun (s, after) => (c :: s, after)
        | none => none
    | c :: rest =>
      if folding && (isSpace c || c = '\n') then scanBasicLines true rest
      else if isControl c && c ≠ '\n' then none
      else (scanBasicLines false rest).map fun (s, after) => (c :: s, after)
  termination_by cs.length
  decreasing_by
    · simp only [List.length_cons]; omega
    · simp only [List.length_cons]; omega
    · simp
    · have := length_lt_of_scanEscape _h; simp only [List.length_cons]; omega
    · simp
    · simp

/-- Reads a string in triple single quotes. -/
def scanLiteralLines : List Char → Option (List Char × List Char)
  | [] => none
  | c :: rest =>
    match closeTriple? '\'' (c :: rest) with
    | some done => some done
    | none =>
      if isControl c && c ≠ '\n' && !(c = '\r' && rest.head? = some '\n') then none
      else (scanLiteralLines rest).map fun (s, after) => (c :: s, after)

/-- The text without a line end right at its beginning. -/
def dropFirstLineEnd (cs : List Char) : List Char :=
  (dropLineEnd? cs).getD cs

/-- Reads a string of any of the four kinds, from its opening quotes on. -/
def scanText : List Char → Option (String × List Char)
  | '"' :: '"' :: '"' :: rest =>
    (scanBasicLines false (dropFirstLineEnd rest)).map fun (s, after) => (String.ofList s, after)
  | '\'' :: '\'' :: '\'' :: rest =>
    (scanLiteralLines (dropFirstLineEnd rest)).map fun (s, after) => (String.ofList s, after)
  | '"' :: rest => (scanBasic rest).map fun (s, after) => (String.ofList s, after)
  | '\'' :: rest => (scanLiteral rest).map fun (s, after) => (String.ofList s, after)
  | _ => none

/-! ## Numbers -/

/-- The digits of a number without the underscores, each of which stands between
two digits. -/
def ungroup (isDigit : Char → Bool) : List Char → Option (List Char)
  | [] => none
  | [c] => if isDigit c then some [c] else none
  | c :: '_' :: rest => if isDigit c then (ungroup isDigit rest).map (c :: ·) else none
  | c :: rest => if isDigit c then (ungroup isDigit rest).map (c :: ·) else none

/-- The number that digits of a base write. -/
def digitsValue (base : Nat) (digits : List Char) : Nat :=
  digits.foldl (fun n c => n * base + (hexValue? c).getD 0) 0

/-- Whole numbers fit 128 bits, with or without a sign. -/
def wholeNumber? (i : Int) : Option Value :=
  if -0x80000000000000000000000000000000 ≤ i ∧ i < 0x100000000000000000000000000000000 then
    some (.integer i)
  else none

/-- Digits of a base other than ten. -/
def basedNumber? (base : Nat) (isDigit : Char → Bool) (cs : List Char) : Option Value := do
  let digits ← ungroup isDigit cs
  wholeNumber? (digitsValue base digits)

/-- Decimal digits without leading zeros. -/
def leadingDigits? (cs : List Char) : Option (List Char) := do
  let digits ← ungroup Char.isDigit cs
  if digits.head? = some '0' && 1 < digits.length then none else some digits

/-- True for what can stand in a run of decimal digits. -/
def inDigitRun (c : Char) : Bool :=
  c.isDigit || c = '_'

/-- The power of ten behind its mark. -/
def power? (cs : List Char) : Option Int :=
  match cs with
  | '-' :: rest => (ungroup Char.isDigit rest).map fun d => -(digitsValue 10 d : Int)
  | '+' :: rest => (ungroup Char.isDigit rest).map fun d => (digitsValue 10 d : Int)
  | _ => (ungroup Char.isDigit cs).map fun d => (digitsValue 10 d : Int)

/-- Powers of ten past this one are as good as it. -/
def maxPower : Int := 0x10000

/-- True when a decimal number is no larger than the doubles. -/
def inRange (digits : List Char) (power : Int) : Bool :=
  let significand := digitsValue 10 digits
  significand = 0 ||
    (Decimal.Binary64.ofParts? false significand (max (-maxPower) (min maxPower power))).isSome

/-- What stands behind the whole digits of a decimal number. -/
def fractionAndPower? (rest : List Char) : Option (List Char × Int) :=
  match rest with
  | '.' :: rest => do
    let fraction ← ungroup Char.isDigit (rest.takeWhile inDigitRun)
    match rest.dropWhile inDigitRun with
    | [] => some (fraction, 0)
    | e :: after => if e = 'e' || e = 'E' then (power? after).map (fraction, ·) else none
  | e :: after => if e = 'e' || e = 'E' then (power? after).map ([], ·) else none
  | [] => none

/-- A decimal number without its sign. -/
def magnitude? (negative : Bool) (cs : List Char) : Option Value := do
  let whole ← leadingDigits? (cs.takeWhile inDigitRun)
  match cs.dropWhile inDigitRun with
  | [] =>
    let n : Int := digitsValue 10 whole
    wholeNumber? (if negative then -n else n)
  | rest =>
    let (fraction, power) ← fractionAndPower? rest
    if inRange (whole ++ fraction) (power - fraction.length) then
      some (.decimal (String.ofList cs))
    else none

/-- True for the names of infinity and of no number. -/
def isNonFinite (cs : List Char) : Bool :=
  cs = ['i', 'n', 'f'] || cs = ['n', 'a', 'n']

/-- A number. -/
def number? (cs : List Char) : Option Value :=
  match cs with
  | '0' :: 'x' :: rest => basedNumber? 16 (fun c => (hexValue? c).isSome) rest
  | '0' :: 'o' :: rest => basedNumber? 8 (fun c => '0' ≤ c && c ≤ '7') rest
  | '0' :: 'b' :: rest => basedNumber? 2 (fun c => c = '0' || c = '1') rest
  | '-' :: rest => if isNonFinite rest then some (.decimal (String.ofList cs)) else magnitude? true rest
  | '+' :: rest => if isNonFinite rest then some (.decimal (String.ofList cs)) else magnitude? false rest
  | _ => if isNonFinite cs then some (.decimal (String.ofList cs)) else magnitude? false cs

/-! ## Moments -/

/-- The number of two digits, and the rest. -/
def twoDigits? : List Char → Option (Nat × List Char)
  | a :: b :: rest =>
    if a.isDigit && b.isDigit then some (digitsValue 10 [a, b], rest) else none
  | _ => none

/-- The days of a month. -/
def daysIn (year month : Nat) : Nat :=
  if month = 2 then
    if year % 4 = 0 && (year % 100 ≠ 0 || year % 400 = 0) then 29 else 28
  else if month = 4 || month = 6 || month = 9 || month = 11 then 30
  else 31

/-- Reads a date that exists. -/
def scanDate (cs : List Char) : Option (List Char) := do
  let (century, rest) ← twoDigits? cs
  let (year, rest) ← twoDigits? rest
  match rest with
  | '-' :: rest =>
    let (month, rest) ← twoDigits? rest
    match rest with
    | '-' :: rest =>
      let (day, rest) ← twoDigits? rest
      if 1 ≤ month && month ≤ 12 && 1 ≤ day && day ≤ daysIn (century * 100 + year) month then
        some rest
      else none
    | _ => none
  | _ => none

/-- Drops a fraction of a second, if one begins here. -/
def dropFraction? : List Char → Option (List Char)
  | '.' :: rest =>
    if (rest.takeWhile Char.isDigit).isEmpty then none else some (rest.dropWhile Char.isDigit)
  | cs => some cs

/-- Reads the seconds and their fraction, if they begin here. -/
def scanSeconds : List Char → Option (List Char)
  | ':' :: rest => do
    let (second, rest) ← twoDigits? rest
    if second ≤ 60 then dropFraction? rest else none
  | cs => some cs

/-- Reads a time of day; the seconds may be missing. -/
def scanTime (cs : List Char) : Option (List Char) := do
  let (hour, rest) ← twoDigits? cs
  match rest with
  | ':' :: rest =>
    let (minute, rest) ← twoDigits? rest
    if hour ≤ 23 && minute ≤ 59 then scanSeconds rest else none
  | _ => none

/-- True for the distance from universal time that ends a moment, or none. -/
def isOffset (cs : List Char) : Bool :=
  match cs with
  | [] => true
  | [c] => c = 'Z' || c = 'z'
  | sign :: rest =>
    (sign = '+' || sign = '-') &&
      match twoDigits? rest with
      | some (hour, ':' :: rest) =>
        match twoDigits? rest with
        | some (minute, []) => hour ≤ 23 && minute ≤ 59
        | _ => false
      | _ => false

/-- True for a date, a time of day, or both with a letter or a blank between. -/
def isMoment (cs : List Char) : Bool :=
  match scanDate cs with
  | some [] => true
  | some (c :: rest) =>
    (c = 'T' || c = 't' || c = ' ') &&
      match scanTime rest with
      | some after => isOffset after
      | none => false
  | none => scanTime cs = some []

/-! ## Bare words -/

/-- True for the characters of bare words. -/
def inWord (c : Char) : Bool :=
  c.isAlphanum || c = '_' || c = '-' || c = '+' || c = '.' || c = ':'

/-- Cuts out a bare word; a date takes a time behind one blank along. -/
def scanWord (cs : List Char) : List Char × List Char :=
  let word := cs.takeWhile inWord
  match cs.dropWhile inWord with
  | ' ' :: d :: rest =>
    -- What follows a date is a time of day only when it begins with a digit.
    if d.isDigit && scanDate word = some [] then
      (word ++ ' ' :: (d :: rest).takeWhile inWord, (d :: rest).dropWhile inWord)
    else (word, ' ' :: d :: rest)
  | after => (word, after)

/-- The value of a bare word. -/
def ofWord? (cs : List Char) : Option Value :=
  if cs = ['t', 'r', 'u', 'e'] then some (.truth true)
  else if cs = ['f', 'a', 'l', 's', 'e'] then some (.truth false)
  else if isMoment cs then some (.moment (String.ofList cs))
  else number? cs

/-- Reads a value that holds no others. -/
def scanScalar (cs : List Char) : Option (Value × List Char) :=
  match cs with
  | c :: _ =>
    if c = '"' || c = '\'' then (scanText cs).map fun (s, after) => (.text s, after)
    else
      let (word, after) := scanWord cs
      (ofWord? word).map (·, after)
  | [] => none

end EventWire.Toml
