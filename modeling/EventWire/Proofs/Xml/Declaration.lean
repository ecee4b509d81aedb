import EventWire.Charset
import EventWire.Proofs.Xml.Attributes
import Mathlib.Data.List.TakeWhile

/-!
# The declaration in front of a document

The encoding in a declaration is written as it is. A declaration ends at the first `?>`, so
one whose encoding has that mark in it ends too early. Any other is read as a declaration
(`lex_declarationText`), and what it declares is its encoding up to the first quotation mark
(`step_declaration`). Names of charsets are declared as they are (`declaredText_name`).
-/

namespace EventWire.Xml

/-- The mark that ends a declaration. -/
def declarationEnd : List Char :=
  ['?', '>']

/-- What stands between the name and the end of a declaration. -/
def declarationAttributes (encoding : String) : List Char :=
  " version=\"1.0\" encoding=\"".toList ++ (encoding.toList ++ ['"'])

/-- What is read of an encoding: all in front of the first quotation mark. -/
def declaredText (encoding : String) : String :=
  String.ofList (encoding.toList.takeWhile fun c => c ≠ '"')

theorem cutAfter_append {front : List Char} (h : '?' ∉ front) (cs : List Char) :
    cutAfter declarationEnd (front ++ cs)
      = (cutAfter declarationEnd cs).map fun (before, after) => (front ++ before, after) := by
  induction front with
  | nil => exact Option.map_id'.symm
  | cons c front ih =>
    obtain ⟨hc, hfront⟩ := not_or.mp (fun hmem => h (List.mem_cons.mpr hmem))
    have hno : ¬declarationEnd.isPrefixOf (c :: (front ++ cs)) = true := by
      rw [declarationEnd, List.isPrefixOf]
      simp [hc]
    rw [List.cons_append, cutAfter, if_neg hno, ih hfront, Option.map_map]
    rfl

/-- The quotation mark behind the encoding keeps it apart from the end. -/
theorem cutAfter_quoted {cs : List Char} (h : ¬declarationEnd <:+: cs) (rest : List Char) :
    cutAfter declarationEnd (cs ++ '"' :: '?' :: '>' :: rest) = some (cs ++ ['"'], rest) := by
  induction cs with
  | nil => rfl
  | cons c more ih =>
    have hno : ¬declarationEnd.isPrefixOf (c :: (more ++ '"' :: '?' :: '>' :: rest)) = true := by
      intro hprefix
      obtain ⟨tail, htail⟩ := List.isPrefixOf_iff_prefix.mp hprefix
      obtain ⟨rfl, hmore⟩ := List.cons.inj htail
      cases more with
      | nil => exact absurd (List.cons.inj hmore).1 (by decide)
      | cons d more =>
        obtain ⟨rfl, -⟩ := List.cons.inj hmore
        exact h ⟨[], more, rfl⟩
    have hmore : ¬declarationEnd <:+: more := fun hinfix => h (List.infix_cons hinfix)
    rw [List.cons_append, cutAfter, if_neg hno, ih hmore]
    rfl

theorem next_instruction {cs inside after : List Char} (hfirst : cs.head? ≠ some '>')
    (hcut : cutAfter declarationEnd cs = some (inside, after)) :
    Event.next '<' ('?' :: cs) = (instructionEvent inside, after) := by
  rw [declarationEnd] at hcut
  rw [Event.next, if_pos rfl, markupEvent, if_neg hfirst, hcut]

/-- What a declaration begins with, behind its bracket and question mark. -/
def declarationStart : List Char :=
  "xml version=\"1.0\" encoding=\"".toList

theorem declarationText_append (encoding : String) (rest : List Char) :
    declarationText encoding ++ rest
      = '<' :: '?' :: (declarationStart ++ (encoding.toList ++ '"' :: '?' :: '>' :: rest)) := by
  have hstart : "<?xml version=\"1.0\" encoding=\"".toList = '<' :: '?' :: declarationStart := rfl
  have hend : "\"?>".toList = ['"', '?', '>'] := rfl
  unfold declarationText
  rw [hstart, hend]
  simp only [List.append_assoc, List.cons_append, List.nil_append]

theorem lex_declarationText {encoding : String} (h : ¬declarationEnd <:+: encoding.toList)
    (rest : List Char) : lex (declarationText encoding ++ rest)
      = .declaration (declarationAttributes encoding) :: lex rest := by
  have hfront : '?' ∉ declarationStart := by decide
  have hcut := cutAfter_append hfront (encoding.toList ++ '"' :: '?' :: '>' :: rest)
  rw [cutAfter_quoted h] at hcut
  have hfirst : (declarationStart ++ (encoding.toList ++ '"' :: '?' :: '>' :: rest)).head?
      ≠ some '>' := by
    have hx : declarationStart.head? = some 'x' := rfl
    rw [List.head?_append, hx, Option.some_or]
    decide
  have hevent : instructionEvent (declarationStart ++ (encoding.toList ++ ['"']))
      = .declaration (declarationAttributes encoding) := by
    have hstart : declarationStart
        = 'x' :: 'm' :: 'l' :: ' ' :: "version=\"1.0\" encoding=\"".toList := rfl
    unfold declarationAttributes
    rw [hstart]
    rfl
  have hnext := next_instruction hfirst hcut
  rw [hevent] at hnext
  rw [declarationText_append, lex_cons hnext Event.noConfusion]

/-- A value ends at the first quotation mark, which is the one behind it if none is in it. -/
theorem exists_quotedValue? (cs : List Char) : ∃ after,
    quotedValue? ('"' :: (cs ++ ['"'])) = some (cs.takeWhile fun c => c ≠ '"', after) := by
  have hkeep : ∀ front : List Char, '"' ∉ front → ∀ c ∈ front, decide (c ≠ '"') = true := by
    intro front hfront c hc
    exact decide_eq_true fun e => hfront (e ▸ hc)
  by_cases hquote : '"' ∈ cs
  · obtain ⟨front, back, rfl, hfront⟩ := List.eq_append_cons_of_mem hquote
    refine ⟨back ++ ['"'], ?_⟩
    rw [List.takeWhile_append_of_pos (hkeep front hfront), List.takeWhile_cons,
      if_neg (by decide), List.append_nil, List.append_assoc]
    exact quotedValue?_quoted hfront _
  · refine ⟨[], ?_⟩
    rw [List.takeWhile_eq_self_iff.mpr (hkeep cs hquote)]
    exact quotedValue?_quoted hquote []

theorem rawAttributes_declarationAttributes (encoding : String) : ∃ more broken,
    rawAttributes (declarationAttributes encoding) = { broken, items :=
      ("version".toList, "1.0".toList) ::
        ("encoding".toList, encoding.toList.takeWhile fun c => c ≠ '"') :: more } := by
  have hversion : rawAttributes " version=\"1.0\"".toList
      = { items := [("version".toList, "1.0".toList)], broken := false } := by decide +kernel
  have hsplit : " version=\"1.0\" encoding=\"".toList
      = " version=\"1.0\"".toList ++ ' ' :: 'e' :: ("ncoding".toList ++ ['=', '"']) := rfl
  obtain ⟨after, hvalue⟩ := exists_quotedValue? encoding.toList
  have hname : ∀ c ∈ "ncoding".toList, inAttributeName c = true := List.all_eq_true.mp (by decide)
  have hread := @readAttribute?_quoted 'e' _ _ _ _ hname hvalue
  have hencoding := @rawAttributes_of_some (' ' :: 'e' :: ("ncoding".toList ++
    '=' :: '"' :: (encoding.toList ++ ['"']))) _ _ _ _ rfl hread
  refine ⟨(rawAttributes after).items, (rawAttributes after).broken, ?_⟩
  have hcs : declarationAttributes encoding = " version=\"1.0\"".toList ++
      ' ' :: 'e' :: ("ncoding".toList ++ '=' :: '"' :: (encoding.toList ++ ['"'])) := by
    unfold declarationAttributes
    rw [hsplit]
    simp only [List.append_assoc, List.cons_append, List.nil_append]
  rw [hcs, rawAttributes_append (by rw [hversion]), hversion, hencoding]
  rfl

/-- **A declaration is read as what it declares**, and nothing else changes. -/
theorem step_declaration (b : Builder) (encoding : String) :
    b.step (.declaration (declarationAttributes encoding))
      = .ok { b with declared := some (declaredText encoding) } := by
  obtain ⟨more, broken, hraw⟩ := rawAttributes_declarationAttributes encoding
  have hdeclared : Builder.declaredEncoding (declarationAttributes encoding)
      = .ok (some (declaredText encoding)) := by
    unfold Builder.declaredEncoding
    dsimp only
    rw [hraw, List.find?_cons_of_neg (by decide), List.find?_cons_of_pos rfl]
    rfl
  rw [Builder.step, hdeclared]

/-- The name of a charset is declared as it is. -/
theorem declaredText_name (c : Charset) : declaredText c.name = c.name := by
  cases c <;> rfl

theorem not_infix_name (c : Charset) : ¬declarationEnd <:+: c.name.toList := by
  cases c <;> decide +kernel

end EventWire.Xml
