import EventWire.Proofs.Xml.Tree

/-!
# The normal form of a tree

What a tree is after it has been written and read again: in every element,
neighbouring texts are joined, texts that hold nothing but blanks are dropped, and
then neighbouring CDATA is joined (`tidy`). Elements, attributes and the order of
all that stays are untouched.

A reader does not make three passes. It goes through the children once, with the
text it has not finished yet and the children it has finished, latest first.
`gather` is that walk, and `reverse_gather` says that it ends at the normal form.
-/

namespace EventWire.Xml

/-- Puts a text in front, joined to a text that stands there. -/
def frontText (s : String) : List Content → List Content
  | .text t :: rest => .text (s ++ t) :: rest
  | rest => .text s :: rest

/-- Joins neighbouring texts. -/
def joinTexts : List Content → List Content
  | [] => []
  | .text s :: rest => frontText s (joinTexts rest)
  | c :: rest => c :: joinTexts rest

/-- True for texts that hold nothing but blanks. -/
def Content.isBlankText : Content → Bool
  | .text s => Text.blankOnly s.toList
  | _ => false

/-- Puts CDATA in front, joined to CDATA that stands there. -/
def frontCdata (s : String) : List Content → List Content
  | .cdata t :: rest => .cdata (s ++ t) :: rest
  | rest => .cdata s :: rest

/-- Joins neighbouring CDATA. -/
def joinCdata : List Content → List Content
  | [] => []
  | .cdata s :: rest => frontCdata s (joinCdata rest)
  | c :: rest => c :: joinCdata rest

/-- The children of an element in normal form, when their own children are. -/
def tidy (cs : List Content) : List Content :=
  joinCdata ((joinTexts cs).filter fun c => !c.isBlankText)

mutual

/-- The normal form of a child. -/
def Content.norm : Content → Content
  | .element name attributes children => .element name attributes (tidy (normAll children))
  | .text s => .text s
  | .cdata s => .cdata s

/-- The normal forms of children, each for itself. -/
def Content.normAll : List Content → List Content
  | [] => []
  | c :: rest => c.norm :: normAll rest

end

/-- The normal form of an element. -/
def Node.norm (n : Node) : Node :=
  { n with children := tidy (Content.normAll n.children) }

theorem Node.norm_toContent (n : Node) : n.norm.toContent = n.toContent.norm := by
  rw [Node.toContent, Node.toContent, Content.norm]
  rfl

/-! ## One walk through the children -/

/-- Adds the unfinished text to the children, unless it is blank. -/
def flush (pending : List Char) (done : List Content) : List Content :=
  if Text.blankOnly pending then done else .text (String.ofList pending) :: done

/-- The children in normal form, latest first, on top of those that are done. -/
def gather (pending : List Char) (done : List Content) : List Content → List Content
  | [] => flush pending done
  | .text s :: rest => gather (pending ++ s.toList) done rest
  | .cdata s :: rest => gather [] (addCdata s (flush pending done)) rest
  | .element name attributes children :: rest =>
    gather [] ((Content.element name attributes children).norm :: flush pending done) rest

/-- One more child on top, CDATA joined to CDATA. -/
def stack (done : List Content) : Content → List Content
  | .cdata s => addCdata s done
  | c => c :: done

theorem frontText_frontText (s t : String) (rest : List Content) :
    frontText s (frontText t rest) = frontText (s ++ t) rest := by
  match rest with
  | [] => rfl
  | .text u :: more => simp only [frontText, String.append_assoc]
  | .cdata _ :: _ => rfl
  | .element .. :: _ => rfl

/-- What is kept of the joined texts. -/
def visible (cs : List Content) : List Content :=
  (joinTexts cs).filter fun c => !c.isBlankText

theorem visible_text_nil (s : String) :
    visible [.text s] = if Text.blankOnly s.toList then [] else [.text s] := by
  simp only [visible, joinTexts, frontText, List.filter_cons, Content.isBlankText, List.filter_nil]
  split <;> simp_all

theorem visible_empty_text (rest : List Content) : visible (.text "" :: rest) = visible rest := by
  rw [visible, joinTexts, visible]
  unfold frontText
  split
  · next t more h => rw [h, String.empty_append]
  · rw [List.filter_cons, if_neg (by decide)]

theorem visible_text_cons (s : String) {c : Content} (h : ∀ t, c ≠ .text t) (rest : List Content) :
    visible (.text s :: c :: rest)
      = (if Text.blankOnly s.toList then [] else [.text s]) ++ c :: visible rest := by
  have hkept : c.isBlankText = false := by
    cases c with
    | text t => exact absurd rfl (h t)
    | cdata t => rfl
    | element name attributes children => rfl
  have hjoin : joinTexts (c :: rest) = c :: joinTexts rest := by
    cases c with
    | text t => exact absurd rfl (h t)
    | cdata t => rfl
    | element name attributes children => rfl
  have hcons : joinTexts (.text s :: c :: rest) = .text s :: c :: joinTexts rest := by
    rw [joinTexts, hjoin, frontText]
    exact fun t _ e => h t (List.cons.inj e).1
  rw [visible, hcons, List.filter_cons, List.filter_cons, hkept, Content.isBlankText, visible]
  split <;> simp_all

theorem foldl_stack_flush (pending : List Char) (done : List Content) :
    (if Text.blankOnly pending then [] else [Content.text (String.ofList pending)]).foldl stack done
      = flush pending done := by
  unfold flush
  cases Text.blankOnly pending <;> rfl

/-- The walk puts the visible children on top one after the other. -/
theorem gather_eq_foldl (cs : List Content) : ∀ (pending : List Char) (done : List Content),
    gather pending done cs
      = (visible (.text (String.ofList pending) :: Content.normAll cs)).foldl stack done := by
  induction cs with
  | nil =>
    intro pending done
    rw [gather, Content.normAll, visible_text_nil, String.toList_ofList, foldl_stack_flush]
  | cons c rest ih =>
    intro pending done
    cases c with
    | text s =>
      rw [gather, ih, Content.normAll, Content.norm, visible, visible, joinTexts, joinTexts,
        joinTexts, frontText_frontText, String.ofList_append, String.ofList_toList]
    | cdata s =>
      rw [gather, ih, Content.normAll, Content.norm,
        visible_text_cons _ (fun t => Content.noConfusion), String.ofList_nil, visible_empty_text,
        List.foldl_append, String.toList_ofList, foldl_stack_flush]
      rfl
    | element name attributes children =>
      rw [gather, ih, Content.normAll, Content.norm,
        visible_text_cons _ (fun t => Content.noConfusion), String.ofList_nil, visible_empty_text,
        List.foldl_append, String.toList_ofList, foldl_stack_flush]
      rfl

theorem frontCdata_frontCdata (s t : String) (rest : List Content) :
    frontCdata s (frontCdata t rest) = frontCdata (s ++ t) rest := by
  match rest with
  | [] => rfl
  | .cdata u :: more => simp only [frontCdata, String.append_assoc]
  | .text _ :: _ => rfl
  | .element .. :: _ => rfl

theorem stack_of_ne_cdata {c : Content} (h : ∀ s, c ≠ .cdata s) (done : List Content) :
    stack done c = c :: done := by
  cases c with
  | cdata s => exact absurd rfl (h s)
  | text s => rfl
  | element name attributes children => rfl

theorem joinCdata_cons_of_ne_cdata {c : Content} (h : ∀ s, c ≠ .cdata s) (rest : List Content) :
    joinCdata (c :: rest) = c :: joinCdata rest := by
  cases c with
  | cdata s => exact absurd rfl (h s)
  | text s => rfl
  | element name attributes children => rfl

theorem frontCdata_of_ne_cdata {cs : List Content} (h : ∀ s more, cs ≠ .cdata s :: more)
    (s : String) : frontCdata s cs = .cdata s :: cs := by
  rw [frontCdata]
  exact h

/-- Putting children on top, CDATA joined to CDATA, joins the neighbouring CDATA. The
second half is about children on top of CDATA, which the first of them may join. -/
theorem reverse_foldl_stack (cs : List Content) :
    (∀ done, (∀ s more, done ≠ .cdata s :: more) →
      (cs.foldl stack done).reverse = done.reverse ++ joinCdata cs) ∧
    (∀ s done, (cs.foldl stack (.cdata s :: done)).reverse
      = done.reverse ++ frontCdata s (joinCdata cs)) := by
  induction cs with
  | nil =>
    refine ⟨fun done _ => ?_, fun s done => ?_⟩
    · rw [List.foldl_nil, joinCdata, List.append_nil]
    · rw [List.foldl_nil, joinCdata, List.reverse_cons]
      rfl
  | cons c rest ih =>
    obtain ⟨hopen, hcdata⟩ := ih
    by_cases hc : ∃ t, c = .cdata t
    · -- CDATA joins what is on top if that is CDATA too, and stands for itself otherwise.
      obtain ⟨t, rfl⟩ := hc
      refine ⟨fun done hdone => ?_, fun s done => ?_⟩
      · have hstack : stack done (.cdata t) = .cdata t :: done := by
          rw [stack, addCdata]
          exact hdone
        rw [List.foldl_cons, hstack, hcdata, joinCdata]
      · rw [List.foldl_cons, stack, addCdata, hcdata, joinCdata, frontCdata_frontCdata]
    · -- Anything else parts the CDATA under it from the CDATA to come.
      have hne : ∀ t, c ≠ .cdata t := fun t e => hc ⟨t, e⟩
      have hhead : ∀ l t more, c :: l ≠ .cdata t :: more :=
        fun _ t _ e => hne t (List.cons.inj e).1
      refine ⟨fun done _ => ?_, fun s done => ?_⟩
      · rw [List.foldl_cons, stack_of_ne_cdata hne, hopen _ (hhead _),
          joinCdata_cons_of_ne_cdata hne, List.reverse_cons, List.append_assoc]
        rfl
      · rw [List.foldl_cons, stack_of_ne_cdata hne, hopen _ (hhead _),
          joinCdata_cons_of_ne_cdata hne, frontCdata_of_ne_cdata (hhead _), List.reverse_cons,
          List.reverse_cons, List.append_assoc, List.append_assoc]
        rfl

/-- **The walk ends at the normal form.** -/
theorem reverse_gather (cs : List Content) :
    (gather [] [] cs).reverse = tidy (Content.normAll cs) := by
  have hfold := (reverse_foldl_stack (visible (Content.normAll cs))).1 [] (fun _ _ e => nomatch e)
  rw [gather_eq_foldl, String.ofList_nil, visible_empty_text, hfold]
  rfl

end EventWire.Xml
