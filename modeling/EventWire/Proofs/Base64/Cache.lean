import EventWire.Proofs.Base64
import Mathlib.Data.List.Forall2

/-!
# The cache of base64 payloads

A payload that was made from bytes knows them, and one that was made from text knows its
bytes once they were asked for. This file says that only `isKnown` can tell. A program that
makes payloads, clones them and puts questions to them is run twice: on payloads as they
are (`cached`), and on texts that are decoded each time (`plain`). A payload stands for a
text when it has that text, and knows what the text decodes to exactly if it was made from
bytes or asked for them (`StandsFor`). One call keeps this, and answers alike on both sides
(`standsFor_step`); so does any run (`standsFor_run`), which is `run_cached`.
-/

namespace EventWire.Base64

/-- What a payload is made from. -/
inductive Origin where
  | bytes (bs : Bytes)
  | text (s : String)
  | json (v : Json)

/-- A call. The payloads that there are go by their places, in the order in which they
were made. -/
inductive Call where
  | make (o : Origin)
  | clone (i : Nat)
  | bytes (i : Nat)
  | text (i : Nat)
  | same (i j : Nat)
  | toJson (i : Nat)
  | isKnown (i : Nat)

/-- What a call answers. Making a payload has no answer, nor has asking one that there is
not. -/
inductive Answer where
  | silence
  | bytes (found : Option Bytes)
  | text (s : String)
  | json (v : Json)
  | verdict (b : Bool)

/-- A form of payloads, by what can be done with them. -/
structure Form (σ : Type) where
  make : Origin → Option σ
  bytes? : σ → Option Bytes × σ
  text : σ → String
  same : σ → σ → Bool
  toJson : σ → Json
  isKnown : σ → Bool

namespace Form

variable {σ : Type}

/-- The answer to a call, and the payloads that there are after it. -/
def step (f : Form σ) (pool : List σ) : Call → Answer × List σ
  | .make o => (.silence, pool ++ (f.make o).toList)
  | .clone i => (.silence, pool ++ pool[i]?.toList)
  | .bytes i =>
    match pool[i]? with
    | some p => (.bytes (f.bytes? p).1, pool.set i (f.bytes? p).2)
    | none => (.silence, pool)
  | .text i => ((pool[i]?.map fun p => Answer.text (f.text p)).getD .silence, pool)
  | .same i j =>
    match pool[i]?, pool[j]? with
    | some p, some q => (.verdict (f.same p q), pool)
    | _, _ => (.silence, pool)
  | .toJson i => ((pool[i]?.map fun p => Answer.json (f.toJson p)).getD .silence, pool)
  | .isKnown i => ((pool[i]?.map fun p => Answer.verdict (f.isKnown p)).getD .silence, pool)

/-- The answers to calls, and the payloads that there are after them. -/
def run (f : Form σ) (pool : List σ) : List Call → List Answer × List σ
  | [] => ([], pool)
  | c :: rest =>
    let (answer, after) := f.step pool c
    let (answers, last) := f.run after rest
    (answer :: answers, last)

end Form

/-- Payloads as they are. -/
def cached : Form Base64 where
  make
    | .bytes bs => some (ofBytes bs)
    | .text s => some (ofText s)
    | .json v => ofJson? v
  bytes? := Base64.bytes?
  text := Base64.text
  same := Base64.same
  toJson := Base64.toJson
  isKnown := Base64.isKnown

/-- A payload without a cache: its text, and whether its bytes were there from the start
or were asked for. -/
structure Plain where
  text : String
  asked : Bool

/-- Payloads whose text is decoded each time. -/
def plain : Form Plain where
  make
    | .bytes bs => some { text := encode bs, asked := true }
    | .text s => some { text := s, asked := false }
    | .json (.string s) => some { text := s, asked := false }
    | .json _ => none
  bytes? p := (decode? p.text, { p with asked := true })
  text := Plain.text
  same p q := p.text = q.text
  toJson p := .string p.text
  isKnown p := p.asked && (decode? p.text).isSome

/-! ## One call -/

/-- A payload with the text of another form of it, which knows what the text decodes to
exactly if it has to. -/
structure StandsFor (p : Plain) (q : Base64) : Prop where
  text : q.text = p.text
  known : q.known = if p.asked then decode? p.text else none

variable {p : Plain} {q : Base64}

theorem standsFor_ofText (s : String) : StandsFor { text := s, asked := false } (ofText s) :=
  ⟨rfl, rfl⟩

theorem standsFor_ofBytes (bs : Bytes) :
    StandsFor { text := encode bs, asked := true } (ofBytes bs) :=
  ⟨rfl, (decode?_encode bs).symm⟩

/-- Both forms make a payload, or neither does. -/
theorem standsFor_make (o : Origin) :
    List.Forall₂ StandsFor (plain.make o).toList (cached.make o).toList := by
  cases o with
  | bytes bs => exact .cons (standsFor_ofBytes bs) .nil
  | text s => exact .cons (standsFor_ofText s) .nil
  | json v =>
    cases v with
    | string s => exact .cons (standsFor_ofText s) .nil
    | null => exact .nil
    | bool b => exact .nil
    | number n => exact .nil
    | array items => exact .nil
    | object members => exact .nil

/-- The bytes are those that the text decodes to, known or not. -/
theorem StandsFor.bytes? (h : StandsFor p q) :
    q.bytes?.1 = decode? p.text ∧ StandsFor { p with asked := true } q.bytes?.2 := by
  refine ⟨?_, ?_, ?_⟩
  · rw [← h.text]
    exact content?_eq_decode? q
  · rw [text_bytes?, h.text]
  · rw [known_bytes?, h.text, if_pos rfl]

theorem StandsFor.isKnown (h : StandsFor p q) : q.isKnown = plain.isKnown p := by
  show q.known.isSome = (p.asked && (decode? p.text).isSome)
  rw [h.known]
  cases p.asked with
  | true => rw [if_pos rfl, Bool.true_and]
  | false => rfl

theorem StandsFor.same {p' : Plain} {q' : Base64} (h : StandsFor p q) (h' : StandsFor p' q') :
    q.same q' = plain.same p p' := by
  show decide (q.text = q'.text) = decide (p.text = p'.text)
  rw [h.text, h'.text]

/-- At a place where there is a payload in one form, there is one in the other. -/
theorem standsFor_getElem? {ps : List Plain} {qs : List Base64}
    (h : List.Forall₂ StandsFor ps qs) (i : Nat) :
    ps[i]? = none ∧ qs[i]? = none ∨
      ∃ p q, ps[i]? = some p ∧ qs[i]? = some q ∧ StandsFor p q := by
  induction h generalizing i with
  | nil => exact Or.inl ⟨rfl, rfl⟩
  | cons hfirst _ ih =>
    cases i with
    | zero => exact Or.inr ⟨_, _, rfl, rfl, hfirst⟩
    | succ j => exact ih j

theorem standsFor_set {ps : List Plain} {qs : List Base64} (h : List.Forall₂ StandsFor ps qs)
    (hnew : StandsFor p q) (i : Nat) : List.Forall₂ StandsFor (ps.set i p) (qs.set i q) := by
  induction h generalizing i with
  | nil => exact .nil
  | cons hfirst hrest ih =>
    cases i with
    | zero => exact .cons hnew hrest
    | succ j => exact .cons hfirst (ih j)

/-- A question to one payload is answered alike. -/
theorem standsFor_ask {ps : List Plain} {qs : List Base64} (h : List.Forall₂ StandsFor ps qs)
    {f : Plain → Answer} {g : Base64 → Answer} (hfg : ∀ {p q}, StandsFor p q → g q = f p)
    (i : Nat) : (qs[i]?.map g).getD .silence = (ps[i]?.map f).getD .silence := by
  obtain ⟨hp, hq⟩ | ⟨p, q, hp, hq, hpq⟩ := standsFor_getElem? h i
  · rw [hp, hq]
    rfl
  · rw [hp, hq]
    exact hfg hpq

/-- **A call answers alike on both forms**, and leaves payloads that stand for each other. -/
theorem standsFor_step {ps : List Plain} {qs : List Base64} (h : List.Forall₂ StandsFor ps qs)
    (c : Call) : (cached.step qs c).1 = (plain.step ps c).1 ∧
      List.Forall₂ StandsFor (plain.step ps c).2 (cached.step qs c).2 := by
  cases c with
  | make o => exact ⟨rfl, List.rel_append h (standsFor_make o)⟩
  | clone i =>
    refine ⟨rfl, ?_⟩
    show List.Forall₂ StandsFor (ps ++ ps[i]?.toList) (qs ++ qs[i]?.toList)
    obtain ⟨hp, hq⟩ | ⟨p, q, hp, hq, hpq⟩ := standsFor_getElem? h i
    · rw [hp, hq]
      exact List.rel_append h .nil
    · rw [hp, hq]
      exact List.rel_append h (.cons hpq .nil)
  | bytes i =>
    rw [Form.step, Form.step]
    obtain ⟨hp, hq⟩ | ⟨p, q, hp, hq, hpq⟩ := standsFor_getElem? h i
    · rw [hp, hq]
      exact ⟨rfl, h⟩
    · obtain ⟨hbytes, hafter⟩ := hpq.bytes?
      rw [hp, hq]
      exact ⟨congrArg Answer.bytes hbytes, standsFor_set h hafter i⟩
  | text i => exact ⟨standsFor_ask h (fun hpq => congrArg Answer.text hpq.text) i, h⟩
  | same i j =>
    rw [Form.step, Form.step]
    obtain ⟨hp, hq⟩ | ⟨p, q, hp, hq, hpq⟩ := standsFor_getElem? h i
    · rw [hp, hq]
      exact ⟨rfl, h⟩
    · obtain ⟨hp', hq'⟩ | ⟨p', q', hp', hq', hpq'⟩ := standsFor_getElem? h j
      · rw [hp, hq, hp', hq']
        exact ⟨rfl, h⟩
      · rw [hp, hq, hp', hq']
        exact ⟨congrArg Answer.verdict (hpq.same hpq'), h⟩
  | toJson i =>
    exact ⟨standsFor_ask h (fun hpq => congrArg (fun s => Answer.json (.string s)) hpq.text) i, h⟩
  | isKnown i => exact ⟨standsFor_ask h (fun hpq => congrArg Answer.verdict hpq.isKnown) i, h⟩

/-- A call leaves the texts alone, and may put one behind them. -/
theorem texts_step (pool : List Base64) (c : Call) :
    pool.map Base64.text <+: (cached.step pool c).2.map Base64.text := by
  cases c with
  | make o =>
    rw [Form.step, List.map_append]
    exact List.prefix_append _ _
  | clone i =>
    rw [Form.step, List.map_append]
    exact List.prefix_append _ _
  | bytes i =>
    rw [Form.step]
    cases hp : pool[i]? with
    | none => exact List.prefix_rfl
    | some p =>
      obtain ⟨hi, hget⟩ := List.getElem?_eq_some_iff.mp hp
      have hplace : i < (pool.map Base64.text).length := by rwa [List.length_map]
      have htext : (pool.map Base64.text)[i] = p.bytes?.2.text := by
        rw [List.getElem_map, hget, text_bytes?]
      have hsame : (pool.set i p.bytes?.2).map Base64.text = pool.map Base64.text := by
        rw [List.map_set, ← htext, List.set_getElem_self]
      exact hsame ▸ List.prefix_rfl
  | text i => exact List.prefix_rfl
  | same i j =>
    rw [Form.step]
    split
    · exact List.prefix_rfl
    · exact List.prefix_rfl
  | toJson i => exact List.prefix_rfl
  | isKnown i => exact List.prefix_rfl

/-! ## Many calls -/

theorem standsFor_run (calls : List Call) :
    ∀ {ps : List Plain} {qs : List Base64}, List.Forall₂ StandsFor ps qs →
      (cached.run qs calls).1 = (plain.run ps calls).1 ∧
        List.Forall₂ StandsFor (plain.run ps calls).2 (cached.run qs calls).2 := by
  induction calls with
  | nil =>
    intro ps qs h
    exact ⟨rfl, h⟩
  | cons c rest ih =>
    intro ps qs h
    obtain ⟨hanswer, hafter⟩ := standsFor_step h c
    obtain ⟨hanswers, hlast⟩ := ih hafter
    exact ⟨congrArg₂ List.cons hanswer hanswers, hlast⟩

theorem texts_run (calls : List Call) :
    ∀ pool : List Base64, pool.map Base64.text <+: (cached.run pool calls).2.map Base64.text := by
  induction calls with
  | nil =>
    intro pool
    exact List.prefix_rfl
  | cons c rest ih =>
    intro pool
    exact (texts_step pool c).trans (ih (cached.step pool c).2)

theorem run_append {σ : Type} (f : Form σ) (calls more : List Call) :
    ∀ pool, (f.run pool (calls ++ more)).2 = (f.run (f.run pool calls).2 more).2 := by
  induction calls with
  | nil =>
    intro pool
    rfl
  | cons c rest ih =>
    intro pool
    exact ih (f.step pool c).2

/-- **Nobody can tell that bytes are kept.** Calls are answered as if each text was decoded
anew each time, and no text ever changes. What is known is what the text decodes to, also
after a call that failed, which leaves nothing known. And payloads that decode are equal
exactly if their bytes are, so each is the payload of its bytes. -/
theorem run_cached (calls more : List Call) :
    (cached.run [] calls).1 = (plain.run [] calls).1 ∧
      List.Forall₂ StandsFor (plain.run [] calls).2 (cached.run [] calls).2 ∧
      (cached.run [] calls).2.map Base64.text
        <+: (cached.run [] (calls ++ more)).2.map Base64.text ∧
      (∀ p ∈ (cached.run [] calls).2, (∀ bs, p.known = some bs → decode? p.text = some bs) ∧
        p.bytes?.1 = decode? p.text ∧ p.bytes?.2.known = p.bytes?.1 ∧
          p.bytes?.2.text = p.text) ∧
      ∀ (p q : Base64) (bs cs : Bytes), p.bytes?.1 = some bs → q.bytes?.1 = some cs →
        (p.same q = true ↔ bs = cs) ∧ (ofBytes bs).same p = true := by
  obtain ⟨hanswers, hpool⟩ := standsFor_run calls (List.Forall₂.nil (R := StandsFor))
  refine ⟨hanswers, hpool, ?_, ?_, ?_⟩
  · rw [run_append]
    exact texts_run more _
  · intro p _
    have hbytes := content?_eq_decode? p
    exact ⟨p.sound, hbytes, (known_bytes? p).trans hbytes.symm, text_bytes? p⟩
  · intro p q bs cs hp hq
    have hdecode := (content?_eq_decode? p).symm.trans hp
    exact ⟨same_iff hdecode ((content?_eq_decode? q).symm.trans hq),
      decide_eq_true (encode_of_decode? hdecode)⟩

/-- Calls on a text that does not decode and its clone, on one that does and its clone, and
on the bytes of the latter. -/
def mixedCalls : List Call :=
  [.make (.text "not base64!"), .bytes 0, .bytes 0, .clone 0, .bytes 1,
    .make (.json (.string "aGk=")), .isKnown 2, .bytes 2, .clone 2, .isKnown 3, .bytes 3,
    .make (.bytes [0x68, 0x69]), .same 2 4, .toJson 0, .make (.json .null), .text 5]

/-- The text that does not decode fails each time and is never known, and the other is the
payload of its bytes. -/
theorem run_cached_mixedCalls :
    (cached.run [] mixedCalls).1 = [.silence, .bytes none, .bytes none, .silence, .bytes none,
        .silence, .verdict false, .bytes (some [0x68, 0x69]), .silence, .verdict true,
        .bytes (some [0x68, 0x69]), .silence, .verdict true, .json (.string "not base64!"), .silence,
        .silence] ∧
      (cached.run [] mixedCalls).2.map Base64.text
        <+: (cached.run [] (mixedCalls ++ [.bytes 0])).2.map Base64.text ∧
      (∃ p ∈ (cached.run [] mixedCalls).2, p.text = "not base64!" ∧ p.bytes?.1 = none ∧
        p.bytes?.2.known = none) ∧
      (ofText "aGk=").same (ofBytes [0x68, 0x69]) = true := by
  obtain ⟨hanswers, -, htexts, hpool, hsame⟩ := run_cached mixedCalls [.bytes 0]
  have hplain : (plain.run [] mixedCalls).1 = _ := rfl
  refine ⟨hanswers.trans hplain, htexts, ?_, ?_⟩
  · have hmade : "not base64!" ∈ (cached.run [] mixedCalls).2.map Base64.text := by
      decide +kernel
    obtain ⟨p, hp, htext⟩ := List.mem_map.mp hmade
    obtain ⟨-, hbytes, hknown, -⟩ := hpool p hp
    have hnone : p.bytes?.1 = none := by
      rw [hbytes, htext]
      decide +kernel
    exact ⟨p, hp, htext, hnone, hknown.trans hnone⟩
  · exact (hsame (ofText "aGk=") (ofBytes [0x68, 0x69]) _ _ (by decide +kernel) rfl).1.mpr rfl

end EventWire.Base64
