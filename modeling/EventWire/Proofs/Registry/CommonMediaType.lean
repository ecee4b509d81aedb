import EventWire.Bookshop
import EventWire.Envelope.Events
import Mathlib.Data.List.Basic

/-!
# The media type that writers share

The walk over types asks the writer of each in turn, and ends at the first type that has no
writer or another media type than those before it. So what it answers depends on the type
that is reached first (`Walked`). A media type that is found is shared by all, whatever the
order, and only a type without a writer is an error. But where writers disagree, a type
without one may come too late to be noticed: success depends on the order exactly if there
is such a type and two others disagree (`forall_perm_iff`).
-/

namespace EventWire

variable {α : Type} [HasMediaType α]

/-- The media type that the writer of a type writes, if there is a writer. -/
def Writers.mediaType? (w : Writers α) (t : DataType) : Option MediaType :=
  (w.get? t).map HasMediaType.mediaType

namespace Registry

variable {w : Writers α} {c m : MediaType} {t u : DataType} {ts us rest : List DataType}
  {answer : Except SerializationError (Option MediaType)}

/-- The walk comes to a type when the writers of all types before it write one media type. -/
def Reaches (w : Writers α) (c : MediaType) (ts : List DataType) (t : DataType) : Prop :=
  ∃ before after, ts = before ++ t :: after ∧ ∀ u ∈ before, w.mediaType? u = some c

/-- Some type has no writer. -/
def LacksWriter (w : Writers α) (ts : List DataType) : Prop :=
  ∃ t ∈ ts, w.mediaType? t = none

/-- The writers of two types write different media types. -/
def Disagrees (w : Writers α) (ts : List DataType) : Prop :=
  ∃ t ∈ ts, ∃ u ∈ ts, ∃ c m, w.mediaType? t = some c ∧ w.mediaType? u = some m ∧ m ≠ c

/-- A type without a writer may come behind two types that end the walk. -/
def MayHide (w : Writers α) (ts : List DataType) : Prop :=
  LacksWriter w ts ∧ Disagrees w ts

theorem Reaches.mem (h : Reaches w c ts t) : t ∈ ts := by
  obtain ⟨before, after, rfl, -⟩ := h
  exact List.mem_append_right _ (List.mem_cons_self ..)

/-- The walk goes past the first type if its writer writes the media type. -/
theorem reaches_cons :
    Reaches w c (u :: rest) t ↔ t = u ∨ w.mediaType? u = some c ∧ Reaches w c rest t := by
  constructor
  · intro h
    obtain ⟨before, after, hsplit, hbefore⟩ := h
    cases before with
    | nil =>
      rw [List.nil_append] at hsplit
      exact Or.inl (List.cons.inj hsplit).1.symm
    | cons x xs =>
      obtain ⟨hu, hxs⟩ := List.forall_mem_cons.mp hbefore
      obtain ⟨rfl, hrest⟩ := List.cons.inj hsplit
      exact Or.inr ⟨hu, xs, after, hrest, hxs⟩
  · intro h
    obtain rfl | ⟨hu, before, after, hsplit, hbefore⟩ := h
    · exact ⟨[], rest, rfl, fun _ hx => nomatch hx⟩
    · exact ⟨u :: before, after, congrArg (List.cons u) hsplit,
        List.forall_mem_cons.mpr ⟨hu, hbefore⟩⟩

theorem reaches_cons_of_ne (h : w.mediaType? u ≠ some c) : Reaches w c (u :: rest) t ↔ t = u := by
  rw [reaches_cons]
  exact ⟨fun hreach => hreach.resolve_right fun hu => h hu.1, Or.inl⟩

/-! ## The walk -/

theorem commonFrom_of_none (h : w.mediaType? t = none) (common : Option MediaType) :
    commonFrom w common (t :: rest) = .error (.serializerNotFound t) := by
  have hnone : w.get? t = none := Option.map_eq_none_iff.mp h
  rw [commonFrom, Writers.find, hnone]

theorem commonFrom_of_some (h : w.mediaType? t = some m) (common : Option MediaType) :
    commonFrom w common (t :: rest)
      = if common.getD m = m then commonFrom w (some m) rest else .ok none := by
  obtain ⟨a, ha, rfl⟩ := Option.map_eq_some_iff.mp h
  rw [commonFrom, Writers.find, ha]
  cases common with
  | none => exact (if_pos rfl).symm
  | some c =>
    dsimp only [Option.getD_some]
    by_cases hc : c = HasMediaType.mediaType a
    · rw [if_pos hc, if_pos hc, hc]
    · rw [if_neg hc, if_neg hc]

/-- What the walk answers when all writers so far have written `c`. -/
structure WalkedFrom (w : Writers α) (c : MediaType) (ts : List DataType)
    (answer : Except SerializationError (Option MediaType)) : Prop where
  found : ∀ m, answer = .ok (some m) ↔ m = c ∧ ∀ t ∈ ts, w.mediaType? t = some c
  missed : ∀ e, answer = .error e ↔
    ∃ t, e = .serializerNotFound t ∧ w.mediaType? t = none ∧ Reaches w c ts t
  undecided : answer = .ok none ↔ ∃ t m, w.mediaType? t = some m ∧ m ≠ c ∧ Reaches w c ts t

theorem walkedFrom_commonFrom (w : Writers α) (c : MediaType) (ts : List DataType) :
    WalkedFrom w c ts (commonFrom w (some c) ts) := by
  induction ts with
  | nil =>
    have hnone (t : DataType) : ¬ Reaches w c [] t := fun h => nomatch h.mem
    constructor
    · simp [commonFrom, eq_comm]
    · simp [commonFrom, hnone]
    · simp [commonFrom, hnone]
  | cons t rest ih =>
    cases ht : w.mediaType? t with
    | none =>
      -- The walk ends here, with an error.
      have hreach (u : DataType) : Reaches w c (t :: rest) u ↔ u = t :=
        reaches_cons_of_ne (by simp [ht])
      rw [commonFrom_of_none ht]
      constructor
      · simp [ht]
      · simp [hreach, ht, eq_comm]
      · simp only [hreach]
        grind
    | some m =>
      rw [commonFrom_of_some ht, Option.getD_some]
      by_cases hm : c = m
      · -- It goes on, and no type that ends it is this one.
        subst hm
        rw [if_pos rfl]
        constructor
        · intro m
          rw [ih.found, List.forall_mem_cons, and_iff_right ht]
        · intro e
          rw [ih.missed]
          grind [reaches_cons]
        · rw [ih.undecided]
          grind [reaches_cons]
      · -- It ends here, without an error.
        have hreach (u : DataType) : Reaches w c (t :: rest) u ↔ u = t :=
          reaches_cons_of_ne (by simp [ht, Ne.symm hm])
        rw [if_neg hm]
        constructor
        · simp [ht, Ne.symm hm]
        · simp only [hreach]
          grind
        · exact iff_of_true rfl ⟨t, m, ht, Ne.symm hm, (hreach t).mpr rfl⟩

/-- What the walk over types answers. -/
structure Walked (w : Writers α) (ts : List DataType)
    (answer : Except SerializationError (Option MediaType)) : Prop where
  found : ∀ m, answer = .ok (some m) ↔ ts ≠ [] ∧ ∀ t ∈ ts, w.mediaType? t = some m
  missed : ∀ e, answer = .error e ↔
    ∃ t c, e = .serializerNotFound t ∧ w.mediaType? t = none ∧ Reaches w c ts t
  undecided : answer = .ok none ↔ ts = [] ∨ ∃ first c t m, ts.head? = some first ∧
    w.mediaType? first = some c ∧ w.mediaType? t = some m ∧ m ≠ c ∧ Reaches w c ts t

/-- **The walk answers for the type that it reaches first**, of those that end it. -/
theorem walked_commonMediaType (r : Registry α) (ts : List DataType) :
    Walked r.writers ts (r.commonMediaType ts) := by
  rw [commonMediaType]
  cases ts with
  | nil =>
    have hnone (c : MediaType) (t : DataType) : ¬ Reaches r.writers c [] t := fun h => nomatch h.mem
    constructor
    · simp [commonFrom]
    · simp [commonFrom, hnone]
    · simp [commonFrom]
  | cons first rest =>
    cases hfirst : r.writers.mediaType? first with
    | none =>
      have hreach (c : MediaType) (t : DataType) :
          Reaches r.writers c (first :: rest) t ↔ t = first :=
        reaches_cons_of_ne (by simp [hfirst])
      rw [commonFrom_of_none hfirst]
      constructor
      · simp [hfirst]
      · intro e
        constructor
        · intro h
          cases h
          exact ⟨first, .octetStream, rfl, hfirst, (hreach _ _).mpr rfl⟩
        · intro h
          obtain ⟨t, c, rfl, -, ht⟩ := h
          rw [(hreach c t).mp ht]
      · simp [hfirst]
    | some c =>
      have hsame : commonFrom r.writers none (first :: rest)
          = commonFrom r.writers (some c) (first :: rest) := by
        rw [commonFrom_of_some hfirst, commonFrom_of_some hfirst]
        rfl
      have hwalk := walkedFrom_commonFrom r.writers c (first :: rest)
      rw [hsame]
      constructor
      · intro m
        rw [hwalk.found]
        grind
      · intro e
        rw [hwalk.missed]
        grind [reaches_cons]
      · rw [hwalk.undecided]
        grind

/-! ## Orders -/

/-- A failure is for want of a writer. -/
theorem Walked.lacksWriter (h : Walked w ts answer) (hfail : answer.isOk = false) :
    LacksWriter w ts := by
  cases answer with
  | ok found => cases hfail
  | error e =>
    obtain ⟨t, c, -, ht, hreach⟩ := (h.missed e).mp rfl
    exact ⟨t, hreach.mem, ht⟩

/-- **Where no writers disagree, a type without one is noticed.** -/
theorem Walked.isOk_eq_false (h : Walked w ts answer) (hlacks : LacksWriter w ts)
    (hagree : ¬ Disagrees w ts) : answer.isOk = false := by
  obtain ⟨t, ht, hnone⟩ := hlacks
  cases answer with
  | error e => rfl
  | ok found =>
    cases found with
    | some m =>
      have hm := ((h.found m).mp rfl).2 t ht
      rw [hnone] at hm
      cases hm
    | none =>
      obtain rfl | ⟨first, c, u, m, hfirst, hc, hm, hne, hreach⟩ := h.undecided.mp rfl
      · cases ht
      · exact absurd ⟨first, List.mem_of_head? hfirst, u, hreach.mem, c, m, hc, hm, hne⟩ hagree

theorem Walked.isOk_eq_false_iff (h : Walked w ts answer) (hnot : ¬ MayHide w ts) :
    answer.isOk = false ↔ LacksWriter w ts :=
  ⟨h.lacksWriter, fun hlacks => h.isOk_eq_false hlacks fun hdisagree => hnot ⟨hlacks, hdisagree⟩⟩

theorem LacksWriter.perm_iff (h : us.Perm ts) : LacksWriter w us ↔ LacksWriter w ts :=
  exists_congr fun _ => and_congr_left' h.mem_iff

theorem Disagrees.perm_iff (h : us.Perm ts) : Disagrees w us ↔ Disagrees w ts :=
  exists_congr fun _ => and_congr h.mem_iff
    (exists_congr fun _ => and_congr_left' h.mem_iff)

theorem MayHide.perm_iff (h : us.Perm ts) : MayHide w us ↔ MayHide w ts :=
  and_congr (LacksWriter.perm_iff h) (Disagrees.perm_iff h)

section Permuted

variable {answer' : Except SerializationError (Option MediaType)}

/-- **A media type that is found is found in every order.** -/
theorem Walked.found_perm (h : Walked w ts answer) (h' : Walked w us answer') (hperm : us.Perm ts)
    (m : MediaType) : answer' = .ok (some m) ↔ answer = .ok (some m) := by
  have hempty : us = [] ↔ ts = [] := by
    rw [← List.length_eq_zero_iff, hperm.length_eq, List.length_eq_zero_iff]
  rw [h.found, h'.found, ne_eq, ne_eq, hempty]
  exact and_congr_right' (forall_congr' fun _ => imp_congr_left hperm.mem_iff)

/-- **Where nothing may hide, the order does not matter.** -/
theorem Walked.toOption_perm (h : Walked w ts answer) (h' : Walked w us answer')
    (hperm : us.Perm ts) (hnot : ¬ MayHide w ts) : answer'.toOption = answer.toOption := by
  have hfail := h.isOk_eq_false_iff hnot
  have hfail' := h'.isOk_eq_false_iff ((not_congr (MayHide.perm_iff hperm)).mpr hnot)
  rw [LacksWriter.perm_iff hperm, ← hfail] at hfail'
  cases answer with
  | error e =>
    cases answer' with
    | error e' => rfl
    | ok found' => cases hfail'.mpr rfl
  | ok found =>
    cases answer' with
    | error e' => cases hfail'.mp rfl
    | ok found' =>
      have hfound : found' = found := Option.ext fun m => by
        simpa using h.found_perm h' hperm m
      rw [hfound]

end Permuted

/-- The walk ends without an error if two types whose writers disagree come first. -/
theorem exists_perm_undecided {r : Registry α} (h : Disagrees r.writers ts) :
    ∃ us, us.Perm ts ∧ r.commonMediaType us = .ok none := by
  obtain ⟨t, ht, u, hu, c, m, hc, hm, hne⟩ := h
  have hother : u ≠ t := by
    intro he
    rw [he, hc] at hm
    exact hne (Option.some.inj hm).symm
  have hu' : u ∈ ts.erase t := (List.mem_erase_of_ne hother).mpr hu
  refine ⟨t :: u :: (ts.erase t).erase u, ?_, ?_⟩
  · exact ((List.perm_cons_erase ht).trans ((List.perm_cons_erase hu').cons t)).symm
  · rw [commonMediaType, commonFrom_of_some hc, Option.getD_none, if_pos rfl,
      commonFrom_of_some hm, Option.getD_some, if_neg (Ne.symm hne)]

/-- **Success depends on the order exactly if some type has no writer and two others have
writers that disagree.** -/
theorem forall_perm_iff (r : Registry α) (ts : List DataType) :
    (∀ us, us.Perm ts →
        ((r.commonMediaType us).isOk = false ↔ LacksWriter r.writers ts) ∧
          (r.commonMediaType us).toOption = (r.commonMediaType ts).toOption) ↔
      ¬ MayHide r.writers ts := by
  constructor
  · intro h hhide
    obtain ⟨us, hperm, hundecided⟩ := exists_perm_undecided hhide.2
    have hfail := (h us hperm).1.mpr hhide.1
    rw [hundecided] at hfail
    cases hfail
  · intro hnot us hperm
    have hwalk := walked_commonMediaType r us
    have hnot' := (not_congr (MayHide.perm_iff hperm)).mpr hnot
    refine ⟨?_, (walked_commonMediaType r ts).toOption_perm hwalk hperm hnot⟩
    rw [hwalk.isOk_eq_false_iff hnot', LacksWriter.perm_iff hperm]

end Registry

namespace DomainEvents

open Registry

/-- **A media type that is found is shared, in whatever order the types come**, and what
fails does so for want of a writer. But the want of one is noticed in every order exactly
if no two writers disagree; so it is for several events with the types of their data and
metadata. -/
theorem commonMediaType_orders :
    (∀ (r : Registry α) (ts : List DataType), Walked r.writers ts (r.commonMediaType ts) ∧
      (∀ us, us.Perm ts → ∀ m,
        r.commonMediaType us = .ok (some m) ↔ r.commonMediaType ts = .ok (some m)) ∧
      ((∀ us, us.Perm ts →
          ((r.commonMediaType us).isOk = false ↔ LacksWriter r.writers ts) ∧
            (r.commonMediaType us).toOption = (r.commonMediaType ts).toOption) ↔
        ¬ MayHide r.writers ts)) ∧
    (∀ (r : Registry Codec) (es : DomainEvents),
      Walked r.writers (es.flatMap DomainEvent.types) (commonMediaType r es) ∧
      ∀ es', es'.Perm es →
        (∀ m, commonMediaType r es' = .ok (some m) ↔ commonMediaType r es = .ok (some m)) ∧
        (¬ MayHide r.writers (es.flatMap DomainEvent.types) →
          ((commonMediaType r es').isOk = false ↔
            LacksWriter r.writers (es.flatMap DomainEvent.types)) ∧
          (commonMediaType r es').toOption = (commonMediaType r es).toOption)) := by
  constructor
  · intro r ts
    have hwalk := walked_commonMediaType r ts
    exact ⟨hwalk, fun us hperm => hwalk.found_perm (walked_commonMediaType r us) hperm,
      forall_perm_iff r ts⟩
  · intro r es
    have hwalk := walked_commonMediaType r (es.flatMap DomainEvent.types)
    refine ⟨hwalk, fun es' hperm => ?_⟩
    have htypes : (es'.flatMap DomainEvent.types).Perm (es.flatMap DomainEvent.types) :=
      hperm.flatMap_right _
    exact ⟨hwalk.found_perm (walked_commonMediaType r _) htypes,
      fun hnot => (forall_perm_iff r _).mpr hnot _ htypes⟩

/-- A type that the bookshop has no writer for. -/
def absentType : DataType := ⟨"Absent", by decide +kernel⟩

/-- Books as JSON, with a type that has no writer between them. -/
def bookTypes : List DataType := [Bookshop.bookAdded, absentType, Bookshop.bookRemoved]

theorem not_mayHide_bookTypes : ¬ MayHide (Bookshop.registry "").writers bookTypes := by
  intro h
  obtain ⟨-, t, ht, u, hu, c, m, hc, hm, hne⟩ := h
  have hjson : ∀ t ∈ bookTypes, ∀ m ∈ (Bookshop.registry "").writers.mediaType? t,
      m = .json .utf8 := by
    decide +kernel
  exact hne ((hjson u hu m hm).trans (hjson t ht c hc).symm)

/-- The want of a writer for books is noticed in another order, too. -/
theorem commonMediaType_orders_bookTypes :
    ¬ MayHide (Bookshop.registry "").writers bookTypes ∧
      bookTypes.reverse.Perm bookTypes ∧
      ((Bookshop.registry "").commonMediaType bookTypes.reverse).isOk = false ∧
      ((Bookshop.registry "").commonMediaType bookTypes).isOk = false := by
  obtain ⟨-, -, horder⟩ := commonMediaType_orders.1 (Bookshop.registry "") bookTypes
  have hperm : bookTypes.reverse.Perm bookTypes := bookTypes.reverse_perm
  have hlacks : LacksWriter (Bookshop.registry "").writers bookTypes :=
    ⟨absentType, List.mem_cons_of_mem _ (List.mem_cons_self ..), by decide +kernel⟩
  have hall := horder.mpr not_mayHide_bookTypes
  exact ⟨not_mayHide_bookTypes, hperm, (hall _ hperm).1.mpr hlacks,
    (hall _ (.refl _)).1.mpr hlacks⟩

/-- Behind a book as JSON and a note as text, the want of a writer is not noticed. -/
theorem commonMediaType_hides :
    (Bookshop.registry "").writers.mediaType? absentType = none ∧
      (Bookshop.registry "").commonMediaType [Bookshop.bookAdded, Bookshop.note, absentType]
        = .ok none ∧
      (Bookshop.registry "").commonMediaType [absentType, Bookshop.bookAdded, Bookshop.note]
        = .error (.serializerNotFound absentType) := by
  decide +kernel

end DomainEvents

end EventWire
