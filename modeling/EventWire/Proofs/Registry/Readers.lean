import EventWire.Registry.Basic

/-!
# What is registered for reading

A list of readers holds a reader under each of its media types (`held?`). Putting one
under a media type changes what is held under that very media type alone
(`held?_insert`), and a new media type comes last (`mediaTypes_insert`).

A registry looks a media type up in three steps, the first of which asks for what is
held under it: so that is what is found (`find_of_held?`). Whichever step finds something
finds what is under a media type that serves for the one asked for
(`exists_serves_of_lookup?`), and one of them does if there is such a media type
(`isSome_lookup?`).
-/

namespace EventWire

namespace MediaType

/-- True when a reader under one media type may be found for another: base and encoding
agree, or the base does and no encoding is asked for. -/
def serves (registered asked : MediaType) : Bool :=
  registered.matchesEncoding asked || (asked.encoding.isNone && registered.sameBase asked)

theorem sameBase_refl (m : MediaType) : m.sameBase m = true := by
  rw [sameBase, decide_eq_true rfl, decide_eq_true rfl]
  rfl

theorem matchesEncoding_refl (m : MediaType) : m.matchesEncoding m = true := by
  unfold matchesEncoding
  rw [sameBase_refl]
  cases m.encoding with
  | none => rfl
  | some e => exact Text.sameIgnoringCase_refl e

theorem serves_refl (m : MediaType) : m.serves m = true := by
  rw [serves, matchesEncoding_refl]
  rfl

theorem base_eq_of_sameBase {a b : MediaType} (h : a.sameBase b = true) : a.base = b.base := by
  obtain ⟨hprimary, hsub⟩ := Bool.and_eq_true _ _ ▸ h
  rw [base, base, of_decide_eq_true hprimary, of_decide_eq_true hsub]

/-- The base agrees, and no encoding is asked for or the one that is there. -/
theorem serves_iff {k m : MediaType} :
    k.serves m = true ↔ k.sameBase m = true ∧ (m.encoding = none ∨
      ∃ x y, k.encoding = some x ∧ m.encoding = some y ∧ Text.sameIgnoringCase x y = true) := by
  unfold serves matchesEncoding
  cases k.encoding with
  | none =>
    cases m.encoding with
    | none => simp
    | some y => simp
  | some x =>
    cases m.encoding with
    | none => simp
    | some y => simp

end MediaType

namespace ReaderList

variable {α : Type}

/-- The reader under a media type itself. -/
def held? (l : ReaderList α) (m : MediaType) : Option α :=
  l.entries.lookup m

theorem lookup_insertEntry (m k : MediaType) (a : α) (entries : List (MediaType × α)) :
    (insertEntry m a entries).lookup k = if k = m then some a else entries.lookup k := by
  induction entries with
  | nil =>
    rw [insertEntry, List.lookup_cons]
    by_cases hk : k = m
    · rw [if_pos hk, beq_iff_eq.mpr hk]
    · rw [if_neg hk, beq_eq_false_iff_ne.mpr hk]
  | cons e rest ih =>
    obtain ⟨x, b⟩ := e
    rw [insertEntry]
    by_cases hx : x = m
    · rw [if_pos hx, List.lookup_cons, List.lookup_cons, hx]
      by_cases hk : k = m
      · rw [if_pos hk, beq_iff_eq.mpr hk]
      · rw [if_neg hk, beq_eq_false_iff_ne.mpr hk]
    · rw [if_neg hx, List.lookup_cons, List.lookup_cons, ih]
      by_cases hk : k = x
      · subst hk
        rw [beq_self_eq_true]
        exact (if_neg hx).symm
      · rw [beq_eq_false_iff_ne.mpr hk]

/-- Only what is held under the media type itself changes. -/
theorem held?_insert (l : ReaderList α) (m k : MediaType) (a : α) :
    (l.insert m a).held? k = if k = m then some a else l.held? k :=
  lookup_insertEntry m k a l.entries

theorem map_insertEntry (m : MediaType) (a : α) (entries : List (MediaType × α)) :
    (insertEntry m a entries).map (·.1)
      = if m ∈ entries.map (·.1) then entries.map (·.1) else entries.map (·.1) ++ [m] := by
  induction entries with
  | nil => rfl
  | cons e rest ih =>
    rw [insertEntry, List.map_cons]
    by_cases hx : e.1 = m
    · rw [if_pos hx, if_pos (List.mem_cons.mpr (Or.inl hx.symm)), List.map_cons]
    · rw [if_neg hx, List.map_cons, ih]
      by_cases hrest : m ∈ rest.map (·.1)
      · rw [if_pos hrest, if_pos (List.mem_cons_of_mem _ hrest)]
      · have hnew : m ∉ e.1 :: rest.map (·.1) := fun hmem =>
          (List.mem_cons.mp hmem).elim (fun h => hx h.symm) hrest
        rw [if_neg hrest, if_neg hnew, List.cons_append]

/-- A media type keeps its place, and a new one comes last. -/
theorem mediaTypes_insert (l : ReaderList α) (m : MediaType) (a : α) :
    (l.insert m a).mediaTypes
      = if m ∈ l.mediaTypes then l.mediaTypes else l.mediaTypes ++ [m] :=
  map_insertEntry m a l.entries

theorem find?_of_lookup {m : MediaType} {a : α} {entries : List (MediaType × α)}
    (h : entries.lookup m = some a) : entries.find? (fun e => e.1 = m) = some (m, a) := by
  induction entries with
  | nil => cases h
  | cons e rest ih =>
    obtain ⟨x, b⟩ := e
    rw [List.lookup_cons] at h
    by_cases hx : x = m
    · subst hx
      rw [beq_self_eq_true] at h
      cases h
      rw [List.find?_cons, decide_eq_true rfl]
    · rw [beq_eq_false_iff_ne.mpr fun e => hx e.symm] at h
      rw [List.find?_cons, decide_eq_false hx]
      exact ih h

/-- What is held under the media type itself is found in the first step. -/
theorem lookup?_of_held? {l : ReaderList α} {m : MediaType} {a : α} (h : l.held? m = some a) :
    l.lookup? m = some a := by
  rw [lookup?, find?_of_lookup h]
  rfl

theorem lookup_of_mem {m : MediaType} {a : α} {entries : List (MediaType × α)}
    (hdistinct : (entries.map (·.1)).Nodup) (h : (m, a) ∈ entries) : entries.lookup m = some a := by
  induction entries with
  | nil => cases h
  | cons e rest ih =>
    rw [List.map_cons, List.nodup_cons] at hdistinct
    rcases List.mem_cons.mp h with rfl | hrest
    · rw [List.lookup_cons, beq_self_eq_true]
    · have hne : m ≠ e.1 := fun he => hdistinct.1 (he ▸ List.mem_map_of_mem (f := (·.1)) hrest)
      rw [List.lookup_cons, beq_eq_false_iff_ne.mpr hne]
      exact ih hdistinct.2 hrest

/-- What is held is what is in the list. -/
theorem held?_eq_some {l : ReaderList α} {m : MediaType} {a : α} :
    l.held? m = some a ↔ (m, a) ∈ l.entries := by
  constructor
  · intro h
    obtain ⟨before, after, hsplit, -⟩ := List.lookup_eq_some_iff.mp h
    rw [hsplit]
    exact List.mem_append_right _ (List.mem_cons_self ..)
  · exact lookup_of_mem l.distinct

/-- The entry of the list that three passes find. -/
def hit? (l : ReaderList α) (m : MediaType) : Option (MediaType × α) :=
  ((l.entries.find? fun e => e.1 = m).or (l.entries.find? fun e => e.1.matchesEncoding m)).or
    (if m.encoding.isSome then none else l.entries.find? fun e => e.1.sameBase m)

theorem lookup?_eq (l : ReaderList α) (m : MediaType) : l.lookup? m = (l.hit? m).map (·.2) :=
  rfl

theorem mem_of_hit? {l : ReaderList α} {m : MediaType} {e : MediaType × α}
    (h : l.hit? m = some e) : e ∈ l.entries := by
  rcases Option.or_eq_some_iff.mp h with hearlier | ⟨-, hbase⟩
  · rcases Option.or_eq_some_iff.mp hearlier with hexact | ⟨-, hencoding⟩
    · exact List.mem_of_find?_eq_some hexact
    · exact List.mem_of_find?_eq_some hencoding
  · split at hbase
    · cases hbase
    · exact List.mem_of_find?_eq_some hbase

/-- **What is found is under a media type that serves**, whichever step found it. -/
theorem exists_serves_of_lookup? {l : ReaderList α} {m : MediaType} {a : α}
    (h : l.lookup? m = some a) : ∃ k, (k, a) ∈ l.entries ∧ k.serves m = true := by
  obtain ⟨⟨k, b⟩, hhit, rfl⟩ := Option.map_eq_some_iff.mp h
  refine ⟨k, mem_of_hit? hhit, ?_⟩
  rcases Option.or_eq_some_iff.mp hhit with hearlier | ⟨-, hbase⟩
  · rcases Option.or_eq_some_iff.mp hearlier with hexact | ⟨-, hencoding⟩
    · have hsame : k = m := by simpa using List.find?_some hexact
      exact hsame ▸ k.serves_refl
    · have hmatches : k.matchesEncoding m = true := by simpa using List.find?_some hencoding
      rw [MediaType.serves, hmatches, Bool.true_or]
  · split at hbase
    · cases hbase
    · next hnone =>
      have hsame : k.sameBase m = true := by simpa using List.find?_some hbase
      rw [Bool.not_eq_true, Option.isSome_eq_false_iff] at hnone
      rw [MediaType.serves, hsame, hnone, Bool.and_true, Bool.or_true]

/-- **Something is found if anything serves.** -/
theorem isSome_lookup? {l : ReaderList α} {k m : MediaType} {a : α} (hmem : (k, a) ∈ l.entries)
    (h : k.serves m = true) : (l.lookup? m).isSome = true := by
  rw [lookup?, Option.isSome_map, Option.isSome_or, Option.isSome_or]
  rcases Bool.or_eq_true _ _ ▸ h with hencoding | hbase
  · have hfound : (l.entries.find? fun e => e.1.matchesEncoding m).isSome = true :=
      List.find?_isSome.mpr ⟨(k, a), hmem, hencoding⟩
    rw [hfound, Bool.or_true, Bool.true_or]
  · obtain ⟨hnone, hsame⟩ := Bool.and_eq_true _ _ ▸ hbase
    have hfound : (l.entries.find? fun e => e.1.sameBase m).isSome = true :=
      List.find?_isSome.mpr ⟨(k, a), hmem, hsame⟩
    have hbare : m.encoding.isSome = false := Option.isSome_eq_false_iff.mpr hnone
    rw [hbare, if_neg Bool.false_ne_true, hfound, Bool.or_true]

end ReaderList

namespace Readers

variable {α : Type}

theorem listOf_add (r : Readers α) (t u : DataType) (m : MediaType) (a : α) :
    (r.add t m a).listOf u = if u = t then (r.listOf u).insert m a else r.listOf u := by
  rw [add, listOf, Table.get?_insert]
  by_cases hu : u = t
  · rw [if_pos hu, if_pos hu, hu]
    rfl
  · rw [if_neg hu, if_neg hu]
    rfl

theorem find_eq_ok {r : Readers α} {t : DataType} {m : MediaType} {a : α} :
    r.find t (some m) = .ok a ↔ (r.listOf t).lookup? m = some a := by
  rw [find, Option.some_or]
  dsimp only
  cases (r.listOf t).lookup? m with
  | none => simp
  | some b => simp

theorem find_eq_error {r : Readers α} {t : DataType} {m : MediaType} {e : SerializationError} :
    r.find t (some m) = .error e ↔
      (r.listOf t).lookup? m = none ∧ e = .deserializerNotFound t m := by
  rw [find, Option.some_or]
  dsimp only
  cases (r.listOf t).lookup? m with
  | none => simp [eq_comm]
  | some b => simp

theorem find_congr {r r' : Readers α} {t : DataType} {m : MediaType}
    (h : ∀ a, r.find t (some m) = .ok a ↔ r'.find t (some m) = .ok a) :
    r.find t (some m) = r'.find t (some m) := by
  have hlookup : (r.listOf t).lookup? m = (r'.listOf t).lookup? m := Option.ext fun a => by
    rw [← find_eq_ok, ← find_eq_ok]
    exact h a
  rw [find, find, Option.some_or, Option.some_or]
  dsimp only
  rw [hlookup]

theorem find_of_held? {r : Readers α} {t : DataType} {m : MediaType} {a : α}
    (h : (r.listOf t).held? m = some a) : r.find t (some m) = .ok a :=
  find_eq_ok.mpr (ReaderList.lookup?_of_held? h)

/-- Without a media type the default one is taken. -/
theorem find_none (r : Readers α) (t : DataType) :
    r.find t none = match r.default? t with
      | none => .error (.defaultNotFound t)
      | some m => r.find t (some m) := by
  rw [find, Option.none_or]
  cases r.default? t with
  | none => rfl
  | some m => rfl

theorem has_iff {r : Readers α} {t : DataType} {m : MediaType} :
    r.has t m = true ↔ m ∈ (r.listOf t).mediaTypes := by
  rw [has, List.contains_iff_mem]

end Readers

end EventWire
