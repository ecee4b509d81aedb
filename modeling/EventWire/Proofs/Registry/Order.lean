import EventWire.Bookshop
import EventWire.Proofs.Registry.Calls
import Mathlib.Data.List.Induction

/-!
# The order of look-up

Which of the readers of a type is found for a media type depends on nothing but the media
types that readers were registered under, in the order in which they first came. `Picks`
says which of them is picked, by the three rules one after the other; the reader is the one
that was registered under it last (`resolves_ofCalls`).

The rules are first shown to be those of the three passes over the list of readers
(`picks_iff`, `lookup?_eq_some`). That the list has each media type once makes no difference
to them (`pick?_eraseDups`), nor does what is registered once more, so a reader that
replaces another is found where the other was.
-/

namespace EventWire

namespace MediaType

/-- Type and subtype are the same. -/
structure SharesBase (k m : MediaType) : Prop where
  primary : k.primary = m.primary
  sub : k.sub = m.sub

/-- The base is the same, and the encoding is absent from both or the same up to case. -/
structure Alike (k m : MediaType) : Prop extends SharesBase k m where
  encoding : k.encoding.map Text.asciiLower = m.encoding.map Text.asciiLower

theorem sameBase_iff {k m : MediaType} : k.sameBase m = true ↔ k.SharesBase m := by
  rw [sameBase, Bool.and_eq_true, decide_eq_true_iff, decide_eq_true_iff]
  exact ⟨fun h => ⟨h.1, h.2⟩, fun h => ⟨h.primary, h.sub⟩⟩

theorem matchesEncoding_iff {k m : MediaType} : k.matchesEncoding m = true ↔ k.Alike m := by
  unfold matchesEncoding
  rw [Bool.and_eq_true, sameBase_iff]
  refine (and_congr_right fun _ => ?_).trans
    ⟨fun h => ⟨h.1, h.2⟩, fun h => ⟨h.toSharesBase, h.encoding⟩⟩
  cases k.encoding with
  | none =>
    cases m.encoding with
    | none => simp
    | some y => simp
  | some x =>
    cases m.encoding with
    | none => simp
    | some y => simp [Text.sameIgnoringCase]

/-- The first of some media types with a property. -/
def Earliest (P : MediaType → Prop) (ms : List MediaType) (k : MediaType) : Prop :=
  P k ∧ ∃ before after, ms = before ++ k :: after ∧ ∀ j ∈ before, ¬ P j

/-- Which of some registered media types is picked for a media type. -/
inductive Picks (ms : List MediaType) (m : MediaType) : MediaType → Prop where
  /-- The media type itself, if it is registered. -/
  | itself (h : m ∈ ms) : Picks ms m m
  /-- Else the first with its base and its encoding. -/
  | alike {k : MediaType} (hnot : m ∉ ms) (h : Earliest (·.Alike m) ms k) : Picks ms m k
  /-- Else, if it has no encoding, the first with its base. -/
  | base {k : MediaType} (hnot : m ∉ ms) (hnone : ∀ j ∈ ms, ¬ j.Alike m)
      (hbare : m.encoding = none) (h : Earliest (·.SharesBase m) ms k) : Picks ms m k

/-- The media type that is picked, as three passes find it. -/
def pick? (ms : List MediaType) (m : MediaType) : Option MediaType :=
  ((ms.find? (· = m)).or (ms.find? (·.matchesEncoding m))).or
    (if m.encoding.isSome then none else ms.find? (·.sameBase m))

section Picking

variable {ms : List MediaType} {m k : MediaType}

theorem earliest_iff {p : MediaType → Bool} {P : MediaType → Prop} (hp : ∀ j, p j = true ↔ P j) :
    ms.find? p = some k ↔ Earliest P ms k := by
  simp only [List.find?_eq_some_iff_append, Earliest, hp, Bool.not_eq_true', ← Bool.not_eq_true]

theorem find?_self : ms.find? (· = m) = if m ∈ ms then some m else none := by
  cases hfound : ms.find? (· = m) with
  | none =>
    have hnot : m ∉ ms := fun hm => List.find?_eq_none.mp hfound m hm (decide_eq_true rfl)
    rw [if_neg hnot]
  | some k =>
    have hk : k = m := of_decide_eq_true (List.find?_some hfound :)
    rw [if_pos (hk ▸ List.mem_of_find?_eq_some hfound), hk]

theorem find?_alike_eq_none : ms.find? (·.matchesEncoding m) = none ↔ ∀ j ∈ ms, ¬ j.Alike m := by
  simp only [List.find?_eq_none, matchesEncoding_iff]

/-- **The rules are those of the three passes.** -/
theorem picks_iff : Picks ms m k ↔ pick? ms m = some k := by
  rw [pick?, find?_self]
  -- The first pass finds the media type itself or nothing, and then the others decide.
  by_cases hm : m ∈ ms
  · rw [if_pos hm, Option.some_or, Option.some_or, Option.some_inj]
    constructor
    · intro h
      cases h with
      | itself _ => rfl
      | alike hnot _ => exact absurd hm hnot
      | base hnot _ _ _ => exact absurd hm hnot
    · rintro rfl
      exact .itself hm
  · rw [if_neg hm, Option.none_or, Option.or_eq_some_iff, find?_alike_eq_none,
      earliest_iff fun _ => matchesEncoding_iff]
    constructor
    · intro h
      cases h with
      | itself h => exact absurd h hm
      | alike _ h => exact Or.inl h
      | base _ hnone hbare h =>
        rw [hbare, Option.isSome_none, if_neg Bool.false_ne_true]
        exact Or.inr ⟨hnone, (earliest_iff fun _ => sameBase_iff).mpr h⟩
    · rintro (h | ⟨hnone, hbase⟩)
      · exact .alike hm h
      · split at hbase
        · cases hbase
        · next hbare =>
          rw [Option.not_isSome_iff_eq_none] at hbare
          exact .base hm hnone hbare ((earliest_iff fun _ => sameBase_iff).mp hbase)

theorem Picks.unique {j : MediaType} (hj : Picks ms m j) (hk : Picks ms m k) : j = k :=
  Option.some.inj ((picks_iff.mp hj).symm.trans (picks_iff.mp hk))

/-- What comes once more is not what is found first. -/
theorem find?_again {p : MediaType → Bool} {before after : List MediaType} (h : k ∈ before) :
    (before ++ k :: after).find? p = (before ++ after).find? p := by
  rw [List.find?_append, List.find?_append, List.find?_cons]
  cases hp : p k with
  | false => rfl
  | true =>
    obtain ⟨j, hj⟩ := Option.isSome_iff_exists.mp (List.find?_isSome.mpr ⟨k, h, hp⟩)
    rw [hj, Option.some_or, Option.some_or]

theorem pick?_again {before after : List MediaType} (h : k ∈ before) :
    pick? (before ++ k :: after) m = pick? (before ++ after) m := by
  rw [pick?, pick?, find?_again h, find?_again h, find?_again h]

theorem picks_again {before after : List MediaType} (h : k ∈ before) {j : MediaType} :
    Picks (before ++ k :: after) m j ↔ Picks (before ++ after) m j := by
  rw [picks_iff, picks_iff, pick?_again h]

theorem find?_eraseDups (p : MediaType → Bool) (ms : List MediaType) :
    ms.eraseDups.find? p = ms.find? p := by
  -- From the end, where a media type that was there before is dropped.
  induction ms using List.reverseRecOn with
  | nil => rfl
  | append_singleton ms m ih =>
    rw [Registry.eraseDups_concat]
    by_cases hm : m ∈ ms.eraseDups
    · rw [if_pos hm, ih, find?_again (List.mem_eraseDups.mp hm), List.append_nil]
    · rw [if_neg hm, List.find?_append, ih, List.find?_append]

theorem pick?_eraseDups (ms : List MediaType) (m : MediaType) :
    pick? ms.eraseDups m = pick? ms m := by
  rw [pick?, pick?, find?_eraseDups, find?_eraseDups, find?_eraseDups]

end Picking

end MediaType

namespace ReaderList

variable {α : Type} {l : ReaderList α} {m : MediaType}

theorem pick?_mediaTypes : MediaType.pick? l.mediaTypes m = (l.hit? m).map (·.1) := by
  rw [MediaType.pick?, hit?, mediaTypes, List.find?_map, List.find?_map, List.find?_map,
    Option.map_or, Option.map_or, apply_ite (Option.map _)]
  rfl

theorem lookup?_eq_none : l.lookup? m = none ↔ MediaType.pick? l.mediaTypes m = none := by
  rw [lookup?_eq, pick?_mediaTypes, Option.map_eq_none_iff, Option.map_eq_none_iff]

/-- What is found is the reader under the media type that is picked. -/
theorem lookup?_eq_some {a : α} :
    l.lookup? m = some a ↔ ∃ k, MediaType.pick? l.mediaTypes m = some k ∧ l.held? k = some a := by
  rw [lookup?_eq, pick?_mediaTypes]
  cases hhit : l.hit? m with
  | none => simp
  | some e =>
    have hheld : l.held? e.1 = some e.2 := held?_eq_some.mpr (mem_of_hit? hhit)
    simp [hheld]

end ReaderList

namespace Readers

variable {α : Type}

/-- A call that registers a reader under a media type, or sets a default. -/
inductive Call (α : Type) where
  | add (t : DataType) (m : MediaType) (a : α)
  | addDefault (t : DataType) (m : MediaType) (a : α)
  | setDefault (t : DataType) (m : MediaType)

namespace Call

/-- The reader that a call gives a type, with the media type it is put under. -/
def reader? (t : DataType) : Call α → Option (MediaType × α)
  | .add u m a => if u = t then some (m, a) else none
  | .addDefault u m a => if u = t then some (m, a) else none
  | .setDefault .. => none

/-- The default media type that a call gives a type. -/
def default? (t : DataType) : Call α → Option MediaType
  | .add .. => none
  | .addDefault u m _ => if u = t then some m else none
  | .setDefault u m => if u = t then some m else none

end Call

/-! ## One call -/

/-- The readers after a call. -/
def call (r : Readers α) : Call α → Readers α
  | .add t m a => r.add t m a
  | .addDefault t m a => r.addDefault t m a
  | .setDefault t m => r.setDefault t m

theorem default?_call (r : Readers α) (c : Call α) (t : DataType) :
    (r.call c).default? t = (c.default? t).or (r.default? t) := by
  cases c with
  | add u m a => rfl
  | addDefault u m a => exact Registry.get?_insert_or r.defaults u t m
  | setDefault u m => exact Registry.get?_insert_or r.defaults u t m

theorem listOf_call (r : Readers α) (c : Call α) (t : DataType) :
    (r.call c).listOf t = Registry.put (r.listOf t) (c.reader? t) := by
  cases c with
  | add u m a => exact Registry.listOf_add_eq_put r u t m a
  | addDefault u m a => exact Registry.listOf_add_eq_put (r.setDefault u m) u t m a
  | setDefault u m => rfl

/-! ## Many calls -/

/-- The readers that calls give a type, with the media types they are put under, in
order. -/
def registered (calls : List (Call α)) (t : DataType) : List (MediaType × α) :=
  calls.filterMap (·.reader? t)

/-- The media types that calls put readers of a type under, in order. -/
def mediaTypes (calls : List (Call α)) (t : DataType) : List MediaType :=
  (registered calls t).map (·.1)

/-- The reader that calls put under a media type: the last of them. -/
def lastReader? (calls : List (Call α)) (t : DataType) (m : MediaType) : Option α :=
  (registered calls t).reverse.lookup m

/-- The default media type that calls give a type: the last of them. -/
def lastDefault? (calls : List (Call α)) (t : DataType) : Option MediaType :=
  (calls.filterMap (·.default? t)).getLast?

/-- Readers that hold what was called, of what was called twice the last. -/
structure Holds (r : Readers α) (calls : List (Call α)) : Prop where
  defaults : ∀ t, r.default? t = lastDefault? calls t
  records : ∀ t, Registry.Records (r.listOf t) (registered calls t)

theorem holds_empty : Holds (empty : Readers α) [] where
  defaults _ := rfl
  records _ := Registry.records_empty

theorem registered_append (calls more : List (Call α)) (t : DataType) :
    registered (calls ++ more) t = registered calls t ++ registered more t :=
  List.filterMap_append

theorem registered_concat (calls : List (Call α)) (c : Call α) (t : DataType) :
    registered (calls ++ [c]) t = registered calls t ++ (c.reader? t).toList :=
  Registry.filterMap_concat _ calls c

/-- **Readers go on holding what was called.** -/
theorem Holds.call {r : Readers α} {calls : List (Call α)} (h : Holds r calls) (c : Call α) :
    Holds (r.call c) (calls ++ [c]) where
  defaults t := by
    rw [default?_call, h.defaults, lastDefault?, lastDefault?,
      Registry.getLast?_filterMap_concat]
  records t := by
    rw [listOf_call, registered_concat]
    exact (h.records t).put _

/-- The readers after calls, the first of which finds none. -/
def ofCalls (calls : List (Call α)) : Readers α :=
  calls.foldl call empty

theorem Holds.foldl {r : Readers α} (more : List (Call α)) :
    ∀ {calls : List (Call α)}, Holds r calls →
      Holds (more.foldl Readers.call r) (calls ++ more) := by
  induction more generalizing r with
  | nil =>
    intro calls h
    rw [List.append_nil]
    exact h
  | cons c rest ih =>
    intro calls h
    rw [List.foldl_cons, List.append_cons]
    exact ih (h.call c)

theorem holds_ofCalls (calls : List (Call α)) : Holds (ofCalls calls) calls :=
  holds_empty.foldl calls

/-! ## What is found -/

open MediaType (Picks)

/-- Readers that are found in the order of the calls that registered them. -/
structure Resolves (r : Readers α) (calls : List (Call α)) : Prop where
  /-- No more than one media type is picked. -/
  one : ∀ t m j k, Picks (mediaTypes calls t) m j → Picks (mediaTypes calls t) m k → j = k
  /-- What is found was registered last under the media type that is picked. -/
  found : ∀ t m a, r.find t (some m) = .ok a ↔
    ∃ k, Picks (mediaTypes calls t) m k ∧ lastReader? calls t k = some a
  /-- If none is picked, the error names the type and the media type. -/
  missing : ∀ t m e, r.find t (some m) = .error e ↔
    (∀ k, ¬ Picks (mediaTypes calls t) m k) ∧ e = .deserializerNotFound t m
  /-- Without a media type, the default that was set last is taken. -/
  default : ∀ t, r.find t none = match lastDefault? calls t with
    | none => .error (.defaultNotFound t)
    | some m => r.find t (some m)

/-- What comes of registering a reader of a type once more under the same media type, after
some calls: it is found wherever the one before would have been, and nowhere else. -/
structure Replaces (calls : List (Call α)) (c : Call α) (t : DataType) (k : MediaType) (b : α) :
    Prop where
  /-- Nothing else is picked, now or after further calls. -/
  picks : ∀ later m j, Picks (mediaTypes (calls ++ c :: later) t) m j ↔
    Picks (mediaTypes (calls ++ later) t) m j
  replaced : ∀ m, Picks (mediaTypes calls t) m k →
    (ofCalls (calls ++ [c])).find t (some m) = .ok b
  others : ∀ m, ¬ Picks (mediaTypes calls t) m k →
    (ofCalls (calls ++ [c])).find t (some m) = (ofCalls calls).find t (some m)

section Found

variable {r : Readers α} {calls : List (Call α)} {t : DataType} {k m : MediaType} {a b : α}

theorem pick?_mediaTypes_listOf (h : Holds r calls) :
    MediaType.pick? (r.listOf t).mediaTypes m = MediaType.pick? (mediaTypes calls t) m := by
  rw [(h.records t).mediaTypes]
  exact MediaType.pick?_eraseDups _ m

theorem Holds.find_eq_ok (h : Holds r calls) : r.find t (some m) = .ok a ↔
    ∃ k, Picks (mediaTypes calls t) m k ∧ lastReader? calls t k = some a := by
  rw [Readers.find_eq_ok, ReaderList.lookup?_eq_some, pick?_mediaTypes_listOf h]
  simp only [MediaType.picks_iff, (h.records t).held]
  rfl

theorem Holds.find_eq_error (h : Holds r calls) {e : SerializationError} :
    r.find t (some m) = .error e ↔
      (∀ k, ¬ Picks (mediaTypes calls t) m k) ∧ e = .deserializerNotFound t m := by
  rw [Readers.find_eq_error, ReaderList.lookup?_eq_none, pick?_mediaTypes_listOf h,
    Option.eq_none_iff_forall_ne_some]
  simp only [MediaType.picks_iff, ne_eq]

theorem Holds.resolves (h : Holds r calls) : Resolves r calls where
  one _ _ _ _ hj hk := hj.unique hk
  found _ _ _ := h.find_eq_ok
  missing _ _ _ := h.find_eq_error
  default t := by
    have hnone := find_none r t
    rw [h.defaults] at hnone
    exact hnone

theorem mediaTypes_append_cons {c : Call α} (hc : c.reader? t = some (k, b))
    (later : List (Call α)) :
    mediaTypes (calls ++ c :: later) t = mediaTypes calls t ++ k :: mediaTypes later t := by
  rw [mediaTypes, List.append_cons, registered_append, registered_concat, hc, List.map_append,
    List.map_append, List.append_assoc]
  rfl

theorem mediaTypes_append (later : List (Call α)) :
    mediaTypes (calls ++ later) t = mediaTypes calls t ++ mediaTypes later t := by
  rw [mediaTypes, registered_append, List.map_append]
  rfl

theorem lastReader?_concat {c : Call α} (hc : c.reader? t = some (k, b)) (j : MediaType) :
    lastReader? (calls ++ [c]) t j = if j = k then some b else lastReader? calls t j := by
  rw [lastReader?, registered_concat, hc]
  exact Registry.lookup_reverse_concat (registered calls t) k b j

theorem replaces {c : Call α} (hc : c.reader? t = some (k, b)) (hk : k ∈ mediaTypes calls t) :
    Replaces calls c t k b := by
  have hpicks (later : List (Call α)) (m j : MediaType) :
      Picks (mediaTypes (calls ++ c :: later) t) m j ↔
        Picks (mediaTypes (calls ++ later) t) m j := by
    rw [mediaTypes_append_cons hc, mediaTypes_append, MediaType.picks_again hk]
  have hnow (m j : MediaType) :
      Picks (mediaTypes (calls ++ [c]) t) m j ↔ Picks (mediaTypes calls t) m j := by
    rw [hpicks, List.append_nil]
  have hfound := fun m a => (holds_ofCalls (calls ++ [c])).find_eq_ok (t := t) (m := m) (a := a)
  refine ⟨hpicks, fun m hm => ?_, fun m hm => ?_⟩
  · refine (hfound m b).mpr ⟨k, (hnow m k).mpr hm, ?_⟩
    rw [lastReader?_concat hc, if_pos rfl]
  · -- Another media type is picked, and the reader under it is the one that was there.
    refine find_congr fun a => ?_
    rw [hfound, (holds_ofCalls calls).find_eq_ok]
    refine exists_congr fun j => ?_
    rw [hnow]
    refine and_congr_right fun hj => ?_
    have hne : j ≠ k := fun hjk => hm (hjk ▸ hj)
    rw [lastReader?_concat hc, if_neg hne]

end Found

/-- **Readers are looked up in the order in which their media types first came**, by the
media type itself, then by base and encoding, then by the base alone; a reader that is
registered once more replaces the one before in its place. -/
theorem resolves_ofCalls (calls : List (Call α)) :
    Resolves (ofCalls calls) calls ∧
      ∀ (c : Call α) t k b, c.reader? t = some (k, b) → k ∈ mediaTypes calls t →
        Replaces calls c t k b :=
  ⟨(holds_ofCalls calls).resolves, fun _ _ _ _ hc hk => replaces hc hk⟩

/-- Notes in JSON, in one of two charsets. -/
def noteCalls : List (Call Nat) :=
  [.add Bookshop.note (.json .utf8) 1, .add Bookshop.note (.json .latin1) 2]

/-- JSON without a charset. -/
def anyJson : MediaType :=
  .bare MediaType.applicationToken MediaType.jsonToken

/-- JSON without a charset is read with the first reader, and then with what replaces it. -/
theorem resolves_ofCalls_noteCalls :
    (ofCalls noteCalls).find Bookshop.note (some anyJson) = .ok 1 ∧
      (ofCalls (noteCalls ++ [.addDefault Bookshop.note (.json .utf8) 3])).find Bookshop.note
        (some anyJson) = .ok 3 := by
  obtain ⟨hresolves, hreplaces⟩ := resolves_ofCalls noteCalls
  have hpicks : Picks (mediaTypes noteCalls Bookshop.note) anyJson (.json .utf8) :=
    MediaType.picks_iff.mpr (by decide +kernel)
  have hreplaced := hreplaces (.addDefault Bookshop.note (.json .utf8) 3) Bookshop.note
    (.json .utf8) 3 rfl (by decide +kernel)
  exact ⟨(hresolves.found _ _ _).mpr ⟨_, hpicks, by decide +kernel⟩, hreplaced.replaced _ hpicks⟩

end Readers

end EventWire
