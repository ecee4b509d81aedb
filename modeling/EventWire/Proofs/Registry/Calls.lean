import EventWire.Proofs.Registry.Readers
import Mathlib.Data.List.Forall2
import Mathlib.Data.List.Nodup

/-!
# Registries and the calls that put them together

What a call does is said once, for each of the tables of a registry: it gives a type a
writer, a reader under a media type, or a default, and leaves all else alone
(`writers_call`, `listOf_call`, `default?_call`). So a registry always holds what was
called since it was empty, and of what was called twice the last (`Holds`).

A run is made of calls and builds. Each build hands out a snapshot, and the snapshots
answer for the calls since the build before them, whatever comes later
(`snapshots_reflect`).
-/

namespace EventWire.Registry

variable {α : Type}

/-- A call that registers something. -/
inductive Call (α : Type) where
  | add (t : DataType) (a : α)
  | addDefault (t : DataType) (a : α)
  | addReader (t : DataType) (m : MediaType) (a : α)
  | setDefault (t : DataType) (m : MediaType)

/-- A step of a run: a call, or handing out what is there. -/
inductive Step (α : Type) where
  | call (c : Call α)
  | build

/-- What was put under a type comes before what was there. -/
theorem get?_insert_or {β : Type} (table : Table β) (u t : DataType) (b : β) :
    (table.insert u b).get? t = (if u = t then some b else none).or (table.get? t) := by
  rw [Table.get?_insert]
  by_cases hu : u = t
  · rw [if_pos hu, if_pos hu.symm, Option.some_or]
  · rw [if_neg hu, if_neg fun e => hu e.symm, Option.none_or]

theorem filterMap_concat {β γ : Type} (f : β → Option γ) (l : List β) (b : β) :
    (l ++ [b]).filterMap f = l.filterMap f ++ (f b).toList := by
  rw [List.filterMap_append]
  cases hb : f b with
  | none => rw [List.filterMap_cons_none hb]; rfl
  | some c => rw [List.filterMap_cons_some hb]; rfl

theorem getLast?_filterMap_concat {β γ : Type} (f : β → Option γ) (l : List β) (b : β) :
    ((l ++ [b]).filterMap f).getLast? = (f b).or (l.filterMap f).getLast? := by
  rw [filterMap_concat, List.getLast?_append]
  cases f b with
  | none => rfl
  | some c => rfl

/-! ## A list of readers -/

/-- The list of readers after one more. -/
def put (l : ReaderList α) : Option (MediaType × α) → ReaderList α
  | some (m, a) => l.insert m a
  | none => l

theorem eraseDups_concat (ms : List MediaType) (m : MediaType) :
    (ms ++ [m]).eraseDups = if m ∈ ms.eraseDups then ms.eraseDups else ms.eraseDups ++ [m] := by
  rw [List.eraseDups_append]
  by_cases hm : m ∈ ms.eraseDups
  · have hold : [m].removeAll ms = [] := by simpa [List.removeAll] using hm
    rw [if_pos hm, hold, List.eraseDups_nil, List.append_nil]
  · have hnew : [m].removeAll ms = [m] := by simpa [List.removeAll] using hm
    rw [if_neg hm, hnew]
    rfl

/-- A list of readers that keeps what was put into it: the media types in the order in
which they first came, under each of them the reader that came last. -/
structure Records (l : ReaderList α) (entries : List (MediaType × α)) : Prop where
  mediaTypes : l.mediaTypes = (entries.map (·.1)).eraseDups
  held : ∀ m, l.held? m = entries.reverse.lookup m

theorem records_empty : Records (ReaderList.empty : ReaderList α) [] where
  mediaTypes := rfl
  held _ := rfl

/-- Of what is put under one media type, the last counts. -/
theorem lookup_reverse_concat (entries : List (MediaType × α)) (k : MediaType) (a : α)
    (m : MediaType) : (entries ++ [(k, a)]).reverse.lookup m
      = if m = k then some a else entries.reverse.lookup m := by
  rw [List.reverse_append]
  show ((k, a) :: entries.reverse).lookup m = _
  rw [List.lookup_cons]
  by_cases hm : m = k
  · rw [if_pos hm, beq_iff_eq.mpr hm]
  · rw [if_neg hm, beq_eq_false_iff_ne.mpr hm]

/-- **A list of readers goes on keeping what is put into it.** -/
theorem Records.put {l : ReaderList α} {entries : List (MediaType × α)} (h : Records l entries)
    (e : Option (MediaType × α)) : Records (put l e) (entries ++ e.toList) := by
  cases e with
  | none =>
    rw [Option.toList_none, List.append_nil]
    exact h
  | some e =>
    obtain ⟨k, a⟩ := e
    refine ⟨?_, fun m => ?_⟩
    · rw [Registry.put, ReaderList.mediaTypes_insert, h.mediaTypes, ← eraseDups_concat,
        List.map_append]
      rfl
    · rw [Registry.put, ReaderList.held?_insert, h.held]
      exact (lookup_reverse_concat entries k a m).symm

theorem listOf_add_eq_put (r : Readers α) (u t : DataType) (m : MediaType) (a : α) :
    (r.add u m a).listOf t = put (r.listOf t) (if u = t then some (m, a) else none) := by
  rw [Readers.listOf_add]
  by_cases hu : u = t
  · rw [if_pos hu, if_pos hu.symm]
    rfl
  · rw [if_neg hu, if_neg fun e => hu e.symm]
    rfl

section Calls

variable [HasMediaType α]

namespace Call

/-- The writer that a call gives a type. -/
def writer? (t : DataType) : Call α → Option α
  | .add u a => if u = t then some a else none
  | .addDefault u a => if u = t then some a else none
  | .addReader .. => none
  | .setDefault .. => none

/-- The reader that a call gives a type, with the media type it is put under. -/
def reader? (t : DataType) : Call α → Option (MediaType × α)
  | .add u a => if u = t then some (HasMediaType.mediaType a, a) else none
  | .addDefault u a => if u = t then some (HasMediaType.mediaType a, a) else none
  | .addReader u m a => if u = t then some (m, a) else none
  | .setDefault .. => none

/-- The default media type that a call gives a type. -/
def default? (t : DataType) : Call α → Option MediaType
  | .add .. => none
  | .addDefault u a => if u = t then some (HasMediaType.mediaType a) else none
  | .addReader .. => none
  | .setDefault u m => if u = t then some m else none

/-- What becomes the writer is put under its own media type for reading, too. -/
theorem reader?_of_writer? {c : Call α} {t : DataType} {a : α} (h : c.writer? t = some a) :
    c.reader? t = some (HasMediaType.mediaType a, a) := by
  cases c with
  | add u b =>
    rw [writer?] at h
    rw [reader?]
    split at h
    · next hu => cases h; exact if_pos hu
    · cases h
  | addDefault u b =>
    rw [writer?] at h
    rw [reader?]
    split at h
    · next hu => cases h; exact if_pos hu
    · cases h
  | addReader u m b => cases h
  | setDefault u m => cases h

/-- A default that is not set by itself comes with a reader. -/
theorem reader?_of_default? {c : Call α} {t : DataType} {m : MediaType}
    (h : c.default? t = some m) (hset : ∀ u k, c ≠ .setDefault u k) :
    ∃ a, c.reader? t = some (m, a) := by
  cases c with
  | add u b => cases h
  | addDefault u b =>
    rw [default?] at h
    split at h
    · next hu => cases h; exact ⟨b, if_pos hu⟩
    · cases h
  | addReader u k b => cases h
  | setDefault u k => exact absurd rfl (hset u k)

end Call

/-! ## One call -/

/-- The registry after a call. -/
def call (r : Registry α) : Call α → Registry α
  | .add t a => r.add t a
  | .addDefault t a => r.addDefault t a
  | .addReader t m a => r.addReader t m a
  | .setDefault t m => r.setDefault t m

theorem writers_call (r : Registry α) (c : Call α) (t : DataType) :
    (r.call c).writers.get? t = (c.writer? t).or (r.writers.get? t) := by
  cases c with
  | add u a => exact get?_insert_or r.writers u t a
  | addDefault u a => exact get?_insert_or r.writers u t a
  | addReader u m a => rfl
  | setDefault u m => rfl

theorem default?_call (r : Registry α) (c : Call α) (t : DataType) :
    (r.call c).readers.default? t = (c.default? t).or (r.readers.default? t) := by
  cases c with
  | add u a => rfl
  | addDefault u a => exact get?_insert_or r.readers.defaults u t (HasMediaType.mediaType a)
  | addReader u m a => rfl
  | setDefault u m => exact get?_insert_or r.readers.defaults u t m

theorem listOf_call (r : Registry α) (c : Call α) (t : DataType) :
    (r.call c).readers.listOf t = put (r.readers.listOf t) (c.reader? t) := by
  cases c with
  | add u a => exact listOf_add_eq_put r.readers u t _ a
  | addDefault u a => exact listOf_add_eq_put (r.readers.setDefault u _) u t _ a
  | addReader u m a => exact listOf_add_eq_put r.readers u t m a
  | setDefault u m => rfl

/-! ## Many calls -/

/-- The writer that calls give a type: the last of them. -/
def lastWriter? (calls : List (Call α)) (t : DataType) : Option α :=
  (calls.filterMap (·.writer? t)).getLast?

/-- The default media type that calls give a type: the last of them. -/
def lastDefault? (calls : List (Call α)) (t : DataType) : Option MediaType :=
  (calls.filterMap (·.default? t)).getLast?

/-- The readers that calls give a type, with the media types they are put under, in
order. -/
def registered (calls : List (Call α)) (t : DataType) : List (MediaType × α) :=
  calls.filterMap (·.reader? t)

/-- The reader that calls put under a media type: the last of them. -/
def lastReader? (calls : List (Call α)) (t : DataType) (m : MediaType) : Option α :=
  (registered calls t).reverse.lookup m

/-- A registry that holds what was called, of what was called twice the last. -/
structure Holds (r : Registry α) (calls : List (Call α)) : Prop where
  writers : ∀ t, r.writers.get? t = lastWriter? calls t
  defaults : ∀ t, r.readers.default? t = lastDefault? calls t
  mediaTypes : ∀ t, (r.readers.listOf t).mediaTypes
    = ((registered calls t).map (·.1)).eraseDups
  readers : ∀ t m, (r.readers.listOf t).held? m = lastReader? calls t m

theorem holds_empty : Holds (empty : Registry α) [] where
  writers _ := rfl
  defaults _ := rfl
  mediaTypes _ := rfl
  readers _ _ := rfl

theorem registered_concat (calls : List (Call α)) (c : Call α) (t : DataType) :
    registered (calls ++ [c]) t = registered calls t ++ (c.reader? t).toList :=
  filterMap_concat _ calls c

theorem Holds.records {r : Registry α} {calls : List (Call α)} (h : Holds r calls)
    (t : DataType) : Records (r.readers.listOf t) (registered calls t) :=
  ⟨h.mediaTypes t, h.readers t⟩

/-- **A registry goes on holding what was called.** -/
theorem Holds.call {r : Registry α} {calls : List (Call α)} (h : Holds r calls) (c : Call α) :
    Holds (r.call c) (calls ++ [c]) where
  writers t := by
    rw [writers_call, h.writers, lastWriter?, lastWriter?, getLast?_filterMap_concat]
  defaults t := by
    rw [default?_call, h.defaults, lastDefault?, lastDefault?, getLast?_filterMap_concat]
  mediaTypes t := by
    rw [listOf_call, registered_concat]
    exact ((h.records t).put _).mediaTypes
  readers t m := by
    rw [listOf_call, lastReader?, registered_concat]
    exact ((h.records t).put _).held m

/-- The registry after calls, the first of which finds it empty. -/
def ofCalls (calls : List (Call α)) : Registry α :=
  calls.foldl call empty

theorem Holds.foldl {r : Registry α} (more : List (Call α)) :
    ∀ {calls : List (Call α)}, Holds r calls →
      Holds (more.foldl Registry.call r) (calls ++ more) := by
  induction more generalizing r with
  | nil =>
    intro calls h
    rw [List.append_nil]
    exact h
  | cons c rest ih =>
    intro calls h
    rw [List.foldl_cons, List.append_cons]
    exact ih (h.call c)

theorem holds_ofCalls (calls : List (Call α)) : Holds (ofCalls calls) calls :=
  holds_empty.foldl calls

/-! ## What a registry answers -/

/-- A registry that answers for calls: with the last writer of each type, the last
reader under each media type, the media types in the order in which they were first
called, and the last defaults. What it writes it can read, and what it takes for a
default it can read unless a default was set by itself. -/
structure Reflects (r : Registry α) (calls : List (Call α)) : Prop where
  writer : ∀ t, r.writers.find t
    = match lastWriter? calls t with
      | some a => .ok a
      | none => .error (.serializerNotFound t)
  reader : ∀ t m, m ∈ (registered calls t).map (·.1) →
    ∃ a, lastReader? calls t m = some a ∧ r.readers.find t (some m) = .ok a
  has : ∀ t m, r.readers.has t m = true ↔ m ∈ (registered calls t).map (·.1)
  readsWritten : ∀ t a, r.writers.find t = .ok a →
    r.readers.has t (HasMediaType.mediaType a) = true ∧
      ∃ b, r.readers.find t (some (HasMediaType.mediaType a)) = .ok b
  mediaTypes : ∀ t, (r.readers.listOf t).mediaTypes
    = ((registered calls t).map (·.1)).eraseDups
  distinct : ∀ t, (r.readers.listOf t).mediaTypes.Nodup
  default : ∀ t, r.readers.default? t = lastDefault? calls t
  readsDefaults : (∀ u k, .setDefault u k ∉ calls) →
    ∀ t m, r.readers.default? t = some m → r.readers.has t m = true

section Answers

variable {r : Registry α} {calls : List (Call α)}

theorem Holds.has_iff (h : Holds r calls) {t : DataType} {m : MediaType} :
    r.readers.has t m = true ↔ m ∈ (registered calls t).map (·.1) := by
  rw [Readers.has_iff, h.mediaTypes, List.mem_eraseDups]

theorem mem_registered {t : DataType} {c : Call α} {e : MediaType × α} (hc : c ∈ calls)
    (h : c.reader? t = some e) : e ∈ registered calls t :=
  List.mem_filterMap.mpr ⟨c, hc, h⟩

theorem isSome_lastReader? {t : DataType} {m : MediaType}
    (h : m ∈ (registered calls t).map (·.1)) : (lastReader? calls t m).isSome = true := by
  obtain ⟨e, he, rfl⟩ := List.mem_map.mp h
  exact List.lookup_isSome_iff.mpr ⟨e, List.mem_reverse.mpr he, beq_self_eq_true _⟩

theorem mem_registered_of_lastReader? {t : DataType} {m : MediaType} {a : α}
    (h : lastReader? calls t m = some a) : (m, a) ∈ registered calls t := by
  obtain ⟨before, after, hsplit, -⟩ := List.lookup_eq_some_iff.mp h
  rw [← List.mem_reverse, hsplit]
  exact List.mem_append_right _ (List.mem_cons_self ..)

/-- Of readers under media types that differ, each is the last under its own. -/
theorem lastReader?_of_mem {t : DataType} {m : MediaType} {a : α}
    (hnodup : ((registered calls t).map (·.1)).Nodup) (h : (m, a) ∈ registered calls t) :
    lastReader? calls t m = some a := by
  refine ReaderList.lookup_of_mem ?_ (List.mem_reverse.mpr h)
  rw [List.map_reverse, List.nodup_reverse]
  exact hnodup

theorem Holds.find_reader (h : Holds r calls) {t : DataType} {m : MediaType}
    (hm : m ∈ (registered calls t).map (·.1)) :
    ∃ a, lastReader? calls t m = some a ∧ r.readers.find t (some m) = .ok a := by
  obtain ⟨a, ha⟩ := Option.isSome_iff_exists.mp (isSome_lastReader? hm)
  exact ⟨a, ha, Readers.find_of_held? ((h.readers t m).trans ha)⟩

/-- A writer was called for, with its own media type. -/
theorem mem_registered_of_lastWriter? {t : DataType} {a : α} (h : lastWriter? calls t = some a) :
    (HasMediaType.mediaType a, a) ∈ registered calls t := by
  obtain ⟨c, hc, hwriter⟩ := List.mem_filterMap.mp (List.mem_of_getLast? h)
  exact mem_registered hc (Call.reader?_of_writer? hwriter)

theorem mem_registered_of_lastDefault? (hset : ∀ u k, .setDefault u k ∉ calls) {t : DataType}
    {m : MediaType} (h : lastDefault? calls t = some m) :
    m ∈ (registered calls t).map (·.1) := by
  obtain ⟨c, hc, hdefault⟩ := List.mem_filterMap.mp (List.mem_of_getLast? h)
  obtain ⟨a, ha⟩ := Call.reader?_of_default? hdefault fun u k e => hset u k (e ▸ hc)
  exact List.mem_map.mpr ⟨(m, a), mem_registered hc ha, rfl⟩

theorem Holds.find_writer (h : Holds r calls) (t : DataType) :
    r.writers.find t
      = match lastWriter? calls t with
        | some a => .ok a
        | none => .error (.serializerNotFound t) := by
  cases hlast : lastWriter? calls t with
  | none => rw [Writers.find, h.writers, hlast]
  | some a => rw [Writers.find, h.writers, hlast]

/-- **A registry that holds what was called answers for it.** -/
theorem Holds.reflects (h : Holds r calls) : Reflects r calls where
  writer := h.find_writer
  reader _ _ hm := h.find_reader hm
  has _ _ := h.has_iff
  readsWritten t a ha := by
    have hlast : lastWriter? calls t = some a := by
      rw [h.find_writer] at ha
      split at ha
      · next hlast => cases ha; exact hlast
      · cases ha
    have hmem := List.mem_map_of_mem (f := (·.1)) (mem_registered_of_lastWriter? hlast)
    obtain ⟨b, -, hb⟩ := h.find_reader hmem
    exact ⟨h.has_iff.mpr hmem, b, hb⟩
  mediaTypes := h.mediaTypes
  distinct t := (r.readers.listOf t).distinct
  default := h.defaults
  readsDefaults hset t m hm :=
    h.has_iff.mpr (mem_registered_of_lastDefault? hset ((h.defaults t).symm.trans hm))

end Answers

/-! ## Runs -/

/-- The snapshots that a run hands out, when a registry has been put together so far. -/
def snapshotsFrom (r : Registry α) : List (Step α) → List (Registry α)
  | [] => []
  | .call c :: rest => snapshotsFrom (r.call c) rest
  | .build :: rest => r.build.1 :: snapshotsFrom r.build.2 rest

/-- The snapshots that a run hands out. -/
def snapshots (steps : List (Step α)) : List (Registry α) :=
  snapshotsFrom empty steps

/-- The calls up to each build, since the one before it; `calls` have been made so
far. -/
def sessionsFrom (calls : List (Call α)) : List (Step α) → List (List (Call α))
  | [] => []
  | .call c :: rest => sessionsFrom (calls ++ [c]) rest
  | .build :: rest => calls :: sessionsFrom [] rest

/-- The calls up to each build, since the one before it. -/
def sessions (steps : List (Step α)) : List (List (Call α)) :=
  sessionsFrom [] steps

/-- Nothing is left over from one session to the next. -/
theorem forall₂_snapshotsFrom (steps : List (Step α)) :
    ∀ {r : Registry α} {calls : List (Call α)}, Holds r calls →
      List.Forall₂ Reflects (snapshotsFrom r steps) (sessionsFrom calls steps) := by
  induction steps with
  | nil =>
    intro r calls _
    exact .nil
  | cons step rest ih =>
    intro r calls h
    cases step with
    | call c => exact ih (h.call c)
    | build => exact .cons h.reflects (ih holds_empty)

theorem snapshotsFrom_append (steps later : List (Step α)) (r : Registry α) :
    snapshotsFrom r steps <+: snapshotsFrom r (steps ++ later) := by
  induction steps generalizing r with
  | nil => exact List.nil_prefix
  | cons step rest ih =>
    cases step with
    | call c => exact ih (r.call c)
    | build => exact List.prefix_cons_inj _ |>.mpr (ih empty)

/-- **Every snapshot answers for the calls since the build before it**, and what was
handed out stays what it is, whatever comes later. -/
theorem snapshots_reflect (steps later : List (Step α)) :
    List.Forall₂ Reflects (snapshots steps) (sessions steps) ∧
      snapshots steps <+: snapshots (steps ++ later) :=
  ⟨forall₂_snapshotsFrom steps holds_empty, snapshotsFrom_append steps later empty⟩

end Calls

end EventWire.Registry
