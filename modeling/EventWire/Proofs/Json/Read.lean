import EventWire.Json.Source
import EventWire.Proofs.Json.Tree
import Mathlib.Data.List.Nodup

/-!
# What a JSON reader gives

A reader puts the members of an object together with `Json.insert`, where a key that
comes again takes the place of the first, and stops below the level where it may go no
deeper. So every tree that is read has no key twice and is not too deep
(`bounded_of_parse?`).
-/

namespace EventWire.Json

/-- The keys stay what they are, and a new key comes last. -/
theorem keys_insert (key : String) (value : Json) (members : List (String × Json)) :
    (insert key value members).map (·.1)
      = if key ∈ members.map (·.1) then members.map (·.1) else members.map (·.1) ++ [key] := by
  induction members with
  | nil => rfl
  | cons m rest ih =>
    obtain ⟨k, v⟩ := m
    rw [insert, List.map_cons]
    by_cases hkey : k = key
    · rw [if_pos hkey, if_pos (List.mem_cons.mpr (Or.inl hkey.symm)), List.map_cons]
    · rw [if_neg hkey, List.map_cons, ih]
      by_cases hrest : key ∈ rest.map (·.1)
      · rw [if_pos hrest, if_pos (List.mem_cons_of_mem _ hrest)]
      · have hnew : key ∉ k :: rest.map (·.1) := fun hmem =>
          (List.mem_cons.mp hmem).elim (fun e => hkey e.symm) hrest
        rw [if_neg hrest, if_neg hnew, List.cons_append]

theorem nodup_insert {members : List (String × Json)} (h : (members.map (·.1)).Nodup)
    (key : String) (value : Json) : ((insert key value members).map (·.1)).Nodup := by
  rw [keys_insert]
  split
  · exact h
  · next hnew =>
    rw [← List.concat_eq_append]
    exact List.Nodup.concat hnew h

/-- What is so of the value and of all members before is so of all members after. -/
theorem forall_insert {P : Json → Prop} {value : Json} (hvalue : P value) (key : String)
    {members : List (String × Json)} (h : ∀ m ∈ members, P m.2) :
    ∀ m ∈ insert key value members, P m.2 := by
  induction members with
  | nil => exact List.forall_mem_singleton.mpr hvalue
  | cons m rest ih =>
    obtain ⟨k, v⟩ := m
    obtain ⟨hv, hrest⟩ := List.forall_mem_cons.mp h
    rw [insert]
    split
    · exact List.forall_mem_cons.mpr ⟨hvalue, hrest⟩
    · exact List.forall_mem_cons.mpr ⟨hv, ih hrest⟩

/-- A tree that nests no deeper than this, with no key twice in an object. -/
structure Bounded (levels : Nat) (v : Json) : Prop where
  depth : v.depth ≤ levels
  keys : v.distinctKeys = true

theorem bounded_array {levels : Nat} {items : List Json} (h : ∀ v ∈ items, Bounded levels v) :
    Bounded (levels + 1) (.array items) where
  depth := depth_array_le.mpr fun v hv => (h v hv).depth
  keys := every_array.mpr fun v hv => (h v hv).keys

theorem bounded_object {levels : Nat} {members : List (String × Json)}
    (hkeys : (members.map (·.1)).Nodup) (h : ∀ m ∈ members, Bounded levels m.2) :
    Bounded (levels + 1) (.object members) where
  depth := depth_object_le.mpr fun m hm => (h m hm).depth
  keys := every_object.mpr ⟨decide_eq_true hkeys, fun m hm => (h m hm).keys⟩

namespace Source

/-- Induction on a structure: of arrays and objects it may be assumed for what they
hold. -/
theorem sourceInduction {P : Source → Prop} (null : P .null) (bool : ∀ b, P (.bool b))
    (number : ∀ n, P (.number n)) (string : ∀ s, P (.string s))
    (loneSurrogate : P .loneSurrogate) (outOfRange : P .outOfRange)
    (array : ∀ items, (∀ s ∈ items, P s) → P (.array items))
    (object : ∀ members, (∀ m ∈ members, P m.2) → P (.object members)) : ∀ s, P s :=
  @Source.rec P (fun items => ∀ s ∈ items, P s) (fun members => ∀ m ∈ members, P m.2)
    (fun m => P m.2) null bool number string loneSurrogate outOfRange array object
    (fun _ h => nomatch h) (fun _ _ hs hrest => List.forall_mem_cons.mpr ⟨hs, hrest⟩)
    (fun _ h => nomatch h) (fun _ _ hm hrest => List.forall_mem_cons.mpr ⟨hm, hrest⟩)
    (fun _ _ hs => hs)

/-- What is read of a structure, at any level, is bounded by that level. -/
def ReadsBounded (s : Source) : Prop :=
  ∀ {levels v}, toJson? levels s = some v → Bounded levels v

theorem bounded_items {levels : Nat} {items : List Source} (h : ∀ s ∈ items, ReadsBounded s) :
    ∀ {vs}, itemsToJson? levels items = some vs → ∀ v ∈ vs, Bounded levels v := by
  induction items with
  | nil =>
    intro vs hvs
    rw [itemsToJson?] at hvs
    cases hvs
    exact fun _ hv => nomatch hv
  | cons s rest ih =>
    intro vs hvs
    obtain ⟨hs, hrest⟩ := List.forall_mem_cons.mp h
    rw [itemsToJson?] at hvs
    split at hvs
    · next v later hv hlater =>
      cases hvs
      exact List.forall_mem_cons.mpr ⟨hs hv, ih hrest hlater⟩
    · cases hvs

/-- Each member goes in with `insert`, which keeps the keys distinct. -/
theorem bounded_members {levels : Nat} {sources : List (Option String × Source)}
    (h : ∀ m ∈ sources, ReadsBounded m.2) :
    ∀ {before members}, (before.map (·.1)).Nodup → (∀ m ∈ before, Bounded levels m.2) →
      membersToJson? levels before sources = some members →
      (members.map (·.1)).Nodup ∧ ∀ m ∈ members, Bounded levels m.2 := by
  induction sources with
  | nil =>
    intro before members hkeys hbefore hmembers
    rw [membersToJson?] at hmembers
    cases hmembers
    exact ⟨hkeys, hbefore⟩
  | cons m rest ih =>
    intro before members hkeys hbefore hmembers
    obtain ⟨hm, hrest⟩ := List.forall_mem_cons.mp h
    obtain ⟨key, s⟩ := m
    cases key with
    -- A key that is half of a surrogate pair is refused.
    | none => rw [membersToJson?] at hmembers; cases hmembers
    | some key =>
      rw [membersToJson?] at hmembers
      split at hmembers
      · next v hv =>
        exact ih hrest (nodup_insert hkeys key v) (forall_insert (hm hv) key hbefore) hmembers
      · cases hmembers

theorem readsBounded (s : Source) : ReadsBounded s := by
  induction s using sourceInduction with
  | null => intro levels v h; rw [toJson?] at h; cases h; exact ⟨Nat.zero_le _, rfl⟩
  | bool b => intro levels v h; rw [toJson?] at h; cases h; exact ⟨Nat.zero_le _, rfl⟩
  | number n => intro levels v h; rw [toJson?] at h; cases h; exact ⟨Nat.zero_le _, rfl⟩
  | string s => intro levels v h; rw [toJson?] at h; cases h; exact ⟨Nat.zero_le _, rfl⟩
  | loneSurrogate => intro levels v h; rw [toJson?] at h; cases h
  | outOfRange => intro levels v h; rw [toJson?] at h; cases h
  | array items ih =>
    intro levels v h
    cases levels with
    | zero => rw [toJson?] at h; cases h
    | succ levels =>
      rw [toJson?] at h
      obtain ⟨vs, hvs, rfl⟩ := Option.map_eq_some_iff.mp h
      exact bounded_array (bounded_items ih hvs)
  | object members ih =>
    intro levels v h
    cases levels with
    | zero => rw [toJson?] at h; cases h
    | succ levels =>
      rw [toJson?] at h
      obtain ⟨vs, hvs, rfl⟩ := Option.map_eq_some_iff.mp h
      obtain ⟨hkeys, hvalues⟩ :=
        @bounded_members _ _ ih [] vs List.nodup_nil (fun _ hm => nomatch hm) hvs
      exact bounded_object hkeys hvalues

end Source

/-- **Whatever is read is not too deep and has no key twice.** -/
theorem bounded_of_parse? {s : String} {v : Json} (h : parse? s = some v) :
    Bounded maxDepth v := by
  obtain ⟨source, -, hv⟩ := Option.bind_eq_some_iff.mp h
  exact source.readsBounded hv

end EventWire.Json
