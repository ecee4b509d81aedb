import EventWire.Json.Token

/-!
# Properties of whole JSON trees

`Json.every` asks something of all numbers and of the keys of all objects in a tree.
Two such properties are promised to a reader: no object has a key twice
(`Json.distinctKeys`), and the text of each double is read as that double
(`Json.doublesReadBack`). Integers need no such promise.

`Json.treeInduction` is the induction on trees: what is to be shown of an array or an
object may be assumed for the values in it.
-/

namespace EventWire

/-- True unless the number is a double whose text is not read as that double. -/
def Number.readsBack : Number → Bool
  | .integer _ _ _ => true
  | .float x => Json.Token.next? (Json.numberText (.float x)) = some (.number (.float x), [])

namespace Json

mutual

/-- True when all numbers and the keys of all objects pass. -/
def every (number : Number → Bool) (keys : List String → Bool) : Json → Bool
  | .number n => number n
  | .array items => everyItem number keys items
  | .object members => keys (members.map (·.1)) && everyMember number keys members
  | _ => true

/-- True when all items pass. -/
def everyItem (number : Number → Bool) (keys : List String → Bool) : List Json → Bool
  | [] => true
  | v :: rest => every number keys v && everyItem number keys rest

/-- True when all members pass. -/
def everyMember (number : Number → Bool) (keys : List String → Bool) : List (String × Json) → Bool
  | [] => true
  | (_, v) :: rest => every number keys v && everyMember number keys rest

end

/-- No object has a key twice. -/
def distinctKeys : Json → Bool :=
  every (fun _ => true) fun keys => decide keys.Nodup

/-- Every double is read from its text as it is. -/
def doublesReadBack : Json → Bool :=
  every Number.readsBack fun _ => true

section Every

variable {number : Number → Bool} {keys : List String → Bool}

theorem every_array {items : List Json} :
    every number keys (.array items) = true ↔ ∀ v ∈ items, every number keys v = true := by
  rw [every]
  induction items with
  | nil => simp [everyItem]
  | cons v rest ih => rw [everyItem, Bool.and_eq_true, ih, List.forall_mem_cons]

theorem every_object {members : List (String × Json)} :
    every number keys (.object members) = true ↔
      keys (members.map (·.1)) = true ∧ ∀ m ∈ members, every number keys m.2 = true := by
  have hmembers : everyMember number keys members = true ↔
      ∀ m ∈ members, every number keys m.2 = true := by
    induction members with
    | nil => simp [everyMember]
    | cons m rest ih => rw [everyMember, Bool.and_eq_true, ih, List.forall_mem_cons]
  rw [every, Bool.and_eq_true, hmembers]

end Every

theorem depth_array_le {items : List Json} {levels : Nat} :
    depth (.array items) ≤ levels + 1 ↔ ∀ v ∈ items, depth v ≤ levels := by
  have hitems : depthOfItems items ≤ levels ↔ ∀ v ∈ items, depth v ≤ levels := by
    induction items with
    | nil => simp [depthOfItems]
    | cons v rest ih => rw [depthOfItems, Nat.max_le, ih, List.forall_mem_cons]
  rw [depth, ← hitems]
  omega

theorem depth_object_le {members : List (String × Json)} {levels : Nat} :
    depth (.object members) ≤ levels + 1 ↔ ∀ m ∈ members, depth m.2 ≤ levels := by
  have hmembers : depthOfMembers members ≤ levels ↔ ∀ m ∈ members, depth m.2 ≤ levels := by
    induction members with
    | nil => simp [depthOfMembers]
    | cons m rest ih => rw [depthOfMembers, Nat.max_le, ih, List.forall_mem_cons]
  rw [depth, ← hmembers]
  omega

/-- Induction on a tree: of arrays and objects it may be assumed for what they hold. -/
theorem treeInduction {P : Json → Prop} (null : P .null) (bool : ∀ b, P (.bool b))
    (number : ∀ n, P (.number n)) (string : ∀ s, P (.string s))
    (array : ∀ items, (∀ v ∈ items, P v) → P (.array items))
    (object : ∀ members, (∀ m ∈ members, P m.2) → P (.object members)) : ∀ v, P v :=
  @Json.rec P (fun items => ∀ v ∈ items, P v) (fun members => ∀ m ∈ members, P m.2)
    (fun m => P m.2) null bool number string array object
    (fun _ h => nomatch h) (fun _ _ hv hrest => List.forall_mem_cons.mpr ⟨hv, hrest⟩)
    (fun _ h => nomatch h) (fun _ _ hm hrest => List.forall_mem_cons.mpr ⟨hm, hrest⟩)
    (fun _ _ hv => hv)

end Json

end EventWire
