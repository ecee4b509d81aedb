import EventWire.Class.Json
import EventWire.Proofs.Json.Token
import EventWire.Proofs.Json.Tree

/-!
# Printed JSON is read back

Three steps lead from the text to the tree. The text is cut into the tokens that it
was put together from (`scan_of_legible`), since a number always stands before a mark
or at the end. The machine takes the tokens of a tree to its structure
(`run_tokens`). Reading the values of that structure gives the tree, as long as no
key comes twice and it is not too deep (`toJson?_toSource`).

`parse?_print` is the result: a tree is read back when its doubles are. A tree that is too
deep is not read from its text as any other (`parse?_print_eq_none`).
-/

namespace EventWire.Json

/-! ## Tokens -/

/-- Each token is read at its place in the text. -/
def Legible : List Token → Prop
  | [] => True
  | t :: rest =>
    (t.text ≠ [] ∧
      Token.next? (t.text ++ rest.flatMap Token.text) = some (t, rest.flatMap Token.text)) ∧
      Legible rest

theorem not_isSpace_of_next? {c : Char} {more after : List Char} {t : Token}
    (h : Token.next? (c :: more) = some (t, after)) : isSpace c = false := by
  cases hspace : isSpace c with
  | false => rfl
  | true =>
    simp only [isSpace, Bool.or_eq_true, decide_eq_true_eq] at hspace
    rcases hspace with ((rfl | rfl) | rfl) | rfl
    · cases h
    · cases h
    · cases h
    · cases h

theorem scanWithin_of_legible {ts : List Token} :
    Legible ts → ∀ {fuel}, ts.length ≤ fuel →
      scanWithin fuel (ts.flatMap Token.text) = some ts := by
  induction ts with
  | nil => intro _ fuel _; cases fuel <;> rfl
  | cons t rest ih =>
    intro h fuel hfuel
    obtain ⟨⟨hne, hnext⟩, hrest⟩ := h
    obtain ⟨fuel, rfl⟩ := Nat.exists_eq_add_one.mpr (Nat.lt_of_lt_of_le (Nat.succ_pos _) hfuel)
    obtain ⟨c, more, hcons⟩ := List.exists_cons_of_ne_nil hne
    rw [hcons, List.cons_append] at hnext
    have hspace := not_isSpace_of_next? hnext
    rw [List.flatMap_cons, hcons, List.cons_append, scanWithin, List.dropWhile_cons,
      if_neg (by rw [hspace]; decide)]
    dsimp only
    rw [hnext]
    dsimp only
    rw [ih hrest (Nat.le_of_succ_le_succ hfuel)]
    rfl

theorem length_le_of_legible {ts : List Token} (h : Legible ts) :
    ts.length ≤ (ts.flatMap Token.text).length := by
  induction ts with
  | nil => exact Nat.le_refl _
  | cons t rest ih =>
    have hpos := List.length_pos_iff.mpr h.1.1
    rw [List.flatMap_cons, List.length_append, List.length_cons]
    have hrest := ih h.2
    omega

/-- **The text is cut into the tokens it was put together from.** -/
theorem scan_of_legible {ts : List Token} (h : Legible ts) :
    scan (ts.flatMap Token.text) = some ts :=
  scanWithin_of_legible h (length_le_of_legible h)

/-- Tokens that a number may stand before. -/
def Follows (ts : List Token) : Prop :=
  Ends (ts.flatMap Token.text) ∧ Legible ts

theorem follows_nil : Follows [] :=
  ⟨ends_nil, trivial⟩

/-- A number may stand before any mark. -/
theorem follows_cons {t : Token} (ht : t ∈ [.comma, .closeArray, .closeObject]) {rest : List Token}
    (h : Legible rest) : Follows (t :: rest) := by
  simp only [List.mem_cons, List.not_mem_nil, or_false] at ht
  rcases ht with rfl | rfl | rfl
  · refine ⟨?_, ⟨⟨List.cons_ne_nil _ _, rfl⟩, h⟩⟩
    intro c hc
    cases hc
    decide
  · refine ⟨?_, ⟨⟨List.cons_ne_nil _ _, rfl⟩, h⟩⟩
    intro c hc
    cases hc
    decide
  · refine ⟨?_, ⟨⟨List.cons_ne_nil _ _, rfl⟩, h⟩⟩
    intro c hc
    cases hc
    decide

theorem legible_string (s : String) {rest : List Token} (h : Legible rest) :
    Legible (.string s :: rest) :=
  ⟨⟨List.cons_ne_nil _ _, next?_string s _⟩, h⟩

/-- A number is legible in front of what may follow it. -/
theorem legible_number {n : Number} (hn : n.readsBack = true) {rest : List Token}
    (h : Follows rest) : Legible (.number n :: rest) := by
  have hread : Token.next? (numberText n) = some (.number n, []) := by
    cases n with
    | integer i low high => exact next?_integer low high
    | float x => exact of_decide_eq_true hn
  refine ⟨⟨?_, next?_number_append hread h.1⟩, h.2⟩
  intro hnil
  rw [Token.text] at hnil
  rw [hnil] at hread
  cases hread

/-- The tokens of a value are legible in front of whatever a number may stand before. -/
def Prints (v : Json) : Prop :=
  ∀ rest, Follows rest → Legible (tokens v ++ rest)

section Values

variable {rest : List Token}

theorem follows_laterItemTokens {items : List Json}
    (hitems : ∀ v ∈ items, Prints v) (h : Legible rest) :
    Follows (laterItemTokens items ++ .closeArray :: rest) := by
  induction items with
  | nil =>
    rw [laterItemTokens]
    exact follows_cons (by decide) h
  | cons v later ih =>
    obtain ⟨hv, hlater⟩ := List.forall_mem_cons.mp hitems
    rw [laterItemTokens, List.cons_append, List.cons_append, List.append_assoc]
    exact follows_cons (by decide) (hv _ (ih hlater))

theorem follows_laterMemberTokens {members : List (String × Json)}
    (hmembers : ∀ m ∈ members, Prints m.2) (h : Legible rest) :
    Follows (laterMemberTokens members ++ .closeObject :: rest) := by
  induction members with
  | nil =>
    rw [laterMemberTokens]
    exact follows_cons (by decide) h
  | cons m later ih =>
    obtain ⟨k, v⟩ := m
    obtain ⟨hv, hlater⟩ := List.forall_mem_cons.mp hmembers
    rw [laterMemberTokens, List.cons_append, List.cons_append, List.cons_append, List.cons_append,
      List.append_assoc]
    exact follows_cons (by decide)
      (legible_string k ⟨⟨List.cons_ne_nil _ _, rfl⟩, hv _ (ih hlater)⟩)

/-- **The tokens of a tree are legible when its doubles are read back.** -/
theorem legible_tokens (v : Json) :
    v.doublesReadBack = true → Prints v := by
  induction v using treeInduction with
  | null =>
    intro _ rest h
    rw [tokens]
    exact ⟨⟨List.cons_ne_nil _ _, rfl⟩, h.2⟩
  | bool b =>
    intro _ rest h
    rw [tokens]
    cases b with
    | false => exact ⟨⟨List.cons_ne_nil _ _, rfl⟩, h.2⟩
    | true => exact ⟨⟨List.cons_ne_nil _ _, rfl⟩, h.2⟩
  | number n =>
    intro hn rest h
    rw [doublesReadBack, every] at hn
    rw [tokens]
    exact legible_number hn h
  | string s =>
    intro _ rest h
    rw [tokens]
    exact legible_string s h.2
  | array items ih =>
    intro hitems rest h
    rw [doublesReadBack, every_array] at hitems
    rw [tokens, List.cons_append, List.cons_append, List.append_assoc]
    refine ⟨⟨List.cons_ne_nil _ _, rfl⟩, ?_⟩
    cases items with
    | nil =>
      rw [itemTokens]
      exact (follows_cons (by decide) h.2).2
    | cons v later =>
      -- Behind the first item stands a comma or the end mark, and a number ends at both.
      obtain ⟨hv, hlater⟩ := List.forall_mem_cons.mp fun v hv => ih v hv (hitems v hv)
      rw [itemTokens, List.append_assoc]
      exact hv _ (follows_laterItemTokens hlater h.2)
  | object members ih =>
    intro hmembers rest h
    rw [doublesReadBack, every_object] at hmembers
    rw [tokens, List.cons_append, List.cons_append, List.append_assoc]
    refine ⟨⟨List.cons_ne_nil _ _, rfl⟩, ?_⟩
    cases members with
    | nil =>
      rw [memberTokens]
      exact (follows_cons (by decide) h.2).2
    | cons m later =>
      obtain ⟨k, v⟩ := m
      obtain ⟨hv, hlater⟩ := List.forall_mem_cons.mp fun m hm => ih m hm (hmembers.2 m hm)
      rw [memberTokens, List.cons_append, List.cons_append, List.append_assoc]
      have hlast := follows_laterMemberTokens hlater h.2
      exact legible_string k ⟨⟨List.cons_ne_nil _ _, rfl⟩, hv _ hlast⟩

end Values

/-! ## Structure -/

namespace Source

/-- A value may come first in an array: it does not begin with the end mark. -/
theorem run_itemOrEnd (v : Json) (outer : List Frame) (rest : List Token) :
    (State.itemOrEnd outer).run (tokens v ++ rest)
      = (State.value (.array [] :: outer)).run (tokens v ++ rest) := by
  cases v with
  | null => rw [tokens]; rfl
  | bool b => rw [tokens]; rfl
  | number n => rw [tokens]; rfl
  | string s => rw [tokens]; rfl
  | array items => rw [tokens]; rfl
  | object members => rw [tokens]; rfl

/-- What the tokens of a value do to the machine, whatever is open around it. -/
def Reads (v : Json) : Prop :=
  ∀ outer rest, (State.value outer).run (tokens v ++ rest) = (State.after v.toSource outer).run rest

theorem run_laterItems {items : List Json} (h : ∀ v ∈ items, Reads v) :
    ∀ (v : Source) (done : List Source) (outer : List Frame) (rest : List Token),
      (State.after v (.array done :: outer)).run (laterItemTokens items ++ .closeArray :: rest)
        = (State.after (.array ((v :: done).reverse ++ itemsToSource items)) outer).run rest := by
  induction items with
  | nil =>
    intro v done outer rest
    rw [laterItemTokens, itemsToSource, List.append_nil]
    rfl
  | cons w later ih =>
    intro v done outer rest
    obtain ⟨hw, hlater⟩ := List.forall_mem_cons.mp h
    rw [laterItemTokens, List.cons_append, List.cons_append, List.append_assoc, State.run]
    show (State.value (.array (v :: done) :: outer)).run _ = _
    rw [hw, ih hlater, itemsToSource, List.reverse_cons, List.append_assoc, List.singleton_append]

theorem run_laterMembers {members : List (String × Json)} (h : ∀ m ∈ members, Reads m.2) :
    ∀ (k : Option String) (v : Source) (done : List (Option String × Source)) (outer : List Frame)
      (rest : List Token),
      (State.after v (.object done k :: outer)).run
          (laterMemberTokens members ++ .closeObject :: rest)
        = (State.after (.object (((k, v) :: done).reverse ++ membersToSource members)) outer).run
            rest := by
  induction members with
  | nil =>
    intro k v done outer rest
    rw [laterMemberTokens, membersToSource, List.append_nil]
    rfl
  | cons m later ih =>
    intro k v done outer rest
    obtain ⟨key, w⟩ := m
    obtain ⟨hw, hlater⟩ : Reads w ∧ ∀ m ∈ later, Reads m.2 := List.forall_mem_cons.mp h
    rw [laterMemberTokens, List.cons_append, List.cons_append, List.cons_append, List.cons_append,
      List.append_assoc, State.run]
    show (State.value (.object ((k, v) :: done) (some key) :: outer)).run (tokens w ++ _) = _
    rw [hw, ih hlater, membersToSource, List.reverse_cons, List.append_assoc, List.singleton_append]

/-- **The tokens of a tree are taken to its structure.** -/
theorem run_tokens (v : Json) : Reads v := by
  induction v using treeInduction with
  | null => intro outer rest; rw [tokens, toSource]; rfl
  | bool b => intro outer rest; rw [tokens, toSource]; rfl
  | number n => intro outer rest; rw [tokens, toSource]; rfl
  | string s => intro outer rest; rw [tokens, toSource]; rfl
  | array items ih =>
    intro outer rest
    rw [tokens, toSource, List.cons_append, List.cons_append, List.append_assoc, State.run]
    show (State.itemOrEnd outer).run _ = _
    cases items with
    | nil => rw [itemTokens, itemsToSource]; rfl
    | cons v later =>
      obtain ⟨hv, hlater⟩ := List.forall_mem_cons.mp ih
      rw [itemTokens, List.append_assoc, run_itemOrEnd, hv]
      rw [itemsToSource]
      exact run_laterItems hlater _ _ _ _
  | object members ih =>
    intro outer rest
    rw [tokens, toSource, List.cons_append, List.cons_append, List.append_assoc, State.run]
    show (State.keyOrEnd outer).run _ = _
    cases members with
    | nil => rw [memberTokens, membersToSource]; rfl
    | cons m later =>
      obtain ⟨key, v⟩ := m
      obtain ⟨hv, hlater⟩ : Reads v ∧ ∀ m ∈ later, Reads m.2 := List.forall_mem_cons.mp ih
      rw [memberTokens, List.cons_append, List.cons_append, List.append_assoc, membersToSource]
      show (State.value (.object [] (some key) :: outer)).run (tokens v ++ _) = _
      rw [hv]
      exact run_laterMembers hlater _ _ _ _ _

theorem ofTokens?_tokens (v : Json) : ofTokens? (tokens v) = some v.toSource := by
  have hrun := run_tokens v [] []
  rw [List.append_nil] at hrun
  rw [ofTokens?, hrun]
  rfl

/-! ## Values -/

theorem insert_of_notMem {key : String} {before : List (String × Json)}
    (h : key ∉ before.map (·.1)) (v : Json) : Json.insert key v before = before ++ [(key, v)] := by
  induction before with
  | nil => rfl
  | cons m rest ih =>
    obtain ⟨k, w⟩ := m
    rw [List.map_cons, List.mem_cons, not_or] at h
    rw [Json.insert, if_neg (fun e => h.1 e.symm), ih h.2, List.cons_append]

section Levels

variable {levels : Nat}

theorem itemsToJson?_toSource {items : List Json}
    (h : ∀ v ∈ items, toJson? levels v.toSource = some v) :
    itemsToJson? levels (itemsToSource items) = some items := by
  induction items with
  | nil => rw [itemsToSource, itemsToJson?]
  | cons v rest ih =>
    obtain ⟨hv, hrest⟩ := List.forall_mem_cons.mp h
    rw [itemsToSource, itemsToJson?, hv, ih hrest]

/-- Members are added one after the other, as long as no key comes again. -/
theorem membersToJson?_toSource {members : List (String × Json)}
    (h : ∀ m ∈ members, toJson? levels m.2.toSource = some m.2) :
    ∀ {before : List (String × Json)}, ((before ++ members).map (·.1)).Nodup →
      membersToJson? levels before (membersToSource members) = some (before ++ members) := by
  induction members with
  | nil => intro before _; rw [membersToSource, membersToJson?, List.append_nil]
  | cons m rest ih =>
    intro before hnodup
    obtain ⟨key, v⟩ := m
    obtain ⟨hv, hrest⟩ := List.forall_mem_cons.mp h
    -- A key that is new goes to the end, so the members keep their order.
    have hnew : key ∉ before.map (·.1) := by
      rw [List.map_append, List.nodup_append] at hnodup
      exact fun hmem => hnodup.2.2 _ hmem _ (List.mem_cons_self ..) rfl
    rw [membersToSource, membersToJson?, hv]
    dsimp only
    rw [insert_of_notMem hnew, ih hrest (by rwa [List.append_assoc]), List.append_assoc]
    rfl

end Levels

/-- **A tree is read from its own structure.** -/
theorem toJson?_toSource (v : Json) : ∀ {levels : Nat}, v.depth ≤ levels →
    v.distinctKeys = true → toJson? levels v.toSource = some v := by
  induction v using treeInduction with
  | null => intro levels _ _; rw [toSource, toJson?]
  | bool b => intro levels _ _; rw [toSource, toJson?]
  | number n => intro levels _ _; rw [toSource, toJson?]
  | string s => intro levels _ _; rw [toSource, toJson?]
  | array items ih =>
    intro levels hdepth hkeys
    cases levels with
    | zero => rw [depth] at hdepth; omega
    | succ levels =>
      have hitems : ∀ v ∈ items, toJson? levels v.toSource = some v := fun v hv =>
        ih v hv (depth_array_le.mp hdepth v hv) (every_array.mp hkeys v hv)
      rw [toSource, toJson?, itemsToJson?_toSource hitems]
      rfl
  | object members ih =>
    intro levels hdepth hkeys
    obtain ⟨hnodup, hvalues⟩ := every_object.mp hkeys
    cases levels with
    | zero => rw [depth] at hdepth; omega
    | succ levels =>
      have hmembers : ∀ m ∈ members, toJson? levels m.2.toSource = some m.2 := fun m hm =>
        ih m hm (depth_object_le.mp hdepth m hm) (hvalues m hm)
      have hall := @membersToJson?_toSource _ _ hmembers [] (of_decide_eq_true hnodup)
      rw [toSource, toJson?, hall]
      rfl

/-! ## Depth -/

/-- The structure of a tree that nests deeper than this is not read. -/
def Limits (levels : Nat) (v : Json) : Prop :=
  ∀ {w}, toJson? levels v.toSource = some w → v.depth ≤ levels

section Levels

variable {levels : Nat}

theorem limits_items {items : List Json} (h : ∀ v ∈ items, Limits levels v) :
    ∀ {ws}, itemsToJson? levels (itemsToSource items) = some ws →
      ∀ v ∈ items, v.depth ≤ levels := by
  induction items with
  | nil => exact fun _ _ hv => nomatch hv
  | cons v rest ih =>
    intro ws hws
    obtain ⟨hv, hrest⟩ := List.forall_mem_cons.mp h
    rw [itemsToSource, itemsToJson?] at hws
    split at hws
    · next hread hlater => exact List.forall_mem_cons.mpr ⟨hv hread, ih hrest hlater⟩
    · cases hws

theorem limits_members {members : List (String × Json)} (h : ∀ m ∈ members, Limits levels m.2) :
    ∀ {before ws}, membersToJson? levels before (membersToSource members) = some ws →
      ∀ m ∈ members, m.2.depth ≤ levels := by
  induction members with
  | nil => exact fun _ _ hm => nomatch hm
  | cons m rest ih =>
    intro before ws hws
    obtain ⟨key, v⟩ := m
    obtain ⟨hv, hrest⟩ := List.forall_mem_cons.mp h
    rw [membersToSource, membersToJson?] at hws
    split at hws
    · next hread => exact List.forall_mem_cons.mpr ⟨hv hread, ih hrest hws⟩
    · cases hws

end Levels

theorem limits (v : Json) : ∀ levels, Limits levels v := by
  induction v using treeInduction with
  | null => intro levels w _; exact Nat.zero_le _
  | bool b => intro levels w _; exact Nat.zero_le _
  | number n => intro levels w _; exact Nat.zero_le _
  | string s => intro levels w _; exact Nat.zero_le _
  | array items ih =>
    intro levels w h
    rw [toSource] at h
    cases levels with
    | zero => rw [toJson?] at h; cases h
    | succ levels =>
      rw [toJson?] at h
      obtain ⟨ws, hws, -⟩ := Option.map_eq_some_iff.mp h
      exact depth_array_le.mpr (limits_items (fun v hv => ih v hv levels) hws)
  | object members ih =>
    intro levels w h
    rw [toSource] at h
    cases levels with
    | zero => rw [toJson?] at h; cases h
    | succ levels =>
      rw [toJson?] at h
      obtain ⟨ws, hws, -⟩ := Option.map_eq_some_iff.mp h
      exact depth_object_le.mpr (limits_members (fun m hm => ih m hm levels) hws)

end Source

/-- The text of a tree leads to its structure, and what a reader makes of it is up to that. -/
theorem parse?_print_eq {v : Json} (hdoubles : v.doublesReadBack = true) :
    parse? v.print = v.toSource.toJson? maxDepth := by
  have hlegible := legible_tokens v hdoubles [] follows_nil
  rw [List.append_nil] at hlegible
  rw [parse?, print, String.toList_ofList, Source.ofText?, scan_of_legible hlegible,
    Option.bind_some, Source.ofTokens?_tokens, Option.bind_some]

/-- **Printed JSON is read back** when it is not too deep, no key comes twice in an
object, and the text of each double is read as that double. -/
theorem parse?_print {v : Json} (hdepth : v.depth ≤ maxDepth) (hkeys : v.distinctKeys = true)
    (hdoubles : v.doublesReadBack = true) : parse? v.print = some v := by
  rw [parse?_print_eq hdoubles, Source.toJson?_toSource v hdepth hkeys]

/-- **Printed JSON that is too deep is not read.** -/
theorem parse?_print_eq_none {v : Json} (hdepth : maxDepth < v.depth)
    (hdoubles : v.doublesReadBack = true) : parse? v.print = none := by
  rw [parse?_print_eq hdoubles, Option.eq_none_iff_forall_ne_some]
  intro w hw
  have hlimit := Source.limits v maxDepth hw
  omega

end EventWire.Json
