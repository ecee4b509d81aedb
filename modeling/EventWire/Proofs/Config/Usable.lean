import EventWire.Config.Basic
import EventWire.Proofs.Except
import Mathlib.Data.List.Nodup
import Mathlib.Data.List.Pairwise

/-!
# Which configurations are usable

`validate` decides what can be said without any order of the bindings: the charset has a
known name, the bound names are names of types, no name is bound twice to one base type,
and of the bindings of a name one is marked, or none is and there is only one
(`validate_iff`). So it takes the bindings in any order (`Usable.perm`).

A name that is bound has one default binding then (`IsDefault`, `Usable.isDefault_unique`),
which is the one that `defaultOf` finds (`Usable.isDefault_iff`). The list of defaults has its
place under its name (`Usable.exists_defaults_at`).
-/

namespace EventWire

/-- Bindings of different names, or of one name to different base types. -/
def Binding.Apart (a b : Binding) : Prop :=
  a.name = b.name → a.codec.base ≠ b.codec.base

instance : Std.Symm Binding.Apart where
  symm _ _ h hname hbase := h hname.symm hbase.symm

namespace Config

variable {c : Config}

/-! ## The checks one by one -/

theorem checkBinding_eq_ok {earlier : List Binding} {b : Binding} :
    checkBinding earlier b = .ok () ↔
      (∃ t, Name.ofText .dataType b.name = .ok t) ∧
        ∀ a ∈ earlier, a.Apart b := by
  unfold checkBinding
  cases Name.ofText .dataType b.name with
  | error e => exact ⟨fun h => (nomatch h), fun ⟨⟨_, ht⟩, _⟩ => (nomatch ht)⟩
  | ok t =>
    dsimp only
    split
    · next hany =>
      obtain ⟨a, ha, hsame⟩ := List.any_eq_true.mp hany
      obtain ⟨hname, hbase⟩ := Bool.and_eq_true _ _ ▸ hsame
      refine ⟨fun h => (nomatch h), fun ⟨_, hdiffer⟩ => absurd (of_decide_eq_true hbase) ?_⟩
      exact hdiffer a ha (of_decide_eq_true hname)
    · next hnone =>
      refine ⟨fun _ => ⟨⟨t, rfl⟩, fun a ha hname hbase => hnone ?_⟩, fun _ => rfl⟩
      refine List.any_eq_true.mpr ⟨a, ha, ?_⟩
      rw [decide_eq_true hname, decide_eq_true hbase]
      rfl

/-- Bindings that pass the check are bound under names of types, and none of them to a
base type that its name was bound to before. -/
theorem checkBindings_eq_ok {bs : List Binding} :
    ∀ {earlier : List Binding}, checkBindings earlier bs = .ok () ↔
      (∀ b ∈ bs, ∃ t, Name.ofText .dataType b.name = .ok t) ∧
        (∀ a ∈ earlier, ∀ b ∈ bs, a.Apart b) ∧ bs.Pairwise Binding.Apart := by
  induction bs with
  | nil =>
    intro earlier
    exact ⟨fun _ => ⟨fun _ hb => (nomatch hb), fun _ _ _ hb => (nomatch hb), .nil⟩, fun _ => rfl⟩
  | cons b rest ih =>
    intro earlier
    rw [checkBindings, bind_eq_ok, List.forall_mem_cons, List.pairwise_cons]
    constructor
    · rintro ⟨⟨⟩, hb, hrest⟩
      obtain ⟨hname, hnow⟩ := checkBinding_eq_ok.mp hb
      obtain ⟨hnames, hearlier, hpairwise⟩ := ih.mp hrest
      refine ⟨⟨hname, hnames⟩, fun a ha => List.forall_mem_cons.mpr ⟨hnow a ha, ?_⟩, ?_, hpairwise⟩
      · exact hearlier a (List.mem_append_left _ ha)
      · exact hearlier b (List.mem_append_right _ (List.mem_singleton.mpr rfl))
    · rintro ⟨⟨hname, hnames⟩, hearlier, hfirst, hpairwise⟩
      have hunlike := fun a ha => hearlier a ha b (List.mem_cons_self ..)
      refine ⟨(), checkBinding_eq_ok.mpr ⟨hname, hunlike⟩,
        ih.mpr ⟨hnames, fun a ha d hd => ?_, hpairwise⟩⟩
      rcases List.mem_append.mp ha with hold | hnew
      · exact hearlier a hold d (List.mem_cons_of_mem _ hd)
      · obtain rfl := List.mem_singleton.mp hnew
        exact hfirst d hd

/-! ## Default bindings -/

/-- The default binding of its name: it is marked, or there is no other. -/
def IsDefault (c : Config) (b : Binding) : Prop :=
  b ∈ c.bindings ∧ (b.marked = true ∨ ∀ a ∈ c.bindings, a.name = b.name → a = b)

/-- One binding of a name is marked, or none is and there is only one. -/
def OneDefault (c : Config) (name : String) : Prop :=
  (c.bindings.countP fun a => a.name = name && a.marked) = 1 ∨
    (c.bindings.countP fun a => a.name = name && a.marked) = 0 ∧
      (c.bindings.countP fun a => a.name = name) = 1

theorem mem_bindingsOf {name : String} {b : Binding × Nat} :
    b ∈ c.bindingsOf name ↔ b ∈ c.bindings.zipIdx ∧ b.1.name = name := by
  rw [bindingsOf, List.mem_filter, decide_eq_true_iff]

theorem exists_mem_bindingsOf {b : Binding} (h : b ∈ c.bindings) :
    ∃ i, (b, i) ∈ c.bindingsOf b.name := by
  obtain ⟨i, hi⟩ := List.mem_iff_getElem?.mp h
  exact ⟨i, mem_bindingsOf.mpr ⟨List.mk_mem_zipIdx_iff_getElem?.mpr hi, rfl⟩⟩

theorem countP_zipIdx (p : Binding → Bool) (bs : List Binding) :
    (bs.zipIdx.filter fun b => p b.1).length = bs.countP p := by
  rw [← List.countP_eq_length_filter]
  have hfst := List.countP_map (p := p) (f := Prod.fst) (l := bs.zipIdx)
  rw [List.zipIdx_map_fst] at hfst
  exact hfst.symm

theorem length_bindingsOf (name : String) :
    (c.bindingsOf name).length = c.bindings.countP fun a => a.name = name :=
  countP_zipIdx (fun a => a.name = name) c.bindings

theorem length_marked (name : String) :
    ((c.bindingsOf name).filter (·.1.marked)).length
      = c.bindings.countP fun a => a.name = name && a.marked := by
  rw [bindingsOf, List.filter_filter, ← countP_zipIdx]
  simp only [Bool.and_comm]

/-- The default is at the position of the binding that is marked, or of the only one. -/
theorem defaultOf_eq_ok {name : String} {i : Nat} :
    c.defaultOf name = .ok i ↔ ∃ b,
      (c.bindingsOf name).filter (·.1.marked) = [(b, i)] ∨
        (c.bindingsOf name).filter (·.1.marked) = [] ∧ c.bindingsOf name = [(b, i)] := by
  unfold defaultOf
  generalize (c.bindingsOf name).filter (·.1.marked) = marked
  generalize c.bindingsOf name = all
  match marked, all with
  | [(b, j)], _ => simp
  | [], [(b, j)] => simp
  | [], [] => simp
  | [], _ :: _ :: _ => simp
  | _ :: _ :: _, _ => simp

/-- There is a default if it can be told. -/
theorem exists_defaultOf {name : String} : (∃ i, c.defaultOf name = .ok i) ↔ c.OneDefault name := by
  rw [OneDefault, ← length_marked, ← length_bindingsOf, List.length_eq_one_iff,
    List.length_eq_zero_iff, List.length_eq_one_iff]
  constructor
  · rintro ⟨i, hi⟩
    obtain ⟨b, hone | ⟨hnone, honly⟩⟩ := defaultOf_eq_ok.mp hi
    · exact Or.inl ⟨(b, i), hone⟩
    · exact Or.inr ⟨hnone, (b, i), honly⟩
  · rintro (⟨⟨b, i⟩, hone⟩ | ⟨hnone, ⟨b, i⟩, honly⟩)
    · exact ⟨i, defaultOf_eq_ok.mpr ⟨b, Or.inl hone⟩⟩
    · exact ⟨i, defaultOf_eq_ok.mpr ⟨b, Or.inr ⟨hnone, honly⟩⟩⟩

/-- The default binding of a name stands at this place: it is marked, or there is none of the
name at another. -/
def DefaultAt (c : Config) (name : String) (i : Nat) : Prop :=
  ∃ b, c.bindings[i]? = some b ∧ b.name = name ∧
    (b.marked = true ∨ ∀ j a, c.bindings[j]? = some a → a.name = name → j = i)

theorem mem_bindingsOf_iff {name : String} {b : Binding} {i : Nat} :
    (b, i) ∈ c.bindingsOf name ↔ c.bindings[i]? = some b ∧ b.name = name := by
  rw [mem_bindingsOf, List.mk_mem_zipIdx_iff_getElem?]

/-- **The default that is found is the one at its place**, if there is one. -/
theorem defaultOf_iff {name : String} (h : c.OneDefault name) {i : Nat} :
    c.defaultOf name = .ok i ↔ c.DefaultAt name i := by
  constructor
  · intro hi
    obtain ⟨b, hone | ⟨-, honly⟩⟩ := defaultOf_eq_ok.mp hi
    · have hmem : (b, i) ∈ (c.bindingsOf name).filter (·.1.marked) :=
        hone ▸ List.mem_singleton_self _
      obtain ⟨hall, hmarked⟩ := List.mem_filter.mp hmem
      obtain ⟨hplace, hname⟩ := mem_bindingsOf_iff.mp hall
      exact ⟨b, hplace, hname, Or.inl hmarked⟩
    · obtain ⟨hplace, hname⟩ := mem_bindingsOf_iff.mp (honly ▸ List.mem_singleton_self (b, i))
      refine ⟨b, hplace, hname, Or.inr fun j a ha haname => ?_⟩
      have hmem := mem_bindingsOf_iff.mpr ⟨ha, haname⟩
      rw [honly] at hmem
      exact (Prod.mk.inj (List.mem_singleton.mp hmem)).2
  · rintro ⟨b, hplace, hname, hdefault⟩
    obtain ⟨j, hj⟩ := exists_defaultOf.mpr h
    have hmem := mem_bindingsOf_iff.mpr ⟨hplace, hname⟩
    suffices hsame : i = j by rw [hsame, hj]
    obtain ⟨d, hone | ⟨-, honly⟩⟩ := defaultOf_eq_ok.mp hj
    · rcases hdefault with hmarked | hsole
      · have hfound : (b, i) ∈ (c.bindingsOf name).filter (·.1.marked) :=
          List.mem_filter.mpr ⟨hmem, hmarked⟩
        rw [hone] at hfound
        exact (Prod.mk.inj (List.mem_singleton.mp hfound)).2
      · have hfound : (d, j) ∈ (c.bindingsOf name).filter (·.1.marked) :=
          hone ▸ List.mem_singleton_self _
        obtain ⟨hd, hdname⟩ := mem_bindingsOf_iff.mp (List.mem_filter.mp hfound).1
        exact (hsole j d hd hdname).symm
    · rw [honly] at hmem
      exact (Prod.mk.inj (List.mem_singleton.mp hmem)).2

/-- **What is found is the one default binding.** -/
theorem isDefault_of_defaultOf {name : String} {i : Nat} (h : c.defaultOf name = .ok i) :
    ∃ b, (b, i) ∈ c.bindingsOf name ∧ c.IsDefault b ∧
      ∀ a, c.IsDefault a → a.name = name → a = b := by
  obtain ⟨b, hone | ⟨hnone, honly⟩⟩ := defaultOf_eq_ok.mp h
  · have hmem : (b, i) ∈ (c.bindingsOf name).filter (·.1.marked) := hone ▸ List.mem_singleton_self _
    obtain ⟨hall, hmarked⟩ := List.mem_filter.mp hmem
    obtain ⟨hposition, hname⟩ := mem_bindingsOf.mp hall
    have hb : b ∈ c.bindings := List.fst_mem_of_mem_zipIdx hposition
    refine ⟨b, hall, ⟨hb, Or.inl hmarked⟩, ?_⟩
    rintro a ⟨ha, hmarkedToo | hsole⟩ haname
    · obtain ⟨j, hj⟩ := exists_mem_bindingsOf ha
      rw [haname] at hj
      have hsame : (a, j) ∈ (c.bindingsOf name).filter (·.1.marked) :=
        List.mem_filter.mpr ⟨hj, hmarkedToo⟩
      rw [hone] at hsame
      exact (Prod.mk.inj (List.mem_singleton.mp hsame)).1
    · exact (hsole b hb (hname.trans haname.symm)).symm
  · have hall : (b, i) ∈ c.bindingsOf name := honly ▸ List.mem_singleton_self _
    obtain ⟨hposition, hname⟩ := mem_bindingsOf.mp hall
    have hsole (a : Binding) (ha : a ∈ c.bindings) (haname : a.name = name) : a = b := by
      obtain ⟨j, hj⟩ := exists_mem_bindingsOf ha
      rw [haname, honly] at hj
      exact (Prod.mk.inj (List.mem_singleton.mp hj)).1
    have hb : b ∈ c.bindings := List.fst_mem_of_mem_zipIdx hposition
    exact ⟨b, hall, ⟨hb, Or.inr fun a ha haname => hsole a ha (haname.trans hname)⟩,
      fun a ha => hsole a ha.1⟩

/-! ## Usable configurations -/

/-- A usable configuration. -/
structure Usable (c : Config) : Prop where
  charset : ∃ charset, c.charset = .ok charset
  names : ∀ b ∈ c.bindings, ∃ t, Name.ofText .dataType b.name = .ok t
  bases : c.bindings.Pairwise Binding.Apart
  defaults : ∀ b ∈ c.bindings, c.OneDefault b.name

theorem lookup_of_mapM {bs : List Binding} :
    ∀ {ds : List (String × Nat)},
      (bs.mapM fun b => do
        let i ← c.defaultOf b.name
        return (b.name, i)) = Except.ok ds →
      ∀ b ∈ bs, ∃ i, c.defaultOf b.name = .ok i ∧ ds.lookup b.name = some i := by
  induction bs with
  | nil =>
    intro ds _ b hb
    cases hb
  | cons a rest ih =>
    intro ds h b hb
    rw [List.mapM_cons] at h
    obtain ⟨d, hd, hrest⟩ := bind_eq_ok.mp h
    obtain ⟨i, hi, ⟨⟩⟩ := bind_eq_ok.mp hd
    obtain ⟨later, hlater, ⟨⟩⟩ := bind_eq_ok.mp hrest
    by_cases hname : b.name = a.name
    · refine ⟨i, hname ▸ hi, ?_⟩
      rw [List.lookup_cons, beq_iff_eq.mpr hname]
    · rw [List.lookup_cons, beq_eq_false_iff_ne.mpr hname]
      rcases List.mem_cons.mp hb with rfl | hmem
      · exact absurd rfl hname
      · exact ih hlater b hmem

/-- The list of defaults has each name with its default. -/
theorem lookup_defaults {ds : List (String × Nat)} (h : c.defaults = .ok ds) {b : Binding}
    (hb : b ∈ c.bindings) {i : Nat} :
    ds.lookup b.name = some i ↔ c.defaultOf b.name = .ok i := by
  obtain ⟨⟨⟩, -, hds⟩ := bind_eq_ok.mp h
  obtain ⟨j, hj, hlookup⟩ := lookup_of_mapM hds b hb
  rw [hlookup, hj, Option.some.injEq, Except.ok.injEq]

theorem names_defaults {ds : List (String × Nat)} (h : c.defaults = .ok ds) :
    ds.map (·.1) = c.bindings.map (·.name) := by
  obtain ⟨⟨⟩, -, hds⟩ := bind_eq_ok.mp h
  have hnames := filterMap_of_mapM (k := fun d : String × Nat => some d.1)
    (g := fun b : Binding => some b.name) (fun b d hd => ?_) hds
  · rw [List.filterMap_eq_map', List.filterMap_eq_map'] at hnames
    exact hnames
  · obtain ⟨i, -, ⟨⟩⟩ := bind_eq_ok.mp hd
    rfl

/-- The defaults can be told when the bindings pass the check and each name has one. -/
theorem exists_defaults :
    (∃ defaults, c.defaults = .ok defaults) ↔
      checkBindings [] c.bindings = .ok () ∧ ∀ b ∈ c.bindings, c.OneDefault b.name := by
  have heach (b : Binding) : (∃ d, (do
      let i ← c.defaultOf b.name
      return (b.name, i)) = Except.ok (ε := ConfigError) d) ↔ c.OneDefault b.name := by
    rw [← exists_defaultOf]
    constructor
    · rintro ⟨d, hd⟩
      obtain ⟨i, hi, -⟩ := bind_eq_ok.mp hd
      exact ⟨i, hi⟩
    · rintro ⟨i, hi⟩
      exact ⟨(b.name, i), by rw [hi]; rfl⟩
  unfold defaults
  constructor
  · rintro ⟨ds, h⟩
    obtain ⟨⟨⟩, hcheck, hds⟩ := bind_eq_ok.mp h
    have hall := exists_mapM_eq_ok.mp ⟨ds, hds⟩
    exact ⟨hcheck, fun b hb => (heach b).mp (hall b hb)⟩
  · rintro ⟨hcheck, hone⟩
    obtain ⟨ds, hds⟩ := exists_mapM_eq_ok.mpr fun b hb => (heach b).mpr (hone b hb)
    exact ⟨ds, bind_eq_ok.mpr ⟨(), hcheck, hds⟩⟩

/-- **Exactly the usable configurations are accepted.** -/
theorem validate_iff : c.validate = .ok () ↔ c.Usable := by
  rw [validate, bind_eq_ok]
  simp only [bind_eq_ok]
  constructor
  · rintro ⟨charset, hcharset, ds, hds, -⟩
    obtain ⟨hcheck, hdefaults⟩ := exists_defaults.mp ⟨ds, hds⟩
    obtain ⟨hnames, -, hbases⟩ := checkBindings_eq_ok.mp hcheck
    exact ⟨⟨charset, hcharset⟩, hnames, hbases, hdefaults⟩
  · rintro ⟨⟨charset, hcharset⟩, hnames, hbases, hdefaults⟩
    have hcheck : checkBindings [] c.bindings = .ok () :=
      checkBindings_eq_ok.mpr ⟨hnames, fun _ ha => (nomatch ha), hbases⟩
    obtain ⟨ds, hds⟩ := exists_defaults.mpr ⟨hcheck, hdefaults⟩
    exact ⟨charset, hcharset, ds, hds, rfl⟩

namespace Usable

/-- **The order of the bindings does not matter.** -/
theorem perm {c' : Config} (h : c.Usable) (hencoding : c'.encoding = c.encoding)
    (hbindings : c'.bindings.Perm c.bindings) : c'.Usable where
  charset := by
    rw [Config.charset, hencoding]
    exact h.charset
  names b hb := h.names b (hbindings.mem_iff.mp hb)
  bases := (hbindings.pairwise_iff symm).mpr h.bases
  defaults b hb := by
    rw [OneDefault, hbindings.countP_eq, hbindings.countP_eq]
    exact h.defaults b (hbindings.mem_iff.mp hb)

/-- Of a name and a base type there is only one binding. -/
theorem eq_of_base (h : c.Usable) {a b : Binding} (ha : a ∈ c.bindings) (hb : b ∈ c.bindings)
    (hname : a.name = b.name) (hbase : a.codec.base = b.codec.base) : a = b := by
  by_contra hne
  exact h.bases.forall ha hb hne hname hbase

theorem exists_isDefault (h : c.Usable) {b : Binding} (hb : b ∈ c.bindings) :
    ∃ d, c.IsDefault d ∧ d.name = b.name := by
  obtain ⟨i, hi⟩ := exists_defaultOf.mpr (h.defaults b hb)
  obtain ⟨d, hd, hdefault, -⟩ := isDefault_of_defaultOf hi
  exact ⟨d, hdefault, (mem_bindingsOf.mp hd).2⟩

theorem isDefault_unique (h : c.Usable) {a b : Binding} (ha : c.IsDefault a) (hb : c.IsDefault b)
    (hname : a.name = b.name) : a = b := by
  obtain ⟨i, hi⟩ := exists_defaultOf.mpr (h.defaults b hb.1)
  obtain ⟨d, -, -, hunique⟩ := isDefault_of_defaultOf hi
  exact (hunique a ha hname).trans (hunique b hb rfl).symm

/-- **The default binding of a name is the one that is found.** -/
theorem isDefault_iff (h : c.Usable) {b : Binding} {name : String} :
    c.IsDefault b ∧ b.name = name ↔
      ∃ i, (b, i) ∈ c.bindings.zipIdx ∧ b.name = name ∧ c.defaultOf name = .ok i := by
  constructor
  · rintro ⟨hb, rfl⟩
    obtain ⟨i, hi⟩ := exists_defaultOf.mpr (h.defaults b hb.1)
    obtain ⟨d, hd, -, hunique⟩ := isDefault_of_defaultOf hi
    obtain rfl := hunique b hb rfl
    exact ⟨i, (mem_bindingsOf.mp hd).1, rfl, hi⟩
  · rintro ⟨i, hb, hname, hi⟩
    obtain ⟨d, hd, hdefault, -⟩ := isDefault_of_defaultOf hi
    have hplace := List.mk_mem_zipIdx_iff_getElem?.mp (mem_bindingsOf.mp hd).1
    rw [List.mk_mem_zipIdx_iff_getElem?.mp hb] at hplace
    cases hplace
    exact ⟨hdefault, hname⟩

/-- **The defaults of a usable configuration are the places of its default bindings**, name by
name. -/
theorem exists_defaults_at (h : c.Usable) :
    ∃ ds, c.defaults = .ok ds ∧ ∀ name i, ds.lookup name = some i ↔ c.DefaultAt name i := by
  obtain ⟨charset, -, hrest⟩ := bind_eq_ok.mp (validate_iff.mpr h)
  obtain ⟨ds, hds, -⟩ := bind_eq_ok.mp hrest
  refine ⟨ds, hds, fun name i => ?_⟩
  by_cases hbound : ∃ b ∈ c.bindings, b.name = name
  · obtain ⟨b, hb, rfl⟩ := hbound
    rw [lookup_defaults hds hb, defaultOf_iff (h.defaults b hb)]
  · -- A name that is not bound has no default and no place in the list.
    have hnone : ds.lookup name = none := by
      refine List.lookup_eq_none_iff.mpr fun d hd => ?_
      have hmem := List.mem_map_of_mem (f := (·.1)) hd
      rw [names_defaults hds] at hmem
      obtain ⟨b, hb, hname⟩ := List.mem_map.mp hmem
      exact bne_iff_ne.mpr fun e => hbound ⟨b, hb, hname.trans e.symm⟩
    rw [hnone]
    refine ⟨fun hlookup => (nomatch hlookup), fun ⟨b, hplace, hname, _⟩ => ?_⟩
    exact absurd ⟨b, List.mem_of_getElem? hplace, hname⟩ hbound

end Usable

end Config

end EventWire
