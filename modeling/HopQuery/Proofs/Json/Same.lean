import HopQuery.Proofs.Json.Alike
import Mathlib.Data.List.Perm.Subperm

/-!
# Deep equality and canonical texts

Texts tell numbers apart as deep equality does, but for the negative zero: it is equal to zero and
has another text. On values without it, deep equality is to be the same up to the order of members,
so two of them have one canonical text exactly if they are equal.

* `Json.hasNegativeZero`: whether there is a negative zero anywhere in a value;
* `same_iff_alike`: deep equality of values without it;
* `canonicalText_eq_iff_same`: deep equality told by canonical texts.
-/

namespace HopQuery.Json

/-- Whether a number is the negative zero. -/
def Number.isNegativeZero : Number → Bool
  | .whole _ => false
  | .real x => x.negative && x.magnitude.rank == 0

mutual

/-- Whether there is a negative zero in the value. -/
def hasNegativeZero : Json → Bool
  | .number n => n.isNegativeZero
  | .array items => itemsHaveNegativeZero items
  | .object members => membersHaveNegativeZero members
  | _ => false

/-- Whether there is a negative zero in one of the items. -/
def itemsHaveNegativeZero : List Json → Bool
  | [] => false
  | item :: rest => hasNegativeZero item || itemsHaveNegativeZero rest

/-- Whether there is a negative zero in the value of one of the members. -/
def membersHaveNegativeZero : List (String × Json) → Bool
  | [] => false
  | (_, value) :: rest => hasNegativeZero value || membersHaveNegativeZero rest

end

theorem hasNegativeZero_array (items : List Json) : hasNegativeZero (.array items) = false ↔
    ∀ item ∈ items, item.hasNegativeZero = false := by
  rw [hasNegativeZero]
  induction items with
  | nil => simp [itemsHaveNegativeZero]
  | cons item rest ih =>
    rw [itemsHaveNegativeZero, Bool.or_eq_false_iff, ih, List.forall_mem_cons]

theorem hasNegativeZero_object (members : List (String × Json)) :
    hasNegativeZero (.object members) = false ↔
      ∀ member ∈ members, member.2.hasNegativeZero = false := by
  rw [hasNegativeZero]
  induction members with
  | nil => simp [membersHaveNegativeZero]
  | cons member rest ih =>
    rw [membersHaveNegativeZero, Bool.or_eq_false_iff, ih, List.forall_mem_cons]

/-! ### Numbers -/

theorem Number.same_iff {m n : Number} (hm : m.isNegativeZero = false)
    (hn : n.isNegativeZero = false) : m.same n = true ↔ m = n := by
  cases m with
  | whole a => cases n with
    | whole b => simp [Number.same]
    | real y => simp [Number.same]
  | real x => cases n with
    | whole b => simp [Number.same]
    | real y =>
      obtain ⟨negative, m⟩ := x
      obtain ⟨negative', m'⟩ := y
      simp only [Number.isNegativeZero, Bool.and_eq_false_iff] at hm hn
      simp only [Number.same, Binary64.sameNumber, Bool.and_eq_true, Bool.or_eq_true, beq_iff_eq,
        Number.real.injEq, Binary64.mk.injEq]
      constructor
      · rintro ⟨rfl, rfl | hzero⟩
        · exact ⟨rfl, rfl⟩
        -- both are zero, and neither is the negative one
        · simp only [hzero, beq_self_eq_true, Bool.true_eq_false, or_false] at hm hn
          exact ⟨hm.trans hn.symm, rfl⟩
      · rintro ⟨rfl, rfl⟩
        exact ⟨rfl, Or.inl rfl⟩

theorem alike_number_iff (m n : Number) : Alike (.number m) (.number n) ↔ m = n := by
  constructor
  · intro h
    cases h with
    | number h => exact Number.text_injective h
  · rintro rfl
    exact .number rfl

/-! ### Values -/

theorem sameItems_iff (items others : List Json) :
    sameItems items others = true ↔ List.Forall₂ (fun a b => same a b = true) items others := by
  induction items generalizing others with
  | nil => cases others <;> simp [sameItems]
  | cons item rest ih => cases others <;> simp [sameItems, ih]

theorem sameMembers_iff (members others : List (String × Json)) :
    sameMembers members others = true ↔ ∀ member ∈ members,
      ∃ other, Table.lookup member.1 others = some other ∧ same member.2 other = true := by
  induction members with
  | nil => simp [sameMembers]
  | cons member rest ih =>
    rw [sameMembers, Bool.and_eq_true, ih, List.forall_mem_cons]
    refine and_congr_left fun _ => ?_
    cases Table.lookup member.1 others <;> simp

/-- One relative on the right for each element on the left, in a list of their own. -/
theorem exists_forall₂ {α β : Type} {R : α → β → Prop} {xs : List α} {ys : List β}
    (h : ∀ x ∈ xs, ∃ y ∈ ys, R x y) : ∃ zs, List.Forall₂ R xs zs ∧ zs ⊆ ys := by
  induction xs with
  | nil => exact ⟨[], .nil, List.nil_subset _⟩
  | cons x xs ih =>
    obtain ⟨⟨y, hy, hxy⟩, hrest⟩ := List.forall_mem_cons.1 h
    obtain ⟨zs, hzs, hsub⟩ := ih hrest
    exact ⟨y :: zs, .cons hxy hzs, List.cons_subset.2 ⟨hy, hsub⟩⟩

theorem exists_of_forall₂ {α β : Type} {R : α → β → Prop} {xs : List α} {ys : List β}
    (h : List.Forall₂ R xs ys) {x : α} (hx : x ∈ xs) : ∃ y ∈ ys, R x y := by
  induction h with
  | nil => cases hx
  | cons hxy _ ih =>
    rcases List.mem_cons.1 hx with rfl | hx
    · exact ⟨_, List.mem_cons_self, hxy⟩
    · obtain ⟨y, hy, hxy⟩ := ih hx
      exact ⟨y, List.mem_cons_of_mem _ hy, hxy⟩

theorem map_fst_eq_of_forall₂ {members others : List (String × Json)}
    (h : List.Forall₂ AlikeMember members others) :
    members.map Prod.fst = others.map Prod.fst :=
  map_eq_map_of_forall₂ h fun _ _ _ _ halike => halike.1

theorem Alike.kind_eq {v w : Json} (h : Alike v w) : v.kind = w.kind := by
  cases h <;> rfl

theorem kind_eq_of_same {v w : Json} (h : same v w = true) : v.kind = w.kind := by
  cases v <;> cases w <;> first | rfl | simp [same] at h

theorem same_iff_alike_of_kind_ne {v w : Json} (h : v.kind ≠ w.kind) :
    same v w = true ↔ Alike v w :=
  iff_of_false (fun hsame => h (kind_eq_of_same hsame)) fun halike => h halike.kind_eq

/-- Two arrays item by item, given what is known of the items of the one on the left. -/
theorem sameArray_iff {items others : List Json}
    (hitem : ∀ item ∈ items, ∀ other ∈ others, (same item other = true ↔ Alike item other)) :
    sameItems items others = true ↔ AlikeItems items others := by
  rw [sameItems_iff, alikeItems_iff]
  induction items generalizing others with
  | nil => cases others <;> simp
  | cons item rest ih => cases others with
    | nil => simp
    | cons other others =>
      have hfirst := hitem item List.mem_cons_self other List.mem_cons_self
      have hrest := ih fun item hi other ho =>
        hitem item (List.mem_cons_of_mem _ hi) other (List.mem_cons_of_mem _ ho)
      rw [List.forall₂_cons, List.forall₂_cons, hfirst, hrest]

/-- Two objects as maps, given what is known of the values of the one on the left. -/
theorem sameObject_iff {members others : List (String × Json)}
    (hnodup : (members.map Prod.fst).Nodup) (hnodup' : (others.map Prod.fst).Nodup)
    (hvalue : ∀ member ∈ members, ∀ other ∈ others,
      (same member.2 other.2 = true ↔ Alike member.2 other.2)) :
    members.length = others.length ∧ sameMembers members others = true ↔
      ∃ arranged, List.Forall₂ AlikeMember members arranged ∧ arranged.Perm others := by
  rw [sameMembers_iff]
  constructor
  · rintro ⟨hlength, hsame⟩
    have hpartner : ∀ member ∈ members, ∃ other ∈ others, AlikeMember member other := by
      intro member hmember
      obtain ⟨value, hlookup, h⟩ := hsame member hmember
      have hmem := (Table.lookup_eq_some_iff hnodup' _ _).1 hlookup
      exact ⟨_, hmem, rfl, (hvalue member hmember _ hmem).1 h⟩
    obtain ⟨arranged, harranged, hsub⟩ := exists_forall₂ hpartner
    refine ⟨arranged, harranged, ?_⟩
    -- the partners have distinct names and are as many as the members on the right
    have hnames : arranged.Nodup := .of_map Prod.fst (map_fst_eq_of_forall₂ harranged ▸ hnodup)
    refine (hnames.subperm hsub).perm_of_length_le ?_
    rw [← hlength, harranged.length_eq]
  · rintro ⟨arranged, harranged, hperm⟩
    refine ⟨harranged.length_eq.trans hperm.length_eq, fun member hmember => ?_⟩
    obtain ⟨⟨name, other⟩, hother, rfl, halike⟩ := exists_of_forall₂ harranged hmember
    have hmem := hperm.mem_iff.1 hother
    exact ⟨other, (Table.lookup_eq_some_iff hnodup' _ _).2 hmem,
      (hvalue member hmember _ hmem).2 halike⟩

/-- Deep equality, where no name is given twice and no zero is negative. -/
theorem same_iff_alike {v w : Json} (hv : v.WellFormed) (hw : w.WellFormed)
    (hv0 : v.hasNegativeZero = false) (hw0 : w.hasNegativeZero = false) :
    same v w = true ↔ Alike v w := by
  induction v using induct generalizing w with
  | null => cases w with
    | null => exact iff_of_true (by simp [same]) .null
    | _ => exact same_iff_alike_of_kind_ne nofun
  | bool b => cases w with
    | bool b' =>
      rw [same, beq_iff_eq]
      exact ⟨fun h => h ▸ .bool b, fun h => by cases h; rfl⟩
    | _ => exact same_iff_alike_of_kind_ne nofun
  | number n => cases w with
    | number n' =>
      rw [hasNegativeZero] at hv0 hw0
      rw [same, Number.same_iff hv0 hw0, alike_number_iff]
    | _ => exact same_iff_alike_of_kind_ne nofun
  | string s => cases w with
    | string s' =>
      rw [same, beq_iff_eq]
      exact ⟨fun h => h ▸ .string s, fun h => by cases h; rfl⟩
    | _ => exact same_iff_alike_of_kind_ne nofun
  | array items ih => cases w with
    | array others =>
      rw [wellFormed_array] at hv hw
      rw [hasNegativeZero_array] at hv0 hw0
      rw [same, sameArray_iff fun item hi other ho =>
        ih item hi (hv item hi) (hw other ho) (hv0 item hi) (hw0 other ho)]
      exact ⟨.array, fun h => by cases h; assumption⟩
    | _ => exact same_iff_alike_of_kind_ne nofun
  | object members ih => cases w with
    | object others =>
      obtain ⟨hnodup, hvalues⟩ := (wellFormed_object members).1 hv
      obtain ⟨hnodup', hvalues'⟩ := (wellFormed_object others).1 hw
      rw [hasNegativeZero_object] at hv0 hw0
      rw [same, Bool.and_eq_true, beq_iff_eq, sameObject_iff hnodup hnodup' fun member hm other ho =>
        ih member hm (hvalues member hm) (hvalues' other ho) (hv0 member hm) (hw0 other ho)]
      constructor
      · rintro ⟨arranged, harranged, hperm⟩
        exact .object ((alikeMembers_iff _ _).2 harranged) hperm
      · intro h
        cases h with
        | object h hperm => exact ⟨_, (alikeMembers_iff _ _).1 h, hperm⟩
    | _ => exact same_iff_alike_of_kind_ne nofun

/-- Canonical texts tell whether two values are deeply equal. -/
theorem canonicalText_eq_iff_same {v w : Json} (hv : v.WellFormed) (hw : w.WellFormed)
    (hv0 : v.hasNegativeZero = false) (hw0 : w.hasNegativeZero = false) :
    canonicalText v = canonicalText w ↔ same v w = true := by
  rw [same_iff_alike hv hw hv0 hw0]
  exact ⟨alike_of_canonicalText_eq, fun h => h.canonicalText_eq hw⟩

end HopQuery.Json
