import HopQuery.Proofs.Json.Induction
import HopQuery.Proofs.Json.Scalar
import Mathlib.Data.List.Forall2
import Mathlib.Data.List.Perm.Basic

/-!
# Canonical texts

Two values have one canonical text exactly if they are the same up to the order of members. One
direction is unique readability: the first character of a text tells the type of the value, and
where the text of a part ends can be told from it, whatever strings hold. The other is that sorting
by name forgets the order, as no name occurs twice.

* `Alike`: the same up to the order of members at any depth;
* `canonical_append_inj`: a canonical text, whatever follows, tells the value and where it ends;
* `Alike.canonical_eq`: the order of members does not show;
* `canonicalText_eq_iff`: the two together.
-/

namespace HopQuery.Json

/-! ### The same up to the order of members -/

mutual

/-- Two values that differ at most in the order of members, at any depth. Numbers are the same if
their texts are. -/
inductive Alike : Json → Json → Prop
  | null : Alike .null .null
  | bool (b : Bool) : Alike (.bool b) (.bool b)
  | number {m n : Number} (h : m.text = n.text) : Alike (.number m) (.number n)
  | string (s : String) : Alike (.string s) (.string s)
  | array {items others : List Json} (h : AlikeItems items others) :
      Alike (.array items) (.array others)
  | object {members arranged others : List (String × Json)} (h : AlikeMembers members arranged)
      (hperm : arranged.Perm others) : Alike (.object members) (.object others)

/-- Lists that are alike item by item. -/
inductive AlikeItems : List Json → List Json → Prop
  | nil : AlikeItems [] []
  | cons {item other : Json} {rest others : List Json} (h : Alike item other)
      (hrest : AlikeItems rest others) : AlikeItems (item :: rest) (other :: others)

/-- Lists of members that are alike one by one, under the same names. -/
inductive AlikeMembers : List (String × Json) → List (String × Json) → Prop
  | nil : AlikeMembers [] []
  | cons (name : String) {value other : Json} {rest others : List (String × Json)}
      (h : Alike value other) (hrest : AlikeMembers rest others) :
      AlikeMembers ((name, value) :: rest) ((name, other) :: others)

end

theorem alikeItems_iff (items others : List Json) :
    AlikeItems items others ↔ List.Forall₂ Alike items others := by
  constructor
  · intro h
    induction items generalizing others with
    | nil => cases h; exact .nil
    | cons item rest ih => cases h with | cons h hrest => exact .cons h (ih _ hrest)
  · intro h
    induction h with
    | nil => exact .nil
    | cons h _ ih => exact .cons h ih

/-- Two members of one name with values that are alike. -/
def AlikeMember (a b : String × Json) : Prop :=
  a.1 = b.1 ∧ Alike a.2 b.2

theorem alikeMembers_iff (members others : List (String × Json)) :
    AlikeMembers members others ↔ List.Forall₂ AlikeMember members others := by
  constructor
  · intro h
    induction members generalizing others with
    | nil => cases h; exact .nil
    | cons member rest ih => cases h with | cons name h hrest => exact .cons ⟨rfl, h⟩ (ih _ hrest)
  · intro h
    induction h with
    | nil => exact .nil
    | @cons a b _ _ h _ ih =>
      obtain ⟨name, value⟩ := a
      obtain ⟨name', other⟩ := b
      obtain ⟨rfl, h⟩ := h
      exact .cons name h ih

/-! ### Canonical texts of parts -/

/-- The members in the order of their names. -/
def byName (members : List (String × Json)) : List (String × Json) :=
  members.mergeSort (fun a b => decide (a.1 ≤ b.1))

/-- The canonical text of a member. -/
def memberText (member : String × Json) : List Char :=
  stringText member.1 ++ ':' :: canonical member.2

theorem canonical_null : canonical .null = ['n', 'u', 'l', 'l'] := by
  simp [canonical, scalarText]

theorem canonical_bool (b : Bool) : canonical (.bool b) =
    if b then ['t', 'r', 'u', 'e'] else ['f', 'a', 'l', 's', 'e'] := by
  cases b <;> simp [canonical, scalarText]

theorem canonical_number (n : Number) : canonical (.number n) = n.text.toList := by
  simp [canonical, scalarText]

theorem canonical_string (s : String) : canonical (.string s) = stringText s := by
  simp [canonical, scalarText]

theorem canonicalItems_eq_map (items : List Json) : canonicalItems items = items.map canonical := by
  induction items with
  | nil => rfl
  | cons item rest ih => rw [canonicalItems, ih, List.map_cons]

theorem canonicalMembers_eq_map (members : List (String × Json)) :
    canonicalMembers members = members.map fun member => (member.1, canonical member.2) := by
  induction members with
  | nil => rfl
  | cons member rest ih => rw [canonicalMembers, ih, List.map_cons]

theorem canonical_array (items : List Json) :
    canonical (.array items) = '[' :: (commaSeparated (items.map canonical) ++ [']']) := by
  rw [canonical, arrayText, canonicalItems_eq_map]
  rfl

theorem canonical_object (members : List (String × Json)) :
    canonical (.object members) =
      '\x7b' :: (commaSeparated ((byName members).map memberText) ++ ['\x7d']) := by
  have hsort : sortMembers (canonicalMembers members) =
      (byName members).map fun member => (member.1, canonical member.2) := by
    rw [canonicalMembers_eq_map, sortMembers, byName, List.map_mergeSort]
    exact fun _ _ _ _ => rfl
  rw [canonical, objectText, hsort, List.map_map]
  rfl

/-- The types of values. -/
inductive Kind
  | null
  | bool
  | number
  | string
  | array
  | object

/-- The type of a value. -/
def kind : Json → Kind
  | .null => .null
  | .bool _ => .bool
  | .number _ => .number
  | .string _ => .string
  | .array _ => .array
  | .object _ => .object

/-- The type of the values whose texts begin with the character, if there are any. -/
def Kind.ofFirst? (c : Char) : Option Kind :=
  if Binary64.isPart c then some .number
  else match c with
    | 'n' => some .null
    | 't' => some .bool
    | 'f' => some .bool
    | '"' => some .string
    | '[' => some .array
    | '\x7b' => some .object
    | _ => none

/-- The first character of a canonical text tells the type. -/
theorem exists_canonical (v : Json) :
    ∃ c cs, canonical v = c :: cs ∧ Kind.ofFirst? c = some v.kind := by
  cases v with
  | null => exact ⟨'n', _, canonical_null, rfl⟩
  | bool b => cases b with
    | true => exact ⟨'t', _, canonical_bool true, rfl⟩
    | false => exact ⟨'f', _, canonical_bool false, rfl⟩
  | number n =>
    obtain ⟨hne, hparts⟩ := n.text_parts
    obtain ⟨c, cs, hcs⟩ := List.exists_cons_of_ne_nil hne
    refine ⟨c, cs, (canonical_number n).trans hcs, if_pos (hparts c ?_)⟩
    rw [hcs]
    exact List.mem_cons_self
  | string s => exact ⟨'"', _, canonical_string s, rfl⟩
  | array items => exact ⟨'[', _, canonical_array items, rfl⟩
  | object members => exact ⟨'\x7b', _, canonical_object members, rfl⟩

theorem kind_eq_of_append_eq {v w : Json} {rest other : List Char}
    (h : canonical v ++ rest = canonical w ++ other) : v.kind = w.kind := by
  obtain ⟨c, cs, hcs, hc⟩ := exists_canonical v
  obtain ⟨d, ds, hds, hd⟩ := exists_canonical w
  rw [hcs, hds] at h
  obtain rfl := (List.cons.inj h).1
  exact Option.some.inj (hc.symm.trans hd)

/-! ### A text tells the value -/

/-- A text with a part at its front tells the part, up to the relation, and where it ends. -/
def Readable {α : Type} (text : α → List Char) (R : α → α → Prop) (x : α) : Prop :=
  ∀ y rest other, Number.Ends rest → Number.Ends other → text x ++ rest = text y ++ other →
    R x y ∧ rest = other

theorem cons_commaSeparated {α : Type} (text : α → List Char) (x : α) (xs : List α) :
    ',' :: commaSeparated ((x :: xs).map text) = (x :: xs).flatMap fun x => ',' :: text x := by
  induction xs generalizing x with
  | nil => simp [commaSeparated]
  | cons y ys ih =>
    have hsplit : commaSeparated ((x :: y :: ys).map text) =
        text x ++ ',' :: commaSeparated ((y :: ys).map text) := rfl
    rw [hsplit, ih]
    rfl

section Separated

variable {α : Type} {text : α → List Char} {R : α → α → Prop} {close : Char}
  (hends : Binary64.isPart close = false) {xs : List α} (hread : ∀ x ∈ xs, Readable text R x)
include hends hread

theorem flatMap_append_inj (hcomma : close ≠ ',') {ys : List α} {rest other : List Char}
    (h : xs.flatMap (fun x => ',' :: text x) ++ close :: rest =
      ys.flatMap (fun y => ',' :: text y) ++ close :: other) :
    List.Forall₂ R xs ys ∧ rest = other := by
  -- behind a part stands a comma or the closing mark, and no number goes on with either
  have hmark : ∀ (zs : List α) (cs : List Char),
      Number.Ends (zs.flatMap (fun z => ',' :: text z) ++ close :: cs) := by
    intro zs cs c hc
    cases zs with
    | nil => cases hc; exact hends
    | cons z zs => cases hc; rfl
  induction xs generalizing ys with
  | nil => cases ys with
    | nil => exact ⟨.nil, (List.cons.inj h).2⟩
    | cons y ys => exact absurd (List.cons.inj h).1 hcomma
  | cons x xs ih => cases ys with
    | nil => exact absurd (List.cons.inj h).1.symm hcomma
    | cons y ys =>
      obtain ⟨hx, hxs⟩ := List.forall_mem_cons.1 hread
      simp only [List.flatMap_cons, List.cons_append, List.append_assoc, List.cons.injEq,
        true_and] at h
      obtain ⟨hxy, htail⟩ := hx y _ _ (hmark xs rest) (hmark ys other) h
      obtain ⟨hrest, heq⟩ := ih hxs htail
      exact ⟨.cons hxy hrest, heq⟩

theorem commaSeparated_append_inj (hcomma : close ≠ ',')
    (hopen : ∀ y, ∃ c cs, text y = c :: cs ∧ c ≠ close) {ys : List α} {rest other : List Char}
    (h : commaSeparated (xs.map text) ++ close :: rest =
      commaSeparated (ys.map text) ++ close :: other) :
    List.Forall₂ R xs ys ∧ rest = other := by
  have hfirst : ∀ (z : α) (zs : List α) (cs ds : List Char),
      commaSeparated ((z :: zs).map text) ++ cs ≠ close :: ds := by
    intro z zs cs ds h
    obtain ⟨c, text', htext, hc⟩ := hopen z
    cases zs <;>
    · simp only [List.map_cons, List.map_nil, commaSeparated, htext, List.cons_append,
        List.cons.injEq] at h
      exact hc h.1
  cases xs with
  | nil => cases ys with
    | nil => exact ⟨.nil, (List.cons.inj h).2⟩
    | cons y ys => exact absurd h.symm (hfirst y ys _ _)
  | cons x xs => cases ys with
    | nil => exact absurd h (hfirst x xs _ _)
    | cons y ys =>
      refine flatMap_append_inj hends hread hcomma ?_
      rw [← cons_commaSeparated, ← cons_commaSeparated, List.cons_append, List.cons_append, h]

end Separated

theorem readable_memberText {member : String × Json} (h : Readable canonical Alike member.2) :
    Readable memberText AlikeMember member := by
  intro member' rest other hrest hother heq
  simp only [memberText, List.append_assoc, List.cons_append] at heq
  obtain ⟨hname, hvalue⟩ := stringText_append_inj heq
  obtain ⟨halike, htail⟩ := h _ rest other hrest hother (List.cons.inj hvalue).2
  exact ⟨⟨hname, halike⟩, htail⟩

theorem ofFirst?_ne_close {v : Json} {close : Char} (hclose : Kind.ofFirst? close = none) :
    ∃ c cs, canonical v = c :: cs ∧ c ≠ close := by
  obtain ⟨c, cs, hcs, hc⟩ := exists_canonical v
  refine ⟨c, cs, hcs, ?_⟩
  rintro rfl
  exact Option.some_ne_none _ (hc.symm.trans hclose)

theorem readable_array {items : List Json} (ih : ∀ item ∈ items, Readable canonical Alike item) :
    Readable canonical Alike (.array items) := by
  intro w rest other _ _ h
  cases w with
  | array others =>
    simp only [canonical_array, List.cons_append, List.append_assoc, List.cons.injEq, true_and] at h
    obtain ⟨hitems, htail⟩ :=
      commaSeparated_append_inj rfl ih (by decide) (fun _ => ofFirst?_ne_close rfl) h
    exact ⟨.array ((alikeItems_iff _ _).2 hitems), htail⟩
  | _ => cases kind_eq_of_append_eq h

theorem readable_object {members : List (String × Json)}
    (ih : ∀ member ∈ members, Readable canonical Alike member.2) :
    Readable canonical Alike (.object members) := by
  intro w rest other _ _ h
  cases w with
  | object others =>
    simp only [canonical_object, List.cons_append, List.append_assoc, List.cons.injEq,
      true_and] at h
    have hread : ∀ member ∈ byName members, Readable memberText AlikeMember member :=
      fun member hmember => readable_memberText (ih member (List.mem_mergeSort.1 hmember))
    obtain ⟨hmembers, htail⟩ := commaSeparated_append_inj rfl hread (by decide)
      (fun _ => ⟨'"', _, rfl, by decide⟩) h
    -- the order of the members on the left is carried over to the right
    obtain ⟨arranged, harranged, hperm⟩ :=
      List.perm_comp_forall₂ (List.mergeSort_perm _ _).symm hmembers
    exact ⟨.object ((alikeMembers_iff _ _).2 harranged)
      (hperm.trans (List.mergeSort_perm _ _)), htail⟩
  | _ => cases kind_eq_of_append_eq h

/-- A canonical text at the front of a text tells the value, up to the order of members, and where
it ends. -/
theorem readable_canonical (v : Json) : Readable canonical Alike v := by
  induction v using induct with
  | null =>
    intro w rest other _ _ h
    cases w with
    | null => exact ⟨.null, List.append_cancel_left h⟩
    | _ => cases kind_eq_of_append_eq h
  | bool b =>
    intro w rest other _ _ h
    cases w with
    | bool b' =>
      rw [canonical_bool, canonical_bool] at h
      cases b <;> cases b'
      · exact ⟨.bool _, List.append_cancel_left h⟩
      · cases (List.cons.inj h).1
      · cases (List.cons.inj h).1
      · exact ⟨.bool _, List.append_cancel_left h⟩
    | _ => cases kind_eq_of_append_eq h
  | number n =>
    intro w rest other hrest hother h
    cases w with
    | number n' =>
      rw [canonical_number, canonical_number] at h
      obtain ⟨htext, htail⟩ := Number.text_append_inj hrest hother h
      exact ⟨.number htext, htail⟩
    | _ => cases kind_eq_of_append_eq h
  | string s =>
    intro w rest other _ _ h
    cases w with
    | string s' =>
      rw [canonical_string, canonical_string] at h
      obtain ⟨rfl, htail⟩ := stringText_append_inj h
      exact ⟨.string s, htail⟩
    | _ => cases kind_eq_of_append_eq h
  | array items ih => exact readable_array ih
  | object members ih => exact readable_object ih

/-! ### The order of members does not show -/

theorem itemsWellFormed_iff (items : List Json) :
    ItemsWellFormed items ↔ ∀ item ∈ items, item.WellFormed := by
  induction items with
  | nil => simp [ItemsWellFormed]
  | cons item rest ih => rw [ItemsWellFormed, ih, List.forall_mem_cons]

theorem membersWellFormed_iff (members : List (String × Json)) :
    MembersWellFormed members ↔ ∀ member ∈ members, member.2.WellFormed := by
  induction members with
  | nil => simp [MembersWellFormed]
  | cons member rest ih => rw [MembersWellFormed, ih, List.forall_mem_cons]

theorem wellFormed_array (items : List Json) :
    WellFormed (.array items) ↔ ∀ item ∈ items, item.WellFormed := by
  rw [WellFormed, itemsWellFormed_iff]

theorem wellFormed_object (members : List (String × Json)) : WellFormed (.object members) ↔
    (members.map Prod.fst).Nodup ∧ ∀ member ∈ members, member.2.WellFormed := by
  rw [WellFormed, membersWellFormed_iff]

/-- Sorting by name forgets the order, where no name occurs twice. -/
theorem sortMembers_eq_of_perm {members others : List (String × List Char)}
    (hperm : members.Perm others) (hnodup : (others.map Prod.fst).Nodup) :
    sortMembers members = sortMembers others := by
  have hsorted : ∀ list : List (String × List Char),
      (sortMembers list).Pairwise fun a b => decide (a.1 ≤ b.1) = true :=
    List.pairwise_mergeSort
      (fun a b c hab hbc => by
        rw [decide_eq_true_eq] at *
        exact String.le_trans hab hbc)
      (fun a b => by
        rw [Bool.or_eq_true, decide_eq_true_eq, decide_eq_true_eq]
        exact String.le_total a.1 b.1)
  have hsort : (sortMembers members).Perm (sortMembers others) :=
    (List.mergeSort_perm _ _).trans (hperm.trans (List.mergeSort_perm _ _).symm)
  refine List.Perm.eq_of_pairwise (fun a b ha hb hab hba => ?_) (hsorted _) (hsorted _) hsort
  rw [decide_eq_true_eq] at hab hba
  have ha' : a ∈ others := hperm.mem_iff.1 (List.mem_mergeSort.1 ha)
  exact List.inj_on_of_nodup_map hnodup ha' (List.mem_mergeSort.1 hb) (String.le_antisymm hab hba)

theorem map_eq_map_of_forall₂ {α β : Type} {R : α → α → Prop} {f : α → β} {xs ys : List α}
    (h : List.Forall₂ R xs ys) (hf : ∀ x ∈ xs, ∀ y ∈ ys, R x y → f x = f y) :
    xs.map f = ys.map f := by
  induction h with
  | nil => rfl
  | @cons x y xs ys hxy _ ih =>
    rw [List.map_cons, List.map_cons, hf x List.mem_cons_self y List.mem_cons_self hxy,
      ih fun x hx y hy => hf x (List.mem_cons_of_mem _ hx) y (List.mem_cons_of_mem _ hy)]

/-- Values that differ in the order of members only have one canonical text. -/
theorem Alike.canonical_eq {v w : Json} (h : Alike v w) (hw : w.WellFormed) :
    canonical v = canonical w := by
  induction v using induct generalizing w with
  | null => cases h; rfl
  | bool b => cases h; rfl
  | number n => cases h with | number h => rw [canonical_number, canonical_number, h]
  | string s => cases h; rfl
  | array items ih =>
    cases h with
    | array h =>
      rw [wellFormed_array] at hw
      rw [canonical_array, canonical_array, map_eq_map_of_forall₂ ((alikeItems_iff _ _).1 h)
        fun item hitem other hother halike => ih item hitem halike (hw other hother)]
  | object members ih =>
    cases h with
    | @object _ arranged others h hperm =>
      obtain ⟨hnodup, hvalues⟩ := (wellFormed_object _).1 hw
      have htexts : members.map (fun member => (member.1, canonical member.2)) =
          arranged.map fun member => (member.1, canonical member.2) :=
        map_eq_map_of_forall₂ ((alikeMembers_iff _ _).1 h)
          fun member hmember other hother halike => by
            rw [halike.1, ih member hmember halike.2 (hvalues other (hperm.mem_iff.1 hother))]
      have hnames : ((others.map fun member => (member.1, canonical member.2)).map
          Prod.fst).Nodup := by
        rwa [List.map_map]
      rw [canonical, canonical, canonicalMembers_eq_map, canonicalMembers_eq_map, htexts,
        sortMembers_eq_of_perm (hperm.map _) hnames]

theorem Alike.canonicalText_eq {v w : Json} (h : Alike v w) (hw : w.WellFormed) :
    canonicalText v = canonicalText w := by
  rw [canonicalText, canonicalText, h.canonical_eq hw]

theorem alike_of_canonicalText_eq {v w : Json} (h : canonicalText v = canonicalText w) :
    Alike v w := by
  have hchars : canonical v ++ [] = canonical w ++ [] := by
    rw [List.append_nil, List.append_nil]
    exact String.ofList_injective h
  exact (readable_canonical v w [] [] nofun nofun hchars).1

/-- Two values have one canonical text exactly if they are the same up to the order of members. It
is enough that one of them has no name twice in an object. -/
theorem canonicalText_eq_iff (v w : Json) (hw : w.WellFormed) :
    canonicalText v = canonicalText w ↔ Alike v w :=
  ⟨alike_of_canonicalText_eq, fun h => h.canonicalText_eq hw⟩

/-- Inside an array the order of members does not show either, and names may look like the marks
between members; but a string of digits shows where a number stood. -/
theorem canonicalText_eq_reordered :
    WellFormed (.object [("b", .array [.object [("\",\"", .bool true), (":", .null)]]),
        ("a", .null)]) ∧
      canonicalText (.object [("a", .null),
          ("b", .array [.object [(":", .null), ("\",\"", .bool true)]])]) =
        canonicalText (.object [("b", .array [.object [("\",\"", .bool true), (":", .null)]]),
          ("a", .null)]) ∧
      canonicalText (.string "1") ≠ canonicalText (.number (.whole 1)) := by
  have hw : WellFormed (.object [("b", .array [.object [("\",\"", .bool true), (":", .null)]]),
      ("a", .null)]) := by
    simp [WellFormed, MembersWellFormed, ItemsWellFormed]
  have hnumber : WellFormed (.number (.whole 1)) := by simp [WellFormed]
  refine ⟨hw, (canonicalText_eq_iff _ _ hw).2 ?_,
    fun h => nomatch (canonicalText_eq_iff _ _ hnumber).1 h⟩
  exact .object
    (.cons "a" .null (.cons "b" (.array (.cons
      (.object (.cons ":" .null (.cons "\",\"" (.bool true) .nil)) (.swap _ _ _)) .nil)) .nil))
    (.swap _ _ _)

end HopQuery.Json
