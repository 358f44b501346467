import HopQuery.Json.Value

/-!
# Induction on JSON values

* `Json.induct`: what holds of an array if it holds of its items, and of an object if it holds of
  the values of its members, holds of every value;
* `Json.eqb`, with `eqb_iff`: equality of values can be decided.
-/

namespace HopQuery.Json

/-- Induction on a value by its parts. -/
@[elab_as_elim]
theorem induct {motive : Json → Prop} (null : motive .null) (bool : ∀ b, motive (.bool b))
    (number : ∀ n, motive (.number n)) (string : ∀ s, motive (.string s))
    (array : ∀ items, (∀ item ∈ items, motive item) → motive (.array items))
    (object : ∀ members, (∀ member ∈ members, motive member.2) → motive (.object members))
    (value : Json) : motive value :=
  @Json.rec motive (fun items => ∀ item ∈ items, motive item)
    (fun members => ∀ member ∈ members, motive member.2) (fun member => motive member.2)
    null bool number string array object
    (fun _ h => nomatch h) (fun _ _ hitem hrest => List.forall_mem_cons.2 ⟨hitem, hrest⟩)
    (fun _ h => nomatch h) (fun _ _ hmember hrest => List.forall_mem_cons.2 ⟨hmember, hrest⟩)
    (fun _ _ hvalue => hvalue) value

/-! ### Equality -/

mutual

/-- Whether two values are one value. -/
def eqb : Json → Json → Bool
  | .null, .null => true
  | .bool a, .bool b => a == b
  | .number a, .number b => a == b
  | .string a, .string b => a == b
  | .array a, .array b => eqbItems a b
  | .object a, .object b => eqbMembers a b
  | _, _ => false

/-- Whether two lists have the same items. -/
def eqbItems : List Json → List Json → Bool
  | [], [] => true
  | a :: restA, b :: restB => eqb a b && eqbItems restA restB
  | _, _ => false

/-- Whether two lists have the same members. -/
def eqbMembers : List (String × Json) → List (String × Json) → Bool
  | [], [] => true
  | (nameA, a) :: restA, (nameB, b) :: restB => nameA == nameB && eqb a b && eqbMembers restA restB
  | _, _ => false

end

theorem eqb_iff (v w : Json) : eqb v w = true ↔ v = w := by
  induction v using induct generalizing w with
  | null => cases w <;> simp [eqb]
  | bool b => cases w <;> simp [eqb]
  | number n => cases w <;> simp [eqb]
  | string s => cases w <;> simp [eqb]
  | array items ih =>
    have hitems : ∀ others, eqbItems items others = true ↔ items = others := by
      induction items with
      | nil => intro others; cases others <;> simp [eqbItems]
      | cons item rest ihrest =>
        obtain ⟨hitem, hrest⟩ := List.forall_mem_cons.1 ih
        intro others
        cases others <;> simp [eqbItems, hitem, ihrest hrest]
    cases w <;> simp [eqb, hitems]
  | object members ih =>
    have hmembers : ∀ others, eqbMembers members others = true ↔ members = others := by
      induction members with
      | nil => intro others; cases others <;> simp [eqbMembers]
      | cons member rest ihrest =>
        obtain ⟨hmember, hrest⟩ := List.forall_mem_cons.1 ih
        intro others
        cases others with
        | nil => simp [eqbMembers]
        | cons other others => simp [eqbMembers, Prod.ext_iff, hmember, ihrest hrest]
    cases w <;> simp [eqb, hmembers]

instance : DecidableEq Json := fun v w => decidable_of_iff _ (eqb_iff v w)

end HopQuery.Json
