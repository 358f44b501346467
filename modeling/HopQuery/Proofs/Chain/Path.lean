import HopQuery.Chain.Basic
import Mathlib.Data.List.Chain

/-!
# Types along a path

How the types of a path come about one from another.

* `Path.head?_typeNames_resolve`: the first type is the kind of the first hop;
* `Path.isChain_typeNames_resolve`: each later one is what the rules tell for a kind after the type
  before it.
-/

namespace HopQuery.Path

theorem typeNames_resolve_cons (rules : Rules) (hop : Hop) (hops : List Hop) :
    (resolve rules (hop :: hops)).typeNames =
      hop.kind :: (resolveAfter rules hop.kind hops).map Segment.typeName := rfl

theorem head?_typeNames_resolve (rules : Rules) (hops : List Hop) :
    (resolve rules hops).typeNames.head? = hops.head?.map Hop.kind := by
  cases hops <;> rfl

theorem isChain_resolveAfter (rules : Rules) (previous : String) (hops : List Hop) :
    (previous :: (resolveAfter rules previous hops).map Segment.typeName).IsChain
      fun outer inner => ∃ hop ∈ hops, inner = rules.resolve outer hop.kind := by
  induction hops generalizing previous with
  | nil => exact .singleton previous
  | cons hop hops ih =>
    rw [resolveAfter, List.map_cons, List.isChain_cons_cons]
    refine ⟨⟨hop, List.mem_cons_self, rfl⟩, (ih _).imp ?_⟩
    rintro outer inner ⟨hop', hmem, heq⟩
    exact ⟨hop', List.mem_cons_of_mem _ hmem, heq⟩

theorem isChain_typeNames_resolve (rules : Rules) (hops : List Hop) :
    (resolve rules hops).typeNames.IsChain
      fun outer inner => ∃ hop ∈ hops, inner = rules.resolve outer hop.kind := by
  cases hops with
  | nil => exact .nil
  | cons hop hops =>
    rw [typeNames_resolve_cons]
    refine (isChain_resolveAfter rules hop.kind hops).imp ?_
    rintro outer inner ⟨hop', hmem, heq⟩
    exact ⟨hop', List.mem_cons_of_mem _ hmem, heq⟩

end HopQuery.Path
