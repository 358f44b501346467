import HopQuery.Proofs.Chain.Consistency
import Mathlib.Data.List.Nodup

/-!
# What a change of hops does to the types of the others

The type of a hop depends on its kind and on the type before it, and on nothing else. So a change
of hops leaves the types before it alone, and what it does to those behind it ends at the first type
that comes out as before.

* `Path.typeBehind`, `Path.resolveBehind`, with `resolve_eq`: one rule for all hops of a path;
* `Rejoin`: two rows of segments that go on together once they have a type in common;
* `Path.rejoin_resolveBehind`: the segments of the same hops behind different types;
* `Path.resolve_rejoins`: the paths before and after a change of hops.
-/

namespace HopQuery

/-- Two rows of segments for the same hops which are the same from any place on where their types
are the same. -/
structure Rejoin (row row' : List Segment) : Prop where
  hops_eq : row.map Segment.hop = row'.map Segment.hop
  drop_eq : ∀ place, row[place]?.map Segment.typeName = row'[place]?.map Segment.typeName →
    row.drop place = row'.drop place

namespace Path

/-! ### One rule for all hops -/

/-- The type of a kind behind another type, or at the start of a path. -/
def typeBehind (rules : Rules) : Option String → String → String
  | none, kind => kind
  | some previous, kind => rules.resolve previous kind

/-- The segments of hops behind a type, or at the start of a path. -/
def resolveBehind (rules : Rules) (previous : Option String) : List Hop → List Segment
  | [] => []
  | hop :: rest =>
    let typeName := typeBehind rules previous hop.kind
    ⟨hop.id, typeName⟩ :: resolveBehind rules (some typeName) rest

theorem resolveAfter_eq (rules : Rules) (previous : String) (hops : List Hop) :
    resolveAfter rules previous hops = resolveBehind rules (some previous) hops := by
  induction hops generalizing previous with
  | nil => rfl
  | cons hop rest ih => rw [resolveAfter, resolveBehind, ih, typeBehind]

theorem resolve_eq (rules : Rules) (hops : List Hop) :
    resolve rules hops = ⟨resolveBehind rules none hops⟩ := by
  cases hops with
  | nil => rfl
  | cons hop rest => rw [resolve, resolveBehind, resolveAfter_eq, typeBehind]

theorem map_hop_resolveBehind (rules : Rules) (previous : Option String) (hops : List Hop) :
    (resolveBehind rules previous hops).map Segment.hop = hops.map Hop.id := by
  induction hops generalizing previous with
  | nil => rfl
  | cons hop rest ih => rw [resolveBehind, List.map_cons, List.map_cons, ih]

/-- Further hops come behind the type that the hops lead to, and change nothing before it. -/
theorem exists_resolveBehind_append (rules : Rules) (previous : Option String) (hops : List Hop) :
    ∃ last, ∀ more, resolveBehind rules previous (hops ++ more) =
      resolveBehind rules previous hops ++ resolveBehind rules last more := by
  induction hops generalizing previous with
  | nil => exact ⟨previous, fun more => rfl⟩
  | cons hop rest ih =>
    obtain ⟨last, hlast⟩ := ih (some (typeBehind rules previous hop.kind))
    refine ⟨last, fun more => ?_⟩
    rw [List.cons_append, resolveBehind, hlast, resolveBehind, List.cons_append]

/-! ### Behind different types -/

/-- Whatever the same hops stand behind, they go on alike once they have a type in common. -/
theorem rejoin_resolveBehind (rules : Rules) (previous previous' : Option String)
    (hops : List Hop) :
    Rejoin (resolveBehind rules previous hops) (resolveBehind rules previous' hops) where
  hops_eq := by rw [map_hop_resolveBehind, map_hop_resolveBehind]
  drop_eq := by
    induction hops generalizing previous previous' with
    | nil => exact fun _ _ => rfl
    | cons hop rest ih =>
      intro place htype
      cases place with
      | zero =>
        -- the rest depends on this type only
        have hsame : typeBehind rules previous hop.kind = typeBehind rules previous' hop.kind :=
          Option.some.inj htype
        rw [resolveBehind, resolveBehind, hsame]
      | succ place => exact ih _ _ place htype

/-- Hops that are replaced by others leave the segments before them as they are, and those behind
them rejoin. -/
theorem exists_resolve_replaced (rules : Rules) (before inner inner' after : List Hop) :
    ∃ front mid mid' back back' : List Segment,
      (resolve rules (before ++ inner ++ after)).segments = front ++ mid ++ back ∧
      (resolve rules (before ++ inner' ++ after)).segments = front ++ mid' ++ back' ∧
      front.map Segment.hop = before.map Hop.id ∧ mid.map Segment.hop = inner.map Hop.id ∧
      mid'.map Segment.hop = inner'.map Hop.id ∧ back.map Segment.hop = after.map Hop.id ∧
      Rejoin back back' := by
  obtain ⟨last, hbefore⟩ := exists_resolveBehind_append rules none before
  obtain ⟨reached, hinner⟩ := exists_resolveBehind_append rules last inner
  obtain ⟨reached', hinner'⟩ := exists_resolveBehind_append rules last inner'
  refine ⟨resolveBehind rules none before, resolveBehind rules last inner,
    resolveBehind rules last inner', resolveBehind rules reached after,
    resolveBehind rules reached' after, ?_, ?_, map_hop_resolveBehind .., map_hop_resolveBehind ..,
    map_hop_resolveBehind .., map_hop_resolveBehind .., rejoin_resolveBehind ..⟩
  · rw [resolve_eq, List.append_assoc, hbefore, hinner, List.append_assoc]
  · rw [resolve_eq, List.append_assoc, hbefore, hinner', List.append_assoc]

end Path

/-! ### Chains -/

/-- Where identifiers are different, removing one takes one hop out. -/
theorem Chain.Consistent.exists_hops_of_remove {chain next : Chain} (h : chain.Consistent)
    {id : HopId} (hnext : chain.remove id = .ok next) : ∃ before kind after,
      chain.hops = before ++ ⟨id, kind⟩ :: after ∧ next.hops = before ++ after := by
  obtain ⟨hid, rfl⟩ := (remove_eq_ok_iff ..).1 hnext
  obtain ⟨⟨id', kind⟩, hhop, hsame⟩ := List.mem_map.1 hid
  obtain rfl : id = id' := hsame.symm
  obtain ⟨before, after, heq⟩ := List.append_of_mem hhop
  refine ⟨before, kind, after, heq, ?_⟩
  have hnodup := h.nodup_ids
  rw [ids, heq, List.map_append, List.map_cons, List.nodup_middle, List.nodup_cons,
    ← List.map_append] at hnodup
  have hothers : ∀ hop ∈ before ++ after, hop.id ≠ id := fun hop hmem hsame =>
    hnodup.1 (List.mem_map.2 ⟨hop, hmem, hsame⟩)
  show chain.hops.filter (·.id ≠ id) = _
  rw [heq, List.filter_append, List.filter_cons_of_neg (by simp), ← List.filter_append]
  exact List.filter_eq_self.2 fun hop hmem => decide_eq_true (hothers hop hmem)

/-- A path has one segment per hop, in the order of the hops and under their identifiers. Wherever
hops are replaced by others, the segments of those before them stay as they are; the hops behind
them may get other types, but only up to the first one whose type comes out as before. So a hop that
is added at the end leaves all types as they are, and a hop that is removed leaves those before
it. -/
theorem Path.resolve_rejoins (rules : Rules) :
    (∀ hops, (resolve rules hops).segments.map Segment.hop = hops.map Hop.id) ∧
    (∀ before inner inner' after : List Hop, ∃ front mid mid' back back' : List Segment,
      (resolve rules (before ++ inner ++ after)).segments = front ++ mid ++ back ∧
      (resolve rules (before ++ inner' ++ after)).segments = front ++ mid' ++ back' ∧
      front.map Segment.hop = before.map Hop.id ∧ mid.map Segment.hop = inner.map Hop.id ∧
      mid'.map Segment.hop = inner'.map Hop.id ∧ back.map Segment.hop = after.map Hop.id ∧
      Rejoin back back') ∧
    (∀ (es : List Edit) (catalog : Catalog) (kind : String) (id : HopId) (next : Chain),
      (Chain.empty.edits es).append catalog kind id = .ok next → ∃ typeName,
        (next.path rules).segments =
          ((Chain.empty.edits es).path rules).segments ++ [⟨id, typeName⟩]) ∧
    ∀ (es : List Edit) (id : HopId) (next : Chain),
      (Chain.empty.edits es).remove id = .ok next → ∃ front typeName back back',
        ((Chain.empty.edits es).path rules).segments = front ++ ⟨id, typeName⟩ :: back ∧
        (next.path rules).segments = front ++ back' ∧ Rejoin back back' := by
  refine ⟨fun hops => ?_, exists_resolve_replaced rules, ?_, ?_⟩
  · rw [resolve_eq, map_hop_resolveBehind]
  · intro es catalog kind id next hnext
    obtain ⟨-, entity, -, rfl⟩ := (Chain.append_eq_ok_iff ..).1 hnext
    obtain ⟨last, hlast⟩ :=
      exists_resolveBehind_append rules none (Chain.empty.edits es).hops
    refine ⟨typeBehind rules last kind, ?_⟩
    rw [Chain.path, Chain.path, resolve_eq, resolve_eq, hlast]
    rfl
  · intro es id next hnext
    obtain ⟨before, kind, after, hhops, hhops'⟩ :=
      (Chain.Consistent.empty.edits es).exists_hops_of_remove hnext
    obtain ⟨front, mid, mid', back, back', hpath, hpath', -, hmid, hmid', -, hrejoin⟩ :=
      exists_resolve_replaced rules before [⟨id, kind⟩] [] after
    obtain rfl : mid' = [] := List.map_eq_nil_iff.1 hmid'
    obtain ⟨⟨_, typeName⟩, rfl, rfl⟩ : ∃ segment, mid = [segment] ∧ segment.hop = id := by
      simpa [List.map_eq_singleton_iff] using hmid
    refine ⟨front, typeName, back, back', ?_, ?_, hrejoin⟩
    · rw [Chain.path, hhops]
      simpa using hpath
    · rw [Chain.path, hhops']
      simpa using hpath'

/-- A school of a group, with its pupils and their teachers. -/
def groupEdits : List Edit :=
  [.append .school "groups" ⟨1⟩, .append .school "schools" ⟨2⟩, .append .school "students" ⟨3⟩,
    .append .school "teachers" ⟨4⟩]

/-- Without the group the school and the pupils get the types of their kinds; the teachers have
that type in any case. -/
theorem Path.resolve_rejoins_groups :
    let rules := Rules.school.insert "school" "students" "pupils"
    let chain := Chain.empty.edits groupEdits
    ∃ next, chain.remove ⟨1⟩ = .ok next ∧
      (chain.path rules).typeNames = ["groups", "school", "pupils", "teachers"] ∧
      (next.path rules).typeNames = ["schools", "students", "teachers"] ∧
      ∃ front typeName back back', (chain.path rules).segments = front ++ ⟨⟨1⟩, typeName⟩ :: back ∧
        (next.path rules).segments = front ++ back' ∧ Rejoin back back' := by
  intro rules chain
  have hremove : chain.remove ⟨1⟩ = .ok
      ⟨chain.hops.filter (·.id ≠ ⟨1⟩), chain.fields.erase ⟨1⟩, chain.filters.erase ⟨1⟩⟩ := by
    decide +kernel
  exact ⟨_, hremove, by decide +kernel, by decide +kernel,
    (resolve_rejoins rules).2.2.2 groupEdits ⟨1⟩ _ hremove⟩

end HopQuery
