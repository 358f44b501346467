import HopQuery.Proofs.Chain.Stage

/-!
# Rearranging changes

A change looks at one stage of the chain only, so changes that touch different things may be made
in either order, and what was done to a hop is gone with the hop.

* `Edit.Independent`: two changes of different hops, not both appending one, or two settings of
  different choices of one hop;
* `Edit.onStages_comm`: on a row of stages such changes commute;
* `Edit.Rearranged`, `edits_eq_of_rearranged`: runs that differ by swaps of such neighbours;
* `edits_concat_remove`: without a hop, a chain is the one that never had the hop.
-/

namespace HopQuery

/-! ### Choices -/

theorem FieldSelection.flip_comm (selection : FieldSelection) (field other : String) :
    (selection.flip field).flip other = (selection.flip other).flip field := by
  rw [FieldSelection.mk.injEq, flip_entries, flip_entries, flip_entries, flip_entries,
    List.map_map, List.map_map]
  refine List.map_congr_left fun ⟨name, included⟩ _ => ?_
  simp only [Function.comp_apply]
  split_ifs <;> rfl

theorem FilterValues.assign_comm (values : FilterValues) {filter other : String}
    (hne : filter ≠ other) (value value' : String) :
    (values.assign filter value).assign other value' =
      (values.assign other value').assign filter value := by
  rw [FilterValues.mk.injEq, assign_entries, assign_entries, assign_entries, assign_entries,
    List.map_map, List.map_map]
  refine List.map_congr_left fun ⟨name, old⟩ _ => ?_
  by_cases h : name = filter
  · simp [h, hne]
  · simp [h]

theorem Stage.flip_comm (s : Stage) (field other : String) :
    (s.flip field).flip other = (s.flip other).flip field := by
  simp only [flip, s.selection.flip_comm]

theorem Stage.assign_comm (s : Stage) {filter other : String} (h : filter ≠ other)
    (value value' : String) :
    (s.assign filter value).assign other value' = (s.assign other value').assign filter value := by
  simp only [assign, s.values.assign_comm h]

theorem Stage.assign_flip (s : Stage) (field filter value : String) :
    (s.flip field).assign filter value = (s.assign filter value).flip field := rfl

namespace Edit

/-- Whether the change appends a hop. -/
def isAppend : Edit → Bool
  | append _ _ _ => true
  | remove _ | toggleField _ _ | setFilter _ _ _ => false

/-- Two changes of which each leaves alone what the other one looks at. -/
inductive Independent : Edit → Edit → Prop
  /-- They address different hops, and the order of the hops does not hang on them. -/
  | hops {a b : Edit} (h : a.hop ≠ b.hop) (happend : a.isAppend = false ∨ b.isAppend = false) :
      Independent a b
  | fields (id : HopId) (field other : String) :
      Independent (toggleField id field) (toggleField id other)
  | filters (id : HopId) {filter other : String} (h : filter ≠ other) (value value' : String) :
      Independent (setFilter id filter value) (setFilter id other value')
  | fieldFilter (id : HopId) (field filter value : String) :
      Independent (toggleField id field) (setFilter id filter value)
  | filterField (id : HopId) (field filter value : String) :
      Independent (setFilter id filter value) (toggleField id field)

/-- Runs of changes that come from each other by swaps of neighbours that are independent. -/
inductive Rearranged : List Edit → List Edit → Prop
  | refl (es : List Edit) : Rearranged es es
  | swap {a b : Edit} (h : Independent a b) (es : List Edit) :
      Rearranged (a :: b :: es) (b :: a :: es)
  | cons (e : Edit) {es fs : List Edit} (h : Rearranged es fs) : Rearranged (e :: es) (e :: fs)
  | trans {es fs gs : List Edit} (h : Rearranged es fs) (h' : Rearranged fs gs) : Rearranged es gs

theorem newStage?_eq_none {e : Edit} (h : e.isAppend = false) : e.newStage? = none := by
  cases e with
  | append _ _ _ => cases h
  | _ => rfl

/-! ### Two changes of a row -/

/-- A change of another hop makes nothing more of a stage. -/
theorem onStage_bind_of_ne (a : Edit) {b : Edit} {s : Stage} (h : s.id ≠ b.hop) :
    (a.onStage s).bind b.onStage = a.onStage s := by
  cases hs : a.onStage s with
  | none => rfl
  | some t => exact onStage_of_ne (id_of_onStage hs ▸ h)

theorem onStage_comm_of_ne {a b : Edit} (h : a.hop ≠ b.hop) (s : Stage) :
    (a.onStage s).bind b.onStage = (b.onStage s).bind a.onStage := by
  by_cases ha : s.id = a.hop
  · have hb : s.id ≠ b.hop := fun hb => h (ha.symm.trans hb)
    rw [onStage_bind_of_ne a hb, onStage_of_ne hb, Option.bind_some]
  · rw [onStage_bind_of_ne b ha, onStage_of_ne ha, Option.bind_some]

/-- On one stage independent changes commute. -/
theorem onStage_comm {a b : Edit} (h : Independent a b) (s : Stage) :
    (a.onStage s).bind b.onStage = (b.onStage s).bind a.onStage := by
  cases h with
  | hops hne _ => exact onStage_comm_of_ne hne s
  | fields id field other =>
    by_cases hid : s.id = id
    · simp [onStage, hop, hid, s.flip_comm]
    · simp [onStage, hop, hid]
  | filters id hne value value' =>
    by_cases hid : s.id = id
    · simp [onStage, hop, hid, s.assign_comm hne]
    · simp [onStage, hop, hid]
  | fieldFilter id field filter value =>
    by_cases hid : s.id = id
    · simp [onStage, hop, hid, s.assign_flip]
    · simp [onStage, hop, hid]
  | filterField id field filter value =>
    by_cases hid : s.id = id
    · simp [onStage, hop, hid, s.assign_flip]
    · simp [onStage, hop, hid]

/-- A change keeps the identifiers of the stages that it does not address. -/
theorem mem_ids_filterMap_iff {id : HopId} {e : Edit} (h : id ≠ e.hop) (stages : List Stage) :
    id ∈ (stages.filterMap e.onStage).map Stage.id ↔ id ∈ stages.map Stage.id := by
  simp only [List.mem_map, List.mem_filterMap]
  constructor
  · rintro ⟨t, ⟨s, hs, hst⟩, rfl⟩
    exact ⟨s, hs, (id_of_onStage hst).symm⟩
  · rintro ⟨s, hs, rfl⟩
    exact ⟨s, ⟨s, hs, onStage_of_ne h⟩, rfl⟩

/-- Of two changes on a row the second one adds nothing, and does not meet what the first adds. -/
theorem onStages_comm_of_newStage?_eq_none {a b : Edit} (hb : b.newStage? = none)
    (hne : a.hop ≠ b.hop ∨ a.newStage? = none)
    (hstage : ∀ s, (a.onStage s).bind b.onStage = (b.onStage s).bind a.onStage)
    (stages : List Stage) : b.onStages (a.onStages stages) = a.onStages (b.onStages stages) := by
  have hkept : (stages.filterMap a.onStage).filterMap b.onStage =
      (stages.filterMap b.onStage).filterMap a.onStage := by
    rw [List.filterMap_filterMap, List.filterMap_filterMap]
    exact List.filterMap_congr fun s _ => hstage s
  rw [onStages_of_newStage?_eq_none hb, onStages_of_newStage?_eq_none hb]
  rcases hne with hne | ha
  · have hnew : a.newStage?.toList.filterMap b.onStage = a.newStage?.toList := by
      cases hs : a.newStage? with
      | none => rfl
      | some s =>
        rw [Option.toList_some, List.filterMap_cons_some, List.filterMap_nil]
        exact onStage_of_ne (id_of_newStage? hs ▸ hne)
    simp only [onStages, List.filterMap_append, hkept, mem_ids_filterMap_iff hne]
    split
    · rfl
    · rw [hnew]
  · rw [onStages_of_newStage?_eq_none ha, onStages_of_newStage?_eq_none ha, hkept]

/-- Independent changes of a row commute. -/
theorem onStages_comm {a b : Edit} (h : Independent a b) (stages : List Stage) :
    b.onStages (a.onStages stages) = a.onStages (b.onStages stages) := by
  have hstage := onStage_comm h
  cases h with
  | hops hne happend =>
    rcases happend with ha | hb
    · exact (onStages_comm_of_newStage?_eq_none (newStage?_eq_none ha) (.inl hne.symm)
        (fun s => (hstage s).symm) stages).symm
    · exact onStages_comm_of_newStage?_eq_none (newStage?_eq_none hb) (.inl hne) hstage stages
  | _ => exact onStages_comm_of_newStage?_eq_none rfl (.inr rfl) hstage stages

/-- What was made of a hop is gone with it. -/
theorem remove_onStages (e : Edit) (stages : List Stage) :
    (remove e.hop).onStages (e.onStages stages) = (remove e.hop).onStages stages := by
  have hkept : (stages.filterMap e.onStage).filter (·.id ≠ e.hop) =
      stages.filter (·.id ≠ e.hop) := by
    induction stages with
    | nil => rfl
    | cons s stages ih =>
      by_cases hs : s.id = e.hop
      · -- kept or not, the stage of the hop goes away in the end
        cases ht : e.onStage s with
        | none => simpa [ht, hs] using ih
        | some t => simpa [ht, hs, id_of_onStage ht] using ih
      · simpa [onStage_of_ne hs, hs] using ih
  have hnew : e.newStage?.toList.filter (·.id ≠ e.hop) = [] := by
    cases hs : e.newStage? with
    | none => rfl
    | some s => simp [id_of_newStage? hs]
  rw [onStages_remove, onStages_remove, onStages, List.filter_append, hkept]
  split
  · rw [List.filter_nil, List.append_nil]
  · rw [hnew, List.append_nil]

/-- Without a hop, a row is what the changes of other hops make of it. -/
theorem remove_onStages_foldl (id : HopId) (es : List Edit) (stages : List Stage) :
    (remove id).onStages (es.foldl (fun row e => e.onStages row) stages) =
      (es.filter (·.hop ≠ id)).foldl (fun row e => e.onStages row)
        ((remove id).onStages stages) := by
  induction es generalizing stages with
  | nil => rfl
  | cons e es ih =>
    rw [List.foldl_cons, ih]
    by_cases h : e.hop = id
    · subst h
      rw [List.filter_cons_of_neg (by simp), remove_onStages]
    · have hindependent : Independent e (remove id) := .hops h (.inr rfl)
      rw [List.filter_cons_of_pos (by simpa using h), List.foldl_cons,
        onStages_comm hindependent]

theorem foldl_onStages_of_rearranged {es fs : List Edit} (h : Rearranged es fs)
    (stages : List Stage) : es.foldl (fun row e => e.onStages row) stages =
      fs.foldl (fun row e => e.onStages row) stages := by
  induction h generalizing stages with
  | refl es => rfl
  | swap h es => rw [List.foldl_cons, List.foldl_cons, List.foldl_cons, List.foldl_cons,
      onStages_comm h]
  | cons e h ih => exact ih _
  | trans h h' ih ih' => exact (ih stages).trans (ih' stages)

end Edit

namespace Chain

/-- A chain without a hop is as if no change had ever addressed the hop. -/
theorem edits_concat_remove (es : List Edit) (id : HopId) :
    Chain.empty.edits (es ++ [.remove id]) = Chain.empty.edits (es.filter (·.hop ≠ id)) := by
  have hleft := Consists.empty.edits (es ++ [.remove id])
  rw [List.foldl_append, List.foldl_cons, List.foldl_nil, Edit.remove_onStages_foldl] at hleft
  exact hleft.unique (Consists.empty.edits _)

/-- Swaps of neighbours that are independent do not change the chain. -/
theorem edits_eq_of_rearranged {es fs : List Edit} (h : Edit.Rearranged es fs) :
    Chain.empty.edits es = Chain.empty.edits fs := by
  have hleft := Consists.empty.edits es
  rw [Edit.foldl_onStages_of_rearranged h] at hleft
  exact hleft.unique (Consists.empty.edits fs)

end Chain

end HopQuery
