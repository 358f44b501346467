import HopQuery.Proofs.Chain.Rearranging
import HopQuery.Selection.Query

/-!
# What a chain holds after a run

A chain is determined, hop by hop, by the changes that were made: its hops are those whose last
appending no removal has followed, and the choices of a hop are what the changes since then have
made of the lists of the catalog.

* `Chain.made`: the changes of a run that were not refused;
* `Stay`, `stays`: the hops that are there after changes, each with the changes since it came;
* `stays_concat`, `stays_append_of_not_moves`: how more changes show in the stays;
* `Consists.edits_made`: the stages of a chain are those of the stays;
* `edits_determined`: the chain after a run, and what does not matter for it.
-/

namespace HopQuery

/-- The changes of a run that are made. -/
def Chain.made (chain : Chain) : List Edit → List Edit
  | [] => []
  | e :: es =>
    match chain.edit? e with
    | .ok next => e :: next.made es
    | .error _ => chain.made es

/-! ### Looking back over changes -/

/-- A hop that is there, the entry of its kind in the catalog from which it was appended, and the
changes since. -/
structure Stay where
  hop : Hop
  entity : Entity
  since : List Edit

namespace Edit

/-- Whether the change appends or removes the hop. -/
def moves (id : HopId) : Edit → Bool
  | append _ _ other => other = id
  | remove other => other = id
  | toggleField _ _ | setFilter _ _ _ => false

/-- Whether the change flips the field of the hop. -/
def toggles (id : HopId) (field : String) : Edit → Bool
  | toggleField other name => other = id ∧ name = field
  | append _ _ _ | remove _ | setFilter _ _ _ => false

/-- The value that the change gives to the filter of the hop. -/
def value? (id : HopId) (filter : String) : Edit → Option String
  | setFilter other name value => if other = id ∧ name = filter then some value else none
  | append _ _ _ | remove _ | toggleField _ _ => none

/-- The stay that the change begins, with the changes since. -/
def stay? (e : Edit) (since : List Edit) : Option Stay :=
  match e with
  | append catalog kind id =>
    (catalog.entity kind).toOption.map fun entity => ⟨⟨id, kind⟩, entity, since⟩
  | remove _ | toggleField _ _ | setFilter _ _ _ => none

end Edit

/-- The hops that are there after the changes, in the order of the changes that appended them: a
hop is there if no later change appends or removes it. -/
def stays : List Edit → List Stay
  | [] => []
  | e :: es =>
    if es.any (·.moves e.hop) then stays es else (e.stay? es).toList ++ stays es

namespace Stay

/-- A field is included if it has been flipped an even number of times. -/
def includes (s : Stay) (field : String) : Bool :=
  s.since.countP (·.toggles s.hop.id field) % 2 = 0

/-- A filter has the value that it was given last, and none at first. -/
def value (s : Stay) (filter : String) : String :=
  (s.since.filterMap (·.value? s.hop.id filter)).getLast?.getD ""

/-- The stage that the changes since have made of the lists of the catalog. -/
def stage (s : Stay) : Stage where
  hop := s.hop
  selection := ⟨s.entity.fields.map fun field => (field, s.includes field)⟩
  values := ⟨s.entity.filters.map fun filter => (filter, s.value filter)⟩

/-- The stay with one more change since. -/
def concat (s : Stay) (e : Edit) : Stay :=
  { s with since := s.since ++ [e] }

/-- The stay after one more change, unless the change ends it. -/
def extend (s : Stay) (e : Edit) : Option Stay :=
  if e.moves s.hop.id then none else some (s.concat e)

@[simp] theorem hop_concat (s : Stay) (e : Edit) : (s.concat e).hop = s.hop := rfl

theorem includes_concat (s : Stay) (e : Edit) (field : String) :
    (s.concat e).includes field =
      if e.toggles s.hop.id field then !s.includes field else s.includes field := by
  have hparity : ∀ n : Nat, decide ((n + 1) % 2 = 0) = !decide (n % 2 = 0) := by
    intro n
    rw [← decide_not, decide_eq_decide]
    omega
  unfold includes
  rw [concat, List.countP_append, List.countP_singleton]
  split
  · exact hparity _
  · rfl

theorem value_concat (s : Stay) (e : Edit) (filter : String) :
    (s.concat e).value filter = (e.value? s.hop.id filter).getD (s.value filter) := by
  unfold value
  rw [concat, List.filterMap_append]
  cases h : e.value? s.hop.id filter <;> simp [h]

/-- The stage of a longer stay. -/
theorem stage_concat (s : Stay) (e : Edit) : (s.concat e).stage =
    { hop := s.hop
      selection := ⟨s.entity.fields.map fun field =>
        (field, if e.toggles s.hop.id field then !s.includes field else s.includes field)⟩
      values := ⟨s.entity.filters.map fun filter =>
        (filter, (e.value? s.hop.id filter).getD (s.value filter))⟩ } := by
  simp only [← includes_concat, ← value_concat]
  rfl

theorem stage_concat_of_ne (s : Stay) {e : Edit} (h : e.hop ≠ s.hop.id) :
    (s.concat e).stage = s.stage := by
  have htoggles : ∀ field, e.toggles s.hop.id field = false := by
    intro field
    cases e <;> simp_all [Edit.toggles, Edit.hop]
  have hvalue : ∀ filter, e.value? s.hop.id filter = none := by
    intro filter
    cases e <;> simp_all [Edit.value?, Edit.hop]
  simp [stage_concat, htoggles, hvalue]
  rfl

theorem stage_concat_toggleField (s : Stay) (field : String) :
    (s.concat (.toggleField s.hop.id field)).stage = s.stage.flip field := by
  have hselection : s.stage.selection.flip field = ⟨s.entity.fields.map fun name =>
      (name, if name = field then !s.includes name else s.includes name)⟩ := by
    rw [FieldSelection.mk.injEq, FieldSelection.flip_entries, stage, List.map_map]
    rfl
  rw [stage_concat, Stage.flip, hselection]
  simp [Edit.toggles, Edit.value?, stage, eq_comm]

theorem stage_concat_setFilter (s : Stay) (filter value : String) :
    (s.concat (.setFilter s.hop.id filter value)).stage = s.stage.assign filter value := by
  have hvalues : s.stage.values.assign filter value = ⟨s.entity.filters.map fun name =>
      (name, if name = filter then value else s.value name)⟩ := by
    rw [FilterValues.mk.injEq, FilterValues.assign_entries, stage, List.map_map]
    rfl
  rw [stage_concat, Stage.assign, hvalues]
  have hgiven : ∀ name, ((Edit.setFilter s.hop.id filter value).value? s.hop.id name).getD
      (s.value name) = if name = filter then value else s.value name := by
    intro name
    by_cases h : name = filter <;> simp [Edit.value?, h, Ne.symm]
  simp only [hgiven]
  rfl

/-- What one more change makes of the stage of a stay, if it does not append the hop again. -/
theorem map_stage_extend (s : Stay) {e : Edit} (h : e.isAppend = true → e.hop ≠ s.hop.id) :
    (s.extend e).map stage = e.onStage s.stage := by
  by_cases hid : s.stage.id = e.hop
  · cases e with
    | append catalog kind id => exact absurd hid.symm (h rfl)
    | remove id =>
      have hmoves : (Edit.remove id).moves s.hop.id = true := decide_eq_true (Eq.symm hid)
      rw [Edit.onStage, if_pos hid, extend, if_pos hmoves]
      rfl
    | toggleField id field =>
      rw [Edit.onStage, if_pos hid, ← stage_concat_toggleField, ← show s.hop.id = id from hid]
      rfl
    | setFilter id filter value =>
      rw [Edit.onStage, if_pos hid, ← stage_concat_setFilter, ← show s.hop.id = id from hid]
      rfl
  · have hne : e.hop ≠ s.hop.id := Ne.symm hid
    have hmoves : e.moves s.hop.id = false := by cases e <;> simp_all [Edit.moves, Edit.hop]
    rw [extend, hmoves, Edit.onStage_of_ne hid, ← stage_concat_of_ne s hne]
    rfl

end Stay

namespace Edit

theorem hop_of_stay? {e : Edit} {since : List Edit} {s : Stay} (h : e.stay? since = some s) :
    s.hop.id = e.hop := by
  cases e with
  | append catalog kind id =>
    obtain ⟨entity, -, rfl⟩ := Option.map_eq_some_iff.1 h
    rfl
  | _ => cases h

/-- A change that leaves the hop where it is lengthens the stay. -/
theorem stay?_concat {e last : Edit} (h : last.moves e.hop = false) (since : List Edit) :
    (e.stay? since).bind (·.extend last) = e.stay? (since ++ [last]) := by
  cases e with
  | append catalog kind id =>
    cases hentity : catalog.entity kind with
    | error _ => simp [stay?, hentity, Except.toOption]
    | ok entity =>
      have hmoves : last.moves id = false := h
      simp [stay?, hentity, Except.toOption, Stay.extend, Stay.concat, hmoves]
  | _ => rfl

end Edit

/-- One more change lengthens the stays that it does not end, and may begin one. -/
theorem stays_concat (es : List Edit) (last : Edit) :
    stays (es ++ [last]) = (stays es).filterMap (·.extend last) ++ (last.stay? []).toList := by
  induction es with
  | nil => simp [stays]
  | cons e es ih =>
    by_cases hany : es.any (·.moves e.hop) = true
    · simp [stays, hany, ih]
    · rw [Bool.not_eq_true] at hany
      cases hlast : last.moves e.hop with
      | true =>
        -- the stay that `e` began ends here
        have hended : (e.stay? es).toList.filterMap (·.extend last) = [] := by
          cases hs : e.stay? es with
          | none => rfl
          | some s => simp [Stay.extend, Edit.hop_of_stay? hs, hlast]
        simp [stays, hany, hlast, ih, hended]
      | false =>
        have hlonger : (e.stay? es).toList.filterMap (·.extend last) =
            (e.stay? (es ++ [last])).toList := by
          rw [← Edit.stay?_concat hlast]
          cases e.stay? es with
          | none => rfl
          | some s => cases hs : s.extend last <;> simp [hs]
        simp [stays, hany, hlast, ih, hlonger]

/-- Changes of choices lengthen all stays. -/
theorem stays_append_of_not_moves (es : List Edit) {later : List Edit}
    (h : ∀ e ∈ later, ∀ id, e.moves id = false) :
    stays (es ++ later) = (stays es).map fun s => { s with since := s.since ++ later } := by
  induction later generalizing es with
  | nil => simp
  | cons e later ih =>
    obtain ⟨he, hlater⟩ := List.forall_mem_cons.1 h
    have hstay : e.stay? [] = none := by
      cases e with
      | append catalog kind id => simpa [Edit.moves] using he id
      | _ => rfl
    have hextend : ∀ s : Stay, s.extend e = some (s.concat e) := fun s => by
      rw [Stay.extend, he]
      rfl
    rw [List.append_cons, ih _ hlater, stays_concat, hstay]
    simp [hextend, Stay.concat, Function.comp_def]

/-- Where the changes of a stay stand: behind the appending that began it, which found the entry of
the stay in its catalog. -/
theorem exists_eq_append_of_mem_stays {es : List Edit} {s : Stay} (h : s ∈ stays es) :
    ∃ before catalog, es = before ++ .append catalog s.hop.kind s.hop.id :: s.since ∧
      catalog.entity s.hop.kind = .ok s.entity := by
  induction es with
  | nil => cases h
  | cons e es ih =>
    have hbegun : s ∈ (e.stay? es).toList → ∃ catalog, e = .append catalog s.hop.kind s.hop.id ∧
        s.since = es ∧ catalog.entity s.hop.kind = .ok s.entity := by
      intro hs
      cases e with
      | append catalog kind id =>
        cases hentity : catalog.entity kind <;>
          simp_all [Edit.stay?, Except.toOption]
      | _ => cases hs
    have hlater : s ∈ stays es → ∃ before catalog,
        e :: es = before ++ .append catalog s.hop.kind s.hop.id :: s.since ∧
          catalog.entity s.hop.kind = .ok s.entity := fun hs => by
      obtain ⟨before, catalog, hes, hentity⟩ := ih hs
      exact ⟨e :: before, catalog, congrArg (e :: ·) hes, hentity⟩
    rw [stays] at h
    split at h
    · exact hlater h
    · rcases List.mem_append.1 h with hs | hs
      · obtain ⟨catalog, rfl, rfl, hentity⟩ := hbegun hs
        exact ⟨[], catalog, rfl, hentity⟩
      · exact hlater hs

/-- None of the changes of a stay appends or removes the hop. -/
theorem not_moves_of_mem_stays {es : List Edit} {s : Stay} (h : s ∈ stays es) :
    ∀ e ∈ s.since, e.moves s.hop.id = false := by
  induction es with
  | nil => cases h
  | cons e es ih =>
    rw [stays] at h
    split at h
    · exact ih h
    · next hany =>
      rcases List.mem_append.1 h with hs | hs
      · have hsince : s.since = es := by
          cases e with
          | append catalog kind id =>
            obtain ⟨entity, -, rfl⟩ := Option.map_eq_some_iff.1 (Option.mem_toList.1 hs)
            rfl
          | _ => cases hs
        rw [hsince, Edit.hop_of_stay? (Option.mem_toList.1 hs)]
        simpa using hany
      · exact ih hs

/-- The entry of a stay is the one that the catalog of its appending had for the kind. -/
theorem exists_append_of_mem_stays {es : List Edit} {s : Stay} (h : s ∈ stays es) :
    ∃ catalog, .append catalog s.hop.kind s.hop.id ∈ es ∧
      catalog.entity s.hop.kind = .ok s.entity := by
  obtain ⟨before, catalog, hes, hentity⟩ := exists_eq_append_of_mem_stays h
  exact ⟨catalog, hes ▸ List.mem_append_right _ List.mem_cons_self, hentity⟩

namespace Chain

/-- A change that is made on the stages of stays gives the stages of the stays after it. -/
theorem onStages_map_stage {chain next : Chain} {es : List Edit}
    (h : chain.Consists ((stays es).map Stay.stage)) {e : Edit}
    (hnext : chain.edit? e = .ok next) :
    e.onStages ((stays es).map Stay.stage) = (stays (es ++ [e])).map Stay.stage := by
  -- a hop is appended only if it is not there
  have happend : e.isAppend = true → e.hop ∉ ((stays es).map Stay.stage).map Stage.id := by
    intro happend
    cases e with
    | append catalog kind id =>
      rw [← h.ids_eq]
      exact ((append_eq_ok_iff ..).1 hnext).1
    | _ => cases happend
  have hkept : ((stays es).filterMap (·.extend e)).map Stay.stage =
      ((stays es).map Stay.stage).filterMap e.onStage := by
    rw [List.map_filterMap, List.filterMap_map]
    refine List.filterMap_congr fun s hs => Stay.map_stage_extend s fun he heq => happend he ?_
    rw [heq]
    exact List.mem_map_of_mem (f := Stage.id) (List.mem_map_of_mem hs)
  rw [stays_concat, List.map_append, hkept, Edit.onStages]
  congr 1
  cases e with
  | append catalog kind id =>
    rw [if_neg (happend rfl)]
    cases hentity : catalog.entity kind with
    | error _ => simp [Edit.newStage?, Edit.stay?, hentity, Except.toOption]
    | ok entity =>
      simp [Edit.newStage?, Edit.stay?, hentity, Except.toOption, Stay.stage, Stay.includes,
        Stay.value, Stage.begin, FieldSelection.allIncluded, FilterValues.blank]
  | _ => exact ite_self _

/-- After a run the stages of the chain are those of the stays of the changes that were made. -/
theorem Consists.edits_made {chain : Chain} {log : List Edit}
    (h : chain.Consists ((stays log).map Stay.stage)) (es : List Edit) :
    (chain.edits es).Consists ((stays (log ++ chain.made es)).map Stay.stage) := by
  induction es generalizing chain log with
  | nil => simpa [made, Chain.edits] using h
  | cons e es ih =>
    rw [edits_cons]
    cases hedit : chain.edit? e with
    | error error => simpa [made, Chain.edit, hedit] using ih h
    | ok next =>
      have hnext := h.of_edit? hedit
      rw [onStages_map_stage h hedit] at hnext
      simpa [made, Chain.edit, hedit] using ih hnext

/-- The chain after a run from the chain without hops, hop by hop: the hops are those whose last
appending no removal has followed, in the order of these appendings; the fields of a hop are those
that the catalog has for its kind, each included if it was flipped an even number of times since;
its filters are those of the catalog, each with the value that it was given last since, if any.
So a chain without a hop is as if the hop had never been addressed, and independent changes may
change places. -/
theorem edits_determined (es : List Edit) :
    let chain := Chain.empty.edits es
    let there := stays (Chain.empty.made es)
    (chain.hops = there.map Stay.hop ∧ chain.fields.keys = chain.ids ∧
      chain.filters.keys = chain.ids ∧
      ∀ s ∈ there,
        (∃ catalog, .append catalog s.hop.kind s.hop.id ∈ Chain.empty.made es ∧
          catalog.entity s.hop.kind = .ok s.entity) ∧
        chain.fields.get? s.hop.id =
          some ⟨s.entity.fields.map fun field => (field, s.includes field)⟩ ∧
        chain.filters.get? s.hop.id =
          some ⟨s.entity.filters.map fun filter => (filter, s.value filter)⟩) ∧
    (∀ id, Chain.empty.edits (es ++ [.remove id]) = Chain.empty.edits (es.filter (·.hop ≠ id))) ∧
    ∀ fs, Edit.Rearranged es fs → Chain.empty.edits fs = chain ∧
      ∀ rules, Query.compileWithPath (Chain.empty.edits fs) rules =
        Query.compileWithPath chain rules := by
  intro chain there
  have hempty : Chain.empty.Consists ((stays []).map Stay.stage) := Consists.empty
  have h : chain.Consists (there.map Stay.stage) := hempty.edits_made es
  refine ⟨⟨?_, ?_, ?_, ?_⟩, edits_concat_remove es, ?_⟩
  · rw [h.hops_eq, List.map_map]
    rfl
  · exact h.map_fst_fields.trans h.ids_eq.symm
  · exact h.map_fst_filters.trans h.ids_eq.symm
  · intro s hs
    have hstage : s.stage ∈ there.map Stay.stage := List.mem_map_of_mem hs
    exact ⟨exists_append_of_mem_stays hs, h.get?_fields hstage, h.get?_filters hstage⟩
  · intro fs hfs
    have heq : Chain.empty.edits fs = chain := (edits_eq_of_rearranged hfs).symm
    exact ⟨heq, fun rules => by rw [heq]⟩

/-- A hop is removed and appended again as another kind, between changes of its choices and of those
of another hop, one of them refused. -/
def reappending (a b : HopId) : List Edit :=
  [.append .school "schools" a, .append .school "students" b, .toggleField a "id",
    .setFilter b "id" "7", .remove a, .append .school "groups" a, .toggleField a "name",
    .toggleField a "userName", .setFilter b "id" "8"]

theorem edits_determined_reappending :
    let a : HopId := ⟨0⟩
    let b : HopId := ⟨1⟩
    let chain := Chain.empty.edits (reappending a b)
    chain.hops = [⟨b, "students"⟩, ⟨a, "groups"⟩] ∧
      chain.fields.get? a = some ⟨[("id", true), ("name", false)]⟩ ∧
      (chain.filters.get? b).map FilterValues.active = some [("id", "8")] := by
  intro a b chain
  obtain ⟨⟨hhops, -, -, hthere⟩, -⟩ := edits_determined (reappending a b)
  have ha : ∃ s ∈ stays (Chain.empty.made (reappending a b)), s.hop.id = a ∧
      s.entity.fields.map (fun field => (field, s.includes field)) =
        [("id", true), ("name", false)] := by decide +kernel
  have hb : ∃ s ∈ stays (Chain.empty.made (reappending a b)), s.hop.id = b ∧
      FilterValues.active ⟨s.entity.filters.map fun filter => (filter, s.value filter)⟩ =
        [("id", "8")] := by decide +kernel
  obtain ⟨s, hs, hsa, hfields⟩ := ha
  obtain ⟨t, ht, htb, hfilters⟩ := hb
  obtain ⟨-, hselection, -⟩ := hthere s hs
  obtain ⟨-, -, hvalues⟩ := hthere t ht
  refine ⟨hhops.trans (by decide +kernel), ?_, ?_⟩
  · rw [← hsa, hselection, hfields]
  · rw [← htb, hvalues, Option.map_some, hfilters]

end Chain

end HopQuery
