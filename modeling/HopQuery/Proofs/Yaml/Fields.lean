import HopQuery.Yaml.Decode

/-!
# The fields of a document

A reading can run out of aliases to follow; apart from that its result depends on the node alone.
So what a record holds after all pairs of a mapping can be told from the pairs: if a key sets a
part of the record, once, then the part is what the value of that key gives.

* `Decoding.Gives`: the reading has the result, if enough aliases may be followed;
* `Decoding.Single`, with `follow_single`, `text_single`, `count_single`, `mode_single`,
  `optional_single`, `pairs_single`: there is one result at most;
* `Decoding.Sets`: the key sets the part of a record;
* `Document.HasField`: the document gives the value to the key;
* `Decoding.Sets.part_eq_some_iff`, `Decoding.Sets.part_of_hasField`: the part of a record that
  was read, by the fields of the document.
-/

namespace HopQuery.Yaml

variable {α β : Type} {anchored : List (Nat × Node)}

namespace Decoding

/-! ### Results -/

/-- The reading gives the result, if enough aliases may be followed. -/
def Gives (anchored : List (Nat × Node)) (reading : Decoding α) (result : α) : Prop :=
  ∃ left rest, reading anchored left = some (result, rest)

theorem gives_pure_iff (a b : α) : Gives anchored (pure a) b ↔ b = a := by
  constructor
  · rintro ⟨left, rest, h⟩
    cases h
    rfl
  · rintro rfl
    exact ⟨0, 0, rfl⟩

theorem not_gives_fail (a : α) : ¬ Gives anchored fail a := by
  rintro ⟨left, rest, h⟩
  cases h

theorem gives_bind {reading : Decoding α} {next : α → Decoding β} {b : β}
    (h : Gives anchored (reading >>= next) b) :
    ∃ a, Gives anchored reading a ∧ Gives anchored (next a) b := by
  obtain ⟨left, rest, h⟩ := h
  obtain ⟨⟨a, between⟩, ha, hb⟩ := Option.bind_eq_some_iff.1 h
  exact ⟨a, ⟨left, between, ha⟩, between, rest, hb⟩

/-- A part that may come once and is then put into a record: it has not come before, and what is
read is put in. -/
theorem gives_once_bind {present : Option α} {reading : Decoding α} {put : Option α → β}
    {result : β}
    (h : Gives anchored (once present reading >>= fun part => pure (put part)) result) :
    present = none ∧ ∃ a, Gives anchored reading a ∧ result = put (some a) := by
  obtain ⟨part, hpart, hresult⟩ := gives_bind h
  cases (gives_pure_iff ..).1 hresult
  cases present with
  | some earlier => exact absurd hpart (not_gives_fail _)
  | none =>
    rw [once, map_eq_pure_bind] at hpart
    obtain ⟨a, ha, hpart⟩ := gives_bind hpart
    cases (gives_pure_iff ..).1 hpart
    exact ⟨rfl, a, ha, rfl⟩

/-! ### One result at most -/

/-- However many aliases may be followed, the reading gives one result at most. -/
def Single (reading : Decoding α) : Prop :=
  ∀ anchored a b, Gives anchored reading a → Gives anchored reading b → a = b

theorem single_pure (a : α) : Single (pure a) := by
  intro anchored b c hb hc
  rw [(gives_pure_iff ..).1 hb, (gives_pure_iff ..).1 hc]

theorem single_fail : Single (fail : Decoding α) :=
  fun _ _ _ hb => absurd hb (not_gives_fail _)

theorem single_ofOption (value : Option α) : Single (ofOption value) := by
  cases value with
  | none => exact single_fail
  | some a => exact single_pure a

theorem Single.bind {reading : Decoding α} {next : α → Decoding β} (h : Single reading)
    (hnext : ∀ a, Single (next a)) : Single (reading >>= next) := by
  intro anchored b b' hb hb'
  obtain ⟨a, ha, hb⟩ := gives_bind hb
  obtain ⟨a', ha', hb'⟩ := gives_bind hb'
  cases h anchored a a' ha ha'
  exact hnext a anchored b b' hb hb'

/-- An alias is followed to the node that is listed for it. -/
theorem gives_follow_alias {anchor : Nat} {target : Node}
    (h : Gives anchored (follow (.alias anchor)) target) :
    anchored.lookup anchor = some target := by
  obtain ⟨left, rest, h⟩ := h
  simp only [follow] at h
  split at h
  · next hlookup =>
    cases h
    exact hlookup
  · cases h

theorem follow_single : ∀ node : Node, Single (follow node)
  | .alias _ => fun _ _ _ ha hb =>
    Option.some.inj ((gives_follow_alias ha).symm.trans (gives_follow_alias hb))
  | .void => single_pure _
  | .scalar .. => single_pure _
  | .sequence .. => single_pure _
  | .mapping .. => single_pure _

theorem text_single (node : Node) : Single (text node) := by
  refine (follow_single node).bind fun target => ?_
  split
  · exact single_pure _
  · exact single_fail

theorem count_single (node : Node) : Single (count node) := by
  refine (follow_single node).bind fun target => ?_
  split
  · split
    · exact single_ofOption _
    · exact single_fail
  · exact single_fail

theorem mode_single (node : Node) : Single (mode node) := by
  refine (follow_single node).bind fun target => ?_
  split
  · split
    · split
      · exact single_ofOption _
      · exact single_fail
    · exact single_ofOption _
  · exact single_fail

theorem optional_single {value : Node → Decoding α} (h : ∀ node, Single (value node))
    (node : Node) : Single (optional value node) := by
  have hsome (target : Node) : Single (value target >>= fun a => pure (some a)) :=
    (h target).bind fun a => single_pure _
  refine (follow_single node).bind fun target => ?_
  split
  · exact single_pure _
  · split
    · split
      · exact single_pure _
      · exact hsome _
    · split
      · exact hsome _
      · split
        · exact single_pure _
        · exact single_fail
  · exact hsome _

theorem pairs_single (node : Node) : Single (pairs node) := by
  refine (follow_single node).bind fun target => ?_
  split
  · exact single_pure _
  · split
    · exact single_pure _
    · exact single_fail

/-! ### Parts of a record -/

section

variable {field : α → String → Node → Decoding α} {gathered last : α} {pairs : List (Node × Node)}

/-- Reads the pairs of a mapping into the record, as `record` does. -/
def gather (field : α → String → Node → Decoding α) (gathered : α) (pairs : List (Node × Node)) :
    Decoding α :=
  pairs.foldlM (fun gathered (key, value) => do
    let name ← text key
    field gathered name value) gathered

theorem gives_gather_cons {pair : Node × Node}
    (h : Gives anchored (gather field gathered (pair :: pairs)) last) :
    ∃ name next, Gives anchored (text pair.1) name ∧
      Gives anchored (field gathered name pair.2) next ∧
      Gives anchored (gather field next pairs) last := by
  rw [gather, List.foldlM_cons] at h
  obtain ⟨next, hnext, hlast⟩ := gives_bind h
  obtain ⟨name, hname, hnext⟩ := gives_bind hnext
  exact ⟨name, next, hname, hnext, hlast⟩

end

/-- The key sets the part of a record, once, to what the reading of the value gives, and no other
key changes it. -/
structure Sets (field : α → String → Node → Decoding α) (key : String) (part : α → Option β)
    (reading : Node → Decoding β) : Prop where
  own : ∀ anchored gathered value next, Gives anchored (field gathered key value) next →
    part gathered = none ∧ ∃ b, Gives anchored (reading value) b ∧ part next = some b
  other : ∀ anchored gathered name value next, name ≠ key →
    Gives anchored (field gathered name value) next → part next = part gathered

namespace Sets

variable {field : α → String → Node → Decoding α} {key : String} {part : α → Option β}
  {reading : Node → Decoding β} {gathered last : α} {pairs : List (Node × Node)}

/-- A part that is put into the record once it has been read, by the key alone. -/
theorem of_once {put : α → Option β → α}
    (hfield : ∀ gathered value, field gathered key value =
      once (part gathered) (reading value) >>= fun read => pure (put gathered read))
    (hput : ∀ gathered read, part (put gathered read) = read)
    (hother : ∀ anchored gathered name value next, name ≠ key →
      Gives anchored (field gathered name value) next → part next = part gathered) :
    Sets field key part reading where
  own anchored gathered value next h := by
    rw [hfield] at h
    obtain ⟨hnone, b, hb, rfl⟩ := gives_once_bind h
    exact ⟨hnone, b, hb, hput gathered (some b)⟩
  other := hother

/-- What a part has been set to stays. -/
theorem part_gather_of_some (hsets : Sets field key part reading) {b : β}
    (hpart : part gathered = some b) (h : Gives anchored (gather field gathered pairs) last) :
    part last = some b := by
  induction pairs generalizing gathered with
  | nil =>
    rw [(gives_pure_iff ..).1 h]
    exact hpart
  | cons pair rest ih =>
    obtain ⟨name, next, -, hnext, hlast⟩ := gives_gather_cons h
    refine ih ?_ hlast
    by_cases hname : name = key
    · -- the key would come a second time
      subst hname
      obtain ⟨hnone, -⟩ := hsets.own anchored gathered pair.2 next hnext
      rw [hpart] at hnone
      cases hnone
    · rw [hsets.other anchored gathered name pair.2 next hname hnext]
      exact hpart

/-- A pair of the key sets the part. -/
theorem part_gather_of_mem (hsets : Sets field key part reading)
    (h : Gives anchored (gather field gathered pairs) last) {name value : Node}
    (hmem : (name, value) ∈ pairs) (hkey : Gives anchored (text name) key) :
    ∃ b, Gives anchored (reading value) b ∧ part last = some b := by
  induction pairs generalizing gathered with
  | nil => cases hmem
  | cons pair rest ih =>
    obtain ⟨name', next, hname', hnext, hlast⟩ := gives_gather_cons h
    rcases List.mem_cons.1 hmem with rfl | hmem
    · cases text_single name anchored name' key hname' hkey
      obtain ⟨-, b, hb, hpart⟩ := hsets.own anchored gathered value next hnext
      exact ⟨b, hb, hsets.part_gather_of_some hpart hlast⟩
    · exact ih hlast hmem

/-- Only a pair of the key sets the part. -/
theorem mem_of_part_gather (hsets : Sets field key part reading)
    (h : Gives anchored (gather field gathered pairs) last) {b : β} (hpart : part last = some b) :
    part gathered = some b ∨ ∃ name value, (name, value) ∈ pairs ∧
      Gives anchored (text name) key ∧ Gives anchored (reading value) b := by
  induction pairs generalizing gathered with
  | nil =>
    rw [(gives_pure_iff ..).1 h] at hpart
    exact .inl hpart
  | cons pair rest ih =>
    obtain ⟨name, next, hname, hnext, hlast⟩ := gives_gather_cons h
    -- either the part was set before the rest of the pairs, or one of them sets it
    rcases ih hlast with hpart' | ⟨name', value, hmem, hgives⟩
    · by_cases hkey : name = key
      · subst hkey
        obtain ⟨-, b', hb', hnext⟩ := hsets.own anchored gathered pair.2 next hnext
        rw [hnext] at hpart'
        cases hpart'
        exact .inr ⟨pair.1, pair.2, List.mem_cons_self, hname, hb'⟩
      · rw [hsets.other anchored gathered name pair.2 next hkey hnext] at hpart'
        exact .inl hpart'
    · exact .inr ⟨name', value, List.mem_cons_of_mem _ hmem, hgives⟩

end Sets

end Decoding

/-! ### Fields of a document -/

namespace Document

/-- In the document the reading gives the result. -/
def Gives (document : Document) (reading : Decoding α) (result : α) : Prop :=
  Decoding.Gives document.anchored reading result

/-- The document is a mapping in which the value stands under the key. -/
def HasField (document : Document) (key : String) (value : Node) : Prop :=
  ∃ pairs name, document.Gives (Decoding.pairs document.root) pairs ∧ (name, value) ∈ pairs ∧
    document.Gives (Decoding.text name) key

theorem gives_of_decode? {document : Document} {reading : Node → Decoding α} {result : α}
    (h : document.decode? reading = some result) :
    document.Gives (reading document.root) result := by
  obtain ⟨⟨result, rest⟩, hrun, rfl⟩ := Option.map_eq_some_iff.1 h
  exact ⟨_, rest, hrun⟩

end Document

namespace Decoding.Sets

variable {field : α → String → Node → Decoding α} {key : String} {part : α → Option β}
  {reading : Node → Decoding β} {document : Document} {start last : α}

theorem exists_gather (h : document.Gives (record start field document.root) last) :
    ∃ pairs, document.Gives (Decoding.pairs document.root) pairs ∧
      document.Gives (gather field start pairs) last :=
  gives_bind h

/-- The value of a field is read, and the part of the record is what it gives. -/
theorem part_of_hasField (hsets : Sets field key part reading)
    (h : document.Gives (record start field document.root) last) {value : Node}
    (hfield : document.HasField key value) :
    ∃ b, document.Gives (reading value) b ∧ part last = some b := by
  obtain ⟨pairs, hpairs, hlast⟩ := exists_gather h
  obtain ⟨pairs', name, hpairs', hmem, hkey⟩ := hfield
  cases pairs_single document.root document.anchored pairs pairs' hpairs hpairs'
  exact hsets.part_gather_of_mem hlast hmem hkey

/-- The part of a record that was read is what a field of the document gives. -/
theorem part_eq_some_iff (hsets : Sets field key part reading) (hstart : part start = none)
    (hsingle : ∀ value, Single (reading value))
    (h : document.Gives (record start field document.root) last) (b : β) :
    part last = some b ↔
      ∃ value, document.HasField key value ∧ document.Gives (reading value) b := by
  constructor
  · intro hpart
    obtain ⟨pairs, hpairs, hlast⟩ := exists_gather h
    rcases hsets.mem_of_part_gather hlast hpart with hset | ⟨name, value, hmem, hkey, hb⟩
    · rw [hstart] at hset
      cases hset
    · exact ⟨value, ⟨pairs, name, hpairs, hmem, hkey⟩, hb⟩
  · rintro ⟨value, hfield, hb⟩
    obtain ⟨b', hb', hpart⟩ := hsets.part_of_hasField h hfield
    rw [hpart, hsingle value document.anchored b b' hb hb']

end Decoding.Sets

end HopQuery.Yaml
