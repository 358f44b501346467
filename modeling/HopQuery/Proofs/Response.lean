import HopQuery.Proofs.Json.Induction
import HopQuery.Response

/-!
# What a body comes to

A body is read member by member into an envelope, yet what it comes to can be told from the value
of the whole text, if no name is given twice in the object.

* `Written.member?`, `Written.lookup_memberValues?`: the members of an object as written and as a
  value;
* `Envelope.foldlM_addMember?`: the envelope of an object, in one step;
* `Fetch.ofBody_of_distinct`: what a body comes to. Its data are found whatever other members there
  are, but errors that are not a list spoil them, and an array may stand for an envelope.
-/

namespace HopQuery

namespace Written

/-- The names of the members that can be read. -/
def names (members : List (List StringUnit × Written)) : List String :=
  members.filterMap fun member => text? member.1

/-- The tree of the first member of the name. -/
def member? (name : String) (members : List (List StringUnit × Written)) : Option Written :=
  (members.find? fun member => text? member.1 = some name).map Prod.snd

variable {members rest : List (List StringUnit × Written)} {units : List StringUnit}
  {tree : Written} {name other : String}

theorem member?_cons_self (h : text? units = some name) :
    member? name ((units, tree) :: rest) = some tree := by
  simp [member?, h]

theorem member?_cons_of_ne (h : text? units ≠ some name) :
    member? name ((units, tree) :: rest) = member? name rest := by
  simp [member?, h]

theorem mem_of_member? (h : member? name members = some tree) :
    ∃ units, (units, tree) ∈ members ∧ text? units = some name := by
  obtain ⟨⟨units, tree'⟩, hfind, rfl⟩ := Option.map_eq_some_iff.1 h
  exact ⟨units, List.mem_of_find?_eq_some hfind, by simpa using List.find?_some hfind⟩

theorem member?_eq_none_iff : member? name members = none ↔ name ∉ names members := by
  simp [member?, names]

/-- No name is given twice in an object. -/
def DistinctNames : Written → Prop
  | .object members => (names members).Nodup
  | .array _ | .null | .bool _ | .number _ | .string _ => True

instance : DecidablePred DistinctNames := fun tree =>
  match tree with
  | .object members => inferInstanceAs (Decidable (names members).Nodup)
  | .array _ | .null | .bool _ | .number _ | .string _ => .isTrue trivial

/-- The members of a value are the values of the members, where no name is given twice. -/
theorem lookup_memberValues? {depth : Nat} {before result : List (String × Json)}
    (h : memberValues? depth before members = some result) (hnodup : (names members).Nodup) :
    (∀ member ∈ members, (text? member.1).isSome ∧ (member.2.value? depth).isSome) ∧
      ∀ name, Table.lookup name result =
        match member? name members with
        | none => Table.lookup name before
        | some tree => tree.value? depth := by
  induction members generalizing before with
  | nil =>
    rw [memberValues?] at h
    cases h
    simp [member?]
  | cons member rest ih =>
    obtain ⟨units, tree⟩ := member
    rw [memberValues?] at h
    obtain ⟨name, hname, h⟩ := Option.bind_eq_some_iff.1 h
    obtain ⟨value, hvalue, h⟩ := Option.bind_eq_some_iff.1 h
    have hnames : names ((units, tree) :: rest) = name :: names rest := by simp [names, hname]
    rw [hnames, List.nodup_cons] at hnodup
    obtain ⟨hreadable, hlookup⟩ := ih h hnodup.2
    refine ⟨List.forall_mem_cons.2 ⟨by simp [hname, hvalue], hreadable⟩, fun other => ?_⟩
    rw [hlookup other]
    by_cases heq : name = other
    · subst heq
      rw [member?_cons_self hname, member?_eq_none_iff.2 hnodup.1]
      simp [Table.lookup_put, hvalue]
    · rw [member?_cons_of_ne (by simpa [hname] using heq)]
      simp [Table.lookup_put, heq]

end Written

namespace Envelope

open Written

/-- The items of a tree that is an array within an envelope. -/
def list? (tree : Written) : Option (List Json) :=
  match tree.value? depthLimit with
  | some (.array items) => some items
  | _ => none

/-- The data of an envelope after the members, if their value can be held. -/
def dataAfter? (envelope : Envelope) (members : List (List StringUnit × Written)) :
    Option (Option Json) :=
  match member? "data" members with
  | none => some envelope.data
  | some tree => (tree.value? depthLimit).map some

/-- The errors of an envelope after the members, if they are a list that can be held. -/
def errorsAfter? (envelope : Envelope) (members : List (List StringUnit × Written)) :
    Option (Option (List Json)) :=
  match member? "errors" members with
  | none => some envelope.errors
  | some tree => (list? tree).map some

section After

variable {envelope : Envelope} {members rest : List (List StringUnit × Written)}
  {units : List StringUnit} {tree : Written}

theorem dataAfter?_of_member? (h : member? "data" members = some tree) :
    envelope.dataAfter? members = (tree.value? depthLimit).map some := by
  rw [dataAfter?, h]

theorem dataAfter?_of_not_mem (h : "data" ∉ names members) :
    envelope.dataAfter? members = some envelope.data := by
  rw [dataAfter?, member?_eq_none_iff.2 h]

theorem errorsAfter?_of_member? (h : member? "errors" members = some tree) :
    envelope.errorsAfter? members = (list? tree).map some := by
  rw [errorsAfter?, h]

theorem errorsAfter?_of_not_mem (h : "errors" ∉ names members) :
    envelope.errorsAfter? members = some envelope.errors := by
  rw [errorsAfter?, member?_eq_none_iff.2 h]

theorem dataAfter?_cons_of_ne (h : text? units ≠ some "data") :
    envelope.dataAfter? ((units, tree) :: rest) = envelope.dataAfter? rest := by
  rw [dataAfter?, member?_cons_of_ne h, dataAfter?]

theorem errorsAfter?_cons_of_ne (h : text? units ≠ some "errors") :
    envelope.errorsAfter? ((units, tree) :: rest) = envelope.errorsAfter? rest := by
  rw [errorsAfter?, member?_cons_of_ne h, errorsAfter?]

end After

theorem addData?_of_none {envelope : Envelope} (tree : Written) (hnone : envelope.data = none) :
    envelope.addData? tree =
      (tree.value? depthLimit).map fun data => { envelope with data := some data } := by
  rw [addData?, hnone]
  cases tree.value? depthLimit <;> rfl

theorem addErrors?_of_none {envelope : Envelope} (tree : Written)
    (hnone : envelope.errors = none) : envelope.addErrors? tree =
      (list? tree).map fun errors => { envelope with errors := some errors } := by
  rw [addErrors?, list?, hnone]
  cases tree.value? depthLimit with
  | none => rfl
  | some value => cases value <;> rfl

theorem addMember?_data (envelope : Envelope) {units : List StringUnit} (tree : Written)
    (h : text? units = some "data") :
    envelope.addMember? (units, tree) = envelope.addData? tree := by
  rw [addMember?, h]
  rfl

theorem addMember?_errors (envelope : Envelope) {units : List StringUnit} (tree : Written)
    (h : text? units = some "errors") :
    envelope.addMember? (units, tree) = envelope.addErrors? tree := by
  rw [addMember?, h]
  rfl

theorem addMember?_other {envelope : Envelope} {units : List StringUnit} {name : String}
    (tree : Written) (h : text? units = some name) (hdata : name ≠ "data")
    (herrors : name ≠ "errors") : envelope.addMember? (units, tree) = some envelope := by
  simp [addMember?, h]

/-- Where no name is given twice, the members of an object make an envelope if all the names can
be read and the data and the errors, if there are any, can be held. -/
theorem foldlM_addMember? (members : List (List StringUnit × Written))
    (hnodup : (names members).Nodup) (envelope : Envelope)
    (hdata : "data" ∈ names members → envelope.data = none)
    (herrors : "errors" ∈ names members → envelope.errors = none) :
    members.foldlM addMember? envelope =
      if members.all fun member => (text? member.1).isSome then
        (envelope.dataAfter? members).bind fun data =>
          (envelope.errorsAfter? members).map fun errors => ⟨data, errors⟩
      else none := by
  induction members generalizing envelope with
  | nil => rfl
  | cons member rest ih =>
    obtain ⟨units, tree⟩ := member
    rw [List.foldlM_cons]
    cases hname : text? units with
    | none => simp [addMember?, hname]
    | some name =>
      have hnames : names ((units, tree) :: rest) = name :: names rest := by simp [names, hname]
      rw [hnames] at hnodup hdata herrors
      obtain ⟨hnotin, hrest⟩ := List.nodup_cons.1 hnodup
      have hall : ((units, tree) :: rest).all (fun member => (text? member.1).isSome) =
          rest.all fun member => (text? member.1).isSome := by simp [hname]
      rw [hall]
      by_cases hisData : name = "data"
      · subst hisData
        have hother : text? units ≠ some "errors" := by simp [hname]
        rw [addMember?_data _ tree hname, addData?_of_none tree (hdata List.mem_cons_self),
          dataAfter?_of_member? (member?_cons_self hname), errorsAfter?_cons_of_ne hother]
        cases tree.value? depthLimit with
        | none => exact (ite_self _).symm
        | some data =>
          have hih := ih hrest { envelope with data := some data } (fun h => absurd h hnotin)
            fun h => herrors (List.mem_cons_of_mem _ h)
          rw [dataAfter?_of_not_mem hnotin] at hih
          exact hih
      have hotherData : text? units ≠ some "data" := by simpa [hname] using hisData
      by_cases hisErrors : name = "errors"
      · subst hisErrors
        rw [addMember?_errors _ tree hname, addErrors?_of_none tree (herrors List.mem_cons_self),
          dataAfter?_cons_of_ne hotherData, errorsAfter?_of_member? (member?_cons_self hname)]
        cases list? tree with
        | none =>
          simp only [Option.map_none, Option.bind_fun_none, ite_self]
          rfl
        | some errors =>
          have hih := ih hrest { envelope with errors := some errors }
            (fun h => hdata (List.mem_cons_of_mem _ h)) fun h => absurd h hnotin
          rw [errorsAfter?_of_not_mem hnotin] at hih
          exact hih
      · have hotherErrors : text? units ≠ some "errors" := by simpa [hname] using hisErrors
        rw [addMember?_other tree hname hisData hisErrors, dataAfter?_cons_of_ne hotherData,
          errorsAfter?_cons_of_ne hotherErrors]
        exact ih hrest envelope (fun h => hdata (List.mem_cons_of_mem _ h))
          fun h => herrors (List.mem_cons_of_mem _ h)

/-- An envelope has data after the members only if a member holds them. -/
theorem data_of_foldlM_addMember? {members : List (List StringUnit × Written)}
    (hnodup : (names members).Nodup) {envelope : Envelope}
    (h : members.foldlM addMember? empty = some envelope) :
    empty.dataAfter? members = some envelope.data := by
  rw [foldlM_addMember? members hnodup empty (fun _ => rfl) fun _ => rfl] at h
  split at h
  · obtain ⟨data, hdata, h⟩ := Option.bind_eq_some_iff.1 h
    obtain ⟨errors, -, rfl⟩ := Option.map_eq_some_iff.1 h
    exact hdata
  · cases h

end Envelope

namespace Written

/-- The tree is neither an array nor an object with a member `data` other than null. -/
def LacksData : Written → Prop
  | .object members => ∀ member ∈ members, text? member.1 = some "data" → member.2 = .null
  | .array _ => False
  | .null | .bool _ | .number _ | .string _ => True

/-- A tree whose value is an object is an object with the members' trees. -/
theorem exists_members_of_value? {depth : Nat} {tree : Written} {values : List (String × Json)}
    (h : tree.value? depth = some (.object values)) :
    ∃ members, tree = .object members ∧ memberValues? (depth - 1) [] members = some values := by
  cases tree with
  | object members =>
    rw [value?] at h
    split at h
    · cases h
    · obtain ⟨values', hvalues, heq⟩ := Option.map_eq_some_iff.1 h
      cases heq
      exact ⟨members, rfl, hvalues⟩
  | array items =>
    rw [value?] at h
    split at h
    · cases h
    · obtain ⟨items', -, heq⟩ := Option.map_eq_some_iff.1 h
      cases heq
  | number text =>
    obtain ⟨number, -, heq⟩ := Option.map_eq_some_iff.1 h
    cases heq
  | string units =>
    obtain ⟨text, -, heq⟩ := Option.map_eq_some_iff.1 h
    cases heq
  | null => cases h
  | bool b => cases h

end Written

namespace Fetch

open Envelope Written

theorem ofBody_of_read? {body : String} {tree : Written} (h : Written.read? body = some tree) :
    ofBody body = match ofWritten? tree with
      | none => .failed
      | some envelope => envelope.fetch := by
  show (match (Written.read? body).bind ofWritten? with
    | none => failed
    | some envelope => envelope.fetch) = _
  rw [h, Option.bind_some]

theorem fetch_eq_ready_iff (envelope : Envelope) (data : Json) :
    envelope.fetch = .ready data ↔ envelope.data = some data ∧ data ≠ .null := by
  unfold Envelope.fetch
  split
  · next h => simp [h]
  · next h =>
    rw [h]
    constructor
    · intro h
      cases h
    · rintro ⟨heq, hne⟩
      cases heq
      exact absurd rfl hne
  · next data' hne h =>
    rw [h]
    constructor
    · intro h
      cases h
      exact ⟨rfl, hne⟩
    · rintro ⟨heq, -⟩
      cases heq
      rfl

theorem fetch_eq_failed {envelope : Envelope}
    (h : ∀ data, envelope.data = some data → data = .null) : envelope.fetch = .failed := by
  unfold Envelope.fetch
  split
  · rfl
  · rfl
  · next data hne hdata => exact absurd (h data hdata) hne

/-- A body without data is a failure. -/
theorem ofBody_of_lacksData {body : String}
    (hdistinct : ∀ tree, Written.read? body = some tree → tree.DistinctNames)
    (h : ∀ tree, Written.read? body = some tree → tree.LacksData) : ofBody body = .failed := by
  cases hread : Written.read? body with
  | none => rw [ofBody, hread, Option.bind_none]
  | some tree =>
    rw [ofBody_of_read? hread]
    cases tree with
    | object members =>
      cases henvelope : ofWritten? (.object members) with
      | none => rfl
      | some envelope =>
        refine fetch_eq_failed fun data hdata => ?_
        have hafter := data_of_foldlM_addMember? (hdistinct _ hread) henvelope
        cases hmember : member? "data" members with
        | none =>
          rw [dataAfter?_of_not_mem (member?_eq_none_iff.1 hmember), hdata] at hafter
          cases hafter
        | some tree =>
          -- the member that holds the data is null
          obtain ⟨units, hmem, hname⟩ := mem_of_member? hmember
          obtain rfl : tree = .null := h _ hread _ hmem hname
          rw [dataAfter?_of_member? hmember, hdata] at hafter
          cases hafter
          rfl
    | array items => exact (h _ hread).elim
    | null | bool _ | number _ | string _ => rfl

/-- An object with data is ready with these if its errors are a list or there are none, and a
failure otherwise. -/
theorem ofBody_of_object {body : String} {members : List (String × Json)} {data : Json}
    (hdistinct : ∀ tree, Written.read? body = some tree → tree.DistinctNames)
    (hobject : Json.read? body = some (.object members))
    (hdata : Table.lookup "data" members = some data) (hne : data ≠ .null) :
    ofBody body = match Table.lookup "errors" members with
      | none => .ready data
      | some (.array _) => .ready data
      | some _ => .failed := by
  obtain ⟨tree, hread, hvalue⟩ := Option.bind_eq_some_iff.1 hobject
  obtain ⟨written, rfl, hmembers⟩ := exists_members_of_value? hvalue
  have hwritten : (names written).Nodup := hdistinct _ hread
  obtain ⟨hreadable, hlookup⟩ := lookup_memberValues? hmembers hwritten
  have hall : (written.all fun member => (text? member.1).isSome) = true :=
    List.all_eq_true.2 fun member hmember => (hreadable member hmember).1
  have henvelope := foldlM_addMember? written hwritten empty (fun _ => rfl) fun _ => rfl
  rw [if_pos hall] at henvelope
  have hvalues : ∀ name, Table.lookup name members =
      (member? name written).bind (·.value? Envelope.depthLimit) := by
    intro name
    rw [hlookup name]
    cases member? name written <;> rfl
  rw [ofBody_of_read? hread, ofWritten?, henvelope, hvalues "errors"]
  obtain ⟨dataTree, hdataTree, hdataValue⟩ := Option.bind_eq_some_iff.1 (hvalues "data" ▸ hdata)
  rw [dataAfter?_of_member? hdataTree, hdataValue, Option.map_some, Option.bind_some]
  have hready : ∀ errors, Envelope.fetch ⟨some data, errors⟩ = .ready data := fun errors =>
    (fetch_eq_ready_iff _ _).2 ⟨rfl, hne⟩
  cases herrors : member? "errors" written with
  | none =>
    rw [errorsAfter?_of_not_mem (member?_eq_none_iff.1 herrors)]
    exact hready _
  | some errorsTree =>
    rw [errorsAfter?_of_member? herrors, Option.bind_some, list?]
    -- the errors have a value, as they are part of one
    obtain ⟨units, hmem, -⟩ := mem_of_member? herrors
    obtain ⟨errors, hvalue⟩ := Option.isSome_iff_exists.1 (hreadable _ hmem).2
    have hvalue' : errorsTree.value? Envelope.depthLimit = some errors := hvalue
    rw [hvalue']
    cases errors with
    | array items => exact hready _
    | _ => rfl

/-- An array is taken for the row of the data and the errors. -/
theorem ofBody_of_array {body : String} {items : List Written}
    (hread : Written.read? body = some (.array items)) (data : Json) :
    ofBody body = .ready data ↔
      items.head?.bind (·.value? Envelope.depthLimit) = some data ∧ data ≠ .null ∧
        (items.tail = [] ∨ ∃ errors, items.tail = [errors] ∧ (list? errors).isSome) := by
  rw [ofBody_of_read? hread]
  match items with
  | [] => simp [ofWritten?, Envelope.fetch, Envelope.empty]
  | [first] =>
    rw [ofWritten?, addData?_of_none first rfl]
    cases hfirst : first.value? Envelope.depthLimit with
    | none => simp [hfirst]
    | some data' => simp [hfirst, fetch_eq_ready_iff]
  | [first, errors] =>
    rw [ofWritten?, addData?_of_none first rfl]
    cases hfirst : first.value? Envelope.depthLimit with
    | none => simp [hfirst]
    | some data' =>
      rw [Option.map_some, Option.bind_some, addErrors?_of_none errors rfl]
      cases hlist : list? errors <;> simp [hfirst, hlist, fetch_eq_ready_iff]
  | _ :: _ :: _ :: _ => simp [ofWritten?]

/-- What a body comes to in which no name is given twice. An object with data is ready with these,
if its errors are a list or there are none, and a failure otherwise. What is no JSON, or holds no
data, is a failure. An array is taken for the row of the data and the errors. -/
theorem ofBody_of_distinct (body : String)
    (hdistinct : ∀ tree, Written.read? body = some tree → tree.DistinctNames) :
    (∀ members data, Json.read? body = some (.object members) →
      Table.lookup "data" members = some data → data ≠ .null →
      ofBody body = match Table.lookup "errors" members with
        | none => .ready data
        | some (.array _) => .ready data
        | some _ => .failed) ∧
    ((∀ tree, Written.read? body = some tree → tree.LacksData) → ofBody body = .failed) ∧
    ∀ items, Written.read? body = some (.array items) → ∀ data, ofBody body = .ready data ↔
      items.head?.bind (·.value? Envelope.depthLimit) = some data ∧ data ≠ .null ∧
        (items.tail = [] ∨ ∃ errors, items.tail = [errors] ∧ (list? errors).isSome) := by
  exact ⟨fun _ _ => ofBody_of_object hdistinct, ofBody_of_lacksData hdistinct,
    fun _ => ofBody_of_array⟩

deriving instance DecidableEq for Fetch

theorem ofBody_of_distinct_listed :
    let body := "\x7b\"errors\":[0],\"data\":\x7b\"a\":[]\x7d,\"more\":null\x7d"
    (∀ tree, Written.read? body = some tree → tree.DistinctNames) ∧
      ofBody body = .ready (.object [("a", .array [])]) := by
  intro body
  have hdistinct : ∀ tree ∈ Written.read? body, tree.DistinctNames := by decide +kernel
  have hread : Json.read? body = some (.object [("errors", .array [.number (.whole 0)]),
      ("data", .object [("a", .array [])]), ("more", .null)]) := by decide +kernel
  exact ⟨hdistinct, (ofBody_of_distinct body hdistinct).1 _ _ hread rfl (by decide)⟩

/-- Errors that are null spoil the data beside them, and an array of one item is ready with it. -/
theorem ofBody_errors_null :
    ¬ (∀ (body : String) (members : List (String × Json)) (data : Json),
      (∀ tree, Written.read? body = some tree → tree.DistinctNames) →
      Json.read? body = some (.object members) → Table.lookup "data" members = some data →
      data ≠ .null → ofBody body = .ready data) ∧
    ¬ (∀ (body : String) (value : Json), Json.read? body = some value →
      value.isObject = false → ofBody body = .failed) := by
  constructor
  · intro h
    have hdistinct : ∀ tree ∈ Written.read? "\x7b\"data\":1,\"errors\":null\x7d",
        tree.DistinctNames := by decide +kernel
    have hready := h "\x7b\"data\":1,\"errors\":null\x7d"
      [("data", .number (.whole 1)), ("errors", .null)] (.number (.whole 1)) hdistinct
      (by decide +kernel) rfl (by decide)
    exact absurd hready (by decide +kernel)
  · intro h
    have hfailed := h "[1]" (.array [.number (.whole 1)]) (by decide +kernel) rfl
    exact absurd hfailed (by decide +kernel)

end Fetch

end HopQuery
