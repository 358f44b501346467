import HopQuery.Proofs.Selection.Grammar
import HopQuery.Proofs.Text.Name

/-!
# Reading queries

The reader of the grammar of queries. Inside the braces of a level every selection begins with a
name, and only what follows the name tells whether it is a field or the nested node.

* `argument?`, `arguments?`, `selected?`, `read?`: the reader;
* `read?_eq_some_iff`: it reads a text as a selection exactly if the text spells the selection, so
  no text spells two;
* `document_reads_back`: a query is read as what was written, and the values of its arguments have
  no part in how it is divided into levels, arguments and fields.
-/

namespace HopQuery.Selection

/-! ### The reader -/

/-- Reads an argument. -/
def argument? (cs : List Char) : Option ((String × String) × List Char) :=
  (Text.name? cs).bind fun (name, cs) =>
    match cs with
    | ':' :: ' ' :: cs => (Text.literal? cs).map (Prod.map (name, ·) id)
    | _ => none

/-- Reads arguments up to and with the closing parenthesis. The fuel is a bound on their number. -/
def argumentList? : Nat → List Char → Option (List (String × String) × List Char)
  | 0, _ => none
  | fuel + 1, cs =>
    (argument? cs).bind fun (argument, cs) =>
      match cs with
      | ')' :: cs => some ([argument], cs)
      | ',' :: ' ' :: cs => (argumentList? fuel cs).map (Prod.map (argument :: ·) id)
      | _ => none

/-- Reads the arguments behind a type, if there are any. -/
def arguments? : List Char → Option (List (String × String) × List Char)
  | '(' :: cs => argumentList? cs.length cs
  | cs => some ([], cs)

/-- What is selected in a level: fields, then perhaps a nested selection. -/
structure Body where
  fields : List String
  inner : Option Selection

/-- The level of the given type and arguments around what is selected in it. -/
def Body.enclose (body : Body) (typeName : String) (arguments : List (String × String)) :
    Selection :=
  match body.inner with
  | none => .innermost ⟨typeName, arguments, body.fields⟩
  | some inner => .around ⟨typeName, arguments, body.fields⟩ inner

/-- Reads the closing brace of an empty level, or else what `read?` reads. -/
def orEmpty (read? : List Char → Option (Body × List Char)) :
    List Char → Option (Body × List Char)
  | '\x7d' :: cs => some (⟨[], none⟩, cs)
  | cs => read? cs

/-- Reads what is selected in a level that is not empty, up to and with the closing brace. The
fuel is a bound on the names. -/
def selected? : Nat → List Char → Option (Body × List Char)
  | 0, _ => none
  | fuel + 1, cs =>
    (Text.name? cs).bind fun (name, cs) =>
      (arguments? cs).bind fun (arguments, cs) =>
        match arguments, cs with
        -- The name is the type of a node, behind which the level has to end.
        | arguments, ' ' :: '\x7b' :: cs =>
          (orEmpty (selected? fuel) cs).bind fun (body, cs) =>
            match cs with
            | '\x7d' :: cs => some (⟨[], some (body.enclose name arguments)⟩, cs)
            | _ => none
        | [], '\x7d' :: cs => some (⟨[name], none⟩, cs)
        | [], ' ' :: cs =>
          (selected? fuel cs).map (Prod.map (fun body => ⟨name :: body.fields, body.inner⟩) id)
        | _, _ => none

/-- The selection that a query spells. -/
def read? (text : String) : Option Selection :=
  match text.toList with
  | '\x7b' :: cs =>
    match selected? cs.length cs with
    | some (⟨[], some s⟩, []) => some s
    | _ => none
  | _ => none

/-! ### Arguments -/

theorem argument?_append {text rest : List Char} {argument : String × String}
    (h : IsArgument text argument) (hrest : rest.head? ≠ some '"') :
    argument? (text ++ rest) = some (argument, rest) := by
  obtain ⟨hname, literal, rfl, hliteral⟩ := h
  have hread := Text.literal?_append hliteral fun _ => hrest
  simp only [argument?, List.append_assoc, List.cons_append]
  rw [Text.name?_append hname (by simp; decide), Option.bind_some]
  show (Text.literal? (literal ++ rest)).map (Prod.map (argument.1, ·) id) = _
  rw [hread]
  rfl

theorem isArgument_of_argument? {cs rest : List Char} {argument : String × String}
    (h : argument? cs = some (argument, rest)) :
    ∃ text, cs = text ++ rest ∧ IsArgument text argument := by
  obtain ⟨⟨name, cs'⟩, hread, hnext⟩ := Option.bind_eq_some_iff.1 h
  obtain ⟨hname, rfl⟩ := Text.isName_of_name? hread
  dsimp only at hnext
  split at hnext
  · obtain ⟨⟨value, rest'⟩, hvalue, heq⟩ := Option.map_eq_some_iff.1 hnext
    cases heq
    obtain ⟨literal, rfl, hliteral⟩ := Text.isLiteral_of_literal? hvalue
    exact ⟨name.toList ++ ':' :: ' ' :: literal, by simp, hname, literal, rfl, hliteral⟩
  · cases hnext

theorem argumentList?_append {texts : List (List Char)} {arguments : List (String × String)}
    (h : List.Forall₂ IsArgument texts arguments) (hne : arguments ≠ []) {fuel : Nat}
    (hfuel : texts.length ≤ fuel) (rest : List Char) :
    argumentList? fuel ([',', ' '].intercalate texts ++ ')' :: rest) = some (arguments, rest) := by
  induction h generalizing fuel with
  | nil => exact absurd rfl hne
  | @cons text argument texts arguments hargument htail ih =>
    obtain ⟨fuel, rfl⟩ := Nat.exists_eq_add_one.2 (show 0 < fuel by simp at hfuel; omega)
    -- the last argument has the parenthesis behind it, the others a comma
    cases htail with
    | nil =>
      rw [List.intercalate_singleton, argumentList?, argument?_append hargument (by simp)]
      rfl
    | cons hsecond htail =>
      have hlist := ih (by simp) (by simp at hfuel ⊢; omega)
      rw [List.intercalate_cons_cons, argumentList?, List.append_assoc, List.append_assoc,
        argument?_append hargument (by simp), Option.bind_some]
      simp only [List.cons_append, List.nil_append]
      rw [hlist]
      rfl

theorem forall₂_of_argumentList? {fuel : Nat} {cs rest : List Char}
    {arguments : List (String × String)} (h : argumentList? fuel cs = some (arguments, rest)) :
    arguments ≠ [] ∧ ∃ texts, cs = [',', ' '].intercalate texts ++ ')' :: rest ∧
      List.Forall₂ IsArgument texts arguments := by
  induction fuel generalizing cs arguments with
  | zero => cases h
  | succ fuel ih =>
    obtain ⟨⟨argument, cs'⟩, hread, hnext⟩ := Option.bind_eq_some_iff.1 h
    obtain ⟨text, rfl, hargument⟩ := isArgument_of_argument? hread
    dsimp only at hnext
    split at hnext
    · cases hnext
      exact ⟨by simp, [text], by simp, .cons hargument .nil⟩
    · obtain ⟨⟨arguments', rest'⟩, hlist, heq⟩ := Option.map_eq_some_iff.1 hnext
      cases heq
      obtain ⟨hne, texts, rfl, htexts⟩ := ih hlist
      refine ⟨by simp, text :: texts, ?_, .cons hargument htexts⟩
      have htne : texts ≠ [] := by
        rintro rfl
        cases htexts
        exact hne rfl
      rw [List.intercalate_cons_of_ne_nil htne]
      simp
    · cases hnext

theorem length_le_length_intercalate (texts : List (List Char)) :
    texts.length ≤ ([',', ' '].intercalate texts).length + 1 := by
  induction texts with
  | nil => simp
  | cons text texts ih =>
    cases texts with
    | nil => simp
    | cons second texts =>
      rw [List.intercalate_cons_cons]
      simp only [List.length_append, List.length_cons, List.length_nil] at ih ⊢
      omega

/-- Arguments are read whole if what follows the type without arguments does not look like any. -/
theorem arguments?_append {text rest : List Char} {arguments : List (String × String)}
    (h : IsArguments text arguments) (hrest : rest.head? ≠ some '(') :
    arguments? (text ++ rest) = some (arguments, rest) := by
  cases h with
  | none =>
    rw [List.nil_append]
    unfold arguments?
    split
    · exact absurd rfl hrest
    · rfl
  | @some texts _ hne h =>
    have hlength := length_le_length_intercalate texts
    rw [List.cons_append, List.append_assoc, List.singleton_append, arguments?,
      argumentList?_append h hne (by simp; omega)]

theorem isArguments_of_arguments? {cs rest : List Char} {arguments : List (String × String)}
    (h : arguments? cs = some (arguments, rest)) :
    ∃ text, cs = text ++ rest ∧ IsArguments text arguments := by
  unfold arguments? at h
  split at h
  · obtain ⟨hne, texts, rfl, htexts⟩ := forall₂_of_argumentList? h
    exact ⟨_, by simp, .some hne htexts⟩
  · cases h
    exact ⟨[], rfl, .none⟩

theorem IsArguments.eq_nil {text : List Char} (h : IsArguments text []) : text = [] := by
  cases h with
  | none => rfl
  | some hne => exact absurd rfl hne

/-! ### What is selected in a level -/

/-- The texts of what is selected in a level. -/
inductive IsBody : List (List Char) → Body → Prop
  | fields (fields : List String) (hfields : ∀ field ∈ fields, Text.isName field = true) :
      IsBody (fields.map String.toList) ⟨fields, none⟩
  | nested (fields : List String) {node : List Char} {inner : Selection}
      (hfields : ∀ field ∈ fields, Text.isName field = true) (hinner : IsNode node inner) :
      IsBody (fields.map String.toList ++ [node]) ⟨fields, some inner⟩

theorem IsBody.isNode {texts : List (List Char)} {body : Body} (h : IsBody texts body)
    {typeName : String} (hname : Text.isName typeName = true) {text : List Char}
    {arguments : List (String × String)} (harguments : IsArguments text arguments) :
    IsNode (nodeChars typeName text texts) (body.enclose typeName arguments) := by
  cases h with
  | fields fields hfields => exact .innermost ⟨typeName, arguments, fields⟩ hname harguments hfields
  | nested fields hfields hinner =>
    exact .around ⟨typeName, arguments, fields⟩ hname harguments hfields hinner

theorem IsBody.cons {texts : List (List Char)} {body : Body} (h : IsBody texts body)
    {name : String} (hname : Text.isName name = true) :
    IsBody (name.toList :: texts) ⟨name :: body.fields, body.inner⟩ := by
  cases h with
  | fields fields hfields =>
    exact .fields (name :: fields) (List.forall_mem_cons.2 ⟨hname, hfields⟩)
  | nested fields hfields hinner =>
    exact .nested (name :: fields) (List.forall_mem_cons.2 ⟨hname, hfields⟩) hinner

theorem selected?_eq_none {c : Char} (hc : Text.isNameRest c = false) (fuel : Nat)
    (cs : List Char) : selected? fuel (c :: cs) = none := by
  cases fuel with
  | zero => rfl
  | succ fuel => rw [selected?, Text.name?_cons_eq_none hc, Option.bind_none]

/-- A name before the closing brace is the last field. -/
theorem selected?_last {name : String} (hname : Text.isName name = true) (fuel : Nat)
    (rest : List Char) :
    selected? (fuel + 1) (name.toList ++ '\x7d' :: rest) = some (⟨[name], none⟩, rest) := by
  rw [selected?, Text.name?_append hname (by simp; decide)]
  rfl

/-- A name before a space and more selections is a field. -/
theorem selected?_field {name : String} (hname : Text.isName name = true) {fuel : Nat}
    {cs rest : List Char} {body : Body} (h : selected? fuel cs = some (body, rest)) :
    selected? (fuel + 1) (name.toList ++ ' ' :: cs) =
      some (⟨name :: body.fields, body.inner⟩, rest) := by
  have hnone : arguments? (' ' :: cs) = some ([], ' ' :: cs) := by simp [arguments?]
  rw [selected?, Text.name?_append hname (by simp; decide), Option.bind_some]
  dsimp only
  rw [hnone, Option.bind_some]
  dsimp only
  split
  -- it would be a node if a brace came next, but no selection opens with one
  · next heq =>
    cases heq
    rw [selected?_eq_none (by decide)] at h
    cases h
  · next heq => cases heq
  · next heq =>
    cases heq
    rw [h]
    rfl
  · next h1 h2 h3 => exact absurd rfl (h3 _ rfl)

/-- A name before arguments and an opening brace is the type of a node, the last selection. -/
theorem selected?_node {name : String} (hname : Text.isName name = true) {text : List Char}
    {arguments : List (String × String)} (harguments : IsArguments text arguments) {fuel : Nat}
    {cs rest : List Char} {body : Body}
    (h : orEmpty (selected? fuel) cs = some (body, '\x7d' :: rest)) :
    selected? (fuel + 1) (name.toList ++ (text ++ ' ' :: '\x7b' :: cs)) =
      some (⟨[], some (body.enclose name arguments)⟩, rest) := by
  have hstop : ∀ c ∈ (text ++ ' ' :: '\x7b' :: cs).head?, Text.isNameRest c = false := by
    cases harguments with
    | none => simp; decide
    | some hne h => simp; decide
  rw [selected?, Text.name?_append hname hstop, Option.bind_some]
  dsimp only
  rw [arguments?_append harguments (by simp), Option.bind_some]
  simp only [h, Option.bind_some]

theorem orEmpty_of_some {fuel : Nat} {cs : List Char} {result : Body × List Char}
    (h : selected? fuel cs = some result) : orEmpty (selected? fuel) cs = some result := by
  unfold orEmpty
  split
  · rw [selected?_eq_none (by decide)] at h
    cases h
  · exact h

/-- Fields may be put before what is read. -/
theorem selected?_prepend {fields : List String}
    (hfields : ∀ field ∈ fields, Text.isName field = true) {last follow rest : List Char}
    {body : Body} {fuel : Nat}
    (hlast : ∀ m, last.length ≤ m → selected? m (last ++ follow) = some (body, rest))
    (hfuel : ([' '].intercalate (fields.map String.toList ++ [last])).length ≤ fuel) :
    selected? fuel ([' '].intercalate (fields.map String.toList ++ [last]) ++ follow) =
      some (⟨fields ++ body.fields, body.inner⟩, rest) := by
  induction fields generalizing fuel with
  | nil =>
    rw [List.map_nil, List.nil_append, List.intercalate_singleton] at hfuel ⊢
    exact hlast fuel hfuel
  | cons field fields ih =>
    obtain ⟨hfield, hfields⟩ := List.forall_mem_cons.1 hfields
    rw [List.map_cons, List.cons_append, List.intercalate_cons_of_ne_nil (by simp)] at hfuel ⊢
    obtain ⟨fuel, rfl⟩ := Nat.exists_eq_add_one.2 (show 0 < fuel by simp at hfuel; omega)
    have htail := ih hfields (show _ ≤ fuel by simp at hfuel ⊢; omega)
    simpa using selected?_field hfield htail

theorem selected?_fields {fields : List String} (hne : fields ≠ [])
    (hfields : ∀ field ∈ fields, Text.isName field = true) {fuel : Nat}
    (hfuel : ([' '].intercalate (fields.map String.toList)).length ≤ fuel) (rest : List Char) :
    selected? fuel ([' '].intercalate (fields.map String.toList) ++ '\x7d' :: rest) =
      some (⟨fields, none⟩, rest) := by
  obtain ⟨before, last, rfl⟩ : ∃ before last, fields = before ++ [last] :=
    ⟨fields.dropLast, fields.getLast hne, (List.dropLast_append_getLast hne).symm⟩
  have hlast : ∀ m, last.toList.length ≤ m →
      selected? m (last.toList ++ '\x7d' :: rest) = some (⟨[last], none⟩, rest) := by
    intro m hm
    have hname := hfields last (by simp)
    obtain ⟨c, tail, htext, -, -⟩ := (Text.isName_eq_true_iff last).1 hname
    obtain ⟨m, rfl⟩ := Nat.exists_eq_add_one.2 (show 0 < m by rw [htext] at hm; simp at hm; omega)
    exact selected?_last hname m rest
  rw [List.map_append, List.map_singleton] at hfuel ⊢
  exact selected?_prepend (fun field hmem => hfields field (by simp [hmem])) hlast hfuel

/-- A node is read whole, as the last selection of a level. -/
theorem selected?_of_isNode {node : List Char} {s : Selection} (h : IsNode node s) {fuel : Nat}
    (hfuel : node.length ≤ fuel) (rest : List Char) :
    selected? fuel (node ++ '\x7d' :: rest) = some (⟨[], some s⟩, rest) := by
  induction h generalizing fuel rest with
  | innermost level hname harguments hfields =>
    -- the braces are characters of the node, so one name less leaves fuel for what is inside
    obtain ⟨fuel, rfl⟩ :=
      Nat.exists_eq_add_one.2 (show 0 < fuel by simp [nodeChars] at hfuel; omega)
    have hbody : orEmpty (selected? fuel) ([' '].intercalate (level.fields.map String.toList) ++
        '\x7d' :: '\x7d' :: rest) = some (⟨level.fields, none⟩, '\x7d' :: rest) := by
      by_cases hne : level.fields = []
      · rw [hne]
        rfl
      · exact orEmpty_of_some (selected?_fields hne hfields (by simp [nodeChars] at hfuel; omega) _)
    simpa [nodeChars, Body.enclose] using selected?_node hname harguments hbody
  | around level hname harguments hfields hinner ih =>
    obtain ⟨fuel, rfl⟩ :=
      Nat.exists_eq_add_one.2 (show 0 < fuel by simp [nodeChars] at hfuel; omega)
    have hbody := orEmpty_of_some (selected?_prepend hfields
      (fun m hm => ih hm ('\x7d' :: rest)) (show _ ≤ fuel by simp [nodeChars] at hfuel ⊢; omega))
    simpa [nodeChars, Body.enclose] using selected?_node hname harguments hbody

theorem isBody_of_orEmpty {read? : List Char → Option (Body × List Char)}
    (hread : ∀ {cs rest : List Char} {body : Body}, read? cs = some (body, rest) →
      ∃ texts, texts ≠ [] ∧ cs = [' '].intercalate texts ++ '\x7d' :: rest ∧ IsBody texts body)
    {cs rest : List Char} {body : Body} (h : orEmpty read? cs = some (body, rest)) :
    ∃ texts, cs = [' '].intercalate texts ++ '\x7d' :: rest ∧ IsBody texts body := by
  unfold orEmpty at h
  split at h
  · cases h
    exact ⟨[], rfl, .fields [] (by simp)⟩
  · obtain ⟨texts, -, hcs, hbody⟩ := hread h
    exact ⟨texts, hcs, hbody⟩

/-- What is read has been spelled by the grammar, up to the closing brace. -/
theorem isBody_of_selected? {fuel : Nat} {cs rest : List Char} {body : Body}
    (h : selected? fuel cs = some (body, rest)) :
    ∃ texts, texts ≠ [] ∧ cs = [' '].intercalate texts ++ '\x7d' :: rest ∧ IsBody texts body := by
  induction fuel generalizing cs rest body with
  | zero => cases h
  | succ fuel ih =>
    obtain ⟨⟨name, cs₁⟩, hread, hafter⟩ := Option.bind_eq_some_iff.1 h
    obtain ⟨hname, rfl⟩ := Text.isName_of_name? hread
    obtain ⟨⟨arguments, cs₂⟩, hlist, hnext⟩ := Option.bind_eq_some_iff.1 hafter
    obtain ⟨text, rfl, harguments⟩ := isArguments_of_arguments? hlist
    dsimp only at hnext
    -- what follows the name: an opening brace, the closing brace, or a space
    split at hnext
    · obtain ⟨⟨inside, cs₃⟩, hinside, hclose⟩ := Option.bind_eq_some_iff.1 hnext
      obtain ⟨texts, rfl, hbody⟩ := isBody_of_orEmpty ih hinside
      dsimp only at hclose
      split at hclose
      · cases hclose
        refine ⟨[nodeChars name text texts], by simp, by simp [nodeChars], ?_⟩
        exact .nested [] (by simp) (hbody.isNode hname harguments)
      · cases hclose
    · cases hnext
      rw [harguments.eq_nil]
      exact ⟨[name.toList], by simp, by simp, .fields [name] (by simpa using hname)⟩
    · obtain ⟨⟨inside, rest'⟩, hinside, heq⟩ := Option.map_eq_some_iff.1 hnext
      cases heq
      obtain ⟨texts, hne, rfl, hbody⟩ := ih hinside
      refine ⟨name.toList :: texts, by simp, ?_, hbody.cons hname⟩
      rw [harguments.eq_nil, List.intercalate_cons_of_ne_nil hne]
      simp
    · cases hnext

/-! ### Whole queries -/

/-- Reading a text and spelling a selection are the same, so no text spells two selections. -/
theorem read?_eq_some_iff (text : String) (s : Selection) :
    read? text = some s ↔ IsDocument text.toList s := by
  constructor
  · intro h
    unfold read? at h
    split at h
    · next cs htext =>
      split at h
      · next hread =>
        cases h
        obtain ⟨texts, -, rfl, hbody⟩ := isBody_of_selected? hread
        generalize hfields : (⟨[], some s⟩ : Body) = body at hbody
        cases hbody with
        | fields _ _ => cases hfields
        | nested _ _ hinner =>
          cases hfields
          exact ⟨_, by simpa using htext, hinner⟩
      · cases h
    · cases h
  · rintro ⟨node, htext, hnode⟩
    have hread := selected?_of_isNode hnode (show _ ≤ (node ++ ['\x7d']).length by simp) []
    rw [read?, htext]
    simp only [hread]

theorem read?_document (s : Selection) (h : s.Named) : read? s.document = some s :=
  (read?_eq_some_iff _ _).2 (isDocument_document s h)

/-- A selection without the values of its arguments: level by level the type, the names of the
arguments and the fields. -/
def skeleton (s : Selection) : List (String × List String × List String) :=
  s.levels.map fun level => (level.typeName, level.arguments.map Prod.fst, level.fields)

theorem Named.of_skeleton_eq {s t : Selection} (h : s.Named) (heq : t.skeleton = s.skeleton) :
    t.Named := by
  intro level hlevel
  have hmem := List.mem_map_of_mem
    (f := fun l : Level => (l.typeName, l.arguments.map Prod.fst, l.fields)) hlevel
  rw [← skeleton, heq] at hmem
  obtain ⟨level', hlevel', hsame⟩ := List.mem_map.1 hmem
  obtain ⟨hname, harguments, hfields⟩ := h level' hlevel'
  simp only [Prod.mk.injEq] at hsame
  obtain ⟨h1, h2, h3⟩ := hsame
  refine ⟨h1 ▸ hname, ?_, h3 ▸ hfields⟩
  rw [← List.forall_mem_map (f := Prod.fst) (P := fun name => Text.isName name = true)]
    at harguments ⊢
  rwa [← h2]

/-- A selection whose names are names, with any values, is written as a document that spells it
and no other selection, and is read back as it was. So the text determines the selection among
those with names, and no value of an argument can change what the text is divided into. -/
theorem document_reads_back (s : Selection) (h : s.Named) :
    IsDocument s.document.toList s ∧
      (∀ t, IsDocument s.document.toList t → t = s) ∧
      read? s.document = some s ∧
      (∀ t : Selection, t.Named → t.document = s.document → t = s) ∧
      ∀ t : Selection, t.skeleton = s.skeleton →
        ∃ r, read? t.document = some r ∧ r.skeleton = s.skeleton := by
  have hread := read?_document s h
  refine ⟨isDocument_document s h, ?_, hread, ?_, ?_⟩
  · intro t ht
    have htread := (read?_eq_some_iff _ _).2 ht
    rw [hread] at htread
    exact (Option.some.inj htread).symm
  · intro t ht heq
    have htread := read?_document t ht
    rw [heq, hread] at htread
    exact (Option.some.inj htread).symm
  · intro t heq
    exact ⟨t, read?_document t (h.of_skeleton_eq heq), heq⟩

/-- A selection with a value that tries to end its literal, the arguments and two levels. -/
def deceptive : Selection :=
  .around ⟨"schools", [("name", "\") \x7bid\x7d\x7d\n\\"), ("id", "")], ["id"]⟩
    (.innermost ⟨"students", [], []⟩)

theorem document_reads_back_deceptive :
    deceptive.Named ∧ read? deceptive.document = some deceptive := by
  have h : deceptive.Named := by decide +kernel
  exact ⟨h, (document_reads_back deceptive h).2.2.1⟩

end HopQuery.Selection
