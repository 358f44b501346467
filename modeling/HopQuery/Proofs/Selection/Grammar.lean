import HopQuery.Proofs.Text.Literal
import HopQuery.Selection.Basic
import HopQuery.Text.Name
import Mathlib.Data.List.Forall2

/-!
# The grammar of queries

A query is a node in braces. A node is a type, its arguments in parentheses if it has any, and in
braces what it selects: fields with one space between each two, and the nested node, if there is
one, after the last field. Nothing else may stand anywhere.

* `IsArgument`, `IsArguments`, `IsNode`, `IsDocument`: the grammar, each with what is spelled;
* `Level.Named`, `Selection.Named`: the data all of whose names are names;
* `isNode_text`, `isDocument_document`: such a selection is written by the grammar;
* `isDocument_document_iff`: no other selection is.
-/

namespace HopQuery

/-- The type, the arguments and the fields of a level bear names; the values are any texts. -/
structure Level.Named (level : Level) : Prop where
  typeName : Text.isName level.typeName = true
  arguments : ∀ argument ∈ level.arguments, Text.isName argument.1 = true
  fields : ∀ field ∈ level.fields, Text.isName field = true

instance (level : Level) : Decidable level.Named :=
  decidable_of_iff (Text.isName level.typeName = true ∧
      (∀ argument ∈ level.arguments, Text.isName argument.1 = true) ∧
      ∀ field ∈ level.fields, Text.isName field = true)
    ⟨fun ⟨h1, h2, h3⟩ => ⟨h1, h2, h3⟩, fun h => ⟨h.typeName, h.arguments, h.fields⟩⟩

namespace Selection

/-- All levels bear names. -/
def Named (s : Selection) : Prop :=
  ∀ level ∈ s.levels, level.Named

instance (s : Selection) : Decidable s.Named :=
  inferInstanceAs (Decidable (∀ level ∈ s.levels, level.Named))

/-! ### The grammar -/

/-- A name, a colon with a space, and a literal. -/
def IsArgument (text : List Char) (argument : String × String) : Prop :=
  Text.isName argument.1 = true ∧ ∃ literal,
    text = argument.1.toList ++ ':' :: ' ' :: literal ∧ Text.IsLiteral literal argument.2

/-- Nothing, or arguments in parentheses with a comma and a space between each two. -/
inductive IsArguments : List Char → List (String × String) → Prop
  | none : IsArguments [] []
  | some {texts : List (List Char)} {arguments : List (String × String)} (hne : arguments ≠ [])
      (h : List.Forall₂ IsArgument texts arguments) :
      IsArguments ('(' :: ([',', ' '].intercalate texts ++ [')'])) arguments

/-- The characters of a node with the given type, text of arguments and texts of selections. -/
def nodeChars (typeName : String) (arguments : List Char) (selected : List (List Char)) :
    List Char :=
  typeName.toList ++ (arguments ++ ' ' :: '\x7b' :: ([' '].intercalate selected ++ ['\x7d']))

/-- A node, with the selection that it spells. -/
inductive IsNode : List Char → Selection → Prop
  | innermost (level : Level) {arguments : List Char}
      (hname : Text.isName level.typeName = true)
      (harguments : IsArguments arguments level.arguments)
      (hfields : ∀ field ∈ level.fields, Text.isName field = true) :
      IsNode (nodeChars level.typeName arguments (level.fields.map String.toList))
        (.innermost level)
  | around (level : Level) {arguments node : List Char} {inner : Selection}
      (hname : Text.isName level.typeName = true)
      (harguments : IsArguments arguments level.arguments)
      (hfields : ∀ field ∈ level.fields, Text.isName field = true) (hinner : IsNode node inner) :
      IsNode (nodeChars level.typeName arguments (level.fields.map String.toList ++ [node]))
        (.around level inner)

/-- A node in braces. -/
def IsDocument (text : List Char) (s : Selection) : Prop :=
  ∃ node, text = '\x7b' :: (node ++ ['\x7d']) ∧ IsNode node s

/-! ### Writing follows the grammar -/

theorem isArgument_argumentText {argument : String × String}
    (h : Text.isName argument.1 = true) : IsArgument (argumentText argument).toList argument := by
  refine ⟨h, _, ?_, Text.isLiteral_quote argument.2⟩
  simp [argumentText]

/-- The characters of the arguments as they are written behind the type. -/
def argumentsChars (arguments : List (String × String)) : List Char :=
  if arguments.isEmpty then []
  else '(' :: ([',', ' '].intercalate (arguments.map fun a => (argumentText a).toList) ++ [')'])

theorem isArguments_argumentsChars {arguments : List (String × String)}
    (h : ∀ argument ∈ arguments, Text.isName argument.1 = true) :
    IsArguments (argumentsChars arguments) arguments := by
  unfold argumentsChars
  split_ifs with hempty
  · rw [List.isEmpty_iff.1 hempty]
    exact .none
  · refine .some (fun hnil => hempty (by rw [hnil]; rfl)) ?_
    rw [List.forall₂_map_left_iff, List.forall₂_same]
    exact fun argument hmem => isArgument_argumentText (h argument hmem)

theorem IsArguments.isName {text : List Char} {arguments : List (String × String)}
    (h : IsArguments text arguments) : ∀ argument ∈ arguments, Text.isName argument.1 = true := by
  cases h with
  | none => simp
  | some hne h =>
    clear hne
    induction h with
    | nil => simp
    | cons hargument hrest ih => exact List.forall_mem_cons.2 ⟨hargument.1, ih⟩

theorem toList_bodyText (level : Level) (selected : List String) :
    (bodyText level selected).toList =
      nodeChars level.typeName (argumentsChars level.arguments) (selected.map String.toList) := by
  unfold bodyText headText argumentsChars nodeChars
  split_ifs with hempty
  · simp
  · simp [Function.comp_def]

/-- A selection whose names are names is written as a node that spells it. -/
theorem isNode_text (s : Selection) (h : s.Named) : IsNode s.text.toList s := by
  induction s with
  | innermost level =>
    obtain ⟨hname, harguments, hfields⟩ := h level (List.mem_singleton.2 rfl)
    rw [text, toList_bodyText]
    exact .innermost level hname (isArguments_argumentsChars harguments) hfields
  | around level inner ih =>
    obtain ⟨hname, harguments, hfields⟩ := h level List.mem_cons_self
    have hinner := ih fun l hl => h l (List.mem_cons_of_mem _ hl)
    rw [text, toList_bodyText, List.map_append]
    exact .around level hname (isArguments_argumentsChars harguments) hfields hinner

/-- A selection whose names are names is written as a document that spells it. -/
theorem isDocument_document (s : Selection) (h : s.Named) : IsDocument s.document.toList s := by
  refine ⟨s.text.toList, ?_, isNode_text s h⟩
  simp [document]

/-- What a node spells has names only. -/
theorem named_of_isNode {text : List Char} {s : Selection} (h : IsNode text s) : s.Named := by
  induction h with
  | innermost level hname harguments hfields =>
    exact List.forall_mem_singleton.2 ⟨hname, harguments.isName, hfields⟩
  | around level hname harguments hfields hinner ih =>
    exact List.forall_mem_cons.2 ⟨⟨hname, harguments.isName, hfields⟩, ih⟩

/-- A selection is written as a document that spells it if its names are names, and only then. -/
theorem isDocument_document_iff (s : Selection) : IsDocument s.document.toList s ↔ s.Named :=
  ⟨fun ⟨_, _, hnode⟩ => named_of_isNode hnode, isDocument_document s⟩

end Selection

end HopQuery
