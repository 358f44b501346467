import HopQuery.Proofs.Shape.Entries

/-!
# The lines of the nested view

The text of the nested view is written entry by entry, with a line feed behind each. Read as lines
it is the tree again: one line per entry from top to bottom, set in by the number of branches around
it, and one line between two items.

* `Text.lines`, `Text.joinLines`: the lines of a text and the text of lines, with
  `lines_joinLines`;
* `NestedEntry.induct`: induction on an entry by the entries in it;
* `NestedEntry.IsUnbroken`: the texts of an entry have no line feed;
* `NestedItem.line`: the line of an entry in its branches;
* `NestedItem.entryText_eq`: an entry is written as the lines of all entries in it;
* `Rendering.lines_text`: the lines of a view.
-/

namespace HopQuery

/-! ### Lines -/

namespace Text

/-- The lines of a text: what stands before each line feed, and what stands behind the last one if
anything does. -/
def lines (text : String) : List String :=
  let parts := text.toList.splitOn '\n'
  (if parts.getLast? = some [] then parts.dropLast else parts).map String.ofList

/-- The text of lines, each with a line feed behind it. -/
def joinLines (ls : List String) : String :=
  String.join (ls.map (· ++ "\n"))

@[simp]
theorem joinLines_nil : joinLines [] = "" := rfl

@[simp]
theorem joinLines_cons (line : String) (rest : List String) :
    joinLines (line :: rest) = line ++ "\n" ++ joinLines rest :=
  String.join_cons

@[simp]
theorem joinLines_append (ls rest : List String) :
    joinLines (ls ++ rest) = joinLines ls ++ joinLines rest := by
  rw [joinLines, List.map_append, String.join_append, joinLines, joinLines]

/-- A text of lines ends in a line feed unless it is empty. -/
theorem joinLines_eq_empty_or (ls : List String) :
    joinLines ls = "" ∨ ∃ before, joinLines ls = before ++ "\n" := by
  rcases List.eq_nil_or_concat ls with rfl | ⟨before, last, rfl⟩
  · exact .inl rfl
  · refine .inr ⟨joinLines before ++ last, ?_⟩
    simp [String.append_assoc]

theorem joinLines_flatMap {α : Type} (xs : List α) (f : α → List String) :
    joinLines (xs.flatMap f) = String.join (xs.map fun x => joinLines (f x)) := by
  induction xs with
  | nil => rfl
  | cons x rest ih => rw [List.flatMap_cons, joinLines_append, ih, List.map_cons, String.join_cons]

theorem splitOn_joinLines {ls : List String} (h : ∀ line ∈ ls, '\n' ∉ line.toList) :
    (joinLines ls).toList.splitOn '\n' = ls.map String.toList ++ [[]] := by
  induction ls with
  | nil => rfl
  | cons line rest ih =>
    obtain ⟨hline, hrest⟩ := List.forall_mem_cons.1 h
    have htext : (joinLines (line :: rest)).toList =
        line.toList ++ '\n' :: (joinLines rest).toList := by
      simp
    rw [htext, List.splitOn_eq_splitOnP, List.splitOnP_append_cons_of_forall_mem _ _ (by simp),
      ← List.splitOn_eq_splitOnP, ih hrest, List.map_cons, List.cons_append]
    intro c hc
    exact beq_eq_false_iff_ne.2 fun heq => hline (heq ▸ hc)

/-- Lines without line feeds are read back from their text. -/
theorem lines_joinLines {ls : List String} (h : ∀ line ∈ ls, '\n' ∉ line.toList) :
    lines (joinLines ls) = ls := by
  rw [lines, splitOn_joinLines h]
  simp

end Text

/-! ### Induction on entries -/

namespace NestedEntry

/-- What holds of a branch if it holds of the entries in it, and of each leaf, holds of every
entry. -/
@[elab_as_elim]
theorem induct {motive : NestedEntry → Prop} (leaf : ∀ key value, motive (.leaf key value))
    (branch : ∀ key items, (∀ item ∈ items, ∀ entry ∈ item, motive entry) →
      motive (.branch key items)) (entry : NestedEntry) : motive entry :=
  @NestedEntry.rec motive (fun items => ∀ item ∈ items, ∀ entry ∈ item, motive entry)
    (fun item => ∀ entry ∈ item, motive entry) leaf branch (fun _ h => nomatch h)
    (fun _ _ hitem hrest => List.forall_mem_cons.2 ⟨hitem, hrest⟩) (fun _ h => nomatch h)
    (fun _ _ hentry hrest => List.forall_mem_cons.2 ⟨hentry, hrest⟩) entry

/-- Neither the key nor the text of the entry has a line feed. -/
def IsUnbroken : NestedEntry → Prop
  | .leaf key value => '\n' ∉ key.toList ∧ '\n' ∉ value.toList
  | .branch key _ => '\n' ∉ key.toList

end NestedEntry

namespace NestedItem

/-! ### One line per entry -/

/-- The line of an entry, given the keys of the branches around it. -/
def line : List String × NestedEntry → String
  | (keys, .leaf key value) =>
    String.join (List.replicate keys.length "  ") ++
      if key = "" then value else key ++ " - " ++ value
  | (keys, .branch key _) => String.join (List.replicate keys.length "  ") ++ key ++ " (More)"

/-- The lines of an item with its entries from top to bottom. -/
def itemLines (item : NestedItem) : List String :=
  (entriesWithin [] item).map line

theorem indentation_eq (depth : Nat) :
    indentation depth = String.join (List.replicate depth "  ") := by
  induction depth with
  | zero => rfl
  | succ depth ih =>
    rw [List.replicate_succ, String.join_cons, ← ih, indentation, indentation, Nat.mul_succ,
      ← String.toList_inj]
    simp [List.replicate_succ]

theorem entriesWithin_eq_flatMap (keys : List String) (item : NestedItem) :
    entriesWithin keys item = item.flatMap (entryWithin keys) := by
  induction item with
  | nil => rfl
  | cons entry rest ih => rw [entriesWithin, ih, List.flatMap_cons]

theorem entriesText_eq_join (depth : Nat) (item : NestedItem) :
    entriesText depth item = String.join (item.map (entryText depth)) := by
  induction item with
  | nil => rfl
  | cons entry rest ih => rw [entriesText, ih, List.map_cons, String.join_cons]

theorem itemsText_eq_join (depth : Nat) (items : List NestedItem) :
    itemsText depth items = String.join (items.map (entriesText depth)) := by
  induction items with
  | nil => rfl
  | cons item rest ih => rw [itemsText, ih, List.map_cons, String.join_cons]

/-- An item is written as the lines of its entries if each entry is written as its lines. -/
theorem entriesText_eq {keys : List String} {item : NestedItem}
    (h : ∀ entry ∈ item, entryText keys.length entry =
      Text.joinLines ((entryWithin keys entry).map line)) :
    entriesText keys.length item = Text.joinLines ((entriesWithin keys item).map line) := by
  rw [entriesText_eq_join, entriesWithin_eq_flatMap, List.map_flatMap, Text.joinLines_flatMap,
    List.map_congr_left h]

/-- An entry inside branches is written as its line and the lines of the entries in it. -/
theorem entryText_eq (keys : List String) (entry : NestedEntry) :
    entryText keys.length entry = Text.joinLines ((entryWithin keys entry).map line) := by
  induction entry using NestedEntry.induct generalizing keys with
  | leaf key value =>
    rw [entryText, entryWithin, indentation_eq]
    split
    · next h => simp [line, h]
    · next h => simp [line, h, String.append_assoc]
  | branch key items ih =>
    have hitems : itemsText (keys ++ [key]).length items =
        Text.joinLines ((itemsWithin (keys ++ [key]) items).map line) := by
      rw [itemsText_eq_join, itemsWithin_eq_flatMap, List.map_flatMap, Text.joinLines_flatMap]
      refine congrArg String.join (List.map_congr_left fun item hitem => ?_)
      exact entriesText_eq fun entry hentry => ih item hitem entry hentry (keys ++ [key])
    rw [List.length_append, List.length_singleton] at hitems
    rw [entryText, entryWithin, List.map_cons, Text.joinLines_cons, hitems, line, indentation_eq,
      more]
    simp [String.append_assoc]

theorem text_eq_joinLines (item : NestedItem) : text item = Text.joinLines (itemLines item) :=
  @entriesText_eq [] item fun entry _ => entryText_eq [] entry

theorem isUnbroken_line {keys : List String} {entry : NestedEntry} (h : entry.IsUnbroken) :
    '\n' ∉ (line (keys, entry)).toList := by
  have hindented : '\n' ∉ (String.join (List.replicate keys.length "  ")).toList := by simp
  cases entry with
  | leaf key value =>
    obtain ⟨hkey, hvalue⟩ := h
    rw [line]
    split <;> simp_all
  | branch key items =>
    have hkey : '\n' ∉ key.toList := h
    rw [line]
    simp_all

end NestedItem

/-! ### The lines of a view -/

theorem forall_mem_intercalate {α : Type} {p : α → Prop} {sep : List α} {groups : List (List α)}
    (hsep : ∀ x ∈ sep, p x) (h : ∀ group ∈ groups, ∀ x ∈ group, p x) :
    ∀ x ∈ sep.intercalate groups, p x := by
  induction groups with
  | nil => exact fun _ hx => nomatch hx
  | cons group rest ih =>
    obtain ⟨hgroup, hrest⟩ := List.forall_mem_cons.1 h
    cases rest with
    | nil =>
      rw [List.intercalate_singleton]
      exact hgroup
    | cons next rest =>
      rw [List.intercalate_cons_cons]
      exact List.forall_mem_append.2 ⟨List.forall_mem_append.2 ⟨hgroup, hsep⟩, ih hrest⟩

theorem length_intercalate_singleton {α : Type} (sep : α) (groups : List (List α)) :
    ([sep].intercalate groups).length = (groups.map List.length).sum + (groups.length - 1) := by
  induction groups with
  | nil => rfl
  | cons group rest ih =>
    cases rest with
    | nil => simp
    | cons next rest =>
      rw [List.intercalate_cons_cons, List.length_append, ih, List.length_append]
      simp only [List.map_cons, List.sum_cons, List.length_cons, List.length_nil]
      omega

theorem Rendering.text_nested (items : List NestedItem) : (Rendering.nested items).text =
    Text.joinLines (["--"].intercalate (items.map NestedItem.itemLines)) := by
  rw [text]
  induction items with
  | nil => rfl
  | cons item rest ih =>
    cases rest with
    | nil => simp [NestedItem.text_eq_joinLines]
    | cons next rest =>
      simp only [List.map_cons] at ih ⊢
      rw [String.intercalate_cons_cons, ih, List.intercalate_cons_cons, Text.joinLines_append,
        Text.joinLines_append, NestedItem.text_eq_joinLines]
      rfl

/-- The nested view, read as lines, has one line per entry, item by item and from top to bottom: two
spaces per branch around the entry, then its key and its text, or its text alone without a key, or
its key and the mark of a branch. Between each two items stands one more line. The view is written
line by line, with a line feed behind each and nothing else. -/
theorem Rendering.lines_text (items : List NestedItem)
    (h : ∀ entry ∈ NestedItem.itemsWithin [] items, entry.2.IsUnbroken) :
    Text.lines (Rendering.nested items).text =
      ["--"].intercalate (items.map fun item =>
        (NestedItem.entriesWithin [] item).map NestedItem.line) ∧
    (Text.lines (Rendering.nested items).text).length =
      (NestedItem.itemsWithin [] items).length + (items.length - 1) ∧
    (Rendering.nested items).text = Text.joinLines (Text.lines (Rendering.nested items).text) ∧
    ((Rendering.nested items).text = "" ∨
      ∃ before, (Rendering.nested items).text = before ++ "\n") := by
  have hunbroken : ∀ line ∈ ["--"].intercalate (items.map NestedItem.itemLines),
      '\n' ∉ line.toList := by
    refine forall_mem_intercalate (by simp) (List.forall_mem_map.2 fun item hitem => ?_)
    refine List.forall_mem_map.2 fun entry hentry => NestedItem.isUnbroken_line (h entry ?_)
    rw [NestedItem.itemsWithin_eq_flatMap]
    exact List.mem_flatMap.2 ⟨item, hitem, hentry⟩
  have hlines := Text.lines_joinLines hunbroken
  rw [← Rendering.text_nested] at hlines
  refine ⟨hlines, ?_, ?_, ?_⟩
  · rw [hlines, length_intercalate_singleton, NestedItem.itemsWithin_eq_flatMap,
      List.length_flatMap, List.map_map, List.length_map]
    simp [NestedItem.itemLines, Function.comp_def]
  · rw [hlines, Rendering.text_nested]
  · rw [Rendering.text_nested]
    exact Text.joinLines_eq_empty_or _

/-- Three items: one with branches, one without entries, and one with an empty branch and an empty
text. -/
def emptyBranches : List NestedItem :=
  [[.leaf "name" "North", .branch "groups" [[.leaf "" "7", .branch "students" []], []]], [],
    [.branch "groups" [], .leaf "" ""]]

theorem Rendering.lines_text_emptyBranches :
    (∀ entry ∈ NestedItem.itemsWithin [] emptyBranches, entry.2.IsUnbroken) ∧
      Text.lines (Rendering.nested emptyBranches).text =
        ["name - North", "groups (More)", "  7", "  students (More)", "--", "--", "groups (More)",
          ""] := by
  have h : ∀ entry ∈ NestedItem.itemsWithin [] emptyBranches, entry.2.IsUnbroken := by
    simp [emptyBranches, NestedItem.itemsWithin, NestedItem.entriesWithin, NestedItem.entryWithin,
      NestedEntry.IsUnbroken]
  exact ⟨h, (lines_text emptyBranches h).1.trans (by decide +kernel)⟩

end HopQuery
