import HopQuery.Proofs.Text.Literal

/-!
# String tokens

Where a string of the query language ends in a text, before anything in it is decoded. One quote
opens an ordinary string, which the next quote closes that no backslash stands before; three quotes
open a block.

* `StringToken`, `stringToken?`: the string at the front of a text, as it is written;
* `closeString?_of_denotes`, `stringToken?_append`: a literal is taken whole, whatever follows;
* `decode?`: the text that a string denotes;
* `IsLiteral.eq_of_append_eq`: a text has at most one literal at its front;
* `isControl_of_mem_quote`: a quoted text is written without control characters;
* `quote_is_one_token`: a quoted text is one ordinary string and denotes the text.
-/

namespace HopQuery.Text

/-- A string as it is written, with its quotes. -/
inductive StringToken
  /-- Between one quote on either side. -/
  | ordinary (lexeme : List Char)
  /-- Between three quotes on either side. -/
  | block (lexeme : List Char)
  deriving DecidableEq

/-- Whether the character may stand in a line of a text. -/
def isInline (c : Char) : Bool :=
  c == '\t' || 0x20 ≤ c.toNat

/-- Splits behind the quote that closes a string. What stands behind a backslash closes nothing, and
a string does not go on behind its line. -/
def closeString? : List Char → Option (List Char × List Char)
  | [] => none
  | '"' :: rest => some (['"'], rest)
  | '\\' :: c :: rest =>
    if isInline c then (closeString? rest).map (Prod.map (fun cs => '\\' :: c :: cs) id) else none
  | c :: rest => if isPlain c then (closeString? rest).map (Prod.map (c :: ·) id) else none

/-- Splits behind the three quotes that close a block. Behind a backslash three quotes close
nothing. -/
def closeBlock? : List Char → Option (List Char × List Char)
  | [] => none
  | '\\' :: '"' :: '"' :: '"' :: rest =>
    (closeBlock? rest).map (Prod.map (fun cs => '\\' :: '"' :: '"' :: '"' :: cs) id)
  | '"' :: '"' :: '"' :: rest => some (['"', '"', '"'], rest)
  | c :: rest => (closeBlock? rest).map (Prod.map (c :: ·) id)

/-- The string at the front of a text, and what follows it. -/
def stringToken? : List Char → Option (StringToken × List Char)
  | '"' :: '"' :: '"' :: rest =>
    (closeBlock? rest).map (Prod.map (fun cs => .block ('"' :: '"' :: '"' :: cs)) id)
  | '"' :: rest => (closeString? rest).map (Prod.map (fun cs => .ordinary ('"' :: cs)) id)
  | _ => none

/-- The text that an ordinary string denotes, if its escapes are those of the language. -/
def decode? (lexeme : List Char) : Option String :=
  match literal? lexeme with
  | some (value, []) => some value
  | _ => none

/-! ### Literals are taken whole -/

theorem closeString?_plain {c : Char} (hc : isPlain c = true) (cs : List Char) :
    closeString? (c :: cs) = (closeString? cs).map (Prod.map (c :: ·) id) := by
  have hquote : c ≠ '"' := by rintro rfl; exact absurd hc (by decide)
  have hslash : c ≠ '\\' := by rintro rfl; exact absurd hc (by decide)
  rw [closeString?, if_pos hc]
  · exact hquote
  · exact fun _ _ h _ => hslash h

theorem closeString?_escape {c : Char} (hc : isInline c = true) (cs : List Char) :
    closeString? ('\\' :: c :: cs) =
      (closeString? cs).map (Prod.map (fun cs => '\\' :: c :: cs) id) := by
  rw [closeString?, if_pos hc]

theorem isInline_of_shortEscape? {c d : Char} (h : shortEscape? c = some d) :
    isInline c = true := by
  unfold shortEscape? at h
  split at h <;> first | rfl | cases h

theorem isPlain_of_hexValue? {c : Char} {n : Nat} (h : hexValue? c = some n) :
    isPlain c = true := by
  have hlow : ∀ n < 0x20, hexValue? (Char.ofNat n) = none := by decide
  have hquote : c ≠ '"' := by rintro rfl; cases h
  have hslash : c ≠ '\\' := by rintro rfl; cases h
  have hnat : ¬ c.toNat < 0x20 := by
    intro hlt
    have hnone := hlow c.toNat hlt
    rw [Char.ofNat_toNat, h] at hnone
    cases hnone
  simp only [isPlain, Bool.and_eq_true, bne_iff_ne, ne_eq, Bool.or_eq_true, decide_eq_true_eq]
  exact ⟨⟨hquote, hslash⟩, .inr (by omega)⟩

/-- The four digits of a character stand for themselves when a string is cut off. -/
theorem closeString?_digits {a b c d e : Char} (h : codePoint? [a, b, c, d] = some e)
    (cs : List Char) : closeString? (a :: b :: c :: d :: cs) =
      (closeString? cs).map (Prod.map (fun cs => a :: b :: c :: d :: cs) id) := by
  obtain ⟨n, hn, -⟩ := Option.bind_eq_some_iff.1 h
  simp only [hexNumber?, List.foldlM_cons, List.foldlM_nil, Option.bind_eq_bind,
    Option.bind_eq_some_iff, Option.map_eq_some_iff] at hn
  obtain ⟨_, ⟨_, ha, -⟩, _, ⟨_, hb, -⟩, _, ⟨_, hc, -⟩, _, ⟨_, hd, -⟩, -⟩ := hn
  rw [closeString?_plain (isPlain_of_hexValue? ha), closeString?_plain (isPlain_of_hexValue? hb),
    closeString?_plain (isPlain_of_hexValue? hc), closeString?_plain (isPlain_of_hexValue? hd)]
  cases closeString? cs <;> rfl

/-- What the grammar has between the quotes is passed over up to the closing quote. -/
theorem closeString?_of_denotes {body value : List Char} (h : Denotes body value)
    (rest : List Char) : closeString? (body ++ '"' :: rest) = some (body ++ ['"'], rest) := by
  induction h with
  | nil => rfl
  | plain hc h ih =>
    rw [List.cons_append, closeString?_plain hc, ih]
    rfl
  | short hc h ih =>
    rw [List.cons_append, List.cons_append, closeString?_escape (isInline_of_shortEscape? hc), ih]
    rfl
  | unicode hc h ih =>
    simp only [List.cons_append]
    rw [closeString?_escape (by decide), closeString?_digits hc, ih]
    rfl

/-- A literal is taken whole, whatever follows; only the empty literal must not be followed by a
quote. -/
theorem stringToken?_append {literal rest : List Char} {value : String}
    (h : IsLiteral literal value) (hrest : value = "" → rest.head? ≠ some '"') :
    stringToken? (literal ++ rest) = some (.ordinary literal, rest) := by
  obtain ⟨body, rfl, hbody⟩ := h
  have hclose := closeString?_of_denotes hbody rest
  rw [List.cons_append, List.append_assoc, List.singleton_append, stringToken?, hclose]
  · rfl
  · exact hbody.append_ne_quotes fun hnil => hrest (String.toList_eq_nil_iff.1 hnil)

theorem decode?_of_isLiteral {literal : List Char} {value : String} (h : IsLiteral literal value) :
    decode? literal = some value := by
  have hread : literal? (literal ++ []) = some (value, []) := literal?_append h (by simp)
  rw [List.append_nil] at hread
  rw [decode?, hread]

/-- Of two literals at the front of one text neither is longer, and they denote the same. -/
theorem IsLiteral.eq_of_append_eq {literal other rest rest' : List Char} {value value' : String}
    (h : IsLiteral literal value) (hother : IsLiteral other value')
    (heq : literal ++ rest = other ++ rest') : other = literal ∧ value' = value := by
  obtain ⟨body, rfl, hbody⟩ := h
  obtain ⟨body', rfl, hbody'⟩ := hother
  simp only [List.cons_append, List.append_assoc, List.nil_append, List.cons.injEq, true_and] at heq
  -- both are read from the same characters, so both end in the same place
  have hread := literalBody?_of_denotes hbody rest
  rw [heq, literalBody?_of_denotes hbody' rest', Option.some.injEq, Prod.mk.injEq] at hread
  obtain ⟨hvalue, rfl⟩ := hread
  rw [List.append_cancel_right heq]
  exact ⟨rfl, String.toList_inj.1 hvalue⟩

/-! ### No control characters -/

theorem isControl_eq_false_iff (c : Char) :
    isControl c = false ↔ ¬ (c.toNat ≤ 0x1F ∨ 0x7F ≤ c.toNat ∧ c.toNat ≤ 0x9F) := by
  rw [← Bool.not_eq_true, isControl, Bool.or_eq_true, Bool.and_eq_true, decide_eq_true_eq,
    decide_eq_true_eq, decide_eq_true_eq]
  omega

theorem isControl_hexUpper (n : Nat) : isControl (hexUpper n) = false := by
  have hdigit : ∀ d < 16, isControl (hexUpper d) = false := by decide
  rw [← hexUpper_mod]
  exact hdigit _ (Nat.mod_lt _ (by decide))

/-- However a character is written in a literal, no control character is written for it. -/
theorem isControl_of_mem_escapeChar (c : Char) : ∀ d ∈ escapeChar c, isControl d = false := by
  have hslash : isControl '\\' = false := by decide
  have hletter : isControl 'u' = false := by decide
  have hshort : ∀ c, isControl c = false → ∀ d ∈ ['\\', c], isControl d = false := by
    intro c hc
    simp [hslash, hc]
  unfold escapeChar
  split_ifs with _ _ _ _ _ _ _ hcontrol
  · exact hshort '"' rfl
  · exact hshort '\\' rfl
  · exact hshort 'n' rfl
  · exact hshort 'r' rfl
  · exact hshort 't' rfl
  · exact hshort 'b' rfl
  · exact hshort 'f' rfl
  · simp [hslash, hletter, isControl_hexUpper]
  · simpa using hcontrol

theorem isControl_of_mem_quote (value : String) :
    ∀ c ∈ (quote value).toList, isControl c = false := by
  have hquote : isControl '"' = false := by decide
  intro c hc
  simp only [quote, escape, String.toList_append, String.toList_ofList, List.mem_append] at hc
  rcases hc with (hc | hc) | hc
  · obtain rfl := List.mem_singleton.1 hc
    exact hquote
  · obtain ⟨d, -, hd⟩ := List.mem_flatMap.1 hc
    exact isControl_of_mem_escapeChar d c hd
  · obtain rfl := List.mem_singleton.1 hc
    exact hquote

/-- A quoted text in front of any other text is cut off as one ordinary string, and no other literal
stands there. What is cut off denotes the text, and it is written without control characters, so it
does not go on behind its line. Only the two quotes of the empty text must not be followed by a
third one. -/
theorem quote_is_one_token (value : String) (rest : List Char)
    (h : value = "" → rest.head? ≠ some '"') :
    stringToken? ((quote value).toList ++ rest) = some (.ordinary (quote value).toList, rest) ∧
    (∀ literal denoted rest', IsLiteral literal denoted →
      (quote value).toList ++ rest = literal ++ rest' →
        literal = (quote value).toList ∧ denoted = value) ∧
    decode? (quote value).toList = some value ∧
    ∀ c ∈ (quote value).toList, ¬ (c.toNat ≤ 0x1F ∨ 0x7F ≤ c.toNat ∧ c.toNat ≤ 0x9F) := by
  have hliteral := isLiteral_quote value
  refine ⟨stringToken?_append hliteral h, fun literal denoted rest' hother heq => ?_,
    decode?_of_isLiteral hliteral, fun c hc => ?_⟩
  · exact hliteral.eq_of_append_eq hother heq
  · exact (isControl_eq_false_iff c).1 (isControl_of_mem_quote value c hc)

/-- A text that ends in a backslash and a quote, in front of another quote; and the empty text. -/
theorem quote_is_one_token_backslash :
    ("\x07\\\"" = "" → ['"'].head? ≠ some '"') ∧
      stringToken? ("\"\\u0007\\\\\\\"\"".toList ++ ['"']) =
        some (.ordinary "\"\\u0007\\\\\\\"\"".toList, ['"']) ∧
    ("" = "" → [')'].head? ≠ some '"') ∧
      stringToken? ("\"\"".toList ++ [')']) = some (.ordinary "\"\"".toList, [')']) := by
  have hquote : quote "\x07\\\"" = "\"\\u0007\\\\\\\"\"" := by decide
  have hquote' : quote "" = "\"\"" := by decide
  have hempty : "" = "" → [')'].head? ≠ some '"' := by decide
  have hfull : "\x07\\\"" = "" → ['"'].head? ≠ some '"' := by decide
  obtain ⟨htoken, -⟩ := quote_is_one_token "\x07\\\"" ['"'] hfull
  obtain ⟨htoken', -⟩ := quote_is_one_token "" [')'] hempty
  rw [hquote] at htoken
  rw [hquote'] at htoken'
  exact ⟨hfull, htoken, hempty, htoken'⟩

end HopQuery.Text
