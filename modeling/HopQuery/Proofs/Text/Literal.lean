import HopQuery.Text.Literal
import Mathlib.Tactic.SplitIfs

/-!
# Reading string literals

What a string literal of the query language denotes: a character stands for itself unless it is a
quote, a backslash or a control character other than the tab; behind a backslash stands a short
escape, or `u` with the four hexadecimal digits of a character.

* `Denotes`: the grammar of what stands between the quotes, with the text that is denoted;
* `IsLiteral`: the grammar of a whole literal;
* `literal?`: reads one literal at the front of a text, and no block of three quotes;
* `literal?_append`, `isLiteral_of_literal?`: it reads exactly the literals of the grammar;
* `isLiteral_quote`: a quoted text is a literal that denotes the text.
-/

namespace HopQuery.Text

/-- A character that may stand for itself between the quotes. -/
def isPlain (c : Char) : Bool :=
  c != '"' && c != '\\' && (c == '\t' || 0x20 ≤ c.toNat)

/-- The character that a short escape denotes, given what follows the backslash. -/
def shortEscape? : Char → Option Char
  | '"' => some '"'
  | '\\' => some '\\'
  | '/' => some '/'
  | 'b' => some '\x08'
  | 'f' => some '\x0C'
  | 'n' => some '\n'
  | 'r' => some '\r'
  | 't' => some '\t'
  | _ => none

/-- The character whose number has the given hexadecimal digits, if it is the number of one. -/
def codePoint? (digits : List Char) : Option Char :=
  (hexNumber? digits).bind fun n => if n.isValidChar then some (Char.ofNat n) else none

/-- The characters between the quotes of a literal denote those of a text. -/
inductive Denotes : List Char → List Char → Prop
  | nil : Denotes [] []
  | plain {c : Char} {body value : List Char} (hc : isPlain c = true) (h : Denotes body value) :
      Denotes (c :: body) (c :: value)
  | short {c d : Char} {body value : List Char} (hc : shortEscape? c = some d)
      (h : Denotes body value) : Denotes ('\\' :: c :: body) (d :: value)
  | unicode {a b c d e : Char} {body value : List Char} (hc : codePoint? [a, b, c, d] = some e)
      (h : Denotes body value) : Denotes ('\\' :: 'u' :: a :: b :: c :: d :: body) (e :: value)

/-- A literal that denotes the text. -/
def IsLiteral (literal : List Char) (value : String) : Prop :=
  ∃ body, literal = '"' :: (body ++ ['"']) ∧ Denotes body value.toList

/-- Reads up to the closing quote: the text that is denoted, and what follows the quote. -/
def literalBody? : List Char → Option (List Char × List Char)
  | [] => none
  | '"' :: rest => some ([], rest)
  | '\\' :: 'u' :: a :: b :: c :: d :: rest =>
    (codePoint? [a, b, c, d]).bind fun e => (literalBody? rest).map (Prod.map (e :: ·) id)
  | '\\' :: c :: rest =>
    (shortEscape? c).bind fun d => (literalBody? rest).map (Prod.map (d :: ·) id)
  | c :: rest => if isPlain c then (literalBody? rest).map (Prod.map (c :: ·) id) else none

/-- Reads a literal. Three quotes in a row open a block, which is no literal. -/
def literal? : List Char → Option (String × List Char)
  | '"' :: '"' :: '"' :: _ => none
  | '"' :: rest => (literalBody? rest).map (Prod.map String.ofList id)
  | _ => none

/-! ### The reader follows the grammar -/

theorem literalBody?_plain {c : Char} (hc : isPlain c = true) (cs : List Char) :
    literalBody? (c :: cs) = (literalBody? cs).map (Prod.map (c :: ·) id) := by
  have hquote : c ≠ '"' := by rintro rfl; exact absurd hc (by decide)
  have hslash : c ≠ '\\' := by rintro rfl; exact absurd hc (by decide)
  rw [literalBody?, if_pos hc]
  · exact hquote
  · exact fun _ _ _ _ _ h _ => hslash h
  · exact fun _ _ h _ => hslash h

theorem literalBody?_short {c d : Char} (hc : shortEscape? c = some d) (cs : List Char) :
    literalBody? ('\\' :: c :: cs) = (literalBody? cs).map (Prod.map (d :: ·) id) := by
  have hu : c ≠ 'u' := by rintro rfl; simp [shortEscape?] at hc
  simp [literalBody?, hu, hc]

theorem literalBody?_unicode {a b c d e : Char} (hc : codePoint? [a, b, c, d] = some e)
    (cs : List Char) : literalBody? ('\\' :: 'u' :: a :: b :: c :: d :: cs) =
      (literalBody? cs).map (Prod.map (e :: ·) id) := by
  simp [literalBody?, hc]

/-- What the grammar has between the quotes is read, whatever follows. -/
theorem literalBody?_of_denotes {body value : List Char} (h : Denotes body value)
    (rest : List Char) : literalBody? (body ++ '"' :: rest) = some (value, rest) := by
  induction h with
  | nil => rw [List.nil_append, literalBody?]
  | plain hc h ih => rw [List.cons_append, literalBody?_plain hc, ih]; rfl
  | short hc h ih =>
    rw [List.cons_append, List.cons_append, literalBody?_short hc, ih]
    rfl
  | unicode hc h ih =>
    simp only [List.cons_append]
    rw [literalBody?_unicode hc, ih]
    rfl

/-- What is read stands between the quotes by the grammar. -/
theorem denotes_of_literalBody? {cs value rest : List Char}
    (h : literalBody? cs = some (value, rest)) :
    ∃ body, cs = body ++ '"' :: rest ∧ Denotes body value := by
  -- the cases are those of the reader: nothing, the quote, the escapes, a plain character, no other
  fun_induction literalBody? cs generalizing value with
  | case1 => cases h
  | case2 rest' =>
    cases h
    exact ⟨[], rfl, .nil⟩
  | case3 a b c d cs ih =>
    obtain ⟨e, he, h⟩ := Option.bind_eq_some_iff.1 h
    obtain ⟨⟨value', rest'⟩, hread, heq⟩ := Option.map_eq_some_iff.1 h
    cases heq
    obtain ⟨body, rfl, hbody⟩ := ih hread
    exact ⟨_, rfl, .unicode he hbody⟩
  | case4 c cs _ ih =>
    obtain ⟨d, hd, h⟩ := Option.bind_eq_some_iff.1 h
    obtain ⟨⟨value', rest'⟩, hread, heq⟩ := Option.map_eq_some_iff.1 h
    cases heq
    obtain ⟨body, rfl, hbody⟩ := ih hread
    exact ⟨_, rfl, .short hd hbody⟩
  | case5 c cs _ _ _ hc ih =>
    obtain ⟨⟨value', rest'⟩, hread, heq⟩ := Option.map_eq_some_iff.1 h
    cases heq
    obtain ⟨body, rfl, hbody⟩ := ih hread
    exact ⟨_, rfl, .plain hc hbody⟩
  | case6 => cases h

theorem Denotes.eq_nil {value : List Char} (h : Denotes [] value) : value = [] := by
  cases h
  rfl

/-- No quote stands at the front of what is between the quotes. -/
theorem Denotes.head?_ne_quote {body value : List Char} (h : Denotes body value) :
    body.head? ≠ some '"' := by
  cases h with
  | nil => simp
  | plain hc h =>
    rintro heq
    cases heq
    exact absurd hc (by decide)
  | short hc h => simp
  | unicode hc h => simp

/-- Behind its first quote a literal does not go on with two more: only the empty literal could, and
only if a quote follows it. -/
theorem Denotes.append_ne_quotes {body value rest : List Char} (h : Denotes body value)
    (hrest : value = [] → rest.head? ≠ some '"') (cs : List Char) :
    body ++ '"' :: rest ≠ '"' :: '"' :: cs := by
  intro heq
  cases body with
  | nil =>
    rw [List.nil_append, List.cons.injEq] at heq
    exact hrest h.eq_nil (by rw [heq.2]; rfl)
  | cons c body =>
    rw [List.cons_append, List.cons.injEq] at heq
    exact h.head?_ne_quote (by rw [heq.1]; rfl)

/-- A literal is read, whatever follows; only the empty literal must not be followed by a quote,
as that would open a block. -/
theorem literal?_append {literal rest : List Char} {value : String} (h : IsLiteral literal value)
    (hrest : value = "" → rest.head? ≠ some '"') :
    literal? (literal ++ rest) = some (value, rest) := by
  obtain ⟨body, rfl, hbody⟩ := h
  have hread := literalBody?_of_denotes hbody rest
  rw [List.cons_append, List.append_assoc, List.singleton_append, literal?, hread]
  · simp
  · exact hbody.append_ne_quotes fun hnil => hrest (String.toList_eq_nil_iff.1 hnil)

/-- What is read is a literal of the grammar. -/
theorem isLiteral_of_literal? {cs rest : List Char} {value : String}
    (h : literal? cs = some (value, rest)) :
    ∃ literal, cs = literal ++ rest ∧ IsLiteral literal value := by
  unfold literal? at h
  split at h
  · cases h
  · obtain ⟨⟨value', rest'⟩, hread, heq⟩ := Option.map_eq_some_iff.1 h
    cases heq
    obtain ⟨body, rfl, hbody⟩ := denotes_of_literalBody? hread
    refine ⟨'"' :: (body ++ ['"']), by simp, body, rfl, ?_⟩
    rwa [String.toList_ofList]
  · cases h

/-! ### Quoted texts -/

theorem hexUpper_mod (n : Nat) : hexUpper (n % 16) = hexUpper n := by
  simp only [hexUpper, Nat.mod_mod]

theorem hexValue?_hexUpper (n : Nat) : hexValue? (hexUpper n) = some (n % 16) := by
  have hdigit : ∀ d < 16, hexValue? (hexUpper d) = some d := by decide
  rw [← hexUpper_mod]
  exact hdigit _ (Nat.mod_lt _ (by decide))

/-- The four digits of a character of the basic plane are read as the character. -/
theorem codePoint?_hexUpper {c : Char} (hc : c.toNat < 0x10000) :
    codePoint? [hexUpper (c.toNat / 0x1000), hexUpper (c.toNat / 0x100),
      hexUpper (c.toNat / 0x10), hexUpper c.toNat] = some c := by
  have hnumber : hexNumber? [hexUpper (c.toNat / 0x1000), hexUpper (c.toNat / 0x100),
      hexUpper (c.toNat / 0x10), hexUpper c.toNat] = some c.toNat := by
    simp only [hexNumber?, List.foldlM_cons, List.foldlM_nil, hexValue?_hexUpper, Option.map_some,
      Option.bind_eq_bind, Option.bind_some, Option.pure_def, Option.some.injEq]
    omega
  rw [codePoint?, hnumber, Option.bind_some, if_pos, Char.ofNat_toNat]
  exact c.valid

theorem Denotes.escapeChar {body value : List Char} (c : Char) (h : Denotes body value) :
    Denotes (escapeChar c ++ body) (c :: value) := by
  unfold Text.escapeChar
  split_ifs with hquote hslash hn hr ht hb hf hcontrol
  · subst hquote; exact .short rfl h
  · subst hslash; exact .short rfl h
  · subst hn; exact .short rfl h
  · subst hr; exact .short rfl h
  · subst ht; exact .short rfl h
  · subst hb; exact .short rfl h
  · subst hf; exact .short rfl h
  -- the other control characters lie in the basic plane, where four digits are enough
  · refine .unicode (codePoint?_hexUpper ?_) h
    simp only [isControl, Bool.or_eq_true, Bool.and_eq_true, decide_eq_true_eq] at hcontrol
    omega
  · refine .plain ?_ h
    simp only [isControl, Bool.or_eq_true, Bool.and_eq_true, decide_eq_true_eq] at hcontrol
    simp only [isPlain, Bool.and_eq_true, bne_iff_ne, ne_eq, Bool.or_eq_true, decide_eq_true_eq]
    exact ⟨⟨hquote, hslash⟩, Or.inr (by omega)⟩

/-- An escaped text denotes itself. -/
theorem denotes_escapeChars (cs : List Char) : Denotes (escapeChars cs) cs := by
  induction cs with
  | nil => exact .nil
  | cons c cs ih => exact ih.escapeChar c

/-- A quoted text is a literal that denotes the text. -/
theorem isLiteral_quote (value : String) : IsLiteral (quote value).toList value := by
  refine ⟨escapeChars value.toList, ?_, denotes_escapeChars _⟩
  simp [quote, escape]

end HopQuery.Text
