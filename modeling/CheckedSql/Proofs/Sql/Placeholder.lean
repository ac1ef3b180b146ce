/-
Finding the placeholders in a text without knowing its tokens: outside of quoted identifiers, a
dollar sign and the longest run of digits behind it. In the text of a sequence of tokens these are
the parameters of the sequence, in order: no name hides a placeholder or looks like one, and no
placeholder runs into digits that follow it.
-/
import CheckedSql.Proofs.Sql.Scan

namespace CheckedSql.Sql

/-- The numbers of the placeholders in a text that begins inside or outside of a quoted
identifier. -/
def placeholders : (quoted : Bool) → List Char → List Nat
  | _, [] => []
  | true, c :: cs => placeholders (c != '"') cs
  | false, c :: cs =>
    let digits := cs.takeWhile Char.isDigit
    if c = '$' && !digits.isEmpty then Nat.ofDigitChars 10 digits 0 :: placeholders false cs
    else placeholders (c == '"') cs

/-- The numbers of the placeholders of a text, in the order of the text. -/
def placeholdersOf (sql : String) : List Nat :=
  placeholders false sql.toList

/-! ## Text without placeholders -/

/-- A character that neither begins a placeholder nor begins or ends a quoted identifier. -/
def isQuiet (c : Char) : Bool :=
  c != '"' && c != '$'

theorem isQuiet_iff {c : Char} : isQuiet c = true ↔ c ≠ '"' ∧ c ≠ '$' := by
  rw [isQuiet, Bool.and_eq_true, bne_iff_ne, bne_iff_ne]

theorem placeholders_quiet {cs : List Char} (h : cs.all isQuiet = true) (rest : List Char) :
    placeholders false (cs ++ rest) = placeholders false rest := by
  induction cs with
  | nil => rfl
  | cons c cs ih =>
    rw [List.all_cons, Bool.and_eq_true] at h
    obtain ⟨hc, hcs⟩ := h
    obtain ⟨hq, hd⟩ := isQuiet_iff.1 hc
    have hout : (c == '"') = false := by simpa using hq
    rw [List.cons_append, placeholders]
    simp [hd, hout, ih hcs]

theorem isPart_quiet (c : Char) (h : Ident.isPart c = true) : isQuiet c = true := by
  rw [isQuiet_iff]
  constructor
  · rintro rfl; revert h; decide
  · rintro rfl; revert h; decide

theorem plain_quiet {s : String} (h : Ident.isPlain s = true) : s.toList.all isQuiet = true :=
  plain_all isPart_quiet h

theorem Symbol.text_quiet (s : Symbol) : s.text.toList.all isQuiet = true := by
  cases s <;> decide

theorem digits_quiet (n : Nat) : (Nat.toDigits 10 n).all isQuiet = true :=
  digits_all_part isPart_quiet n

theorem number_quiet (n : Nat) : (toString n).toList.all isQuiet = true := by
  simpa using digits_quiet n

theorem call_quiet (k : Keyword) : (k.text ++ "(").toList.all isQuiet = true := by
  rw [String.toList_append, List.all_append, plain_quiet k.text_plain]
  rfl

theorem gapBefore_quiet (t : Token Nat) (ts : List (Token Nat)) :
    (t.gapBefore ts).toList.all isQuiet = true := by
  rcases gapBefore_cases t ts with hgap | hgap <;> rw [hgap] <;> rfl

/-! ## Quoted identifiers -/

/-- A doubled quote leaves the identifier and enters it again. -/
theorem placeholders_escape (name rest : List Char) :
    placeholders true (Ident.escape name ++ rest) = placeholders true rest := by
  induction name with
  | nil => rfl
  | cons c name ih =>
    by_cases hc : c = '"'
    · subst hc
      rw [Ident.escape_quote, ← ih]
      rfl
    · have hne : (c != '"') = true := by simpa using hc
      rw [Ident.escape_cons hc, List.cons_append, placeholders, hne, ih]

theorem placeholders_quote (name : String) (rest : List Char) :
    placeholders false ((Ident.quote name).toList ++ rest) = placeholders false rest := by
  rw [Ident.toList_quote_append]
  show placeholders true (Ident.escape name.toList ++ '"' :: rest) = _
  rw [placeholders_escape]
  rfl

/-! ## The text of tokens -/

/-- The digits of a placeholder end where it ends. -/
theorem placeholders_placeholder (n : Nat) {rest : List Char} (h : Ends rest) :
    placeholders false ((placeholder n).toList ++ rest) = n :: placeholders false rest := by
  have hchars : (placeholder n).toList ++ rest = '$' :: (Nat.toDigits 10 n ++ rest) := by
    simp [placeholder]
  have hrun : (Nat.toDigits 10 n ++ rest).takeWhile Char.isDigit = Nat.toDigits 10 n :=
    congrArg Prod.fst (h.run_append (digits_all n) (by decide))
  rw [hchars, placeholders, hrun]
  simp [Nat.toDigits_ne_nil, Nat.ofDigitChars_ten_toDigits, placeholders_quiet (digits_quiet n)]

/-- A token that is no parameter holds no placeholder. -/
theorem placeholders_text (t : Token Nat) (rest : List Char)
    (h : t.tightAfter = true ∨ Ends rest) :
    placeholders false ((t.text placeholder).toList ++ rest) =
      t.param?.toList ++ placeholders false rest := by
  cases t with
  | keyword k => exact placeholders_quiet (plain_quiet k.text_plain) rest
  | call k => exact placeholders_quiet (call_quiet k) rest
  | symbol s => exact placeholders_quiet s.text_quiet rest
  | identifier name => exact placeholders_quote name rest
  | param n => exact placeholders_placeholder n (h.resolve_left (by simp [Token.tightAfter]))
  | number n => exact placeholders_quiet (number_quiet n) rest

/-- The placeholders of the text of a sequence of tokens are the parameters of the sequence. -/
theorem placeholdersOf_textOf (ts : List (Token Nat)) :
    placeholdersOf (textOf placeholder ts) = paramsOf ts := by
  unfold placeholdersOf
  induction ts with
  | nil => rfl
  | cons t ts ih =>
    rw [textOf_cons, placeholders_text t _ (gap_ends t ts),
      placeholders_quiet (gapBefore_quiet t ts), ih]
    cases t <;> rfl

end CheckedSql.Sql
