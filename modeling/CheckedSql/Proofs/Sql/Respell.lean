/-
Writing something else for each placeholder of a text: outside of quoted identifiers a dollar sign
and the longest run of digits behind it are replaced, and all else is left as it is. On the text of a
sequence of tokens this is the text of the tokens with their parameters spelled so.
-/
import CheckedSql.Proofs.Sql.Placeholder
import CheckedSql.Proofs.Sql.Tokens

namespace CheckedSql.Sql

/-- The characters of a text with something else for each placeholder. The text begins inside or
outside of a quoted identifier; its first `skip` characters, digits that have been replaced, are
left out. -/
def respellFrom (spell : Nat → String) : (quoted : Bool) → (skip : Nat) → List Char → List Char
  | _, _, [] => []
  | quoted, skip + 1, _ :: cs => respellFrom spell quoted skip cs
  | true, 0, c :: cs => c :: respellFrom spell (c != '"') 0 cs
  | false, 0, c :: cs =>
    let digits := cs.takeWhile Char.isDigit
    if c = '$' && !digits.isEmpty then
      (spell (Nat.ofDigitChars 10 digits 0)).toList ++ respellFrom spell false digits.length cs
    else c :: respellFrom spell (c == '"') 0 cs

/-- A text with each placeholder replaced by what its number is spelled as. -/
def respell (spell : Nat → String) (sql : String) : String :=
  String.ofList (respellFrom spell false 0 sql.toList)

section

variable (spell : Nat → String)

/-! ## Text without placeholders -/

theorem respellFrom_quiet {cs : List Char} (h : cs.all isQuiet = true) (rest : List Char) :
    respellFrom spell false 0 (cs ++ rest) = cs ++ respellFrom spell false 0 rest := by
  induction cs with
  | nil => rfl
  | cons c cs ih =>
    rw [List.all_cons, Bool.and_eq_true] at h
    obtain ⟨hc, hcs⟩ := h
    obtain ⟨hq, hd⟩ := isQuiet_iff.1 hc
    have hout : (c == '"') = false := by simpa using hq
    rw [List.cons_append, respellFrom]
    simp [hd, hout, ih hcs]

theorem respellFrom_escape (name rest : List Char) :
    respellFrom spell true 0 (Ident.escape name ++ rest) =
      Ident.escape name ++ respellFrom spell true 0 rest := by
  induction name with
  | nil => rfl
  | cons c name ih =>
    by_cases hc : c = '"'
    · subst hc
      -- the first of two quotes leaves the identifier, the second enters it again
      rw [Ident.escape_quote, List.cons_append, List.cons_append, List.cons_append, List.cons_append, ← ih]
      rfl
    · have hne : (c != '"') = true := by simpa using hc
      rw [Ident.escape_cons hc, List.cons_append, List.cons_append, respellFrom, hne, ih]

theorem respellFrom_quote (name : String) (rest : List Char) :
    respellFrom spell false 0 ((Ident.quote name).toList ++ rest) =
      (Ident.quote name).toList ++ respellFrom spell false 0 rest := by
  rw [Ident.toList_quote_append, Ident.toList_quote_append]
  show '"' :: respellFrom spell true 0 (Ident.escape name.toList ++ '"' :: rest) = _
  rw [respellFrom_escape]
  rfl

/-! ## Placeholders -/

theorem respellFrom_skip (quoted : Bool) (cs rest : List Char) :
    respellFrom spell quoted cs.length (cs ++ rest) = respellFrom spell quoted 0 rest := by
  induction cs with
  | nil => rfl
  | cons c cs ih => rw [List.length_cons, List.cons_append, respellFrom, ih]

theorem respellFrom_placeholder (n : Nat) {rest : List Char} (h : Ends rest) :
    respellFrom spell false 0 ((placeholder n).toList ++ rest) =
      (spell n).toList ++ respellFrom spell false 0 rest := by
  have hchars : (placeholder n).toList ++ rest = '$' :: (Nat.toDigits 10 n ++ rest) := by
    simp [placeholder]
  have hrun : (Nat.toDigits 10 n ++ rest).takeWhile Char.isDigit = Nat.toDigits 10 n :=
    congrArg Prod.fst (h.run_append (digits_all n) (by decide))
  rw [hchars, respellFrom, hrun]
  simp [Nat.toDigits_ne_nil, Nat.ofDigitChars_ten_toDigits, respellFrom_skip]

/-! ## The text of tokens -/

theorem respellFrom_text (t : Token Nat) (rest : List Char)
    (h : t.tightAfter = true ∨ Ends rest) :
    respellFrom spell false 0 ((t.text placeholder).toList ++ rest) =
      (t.text spell).toList ++ respellFrom spell false 0 rest := by
  cases t with
  | keyword k => exact respellFrom_quiet spell (plain_quiet k.text_plain) rest
  | call k => exact respellFrom_quiet spell (call_quiet k) rest
  | symbol s => exact respellFrom_quiet spell s.text_quiet rest
  | identifier name => exact respellFrom_quote spell name rest
  | param n =>
    exact respellFrom_placeholder spell n (h.resolve_left (by simp [Token.tightAfter]))
  | number n => exact respellFrom_quiet spell (number_quiet n) rest

theorem respellFrom_textOf (ts : List (Token Nat)) :
    respellFrom spell false 0 (textOf placeholder ts).toList = (textOf spell ts).toList := by
  induction ts with
  | nil => rfl
  | cons t ts ih =>
    rw [textOf_cons, respellFrom_text spell t _ (gap_ends t ts),
      respellFrom_quiet spell (gapBefore_quiet t ts), ih, textOf, String.toList_append,
      String.toList_append]

/-- Replacing the placeholders in the text of a sequence of tokens is spelling its parameters
otherwise. -/
theorem respell_textOf (ts : List (Token Nat)) :
    respell spell (textOf placeholder ts) = textOf spell ts := by
  rw [respell, respellFrom_textOf, String.ofList_toList]

end

end CheckedSql.Sql
