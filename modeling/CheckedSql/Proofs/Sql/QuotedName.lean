/-
Reading a quoted identifier: from the opening quote up to the first quote that does not stand
twice. What the reader accepts is what quoting a name produces, whatever the name, in front of a
text that does not begin with a quote; so a quoted name is found again, no two names are quoted
alike, and no name ends its quoting early.
-/
import CheckedSql.Ident
import Mathlib.Logic.Function.Basic

namespace CheckedSql

namespace Ident

theorem escape_quote (name : List Char) : escape ('"' :: name) = '"' :: '"' :: escape name :=
  rfl

theorem escape_cons {c : Char} (h : c ≠ '"') (name : List Char) :
    escape (c :: name) = c :: escape name := by
  simp [escape, h]

theorem toList_quote_append (name : String) (rest : List Char) :
    (quote name).toList ++ rest = '"' :: (escape name.toList ++ '"' :: rest) := by
  simp [quote, quoteChars]

end Ident

namespace Sql

/-- The name that ends at the first quote that is not doubled, and what follows that quote. -/
def scanName : List Char → Option (List Char × List Char)
  | [] => none
  | '"' :: '"' :: cs => (scanName cs).map fun r => ('"' :: r.1, r.2)
  | '"' :: cs => some ([], cs)
  | c :: cs => (scanName cs).map fun r => (c :: r.1, r.2)

theorem scanName_close {cs : List Char} (h : cs.head? ≠ some '"') :
    scanName ('"' :: cs) = some ([], cs) := by
  cases cs with
  | nil => rfl
  | cons c cs =>
    have hc : c ≠ '"' := fun he => h (by rw [he]; rfl)
    rw [scanName]
    rintro cs' ⟨rfl, -⟩
    exact hc rfl

theorem scanName_cons {c : Char} (h : c ≠ '"') (cs : List Char) :
    scanName (c :: cs) = (scanName cs).map fun r => (c :: r.1, r.2) := by
  rw [scanName]
  · rintro cs' rfl; exact absurd rfl h
  · rintro rfl; exact h rfl

/-- An escaped name is read whole, whatever follows it: a quote in it is one of two. -/
theorem scanName_escape_append (name cs : List Char) :
    scanName (Ident.escape name ++ cs) = (scanName cs).map fun r => (name ++ r.1, r.2) := by
  induction name with
  | nil => exact (congrFun Option.map_id (scanName cs)).symm
  | cons c name ih =>
    by_cases hc : c = '"'
    · subst hc
      rw [Ident.escape_quote, List.cons_append, List.cons_append, scanName, ih, Option.map_map]
      rfl
    · rw [Ident.escape_cons hc, List.cons_append, scanName_cons hc, ih, Option.map_map]
      rfl

/-- An escaped name is read up to the quote behind it, if no further quote follows that one. -/
theorem scanName_escape (name : List Char) {rest : List Char} (h : rest.head? ≠ some '"') :
    scanName (Ident.escape name ++ '"' :: rest) = some (name, rest) := by
  rw [scanName_escape_append, scanName_close h, Option.map_some, List.append_nil]

theorem scanName_eq_some_iff {cs name rest : List Char} :
    scanName cs = some (name, rest) ↔
      cs = Ident.escape name ++ '"' :: rest ∧ rest.head? ≠ some '"' := by
  constructor
  · intro h
    fun_induction scanName cs generalizing name with
    | case1 => cases h
    | case2 cs ih =>
      obtain ⟨⟨read, left⟩, hread, heq⟩ := Option.map_eq_some_iff.1 h
      cases heq
      obtain ⟨rfl, hrest⟩ := ih hread
      exact ⟨by rw [Ident.escape_quote]; rfl, hrest⟩
    | case3 cs hnot =>
      cases h
      refine ⟨rfl, fun hquote => ?_⟩
      obtain ⟨left, hleft⟩ := List.head?_eq_some_iff.1 hquote
      exact hnot left hleft
    | case4 c cs _ hc ih =>
      obtain ⟨⟨read, left⟩, hread, heq⟩ := Option.map_eq_some_iff.1 h
      cases heq
      obtain ⟨rfl, hrest⟩ := ih hread
      exact ⟨by rw [Ident.escape_cons hc]; rfl, hrest⟩
  · rintro ⟨rfl, hrest⟩
    exact scanName_escape name hrest

/-! ## Quoted names in a text -/

/-- The name that is quoted at the beginning of a text, and what follows its closing quote. -/
def readName (text : String) : Option (String × String) :=
  match text.toList with
  | '"' :: cs => (scanName cs).map fun r => (String.ofList r.1, String.ofList r.2)
  | _ => none

/-- Reading accepts what quoting produces, and only that. -/
theorem readName_eq_some_iff {text name rest : String} :
    readName text = some (name, rest) ↔
      text = Ident.quote name ++ rest ∧ rest.toList.head? ≠ some '"' := by
  have hchars : text = Ident.quote name ++ rest ↔
      text.toList = '"' :: (Ident.escape name.toList ++ '"' :: rest.toList) := by
    rw [← String.toList_inj, String.toList_append, Ident.toList_quote_append]
  rw [hchars]
  constructor
  · intro h
    unfold readName at h
    split at h
    case h_1 cs hcs =>
      obtain ⟨⟨read, left⟩, hread, heq⟩ := Option.map_eq_some_iff.1 h
      cases heq
      obtain ⟨rfl, hrest⟩ := scanName_eq_some_iff.1 hread
      rw [String.toList_ofList, String.toList_ofList]
      exact ⟨hcs, hrest⟩
    case h_2 => cases h
  · rintro ⟨htext, hrest⟩
    rw [readName, htext]
    simp [scanName_escape name.toList hrest]

/-- Whatever follows a quoted name, the reader does not stop before the name's last quote. -/
theorem suffix_of_readName_quote {name rest other after : String}
    (h : readName (Ident.quote name ++ rest) = some (other, after)) :
    ∃ more, rest = more ++ after := by
  rw [readName, String.toList_append, Ident.toList_quote_append] at h
  obtain ⟨⟨read, left⟩, hread, heq⟩ := Option.map_eq_some_iff.1 h
  cases heq
  rw [scanName_escape_append] at hread
  obtain ⟨⟨last, left⟩, hlast, heq⟩ := Option.map_eq_some_iff.1 hread
  cases heq
  -- the reader stops at the last quote, or takes it for the first of two and goes on behind it
  obtain ⟨hrest, -⟩ := scanName_eq_some_iff.1 hlast
  cases hescape : Ident.escape last with
  | nil =>
    rw [hescape] at hrest
    cases hrest
    exact ⟨"", by simp⟩
  | cons c cs =>
    rw [hescape] at hrest
    have htail := (List.cons.inj hrest).2
    refine ⟨String.ofList (cs ++ ['"']), ?_⟩
    rw [← String.toList_inj, htail]
    simp

/-- A quoted name in front of a text that does not begin with a quote is read back, and so are the
characters that follow it; nothing else is read as a name. No two names are quoted alike, and
whatever follows, the reader takes in every character that the quoting of a name consists of. -/
theorem readName_quote :
    (∀ text name rest : String, readName text = some (name, rest) ↔
        text = Ident.quote name ++ rest ∧ rest.toList.head? ≠ some '"') ∧
      Function.Injective Ident.quote ∧
      ∀ name rest other after : String,
        readName (Ident.quote name ++ rest) = some (other, after) →
          ∃ more, rest = more ++ after := by
  refine ⟨fun text name rest => readName_eq_some_iff, fun name other h => ?_,
    fun name rest other after => suffix_of_readName_quote⟩
  have hname : readName (Ident.quote name) = some (name, "") :=
    readName_eq_some_iff.2 ⟨by simp, by simp⟩
  have hother : readName (Ident.quote name) = some (other, "") :=
    readName_eq_some_iff.2 ⟨by simp [h], by simp⟩
  rw [hname] at hother
  cases hother
  rfl

/-- Quotes at the beginning of a name, in the middle and, an odd number, at its end. -/
theorem readName_quote_runs :
    " AS x".toList.head? ≠ some '"' ∧
      readName "\"\"\"a\"\"\"\"b\"\"\"\"\"\"\" AS x" = some ("\"a\"\"b\"\"\"", " AS x") := by
  have hrest : " AS x".toList.head? ≠ some '"' := by decide
  exact ⟨hrest, (readName_quote.1 _ _ _).2 ⟨by decide, hrest⟩⟩

end Sql

end CheckedSql
