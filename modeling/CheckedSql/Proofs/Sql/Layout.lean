/-
The text of sequences of tokens that are put together. Parentheses leave no blank at their inner
side, and clauses, each of which begins with a word, have one blank before them: so the text of a
statement falls into the texts of its clauses.
-/
import CheckedSql.Proofs.Sql.Tokens

namespace CheckedSql.Sql

variable {π : Type} (spell : π → String)

/-! ## Two sequences -/

/-- What stands between two sequences written one after the other. -/
def gapBetween (ts us : List (Token π)) : String :=
  (ts.getLast?.map (·.gapBefore us)).getD ""

theorem textOf_append (ts us : List (Token π)) :
    textOf spell (ts ++ us) = textOf spell ts ++ (gapBetween ts us ++ textOf spell us) := by
  induction ts with
  | nil => simp [gapBetween, textOf]
  | cons t ts ih =>
    cases ts with
    | nil => simp [gapBetween, textOf, Token.gapBefore]
    | cons t' ts =>
      have hlast : gapBetween (t :: t' :: ts) us = gapBetween (t' :: ts) us := by
        rw [gapBetween, gapBetween, List.getLast?_cons_cons]
      show t.text spell ++ (t.gapBefore (t' :: ts) ++ textOf spell (t' :: ts ++ us)) =
        t.text spell ++ (t.gapBefore (t' :: ts) ++ textOf spell (t' :: ts)) ++ _
      rw [ih, hlast]
      simp only [String.append_assoc]

/-- No blanks stand at the inner side of parentheses. -/
theorem textOf_parenthesized (ts : List (Token π)) :
    textOf spell (parenthesized ts) = "(" ++ textOf spell ts ++ ")" := by
  have hopen (us : List (Token π)) : (.symbol .openParen : Token π).gapBefore us = "" := by
    cases us <;> rfl
  have hclose : gapBetween ts [Token.symbol .closeParen] = "" := by
    unfold gapBetween
    cases ts.getLast? with
    | none => rfl
    | some t => simp [Token.gapBefore, Token.gap, Token.tightBefore]
  have htext : textOf spell [Token.symbol .closeParen] = ")" := rfl
  show textOf spell (.symbol .openParen :: (ts ++ [.symbol .closeParen])) = _
  rw [textOf, hopen, textOf_append, hclose, htext, String.empty_append, String.empty_append,
    String.append_assoc]
  rfl

/-! ## How sequences begin and end -/

/-- A sequence behind which a blank stands, if a word comes next. -/
def EndsLoose (ts : List (Token π)) : Prop :=
  ∀ t ∈ ts.getLast?, t.tightAfter = false

/-- A sequence that is not empty and before which a blank stands, unless what precedes it is tight. -/
def StartsLoose (ts : List (Token π)) : Prop :=
  ∃ t ∈ ts.head?, t.tightBefore = false

/-- A sequence that begins with a word, unless it is empty. -/
def StartsWithWord (ts : List (Token π)) : Prop :=
  ∀ t ∈ ts.head?, ∃ k, t = .keyword k

theorem EndsLoose.append {ts us : List (Token π)} (hts : EndsLoose ts) (hus : EndsLoose us) :
    EndsLoose (ts ++ us) := by
  intro t ht
  rw [List.getLast?_append, Option.mem_def, Option.or_eq_some_iff] at ht
  rcases ht with ht | ⟨-, ht⟩
  · exact hus t ht
  · exact hts t ht

/-- How a sequence ends is decided by its last part. -/
theorem EndsLoose.behind {us : List (Token π)} (h : EndsLoose us) (hne : us ≠ [])
    (ts : List (Token π)) : EndsLoose (ts ++ us) := by
  intro t ht
  rw [List.getLast?_append, List.getLast?_eq_some_getLast hne] at ht
  exact h t ((List.getLast?_eq_some_getLast hne).trans ht)

theorem endsLoose_singleton {t : Token π} (h : t.tightAfter = false) : EndsLoose [t] := by
  rintro u ⟨⟩
  exact h

theorem endsLoose_concat (ts : List (Token π)) {t : Token π} (h : t.tightAfter = false) :
    EndsLoose (ts ++ [t]) :=
  (endsLoose_singleton h).behind (List.cons_ne_nil _ _) ts

theorem endsLoose_parenthesized (ts : List (Token π)) : EndsLoose (parenthesized ts) :=
  endsLoose_concat (.symbol .openParen :: ts) rfl

theorem endsLoose_keywords (ks : List Keyword) : EndsLoose (keywords ks : List (Token π)) := by
  intro t ht
  obtain ⟨k, -, rfl⟩ := List.mem_map.1 (List.mem_of_getLast? ht)
  rfl

theorem EndsLoose.intercalate {sep : List (Token π)} (hsep : EndsLoose sep)
    {tss : List (List (Token π))} (h : ∀ ts ∈ tss, EndsLoose ts) :
    EndsLoose (sep.intercalate tss) := by
  induction tss with
  | nil => rintro t ⟨⟩
  | cons ts tss ih =>
    obtain ⟨hts, htss⟩ := List.forall_mem_cons.1 h
    cases tss with
    | nil => simpa using hts
    | cons us tss =>
      rw [List.intercalate_cons_cons]
      exact (hts.append hsep).append (ih htss)

theorem endsLoose_commaSeparated {tss : List (List (Token π))} (h : ∀ ts ∈ tss, EndsLoose ts) :
    EndsLoose (commaSeparated tss) :=
  (endsLoose_singleton rfl).intercalate h

theorem StartsWithWord.append {ts us : List (Token π)} (hts : StartsWithWord ts)
    (hus : StartsWithWord us) : StartsWithWord (ts ++ us) := by
  intro t ht
  rw [List.head?_append, Option.mem_def, Option.or_eq_some_iff] at ht
  rcases ht with ht | ⟨-, ht⟩
  · exact hts t ht
  · exact hus t ht

theorem startsWithWord_cons (k : Keyword) (ts : List (Token π)) :
    StartsWithWord (.keyword k :: ts) := by
  rintro t ⟨⟩
  exact ⟨k, rfl⟩

theorem startsLoose_cons {t : Token π} (h : t.tightBefore = false) (ts : List (Token π)) :
    StartsLoose (t :: ts) :=
  ⟨t, rfl, h⟩

theorem StartsLoose.append {ts : List (Token π)} (h : StartsLoose ts) (us : List (Token π)) :
    StartsLoose (ts ++ us) := by
  obtain ⟨t, ht, hloose⟩ := h
  exact ⟨t, by rw [List.head?_append, ht]; rfl, hloose⟩

theorem StartsLoose.intercalate {ts : List (Token π)} (h : StartsLoose ts) (sep : List (Token π))
    (tss : List (List (Token π))) : StartsLoose (sep.intercalate (ts :: tss)) := by
  cases tss with
  | nil => simpa using h
  | cons us tss =>
    rw [List.intercalate_cons_cons, List.append_assoc]
    exact h.append _

/-! ## Lists -/

/-- A blank stands between two sequences, if both let it. -/
theorem textOf_append_loose {ts us : List (Token π)} (hne : ts ≠ []) (hts : EndsLoose ts)
    (hus : StartsLoose us) :
    textOf spell (ts ++ us) = textOf spell ts ++ " " ++ textOf spell us := by
  obtain ⟨u, hu, hloose⟩ := hus
  obtain ⟨us, rfl⟩ := List.head?_eq_some_iff.1 hu
  have hlast : ts.getLast? = some (ts.getLast hne) := List.getLast?_eq_some_getLast hne
  have hgap : gapBetween ts (u :: us) = " " := by
    rw [gapBetween, hlast, Option.map_some, Option.getD_some, Token.gapBefore, Token.gap,
      hts _ hlast, hloose]
    rfl
  rw [textOf_append, hgap, String.append_assoc]

theorem textOf_cons_loose {t : Token π} (ht : t.tightAfter = false) {ts : List (Token π)}
    (hts : StartsLoose ts) : textOf spell (t :: ts) = t.text spell ++ " " ++ textOf spell ts := by
  have hone : textOf spell [t] = t.text spell := by simp [textOf, Token.gapBefore]
  rw [← hone]
  exact textOf_append_loose spell (List.cons_ne_nil t []) (endsLoose_singleton ht) hts

/-- Parts with commas between them have a blank after each comma and none before it. -/
theorem textOf_commaSeparated {tss : List (List (Token π))} (h : ∀ ts ∈ tss, StartsLoose ts) :
    textOf spell (commaSeparated tss) = ", ".intercalate (tss.map (textOf spell)) := by
  unfold commaSeparated
  induction tss with
  | nil => simp [textOf]
  | cons ts tss ih =>
    obtain ⟨-, htss⟩ := List.forall_mem_cons.1 h
    cases tss with
    | nil => simp
    | cons us tss =>
      have hrest : StartsLoose ([Token.symbol .comma].intercalate (us :: tss)) :=
        (htss us List.mem_cons_self).intercalate _ _
      have hgap : gapBetween ts (.symbol .comma ::
          [Token.symbol .comma].intercalate (us :: tss)) = "" := by
        unfold gapBetween
        cases ts.getLast? with
        | none => rfl
        | some t => simp [Token.gapBefore, Token.gap, Token.tightBefore]
      have hcomma : (Token.symbol .comma : Token π).text spell ++ " " = ", " := rfl
      rw [List.intercalate_cons_cons, List.append_assoc, List.singleton_append, textOf_append,
        hgap, textOf_cons_loose spell rfl hrest, ih htss, hcomma, List.map_cons, List.map_cons,
        List.map_cons, String.intercalate_cons_cons, String.empty_append, String.append_assoc]

/-! ## Clauses one after the other -/

/-- The text of a sequence behind a blank; nothing for an empty one. -/
def spaced (ts : List (Token π)) : String :=
  if ts.isEmpty then "" else " " ++ textOf spell ts

theorem textOf_append_spaced {ts us : List (Token π)} (hne : ts ≠ []) (hts : EndsLoose ts)
    (hus : StartsWithWord us) :
    textOf spell (ts ++ us) = textOf spell ts ++ spaced spell us := by
  cases us with
  | nil =>
    show textOf spell (ts ++ []) = textOf spell ts ++ ""
    rw [List.append_nil, String.append_empty]
  | cons u us =>
    obtain ⟨k, rfl⟩ := hus u rfl
    rw [textOf_append_loose spell hne hts (startsLoose_cons rfl us), String.append_assoc]
    rfl

/-- Clauses one after the other have one blank before each. -/
theorem spaced_append {ts us : List (Token π)} (hts : EndsLoose ts) (hus : StartsWithWord us) :
    spaced spell (ts ++ us) = spaced spell ts ++ spaced spell us := by
  cases ts with
  | nil =>
    show spaced spell us = "" ++ spaced spell us
    rw [String.empty_append]
  | cons t ts =>
    show " " ++ textOf spell (t :: ts ++ us) = " " ++ textOf spell (t :: ts) ++ spaced spell us
    rw [textOf_append_spaced spell (List.cons_ne_nil _ _) hts hus, String.append_assoc]

end CheckedSql.Sql
