/-
Laws of token sequences: renaming the parameters of a sequence commutes with how sequences are put
together and written, and the parameters of a sequence are those of its parts, in order.
-/
import CheckedSql.Sql.Token

namespace CheckedSql.Sql

variable {π ρ : Type}

/-! ## Clauses -/

/-- The tokens of a clause that is written only if it has members. -/
def clauseTokens {α : Type} (lead : List (Token π)) (sep : Token π) (write : α → List (Token π))
    (xs : List α) : List (Token π) :=
  if xs.isEmpty then [] else lead ++ [sep].intercalate (xs.map write)

/-! ## Renaming -/

@[simp]
theorem Token.tightAfter_map (f : π → ρ) (t : Token π) : (t.map f).tightAfter = t.tightAfter := by
  cases t with
  | symbol s => cases s <;> rfl
  | _ => rfl

@[simp]
theorem Token.tightBefore_map (f : π → ρ) (t : Token π) : (t.map f).tightBefore = t.tightBefore := by
  cases t with
  | symbol s => cases s <;> rfl
  | _ => rfl

theorem gapBefore_map (f : π → ρ) (t : Token π) (ts : List (Token π)) :
    (t.map f).gapBefore (ts.map (Token.map f)) = t.gapBefore ts := by
  cases ts with
  | nil => rfl
  | cons u us => simp [Token.gapBefore, Token.gap]

/-- Renaming parameters and then spelling them is spelling them by their new names. -/
theorem textOf_map (f : π → ρ) (spell : ρ → String) (ts : List (Token π)) :
    textOf spell (ts.map (Token.map f)) = textOf (spell ∘ f) ts := by
  induction ts with
  | nil => rfl
  | cons t ts ih =>
    have ht : (t.map f).text spell = t.text (spell ∘ f) := by cases t <;> rfl
    rw [List.map_cons, textOf, textOf, ih, ht, gapBefore_map]

theorem map_intercalate {α β : Type} (f : α → β) (sep : List α) (ls : List (List α)) :
    (sep.intercalate ls).map f = (sep.map f).intercalate (ls.map (List.map f)) := by
  induction ls with
  | nil => rfl
  | cons l ls ih =>
    cases ls with
    | nil => simp
    | cons l' ls =>
      rw [List.intercalate_cons_cons, List.map_cons, List.map_cons, List.intercalate_cons_cons,
        ← List.map_cons, ← ih]
      simp

@[simp]
theorem map_parenthesized (f : π → ρ) (ts : List (Token π)) :
    (parenthesized ts).map (Token.map f) = parenthesized (ts.map (Token.map f)) := by
  simp [parenthesized, Token.map]

@[simp]
theorem map_keywords (f : π → ρ) (ks : List Keyword) :
    (keywords ks).map (Token.map f) = keywords ks := by
  simp [keywords, Token.map]

theorem map_tokenMap {σ : Type} (f : π → ρ) (g : ρ → σ) (ts : List (Token π)) :
    (ts.map (Token.map f)).map (Token.map g) = ts.map (Token.map (g ∘ f)) := by
  rw [List.map_map]
  refine List.map_congr_left fun t _ => ?_
  cases t <;> rfl

/-- Renamings that agree on the parameters of a sequence make the same of it. -/
theorem map_congr_params {f g : π → ρ} {ts : List (Token π)} (h : ∀ p ∈ paramsOf ts, f p = g p) :
    ts.map (Token.map f) = ts.map (Token.map g) := by
  refine List.map_congr_left fun t ht => ?_
  cases t with
  | param p => exact congrArg Token.param (h p (List.mem_filterMap.2 ⟨_, ht, rfl⟩))
  | _ => rfl

/-- A renaming that keeps the parameters of a sequence keeps the sequence. -/
theorem map_eq_self {f : π → π} {ts : List (Token π)} (h : ∀ p ∈ paramsOf ts, f p = p) :
    ts.map (Token.map f) = ts := by
  refine (List.map_congr_left fun t ht => ?_).trans (List.map_id ts)
  cases t with
  | param p => exact congrArg Token.param (h p (List.mem_filterMap.2 ⟨_, ht, rfl⟩))
  | _ => rfl

/-! ## Absent tokens -/

theorem not_mem_map_keyword {k : Keyword} {ts : List (Token π)} (h : .keyword k ∉ ts) (f : π → ρ) :
    .keyword k ∉ ts.map (Token.map f) := by
  intro hmem
  obtain ⟨t, ht, hk⟩ := List.mem_map.1 hmem
  cases t <;> cases hk
  exact h ht

theorem not_mem_intercalate {t : Token π} {sep : List (Token π)} (hsep : t ∉ sep)
    {tss : List (List (Token π))} (h : ∀ ts ∈ tss, t ∉ ts) : t ∉ sep.intercalate tss := by
  induction tss with
  | nil => exact List.not_mem_nil
  | cons ts tss ih =>
    obtain ⟨hts, htss⟩ := List.forall_mem_cons.1 h
    cases tss with
    | nil => rwa [List.intercalate_singleton]
    | cons us tss =>
      rw [List.intercalate_cons_cons, List.mem_append, List.mem_append]
      rintro ((hmem | hmem) | hmem)
      · exact hts hmem
      · exact hsep hmem
      · exact ih htss hmem

theorem not_mem_commaSeparated {t : Token π} (ht : t ≠ .symbol .comma)
    {tss : List (List (Token π))} (h : ∀ ts ∈ tss, t ∉ ts) : t ∉ commaSeparated tss :=
  not_mem_intercalate (fun hmem => ht (List.mem_singleton.1 hmem)) h

/-! ## Parameters -/

theorem mem_paramsOf {p : π} {ts : List (Token π)} : p ∈ paramsOf ts ↔ .param p ∈ ts := by
  rw [paramsOf, List.mem_filterMap]
  constructor
  · rintro ⟨t, ht, hp⟩
    cases t <;> cases hp
    exact ht
  · exact fun h => ⟨_, h, rfl⟩

@[simp]
theorem paramsOf_nil : paramsOf ([] : List (Token π)) = [] :=
  rfl

@[simp]
theorem paramsOf_append (ts us : List (Token π)) :
    paramsOf (ts ++ us) = paramsOf ts ++ paramsOf us := by
  simp [paramsOf]

@[simp]
theorem paramsOf_param (p : π) (ts : List (Token π)) :
    paramsOf (.param p :: ts) = p :: paramsOf ts :=
  rfl

@[simp]
theorem paramsOf_keyword (k : Keyword) (ts : List (Token π)) :
    paramsOf (.keyword k :: ts) = paramsOf ts :=
  rfl

@[simp]
theorem paramsOf_call (k : Keyword) (ts : List (Token π)) :
    paramsOf (.call k :: ts) = paramsOf ts :=
  rfl

@[simp]
theorem paramsOf_symbol (s : Symbol) (ts : List (Token π)) :
    paramsOf (.symbol s :: ts) = paramsOf ts :=
  rfl

@[simp]
theorem paramsOf_identifier (name : String) (ts : List (Token π)) :
    paramsOf (.identifier name :: ts) = paramsOf ts :=
  rfl

@[simp]
theorem paramsOf_number (n : Nat) (ts : List (Token π)) :
    paramsOf (.number n :: ts) = paramsOf ts :=
  rfl

@[simp]
theorem paramsOf_keywords (ks : List Keyword) : paramsOf (keywords ks : List (Token π)) = [] := by
  induction ks with
  | nil => rfl
  | cons k ks ih => rw [keywords, List.map_cons, paramsOf_keyword]; exact ih

@[simp]
theorem paramsOf_parenthesized (ts : List (Token π)) :
    paramsOf (parenthesized ts) = paramsOf ts := by
  simp [parenthesized]

/-- Separators without parameters leave the parameters of the parts. -/
theorem paramsOf_intercalate {sep : List (Token π)} (h : paramsOf sep = [])
    (tss : List (List (Token π))) :
    paramsOf (sep.intercalate tss) = (tss.map paramsOf).flatten := by
  induction tss with
  | nil => rfl
  | cons ts tss ih =>
    cases tss with
    | nil => simp
    | cons us tss =>
      rw [List.intercalate_cons_cons, List.map_cons, List.flatten_cons, ← ih]
      simp [h]

@[simp]
theorem paramsOf_commaSeparated (tss : List (List (Token π))) :
    paramsOf (commaSeparated tss) = (tss.map paramsOf).flatten :=
  paramsOf_intercalate (paramsOf_symbol _ _) tss

@[simp]
theorem paramsOf_map (f : π → ρ) (ts : List (Token π)) :
    paramsOf (ts.map (Token.map f)) = (paramsOf ts).map f := by
  induction ts with
  | nil => rfl
  | cons t ts ih => rw [List.map_cons]; cases t <;> simp [Token.map, ih]

end CheckedSql.Sql
