/-
What a token means: what the entry means that has the token's words, whatever the case of their
letters and the gaps around and between them. In each of the five vocabularies no token has the
words of two entries, and a token that parts the characters of an entry into other words than the
entry has no meaning. Comparing word by word comes to the same as comparing texts in which every gap
is a single blank and every letter a capital.
-/
import CheckedSql.Proofs.Text.Words
import CheckedSql.Vocabulary
import Mathlib.Data.List.Find
import Mathlib.Data.List.Nodup

namespace CheckedSql.Vocabulary

open Text

variable {α : Type} {v : Vocabulary α} {kind : NameKind} {token other : String}

/-! ## What a token consists of -/

/-- The words of the token are `ws`, but for the case of letters. -/
def Spells (token : String) (ws : List String) : Prop :=
  ∃ rs, Spaced token.toList rs ∧ SameWords rs (ws.map String.toList)

/-- Tokens of the same words, but for the case of letters. -/
def Alike (token other : String) : Prop :=
  ∃ rs ss, Spaced token.toList rs ∧ Spaced other.toList ss ∧ SameWords rs ss

/-- The characters of the token that are not blank are those of `ws`, but for the case of letters;
it may part them into other words. -/
def SameCharacters (token : String) (ws : List String) : Prop :=
  List.Forall₂ SameLetter (token.toList.filter (!isBlank ·)) (ws.flatMap String.toList)

theorem spells_iff {ws : List String} :
    Spells token ws ↔ SameWords (runs token.toList) (ws.map String.toList) := by
  simp [Spells, spaced_iff]

theorem alike_iff : Alike token other ↔ SameWords (runs token.toList) (runs other.toList) := by
  simp [Alike, spaced_iff]

theorem map_toList_inj {ws vs : List String} :
    ws.map String.toList = vs.map String.toList ↔ ws = vs :=
  (List.map_injective_iff.2 fun _ _ => String.toList_inj.1).eq_iff

theorem map_toList_upper (ws : List String) :
    (ws.map upper).map String.toList = (ws.map String.toList).map (·.map Char.toUpper) := by
  simp [upper]

theorem map_toList_words (token : String) :
    (words token).map String.toList = runs token.toList := by
  simp [words, Function.comp_def]

/-- A token in upper case has the words that it spells, if these are in upper case. -/
theorem map_upper_words_eq_iff {ws : List String} (hws : ws.map upper = ws) :
    (words token).map upper = ws ↔ Spells token ws := by
  rw [spells_iff, sameWords_iff, ← map_toList_words, ← map_toList_upper, ← map_toList_upper, hws,
    map_toList_inj]

/-- Tokens of the same words are the same words in upper case. -/
theorem Alike.map_upper_words (h : Alike token other) :
    (words token).map upper = (words other).map upper := by
  rw [← map_toList_inj, map_toList_upper, map_toList_upper, map_toList_words, map_toList_words]
  exact sameWords_iff.1 (alike_iff.1 h)

/-- What is spelled has the same characters. -/
theorem Spells.sameCharacters {ws : List String} (h : Spells token ws) :
    SameCharacters token ws := by
  obtain ⟨rs, hspaced, hsame⟩ := h
  rw [SameCharacters, ← hspaced.flatten_eq, List.flatMap_def]
  exact List.rel_flatten hsame

/-- The characters of a token in upper case are the characters of words in upper case. -/
theorem SameCharacters.map_toUpper {ws : List String} (hws : ws.map upper = ws)
    (h : SameCharacters token ws) :
    (token.toList.filter (!isBlank ·)).map Char.toUpper = ws.flatMap String.toList := by
  have hself : (ws.map String.toList).map (·.map Char.toUpper) = ws.map String.toList := by
    rw [← map_toList_upper, hws]
  rw [map_toUpper_eq_iff.2 h, List.flatMap_def, List.map_flatten, hself]

/-- Words in upper case of the same characters as a token have the same characters. -/
theorem SameCharacters.unique {ws vs : List String} (hws : ws.map upper = ws)
    (hvs : vs.map upper = vs) (h : SameCharacters token ws) (h' : SameCharacters token vs) :
    ws.flatMap String.toList = vs.flatMap String.toList := by
  rw [← h.map_toUpper hws, h'.map_toUpper hvs]

/-! ## Vocabularies -/

/-- The five vocabularies, each with what its words are called when they are not found. -/
inductive Standard : {α : Type} → NameKind → Vocabulary α → Prop
  | operators : Standard .operator operators
  | directions : Standard .direction directions
  | nullsOrders : Standard .nullsOrdering nullsOrders
  | aggregates : Standard .aggregate aggregates
  | castTypes : Standard .castType castTypes

/-- Entries of words in upper case, no two of them of the same characters. -/
structure WellFormed (v : Vocabulary α) : Prop where
  upper : ∀ e ∈ v.entries, e.1.map upper = e.1
  words : ∀ e ∈ v.entries, ∀ w ∈ e.1, Word w.toList
  distinct : (v.entries.map fun e => e.1.flatMap String.toList).Nodup

theorem Standard.kind_eq (h : Standard kind v) : v.kind = kind := by
  cases h <;> rfl

theorem Standard.wellFormed (h : Standard kind v) : v.WellFormed := by
  cases h <;> exact ⟨by decide, by decide, by decide⟩

/-- No token has the words of two entries, since their characters differ. -/
theorem WellFormed.pairwise_not_spells (hv : v.WellFormed) (token : String) :
    v.entries.Pairwise fun e f => ¬(Spells token e.1 ∧ Spells token f.1) := by
  refine (List.pairwise_map.1 hv.distinct).imp_of_mem ?_
  rintro e f he hf hne ⟨hse, hsf⟩
  exact hne (hse.sameCharacters.unique (hv.upper e he) (hv.upper f hf) hsf.sameCharacters)

/-- A token that has the characters of an entry and the words of one has the words of that entry. -/
theorem WellFormed.eq_of_sameCharacters (hv : v.WellFormed) {e f : List String × α}
    (he : e ∈ v.entries) (hf : f ∈ v.entries) (hcharacters : SameCharacters token e.1)
    (hspells : Spells token f.1) : f = e :=
  List.inj_on_of_nodup_map hv.distinct hf he
    (hspells.sameCharacters.unique (hv.upper f hf) (hv.upper e he) hcharacters)

/-! ## Looking up -/

theorem resolve_eq (v : Vocabulary α) (token : String) :
    v.resolve token =
      match v.entries.find? (·.1 == (words token).map upper) with
      | some e => .ok e.2
      | none => .error (.unresolved v.kind token) :=
  rfl

/-- A token means what an entry means whose words it has; if there is none, it is unresolved. -/
theorem resolve_cases (hv : v.WellFormed) (token : String) :
    (∃ e ∈ v.entries, Spells token e.1 ∧ v.resolve token = .ok e.2) ∨
      (∀ e ∈ v.entries, ¬Spells token e.1) ∧
        v.resolve token = .error (.unresolved v.kind token) := by
  rw [resolve_eq]
  cases hfind : v.entries.find? (·.1 == (words token).map upper) with
  | some e =>
    have he := List.mem_of_find?_eq_some hfind
    have hkey : e.1 = (words token).map upper := by simpa using List.find?_some hfind
    exact .inl ⟨e, he, (map_upper_words_eq_iff (hv.upper e he)).1 hkey.symm, rfl⟩
  | none =>
    refine .inr ⟨fun e he hspells => ?_, rfl⟩
    have hkey := (map_upper_words_eq_iff (hv.upper e he)).2 hspells
    exact List.find?_eq_none.1 hfind e he (beq_iff_eq.2 hkey.symm)

theorem resolve_eq_ok_iff (hv : v.WellFormed) {a : α} :
    v.resolve token = .ok a ↔ ∃ e ∈ v.entries, Spells token e.1 ∧ e.2 = a := by
  obtain ⟨e, he, hspells, hok⟩ | ⟨hnone, herror⟩ := resolve_cases hv token
  · rw [hok, Except.ok.injEq]
    refine ⟨fun h => ⟨e, he, hspells, h⟩, ?_⟩
    rintro ⟨f, hf, hspellsf, rfl⟩
    rw [hv.eq_of_sameCharacters he hf hspells.sameCharacters hspellsf]
  · rw [herror]
    refine ⟨nofun, ?_⟩
    rintro ⟨e, he, hspells, -⟩
    exact absurd hspells (hnone e he)

theorem resolve_of_not_spells (hv : v.WellFormed) (h : ∀ e ∈ v.entries, ¬Spells token e.1) :
    v.resolve token = .error (.unresolved v.kind token) := by
  obtain ⟨e, he, hspells, -⟩ | ⟨-, herror⟩ := resolve_cases hv token
  · exact absurd hspells (h e he)
  · exact herror

/-- What a token means depends on its words only, and not on the case of their letters. -/
theorem toOption_resolve_of_alike (v : Vocabulary α) (h : Alike token other) :
    (v.resolve other).toOption = (v.resolve token).toOption := by
  rw [resolve_eq, resolve_eq, h.map_upper_words]
  cases v.entries.find? (·.1 == (words other).map upper) <;> rfl

/-! ## Comparing texts -/

/-- The words of a token in upper case, with single blanks between them. -/
def normalized (token : String) : String :=
  upper (" ".intercalate (words token))

/-- The meaning of the entry whose words, with single blanks between them, are the normalized
token. -/
def resolveText (v : Vocabulary α) (token : String) : Except BuildError α :=
  match v.entries.find? fun e => " ".intercalate e.1 == normalized token with
  | some e => .ok e.2
  | none => .error (.unresolved v.kind token)

theorem toList_normalized (token : String) :
    (normalized token).toList = [' '].intercalate (((words token).map upper).map String.toList) := by
  rw [normalized, upper, String.toList_ofList, String.toList_intercalate, map_toList_upper,
    ← map_toUpper_intercalate]
  rfl

theorem words_upper (token : String) : ∀ w ∈ ((words token).map upper).map String.toList, Word w := by
  rw [map_toList_upper, map_toList_words]
  exact List.forall_mem_map.2 fun w hw => ((spaced_iff.2 rfl).forall_word w hw).map_toUpper

theorem resolve_eq_resolveText (hv : v.WellFormed) (token : String) :
    v.resolve token = v.resolveText token := by
  have hkey : ∀ e ∈ v.entries,
      (e.1 == (words token).map upper) = (" ".intercalate e.1 == normalized token) := by
    intro e he
    rw [Bool.eq_iff_iff, beq_iff_eq, beq_iff_eq, ← String.toList_inj, toList_normalized,
      String.toList_intercalate, show " ".toList = [' '] from rfl,
      intercalate_inj (List.forall_mem_map.2 (hv.words e he)) (words_upper token), map_toList_inj]
  rw [resolve_eq, resolveText, List.find?_congr hkey]

/-- In each of the five vocabularies, a token means what the entry means that has its words, but for
the case of letters, and no token has the words of two entries. A token that has the words of none
is reported as it was given. Other gaps and letters in the other case change no meaning; other words
made of the same characters have none. Texts in which all gaps are single blanks are looked up to the
same effect. -/
theorem resolve_by_words (h : Standard kind v) (token : String) :
    (∀ a, v.resolve token = .ok a ↔ ∃ e ∈ v.entries, Spells token e.1 ∧ e.2 = a) ∧
      (v.entries.Pairwise fun e f => ¬(Spells token e.1 ∧ Spells token f.1)) ∧
      ((∀ e ∈ v.entries, ¬Spells token e.1) →
        v.resolve token = .error (.unresolved kind token)) ∧
      (∀ other, Alike token other → (v.resolve other).toOption = (v.resolve token).toOption) ∧
      (∀ e ∈ v.entries, SameCharacters token e.1 → ¬Spells token e.1 →
        v.resolve token = .error (.unresolved kind token)) ∧
      v.resolve token = v.resolveText token := by
  have hv := h.wellFormed
  rw [← h.kind_eq]
  refine ⟨fun a => resolve_eq_ok_iff hv, hv.pairwise_not_spells token, resolve_of_not_spells hv,
    fun other => toOption_resolve_of_alike v, fun e he hcharacters hspells => ?_,
    resolve_eq_resolveText hv token⟩
  refine resolve_of_not_spells hv fun f hf hspellsf => hspells ?_
  rwa [← hv.eq_of_sameCharacters he hf hcharacters hspellsf]

/-- NOT LIKE with an em space and in mixed case, as one word, and an operator parted into two. -/
theorem resolve_by_words_notLike :
    operators.resolve "not\u2003Like " = .ok .notLike ∧
      operators.resolve "NOTLIKE" = .error (.unresolved .operator "NOTLIKE") ∧
      operators.resolve "> =" = .error (.unresolved .operator "> =") := by
  have hlike : (["NOT", "LIKE"], Operator.notLike) ∈ operators.entries := by decide
  have hge : ([">="], Operator.ge) ∈ operators.entries := by decide
  obtain ⟨hok, -⟩ := resolve_by_words .operators "not\u2003Like "
  obtain ⟨-, -, -, -, hjoined, -⟩ := resolve_by_words .operators "NOTLIKE"
  obtain ⟨-, -, -, -, hparted, -⟩ := resolve_by_words .operators "> ="
  refine ⟨(hok _).2 ⟨_, hlike, (map_upper_words_eq_iff (by decide)).1 (by decide), rfl⟩,
    hjoined _ hlike (map_toUpper_eq_iff.1 (by decide)) fun h => ?_,
    hparted _ hge (map_toUpper_eq_iff.1 (by decide)) fun h => ?_⟩
  · exact absurd ((map_upper_words_eq_iff (by decide)).2 h) (by decide)
  · exact absurd ((map_upper_words_eq_iff (by decide)).2 h) (by decide)

end CheckedSql.Vocabulary
