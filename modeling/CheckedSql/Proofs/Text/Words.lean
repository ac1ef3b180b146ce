/-
The words of a text: its maximal runs of characters that are not blank, whatever the gaps between
them. Words with single blanks between them are found again in the text that they make, so such
texts are equal if and only if their words are. Words that agree but for the case of ASCII letters
are those that are equal in upper case.
-/
import CheckedSql.Text.Basic
import Mathlib.Data.List.Forall2

namespace CheckedSql.Text

/-! ## Words and gaps -/

/-- A gap consists of blanks. -/
def Gap (cs : List Char) : Prop :=
  ∀ c ∈ cs, isBlank c = true

/-- A word has characters, and none of them is a blank. -/
structure Word (cs : List Char) : Prop where
  ne_nil : cs ≠ []
  solid : ∀ c ∈ cs, isBlank c = false

theorem word_iff (cs : List Char) : (!cs.isEmpty && cs.all (!isBlank ·)) = true ↔ Word cs := by
  simp only [Bool.and_eq_true, Bool.not_eq_true', List.isEmpty_eq_false_iff, List.all_eq_true]
  exact ⟨fun h => ⟨h.1, h.2⟩, fun h => ⟨h.ne_nil, h.solid⟩⟩

instance (cs : List Char) : Decidable (Word cs) :=
  decidable_of_iff _ (word_iff cs)

/-- The characters `cs` are the words `ws` with gaps around and between them. Behind a word the text
ends or a blank follows, so no word could be longer. -/
inductive Spaced : List Char → List (List Char) → Prop
  | gap {gap : List Char} : Gap gap → Spaced gap []
  | word {gap w rest : List Char} {ws : List (List Char)} : Gap gap → Word w →
      (∀ c ∈ rest.head?, isBlank c = true) → Spaced rest ws → Spaced (gap ++ (w ++ rest)) (w :: ws)

theorem pieces_eq_splitOnP (cs : List Char) : pieces cs = cs.splitOnP isBlank := by
  induction cs with
  | nil => rfl
  | cons c cs ih =>
    rw [pieces, ih, List.splitOnP_cons_eq_if_modifyHead]
    split
    · rfl
    · cases hp : cs.splitOnP isBlank with
      | nil => exact absurd hp (List.splitOnP_ne_nil _ _)
      | cons w ws => rfl

/-- A blank separates, wherever it stands. -/
theorem runs_append_blank {c : Char} (hc : isBlank c = true) (cs ds : List Char) :
    runs (cs ++ c :: ds) = runs cs ++ runs ds := by
  unfold runs
  rw [pieces_eq_splitOnP, pieces_eq_splitOnP, pieces_eq_splitOnP, List.splitOnP_append_cons cs ds hc,
    List.filter_append]

theorem runs_cons_blank {c : Char} (hc : isBlank c = true) (cs : List Char) :
    runs (c :: cs) = runs cs :=
  runs_append_blank hc [] cs

theorem runs_gap_append {gap : List Char} (h : Gap gap) (cs : List Char) :
    runs (gap ++ cs) = runs cs := by
  induction gap with
  | nil => rfl
  | cons c gap ih =>
    obtain ⟨hc, hgap⟩ := List.forall_mem_cons.1 h
    exact (runs_cons_blank hc _).trans (ih hgap)

theorem runs_word {w : List Char} (hw : Word w) : runs w = [w] := by
  rw [runs, pieces_eq_splitOnP, List.splitOnP_eq_singleton hw.solid]
  simp [hw.ne_nil]

theorem runs_word_append {w rest : List Char} (hw : Word w)
    (hrest : ∀ c ∈ rest.head?, isBlank c = true) : runs (w ++ rest) = w :: runs rest := by
  cases rest with
  | nil => rw [List.append_nil, runs_word hw]; rfl
  | cons c rest =>
    have hc : isBlank c = true := hrest c rfl
    rw [runs_append_blank hc, runs_cons_blank hc, runs_word hw]
    rfl

theorem Spaced.runs_eq {cs : List Char} {ws : List (List Char)} (h : Spaced cs ws) :
    runs cs = ws := by
  induction h with
  | @gap gap hgap =>
    have := runs_gap_append hgap []
    rwa [List.append_nil] at this
  | word hgap hw hrest _ ih => rw [runs_gap_append hgap, runs_word_append hw hrest, ih]

theorem Spaced.cons_blank {c : Char} (hc : isBlank c = true) {cs : List Char}
    {ws : List (List Char)} (h : Spaced cs ws) : Spaced (c :: cs) ws := by
  cases h with
  | gap hgap => exact .gap (List.forall_mem_cons.2 ⟨hc, hgap⟩)
  | word hgap hw hrest h => exact .word (List.forall_mem_cons.2 ⟨hc, hgap⟩) hw hrest h

theorem exists_spaced (cs : List Char) : ∃ ws, Spaced cs ws := by
  induction cs with
  | nil => exact ⟨[], .gap (List.forall_mem_nil _)⟩
  | cons c cs ih =>
    obtain ⟨ws, h⟩ := ih
    cases hc : isBlank c with
    | true => exact ⟨ws, h.cons_blank hc⟩
    | false =>
      have halone : Word [c] := ⟨List.cons_ne_nil _ _, List.forall_mem_singleton.2 hc⟩
      -- a character that is not blank begins a word, or belongs to the word behind it
      cases h with
      | @gap gap hgap =>
        exact ⟨_, .word (List.forall_mem_nil _) halone
          (fun d hd => hgap d (List.mem_of_mem_head? hd)) (.gap hgap)⟩
      | @word gap w rest ws hgap hw hrest h =>
        cases gap with
        | nil =>
          have hlonger : Word (c :: w) :=
            ⟨List.cons_ne_nil _ _, List.forall_mem_cons.2 ⟨hc, hw.solid⟩⟩
          exact ⟨_, .word (List.forall_mem_nil _) hlonger hrest h⟩
        | cons d gap =>
          have hd : ∀ e ∈ (d :: gap ++ (w ++ rest)).head?, isBlank e = true := by
            rintro e ⟨⟩
            exact hgap d List.mem_cons_self
          exact ⟨_, .word (List.forall_mem_nil _) halone hd (.word hgap hw hrest h)⟩

/-- The words that are found are those of the text, and every text has exactly one list of them. -/
theorem spaced_iff {cs : List Char} {ws : List (List Char)} : Spaced cs ws ↔ runs cs = ws := by
  refine ⟨Spaced.runs_eq, ?_⟩
  rintro rfl
  obtain ⟨ws, h⟩ := exists_spaced cs
  rwa [h.runs_eq]

theorem Spaced.forall_word {cs : List Char} {ws : List (List Char)} (h : Spaced cs ws) :
    ∀ w ∈ ws, Word w := by
  induction h with
  | gap => exact List.forall_mem_nil _
  | word _ hw _ _ ih => exact List.forall_mem_cons.2 ⟨hw, ih⟩

/-- The characters of the words are those that are not blank. -/
theorem Spaced.flatten_eq {cs : List Char} {ws : List (List Char)} (h : Spaced cs ws) :
    ws.flatten = cs.filter (!isBlank ·) := by
  have hblank : ∀ {gap : List Char}, Gap gap → gap.filter (!isBlank ·) = [] := fun hgap =>
    List.filter_eq_nil_iff.2 fun c hc => by simp [hgap c hc]
  induction h with
  | gap hgap => exact (hblank hgap).symm
  | word hgap hw _ _ ih =>
    have hkept := List.filter_eq_self.2 fun c hc =>
      show (!isBlank c) = true by rw [hw.solid c hc]; rfl
    rw [List.flatten_cons, ih, List.filter_append, List.filter_append, hblank hgap, hkept,
      List.nil_append]

/-! ## Words with single blanks between them -/

theorem spaced_intercalate {ws : List (List Char)} (h : ∀ w ∈ ws, Word w) :
    Spaced ([' '].intercalate ws) ws := by
  induction ws with
  | nil => exact .gap (List.forall_mem_nil _)
  | cons w ws ih =>
    obtain ⟨hw, hws⟩ := List.forall_mem_cons.1 h
    cases ws with
    | nil =>
      have hlast : Spaced ([] ++ (w ++ [])) [w] :=
        .word (List.forall_mem_nil _) hw (by simp) (.gap (List.forall_mem_nil _))
      simpa using hlast
    | cons v ws =>
      rw [List.intercalate_cons_cons, List.append_assoc]
      refine .word (List.forall_mem_nil _) hw (fun c hc => ?_) ((ih hws).cons_blank (by decide))
      cases hc
      decide

theorem intercalate_inj {ws vs : List (List Char)} (hws : ∀ w ∈ ws, Word w)
    (hvs : ∀ w ∈ vs, Word w) : [' '].intercalate ws = [' '].intercalate vs ↔ ws = vs := by
  refine ⟨fun h => ?_, congrArg _⟩
  rw [← (spaced_intercalate hws).runs_eq, h, (spaced_intercalate hvs).runs_eq]

/-! ## Letters in either case -/

/-- A small letter of the ASCII alphabet and its capital. -/
def IsCapitalOf (capital small : Char) : Prop :=
  'a' ≤ small ∧ small ≤ 'z' ∧ capital.toNat + 32 = small.toNat

/-- The same character but for the case of an ASCII letter. -/
def SameLetter (c d : Char) : Prop :=
  c = d ∨ IsCapitalOf c d ∨ IsCapitalOf d c

/-- The same words but for the case of ASCII letters. -/
def SameWords (ws vs : List (List Char)) : Prop :=
  List.Forall₂ (List.Forall₂ SameLetter) ws vs

theorem toNat_toUpper (c : Char) :
    c.toUpper.toNat = if 97 ≤ c.toNat ∧ c.toNat ≤ 122 then c.toNat - 32 else c.toNat := by
  have hsmall : 'a'.val ≤ c.val ∧ c.val ≤ 'z'.val ↔ 97 ≤ c.toNat ∧ c.toNat ≤ 122 := Iff.rfl
  unfold Char.toUpper
  split
  case isTrue h =>
    -- what is added is minus 32, so the sum wraps around
    have hadded : ('A'.val - 'a'.val).toNat = 2 ^ 32 - 32 := rfl
    have hrange := hsmall.1 h
    have hvalue : c.val.toNat = c.toNat := rfl
    rw [if_pos hrange]
    show (c.val + ('A'.val - 'a'.val)).toNat = c.toNat - 32
    rw [UInt32.toNat_add, hadded]
    omega
  case isFalse h => rw [if_neg (hsmall.not.1 h)]

theorem toUpper_eq_iff (c d : Char) : c.toUpper = d.toUpper ↔ SameLetter c d := by
  have hsmall : ∀ e : Char, 'a' ≤ e ∧ e ≤ 'z' ↔ 97 ≤ e.toNat ∧ e.toNat ≤ 122 := fun _ => Iff.rfl
  rw [← Char.toNat_inj, toNat_toUpper, toNat_toUpper, SameLetter, IsCapitalOf, IsCapitalOf,
    ← Char.toNat_inj, ← and_assoc, ← and_assoc, hsmall, hsmall]
  split <;> split <;> omega

theorem isBlank_toUpper (c : Char) : isBlank c.toUpper = isBlank c := by
  have hletter : ∀ n, 65 ≤ n → n ≤ 122 → (blankRanges.any fun r => r.1 ≤ n && n ≤ r.2) = false := by
    intro n hlow hhigh
    simp [blankRanges]
    omega
  rw [isBlank, isBlank, toNat_toUpper]
  split
  case isTrue h => rw [hletter _ (by omega) (by omega), hletter _ (by omega) (by omega)]
  case isFalse => rfl

theorem Word.map_toUpper {w : List Char} (h : Word w) : Word (w.map Char.toUpper) := by
  refine ⟨by simpa using h.ne_nil, List.forall_mem_map.2 fun c hc => ?_⟩
  rw [isBlank_toUpper, h.solid c hc]

theorem map_toUpper_intercalate (ws : List (List Char)) :
    ([' '].intercalate ws).map Char.toUpper = [' '].intercalate (ws.map (·.map Char.toUpper)) := by
  induction ws with
  | nil => rfl
  | cons w ws ih =>
    cases ws with
    | nil => simp
    | cons v ws =>
      rw [List.map_cons] at ih ⊢
      rw [List.map_cons, List.intercalate_cons_cons, List.intercalate_cons_cons, List.map_append, ih,
        List.map_append]
      rfl

theorem map_toUpper_eq_iff {cs ds : List Char} :
    cs.map Char.toUpper = ds.map Char.toUpper ↔ List.Forall₂ SameLetter cs ds := by
  rw [← List.forall₂_eq_eq_eq, List.forall₂_map_left_iff, List.forall₂_map_right_iff]
  simp only [toUpper_eq_iff]

/-- Words are the same but for the case of letters if and only if they are equal in upper case. -/
theorem sameWords_iff {ws vs : List (List Char)} :
    SameWords ws vs ↔ ws.map (·.map Char.toUpper) = vs.map (·.map Char.toUpper) := by
  rw [← List.forall₂_eq_eq_eq, List.forall₂_map_left_iff, List.forall₂_map_right_iff, SameWords]
  simp only [map_toUpper_eq_iff]

end CheckedSql.Text
