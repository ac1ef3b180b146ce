/-
Text that cannot be taken for more than its tokens: no end of a statement, no string literal, no
escape and no comment begins in it. The text of tokens is of this kind whatever their order, as
long as their identifiers are plain.
-/
import CheckedSql.Proofs.Sql.Scan
import Mathlib.Data.List.Chain

namespace CheckedSql.Sql

/-- A character that ends a statement, begins or ends a string literal, or escapes another. -/
def isUnsafe (c : Char) : Bool :=
  ";'\\".toList.contains c

/-- Two neighbouring characters that begin a comment. -/
def beginsComment (c d : Char) : Bool :=
  (c == '-' && d == '-') || (c == '/' && d == '*')

/-- A text without unsafe characters in which no comment begins. -/
structure Harmless (cs : List Char) : Prop where
  safe : ∀ c ∈ cs, isUnsafe c = false
  comments : cs.IsChain fun c d => beginsComment c d = false

namespace Harmless

theorem not_mem {cs : List Char} (h : Harmless cs) {c : Char} (hc : c ∈ ";'\\".toList) :
    c ∉ cs := by
  intro hm
  have hsafe := h.safe c hm
  rw [isUnsafe, List.contains_iff_mem.2 hc] at hsafe
  cases hsafe

theorem not_infix {cs : List Char} (h : Harmless cs) {s : String} (hs : s ∈ ["--", "/*"]) :
    ¬s.toList <:+: cs := by
  intro hi
  have hchain := h.comments.infix hi
  rcases List.mem_pair.1 hs with rfl | rfl
  · have hpair : beginsComment '-' '-' = false := by simpa using hchain
    exact absurd hpair (by decide)
  · have hpair : beginsComment '/' '*' = false := by simpa using hchain
    exact absurd hpair (by decide)

/-! ## Parts of a text -/

/-- A character that is neither unsafe nor the first of a comment. -/
def isCalm (c : Char) : Bool :=
  !";'\\-/".toList.contains c

theorem isCalm_safe {c : Char} (h : isCalm c = true) : isUnsafe c = false := by
  cases hu : isUnsafe c with
  | false => rfl
  | true =>
    rw [isUnsafe, List.contains_iff_mem] at hu
    have hall : ";'\\".toList.all (fun c => !isCalm c) = true := by decide
    have hnot := List.all_eq_true.1 hall c hu
    rw [h] at hnot
    cases hnot

theorem isCalm_comment {c : Char} (h : isCalm c = true) (d : Char) :
    beginsComment c d = false := by
  have hdash : (c == '-') = false := by
    rw [beq_eq_false_iff_ne]
    rintro rfl
    exact absurd h (by decide)
  have hslash : (c == '/') = false := by
    rw [beq_eq_false_iff_ne]
    rintro rfl
    exact absurd h (by decide)
  rw [beginsComment, hdash, hslash]
  rfl

theorem of_calm {cs : List Char} (h : cs.all isCalm = true) : Harmless cs := by
  have hcalm : ∀ c ∈ cs, isCalm c = true := List.all_eq_true.1 h
  refine ⟨fun c hc => isCalm_safe (hcalm c hc), ?_⟩
  induction cs with
  | nil => exact List.isChain_nil
  | cons c cs ih =>
    rw [List.isChain_cons]
    rw [List.all_cons, Bool.and_eq_true] at h
    exact ⟨fun d _ => isCalm_comment h.1 d, ih h.2 fun d hd => hcalm d (.tail _ hd)⟩

theorem append {cs ds : List Char} (hcs : Harmless cs) (hds : Harmless ds)
    (h : ∀ c ∈ cs.getLast?, ∀ d ∈ ds.head?, beginsComment c d = false) : Harmless (cs ++ ds) := by
  refine ⟨fun c hc => ?_, hcs.comments.append hds.comments h⟩
  rcases List.mem_append.1 hc with hc | hc
  · exact hcs.safe c hc
  · exact hds.safe c hc

/-- What may follow a token begins no comment with the end of it. -/
theorem append_ends {cs ds : List Char} (hcs : Harmless cs) (hds : Harmless ds) (h : Ends ds) :
    Harmless (cs ++ ds) := by
  refine hcs.append hds fun c _ d hd => ?_
  have hall : [' ', ')', ',', '.'].all (fun d => !(d == '-') && !(d == '*')) = true := by decide
  have hends := List.all_eq_true.1 hall d (h d hd)
  rw [Bool.and_eq_true, Bool.not_eq_true', Bool.not_eq_true'] at hends
  obtain ⟨hdash, hstar⟩ := hends
  simp [beginsComment, hdash, hstar]

/-! ## Tokens -/

theorem isPart_calm (c : Char) (h : Ident.isPart c = true) : isCalm c = true := by
  cases hc : isCalm c with
  | true => rfl
  | false =>
    rw [isCalm, Bool.not_eq_false', List.contains_iff_mem] at hc
    have hall : ";'\\-/".toList.all (fun c => !Ident.isPart c) = true := by decide
    have hnot := List.all_eq_true.1 hall c hc
    rw [h] at hnot
    cases hnot

theorem plain_calm {s : String} (h : Ident.isPlain s = true) : s.toList.all isCalm = true :=
  plain_all isPart_calm h

theorem digits_calm (n : Nat) : (Nat.toDigits 10 n).all isCalm = true :=
  digits_all_part isPart_calm n

/-- A plain name has no quote to be doubled. -/
theorem escape_plain {name : String} (h : Ident.isPlain name = true) :
    Ident.escape name.toList = name.toList := by
  obtain ⟨-, -, -, -, hall⟩ := plain_toList h
  have hq : ∀ c ∈ name.toList, c ≠ '"' := by
    rintro c hc rfl
    exact absurd (List.all_eq_true.1 hall _ hc) (by decide)
  unfold Ident.escape
  rw [List.flatMap_congr fun c hc => if_neg (hq c hc)]
  exact List.flatMap_singleton' _

/-- A plain name stands between its quotes as it is. -/
theorem quote_plain {name : String} (h : Ident.isPlain name = true) :
    (Ident.quote name).toList = '"' :: (name.toList ++ ['"']) := by
  simp [Ident.quote, Ident.quoteChars, escape_plain h]

theorem symbol (s : Symbol) : Harmless s.text.toList := by
  have hsafe : s.text.toList.all (fun c => !isUnsafe c) = true := by cases s <;> decide
  have hcomments : s.text.toList.IsChain fun c d => beginsComment c d = false := by
    cases s <;> decide
  exact ⟨fun c hc => by simpa using List.all_eq_true.1 hsafe c hc, hcomments⟩

/-- An identifier that is plain, any other token. -/
def NamedPlainly : Token Nat → Prop
  | .identifier name => Ident.isPlain name = true
  | _ => True

theorem text {t : Token Nat} (h : NamedPlainly t) : Harmless (t.text placeholder).toList := by
  cases t with
  | keyword k => exact of_calm (plain_calm k.text_plain)
  | call k =>
    have hall : (k.text ++ "(").toList.all isCalm = true := by
      rw [String.toList_append, List.all_append, plain_calm k.text_plain]; rfl
    exact of_calm hall
  | symbol s => exact symbol s
  | identifier name =>
    refine of_calm ?_
    rw [Token.text, quote_plain h, List.all_cons, List.all_append, plain_calm h]
    rfl
  | param n =>
    have hall : (placeholder n).toList.all isCalm = true := by
      simpa [placeholder] using And.intro (by decide : isCalm '$' = true) (digits_calm n)
    exact of_calm hall
  | number n =>
    have hall : (toString n).toList.all isCalm = true := by simpa using digits_calm n
    exact of_calm hall

/-- A token that a blank need not follow ends in an opening parenthesis or a dot. -/
theorem getLast?_calm {t : Token Nat} (h : t.tightAfter = true) :
    ∀ c ∈ (t.text placeholder).toList.getLast?, isCalm c = true := by
  cases t with
  | call k =>
    intro c hc
    rw [Token.text, String.toList_append] at hc
    have hlast : (k.text.toList ++ ['(']).getLast? = some '(' := by simp
    rw [show "(".toList = ['('] from rfl, hlast] at hc
    cases hc
    decide
  | symbol s =>
    intro c hc
    cases s <;> simp [Token.tightAfter] at h <;> cases hc <;> decide
  | _ => simp [Token.tightAfter] at h

/-- The text of tokens with plain names is harmless, whatever stands next to what. -/
theorem textOf {ts : List (Token Nat)} (h : ∀ t ∈ ts, NamedPlainly t) :
    Harmless (textOf placeholder ts).toList := by
  induction ts with
  | nil => exact of_calm rfl
  | cons t ts ih =>
    have htoken := text (h t List.mem_cons_self)
    have hrest := ih fun u hu => h u (.tail _ hu)
    have hgap : Harmless ((t.gapBefore ts).toList ++ (Sql.textOf placeholder ts).toList) := by
      rcases gapBefore_cases t ts with hg | hg <;> rw [hg]
      · exact hrest
      -- a blank is calm
      · refine (of_calm rfl).append hrest fun c hc d _ => ?_
        cases hc
        exact isCalm_comment (by decide) d
    rw [textOf_cons]
    -- the token ends in a calm character, or a blank or a sign that begins no comment follows
    rcases gap_ends t ts with ht | hends
    · exact htoken.append hgap fun c hc d _ => isCalm_comment (getLast?_calm ht c hc) d
    · exact htoken.append_ends hgap hends

end Harmless

end CheckedSql.Sql
