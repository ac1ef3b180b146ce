/-
Reading a text as tokens: the longest run of characters of one kind is a token, blanks only
separate. The reader finds in the text of a sequence of tokens that very sequence, whatever the
names in it and whatever the order of its tokens: what `Token.gap` leaves out is never needed.
-/
import CheckedSql.Draft
import CheckedSql.Proofs.Sql.QuotedName

namespace CheckedSql.Sql

/-! ## Words and signs by their spelling -/

/-- Every word. -/
def Keyword.all : List Keyword :=
  [.SELECT, .DISTINCT, .FROM, .WHERE, .GROUP, .BY, .HAVING, .ORDER, .ASC, .DESC, .NULLS, .FIRST,
    .LAST, .LIMIT, .OFFSET, .FOR, .UPDATE, .NO, .KEY, .SHARE, .INSERT, .INTO, .VALUES, .ON,
    .CONFLICT, .DO, .NOTHING, .SET, .EXCLUDED, .RETURNING, .DELETE, .UNION, .ALL, .INTERSECT,
    .EXCEPT, .AS, .AND, .OR, .NOT, .IS, .NULL, .BETWEEN, .LIKE, .ILIKE, .IN, .ANY, .CASE, .WHEN,
    .THEN, .ELSE, .END, .CAST, .FILTER, .OVER, .PARTITION, .COUNT, .SUM, .AVG, .MIN, .MAX, .UPPER,
    .LOWER, .TRIM, .LENGTH, .ABS, .CEIL, .FLOOR, .ROUND, .SQRT, .POWER, .ROW_NUMBER, .RANK,
    .DENSE_RANK, .TEXT, .SMALLINT, .INTEGER, .BIGINT, .NUMERIC, .REAL, .DOUBLE, .PRECISION,
    .BOOLEAN, .DATE, .TIMESTAMP, .TIMESTAMPTZ, .UUID, .JSONB]

/-- Every sign. -/
def Symbol.all : List Symbol :=
  [.openParen, .closeParen, .comma, .dot, .star, .eq, .ne, .otherThan, .gt, .ge, .lt, .le, .tilde,
    .tildeStar, .bangTilde, .bangTildeStar, .atGreater, .lessAt, .ampAmp, .lessMinusGreater,
    .lessHashGreater, .lessEqualGreater, .lessPlusGreater, .plus, .minus, .slash, .percent]

/-- The word of a spelling. -/
def Keyword.ofText? (s : String) : Option Keyword :=
  Keyword.all.find? (·.text == s)

/-- The sign of a spelling. -/
def Symbol.ofText? (s : String) : Option Symbol :=
  Symbol.all.find? (·.text == s)

theorem Keyword.ofText?_text (k : Keyword) : Keyword.ofText? k.text = some k := by
  cases k <;> decide

theorem Symbol.ofText?_text (s : Symbol) : Symbol.ofText? s.text = some s := by
  cases s <;> decide

/-! ## Kinds of characters -/

/-- A character of which signs of one or more characters are made. -/
def isSign (c : Char) : Bool :=
  "+-*/<>=~!@#%&".toList.contains c

/-- A sign that is a token by itself, whatever follows it. -/
def isPunctuation (c : Char) : Bool :=
  "(),.".toList.contains c

/-- The signs made of punctuation. -/
def Symbol.punctuation : Symbol → Option Char
  | .openParen => some '('
  | .closeParen => some ')'
  | .comma => some ','
  | .dot => some '.'
  | _ => none

theorem Keyword.text_plain (k : Keyword) : Ident.isPlain k.text = true := by
  cases k <;> decide

theorem Symbol.text_punctuation {s : Symbol} {c : Char} (h : s.punctuation = some c) :
    s.text.toList = [c] ∧ isPunctuation c = true := by
  cases s <;> simp [punctuation] at h <;> subst h <;> decide

theorem Symbol.text_sign {s : Symbol} (h : s.punctuation = none) :
    s.text.toList ≠ [] ∧ s.text.toList.all isSign = true := by
  cases s <;> simp [punctuation] at h <;> decide

/-! ## The reader -/

/-- A run of characters of a kind, and what follows it. -/
def run (p : Char → Bool) (cs : List Char) : List Char × List Char :=
  (cs.takeWhile p, cs.dropWhile p)

/-- The longest word at the beginning of a text; a word that a parenthesis follows at once is a
call. -/
def scanWord (cs : List Char) : Option (Token Nat × List Char) :=
  match Keyword.ofText? (String.ofList (run Ident.isPart cs).1), (run Ident.isPart cs).2 with
  | none, _ => none
  | some k, '(' :: rest => some (.call k, rest)
  | some k, rest => some (.keyword k, rest)

/-- The first token of a text that does not begin with a blank, and what follows it. -/
def scanToken : List Char → Option (Token Nat × List Char)
  | [] => none
  | c :: cs =>
    if c = '"' then (scanName cs).map fun r => (.identifier (String.ofList r.1), r.2)
    else if c = '$' then
      let r := run Char.isDigit cs
      if r.1 = [] then none else some (.param (Nat.ofDigitChars 10 r.1 0), r.2)
    else if c.isDigit then
      let r := run Char.isDigit (c :: cs)
      some (.number (Nat.ofDigitChars 10 r.1 0), r.2)
    else if Ident.isStart c then scanWord (c :: cs)
    else if isPunctuation c then
      (Symbol.ofText? (String.ofList [c])).map fun s => (.symbol s, cs)
    else
      let r := run isSign (c :: cs)
      (Symbol.ofText? (String.ofList r.1)).map fun s => (.symbol s, r.2)

/-- The tokens of a text, if it has at most `fuel` characters. -/
def scanAtMost : (fuel : Nat) → List Char → Option (List (Token Nat))
  | _, [] => some []
  | 0, _ :: _ => none
  | fuel + 1, c :: cs =>
    if c = ' ' then scanAtMost fuel cs
    else
      match scanToken (c :: cs) with
      | none => none
      | some (t, rest) => (scanAtMost fuel rest).map (t :: ·)

/-- The tokens of a text. -/
def scan (s : String) : Option (List (Token Nat)) :=
  scanAtMost s.toList.length s.toList

/-! ## One token -/

/-- What may follow a token that does not end by itself. -/
def Ends (rest : List Char) : Prop :=
  ∀ c ∈ rest.head?, c ∈ [' ', ')', ',', '.']

theorem run_append {p : Char → Bool} {cs rest : List Char} (h : cs.all p = true)
    (hr : ∀ c ∈ rest.head?, p c = false) : run p (cs ++ rest) = (cs, rest) := by
  have hp : ∀ c ∈ cs, p c = true := List.all_eq_true.1 h
  unfold run
  rw [List.takeWhile_append_of_pos hp, List.dropWhile_append_of_pos hp]
  cases rest with
  | nil => simp
  | cons c rest =>
    have hc : p c = false := hr c rfl
    simp [hc]

/-- A kind of characters to which none of those that may follow belongs. -/
theorem Ends.run_append {p : Char → Bool} {cs rest : List Char} (he : Ends rest)
    (h : cs.all p = true) (hp : [' ', ')', ',', '.'].all (fun c => !p c) = true) :
    run p (cs ++ rest) = (cs, rest) :=
  Sql.run_append h fun c hc => by
    have := List.all_eq_true.1 hp c (he c hc)
    simpa using this

theorem digits_all (n : Nat) : (Nat.toDigits 10 n).all Char.isDigit = true :=
  List.all_eq_true.2 fun _ hc => Nat.isDigit_of_mem_toDigits (by decide) (by decide) hc

/-- A plain word consists of its first character and of further ones that belong to it. -/
theorem plain_toList {s : String} (h : Ident.isPlain s = true) :
    ∃ c cs, s.toList = c :: cs ∧ Ident.isStart c = true ∧ s.toList.all Ident.isPart = true := by
  unfold Ident.isPlain at h
  cases hs : s.toList with
  | nil => rw [hs] at h; cases h
  | cons c cs =>
    rw [hs] at h
    simp only [Bool.and_eq_true] at h
    refine ⟨c, cs, rfl, h.1, ?_⟩
    have hc : Ident.isPart c = true := by
      have := h.1
      unfold Ident.isStart at this
      unfold Ident.isPart Char.isAlphanum
      cases ha : c.isAlpha <;> simp_all
    rw [List.all_cons, hc, h.2]; rfl

theorem isDigit_part {c : Char} (h : c.isDigit = true) : Ident.isPart c = true := by
  simp [Ident.isPart, Char.isAlphanum, h]

section

variable {p : Char → Bool} (hp : ∀ c, Ident.isPart c = true → p c = true)

include hp

/-- What all characters of words are, the characters of a plain name are. -/
theorem plain_all {s : String} (h : Ident.isPlain s = true) : s.toList.all p = true := by
  obtain ⟨-, -, -, -, hall⟩ := plain_toList h
  exact List.all_eq_true.2 fun c hc => hp c (List.all_eq_true.1 hall c hc)

theorem digits_all_part (n : Nat) : (Nat.toDigits 10 n).all p = true :=
  List.all_eq_true.2 fun c hc => hp c (isDigit_part (List.all_eq_true.1 (digits_all n) c hc))

end

/-- The first character of a word is none that another kind of token begins with. -/
theorem isStart_ne {c : Char} (h : Ident.isStart c = true) :
    c ≠ '"' ∧ c ≠ '$' ∧ c ≠ ' ' ∧ c.isDigit = false := by
  refine ⟨?_, ?_, ?_, ?_⟩
  · rintro rfl; revert h; decide
  · rintro rfl; revert h; decide
  · rintro rfl; revert h; decide
  · cases hd : c.isDigit with
    | false => rfl
    | true =>
      -- the digits lie below both cases of letters and below the underscore
      have hdigit : c.val ≤ 57 := by
        simp only [Char.isDigit, Bool.and_eq_true, decide_eq_true_eq] at hd
        exact hd.2
      have hletter : (decide (c.val ≥ 65 ∧ c.val ≤ 90) || (decide (c.val ≥ 97) &&
          decide (c.val ≤ 122))) || c == '_' := h
      simp only [Bool.or_eq_true, Bool.and_eq_true, decide_eq_true_eq, beq_iff_eq] at hletter
      rcases hletter with (hupper | hlower) | rfl
      · exact absurd (UInt32.le_trans hupper.1 hdigit) (by decide)
      · exact absurd (UInt32.le_trans hlower.1 hdigit) (by decide)
      · exact absurd hdigit (by decide)

theorem isDigit_ne {c : Char} (h : c.isDigit = true) : c ≠ '"' ∧ c ≠ '$' ∧ c ≠ ' ' := by
  refine ⟨?_, ?_, ?_⟩ <;> rintro rfl <;> revert h <;> decide

theorem isPunctuation_cases {c : Char} (h : isPunctuation c = true) :
    c = '(' ∨ c = ')' ∨ c = ',' ∨ c = '.' := by
  simpa [isPunctuation] using h

theorem isSign_other {c : Char} (h : isSign c = true) :
    c ≠ '"' ∧ c ≠ '$' ∧ c ≠ ' ' ∧ c.isDigit = false ∧ Ident.isStart c = false ∧
      isPunctuation c = false := by
  simp only [isSign, List.contains_iff_mem] at h
  have hall : "+-*/<>=~!@#%&".toList.all (fun c => c != '"' && (c != '$' && (c != ' ' &&
      (!c.isDigit && (!Ident.isStart c && !isPunctuation c))))) = true := by decide
  simpa using List.all_eq_true.1 hall c h

section Tokens

variable {rest : List Char}

theorem scanWord_keyword (k : Keyword) (h : Ends rest) :
    scanWord (k.text.toList ++ rest) = some (.keyword k, rest) := by
  obtain ⟨c, cs, -, -, hall⟩ := plain_toList k.text_plain
  unfold scanWord
  rw [h.run_append hall (by decide)]
  simp only [String.ofList_toList, Keyword.ofText?_text]
  split
  · rename_i heq; cases heq
  · rename_i heq
    cases heq
    exact absurd (h '(' rfl) (by decide)
  · rename_i heq _; cases heq; rfl

theorem scanWord_call (k : Keyword) :
    scanWord (k.text.toList ++ '(' :: rest) = some (.call k, rest) := by
  obtain ⟨c, cs, -, -, hall⟩ := plain_toList k.text_plain
  unfold scanWord
  rw [run_append hall (by rintro c ⟨⟩; decide)]
  simp only [String.ofList_toList, Keyword.ofText?_text]

/-- A text that begins with a word is read as that word. -/
theorem scanToken_word {s : String} (hs : Ident.isPlain s = true) (rest : List Char) :
    scanToken (s.toList ++ rest) = scanWord (s.toList ++ rest) := by
  obtain ⟨c, cs, hcs, hc, -⟩ := plain_toList hs
  obtain ⟨h1, h2, -, h4⟩ := isStart_ne hc
  rw [hcs, List.cons_append, scanToken, if_neg h1, if_neg h2, if_neg (by rw [h4]; decide), if_pos hc]

theorem scanToken_symbol (s : Symbol) (h : s.punctuation.isSome = true ∨ Ends rest) :
    scanToken (s.text.toList ++ rest) = some (.symbol s, rest) := by
  cases hp : s.punctuation with
  | some c =>
    obtain ⟨hs, hc⟩ := Symbol.text_punctuation hp
    rw [hs, List.singleton_append, scanToken, ← hs, String.ofList_toList, Symbol.ofText?_text]
    rcases isPunctuation_cases hc with rfl | rfl | rfl | rfl <;> rfl
  | none =>
    obtain ⟨hne, hall⟩ := Symbol.text_sign hp
    have he : Ends rest := h.resolve_left (by rw [hp]; decide)
    cases hcs : s.text.toList with
    | nil => exact absurd hcs hne
    | cons c cs =>
      rw [hcs] at hall
      obtain ⟨h1, h2, -, h4, h5, h6⟩ := isSign_other (List.all_eq_true.1 hall c List.mem_cons_self)
      have hrun := he.run_append hall (by decide)
      rw [List.cons_append] at hrun ⊢
      rw [scanToken, if_neg h1, if_neg h2, if_neg (by rw [h4]; decide), if_neg (by rw [h5]; decide),
        if_neg (by rw [h6]; decide), hrun, ← hcs]
      simp only [String.ofList_toList, Symbol.ofText?_text, Option.map_some]

theorem scanToken_identifier (name : String) (h : Ends rest) :
    scanToken ((Ident.quote name).toList ++ rest) = some (.identifier name, rest) := by
  have hq : rest.head? ≠ some '"' := fun he => absurd (h '"' he) (by decide)
  rw [Ident.toList_quote_append, scanToken, if_pos rfl, scanName_escape _ hq]
  simp

theorem scanToken_param (n : Nat) (h : Ends rest) :
    scanToken ((placeholder n).toList ++ rest) = some (.param n, rest) := by
  have : (placeholder n).toList ++ rest = '$' :: (Nat.toDigits 10 n ++ rest) := by
    simp [placeholder]
  rw [this, scanToken, if_neg (by decide), if_pos rfl, h.run_append (digits_all n) (by decide)]
  simp [Nat.toDigits_ne_nil, Nat.ofDigitChars_ten_toDigits]

theorem scanToken_number (n : Nat) (h : Ends rest) :
    scanToken ((toString n).toList ++ rest) = some (.number n, rest) := by
  have hd : (toString n).toList = Nat.toDigits 10 n := by simp
  have hrun := h.run_append (digits_all n) (by decide)
  rw [hd]
  cases hcs : Nat.toDigits 10 n with
  | nil => exact absurd hcs Nat.toDigits_ne_nil
  | cons c cs =>
    have hc : c.isDigit = true := List.all_eq_true.1 (digits_all n) c (by rw [hcs]; simp)
    obtain ⟨h1, h2, -⟩ := isDigit_ne hc
    rw [hcs, List.cons_append] at hrun
    rw [List.cons_append, scanToken, if_neg h1, if_neg h2, if_pos hc, hrun, ← hcs]
    simp [Nat.ofDigitChars_ten_toDigits]

/-- A token is read from the beginning of a text, if what follows it does not run into it. -/
theorem scanToken_text (t : Token Nat) (h : t.tightAfter = true ∨ Ends rest) :
    scanToken ((t.text placeholder).toList ++ rest) = some (t, rest) := by
  cases t with
  | keyword k =>
    have he : Ends rest := h.resolve_left (by simp [Token.tightAfter])
    rw [Token.text, scanToken_word k.text_plain, scanWord_keyword k he]
  | call k =>
    have : (k.text ++ "(").toList ++ rest = k.text.toList ++ '(' :: rest := by simp
    rw [Token.text, this, scanToken_word k.text_plain, scanWord_call k]
  | symbol s =>
    refine scanToken_symbol s (h.imp_left fun ht => ?_)
    cases s <;> simp [Token.tightAfter] at ht <;> rfl
  | identifier name => exact scanToken_identifier name (h.resolve_left (by simp [Token.tightAfter]))
  | param n => exact scanToken_param n (h.resolve_left (by simp [Token.tightAfter]))
  | number n => exact scanToken_number n (h.resolve_left (by simp [Token.tightAfter]))

end Tokens

/-! ## All tokens -/

/-- No token is empty or begins with a blank. -/
theorem text_head (t : Token Nat) : ∃ c cs, (t.text placeholder).toList = c :: cs ∧ c ≠ ' ' := by
  cases t with
  | keyword k =>
    obtain ⟨c, cs, hcs, hc, -⟩ := plain_toList k.text_plain
    exact ⟨c, cs, hcs, (isStart_ne hc).2.2.1⟩
  | call k =>
    obtain ⟨c, cs, hcs, hc, -⟩ := plain_toList k.text_plain
    exact ⟨c, cs ++ ['('], by simp [Token.text, hcs], (isStart_ne hc).2.2.1⟩
  -- finitely many symbols, none of them empty or blank
  | symbol s =>
    have : ∀ s : Symbol, s.text.toList.head?.isSome ∧ s.text.toList.head? ≠ some ' ' := by
      intro s; cases s <;> decide
    obtain ⟨h1, h2⟩ := this s
    cases hcs : s.text.toList with
    | nil => rw [hcs] at h1; cases h1
    | cons c cs => exact ⟨c, cs, hcs, fun he => h2 (by rw [hcs, he]; rfl)⟩
  | identifier name =>
    refine ⟨'"', Ident.escape name.toList ++ ['"'], ?_, by decide⟩
    simp [Token.text, Ident.quote, Ident.quoteChars]
  | param n => exact ⟨'$', Nat.toDigits 10 n, by simp [Token.text, placeholder], by decide⟩
  | number n =>
    cases hcs : Nat.toDigits 10 n with
    | nil => exact absurd hcs Nat.toDigits_ne_nil
    | cons c cs =>
      have hc : c.isDigit = true := List.all_eq_true.1 (digits_all n) c (by rw [hcs]; simp)
      exact ⟨c, cs, by simp [Token.text, hcs], (isDigit_ne hc).2.2⟩

theorem textOf_cons (t : Token Nat) (ts : List (Token Nat)) :
    (textOf placeholder (t :: ts)).toList =
      (t.text placeholder).toList ++ ((t.gapBefore ts).toList ++ (textOf placeholder ts).toList) := by
  simp [textOf]

/-- What follows a token does not run into it: the token ends by itself, or a blank or a closing
sign comes next. -/
theorem gap_ends (t : Token Nat) (ts : List (Token Nat)) :
    t.tightAfter = true ∨ Ends ((t.gapBefore ts).toList ++ (textOf placeholder ts).toList) := by
  cases ts with
  | nil => right; rintro c ⟨⟩
  | cons u us =>
    cases ht : t.tightAfter with
    | true => exact .inl rfl
    | false =>
      right
      cases hu : u.tightBefore with
      | false =>
        intro c hc
        simp only [Token.gapBefore, Token.gap, ht, hu] at hc
        cases hc; decide
      | true =>
        rw [textOf_cons]
        cases u with
        | symbol s =>
          intro c hc
          simp only [Token.gapBefore, Token.gap, ht, hu] at hc
          cases s <;> simp [Token.tightBefore] at hu <;> cases hc <;> decide
        | _ => simp [Token.tightBefore] at hu

theorem gapBefore_cases (t : Token Nat) (ts : List (Token Nat)) :
    t.gapBefore ts = "" ∨ t.gapBefore ts = " " := by
  cases ts with
  | nil => exact .inl rfl
  | cons u us =>
    simp only [Token.gapBefore, Token.gap]
    split
    · exact .inl rfl
    · exact .inr rfl

theorem scanAtMost_blank (fuel : Nat) (cs : List Char) :
    scanAtMost (fuel + 1) (' ' :: cs) = scanAtMost fuel cs := by
  rw [scanAtMost, if_pos rfl]

theorem scanAtMost_token {c : Char} {cs rest : List Char} {t : Token Nat} (hc : c ≠ ' ')
    (h : scanToken (c :: cs) = some (t, rest)) (fuel : Nat) :
    scanAtMost (fuel + 1) (c :: cs) = (scanAtMost fuel rest).map (t :: ·) := by
  rw [scanAtMost, if_neg hc, h]

theorem scanAtMost_textOf (ts : List (Token Nat)) (fuel : Nat)
    (h : (textOf placeholder ts).toList.length ≤ fuel) :
    scanAtMost fuel (textOf placeholder ts).toList = some ts := by
  induction ts generalizing fuel with
  | nil => cases fuel <;> rfl
  | cons t ts ih =>
    obtain ⟨c, cs, hcs, hc⟩ := text_head t
    have hread := scanToken_text t (gap_ends t ts)
    rw [textOf_cons] at h ⊢
    rw [hcs] at h hread ⊢
    rw [List.cons_append] at hread
    cases fuel with
    | zero => simp at h
    | succ fuel =>
      simp only [List.length_append, List.length_cons] at h
      rw [List.cons_append, scanAtMost_token hc hread]
      -- a blank, if there is one, is read before the next token
      rcases gapBefore_cases t ts with hg | hg <;> rw [hg] at h ⊢
      · rw [String.toList_empty] at h ⊢
        rw [List.length_nil] at h
        rw [List.nil_append, ih fuel (by omega), Option.map_some]
      · have hb : " ".toList = [' '] := rfl
        rw [hb, List.length_singleton] at h
        rw [hb, List.singleton_append]
        cases fuel with
        | zero => omega
        | succ fuel =>
          rw [scanAtMost_blank, ih fuel (by omega), Option.map_some]

/-- The text of a sequence of tokens is read as that sequence. -/
theorem scan_textOf (ts : List (Token Nat)) : scan (textOf placeholder ts) = some ts :=
  scanAtMost_textOf ts _ (Nat.le_refl _)

end CheckedSql.Sql
