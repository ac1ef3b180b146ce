/-
Readers of sequences of tokens. A reader takes a value from the beginning of a sequence and leaves
the rest. That it reads what was written is stated with the tokens that must not come next: most
parts end by themselves, but a clause that may be absent is absent only if its word does not
follow.
-/
import CheckedSql.Proofs.Sql.Tokens

namespace CheckedSql.Sql

/-- What is read from the beginning of a sequence of tokens, and the rest. -/
abbrev Reader (π α : Type) := List (Token π) → Option (α × List (Token π))

variable {π α β : Type}

/-! ## What comes next -/

/-- A sequence that begins with none of the given tokens. -/
def Avoids (stop ts : List (Token π)) : Prop :=
  ∀ t ∈ ts.head?, t ∉ stop

/-- A reader that finds a value in tokens, unless one of the given tokens comes next. -/
def Reads (p : Reader π α) (ts : List (Token π)) (a : α) (stop : List (Token π)) : Prop :=
  ∀ rest, Avoids stop rest → p (ts ++ rest) = some (a, rest)

namespace Avoids

variable {stop less ts us : List (Token π)}

theorem nil : Avoids stop ([] : List (Token π)) := by
  rintro t ⟨⟩

theorem of_empty (ts : List (Token π)) : Avoids [] ts :=
  fun _ _ => List.not_mem_nil

theorem cons {t : Token π} (h : t ∉ stop) (ts : List (Token π)) : Avoids stop (t :: ts) := by
  rintro u ⟨⟩
  exact h

theorem append (ht : Avoids stop ts) (hu : Avoids stop us) : Avoids stop (ts ++ us) := by
  cases ts with
  | nil => exact hu
  | cons t ts => exact cons (ht t rfl) _

theorem mono (h : Avoids stop ts) (hs : less ⊆ stop) : Avoids less ts :=
  fun t ht hm => h t ht (hs hm)

end Avoids

/-! ## Lists of parts -/

theorem intercalate_eq_flatMap (sep : Token π) (ts : List (Token π)) (tss : List (List (Token π))) :
    [sep].intercalate (ts :: tss) = ts ++ tss.flatMap fun us => sep :: us := by
  induction tss generalizing ts with
  | nil => simp
  | cons us tss ih => simp [List.intercalate_cons_cons, ih us]

theorem length_le_flatMap (lead : Token π) (write : α → List (Token π)) (xs : List α)
    (rest : List (Token π)) :
    xs.length ≤ ((xs.flatMap fun x => lead :: write x) ++ rest).length := by
  induction xs with
  | nil => exact Nat.zero_le _
  | cons x xs ih =>
    rw [List.flatMap_cons, List.cons_append, List.cons_append, List.append_assoc, List.length_cons,
      List.length_cons, List.length_append]
    omega

/-- What comes after one of several values is the next of them or what comes after all. -/
theorem Avoids.flatMap {stop rest : List (Token π)} {lead : Token π} (hlead : lead ∉ stop)
    (hrest : Avoids (lead :: stop) rest) (write : α → List (Token π)) (xs : List α) :
    Avoids stop ((xs.flatMap fun x => lead :: write x) ++ rest) := by
  cases xs with
  | nil => exact hrest.mono (List.subset_cons_self _ _)
  | cons x xs => exact .cons hlead _

/-! ## Values that may be absent -/

/-- A value that may be absent. -/
def orNone (p : Reader π α) : Reader π (Option α) := fun ts =>
  match p ts with
  | none => some (none, ts)
  | some (a, us) => some (some a, us)

theorem orNone_some {p : Reader π α} {ts us : List (Token π)} {a : α} (h : p ts = some (a, us)) :
    orNone p ts = some (some a, us) := by
  rw [orNone, h]

theorem orNone_none {p : Reader π α} {ts : List (Token π)} (h : p ts = none) :
    orNone p ts = some (none, ts) := by
  rw [orNone, h]

/-! ## Given tokens -/

section

variable [DecidableEq π]

/-- What follows given tokens. -/
def expect : List (Token π) → List (Token π) → Option (List (Token π))
  | [], ts => some ts
  | u :: us, t :: ts => if t = u then expect us ts else none
  | _ :: _, [] => none

/-- A value behind given tokens. -/
def behind (lead : List (Token π)) (p : Reader π α) : Reader π α := fun ts =>
  (expect lead ts).bind p

/-- A member of a vocabulary, by its spelling. -/
def oneOf (all : List α) (spell : α → List (Token π)) : Reader π α := fun ts =>
  all.findSome? fun a => (expect (spell a) ts).map fun us => (a, us)

theorem expect_append (us ts : List (Token π)) : expect us (us ++ ts) = some ts := by
  induction us with
  | nil => rfl
  | cons u us ih => rw [List.cons_append, expect, if_pos rfl, ih]

theorem expect_avoids {u : Token π} {us ts stop : List (Token π)} (h : Avoids stop ts)
    (hu : u ∈ stop) : expect (u :: us) ts = none := by
  cases ts with
  | nil => rfl
  | cons t ts =>
    have hne : t ≠ u := fun he => h t rfl (he ▸ hu)
    rw [expect, if_neg hne]

/-- No member of a vocabulary is read where the word that all of them begin with does not stand. -/
theorem oneOf_avoids {u : Token π} {ts stop : List (Token π)} {all : List α}
    {spell : α → List (Token π)} (h : Avoids stop ts) (hu : u ∈ stop)
    (hall : ∀ a, (spell a).head? = some u) : oneOf all spell ts = none := by
  have hnone (a : α) : expect (spell a) ts = none := by
    cases hs : spell a with
    | nil => simpa [hs] using hall a
    | cons v us =>
      obtain rfl : v = u := by simpa [hs] using hall a
      exact expect_avoids h hu
  simp [oneOf, hnone]

theorem behind_append {ts us : List (Token π)} {p : Reader π α} {a : α} (lead : List (Token π))
    (h : p ts = some (a, us)) : behind lead p (lead ++ ts) = some (a, us) := by
  rw [behind, expect_append, Option.bind_some, h]

theorem behind_avoids {u : Token π} {us ts stop : List (Token π)} {p : Reader π α}
    (h : Avoids stop ts) (hu : u ∈ stop) : behind (u :: us) p ts = none := by
  rw [behind, expect_avoids h hu]
  rfl

/-! ## Lists of values -/

/-- Values behind a token each, at most `fuel` of them. -/
def many (lead : Token π) (p : Reader π α) : (fuel : Nat) → Reader π (List α)
  | 0, ts => some ([], ts)
  | fuel + 1, ts =>
    match expect [lead] ts with
    | none => some ([], ts)
    | some us => do
      let (a, us) ← p us
      let (as, us) ← many lead p fuel us
      return (a :: as, us)

/-- Values with a token between each two. -/
def separated (sep : Token π) (p : Reader π α) : Reader π (List α) := fun ts =>
  match p ts with
  | none => some ([], ts)
  | some (a, us) => do
    let (as, us) ← many sep p us.length us
    return (a :: as, us)

/-- The values of a clause; none, if the words of the clause do not come next. -/
def clause (lead : List (Token π)) (sep : Token π) (p : Reader π α) : Reader π (List α) := fun ts =>
  match expect lead ts with
  | none => some ([], ts)
  | some us => separated sep p us

variable {p : Reader π α} {write : α → List (Token π)} {stop rest : List (Token π)} {xs : List α}

/-- Values behind a token each are read as long as that token comes next. What is written may be
another value than what is read of it. -/
theorem many_map {γ : Type} {value : γ → α} {write : γ → List (Token π)} {xs : List γ}
    {lead : Token π} (hx : ∀ x ∈ xs, Reads p (write x) (value x) stop) (hlead : lead ∉ stop)
    (hrest : Avoids (lead :: stop) rest) {fuel : Nat} (hfuel : xs.length ≤ fuel) :
    many lead p fuel ((xs.flatMap fun x => lead :: write x) ++ rest) =
      some (xs.map value, rest) := by
  induction xs generalizing fuel with
  | nil =>
    cases fuel with
    | zero => rfl
    | succ fuel =>
      rw [List.flatMap_nil, List.nil_append, many, expect_avoids hrest List.mem_cons_self]
      rfl
  | cons x xs ih =>
    cases fuel with
    | zero => simp at hfuel
    | succ fuel =>
      -- the reader is given the first value with all that follows it, the others included
      have htokens : ((x :: xs).flatMap fun x => lead :: write x) ++ rest =
          [lead] ++ (write x ++ ((xs.flatMap fun x => lead :: write x) ++ rest)) := by
        simp
      have hhead := hx x List.mem_cons_self _ (Avoids.flatMap hlead hrest write xs)
      have hrec := ih (fun y hy => hx y (.tail _ hy)) (Nat.le_of_succ_le_succ hfuel)
      rw [htokens, many, expect_append]
      simp only [Option.bind_eq_bind, Option.bind_some, hhead, hrec]
      rfl

theorem many_flatMap {lead : Token π} (hx : ∀ x ∈ xs, Reads p (write x) x stop)
    (hlead : lead ∉ stop) (hrest : Avoids (lead :: stop) rest) {fuel : Nat}
    (hfuel : xs.length ≤ fuel) :
    many lead p fuel ((xs.flatMap fun x => lead :: write x) ++ rest) = some (xs, rest) := by
  rw [many_map hx hlead hrest hfuel, List.map_id']

/-- As many steps as there are tokens are enough. -/
theorem many_reads {lead : Token π} (hx : ∀ x ∈ xs, Reads p (write x) x stop)
    (hlead : lead ∉ stop) :
    Reads (fun ts => many lead p ts.length ts) (xs.flatMap fun x => lead :: write x) xs
      (lead :: stop) :=
  fun rest hrest => many_flatMap hx hlead hrest (length_le_flatMap lead write xs rest)

/-- Values with a token between each two are read up to where that token does not come next. -/
theorem separated_intercalate {sep : Token π} (hx : ∀ x ∈ xs, Reads p (write x) x stop)
    (hsep : sep ∉ stop) (hrest : Avoids (sep :: stop) rest) (hnil : xs = [] → p rest = none) :
    separated sep p ([sep].intercalate (xs.map write) ++ rest) = some (xs, rest) := by
  cases xs with
  | nil =>
    show separated sep p rest = _
    rw [separated, hnil rfl]
  | cons x xs =>
    have hhead := hx x List.mem_cons_self _ (Avoids.flatMap hsep hrest write xs)
    have hrec := many_reads (fun y hy => hx y (.tail _ hy)) hsep rest hrest
    rw [List.map_cons, intercalate_eq_flatMap, List.flatMap_map, List.append_assoc, separated, hhead]
    simp only [Option.bind_eq_bind, Option.bind_some, hrec]
    rfl

omit [DecidableEq π] in
theorem Avoids.clauseTokens {l sep : Token π} {lead stop : List (Token π)} (h : l ∉ stop)
    (write : α → List (Token π)) (xs : List α) :
    Avoids stop (clauseTokens (l :: lead) sep write xs) := by
  cases xs with
  | nil => exact .nil
  | cons x xs => exact .cons h _

/-- A clause is read back, if what follows it does not begin like the clause itself. -/
theorem clause_reads {l sep : Token π} {lead : List (Token π)}
    (hx : ∀ x ∈ xs, Reads p (write x) x stop) (hsep : sep ∉ stop) :
    Reads (clause (l :: lead) sep p) (clauseTokens (l :: lead) sep write xs) xs
      (l :: sep :: stop) := by
  intro rest hrest
  have hend : Avoids (sep :: stop) rest := hrest.mono (List.subset_cons_self _ _)
  cases xs with
  | nil =>
    show clause (l :: lead) sep p rest = _
    rw [clause, expect_avoids hrest List.mem_cons_self]
  | cons x xs =>
    rw [clauseTokens, List.isEmpty_cons, if_neg (by decide), List.append_assoc, clause,
      expect_append]
    exact separated_intercalate hx hsep hend (by rintro ⟨⟩)

end

end CheckedSql.Sql
