/-
Chains of set operations and the trees they are read as. Without parentheses INTERSECT is applied
before UNION and EXCEPT, and operations of equal strength from left to right: of all trees with
the operands and operations of a chain, `byPrecedence` is the only one that respects this
(`bound_iff`). It is the tree of a chain applied from left to right exactly when no INTERSECT
comes after a UNION or EXCEPT.
-/
import CheckedSql.Sql.Clause
import Mathlib.Data.List.Induction

namespace CheckedSql

/-- The operations that are applied before the others. -/
def SetOp.bindsTighter : SetOp → Bool
  | .intersect | .intersectAll => true
  | .union | .unionAll | .except | .exceptAll => false

/-- A query made of operands by set operations. -/
inductive SetTree (α : Type)
  | operand (a : α)
  | combine (op : SetOp) (left right : SetTree α)
  deriving DecidableEq

namespace SetTree

variable {α : Type}

/-! ## Two trees of a chain -/

/-- Each operation applied to the result of all before it. -/
def leftToRight (first : α) (rest : List (SetOp × α)) : SetTree α :=
  rest.foldl (fun t x => .combine x.1 t (.operand x.2)) (.operand first)

/-- A term behind the operation that waits for it, if one does. -/
def join (pending : Option (SetTree α × SetOp)) (term : SetTree α) : SetTree α :=
  match pending with
  | none => term
  | some (left, op) => .combine op left term

/-- The rest of a chain behind a term: a tighter operation extends the term, another one ends it
and waits for the next. -/
def climb (pending : Option (SetTree α × SetOp)) (term : SetTree α) :
    List (SetOp × α) → SetTree α
  | [] => join pending term
  | (op, a) :: rest =>
    if op.bindsTighter then climb pending (.combine op term (.operand a)) rest
    else climb (some (join pending term, op)) (.operand a) rest

/-- Tighter operations applied first, those of equal strength from left to right. -/
def byPrecedence (first : α) (rest : List (SetOp × α)) : SetTree α :=
  climb none (.operand first) rest

/-! ## The chain of a tree -/

/-- The leftmost operand. -/
def first : SetTree α → α
  | operand a => a
  | combine _ left _ => left.first

/-- The operands after the leftmost, each with the operation before it. -/
def rest : SetTree α → List (SetOp × α)
  | operand _ => []
  | combine op left right => left.rest ++ (op, right.first) :: right.rest

/-- An operand, or operands joined by tighter operations. -/
def IsTerm : SetTree α → Prop
  | operand _ => True
  | combine op _ _ => op.bindsTighter = true

/-- A single operand. -/
def IsOperand : SetTree α → Prop
  | operand _ => True
  | combine _ _ _ => False

/-- A tree that needs no parentheses: a tighter operation joins a term and an operand, another
operation any tree and a term. -/
def Bound : SetTree α → Prop
  | operand _ => True
  | combine op left right =>
    left.Bound ∧ right.Bound ∧
      if op.bindsTighter then left.IsTerm ∧ right.IsOperand else right.IsTerm

/-! ## Reading by precedence -/

theorem climb_tighter {op : SetOp} (h : op.bindsTighter = true)
    (pending : Option (SetTree α × SetOp)) (term : SetTree α) (a : α) (l : List (SetOp × α)) :
    climb pending term ((op, a) :: l) = climb pending (.combine op term (.operand a)) l := by
  rw [climb, if_pos h]

theorem climb_looser {op : SetOp} (h : op.bindsTighter = false)
    (pending : Option (SetTree α × SetOp)) (term : SetTree α) (a : α) (l : List (SetOp × α)) :
    climb pending term ((op, a) :: l) = climb (some (join pending term, op)) (.operand a) l := by
  rw [climb, h]; rfl

/-- The chain of a term is read as that term, whatever waits for it and whatever follows. -/
theorem climb_term (t : SetTree α) (hb : t.Bound) (ht : t.IsTerm)
    (pending : Option (SetTree α × SetOp)) (l : List (SetOp × α)) :
    climb pending (.operand t.first) (t.rest ++ l) = climb pending t l := by
  induction t generalizing l with
  | operand a => rfl
  | combine op left right ihl ihr =>
    obtain ⟨hl, -, hr⟩ := hb
    have hop : op.bindsTighter = true := ht
    rw [if_pos hop] at hr
    obtain ⟨hlt, hro⟩ := hr
    cases right with
    | combine _ _ _ => exact hro.elim
    | operand b =>
      -- the left side is read as a term, then the operation extends it by its one operand
      show climb pending (.operand left.first) ((left.rest ++ [(op, b)]) ++ l) = _
      rw [List.append_assoc, ihl hl hlt, List.singleton_append, climb_tighter hop]

/-- The chain of a tree that needs no parentheses is read as that tree. -/
theorem climb_bound (t : SetTree α) (hb : t.Bound) (l : List (SetOp × α)) :
    ∃ pending term, join pending term = t ∧
      climb none (.operand t.first) (t.rest ++ l) = climb pending term l := by
  induction t generalizing l with
  | operand a => exact ⟨none, .operand a, rfl, rfl⟩
  | combine op left right ihl ihr =>
    cases hop : op.bindsTighter with
    -- the tree is a single term, and nothing waits
    | true => exact ⟨none, _, rfl, climb_term _ hb hop none l⟩
    | false =>
      obtain ⟨hl, hr, hrt⟩ := hb
      rw [hop, if_neg (by decide)] at hrt
      -- the operation ends what is read of the left side, and waits for the right one
      obtain ⟨pending, term, hj, hc⟩ := ihl hl ((op, right.first) :: (right.rest ++ l))
      refine ⟨some (left, op), right, rfl, ?_⟩
      show climb none (.operand left.first) ((left.rest ++ (op, right.first) :: right.rest) ++ l) = _
      rw [List.append_assoc, List.cons_append, hc, climb_looser hop, hj, climb_term right hr hrt]

theorem byPrecedence_of_bound {t : SetTree α} (hb : t.Bound) :
    byPrecedence t.first t.rest = t := by
  obtain ⟨pending, term, hj, hc⟩ := climb_bound t hb []
  rw [List.append_nil] at hc
  rw [byPrecedence, hc, climb, hj]

/-- What waits is a tree that needs no parentheses, the term is a term, and their chain together
with what is still to be read is the chain that was given. -/
theorem climb_spec (pending : Option (SetTree α × SetOp)) (term : SetTree α)
    (l : List (SetOp × α)) (hp : ∀ p ∈ pending, p.1.Bound ∧ p.2.bindsTighter = false)
    (hb : term.Bound) (ht : term.IsTerm) :
    (climb pending term l).Bound ∧ (climb pending term l).first = (join pending term).first ∧
      (climb pending term l).rest = (join pending term).rest ++ l := by
  induction l generalizing pending term with
  | nil =>
    refine ⟨?_, rfl, (List.append_nil _).symm⟩
    cases pending with
    | none => exact hb
    | some p =>
      obtain ⟨hl, hop⟩ := hp p rfl
      exact ⟨hl, hb, by rw [hop]; exact ht⟩
  | cons x l ih =>
    obtain ⟨op, a⟩ := x
    cases hop : op.bindsTighter with
    | true =>
      -- the term grows by an operand, and what waits goes on waiting
      rw [climb_tighter hop]
      obtain ⟨h1, h2, h3⟩ := ih pending (.combine op term (.operand a)) hp
        ⟨hb, trivial, by rw [hop]; exact ⟨ht, trivial⟩⟩ hop
      refine ⟨h1, h2.trans ?_, h3.trans ?_⟩
      · cases pending <;> rfl
      · cases pending <;> simp [join, rest, first]
    | false =>
      rw [climb_looser hop]
      -- what is read so far waits as a whole, in front of a new term
      have hj : (join pending term).Bound := by
        cases pending with
        | none => exact hb
        | some p =>
          obtain ⟨hl, hop'⟩ := hp p rfl
          exact ⟨hl, hb, by rw [hop']; exact ht⟩
      obtain ⟨h1, h2, h3⟩ := ih (some (join pending term, op)) (.operand a)
        (by rintro p ⟨⟩; exact ⟨hj, hop⟩) trivial trivial
      exact ⟨h1, h2, h3.trans (by simp [join, rest, first])⟩

/-- Of the trees of a chain, the one read by precedence is the one that needs no parentheses. -/
theorem bound_iff {t : SetTree α} {a : α} {l : List (SetOp × α)} :
    t.Bound ∧ t.first = a ∧ t.rest = l ↔ t = byPrecedence a l := by
  constructor
  · rintro ⟨hb, rfl, rfl⟩
    exact (byPrecedence_of_bound hb).symm
  · rintro rfl
    exact climb_spec none (.operand a) l (by rintro p ⟨⟩) trivial trivial

/-! ## Reading from left to right -/

theorem leftToRight_append (a : α) (l : List (SetOp × α)) (x : SetOp × α) :
    leftToRight a (l ++ [x]) = .combine x.1 (leftToRight a l) (.operand x.2) := by
  simp [leftToRight]

theorem leftToRight_chain (a : α) (l : List (SetOp × α)) :
    (leftToRight a l).first = a ∧ (leftToRight a l).rest = l := by
  induction l using List.reverseRecOn with
  | nil => exact ⟨rfl, rfl⟩
  | append_singleton l x ih =>
    rw [leftToRight_append]
    exact ⟨ih.1, by rw [rest, ih.2]; rfl⟩

/-- Operations in an order in which none is applied before an earlier one. -/
def InOrder (ops : List SetOp) : Prop :=
  ops.Pairwise fun o p => p.bindsTighter = true → o.bindsTighter = true

instance (ops : List SetOp) : Decidable (InOrder ops) :=
  inferInstanceAs (Decidable (ops.Pairwise _))

/-- A chain from left to right needs no parentheses if and only if its operations are in order; it
is then a term if and only if all of them are tighter ones. -/
theorem leftToRight_bound (a : α) (l : List (SetOp × α)) :
    ((leftToRight a l).Bound ↔ InOrder (l.map (·.1))) ∧
      ((leftToRight a l).Bound →
        ((leftToRight a l).IsTerm ↔ ∀ x ∈ l, x.1.bindsTighter = true)) := by
  induction l using List.reverseRecOn with
  | nil => exact ⟨⟨fun _ => .nil, fun _ => trivial⟩, fun _ => ⟨by simp, fun _ => trivial⟩⟩
  | append_singleton l x ih =>
    obtain ⟨ihb, iht⟩ := ih
    have horder : InOrder ((l ++ [x]).map (·.1)) ↔
        InOrder (l.map (·.1)) ∧ (x.1.bindsTighter = true → ∀ y ∈ l, y.1.bindsTighter = true) := by
      simp only [InOrder, List.map_append, List.pairwise_append, List.map_cons, List.map_nil,
        List.mem_map, List.mem_singleton]
      constructor
      · rintro ⟨h1, -, h2⟩
        exact ⟨h1, fun hx y hy => h2 _ ⟨y, hy, rfl⟩ _ rfl hx⟩
      · rintro ⟨h1, h2⟩
        refine ⟨h1, List.pairwise_singleton _ _, ?_⟩
        rintro _ ⟨y, hy, rfl⟩ _ rfl hx
        exact h2 hx y hy
    rw [leftToRight_append, horder]
    cases hop : x.1.bindsTighter with
    | true =>
      -- a tighter operation at the end needs a term before it: every operation must be one
      have hb : (combine x.1 (leftToRight a l) (.operand x.2)).Bound ↔
          (leftToRight a l).Bound ∧ (leftToRight a l).IsTerm := by
        simp [Bound, hop, IsOperand]
      refine ⟨?_, fun h => ?_⟩
      · rw [hb]
        constructor
        · rintro ⟨h1, h2⟩; exact ⟨ihb.1 h1, fun _ => (iht h1).1 h2⟩
        · rintro ⟨h1, h2⟩; exact ⟨ihb.2 h1, (iht (ihb.2 h1)).2 (h2 rfl)⟩
      · obtain ⟨h1, h2⟩ := hb.1 h
        have hall := (iht h1).1 h2
        simp only [IsTerm, hop, List.mem_append, List.mem_singleton, true_iff]
        rintro y (hy | rfl)
        · exact hall y hy
        · exact hop
    | false =>
      -- another operation at the end takes what is before it as it is, but makes no term
      refine ⟨?_, fun _ => ?_⟩
      · simp [Bound, hop, IsTerm, ihb]
      · have hne : x.1.bindsTighter ≠ true := by rw [hop]; decide
        exact ⟨fun h => absurd h hne, fun h => absurd (h x (by simp)) hne⟩

/-- A chain is read from left to right if and only if its operations are in order. -/
theorem byPrecedence_eq_leftToRight_iff (a : α) (l : List (SetOp × α)) :
    byPrecedence a l = leftToRight a l ↔ InOrder (l.map (·.1)) := by
  obtain ⟨hf, hr⟩ := leftToRight_chain a l
  rw [← (leftToRight_bound a l).1]
  constructor
  · intro h
    exact (bound_iff.2 h.symm).1
  · intro h
    exact (bound_iff.1 ⟨h, hf, hr⟩).symm

end SetTree

end CheckedSql
