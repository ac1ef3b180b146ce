/-
Parentheses that match. In a balanced sequence every parenthesis is closed again, so that the
reader of a parenthesized part stops where that part ends.
-/
import CheckedSql.Proofs.Sql.Tokens

namespace CheckedSql.Sql

variable {π ρ : Type}

/-- A token that opens a parenthesis. -/
def Token.opens : Token π → Bool
  | .call _ | .symbol .openParen => true
  | _ => false

/-- A token that closes a parenthesis. -/
def Token.closes : Token π → Bool
  | .symbol .closeParen => true
  | _ => false

/-- Sequences in which every parenthesis that is opened is closed, and no other is. -/
inductive Balanced : List (Token π) → Prop
  | nil : Balanced []
  | single {t : Token π} : t.opens = false → t.closes = false → Balanced [t]
  | append {ts us : List (Token π)} : Balanced ts → Balanced us → Balanced (ts ++ us)
  | bracket {t : Token π} {ts : List (Token π)} :
      t.opens = true → Balanced ts → Balanced (t :: ts ++ [Token.symbol .closeParen])

/-- A part of a text up to the parenthesis that closes it, behind `depth` more that are open, and
what follows that parenthesis. -/
def upToClosing : (depth : Nat) → List (Token π) → Option (List (Token π) × List (Token π))
  | _, [] => none
  | 0, t :: ts =>
    if t.closes then some ([], ts)
    else (upToClosing (if t.opens then 1 else 0) ts).map fun r => (t :: r.1, r.2)
  | depth + 1, t :: ts =>
    (upToClosing (if t.closes then depth else if t.opens then depth + 2 else depth + 1) ts).map
      fun r => (t :: r.1, r.2)

/-! ## Balanced sequences -/

namespace Balanced

theorem cons {t : Token π} {ts : List (Token π)} (ho : t.opens = false) (hc : t.closes = false)
    (h : Balanced ts) : Balanced (t :: ts) :=
  append (single ho hc) h

theorem parenthesized {ts : List (Token π)} (h : Balanced ts) : Balanced (Sql.parenthesized ts) :=
  bracket rfl h

theorem keywords (ks : List Keyword) : Balanced (Sql.keywords ks : List (Token π)) := by
  induction ks with
  | nil => exact nil
  | cons k ks ih => exact cons rfl rfl ih

theorem intercalate {sep : List (Token π)} (hs : Balanced sep) {tss : List (List (Token π))}
    (h : ∀ ts ∈ tss, Balanced ts) : Balanced (sep.intercalate tss) := by
  induction tss with
  | nil => exact nil
  | cons ts tss ih =>
    cases tss with
    | nil => rw [List.intercalate_singleton]; exact h ts List.mem_cons_self
    | cons us tss =>
      rw [List.intercalate_cons_cons]
      exact ((h ts List.mem_cons_self).append hs).append (ih fun x hx => h x (.tail _ hx))

theorem commaSeparated {tss : List (List (Token π))} (h : ∀ ts ∈ tss, Balanced ts) :
    Balanced (Sql.commaSeparated tss) :=
  intercalate (single rfl rfl) h

theorem map (f : π → ρ) {ts : List (Token π)} (h : Balanced ts) :
    Balanced (ts.map (Token.map f)) := by
  have hf (t : Token π) : (t.map f).opens = t.opens ∧ (t.map f).closes = t.closes := by
    cases t with
    | symbol s => cases s <;> exact ⟨rfl, rfl⟩
    | _ => exact ⟨rfl, rfl⟩
  induction h with
  | nil => exact nil
  | single ho hc => exact single ((hf _).1.trans ho) ((hf _).2.trans hc)
  | append _ _ iht ihu => rw [List.map_append]; exact iht.append ihu
  | bracket ho _ ih =>
    rw [List.map_append, List.map_cons]
    exact bracket ((hf _).1.trans ho) ih

end Balanced

/-! ## Reading up to the closing parenthesis -/

theorem opens_not_closes {t : Token π} (h : t.opens = true) : t.closes = false := by
  cases t with
  | symbol s =>
    cases s <;> simp [Token.opens] at h
    rfl
  | _ => rfl

theorem upToClosing_single {t : Token π} (ho : t.opens = false) (hc : t.closes = false)
    (depth : Nat) (ts : List (Token π)) :
    upToClosing depth (t :: ts) = (upToClosing depth ts).map fun r => (t :: r.1, r.2) := by
  cases depth <;> simp [upToClosing, ho, hc]

theorem upToClosing_open {t : Token π} (ho : t.opens = true) (depth : Nat) (ts : List (Token π)) :
    upToClosing depth (t :: ts) = (upToClosing (depth + 1) ts).map fun r => (t :: r.1, r.2) := by
  cases depth <;> simp [upToClosing, ho, opens_not_closes ho]

theorem upToClosing_close (depth : Nat) (ts : List (Token π)) :
    upToClosing (depth + 1) (.symbol .closeParen :: ts) =
      (upToClosing depth ts).map fun r => (.symbol .closeParen :: r.1, r.2) := by
  simp [upToClosing, Token.closes]

/-- A balanced part is passed over, whatever is open around it. -/
theorem Balanced.upToClosing_append {ts : List (Token π)} (h : Balanced ts) (depth : Nat)
    (us : List (Token π)) :
    upToClosing depth (ts ++ us) = (upToClosing depth us).map fun r => (ts ++ r.1, r.2) := by
  induction h generalizing depth us with
  | nil => simp
  | single ho hc => rw [List.singleton_append, upToClosing_single ho hc]; rfl
  | append _ _ iht ihu =>
    rw [List.append_assoc, iht, ihu, Option.map_map]
    simp [Function.comp_def]
  | bracket ho _ ih =>
    rw [List.cons_append, List.cons_append, List.append_assoc, upToClosing_open ho, ih,
      List.singleton_append, upToClosing_close, Option.map_map, Option.map_map]
    simp [Function.comp_def]

/-- What stands in a parenthesis is read up to the end of that parenthesis. -/
theorem Balanced.upToClosing_parenthesis {ts : List (Token π)} (h : Balanced ts)
    (us : List (Token π)) : upToClosing 0 (ts ++ .symbol .closeParen :: us) = some (ts, us) := by
  rw [h.upToClosing_append]
  simp [upToClosing, Token.closes]

end CheckedSql.Sql
