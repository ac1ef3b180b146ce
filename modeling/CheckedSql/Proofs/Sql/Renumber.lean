/-
Giving the placeholders of a text other numbers: outside of quoted identifiers a dollar sign and
the longest run of digits behind it are replaced, and all else is left as it is. On the text of a
sequence of tokens this is the text of the tokens with their parameters renumbered.
-/
import CheckedSql.Proofs.Sql.Respell

namespace CheckedSql.Sql

/-- The characters of a text with other numbers in its placeholders. The text begins inside or
outside of a quoted identifier; its first `skip` characters, digits that have been replaced, are
left out. -/
def renumberFrom (f : Nat → Nat) : (quoted : Bool) → (skip : Nat) → List Char → List Char
  | _, _, [] => []
  | quoted, skip + 1, _ :: cs => renumberFrom f quoted skip cs
  | true, 0, c :: cs => c :: renumberFrom f (c != '"') 0 cs
  | false, 0, c :: cs =>
    let digits := cs.takeWhile Char.isDigit
    if c = '$' && !digits.isEmpty then
      (placeholder (f (Nat.ofDigitChars 10 digits 0))).toList
        ++ renumberFrom f false digits.length cs
    else c :: renumberFrom f (c == '"') 0 cs

/-- A text with the number of each placeholder replaced. -/
def renumber (f : Nat → Nat) (sql : String) : String :=
  String.ofList (renumberFrom f false 0 sql.toList)

theorem renumberFrom_eq_respellFrom (f : Nat → Nat) (quoted : Bool) (skip : Nat) (cs : List Char) :
    renumberFrom f quoted skip cs = respellFrom (placeholder ∘ f) quoted skip cs := by
  fun_induction renumberFrom f quoted skip cs with
  | case1 => rw [respellFrom]
  | case2 quoted skip c cs ih => rw [respellFrom, ih]
  | case3 c cs ih => rw [respellFrom, ih]
  | case4 c cs digits h ih =>
    rw [respellFrom, if_pos h, ih]
    rfl
  | case5 c cs digits h ih => rw [respellFrom, if_neg h, ih]

/-- Renumbering the text of a sequence of tokens is renumbering its parameters. -/
theorem renumber_textOf (f : Nat → Nat) (ts : List (Token Nat)) :
    renumber f (textOf placeholder ts) = textOf placeholder (ts.map (Token.map f)) := by
  rw [textOf_map, ← respell_textOf (placeholder ∘ f), renumber, respell, renumberFrom_eq_respellFrom]

/-- A placeholder in a name is none, and a number goes on to its last digit. -/
example : renumber (· + 10) "\"$1\"\"$2\" = $1 OR $20" = "\"$1\"\"$2\" = $11 OR $30" := by
  decide

end CheckedSql.Sql
