/-
The binary operators that conditions and expressions use, and the three classes that decide where
one may stand.
-/
import CheckedSql.Sql.Token

namespace CheckedSql

open Sql (Token)

/-- The binary operators. -/
inductive Operator
  | eq | ne | gt | ge | lt | le
  | like | notLike | ilike | notIlike
  | isIn | notIn
  | matches | imatches | notMatches | notImatches
  | contains | containedBy | overlaps
  | l2Distance | innerProduct | cosineDistance | l1Distance
  | add | sub | mul | div | mod
  deriving DecidableEq

namespace Operator

/-- An operator as tokens. -/
def tokens {π : Type} : Operator → List (Token π)
  | .eq => [.symbol .eq]
  | .ne => [.symbol .ne]
  | .gt => [.symbol .gt]
  | .ge => [.symbol .ge]
  | .lt => [.symbol .lt]
  | .le => [.symbol .le]
  | .like => [.keyword .LIKE]
  | .notLike => [.keyword .NOT, .keyword .LIKE]
  | .ilike => [.keyword .ILIKE]
  | .notIlike => [.keyword .NOT, .keyword .ILIKE]
  | .isIn => [.keyword .IN]
  | .notIn => [.keyword .NOT, .keyword .IN]
  | .matches => [.symbol .tilde]
  | .imatches => [.symbol .tildeStar]
  | .notMatches => [.symbol .bangTilde]
  | .notImatches => [.symbol .bangTildeStar]
  | .contains => [.symbol .atGreater]
  | .containedBy => [.symbol .lessAt]
  | .overlaps => [.symbol .ampAmp]
  | .l2Distance => [.symbol .lessMinusGreater]
  | .innerProduct => [.symbol .lessHashGreater]
  | .cosineDistance => [.symbol .lessEqualGreater]
  | .l1Distance => [.symbol .lessPlusGreater]
  | .add => [.symbol .plus]
  | .sub => [.symbol .minus]
  | .mul => [.symbol .star]
  | .div => [.symbol .slash]
  | .mod => [.symbol .percent]

/-- The spelling of an operator. -/
def text (op : Operator) : String :=
  Sql.textOf (fun p : Empty => p.elim) op.tokens

/-- A distance between vectors. -/
def isVector : Operator → Bool
  | .l2Distance | .innerProduct | .cosineDistance | .l1Distance => true
  | _ => false

/-- One of the four operations of arithmetic, or the remainder. -/
def isArithmetic : Operator → Bool
  | .add | .sub | .mul | .div | .mod => true
  | _ => false

/-- Membership in a list, which must be a parameter. -/
def isMembership : Operator → Bool
  | .isIn | .notIn => true
  | _ => false

/-- An operator that yields a truth value. -/
def isPredicate (op : Operator) : Bool :=
  !op.isVector && !op.isArithmetic

end Operator

end CheckedSql
