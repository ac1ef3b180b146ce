/-
Looking up a caller's token in a vocabulary. A token is read as the list of its words, without
regard to ASCII case or to the kind and amount of white space, and must be the word list of an
entry.
-/
import CheckedSql.Error
import CheckedSql.Sql.Clause
import CheckedSql.Sql.Operator
import CheckedSql.Text.Basic

namespace CheckedSql

/-- Word lists, in upper case, with what they stand for. -/
structure Vocabulary (α : Type) where
  kind : NameKind
  entries : List (List String × α)

namespace Vocabulary

/-- The meaning of a token; a token of no entry is an unresolved name, kept as it was given. -/
def resolve {α : Type} (v : Vocabulary α) (token : String) : Except BuildError α :=
  let key := (Text.words token).map Text.upper
  match v.entries.find? (·.1 == key) with
  | some e => .ok e.2
  | none => .error (.unresolved v.kind token)

/-- The operators. `<>` is another spelling of `!=`. -/
def operators : Vocabulary Operator :=
  ⟨.operator,
    [(["="], .eq), (["!="], .ne), (["<>"], .ne), ([">"], .gt), ([">="], .ge), (["<"], .lt),
      (["<="], .le), (["LIKE"], .like), (["NOT", "LIKE"], .notLike), (["ILIKE"], .ilike),
      (["NOT", "ILIKE"], .notIlike), (["IN"], .isIn), (["NOT", "IN"], .notIn),
      (["~"], .matches), (["~*"], .imatches), (["!~"], .notMatches), (["!~*"], .notImatches),
      (["@>"], .contains), (["<@"], .containedBy), (["&&"], .overlaps),
      (["<->"], .l2Distance), (["<#>"], .innerProduct), (["<=>"], .cosineDistance),
      (["<+>"], .l1Distance), (["+"], .add), (["-"], .sub), (["*"], .mul), (["/"], .div),
      (["%"], .mod)]⟩

/-- The directions of an ordering. -/
def directions : Vocabulary Direction :=
  ⟨.direction, [(["ASC"], .asc), (["DESC"], .desc)]⟩

/-- The places of NULLs; the word NULLS may be left out. -/
def nullsOrders : Vocabulary NullsOrder :=
  ⟨.nullsOrdering,
    [(["FIRST"], .first), (["LAST"], .last), (["NULLS", "FIRST"], .first),
      (["NULLS", "LAST"], .last)]⟩

/-- The aggregate functions. -/
def aggregates : Vocabulary AggregateFn :=
  ⟨.aggregate,
    [(["COUNT"], .count), (["COUNT", "DISTINCT"], .countDistinct), (["SUM"], .sum),
      (["AVG"], .avg), (["MIN"], .min), (["MAX"], .max)]⟩

/-- The cast types, some under several names. -/
def castTypes : Vocabulary CastType :=
  ⟨.castType,
    [(["TEXT"], .text), (["VARCHAR"], .text), (["SMALLINT"], .smallInt), (["INT2"], .smallInt),
      (["INTEGER"], .integer), (["INT"], .integer), (["INT4"], .integer),
      (["BIGINT"], .bigInt), (["INT8"], .bigInt), (["NUMERIC"], .numeric),
      (["DECIMAL"], .numeric), (["REAL"], .real), (["FLOAT4"], .real),
      (["DOUBLE", "PRECISION"], .doublePrecision), (["FLOAT8"], .doublePrecision),
      (["BOOLEAN"], .boolean), (["BOOL"], .boolean), (["DATE"], .date),
      (["TIMESTAMP"], .timestamp), (["TIMESTAMPTZ"], .timestampTz), (["UUID"], .uuid),
      (["JSONB"], .jsonb)]⟩

/-- An operator that must yield a truth value. -/
def resolvePredicate (token : String) : Except BuildError Operator := do
  let op ← operators.resolve token
  if op.isPredicate then return op
  else
    throw (.invalidCondition ("operator '" ++ Text.trim token ++ "' is not a predicate"))

end Vocabulary

end CheckedSql
