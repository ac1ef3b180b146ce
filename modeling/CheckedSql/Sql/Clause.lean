/-
The small closed vocabularies that clauses are made of, each with the SQL words it is written in.
-/
import CheckedSql.Sql.Token

namespace CheckedSql

open Sql (Keyword)

/-- How the members of a group of conditions are joined. -/
inductive Junction
  | and | or
  deriving DecidableEq

/-- The word between two members. -/
def Junction.keyword : Junction → Keyword
  | .and => .AND
  | .or => .OR

/-- Ascending or descending. -/
inductive Direction
  | asc | desc
  deriving DecidableEq

def Direction.keyword : Direction → Keyword
  | .asc => .ASC
  | .desc => .DESC

/-- Where an ordering puts NULLs. -/
inductive NullsOrder
  | first | last
  deriving DecidableEq

def NullsOrder.keyword : NullsOrder → Keyword
  | .first => .FIRST
  | .last => .LAST

/-- Aggregate functions. -/
inductive AggregateFn
  | count | countDistinct | sum | avg | min | max
  deriving DecidableEq

/-- The function's name; counting distinct values is COUNT with a mark on its argument. -/
def AggregateFn.keyword : AggregateFn → Keyword
  | .count | .countDistinct => .COUNT
  | .sum => .SUM
  | .avg => .AVG
  | .min => .MIN
  | .max => .MAX

/-- Functions of scalars. -/
inductive ScalarFn
  | upper | lower | trim | length | abs | ceil | floor | round | sqrt | power
  deriving DecidableEq

def ScalarFn.keyword : ScalarFn → Keyword
  | .upper => .UPPER
  | .lower => .LOWER
  | .trim => .TRIM
  | .length => .LENGTH
  | .abs => .ABS
  | .ceil => .CEIL
  | .floor => .FLOOR
  | .round => .ROUND
  | .sqrt => .SQRT
  | .power => .POWER

/-- Ranking functions over a window. -/
inductive WindowFn
  | rowNumber | rank | denseRank
  deriving DecidableEq

def WindowFn.keyword : WindowFn → Keyword
  | .rowNumber => .ROW_NUMBER
  | .rank => .RANK
  | .denseRank => .DENSE_RANK

/-- Types a value may be cast to. -/
inductive CastType
  | text | smallInt | integer | bigInt | numeric | real | doublePrecision | boolean
  | date | timestamp | timestampTz | uuid | jsonb
  deriving DecidableEq

def CastType.keywords : CastType → List Keyword
  | .text => [.TEXT]
  | .smallInt => [.SMALLINT]
  | .integer => [.INTEGER]
  | .bigInt => [.BIGINT]
  | .numeric => [.NUMERIC]
  | .real => [.REAL]
  | .doublePrecision => [.DOUBLE, .PRECISION]
  | .boolean => [.BOOLEAN]
  | .date => [.DATE]
  | .timestamp => [.TIMESTAMP]
  | .timestampTz => [.TIMESTAMPTZ]
  | .uuid => [.UUID]
  | .jsonb => [.JSONB]

/-- The spelling of a type. -/
def CastType.spelling (t : CastType) : String :=
  Sql.textOf (fun p : Empty => p.elim) (Sql.keywords t.keywords)

/-- Operations that combine the results of two queries. -/
inductive SetOp
  | union | unionAll | intersect | intersectAll | except | exceptAll
  deriving DecidableEq

def SetOp.keywords : SetOp → List Keyword
  | .union => [.UNION]
  | .unionAll => [.UNION, .ALL]
  | .intersect => [.INTERSECT]
  | .intersectAll => [.INTERSECT, .ALL]
  | .except => [.EXCEPT]
  | .exceptAll => [.EXCEPT, .ALL]

/-- How strongly the rows of a query are locked. -/
inductive RowLock
  | update | noKeyUpdate | share | keyShare
  deriving DecidableEq

def RowLock.keywords : RowLock → List Keyword
  | .update => [.FOR, .UPDATE]
  | .noKeyUpdate => [.FOR, .NO, .KEY, .UPDATE]
  | .share => [.FOR, .SHARE]
  | .keyShare => [.FOR, .KEY, .SHARE]

end CheckedSql
