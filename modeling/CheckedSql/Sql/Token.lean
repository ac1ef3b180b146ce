/-
SQL as a sequence of tokens, and the text of a sequence. A statement is made of tokens; only its
last step is text. Blanks are no tokens: whether one stands between two tokens is decided by the
two alone, so a text is determined by its tokens.
-/
import CheckedSql.Ident

namespace CheckedSql.Sql

/-- The words that are not names of a caller's choice: reserved words, functions and types. -/
inductive Keyword
  | SELECT | DISTINCT | FROM | WHERE | GROUP | BY | HAVING | ORDER | ASC | DESC
  | NULLS | FIRST | LAST | LIMIT | OFFSET | FOR | UPDATE | NO | KEY | SHARE
  | INSERT | INTO | VALUES | ON | CONFLICT | DO | NOTHING | SET | EXCLUDED | RETURNING
  | DELETE | UNION | ALL | INTERSECT | EXCEPT | AS | AND | OR | NOT | IS | NULL | BETWEEN
  | LIKE | ILIKE | IN | ANY | CASE | WHEN | THEN | ELSE | END | CAST | FILTER | OVER | PARTITION
  | COUNT | SUM | AVG | MIN | MAX
  | UPPER | LOWER | TRIM | LENGTH | ABS | CEIL | FLOOR | ROUND | SQRT | POWER
  | ROW_NUMBER | RANK | DENSE_RANK
  | TEXT | SMALLINT | INTEGER | BIGINT | NUMERIC | REAL | DOUBLE | PRECISION | BOOLEAN
  | DATE | TIMESTAMP | TIMESTAMPTZ | UUID | JSONB
  deriving DecidableEq

/-- The spelling of a word. -/
def Keyword.text : Keyword → String
  | .SELECT => "SELECT" | .DISTINCT => "DISTINCT" | .FROM => "FROM" | .WHERE => "WHERE"
  | .GROUP => "GROUP" | .BY => "BY" | .HAVING => "HAVING" | .ORDER => "ORDER"
  | .ASC => "ASC" | .DESC => "DESC" | .NULLS => "NULLS" | .FIRST => "FIRST" | .LAST => "LAST"
  | .LIMIT => "LIMIT" | .OFFSET => "OFFSET" | .FOR => "FOR" | .UPDATE => "UPDATE" | .NO => "NO"
  | .KEY => "KEY" | .SHARE => "SHARE" | .INSERT => "INSERT" | .INTO => "INTO"
  | .VALUES => "VALUES" | .ON => "ON" | .CONFLICT => "CONFLICT" | .DO => "DO"
  | .NOTHING => "NOTHING" | .SET => "SET" | .EXCLUDED => "EXCLUDED" | .RETURNING => "RETURNING"
  | .DELETE => "DELETE" | .UNION => "UNION" | .ALL => "ALL" | .INTERSECT => "INTERSECT"
  | .EXCEPT => "EXCEPT" | .AS => "AS" | .AND => "AND" | .OR => "OR" | .NOT => "NOT"
  | .IS => "IS" | .NULL => "NULL" | .BETWEEN => "BETWEEN" | .LIKE => "LIKE" | .ILIKE => "ILIKE"
  | .IN => "IN" | .ANY => "ANY" | .CASE => "CASE" | .WHEN => "WHEN" | .THEN => "THEN"
  | .ELSE => "ELSE" | .END => "END" | .CAST => "CAST" | .FILTER => "FILTER" | .OVER => "OVER"
  | .PARTITION => "PARTITION" | .COUNT => "COUNT" | .SUM => "SUM" | .AVG => "AVG"
  | .MIN => "MIN" | .MAX => "MAX" | .UPPER => "UPPER" | .LOWER => "LOWER" | .TRIM => "TRIM"
  | .LENGTH => "LENGTH" | .ABS => "ABS" | .CEIL => "CEIL" | .FLOOR => "FLOOR"
  | .ROUND => "ROUND" | .SQRT => "SQRT" | .POWER => "POWER" | .ROW_NUMBER => "ROW_NUMBER"
  | .RANK => "RANK" | .DENSE_RANK => "DENSE_RANK" | .TEXT => "TEXT" | .SMALLINT => "SMALLINT"
  | .INTEGER => "INTEGER" | .BIGINT => "BIGINT" | .NUMERIC => "NUMERIC" | .REAL => "REAL"
  | .DOUBLE => "DOUBLE" | .PRECISION => "PRECISION" | .BOOLEAN => "BOOLEAN" | .DATE => "DATE"
  | .TIMESTAMP => "TIMESTAMP" | .TIMESTAMPTZ => "TIMESTAMPTZ" | .UUID => "UUID"
  | .JSONB => "JSONB"

/-- Punctuation and the operators written with signs. -/
inductive Symbol
  | openParen | closeParen | comma | dot | star
  | eq | ne | otherThan | gt | ge | lt | le
  | tilde | tildeStar | bangTilde | bangTildeStar
  | atGreater | lessAt | ampAmp
  | lessMinusGreater | lessHashGreater | lessEqualGreater | lessPlusGreater
  | plus | minus | slash | percent
  deriving DecidableEq

/-- The spelling of a sign. -/
def Symbol.text : Symbol → String
  | .openParen => "(" | .closeParen => ")" | .comma => "," | .dot => "." | .star => "*"
  | .eq => "=" | .ne => "!=" | .otherThan => "<>" | .gt => ">" | .ge => ">=" | .lt => "<"
  | .le => "<=" | .tilde => "~" | .tildeStar => "~*" | .bangTilde => "!~"
  | .bangTildeStar => "!~*" | .atGreater => "@>" | .lessAt => "<@" | .ampAmp => "&&"
  | .lessMinusGreater => "<->" | .lessHashGreater => "<#>" | .lessEqualGreater => "<=>"
  | .lessPlusGreater => "<+>" | .plus => "+" | .minus => "-" | .slash => "/" | .percent => "%"

/-- A token whose parameters are named in `π`: by their names before they are numbered, by their
numbers after. -/
inductive Token (π : Type)
  | keyword (k : Keyword)
  /-- The name of a function together with the parenthesis that opens its arguments. -/
  | call (k : Keyword)
  | symbol (s : Symbol)
  /-- A quoted identifier of any name. -/
  | identifier (name : String)
  | param (p : π)
  /-- An unsigned decimal literal. -/
  | number (n : Nat)
  deriving DecidableEq

namespace Token

variable {π ρ : Type}

/-- The same token with its parameter renamed. -/
def map (f : π → ρ) : Token π → Token ρ
  | keyword k => keyword k
  | call k => call k
  | symbol s => symbol s
  | identifier name => identifier name
  | param p => param (f p)
  | number n => number n

/-- The parameter of a token that has one. -/
def param? : Token π → Option π
  | param p => some p
  | _ => none

/-- The spelling of a token, given that of parameters. -/
def text (spell : π → String) : Token π → String
  | keyword k => k.text
  | call k => k.text ++ "("
  | symbol s => s.text
  | identifier name => Ident.quote name
  | param p => spell p
  | number n => toString n

/-- No blank follows an opening parenthesis or a dot. -/
def tightAfter : Token π → Bool
  | call _ | symbol .openParen | symbol .dot => true
  | _ => false

/-- No blank precedes a closing parenthesis, a comma or a dot. -/
def tightBefore : Token π → Bool
  | symbol .closeParen | symbol .comma | symbol .dot => true
  | _ => false

/-- What stands between two neighbouring tokens. -/
def gap (t u : Token π) : String :=
  if t.tightAfter || u.tightBefore then "" else " "

/-- What stands between a token and those that follow it. -/
def gapBefore (t : Token π) : List (Token π) → String
  | [] => ""
  | u :: _ => t.gap u

end Token

/-- The parameters of a sequence of tokens, in order, each as often as it occurs. -/
def paramsOf {π : Type} (ts : List (Token π)) : List π :=
  ts.filterMap Token.param?

/-- The text of a sequence of tokens. -/
def textOf {π : Type} (spell : π → String) : List (Token π) → String
  | [] => ""
  | t :: ts => t.text spell ++ (t.gapBefore ts ++ textOf spell ts)

/-- Sequences of tokens with commas between them. -/
def commaSeparated {π : Type} (tss : List (List (Token π))) : List (Token π) :=
  [.symbol .comma].intercalate tss

/-- A sequence of tokens between parentheses. -/
def parenthesized {π : Type} (ts : List (Token π)) : List (Token π) :=
  .symbol .openParen :: ts ++ [.symbol .closeParen]

/-- Words alone. -/
def keywords {π : Type} (ks : List Keyword) : List (Token π) :=
  ks.map .keyword

end CheckedSql.Sql
