/-
SQL identifiers: which names are plain, and how any name is quoted.
-/

namespace CheckedSql.Ident

/-- An ASCII letter or an underscore. -/
def isStart (c : Char) : Bool :=
  c.isAlpha || c == '_'

/-- An ASCII letter, an ASCII digit or an underscore. -/
def isPart (c : Char) : Bool :=
  c.isAlphanum || c == '_'

/-- A plain identifier: a letter or underscore, then letters, digits and underscores. -/
def isPlain (name : String) : Bool :=
  match name.toList with
  | [] => false
  | c :: cs => isStart c && cs.all isPart

/-- The characters of a quoted name between its outer quotes: a quote is written twice. -/
def escape (name : List Char) : List Char :=
  name.flatMap fun c => if c = '"' then ['"', '"'] else [c]

/-- A name as a quoted identifier, by characters. -/
def quoteChars (name : List Char) : List Char :=
  '"' :: escape name ++ ['"']

/-- A name as a quoted identifier. -/
def quote (name : String) : String :=
  String.ofList (quoteChars name.toList)

end CheckedSql.Ident
