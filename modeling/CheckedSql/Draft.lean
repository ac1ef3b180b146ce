/-
Statements under construction: the text so far, and the parameter names that have a number. A name
is numbered when it is first used and keeps its number. While a qualifier is set, a name is read
as the qualifier followed by the name.
-/
import CheckedSql.Sql.Token

namespace CheckedSql

/-- A statement as it is sent: its text, and the names of its parameters in the order of their
numbers. -/
structure Rendered where
  sql : String
  params : List String
  deriving DecidableEq

/-- The placeholder of a number. -/
def placeholder (number : Nat) : String :=
  "$" ++ toString number

/-- A statement under construction. -/
structure Draft where
  text : String := ""
  names : List String := []
  qualifier : Option String := none
  deriving DecidableEq

namespace Draft

/-- A name as it is read under the qualifier in force. -/
def effective (d : Draft) (name : String) : String :=
  (d.qualifier.getD "") ++ name

/-- The number of a name, counted from one, and the draft that has it numbered. -/
def number (d : Draft) (name : String) : Nat × Draft :=
  let key := d.effective name
  if key ∈ d.names then (d.names.idxOf key + 1, d)
  else (d.names.length + 1, { d with names := d.names ++ [key] })

/-- The placeholder of a name. Nothing is written. -/
def param (d : Draft) (name : String) : String × Draft :=
  let (n, d) := d.number name
  (placeholder n, d)

/-- Writes a text. -/
def write (d : Draft) (s : String) : Draft :=
  { d with text := d.text ++ s }

/-- Writes the placeholder of a name. -/
def writeParam (d : Draft) (name : String) : Draft :=
  let (p, d) := d.param name
  d.write p

/-- Sets or clears the qualifier; the previous one comes back. -/
def setQualifier (d : Draft) (qualifier : Option String) : Option String × Draft :=
  (d.qualifier, { d with qualifier })

/-- Writes tokens, each parameter as its placeholder. -/
def writeTokens (d : Draft) : List (Sql.Token String) → Draft
  | [] => d
  | t :: ts =>
    let d :=
      match t with
      | .param name => d.writeParam name
      | t => d.write (t.text id)
    (d.write (t.gapBefore ts)).writeTokens ts

/-- The finished statement. -/
def finish (d : Draft) : Rendered :=
  ⟨d.text, d.names⟩

end Draft

/-- Tokens as a finished statement. -/
def Rendered.ofTokens (ts : List (Sql.Token String)) : Rendered :=
  (({} : Draft).writeTokens ts).finish

end CheckedSql
