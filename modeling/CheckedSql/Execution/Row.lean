/-
Rows of an answer, and reading a record's fields from them by column name. How a row gives the value
of a column is up to the client; an error of that is one of decoding the column. `get` is what
a client does that looks the column up by its name.
-/
import CheckedSql.Error
import CheckedSql.Text.Basic

namespace CheckedSql

/-- A double-precision number, by its IEEE 754 bits. -/
structure Double where
  bits : UInt64
  deriving DecidableEq

/-- Positive zero. -/
def Double.zero : Double := ⟨0⟩

/-- A value of a column, of one of the types that answers have; NULL has the type of its column. -/
inductive Cell
  | int8 (v : Option Int)
  | int4 (v : Option Int)
  | text (v : Option String)
  | bool (v : Option Bool)
  | float8 (v : Option Double)
  deriving DecidableEq

/-- A row: its columns in order, with names that need not differ. -/
abbrev Row := List (String × Cell)

namespace Row

/-- The position and the value of the first column whose name passes a test, counted from `i`. -/
def findFrom (p : String → Bool) (i : Nat) : Row → Option (Nat × Cell)
  | [] => none
  | (name, cell) :: rest => if p name then some (i, cell) else findFrom p (i + 1) rest

/-- The position and the value of a column: the first of exactly that name, else the first whose
name differs from it in the case of ASCII letters only. -/
def find? (r : Row) (name : String) : Option (Nat × Cell) :=
  findFrom (· == name) 0 r <|> findFrom (Text.sameButCase · name) 0 r

/-! ## Reading a column -/

/-- The value of a column, by the function that gets it from the row or says why it cannot. What
that says is an error of decoding the column. -/
def column {α : Type} (get : Row → String → Except String α) (r : Row) (name : String) :
    Except QueryError α :=
  (get r name).mapError (.decode name)

/-- Gets a column as what `accept` takes it for. -/
def get {α : Type} (accept : Cell → Option α) (r : Row) (name : String) : Except String α :=
  match r.find? name with
  | none => .error ("invalid column `" ++ name ++ "`")
  | some (i, cell) =>
    match accept cell with
    | some a => .ok a
    | none => .error ("error deserializing column " ++ toString i)

/-- Gets a double-precision number or NULL. -/
def getFloat8? : Row → String → Except String (Option Double) :=
  get fun
    | .float8 v => some v
    | _ => none

/-- A 64-bit integer. -/
def int8 (r : Row) (name : String) : Except QueryError Int :=
  r.column (get fun
    | .int8 v => v
    | _ => none) name

/-- A 32-bit integer or NULL. -/
def int4? (r : Row) (name : String) : Except QueryError (Option Int) :=
  r.column (get fun
    | .int4 v => some v
    | _ => none) name

/-- A text. -/
def text (r : Row) (name : String) : Except QueryError String :=
  r.column (get fun
    | .text v => v
    | _ => none) name

end Row

end CheckedSql
