/-
The parameters of statements: how those of the same name are told apart, and named values for them,
an ordered table with one value a name. Names keep the order in which they were first given, and
giving one again replaces its value in place. `get?_set` says what setting does to look-ups,
`names_set` what it does to the order.
-/
import CheckedSql.Error

namespace CheckedSql

/-! ## Names

Parameters of the same name are told apart in the operands of a compound statement by what their
names begin with, in the rows of a multi-row INSERT by what they end in. -/

namespace ParamName

/-- What the names of an operand's parameters begin with. -/
def operandQualifier (index : Nat) : String :=
  "q" ++ toString index ++ "_"

/-- The name of a parameter of an operand. -/
def inOperand (index : Nat) (name : String) : String :=
  operandQualifier index ++ name

/-- The name of a column's parameter in one row of several. -/
def inRow (index : Nat) (name : String) : String :=
  name ++ "_" ++ toString index

end ParamName

/-! ## Values -/

/-- Values by name, in order. -/
structure Params (β : Type) where
  entries : List (String × β)
  names_nodup : (entries.map (·.1)).Nodup

namespace Params

variable {β : Type}

/-- The names that have a value, in order. -/
def names (ps : Params β) : List String :=
  ps.entries.map (·.1)

/-- The value of a name. -/
def get? (ps : Params β) (name : String) : Option β :=
  (ps.entries.find? (·.1 == name)).map (·.2)

/-- Whether a name has a value. -/
def contains (ps : Params β) (name : String) : Bool :=
  (ps.get? name).isSome

/-- How many names have a value. -/
def size (ps : Params β) : Nat :=
  ps.entries.length

/-! ## Setting a value -/

/-- The entries with the value of a name set: in its place, or at the end. -/
def setEntry (name : String) (value : β) : List (String × β) → List (String × β)
  | [] => [(name, value)]
  | e :: es => if e.1 = name then (name, value) :: es else e :: setEntry name value es

theorem names_setEntry (name : String) (value : β) (es : List (String × β)) :
    (setEntry name value es).map (·.1) =
      if name ∈ es.map (·.1) then es.map (·.1) else es.map (·.1) ++ [name] := by
  induction es with
  | nil => simp [setEntry]
  | cons e es ih =>
    by_cases h : e.1 = name
    · simp [setEntry, h]
    · have h' : ¬name = e.1 := fun he => h he.symm
      by_cases hm : name ∈ es.map (·.1)
      · rw [if_pos hm] at ih
        rw [setEntry, if_neg h, List.map_cons, List.map_cons, ih,
          if_pos (List.mem_cons_of_mem _ hm)]
      · rw [if_neg hm] at ih
        rw [setEntry, if_neg h, List.map_cons, List.map_cons, ih,
          if_neg (fun hc => (List.mem_cons.1 hc).elim h' hm)]
        rfl

theorem nodup_setEntry (name : String) (value : β) {es : List (String × β)}
    (h : (es.map (·.1)).Nodup) : ((setEntry name value es).map (·.1)).Nodup := by
  rw [names_setEntry]
  split
  · exact h
  · rename_i hm
    refine List.nodup_append.2 ⟨h, by simp, ?_⟩
    intro a ha b hb he
    rw [List.mem_singleton.1 hb] at he
    exact hm (he ▸ ha)

theorem find?_setEntry (name : String) (value : β) (es : List (String × β)) (n : String) :
    ((setEntry name value es).find? (·.1 == n)).map (·.2) =
      if n = name then some value else (es.find? (·.1 == n)).map (·.2) := by
  induction es with
  | nil =>
    by_cases h : n = name
    · simp [setEntry, h]
    · have h' : ¬name = n := fun hn => h hn.symm
      simp [setEntry, h, h']
  | cons e es ih =>
    by_cases he : e.1 = name
    · by_cases h : n = name
      · simp [setEntry, he, h]
      · have h' : ¬name = n := fun hn => h hn.symm
        rw [setEntry, if_pos he]
        simp [he, h, h']
    · by_cases hn : e.1 = n
      · have hne : ¬n = name := fun h => he (hn.trans h)
        simp [setEntry, hn, hne]
      · rw [setEntry, if_neg he]
        simpa [hn] using ih

/-- No values. -/
def empty : Params β :=
  ⟨[], List.nodup_nil⟩

/-- Sets the value of a name. -/
def set (ps : Params β) (name : String) (value : β) : Params β :=
  ⟨setEntry name value ps.entries, nodup_setEntry name value ps.names_nodup⟩

@[simp] theorem get?_empty (n : String) : (empty : Params β).get? n = none := rfl

@[simp] theorem get?_set (ps : Params β) (name : String) (value : β) (n : String) :
    (ps.set name value).get? n = if n = name then some value else ps.get? n :=
  find?_setEntry name value ps.entries n

@[simp] theorem names_set (ps : Params β) (name : String) (value : β) :
    (ps.set name value).names =
      if name ∈ ps.names then ps.names else ps.names ++ [name] :=
  names_setEntry name value ps.entries

/-! ## Many values -/

/-- Values set one after another. -/
def setAll (ps : Params β) (entries : List (String × β)) : Params β :=
  entries.foldl (fun ps e => ps.set e.1 e.2) ps

/-- The values of a list of entries; of two with one name the last counts. -/
def ofList (entries : List (String × β)) : Params β :=
  empty.setAll entries

/-- The values of both; where both have one, that of the second. -/
def merge (ps qs : Params β) : Params β :=
  ps.setAll qs.entries

/-- The values under other names. -/
def rename (ps : Params β) (f : String → String) : Params β :=
  ofList (ps.entries.map fun e => (f e.1, e.2))

/-- The values as an operand of a compound names its parameters. -/
def forOperand (ps : Params β) (index : Nat) : Params β :=
  ps.rename (ParamName.inOperand index)

/-- The values as one row of several names its parameters. -/
def forRow (ps : Params β) (index : Nat) : Params β :=
  ps.rename (ParamName.inRow index)

/-- The values of rows together with those of `acc`, the first row being row `index`. -/
def ofRows (index : Nat) (acc : Params β) : List (Params β) → Params β
  | [] => acc
  | row :: rows => ofRows (index + 1) (acc.merge (row.forRow index)) rows

/-! ## Binding -/

/-- The values of a list of names, in order; the first name without a value is the error. -/
def bind (ps : Params β) : List String → Except QueryError (List β)
  | [] => .ok []
  | n :: ns =>
    match ps.get? n with
    | none => .error (.missingParam n)
    | some v => (ps.bind ns).map (v :: ·)

end Params

end CheckedSql
