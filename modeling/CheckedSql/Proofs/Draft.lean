/-
What a draft comes to after any calls. A name is read under the qualifier that was set last; names
so read are numbered in the order of their first use, whatever lies between, and the text is what
was written, call by call. Setting a qualifier answers the one it replaces, so that what was set
between saving and restoring a qualifier leaves no trace in it.
-/
import CheckedSql.Proofs.Numbering
import Mathlib.Data.List.Induction

namespace CheckedSql.Draft

/-! ## Calls -/

/-- A call on a draft. -/
inductive Call
  | param (name : String)
  | writeParam (name : String)
  | write (text : String)
  | setQualifier (qualifier : Option String)

/-- What a call answers. -/
inductive Answer
  | nothing
  | placeholder (text : String)
  | qualifier (previous : Option String)
  deriving DecidableEq

/-- The answer of a call and the draft after it. -/
def Call.apply (d : Draft) : Call → Answer × Draft
  | param name => (.placeholder (d.param name).1, (d.param name).2)
  | writeParam name => (.nothing, d.writeParam name)
  | write text => (.nothing, d.write text)
  | setQualifier q => (.qualifier (d.setQualifier q).1, (d.setQualifier q).2)

/-- The answers of calls one after another, and the draft after them. -/
def run (d : Draft) : List Call → List Answer × Draft
  | [] => ([], d)
  | c :: cs =>
    let (a, d) := c.apply d
    let (as, d) := run d cs
    (a :: as, d)

theorem run_concat (d : Draft) (cs : List Call) (c : Call) :
    d.run (cs ++ [c]) =
      ((d.run cs).1 ++ [(c.apply (d.run cs).2).1], (c.apply (d.run cs).2).2) := by
  induction cs generalizing d with
  | nil => rfl
  | cons b cs ih => simp only [List.cons_append, run, ih]

/-! ## The qualifier in force -/

/-- The qualifier that a call sets. -/
def Call.sets? : Call → Option (Option String)
  | setQualifier q => some q
  | _ => none

/-- The qualifier that was set last, if there is one. -/
def inForce (calls : List Call) : Option String :=
  (calls.filterMap Call.sets?).getLast?.join

theorem inForce_concat (calls : List Call) (c : Call) :
    inForce (calls ++ [c]) = c.sets?.getD (inForce calls) := by
  cases c <;> simp [inForce, Call.sets?]

/-- Each call with the qualifier in force when it is made. -/
def inContext (calls : List Call) : List (Option String × Call) :=
  calls.mapIdx fun i c => (inForce (calls.take i), c)

theorem inContext_concat (calls : List Call) (c : Call) :
    inContext (calls ++ [c]) = inContext calls ++ [(inForce calls, c)] := by
  have hbefore : (calls.mapIdx fun i c' => (inForce ((calls ++ [c]).take i), c')) =
      inContext calls := by
    refine List.mapIdx_eq_mapIdx_iff.2 fun i hi => ?_
    rw [List.take_append_of_le_length (Nat.le_of_lt hi)]
  rw [inContext, List.mapIdx_concat, hbefore, List.take_left]

/-! ## Names, text and answers -/

/-- A name as it is read under a qualifier. -/
def qualified (qualifier : Option String) (name : String) : String :=
  qualifier.getD "" ++ name

/-- The name that a call uses, as it is read. -/
def key? : Option String × Call → Option String
  | (q, .param name) | (q, .writeParam name) => some (qualified q name)
  | _ => none

/-- The names that calls use, as they are read, one for each use. -/
def keys (calls : List Call) : List String :=
  (inContext calls).filterMap key?

/-- What a call writes, where the names have the numbers of their places in `names`. -/
def written (names : List String) : Option String × Call → String
  | (q, .writeParam name) => placeholder (rank names (qualified q name))
  | (_, .write text) => text
  | _ => ""

/-- What a call answers, where the names have the numbers of their places in `names`. -/
def answer (names : List String) : Option String × Call → Answer
  | (q, .param name) => .placeholder (placeholder (rank names (qualified q name)))
  | (q, .setQualifier _) => .qualifier q
  | _ => .nothing

theorem keys_concat (calls : List Call) (c : Call) :
    keys (calls ++ [c]) = keys calls ++ (key? (inForce calls, c)).toList := by
  rw [keys, inContext_concat, List.filterMap_append]
  cases h : key? (inForce calls, c) <;> simp [keys, h]

section

variable {names more : List String} (h : names <+: more) {c : Option String × Call}
  (hc : ∀ key, key? c = some key → key ∈ names)

include h hc

/-- Names added behind those that a call uses do not change what it writes. -/
theorem written_extend : written more c = written names c := by
  obtain ⟨q, _ | name | text | _⟩ := c
  · rfl
  · exact congrArg placeholder <| rank_of_prefix h (hc _ rfl)
  · rfl
  · rfl

theorem answer_extend : answer more c = answer names c := by
  obtain ⟨q, name | _ | _ | _⟩ := c
  · exact congrArg (fun n => Answer.placeholder (placeholder n)) <| rank_of_prefix h (hc _ rfl)
  · rfl
  · rfl
  · rfl

end

/-! ## A run -/

/-- The text of calls, with the names numbered by their places in `names`. -/
def textOf (names : List String) (calls : List Call) : String :=
  String.join ((inContext calls).map (written names))

theorem param_eq (d : Draft) (name : String) :
    d.param name =
      (placeholder (rank (intern d.names (d.effective name)) (d.effective name)),
        { d with names := intern d.names (d.effective name) }) := by
  rw [param, number_eq]

/-- One more call, on the draft that the calls before it have come to. -/
theorem apply_eq (calls : List Call) (c : Call) :
    let names := (keys calls).eraseDups
    let more := (keys (calls ++ [c])).eraseDups
    c.apply ⟨textOf names calls, names, inForce calls⟩ =
      (answer more (inForce calls, c),
        ⟨textOf names calls ++ written more (inForce calls, c), more, inForce (calls ++ [c])⟩) := by
  intro names more
  -- only a call with a key can add a name, and only if the name is new
  have hmore (key : String) (hkey : key? (inForce calls, c) = some key) :
      more = intern names key := by
    have hfold := foldl_intern_eraseDups [key] (keys calls)
    rw [List.foldl_cons, List.foldl_nil] at hfold
    rw [hfold]
    show (keys (calls ++ [c])).eraseDups = _
    rw [keys_concat, hkey, Option.toList_some]
  have hsame (hkey : key? (inForce calls, c) = none) : more = names := by
    show (keys (calls ++ [c])).eraseDups = _
    rw [keys_concat, hkey, Option.toList_none, List.append_nil]
  rw [inForce_concat]
  cases c with
  | param name =>
    rw [hmore _ rfl, Call.apply, param_eq]
    exact Prod.ext rfl (congrArg (Draft.mk · _ _) String.append_empty.symm)
  | writeParam name =>
    rw [hmore _ rfl, Call.apply, writeParam_eq]
    rfl
  | write text =>
    rw [hsame rfl]
    rfl
  | setQualifier q =>
    rw [hsame rfl]
    exact Prod.ext rfl (congrArg (Draft.mk · _ _) String.append_empty.symm)

theorem mem_keys {calls : List Call} {c : Option String × Call} (hc : c ∈ inContext calls)
    {key : String} (hkey : key? c = some key) : key ∈ (keys calls).eraseDups :=
  List.mem_eraseDups.2 (List.mem_filterMap.2 ⟨c, hc, hkey⟩)

/-- The names of more calls are added behind those of the calls before. -/
theorem prefix_eraseDups_keys (calls : List Call) (c : Call) :
    (keys calls).eraseDups <+: (keys (calls ++ [c])).eraseDups := by
  rw [keys_concat, ← foldl_intern_eraseDups]
  exact prefix_foldl_intern _ _

/-- The answers of calls on a fresh draft, and the draft after them. -/
theorem run_eq (calls : List Call) :
    let names := (keys calls).eraseDups
    ({} : Draft).run calls =
      ((inContext calls).map (answer names), ⟨textOf names calls, names, inForce calls⟩) := by
  induction calls using List.reverseRecOn with
  | nil => rfl
  | append_singleton calls c ih =>
    intro more
    -- the last call only adds names at the end, so what was answered and written before it
    -- reads the same with the names after it
    have hprefix := prefix_eraseDups_keys calls c
    have hanswers : (inContext calls).map (answer (keys calls).eraseDups) =
        (inContext calls).map (answer more) :=
      List.map_congr_left fun b hb =>
        (answer_extend hprefix fun _ hkey => mem_keys hb hkey).symm
    have htext : textOf (keys calls).eraseDups calls = textOf more calls :=
      congrArg String.join (List.map_congr_left fun b hb =>
        (written_extend hprefix fun _ hkey => mem_keys hb hkey).symm)
    have hlast : textOf more (calls ++ [c]) =
        textOf more calls ++ written more (inForce calls, c) := by
      rw [textOf, inContext_concat, List.map_append, String.join_append]
      simp [textOf]
    rw [run_concat, ih]
    simp only [apply_eq]
    rw [hanswers, htext, hlast, inContext_concat, List.map_append]
    rfl

theorem qualifier_run (calls : List Call) :
    (({} : Draft).run calls).2.qualifier = inForce calls :=
  congrArg (·.2.qualifier) (run_eq calls)

/-- After any calls on a fresh draft: the parameters are the names used, each read under the
qualifier in force and listed once, in the order of their first use; the text is what was written,
call by call, with every name as the placeholder of its place in that list; every call that asks for
a placeholder is answered with this one, and every call that sets a qualifier with the one set
before. So whatever is called between saving a qualifier and restoring it, the one in force
afterwards is the one that was in force before. -/
theorem numbered_by_first_use (calls : List Call) :
    let names := (keys calls).eraseDups
    let answers := (({} : Draft).run calls).1
    let o := (({} : Draft).run calls).2.finish
    (names.Nodup ∧ ∀ key ∈ keys calls, names[rank names key - 1]? = some key) ∧
      o.params = names ∧
      o.sql = String.join ((inContext calls).map (written names)) ∧
      (∀ i c, calls[i]? = some c → answers[i]? = some (answer names (inForce (calls.take i), c))) ∧
      ∀ (q saved : Option String) (inner : List Call),
        (({} : Draft).run (calls ++ [.setQualifier q])).1.getLast? = some (.qualifier saved) →
          (({} : Draft).run (calls ++ [.setQualifier q] ++ inner ++
            [.setQualifier saved])).2.qualifier = (({} : Draft).run calls).2.qualifier := by
  intro names answers o
  have hrun := run_eq calls
  refine ⟨⟨nodup_eraseDups _, fun key hkey => getElem?_rank (List.mem_eraseDups.2 hkey)⟩, ?_, ?_,
    fun i c hc => ?_, fun q saved inner hsaved => ?_⟩
  · exact congrArg (·.2.names) hrun
  · exact congrArg (·.2.text) hrun
  · have hanswers : answers = (inContext calls).map (answer names) := congrArg Prod.fst hrun
    rw [hanswers, List.getElem?_map, inContext, List.getElem?_mapIdx, hc]
    rfl
  -- what `setQualifier` answered is the qualifier before it, which the last call puts back
  · rw [run_concat, List.getLast?_append, List.getLast?_singleton] at hsaved
    injection hsaved with hsaved
    injection hsaved with hsaved
    rw [qualifier_run, inForce_concat, ← hsaved]
    rfl

/-- The same name without a qualifier, under two, and as a name that begins like a qualifier. -/
theorem numbered_by_first_use_qualified :
    let saving : List Call :=
      [.param "id", .setQualifier (some "q0_"), .writeParam "id", .write " AND ", .writeParam "age"]
    let calls := saving ++ [.setQualifier none, .writeParam "q0_id", .param "id"]
    let run := ({} : Draft).run calls
    run.2.finish = ⟨"$2 AND $3$2", ["id", "q0_id", "q0_age"]⟩ ∧
      run.1[0]? = some (.placeholder "$1") ∧ run.1[5]? = some (.qualifier (some "q0_")) ∧
      run.1[7]? = some (.placeholder "$1") ∧
      (({} : Draft).run (saving ++ [.setQualifier (some "q1_")] ++ [.setQualifier none] ++
        [.setQualifier (some "q0_")])).2.qualifier = some "q0_" := by
  intro saving calls run
  obtain ⟨-, hparams, hsql, hanswers, -⟩ := numbered_by_first_use calls
  obtain ⟨-, -, -, -, hrestored⟩ := numbered_by_first_use saving
  have hnames : (keys calls).eraseDups = ["id", "q0_id", "q0_age"] := by decide
  rw [hnames] at hparams hsql hanswers
  exact ⟨congrArg₂ Rendered.mk (hsql.trans (by decide)) hparams,
    (hanswers 0 _ rfl).trans (by decide), hanswers 5 _ rfl, (hanswers 7 _ rfl).trans (by decide),
    hrestored _ _ _ rfl⟩

end CheckedSql.Draft
