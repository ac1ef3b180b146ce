/-
The values for a compound statement, put together from those of its operands. Each operand's values
are kept under the names of its position, so neither the order in which they are put together nor
what they are called decides which operand gets them: binding the names of the whole comes to
binding each operand's own names to its own values.
-/
import CheckedSql.Proofs.Params
import CheckedSql.Proofs.Statement.Operands

namespace CheckedSql

open ParamName (inOperand inOperand_injective inOperand_inj)

variable {β : Type}

/-! ## Putting values together -/

/-- A way of putting together the values of operands, each under the names of its operand. -/
inductive Merging
  | operand (index : Nat)
  | both (first second : Merging)

namespace Merging

/-- The operands whose values are put together. -/
def operands : Merging → List Nat
  | .operand index => [index]
  | .both first second => first.operands ++ second.operands

/-- The values put together; of two values for one name the later one counts. -/
def values (sets : List (Params β)) : Merging → Params β
  | .operand index => (sets.getD index .empty).forOperand index
  | .both first second => (first.values sets).merge (second.values sets)

/-- Under the name that an operand gives to a name stands that operand's value of it, if its values
are among those put together, and nothing else. -/
theorem get?_values_eq_some (m : Merging) (sets : List (Params β)) (index : Nat) (name : String)
    (v : β) :
    (m.values sets).get? (inOperand index name) = some v ↔
      index ∈ m.operands ∧ ∃ set, sets[index]? = some set ∧ set.get? name = some v := by
  -- on the merging: names of different operands differ, so one set never hides the values of
  -- another
  induction m generalizing v with
  | operand i =>
    rw [values, Params.forOperand, Params.get?_rename_eq_some _ (inOperand_injective i), operands,
      List.mem_singleton, List.getD_eq_getElem?_getD]
    constructor
    · rintro ⟨n, hn, hv⟩
      obtain ⟨rfl, rfl⟩ := inOperand_inj.1 hn
      cases hset : sets[index]? with
      | none =>
        rw [hset] at hv
        cases hv
      | some set =>
        rw [hset] at hv
        exact ⟨rfl, set, rfl, hv⟩
    · rintro ⟨rfl, set, hset, hv⟩
      refine ⟨name, rfl, ?_⟩
      rw [hset]
      exact hv
  | both first second ihf ihs =>
    rw [values, Params.get?_merge, Option.or_eq_some_iff, ihf, ihs, operands, List.mem_append]
    constructor
    · rintro (⟨hmem, hset⟩ | ⟨-, hmem, hset⟩)
      · exact ⟨.inr hmem, hset⟩
      · exact ⟨.inl hmem, hset⟩
    -- where both have the set it is the same, so it does not matter which is looked up first
    · rintro ⟨hmem, hset⟩
      by_cases hs : index ∈ second.operands
      · exact .inl ⟨hs, hset⟩
      · refine .inr ⟨Option.eq_none_iff_forall_ne_some.2 fun w hw => ?_, hmem.resolve_right hs, hset⟩
        exact hs ((ihs w).1 hw).1

theorem get?_values {m : Merging} {index : Nat} (h : index ∈ m.operands) (sets : List (Params β))
    (name : String) :
    (m.values sets).get? (inOperand index name) = sets[index]?.bind (·.get? name) := by
  refine Option.ext fun v => ?_
  rw [get?_values_eq_some, Option.bind_eq_some_iff]
  exact and_iff_right h

end Merging

/-! ## Binding operand by operand -/

/-- Lists put together are values if and only if each of them is. -/
theorem flatten_eq_map_some {L : List (List (Option β))} {values : List β} :
    L.flatten = values.map some ↔
      ∃ parts : List (List β), L = parts.map (List.map some) ∧ values = parts.flatten := by
  constructor
  · intro h
    induction L generalizing values with
    | nil =>
      rw [List.flatten_nil, eq_comm, List.map_eq_nil_iff] at h
      exact ⟨[], rfl, h⟩
    | cons l L ih =>
      rw [List.flatten_cons, eq_comm, List.map_eq_append_iff] at h
      obtain ⟨part, rest, rfl, rfl, hrest⟩ := h
      obtain ⟨parts, rfl, rfl⟩ := ih hrest.symm
      exact ⟨part :: parts, rfl, rfl⟩
  · rintro ⟨parts, rfl, rfl⟩
    rw [List.map_flatten]

section

variable {ps : Params β} {pairs : List (Rendered × Params β)}

/-- The values of the names of all operands are those of each operand's own names. -/
theorem bind_operandNames_ok
    (h : ∀ i (hi : i < pairs.length) n, ps.get? (inOperand i n) = pairs[i].2.get? n)
    (values : List β) :
    ps.bind (operandNames (pairs.map (·.1))) = .ok values ↔
      ∃ parts, List.Forall₂ (fun x part => x.2.bind x.1.params = .ok part) pairs parts ∧
        values = parts.flatten := by
  have hget : (operandNames (pairs.map (·.1))).map ps.get? =
      (pairs.map fun x => x.1.params.map x.2.get?).flatten := by
    rw [operandNames, List.map_flatten]
    refine congrArg List.flatten (List.ext_getElem (by simp) fun i hi hj => ?_)
    simp only [List.getElem_map, List.getElem_mapIdx, List.map_map]
    exact List.map_congr_left fun n _ => h i (by simpa using hi) n
  rw [Params.bind_eq_ok_iff, hget, flatten_eq_map_some]
  refine exists_congr fun parts => and_congr_left fun _ => ?_
  rw [← List.forall₂_eq_eq_eq, List.forall₂_map_left_iff, List.forall₂_map_right_iff]
  simp only [Params.bind_eq_ok_iff]

/-- The first name without a value is that of the first operand whose own values lack one. -/
theorem lacking_operandNames
    (h : ∀ i (hi : i < pairs.length) n, ps.get? (inOperand i n) = pairs[i].2.get? n)
    (name : String) :
    ps.lacking (operandNames (pairs.map (·.1))) = some name ↔
      ∃ before x after n, pairs = before ++ x :: after ∧
        (∀ y ∈ before, y.2.lacking y.1.params = none) ∧ x.2.lacking x.1.params = some n ∧
        name = inOperand before.length n := by
  -- the first lacking name is looked for operand by operand
  have hfind : ps.lacking (operandNames (pairs.map (·.1))) =
      (pairs.mapIdx fun i x => (x.2.lacking x.1.params).map (inOperand i)).findSome? id := by
    rw [Params.lacking, operandNames, List.find?_flatten]
    have hlacking : ((pairs.map (·.1)).mapIdx fun i o => o.params.map (inOperand i)).map
          (List.find? (!ps.contains ·)) =
        pairs.mapIdx fun i x => (x.2.lacking x.1.params).map (inOperand i) := by
      refine List.ext_getElem (by simp) fun i hi hj => ?_
      simp only [List.getElem_map, List.getElem_mapIdx]
      exact Params.lacking_map fun n _ => h i (by simpa using hi) n
    rw [← hlacking, List.findSome?_map, Function.id_comp]
  rw [hfind, List.findSome?_eq_some_iff]
  constructor
  · rintro ⟨l₁, a, l₂, hsplit, ha, hbefore⟩
    obtain ⟨before, rest, rfl, rfl, hrest⟩ := List.mapIdx_eq_append_iff.1 hsplit
    obtain ⟨x, after, rfl, rfl, -⟩ := List.mapIdx_eq_cons_iff.1 hrest
    obtain ⟨n, hn, rfl⟩ := Option.map_eq_some_iff.1 ha
    refine ⟨before, x, after, n, rfl, fun y hy => ?_, hn, by rw [Nat.zero_add]⟩
    obtain ⟨i, hi, rfl⟩ := List.getElem_of_mem hy
    refine Option.map_eq_none_iff.1 (hbefore _ (List.mem_mapIdx.2 ⟨i, hi, rfl⟩))
  · rintro ⟨before, x, after, n, rfl, hbefore, hn, rfl⟩
    rw [List.mapIdx_append, List.mapIdx_cons]
    refine ⟨_, _, _, rfl, ?_, ?_⟩
    · rw [hn, Nat.zero_add]
      rfl
    · intro y hy
      obtain ⟨i, hi, rfl⟩ := List.mem_mapIdx.1 hy
      rw [hbefore _ (List.getElem_mem hi)]
      rfl

end

/-! ## The whole -/

namespace Renderer

variable {r : Renderer} {c : CompoundStatement} {o : Rendered}

/-- The operands of a compound statement that is sent are each sent on their own. -/
theorem render_operands (h : r.render (.compound c) = .ok o) :
    List.Forall₂ (fun s o => r.render (.select s) = .ok o) c.operands
      (c.operands.map (·.alone)) := by
  have hdemands : r.refusal? c.demands = none := (render_eq_ok.1 h).1
  have hoperands := (refusal?_eq_none.1 hdemands)
  rw [List.forall₂_map_right_iff, List.forall₂_same]
  intro s hs
  refine render_eq_ok.2 ⟨refusal?_eq_none.2 fun d hd => hoperands d ?_, rfl⟩
  rw [CompoundStatement.demands, List.mem_append, List.mem_flatMap]
  exact .inl ⟨s, hs, List.mem_append_right _ hd⟩

/-- The values for a compound statement without parameters of its own, put together from values for
its operands in any order: they are bound if and only if each operand's own are by its names when
it is sent on its own, and then they are these, one operand after another; otherwise what is
reported is the first name without a value, that of the first operand which lacks one. -/
theorem bind_compound (h : r.render (.compound c) = .ok o) (htail : c.trailingUses = [])
    {sets : List (Params β)} (hlength : sets.length = c.operands.length) {m : Merging}
    (hall : ∀ i < sets.length, i ∈ m.operands) :
    ∃ rs, List.Forall₂ (fun s o => r.render (.select s) = .ok o) c.operands rs ∧
      (∀ values, (m.values sets).bind o.params = .ok values ↔
        ∃ parts, List.Forall₂ (fun x part => x.2.bind x.1.params = .ok part) (rs.zip sets) parts ∧
          values = parts.flatten) ∧
      ∀ e, (m.values sets).bind o.params = .error e ↔
        ∃ before x after n, rs.zip sets = before ++ x :: after ∧
          (∀ y ∈ before, ∃ part, y.2.bind y.1.params = .ok part) ∧
          x.2.bind x.1.params = .error (.missingParam n) ∧
          e = .missingParam (inOperand before.length n) := by
  refine ⟨_, render_operands h, ?_⟩
  generalize hrs : c.operands.map (·.alone) = rs
  have hlen : rs.length = sets.length := by rw [← hrs, List.length_map, hlength]
  -- without trailing names the compound's names are those of its operands, one after another
  have hparams : o.params = operandNames ((rs.zip sets).map (·.1)) := by
    rw [List.map_fst_zip (Nat.le_of_eq hlen), (render_eq_ok.1 h).2, ← hrs]
    show (Rendered.ofTokens c.tokens).params = _
    rw [c.params_tokens, htail]
    exact List.append_nil _
  -- each is looked up in the set of its own operand, in whatever order the sets were merged
  have hget (i : Nat) (hi : i < (rs.zip sets).length) (n : String) :
      (m.values sets).get? (inOperand i n) = (rs.zip sets)[i].2.get? n := by
    have hset : i < sets.length := by
      rw [List.length_zip] at hi
      omega
    rw [Merging.get?_values (hall i hset), List.getElem_zip, List.getElem?_eq_getElem hset]
    rfl
  rw [hparams]
  refine ⟨bind_operandNames_ok hget, fun e => ?_⟩
  rw [Params.bind_eq_error_iff]
  -- the first lacking name of all is the first of the first operand that lacks one
  constructor
  · rintro ⟨name, hname, rfl⟩
    obtain ⟨before, x, after, n, hsplit, hbefore, hn, rfl⟩ := (lacking_operandNames hget name).1 hname
    refine ⟨before, x, after, n, hsplit, fun y hy => ?_, Params.bind_of_lacking hn, rfl⟩
    exact ⟨_, by rw [Params.bind_eq, hbefore y hy]⟩
  · rintro ⟨before, x, after, n, hsplit, hbefore, hx, rfl⟩
    refine ⟨_, (lacking_operandNames hget _).2
      ⟨before, x, after, n, hsplit, fun y hy => ?_, ?_, rfl⟩, rfl⟩
    · obtain ⟨part, hpart⟩ := hbefore y hy
      exact (Params.bind_ok hpart).1
    · obtain ⟨n', hn', he⟩ := Params.bind_error hx
      cases he
      exact hn'

/-- A parameter of the first operand is called what a parameter of the second is called in the
whole, and the values of the second are taken first. -/
theorem bind_compound_crossed :
    let byParam (name : String) : SelectStatement :=
      { table := "users", conditions := [.compare ⟨"id"⟩ .eq ⟨name⟩] }
    let c : CompoundStatement := { first := byParam "q1_id", rest := [(.union, byParam "id")] }
    let m : Merging := .both (.operand 1) (.operand 0)
    let sets (second : List (String × Nat)) : List (Params Nat) :=
      [.ofList [("id", 1), ("q1_id", 2)], .ofList second]
    ∃ o, (Renderer.ofDialect .postgres).render (.compound c) = .ok o ∧
      (m.values (sets [("id", 3)])).bind o.params = .ok [2, 3] ∧
      (m.values (sets [("q1_id", 3)])).bind o.params = .error (.missingParam "q1_id") := by
  intro byParam c m sets
  have hrender : (Renderer.ofDialect .postgres).render (.compound c) =
      .ok (Rendered.ofTokens c.tokens) := rfl
  have hlength (second : List (String × Nat)) : (sets second).length = c.operands.length := rfl
  have hall (second : List (String × Nat)) : ∀ i < (sets second).length, i ∈ m.operands := by
    show ∀ i < 2, i ∈ m.operands
    decide
  refine ⟨_, hrender, ?_, ?_⟩
  · obtain ⟨rs, hrs, hok, -⟩ := bind_compound hrender rfl (hlength [("id", 3)]) (hall _)
    rw [(eq_alone hrs).1] at hok
    exact (hok _).2 ⟨[[2], [3]], .cons (by decide) (.cons (by decide) .nil), rfl⟩
  · obtain ⟨rs, hrs, -, herror⟩ := bind_compound hrender rfl (hlength [("q1_id", 3)]) (hall _)
    rw [(eq_alone hrs).1] at herror
    refine (herror _).2 ⟨[_], _, [], "id", rfl, ?_, by decide, by decide⟩
    exact List.forall_mem_singleton.2 ⟨[2], by decide⟩

end Renderer

end CheckedSql
