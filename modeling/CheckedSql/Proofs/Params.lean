/-
Telling parameters apart, and looking their values up by name. Neither names of different operands
nor different names of one operand are ever the same, even where a name itself begins like a
qualifier; and neither those of different rows nor of one, even where a name itself ends like a
row's. Binding a list of names comes to the values of all of them, or to the first name without a
value; of two tables put together the second is looked up first; and the values of several rows are
found under the names of the row's number, each row's own and no other's.
-/
import CheckedSql.Params
import CheckedSql.Proofs.Sql.Scan
import Mathlib.Data.List.Find
import Mathlib.Data.List.Nodup
import Mathlib.Data.Option.Basic

namespace CheckedSql

/-! ## Names -/

namespace ParamName

/-- The digits of a position end at the underscore, whatever the name behind it. -/
theorem inOperand_digits (index : Nat) (name : String) :
    ((inOperand index name).toList.drop 1).takeWhile Char.isDigit = Nat.toDigits 10 index := by
  have hchars : (inOperand index name).toList =
      'q' :: (Nat.toDigits 10 index ++ '_' :: name.toList) := by
    simp [inOperand, operandQualifier]
  have hrun : Sql.run Char.isDigit (Nat.toDigits 10 index ++ '_' :: name.toList) =
      (Nat.toDigits 10 index, '_' :: name.toList) :=
    Sql.run_append (Sql.digits_all index) (by rintro c ⟨⟩; decide)
  rw [hchars, List.drop_one, List.tail_cons]
  exact congrArg Prod.fst hrun

theorem inOperand_injective (index : Nat) : Function.Injective (inOperand index) := by
  intro a b h
  have hlist := congrArg String.toList h
  simp only [inOperand, String.toList_append] at hlist
  exact String.toList_inj.1 (List.append_cancel_left hlist)

/-- The position and the name are found again in what they make together. -/
theorem inOperand_inj {i j : Nat} {a b : String} :
    inOperand i a = inOperand j b ↔ i = j ∧ a = b := by
  refine ⟨fun h => ?_, by rintro ⟨rfl, rfl⟩; rfl⟩
  have hdigits : Nat.toDigits 10 i = Nat.toDigits 10 j := by
    rw [← inOperand_digits i a, h, inOperand_digits]
  have hindex : i = j := by
    rw [← Nat.ofDigitChars_ten_toDigits (n := i), hdigits, Nat.ofDigitChars_ten_toDigits]
  subst hindex
  exact ⟨rfl, inOperand_injective i h⟩

/-- The number of a row ends what a name ends in: read from the end, its digits stop at the
underscore, whatever the name before it. -/
theorem run_inRow (index : Nat) (name : String) :
    Sql.run Char.isDigit (inRow index name).toList.reverse =
      ((Nat.toDigits 10 index).reverse, '_' :: name.toList.reverse) := by
  have hchars : (inRow index name).toList.reverse =
      (Nat.toDigits 10 index).reverse ++ '_' :: name.toList.reverse := by
    simp [inRow]
  have hdigits : (Nat.toDigits 10 index).reverse.all Char.isDigit = true := by
    rw [List.all_reverse]
    exact Sql.digits_all index
  rw [hchars]
  exact Sql.run_append hdigits (by rintro c ⟨⟩; decide)

/-- The number of the row and the name are found again in what they make together. -/
theorem inRow_inj {i j : Nat} {a b : String} : inRow i a = inRow j b ↔ i = j ∧ a = b := by
  refine ⟨fun h => ?_, by rintro ⟨rfl, rfl⟩; rfl⟩
  have hrun := run_inRow i a
  rw [h, run_inRow, Prod.mk.injEq] at hrun
  obtain ⟨hdigits, hname⟩ := hrun
  constructor
  · rw [← Nat.ofDigitChars_ten_toDigits (n := i), ← List.reverse_inj.1 hdigits,
      Nat.ofDigitChars_ten_toDigits]
  · exact String.toList_inj.1 (List.reverse_inj.1 (List.cons.inj hname).2.symm)

theorem inRow_injective (index : Nat) : Function.Injective (inRow index) :=
  fun _ _ h => (inRow_inj.1 h).2

end ParamName

namespace Params

variable {β : Type}

/-! ## Binding -/

/-- The first of the names that has no value. -/
def lacking (ps : Params β) (names : List String) : Option String :=
  names.find? (!ps.contains ·)

theorem contains_iff {ps : Params β} {name : String} :
    ps.contains name = true ↔ ∃ v, ps.get? name = some v :=
  Option.isSome_iff_exists

theorem lacking_cons_of_some {ps : Params β} {name : String} {v : β} (h : ps.get? name = some v)
    (names : List String) : ps.lacking (name :: names) = ps.lacking names := by
  have hcontains : ps.contains name = true := contains_iff.2 ⟨v, h⟩
  rw [lacking, List.find?_cons, hcontains]
  rfl

theorem lacking_cons_of_none {ps : Params β} {name : String} (h : ps.get? name = none)
    (names : List String) : ps.lacking (name :: names) = some name := by
  have hcontains : ps.contains name = false := by rw [contains, h]; rfl
  rw [lacking, List.find?_cons, hcontains]
  rfl

theorem lacking_eq_none {ps : Params β} {names : List String} :
    ps.lacking names = none ↔ ∀ name ∈ names, ps.contains name = true := by
  rw [lacking, List.find?_eq_none]
  simp

/-- Names that are looked up as others are. -/
theorem lacking_map {ps qs : Params β} {f : String → String} {names : List String}
    (h : ∀ n ∈ names, ps.get? (f n) = qs.get? n) :
    ps.lacking (names.map f) = (qs.lacking names).map f := by
  rw [lacking, lacking, List.find?_map]
  refine congrArg _ (List.find?_congr fun n hn => ?_)
  rw [Function.comp_apply, contains, contains, h n hn]

/-- The first name without a value is the error; if there is none, the values are those of the
names. -/
theorem bind_eq (ps : Params β) (names : List String) :
    ps.bind names =
      match ps.lacking names with
      | some n => .error (.missingParam n)
      | none => .ok (names.filterMap ps.get?) := by
  induction names with
  | nil => rfl
  | cons name names ih =>
    rw [bind]
    cases hname : ps.get? name with
    | none => rw [lacking_cons_of_none hname]
    | some v =>
      rw [lacking_cons_of_some hname, ih, List.filterMap_cons_some hname]
      cases ps.lacking names <;> rfl

theorem bind_error {ps : Params β} {names : List String} {e : QueryError}
    (h : ps.bind names = .error e) : ∃ n, ps.lacking names = some n ∧ e = .missingParam n := by
  rw [bind_eq] at h
  cases hlacking : ps.lacking names with
  | none =>
    rw [hlacking] at h
    cases h
  | some n =>
    rw [hlacking] at h
    cases h
    exact ⟨n, rfl, rfl⟩

theorem bind_of_lacking {ps : Params β} {names : List String} {n : String}
    (h : ps.lacking names = some n) : ps.bind names = .error (.missingParam n) := by
  rw [bind_eq, h]

/-- Values that are bound are those of the names, one for each and in their order. -/
theorem bind_ok {ps : Params β} {names : List String} {values : List β}
    (h : ps.bind names = .ok values) :
    ps.lacking names = none ∧ values.map some = names.map ps.get? := by
  rw [bind_eq] at h
  cases hlacking : ps.lacking names with
  | some n =>
    rw [hlacking] at h
    cases h
  | none =>
    rw [hlacking] at h
    cases h
    refine ⟨rfl, ?_⟩
    have hall : ∀ name ∈ names, ps.contains name = true := lacking_eq_none.1 hlacking
    clear hlacking
    induction names with
    | nil => rfl
    | cons name names ih =>
      obtain ⟨v, hv⟩ := contains_iff.1 (hall name List.mem_cons_self)
      rw [List.filterMap_cons_some hv, List.map_cons, List.map_cons, hv,
        ih fun n hn => hall n (List.mem_cons_of_mem _ hn)]

/-- Only with a value for each name are values bound. -/
theorem contains_of_bind {ps : Params β} {names : List String} {values : List β}
    (h : ps.bind names = .ok values) {name : String} (hname : name ∈ names) :
    ps.contains name = true :=
  lacking_eq_none.1 (bind_ok h).1 name hname

theorem bind_of_contains {ps : Params β} {names : List String}
    (h : ∀ name ∈ names, ps.contains name = true) : ∃ values, ps.bind names = .ok values :=
  ⟨_, by rw [bind_eq, lacking_eq_none.2 h]⟩

/-- Values are bound if and only if they are those of the names. -/
theorem bind_eq_ok_iff {ps : Params β} {names : List String} {values : List β} :
    ps.bind names = .ok values ↔ names.map ps.get? = values.map some := by
  constructor
  · intro h
    exact (bind_ok h).2.symm
  · intro h
    obtain ⟨bound, hbound⟩ : ∃ bound, ps.bind names = .ok bound := by
      refine bind_of_contains fun name hname => ?_
      have hget : ps.get? name ∈ values.map some := by
        rw [← h]
        exact List.mem_map_of_mem hname
      obtain ⟨v, -, hv⟩ := List.mem_map.1 hget
      exact contains_iff.2 ⟨v, hv.symm⟩
    have hvalues := (bind_ok hbound).2
    rw [h] at hvalues
    rw [hbound, (List.map_injective_iff.2 (Option.some_injective β)) hvalues]

theorem bind_eq_error_iff {ps : Params β} {names : List String} {e : QueryError} :
    ps.bind names = .error e ↔ ∃ n, ps.lacking names = some n ∧ e = .missingParam n := by
  constructor
  · exact bind_error
  · rintro ⟨n, hn, rfl⟩
    exact bind_of_lacking hn

/-- The value at a position is that of the name there. -/
theorem getElem?_bind {ps : Params β} {names : List String} {values : List β}
    (h : ps.bind names = .ok values) (i : Nat) : values[i]? = names[i]?.bind ps.get? := by
  have hvalue := congrArg (·[i]?) (bind_ok h).2
  simp only [List.getElem?_map] at hvalue
  cases hname : names[i]? with
  | none =>
    rw [hname] at hvalue
    exact Option.map_eq_none_iff.1 hvalue
  | some name =>
    rw [hname] at hvalue
    obtain ⟨v, hv, hget⟩ := Option.map_eq_some_iff.1 hvalue
    rw [hv, Option.bind_some, hget]

/-- Where there are values for some names, there are for any of these. -/
theorem bind_of_subset {ps : Params β} {names others : List String} {values : List β}
    (h : ps.bind names = .ok values) (hsub : ∀ name ∈ others, name ∈ names) :
    ∃ vs, ps.bind others = .ok vs :=
  bind_of_contains fun name hname => contains_of_bind h (hsub name hname)

/-! ## Many values -/

/-- With different names, the value found under a name is the one that is listed with it. -/
theorem find?_eq_some_iff_mem {entries : List (String × β)} (h : (entries.map (·.1)).Nodup)
    (n : String) (v : β) :
    (entries.find? (·.1 == n)).map (·.2) = some v ↔ (n, v) ∈ entries := by
  induction entries with
  | nil => simp
  | cons e es ih =>
    rw [List.map_cons, List.nodup_cons] at h
    rw [List.find?_cons, List.mem_cons]
    by_cases hn : e.1 = n
    · have hother : (n, v) ∉ es := fun hm => h.1 (hn ▸ List.mem_map_of_mem hm)
      have hfirst : (n, v) = e ↔ e.2 = v := by
        rw [← hn, Prod.ext_iff]
        simp [eq_comm]
      simp [hn, hother, hfirst]
    · have hne : (n, v) ≠ e := fun he => hn (he ▸ rfl)
      rw [beq_false_of_ne hn, ih h.2]
      simp [hne]

theorem get?_eq_some_iff_mem (ps : Params β) (n : String) (v : β) :
    ps.get? n = some v ↔ (n, v) ∈ ps.entries :=
  find?_eq_some_iff_mem ps.names_nodup n v

/-- Of values set one after another under different names, each is found under its name; under other
names nothing changes. -/
theorem get?_setAll (ps : Params β) {entries : List (String × β)}
    (h : (entries.map (·.1)).Nodup) (n : String) :
    (ps.setAll entries).get? n = ((entries.find? (·.1 == n)).map (·.2)).or (ps.get? n) := by
  induction entries generalizing ps with
  | nil => rfl
  | cons e es ih =>
    rw [List.map_cons, List.nodup_cons] at h
    show ((ps.set e.1 e.2).setAll es).get? n = _
    rw [ih _ h.2, get?_set]
    by_cases hn : n = e.1
    · have hother : es.find? (·.1 == n) = none := by
        refine List.find?_eq_none.2 fun e' he' heq => h.1 ?_
        rw [← hn, ← eq_of_beq heq]
        exact List.mem_map_of_mem he'
      rw [List.find?_cons, hother, if_pos hn, hn, beq_self_eq_true]
      rfl
    · have hne : (e.1 == n) = false := beq_false_of_ne fun he => hn he.symm
      simp [hn, hne]

/-- Of two tables put together the second is looked up first. -/
theorem get?_merge (ps qs : Params β) (n : String) :
    (ps.merge qs).get? n = (qs.get? n).or (ps.get? n) :=
  get?_setAll ps qs.names_nodup n

/-- Under names that are kept apart, each value is found under its new name. -/
theorem get?_rename_eq_some (ps : Params β) {f : String → String} (hf : Function.Injective f)
    (n : String) (v : β) :
    (ps.rename f).get? n = some v ↔ ∃ m, n = f m ∧ ps.get? m = some v := by
  have hnames : ((ps.entries.map fun e => (f e.1, e.2)).map (·.1)).Nodup := by
    have hmap := ps.names_nodup.map hf
    rwa [List.map_map] at hmap ⊢
  show (empty.setAll _).get? n = _ ↔ _
  rw [get?_setAll empty hnames, get?_empty, Option.or_none, find?_eq_some_iff_mem hnames,
    List.mem_map]
  constructor
  · rintro ⟨⟨m, w⟩, hm, he⟩
    cases he
    exact ⟨m, rfl, (ps.get?_eq_some_iff_mem m w).2 hm⟩
  · rintro ⟨m, rfl, hm⟩
    exact ⟨(m, v), (ps.get?_eq_some_iff_mem m v).1 hm, rfl⟩

/-! ## Rows -/

/-- The rows from a number on, added to values under names of none of them: what is found is a
row's own value, under a name of the row, or was there before. -/
theorem get?_ofRows_from {index : Nat} {acc : Params β} {rows : List (Params β)}
    (hacc : ∀ i n, index ≤ i → acc.get? (ParamName.inRow i n) = none) (name : String) (v : β) :
    (ofRows index acc rows).get? name = some v ↔
      (∃ i row n, rows[i]? = some row ∧ name = ParamName.inRow (index + i) n ∧
        row.get? n = some v) ∨ acc.get? name = some v := by
  induction rows generalizing index acc with
  | nil => simp [ofRows]
  | cons row rows ih =>
    have hrow (n : String) (v : β) := row.get?_rename_eq_some (ParamName.inRow_injective index) n v
    have hfresh (i : Nat) (n : String) (hi : index + 1 ≤ i) :
        (acc.merge (row.forRow index)).get? (ParamName.inRow i n) = none := by
      rw [get?_merge, hacc i n (by omega), Option.or_none, Option.eq_none_iff_forall_ne_some]
      intro v hv
      obtain ⟨m, hm, -⟩ := (hrow _ v).1 hv
      have := (ParamName.inRow_inj.1 hm).1
      omega
    have hmerge : (acc.merge (row.forRow index)).get? name = some v ↔
        (∃ n, name = ParamName.inRow index n ∧ row.get? n = some v) ∨ acc.get? name = some v := by
      rw [get?_merge, Option.or_eq_some_iff]
      constructor
      · rintro (h | ⟨-, h⟩)
        · exact .inl ((hrow name v).1 h)
        · exact .inr h
      · rintro (h | h)
        · exact .inl ((hrow name v).2 h)
        · refine .inr ⟨Option.eq_none_iff_forall_ne_some.2 fun w hw => ?_, h⟩
          obtain ⟨m, rfl, -⟩ := (hrow name w).1 hw
          rw [hacc index m (Nat.le_refl _)] at h
          cases h
    rw [ofRows, ih hfresh, hmerge, ← or_assoc]
    refine or_congr_left ?_
    -- the first row, or one of the others, which are counted from the next number on
    constructor
    · rintro (⟨i, row', n, hi, hname, hv⟩ | ⟨n, hname, hv⟩)
      · exact ⟨i + 1, row', n, hi, by rw [hname]; congr 1; omega, hv⟩
      · exact ⟨0, row, n, rfl, hname, hv⟩
    · rintro ⟨_ | i, row', n, hi, hname, hv⟩
      · cases hi
        exact .inr ⟨n, hname, hv⟩
      · exact .inl ⟨i, row', n, hi, by rw [hname]; congr 1; omega, hv⟩

/-- Under the name that a row gives to a name stands that row's value of it, and nothing else. -/
theorem get?_ofRows (rows : List (Params β)) (name : String) (v : β) :
    (ofRows 0 empty rows).get? name = some v ↔
      ∃ i row n, rows[i]? = some row ∧ name = ParamName.inRow i n ∧ row.get? n = some v := by
  rw [get?_ofRows_from fun _ _ _ => rfl]
  simp

end Params

end CheckedSql
