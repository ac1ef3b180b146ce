/-
The placeholders in the text of a statement and the names it is sent with. Every number from one
to the count of the names occurs, the first occurrences in this order, and what the placeholders
stand for are the parameters of the statement, one after the other.
-/
import CheckedSql.Proofs.Numbering
import CheckedSql.Proofs.Sql.Placeholder
import CheckedSql.Proofs.Statement.Uses

namespace CheckedSql

open Sql (paramsOf placeholdersOf)

/-! ## Text and names of a statement -/

/-- The names a statement is sent with and the placeholders in its text: no name stands twice, the
placeholders are numbered without gaps in the order of their first use, and with the names put in
their places they are the uses of parameters in the statement. -/
theorem Renderer.placeholders_of_render {r : Renderer} {s : Statement} {o : Rendered}
    (h : r.render s = .ok o) :
    o.params.Nodup ∧
      (∀ k, k ∈ placeholdersOf o.sql ↔ 1 ≤ k ∧ k ≤ o.params.length) ∧
      (placeholdersOf o.sql).eraseDups = List.range' 1 o.params.length ∧
      (placeholdersOf o.sql).map (fun k => o.params[k - 1]?) = s.uses.map some := by
  obtain ⟨rfl, -⟩ := render_ok h
  obtain ⟨hparams, hsql⟩ := Rendered.ofTokens_eq s.tokens
  generalize Rendered.ofTokens s.tokens = o at hparams hsql
  rw [s.paramsOf_tokens] at hparams
  have hnodup : o.params.Nodup := hparams ▸ nodup_eraseDups s.uses
  have hmem : ∀ name ∈ s.uses, name ∈ o.params := fun name hn => by
    rw [hparams]
    exact List.mem_eraseDups.2 hn
  have hplaces : placeholdersOf o.sql = s.uses.map (Draft.rank o.params) := by
    rw [hsql, Sql.placeholdersOf_textOf, Rendered.numbered, Sql.paramsOf_map, s.paramsOf_tokens]
  -- the first placeholders number the names in their own order
  have hfirst : (placeholdersOf o.sql).eraseDups = List.range' 1 o.params.length := by
    rw [hplaces, eraseDups_map _ fun a ha b hb => Draft.rank_injective (hmem a ha) (hmem b hb),
      ← hparams, Draft.map_rank hnodup]
  refine ⟨hnodup, fun k => ?_, hfirst, ?_⟩
  · rw [← List.mem_eraseDups, hfirst, List.mem_range'_1]
    omega
  · rw [hplaces, List.map_map]
    exact List.map_congr_left fun name hn => Draft.getElem?_rank (hmem name hn)

/-- A name that is used four times, with another one between. -/
theorem Renderer.placeholders_of_render_shared :
    let s : Statement := .select
      { table := "users"
        conditions := [.nullSafeEq ⟨"age"⟩ ⟨"age"⟩, .compare ⟨"id"⟩ .eq ⟨"id"⟩]
        limit := some (.param ⟨"age"⟩) }
    let o := Rendered.ofTokens s.tokens
    (Renderer.ofDialect .postgres).render s = .ok o ∧ o.params.Nodup ∧
      (placeholdersOf o.sql).map (fun k => o.params[k - 1]?) =
        [some "age", some "age", some "id", some "age"] := by
  intro s o
  have hok : (ofDialect .postgres).render s = .ok o := rfl
  obtain ⟨hnodup, -, -, huses⟩ := placeholders_of_render hok
  exact ⟨hok, hnodup, huses⟩

end CheckedSql
