/-
What a draft makes of a sequence of tokens: the names are those of the parameters, each once, in
the order of their first use, and the text is that of the tokens with each parameter replaced by
the number of its name. A name keeps its number because names are only ever added at the end.
-/
import CheckedSql.Proofs.Sql.Tokens
import CheckedSql.Renderer

namespace CheckedSql

/-! ## Lists without repetitions -/

theorem length_filter_lt {α : Type} (p : α → Bool) (a : α) (l : List α) :
    (l.filter p).length < (a :: l).length :=
  Nat.lt_succ_of_le (List.length_filter_le p l)

section

variable {α β : Type} [BEq α] [LawfulBEq α] [BEq β] [LawfulBEq β]

theorem nodup_eraseDups (l : List α) : l.eraseDups.Nodup := by
  induction hn : l.length using Nat.strongRecOn generalizing l with
  | ind n ih =>
    cases l with
    | nil => exact List.nodup_nil
    | cons a l =>
      rw [List.eraseDups_cons, List.nodup_cons]
      refine ⟨fun hm => ?_, ih _ (hn ▸ length_filter_lt _ a l) _ rfl⟩
      rw [List.mem_eraseDups, List.mem_filter] at hm
      simp at hm

theorem eraseDups_of_nodup {l : List α} (h : l.Nodup) : l.eraseDups = l := by
  induction l with
  | nil => rfl
  | cons a l ih =>
    obtain ⟨ha, hl⟩ := List.nodup_cons.1 h
    have hkeep : l.filter (fun b => !b == a) = l :=
      List.filter_eq_self.2 fun b hb => by simpa using fun he : b = a => ha (he ▸ hb)
    rw [List.eraseDups_cons, hkeep, ih hl]

/-- A function that keeps the members of a list apart keeps its repetitions and adds none. -/
theorem eraseDups_map {f : α → β} (l : List α) (h : ∀ a ∈ l, ∀ b ∈ l, f a = f b → a = b) :
    (l.map f).eraseDups = l.eraseDups.map f := by
  induction hn : l.length using Nat.strongRecOn generalizing l with
  | ind n ih =>
    cases l with
    | nil => rfl
    | cons a l =>
      -- the repetitions of a member are removed before the list is mapped or after
      have hfilter : (l.map f).filter (fun y => !y == f a) = (l.filter fun b => !b == a).map f := by
        rw [List.filter_map]
        refine congrArg (List.map f) (List.filter_congr fun b hb => ?_)
        show (!f b == f a) = !b == a
        have hinj := h b (.tail _ hb) a List.mem_cons_self
        by_cases hba : b = a
        · rw [hba, beq_self_eq_true, beq_self_eq_true]
        · have hne : f b ≠ f a := fun he => hba (hinj he)
          rw [beq_false_of_ne hba, beq_false_of_ne hne]
      have hrest : ∀ b ∈ l.filter (fun b => !b == a), ∀ c ∈ l.filter (fun b => !b == a),
          f b = f c → b = c := by
        intro b hb c hc
        exact h b (.tail _ (List.mem_filter.1 hb).1) c (.tail _ (List.mem_filter.1 hc).1)
      rw [List.map_cons, List.eraseDups_cons, List.eraseDups_cons, hfilter,
        ih _ (hn ▸ length_filter_lt _ a l) _ hrest rfl, List.map_cons]

/-- What a list adds to an earlier one are its members that are new, each once. -/
theorem eraseDups_append_new (l m : List α) :
    (l ++ m).eraseDups = l.eraseDups ++ (m.filter (· ∉ l.eraseDups)).eraseDups := by
  have hnew : m.removeAll l = m.filter (· ∉ l.eraseDups) := by
    refine List.filter_congr fun a _ => ?_
    simp [List.mem_eraseDups]
  rw [List.eraseDups_append, hnew]

/-- Lists that have no member in common are freed of repetitions one by one. -/
theorem eraseDups_flatten (ls : List (List α))
    (h : ls.Pairwise fun l m => ∀ a ∈ l, a ∉ m) :
    ls.flatten.eraseDups = (ls.map List.eraseDups).flatten := by
  induction h with
  | nil => rfl
  | @cons l ls hl _ ih =>
    have hkeep : ls.flatten.removeAll l = ls.flatten := by
      refine List.filter_eq_self.2 fun a ha => ?_
      obtain ⟨m, hm, ham⟩ := List.mem_flatten.1 ha
      have hnot : a ∉ l := fun hal => hl m hm a hal ham
      simpa using hnot
    rw [List.flatten_cons, List.eraseDups_append, hkeep, ih, List.map_cons, List.flatten_cons]

end

namespace Draft

/-! ## Names and their numbers -/

/-- A list of names after one more use of a name. -/
def intern (names : List String) (key : String) : List String :=
  if key ∈ names then names else names ++ [key]

/-- The number of a name in a list of names, counted from one. -/
def rank (names : List String) (key : String) : Nat :=
  names.idxOf key + 1

theorem prefix_intern (names : List String) (key : String) : names <+: intern names key := by
  unfold intern
  split
  · exact List.prefix_refl _
  · exact List.prefix_append _ _

theorem mem_intern (names : List String) (key : String) : key ∈ intern names key := by
  unfold intern
  split
  · assumption
  · simp

theorem prefix_foldl_intern (keys names : List String) : names <+: keys.foldl intern names := by
  induction keys generalizing names with
  | nil => exact List.prefix_refl _
  | cons key keys ih => exact (prefix_intern names key).trans (ih _)

/-- A name keeps its number when names are added behind it. -/
theorem rank_of_prefix {names more : List String} {key : String} (h : names <+: more)
    (hk : key ∈ names) : rank more key = rank names key := by
  obtain ⟨new, rfl⟩ := h
  unfold rank
  rw [List.idxOf_append, if_pos hk]

/-- Adding names one by one leaves each name once, in the order of their first use. -/
theorem foldl_intern_eraseDups (keys used : List String) :
    keys.foldl intern used.eraseDups = (used ++ keys).eraseDups := by
  induction keys generalizing used with
  | nil => simp
  | cons key keys ih =>
    have step : intern used.eraseDups key = (used ++ [key]).eraseDups := by
      unfold intern
      by_cases h : key ∈ used
      · simp [List.eraseDups_append, List.removeAll, h]
      · simp [List.eraseDups_append, List.removeAll, h, List.eraseDups_cons]
    rw [List.foldl_cons, step, ih, List.append_assoc, List.singleton_append]

/-- The name of a number is the one that got it. -/
theorem getElem?_rank {names : List String} {key : String} (h : key ∈ names) :
    names[rank names key - 1]? = some key := by
  have hlt : names.idxOf key < names.length := List.idxOf_lt_length_of_mem h
  rw [rank, Nat.add_sub_cancel, List.getElem?_eq_getElem hlt, List.getElem_idxOf]

theorem rank_injective {names : List String} {a b : String} (ha : a ∈ names) (hb : b ∈ names)
    (h : rank names a = rank names b) : a = b := by
  have hname := getElem?_rank ha
  rw [h, getElem?_rank hb] at hname
  exact (Option.some.inj hname).symm

theorem rank_append_left {names : List String} {key : String} (h : key ∈ names)
    (more : List String) : rank (names ++ more) key = rank names key :=
  rank_of_prefix (List.prefix_append _ _) h

/-- Names behind others are numbered on from these. -/
theorem rank_append_right {names : List String} {key : String} (h : key ∉ names)
    (more : List String) : rank (names ++ more) key = names.length + rank more key := by
  unfold rank
  rw [List.idxOf_append, if_neg h]
  omega

/-- Names that are kept apart under other names keep their numbers. -/
theorem rank_map {f : String → String} (hf : Function.Injective f) (names : List String)
    (key : String) : rank (names.map f) (f key) = rank names key := by
  unfold rank
  induction names with
  | nil => rfl
  | cons name names ih =>
    rw [List.map_cons, List.idxOf_cons, List.idxOf_cons]
    by_cases h : name = key
    · subst h
      rw [beq_self_eq_true, beq_self_eq_true]
      rfl
    · rw [beq_false_of_ne h, beq_false_of_ne (hf.ne h)]
      show (names.map f).idxOf (f key) + 1 + 1 = names.idxOf key + 1 + 1
      rw [ih]

/-- A name that does not stand twice has the number of its position. -/
theorem rank_of_getElem? {names : List String} (h : names.Nodup) {i : Nat} {key : String}
    (hi : names[i]? = some key) : rank names key = i + 1 := by
  obtain ⟨hlt, rfl⟩ := List.getElem?_eq_some_iff.1 hi
  rw [rank, h.idxOf_getElem]

/-- Names without repetitions are numbered one after the other. -/
theorem map_rank {names : List String} (h : names.Nodup) :
    names.map (rank names) = List.range' 1 names.length := by
  refine List.ext_getElem (by simp) fun i hi hr => ?_
  rw [List.getElem_map, List.getElem_range', rank_of_getElem? h (List.getElem?_eq_getElem _)]
  omega

/-! ## Writing tokens -/

theorem number_eq (d : Draft) (name : String) :
    d.number name =
      (rank (intern d.names (d.effective name)) (d.effective name),
        { d with names := intern d.names (d.effective name) }) := by
  unfold number intern rank
  by_cases h : d.effective name ∈ d.names
  · simp [h]
  · simp [h, List.idxOf_append]

theorem writeParam_eq (d : Draft) (name : String) :
    d.writeParam name =
      { text := d.text ++ placeholder (rank (intern d.names (d.effective name)) (d.effective name))
        names := intern d.names (d.effective name)
        qualifier := d.qualifier } := by
  unfold writeParam param write
  rw [number_eq]

/-- The names of a draft after a sequence of tokens. -/
def namesAfter (d : Draft) (ts : List (Sql.Token String)) : List String :=
  ((Sql.paramsOf ts).map d.effective).foldl intern d.names

/-- How a parameter is written once the names of the whole draft are known. -/
def spelling (d : Draft) (ts : List (Sql.Token String)) (name : String) : String :=
  placeholder (rank (d.namesAfter ts) (d.effective name))

theorem writeTokens_eq (d : Draft) (ts : List (Sql.Token String)) :
    d.writeTokens ts = ⟨d.text ++ Sql.textOf (d.spelling ts) ts, d.namesAfter ts, d.qualifier⟩ := by
  induction ts generalizing d with
  | nil => simp [writeTokens, namesAfter, Sql.textOf, Sql.paramsOf]
  | cons t ts ih =>
    -- writing the rest leaves the number of this parameter as it is
    have rest (d' : Draft) (hq : d'.qualifier = d.qualifier)
        (hn : d'.namesAfter ts = d.namesAfter (t :: ts))
        (ht : d'.text = d.text ++ t.text (d.spelling (t :: ts))) :
        (d'.write (t.gapBefore ts)).writeTokens ts =
          ⟨d.text ++ Sql.textOf (d.spelling (t :: ts)) (t :: ts), d.namesAfter (t :: ts),
            d.qualifier⟩ := by
      have hs : (d'.write (t.gapBefore ts)).spelling ts = d.spelling (t :: ts) := by
        funext name
        have he : d'.effective name = d.effective name := by simp only [effective, hq]
        show placeholder (rank (d'.namesAfter ts) (d'.effective name)) = _
        rw [hn, he]; rfl
      rw [ih, hs]
      show (⟨d'.text ++ t.gapBefore ts ++ _, d'.namesAfter ts, d'.qualifier⟩ : Draft) = _
      rw [hn, hq, ht, Sql.textOf, String.append_assoc, String.append_assoc]
    cases t with
    | param name =>
      have hw : d.writeTokens (.param name :: ts) =
          ((d.writeParam name).write ((Sql.Token.param name).gapBefore ts)).writeTokens ts := rfl
      have hnames : (d.writeParam name).namesAfter ts = d.namesAfter (.param name :: ts) := by
        rw [writeParam_eq]; rfl
      have hrank : rank (d.namesAfter (.param name :: ts)) (d.effective name) =
          rank (intern d.names (d.effective name)) (d.effective name) :=
        rank_of_prefix (prefix_foldl_intern _ _) (mem_intern _ _)
      rw [hw]
      refine rest _ ?_ hnames ?_
      · rw [writeParam_eq]
      · rw [writeParam_eq, Sql.Token.text, spelling, hrank]
    | keyword k => exact rest (d.write k.text) rfl rfl rfl
    | call k => exact rest (d.write (k.text ++ "(")) rfl rfl rfl
    | symbol s => exact rest (d.write s.text) rfl rfl rfl
    | identifier name => exact rest (d.write (Ident.quote name)) rfl rfl rfl
    | number n => exact rest (d.write (toString n)) rfl rfl rfl

end Draft

/-! ## A whole statement -/

namespace Rendered

/-- The tokens of a statement with its parameters numbered. -/
def numbered (o : Rendered) (ts : List (Sql.Token String)) : List (Sql.Token Nat) :=
  ts.map (Sql.Token.map (Draft.rank o.params))

/-- A finished statement: its names are those of the parameters, each once and in the order of
first use, and its text is that of the tokens with the parameters numbered by these names. -/
theorem ofTokens_eq (ts : List (Sql.Token String)) :
    (ofTokens ts).params = (Sql.paramsOf ts).eraseDups ∧
      (ofTokens ts).sql = Sql.textOf placeholder ((ofTokens ts).numbered ts) := by
  have he (name : String) : ({} : Draft).effective name = name := by simp [Draft.effective]
  have hn : ({} : Draft).namesAfter ts = (Sql.paramsOf ts).eraseDups := by
    have := Draft.foldl_intern_eraseDups (Sql.paramsOf ts) []
    rw [List.eraseDups_nil, List.nil_append] at this
    rw [← this, Draft.namesAfter, List.map_congr_left (fun p _ => he p), List.map_id']
  have hs : ({} : Draft).spelling ts = placeholder ∘ Draft.rank (({} : Draft).namesAfter ts) := by
    funext name
    rw [Draft.spelling, he]; rfl
  unfold ofTokens
  rw [Draft.writeTokens_eq]
  refine ⟨hn, ?_⟩
  rw [numbered, Sql.textOf_map]
  show "" ++ Sql.textOf (({} : Draft).spelling ts) ts = _
  rw [String.empty_append, hs]; rfl

/-- The placeholder of a name. -/
def spell (o : Rendered) (name : String) : String :=
  placeholder (Draft.rank o.params name)

theorem textOf_spell (o : Rendered) (ts : List (Sql.Token String)) :
    Sql.textOf o.spell ts = Sql.textOf placeholder (o.numbered ts) :=
  (Sql.textOf_map (Draft.rank o.params) placeholder ts).symm

theorem sql_ofTokens (ts : List (Sql.Token String)) :
    (ofTokens ts).sql = Sql.textOf (ofTokens ts).spell ts :=
  (ofTokens_eq ts).2.trans (textOf_spell _ ts).symm

theorem mem_params_ofTokens {ts : List (Sql.Token String)} {name : String} :
    name ∈ (ofTokens ts).params ↔ name ∈ Sql.paramsOf ts := by
  rw [(ofTokens_eq ts).1, List.mem_eraseDups]

end Rendered

/-- A statement that is accepted is written token by token, and all its demands are met. -/
theorem Renderer.render_ok {r : Renderer} {s : Statement} {o : Rendered} (h : r.render s = .ok o) :
    o = Rendered.ofTokens s.tokens ∧ ∀ d ∈ s.demands, r.meets d = true := by
  unfold Renderer.render at h
  split at h
  · cases h
  · rename_i hd
    cases h
    exact ⟨rfl, fun d hm => by simpa using List.find?_eq_none.1 hd d hm⟩

end CheckedSql
