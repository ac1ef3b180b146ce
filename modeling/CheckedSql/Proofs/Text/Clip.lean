/-
Texts cut to a number of bytes. What is kept of a text is its longest beginning of whole characters
within the limit; stepping back from the limit, a byte at a time, to the end of a character arrives
at the same bytes. Errors are reported and SQL is logged whole within their limits, and beyond
these as that beginning and three dots, so that their length never exceeds a limit by more than
three bytes nor falls below it.
-/
import CheckedSql.Monitor.LogRecord
import Mathlib.Data.String.Basic

namespace CheckedSql

namespace Text

/-! ## The characters that are kept -/

theorem clipChars_isPrefix (room : Nat) (cs : List Char) : clipChars room cs <+: cs := by
  induction cs generalizing room with
  | nil => exact List.nil_prefix
  | cons c cs ih =>
    rw [clipChars]
    split
    · exact (List.prefix_cons_inj c).2 (ih _)
    · exact List.nil_prefix

theorem utf8Len_clipChars_le (room : Nat) (cs : List Char) :
    String.utf8Len (clipChars room cs) ≤ room := by
  induction cs generalizing room with
  | nil => exact Nat.zero_le _
  | cons c cs ih =>
    rw [clipChars]
    split
    case isTrue hfits =>
      have := ih (room - c.utf8Size)
      rw [String.utf8Len_cons]
      omega
    case isFalse => exact Nat.zero_le _

/-- A beginning that fits is kept. -/
theorem isPrefix_clipChars {room : Nat} {p cs : List Char} (hp : p <+: cs)
    (hfits : String.utf8Len p ≤ room) : p <+: clipChars room cs := by
  induction p generalizing room cs with
  | nil => exact List.nil_prefix
  | cons c p ih =>
    obtain ⟨cs, rfl, hcs⟩ := List.cons_prefix_iff.1 hp
    rw [String.utf8Len_cons] at hfits
    rw [clipChars, if_pos (by omega)]
    exact (List.prefix_cons_inj c).2 (ih hcs (by omega))

/-- Of characters that do not all fit, the first that is left out would exceed the room. -/
theorem exists_next_of_lt {room : Nat} {cs : List Char} (h : room < String.utf8Len cs) :
    ∃ c rest, cs = clipChars room cs ++ c :: rest ∧
      room < String.utf8Len (clipChars room cs) + c.utf8Size := by
  induction cs generalizing room with
  | nil => exact absurd h (Nat.not_lt_zero _)
  | cons c cs ih =>
    rw [String.utf8Len_cons] at h
    rw [clipChars]
    split
    case isTrue hfits =>
      have hleft : room - c.utf8Size < String.utf8Len cs := by omega
      obtain ⟨d, rest, hsplit, hexceeds⟩ := ih hleft
      refine ⟨d, rest, congrArg (c :: ·) hsplit, ?_⟩
      rw [String.utf8Len_cons]
      omega
    case isFalse hexceeds => exact ⟨c, cs, rfl, by simpa using hexceeds⟩

/-! ## The text that is kept -/

/-- `p` is the longest beginning of `s`, of whole characters, that has at most `limit` bytes. -/
structure LongestWithin (limit : Nat) (s p : String) : Prop where
  beginning : ∃ rest, s = p ++ rest
  fits : p.utf8ByteSize ≤ limit
  longest : ∀ q rest, s = q ++ rest → q.utf8ByteSize ≤ limit → ∃ more, p = q ++ more
  whole : s.utf8ByteSize ≤ limit → p = s
  /-- The next character would exceed the limit. -/
  next : limit < s.utf8ByteSize →
    ∃ c rest, s = p.push c ++ rest ∧ limit < (p.push c).utf8ByteSize

theorem append_of_isPrefix {p s : String} (h : p.toList <+: s.toList) : ∃ rest, s = p ++ rest := by
  obtain ⟨rest, hrest⟩ := h
  refine ⟨String.ofList rest, ?_⟩
  rw [← String.toList_inj, String.toList_append, String.toList_ofList, hrest]

theorem toList_clip (limit : Nat) (s : String) : (clip limit s).toList = clipChars limit s.toList :=
  String.toList_ofList

theorem utf8ByteSize_clip (limit : Nat) (s : String) :
    (clip limit s).utf8ByteSize = String.utf8Len (clipChars limit s.toList) :=
  String.utf8ByteSize_ofList _

theorem clip_longest (limit : Nat) (s : String) : LongestWithin limit s (clip limit s) := by
  have hlongest : ∀ q rest, s = q ++ rest → q.utf8ByteSize ≤ limit →
      ∃ more, clip limit s = q ++ more := by
    rintro q rest hs hq
    -- a beginning of the text is one of its characters, so all is said of the list
    refine append_of_isPrefix ?_
    rw [toList_clip]
    refine isPrefix_clipChars ⟨rest.toList, ?_⟩ ((String.utf8Len_toList q).trans_le hq)
    rw [hs, String.toList_append]
  refine
    { beginning := append_of_isPrefix ((toList_clip limit s).symm ▸ clipChars_isPrefix _ _)
      fits := (utf8ByteSize_clip limit s).trans_le (utf8Len_clipChars_le _ _)
      longest := hlongest
      whole := fun hs => ?_
      next := fun hs => ?_ }
  · have hall : s.toList <+: clipChars limit s.toList :=
      isPrefix_clipChars (List.prefix_refl _) ((String.utf8Len_toList s).trans_le hs)
    rw [← String.toList_inj, toList_clip]
    exact (hall.eq_of_length_le (clipChars_isPrefix _ _).length_le).symm
  · obtain ⟨c, rest, hsplit, hexceeds⟩ :=
      exists_next_of_lt ((String.utf8Len_toList s).symm ▸ hs : limit < String.utf8Len s.toList)
    refine ⟨c, String.ofList rest, ?_, ?_⟩
    · rw [← String.toList_inj]
      simpa [toList_clip] using hsplit
    · rw [String.utf8ByteSize_push, utf8ByteSize_clip]
      exact hexceeds

/-! ## Stepping back from the limit -/

/-- The last byte position, stepping back from one, that lies between characters. -/
def stepBack (s : String) : Nat → Nat
  | 0 => 0
  | n + 1 => if String.Pos.Raw.isValid s ⟨n + 1⟩ then n + 1 else stepBack s n

/-- How many bytes of a text are kept: all that there are, or those up to the position that is
found by stepping back from the limit. -/
def keptBytes (limit : Nat) (s : String) : Nat :=
  if s.utf8ByteSize ≤ limit then s.utf8ByteSize else stepBack s limit

/-- Stepping back arrives at the greatest position between characters. -/
theorem stepBack_eq {s : String} {n m : Nat} (hle : m ≤ n) (hm : String.Pos.Raw.IsValid s ⟨m⟩)
    (hlast : ∀ k, String.Pos.Raw.IsValid s ⟨k⟩ → k ≤ n → k ≤ m) : stepBack s n = m := by
  induction n with
  | zero => exact (Nat.le_zero.1 hle).symm
  | succ n ih =>
    rw [stepBack]
    split
    case isTrue hvalid =>
      exact Nat.le_antisymm (hlast _ (String.Pos.Raw.isValid_eq_true_iff.1 hvalid) le_rfl) hle
    case isFalse hvalid =>
      have hne : m ≠ n + 1 := by
        rintro rfl
        exact hvalid (String.Pos.Raw.isValid_eq_true_iff.2 hm)
      exact ih (by omega) fun k hk hkn => hlast k hk (by omega)

theorem LongestWithin.stepBack_eq {limit : Nat} {s p : String} (h : LongestWithin limit s p) :
    stepBack s limit = p.utf8ByteSize := by
  obtain ⟨rest, hrest⟩ := h.beginning
  refine Text.stepBack_eq h.fits
    (String.Pos.Raw.isValid_iff_exists_append.2 ⟨p, rest, hrest, rfl⟩) fun k hk hle => ?_
  obtain ⟨q, rest, hs, hpos⟩ := String.Pos.Raw.isValid_iff_exists_append.1 hk
  have hsize : k = q.utf8ByteSize := congrArg String.Pos.Raw.byteIdx hpos
  obtain ⟨more, hmore⟩ := h.longest q rest hs (hsize ▸ hle)
  rw [hmore, String.utf8ByteSize_append]
  omega

theorem utf8ByteSize_clip_eq_keptBytes (limit : Nat) (s : String) :
    (clip limit s).utf8ByteSize = keptBytes limit s := by
  have hclip := clip_longest limit s
  rw [keptBytes]
  split
  case isTrue hfits => rw [hclip.whole hfits]
  case isFalse => exact hclip.stepBack_eq.symm

theorem toByteArray_beginning {s p rest : String} (h : s = p ++ rest) :
    s.toByteArray.extract 0 p.utf8ByteSize = p.toByteArray := by
  rw [h, String.toByteArray_append]
  exact ByteArray.extract_append_eq_left String.size_toByteArray.symm

/-- What is kept are the bytes before the position that is found by stepping back. -/
theorem toByteArray_clip (limit : Nat) (s : String) :
    (clip limit s).toByteArray = s.toByteArray.extract 0 (keptBytes limit s) := by
  obtain ⟨rest, hrest⟩ := (clip_longest limit s).beginning
  rw [← utf8ByteSize_clip_eq_keptBytes, toByteArray_beginning hrest]

/-! ## Texts that are abridged -/

/-- `t` is `s` if that has at most `limit` bytes, else what is kept of it within these bytes and
three dots. -/
structure Abridges (limit : Nat) (s t : String) : Prop where
  whole : s.utf8ByteSize ≤ limit → t = s
  cut : limit < s.utf8ByteSize → t = clip limit s ++ "..."
  size : limit < s.utf8ByteSize → limit ≤ t.utf8ByteSize ∧ t.utf8ByteSize ≤ limit + 3

/-- A character has at most four bytes, so at most three bytes of the limit are left over. -/
theorem LongestWithin.size {limit : Nat} {s p : String} (h : LongestWithin limit s p)
    (hs : limit < s.utf8ByteSize) :
    limit ≤ (p ++ "...").utf8ByteSize ∧ (p ++ "...").utf8ByteSize ≤ limit + 3 := by
  obtain ⟨c, rest, -, hexceeds⟩ := h.next hs
  have hdots : "...".utf8ByteSize = 3 := rfl
  have hchar := c.utf8Size_le_four
  have hfits := h.fits
  rw [String.utf8ByteSize_push] at hexceeds
  rw [String.utf8ByteSize_append, hdots]
  omega

theorem abridge_abridges (limit : Nat) (s : String) : Abridges limit s (abridge limit s) := by
  have hcut : limit < s.utf8ByteSize → abridge limit s = clip limit s ++ "..." :=
    fun hs => if_neg (Nat.not_le.2 hs)
  exact
    { whole := fun hs => if_pos hs
      cut := hcut
      size := fun hs => hcut hs ▸ (clip_longest limit s).size hs }

/-- A text cut to a limit is its longest beginning of whole characters within it, and has the bytes
before the position between characters that stepping back from the limit comes to first. An error is
reported whole up to 512 bytes and abridged to them beyond, and so is the SQL of a log record with
the logger's own limit, if it has one. -/
theorem cut_between_characters :
    (∀ limit s, LongestWithin limit s (clip limit s) ∧
        (clip limit s).toByteArray = s.toByteArray.extract 0 (keptBytes limit s)) ∧
      (∀ text, ∃ t, Outcome.ofError text = .error t ∧ Abridges 512 text t) ∧
      ∀ (l : EventLogger) sql, (l.sqlLimit = none → l.abridgeSql sql = sql) ∧
        ∀ limit, l.sqlLimit = some limit → Abridges limit sql (l.abridgeSql sql) := by
  refine ⟨fun limit s => ⟨clip_longest limit s, toByteArray_clip limit s⟩,
    fun text => ⟨_, rfl, abridge_abridges 512 text⟩,
    fun l sql => ⟨fun hnone => ?_, fun limit hlimit => ?_⟩⟩
  · rw [EventLogger.abridgeSql, hnone]
  · rw [EventLogger.abridgeSql, hlimit]
    exact abridge_abridges limit sql

/-- Limits that lie within a character of two bytes: that of errors, and one of a logger. -/
theorem cut_between_characters_accented :
    let text := String.ofList ('x' :: List.replicate 300 'é')
    let l : EventLogger := { sqlLimit := some 2 }
    512 < text.utf8ByteSize ∧
      (∃ t, Outcome.ofError text = .error t ∧ t = clip 512 text ++ "..." ∧
        512 ≤ t.utf8ByteSize ∧ t.utf8ByteSize ≤ 515) ∧
      2 < "héllo".utf8ByteSize ∧ l.abridgeSql "héllo" = "h..." := by
  intro text l
  obtain ⟨-, herror, hsql⟩ := cut_between_characters
  have htext : 512 < text.utf8ByteSize := by
    rw [String.utf8ByteSize_ofList]
    decide +kernel
  have hword : 2 < "héllo".utf8ByteSize := by decide
  obtain ⟨t, ht, hcut⟩ := herror text
  refine ⟨htext, ⟨t, ht, hcut.cut htext, hcut.size htext⟩, hword, ?_⟩
  rw [((hsql l "héllo").2 2 rfl).cut hword]
  decide

end Text

end CheckedSql
