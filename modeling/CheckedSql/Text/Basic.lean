/-
Texts by their characters: white space as the Unicode property White_Space has it, with the words of
a text and the text without the blanks around it; letter case, for ASCII letters only; and cutting a
text to a number of UTF-8 bytes without cutting a character.
-/

namespace CheckedSql.Text

/-! ## Blanks and words -/

/-- The code point ranges of White_Space, first and last included, in ascending order. -/
def blankRanges : List (Nat × Nat) :=
  [(0x09, 0x0D), (0x20, 0x20), (0x85, 0x85), (0xA0, 0xA0), (0x1680, 0x1680), (0x2000, 0x200A),
    (0x2028, 0x2029), (0x202F, 0x202F), (0x205F, 0x205F), (0x3000, 0x3000)]

/-- A character of White_Space. -/
def isBlank (c : Char) : Bool :=
  blankRanges.any fun r => r.1 ≤ c.toNat && c.toNat ≤ r.2

/-- The pieces between single blanks. Two neighbouring blanks have an empty piece between them. -/
def pieces : List Char → List (List Char)
  | [] => [[]]
  | c :: cs =>
    if isBlank c then [] :: pieces cs
    else
      match pieces cs with
      | [] => [[c]]
      | w :: ws => (c :: w) :: ws

/-- The maximal runs of characters that are not blank, in order. -/
def runs (cs : List Char) : List (List Char) :=
  (pieces cs).filter (!·.isEmpty)

/-- The words of a text. -/
def words (s : String) : List String :=
  (runs s.toList).map String.ofList

/-- The text without the blanks before its first and after its last word. -/
def trim (s : String) : String :=
  String.ofList ((s.toList.dropWhile isBlank).reverse.dropWhile isBlank).reverse

/-! ## Letter case -/

/-- ASCII letters in upper case, every other character as it is. -/
def upper (s : String) : String :=
  String.ofList (s.toList.map Char.toUpper)

/-- Equal but for the case of ASCII letters. -/
def sameButCase (s t : String) : Bool :=
  upper s == upper t

/-! ## Cutting -/

/-- The longest beginning of the characters that fits in `room` bytes of UTF-8. -/
def clipChars (room : Nat) : List Char → List Char
  | [] => []
  | c :: cs => if c.utf8Size ≤ room then c :: clipChars (room - c.utf8Size) cs else []

/-- The longest beginning of the text that ends on a character and has at most `limit` bytes. -/
def clip (limit : Nat) (s : String) : String :=
  String.ofList (clipChars limit s.toList)

/-- A text of at most `limit` bytes as it is, a longer one cut to the limit and marked with dots. -/
def abridge (limit : Nat) (s : String) : String :=
  if s.utf8ByteSize ≤ limit then s else clip limit s ++ "..."

end CheckedSql.Text
