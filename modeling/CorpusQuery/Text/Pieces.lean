/-!
# Taking texts apart

Operations on texts as lists of characters: the text without the white space at its ends, the part
of a text around the first occurrence of a pattern, the pieces between separators, and lines.
`isBlank` holds of the 25 characters with the Unicode property `White_Space`; `after?_eq_some_iff`
says what it is to start with a pattern.
-/

namespace CorpusQuery.Text

/-! ## White space -/

/-- A white space character. -/
def isBlank (c : Char) : Bool :=
  let n := c.toNat
  (9 ≤ n && n ≤ 13) || n == 0x20 || n == 0x85 || n == 0xA0 || n == 0x1680 ||
    (0x2000 ≤ n && n ≤ 0x200A) || n == 0x2028 || n == 0x2029 || n == 0x202F || n == 0x205F ||
    n == 0x3000

/-- The text without the white space at its end. -/
def trimEnd (s : List Char) : List Char :=
  (s.reverse.dropWhile isBlank).reverse

/-- The text without the white space at its two ends. -/
def trim (s : List Char) : List Char :=
  trimEnd (s.dropWhile isBlank)

/-! ## Patterns and pieces -/

/-- The text after `pattern`, if the text starts with it. -/
def after? : List Char → List Char → Option (List Char)
  | [], s => some s
  | _ :: _, [] => none
  | p :: pattern, c :: s => if p = c then after? pattern s else none

/-- Looks for `pattern` in `rest`; `passed` holds the characters before `rest`, last one first. -/
def cutFrom? (pattern passed rest : List Char) : Option (List Char × List Char) :=
  match after? pattern rest with
  | some after => some (passed.reverse, after)
  | none =>
    match rest with
    | [] => none
    | c :: rest => cutFrom? pattern (c :: passed) rest

/-- The text before the first occurrence of `pattern`, and the text after that occurrence. -/
def cut? (pattern s : List Char) : Option (List Char × List Char) :=
  cutFrom? pattern [] s

/-- Whether `pattern` occurs in the text. -/
def occursIn (pattern : List Char) : List Char → Bool
  | [] => pattern.isEmpty
  | c :: rest => pattern.isPrefixOf (c :: rest) || occursIn pattern rest

/-- The list of words with `c` put in front of its first word. -/
def consWord (c : Char) : List (List Char) → List (List Char)
  | [] => [[c]]
  | word :: words => (c :: word) :: words

/-- The pieces of a text between the occurrences of `separator`; at least one. -/
def splitOn (separator : Char) (s : List Char) : List (List Char) :=
  s.foldr (fun c pieces => if c = separator then [] :: pieces else consWord c pieces) [[]]

/-- The pieces of a string between the occurrences of `separator`; at least one. -/
def splitString (separator : Char) (s : String) : List String :=
  (splitOn separator s.toList).map String.ofList

/-- The text cut after every newline; each line keeps its newline, the last may lack one. -/
def linesWithEnds (s : List Char) : List (List Char) :=
  s.foldr (fun c lines => if c = '\n' then [c] :: lines else consWord c lines) []

/-- A line without its newline and without a carriage return just before that newline. -/
def lineContent (line : List Char) : List Char :=
  match line.reverse with
  | '\n' :: '\r' :: rest => rest.reverse
  | '\n' :: rest => rest.reverse
  | _ => line

/-- The lines of a text, without their ends. -/
def lines (s : String) : List String :=
  (linesWithEnds s.toList).map fun line => String.ofList (lineContent line)

theorem after?_eq_some_iff {pattern s rest : List Char} :
    after? pattern s = some rest ↔ s = pattern ++ rest := by
  induction pattern generalizing s with
  | nil => simp [after?]
  | cons p pattern ih =>
    cases s with
    | nil => simp [after?]
    | cons c s =>
      by_cases h : p = c
      · simp [after?, h, ih]
      · simp [after?, h, Ne.symm h]

/-- What comes after a pattern is shorter than the text that was searched. -/
theorem length_lt_of_cutFrom? {pattern passed rest before after : List Char} (hne : pattern ≠ [])
    (h : cutFrom? pattern passed rest = some (before, after)) : after.length < rest.length := by
  induction rest generalizing passed with
  | nil =>
    cases pattern with
    | nil => exact absurd rfl hne
    | cons p pattern => simp [cutFrom?, after?] at h
  | cons c rest ih =>
    unfold cutFrom? at h
    split at h
    · rename_i tail heq
      obtain ⟨-, rfl⟩ := Prod.mk.inj (Option.some.inj h)
      have hlen := congrArg List.length (after?_eq_some_iff.mp heq)
      have hpos := List.length_pos_iff.mpr hne
      simp only [List.length_cons, List.length_append] at hlen ⊢
      omega
    · exact Nat.lt_succ_of_lt (ih h)

theorem length_lt_of_cut? {pattern s before after : List Char} (hne : pattern ≠ [])
    (h : cut? pattern s = some (before, after)) : after.length < s.length :=
  length_lt_of_cutFrom? hne h

end CorpusQuery.Text
