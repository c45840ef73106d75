/-! Blank characters and the trimming they induce. Texts are lists of characters here, so that
the laws are laws of lists. -/

namespace MergeRisk.Text

/-- The characters with the Unicode property `White_Space`. -/
def isBlank (c : Char) : Bool :=
  let code := c.toNat
  (0x09 ≤ code && code ≤ 0x0D) || code == 0x20 || code == 0x85 || code == 0xA0 ||
    code == 0x1680 || (0x2000 ≤ code && code ≤ 0x200A) || code == 0x2028 || code == 0x2029 ||
    code == 0x202F || code == 0x205F || code == 0x3000

/-- Drop the characters satisfying `drops` from both ends. -/
def strip (drops : Char → Bool) (text : List Char) : List Char :=
  ((text.dropWhile drops).reverse.dropWhile drops).reverse

/-- Drop the blanks at both ends. -/
def trim (text : List Char) : List Char :=
  strip isBlank text

/-- The trimmed form of a string. -/
def trimmed (text : String) : String :=
  String.ofList (trim text.toList)

/-- The maximal runs of characters that are not blank. -/
def words (text : List Char) : List (List Char) :=
  (text.splitOnP isBlank).filter (!·.isEmpty)

private theorem dropWhile_fixed {drops : Char → Bool} {text : List Char}
    (kept : ∀ c ∈ text.head?, drops c = false) : text.dropWhile drops = text := by
  cases text with
  | nil => rfl
  | cons c rest => simp [kept c (by simp)]

private theorem head_dropWhile {drops : Char → Bool} (text : List Char) :
    ∀ c ∈ (text.dropWhile drops).head?, drops c = false := by
  induction text with
  | nil => simp
  | cons d rest ih =>
    by_cases dropped : drops d = true
    · simpa [List.dropWhile_cons, dropped] using ih
    · simp only [List.dropWhile_cons, dropped]
      intro c found
      simp_all

private theorem getLast_dropWhile {drops : Char → Bool} (text : List Char)
    (left : text.dropWhile drops ≠ []) :
    (text.dropWhile drops).getLast? = text.getLast? := by
  induction text with
  | nil => simp at left
  | cons d rest ih =>
    by_cases dropped : drops d = true
    · have left' : rest.dropWhile drops ≠ [] := by simpa [List.dropWhile_cons, dropped] using left
      have nonempty : rest ≠ [] := by intro empty; simp [empty] at left'
      simp only [List.dropWhile_cons, dropped, if_true, ih left']
      cases rest with
      | nil => exact absurd rfl nonempty
      | cons _ _ => simp
    · simp [dropped]

/-- The first character that stripping leaves is one it keeps. -/
theorem strip_head {drops : Char → Bool} (text : List Char) :
    ∀ c ∈ (strip drops text).head?, drops c = false := by
  intro c found
  unfold strip at found
  rw [List.head?_reverse] at found
  have nonempty : (text.dropWhile drops).reverse.dropWhile drops ≠ [] := by
    intro empty; simp [empty] at found
  rw [getLast_dropWhile _ nonempty, List.getLast?_reverse] at found
  exact head_dropWhile text c found

/-- A text that neither starts nor ends with a dropped character is left alone. -/
theorem strip_fixed {drops : Char → Bool} {text : List Char}
    (first : ∀ c ∈ text.head?, drops c = false) (last : ∀ c ∈ text.getLast?, drops c = false) :
    strip drops text = text := by
  unfold strip
  rw [dropWhile_fixed first, dropWhile_fixed (by simpa [List.head?_reverse] using last)]
  simp

end MergeRisk.Text
