/-!
# Blank characters

The characters of the Unicode property `White_Space`, and trimming a text on both sides.

Key results:
* `isBlank_of_isWhitespace` — the table covers every character that core calls white space
* `isBlank_getLast_trim` — a trimmed text does not end with a blank
* `trim_eq_self` — a text without blanks at its ends stays as it is
-/

namespace ProtoSchema.Text

/-- The code points of the property `White_Space`, as closed ranges in ascending order. -/
def blankRanges : List (Nat × Nat) :=
  [(0x9, 0xD), (0x20, 0x20), (0x85, 0x85), (0xA0, 0xA0), (0x1680, 0x1680), (0x2000, 0x200A),
   (0x2028, 0x2029), (0x202F, 0x202F), (0x205F, 0x205F), (0x3000, 0x3000)]

/-- Whether some range of `ranges` holds the code point of `c`. -/
def inRanges (ranges : List (Nat × Nat)) (c : Char) : Bool :=
  ranges.any fun (lo, hi) => lo ≤ c.toNat && c.toNat ≤ hi

/-- Whether `c` has the property `White_Space`. -/
def isBlank (c : Char) : Bool :=
  inRanges blankRanges c

/-- Drops the blanks at both ends. -/
def trim (s : List Char) : List Char :=
  ((s.dropWhile isBlank).reverse.dropWhile isBlank).reverse

/-- Core's white space is blank. -/
theorem isBlank_of_isWhitespace {c : Char} (h : c.isWhitespace = true) : isBlank c = true := by
  simp only [Char.isWhitespace, Bool.or_eq_true, decide_eq_true_eq] at h
  rcases h with ((rfl | rfl) | rfl) | rfl <;> decide

/-- Dropping blanks leaves a text that is empty or starts with another character. -/
theorem isBlank_head_dropWhile {s : List Char} {c : Char} {r : List Char}
    (h : s.dropWhile isBlank = c :: r) : isBlank c = false := by
  induction s with
  | nil => simp at h
  | cons d t ih =>
    rw [List.dropWhile_cons] at h
    split at h
    · exact ih h
    · cases h
      simpa using ‹¬isBlank c = true›

/-- The last character of a trimmed text is not blank. -/
theorem isBlank_getLast_trim {s r : List Char} {c : Char} (h : trim s = r ++ [c]) :
    isBlank c = false := by
  have hr : (s.dropWhile isBlank).reverse.dropWhile isBlank = c :: r.reverse := by
    have := congrArg List.reverse h
    simpa [trim] using this
  exact isBlank_head_dropWhile hr

/-- A text without blanks at its ends stays as it is. -/
theorem trim_eq_self {s : List Char} (hfirst : ∀ c ∈ s.head?, isBlank c = false)
    (hlast : ∀ c ∈ s.getLast?, isBlank c = false) : trim s = s := by
  have hdrop : ∀ t : List Char, (∀ c ∈ t.head?, isBlank c = false) → t.dropWhile isBlank = t := by
    intro t ht
    cases t with
    | nil => rfl
    | cons c t => rw [List.dropWhile_cons, if_neg (by simp [ht c rfl])]
  rw [trim, hdrop s hfirst, hdrop s.reverse (by rwa [List.head?_reverse]), List.reverse_reverse]

end ProtoSchema.Text
