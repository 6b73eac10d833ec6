/-!
# WordDuel.Text.Blank

**White space** in the sense of the Unicode property White_Space, and trimming
by it. Zero-width spaces and the byte order mark do not have the property.
-/

namespace WordDuel.Text

/-- The code points with the property White_Space, as inclusive ranges in order. -/
def blankRanges : List (Nat × Nat) :=
  [(0x09, 0x0D), (0x20, 0x20), (0x85, 0x85), (0xA0, 0xA0), (0x1680, 0x1680),
   (0x2000, 0x200A), (0x2028, 0x2029), (0x202F, 0x202F), (0x205F, 0x205F), (0x3000, 0x3000)]

/-- Whether a character is white space. -/
def isBlank (c : Char) : Bool :=
  blankRanges.any fun r => r.1 ≤ c.toNat && c.toNat ≤ r.2

/-- Drop white space at both ends of a list of characters. -/
def trimChars (cs : List Char) : List Char :=
  ((cs.dropWhile isBlank).reverse.dropWhile isBlank).reverse

/-- Drop white space at both ends. -/
def trim (s : String) : String := String.ofList (trimChars s.toList)

/-- Whether nothing but white space is in the text. -/
def isBlankText (s : String) : Bool := s.toList.all isBlank

/-- Every character that core calls white space has the property. -/
theorem isBlank_of_isWhitespace {c : Char} (h : c.isWhitespace) : isBlank c := by
  simp only [Char.isWhitespace, Bool.or_eq_true, decide_eq_true_eq] at h
  rcases h with ((rfl | rfl) | rfl) | rfl <;> decide

@[simp] theorem trimChars_nil : trimChars [] = [] := rfl

end WordDuel.Text
