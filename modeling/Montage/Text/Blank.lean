/-!
# Blank characters

The white space of the Unicode standard, which is what makes a caption blank.
-/

namespace Montage.Text

/-- The code points with the White_Space property. -/
def blankRanges : List (Nat × Nat) :=
  [(0x09, 0x0D), (0x20, 0x20), (0x85, 0x85), (0xA0, 0xA0), (0x1680, 0x1680), (0x2000, 0x200A),
   (0x2028, 0x2029), (0x202F, 0x202F), (0x205F, 0x205F), (0x3000, 0x3000)]

/-- Whether a character is white space. -/
def isBlank (c : Char) : Bool :=
  blankRanges.any fun (least, greatest) => least ≤ c.toNat && c.toNat ≤ greatest

/-- Whether a text has nothing but white space. -/
def allBlank (text : String) : Bool :=
  text.toList.all isBlank

example : blankRanges.length = 10 := rfl

example : isBlank ' ' ∧ isBlank '\t' ∧ isBlank '\n' ∧ isBlank '\r' := by decide

end Montage.Text
