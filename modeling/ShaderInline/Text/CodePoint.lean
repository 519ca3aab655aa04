/-!
# Sets of code points

A character class of the Unicode standard is given by the inclusive ranges of its code points, in
increasing order, so that a search may stop at the first range that begins beyond the character.
-/
namespace ShaderInline.Text

/-- Whether `c` lies in one of `ranges`, which are in increasing order. -/
def inRanges : List (Nat × Nat) → Char → Bool
  | [], _ => false
  | (low, high) :: ranges, c =>
    if c.toNat < low then false else c.toNat ≤ high || inRanges ranges c

end ShaderInline.Text
