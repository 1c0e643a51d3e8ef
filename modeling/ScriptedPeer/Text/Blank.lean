/-!
# White space

The characters of the Unicode property White_Space, and text with them removed from both ends.
-/

namespace ScriptedPeer.Text

def isBlank (c : Char) : Bool :=
  let n := c.toNat
  (0x09 ≤ n && n ≤ 0x0d) || n == 0x20 || n == 0x85 || n == 0xa0 || n == 0x1680 ||
  (0x2000 ≤ n && n ≤ 0x200a) || n == 0x2028 || n == 0x2029 || n == 0x202f || n == 0x205f ||
  n == 0x3000

def trimStart (cs : List Char) : List Char := cs.dropWhile isBlank

/-- Blanks inside the text stay. -/
def trim (cs : List Char) : List Char := (trimStart (trimStart cs).reverse).reverse

@[simp] theorem trim_nil : trim [] = [] := rfl

theorem trimStart_eq_self {c : Char} {cs : List Char} (h : isBlank c = false) :
    trimStart (c :: cs) = c :: cs := by simp [trimStart, h]

end ScriptedPeer.Text
