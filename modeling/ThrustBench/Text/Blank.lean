/-!
White space of all scripts, and its removal from the ends of a text.
-/

namespace ThrustBench.Text

/-- Code points of white space outside the two runs `U+0009` to `U+000D` and `U+2000` to
`U+200A`, and outside the four separators `U+001C` to `U+001F`. -/
def loneBlanks : List Nat :=
  [0x20, 0x85, 0xa0, 0x1680, 0x2028, 0x2029, 0x202f, 0x205f, 0x3000]

/-- White space of any script, the separators `U+001C` to `U+001F` included. -/
def isBlank (c : Char) : Bool :=
  (0x09 ≤ c.toNat && c.toNat ≤ 0x0d) || (0x1c ≤ c.toNat && c.toNat ≤ 0x1f)
    || (0x2000 ≤ c.toNat && c.toNat ≤ 0x200a) || loneBlanks.contains c.toNat

def isPlainBlank (c : Char) : Bool :=
  c.toNat == 0x20 || (0x09 ≤ c.toNat && c.toNat ≤ 0x0d)

def trimBy (drop : Char → Bool) (cs : List Char) : List Char :=
  ((cs.dropWhile drop).reverse.dropWhile drop).reverse

def trim (s : String) : String := String.ofList (trimBy isBlank s.toList)

def trimEnd (s : String) : String :=
  String.ofList ((s.toList.reverse.dropWhile isBlank).reverse)

end ThrustBench.Text
