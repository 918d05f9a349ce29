/-!
Decimal digits of all scripts.  Every decimal digit of Unicode stands in a run of ten, in order of
value, so a table of the ten zeros' code points is enough.
-/

namespace ThrustBench.Text

def zeroDigits : List Nat :=
  [0x30, 0x660, 0x6f0, 0x7c0, 0x966, 0x9e6, 0xa66, 0xae6, 0xb66, 0xbe6, 0xc66, 0xce6, 0xd66,
    0xde6, 0xe50, 0xed0, 0xf20, 0x1040, 0x1090, 0x17e0, 0x1810, 0x1946, 0x19d0, 0x1a80, 0x1a90,
    0x1b50, 0x1bb0, 0x1c40, 0x1c50, 0xa620, 0xa8d0, 0xa900, 0xa9d0, 0xa9f0, 0xaa50, 0xabf0,
    0xff10, 0x104a0, 0x10d30, 0x11066, 0x110f0, 0x11136, 0x111d0, 0x112f0, 0x11450, 0x114d0,
    0x11650, 0x116c0, 0x11730, 0x118e0, 0x11950, 0x11c50, 0x11d50, 0x11da0, 0x16a60, 0x16ac0,
    0x16b50, 0x1d7ce, 0x1d7d8, 0x1d7e2, 0x1d7ec, 0x1d7f6, 0x1e140, 0x1e2f0, 0x1e950, 0x1fbf0]

def digit? (c : Char) : Option Nat :=
  (zeroDigits.find? fun first => first ≤ c.toNat ∧ c.toNat < first + 10).map (c.toNat - ·)

def isDigit (c : Char) : Bool := (digit? c).isSome

theorem exists_zeroDigit {c : Char} (digit : isDigit c = true) :
    ∃ first ∈ zeroDigits, first ≤ c.toNat ∧ c.toNat < first + 10 := by
  obtain ⟨value, found⟩ := Option.isSome_iff_exists.mp digit
  obtain ⟨first, run, _⟩ := Option.map_eq_some_iff.mp found
  have inside := List.find?_some run
  simp only [decide_eq_true_eq] at inside
  exact ⟨first, List.mem_of_find?_eq_some run, inside⟩

theorem isDigit_range {c : Char} (digit : isDigit c = true) :
    48 ≤ c.toNat ∧ c.toNat < 58 ∨ 1632 ≤ c.toNat := by
  obtain ⟨first, member, inside⟩ := exists_zeroDigit digit
  have runs : ∀ first ∈ zeroDigits, first = 48 ∨ 1632 ≤ first := by decide
  rcases runs first member with plain | far
  · left; omega
  · right; omega

def digitsValue (cs : List Char) : Nat :=
  cs.foldl (fun total c => 10 * total + (digit? c).getD 0) 0

end ThrustBench.Text
