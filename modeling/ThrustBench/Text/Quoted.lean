import ThrustBench.Text.Unprintable

/-!
Texts shown in quotes, as messages show them.  Single quotes are used unless the text holds a
single quote and no double one; what has no printed form is written by its code point.
-/

namespace ThrustBench.Text

def hex (width n : Nat) : String :=
  let digits := Nat.toDigits 16 n
  String.ofList (List.replicate (width - digits.length) '0' ++ digits)

def quoteMark (s : String) : Char :=
  if s.toList.contains '\'' && !s.toList.contains '"' then '"' else '\''

def quotedChar (mark c : Char) : String :=
  if c = mark || c = '\\' then String.ofList ['\\', c]
  else if c = '\n' then "\\n"
  else if c = '\r' then "\\r"
  else if c = '\t' then "\\t"
  else if isPrintable c then String.ofList [c]
  else if c.toNat < 0x100 then "\\x" ++ hex 2 c.toNat
  else if c.toNat < 0x10000 then "\\u" ++ hex 4 c.toNat
  else "\\U" ++ hex 8 c.toNat

def quoted (s : String) : String :=
  let mark := quoteMark s
  String.ofList [mark] ++ String.join (s.toList.map (quotedChar mark)) ++ String.ofList [mark]

end ThrustBench.Text
