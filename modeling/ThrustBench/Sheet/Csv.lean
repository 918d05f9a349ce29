import ThrustBench.Sheet.Form

/-!
Comma separated values.  A field with a comma, a quotation mark or a line feed in it stands between
quotation marks, and its own quotation marks are written twice.  A line whose only field is empty
is written as two quotation marks, to tell it from an empty line.
-/

namespace ThrustBench.Sheet.Csv

def isSpecial (c : Char) : Bool := c == ',' || c == '"' || c == '\n'

def doubled : List Char → List Char
  | [] => []
  | c :: cs => if c = '"' then '"' :: '"' :: doubled cs else c :: doubled cs

def field (text : List Char) : List Char :=
  if text.any isSpecial then '"' :: (doubled text ++ ['"']) else text

def joined : List (List Char) → List Char
  | [] => []
  | [f] => f
  | f :: g :: fs => f ++ ',' :: joined (g :: fs)

def line (fields : List (List Char)) : List Char :=
  match fields with
  | [[]] => ['"', '"', '\n']
  | _ => joined (fields.map field) ++ ['\n']

def cellText (d : Datum) : List Char := if isMissing d then [] else d.shown.toList

end ThrustBench.Sheet.Csv
