import ThrustBench.Text.Quoted

/-!
UTF-8.  A byte string is cut into pieces, each a character or a longest run of bytes that starts a
character and is cut short.  `decodeLossy` shows a broken piece as the replacement character,
`decode?` refuses it and says where it stands.
-/

namespace ThrustBench.Text

inductive Utf8Reason where
  | badStart
  | badContinuation
  | unexpectedEnd
  deriving DecidableEq

inductive Utf8Piece where
  | char (c : Char)
  | broken (reason : Utf8Reason)
  deriving DecidableEq

/-- What the first byte of a character promises: how many bytes follow, the range of the next one,
and the bits it brings. -/
structure Utf8Lead where
  more : Nat
  low : Nat
  high : Nat
  bits : Nat

def utf8Lead? (b : Nat) : Option Utf8Lead :=
  if b < 0x80 then some ⟨0, 0x80, 0xbf, b⟩
  else if b < 0xc2 then none
  else if b < 0xe0 then some ⟨1, 0x80, 0xbf, b - 0xc0⟩
  else if b = 0xe0 then some ⟨2, 0xa0, 0xbf, 0⟩
  else if b = 0xed then some ⟨2, 0x80, 0x9f, 0xd⟩
  else if b < 0xf0 then some ⟨2, 0x80, 0xbf, b - 0xe0⟩
  else if b = 0xf0 then some ⟨3, 0x90, 0xbf, 0⟩
  else if b < 0xf4 then some ⟨3, 0x80, 0xbf, b - 0xf0⟩
  else if b = 0xf4 then some ⟨3, 0x80, 0x8f, 4⟩
  else none

/-- The bytes that should complete a character: the piece, and how many of them belong to it. -/
def utf8Tail : Nat → Nat → Nat → Nat → List UInt8 → Utf8Piece × Nat
  | 0, _, _, bits, _ => (.char (Char.ofNat bits), 0)
  | _ + 1, _, _, _, [] => (.broken .unexpectedEnd, 0)
  | more + 1, low, high, bits, b :: bs =>
    if low ≤ b.toNat ∧ b.toNat ≤ high then
      let rest := utf8Tail more 0x80 0xbf (64 * bits + (b.toNat - 0x80)) bs
      (rest.1, rest.2 + 1)
    else (.broken .badContinuation, 0)

def utf8Piece (b : UInt8) (bs : List UInt8) : Utf8Piece × Nat :=
  match utf8Lead? b.toNat with
  | none => (.broken .badStart, 0)
  | some lead => utf8Tail lead.more lead.low lead.high lead.bits bs

def utf8Pieces : List UInt8 → List (Utf8Piece × Nat)
  | [] => []
  | b :: bs =>
    let piece := utf8Piece b bs
    (piece.1, piece.2 + 1) :: utf8Pieces (bs.drop piece.2)
  termination_by bytes => bytes.length
  decreasing_by simp only [List.length_drop, List.length_cons]; omega

def Utf8Piece.shown : Utf8Piece → Char
  | .char c => c
  | .broken _ => Char.ofNat 0xfffd

def decodeLossy (bytes : List UInt8) : String :=
  String.ofList ((utf8Pieces bytes).map fun piece => piece.1.shown)

structure Utf8Fault where
  reason : Utf8Reason
  first : UInt8
  position : Nat
  length : Nat
  deriving DecidableEq

def Utf8Reason.text : Utf8Reason → String
  | .badStart => "invalid start byte"
  | .badContinuation => "invalid continuation byte"
  | .unexpectedEnd => "unexpected end of data"

def Utf8Fault.message (fault : Utf8Fault) : String :=
  let place :=
    if fault.length = 1 then
      "byte 0x" ++ hex 2 fault.first.toNat ++ " in position " ++ toString fault.position
    else
      "bytes in position " ++ toString fault.position ++ "-"
        ++ toString (fault.position + fault.length - 1)
  "'utf-8' codec can't decode " ++ place ++ ": " ++ fault.reason.text

def collectPieces (bytes : List UInt8) : Nat → List (Utf8Piece × Nat) →
    Except Utf8Fault (List Char)
  | _, [] => .ok []
  | position, (.char c, length) :: pieces => do
    let cs ← collectPieces bytes (position + length) pieces
    return c :: cs
  | position, (.broken reason, length) :: _ =>
    .error ⟨reason, (bytes[position]?).getD 0, position, length⟩

def decode? (bytes : List UInt8) : Except Utf8Fault String :=
  (collectPieces bytes 0 (utf8Pieces bytes)).map String.ofList

def unixLines : List Char → List Char
  | '\r' :: '\n' :: cs => '\n' :: unixLines cs
  | '\r' :: cs => '\n' :: unixLines cs
  | c :: cs => c :: unixLines cs
  | [] => []

end ThrustBench.Text
