import ThrustBench.Grammar.Mismatch

/-!
Rules that derive texts without a separate division into words.  At each place every terminal that
a rule allows is looked for there, after anything that may be skipped, and takes one run of
characters.  A rule finds all the ways it can derive a beginning of a text, and notes where it
looked for which terminal, so that a refusal can tell what it expected.
-/

namespace ThrustBench.Grammar

structure Lexicon (τ : Type) where
  name : τ → String
  /-- The run of characters a terminal takes at the beginning of a text, and the rest. -/
  cut : τ → List Char → Option (List Char × List Char)
  skip : List Char → List Char

/-- What a rule makes of a text: each way to derive a beginning of it, with the rest of the text,
and each terminal that was looked for, with the number of characters left there. -/
structure Scan (τ α : Type) where
  found : List (α × List Char)
  tried : List (Nat × τ)

def Rule (τ α : Type) : Type := List Char → Scan τ α

namespace Rule

variable {τ α β : Type}

def none : Rule τ α := fun _ => ⟨[], []⟩

def pure (a : α) : Rule τ α := fun cs => ⟨[(a, cs)], []⟩

def bind (p : Rule τ α) (f : α → Rule τ β) : Rule τ β := fun cs =>
  let first := p cs
  let second := first.found.map fun r => f r.1 r.2
  ⟨second.flatMap Scan.found, first.tried ++ second.flatMap Scan.tried⟩

instance : Monad (Rule τ) where
  pure := pure
  bind := bind

def terminal (lexicon : Lexicon τ) (t : τ) : Rule τ (List Char) := fun cs =>
  let place := lexicon.skip cs
  ⟨(lexicon.cut t place).toList, [(place.length, t)]⟩

/-- Either of two rules.  Of two derivations of the same text the first rule's is kept. -/
def either (p q : Rule τ α) : Rule τ α := fun cs =>
  let first := p cs
  let second := q cs
  ⟨first.found ++ second.found.filter fun r =>
      !first.found.any fun s => s.2.length == r.2.length,
    first.tried ++ second.tried⟩

def oneOf : List (Rule τ α) → Rule τ α
  | [] => none
  | p :: ps => either p (oneOf ps)

abbrev Way (α : Type) : Type := List α × List Char

/-- Puts a way among others in the order of the text.  Of two ways to the same place the one that
came first is kept, whose last value then takes as much of the text as it can. -/
def enqueue (ways : List (Way α)) (way : Way α) : List (Way α) :=
  match ways with
  | [] => [way]
  | other :: ways =>
    if other.2.length < way.2.length then way :: other :: ways
    else if other.2.length = way.2.length then other :: ways
    else other :: enqueue ways way

/-- Follows ways further, the one that took the least of the text first, at most `bound` times. -/
def follow (p : Rule τ α) : Nat → List (Way α) → Scan τ (List α)
  | 0, _ => ⟨[], []⟩
  | _, [] => ⟨[], []⟩
  | bound + 1, way :: ways =>
    let next := p way.2
    let further := (next.found.map fun r => (r.1 :: way.1, r.2)).foldl enqueue ways
    let later := follow p bound further
    ⟨later.found ++ [(way.1.reverse, way.2)], next.tried ++ later.tried⟩

/-- A rule any number of times.  A rule of a language takes one character at least, so that a text
has no more places to follow than its characters and its end. -/
def star (p : Rule τ α) : Rule τ (List α) := fun cs => follow p (cs.length + 1) [([], cs)]

def plus (p : Rule τ α) : Rule τ (List α) := do
  let first ← p
  let rest ← star p
  return first :: rest

def optional (p : Rule τ α) : Rule τ (Option α) :=
  either (do return some (← p)) (pure Option.none)

/-- The terminals that were looked for at the furthest place, and how many characters are left
there. -/
def furthest (tried : List (Nat × τ)) (length : Nat) : Nat × List τ :=
  let left := tried.foldl (fun left attempt => min left attempt.1) length
  (left, (tried.filter fun attempt => attempt.1 == left).map Prod.snd)

def names (lexicon : Lexicon τ) (ts : List τ) : List String :=
  ((ts.map lexicon.name).eraseDups).mergeSort fun a b => decide (a ≤ b)

def derive (lexicon : Lexicon τ) (rule : Rule τ α) (text : List Char) : Except Mismatch α :=
  let scan := rule text
  match scan.found.find? fun r => (lexicon.skip r.2).isEmpty with
  | some r => .ok r.1
  | Option.none =>
    let (left, expected) := furthest scan.tried text.length
    .error ⟨text, text.length - left, names lexicon expected⟩

end Rule

end ThrustBench.Grammar
