import ThrustBench.Grammar.Tree

/-!
Routines: the terms of the language, the terminals they are written with, and their trees.
-/

namespace ThrustBench.Routine

/-- The words of the language.  None of them is reserved. -/
inductive Keyword where
  | setPwm
  | wait
  | readSensor
  | branch
  | whenTrue
  | whenFalse
  | loop
  deriving DecidableEq

def Keyword.text : Keyword → String
  | setPwm => "SET_PWM"
  | wait => "WAIT"
  | readSensor => "READ_SENSOR"
  | branch => "IF"
  | whenTrue => "THEN"
  | whenFalse => "ELSE"
  | loop => "REPEAT"

inductive Comparison where
  | atLeast
  | atMost
  | more
  | less
  | equal
  | different
  deriving DecidableEq

namespace Comparison

def all : List Comparison := [atLeast, atMost, more, less, equal, different]

def text : Comparison → String
  | atLeast => ">="
  | atMost => "<="
  | more => ">"
  | less => "<"
  | equal => "=="
  | different => "!="

end Comparison

inductive Sign where
  | assign
  | openBrace
  | closeBrace
  | plus
  | minus
  | times
  | divide
  | openParen
  | closeParen
  deriving DecidableEq

def Sign.text : Sign → String
  | assign => "="
  | openBrace => "\x7b"
  | closeBrace => "\x7d"
  | plus => "+"
  | minus => "-"
  | times => "*"
  | divide => "/"
  | openParen => "("
  | closeParen => ")"

inductive Terminal where
  | keyword (k : Keyword)
  | name
  | number
  | sign (s : Sign)
  | comparison (c : Comparison)
  deriving DecidableEq

def Terminal.label : Terminal → String
  | keyword k => k.text
  | name => "NAME"
  | number => "NUMBER"
  | sign .assign => "EQUAL"
  | sign .openBrace => "LBRACE"
  | sign .closeBrace => "RBRACE"
  | sign .plus => "PLUS"
  | sign .minus => "MINUS"
  | sign .times => "STAR"
  | sign .divide => "SLASH"
  | sign .openParen => "LPAR"
  | sign .closeParen => "RPAR"
  | comparison .atLeast => "__ANON_0"
  | comparison .atMost => "__ANON_1"
  | comparison .more => "MORETHAN"
  | comparison .less => "LESSTHAN"
  | comparison .equal => "__ANON_2"
  | comparison .different => "__ANON_3"

inductive AddOp where
  | plus
  | minus
  deriving DecidableEq

inductive MulOp where
  | times
  | divide
  deriving DecidableEq

def AddOp.sign : AddOp → Sign
  | plus => .plus
  | minus => .minus

def MulOp.sign : MulOp → Sign
  | times => .times
  | divide => .divide

mutual

inductive Expr where
  | plain (sum : Sum)
  | compare (left : Sum) (comparison : Comparison) (right : Sum)

inductive Sum where
  | mk (first : Product) (rest : Terms)

inductive Terms where
  | nil
  | cons (op : AddOp) (next : Product) (rest : Terms)

inductive Product where
  | mk (first : Atom) (rest : Factors)

inductive Factors where
  | nil
  | cons (op : MulOp) (next : Atom) (rest : Factors)

inductive Atom where
  | number (text : List Char)
  | name (text : List Char)
  | group (inner : Expr)

end

def Terms.ofList : List (AddOp × Product) → Terms
  | [] => .nil
  | t :: ts => .cons t.1 t.2 (ofList ts)

def Factors.ofList : List (MulOp × Atom) → Factors
  | [] => .nil
  | f :: fs => .cons f.1 f.2 (ofList fs)

inductive Stmt where
  | setPwm (channel value : List Char)
  | wait (seconds : List Char)
  | readSensor (sensor : List Char)
  | readAssign (target sensor : List Char)
  | assign (target : List Char) (value : Expr)
  | branch (condition : Expr) (whenTrue : List Stmt)
  | branchElse (condition : Expr) (whenTrue whenFalse : List Stmt)
  | loop (count : List Char) (body : List Stmt)
  | block (body : List Stmt)

abbrev Lexeme : Type := Terminal × List Char

def lexKeyword (k : Keyword) : Lexeme := (.keyword k, k.text.toList)
def lexSign (s : Sign) : Lexeme := (.sign s, s.text.toList)
def lexName (text : List Char) : Lexeme := (.name, text)
def lexNumber (text : List Char) : Lexeme := (.number, text)

mutual

def Expr.lexemes : Expr → List Lexeme
  | .plain sum => sum.lexemes
  | .compare left c right => left.lexemes ++ (.comparison c, c.text.toList) :: right.lexemes

def Sum.lexemes : Sum → List Lexeme
  | .mk first rest => first.lexemes ++ rest.lexemes

def Terms.lexemes : Terms → List Lexeme
  | .nil => []
  | .cons op next rest => lexSign op.sign :: (next.lexemes ++ rest.lexemes)

def Product.lexemes : Product → List Lexeme
  | .mk first rest => first.lexemes ++ rest.lexemes

def Factors.lexemes : Factors → List Lexeme
  | .nil => []
  | .cons op next rest => lexSign op.sign :: (next.lexemes ++ rest.lexemes)

def Atom.lexemes : Atom → List Lexeme
  | .number text => [lexNumber text]
  | .name text => [lexName text]
  | .group inner => lexSign .openParen :: (inner.lexemes ++ [lexSign .closeParen])

end

def braced (inside : List Lexeme) : List Lexeme :=
  lexSign .openBrace :: (inside ++ [lexSign .closeBrace])

mutual

def Stmt.lexemes : Stmt → List Lexeme
  | .setPwm channel value => [lexKeyword .setPwm, lexName channel, lexNumber value]
  | .wait seconds => [lexKeyword .wait, lexNumber seconds]
  | .readSensor sensor => [lexKeyword .readSensor, lexName sensor]
  | .readAssign target sensor =>
    [lexName target, lexSign .assign, lexKeyword .readSensor, lexName sensor]
  | .assign target value => lexName target :: lexSign .assign :: value.lexemes
  | .branch condition whenTrue =>
    lexKeyword .branch ::
      (condition.lexemes ++ lexKeyword .whenTrue :: braced (lexemesAll whenTrue))
  | .branchElse condition whenTrue whenFalse =>
    lexKeyword .branch :: (condition.lexemes ++ lexKeyword .whenTrue ::
      (braced (lexemesAll whenTrue) ++ lexKeyword .whenFalse :: braced (lexemesAll whenFalse)))
  | .loop count body => lexKeyword .loop :: lexNumber count :: braced (lexemesAll body)
  | .block body => braced (lexemesAll body)

def lexemesAll : List Stmt → List Lexeme
  | [] => []
  | s :: ss => s.lexemes ++ lexemesAll ss

end

open Grammar (Tree)

def nameToken (text : List Char) : Tree := .token "NAME" (String.ofList text)
def numberToken (text : List Char) : Tree := .token "NUMBER" (String.ofList text)

mutual

/-- An expression as a tree.  Operators are left out; a comparison leaves a node without parts. -/
def Expr.tree : Expr → Tree
  | .plain sum => .node "cmp" [sum.tree]
  | .compare left _ right => .node "cmp" [left.tree, .node "comp_op" [], right.tree]

def Sum.tree : Sum → Tree
  | .mk first rest => .node "fold_bin" (first.tree :: rest.trees)

def Terms.trees : Terms → List Tree
  | .nil => []
  | .cons _ next rest => next.tree :: rest.trees

def Product.tree : Product → Tree
  | .mk first rest => .node "fold_bin" (first.tree :: rest.trees)

def Factors.trees : Factors → List Tree
  | .nil => []
  | .cons _ next rest => next.tree :: rest.trees

def Atom.tree : Atom → Tree
  | .number text => .node "number" [numberToken text]
  | .name text => .node "var" [nameToken text]
  | .group inner => inner.tree

end

mutual

def Stmt.tree : Stmt → Tree
  | .setPwm channel value => .node "set_pwm" [nameToken channel, numberToken value]
  | .wait seconds => .node "wait" [numberToken seconds]
  | .readSensor sensor => .node "read_sensor" [nameToken sensor]
  | .readAssign target sensor => .node "read_assign" [nameToken target, nameToken sensor]
  | .assign target value => .node "assign" [nameToken target, value.tree]
  | .branch condition whenTrue =>
    .node "if_stmt" [condition.tree, .node "block" (trees whenTrue)]
  | .branchElse condition whenTrue whenFalse =>
    .node "if_stmt"
      [condition.tree, .node "block" (trees whenTrue), .node "block" (trees whenFalse)]
  | .loop count body => .node "repeat" [numberToken count, .node "block" (trees body)]
  | .block body => .node "bare_block" [.node "block" (trees body)]

def trees : List Stmt → List Tree
  | [] => []
  | s :: ss => s.tree :: trees ss

end

/-- A routine as a tree.  A single statement stands for itself. -/
def tree : List Stmt → Tree
  | [s] => s.tree
  | ss => .node "start" (trees ss)

end ThrustBench.Routine
