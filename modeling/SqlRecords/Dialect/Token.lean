import SqlRecords.Text.Quoted

/-!
# Dialects and their tokens

A statement is written as a list of tokens: words of the dialect as they stand,
identifiers, strings and places for bound values. The words hold no quote and, but
for the one that ends a statement, no semicolon; every name and string of a statement
goes into a token of its own, so that `Dialect.text` alone decides how it is quoted.
-/

namespace SqlRecords

open SqlRecords.Text

/-- A database whose SQL the library writes. -/
inductive Dialect where
  | sqlite
  | mysql
  | postgres
  deriving DecidableEq, Repr, Inhabited

/-- The dialects, each once. -/
def Dialect.all : List Dialect := [.sqlite, .mysql, .postgres]

/-- The name of a dialect. -/
def Dialect.name : Dialect → String
  | .sqlite => "sqlite"
  | .mysql => "mysql"
  | .postgres => "postgres"

/-- The quote around identifiers. -/
def Dialect.identifierQuote : Dialect → Char
  | .mysql => '\x60'
  | .sqlite | .postgres => '"'

/-- A piece of SQL text. -/
inductive Token where
  /-- Keywords, numbers, punctuation and blanks, written as they are. -/
  | word (text : String)
  /-- A name the statement gives, written as an identifier. -/
  | name (name : String)
  /-- A text the statement gives, written as a string. -/
  | string (s : String)
  /-- A string that the dialect itself asks for. -/
  | fixed (s : String)
  /-- The place of a bound value, counted from 1. -/
  | place (position : Nat)
  deriving DecidableEq, Repr

/-- A piece of SQL as tokens. -/
abbrev Sql := List Token

/-- The characters of a token. -/
def Token.chars (d : Dialect) : Token → List Char
  | .word w => w.toList
  | .name n => enclosed d.identifierQuote n.toList
  | .string s | .fixed s => enclosed '\'' s.toList
  | .place i =>
    match d with
    | .postgres => '$' :: (toString i).toList
    | .sqlite | .mysql => ['?']

/-- The characters of a piece of SQL. -/
def Dialect.chars (d : Dialect) (sql : Sql) : List Char := sql.flatMap (Token.chars d)

/-- The text of a piece of SQL. -/
def Dialect.text (d : Dialect) (sql : Sql) : String := String.ofList (d.chars sql)

/-- Pieces of SQL with a word between each two. -/
def Sql.separated (separator : String) : List Sql → Sql
  | [] => []
  | [piece] => piece
  | piece :: rest => piece ++ .word separator :: Sql.separated separator rest

/-- Pieces of SQL with commas between them. -/
def Sql.commas (pieces : List Sql) : Sql := Sql.separated ", " pieces

/-- A piece of SQL behind a word and before another one. -/
def Sql.between (before : String) (sql : Sql) (after : String) : Sql :=
  .word before :: sql ++ [.word after]

namespace Dialect

@[simp] theorem chars_nil (d : Dialect) : d.chars [] = [] := rfl

@[simp] theorem chars_cons (d : Dialect) (t : Token) (sql : Sql) :
    d.chars (t :: sql) = t.chars d ++ d.chars sql := by simp [chars]

@[simp] theorem chars_append (d : Dialect) (a b : Sql) :
    d.chars (a ++ b) = d.chars a ++ d.chars b := by simp [chars]

end Dialect

end SqlRecords
