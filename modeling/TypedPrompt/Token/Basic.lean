/-
# `Token.Basic` — tokens

The vocabulary of the language: names, numbers, two forms of text literals,
truth values, six reserved words, eighteen operators and marks, and the end of
the input.  A token holds the text that it denotes, which for a string literal
is the text after its escapes have been undone, and the places of its two ends.
-/
import TypedPrompt.Source.Position
import TypedPrompt.Text.Quoted

namespace TypedPrompt

/-- The reserved words. -/
inductive Keyword where
  | defPrompt
  | letWord
  | inWord
  | caseWord
  | whenWord
  | endWord
  deriving DecidableEq, Repr

namespace Keyword

/-- How a reserved word is written. -/
def word : Keyword → String
  | defPrompt => "defprompt"
  | letWord => "let"
  | inWord => "in"
  | caseWord => "case"
  | whenWord => "when"
  | endWord => "end"

/-- All reserved words. -/
def all : List Keyword := [defPrompt, letWord, inWord, caseWord, whenWord, endWord]

/-- The reserved word that a text is. -/
def ofWord? (s : String) : Option Keyword := all.find? fun k => k.word == s

end Keyword

/-- The operators and marks. -/
inductive Symbol where
  | pipe
  | arrow
  | fatArrow
  | doubleColon
  | leftParen
  | rightParen
  | leftBrace
  | rightBrace
  | leftBracket
  | rightBracket
  | comma
  | colon
  | dot
  | atSign
  | equals
  | question
  | bar
  | ampersand
  deriving DecidableEq, Repr

namespace Symbol

/-- How a symbol is written. -/
def spelling : Symbol → List Char
  | pipe => ['|', '>']
  | arrow => ['-', '>']
  | fatArrow => ['=', '>']
  | doubleColon => [':', ':']
  | leftParen => ['(']
  | rightParen => [')']
  | leftBrace => ['{']
  | rightBrace => ['}']
  | leftBracket => ['[']
  | rightBracket => [']']
  | comma => [',']
  | colon => [':']
  | dot => ['.']
  | atSign => ['@']
  | equals => ['=']
  | question => ['?']
  | bar => ['|']
  | ampersand => ['&']

/-- What messages call a symbol. -/
def label : Symbol → String
  | pipe => "PIPE"
  | arrow => "ARROW"
  | fatArrow => "FATARROW"
  | doubleColon => "DOUBLE_COLON"
  | leftParen => "LPAREN"
  | rightParen => "RPAREN"
  | leftBrace => "LBRACE"
  | rightBrace => "RBRACE"
  | leftBracket => "LBRACKET"
  | rightBracket => "RBRACKET"
  | comma => "COMMA"
  | colon => "COLON"
  | dot => "DOT"
  | atSign => "AT"
  | equals => "EQUALS"
  | question => "QUESTION"
  | bar => "BAR"
  | ampersand => "AMPERSAND"

/-- The symbol written with two characters. -/
def ofPair? : Char → Char → Option Symbol
  | '|', '>' => some pipe
  | '-', '>' => some arrow
  | '=', '>' => some fatArrow
  | ':', ':' => some doubleColon
  | _, _ => none

/-- The symbol written with one character. -/
def ofChar? : Char → Option Symbol
  | '(' => some leftParen
  | ')' => some rightParen
  | '{' => some leftBrace
  | '}' => some rightBrace
  | '[' => some leftBracket
  | ']' => some rightBracket
  | ',' => some comma
  | ':' => some colon
  | '.' => some dot
  | '@' => some atSign
  | '=' => some equals
  | '?' => some question
  | '|' => some bar
  | '&' => some ampersand
  | _ => none

/-- An opening bracket of any shape. -/
def opens : Symbol → Bool
  | leftParen | leftBracket | leftBrace => true
  | _ => false

/-- A closing bracket of any shape. -/
def closes : Symbol → Bool
  | rightParen | rightBracket | rightBrace => true
  | _ => false

end Symbol

/-- The kinds of tokens. -/
inductive Kind where
  | name
  | number
  | string
  | template
  | boolean
  | keyword (k : Keyword)
  | symbol (s : Symbol)
  | endOfInput
  deriving DecidableEq, Repr

/-- What messages call a kind. -/
def Kind.label : Kind → String
  | name => "IDENT"
  | number => "NUMBER"
  | string => "STRING"
  | template => "TEMPLATE"
  | boolean => "BOOLEAN"
  | keyword k => k.word
  | symbol s => s.label
  | endOfInput => "EOF"

/-- A token: its kind, the text that it denotes, and the places of its first
character and behind its last. -/
structure Token where
  kind : Kind
  text : String
  start : Position
  stop : Position
  deriving DecidableEq, Repr

namespace Token

/-- The token that stands for the end of the input. -/
def endAt (p : Position) : Token := ⟨.endOfInput, "", p, p⟩

/-- A token as messages mention it: kind and quoted text. -/
def describe (t : Token) : String :=
  if t.kind = .endOfInput then "end of input"
  else t.kind.label ++ " " ++ Text.quoted t.text

end Token

end TypedPrompt
