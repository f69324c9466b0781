/-
# `Token.Lexer` — tokens of a source, one after the other

A cursor stands somewhere in a source: it knows how many characters are behind
it, the place it has reached, and the characters ahead.  `next` skips what
stands between tokens and takes one token; at the end of the source the token is
`endOfInput`, however often it is asked for.  `drain` takes tokens until the
end, or until a fault.

A fault does not stop a cursor for good.  A character that begins no token is
left in place, so that the same fault comes up again; a literal that is not
closed takes the rest of the source with it.
-/
import TypedPrompt.Token.Lexeme

namespace TypedPrompt

/-- A source cannot be cut into tokens at this place. -/
structure LexError where
  cause : LexCause
  position : Position
  deriving DecidableEq, Repr

namespace LexError

/-- The words for the fault. -/
def text (e : LexError) : String :=
  match e.cause with
  | .unexpected c => "Unexpected character " ++ Text.quoted (String.singleton c)
  | .unclosedString => "Unterminated string literal"
  | .unclosedTemplate => "Unterminated template literal"

/-- The character that the fault is about. -/
def character (e : LexError) : Char :=
  match e.cause with
  | .unexpected c => c
  | .unclosedString => '"'
  | .unclosedTemplate => '"'

end LexError

/-- The tokens of a source up to its end or to a fault. -/
inductive Tokens where
  | cons (t : Token) (rest : Tokens)
  | finish (t : Token)
  | fault (e : LexError)
  deriving DecidableEq, Repr

namespace Tokens

/-- The tokens, the one for the end included. -/
def toList : Tokens → List Token
  | cons t rest => t :: rest.toList
  | finish t => [t]
  | fault _ => []

/-- The fault in which the tokens end, if any. -/
def fault? : Tokens → Option LexError
  | cons _ rest => rest.fault?
  | finish _ => none
  | fault e => some e

/-- The number of tokens before the end. -/
def length : Tokens → Nat
  | cons _ rest => rest.length + 1
  | _ => 0

end Tokens

/-- A place to read on from in a source. -/
structure Cursor where
  /-- how many characters are behind -/
  offset : Nat
  position : Position
  /-- the characters ahead -/
  rest : List Char
  deriving DecidableEq, Repr

namespace Cursor

/-- The cursor before the first character of a source that begins at `p`. -/
def ofSource (p : Position) (cs : List Char) : Cursor := ⟨0, p, cs⟩

/-- The cursor behind `raw`, what follows being `rest`. -/
def pass (c : Cursor) (raw rest : List Char) : Cursor :=
  ⟨c.offset + raw.length, c.position.after raw, rest⟩

/-- The cursor behind white space and comments. -/
def skip (c : Cursor) : Cursor := c.pass (trivia c.rest).1 (trivia c.rest).2

/-- Where a fault leaves the cursor. -/
def afterFault (c : Cursor) : LexCause → Cursor
  | .unexpected _ => c
  | .unclosedString => c.pass c.rest []
  | .unclosedTemplate => c.pass c.rest []

/-- The token that begins right at the cursor, or the fault there, and the
cursor behind it. -/
def take (c : Cursor) : Except LexError Token × Cursor :=
  match c.rest with
  | [] => (.ok (Token.endAt c.position), c)
  | ch :: cs =>
      match Lexeme.scan ch cs with
      | .ok l =>
          let after := c.pass l.raw l.rest
          (.ok ⟨l.kind, String.ofList l.text, c.position, after.position⟩, after)
      | .error cause => (.error ⟨cause, c.position⟩, c.afterFault cause)

/-- The next token, or a fault, and the cursor behind it. -/
def next (c : Cursor) : Except LexError Token × Cursor := c.skip.take

theorem skip_rest_le (c : Cursor) : c.skip.rest.length ≤ c.rest.length := by
  have h := congrArg List.length (trivia_append c.rest)
  rw [List.length_append] at h
  simp only [skip, pass]
  omega

theorem take_rest_lt {c c' : Cursor} {t : Token} (h : c.take = (.ok t, c'))
    (ht : t.kind ≠ .endOfInput) : c'.rest.length < c.rest.length := by
  unfold take at h
  split at h
  · cases h; exact absurd rfl ht
  · next ch cs hr =>
      split at h
      · next l hl =>
          cases h
          rw [hr]
          exact Lexeme.scan_rest_lt hl
      · cases h

/-- Every token but the end takes at least one character. -/
theorem next_rest_lt {c c' : Cursor} {t : Token} (h : c.next = (.ok t, c'))
    (ht : t.kind ≠ .endOfInput) : c'.rest.length < c.rest.length :=
  Nat.lt_of_lt_of_le (take_rest_lt h ht) (skip_rest_le c)

/-- All tokens from the cursor on, and the cursor behind them. -/
def drain (c : Cursor) : Tokens × Cursor :=
  match h : c.next with
  | (.error e, c') => (.fault e, c')
  | (.ok t, c') =>
      if ht : t.kind = .endOfInput then (.finish t, c')
      else
        have := next_rest_lt h ht
        let (ts, c'') := drain c'
        (.cons t ts, c'')
termination_by c.rest.length

end Cursor

/-- The tokens of a source that begins at `p`. -/
def tokensOf (p : Position) (cs : List Char) : Tokens := (Cursor.ofSource p cs).drain.1

end TypedPrompt
