/-
# `Reading.Lookahead` — moving on in a source, and back again

The tokens of a source are cut when they are asked for.  A stream stands in the
middle of it: the characters up to its offset are cut, and the token that was cut
last is the current one.  Moving on cuts the next token.  A fault leaves the
current token as it is, while the cursor has moved.

To tell a lambda from a group, a stream moves on behind the parenthesis and counts
brackets up to the one that closes it.  Whatever comes of it, the stream is put
back to the checkpoint that was taken before: its cursor, the place of the cursor
and the current token.
-/
import TypedPrompt.Reading.Source

namespace TypedPrompt

namespace Cursor

/-- A cursor moves over characters of the source, without leaving any out. -/
theorem next_over (c : Cursor) :
    ∃ raw, c.next.2.offset = c.offset + raw.length ∧ raw ++ c.next.2.rest = c.rest := by
  have hskip := trivia_append c.rest
  have hoffset : c.skip.offset = c.offset + (trivia c.rest).1.length := rfl
  have hrest : c.skip.rest = (trivia c.rest).2 := rfl
  unfold next take
  split
  · exact ⟨(trivia c.rest).1, hoffset, hskip⟩
  · next ch cs hcs =>
      rw [hcs] at hrest
      split
      · next l hl =>
          refine ⟨(trivia c.rest).1 ++ l.raw, ?_, ?_⟩
          · simp only [pass, hoffset, List.length_append, Nat.add_assoc]
          · rw [List.append_assoc, show (c.skip.pass l.raw l.rest).rest = l.rest from rfl,
              Lexeme.scan_append hl, hrest, hskip]
      · next cause _ =>
          cases cause with
          | unexpected => exact ⟨(trivia c.rest).1, hoffset, hskip⟩
          | unclosedString | unclosedTemplate =>
              refine ⟨c.rest, ?_, List.append_nil _⟩
              have hlength := congrArg List.length hskip
              rw [List.length_append, ← hrest, ← hcs] at hlength
              simp only [afterFault, pass, hoffset]
              omega

/-- What is ahead of a cursor is its source behind the offset, and stays so. -/
theorem next_rest_eq_drop {c : Cursor} {source : List Char} (h : c.rest = source.drop c.offset) :
    c.next.2.rest = source.drop c.next.2.offset := by
  obtain ⟨raw, hoffset, hraw⟩ := c.next_over
  rw [hoffset, ← List.drop_drop, ← h, ← hraw, List.drop_left]

end Cursor

namespace Reading

/-- A source that is cut into tokens as far as they were asked for. -/
structure TokenStream where
  source : List Char
  /-- how many characters are cut -/
  offset : Nat
  position : Position
  /-- the token that was cut last, which is not taken yet -/
  current : Token
  deriving DecidableEq, Repr

/-- What is kept of a stream in order to come back to it. -/
structure Checkpoint where
  offset : Nat
  position : Position
  current : Token
  deriving DecidableEq, Repr

namespace TokenStream

/-! ## Moving on -/

/-- The cursor that cuts the next token. -/
def cursor (s : TokenStream) : Cursor := ⟨s.offset, s.position, s.source.drop s.offset⟩

/-- The stream with its cursor at another place of the source. -/
def seek (s : TokenStream) (c : Cursor) : TokenStream :=
  { s with offset := c.offset, position := c.position }

/-- The stream at the first token of a source that begins at `p`. -/
def start (p : Position) (source : List Char) : Except Failure TokenStream :=
  match (Cursor.ofSource p source).next with
  | (.ok t, c) => .ok ⟨source, c.offset, c.position, t⟩
  | (.error e, _) => .error (.lexical e)

/-- Leaves the current token behind.  The end of the input cannot be left behind. -/
def advance (s : TokenStream) : Except Failure Unit × TokenStream :=
  if s.current.kind = .endOfInput then (.ok (), s)
  else
    match s.cursor.next with
    | (.ok t, c) => (.ok (), { s.seek c with current := t })
    | (.error e, c) => (.error (.lexical e), s.seek c)

/-- How much is left at most, in tokens. -/
def left (s : TokenStream) : Nat :=
  if s.current.kind = .endOfInput then 0 else s.cursor.rest.length + 1

/-- Behind a token, the cursor of the stream is the one that has cut the next token. -/
theorem cursor_seek (s : TokenStream) : (s.seek s.cursor.next.2).cursor = s.cursor.next.2 := by
  have h : s.cursor.next.2.rest = s.source.drop s.cursor.next.2.offset :=
    Cursor.next_rest_eq_drop rfl
  simp only [seek, cursor] at h ⊢
  rw [← h]

/-- A stream gets shorter with every token that it leaves behind. -/
theorem left_advance_lt {s s' : TokenStream} (h : s.advance = (.ok (), s'))
    (hk : s.current.kind ≠ .endOfInput) : s'.left < s.left := by
  have hs := s.cursor_seek
  rw [advance, if_neg hk] at h
  split at h
  · next t c hc =>
      cases h
      rw [hc] at hs
      have hcursor : ({ s.seek c with current := t } : TokenStream).cursor = c := hs
      simp only [left, hcursor, hk, if_false]
      split
      · exact Nat.succ_pos _
      · next ht => exact Nat.succ_lt_succ (Cursor.next_rest_lt hc ht)
  · cases h

/-! ## Moving back -/

/-- Where the stream is. -/
def checkpoint (s : TokenStream) : Checkpoint := ⟨s.offset, s.position, s.current⟩

/-- The stream back at a checkpoint. -/
def rewind (s : TokenStream) (k : Checkpoint) : TokenStream :=
  { s with offset := k.offset, position := k.position, current := k.current }

/-! ## Looking for a lambda -/

/-- Moves on behind the bracket that closes the one before the current token, `depth`
brackets being open besides it, and tells whether it is a parenthesis with an arrow or
a colon behind it. -/
def scanBrackets (depth : Nat) (s : TokenStream) : Except Failure Bool × TokenStream :=
  match h : s.advance with
  | (.error e, s') => (.error e, s')
  | (.ok (), s') =>
      if hk : s.current.kind = .endOfInput then (.ok false, s')
      else
        have := left_advance_lt h hk
        match s.current.kind with
        | .symbol b =>
            if b.opens then scanBrackets (depth + 1) s'
            else if b.closes then
              match depth with
              | 0 => (.ok (b == .rightParen && followsParameters s'.current), s')
              | depth + 1 => scanBrackets depth s'
            else scanBrackets depth s'
        | _ => scanBrackets depth s'
termination_by s.left

/-- Moves on over the parameters of a lambda, if the parenthesis before the current
token opens some, and tells whether it does. -/
def scanParameters (s : TokenStream) : Except Failure Bool × TokenStream :=
  if s.current.kind = .symbol .rightParen then
    match s.advance with
    | (.ok (), s') => (.ok (followsParameters s'.current), s')
    | (.error e, s') => (.error e, s')
  else if s.current.kind = .name then s.scanBrackets 0
  else (.ok false, s)

/-- Whether the current token opens the parameters of a lambda, and the stream after
it was put back. -/
def looksLikeLambda (s : TokenStream) : Except Failure Bool × TokenStream :=
  let before := s.checkpoint
  match s.advance with
  | (.ok (), s') =>
      let (answer, s'') := s'.scanParameters
      (answer, s''.rewind before)
  | (.error e, s') => (.error e, s'.rewind before)

/-! ## What readers see of a stream -/

/-- The stream as the input of a reader. -/
def input (s : TokenStream) : Input :=
  ⟨s.current, if s.current.kind = .endOfInput then .finish s.current else s.cursor.drain.1⟩

end TokenStream

end Reading

end TypedPrompt
