/-
# `Token.Lexeme` — the pieces that a source is cut into

Two functions on lists of characters.  `trivia` splits off what stands between
tokens: white space, and comments from a `#` to the end of the line.  `scan`
splits off one lexeme and says what it denotes.  Both return the characters that
they take and the rest, and the lemmas at the end say that nothing is lost:
what is taken, followed by the rest, is the input, and a lexeme is never empty.
-/
import TypedPrompt.Number.Numeral
import TypedPrompt.Text.Blank
import TypedPrompt.Token.Basic

namespace TypedPrompt

/-! ## Between tokens -/

/-- Splits off white space and comments.  `inComment` tells whether the
characters belong to a comment that was begun before. -/
def splitTrivia : Bool → List Char → List Char × List Char
  | _, [] => ([], [])
  | true, c :: cs =>
      let (taken, rest) := splitTrivia (c != '\n') cs
      (c :: taken, rest)
  | false, c :: cs =>
      if Text.isBlank c || c == '#' then
        let (taken, rest) := splitTrivia (c == '#') cs
        (c :: taken, rest)
      else ([], c :: cs)

/-- The white space and comments at the front, and the rest. -/
def trivia (cs : List Char) : List Char × List Char := splitTrivia false cs

/-! ## Lexemes -/

/-- A lexeme at the front of a source: what it denotes, the characters it is
made of, and the rest of the source. -/
structure Lexeme where
  kind : Kind
  text : List Char
  raw : List Char
  rest : List Char
  deriving DecidableEq, Repr

/-- Why no lexeme can be split off. -/
inductive LexCause where
  /-- no token begins with this character -/
  | unexpected (c : Char)
  | unclosedString
  | unclosedTemplate
  deriving DecidableEq, Repr

namespace Lexeme

/-- The character that an escape in a string literal stands for: itself, unless
it is one of three letters. -/
def unescape : Char → Char
  | 'n' => '\n'
  | 't' => '\t'
  | 'r' => '\r'
  | c => c

/-- The text of a string literal behind its opening quote, the characters up to
and with the closing quote, and the rest; nothing if it is not closed. -/
def splitString : List Char → Option (List Char × List Char × List Char)
  | [] => none
  | '"' :: rest => some ([], ['"'], rest)
  | '\\' :: c :: cs =>
      (splitString cs).map fun (text, raw, rest) => (unescape c :: text, '\\' :: c :: raw, rest)
  | '\\' :: [] => none
  | c :: cs => (splitString cs).map fun (text, raw, rest) => (c :: text, c :: raw, rest)

/-- The text up to the next three quotes in a row, and the rest behind them;
nothing if there are none. -/
def splitTemplate : List Char → Option (List Char × List Char)
  | [] => none
  | '"' :: '"' :: '"' :: rest => some ([], rest)
  | c :: cs => (splitTemplate cs).map fun (text, rest) => (c :: text, rest)

/-- The quotes around a template. -/
def tripleQuote : List Char := ['"', '"', '"']

/-- A string literal behind its opening quote. -/
def scanString (cs : List Char) : Except LexCause Lexeme :=
  match splitString cs with
  | some (text, raw, rest) => .ok ⟨.string, text, '"' :: raw, rest⟩
  | none => .error .unclosedString

/-- A template literal behind its opening quotes. -/
def scanTemplate (cs : List Char) : Except LexCause Lexeme :=
  match splitTemplate cs with
  | some (text, rest) => .ok ⟨.template, text, tripleQuote ++ text ++ tripleQuote, rest⟩
  | none => .error .unclosedTemplate

/-- A number: digits, and a point if digits follow it. -/
def scanNumber (cs : List Char) : Lexeme :=
  let (whole, afterWhole) := Numeral.spanDigits cs
  match Numeral.scanFraction afterWhole with
  | (some fraction, rest) =>
      let raw := whole ++ '.' :: fraction
      ⟨.number, raw, raw, rest⟩
  | (none, rest) => ⟨.number, whole, whole, rest⟩

/-- What a word is: reserved, a truth value, or a name. -/
def wordKind (s : String) : Kind :=
  match Keyword.ofWord? s with
  | some k => .keyword k
  | none => if s == "true" || s == "false" then .boolean else .name

/-- A word, `c` being its first character. -/
def scanWord (c : Char) (cs : List Char) : Lexeme :=
  let raw := c :: cs.takeWhile Text.continuesName
  ⟨wordKind (String.ofList raw), raw, raw, cs.dropWhile Text.continuesName⟩

/-- A symbol, `c` being its first character; the longer symbol is preferred. -/
def scanSymbol (c : Char) (cs : List Char) : Except LexCause Lexeme :=
  let single : Except LexCause Lexeme :=
    match Symbol.ofChar? c with
    | some s => .ok ⟨.symbol s, [c], [c], cs⟩
    | none => .error (.unexpected c)
  match cs with
  | [] => single
  | d :: rest =>
      match Symbol.ofPair? c d with
      | some s => .ok ⟨.symbol s, [c, d], [c, d], rest⟩
      | none => single

/-- The lexeme that begins with `c`, `cs` being the characters behind it. -/
def scan (c : Char) (cs : List Char) : Except LexCause Lexeme :=
  if c = '"' then
    match cs with
    | '"' :: '"' :: cs' => scanTemplate cs'
    | _ => scanString cs
  else if Text.isDigit c then .ok (scanNumber (c :: cs))
  else if Text.startsName c then .ok (scanWord c cs)
  else scanSymbol c cs

end Lexeme

/-! ## Nothing is lost -/

theorem splitTrivia_append (inComment : Bool) (cs : List Char) :
    (splitTrivia inComment cs).1 ++ (splitTrivia inComment cs).2 = cs := by
  induction cs generalizing inComment with
  | nil => cases inComment <;> rfl
  | cons c cs ih =>
      cases inComment with
      | true => simp [splitTrivia, ih]
      | false =>
          simp only [splitTrivia]
          split
          · simp [ih]
          · rfl

theorem trivia_append (cs : List Char) : (trivia cs).1 ++ (trivia cs).2 = cs :=
  splitTrivia_append false cs

namespace Lexeme

theorem splitString_append {cs text raw rest : List Char}
    (h : splitString cs = some (text, raw, rest)) : raw ++ rest = cs := by
  fun_induction splitString cs generalizing text raw rest with
  | case1 => simp at h
  | case2 => simp only [Option.some.injEq, Prod.mk.injEq] at h; simp [← h.2.1, ← h.2.2]
  | case3 c cs ih =>
      obtain ⟨⟨t, r, r'⟩, hs, he⟩ := Option.map_eq_some_iff.1 h
      simp only [Prod.mk.injEq] at he
      simp [← he.2.1, ← he.2.2, ih hs]
  | case4 => simp at h
  | case5 c cs _ _ _ ih =>
      obtain ⟨⟨t, r, r'⟩, hs, he⟩ := Option.map_eq_some_iff.1 h
      simp only [Prod.mk.injEq] at he
      simp [← he.2.1, ← he.2.2, ih hs]

theorem splitTemplate_append {cs text rest : List Char}
    (h : splitTemplate cs = some (text, rest)) : text ++ (tripleQuote ++ rest) = cs := by
  fun_induction splitTemplate cs generalizing text rest with
  | case1 => simp at h
  | case2 => simp only [Option.some.injEq, Prod.mk.injEq] at h; simp [← h.1, ← h.2, tripleQuote]
  | case3 c cs _ ih =>
      obtain ⟨⟨t, r⟩, hs, he⟩ := Option.map_eq_some_iff.1 h
      simp only [Prod.mk.injEq] at he
      simp [← he.1, ← he.2, ih hs]

theorem scanNumber_append (cs : List Char) : (scanNumber cs).raw ++ (scanNumber cs).rest = cs := by
  have hd : (Numeral.spanDigits cs).1 ++ (Numeral.spanDigits cs).2 = cs := by
    simp [Numeral.spanDigits]
  simp only [scanNumber]
  split
  · next fraction rest hf =>
      have : '.' :: (fraction ++ rest) = (Numeral.spanDigits cs).2 := by
        revert hf
        generalize (Numeral.spanDigits cs).2 = ds
        intro hf
        unfold Numeral.scanFraction at hf
        split at hf
        · next tail =>
            split at hf
            · simp at hf
            · next digits after hs =>
                simp only [Numeral.spanDigits, Prod.mk.injEq] at hs
                simp only [Prod.mk.injEq, Option.some.injEq] at hf
                rw [← hf.1, ← hf.2, ← hs.1, ← hs.2]
                simp
        · simp at hf
      simp only [List.append_assoc, List.cons_append, this, hd]
  · next rest hf =>
      have : rest = (Numeral.spanDigits cs).2 := by
        revert hf
        generalize (Numeral.spanDigits cs).2 = ds
        intro hf
        unfold Numeral.scanFraction at hf
        split at hf
        · split at hf <;> simp_all
        · simp_all
      simp [this, hd]

theorem scan_append {c : Char} {cs : List Char} {l : Lexeme} (h : scan c cs = .ok l) :
    l.raw ++ l.rest = c :: cs := by
  unfold scan at h
  split at h
  · next hc =>
      subst hc
      split at h
      · next cs' =>
          unfold scanTemplate at h
          split at h
          · next text rest hs =>
              cases h
              simp [tripleQuote, ← splitTemplate_append hs]
          · cases h
      · unfold scanString at h
        split at h
        · next text raw rest hs =>
            cases h
            simp [← splitString_append hs]
        · cases h
  · split at h
    · cases h; exact scanNumber_append _
    · split at h
      · cases h; simp [scanWord]
      · unfold scanSymbol at h
        cases hs : Symbol.ofChar? c with
        | none => cases cs with
          | nil => simp [hs] at h
          | cons d rest =>
              cases hp : Symbol.ofPair? c d with
              | none => simp [hs, hp] at h
              | some s => simp [hp] at h; simp [← h]
        | some s => cases cs with
          | nil => simp [hs] at h; simp [← h]
          | cons d rest =>
              cases hp : Symbol.ofPair? c d with
              | none => simp [hs, hp] at h; simp [← h]
              | some s => simp [hp] at h; simp [← h]

theorem scanNumber_raw_ne_nil {c : Char} (cs : List Char) (hc : Text.isDigit c = true) :
    (scanNumber (c :: cs)).raw ≠ [] := by
  simp only [scanNumber]
  split <;> simp [Numeral.spanDigits, hc]

theorem scan_raw_ne_nil {c : Char} {cs : List Char} {l : Lexeme} (h : scan c cs = .ok l) :
    l.raw ≠ [] := by
  unfold scan at h
  split at h
  · split at h
    · unfold scanTemplate at h
      split at h <;> cases h
      simp [tripleQuote]
    · unfold scanString at h
      split at h <;> cases h
      simp
  · split at h
    · next hd => cases h; exact scanNumber_raw_ne_nil cs hd
    · split at h
      · cases h; simp [scanWord]
      · unfold scanSymbol at h
        cases hs : Symbol.ofChar? c <;> cases cs with
        | nil => simp [hs] at h <;> simp [← h]
        | cons d rest => cases hp : Symbol.ofPair? c d <;> simp [hs, hp] at h <;> simp [← h]

/-- A lexeme takes at least one character. -/
theorem scan_rest_lt {c : Char} {cs : List Char} {l : Lexeme} (h : scan c cs = .ok l) :
    l.rest.length < (c :: cs).length := by
  have hne := List.length_pos_iff.2 (scan_raw_ne_nil h)
  rw [← scan_append h, List.length_append]
  omega

end Lexeme

end TypedPrompt
