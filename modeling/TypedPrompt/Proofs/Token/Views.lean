/-
# `Proofs.Token.Views` — tokens, seen with more or less of their places

Cutting a source into tokens and reading them never looks at a place, it only copies
it.  A `View` says how much of a place is seen: all of it (`View.exact`), or nothing
(`View.blind`), so that one statement about what is seen covers the comparison of two
runs on one source and that of two sources which are laid out differently.

A view must not tell two places apart by what lies ahead of them: places that look
alike still do so behind the next character.  Then two sources with the same
characters are cut into tokens that look alike, wherever the sources begin
(`view_tokensOf`).
-/
import TypedPrompt.Proofs.Token.Layout

namespace TypedPrompt

/-! ## Views -/

/-- What is seen of a place and of the name of its file; places that look alike do so
behind every character. -/
structure View where
  see : Position → Position
  seeFile : String → String
  step_congr : ∀ {p q : Position}, see p = see q → ∀ c, see (p.step c) = see (q.step c)

namespace View

/-- Every place is seen as it is, with its file. -/
def exact : View := ⟨id, id, fun h c => congrArg (Position.step · c) h⟩

/-- No place is seen and no file. -/
def blind : View := ⟨fun _ => Position.start, fun _ => "", fun _ _ => rfl⟩

variable (v : View) {p q : Position}

theorem after_congr (h : v.see p = v.see q) (cs : List Char) :
    v.see (p.after cs) = v.see (q.after cs) := by
  induction cs generalizing p q with
  | nil => exact h
  | cons c cs ih => exact ih (v.step_congr h c)

end View

/-! ## Tokens -/

/-- A token as it is seen. -/
def Token.view (v : View) (t : Token) : Token := ⟨t.kind, t.text, v.see t.start, v.see t.stop⟩

/-- A fault of the tokens as it is seen. -/
def LexError.view (v : View) (e : LexError) : LexError := ⟨e.cause, v.see e.position⟩

/-- The tokens of a source as they are seen. -/
def Tokens.view (v : View) : Tokens → Tokens
  | .cons t rest => .cons (t.view v) (rest.view v)
  | .finish t => .finish (t.view v)
  | .fault e => .fault (e.view v)

section

variable {v : View}

theorem Token.view_eq_iff {t u : Token} :
    t.view v = u.view v ↔ t.kind = u.kind ∧ t.text = u.text
      ∧ v.see t.start = v.see u.start ∧ v.see t.stop = v.see u.stop := by
  simp [Token.view]

theorem Tokens.length_of_view_eq {ts us : Tokens} (h : ts.view v = us.view v) :
    ts.length = us.length := by
  induction ts generalizing us with
  | cons t ts ih =>
      cases us with
      | cons u us =>
          rw [Tokens.view, Tokens.view, Tokens.cons.injEq] at h
          rw [Tokens.length, Tokens.length, ih h.2]
      | _ => cases h
  | _ =>
      cases us with
      | cons u us => cases h
      | _ => rfl

@[simp] theorem Token.view_exact (t : Token) : t.view .exact = t := rfl

@[simp] theorem LexError.view_exact (e : LexError) : e.view .exact = e := rfl

/-- Nothing but the places of tokens is missed. -/
theorem Tokens.view_ofList (eof : Token) (ts : List Token) :
    (Tokens.ofList eof ts).view v = Tokens.ofList (eof.view v) (ts.map (Token.view v)) := by
  induction ts with
  | nil => rfl
  | cons t ts ih => exact congrArg (Tokens.cons (t.view v)) ih

end

/-! ## Cutting a source into tokens -/

namespace Cursor

variable {v : View}

theorem drain_fault {c d : Cursor} {e : LexError} (h : c.next = (.error e, d)) :
    c.drain = (.fault e, d) := by
  rw [drain]
  split
  · next h' =>
      rw [h] at h'
      cases h'
      rfl
  · next h' =>
      rw [h] at h'
      cases h'

theorem drain_finish {c d : Cursor} {t : Token} (h : c.next = (.ok t, d))
    (ht : t.kind = .endOfInput) : c.drain = (.finish t, d) := by
  rw [drain]
  split
  · next h' =>
      rw [h] at h'
      cases h'
  · next h' =>
      rw [h] at h'
      cases h'
      rw [dif_pos ht]

theorem drain_cons {c d : Cursor} {t : Token} (h : c.next = (.ok t, d))
    (ht : t.kind ≠ .endOfInput) : c.drain = (.cons t d.drain.1, d.drain.2) := by
  rw [drain]
  split
  · next h' =>
      rw [h] at h'
      cases h'
  · next h' =>
      rw [h] at h'
      cases h'
      rw [dif_neg ht]

/-- A lexeme at the front, with nothing to skip before it. -/
theorem next_of_scan {c : Cursor} {d : Char} {ds : List Char} {l : Lexeme}
    (hrest : c.rest = d :: ds) (hd : (Text.isBlank d || d == '#') = false)
    (hl : Lexeme.scan d ds = .ok l) :
    c.next = (.ok ⟨l.kind, String.ofList l.text, c.position, c.position.after l.raw⟩,
      c.pass l.raw l.rest) := by
  have hskip : c.skip = c := by
    unfold skip trivia
    rw [hrest, splitTrivia, if_neg (by simp [hd]), ← hrest]
    rfl
  unfold next take
  rw [hskip, hrest]
  simp only [hl]
  rfl

/-- The cursors stand in front of the same characters, at places that look alike. -/
structure Alike (v : View) (c c' : Cursor) : Prop where
  position : v.see c.position = v.see c'.position
  rest : c.rest = c'.rest

theorem Alike.pass {c c' : Cursor} (h : Alike v c c') (raw rest : List Char) :
    Alike v (c.pass raw rest) (c'.pass raw rest) :=
  ⟨v.after_congr h.position raw, rfl⟩

theorem Alike.skip {c c' : Cursor} (h : Alike v c c') : Alike v c.skip c'.skip := by
  unfold Cursor.skip
  rw [h.rest]
  exact h.pass _ _

/-- What is taken next looks alike, and so do the cursors behind it. -/
theorem Alike.next {c c' : Cursor} (h : Alike v c c') :
    match c.next, c'.next with
    | (.error e, _), (.error e', _) => e.view v = e'.view v
    | (.ok t, d), (.ok t', d') => t.view v = t'.view v ∧ Alike v d d'
    | _, _ => False := by
  have hs := h.skip
  unfold Cursor.next take
  rw [← hs.rest]
  cases hr : c.skip.rest with
  | nil => exact ⟨by simp [Token.view, Token.endAt, hs.position], hs⟩
  | cons ch cs =>
      simp only
      cases Lexeme.scan ch cs with
      | error cause => simp [LexError.view, hs.position]
      | ok l =>
          have hl := hs.pass l.raw l.rest
          exact ⟨by simp [Token.view, hs.position, hl.position], hl⟩

/-- The tokens up to the end look alike. -/
theorem Alike.drain {c c' : Cursor} (h : Alike v c c') :
    c.drain.1.view v = c'.drain.1.view v := by
  fun_induction Cursor.drain c generalizing c' with
  | case1 c e d hn =>
      have hnext := h.next
      rw [hn] at hnext
      cases hn' : c'.next with
      | mk answer d' =>
          rw [hn'] at hnext
          cases answer with
          | error e' =>
              rw [drain_fault hn']
              exact congrArg Tokens.fault hnext
          | ok t' => exact hnext.elim
  | case2 c t d hn ht =>
      have hnext := h.next
      rw [hn] at hnext
      cases hn' : c'.next with
      | mk answer d' =>
          rw [hn'] at hnext
          cases answer with
          | error e' => exact hnext.elim
          | ok t' =>
              have hk : t'.kind = .endOfInput := (Token.view_eq_iff.mp hnext.1).1 ▸ ht
              rw [drain_finish hn' hk]
              exact congrArg Tokens.finish hnext.1
  | case3 c t d hn ht _ us c'' hd ih =>
      have hnext := h.next
      rw [hn] at hnext
      cases hn' : c'.next with
      | mk answer d' =>
          rw [hn'] at hnext
          cases answer with
          | error e' => exact hnext.elim
          | ok t' =>
              have hk : t'.kind ≠ .endOfInput := (Token.view_eq_iff.mp hnext.1).1 ▸ ht
              have hrest := ih hnext.2
              rw [hd] at hrest
              rw [drain_cons hn' hk]
              exact congrArg₂ Tokens.cons hnext.1 hrest

end Cursor

/-- Two sources with the same characters are cut into tokens that look alike. -/
theorem view_tokensOf {v : View} {p q : Position} (h : v.see p = v.see q) (cs : List Char) :
    (tokensOf p cs).view v = (tokensOf q cs).view v := by
  have halike : Cursor.Alike v (Cursor.ofSource p cs) (Cursor.ofSource q cs) := ⟨h, rfl⟩
  exact halike.drain

end TypedPrompt
