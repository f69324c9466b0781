/-
# `Proofs.Token.Pieces` — cutting a text piece by piece

`Cuts cs ks rest`: from the front of `cs`, tokens that say `ks` are cut off, and `rest`
is left.  The rest is there from the beginning, so that no piece can take more of it, or
less, than it does in the whole text: a word ends where no character of a name follows
(`EndsName`), and a symbol that is a part of a longer one is written with a blank behind
it.  So pieces can be put together (`Cuts.append`), also lists of them with separators
(`Cuts.intercalate`), and a text that is cut to its end has these tokens
(`Cuts.tokensOf`).
-/
import Mathlib.Data.List.Basic
import TypedPrompt.Proofs.Token.Rendering

namespace TypedPrompt

/-- What a token of a kind says, that is written as it is. -/
def word (s : String) : Kind × String := (.name, s)

/-- What the token of a symbol says. -/
def mark (s : Symbol) : Kind × String := (.symbol s, String.ofList s.spelling)

/-- Tokens that say this are cut off a text, and the rest is left. -/
inductive Cuts : List Char → List (Kind × String) → List Char → Prop
  | done (rest : List Char) : Cuts rest [] rest
  | blank {cs rest : List Char} {ks : List (Kind × String)} :
      Cuts cs ks rest → Cuts (' ' :: cs) ks rest
  | lexeme {c : Char} {cs text raw after rest : List Char} {kind : Kind}
      {ks : List (Kind × String)} :
      (Text.isBlank c || c == '#') = false → Lexeme.scan c cs = .ok ⟨kind, text, raw, after⟩ →
      kind ≠ .endOfInput → Cuts after ks rest →
      Cuts (c :: cs) ((kind, String.ofList text) :: ks) rest

/-- A name in front of this ends there. -/
def EndsName (rest : List Char) : Prop := ∀ c ∈ rest.head?, Text.continuesName c = false

namespace Cuts

variable {cs ds rest : List Char} {ks js : List (Kind × String)}

theorem append (h : Cuts cs ks ds) (h' : Cuts ds js rest) : Cuts cs (ks ++ js) rest := by
  induction h with
  | done => exact h'
  | blank _ ih => exact .blank (ih h')
  | lexeme hskip hscan hkind _ ih => exact .lexeme hskip hscan hkind (ih h')

/-- A text that is cut to its end has these tokens. -/
theorem drain (h : Cuts cs ks []) : ∀ {c : Cursor}, c.rest = cs →
    ∃ eof ts, c.drain.1 = Tokens.ofList eof ts ∧ ts.map Token.content = ks
      ∧ eof.kind = .endOfInput := by
  generalize hrest : ([] : List Char) = rest at h
  induction h with
  | done =>
      intro c hc
      obtain ⟨eof, hdrain, heof⟩ := Cursor.drain_nil (hc.trans hrest.symm)
      exact ⟨eof, [], hdrain, rfl, congrArg Prod.fst heof⟩
  | @blank cs _ _ _ ih =>
      intro c hc
      obtain ⟨eof, ts, hdrain, hts⟩ := ih hrest (c := c.pass [' '] cs) rfl
      exact ⟨eof, ts, by rw [Cursor.drain_blank c cs hc, hdrain], hts⟩
  | @lexeme _ _ text raw after _ kind _ hskip hscan hkind _ ih =>
      intro c hc
      have hnext := Cursor.next_of_scan hc hskip hscan
      obtain ⟨eof, ts, hdrain, rfl, heof⟩ := ih hrest (c := c.pass raw after) rfl
      refine ⟨eof, ⟨kind, String.ofList text, c.position, c.position.after raw⟩ :: ts, ?_, rfl,
        heof⟩
      rw [Cursor.drain_cons hnext hkind, hdrain]
      rfl

theorem tokensOf (h : Cuts cs ks []) (p : Position) :
    ∃ eof ts, tokensOf p cs = Tokens.ofList eof ts ∧ ts.map Token.content = ks
      ∧ eof.kind = .endOfInput :=
  h.drain rfl

/-! ## Symbols and words -/

/-- A symbol ends where a blank follows. -/
theorem spaced (s : Symbol) (rest : List Char) :
    Cuts (s.spelling ++ ' ' :: rest) [mark s] rest := by
  obtain ⟨c, cs, hs, hskip, hscan⟩ := Lexeme.scansAs_of_spells (Spells.symbol s)
  have hfollowed := Lexeme.scan_followed hscan rest
  have htext : mark s = (.symbol s, String.ofList (c :: cs)) := by
    rw [mark, hs]
  rw [hs] at hfollowed ⊢
  rw [htext]
  exact .lexeme hskip hfollowed nofun (.blank (.done rest))

theorem ofPair?_eq_none {c d : Char} (hc : c ∉ ['|', '-', '=', ':']) :
    Symbol.ofPair? c d = none := by
  unfold Symbol.ofPair?
  split <;> simp_all

/-- A symbol of one character ends there, if no longer symbol begins with it. -/
theorem single {s : Symbol} {c : Char} (hs : s.spelling = [c]) (hc : c ∉ ['|', '-', '=', ':'])
    (rest : List Char) : Cuts (c :: rest) [mark s] rest := by
  have hfirst : c ≠ '"' ∧ Text.isDigit c = false ∧ Text.startsName c = false
      ∧ Symbol.ofChar? c = some s ∧ (Text.isBlank c || c == '#') = false := by
    cases s <;> cases hs <;> decide
  obtain ⟨hquote, hdigit, hletter, hchar, hskip⟩ := hfirst
  have hscan : Lexeme.scan c rest = .ok ⟨.symbol s, [c], [c], rest⟩ := by
    unfold Lexeme.scan
    rw [if_neg hquote, if_neg (by simp [hdigit]), if_neg (by simp [hletter])]
    cases rest <;> simp [Lexeme.scanSymbol, hchar, ofPair?_eq_none hc]
  have htext : mark s = (.symbol s, String.ofList [c]) := by
    rw [mark, hs]
  rw [htext]
  exact .lexeme hskip hscan nofun (.done rest)

end Cuts

/-- A text that is a name. -/
def IsName (s : String) : Prop := Spells s.toList .name s.toList

theorem endsName_cons {c : Char} (hc : Text.continuesName c = false) (rest : List Char) :
    EndsName (c :: rest) := by
  intro d hd
  obtain rfl : c = d := by simpa using hd
  exact hc

namespace Cuts

variable {rest : List Char}

/-- A name ends where no character of a name follows. -/
theorem name {s : String} (h : IsName s) (hrest : EndsName rest) :
    Cuts (s.toList ++ rest) [word s] rest := by
  have hname : ∀ {cs text : List Char}, Spells cs .name text →
      Cuts (cs ++ rest) [(.name, String.ofList text)] rest := by
    intro cs text hspells
    cases hspells with
    | @name c cs hc hcs hfree =>
        have htake : (cs ++ rest).takeWhile Text.continuesName = cs := by
          rw [List.takeWhile_append_of_pos hcs]
          cases rest with
          | nil => simp
          | cons d rest => simp [hrest d rfl]
        have hdrop : (cs ++ rest).dropWhile Text.continuesName = rest := by
          rw [List.dropWhile_append_of_pos hcs]
          cases rest with
          | nil => simp
          | cons d rest => simp [hrest d rfl]
        obtain ⟨hskip, hscan⟩ := Lexeme.scan_word hc (cs ++ rest)
        rw [Lexeme.scanWord, htake, hdrop, Lexeme.wordKind_of_free hfree] at hscan
        exact .lexeme hskip hscan (by decide) (.done rest)
  have hcut := hname h
  rwa [String.ofList_toList] at hcut

/-! ## Lists -/

/-- Pieces with separators between them, of which none runs together with what follows. -/
theorem intercalate {α : Type} {text : α → List Char} {keys : α → List (Kind × String)}
    {sep : List Char} {sepKeys : List (Kind × String)}
    (hsep : ∀ rest, EndsName (sep ++ rest) ∧ Cuts (sep ++ rest) sepKeys rest) {as : List α}
    (has : ∀ a ∈ as, ∀ rest, EndsName rest → Cuts (text a ++ rest) (keys a) rest)
    (hrest : EndsName rest) :
    Cuts (sep.intercalate (as.map text) ++ rest) (sepKeys.intercalate (as.map keys)) rest := by
  induction as with
  | nil => exact .done rest
  | cons a as ih =>
      cases as with
      | nil => simpa using has a List.mem_cons_self rest hrest
      | cons b as =>
          have htail := ih fun c hc => has c (List.mem_cons_of_mem a hc)
          simp only [List.map_cons, List.intercalate_cons_cons, List.append_assoc] at htail ⊢
          obtain ⟨hends, hcut⟩ := hsep (sep.intercalate (text b :: as.map text) ++ rest)
          exact (has a List.mem_cons_self _ hends).append (hcut.append htail)

end Cuts

end TypedPrompt
