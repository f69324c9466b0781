/-
# `Proofs.Token.Rendering` — lexing undoes rendering

A `Vocable` is a token apart from its places: a symbol, a reserved word, a truth
value, a name, a number, or a literal, which may hold any text if it is a string and
any text without three quotes too early if it is a template.  Each has one canonical
way to be written.  `tokensOf_render` writes a sequence of them with a single space
between one and the next, and finds the same sequence again.

Two facts make the induction over the sequence go through.  A vocable in writing
denotes itself (`Vocable.spells_written`) and is scanned as such up to its last
character (`Lexeme.scansAs_of_spells`), and a blank behind it changes nothing of that
(`Lexeme.scan_followed`).  So no two neighbours can
run together, whatever they are: a bar and a pipe, a number and a point, or an empty
string in front of another one.
-/
import Mathlib.Data.List.TakeWhile
import TypedPrompt.Proofs.Token.Padding

namespace TypedPrompt

/-! ## What a lexeme begins with -/

namespace Text

theorem Ranges.exists_of_contains {rs : Ranges} {n : Nat} (h : rs.contains n = true) :
    ∃ r ∈ rs, r.1 ≤ n ∧ n ≤ r.2 := by
  induction rs with
  | nil => cases h
  | cons r rs ih =>
      obtain ⟨low, high⟩ := r
      rw [contains] at h
      split at h
      · next hhigh => exact ⟨_, List.mem_cons_self, of_decide_eq_true h, hhigh⟩
      · obtain ⟨r, hr, hn⟩ := ih h
        exact ⟨r, List.mem_cons_of_mem _ hr, hn⟩

/-- No name begins with white space. -/
theorem isBlank_of_startsName {c : Char} (h : startsName c = true) : isBlank c = false := by
  have apart : ∀ r ∈ blankRanges, ∀ n ∈ List.range' r.1 (r.2 + 1 - r.1),
      letterRanges.contains n = false ∧ n ≠ '_'.toNat := by
    decide +kernel
  rw [Bool.eq_false_iff]
  intro hb
  obtain ⟨r, hr, hlow, hhigh⟩ := Ranges.exists_of_contains hb
  obtain ⟨hletter, hline⟩ := apart r hr c.toNat (List.mem_range'_1.mpr ⟨hlow, by omega⟩)
  rcases Bool.or_eq_true_iff.mp h with h | h
  · exact absurd (h.symm.trans hletter) (by decide)
  · exact hline (congrArg Char.toNat (eq_of_beq h))

/-- A digit begins neither a name nor a gap nor a literal. -/
theorem isDigit_apart {c : Char} (h : isDigit c = true) :
    startsName c = false ∧ isBlank c = false ∧ c ≠ '"' ∧ c ≠ '#' := by
  have apart : ∀ n ∈ List.range' 48 10, letterRanges.contains n = false
      ∧ blankRanges.contains n = false ∧ n ≠ '_'.toNat ∧ n ≠ '"'.toNat ∧ n ≠ '#'.toNat := by
    decide +kernel
  rw [isDigit, Bool.and_eq_true, decide_eq_true_eq, decide_eq_true_eq] at h
  have hlow : 48 ≤ c.toNat := h.1
  have hhigh : c.toNat ≤ 57 := h.2
  obtain ⟨hletter, hblank, hline, hquote, hcomment⟩ :=
    apart c.toNat (List.mem_range'_1.mpr ⟨hlow, by omega⟩)
  refine ⟨?_, hblank, fun he => hquote (congrArg Char.toNat he),
    fun he => hcomment (congrArg Char.toNat he)⟩
  rw [startsName, isLetter, hletter, Bool.false_or, beq_eq_false_iff_ne]
  exact fun he => hline (congrArg Char.toNat he)

end Text

/-! ## The vocabulary -/

/-- A token of the vocabulary, apart from its places. -/
inductive Vocable where
  | symbol (s : Symbol)
  | keyword (k : Keyword)
  | boolean (b : Bool)
  | name (c : Char) (cs : List Char) (starts : Text.startsName c = true)
      (continues : ∀ d ∈ cs, Text.continuesName d = true)
      (free : IsFreeWord (String.ofList (c :: cs)))
  | integer (ds : List Char) (digits : IsDigits ds)
  | decimal (ds fs : List Char) (whole : IsDigits ds) (fraction : IsDigits fs)
  | string (text : List Char)
  /-- `plain`: the quotes that close it are the first three in a row -/
  | template (text : List Char) (plain : ¬ Lexeme.tripleQuote <:+: text ++ ['"', '"'])

namespace Vocable

/-- The kind of the token. -/
def kind : Vocable → Kind
  | symbol s => .symbol s
  | keyword k => .keyword k
  | boolean _ => .boolean
  | name .. => .name
  | integer .. => .number
  | decimal .. => .number
  | string _ => .string
  | template .. => .template

/-- The text that the token denotes. -/
def text : Vocable → List Char
  | symbol s => s.spelling
  | keyword k => k.word.toList
  | boolean b => (if b then "true" else "false").toList
  | name c cs .. => c :: cs
  | integer ds _ => ds
  | decimal ds fs .. => ds ++ '.' :: fs
  | string text => text
  | template text _ => text

/-- How a character stands in a string literal. -/
def escape : Char → List Char
  | '\\' => ['\\', '\\']
  | '"' => ['\\', '"']
  | '\n' => ['\\', 'n']
  | '\r' => ['\\', 'r']
  | '\t' => ['\\', 't']
  | c => [c]

/-- The token in writing. -/
def written : Vocable → List Char
  | string text => '"' :: (text.flatMap escape ++ ['"'])
  | template text _ => Lexeme.tripleQuote ++ (text ++ Lexeme.tripleQuote)
  | v => v.text

/-- Tokens in writing, a space between one and the next. -/
def render (vs : List Vocable) : List Char := [' '].intercalate (vs.map written)

/-! ## A single token -/

/-- Escapes are undone exactly. -/
theorem escaped_flatMap_escape (text : List Char) : Escaped (text.flatMap escape) text := by
  induction text with
  | nil => exact .nil
  | cons c text ih =>
      rw [List.flatMap_cons]
      unfold escape
      split
      · exact .escape ih
      · exact .escape ih
      · exact .escape ih
      · exact .escape ih
      · exact .escape ih
      · next hescape hquote _ _ _ => exact .plain hquote hescape ih

/-- What a vocable is written as denotes it. -/
theorem spells_written (v : Vocable) : Spells v.written v.kind v.text := by
  cases v with
  | symbol s => exact .symbol s
  | keyword k => exact .keyword k
  | boolean b => exact .boolean (by cases b <;> simp)
  | name c cs starts continues free => exact .name starts continues free
  | integer ds digits => exact .integer digits
  | decimal ds fs whole fraction => exact .decimal whole fraction
  | string text => exact .string (escaped_flatMap_escape text)
  | template text plain => exact .template plain

end Vocable

namespace Lexeme

/-- The lexeme is scanned to its end, as the token that it denotes, and nothing in front of
it is skipped. -/
def ScansAs (lexeme : List Char) (kind : Kind) (text : List Char) : Prop :=
  ∃ c cs, lexeme = c :: cs ∧ (Text.isBlank c || c == '#') = false
    ∧ scan c cs = .ok ⟨kind, text, lexeme, []⟩

/-- A letter begins a word, and nothing in front of it is skipped. -/
theorem scan_word {c : Char} (hc : Text.startsName c = true) (cs : List Char) :
    (Text.isBlank c || c == '#') = false ∧ scan c cs = .ok (scanWord c cs) := by
  have hquote : c ≠ '"' := by
    rintro rfl
    exact absurd hc (by decide)
  have hcomment : (c == '#') = false := by
    rw [beq_eq_false_iff_ne]
    rintro rfl
    exact absurd hc (by decide)
  have hdigit : ¬ Text.isDigit c = true := by
    intro hd
    rw [(Text.isDigit_apart hd).1] at hc
    cases hc
  refine ⟨by rw [Text.isBlank_of_startsName hc, hcomment]; rfl, ?_⟩
  unfold scan
  rw [if_neg hquote, if_neg hdigit, if_pos hc]

theorem scansAs_word {c : Char} {cs : List Char} (hc : Text.startsName c = true)
    (hcs : ∀ d ∈ cs, Text.continuesName d = true) :
    ScansAs (c :: cs) (wordKind (String.ofList (c :: cs))) (c :: cs) := by
  obtain ⟨hskip, hscan⟩ := scan_word hc cs
  refine ⟨c, cs, rfl, hskip, ?_⟩
  rw [hscan, scanWord, List.takeWhile_eq_self_iff.mpr hcs, List.dropWhile_eq_nil_iff.mpr hcs]

theorem scansAs_number {ds : List Char} (h : IsDigits ds) (rest : List Char)
    (hn : scanNumber (ds ++ rest) = ⟨.number, ds ++ rest, ds ++ rest, []⟩) :
    ScansAs (ds ++ rest) .number (ds ++ rest) := by
  obtain ⟨hne, hdigits⟩ := h
  cases ds with
  | nil => exact absurd rfl hne
  | cons c cs =>
      have hc := hdigits c List.mem_cons_self
      obtain ⟨-, hblank, hquote, hcomment⟩ := Text.isDigit_apart hc
      refine ⟨c, cs ++ rest, rfl, by rw [hblank, beq_false_of_ne hcomment]; rfl, ?_⟩
      unfold scan
      rw [if_neg hquote, if_pos hc]
      exact congrArg Except.ok hn

theorem scanNumber_integer {ds : List Char} (h : IsDigits ds) :
    scanNumber ds = ⟨.number, ds, ds, []⟩ := by
  rw [scanNumber, Numeral.spanDigits_of_digits h.2]
  rfl

theorem scanNumber_decimal {ds fs : List Char} (h : IsDigits ds) (hf : IsDigits fs) :
    scanNumber (ds ++ '.' :: fs) = ⟨.number, ds ++ '.' :: fs, ds ++ '.' :: fs, []⟩ := by
  have hpoint : ∀ c ∈ ('.' :: fs).head?, Text.isDigit c = false := by
    simp [Reading.isDigit_point]
  rw [scanNumber, Numeral.spanDigits_of_all h.2 hpoint]
  simp only [Numeral.scanFraction_point hf.1 hf.2]

theorem scansAs_string {written text : List Char} (h : Escaped written text) :
    ScansAs ('"' :: (written ++ ['"'])) .string text := by
  refine ⟨'"', written ++ ['"'], rfl, by decide, ?_⟩
  have hs : scanString (written ++ ['"']) = .ok ⟨.string, text, '"' :: (written ++ ['"']), []⟩ := by
    rw [scanString, splitString_of_escaped h]
  rw [← hs]
  -- a quote stands behind the opening one only where the literal is empty, and then no third
  cases h with
  | nil => rfl
  | plain hquote _ _ =>
      unfold scan
      rw [if_pos rfl]
      split
      · next heq => exact absurd (List.cons.inj heq).1 hquote
      · rfl
  | escape _ => rfl

theorem scansAs_template {text : List Char} (h : ¬ tripleQuote <:+: text ++ ['"', '"']) :
    ScansAs (tripleQuote ++ (text ++ tripleQuote)) .template text := by
  refine ⟨'"', '"' :: '"' :: (text ++ tripleQuote), rfl, by decide, ?_⟩
  have hs := splitTemplate_of_first h []
  rw [List.append_nil] at hs
  show scanTemplate (text ++ tripleQuote) = _
  rw [scanTemplate, hs]
  simp only [List.append_assoc]

theorem wordKind_of_free {word : String} (h : IsFreeWord word) : wordKind word = .name := by
  obtain ⟨hkeyword, htrue, hfalse⟩ := h
  have hnone : Keyword.ofWord? word = none := by
    rw [Keyword.ofWord?, List.find?_eq_none]
    intro k _ hk
    exact hkeyword k (eq_of_beq hk)
  rw [wordKind, hnone]
  simp [htrue, hfalse]

/-- What denotes a token is scanned as this token. -/
theorem scansAs_of_spells {lexeme text : List Char} {kind : Kind} (h : Spells lexeme kind text) :
    ScansAs lexeme kind text := by
  cases h with
  | symbol s => cases s <;> exact ⟨_, _, rfl, rfl, rfl⟩
  | keyword k => cases k <;> exact scansAs_word (by decide) (List.all_eq_true.mp (by decide))
  | boolean hword =>
      rcases hword with rfl | rfl <;>
        exact scansAs_word (by decide) (List.all_eq_true.mp (by decide))
  | name hc hcs hfree =>
      rw [← wordKind_of_free hfree]
      exact scansAs_word hc hcs
  | integer hds =>
      have hscan := scansAs_number hds []
      rw [List.append_nil] at hscan
      exact hscan (scanNumber_integer hds)
  | decimal hds hfs => exact scansAs_number hds _ (scanNumber_decimal hds hfs)
  | string hw => exact scansAs_string hw
  | template hplain => exact scansAs_template hplain

end Lexeme

/-! ## Sequences -/

/-- What a token says: its kind and its text. -/
def Token.content (t : Token) : Kind × String := (t.kind, t.text)

/-- What a token of the vocabulary says. -/
def Vocable.content (v : Vocable) : Kind × String := (v.kind, String.ofList v.text)

namespace Cursor

/-- At the end of the source, or in front of a blank. -/
def Pauses (rest : List Char) : Prop := rest = [] ∨ ∃ ds, rest = ' ' :: ds

/-- A vocable in writing is the next token, if what is behind it lets it end there. -/
theorem next_written {c : Cursor} {v : Vocable} {rest : List Char}
    (hc : c.rest = v.written ++ rest) (hrest : Pauses rest) :
    ∃ t d, c.next = (.ok t, d) ∧ t.content = v.content ∧ d.rest = rest := by
  obtain ⟨ch, cs, hwritten, hskip, hscan⟩ := Lexeme.scansAs_of_spells v.spells_written
  rw [hwritten] at hc hscan
  rcases hrest with rfl | ⟨ds, rfl⟩
  · rw [List.append_nil] at hc
    exact ⟨_, _, next_of_scan hc hskip hscan, rfl, rfl⟩
  · exact ⟨_, _, next_of_scan hc hskip (Lexeme.scan_followed hscan ds), rfl, rfl⟩

theorem drain_written {c : Cursor} {v : Vocable} {rest : List Char}
    (hc : c.rest = v.written ++ rest) (hrest : Pauses rest) :
    ∃ (t : Token) (d : Cursor),
      c.drain.1 = .cons t d.drain.1 ∧ t.content = v.content ∧ d.rest = rest := by
  obtain ⟨t, d, hnext, ht, hd⟩ := next_written hc hrest
  have hkind : t.kind ≠ .endOfInput := by
    rw [show t.kind = v.kind from congrArg Prod.fst ht]
    exact v.spells_written.kind_ne_endOfInput
  exact ⟨t, d, congrArg Prod.fst (drain_cons hnext hkind), ht, hd⟩

theorem drain_nil {c : Cursor} (hc : c.rest = []) :
    ∃ eof, c.drain.1 = Tokens.ofList eof [] ∧ eof.content = (.endOfInput, "") := by
  have hskip : c.skip.rest = [] := by
    show (trivia c.rest).2 = []
    rw [hc]
    rfl
  have hnext : c.next = (.ok (Token.endAt c.skip.position), c.skip) := by
    rw [next, take, hskip]
  exact ⟨_, congrArg Prod.fst (drain_finish hnext rfl), rfl⟩

/-- From a cursor in front of a rendering, its tokens are found up to the end. -/
theorem drain_render {c : Cursor} {vs : List Vocable} (hc : c.rest = Vocable.render vs) :
    ∃ eof ts, c.drain.1 = Tokens.ofList eof ts ∧ ts.map Token.content = vs.map Vocable.content
      ∧ eof.content = (.endOfInput, "") := by
  induction vs generalizing c with
  | nil =>
      obtain ⟨eof, hdrain, heof⟩ := drain_nil hc
      exact ⟨eof, [], hdrain, rfl, heof⟩
  | cons v vs ih =>
      cases vs with
      | nil =>
          have hc : c.rest = v.written ++ [] := by
            rw [hc, Vocable.render, List.append_nil]
            exact List.intercalate_singleton
          obtain ⟨t, d, hdrain, ht, hd⟩ := drain_written hc (.inl rfl)
          obtain ⟨eof, hend, heof⟩ := drain_nil hd
          exact ⟨eof, [t], by rw [hdrain, hend]; rfl, by simp [ht], heof⟩
      | cons u vs =>
          have hc : c.rest = v.written ++ (' ' :: Vocable.render (u :: vs)) := by
            rw [hc, Vocable.render, List.map_cons, List.map_cons, List.intercalate_cons_cons]
            simp [Vocable.render]
          obtain ⟨t, d, hdrain, ht, hd⟩ := drain_written hc (.inr ⟨_, rfl⟩)
          rw [drain_blank d _ hd] at hdrain
          obtain ⟨eof, ts, hrest, hts, heof⟩ :=
            ih (c := d.pass [' '] (Vocable.render (u :: vs))) rfl
          exact ⟨eof, t :: ts, by rw [hdrain, hrest]; rfl, by simp [ht, hts], heof⟩

end Cursor

/-- Tokens in writing, joined with single spaces, are cut into tokens with the same kinds and
texts, wherever the source begins, and the end of the input behind them. -/
theorem tokensOf_render (p : Position) (vs : List Vocable) :
    ∃ eof ts, tokensOf p (Vocable.render vs) = Tokens.ofList eof ts
      ∧ ts.map Token.content = vs.map Vocable.content ∧ eof.content = (.endOfInput, "") :=
  Cursor.drain_render rfl

example : Vocable.render [.string [], .string ['#', '"', '\n'], .symbol .dot]
    = "\"\" \"#\\\"\\n\" .".toList := by
  decide

end TypedPrompt
