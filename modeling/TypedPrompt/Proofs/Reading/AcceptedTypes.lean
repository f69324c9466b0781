/-
# `Proofs.Reading.AcceptedTypes` — a type that has a derivation is read

The reader of types is greedy, and what it is greedy about is described by
`TypeStart` and `TypeTail`: an atom leaves a tail that goes on with a mark or is
empty, an intersection one that does not go on with `&`, and a union none.

Two choices are made by looking ahead.  A name with `[` or `{` behind it has
arguments, so neither may follow a type; and a parenthesis opens a function type
exactly if `)` follows, or a name with `:` or `?` behind it.

A type needs no more levels than it has tokens, since whatever nests in it stands
between brackets or behind an arrow.
-/
import TypedPrompt.Proofs.Reading.Continuations

namespace TypedPrompt

/-- Opens the arguments of a name in a type. -/
def Kind.opensArguments : Kind → Bool
  | .symbol .leftBracket | .symbol .leftBrace => true
  | _ => false

/-- Makes a type go on. -/
def Kind.continuesType : Kind → Bool
  | .symbol .bar | .symbol .ampersand | .symbol .leftBracket | .symbol .leftBrace => true
  | _ => false

theorem Kind.continuesType_of_opensArguments {k : Kind} (h : k.opensArguments = true) :
    k.continuesType = true := by
  unfold opensArguments at h
  split at h
  · rfl
  · rfl
  · cases h

namespace Reading

open Reader Grammar

/-- Types of a weight are read, all of their tokens and no others. -/
def AcceptsTypes (weight : Nat) (inner : Reader Ty) : Prop :=
  ∀ (eof : EndToken) (ts rest : List Token), TypeStart ts → Token.weights ts ≤ weight →
    (nextKind rest).continuesType = false → Leaves eof inner (ts ++ rest) rest fun _ => True

theorem AcceptsTypes.annotation {weight : Nat} {inner : Reader Ty} (h : AcceptsTypes weight inner)
    {eof : EndToken} {ts rest : List Token} {t : Ty} (ht : Annotation ts t)
    (hw : Token.weights ts ≤ weight) (hrest : (nextKind rest).continuesType = false) :
    Leaves eof inner (ts ++ rest) rest fun _ => True := by
  have hs := ht.start .nil
  rw [List.append_nil] at hs
  exact h eof ts rest hs hw hrest

/-! ## Bounds and settings -/

section Arguments

variable {eof : EndToken} {ts rest : List Token}

theorem integer_of_isInteger {t : Token} (h : IsInteger t) :
    (numeral t).fraction = none ∧ ∃ v, integer (numeral t) = .ok v := by
  refine ⟨numeral_fraction_eq_none h.no_point, ?_⟩
  have hw : ¬ maxDigits < (numeral t).whole.length := by
    have hle : (numeral t).whole.length ≤ t.text.toList.length :=
      (List.takeWhile_prefix Text.isDigit).length_le
    have := h.readable
    omega
  rw [integer, Numeral.toInt?, if_neg hw]
  exact ⟨_, rfl⟩

theorem lengthBound_leaves {n : Token} (h : IsInteger n) :
    Leaves eof lengthBound (n :: rest) rest fun _ => True := by
  obtain ⟨hf, v, hv⟩ := integer_of_isInteger h
  refine Leaves.bind (Leaves.expect h.number) ?_
  rintro _ rfl
  refine Leaves.ite_neg (by simp [hf]) ?_
  exact Leaves.lift hv trivial

theorem nextBound_leaves {c n : Token} (hc : c.kind = .symbol .comma) (h : IsInteger n) :
    Leaves eof nextBound (c :: n :: rest) rest (·.isSome = true) := by
  refine Leaves.accept_ite_yes hc ?_
  refine Leaves.bind (lengthBound_leaves h) ?_
  intro v _
  exact Leaves.pure rfl

theorem nextBound_leaves_none (h : nextKind rest ≠ .symbol .comma) :
    Leaves eof nextBound rest rest (·.isSome = false) :=
  Leaves.accept_ite_no h (Leaves.pure rfl)

theorem lengthBounds_leaves {b : Option Int × Option Int} (h : Bounds ts b)
    (hrest : nextKind rest ≠ .symbol .comma) :
    Leaves eof lengthBounds (ts ++ rest) rest fun _ => True := by
  cases h with
  | none =>
      refine Leaves.bind (nextBound_leaves_none hrest) ?_
      intro least hl
      exact Leaves.ite_neg (by simp [hl]) (Leaves.pure trivial)
  | least hc hn =>
      refine Leaves.bind (nextBound_leaves hc hn) ?_
      intro least hl
      refine Leaves.ite_pos hl (Leaves.bind (nextBound_leaves_none hrest) ?_)
      intro most _
      exact Leaves.pure trivial
  | both hc hn hd hm =>
      refine Leaves.bind (nextBound_leaves hc hn) ?_
      intro least hl
      refine Leaves.ite_pos hl (Leaves.bind (nextBound_leaves hd hm) ?_)
      intro most _
      exact Leaves.pure trivial

theorem temperature_leaves {n : Token} {what : Expectation} (h : n.kind = .number) :
    Leaves eof (temperature what) (n :: rest) rest fun _ => True := by
  refine Leaves.bind (Leaves.expect h) ?_
  intro t _
  exact Leaves.pure trivial

theorem promptSettings_leaves {s : Option String × Option Binary64} (h : PromptSettings ts s)
    (hrest : nextKind rest ≠ .symbol .comma) :
    Leaves eof promptSettings (ts ++ rest) rest fun _ => True := by
  cases h with
  | none => exact Leaves.accept_ite_no hrest (Leaves.pure trivial)
  | model hc hs =>
      refine Leaves.accept_ite_yes hc (Leaves.at_bind (Leaves.ite_pos (by simp [hs]) ?_))
      refine Leaves.bind Leaves.step ?_
      intro model _
      exact Leaves.accept_ite_no hrest (Leaves.pure trivial)
  | both hc hs hd hn =>
      refine Leaves.accept_ite_yes hc (Leaves.at_bind (Leaves.ite_pos (by simp [hs]) ?_))
      refine Leaves.bind Leaves.step ?_
      intro model _
      refine Leaves.accept_ite_yes hd (Leaves.bind (temperature_leaves hn) ?_)
      intro x _
      exact Leaves.pure trivial
  | temperature hc hn =>
      refine Leaves.accept_ite_yes hc (Leaves.at_bind (Leaves.ite_neg (by simp [hn]) ?_))
      refine Leaves.bind (temperature_leaves hn) ?_
      intro x _
      exact Leaves.pure trivial

theorem question_leaves {b : Bool} (h : Question ts b)
    (hrest : nextKind rest ≠ .symbol .question) :
    Leaves eof (accept (.symbol .question)) (ts ++ rest) rest fun _ => True := by
  cases h with
  | no => exact (Leaves.accept_no hrest).mono fun _ _ => trivial
  | yes hq => exact (Leaves.accept_yes hq).mono fun _ _ => trivial

/-- A name without arguments, where the next token opens none. -/
theorem accept_arguments_no {α : Type} {p q : Reader α} {Q : α → Prop} {left : Symbol}
    (hleft : (Kind.symbol left).opensArguments = true)
    (hrest : (nextKind rest).opensArguments = false) (hq : Leaves eof q rest rest Q) :
    Leaves eof (accept (.symbol left) >>= fun b => if b = true then p else q) rest rest Q := by
  refine Leaves.accept_ite_no ?_ hq
  intro h
  rw [h, hleft] at hrest
  cases hrest

end Arguments

/-! ## Parentheses -/

/-- A type begins with a parenthesis, or with a name and nothing that would make it
a parameter. -/
theorem typeStart_front {ts : List Token} (h : TypeStart ts) :
    nextKind ts = .symbol .leftParen
      ∨ ∃ n us, ts = n :: us ∧ n.kind = .name
        ∧ (us = [] ∨ (nextKind us).continuesType = true) := by
  have tail : ∀ {us : List Token}, TypeTail us → us = [] ∨ (nextKind us).continuesType = true := by
    intro us h
    cases h with
    | nil => exact .inl rfl
    | member hm _ =>
        right
        rcases hm with hm | hm <;> rw [nextKind_cons, hm] <;> rfl
  have arguments : ∀ {n : Token} {us vs : List Token} {left right : Symbol} {α : Type}
      {R : Phrase α} {a : α}, n.kind = .name → (Kind.symbol left).continuesType = true →
      Enclosed left right R us a → ∃ m ws, n :: us ++ vs = m :: ws ∧ m.kind = .name
        ∧ (ws = [] ∨ (nextKind ws).continuesType = true) := by
    intro n us vs left right α R a hn hleft h
    cases h with
    | intro hl _ _ => exact ⟨n, _, rfl, hn, .inr (by rw [← hleft, ← hl]; rfl)⟩
  cases h with
  | header h _ =>
      left
      cases h with
      | intro h _ =>
          cases h with
          | intro hl _ _ => exact hl
  | closed h ht =>
      obtain ⟨t, h | h⟩ := h
      · left
        cases h with
        | intro hl _ _ => exact hl
      · right
        cases h with
        | primitive _ hn | never hn | list hn | record hn | dynamic hn | prompt hn =>
            exact ⟨_, _, rfl, hn.1, tail ht⟩
        | other hn _ => exact ⟨_, _, rfl, hn, tail ht⟩
        | listOf hn h | recordOf hn h _ | dynamicOf hn h | promptOf hn h =>
            exact arguments hn.1 rfl h

theorem typeStart_ne_nil {ts : List Token} (h : TypeStart ts) : ∃ t us, ts = t :: us := by
  rcases typeStart_front h with hp | ⟨n, us, rfl, -, -⟩
  · cases ts with
    | nil => cases hp
    | cons t us => exact ⟨t, us, rfl⟩
  · exact ⟨n, us, rfl⟩

theorem typeStart_nextKind {ts : List Token} (h : TypeStart ts) :
    nextKind ts ≠ .endOfInput := by
  rcases typeStart_front h with hp | ⟨n, us, rfl, hn, -⟩
  · simp [hp]
  · simp [hn]

/-- Where a type does not go on, neither mark of a member is next. -/
theorem ne_mark {k : Kind} (h : k.continuesType = false) :
    k ≠ .symbol .bar ∧ k ≠ .symbol .ampersand := by
  constructor <;> rintro rfl <;> cases h

theorem typeStart_of_tail {m : Token} {us : List Token} (h : TypeTail (m :: us)) :
    TypeStart us := by
  cases h with
  | member _ h => exact h

section Parentheses

variable {eof : EndToken} {ts rest : List Token}

variable (eof rest) in
/-- A type in parentheses does not look like a function type. -/
theorem opensFunctionType_group (l : Token) {r : Token} (h : TypeStart ts)
    (hr : r.kind = .symbol .rightParen) :
    ∃ us, Leaves eof opensFunctionType (l :: (ts ++ r :: rest)) us (· = false) := by
  rcases typeStart_front h with hp | ⟨n, us, rfl, hn, hus⟩
  · cases ts with
    | nil => cases hp
    | cons p ts =>
        rw [nextKind_cons] at hp
        refine ⟨p :: (ts ++ r :: rest), Leaves.bind Leaves.step fun _ _ => Leaves.peek_bind ?_⟩
        exact Leaves.ite_neg (by simp [hp]) (Leaves.ite_neg (by simp [hp]) (Leaves.pure rfl))
  · have hstop : nextKind (us ++ r :: rest) ≠ .symbol .colon
        ∧ nextKind (us ++ r :: rest) ≠ .symbol .question := by
      rcases hus with rfl | hus
      · simp [hr]
      · rcases nextKind_append_cases us (r :: rest) with ⟨rfl, -⟩ | h
        · simp [hr]
        · rw [h]
          constructor <;> intro hk <;> rw [hk] at hus <;> cases hus
    refine ⟨us ++ r :: rest, Leaves.bind Leaves.step fun _ _ => ?_⟩
    refine Leaves.peek_bind (Leaves.ite_neg (by simp [hn]) (Leaves.ite_pos hn ?_))
    refine Leaves.bind Leaves.step fun _ _ => peek_next fun t ht => Leaves.pure ?_
    simp [ht, hstop.1, hstop.2]

variable (eof) in
/-- The parameters of a function type do. -/
theorem opensFunctionType_header (us : List Token) (h : FunctionHeader ts) :
    nextKind ts = .symbol .leftParen
      ∧ ∃ vs, Leaves eof opensFunctionType (ts ++ us) vs (· = true) := by
  have named : ∀ {vs more : List Token} {n : NamedType} {l : Token}, Named vs n →
      ∃ ws, Leaves eof opensFunctionType (l :: (vs ++ more)) ws (· = true) := by
    intro vs more n l h
    cases h with
    | @intro n c qs ts rs early late t hn hq hc _ _ =>
        simp only [List.cons_append, List.append_assoc]
        refine ⟨qs ++ c :: (ts ++ (rs ++ more)), Leaves.bind Leaves.step fun _ _ => ?_⟩
        refine Leaves.peek_bind (Leaves.ite_neg (by simp [hn]) (Leaves.ite_pos hn ?_))
        refine Leaves.bind Leaves.step fun _ _ => peek_next fun t ht => Leaves.pure ?_
        cases hq with
        | no => simp [ht, hc]
        | yes hq => simp [ht, hq]
  cases h with
  | @intro _ _ arrow h _ =>
      cases h with
      | @intro l r ps _ hl hps hr =>
          refine ⟨hl, ?_⟩
          simp only [List.cons_append, List.append_assoc]
          cases hps with
          | none =>
              refine ⟨r :: arrow :: us, Leaves.bind Leaves.step fun _ _ => Leaves.peek_bind ?_⟩
              exact Leaves.ite_pos hr (Leaves.pure rfl)
          | some hps =>
              cases hps with
              | last hn => exact named hn
              | next hn _ _ =>
                  simp only [List.append_assoc]
                  exact named hn

end Parentheses

section Productions

variable {eof : EndToken} {weight : Nat} {inner : Reader Ty} (hinner : AcceptsTypes weight inner)
  {ts rest : List Token}

include hinner

/-! ## Names and their types -/

theorem namedType_leaves {n : NamedType} (h : Named ts n) (hw : Token.weights ts ≤ weight)
    (hrest : nextKind rest = .symbol .comma ∨ nextKind rest = .symbol .rightParen
      ∨ nextKind rest = .symbol .rightBrace) :
    Leaves eof (namedType inner) (ts ++ rest) rest (·.1 = n.name) := by
  have hquestion : nextKind rest ≠ .symbol .question := by
    rcases hrest with h | h | h <;> simp [h]
  have hstop : (nextKind rest).continuesType = false := by
    rcases hrest with h | h | h <;> rw [h] <;> rfl
  cases h with
  | @intro n c qs ts rs early late t hn hq hc ht hr =>
      simp only [Token.weights_cons, Token.weights_append] at hw
      simp only [List.cons_append, List.append_assoc]
      have hlate : (nextKind (rs ++ rest)).continuesType = false := by
        cases hr with
        | no => exact hstop
        | yes hq => rw [List.singleton_append, nextKind_cons, hq]; rfl
      refine Leaves.bind (Leaves.expect hn) ?_
      rintro _ rfl
      refine Leaves.bind (question_leaves hq (by simp [hc])) ?_
      intro early _
      refine Leaves.bind (Leaves.expect hc) ?_
      intro c _
      refine Leaves.bind (hinner.annotation ht (by omega) hlate) ?_
      intro type _
      refine Leaves.bind (question_leaves hr hquestion) ?_
      intro late _
      exact Leaves.pure rfl

theorem paramType_leaves {n : NamedType} (h : Named ts n) (hw : Token.weights ts ≤ weight)
    (hrest : nextKind rest = .symbol .comma ∨ nextKind rest = .symbol .rightParen) :
    Leaves eof (paramType inner) (ts ++ rest) rest fun _ => True := by
  have hrest' : nextKind rest = .symbol .comma ∨ nextKind rest = .symbol .rightParen
      ∨ nextKind rest = .symbol .rightBrace := by
    rcases hrest with h | h
    · exact .inl h
    · exact .inr (.inl h)
  refine Leaves.bind (namedType_leaves hinner h hw hrest') ?_
  rintro ⟨name, type, isOptional⟩ _
  exact Leaves.pure trivial

/-- A field is read if no field before it has its name. -/
theorem fieldType_leaves {before : List (Field Ty)} {n : NamedType} (h : Named ts n)
    (hw : Token.weights ts ≤ weight) (hnew : n.name ∉ before.map Field.name)
    (hrest : nextKind rest = .symbol .comma ∨ nextKind rest = .symbol .rightBrace) :
    Leaves eof (fieldType inner before) (ts ++ rest) rest (·.name = n.name) := by
  have hrest' : nextKind rest = .symbol .comma ∨ nextKind rest = .symbol .rightParen
      ∨ nextKind rest = .symbol .rightBrace := by
    rcases hrest with h | h
    · exact .inl h
    · exact .inr (.inr h)
  refine Leaves.bind (namedType_leaves hinner h hw hrest') ?_
  rintro ⟨name, type, isOptional⟩ rfl
  refine Leaves.ite_neg ?_ (Leaves.pure rfl)
  simpa using hnew

/-! ## Types with arguments -/

theorem functionType_leaves {us : List Token} (h : FunctionHeader ts) (hus : TypeStart us)
    (hw : Token.weights (ts ++ us) ≤ weight + 1) (hrest : (nextKind rest).continuesType = false) :
    Leaves eof (functionType inner) (ts ++ us ++ rest) rest fun _ => True := by
  cases h with
  | @intro _ params arrow h ha =>
      cases h with
      | @intro l r ps _ hl hps hr =>
          simp only [Token.weights_cons, Token.weights_append] at hw
          have := l.weight_pos
          have := r.weight_pos
          simp only [List.cons_append, List.append_assoc, List.nil_append]
          refine Leaves.bind (Leaves.expect hl) fun _ _ => ?_
          refine listed_leaves hps (fun _ _ hn => hn.nextKind_eq) hr (by simp) ?_ ?_
          · intro hps
            refine separated_leaves_derived (I := fun _ _ => True) (fun _ _ hn => hn.nextKind_eq)
              ?_ hps trivial hr (by simp)
            intro before vs n ns more hn hle _ hmore
            exact paramType_leaves hinner hn (by omega) hmore
          · intro params
            refine Leaves.bind (Leaves.expect hr) fun _ _ => ?_
            refine Leaves.bind (Leaves.expect ha) fun _ _ => ?_
            refine Leaves.bind (hinner eof us rest hus (by omega) hrest) fun _ _ => ?_
            exact Leaves.pure trivial

theorem listType_leaves {t : Ty} (h : Enclosed .leftBracket .rightBracket ListArguments ts t)
    (hw : Token.weights ts ≤ weight) :
    Leaves eof (listType inner) (ts ++ rest) rest fun _ => True := by
  cases h with
  | @intro l r _ _ hl h hr =>
      cases h with
      | @intro es bs element least most he hb =>
          simp only [Token.weights_cons, Token.weights_append] at hw
          simp only [List.cons_append, List.append_assoc, List.nil_append]
          have hnext : (nextKind (bs ++ r :: rest)).continuesType = false := by
            cases hb with
            | none => rw [List.nil_append, nextKind_cons, hr]; rfl
            | least hc _ | both hc _ _ _ => rw [List.cons_append, nextKind_cons, hc]; rfl
          refine Leaves.accept_ite_yes hl ?_
          refine Leaves.bind (hinner.annotation he (by omega) hnext) fun _ _ => ?_
          refine Leaves.bind (lengthBounds_leaves hb (by simp [hr])) fun bounds _ => ?_
          refine Leaves.bind (Leaves.expect hr) fun _ _ => ?_
          exact Leaves.pure trivial

theorem recordType_leaves {fields : List NamedType}
    (h : Enclosed .leftBrace .rightBrace (Listed (.symbol .comma) Named) ts fields)
    (hd : (fields.map NamedType.name).Nodup) (hw : Token.weights ts ≤ weight) :
    Leaves eof (recordType inner) (ts ++ rest) rest fun _ => True := by
  cases h with
  | @intro l r fs _ hl h hr =>
      simp only [Token.weights_cons, Token.weights_append] at hw
      simp only [List.cons_append, List.append_assoc, List.nil_append]
      refine Leaves.accept_ite_yes hl ?_
      refine listed_leaves h (fun _ _ hn => hn.nextKind_eq) hr (by simp) ?_ ?_
      · intro h
        refine separated_leaves_distinct Field.name (fun _ _ hn => hn.nextKind_eq) ?_ h hd hr
          (by simp)
        intro before us n more hn hle hnew hmore
        exact fieldType_leaves hinner hn (by omega) hnew hmore
      · intro fields
        refine Leaves.bind (Leaves.expect hr) fun _ _ => ?_
        exact Leaves.pure trivial

theorem dynamicType_leaves {t : Ty} (h : Enclosed .leftBracket .rightBracket Annotation ts t)
    (hw : Token.weights ts ≤ weight) :
    Leaves eof (dynamicType inner) (ts ++ rest) rest fun _ => True := by
  cases h with
  | @intro l r us _ hl h hr =>
      simp only [Token.weights_cons, Token.weights_append] at hw
      simp only [List.cons_append, List.append_assoc, List.nil_append]
      refine Leaves.accept_ite_yes hl ?_
      refine Leaves.bind (hinner.annotation h (by omega) (by rw [nextKind_cons, hr]; rfl))
        fun _ _ => ?_
      refine Leaves.bind (Leaves.expect hr) fun _ _ => ?_
      exact Leaves.pure trivial

theorem promptType_leaves {t : Ty} (h : Enclosed .leftBracket .rightBracket PromptArguments ts t)
    (hw : Token.weights ts ≤ weight) :
    Leaves eof (promptType inner) (ts ++ rest) rest fun _ => True := by
  cases h with
  | @intro l r _ _ hl h hr =>
      cases h with
      | @intro is os ss c input output model x hi hc ho hs =>
          simp only [Token.weights_cons, Token.weights_append] at hw
          simp only [List.cons_append, List.append_assoc, List.nil_append]
          have hnext : (nextKind (ss ++ r :: rest)).continuesType = false := by
            cases hs with
            | none => rw [List.nil_append, nextKind_cons, hr]; rfl
            | model hc _ | both hc _ _ _ | temperature hc _ =>
                rw [List.cons_append, nextKind_cons, hc]; rfl
          refine Leaves.accept_ite_yes hl ?_
          refine Leaves.bind (hinner.annotation hi (by omega) (by rw [nextKind_cons, hc]; rfl))
            fun _ _ => ?_
          refine Leaves.bind (Leaves.expect hc) fun _ _ => ?_
          refine Leaves.bind (hinner.annotation ho (by omega) hnext) fun _ _ => ?_
          refine Leaves.bind (promptSettings_leaves hs (by simp [hr])) fun settings _ => ?_
          refine Leaves.bind (Leaves.expect hr) fun _ _ => ?_
          exact Leaves.pure trivial

/-! ## Atoms, intersections, unions -/

variable (eof) in
/-- A name is read with its arguments, or alone where the next token opens none. -/
theorem typeOfName_leaves {n : Token} {t : Ty} (h : Word (n :: ts) t)
    (hw : Token.weights ts ≤ weight) (hrest : (nextKind rest).opensArguments = false) :
    n.kind = .name ∧ Leaves eof (typeOfName inner n.text) (ts ++ rest) rest fun _ => True := by
  cases h with
  | primitive p hn =>
      refine ⟨hn.1, ?_⟩
      rw [hn.2]
      cases p <;> exact Leaves.pure trivial
  | never hn =>
      refine ⟨hn.1, ?_⟩
      rw [hn.2]
      exact Leaves.pure trivial
  | list hn | record hn | dynamic hn | prompt hn =>
      refine ⟨hn.1, ?_⟩
      rw [hn.2]
      exact accept_arguments_no rfl hrest (Leaves.pure trivial)
  | listOf hn h =>
      refine ⟨hn.1, ?_⟩
      rw [hn.2]
      exact listType_leaves hinner h hw
  | recordOf hn h hd =>
      refine ⟨hn.1, ?_⟩
      rw [hn.2]
      exact recordType_leaves hinner h hd hw
  | dynamicOf hn h =>
      refine ⟨hn.1, ?_⟩
      rw [hn.2]
      exact dynamicType_leaves hinner h hw
  | promptOf hn h =>
      refine ⟨hn.1, ?_⟩
      rw [hn.2]
      exact promptType_leaves hinner h hw
  | other hn hm =>
      have hnone : Primitive.ofName? n.text = none := by
        rw [Primitive.ofName?, List.find?_eq_none]
        intro p hp heq
        refine hm (List.mem_append_left _ ?_)
        rw [← eq_of_beq heq]
        exact List.mem_map_of_mem hp
      have hword : ∀ w ∈ ["never", "list", "record", "dynamic", "prompt"], n.text ≠ w := by
        rintro w hw rfl
        exact hm (List.mem_append_right _ hw)
      refine ⟨hn, ?_⟩
      simp only [typeOfName, hnone, hword "never" (by simp), hword "list" (by simp),
        hword "record" (by simp), hword "dynamic" (by simp), hword "prompt" (by simp), if_false]
      exact Leaves.pure trivial

theorem groupedType_leaves {t : Ty} (h : Enclosed .leftParen .rightParen Annotation ts t)
    (hw : Token.weights ts ≤ weight + 1) :
    Leaves eof (groupedType inner) (ts ++ rest) rest fun _ => True := by
  cases h with
  | @intro l r us _ hl h hr =>
      have := l.weight_pos
      simp only [Token.weights_cons, Token.weights_append] at hw
      simp only [List.cons_append, List.append_assoc, List.nil_append]
      refine Leaves.bind Leaves.step fun _ _ => ?_
      refine Leaves.bind (hinner.annotation h (by omega) (by rw [nextKind_cons, hr]; rfl))
        fun _ _ => ?_
      refine Leaves.bind (Leaves.expect hr) fun _ _ => ?_
      exact Leaves.pure trivial

variable (eof) in
/-- An atom that ends where its last bracket or its name ends is read up to there. -/
theorem atomType_leaves_closed (h : ClosedType ts) (hw : Token.weights ts ≤ weight + 1)
    (hrest : (nextKind rest).opensArguments = false) :
    0 < ts.length ∧ Leaves eof (atomType inner) (ts ++ rest) rest fun _ => True := by
  obtain ⟨t, h | h⟩ := h
  · have hg : Leaves eof (groupedType inner) (ts ++ rest) rest fun _ => True :=
      groupedType_leaves hinner h hw
    cases h with
    | @intro l r us _ hl h hr =>
        have hs := h.start .nil
        rw [List.append_nil] at hs
        simp only [List.cons_append, List.append_assoc, List.nil_append] at hg ⊢
        refine ⟨by simp, Leaves.at_bind (Leaves.ite_pos (by simp [hl]) ?_)⟩
        obtain ⟨vs, hvs⟩ := opensFunctionType_group eof rest l hs hr
        refine Leaves.ahead_bind hvs ?_
        rintro _ rfl
        exact hg
  · cases ts with
    | nil => cases h
    | cons n us =>
        have := n.weight_pos
        rw [Token.weights_cons] at hw
        obtain ⟨hn, hl⟩ := typeOfName_leaves eof hinner h (by omega) hrest
        refine ⟨by simp, Leaves.at_bind (Leaves.ite_neg (by simp [hn]) ?_)⟩
        refine Leaves.bind (Leaves.expect hn) ?_
        rintro _ rfl
        exact hl

variable (eof) in
/-- An atom leaves what may follow it in the same type. -/
theorem atomType_leaves (h : TypeStart ts) (hw : Token.weights ts ≤ weight + 1)
    (hrest : (nextKind rest).continuesType = false) :
    ∃ us, us.length < ts.length ∧ (TypeTail us ∧ Token.weights us ≤ weight + 1) ∧
      Leaves eof (atomType inner) (ts ++ rest) (us ++ rest) fun _ => True := by
  cases h with
  | @closed cs us hc ht =>
      rw [Token.weights_append] at hw
      have hnext : (nextKind (us ++ rest)).opensArguments = false := by
        cases ht with
        | nil =>
            rw [← Bool.not_eq_true] at hrest ⊢
            exact mt Kind.continuesType_of_opensArguments hrest
        | member hm _ =>
            rw [List.cons_append, nextKind_cons]
            rcases hm with hm | hm <;> rw [hm] <;> rfl
      obtain ⟨hlen, hl⟩ := atomType_leaves_closed eof hinner hc (by omega) hnext
      refine ⟨us, by simp; omega, ⟨ht, by omega⟩, ?_⟩
      rw [List.append_assoc]
      exact hl
  | @header hs us hh hus =>
      obtain ⟨hp, vs, hvs⟩ := opensFunctionType_header eof (us ++ rest) hh
      have hf : Leaves eof (functionType inner) (hs ++ us ++ rest) rest fun _ => True :=
        functionType_leaves hinner hh hus hw hrest
      rw [List.append_assoc] at hf ⊢
      have hk : nextKind (hs ++ (us ++ rest)) = .symbol .leftParen := by
        rcases nextKind_append_cases hs (us ++ rest) with ⟨rfl, -⟩ | h
        · cases hp
        · rw [h, hp]
      refine ⟨[], ?_, ⟨.nil, by simp⟩, ?_⟩
      · cases hs with
        | nil => cases hp
        | cons => simp
      · refine Leaves.at_bind (Leaves.ite_pos (by simp [hk]) (Leaves.ahead_bind hvs ?_))
        rintro _ rfl
        exact hf

variable (eof) in
/-- An intersection leaves what may follow it, up to a mark other than its own. -/
theorem interType_leaves (h : TypeStart ts) (hw : Token.weights ts ≤ weight + 1)
    (hrest : (nextKind rest).continuesType = false) :
    ∃ us, us.length < ts.length ∧ ((TypeTail us ∧ Token.weights us ≤ weight + 1)
        ∧ nextKind (us ++ rest) ≠ .symbol .ampersand) ∧
      Leaves eof (interType inner) (ts ++ rest) (us ++ rest) fun _ => True := by
  have member : ∀ ts, TypeStart ts ∧ Token.weights ts ≤ weight + 1 →
      ∃ us, us.length < ts.length ∧ (TypeTail us ∧ Token.weights us ≤ weight + 1) ∧
        Leaves eof (atomType inner) (ts ++ rest) (us ++ rest) fun _ => True := by
    rintro ts ⟨h, hw⟩
    exact atomType_leaves eof hinner h hw hrest
  have next : ∀ s us, TypeTail (s :: us) ∧ Token.weights (s :: us) ≤ weight + 1 →
      s.kind = .symbol .ampersand → TypeStart us ∧ Token.weights us ≤ weight + 1 := by
    rintro s us ⟨h, hw⟩ -
    rw [Token.weights_cons] at hw
    exact ⟨typeStart_of_tail h, by omega⟩
  obtain ⟨us, hlen, ht, hstop, hl⟩ :=
    separated_leaves_plain member next (ne_mark hrest).2 ⟨h, hw⟩ (typeStart_nextKind h)
  refine ⟨us, hlen, ⟨ht, hstop⟩, ?_⟩
  exact Leaves.bind hl fun _ _ => Leaves.pure trivial

/-- A union leaves nothing. -/
theorem unionType_leaves (h : TypeStart ts) (hw : Token.weights ts ≤ weight + 1)
    (hrest : (nextKind rest).continuesType = false) :
    Leaves eof (unionType inner) (ts ++ rest) rest fun _ => True := by
  have member : ∀ ts, TypeStart ts ∧ Token.weights ts ≤ weight + 1 →
      ∃ us, us.length < ts.length ∧ ((TypeTail us ∧ Token.weights us ≤ weight + 1)
          ∧ nextKind (us ++ rest) ≠ .symbol .ampersand) ∧
        Leaves eof (interType inner) (ts ++ rest) (us ++ rest) fun _ => True := by
    rintro ts ⟨h, hw⟩
    exact interType_leaves eof hinner h hw hrest
  have next : ∀ s us, (TypeTail (s :: us) ∧ Token.weights (s :: us) ≤ weight + 1)
      ∧ nextKind (s :: us ++ rest) ≠ .symbol .ampersand →
      s.kind = .symbol .bar → TypeStart us ∧ Token.weights us ≤ weight + 1 := by
    rintro s us ⟨⟨h, hw⟩, -⟩ -
    rw [Token.weights_cons] at hw
    exact ⟨typeStart_of_tail h, by omega⟩
  obtain ⟨us, -, ⟨⟨ht, -⟩, hamp⟩, hbar, hl⟩ :=
    separated_leaves_plain member next (ne_mark hrest).1 ⟨h, hw⟩ (typeStart_nextKind h)
  -- neither mark is next, so nothing is left
  cases ht with
  | nil => exact Leaves.bind hl fun _ _ => Leaves.pure trivial
  | member hmark _ =>
      rcases hmark with hmark | hmark
      · exact absurd hmark hbar
      · exact absurd hmark hamp

end Productions

/-- Types are read where there are as many levels as they have tokens. -/
theorem typeWithin_accepts (limit : Int) (levels : Nat) :
    AcceptsTypes levels (typeWithin limit levels) := by
  induction levels with
  | zero =>
      intro eof ts rest h hw _
      obtain ⟨t, us, rfl⟩ := typeStart_ne_nil h
      have := t.weight_pos
      rw [Token.weights_cons] at hw
      omega
  | succ levels ih =>
      intro eof ts rest h hw hrest
      exact unionType_leaves ih h hw hrest

end Reading

end TypedPrompt
