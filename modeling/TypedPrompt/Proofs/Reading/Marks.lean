/-
# `Proofs.Reading.Marks` — how the text of a template is split

A text with an opening mark in it is split into pieces: runs of text, and bodies
between marks that balance.  This file says what a balanced body and a split are,
without saying how one is found, and shows that `Piece.pieces` finds exactly that.

A mark is two characters, and it is looked for from the left, so a character may
only stand for itself where no mark begins.  That is why the closing mark behind
a body is part of what `Balanced` looks at: a body does not end in a brace.
-/
import Mathlib.Data.List.Chain
import TypedPrompt.Reading.Pieces

namespace TypedPrompt.Piece

/-- No mark begins at the front of a text. -/
def Unmarked (cs : List Char) : Prop := ¬ openMark <+: cs ∧ ¬ closeMark <+: cs

/-- The marks in a text balance, where a closing mark stands behind it. -/
inductive Balanced : List Char → Prop where
  | nil : Balanced []
  | char {c : Char} {cs : List Char} :
      Unmarked (c :: (cs ++ closeMark)) → Balanced cs → Balanced (c :: cs)
  | nest {inside cs : List Char} :
      Balanced inside → Balanced cs → Balanced (openMark ++ (inside ++ (closeMark ++ cs)))

/-- The text begins with a run in which no opening mark begins. -/
def Run (run rest : List Char) : Prop :=
  ∀ before after, run = before ++ after → after ≠ [] → ¬ openMark <+: after ++ rest

/-- A text that begins at a place, split into runs of text, as long as can be, and
balanced bodies. -/
inductive Split : Position → List Char → List Piece → Prop where
  | nil {p : Position} : Split p [] []
  | text {p : Position} {run rest : List Char} {pieces : List Piece} :
      run ≠ [] → Run run rest → rest = [] ∨ openMark <+: rest →
      Split (p.after run) rest pieces → Split p (run ++ rest) (.text run :: pieces)
  | body {p : Position} {inside rest : List Char} {pieces : List Piece} :
      Balanced inside →
      Split ((p.after openMark).after (inside ++ closeMark)) rest pieces →
      Split p (openMark ++ (inside ++ (closeMark ++ rest)))
        (.body (p.after openMark) inside :: pieces)

/-! ## Where a mark begins -/

theorem openMark_front_iff {cs : List Char} : openMark <+: cs ↔ ∃ ds, cs = '{' :: '{' :: ds := by
  constructor
  · rintro ⟨ds, rfl⟩
    exact ⟨ds, rfl⟩
  · rintro ⟨ds, rfl⟩
    exact ⟨ds, rfl⟩

theorem closeMark_front_iff {cs : List Char} : closeMark <+: cs ↔ ∃ ds, cs = '}' :: '}' :: ds := by
  constructor
  · rintro ⟨ds, rfl⟩
    exact ⟨ds, rfl⟩
  · rintro ⟨ds, rfl⟩
    exact ⟨ds, rfl⟩

/-- Where a scan takes a single character, no opening mark begins. -/
theorem not_openMark_front {c : Char} {cs : List Char}
    (h : ∀ ds, c = '{' → cs = '{' :: ds → False) : ¬ openMark <+: c :: cs := by
  rw [openMark_front_iff]
  rintro ⟨ds, hds⟩
  exact h ds (List.cons.inj hds).1 (List.cons.inj hds).2

/-- Where a scan takes a single character, no closing mark begins. -/
theorem not_closeMark_front {c : Char} {cs : List Char}
    (h : ∀ ds, c = '}' → cs = '}' :: ds → False) : ¬ closeMark <+: c :: cs := by
  rw [closeMark_front_iff]
  rintro ⟨ds, hds⟩
  exact h ds (List.cons.inj hds).1 (List.cons.inj hds).2

/-- Whether a mark begins hangs on two characters only. -/
theorem unmarked_cons_cons {c d : Char} {cs ds : List Char} :
    Unmarked (c :: d :: cs) ↔ Unmarked (c :: d :: ds) := by
  simp [Unmarked, openMark, closeMark]

theorem hasOpenMark_iff {cs : List Char} : hasOpenMark cs = true ↔ openMark <:+: cs := by
  fun_induction hasOpenMark cs with
  | case1 cs =>
      have h : openMark <+: '{' :: '{' :: cs := ⟨cs, rfl⟩
      simp [h.isInfix]
  | case2 c cs hne ih =>
      rw [ih, List.infix_cons_iff, openMark_front_iff]
      constructor
      · exact Or.inr
      · rintro (⟨ds, hds⟩ | h)
        · rw [List.cons.injEq] at hds
          exact (hne ds hds.1 hds.2).elim
        · exact h
  | case3 => simp [openMark]

/-! ## Bodies -/

theorem splitBody_open (depth : Nat) (cs : List Char) :
    splitBody depth (openMark ++ cs)
      = (splitBody (depth + 1) cs).map fun (inside, rest) => (openMark ++ inside, rest) := by
  simp only [openMark, List.cons_append, List.nil_append]
  rw [splitBody]

theorem splitBody_close (depth : Nat) (cs : List Char) :
    splitBody (depth + 1) (closeMark ++ cs)
      = (splitBody depth cs).map fun (inside, rest) => (closeMark ++ inside, rest) := rfl

theorem splitBody_char {depth : Nat} {c : Char} {cs : List Char} (h : Unmarked (c :: cs)) :
    splitBody depth (c :: cs)
      = (splitBody depth cs).map fun (inside, rest) => (c :: inside, rest) := by
  rw [splitBody.eq_5]
  · rintro ds rfl rfl
    exact h.1 ⟨ds, rfl⟩
  · rintro ds - rfl rfl
    exact h.2 ⟨ds, rfl⟩
  · rintro d ds - rfl rfl
    exact h.2 ⟨ds, rfl⟩

/-- A balanced text in front of a closing mark is passed over, at every depth. -/
theorem splitBody_balanced {cs : List Char} (h : Balanced cs) (depth : Nat) (rest : List Char) :
    splitBody depth (cs ++ (closeMark ++ rest))
      = (splitBody depth (closeMark ++ rest)).map fun (inside, r) => (cs ++ inside, r) := by
  induction h generalizing depth rest with
  | nil => simp
  | @char c cs hc _ ih =>
      have hu : Unmarked (c :: (cs ++ (closeMark ++ rest))) := by
        cases cs with
        | nil => exact unmarked_cons_cons.mp hc
        | cons d ds => exact unmarked_cons_cons.mp hc
      rw [List.cons_append, splitBody_char hu, ih, Option.map_map]
      rfl
  | @nest inside cs _ _ ihInside ih =>
      rw [List.append_assoc, List.append_assoc, List.append_assoc, splitBody_open, ihInside,
        splitBody_close, ih, Option.map_map, Option.map_map, Option.map_map]
      congr 1
      funext ⟨i, r⟩
      simp

/-- What `splitBody` passes over with `depth` marks open besides the last one. -/
def Pending : Nat → List Char → Prop
  | 0, cs => Balanced cs
  | depth + 1, cs => ∃ a b, Balanced a ∧ Pending depth b ∧ cs = a ++ (closeMark ++ b)

theorem Pending.nest {depth : Nat} {a b : List Char} (ha : Balanced a) (hb : Pending depth b) :
    Pending depth (openMark ++ (a ++ (closeMark ++ b))) := by
  cases depth with
  | zero => exact Balanced.nest ha hb
  | succ depth =>
      obtain ⟨c, d, hc, hd, rfl⟩ := hb
      exact ⟨_, d, Balanced.nest ha hc, hd, by simp⟩

theorem Pending.char {depth : Nat} {c : Char} {cs rest : List Char}
    (hu : Unmarked (c :: (cs ++ (closeMark ++ rest)))) (h : Pending depth cs) :
    Pending depth (c :: cs) := by
  have front : ∀ {ds more : List Char}, Unmarked (c :: (ds ++ (closeMark ++ more))) →
      Unmarked (c :: (ds ++ closeMark)) := by
    intro ds more hds
    cases ds with
    | nil => exact unmarked_cons_cons.mp hds
    | cons d ds => exact unmarked_cons_cons.mp hds
  cases depth with
  | zero => exact Balanced.char (front hu) h
  | succ depth =>
      obtain ⟨a, b, ha, hb, rfl⟩ := h
      rw [List.append_assoc, List.append_assoc] at hu
      exact ⟨c :: a, b, Balanced.char (front hu) ha, hb, rfl⟩

theorem pending_of_splitBody {depth : Nat} {cs inside rest : List Char}
    (h : splitBody depth cs = some (inside, rest)) : Pending depth inside := by
  fun_induction splitBody depth cs generalizing inside rest with
  | case1 => simp at h
  | case2 depth cs ih =>
      obtain ⟨⟨b, r⟩, hs, he⟩ := Option.map_eq_some_iff.1 h
      simp only [Prod.mk.injEq] at he
      obtain ⟨a, d, ha, hd, rfl⟩ := ih hs
      rw [← he.1]
      exact Pending.nest ha hd
  | case3 cs =>
      simp only [Option.some.injEq, Prod.mk.injEq] at h
      rw [← h.1]
      exact Balanced.nil
  | case4 depth cs ih =>
      obtain ⟨⟨b, r⟩, hs, he⟩ := Option.map_eq_some_iff.1 h
      simp only [Prod.mk.injEq] at he
      exact ⟨[], b, .nil, ih hs, by rw [← he.1]; rfl⟩
  | case5 depth c cs hopen hclose hclose' ih =>
      obtain ⟨⟨b, r⟩, hs, he⟩ := Option.map_eq_some_iff.1 h
      simp only [Prod.mk.injEq] at he
      have hu : Unmarked (c :: cs) := by
        refine ⟨not_openMark_front hopen, not_closeMark_front fun ds hc hcs => ?_⟩
        cases depth with
        | zero => exact hclose ds rfl hc hcs
        | succ depth => exact hclose' depth ds rfl hc hcs
      rw [← splitBody_append hs] at hu
      rw [← he.1]
      exact Pending.char hu (ih hs)

/-- A body ends at the first closing mark in front of which the marks balance. -/
theorem splitBody_eq_some_iff {cs inside rest : List Char} :
    splitBody 0 cs = some (inside, rest)
      ↔ cs = inside ++ (closeMark ++ rest) ∧ Balanced inside := by
  constructor
  · intro h
    exact ⟨(splitBody_append h).symm, pending_of_splitBody h⟩
  · rintro ⟨rfl, h⟩
    rw [splitBody_balanced h]
    simp [closeMark, splitBody]

/-! ## Splits -/

/-- A piece of text. -/
def isText : Piece → Bool
  | text _ => true
  | _ => false

/-- A body that is never closed. -/
def isUnclosed : Piece → Bool
  | unclosed _ => true
  | _ => false

theorem pieces_body {p : Position} {inside rest : List Char} (h : Balanced inside) :
    pieces p (openMark ++ (inside ++ (closeMark ++ rest)))
      = .body (p.after openMark) inside
          :: pieces ((p.after openMark).after (inside ++ closeMark)) rest := by
  have hs : splitBody 0 (inside ++ (closeMark ++ rest)) = some (inside, rest) :=
    splitBody_eq_some_iff.mpr ⟨rfl, h⟩
  show pieces p ('{' :: '{' :: (inside ++ (closeMark ++ rest))) = _
  rw [pieces]
  split
  · next hn => simp [hs] at hn
  · next i r hn =>
      rw [hs, Option.some.injEq, Prod.mk.injEq] at hn
      obtain ⟨rfl, rfl⟩ := hn
      rfl

theorem pieces_char {p : Position} {c : Char} {cs : List Char} (h : ¬ openMark <+: c :: cs) :
    pieces p (c :: cs) = consText c (pieces (p.step c) cs) := by
  rw [pieces]
  rintro ds rfl rfl
  exact h ⟨ds, rfl⟩

theorem consText_of_rest {p : Position} {c : Char} {rest : List Char}
    (h : rest = [] ∨ openMark <+: rest) :
    consText c (pieces p rest) = .text [c] :: pieces p rest := by
  rcases h with rfl | h
  · simp [pieces, consText]
  · obtain ⟨ds, rfl⟩ := openMark_front_iff.mp h
    rw [pieces]
    split <;> rfl

theorem pieces_run {p : Position} {run rest : List Char} (hne : run ≠ []) (hr : Run run rest)
    (h : rest = [] ∨ openMark <+: rest) :
    pieces p (run ++ rest) = .text run :: pieces (p.after run) rest := by
  induction run generalizing p with
  | nil => exact absurd rfl hne
  | cons c cs ih =>
      have hc : ¬ openMark <+: c :: (cs ++ rest) := hr [] (c :: cs) rfl (by simp)
      rw [List.cons_append, pieces_char hc]
      cases cs with
      | nil => exact consText_of_rest h
      | cons d ds =>
          have hr' : Run (d :: ds) rest := by
            intro before after hb
            exact hr (c :: before) after (by rw [hb]; rfl)
          rw [ih (by simp) hr']
          rfl

/-- Every split is the one that is found. -/
theorem pieces_of_split {p : Position} {cs : List Char} {ps : List Piece} (h : Split p cs ps) :
    pieces p cs = ps := by
  induction h with
  | nil => simp [pieces]
  | text hne hr hrest _ ih => rw [pieces_run hne hr hrest, ih]
  | body hb _ ih => rw [pieces_body hb, ih]

theorem Run.cons {c : Char} {run rest : List Char} (hc : ¬ openMark <+: c :: (run ++ rest))
    (h : Run run rest) : Run (c :: run) rest := by
  intro before after heq hne
  cases before with
  | nil =>
      rw [List.nil_append] at heq
      rw [← heq]
      exact hc
  | cons b before =>
      rw [List.cons_append, List.cons.injEq] at heq
      exact h before after heq.2 hne

theorem Split.consText {p : Position} {c : Char} {cs : List Char} {ps : List Piece}
    (hc : ¬ openMark <+: c :: cs) (h : Split (p.step c) cs ps) :
    Split p (c :: cs) (consText c ps) := by
  have single : Run [c] cs → cs = [] ∨ openMark <+: cs →
      Split p (c :: cs) (.text [c] :: ps) := by
    intro hr hrest
    have hsplit : Split p ([c] ++ cs) (.text [c] :: ps) := Split.text (by simp) hr hrest h
    exact hsplit
  have hr : Run [c] cs := by
    refine Run.cons hc ?_
    intro before after heq hne
    simp_all
  cases h with
  | nil => exact single hr (.inl rfl)
  | @text _ run rest ps hne hr' hrest h' =>
      have hsplit : Split p ((c :: run) ++ rest) (.text (c :: run) :: ps) :=
        Split.text (by simp) (hr'.cons hc) hrest h'
      exact hsplit
  | body hb h' => exact single hr (.inr ⟨_, rfl⟩)

/-- What is found is a split, unless a body in it is never closed. -/
theorem split_pieces {p : Position} {cs : List Char}
    (h : ∀ q ∈ pieces p cs, q.isUnclosed = false) : Split p cs (pieces p cs) := by
  fun_induction pieces p cs with
  | case1 p cs hn =>
      exact absurd (h (.unclosed cs) (by simp)) (by simp [isUnclosed])
  | case2 p cs start inside rest hs _ ih =>
      obtain ⟨rfl, hb⟩ := splitBody_eq_some_iff.mp hs
      exact Split.body hb (ih fun q hq => h q (List.mem_cons_of_mem _ hq))
  | case3 p c cs hne ih =>
      refine Split.consText (not_openMark_front hne) (ih ?_)
      intro q hq
      cases hp : pieces (p.step c) cs with
      | nil => simp [hp] at hq
      | cons r rs =>
          rw [hp] at hq h
          cases r with
          | text ds =>
              rcases List.mem_cons.mp hq with rfl | hq
              · rfl
              · exact h q (by simp [consText, hq])
          | body s ds => exact h q (by simp [consText, List.mem_cons.mp hq])
          | unclosed ds => exact h q (by simp [consText, List.mem_cons.mp hq])
  | case4 => exact Split.nil

/-- No opening mark stands in a run. -/
theorem Run.no_openMark {run rest : List Char} (h : Run run rest) : ¬ openMark <:+: run := by
  rintro ⟨before, after, rfl⟩
  exact h before (openMark ++ after) (by simp) (by simp [openMark]) ⟨after ++ rest, by simp⟩

/-- A piece of text in a split is a run that is not empty. -/
theorem Split.text_mem {p : Position} {cs run : List Char} {ps : List Piece} (h : Split p cs ps)
    (hm : .text run ∈ ps) : run ≠ [] ∧ ¬ openMark <:+: run := by
  induction h with
  | nil => simp at hm
  | text hne hr _ _ ih =>
      rcases List.mem_cons.mp hm with heq | hm
      · cases heq
        exact ⟨hne, hr.no_openMark⟩
      · exact ih hm
  | body _ _ ih => exact ih (by simpa using hm)

/-- Two pieces of text never stand side by side, since a run is as long as can be. -/
theorem Split.apart {p : Position} {cs : List Char} {ps : List Piece} (h : Split p cs ps) :
    ps.IsChain fun q r => q.isText = false ∨ r.isText = false := by
  induction h with
  | nil => exact .nil
  | @text p run rest ps _ _ hrest h ih =>
      cases h with
      | nil => exact .singleton _
      | @text _ run' rest' ps' hne hr _ _ =>
          -- the run would have gone on into the next one
          rcases hrest with hnil | hopen
          · exact absurd (List.append_eq_nil_iff.mp hnil).1 hne
          · exact absurd hopen (hr [] run' rfl hne)
      | body => exact List.isChain_cons_cons.mpr ⟨.inr rfl, ih⟩
  | @body p inside rest ps _ h ih =>
      cases h with
      | nil => exact .singleton _
      | text | body => exact List.isChain_cons_cons.mpr ⟨.inl rfl, ih⟩

/-- There is a body wherever there is an opening mark. -/
theorem Split.exists_body {p : Position} {cs : List Char} {ps : List Piece} (h : Split p cs ps)
    (hopen : openMark <:+: cs) : ∃ start inside, .body start inside ∈ ps := by
  induction h with
  | nil => simp [openMark] at hopen
  | @text p run rest ps _ hr hrest _ ih =>
      rcases hrest with rfl | hrest
      · rw [List.append_nil] at hopen
        exact absurd hopen hr.no_openMark
      · obtain ⟨start, inside, hm⟩ := ih hrest.isInfix
        exact ⟨start, inside, List.mem_cons_of_mem _ hm⟩
  | @body p inside => exact ⟨_, inside, List.mem_cons_self⟩

/-- A body is shorter than the text that it stands in, by its marks. -/
theorem Split.body_length {p start : Position} {cs inside : List Char} {ps : List Piece}
    (h : Split p cs ps) (hm : .body start inside ∈ ps) : inside.length + 4 ≤ cs.length := by
  induction h with
  | nil => simp at hm
  | text _ _ _ _ ih =>
      have := ih (by simpa using hm)
      rw [List.length_append]
      omega
  | @body p inside' rest pieces hb _ ih =>
      rcases List.mem_cons.mp hm with heq | hm
      · cases heq
        simp [openMark, closeMark]
      · have := ih hm
        simp [openMark, closeMark]
        omega

end TypedPrompt.Piece
