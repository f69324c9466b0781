/-
# `Proofs.Reading.Counting` — the marks of a template, counted

Where a body ends can also be settled by counting.  The text is scanned from the left,
two characters at a time where a mark begins; an opening mark counts one, and a closing
mark minus one.  A body with its two marks balances first at its end
(`BalancesFirst`) if the count comes to nothing there and is above nothing before, and
these are the bodies that `Balanced` gives rules for (`balanced_iff_balancesFirst`).

The splitting itself is a scan too, which passes over bodies as a whole.  An opening
mark that it gets to, with no closing mark to balance it, is never closed
(`HasUnclosed`), and that is what an unclosed piece comes from.
-/
import Mathlib.Algebra.Ring.Int.Defs
import TypedPrompt.Proofs.Reading.Marks

namespace TypedPrompt.Piece

/-! ## Counting -/

/-- What each step of a scan counts: an opening mark one, a closing mark minus one, and a
character where no mark begins nothing. -/
def counts : List Char → List Int
  | '{' :: '{' :: cs => 1 :: counts cs
  | '}' :: '}' :: cs => -1 :: counts cs
  | _ :: cs => 0 :: counts cs
  | [] => []

/-- The marks in a body and around it balance at its end, and at no step before. -/
structure BalancesFirst (body : List Char) : Prop where
  balances : (counts (openMark ++ (body ++ closeMark))).sum = 0
  first {before after : List Int} :
    counts (openMark ++ (body ++ closeMark)) = before ++ after →
      before ≠ [] → after ≠ [] → 0 < before.sum

/-- At no step the count is below a bound. -/
def Stays (bound : Int) (ks : List Int) : Prop := ∀ before, before <+: ks → bound ≤ before.sum

theorem stays_nil {bound : Int} (h : bound ≤ 0) : Stays bound [] := by
  rintro before hbefore
  rw [List.prefix_nil.mp hbefore]
  exact h

theorem Stays.cons {bound below k : Int} {ks : List Int} (h : bound ≤ 0) (hk : bound ≤ k + below)
    (hks : Stays below ks) : Stays bound (k :: ks) := by
  intro before hbefore
  rcases List.prefix_cons_iff.mp hbefore with rfl | ⟨more, rfl, hmore⟩
  · exact h
  · have hsum := hks more hmore
    rw [List.sum_cons]
    omega

/-- Where no end of a body is found, the count never gets down to it. -/
theorem stays_of_splitBody {depth : Nat} {cs : List Char} (h : splitBody depth cs = none) :
    Stays (-depth) (counts cs) := by
  fun_induction counts cs generalizing depth with
  | case1 cs ih =>
      have hopen := splitBody_open depth cs
      rw [show splitBody depth (openMark ++ cs) = none from h, eq_comm,
        Option.map_eq_none_iff] at hopen
      exact (ih hopen).cons (by omega) (by omega)
  | case2 cs ih =>
      cases depth with
      | zero => cases h
      | succ depth =>
          have hclose := splitBody_close depth cs
          rw [show splitBody (depth + 1) (closeMark ++ cs) = none from h, eq_comm,
            Option.map_eq_none_iff] at hclose
          exact (ih hclose).cons (by omega) (by omega)
  | case3 c cs hopen hclose ih =>
      rw [splitBody_char ⟨not_openMark_front hopen, not_closeMark_front hclose⟩,
        Option.map_eq_none_iff] at h
      exact (ih h).cons (by omega) (by omega)
  | case4 => exact stays_nil (by omega)

/-- Where the end of a body is found, the count gets down to it for the first time. -/
theorem counts_of_splitBody {depth : Nat} {cs inside rest : List Char}
    (h : splitBody depth cs = some (inside, rest)) :
    ∃ ks, counts cs = ks ++ -1 :: counts rest ∧ ks.sum = -depth ∧ Stays (-depth) ks := by
  fun_induction counts cs generalizing depth inside with
  | case1 cs ih =>
      have hopen := splitBody_open depth cs
      rw [show splitBody depth (openMark ++ cs) = some (inside, rest) from h, eq_comm] at hopen
      obtain ⟨⟨more, _⟩, hs, he⟩ := Option.map_eq_some_iff.mp hopen
      obtain ⟨-, rfl⟩ := Prod.mk.inj he
      obtain ⟨ks, hks, hsum, hstays⟩ := ih hs
      refine ⟨1 :: ks, by rw [hks, List.cons_append], ?_, hstays.cons (by omega) (by omega)⟩
      rw [List.sum_cons, hsum]
      omega
  | case2 cs ih =>
      cases depth with
      | zero =>
          cases h
          exact ⟨[], rfl, rfl, stays_nil (by omega)⟩
      | succ depth =>
          have hclose := splitBody_close depth cs
          rw [show splitBody (depth + 1) (closeMark ++ cs) = some (inside, rest) from h,
            eq_comm] at hclose
          obtain ⟨⟨more, _⟩, hs, he⟩ := Option.map_eq_some_iff.mp hclose
          obtain ⟨-, rfl⟩ := Prod.mk.inj he
          obtain ⟨ks, hks, hsum, hstays⟩ := ih hs
          refine ⟨-1 :: ks, by rw [hks, List.cons_append], ?_, hstays.cons (by omega) (by omega)⟩
          rw [List.sum_cons, hsum]
          omega
  | case3 c cs hopen hclose ih =>
      rw [splitBody_char ⟨not_openMark_front hopen, not_closeMark_front hclose⟩] at h
      obtain ⟨⟨more, _⟩, hs, he⟩ := Option.map_eq_some_iff.mp h
      obtain ⟨-, rfl⟩ := Prod.mk.inj he
      obtain ⟨ks, hks, hsum, hstays⟩ := ih hs
      refine ⟨0 :: ks, by rw [hks, List.cons_append], ?_, hstays.cons (by omega) (by omega)⟩
      rw [List.sum_cons, hsum]
      omega
  | case4 => cases h

theorem counts_open (cs : List Char) : counts (openMark ++ cs) = 1 :: counts cs := rfl

theorem eq_nil_of_counts {cs : List Char} (h : counts cs = []) : cs = [] := by
  unfold counts at h
  split at h
  · cases h
  · cases h
  · cases h
  · rfl

/-- The bodies that the rules give are those at whose end the count comes to nothing for
the first time. -/
theorem balanced_iff_balancesFirst {body : List Char} : Balanced body ↔ BalancesFirst body := by
  constructor
  · intro h
    have hsplit : splitBody 0 (body ++ closeMark) = some (body, []) :=
      splitBody_eq_some_iff.mpr ⟨by simp, h⟩
    obtain ⟨ks, hks, hsum, hstays⟩ := counts_of_splitBody hsplit
    have hcounts : counts (openMark ++ (body ++ closeMark)) = 1 :: (ks ++ [-1]) := by
      rw [counts_open, hks]
      rfl
    constructor
    · rw [hcounts, List.sum_cons, List.sum_append, hsum]
      rfl
    · intro before after heq hbefore hafter
      rw [hcounts] at heq
      obtain ⟨k, more, rfl⟩ := List.exists_cons_of_ne_nil hbefore
      obtain ⟨rfl, hmore⟩ := List.cons.inj heq
      rcases List.prefix_concat_iff.mp ⟨after, hmore.symm⟩ with hall | hprefix
      · -- nothing would be left behind
        rw [hall] at hmore
        exact absurd (List.self_eq_append_right.mp hmore) hafter
      · have hstay := hstays more hprefix
        rw [List.sum_cons]
        omega
  · intro h
    cases hs : splitBody 0 (body ++ closeMark) with
    | none =>
        have hstay := stays_of_splitBody hs _ List.prefix_rfl
        have hzero := h.balances
        rw [counts_open, List.sum_cons] at hzero
        omega
    | some parts =>
        obtain ⟨inside, rest⟩ := parts
        obtain ⟨ks, hks, hsum, -⟩ := counts_of_splitBody hs
        have hrest : counts rest = [] := by
          -- or else the count would come to nothing before the end
          by_contra hne
          have hcounts : counts (openMark ++ (body ++ closeMark))
              = (1 :: (ks ++ [-1])) ++ counts rest := by
            rw [counts_open, hks]
            simp
          have hpositive := h.first hcounts (by simp) hne
          rw [List.sum_cons, List.sum_append, hsum] at hpositive
          exact absurd hpositive (by decide)
        obtain ⟨hbody, hinside⟩ := splitBody_eq_some_iff.mp hs
        rw [eq_nil_of_counts hrest, List.append_nil] at hbody
        rw [List.append_cancel_right hbody]
        exact hinside

/-! ## What the splitting gets to -/

/-- The splitting gets to a rest of the text, with no body begun. -/
inductive Outside : List Char → List Char → Prop where
  | here (cs : List Char) : Outside cs cs
  | char {c : Char} {cs rest : List Char} :
      ¬ openMark <+: c :: cs → Outside cs rest → Outside (c :: cs) rest
  | body {inside cs rest : List Char} :
      BalancesFirst inside → Outside cs rest →
      Outside (openMark ++ (inside ++ (closeMark ++ cs))) rest

/-- The splitting gets to a body behind `before`, between marks that balance there first. -/
def HasBody (cs before body : List Char) : Prop :=
  BalancesFirst body ∧ ∃ rest, cs = before ++ (openMark ++ (body ++ (closeMark ++ rest)))
    ∧ Outside cs (openMark ++ (body ++ (closeMark ++ rest)))

/-- The splitting gets to an opening mark that no closing mark balances. -/
def HasUnclosed (cs : List Char) : Prop :=
  ∃ behind, Outside cs (openMark ++ behind)
    ∧ ∀ body rest, behind = body ++ (closeMark ++ rest) → ¬ BalancesFirst body

theorem mem_of_mem_consText {c : Char} {ps : List Piece} {q : Piece} (hq : q.isText = false)
    (h : q ∈ consText c ps) : q ∈ ps := by
  unfold consText at h
  split at h
  · rcases List.mem_cons.mp h with rfl | h
    · cases hq
    · exact List.mem_cons_of_mem _ h
  · rcases List.mem_cons.mp h with rfl | h
    · cases hq
    · exact h

/-- A piece that is a body stands in the text, at its place. -/
theorem hasBody_of_mem {p start : Position} {cs inside : List Char}
    (h : .body start inside ∈ pieces p cs) :
    ∃ before, HasBody cs before inside ∧ start = p.after (before ++ openMark) := by
  fun_induction pieces p cs with
  | case1 => simp at h
  | case2 p cs _ inside' rest hs _ ih =>
      obtain ⟨rfl, hbody⟩ := splitBody_eq_some_iff.mp hs
      rw [balanced_iff_balancesFirst] at hbody
      rcases List.mem_cons.mp h with heq | hm
      · obtain ⟨rfl, rfl⟩ := Piece.body.inj heq
        exact ⟨[], ⟨hbody, rest, rfl, .here _⟩, rfl⟩
      · obtain ⟨before, ⟨hinside, rest', rfl, hreached⟩, rfl⟩ := ih hm
        refine ⟨openMark ++ (inside' ++ (closeMark ++ before)), ⟨hinside, rest', ?_, ?_⟩, ?_⟩
        · simp [openMark]
        · exact .body hbody hreached
        · simp only [Position.after_append]
          rfl
  | case3 p c cs hne ih =>
      obtain ⟨before, ⟨hinside, rest, rfl, hreached⟩, rfl⟩ := ih (mem_of_mem_consText rfl h)
      have hreached := Outside.char (not_openMark_front hne) hreached
      exact ⟨c :: before, ⟨hinside, rest, rfl, hreached⟩, rfl⟩
  | case4 => cases h

/-- An unclosed piece comes from a mark that is never closed. -/
theorem hasUnclosed_of_mem {p : Position} {cs behind : List Char}
    (h : .unclosed behind ∈ pieces p cs) : HasUnclosed cs := by
  fun_induction pieces p cs with
  | case1 p cs hn =>
      refine ⟨cs, .here _, ?_⟩
      rintro body rest rfl hbody
      have hs : splitBody 0 (body ++ (closeMark ++ rest)) = some (body, rest) :=
        splitBody_eq_some_iff.mpr ⟨rfl, balanced_iff_balancesFirst.mpr hbody⟩
      rw [hn] at hs
      cases hs
  | case2 p cs start inside rest hs _ ih =>
      obtain ⟨rfl, hbody⟩ := splitBody_eq_some_iff.mp hs
      obtain ⟨behind, hreached, hbehind⟩ := ih (by simpa using h)
      exact ⟨behind, .body (balanced_iff_balancesFirst.mp hbody) hreached, hbehind⟩
  | case3 p c cs hne ih =>
      obtain ⟨behind, hreached, hbehind⟩ := ih (mem_of_mem_consText rfl h)
      exact ⟨behind, .char (not_openMark_front hne) hreached, hbehind⟩
  | case4 => cases h

end TypedPrompt.Piece
