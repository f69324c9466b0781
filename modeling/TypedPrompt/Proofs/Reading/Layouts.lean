/-
# `Proofs.Reading.Layouts` — layout does not reach the tree

Two sources that are cut into tokens of the same kinds with the same texts may differ in
blanks, comments and line ends, and in how the characters of a string are written.  With
no place seen their tokens look alike (`Tokens.view_eq_of_contents`), so a reader does
the same on both (`expressionWithin_agrees`).  A run may do anything where the other one
has reached a limit; but the limits are the same, and each run follows the other.

`read_of_same_contents` says that both sources are read, as trees that differ in their
places at most, or neither is.

The whole library is imported for the examples, which `cbv` runs by the equations of core
functions that it finds there.
-/
import Mathlib
import TypedPrompt.Proofs.Reading.AgreeingExpressions
import TypedPrompt.Proofs.Reading.DerivedExpressions
import TypedPrompt.Proofs.Reading.WrittenTrees
import TypedPrompt.Proofs.Token.Rendering

namespace TypedPrompt

/-- Where no place is seen, a token is what it says. -/
theorem Token.view_blind_of_content {t u : Token} (h : t.content = u.content) :
    t.view .blind = u.view .blind := by
  obtain ⟨hkind, htext⟩ := Prod.mk.inj h
  exact Token.view_eq_iff.mpr ⟨hkind, htext, rfl, rfl⟩

namespace Tokens

/-- What the tokens of a source say, the one for the end included. -/
def contents (ts : Tokens) : List (Kind × String) := ts.toList.map Token.content

variable {ts us : Tokens}

theorem toList_ne_nil (h : ts.fault? = none) : ts.toList ≠ [] := by
  cases ts with
  | cons t ts => exact List.cons_ne_nil t ts.toList
  | finish t => exact List.cons_ne_nil t []
  | fault e => cases h

/-- Where no place is seen, the tokens of a source are what they say. -/
theorem view_eq_of_contents (hts : ts.fault? = none) (hus : us.fault? = none)
    (h : ts.contents = us.contents) : ts.view .blind = us.view .blind := by
  induction ts generalizing us with
  | fault e => cases hts
  | finish t =>
      cases us with
      | fault e => cases hus
      | finish u => exact congrArg finish (Token.view_blind_of_content (List.cons.inj h).1)
      | cons u us =>
          have hnone : us.toList = [] := List.map_eq_nil_iff.mp (List.cons.inj h).2.symm
          exact absurd hnone (toList_ne_nil hus)
  | cons t ts ih =>
      cases us with
      | fault e => cases hus
      | finish u =>
          have hnone : ts.toList = [] := List.map_eq_nil_iff.mp (List.cons.inj h).2
          exact absurd hnone (toList_ne_nil hts)
      | cons u us =>
          obtain ⟨hfront, hrest⟩ := List.cons.inj h
          exact congrArg₂ cons (Token.view_blind_of_content hfront) (ih hts hus hrest)

end Tokens

namespace Expr

open Reading

variable {settings settings' : Settings} {context context' : Context} {source source' : String}

/-- Of two sources whose tokens look alike the second one is read as the first one is, if
there is as much room for it. -/
theorem read_follows (hdepth : settings.maxDepth = settings'.maxDepth)
    (hnesting : settings.maxNesting = settings'.maxNesting)
    (hdeep : context.depth = context'.depth) (hnested : context.nesting = context'.nesting)
    (h : (tokensOf context.start source.toList).view .blind
      = (tokensOf context'.start source'.toList).view .blind) :
    Follows .blind (SameTree .blind) (read settings context source)
      (read settings' context' source') := by
  have hlevels : (settings.maxNesting - context.nesting).toNat
      ≤ (settings'.maxNesting - context'.nesting).toNat := by
    rw [hnesting, hnested]
  have hroom : settings.maxDepth - context.depth ≤ settings'.maxDepth - context'.depth := by
    rw [hdepth, hdeep]
  have hfile : View.blind.seeFile settings.file = View.blind.seeFile settings'.file := rfl
  exact complete_agrees (expressionWithin_agrees hfile hlevels hroom) .endOfInput h

/-- Two sources with the same tokens, wherever these stand, are both read, and as the same
tree but for the places in it, or they are both refused. -/
theorem read_of_same_contents (hdepth : settings.maxDepth = settings'.maxDepth)
    (hnesting : settings.maxNesting = settings'.maxNesting)
    (hdeep : context.depth = context'.depth) (hnested : context.nesting = context'.nesting)
    (htokens : (tokensOf context.start source.toList).fault? = none)
    (htokens' : (tokensOf context'.start source'.toList).fault? = none)
    (hcontents : (tokensOf context.start source.toList).contents
      = (tokensOf context'.start source'.toList).contents) :
    (∃ e e', read settings context source = .ok e ∧ read settings' context' source' = .ok e'
        ∧ e.same e' = true)
      ∨ ∃ f f', read settings context source = .error f
        ∧ read settings' context' source' = .error f' := by
  have hview := Tokens.view_eq_of_contents htokens htokens' hcontents
  have hforth := read_follows hdepth hnesting hdeep hnested hview
  have hback := read_follows hdepth.symm hnesting.symm hdeep.symm hnested.symm hview.symm
  cases hread : read settings context source with
  | ok e =>
      rw [hread] at hforth
      obtain ⟨e', hread', hsame⟩ := hforth.exists_ok
      obtain ⟨_, _, _, he⟩ := exists_derivation_of_read hread
      exact .inl ⟨e, e', rfl, hread', same_of_view_eq hsame he.same_self⟩
  | error f =>
      cases hread' : read settings' context' source' with
      | ok e' =>
          rw [hread'] at hback
          obtain ⟨e, he, -⟩ := hback.exists_ok
          rw [hread] at he
          cases he
      | error f' => exact .inr ⟨f, f', rfl, rfl⟩

/-- A template, and the same one in another file with a comment in front of it, and with a
brace written as an escape. -/
theorem read_of_same_contents_escape :
    let plain := "\"\x7b\x7bx\x7d\x7d\""
    let spread := "#\n\"\x7b\\\x7bx\x7d\x7d\""
    (tokensOf Position.start plain.toList).fault? = none
      ∧ (tokensOf Position.start spread.toList).fault? = none
      ∧ (tokensOf Position.start plain.toList).contents
        = (tokensOf Position.start spread.toList).contents
      ∧ ∃ e e', read ⟨"main", 1, 2⟩ Context.top plain = .ok e
        ∧ read ⟨"other", 1, 2⟩ Context.top spread = .ok e' ∧ e.same e' = true ∧ e ≠ e' := by
  intro plain spread
  have hplain : tokensOf Position.start plain.toList
      = .cons ⟨.string, "\x7b\x7bx\x7d\x7d", ⟨1, 1⟩, ⟨1, 8⟩⟩
          (.finish ⟨.endOfInput, "", ⟨1, 8⟩, ⟨1, 8⟩⟩) := by
    cbv
  have hspread : tokensOf Position.start spread.toList
      = .cons ⟨.string, "\x7b\x7bx\x7d\x7d", ⟨2, 1⟩, ⟨2, 9⟩⟩
          (.finish ⟨.endOfInput, "", ⟨2, 9⟩, ⟨2, 9⟩⟩) := by
    cbv
  have htokens : (tokensOf Position.start plain.toList).fault? = none := by
    rw [hplain]
    rfl
  have htokens' : (tokensOf Position.start spread.toList).fault? = none := by
    rw [hspread]
    rfl
  have hcontents : (tokensOf Position.start plain.toList).contents
      = (tokensOf Position.start spread.toList).contents := by
    rw [hplain, hspread]
    rfl
  have hread : read ⟨"main", 1, 2⟩ Context.top plain
      = .ok (template ⟨⟨1, 1⟩, "main"⟩ [.embed (identifier ⟨⟨1, 4⟩, "main"⟩ "x")]) := by
    cbv
  have hread' : read ⟨"other", 1, 2⟩ Context.top spread
      = .ok (template ⟨⟨2, 1⟩, "other"⟩ [.embed (identifier ⟨⟨2, 4⟩, "other"⟩ "x")]) := by
    cbv
  refine ⟨htokens, htokens', hcontents, ?_⟩
  have hboth : (∃ e e', read ⟨"main", 1, 2⟩ Context.top plain = .ok e
      ∧ read ⟨"other", 1, 2⟩ Context.top spread = .ok e' ∧ e.same e' = true)
      ∨ ∃ f f', read ⟨"main", 1, 2⟩ Context.top plain = .error f
        ∧ read ⟨"other", 1, 2⟩ Context.top spread = .error f' :=
    read_of_same_contents rfl rfl rfl rfl htokens htokens' hcontents
  rcases hboth with ⟨e, e', he, he', hsame⟩ | ⟨f, f', hf, -⟩
  · refine ⟨e, e', he, he', hsame, ?_⟩
    rw [hread] at he
    rw [hread'] at he'
    cases he
    cases he'
    simp
  · rw [hread] at hf
    cases hf

end Expr

end TypedPrompt
