/-
# `Proofs.Ty.Spelling` — the tokens of a type in writing

`Ty.display` writes a type as text.  `Ty.spelled` says which tokens this text consists
of, with the same recursion: words, brackets and marks, parentheses around compound
members.  `isCut_display` shows that the text is cut into these tokens, whatever follows
it, if the names in the type are names and nothing in it is hidden or abridged.

The text of a type may end in a word, so what follows must not continue it; that is the
only thing that a type has to know about its surroundings.
-/
import TypedPrompt.Proofs.Token.Pieces
import TypedPrompt.Proofs.Ty.Components
import TypedPrompt.Ty.Display

namespace TypedPrompt

/-! ## Names -/

/-- The text is cut into one token, a name, which is all of the text. -/
def isNameToken (s : String) : Bool :=
  match tokensOf Position.start s.toList with
  | .cons t (.finish _) => t.kind == .name && t.text == s
  | _ => false

theorem Spells.eq_of_name {cs text : List Char} (h : Spells cs .name text) : cs = text := by
  cases h
  rfl

theorem isName_of_isNameToken {s : String} (h : isNameToken s = true) : IsName s := by
  unfold isNameToken at h
  split at h
  · next t eof hts =>
      rw [Bool.and_eq_true, beq_iff_eq, beq_iff_eq] at h
      have hts : tokensOf Position.start s.toList = Tokens.ofList eof [t] := hts
      have hlaid := (laid_of_tokensOf Position.start [] hts).1
      obtain ⟨front, lexeme, rest, -, -, -, hspells⟩ := hlaid.mem List.mem_cons_self
      rw [h.1, h.2] at hspells
      rw [hspells.eq_of_name] at hspells
      exact hspells
  · cases h

namespace Ty

/-- The words that types begin with are names. -/
theorem isName_of_mem {w : String} (hw : w ∈ ["string", "number", "boolean", "null", "any", "never",
    "list", "record", "dynamic", "prompt"]) : IsName w := by
  have hfree : IsFreeWord w := by
    refine ⟨fun k => ?_, ?_⟩
    · cases k <;> (rintro rfl; exact absurd hw (by decide))
    · constructor <;> (rintro rfl; exact absurd hw (by decide))
  have hletters : ∃ c cs, w = String.ofList (c :: cs) ∧ Text.startsName c = true
      ∧ cs.all Text.continuesName = true := by
    simp only [List.mem_cons, List.not_mem_nil, or_false] at hw
    rcases hw with rfl | rfl | rfl | rfl | rfl | rfl | rfl | rfl | rfl | rfl <;>
      exact ⟨_, _, rfl, by decide, by decide⟩
  obtain ⟨c, cs, rfl, hc, hcs⟩ := hletters
  rw [IsName, String.toList_ofList]
  exact .name hc (List.all_eq_true.mp hcs) hfree

/-! ## The tokens -/

/-- The tokens of a name, marked if it is optional, and of the colon behind it. -/
def spelledName (name : String) (isOptional : Bool) : List (Kind × String) :=
  word name :: ((if isOptional then [mark .question] else []) ++ [mark .colon])

/-- Parentheses around the tokens of a compound type. -/
def enclosed (t : Ty) (ks : List (Kind × String)) : List (Kind × String) :=
  if t.isCompound then mark .leftParen :: (ks ++ [mark .rightParen]) else ks

/-- A word with something in brackets behind it. -/
def bracketed (head : String) (left right : Symbol) (ks : List (Kind × String)) :
    List (Kind × String) :=
  word head :: mark left :: (ks ++ [mark right])

mutual

/-- What the tokens of a type say. -/
def spelled : Ty → List (Kind × String)
  | primitive p => [word p.name]
  | any => [word "any"]
  | never => [word "never"]
  | dynamic => [word "dynamic"]
  | dynamicOf c => bracketed "dynamic" .leftBracket .rightBracket (spelled c)
  | list e _ _ => bracketed "list" .leftBracket .rightBracket (spelled e)
  | record fs _ =>
      bracketed "record" .leftBrace .rightBrace ([mark .comma].intercalate (spelledFields fs))
  | function ps r =>
      mark .leftParen :: ([mark .comma].intercalate (spelledParams ps)
        ++ mark .rightParen :: mark .arrow :: spelled r)
  | union ts => [mark .bar].intercalate (spelledMembers ts)
  | inter ts => [mark .ampersand].intercalate (spelledMembers ts)
  | prompt i o _ _ =>
      bracketed "prompt" .leftBracket .rightBracket (spelled i ++ mark .comma :: spelled o)

/-- The tokens of members, one after the other. -/
def spelledMembers : List Ty → List (List (Kind × String))
  | [] => []
  | t :: ts => enclosed t (spelled t) :: spelledMembers ts

/-- The tokens of fields, one after the other. -/
def spelledFields : List (Field Ty) → List (List (Kind × String))
  | [] => []
  | ⟨name, t, isOptional, _⟩ :: fs => (spelledName name isOptional ++ spelled t) :: spelledFields fs

/-- The tokens of parameters, one after the other. -/
def spelledParams : List (Param Ty) → List (List (Kind × String))
  | [] => []
  | ⟨name, t, isOptional⟩ :: ps => (spelledName name isOptional ++ spelled t) :: spelledParams ps

end

/-! The lists of tokens and texts are those of the library. -/

/-- The tokens of a member. -/
def spelledMember (t : Ty) : List (Kind × String) := enclosed t (spelled t)

/-- The tokens of a name with a type. -/
def spelledNamed (name : String) (t : Ty) (isOptional : Bool) : List (Kind × String) :=
  spelledName name isOptional ++ spelled t

theorem spelledMembers_eq (ts : List Ty) : spelledMembers ts = ts.map spelledMember := by
  induction ts with
  | nil => rfl
  | cons t ts ih => rw [spelledMembers, ih]; rfl

theorem spelledFields_eq (fs : List (Field Ty)) :
    spelledFields fs = fs.map fun f => spelledNamed f.name f.type f.isOptional := by
  induction fs with
  | nil => rfl
  | cons f fs ih => rw [spelledFields, ih]; rfl

theorem spelledParams_eq (ps : List (Param Ty)) :
    spelledParams ps = ps.map fun p => spelledNamed p.name p.type p.isOptional := by
  induction ps with
  | nil => rfl
  | cons p ps ih => rw [spelledParams, ih]; rfl

theorem displayMembers_eq (ts : List Ty) :
    displayMembers ts = ts.map fun t => grouped t (display t) := by
  induction ts with
  | nil => rfl
  | cons t ts ih => rw [displayMembers, ih]; rfl

theorem displayFields_eq (fs : List (Field Ty)) :
    displayFields fs = fs.map fun f => nameText f.name f.isOptional ++ display f.type := by
  induction fs with
  | nil => rfl
  | cons f fs ih => rw [displayFields, ih]; rfl

theorem displayParams_eq (ps : List (Param Ty)) :
    displayParams ps = ps.map fun p => nameText p.name p.isOptional ++ display p.type := by
  induction ps with
  | nil => rfl
  | cons p ps ih => rw [displayParams, ih]; rfl

/-! ## Types whose text says everything -/

/-- Nothing about the node is left out in writing, or abridged: bounds of a list, settings of
a prompt, closed records and descriptions of fields. -/
def isPlainNode : Ty → Bool
  | list _ least most => least.isNone && most.isNone
  | prompt _ _ model temperature => model.isNone && temperature.isNone
  | record fs isOpen => isOpen && fs.all fun f => f.description.isNone
  | _ => true

theorem isPlainNode_list {e : Ty} {least most : Option Int} :
    isPlainNode (list e least most) = true ↔ least = none ∧ most = none := by
  simp [isPlainNode]

theorem isPlainNode_prompt {i o : Ty} {model : Option String} {temperature : Option Binary64} :
    isPlainNode (prompt i o model temperature) = true ↔ model = none ∧ temperature = none := by
  simp [isPlainNode]

theorem isPlainNode_record {fs : List (Field Ty)} {isOpen : Bool} :
    isPlainNode (record fs isOpen) = true ↔
      isOpen = true ∧ ∀ f ∈ fs, f.description = none := by
  simp [isPlainNode]

/-- The names at the node are names. -/
def isNamedNode : Ty → Bool
  | record fs _ => fs.all fun f => isNameToken f.name
  | function ps _ => ps.all fun p => isNameToken p.name
  | _ => true

/-! ## The text is cut into the tokens -/

section Cuts

variable {t : Ty} {rest : List Char}

/-- The text of the type is cut into its tokens, in front of everything that does not
continue a word. -/
def IsCut (t : Ty) : Prop :=
  ∀ rest, EndsName rest → Cuts (t.display.toList ++ rest) t.spelled rest

theorem cuts_comma (rest : List Char) :
    EndsName (", ".toList ++ rest) ∧ Cuts (", ".toList ++ rest) [mark .comma] rest :=
  ⟨endsName_cons (by decide) _,
    (Cuts.single (s := .comma) rfl (by decide) _).append (.blank (.done rest))⟩

theorem cuts_between (s : Symbol) (rest : List Char) :
    EndsName (' ' :: (s.spelling ++ ' ' :: rest))
      ∧ Cuts (' ' :: (s.spelling ++ ' ' :: rest)) [mark s] rest :=
  ⟨endsName_cons (by decide) _, .blank (Cuts.spaced s rest)⟩

theorem cuts_grouped (h : IsCut t) (hrest : EndsName rest) :
    Cuts ((grouped t t.display).toList ++ rest) (spelledMember t) rest := by
  unfold grouped spelledMember enclosed
  split
  · have hopen := Cuts.single (s := .leftParen) rfl (by decide) (t.display.toList ++ ')' :: rest)
    have hclose := Cuts.single (s := .rightParen) rfl (by decide) rest
    have hinside := h (')' :: rest) (endsName_cons (by decide) rest)
    simpa using hopen.append (hinside.append hclose)
  · exact h rest hrest

theorem cuts_named {name : String} {isOptional : Bool} (hname : isNameToken name = true)
    (h : IsCut t) (hrest : EndsName rest) :
    Cuts ((nameText name isOptional ++ t.display).toList ++ rest)
      (spelledNamed name t isOptional) rest := by
  have hname := isName_of_isNameToken hname
  have hcolon : Cuts (':' :: ' ' :: (t.display.toList ++ rest)) [mark .colon]
      (t.display.toList ++ rest) := Cuts.spaced .colon _
  have htype := hcolon.append (h rest hrest)
  cases isOptional with
  | false =>
      have hcut := (Cuts.name hname (endsName_cons (by decide) _)).append htype
      simpa [nameText, spelledNamed, spelledName] using hcut
  | true =>
      have hquestion := (Cuts.single (s := .question) rfl (by decide) _).append htype
      have hcut := (Cuts.name hname (endsName_cons (by decide) _)).append hquestion
      simpa [nameText, spelledNamed, spelledName] using hcut

/-- A word with something in brackets behind it. -/
theorem cuts_bracketed (head : String) (left right : Symbol) {l r : Char} {cs : List Char}
    {ks : List (Kind × String)} (hhead : IsName head) (hleft : left.spelling = [l])
    (hright : right.spelling = [r]) (hl : l ∉ ['|', '-', '=', ':'] ∧ Text.continuesName l = false)
    (hr : r ∉ ['|', '-', '=', ':'] ∧ Text.continuesName r = false)
    (h : ∀ rest, EndsName rest → Cuts (cs ++ rest) ks rest) (rest : List Char) :
    Cuts (head.toList ++ (l :: (cs ++ r :: rest))) (bracketed head left right ks) rest := by
  have hname := Cuts.name hhead (endsName_cons hl.2 (cs ++ r :: rest))
  have hopen := Cuts.single hleft hl.1 (cs ++ r :: rest)
  have hinside := h (r :: rest) (endsName_cons hr.2 rest)
  have hclose := Cuts.single hright hr.1 rest
  exact hname.append (hopen.append (hinside.append hclose))

theorem cuts_members (text : String) (sep : Symbol)
    (hsep : ∀ rest, EndsName (text.toList ++ rest) ∧ Cuts (text.toList ++ rest) [mark sep] rest)
    {ts : List Ty} (h : ∀ u ∈ ts, IsCut u) (hrest : EndsName rest) :
    Cuts ((text.intercalate (displayMembers ts)).toList ++ rest)
      ([mark sep].intercalate (spelledMembers ts)) rest := by
  rw [displayMembers_eq, spelledMembers_eq, String.toList_intercalate, List.map_map]
  exact Cuts.intercalate hsep (fun u hu rest hrest => cuts_grouped (h u hu) hrest) hrest

/-- Names with types and commas between them. -/
theorem cuts_listed {α : Type} {name : α → String} {type : α → Ty} (isOptional : α → Bool)
    {as : List α} (hnamed : ∀ a ∈ as, isNameToken (name a) = true)
    (h : ∀ a ∈ as, IsCut (type a)) (rest : List Char) (hrest : EndsName rest) :
    Cuts ((", ".intercalate (as.map fun a =>
        nameText (name a) (isOptional a) ++ (type a).display)).toList ++ rest)
      ([mark .comma].intercalate (as.map fun a => spelledNamed (name a) (type a) (isOptional a)))
      rest := by
  rw [String.toList_intercalate, List.map_map]
  exact Cuts.intercalate cuts_comma
    (fun a ha rest hrest => cuts_named (hnamed a ha) (h a ha) hrest) hrest

/-- The text of a type is cut into its tokens. -/
theorem isCut_display {t : Ty} (hplain : t.everywhere isPlainNode = true)
    (hnamed : t.everywhere isNamedNode = true) : IsCut t := by
  induction hn : sizeOf t using Nat.strongRecOn generalizing t with
  | ind n ih =>
      subst hn
      intro rest hrest
      have part : ∀ u ∈ t.parts, IsCut u := fun u hu =>
        ih _ (sizeOf_lt_of_mem_parts hu) (everywhere_part hplain hu) (everywhere_part hnamed hu) rfl
      have hplain := everywhere_here hplain
      have hnamed := everywhere_here hnamed
      cases t with
      | primitive p => exact Cuts.name (isName_of_mem (by cases p <;> decide)) hrest
      | any | never | dynamic => exact Cuts.name (isName_of_mem (by decide)) hrest
      | dynamicOf c =>
          have hcut := cuts_bracketed "dynamic" .leftBracket .rightBracket
            (isName_of_mem (by decide)) rfl rfl (by decide) (by decide)
            (part c (List.mem_singleton_self c)) rest
          simpa [display, spelled] using hcut
      | list e least most =>
          obtain ⟨rfl, rfl⟩ := isPlainNode_list.mp hplain
          have hcut := cuts_bracketed "list" .leftBracket .rightBracket
            (isName_of_mem (by decide)) rfl rfl (by decide) (by decide)
            (part e (List.mem_singleton_self e)) rest
          simpa [display, spelled, boundsText] using hcut
      | record fs isOpen =>
          simp only [isNamedNode, List.all_eq_true] at hnamed
          have hfields := cuts_listed Field.isOptional hnamed fun f hf =>
            part f.type (List.mem_map_of_mem hf)
          rw [← displayFields_eq, ← spelledFields_eq] at hfields
          have hcut := cuts_bracketed "record" .leftBrace .rightBrace
            (isName_of_mem (by decide)) rfl rfl (by decide) (by decide) hfields rest
          simpa [display, spelled] using hcut
      | function ps r =>
          simp only [isNamedNode, List.all_eq_true] at hnamed
          have hparams := cuts_listed Param.isOptional hnamed fun p hp =>
            part p.type (List.mem_append_left _ (List.mem_map_of_mem hp))
          rw [← displayParams_eq, ← spelledParams_eq] at hparams
          have hreturns := part r (by simp [parts]) rest hrest
          have harrow := (cuts_between .arrow (r.display.toList ++ rest)).2.append hreturns
          have hclose := (Cuts.single (s := .rightParen) rfl (by decide) _).append harrow
          have hinside := (hparams _ (endsName_cons (by decide) _)).append hclose
          have hcut := (Cuts.single (s := .leftParen) rfl (by decide) _).append hinside
          simpa [display, spelled, Symbol.spelling] using hcut
      | union ts => exact cuts_members " | " .bar (cuts_between .bar) part hrest
      | inter ts => exact cuts_members " & " .ampersand (cuts_between .ampersand) part hrest
      | prompt i o model temperature =>
          obtain ⟨rfl, rfl⟩ := isPlainNode_prompt.mp hplain
          have hinside : ∀ rest, EndsName rest →
              Cuts (i.display.toList ++ (", ".toList ++ o.display.toList) ++ rest)
                (i.spelled ++ mark .comma :: o.spelled) rest := by
            intro rest hrest
            obtain ⟨hends, hcomma⟩ := cuts_comma (o.display.toList ++ rest)
            have houtput := hcomma.append (part o (by simp [parts]) rest hrest)
            simpa using (part i (by simp [parts]) _ hends).append houtput
          have hcut := cuts_bracketed "prompt" .leftBracket .rightBracket
            (isName_of_mem (by decide)) rfl rfl (by decide) (by decide) hinside rest
          simpa [display, spelled, settingsText] using hcut

end Cuts

end Ty

end TypedPrompt
