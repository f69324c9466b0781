/-
# `Proofs.Reading.SpelledTypes` — a type that is written is read again

`Ty.display` writes what `Ty.read` reads, as far as the text says everything about the
type (`Ty.Writable`).  The text is cut into the tokens that `Ty.spelled` names, and on
their contents the reader can be followed.  It is greedy, so a type is read up to what
follows it only where the type does not go on (`Kind.continuesType`); the separators and
the closing brackets of the writer are all of this kind.

A compound member stands in parentheses, and so does the list of parameters of a
function.  The reader tells them apart by the two tokens behind the parenthesis
(`IsFront`).  What it reads it puts into normal form again, which changes nothing where
the type was in normal form.

A type needs one level more than its height, and no level for a member that stands
without parentheses.
-/
import TypedPrompt.Proofs.Reading.AcceptedExpressions
import TypedPrompt.Proofs.Reading.Takes
import TypedPrompt.Proofs.Ty.Normalisation
import TypedPrompt.Proofs.Ty.Spelling
import TypedPrompt.Reading.Source

namespace TypedPrompt

namespace Ty

/-- A type in normal form of which the text says everything. -/
structure Writable (t : Ty) : Prop where
  normal : t.inNormalForm = true
  fields : t.namesFieldsOnce = true
  plain : t.everywhere isPlainNode = true
  named : t.everywhere isNamedNode = true

theorem Writable.part {t u : Ty} (h : Writable t) (hu : u ∈ t.parts) : Writable u :=
  ⟨everywhere_part h.normal hu, everywhere_part h.fields hu, everywhere_part h.plain hu,
    everywhere_part h.named hu⟩

/-! ## The front of a type -/

theorem ne_endOfInput_of_continuesType {k : Kind} (h : k.continuesType = true) :
    k ≠ .endOfInput := by
  rintro rfl
  cases h

/-- Tokens in front of which a parenthesis does not open parameters. -/
def IsFront (ks : List (Kind × String)) : Prop :=
  firstKind ks = .symbol .leftParen
    ∨ ∃ w more, ks = word w :: more ∧ (more = [] ∨ (firstKind more).continuesType = true)

theorem IsFront.kind {ks : List (Kind × String)} (h : IsFront ks) :
    firstKind ks ≠ .endOfInput := by
  rcases h with h | ⟨w, more, rfl, -⟩
  · simp [h]
  · simp

theorem IsFront.append {ks js : List (Kind × String)} (h : IsFront ks)
    (hjs : (firstKind js).continuesType = true) : IsFront (ks ++ js) := by
  have hkind := firstKind_append h.kind js
  rcases h with h | ⟨w, more, rfl, h⟩
  · exact .inl (hkind.trans h)
  · refine .inr ⟨w, more ++ js, rfl, .inr ?_⟩
    rcases h with rfl | h
    · exact hjs
    · rwa [firstKind_append (ne_endOfInput_of_continuesType h)]

/-- A member begins with a parenthesis, or with its name. -/
theorem isFront_member (t : Ty) : IsFront t.spelledMember := by
  cases t with
  | function | union | inter => exact .inl rfl
  | primitive | any | never | dynamic => exact .inr ⟨_, _, rfl, .inl rfl⟩
  | dynamicOf | list | record | prompt => exact .inr ⟨_, _, rfl, .inr rfl⟩

theorem isFront_members {sep : Symbol} (hsep : (Kind.symbol sep).continuesType = true)
    {ts : List Ty} (hts : ts ≠ []) : IsFront ([mark sep].intercalate (spelledMembers ts)) := by
  obtain ⟨t, more, rfl⟩ := List.exists_cons_of_ne_nil hts
  rw [spelledMembers_eq]
  cases more with
  | nil => simpa using isFront_member t
  | cons u more =>
      rw [List.map_cons, List.map_cons, List.intercalate_cons_cons, List.append_assoc]
      exact (isFront_member t).append hsep

theorem Writable.isFront {t : Ty} (h : Writable t) : IsFront t.spelled := by
  have hnormal := everywhere_here h.normal
  cases t with
  | function => exact .inl rfl
  | union ts =>
      have hlength := (isNormalNode_union.mp hnormal).1
      exact isFront_members rfl (List.ne_nil_of_length_pos (by omega))
  | inter ts =>
      have hlength := (isNormalNode_inter.mp hnormal).1
      exact isFront_members rfl (List.ne_nil_of_length_pos (by omega))
  | primitive | any | never | dynamic => exact .inr ⟨_, _, rfl, .inl rfl⟩
  | dynamicOf | list | record | prompt => exact .inr ⟨_, _, rfl, .inr rfl⟩

end Ty

namespace Reading

open Reader Ty

variable {ks js : List (Kind × String)}

/-! ## Parentheses -/

/-- A name with a type begins with the name, and with the colon or the mark behind it. -/
theorem exists_spelledNamed (name : String) (t : Ty) (isOptional : Bool) :
    ∃ more, spelledNamed name t isOptional ++ ks = word name :: more
      ∧ (firstKind more = .symbol .colon ∨ firstKind more = .symbol .question) := by
  cases isOptional with
  | false => exact ⟨_, rfl, .inl rfl⟩
  | true => exact ⟨_, rfl, .inr rfl⟩

/-- Names that are followed by a colon or a question mark are parameters. -/
theorem opensFunctionType_named (l : Kind × String) (w : String)
    (h : firstKind ks = .symbol .colon ∨ firstKind ks = .symbol .question) :
    Takes opensFunctionType (l :: word w :: ks) ks (· = true) := by
  refine Takes.bind Takes.step fun _ _ => Takes.peek_bind fun t ht => ?_
  refine Takes.ite_neg (by simp [ht]) (Takes.ite_pos ht ?_)
  refine Takes.bind Takes.step fun _ _ => Takes.peek_bind fun u hu => Takes.pure ?_
  simpa [hu] using h

theorem opensFunctionType_empty (l : Kind × String) :
    Takes opensFunctionType (l :: mark .rightParen :: ks) (mark .rightParen :: ks) (· = true) := by
  refine Takes.bind Takes.step fun _ _ => Takes.peek_bind fun t ht => ?_
  exact Takes.ite_pos ht (Takes.pure rfl)

variable (js) in
theorem opensFunctionType_function (ps : List (Param Ty)) (r : Ty) :
    ∃ is, Takes opensFunctionType ((function ps r).spelled ++ js) is (· = true) := by
  rw [spelled, spelledParams_eq, List.cons_append]
  cases ps with
  | nil => exact ⟨_, opensFunctionType_empty _⟩
  | cons p more =>
      obtain ⟨is, his⟩ := exists_intercalate_cons [mark .comma]
        (spelledNamed p.name p.type p.isOptional)
        (more.map fun p => spelledNamed p.name p.type p.isOptional)
      rw [List.map_cons, his]
      simp only [List.append_assoc]
      obtain ⟨ks, hks, hkind⟩ := exists_spelledNamed p.name p.type p.isOptional
      rw [hks]
      exact ⟨ks, opensFunctionType_named _ p.name hkind⟩

variable (js) in
/-- A type in parentheses does not look like a function type. -/
theorem opensFunctionType_front (l : Kind × String) (h : IsFront ks) :
    ∃ is, Takes opensFunctionType (l :: (ks ++ mark .rightParen :: js)) is (· = false) := by
  rcases h with h | ⟨w, more, rfl, hmore⟩
  · refine ⟨ks ++ mark .rightParen :: js, Takes.bind Takes.step fun _ _ => ?_⟩
    have hparen : firstKind (ks ++ mark .rightParen :: js) = .symbol .leftParen := by
      rw [firstKind_append (by simp [h]), h]
    refine Takes.peek_bind fun t ht => ?_
    exact Takes.ite_neg (by simp [ht, hparen]) (Takes.ite_neg (by simp [ht, hparen])
      (Takes.pure rfl))
  · have hstop : firstKind (more ++ mark .rightParen :: js) ≠ .symbol .colon
        ∧ firstKind (more ++ mark .rightParen :: js) ≠ .symbol .question := by
      rcases hmore with rfl | hmore
      · simp
      · rw [firstKind_append (ne_endOfInput_of_continuesType hmore)]
        constructor <;> intro hk <;> rw [hk] at hmore <;> cases hmore
    refine ⟨more ++ mark .rightParen :: js, Takes.bind Takes.step fun _ _ => ?_⟩
    refine Takes.peek_bind fun t ht => Takes.ite_neg (by simp [ht]) (Takes.ite_pos ht ?_)
    refine Takes.bind Takes.step fun _ _ => Takes.peek_bind fun u hu => Takes.pure ?_
    simp [hu, hstop.1, hstop.2]

/-- What opens no arguments does not belong to the name in front of it. -/
theorem takes_without_arguments {α : Type} {p q : Reader α} {Q : α → Prop} {left : Symbol}
    (hleft : (Kind.symbol left).opensArguments = true)
    (hjs : (firstKind js).opensArguments = false) (hq : Takes q js js Q) :
    Takes (accept (.symbol left) >>= fun b => if b = true then p else q) js js Q := by
  refine Takes.accept_ite_no ?_ hq
  intro h
  rw [h, hleft] at hjs
  cases hjs

/-! ## Members with marks between them -/

/-- Behind a member stands the next mark, or what follows all of them. -/
theorem opensArguments_of_member {sep : Symbol} (hsep : sep = .bar ∨ sep = .ampersand)
    (hjs : (firstKind js).continuesType = false)
    (hks : firstKind ks = .symbol sep ∨ ks = js) : (firstKind ks).opensArguments = false := by
  rcases hks with hks | rfl
  · rw [hks]
    rcases hsep with rfl | rfl <;> rfl
  · rw [← Bool.not_eq_true] at hjs ⊢
    exact mt Kind.continuesType_of_opensArguments hjs

/-- A single member is itself. -/
theorem combine_takes_single {item : Reader Ty} {sep : Symbol} {put : List Ty → Ty} {t : Ty}
    (hstop : firstKind js ≠ .symbol sep) (h : Takes item ks js (· = t)) :
    Takes (separated (.symbol sep) (fun _ => item) >>= fun members => pure (combine put members))
      ks js (· = t) := by
  refine Takes.bind_eq (Takes.separated_single hstop h) ?_
  exact Takes.pure rfl

/-- Several members are put together. -/
theorem combine_takes_several {item : Reader Ty} {sep : Symbol} {put : List Ty → Ty}
    {ts : List Ty} (hsep : (Kind.symbol sep).continuesType = true) (hlength : 2 ≤ ts.length)
    (hstop : firstKind js ≠ .symbol sep)
    (hitem : ∀ t ∈ ts, ∀ ks, (firstKind ks = .symbol sep ∨ ks = js) →
      Takes item (t.spelledMember ++ ks) ks (· = t)) :
    Takes (separated (.symbol sep) (fun _ => item) >>= fun members => pure (combine put members))
      ([mark sep].intercalate (spelledMembers ts) ++ js) js (· = put ts) := by
  have hne : ts ≠ [] := List.ne_nil_of_length_pos (by omega)
  have hfront := isFront_members hsep hne
  have hstart := firstKind_append hfront.kind js
  rw [spelledMembers_eq] at hstart hfront ⊢
  have hmembers := Takes.separated hne hstop (by rw [hstart]; exact hfront.kind)
    fun done t more ks hts => hitem t (by simp [hts]) ks
  refine Takes.bind hmembers ?_
  intro members h
  rw [h]
  match ts, hlength with
  | _ :: _ :: _, _ => exact Takes.pure rfl

/-- Types up to a height are taken as they are written. -/
def TakesTypes (height : Nat) (inner : Reader Ty) : Prop :=
  ∀ (t : Ty) (js : List (Kind × String)), t.Writable → t.height < height →
    (firstKind js).continuesType = false → Takes inner (t.spelled ++ js) js (· = t)

section Productions

variable {height : Nat} {inner : Reader Ty} (hinner : TakesTypes height inner)

include hinner

/-! ## Names and their types -/

theorem namedType_takes (name : String) {t : Ty} (isOptional : Bool) (ht : t.Writable)
    (hheight : t.height < height)
    (hjs : firstKind js = .symbol .comma ∨ firstKind js = .symbol .rightParen
      ∨ firstKind js = .symbol .rightBrace) :
    Takes (namedType inner) (spelledNamed name t isOptional ++ js) js
      (· = (name, t, isOptional)) := by
  have hstop : (firstKind js).continuesType = false := by
    rcases hjs with h | h | h <;> rw [h] <;> rfl
  have hquestion : firstKind js ≠ .symbol .question := by
    rcases hjs with h | h | h <;> simp [h]
  have early : Takes (accept (.symbol .question))
      ((if isOptional then [mark .question] else []) ++ (mark .colon :: (t.spelled ++ js)))
      (mark .colon :: (t.spelled ++ js)) (· = isOptional) := by
    cases isOptional with
    | false => exact Takes.accept_no (by simp)
    | true => exact Takes.accept_yes
  rw [spelledNamed, spelledName]
  simp only [List.cons_append, List.append_assoc, List.nil_append]
  refine Takes.bind Takes.expect ?_
  rintro n rfl
  refine Takes.bind_eq early ?_
  refine Takes.bind Takes.expect fun _ _ => ?_
  refine Takes.bind_eq (hinner t js ht hheight hstop) ?_
  refine Takes.bind_eq (Takes.accept_no hquestion) ?_
  exact Takes.pure (by rw [Bool.or_false])

theorem paramType_takes {p : Param Ty} (ht : p.type.Writable) (hheight : p.type.height < height)
    (hjs : firstKind js = .symbol .comma ∨ firstKind js = .symbol .rightParen) :
    Takes (paramType inner) (spelledNamed p.name p.type p.isOptional ++ js) js (· = p) := by
  have hnamed := namedType_takes hinner p.name p.isOptional ht hheight (hjs.imp_right .inl)
  refine Takes.bind_eq hnamed ?_
  exact Takes.pure rfl

/-- A field is taken if no field before it has its name. -/
theorem fieldType_takes {before : List (Field Ty)} {f : Field Ty} (ht : f.type.Writable)
    (hheight : f.type.height < height) (hdescription : f.description = none)
    (hnew : f.name ∉ before.map Field.name)
    (hjs : firstKind js = .symbol .comma ∨ firstKind js = .symbol .rightBrace) :
    Takes (fieldType inner before) (spelledNamed f.name f.type f.isOptional ++ js) js (· = f) := by
  have hnamed := namedType_takes hinner f.name f.isOptional ht hheight (hjs.imp_right .inr)
  refine Takes.bind_eq hnamed ?_
  refine Takes.ite_neg (by simpa using hnew) (Takes.pure ?_)
  rw [← hdescription]

/-! ## Types with arguments -/

theorem functionType_takes {ps : List (Param Ty)} {r : Ty} (h : (function ps r).Writable)
    (hheight : (function ps r).height ≤ height) (hjs : (firstKind js).continuesType = false) :
    Takes (functionType inner) ((function ps r).spelled ++ js) js (· = function ps r) := by
  have hpart := height_le_iff.mp hheight
  have hreturns : r ∈ (function ps r).parts := by simp [parts]
  rw [spelled, spelledParams_eq]
  simp only [List.cons_append, List.append_assoc]
  refine Takes.bind Takes.expect fun _ _ => ?_
  refine Takes.listed .rightParen rfl (by decide) (fun _ _ => rfl) ?_ ?_
  · intro done p more ks hps hks
    have hp : p.type ∈ (function ps r).parts := by
      rw [parts, hps]
      simp
    refine paramType_takes hinner (h.part hp) (hpart p.type hp) ?_
    rcases hks with hks | rfl
    · exact .inl hks
    · exact .inr rfl
  · refine Takes.bind Takes.expect fun _ _ => Takes.bind Takes.expect fun _ _ => ?_
    refine Takes.bind_eq (hinner r js (h.part hreturns) (hpart r hreturns) hjs) ?_
    exact Takes.pure rfl

theorem listType_takes {e : Ty} (he : e.Writable) (hheight : e.height < height) :
    Takes (listType inner) (mark .leftBracket :: (e.spelled ++ mark .rightBracket :: js)) js
      (· = list e none none) := by
  refine Takes.accept_ite_yes (Takes.bind_eq (hinner e _ he hheight rfl) ?_)
  have hbounds : Takes lengthBounds (mark .rightBracket :: js) (mark .rightBracket :: js)
      (· = (none, none)) := by
    refine Takes.bind_eq (Takes.accept_ite_no (by simp) (Takes.pure (Q := (· = none)) rfl)) ?_
    exact Takes.pure rfl
  refine Takes.bind_eq hbounds ?_
  exact Takes.bind Takes.expect fun _ _ => Takes.pure rfl

theorem recordType_takes {fs : List (Field Ty)} (h : (record fs true).Writable)
    (hheight : (record fs true).height ≤ height) :
    Takes (recordType inner)
      (mark .leftBrace :: ([mark .comma].intercalate (spelledFields fs) ++ mark .rightBrace :: js))
      js (· = record fs true) := by
  have hpart := height_le_iff.mp hheight
  have hdistinct := nodup_of_namesFieldsOnce h.fields
  have hdescription := (isPlainNode_record.mp (everywhere_here h.plain)).2
  rw [spelledFields_eq]
  refine Takes.accept_ite_yes ?_
  refine Takes.listed .rightBrace rfl (by decide) (fun _ _ => rfl) ?_ ?_
  · intro done f more ks hfs hks
    have hmem : f ∈ fs := by simp [hfs]
    have hf : f.type ∈ (record fs true).parts := List.mem_map_of_mem hmem
    have hnew : f.name ∉ done.map Field.name := by
      rw [hfs, List.map_append, List.map_cons] at hdistinct
      exact fresh_name hdistinct
    refine fieldType_takes hinner (h.part hf) (hpart f.type hf) (hdescription f hmem) hnew ?_
    rcases hks with hks | rfl
    · exact .inl hks
    · exact .inr rfl
  · exact Takes.bind Takes.expect fun _ _ => Takes.pure rfl

theorem dynamicType_takes {c : Ty} (hc : c.Writable) (hheight : c.height < height) :
    Takes (dynamicType inner) (mark .leftBracket :: (c.spelled ++ mark .rightBracket :: js)) js
      (· = dynamicOf c) := by
  refine Takes.accept_ite_yes (Takes.bind_eq (hinner c _ hc hheight rfl) ?_)
  exact Takes.bind Takes.expect fun _ _ => Takes.pure rfl

theorem promptType_takes {i o : Ty} (hi : i.Writable) (ho : o.Writable)
    (hin : i.height < height) (hout : o.height < height) :
    Takes (promptType inner)
      (mark .leftBracket :: (i.spelled ++ mark .comma :: (o.spelled ++ mark .rightBracket :: js)))
      js (· = prompt i o none none) := by
  refine Takes.accept_ite_yes (Takes.bind_eq (hinner i _ hi hin rfl) ?_)
  refine Takes.bind Takes.expect fun _ _ => Takes.bind_eq (hinner o _ ho hout rfl) ?_
  have hsettings : Takes promptSettings (mark .rightBracket :: js) (mark .rightBracket :: js)
      (· = (none, none)) := Takes.accept_ite_no (by simp) (Takes.pure rfl)
  refine Takes.bind_eq hsettings ?_
  exact Takes.bind Takes.expect fun _ _ => Takes.pure rfl

/-! ## Atoms, intersections, unions -/

/-- A type that is no compound begins with a name, and is what this name begins. -/
theorem typeOfName_takes {t : Ty} (h : t.Writable) (hatom : t.isCompound = false)
    (hheight : t.height ≤ height) (hjs : (firstKind js).opensArguments = false) :
    ∃ w more, t.spelled = word w :: more
      ∧ Takes (typeOfName inner w) (more ++ js) js (· = t) := by
  have hpart := height_le_iff.mp hheight
  cases t with
  | function | union | inter => cases hatom
  | primitive p => exact ⟨p.name, [], rfl, by cases p <;> exact Takes.pure rfl⟩
  | any => exact ⟨"any", [], rfl, Takes.pure rfl⟩
  | never => exact ⟨"never", [], rfl, Takes.pure rfl⟩
  | dynamic =>
      exact ⟨"dynamic", [], rfl, takes_without_arguments rfl hjs (Takes.pure rfl)⟩
  | dynamicOf c =>
      have hc := List.mem_singleton_self c
      refine ⟨"dynamic", _, rfl, ?_⟩
      simp only [List.cons_append, List.append_assoc, List.nil_append]
      exact dynamicType_takes hinner (h.part hc) (hpart c hc)
  | list e least most =>
      have he := List.mem_singleton_self e
      obtain ⟨rfl, rfl⟩ := isPlainNode_list.mp (everywhere_here h.plain)
      refine ⟨"list", _, rfl, ?_⟩
      simp only [List.cons_append, List.append_assoc, List.nil_append]
      exact listType_takes hinner (h.part he) (hpart e he)
  | record fs isOpen =>
      obtain ⟨rfl, -⟩ := isPlainNode_record.mp (everywhere_here h.plain)
      refine ⟨"record", _, rfl, ?_⟩
      simp only [List.cons_append, List.append_assoc, List.nil_append]
      exact recordType_takes hinner h hheight
  | prompt i o model temperature =>
      obtain ⟨rfl, rfl⟩ := isPlainNode_prompt.mp (everywhere_here h.plain)
      have hi : i ∈ (prompt i o none none).parts := by simp [parts]
      have ho : o ∈ (prompt i o none none).parts := by simp [parts]
      refine ⟨"prompt", _, rfl, ?_⟩
      simp only [List.cons_append, List.append_assoc, List.nil_append]
      exact promptType_takes hinner (h.part hi) (h.part ho) (hpart i hi) (hpart o ho)

theorem atomType_takes_word {t : Ty} (h : t.Writable) (hatom : t.isCompound = false)
    (hheight : t.height ≤ height) (hjs : (firstKind js).opensArguments = false) :
    Takes (atomType inner) (t.spelled ++ js) js (· = t) := by
  obtain ⟨w, more, hspelled, htakes⟩ := typeOfName_takes hinner h hatom hheight hjs
  rw [hspelled, List.cons_append]
  refine Takes.at_bind (Takes.ite_neg (by simp) (Takes.bind Takes.expect ?_))
  rintro n rfl
  exact htakes

theorem atomType_takes_group {t : Ty} (h : t.Writable) (hheight : t.height < height) :
    Takes (atomType inner) (mark .leftParen :: (t.spelled ++ mark .rightParen :: js)) js
      (· = t) := by
  obtain ⟨is, hlook⟩ := opensFunctionType_front js (mark .leftParen) h.isFront
  refine Takes.at_bind (Takes.ite_pos rfl (Takes.ahead_bind hlook ?_))
  rintro _ rfl
  refine Takes.bind Takes.step fun _ _ => Takes.bind_eq (hinner t _ h hheight rfl) ?_
  exact Takes.bind Takes.expect fun _ _ => Takes.pure rfl

theorem atomType_takes_function {ps : List (Param Ty)} {r : Ty} (h : (function ps r).Writable)
    (hheight : (function ps r).height ≤ height) (hjs : (firstKind js).continuesType = false) :
    Takes (atomType inner) ((function ps r).spelled ++ js) js (· = function ps r) := by
  obtain ⟨is, hlook⟩ := opensFunctionType_function js ps r
  refine Takes.at_bind (Takes.ite_pos rfl (Takes.ahead_bind hlook ?_))
  rintro _ rfl
  exact functionType_takes hinner h hheight hjs

/-- A member is taken as an atom: as it is, or in parentheses. -/
theorem atomType_takes_member {t : Ty} (h : t.Writable) (hheight : t.height < height)
    (hjs : (firstKind js).opensArguments = false) :
    Takes (atomType inner) (t.spelledMember ++ js) js (· = t) := by
  rw [spelledMember, enclosed]
  split
  · simp only [List.cons_append, List.append_assoc, List.nil_append]
    exact atomType_takes_group hinner h hheight
  · next hatom =>
      rw [Bool.not_eq_true] at hatom
      exact atomType_takes_word hinner h hatom (Nat.le_of_lt hheight) hjs

/-- A member is taken as an intersection of its own. -/
theorem interType_takes_member {t : Ty} (h : t.Writable) (hheight : t.height < height)
    (hjs : (firstKind js).opensArguments = false) (hstop : firstKind js ≠ .symbol .ampersand) :
    Takes (interType inner) (t.spelledMember ++ js) js (· = t) :=
  combine_takes_single hstop (atomType_takes_member hinner h hheight hjs)

theorem interType_takes {t : Ty} (h : t.Writable) (hunion : t.isUnion = false)
    (hheight : t.height ≤ height) (hjs : (firstKind js).continuesType = false) :
    Takes (interType inner) (t.spelled ++ js) js (· = t) := by
  have hopens := opensArguments_of_member (.inl rfl) hjs (.inr rfl)
  have hstop := (ne_mark hjs).2
  cases t with
  | union ts => cases hunion
  | inter ts =>
      have hnormal := everywhere_here h.normal
      have hmembers : Takes (interType inner) ((inter ts).spelled ++ js) js (· = interOf ts) := by
        refine combine_takes_several rfl (isNormalNode_inter.mp hnormal).1 hstop ?_
        intro u hu ks hks
        exact atomType_takes_member hinner (h.part hu) (height_le_iff.mp hheight u hu)
          (opensArguments_of_member (.inr rfl) hjs hks)
      rwa [interOf_of_normal hnormal] at hmembers
  | function ps r =>
      -- what it returns is read as far as it goes, so that no mark may follow
      exact combine_takes_single hstop (atomType_takes_function hinner h hheight hjs)
  | _ =>
      exact combine_takes_single hstop
        (atomType_takes_word hinner h rfl hheight hopens)

/-- With types inside it of a height, one that goes one step deeper is taken. -/
theorem unionType_takes : TakesTypes (height + 1) (unionType inner) := by
  intro t js h hheight hjs
  have hheight := Nat.le_of_lt_succ hheight
  have hstop := (ne_mark hjs).1
  -- whatever is no union is the single member of one, as the reader has it
  cases hunion : t.isUnion with
  | false => exact combine_takes_single hstop (interType_takes hinner h hunion hheight hjs)
  | true =>
      cases t with
      | union ts =>
          have hnormal := everywhere_here h.normal
          have hmembers : Takes (unionType inner) ((union ts).spelled ++ js) js
              (· = unionOf ts) := by
            refine combine_takes_several rfl (isNormalNode_union.mp hnormal).1 hstop ?_
            intro u hu ks hks
            refine interType_takes_member hinner (h.part hu) (height_le_iff.mp hheight u hu)
              (opensArguments_of_member (.inl rfl) hjs hks) ?_
            rcases hks with hks | rfl
            · simp [hks]
            · exact (ne_mark hjs).2
          rwa [unionOf_of_normal hnormal] at hmembers
      | _ => cases hunion

end Productions

/-- Types are taken as they are written, where there are more levels than they are deep. -/
theorem typeWithin_takes (limit : Int) (levels : Nat) :
    TakesTypes levels (typeWithin limit levels) := by
  induction levels with
  | zero =>
      intro t js _ hheight _
      exact absurd hheight (Nat.not_lt_zero _)
  | succ levels ih => exact unionType_takes ih

end Reading

namespace Ty

/-- A type that is written is read again, where there are more levels than it is deep. -/
theorem read_display_of_lt {t : Ty} (h : t.Writable) {maxNesting : Int}
    (hlimit : (t.height : Int) < maxNesting) : Ty.read maxNesting t.display = .ok t := by
  have hcut : Cuts (t.display.toList ++ []) t.spelled [] :=
    isCut_display h.plain h.named [] (fun c hc => by cases hc)
  rw [List.append_nil] at hcut
  obtain ⟨eof, ts, htokens, hcontents, heof⟩ := hcut.tokensOf Position.start
  have htakes := Reading.typeWithin_takes maxNesting maxNesting.toNat t [] h (by omega) rfl
  rw [List.append_nil] at htakes
  obtain ⟨us, hus, hleaves⟩ := htakes ⟨eof, heof⟩ ts hcontents
  obtain rfl := List.map_eq_nil_iff.mp hus
  obtain ⟨u, hread, rfl⟩ := Reading.complete_of_leaves .endOfType hleaves
  rw [Ty.read, htokens]
  exact hread

/-- Reading undoes writing: a type in normal form of which the text says everything is what
its text is read as, under any limit above its height, and no other such type is written
like it. -/
theorem read_display {t : Ty} (h : t.Writable) :
    (∀ maxNesting : Int, (t.height : Int) < maxNesting → Ty.read maxNesting t.display = .ok t)
      ∧ ∀ u : Ty, u.Writable → u.display = t.display → u = t := by
  constructor
  · intro maxNesting hlimit
    exact read_display_of_lt h hlimit
  · intro u hu hdisplay
    have hlimits : (t.height : Int) < max t.height u.height + 1
        ∧ (u.height : Int) < max t.height u.height + 1 := by omega
    have hread := read_display_of_lt hu hlimits.2
    rw [hdisplay, read_display_of_lt h hlimits.1] at hread
    exact (Except.ok.inj hread).symm

/-- Functions, an intersection and a prompt inside a union, with optional names. -/
theorem read_display_nested :
    Ty.read 6 ("((x: string, y?: list[any]) -> dynamic) | (record\x7bname?: string\x7d & "
        ++ "dynamic[prompt[any, string | null]]) | null")
      = .ok (union [function [⟨"x", string, false⟩, ⟨"y", list any none none, true⟩] dynamic,
          inter [record [⟨"name", string, true, none⟩] true,
            dynamicOf (prompt any (union [string, null]) none none)], null]) := by
  have hwritable : Writable (union [function [⟨"x", string, false⟩, ⟨"y", list any none none, true⟩]
      dynamic, inter [record [⟨"name", string, true, none⟩] true,
        dynamicOf (prompt any (union [string, null]) none none)], null]) :=
    ⟨by with_unfolding_all rfl, rfl, rfl, by with_unfolding_all rfl⟩
  exact (read_display hwritable).1 6 (by decide)

end Ty

end TypedPrompt
