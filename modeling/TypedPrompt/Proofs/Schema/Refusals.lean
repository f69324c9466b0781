/-
# `Proofs.Schema.Refusals` — texts that decoding has no outcome for

Decoding takes every text to an outcome, with a value or without, except where it
comes upon an integer with more than `maxDigits` digits.  That can happen in three
places: where the text is read as JSON (`ReadsOversized`), where the entries of the
object are brought to the types of the fields (`CoercesOversized`), and where what is
wrong is put into words (`ReportsOversized`), for the words show the limit on levels and
the bounds of lists.  `decode_ok_iff` says that these are the only ones, and
`decode_long_integer` that the first one is real.

No short text is concerned.  In the first place the digits stand in the text.  In the
second place they need not, since a string may be written in escapes, but no string is
longer than the text it is read from, and what is read can be written.  In the third place
the integer is one of the schema.

All this takes the calls of decoding to have room on the stack.  It calls itself for the
levels of a type, of a default that it copies and of a value that it writes as JSON
(`RecursesTo`).  Types and defaults belong to the schema.  A value that is written belongs
to the text, but it has no more levels than the schema has as its limit, since a deeper one
has been refused by then.  So where the schema stays within the room, decoding does,
whatever the text (`RecursesTo.le`).
-/
import TypedPrompt.Proofs.Correspondence
import TypedPrompt.Proofs.Json.Oversized
import TypedPrompt.Proofs.Schema.Depth
import TypedPrompt.Proofs.Ty.Components

namespace TypedPrompt

open OversizedInteger

/-! ## Values that become numbers or texts -/

/-- The text is an integer with too many digits, white space around it allowed. -/
def IsOversized (s : String) : Prop :=
  ∃ n, Numeral.ofText? (Text.trim s.toList) = some n ∧ n.isIntegral = true
    ∧ maxDigits < n.whole.length

theorem IsOversized.lt_length {s : String} (h : IsOversized s) : maxDigits < s.length := by
  obtain ⟨n, hn, -, hlong⟩ := h
  unfold Numeral.ofText? at hn
  split at hn
  · next hscan =>
      cases hn
      have hrun := (Numeral.longRun_of_scan hscan hlong).mono (Text.trim_isInfix s.toList)
      rw [← String.length_toList]
      exact hrun.lt_length
  · cases hn

theorem Value.numberOf_eq_error_iff {s : String} : numberOf s = .error .mk ↔ IsOversized s := by
  unfold numberOf IsOversized
  cases Numeral.ofText? (Text.trim s.toList) with
  | none => simp
  | some n =>
      cases hi : n.isIntegral with
      | false => simp [hi]
      | true =>
          have hdigits := Numeral.toInt?_eq_none_iff (n := n)
          cases ht : n.toInt? with
          | none => simpa [ht, hi] using hdigits.mp ht
          | some i => simpa [ht, hi] using hdigits.not.mp (by simp [ht])

/-- An integer with too many digits stands between the value and the type: it is to be read
from a text, or to be written into one. -/
def Value.Uncoercible (t : Ty) (v : Value) : Prop :=
  t = .number ∧ (∃ s, v = .str s ∧ IsOversized s) ∨ t = .string ∧ v.HoldsOverlong

theorem Value.coerce_eq_error_iff {t : Ty} {v : Value} :
    coerce t v = .error .mk ↔ v.Uncoercible t := by
  unfold coerce Uncoercible
  split
  · simp [numberOf_eq_error_iff, Ty.number, Ty.string]
  · simp [Ty.number, Ty.string]
  · simp [Ty.number, Value.not_holdsOverlong_of_integers (v := .str _) rfl]
  · simp [Ty.number, Ty.string, map_eq_error_iff, Json.text_eq_error_iff]
  · next hstring hnumber _ _ =>
      refine ⟨nofun, ?_⟩
      rintro (⟨rfl, s, rfl, -⟩ | ⟨rfl, -⟩)
      · exact (hnumber s rfl rfl).elim
      · exact (hstring rfl).elim

/-! ## Reading -/

/-- Reading the text, or the block in it, comes upon an integer with too many digits. -/
def ReadsOversized (text : List Char) : Prop :=
  ∃ part, readLoosely text = .error ⟨part, .oversizedInteger⟩

/-- The digits stand in the text, on end. -/
theorem ReadsOversized.longRun {text : List Char} (h : ReadsOversized text) : LongRun text := by
  obtain ⟨part, h⟩ := h
  unfold readLoosely at h
  split at h
  · cases h
  · next hread => exact Json.longRun_of_read hread
  · split at h
    · simp_all
    · next hblock =>
        split at h
        · cases h
        · next hread =>
            cases h
            exact (Json.longRun_of_read hread).mono (Fence.block?_isInfix hblock)

/-- No string of the value is longer than the text, and its integers can be written. -/
theorem bounded_of_readLoosely {text : List Char} {v : Value} {fenced : Bool}
    (h : readLoosely text = .ok (v, fenced)) : Json.Bounded text.length v := by
  unfold readLoosely at h
  split at h
  · next hread =>
      cases h
      exact Json.bounded_of_read hread
  · cases h
  · split at h
    · cases h
    · next hblock =>
        split at h
        · next hread =>
            cases h
            exact (Json.bounded_of_read hread).mono (Fence.block?_isInfix hblock).length_le
        · cases h

/-! ## Decoding -/

theorem Entries.findLoosely?_mem {es : Entries Value} {name key : String} {v : Value}
    (h : es.findLoosely? name = some (key, v)) : (key, v) ∈ es := by
  unfold findLoosely? at h
  split at h
  · next hv =>
      cases h
      exact mem_of_find? hv
  · exact List.mem_of_find?_eq_some h

namespace Schema

variable {s : Schema} {es : Entries Value} {f : SchemaField} {v : Value} {text : List Char}

/-! ### Bringing an object towards the schema -/

/-- An integer with too many digits stands between the entry that is found for the field and
its type. -/
def OversizedFor (es : Entries Value) (f : SchemaField) : Prop :=
  ∃ key v, es.findLoosely? f.name = some (key, v) ∧ v.Uncoercible f.type

theorem correctField_eq_error_iff : correctField es f = .error .mk ↔ OversizedFor es f := by
  unfold correctField OversizedFor
  cases hf : es.findLoosely? f.name with
  | none => simp
  | some entry =>
      obtain ⟨key, v⟩ := entry
      simp [map_eq_error_iff, Value.coerce_eq_error_iff]

theorem correct_eq_error_iff :
    s.correct v = .error .mk ↔ ∃ es, v = .obj es ∧ ∃ f ∈ s.fields, OversizedFor es f := by
  cases v with
  | obj es =>
      rw [correct, map_eq_error_iff, ← exists_error_iff, mapM_fails_iff]
      simp [exists_error_iff, correctField_eq_error_iff]
  | _ => simp [correct]

/-- The text is read as an object that has to be corrected, and an entry cannot be brought to
the type of its field. -/
def CoercesOversized (s : Schema) (text : List Char) : Prop :=
  ∃ es fenced, readLoosely text = .ok (.obj es, fenced) ∧ s.isTooDeep (.obj es) = false
    ∧ s.isValid (.obj es) = false ∧ ∃ f ∈ s.fields, OversizedFor es f

theorem CoercesOversized.lt_length (h : s.CoercesOversized text) : maxDigits < text.length := by
  obtain ⟨es, fenced, hread, -, -, f, -, key, v, hfound, hv⟩ := h
  have hmem := Entries.findLoosely?_mem hfound
  have hbounded := bounded_of_readLoosely hread
  rcases hv with ⟨-, str, rfl, hstr⟩ | ⟨-, hlong⟩
  · exact Nat.lt_of_lt_of_le hstr.lt_length (hbounded.shortStrings key str hmem)
  · exact (hbounded.writable (Value.holdsOverlong_obj_iff.mpr ⟨(key, v), hmem, hlong⟩)).elim

/-! ### Putting into words what is wrong -/

/-- The integers that the words for a violation may show. -/
def shownIntegers (s : Schema) : List Int :=
  s.maxValueDepth :: s.fields.flatMap fun f => f.type.shownBounds

theorem integers_of_fieldViolation {e : Violation} (hf : f ∈ s.fields)
    (h : s.fieldViolation f v = some e) : e.integers ⊆ s.shownIntegers := by
  unfold fieldViolation at h
  split at h
  · cases h
    exact List.cons_subset_cons _ (List.nil_subset _)
  · cases h
    intro n hn
    exact List.mem_cons_of_mem _ (List.mem_flatMap.mpr ⟨f, hf, hn⟩)
  · split at h
    · cases h
    · cases h
      exact List.nil_subset _

theorem integers_of_violations {e : Violation} (h : e ∈ s.violations v) :
    e.integers ⊆ s.shownIntegers := by
  cases v with
  | obj es =>
      obtain ⟨f, hf, hfault⟩ := List.mem_filterMap.mp h
      unfold entryViolation at hfault
      split at hfault
      · exact integers_of_fieldViolation hf hfault
      · split at hfault
        · cases hfault
          exact List.nil_subset _
        · cases hfault
  | _ =>
      obtain rfl := List.mem_singleton.mp h
      exact List.nil_subset _

theorem integers_of_reported {e : Violation} (h : e ∈ s.reported v) :
    e.integers ⊆ s.shownIntegers := by
  unfold reported at h
  split at h
  · obtain rfl := List.mem_singleton.mp h
    exact List.cons_subset_cons _ (List.nil_subset _)
  · obtain ⟨w, -, hw⟩ := List.mem_flatMap.mp h
    exact integers_of_violations hw

/-- The text is read as a value, and the words for what is wrong with it, or with what it is
corrected to, would show an integer with too many digits. -/
def ReportsOversized (s : Schema) (text : List Char) : Prop :=
  ∃ v fenced, readLoosely text = .ok (v, fenced) ∧ ∃ e ∈ s.reported v, e.isSayable = false

theorem ReportsOversized.exists_overlong (h : s.ReportsOversized text) :
    ∃ n ∈ s.shownIntegers, isOverlong n = true := by
  obtain ⟨v, fenced, -, e, he, hsay⟩ := h
  obtain ⟨n, hn, hlong⟩ : ∃ n ∈ e.integers, isOverlong n = true := by
    simpa [Violation.isSayable] using hsay
  exact ⟨n, integers_of_reported he hn, hlong⟩

/-! ### The outcome -/

theorem reported_of_isTooDeep (h : s.isTooDeep v = true) :
    s.reported v = [.valueTooDeep s.maxValueDepth] := if_pos h

/-- What cannot be said of the value ends the decoding before it is corrected. -/
theorem reported_of_unsayable (hdeep : s.isTooDeep v = false) (h : s.validate v = .error .mk) :
    s.reported v = s.violations v := by
  cases hv : s.isValid v <;>
    simp [reported, tested, hdeep, hv, h, Except.bind, Except.toOption]

theorem reported_of_isValid (hdeep : s.isTooDeep v = false) (h : s.isValid v = true) :
    s.reported v = [] := by
  simp [reported, tested, hdeep, h, violations_of_isValid h]

theorem reported_of_correct {es : List Violation} {w : Value} (hdeep : s.isTooDeep v = false)
    (hv : s.isValid v = false) (h : s.validate v = .ok es) (hw : s.correct v = .ok w) :
    s.reported v = s.violations v ++ s.violations w := by
  simp [reported, tested, hdeep, hv, h, hw, Except.bind, Except.toOption]

/-- A value that is decoded has no outcome if what is wrong cannot be said, or if it has to be
corrected and cannot be. -/
theorem decodeValue_eq_error_iff :
    s.decodeValue v = .error .mk ↔ (∃ e ∈ s.reported v, e.isSayable = false)
      ∨ s.isTooDeep v = false ∧ s.isValid v = false ∧ s.correct v = .error .mk := by
  unfold decodeValue
  cases hdeep : s.isTooDeep v with
  | true => simp [reported_of_isTooDeep hdeep, map_eq_error_iff, Violation.report_eq_error_iff]
  | false =>
      cases hreport : s.validate v with
      | error e =>
          refine iff_of_true rfl (.inl ?_)
          rw [reported_of_unsayable hdeep hreport]
          exact validate_eq_error_iff.mp hreport
      | ok es =>
          obtain ⟨hsayable, rfl⟩ := validate_eq_ok_iff.mp hreport
          cases hv : s.isValid v with
          | true =>
              simp [bind_eq_error_iff, reported_of_isValid hdeep hv, violations_of_isValid hv]
          | false =>
              have hfaulty : s.violations v ≠ [] := violations_ne_nil_of_isValid hv
              cases hw : s.correct v with
              | error e => simp [hfaulty, bind_eq_error_iff]
              | ok w =>
                  have hlast : (∃ e ∈ s.reported v, e.isSayable = false)
                      ↔ ∃ e ∈ s.violations w, e.isSayable = false := by
                    rw [reported_of_correct hdeep hv hreport hw]
                    simp only [List.mem_append, or_and_right, exists_or]
                    refine or_iff_right ?_
                    rintro ⟨e, he, hsay⟩
                    rw [hsayable e he] at hsay
                    cases hsay
                  simp [hfaulty, bind_eq_error_iff, validate_eq_error_iff, hlast]

theorem decode_eq_error_iff : s.decode text = .error .mk
    ↔ ReadsOversized text ∨ s.CoercesOversized text ∨ s.ReportsOversized text := by
  cases hread : readLoosely text with
  | error unread =>
      obtain ⟨part, fault⟩ := unread
      have hcoerces : ¬ s.CoercesOversized text := by
        rintro ⟨es, fenced, hok, -⟩
        cases hread.symm.trans hok
      have hreports : ¬ s.ReportsOversized text := by
        rintro ⟨v, fenced, hok, -⟩
        cases hread.symm.trans hok
      cases fault <;> simp [decode, hread, ReadsOversized, hcoerces, hreports]
  | ok found =>
      obtain ⟨v, fenced⟩ := found
      have hreads : ¬ ReadsOversized text := by
        rintro ⟨part, herror⟩
        cases hread.symm.trans herror
      have hvalue : s.decode text = .error .mk ↔ s.decodeValue v = .error .mk := by
        cases fenced <;> simp [decode, hread, map_eq_error_iff]
      rw [hvalue, decodeValue_eq_error_iff, correct_eq_error_iff, or_iff_right hreads, or_comm]
      refine or_congr ⟨?_, ?_⟩ ⟨?_, ?_⟩
      · rintro ⟨hdepth, hvalid, es, rfl, hfield⟩
        exact ⟨es, fenced, hread, hdepth, hvalid, hfield⟩
      · rintro ⟨es, fenced', hok, hdepth, hvalid, hfield⟩
        obtain ⟨rfl, -⟩ : v = .obj es ∧ fenced = fenced' := by simpa [hread] using hok
        exact ⟨hdepth, hvalid, es, rfl, hfield⟩
      · exact fun hsay => ⟨v, fenced, hread, hsay⟩
      · rintro ⟨v', fenced', hok, hsay⟩
        obtain ⟨rfl, -⟩ : v = v' ∧ fenced = fenced' := by simpa [hread] using hok
        exact hsay

/-! ### Room on the stack -/

/-- The levels that a recursion may go down: a level takes a few calls, and those around
decoding want room as well. -/
def stackRoom : Nat := Json.maxDepth / 5

/-- What a schema is made of has at most so many levels, and so has what it lets in. -/
structure StaysWithin (s : Schema) (room : Nat) : Prop where
  limit : s.maxValueDepth ≤ room
  types : ∀ f ∈ s.fields, f.type.height ≤ room
  defaults : ∀ f ∈ s.fields, ∀ d ∈ f.default, d.nesting ≤ room

/-- The value is to be written as JSON, since the field is a text and the value is not. -/
def WritesFor (es : Entries Value) (f : SchemaField) (v : Value) : Prop :=
  f.type = .string ∧ (∀ str, v ≠ .str str) ∧ ∃ key, es.findLoosely? f.name = some (key, v)

theorem WritesFor.nesting_lt (h : WritesFor es f v) : v.nesting < (Value.obj es).nesting := by
  obtain ⟨-, -, key, hfound⟩ := h
  exact Value.nesting_lt_of_mem_entries (Entries.findLoosely?_mem hfound)

/-- Decoding a text calls itself for so many levels: of a type, which a value is held against
and which is put into words, of a default, which is copied, or of a value, which is written. -/
inductive RecursesTo (s : Schema) (text : List Char) : Nat → Prop
  | type {f : SchemaField} : f ∈ s.fields → RecursesTo s text f.type.height
  | default {f : SchemaField} {d : Value} : f ∈ s.fields → d ∈ f.default →
      RecursesTo s text d.nesting
  | value {es : Entries Value} {fenced : Bool} {f : SchemaField} {v : Value} :
      readLoosely text = .ok (.obj es, fenced) → s.isTooDeep (.obj es) = false →
      f ∈ s.fields → WritesFor es f v → RecursesTo s text v.nesting

/-- The limit of the schema bounds the levels of what is written, whatever the text. -/
theorem RecursesTo.le {room n : Nat} (hs : s.StaysWithin room) (h : s.RecursesTo text n) :
    n ≤ room := by
  cases h with
  | type hf => exact hs.types _ hf
  | default hf hd => exact hs.defaults _ hf _ hd
  | value _ hdeep _ hwrites =>
      have hlevels := isTooDeep_obj_iff.mp hdeep
      have hless := hwrites.nesting_lt
      have hlimit := hs.limit
      omega

/-- Where the schema stays within the room on the stack, decoding has an outcome for every text
but those in which it comes upon an integer with too many digits.  Such a text is long, or the
integer is one of the schema.  Nor does any text take decoding beyond that room. -/
theorem decode_ok_iff (s : Schema) (text : List Char) (hs : s.StaysWithin stackRoom) :
    ((∃ d, s.decode text = .ok d)
        ↔ ¬ (ReadsOversized text ∨ s.CoercesOversized text ∨ s.ReportsOversized text))
      ∧ (∀ n, s.RecursesTo text n → n ≤ stackRoom)
      ∧ (ReadsOversized text → LongRun text)
      ∧ (s.CoercesOversized text → maxDigits < text.length)
      ∧ (s.ReportsOversized text → ∃ n ∈ s.shownIntegers, isOverlong n = true) :=
  ⟨exists_ok_iff.trans (not_congr decode_eq_error_iff), fun _ => RecursesTo.le hs,
    ReadsOversized.longRun, CoercesOversized.lt_length, ReportsOversized.exists_overlong⟩

/-- Opening brackets alone, as many as an integer may have digits. -/
theorem decode_ok_iff_brackets :
    let name : SchemaField := ⟨"name", .string, true, none, none, none⟩
    let tags : SchemaField :=
      ⟨"tags", .list .string none (some 9), true, none, none, some (.arr [])⟩
    let s : Schema := ⟨"Person", [name, tags], none, 64, by decide⟩
    s.StaysWithin stackRoom ∧ ∃ d, s.decode (List.replicate 4300 '[') = .ok d := by
  intro name tags s
  have hs : s.StaysWithin stackRoom := by
    refine ⟨by decide, ?_, ?_⟩
    · simp only [s, List.forall_mem_cons, List.not_mem_nil, false_implies, implies_true, and_true]
      exact ⟨by decide, by decide⟩
    · intro f hf d hd
      simp only [s, List.mem_cons, List.not_mem_nil, or_false] at hf
      rcases hf with rfl | rfl <;> cases hd
      decide
  obtain ⟨houtcome, -, hread, hcoerce, hreport⟩ :=
    decode_ok_iff s (List.replicate 4300 '[') hs
  have hshort : ¬ maxDigits < (List.replicate 4300 '[').length := by
    rw [List.length_replicate]
    decide
  refine ⟨hs, houtcome.mpr ?_⟩
  rintro (h | h | h)
  · exact hshort (hread h).lt_length
  · exact hshort (hcoerce h)
  · obtain ⟨n, hn, hlong⟩ := hreport h
    have hfew : ∀ n ∈ s.shownIntegers, isOverlong n = false := by
      decide
    rw [hfew n hn] at hlong
    cases hlong

/-- A text of digits alone, one more than may be read, has no outcome. -/
theorem decode_long_integer :
    decode ⟨"S", [], none, 64, List.nodup_nil⟩ (List.replicate 4301 '1') = .error .mk := by
  refine decode_eq_error_iff.mpr (.inl ⟨List.replicate 4301 '1', ?_⟩)
  have hread : Json.read (List.replicate 4301 '1') = .error .oversizedInteger := by
    rw [List.replicate_succ]
    refine Json.read_digits (by decide) (by decide) ?_ ?_
    · intro c hc
      rw [List.eq_of_mem_replicate hc]
      decide
    · rw [List.length_replicate]
      decide
  rw [readLoosely, hread]

end Schema

end TypedPrompt
