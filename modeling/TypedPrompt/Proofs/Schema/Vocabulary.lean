/-
# `Proofs.Schema.Vocabulary` — what a constraint says of a value

The meaning of the keywords of JSON Schema that the projection uses.  A schema is
data: an object of keywords, each of which has to hold, or a truth value.  A
keyword says something about values of one kind only and holds of all others;
`additionalProperties` is about the entries that the `properties` beside it do not
name, and `oneOf` wants one of its schemas to hold and no other.  What is not a
keyword, such as `description`, says nothing.

Nothing here is about types.  The kinds are those of `Value.kindName`.
-/
import TypedPrompt.Value.Basic

namespace TypedPrompt.JsonSchema

/-- The keywords with a meaning. -/
inductive Keyword where
  | type
  | properties
  | required
  | additionalProperties
  | items
  | minItems
  | maxItems
  | allOf
  | oneOf
  | not
  deriving DecidableEq, Repr

/-- The keyword of a name. -/
def Keyword.ofName? : String → Option Keyword
  | "type" => some type
  | "properties" => some properties
  | "required" => some required
  | "additionalProperties" => some additionalProperties
  | "items" => some items
  | "minItems" => some minItems
  | "maxItems" => some maxItems
  | "allOf" => some allOf
  | "oneOf" => some oneOf
  | "not" => some not
  | _ => none

/-- The `properties` of a schema name the entry. -/
def declares (schema : Entries Value) (name : String) : Bool :=
  match schema.find? "properties" with
  | some (.obj properties) => Entries.has properties name
  | _ => false

/-- The object has an entry of the name. -/
def hasNamed (es : Entries Value) : Value → Bool
  | .str name => es.has name
  | _ => false

mutual

/-- The value satisfies the schema. -/
def accepts : Value → Value → Bool
  | .bool b, _ => b
  | .obj keywords, v => holdAll keywords keywords v
  | _, _ => false
termination_by structural schema => schema

/-- Each of some keywords of the schema holds of the value. -/
def holdAll (schema : Entries Value) : Entries Value → Value → Bool
  | [], _ => true
  | (name, argument) :: rest, v =>
      (match Keyword.ofName? name, argument, v with
        | some .type, .str kind, v => v.kindName == kind
        | some .properties, .obj properties, .obj es => holdProperties properties es
        | some .required, .arr names, .obj es => names.all (hasNamed es)
        | some .additionalProperties, other, .obj es =>
            es.all fun entry => declares schema entry.1 || accepts other entry.2
        | some .items, item, .arr items => items.all fun v => accepts item v
        | some .minItems, .int n, .arr items => decide (n ≤ items.length)
        | some .maxItems, .int n, .arr items => decide ((items.length : Int) ≤ n)
        | some .allOf, .arr schemas, v => acceptEach schemas v
        | some .oneOf, .arr schemas, v => acceptCount schemas v == 1
        | some .not, schema, v => !accepts schema v
        | _, _, _ => true) && holdAll schema rest v
termination_by structural keywords => keywords

/-- The entries of an object satisfy the schemas of their names. -/
def holdProperties : Entries Value → Entries Value → Bool
  | [], _ => true
  | (name, schema) :: rest, es =>
      (match es.find? name with
        | some v => accepts schema v
        | none => true) && holdProperties rest es
termination_by structural properties => properties

/-- The value satisfies every one of the schemas. -/
def acceptEach : List Value → Value → Bool
  | [], _ => true
  | schema :: rest, v => accepts schema v && acceptEach rest v
termination_by structural schemas => schemas

/-- How many of the schemas the value satisfies. -/
def acceptCount : List Value → Value → Nat
  | [], _ => 0
  | schema :: rest, v => (if accepts schema v then 1 else 0) + acceptCount rest v
termination_by structural schemas => schemas

end

/-! The tests on lists are those of the library on `accepts`. -/

/-- What the schema of a property says of an object. -/
def entryAccepted (es : Entries Value) (property : String × Value) : Bool :=
  match es.find? property.1 with
  | some v => accepts property.2 v
  | none => true

theorem holdProperties_eq (properties es : Entries Value) :
    holdProperties properties es = properties.all (entryAccepted es) := by
  induction properties with
  | nil => rfl
  | cons property rest ih => rw [List.all_cons, ← ih]; rfl

theorem acceptEach_eq (schemas : List Value) (v : Value) :
    acceptEach schemas v = schemas.all fun schema => accepts schema v := by
  induction schemas with
  | nil => rfl
  | cons schema rest ih => rw [List.all_cons, ← ih]; rfl

theorem acceptCount_eq (schemas : List Value) (v : Value) :
    acceptCount schemas v = schemas.countP fun schema => accepts schema v := by
  induction schemas with
  | nil => rfl
  | cons schema rest ih => rw [List.countP_cons, ← ih, Nat.add_comm]; rfl

/-! The keywords of a schema are independent, but for the names of its properties. -/

theorem holdAll_append (schema keywords others : Entries Value) (v : Value) :
    holdAll schema (keywords ++ others) v
      = (holdAll schema keywords v && holdAll schema others v) := by
  induction keywords with
  | nil => rfl
  | cons keyword rest ih =>
      rw [List.cons_append, holdAll.eq_def, holdAll.eq_def schema (keyword :: rest)]
      simp only [ih, Bool.and_assoc]

theorem holdAll_congr {schema schema' : Entries Value} (h : declares schema = declares schema')
    (keywords : Entries Value) (v : Value) :
    holdAll schema keywords v = holdAll schema' keywords v := by
  induction keywords with
  | nil => rfl
  | cons keyword rest ih =>
      rw [holdAll.eq_def, holdAll.eq_def schema']
      simp only [ih, h]

end TypedPrompt.JsonSchema
