/-
# `Value.Basic` — data as it is exchanged

A value is what a JSON text denotes, with integers and floating point numbers
kept apart.  The file holds the type, the names of the kinds of values, the
depth of nesting, and equality.

The guard against values that nest too deep (`Value.nestedDeeperThan`) keeps what
is still to be looked at on a stack of its own, since it has to stand up to
values of any depth.

Equality (`Value.same`) is that of data and not of representations: truth
values count as the numbers 0 and 1, an integer equals a floating point number
of the same size, the two zeros are equal, and objects are equal as mappings,
whatever the order of their entries.  It is not reflexive: the value that is no
number differs from itself.
-/
import TypedPrompt.Number.Binary64
import TypedPrompt.Value.Entries

namespace TypedPrompt

/-- Data as it is exchanged. -/
inductive Value where
  | null
  | bool (b : Bool)
  | int (n : Int)
  | real (x : Binary64)
  | str (s : String)
  | arr (items : List Value)
  | obj (entries : List (String × Value))

/-- A number of either representation. -/
inductive Number where
  | int (n : Int)
  | real (x : Binary64)

/-- Equality of numbers across the two representations, without rounding. -/
def Number.same : Number → Number → Bool
  | int m, int n => m == n
  | int m, real y => y.sameInteger m
  | real x, int n => x.sameInteger n
  | real x, real y => x.sameNumber y

namespace Value

/-- The value as a number; truth values are the numbers 0 and 1. -/
def toNumber? : Value → Option Number
  | bool b => some (.int (if b then 1 else 0))
  | int n => some (.int n)
  | real x => some (.real x)
  | _ => none

/-- Equality of values that are neither text nor made of other values. -/
def samePlain : Value → Value → Bool
  | null, null => true
  | v, w =>
      match v.toNumber?, w.toNumber? with
      | some a, some b => a.same b
      | _, _ => false

mutual

/-- Equality of data. -/
def same : Value → Value → Bool
  | str s, w => match w with
      | str t => s == t
      | _ => false
  | arr xs, w => match w with
      | arr ys => sameItems xs ys
      | _ => false
  | obj es, w => match w with
      | obj fs => es.length == fs.length && sameEntries es fs
      | _ => false
  | v, w => samePlain v w

/-- Equality item by item. -/
def sameItems : List Value → List Value → Bool
  | [], ys => ys.isEmpty
  | x :: xs, ys => match ys with
      | y :: ys => same x y && sameItems xs ys
      | [] => false

/-- Every entry has its equal under the same name on the other side. -/
def sameEntries : List (String × Value) → List (String × Value) → Bool
  | [], _ => true
  | (name, v) :: es, fs =>
      (match Entries.find? fs name with
        | some w => same v w
        | none => false) && sameEntries es fs

end

mutual

/-- How deep arrays and objects nest: 0 for a value that is neither. -/
def nesting : Value → Nat
  | arr items => nestingItems items + 1
  | obj entries => nestingEntries entries + 1
  | _ => 0

/-- The deepest nesting among the items. -/
def nestingItems : List Value → Nat
  | [] => 0
  | v :: vs => max (nesting v) (nestingItems vs)

/-- The deepest nesting among the entries. -/
def nestingEntries : List (String × Value) → Nat
  | [] => 0
  | (_, v) :: es => max (nesting v) (nestingEntries es)

end

/-- The values that an array or an object is made of; none for a value that is neither. -/
def parts? : Value → Option (List Value)
  | arr items => some items
  | obj entries => some (entries.map Prod.snd)
  | _ => none

theorem sizeOf_map_snd_le : ∀ es : List (String × Value), sizeOf (es.map Prod.snd) ≤ sizeOf es
  | [] => Nat.le_refl _
  | (_, _) :: es => by
      have hes := sizeOf_map_snd_le es
      simp only [List.map_cons, List.cons.sizeOf_spec, Prod.mk.sizeOf_spec]
      omega

theorem sizeOf_parts_lt {v : Value} {parts : List Value} (h : v.parts? = some parts) :
    sizeOf parts < sizeOf v := by
  cases v with
  | arr items =>
      obtain rfl : items = parts := Option.some.inj h
      simp only [arr.sizeOf_spec]
      omega
  | obj entries =>
      obtain rfl : entries.map Prod.snd = parts := Option.some.inj h
      have hentries := sizeOf_map_snd_le entries
      simp only [obj.sizeOf_spec]
      omega
  | _ => cases h

/-- A stack of values, each with the depth at which it lies. -/
abbrev Pending := List (Value × Nat)

namespace Pending

/-- The stack with values of one depth on top of it, the last of them uppermost. -/
def push (depth : Nat) : List Value → Pending → Pending
  | [], pending => pending
  | v :: vs, pending => push depth vs ((v, depth) :: pending)

/-- The size of all values on the stack. -/
noncomputable def weight : Pending → Nat
  | [] => 0
  | (v, _) :: pending => sizeOf v + weight pending

theorem weight_push_le (depth : Nat) (vs : List Value) (pending : Pending) :
    weight (push depth vs pending) ≤ sizeOf vs + weight pending := by
  induction vs generalizing pending with
  | nil => exact Nat.le_add_left _ _
  | cons v vs ih =>
      have hvs := ih ((v, depth) :: pending)
      rw [push]
      simp only [weight, List.cons.sizeOf_spec] at hvs ⊢
      omega

/-- Whether an array or object lies deeper than `limit` in some value on the stack.  The
parts of a value take its place, one step deeper; the walk ends at the first array or
object beyond the limit, so it never looks below that depth. -/
@[semireducible] def deeperThan (limit : Int) : Pending → Bool
  | [] => false
  | (v, depth) :: pending =>
      match _h : v.parts? with
      | none => deeperThan limit pending
      | some parts =>
          if limit < depth then true else deeperThan limit (push (depth + 1) parts pending)
termination_by pending => weight pending
decreasing_by
  · cases v <;> simp +arith [weight]
  · have hparts := sizeOf_parts_lt _h
    have hweight := weight_push_le (depth + 1) parts pending
    simp only [weight]
    omega

end Pending

/-- Whether arrays and objects nest deeper than `limit` allows. -/
def nestedDeeperThan (v : Value) (limit : Int) : Bool := Pending.deeperThan limit [(v, 1)]

/-- The name of a value's kind, as messages give it. -/
def kindName : Value → String
  | null => "null"
  | bool _ => "boolean"
  | int _ => "number"
  | real _ => "number"
  | str _ => "string"
  | arr _ => "array"
  | obj _ => "object"

end Value

end TypedPrompt
