/-
# `Yaml.Data` — what a document denotes

A scalar, a sequence or a mapping, whose keys are scalars.  A mapping keeps its
entries in the order in which their keys first came up; giving a key a second
time changes the entry where it stands and leaves the key as it was first given.
-/
import TypedPrompt.Yaml.Scalar

namespace TypedPrompt.Yaml

/-- What a document denotes. -/
inductive Data where
  | scalar (s : Scalar)
  | sequence (items : List Data)
  | mapping (entries : List (Scalar × Data))

/-- Entries under scalars, in order. -/
abbrev Mapping := List (Scalar × Data)

namespace Mapping

/-- The entry of a key. -/
def find? : Mapping → Scalar → Option Data
  | [], _ => none
  | (k, d) :: rest, key => if k.sameKey key then some d else find? rest key

/-- Sets the entry of a key: in its place if the key is there, at the end otherwise. -/
def put : Mapping → Scalar → Data → Mapping
  | [], key, d => [(key, d)]
  | (k, e) :: rest, key, d => if k.sameKey key then (k, d) :: rest else (k, e) :: put rest key d

/-- The entries of `m` with those of another mapping put in one after the other. -/
def putAll (m other : Mapping) : Mapping :=
  other.foldl (fun acc entry => acc.put entry.1 entry.2) m

/-- The entry under a name. -/
def named? (m : Mapping) (name : String) : Option Data := find? m (.str name)

/-- A key has its new entry after `put`. -/
theorem find?_put (m : Mapping) (key : Scalar) (d : Data) :
    find? (put m key d) key = some d := by
  induction m with
  | nil => simp [put, find?, Scalar.sameKey]
  | cons entry rest ih =>
      obtain ⟨k, e⟩ := entry
      by_cases h : k.sameKey key <;> simp [put, find?, h, ih]

end Mapping

namespace Data

mutual

/-- The text of data in a message. -/
def display : Data → String
  | scalar s => s.display
  | sequence items => "[" ++ ", ".intercalate (displayItems items) ++ "]"
  | mapping entries => "\x7b" ++ ", ".intercalate (displayEntries entries) ++ "\x7d"

/-- The texts of the items. -/
def displayItems : List Data → List String
  | [] => []
  | d :: ds => display d :: displayItems ds

/-- The texts of the entries, each behind its key. -/
def displayEntries : List (Scalar × Data) → List String
  | [] => []
  | (key, d) :: es => (key.display ++ ": " ++ display d) :: displayEntries es

end

mutual

/-- All of it can be written out. -/
def isWritable : Data → Bool
  | scalar s => s.isWritable
  | sequence items => areItemsWritable items
  | mapping entries => areEntriesWritable entries

/-- Every item can be written out. -/
def areItemsWritable : List Data → Bool
  | [] => true
  | d :: ds => isWritable d && areItemsWritable ds

/-- Every key and every entry can be written out. -/
def areEntriesWritable : List (Scalar × Data) → Bool
  | [] => true
  | (key, d) :: es => key.isWritable && isWritable d && areEntriesWritable es

end

end Data

end TypedPrompt.Yaml
