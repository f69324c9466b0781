/-
# `Yaml.Node` — the tree of a document

A node is a scalar, a sequence or a mapping, each with its tag.  The entries of a
mapping are pairs of nodes, in the order in which they are written and with nothing
left out; whether two keys are the same is settled once it is known what they stand
for.

An entry whose key has the tag of merges is no entry of its own: the entries of the
mapping under it, or of a sequence of mappings, come in front of all the others.
Of a sequence the last mapping comes first.
-/
import TypedPrompt.Yaml.Tag

namespace TypedPrompt.Yaml

/-- A node of a document. -/
inductive Node where
  | scalar (tag : Tag) (text : List Char)
  | sequence (tag : Tag) (items : List Node)
  | mapping (tag : Tag) (entries : List (Node × Node))
  /-- a mapping into which something is to be merged that is no mapping -/
  | unmergeable (tag : Tag)

namespace Node

/-- The node that stands where nothing is written. -/
def empty : Node := scalar .null []

/-- The tag of a node. -/
def tag : Node → Tag
  | scalar t _ => t
  | sequence t _ => t
  | mapping t _ => t
  | unmergeable t => t

/-- The entries of a mapping. -/
def entries? : Node → Option (List (Node × Node))
  | mapping _ entries => some entries
  | _ => none

/-- The entries that a node gives to a mapping into which it is merged. -/
def merged? : Node → Option (List (Node × Node))
  | mapping _ entries => some entries
  | sequence _ items => (items.mapM entries?).map fun parts => parts.reverse.flatten
  | _ => none

/-- The key of entries that are merged. -/
def isMerge (n : Node) : Bool := n.tag == .merge

/-- A key, where that of the entry for the whole mapping is a text like others. -/
def asKey : Node → Node
  | scalar .standIn text => scalar .text text
  | n => n

/-- A mapping, with its merges carried out. -/
def ofEntries (tag : Tag) (entries : List (Node × Node)) : Node :=
  let own := entries.filter fun entry => !entry.1.isMerge
  match (entries.filter fun entry => entry.1.isMerge).mapM fun entry => entry.2.merged? with
  | some merged => mapping tag (merged.flatten ++ own.map fun entry => (entry.1.asKey, entry.2))
  | none => unmergeable tag

/-- A mapping without merges has the entries that it is written with. -/
theorem ofEntries_of_no_merge (tag : Tag) (entries : List (Node × Node))
    (h : ∀ entry ∈ entries, entry.1.isMerge = false) :
    ofEntries tag entries
      = mapping tag (entries.map fun entry => (entry.1.asKey, entry.2)) := by
  have own : (entries.filter fun entry => !entry.1.isMerge) = entries :=
    List.filter_eq_self.mpr fun entry he => by simp [h entry he]
  have none : (entries.filter fun entry => entry.1.isMerge) = [] :=
    List.filter_eq_nil_iff.mpr fun entry he => by simp [h entry he]
  simp [ofEntries, own, none]

end Node

end TypedPrompt.Yaml
