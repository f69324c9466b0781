/-
# `Yaml.Meaning` — what nodes denote

The data of a node follow its tag.  A node may fail to be what its tag says, and a
document may hold several such nodes; the one that counts is found level by level,
in the order of the document within a level.  A collection takes part with
what it is made of one level below itself: that is where it turns out that a key is
no scalar, or that a mapping was announced and a sequence stands there.
-/
import TypedPrompt.Yaml.Data
import TypedPrompt.Yaml.Fault
import TypedPrompt.Yaml.Node

namespace TypedPrompt.Yaml

/-- Faults by their level, those of the highest one first. -/
abbrev Levels := List (List Fault)

/-- The faults of two nodes beside one another. -/
def Levels.beside : Levels → Levels → Levels
  | [], others => others
  | levels, [] => levels
  | fs :: levels, gs :: others => (fs ++ gs) :: beside levels others

/-- What a node denotes, given that there are no faults. -/
structure Meaning where
  data : Data
  /-- the faults of the node by itself -/
  faults : List Fault
  /-- the faults of what it is made of -/
  below : Levels

namespace Meaning

/-- A node that is not what its tag says. -/
def fault (f : Fault) : Meaning := ⟨.scalar .null, [f], []⟩

/-- A collection of another kind than its tag says, or no collection at all. -/
def misnamed : Meaning := ⟨.scalar .null, [], [[.malformed]]⟩

/-- The scalar of a text under a tag. -/
def ofScalar (tag : Tag) (text : List Char) : Meaning :=
  match Scalar.ofText tag text with
  | some (.ok s) => ⟨.scalar s, [], []⟩
  | some (.error f) => fault (.scalar f)
  | none => if tag = .sequence ∨ tag = .mapping then misnamed else fault .malformed

/-- The sequence of some items under a tag. -/
def ofItems (tag : Tag) (items : List Meaning) : Meaning :=
  if tag = .sequence then
    ⟨.sequence (items.map data), [],
      items.flatMap faults :: items.foldr (fun m levels => m.below.beside levels) []⟩
  else if tag = .mapping then misnamed
  else fault .malformed

/-- The key that a node denotes. -/
def key? (m : Meaning) : Option Scalar :=
  match m.data with
  | .scalar s => some s
  | _ => none

/-- The faults of an entry by itself: of its key, which has to be a scalar, and of what
stands under it. -/
def entryFaults (entry : Meaning × Meaning) : List Fault :=
  entry.1.faults ++ (if entry.1.below.isEmpty then [] else [.malformed]) ++ entry.2.faults

/-- The mapping of some entries under a tag. -/
def ofEntries (tag : Tag) (entries : List (Meaning × Meaning)) : Meaning :=
  if tag = .mapping then
    ⟨.mapping (Mapping.putAll [] (entries.filterMap fun entry =>
        entry.1.key?.map fun key => (key, entry.2.data))), [],
      entries.flatMap entryFaults
        :: entries.foldr (fun entry levels => entry.2.below.beside levels) []⟩
  else if tag = .sequence then misnamed
  else fault .malformed

/-- A mapping that cannot be merged, under a tag. -/
def ofUnmergeable (tag : Tag) : Meaning :=
  if tag = .mapping ∨ tag = .sequence then misnamed else fault .malformed

/-- The fault that counts. -/
def fault? (m : Meaning) : Option Fault := (m.faults ++ m.below.flatten).head?

/-- The data, or the fault that counts. -/
def result (m : Meaning) : Except Fault Data :=
  match m.fault? with
  | some f => .error f
  | none => .ok m.data

end Meaning

namespace Node

mutual

/-- What a node denotes. -/
def meaning : Node → Meaning
  | scalar tag text => Meaning.ofScalar tag text
  | sequence tag items => Meaning.ofItems tag (itemMeanings items)
  | mapping tag entries => Meaning.ofEntries tag (entryMeanings entries)
  | unmergeable tag => Meaning.ofUnmergeable tag

/-- What the items denote. -/
def itemMeanings : List Node → List Meaning
  | [] => []
  | n :: ns => meaning n :: itemMeanings ns

/-- What the entries denote. -/
def entryMeanings : List (Node × Node) → List (Meaning × Meaning)
  | [] => []
  | (k, n) :: es => (meaning k, meaning n) :: entryMeanings es

end

end Node

end TypedPrompt.Yaml
