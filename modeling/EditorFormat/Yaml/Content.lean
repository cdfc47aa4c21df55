import EditorFormat.Yaml.Scalars

/-!
# What nodes denote

Aliases are followed to the nodes they name. Nodes nest at most 128 deep, through aliases too, and
the number of aliases that are followed is limited by the size of the document.
-/

namespace EditorFormat.Yaml

open Json (Value)

/-- Reading a document: its root is known, and the aliases that were followed are counted. -/
abbrev Follow (α : Type) := ReaderT Node (StateT Nat Option) α

/-- How deep nodes may nest. -/
def depthLimit : Nat := 128

/-- The number of aliases that may be followed for each mark of a document. -/
def aliasesPerMark : Nat := 100

namespace Follow

/-- The node itself, or the one that an alias names. -/
def target : Node → Follow Node
  | .alias anchor => do
    let root ← read
    let count ← get
    if root.size * aliasesPerMark < count + 1 then failure
    set (count + 1)
    (root.lastAnchored? anchor : Option Node)
  | node => pure node

/-- The text of a key. -/
def keyText (node : Node) : Follow String := do
  match ← target node with
  | .scalar _ _ text => pure text
  | _ => failure

/-- The value of a node that may nest `depth` deep. The keys of a mapping must be strings. -/
def value : Nat → Node → Follow Value
  | depth, node => do
    match ← target node with
    | .alias _ => failure
    | .scalar properties style text => (scalarValue? properties style text : Option Value)
    | .sequence properties items =>
      match depth with
      | 0 => failure
      | depth + 1 =>
        if isCustomTag properties.tag then failure
        return .array (← items.mapM (value depth))
    | .mapping properties pairs =>
      match depth with
      | 0 => failure
      | depth + 1 =>
        if isCustomTag properties.tag then failure
        let members ← pairs.mapM fun (key, content) => do
          match ← value depth key with
          | .string name => return (name, ← value depth content)
          | _ => failure
        return .ofMembers members

/-- Read a document with an allowance of aliases. -/
def run {α : Type} (root : Node) (follow : Follow α) : Option α :=
  (StateT.run (ReaderT.run follow root) 0).map Prod.fst

end Follow

end EditorFormat.Yaml
