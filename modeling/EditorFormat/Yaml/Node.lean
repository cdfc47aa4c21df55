import EditorFormat.Yaml.Token

/-!
# Nodes

The tree of a document: scalars, sequences and mappings, each perhaps with a tag and an anchor, and
aliases of anchored nodes. Anchors are numbered in the order of the text, and a text holds one
document.
-/

namespace EditorFormat.Yaml

/-- What may stand before a node. -/
structure Properties where
  /-- The number of the anchor. -/
  anchor : Option Nat
  tag : Option String
deriving DecidableEq, Repr, Inhabited

/-- A node of a document. -/
inductive Node where
  | alias (anchor : Nat)
  | scalar (properties : Properties) (style : Style) (text : String)
  | sequence (properties : Properties) (items : List Node)
  | mapping (properties : Properties) (pairs : List (Node × Node))
deriving Inhabited

namespace Node

mutual

/-- The last node with an anchor. -/
def lastAnchored? (anchor : Nat) : Node → Option Node
  | .alias _ => none
  | .scalar properties style text =>
    if properties.anchor = some anchor then some (.scalar properties style text) else none
  | .sequence properties items =>
    lastOfItems? anchor items <|>
      if properties.anchor = some anchor then some (.sequence properties items) else none
  | .mapping properties pairs =>
    lastOfPairs? anchor pairs <|>
      if properties.anchor = some anchor then some (.mapping properties pairs) else none

/-- The last node with an anchor among the items of a sequence. -/
def lastOfItems? (anchor : Nat) : List Node → Option Node
  | [] => none
  | item :: rest => lastOfItems? anchor rest <|> lastAnchored? anchor item

/-- The last node with an anchor among the keys and values of a mapping. -/
def lastOfPairs? (anchor : Nat) : List (Node × Node) → Option Node
  | [] => none
  | (key, value) :: rest =>
    lastOfPairs? anchor rest <|> lastAnchored? anchor value <|> lastAnchored? anchor key

end

mutual

/-- The number of marks that make up a node: one for a scalar, two more than its contents for
a collection. -/
def size : Node → Nat
  | .alias _ => 1
  | .scalar _ _ _ => 1
  | .sequence _ items => 2 + sizeOfItems items
  | .mapping _ pairs => 2 + sizeOfPairs pairs

/-- The marks of the items of a sequence. -/
def sizeOfItems : List Node → Nat
  | [] => 0
  | item :: rest => size item + sizeOfItems rest

/-- The marks of the keys and values of a mapping. -/
def sizeOfPairs : List (Node × Node) → Nat
  | [] => 0
  | (key, value) :: rest => size key + size value + sizeOfPairs rest

end

end Node

/-- The tokens that are left, and what was declared before them. -/
structure Source where
  tokens : List Token
  /-- The numbers of the anchors seen so far. -/
  anchors : List (String × Nat)
  /-- The meanings of tag handles. -/
  handles : List (String × String)

/-- A step that reads tokens, which may fail. -/
abbrev Build (α : Type) := StateT Source Option α

namespace Build

/-- The next token. The end of the text is never taken. -/
def peek : Build Token := do
  match (← get).tokens with
  | [] => failure
  | token :: _ => pure token

/-- Take the next token. -/
def take : Build Unit :=
  modify fun source => { source with tokens := source.tokens.drop 1 }

/-- The full name of a tag. Its handle must have a meaning. -/
def fullTag (tag : Tag) : Build String := do
  if tag.handle = "" then pure tag.suffix
  else
    match (← get).handles.lookup tag.handle with
    | none => failure
    | some start => pure (start ++ tag.suffix)

/-- Number an anchor. The number is that of the anchor names seen before. -/
def nameAnchor (name : String) : Build Nat := do
  let source ← get
  let number := source.anchors.length
  set { source with
    anchors := (name, number) :: source.anchors.filter fun entry => entry.1 ≠ name }
  pure number

/-- What stands before a node: an anchor and a tag in either order. -/
def properties : Build Properties := do
  match ← peek with
  | .anchor name =>
    take
    match ← peek with
    | .tag tag =>
      take
      let full ← fullTag tag
      return ⟨some (← nameAnchor name), some full⟩
    | _ => return ⟨some (← nameAnchor name), none⟩
  | .tag tag =>
    take
    match ← peek with
    | .anchor name =>
      take
      let full ← fullTag tag
      return ⟨some (← nameAnchor name), some full⟩
    | _ => return ⟨none, some (← fullTag tag)⟩
  | _ => pure ⟨none, none⟩

/-- A scalar without text. -/
def emptyScalar (properties : Properties) : Node :=
  .scalar properties .plain ""

/-- An absent node. -/
def absent : Node :=
  emptyScalar ⟨none, none⟩

/-- A scalar. A tag that is only an exclamation mark says nothing about it. -/
def scalarNode (properties : Properties) (text : String) (style : Style) : Node :=
  let tag := if properties.tag = some "!" then none else properties.tag
  .scalar { properties with tag } style text

mutual

/-- A node. Block collections are only allowed in a block, and a sequence at the column of its key
only as the value of one. -/
def node (inBlock inKey : Bool) : Nat → Build Node
  | 0 => failure
  | fuel + 1 => do
    match ← peek with
    | .alias name =>
      take
      match (← get).anchors.lookup name with
      | none => failure
      | some number => pure (.alias number)
    | _ =>
      let found ← properties
      match ← peek with
      | .scalar text style => take; pure (scalarNode found text style)
      | .flowSequence => take; return .sequence found (← flowItems true fuel)
      | .flowMapping => take; return .mapping found (← flowPairs true fuel)
      | .blockEntry =>
        if inKey then return .sequence found (← alignedItems fuel)
        else if found = ⟨none, none⟩ then failure
        else pure (emptyScalar found)
      | .blockSequence =>
        if inBlock then take; return .sequence found (← blockItems fuel)
        else if found = ⟨none, none⟩ then failure
        else pure (emptyScalar found)
      | .blockMapping =>
        if inBlock then take; return .mapping found (← blockPairs fuel)
        else if found = ⟨none, none⟩ then failure
        else pure (emptyScalar found)
      | _ => if found = ⟨none, none⟩ then failure else pure (emptyScalar found)

/-- The items of a sequence in a block of its own. -/
def blockItems : Nat → Build (List Node)
  | 0 => failure
  | fuel + 1 => do
    match ← peek with
    | .blockEntry =>
      take
      let item ← match ← peek with
        | .blockEntry | .blockEnd => pure absent
        | _ => node true false fuel
      return item :: (← blockItems fuel)
    | .blockEnd => take; pure []
    | _ => failure

/-- The items of a sequence at the column of its key. -/
def alignedItems : Nat → Build (List Node)
  | 0 => failure
  | fuel + 1 => do
    match ← peek with
    | .blockEntry =>
      take
      let item ← match ← peek with
        | .blockEntry | .key | .value | .blockEnd => pure absent
        | _ => node true false fuel
      return item :: (← alignedItems fuel)
    | _ => pure []

/-- A key or value in a block mapping whose mark was read. -/
def blockPart : Nat → Build Node
  | 0 => failure
  | fuel + 1 => do
    match ← peek with
    | .key | .value | .blockEnd => pure absent
    | _ => node true true fuel

/-- The keys and values of a mapping in a block of its own. -/
def blockPairs : Nat → Build (List (Node × Node))
  | 0 => failure
  | fuel + 1 => do
    match ← peek with
    | .key =>
      take
      let key ← blockPart fuel
      let value ← match ← peek with
        | .value => do take; blockPart fuel
        | _ => pure absent
      return (key, value) :: (← blockPairs fuel)
    | .blockEnd => take; pure []
    | _ => failure

/-- The value of a key in a flow collection, which ends at a comma or at `close`. -/
def flowValue (close : Token) : Nat → Build Node
  | 0 => failure
  | fuel + 1 => do
    if (← peek) = .value then
      take
      let next ← peek
      if next = .flowEntry ∨ next = close then pure absent else node false false fuel
    else pure absent

/-- The items of a sequence between brackets. A key makes an item a mapping of its own. -/
def flowItems (isFirst : Bool) : Nat → Build (List Node)
  | 0 => failure
  | fuel + 1 => do
    if (← peek) = .flowSequenceEnd then take; pure []
    else
      if !isFirst then
        if (← peek) = .flowEntry then take else failure
      match ← peek with
      | .key =>
        take
        let key ← match ← peek with
          | .value | .flowEntry | .flowSequenceEnd => do take; pure absent
          | _ => node false false fuel
        let value ← flowValue .flowSequenceEnd fuel
        return .mapping ⟨none, none⟩ [(key, value)] :: (← flowItems false fuel)
      | .flowSequenceEnd => take; pure []
      | _ =>
        let item ← node false false fuel
        return item :: (← flowItems false fuel)

/-- The keys and values of a mapping between braces. A node without a mark is a key without
a value. -/
def flowPairs (isFirst : Bool) : Nat → Build (List (Node × Node))
  | 0 => failure
  | fuel + 1 => do
    if (← peek) = .flowMappingEnd then take; pure []
    else
      if !isFirst then
        if (← peek) = .flowEntry then take else failure
      match ← peek with
      | .key =>
        take
        let key ← match ← peek with
          | .value | .flowEntry | .flowMappingEnd => pure absent
          | _ => node false false fuel
        let value ← flowValue .flowMappingEnd fuel
        return (key, value) :: (← flowPairs false fuel)
      | .flowMappingEnd => take; pure []
      | _ =>
        let key ← node false false fuel
        return (key, absent) :: (← flowPairs false fuel)

end

/-! ## Documents -/

/-- The directives before a document. A version must be one of the two known ones, and neither it
nor a handle may be given twice. -/
def directives : List Token → Bool → List (String × String) → Build (List (String × String))
  | .directive (.version major minor) :: rest, hasVersion, handles => do
    if hasVersion ∨ major ≠ 1 ∨ (minor ≠ 1 ∧ minor ≠ 2) then failure
    take
    directives rest true handles
  | .directive (.tag handle start) :: rest, hasVersion, handles => do
    if (handles.lookup handle).isSome then failure
    take
    directives rest hasVersion (handles ++ [(handle, start)])
  | _, _, handles => pure handles

/-- The meanings that handles have without a directive. -/
def standardHandles : List (String × String) :=
  [("!", "!"), ("!!", "tag:yaml.org,2002:")]

/-- The only document of a text, if it has one. -/
def document : Build (Option Node) := do
  let tokens := (← get).tokens
  let fuel := 2 * tokens.length + 2
  match ← peek with
  | .streamEnd => pure none
  | first =>
    let isMarked := match first with
      | .directive _ | .documentStart => true
      | _ => false
    let handles ← directives tokens false []
    modify fun source => { source with handles := handles ++ standardHandles }
    let root ←
      if isMarked then do
        if (← peek) ≠ .documentStart then failure
        take
        match ← peek with
        | .directive _ | .documentStart | .documentEnd | .streamEnd => pure absent
        | _ => node true false fuel
      else node true false fuel
    let rest := (← get).tokens.dropWhile (· == .documentEnd)
    if rest = [.streamEnd] then pure (some root) else failure

end Build

/-- The document of a text; `some none` when the text is empty. -/
def Node.ofText? (text : String) : Option (Option Node) := do
  let tokens ← Token.ofPlaces? (← Place.ofText? text)
  let (root, _) ← Build.document.run ⟨tokens, [], []⟩
  return root

end EditorFormat.Yaml
