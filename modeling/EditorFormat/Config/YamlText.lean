import EditorFormat.Options.FormatOptions
import EditorFormat.Yaml.Content

/-!
# Options in YAML text

The document is a mapping from option names to values, or empty. Known options are read strictly:
a quoted scalar is neither a boolean nor a number.
-/

namespace EditorFormat.Config

open Yaml (Node Style Properties Follow)

/-- Whether a scalar of a known option leaves it unset. A null tag on anything but null is
refused. -/
def isUnset? (properties : Properties) (style : Style) (text : String) : Option Bool :=
  if style ≠ .plain then some false
  else
    match properties.tag with
    | none => some (Yaml.isNull text.toList)
    | some tag =>
      if tag = Yaml.standardTag "null" then
        if Yaml.isNull text.toList ∧ text ≠ "" then some true else none
      else some false

/-- Whether a scalar may be read by its spelling: it is plain, or a literal block with the given
tag. -/
def isSpelled (tag : String) (properties : Properties) (style : Style) : Bool :=
  style = .plain || (style = .literal && properties.tag = some (Yaml.standardTag tag))

/-- A natural number below a limit. -/
def natural? (limit : Nat) (text : String) : Option Nat := do
  let n ← Yaml.integer? text.toList
  if 0 ≤ n ∧ n < limit ∧ text.toList.head? ≠ some '-' then some n.toNat else none

/-- A choice by its name, or by a custom tag on null. -/
def choice? (names : List String) (properties : Properties) (style : Style) (text : String) :
    Option { name : String // name ∈ names } :=
  match properties.tag.map String.toList with
  | some ('!' :: name) =>
    if style = .plain ∧ Yaml.isNull text.toList then
      (OptionType.choose names (String.ofList name)).toOption
    else none
  | _ => (OptionType.choose names text).toOption

/-- A value of a known option that is set. -/
def spelled? (properties : Properties) (style : Style) (text : String) :
    (type : OptionType) → Option type.Value
  | .flag => if isSpelled "bool" properties style then Yaml.boolean? text.toList else none
  | .width =>
    if isSpelled "int" properties style then (natural? UInt32.size text).map UInt32.ofNat else none
  | .offset =>
    if isSpelled "int" properties style then (natural? UInt64.size text).map UInt64.ofNat else none
  | .choice names => choice? names properties style text

/-- A value of a known option, or null to leave it unset. -/
def knownOption (type : OptionType) (node : Node) : Follow (Option type.Value) := do
  match ← Follow.target node with
  | .scalar properties style text =>
    if ← (isUnset? properties style text : Option Bool) then pure none
    else
      let value ← (spelled? properties style text type : Option type.Value)
      pure (some value)
  | _ => failure

/-- Read the pair of an option. A known option may be given once. -/
def pair (state : List OptionKey × FormatOptions) (entry : Node × Node) :
    Follow (List OptionKey × FormatOptions) := do
  let (seen, options) := state
  let name ← Follow.keyText entry.1
  match OptionKey.ofName? name with
  | some key =>
    if seen.contains key then failure
    let value ← knownOption key.type entry.2
    return (key :: seen, options.set key value)
  | none =>
    let value ← Follow.value (Yaml.depthLimit - 1) entry.2
    return (seen, { options with extra := options.extra.put name value })

/-- The options in a YAML text, if it holds options. -/
def ofYaml? (text : String) : Option FormatOptions := do
  match ← Node.ofText? text with
  | none => some .empty
  | some root =>
    match root with
    | .scalar _ style text => if style = .plain ∧ text = "" then some .empty else none
    | .mapping _ pairs =>
      let (_, options) ← Follow.run root (pairs.foldlM pair ([], .empty))
      return options
    | _ => none

end EditorFormat.Config
