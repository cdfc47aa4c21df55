import EditorFormat.Toml.Value

/-!
# Tables under construction

A document is put together from headers and dotted keys, and each part may be given only once. What
is already given is marked: a table that only came about as a part of a longer name may still get
a header, one that came about by dotted keys may get more of those, and a value gets nothing more.
-/

namespace EditorFormat.Toml

mutual

/-- What a key of a table under construction is bound to. -/
inductive Item where
  | value (value : Value)
  | table (table : Table)
  /-- Tables that share one header, the last one first. -/
  | tables (tables : List Table)

/-- A table under construction. -/
inductive Table where
  /-- Whether it has no header of its own, whether it came about by dotted keys, and its
  entries. -/
  | mk (isImplicit isDotted : Bool) (entries : List (String × Item))

end

namespace Table

/-- The entries of a table. -/
def entries : Table → List (String × Item)
  | .mk _ _ entries => entries

/-- Whether the table has no header of its own. -/
def isImplicit : Table → Bool
  | .mk isImplicit _ _ => isImplicit

/-- Whether the table came about by dotted keys. -/
def isDotted : Table → Bool
  | .mk _ isDotted _ => isDotted

/-- A table with a header and no entries. -/
def empty : Table :=
  .mk false false []

/-- The item of a key. -/
def find? (table : Table) (key : String) : Option Item :=
  table.entries.lookup key

/-- The table with a key bound to an item. -/
def put (table : Table) (key : String) (item : Item) : Table :=
  .mk table.isImplicit table.isDotted
    ((key, item) :: table.entries.filter fun entry => entry.1 ≠ key)

/-- Change the table at a path. Missing tables come about on the way; of tables that share a header
the last one is taken. Dotted keys do not reach into a table that has a header. -/
def modifyAt (isDotted : Bool) (change : Table → Option Table) : List String → Table → Option Table
  | [], table => change table
  | key :: path, table => do
    match table.find? key with
    | none => return table.put key (.table (← modifyAt isDotted change path (.mk true isDotted [])))
    | some (.table child) =>
      if isDotted ∧ !child.isImplicit then none
      else return table.put key (.table (← modifyAt isDotted change path child))
    | some (.tables (last :: others)) =>
      return table.put key (.tables ((← modifyAt isDotted change path last) :: others))
    | some (.tables []) => none
    | some (.value _) => none

/-- Bind a key that is given by its parts to a value. -/
def define (table : Table) (path : List String) (key : String) (value : Value) : Option Table :=
  modifyAt true
    (fun inner =>
      if inner.isDotted = path.isEmpty then none
      else if (inner.find? key).isSome then none
      else some (inner.put key (.value value)))
    path table

mutual

/-- The value of a finished table. -/
def toValue : Table → Value
  | .mk _ _ entries => .table (entriesToValues entries)

/-- The values of the entries of a finished table. -/
def entriesToValues : List (String × Item) → List (String × Value)
  | [] => []
  | (key, item) :: rest => (key, itemToValue item) :: entriesToValues rest

/-- The value of an item of a finished table. -/
def itemToValue : Item → Value
  | .value value => value
  | .table table => toValue table
  | .tables tables => .array (tablesToValues tables).reverse

/-- The values of finished tables. -/
def tablesToValues : List Table → List Value
  | [] => []
  | table :: rest => toValue table :: tablesToValues rest

end

end Table

/-- A document under construction. -/
structure Document where
  /-- What was given before the last header. -/
  root : Table
  /-- The table of the last header. -/
  current : Table
  /-- The path and the key of the last header; none before the first. -/
  header : Option (List String × String)
  /-- Whether the last header may be given again for another table. -/
  isShared : Bool

namespace Document

/-- Nothing is given yet. -/
def empty : Document :=
  ⟨.empty, .empty, none, false⟩

/-- Put the table of the last header into the document. -/
def finish (document : Document) : Option Table :=
  match document.header with
  | none => some document.current
  | some (path, key) =>
    Table.modifyAt false
      (fun parent =>
        match parent.find? key, document.isShared with
        | none, true => some (parent.put key (.tables [document.current]))
        | some (.tables tables), true => some (parent.put key (.tables (document.current :: tables)))
        | some _, true => none
        | none, false => some (parent.put key (.table document.current))
        | some (.table table), false =>
          if table.isImplicit then some (parent.put key (.table document.current)) else none
        | some _, false => none)
      path document.root

/-- The table at a path, if there is one. -/
def tableAt? (path : List String) (table : Table) : Option Table :=
  match path with
  | [] => some table
  | key :: path =>
    match table.find? key with
    | some (.table child) => tableAt? path child
    | some (.tables (last :: _)) => tableAt? path last
    | _ => none

/-- Start the table of a header. It may only be given once, and not at all for what has another
form already. -/
def startTable (document : Document) (path : List String) (key : String) : Option Document := do
  let root ← document.finish
  let root ← Table.modifyAt false some path root
  let parent ← tableAt? path root
  match parent.find? key with
  | none => some ⟨root, .empty, some (path, key), false⟩
  | some (.table (.mk true false entries)) =>
    some ⟨root, .mk false false entries, some (path, key), false⟩
  | some _ => none

/-- Start the next table of a header that several tables share. -/
def startShared (document : Document) (path : List String) (key : String) : Option Document := do
  let root ← document.finish
  let root ← Table.modifyAt false some path root
  let parent ← tableAt? path root
  match parent.find? key with
  | none | some (.tables _) => some ⟨root, .empty, some (path, key), true⟩
  | some _ => none

/-- Bind a key of the table of the last header. -/
def define (document : Document) (path : List String) (key : String) (value : Value) :
    Option Document := do
  return { document with current := ← document.current.define path key value }

end Document

end EditorFormat.Toml
