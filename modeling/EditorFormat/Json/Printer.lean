import EditorFormat.Json.DecodeError

/-!
# Writing JSON text

Two written forms of a value: `compact` has no blanks, `pretty` puts every item on a line of its
own, indented by two spaces for each container around it. Both write the members of an object in
the order in which they are given.
-/

namespace EditorFormat.Json

namespace Printer

/-- A character inside a string. Quotes, backslashes and control characters are escaped. -/
def char (c : Char) : List Char :=
  match c with
  | '"' => ['\\', '"']
  | '\\' => ['\\', '\\']
  | '\x08' => ['\\', 'b']
  | '\x0c' => ['\\', 'f']
  | '\n' => ['\\', 'n']
  | '\r' => ['\\', 'r']
  | '\t' => ['\\', 't']
  | c =>
    if c.toNat < 0x20 then
      ['\\', 'u', '0', '0', Nat.digitChar (c.toNat / 16), Nat.digitChar (c.toNat % 16)]
    else [c]

/-- A string between quotes. -/
def string (text : String) : List Char :=
  '"' :: text.toList.flatMap char ++ ['"']

/-- An integer in decimal. -/
def int (n : Int) : List Char :=
  if n < 0 then '-' :: Nat.toDigits 10 n.natAbs else Nat.toDigits 10 n.natAbs

/-- A float. One that is not finite has no written form and becomes null. -/
def float (value : Float) : List Char :=
  if value.isFinite then (floatStyle.write value).toList else ['n', 'u', 'l', 'l']

/-- The written form of a value that is no container. -/
def scalar : Value → List Char
  | .null => ['n', 'u', 'l', 'l']
  | .bool true => ['t', 'r', 'u', 'e']
  | .bool false => ['f', 'a', 'l', 's', 'e']
  | .int n => int n
  | .float value => float value
  | .string text => string text
  | .array _ => ['[', ']']
  | .object _ => ['\x7b', '\x7d']

mutual

/-- A value without blanks. -/
def compact : Value → List Char
  | .array [] => ['[', ']']
  | .array (first :: rest) => '[' :: compact first ++ compactItems rest ++ [']']
  | .object [] => ['\x7b', '\x7d']
  | .object ((key, first) :: rest) =>
    '\x7b' :: string key ++ ':' :: compact first ++ compactMembers rest ++ ['\x7d']
  | .null => scalar .null
  | .bool value => scalar (.bool value)
  | .int n => scalar (.int n)
  | .float value => scalar (.float value)
  | .string text => scalar (.string text)

/-- The items that follow an item. -/
def compactItems : List Value → List Char
  | [] => []
  | item :: rest => ',' :: compact item ++ compactItems rest

/-- The members that follow a member. -/
def compactMembers : List (String × Value) → List Char
  | [] => []
  | (key, value) :: rest => ',' :: string key ++ ':' :: compact value ++ compactMembers rest

end

/-- The start of a line inside `depth` containers. -/
def newline (depth : Nat) : List Char :=
  '\n' :: List.replicate (2 * depth) ' '

mutual

/-- A value with one item per line, inside `depth` containers. -/
def pretty (depth : Nat) : Value → List Char
  | .array [] => ['[', ']']
  | .array (first :: rest) =>
    '[' :: newline (depth + 1) ++ pretty (depth + 1) first ++ prettyItems (depth + 1) rest
      ++ newline depth ++ [']']
  | .object members => '\x7b' :: prettyMembers depth true members
  | .null => scalar .null
  | .bool value => scalar (.bool value)
  | .int n => scalar (.int n)
  | .float value => scalar (.float value)
  | .string text => scalar (.string text)

/-- The items that follow an item. -/
def prettyItems (depth : Nat) : List Value → List Char
  | [] => []
  | item :: rest => ',' :: newline depth ++ pretty depth item ++ prettyItems depth rest

/-- The members of an object inside `depth` containers, up to its closing brace. -/
def prettyMembers (depth : Nat) (isFirst : Bool) : List (String × Value) → List Char
  | [] => (if isFirst then [] else newline depth) ++ ['\x7d']
  | (key, value) :: rest =>
    (if isFirst then [] else [',']) ++ newline (depth + 1) ++ string key ++ ':' :: ' ' ::
      pretty (depth + 1) value ++ prettyMembers depth false rest

end

end Printer

/-- The value without blanks. -/
def Value.compact (value : Value) : String :=
  String.ofList (Printer.compact value)

/-- The object with the given members, in their order, one on each line. -/
def prettyObject (members : List (String × Value)) : String :=
  String.ofList (Printer.pretty 0 (.object members))

end EditorFormat.Json
