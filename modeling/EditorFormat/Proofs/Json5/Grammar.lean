import EditorFormat.Json5.Reader
import EditorFormat.Proofs.Json.Grammar
import Mathlib.Data.Option.NAry

/-!
# The grammar of JSON5 texts

`Denotes` says which texts are JSON5 and what they denote, without a reader. A string with half of a
surrogate pair is a text of the grammar, but there are no characters that it stands for, so neither
does what it is in denote anything (`none`).

A line comment goes on to the end of its line. What ends a line is a parameter of the grammar: JSON5
has four such characters (`LineEnds`), and a text in which each line comment ends at a newline is a
special case (`NewlineEnds`).
-/

namespace EditorFormat.Json5

open Json (Value Bracket Digits)
open Json.Reader (hexValue?)

/-! ## Gaps between tokens -/

/-- Blanks and comments. A line comment is ended by what is behind it. -/
inductive GapText (ends : List Char → Prop) : List Char → Prop where
  | nil : GapText ends []
  | blank {c : Char} {rest : List Char} (hblank : isBlank c = true) (h : GapText ends rest) :
      GapText ends (c :: rest)
  | line {comment rest : List Char} (hcomment : ∀ c ∈ comment, isLineEnd c = false)
      (hends : ends rest) (h : GapText ends rest) : GapText ends ('/' :: '/' :: (comment ++ rest))
  | block {comment rest : List Char} (hcomment : ¬ ['*', '/'] <:+: comment) (h : GapText ends rest) :
      GapText ends ('/' :: '*' :: (comment ++ '*' :: '/' :: rest))

/-- A line ends here. -/
def LineEnds (text : List Char) : Prop :=
  ∃ c ∈ text.head?, isLineEnd c = true

/-- Only blanks are in front of the next newline. -/
def NewlineAhead (text : List Char) : Prop :=
  ∃ blanks later, (∀ c ∈ blanks, isBlank c = true) ∧ text = blanks ++ '\n' :: later

/-- A line ends here, with a newline: there may be a carriage return in front of it. -/
def NewlineEnds (text : List Char) : Prop :=
  LineEnds text ∧ NewlineAhead text

/-! ## Strings -/

/-- A given number of hexadecimal digits, and their value. -/
structure HexText (count : Nat) (digits : List Char) (value : Nat) : Prop where
  length : digits.length = count
  value : hexValue? digits = some value

/-- Code units that stand for no character of their own. -/
def IsSurrogate (unit : Nat) : Prop :=
  0xD800 ≤ unit ∧ unit ≤ 0xDFFF

/-- Letters that stand for control characters behind a backslash. -/
def controlLetters : List (Char × Char) :=
  [('b', '\x08'), ('f', '\x0c'), ('n', '\n'), ('r', '\r'), ('t', '\t'), ('v', '\x0b')]

/-- What may be behind a backslash, and the characters that it stands for. An escaped line end stands
for nothing. -/
inductive Escape : List Char → Option (List Char) → Prop where
  | control {letter c : Char} (h : (letter, c) ∈ controlLetters) : Escape [letter] (some [c])
  | itself {c : Char} (hletter : c ∉ ['b', 'f', 'n', 'r', 't', 'v', 'x', 'u'])
      (hdigit : c.isDigit = false) (hline : isLineEnd c = false) : Escape [c] (some [c])
  | lineEnd {c : Char} (h : isLineEnd c = true) : Escape [c] (some [])
  | returnNewline : Escape ['\r', '\n'] (some [])
  | byte {digits : List Char} {value : Nat} (h : HexText 2 digits value) :
      Escape ('x' :: digits) (some [Char.ofNat value])
  | unit {digits : List Char} {unit : Nat} (h : HexText 4 digits unit) (hunit : ¬ IsSurrogate unit) :
      Escape ('u' :: digits) (some [Char.ofNat unit])
  | surrogate {digits : List Char} {unit : Nat} (h : HexText 4 digits unit)
      (hunit : IsSurrogate unit) : Escape ('u' :: digits) none
  | pair {high low : List Char} {first second : Nat} (hhigh : HexText 4 high first)
      (hlow : HexText 4 low second) (hfirst : 0xD800 ≤ first ∧ first ≤ 0xDBFF)
      (hsecond : 0xDC00 ≤ second ∧ second ≤ 0xDFFF) :
      Escape ('u' :: (high ++ '\\' :: 'u' :: low))
        (some [Char.ofNat (0x10000 + (first - 0xD800) * 0x400 + (second - 0xDC00))])

/-- The text of a string behind its opening quote with the closing one, and its characters. -/
inductive StringText (quote : Char) : List Char → Option (List Char) → Prop where
  | close : StringText quote [quote] (some [])
  | plain {c : Char} {rest : List Char} {chars : Option (List Char)} (hquote : c ≠ quote)
      (hslash : c ≠ '\\') (hnewline : c ≠ '\n') (hreturn : c ≠ '\r')
      (h : StringText quote rest chars) : StringText quote (c :: rest) (chars.map (c :: ·))
  /-- A zero is escaped where no digit follows it. -/
  | zero {rest : List Char} {chars : Option (List Char)}
      (hdigit : ∀ c ∈ rest.head?, c.isDigit = false) (h : StringText quote rest chars) :
      StringText quote ('\\' :: '0' :: rest) (chars.map ('\x00' :: ·))
  | escape {text rest : List Char} {found chars : Option (List Char)} (hescape : Escape text found)
      (h : StringText quote rest chars) :
      StringText quote ('\\' :: (text ++ rest)) (Option.map₂ (· ++ ·) found chars)

/-! ## Numbers -/

/-- Digits of which only a lone zero is the first. -/
def WholeDigits (digits : List Char) : Prop :=
  digits = ['0'] ∨ Digits digits ∧ digits.head? ≠ some '0'

/-- A point with the places behind it, if there is one. -/
inductive Fraction : List Char → Option (List Char) → Prop where
  | missing : Fraction [] none
  | places {places : List Char} (h : ∀ c ∈ places, c.isDigit = true) :
      Fraction ('.' :: places) (some places)

/-- An exponent, if there is one. -/
inductive Power : List Char → Option Int → Prop where
  | missing : Power [] none
  | positive {mark : Char} {sign digits : List Char} (hmark : mark = 'e' ∨ mark = 'E')
      (hsign : sign = [] ∨ sign = ['+']) (h : Digits digits) :
      Power (mark :: (sign ++ digits)) (some (Nat.ofDigitChars 10 digits 0))
  | negative {mark : Char} {digits : List Char} (hmark : mark = 'e' ∨ mark = 'E')
      (h : Digits digits) :
      Power (mark :: '-' :: digits) (some (-(Nat.ofDigitChars 10 digits 0 : Int)))

/-- The text of a number behind its sign, and the number. -/
inductive Magnitude (negative : Bool) : List Char → Value → Prop where
  | infinity : Magnitude negative "Infinity".toList .null
  | nan : Magnitude negative "NaN".toList .null
  | hex {mark : Char} {digits : List Char} {value : Nat} (hmark : mark = 'x' ∨ mark = 'X')
      (hne : digits ≠ []) (hvalue : hexValue? digits = some value) :
      Magnitude negative ('0' :: mark :: digits) (whole negative value)
  | decimal {digits point exponent : List Char} {fraction : Option (List Char)} {power : Option Int}
      (hfraction : Fraction point fraction) (hpower : Power exponent power)
      (hdigits : WholeDigits digits ∨ digits = [] ∧ fraction.getD [] ≠ []) :
      Magnitude negative (digits ++ (point ++ exponent)) (ofParts negative digits fraction power)

/-- The text of a number, and the number. -/
inductive NumberText : List Char → Value → Prop where
  | unsigned {text : List Char} {value : Value} (h : Magnitude false text value) :
      NumberText text value
  | plus {text : List Char} {value : Value} (h : Magnitude false text value) :
      NumberText ('+' :: text) value
  | minus {text : List Char} {value : Value} (h : Magnitude true text value) :
      NumberText ('-' :: text) value

/-! ## Keys -/

/-- Characters that may stand at the front of an identifier, or within it. -/
abbrev isAllowed (isFirst : Bool) : Char → Bool :=
  if isFirst then isIdentifierStart else isIdentifierPart

/-- The text of an identifier or of what is left of it, and its characters. -/
inductive IdentifierText : Bool → List Char → List Char → Prop where
  | nil : IdentifierText false [] []
  | plain {isFirst : Bool} {c : Char} {rest chars : List Char} (hc : isAllowed isFirst c = true)
      (h : IdentifierText false rest chars) : IdentifierText isFirst (c :: rest) (c :: chars)
  | escape {isFirst : Bool} {digits rest chars : List Char} {unit : Nat}
      (hunit : HexText 4 digits unit) (hscalar : ¬ IsSurrogate unit)
      (hc : isAllowed isFirst (Char.ofNat unit) = true)
      (h : IdentifierText false rest chars) :
      IdentifierText isFirst ('\\' :: 'u' :: (digits ++ rest)) (Char.ofNat unit :: chars)

/-- The quotes of strings. -/
abbrev IsQuote (c : Char) : Prop :=
  c = '"' ∨ c = '\''

/-- The text of a key, and the key. -/
inductive KeyText : List Char → Option String → Prop where
  | identifier {text chars : List Char} (h : IdentifierText true text chars) :
      KeyText text (some (String.ofList chars))
  | quoted {quote : Char} {text : List Char} {chars : Option (List Char)} (hquote : IsQuote quote)
      (h : StringText quote text chars) : KeyText (quote :: text) (chars.map String.ofList)

/-! ## Values -/

/-- What a container is made up of: an array of values, and an object of keys with values. -/
abbrev Element : Bracket → Type
  | .square => Value
  | .curly => String × Value

/-- The container with the given elements. Of two members with one key the later one stays. -/
def container : (bracket : Bracket) → List (Element bracket) → Value
  | .square, items => .array items
  | .curly, members => .ofMembers members

/-- What a text may be a part of. A value is an element of an array, and a member one of an
object. -/
inductive Part where
  | element (bracket : Bracket)
  /-- All that is between two brackets. -/
  | contents (bracket : Bracket)

/-- What a text may denote as such a part. -/
abbrev Part.Meaning : Part → Type
  | .element bracket => Element bracket
  | .contents bracket => List (Element bracket)

/-- A text is JSON5, and this is what it denotes. -/
inductive Denotes (ends : List Char → Prop) :
    (part : Part) → List Char → Option part.Meaning → Prop where
  | null : Denotes ends (.element .square) "null".toList (some Value.null)
  | true : Denotes ends (.element .square) "true".toList (some (Value.bool true))
  | false : Denotes ends (.element .square) "false".toList (some (Value.bool false))
  | number {text : List Char} {value : Value} (h : NumberText text value) :
      Denotes ends (.element .square) text (some value)
  | string {quote : Char} {text : List Char} {chars : Option (List Char)} (hquote : IsQuote quote)
      (h : StringText quote text chars) :
      Denotes ends (.element .square) (quote :: text)
        (chars.map fun chars => Value.string (String.ofList chars))
  | container {bracket : Bracket} {text : List Char} {elements : Option (List (Element bracket))}
      (h : Denotes ends (.contents bracket) text elements) :
      Denotes ends (.element .square) (bracket.opening :: (text ++ [bracket.closing]))
        (elements.map (container bracket))
  | member {name before after text : List Char} {key : Option String} {value : Option Value}
      (hkey : KeyText name key) (hbefore : GapText ends before) (hafter : GapText ends after)
      (h : Denotes ends (.element .square) text value) :
      Denotes ends (.element .curly) (name ++ (before ++ ':' :: (after ++ text)))
        (Option.map₂ Prod.mk key value)
  /-- Nothing more: a container may be empty, and a comma may be behind the last element. -/
  | done {bracket : Bracket} {gap : List Char} (hgap : GapText ends gap) :
      Denotes ends (.contents bracket) gap (some ([] : List (Element bracket)))
  | last {bracket : Bracket} {before text after : List Char} {element : Option (Element bracket)}
      (hbefore : GapText ends before) (helement : Denotes ends (.element bracket) text element)
      (hafter : GapText ends after) :
      Denotes ends (.contents bracket) (before ++ (text ++ after))
        (element.map fun element => [element])
  | next {bracket : Bracket} {before text after rest : List Char}
      {element : Option (Element bracket)} {elements : Option (List (Element bracket))}
      (hbefore : GapText ends before) (helement : Denotes ends (.element bracket) text element)
      (hafter : GapText ends after) (hrest : Denotes ends (.contents bracket) rest elements) :
      Denotes ends (.contents bracket) (before ++ (text ++ (after ++ ',' :: rest)))
        (Option.map₂ List.cons element elements)

/-- A text is a JSON5 object with the given members. -/
inductive IsObject (ends : List Char → Prop) :
    List Char → Option (List (String × Value)) → Prop where
  | mk {text : List Char} {members : Option (List (String × Value))}
      (h : Denotes ends (.contents .curly) text members) :
      IsObject ends (Bracket.curly.opening :: (text ++ [Bracket.curly.closing])) members

/-! ## Identifiers without escapes -/

/-- An identifier without escapes stands for its characters. -/
theorem identifierText_plain {c : Char} {later : List Char} (hc : isIdentifierStart c = true)
    (h : ∀ d ∈ later, isIdentifierPart d = true) :
    IdentifierText true (c :: later) (c :: later) := by
  have hrest : IdentifierText false later later := by
    clear hc
    induction later with
    | nil => exact .nil
    | cons d others ih =>
      obtain ⟨hd, hothers⟩ := List.forall_mem_cons.1 h
      exact .plain hd (ih hothers)
  exact .plain hc hrest

/-! ## What ends a line comment -/

section Weakening

variable {ends others : List Char → Prop}

/-- A gap stays one when more ends a line comment. -/
theorem GapText.mono (hends : ∀ text, ends text → others text) {gap : List Char}
    (h : GapText ends gap) : GapText others gap := by
  induction h with
  | nil => exact .nil
  | blank hblank h ih => exact .blank hblank ih
  | line hcomment hend h ih => exact .line hcomment (hends _ hend) ih
  | block hcomment h ih => exact .block hcomment ih

/-- A text denotes the same when more ends a line comment. -/
theorem Denotes.mono (hends : ∀ text, ends text → others text) {part : Part} {text : List Char}
    {meaning : Option part.Meaning} (h : Denotes ends part text meaning) :
    Denotes others part text meaning := by
  induction h with
  | null => exact .null
  | true => exact .true
  | false => exact .false
  | number h => exact .number h
  | string hquote h => exact .string hquote h
  | container h ih => exact .container ih
  | member hkey hbefore hafter h ih =>
    exact .member hkey (hbefore.mono hends) (hafter.mono hends) ih
  | done hgap => exact .done (hgap.mono hends)
  | last hbefore h hafter ih => exact .last (hbefore.mono hends) ih (hafter.mono hends)
  | next hbefore h hafter hrest ih ihrest =>
    exact .next (hbefore.mono hends) ih (hafter.mono hends) ihrest

end Weakening

end EditorFormat.Json5
