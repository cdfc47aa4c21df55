import EditorFormat.Decimal.Binary
import EditorFormat.Json.Reader
import EditorFormat.Toml.Value

/-!
# Scalars of TOML

Strings, numbers, dates and times, and the blanks between tokens. A reader takes the text that is
left and may fail; after a failure another reading of the same text can be tried.
-/

namespace EditorFormat.Toml

open Json.Reader (hexDigit? hexValue?)

/-- A reader consumes a part of the text that is left, or fails. -/
abbrev Reader (α : Type) := StateT (List Char) Option α

namespace Reader

/-- The characters at the front of the text that have a property. -/
def takeWhile (p : Char → Bool) : Reader (List Char) := do
  let text ← get
  set (text.dropWhile p)
  pure (text.takeWhile p)

/-- Read exactly the given characters. -/
def word (expected : List Char) : Reader Unit := do
  let text ← get
  if expected.isPrefixOf text then set (text.drop expected.length) else failure

/-- Read the given characters if they are next. -/
def optional (expected : List Char) : Reader Bool := do
  let text ← get
  if expected.isPrefixOf text then
    set (text.drop expected.length)
    pure true
  else pure false

/-- The next character, which stays. -/
def peek : Reader (Option Char) := do
  return (← get).head?

/-- Blanks inside a line. -/
def isBlank (c : Char) : Bool :=
  c == ' ' || c == '\t'

/-- Skip blanks inside a line. -/
def skipBlanks : Reader Unit :=
  modify (List.dropWhile isBlank)

/-- The end of a line. -/
def newline : Reader Unit :=
  word ['\n'] <|> word ['\r', '\n']

/-- A character that may stand in a comment. -/
def isCommentChar (c : Char) : Bool :=
  c == '\t' || (0x20 ≤ c.toNat && c.toNat != 0x7F)

/-- Skip a comment, if one is next. -/
def skipComment : Reader Unit := do
  if ← optional ['#'] then modify (List.dropWhile isCommentChar)

/-- What may follow on a line: blanks and a comment. -/
def lineEnd : Reader Unit := do
  skipBlanks
  skipComment
  if (← get).isEmpty then pure () else newline

/-- Skip blanks, comments and line ends. -/
def skipLines : Nat → Reader Unit
  | 0 => pure ()
  | fuel + 1 => do
    skipBlanks
    match ← peek with
    | some c =>
      if c = '#' ∨ c = '\n' ∨ c = '\r' then
        skipComment
        newline
        skipLines fuel
    | none => pure ()

/-- Skip blanks, comments and line ends. -/
def skipGap : Reader Unit := do
  skipLines ((← get).length + 1)

/-! ## Strings -/

/-- The character of an escape whose backslash was read. -/
def escape : Reader Char := do
  let byCode (length : Nat) (rest : List Char) : Reader Char := do
    if rest.length < length then failure
    else
      let code ← (hexValue? (rest.take length) : Option Nat)
      if (0xD800 ≤ code ∧ code ≤ 0xDFFF) ∨ 0x10FFFF < code then failure
      else
        set (rest.drop length)
        pure (Char.ofNat code)
  match ← get with
  | 'u' :: rest => byCode 4 rest
  | 'U' :: rest => byCode 8 rest
  | c :: rest =>
    set rest
    match c with
    | 'b' => pure '\x08'
    | 't' => pure '\t'
    | 'n' => pure '\n'
    | 'f' => pure '\x0c'
    | 'r' => pure '\r'
    | '"' => pure '"'
    | '\\' => pure '\\'
    | _ => failure
  | [] => failure

/-- The characters of a string on one line, up to its closing quote. Only between double quotes
a backslash has a meaning. -/
def stringChars (quote : Char) : Nat → Reader (List Char)
  | 0 => failure
  | fuel + 1 => do
    match ← get with
    | [] => failure
    | c :: rest =>
      set rest
      if c = quote then pure []
      else if c = '\\' ∧ quote = '"' then return (← escape) :: (← stringChars quote fuel)
      else if isCommentChar c then return c :: (← stringChars quote fuel)
      else failure

/-- The characters of a string over several lines, up to its closing quotes. Up to two quotes may
stand right before those, and a backslash at the end of a line drops the blanks and line ends that
follow. -/
def longStringChars (quote : Char) : Nat → Reader (List Char)
  | 0 => failure
  | fuel + 1 => do
    match ← get with
    | [] => failure
    | c :: rest =>
      if c = quote then
        let quotes ← takeWhile (· == quote)
        if quotes.length < 3 then return quotes ++ (← longStringChars quote fuel)
        else if quotes.length ≤ 5 then pure (quotes.drop 3)
        else failure
      else if c = '\\' ∧ quote = '"' then
        match rest.dropWhile isBlank with
        | '\n' :: _ | '\r' :: '\n' :: _ =>
          set rest
          skipBlankLines ((← get).length + 1)
          longStringChars quote fuel
        | _ =>
          set rest
          return (← escape) :: (← longStringChars quote fuel)
      else if c = '\n' ∨ c = '\r' then
        newline
        return '\n' :: (← longStringChars quote fuel)
      else if isCommentChar c then
        set rest
        return c :: (← longStringChars quote fuel)
      else failure
where
  /-- Skip blanks and line ends. -/
  skipBlankLines : Nat → Reader Unit
    | 0 => pure ()
    | fuel + 1 => do
      skipBlanks
      match ← get with
      | '\n' :: rest => set rest; skipBlankLines fuel
      | '\r' :: '\n' :: rest => set rest; skipBlankLines fuel
      | _ => pure ()

/-- A string between one or three quotes of a kind. -/
def stringOf (quote : Char) : Reader String := do
  if ← optional [quote, quote, quote] then
    newline <|> pure ()
    longString
  else
    word [quote]
    return String.ofList (← stringChars quote ((← get).length + 1))
where
  /-- The rest of a long string. -/
  longString : Reader String := do
    return String.ofList (← longStringChars quote ((← get).length + 1))

/-- A string. -/
def string : Reader String :=
  stringOf '"' <|> stringOf '\''

/-! ## Numbers -/

/-- Digits, between which underscores may stand one at a time. -/
def digits (isDigit : Char → Bool) : Nat → Reader (List Char)
  | 0 => failure
  | fuel + 1 => do
    match ← get with
    | c :: rest =>
      if !isDigit c then failure
      else
        set rest
        match rest with
        | '_' :: later => set later; return c :: (← digits isDigit fuel)
        | next :: _ => if isDigit next then return c :: (← digits isDigit fuel) else pure [c]
        | [] => pure [c]
    | [] => failure

/-- Digits, between which underscores may stand one at a time. -/
def someDigits (isDigit : Char → Bool) : Reader (List Char) := do
  digits isDigit ((← get).length + 1)

/-- A sign, if there is one: whether the number is negative. -/
def sign : Reader Bool := do
  match ← get with
  | '+' :: rest => set rest; pure false
  | '-' :: rest => set rest; pure true
  | _ => pure false

/-- A whole number in decimal, without a leading zero. -/
def wholeDigits : Reader (List Char) := do
  match ← get with
  | '0' :: rest => set rest; pure ['0']
  | _ => someDigits Char.isDigit

/-- An integer in another base. -/
def basedInteger (mark : Char) (base : Nat) : Reader Value := do
  word ['0', mark]
  let found ← someDigits fun c => (hexDigit? c).any (· < base)
  let n := found.foldl (fun n c => n * base + (hexDigit? c).getD 0) 0
  if n < UInt64.size / 2 then pure (.int n) else failure

/-- An integer in decimal. -/
def decimalInteger : Reader Value := do
  let negative ← sign
  let n := Nat.ofDigitChars 10 (← wholeDigits) 0
  if negative then if n ≤ UInt64.size / 2 then pure (.int (-n)) else failure
  else if n < UInt64.size / 2 then pure (.int n) else failure

/-- An exponent with its mark. -/
def exponent : Reader Int := do
  word ['e'] <|> word ['E']
  let negative ← sign
  let size : Int := Nat.ofDigitChars 10 (← someDigits Char.isDigit) 0
  pure (if negative then -size else size)

/-- A float with a point or an exponent. One that is too large is refused, unless it is
negative. -/
def plainFloat : Reader Value := do
  let negative ← sign
  let whole ← wholeDigits
  let fraction ← (do word ['.']; some <$> someDigits Char.isDigit) <|> pure none
  let power ← (some <$> exponent) <|> pure none
  if fraction.isNone ∧ power.isNone then failure
  else
    let places := fraction.getD []
    let value := Decimal.ofDecimal (Nat.ofDigitChars 10 (whole ++ places) 0)
      (power.getD 0 - places.length)
    if value.isInf ∧ !negative then failure
    else pure (.float (if negative then -value else value))

/-- An infinite float, or one that is no number. -/
def namedFloat : Reader Value := do
  let negative ← sign
  let value ← (do word "inf".toList; pure (1.0 / 0.0)) <|> (do word "nan".toList; pure (0.0 / 0.0))
  pure (.float (if negative then -value else value))

/-! ## Dates and times -/

/-- A number of exactly `count` digits within bounds. -/
def field (count least greatest : Nat) : Reader Nat := do
  let text ← get
  let found := text.take count
  if found.length = count ∧ found.all Char.isDigit then
    let n := Nat.ofDigitChars 10 found 0
    if least ≤ n ∧ n ≤ greatest then
      set (text.drop count)
      pure n
    else failure
  else failure

/-- The number of days of a month. -/
def daysIn (year month : Nat) : Nat :=
  if month = 2 then
    if year % 4 = 0 ∧ (year % 100 ≠ 0 ∨ year % 400 = 0) then 29 else 28
  else if [4, 6, 9, 11].contains month then 30
  else 31

/-- A number with at least `width` digits. -/
def padded (width n : Nat) : String :=
  let found := Nat.toDigits 10 n
  String.ofList (List.replicate (width - found.length) '0' ++ found)

/-- A date, in its normal text. -/
def date : Reader String := do
  let year ← field 4 0 9999
  word ['-']
  let month ← field 2 1 12
  word ['-']
  let day ← field 2 1 (daysIn year month)
  pure (padded 4 year ++ "-" ++ padded 2 month ++ "-" ++ padded 2 day)

/-- The fraction of a second, in its normal text: at most nine digits, without zeros at the end. -/
def fraction : Reader String := do
  word ['.']
  let found ← takeWhile Char.isDigit
  if found.isEmpty then failure
  else
    match ((found.take 9).reverse.dropWhile (· == '0')).reverse with
    | [] => pure ""
    | kept => pure ("." ++ String.ofList kept)

/-- A time of day, in its normal text. -/
def timeOfDay : Reader String := do
  let hour ← field 2 0 23
  word [':']
  let minute ← field 2 0 59
  word [':']
  let second ← field 2 0 60
  let part ← do
    if (← peek) = some '.' then fraction else pure ""
  pure (padded 2 hour ++ ":" ++ padded 2 minute ++ ":" ++ padded 2 second ++ part)

/-- The distance from universal time, in its normal text. -/
def timeZone : Reader String := do
  match ← get with
  | c :: rest =>
    if c = 'Z' ∨ c = 'z' then set rest; pure "Z"
    else if c = '+' ∨ c = '-' then
      set rest
      let hour ← field 2 0 23
      word [':']
      let minute ← field 2 0 59
      let mark := if c = '-' ∧ (hour ≠ 0 ∨ minute ≠ 0) then "-" else "+"
      pure (mark ++ padded 2 hour ++ ":" ++ padded 2 minute)
    else pure ""
  | [] => pure ""

/-- A time of day after a date, with its mark and its distance from universal time. -/
def timeAfterDate : Reader String := do
  match ← get with
  | c :: rest =>
    if c = 'T' ∨ c = 't' ∨ (c = ' ' ∧ (rest.head?.any Char.isDigit)) then
      set rest
      let time ← timeOfDay
      return "T" ++ time ++ (← timeZone)
    else pure ""
  | [] => pure ""

/-- A date, a time or both. -/
def time : Reader Value := do
  let text ← (do
    let day ← date
    return day ++ (← timeAfterDate)) <|> timeOfDay
  pure (.time text)

/-- A number, a date or a time. The longest reading counts. -/
def numberOrTime : Reader Value :=
  time <|> plainFloat <|> namedFloat <|> basedInteger 'x' 16 <|> basedInteger 'o' 8
    <|> basedInteger 'b' 2 <|> decimalInteger

end Reader

end EditorFormat.Toml
