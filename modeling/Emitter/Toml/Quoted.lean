/-!
# TOML strings

The four ways to write a string, and which one a writer picks.

Reading: `basic?` and `literal?` read the rest of a one-line string after its
opening quote, `longBasic?` and `longLiteral?` the rest of a string between
three quotes.  A line break counts as one character however it is written.

Writing: a string is written between plain quotes if it needs no escapes there,
else between single quotes, else between three quotes, else between three single
quotes; only when none of these will do are characters escaped (`written`).
The choice counts runs of quotes in a byte, so a string with a longer run is not
written at all (`isWritable`).  Keys have no long forms (`writtenKey`), and
their quotes are not counted.
-/

namespace Emitter.Toml

/-! ## Characters -/

/-- A blank inside a line. -/
def isBlank (c : Char) : Bool := c == ' ' || c == '\t'

/-- Whether a character may stand for itself in text: all but the controls other
than the tab. -/
def isPlain (c : Char) : Bool := c == '\t' || decide (32 ≤ c.toNat ∧ c.toNat ≠ 127)

/-- The value of a hexadecimal digit. -/
def hexDigit? (c : Char) : Option Nat :=
  if '0' ≤ c ∧ c ≤ '9' then some (c.toNat - 48)
  else if 'a' ≤ c ∧ c ≤ 'f' then some (c.toNat - 87)
  else if 'A' ≤ c ∧ c ≤ 'F' then some (c.toNat - 55)
  else none

/-- The character whose code hexadecimal digits spell. -/
def codePoint? (digits : List Char) : Option Char := do
  let values ← digits.mapM hexDigit?
  let code := values.foldl (fun code v => 16 * code + v) 0
  if code.isValidChar then some (Char.ofNat code) else none

/-- The character that a one-letter escape stands for. -/
def escaped? : Char → Option Char
  | 'b' => some (Char.ofNat 8)
  | 't' => some '\t'
  | 'n' => some '\n'
  | 'f' => some (Char.ofNat 12)
  | 'r' => some '\r'
  | '"' => some '"'
  | '\\' => some '\\'
  | _ => none

/-! ## Reading -/

/-- Reads a basic string after its opening quote. -/
def basic? : List Char → Option (List Char × List Char)
  | [] => none
  | '"' :: rest => some ([], rest)
  | '\\' :: 'u' :: a :: b :: c :: d :: rest => do
    let x ← codePoint? [a, b, c, d]
    let (tail, rest) ← basic? rest
    return (x :: tail, rest)
  | '\\' :: 'U' :: a :: b :: c :: d :: e :: f :: g :: h :: rest => do
    let x ← codePoint? [a, b, c, d, e, f, g, h]
    let (tail, rest) ← basic? rest
    return (x :: tail, rest)
  | '\\' :: e :: rest => do
    let x ← escaped? e
    let (tail, rest) ← basic? rest
    return (x :: tail, rest)
  | c :: rest =>
    if isPlain c ∧ c ≠ '\\' then do
      let (tail, rest) ← basic? rest
      return (c :: tail, rest)
    else none

/-- Reads a literal string after its opening quote. -/
def literal? : List Char → Option (List Char × List Char)
  | [] => none
  | '\'' :: rest => some ([], rest)
  | c :: rest =>
    if isPlain c then do
      let (tail, rest) ← literal? rest
      return (c :: tail, rest)
    else none

/-- The input after one line break at its front, if there is one. -/
def afterBreak? : List Char → Option (List Char)
  | '\n' :: rest => some rest
  | '\r' :: '\n' :: rest => some rest
  | _ => none

/-- The input without a line break at its front. -/
def skipBreak (cs : List Char) : List Char := (afterBreak? cs).getD cs

/-- Up to two quotes that belong to the text although the closing quotes follow
only after them. -/
def lastQuotes (quote : Char) : List Char → List Char × List Char
  | a :: b :: rest =>
    if a = quote then
      if b = quote then ([quote, quote], rest) else ([quote], b :: rest)
    else ([], a :: b :: rest)
  | [a] => if a = quote then ([quote], []) else ([], [a])
  | [] => ([], [])

/-- Whether a backslash starts a line ending that is left out of the text. -/
def trimsHere (rest : List Char) : Bool := (afterBreak? (rest.dropWhile isBlank)).isSome

/-- Reads a long basic string.  With `trimming`, blanks and line breaks are left
out up to the next other character. -/
def longBasic? (trimming : Bool) : List Char → Option (List Char × List Char)
  | [] => none
  | '"' :: '"' :: '"' :: rest => some (lastQuotes '"' rest)
  | '\\' :: 'u' :: a :: b :: c :: d :: rest => do
    let x ← codePoint? [a, b, c, d]
    let (tail, rest) ← longBasic? false rest
    return (x :: tail, rest)
  | '\\' :: 'U' :: a :: b :: c :: d :: e :: f :: g :: h :: rest => do
    let x ← codePoint? [a, b, c, d, e, f, g, h]
    let (tail, rest) ← longBasic? false rest
    return (x :: tail, rest)
  | '\r' :: '\n' :: rest =>
    if trimming then longBasic? true rest
    else do
      let (tail, rest) ← longBasic? false rest
      return ('\n' :: tail, rest)
  | '\n' :: rest =>
    if trimming then longBasic? true rest
    else do
      let (tail, rest) ← longBasic? false rest
      return ('\n' :: tail, rest)
  | '\\' :: e :: rest =>
    if trimsHere (e :: rest) then
      longBasic? true (e :: rest)
    else do
      let x ← escaped? e
      let (tail, rest) ← longBasic? false rest
      return (x :: tail, rest)
  | c :: rest =>
    if trimming && isBlank c then longBasic? true rest
    else if isPlain c ∧ c ≠ '\\' then do
      let (tail, rest) ← longBasic? false rest
      return (c :: tail, rest)
    else none

/-- Reads a long literal string. -/
def longLiteral? : List Char → Option (List Char × List Char)
  | [] => none
  | '\'' :: '\'' :: '\'' :: rest => some (lastQuotes '\'' rest)
  | '\r' :: '\n' :: rest => do
    let (tail, rest) ← longLiteral? rest
    return ('\n' :: tail, rest)
  | '\n' :: rest => do
    let (tail, rest) ← longLiteral? rest
    return ('\n' :: tail, rest)
  | c :: rest =>
    if isPlain c then do
      let (tail, rest) ← longLiteral? rest
      return (c :: tail, rest)
    else none

/-- Reads a string of any form at the front of the input. -/
def string? : List Char → Option (List Char × List Char)
  | '"' :: '"' :: '"' :: rest => longBasic? false (skipBreak rest)
  | '"' :: rest => basic? rest
  | '\'' :: '\'' :: '\'' :: rest => longLiteral? (skipBreak rest)
  | '\'' :: rest => literal? rest
  | _ => none

/-! ## Writing -/

/-- The length of the longest run of a character. -/
def longestRun (x : Char) : List Char → Nat → Nat
  | [], run => run
  | c :: rest, run =>
    if c = x then longestRun x rest (run + 1) else max run (longestRun x rest 0)

/-- The length of the longest run of quotes that a string value may have. -/
def runLimit : Nat := 255

/-- Whether neither kind of quote has a run beyond the limit. -/
def isWritable (text : List Char) : Bool :=
  decide (longestRun '\'' text 0 ≤ runLimit ∧ longestRun '"' text 0 ≤ runLimit)

/-- Whether there is a control character, tabs and line breaks apart. -/
def hasControls (text : List Char) : Bool :=
  text.any fun c => (decide (c.toNat < 32) || c.toNat == 127) && c ≠ '\t' && c ≠ '\n'

/-- The digit of a value below sixteen. -/
def upperHex (n : Nat) : Char := (Nat.digitChar n).toUpper

/-- A control character by its code. -/
def unicodeEscape (c : Char) : List Char :=
  ['\\', 'u', '0', '0', upperHex (c.toNat / 16), upperHex (c.toNat % 16)]

/-- How a character stands between quotes.  `quotes` is how many quotes have
just been written as themselves, of which a long string takes two in a row. -/
def escapeChar (long : Bool) (quotes : Nat) (c : Char) : List Char :=
  if c = '"' then if long && decide (quotes < 2) then ['"'] else ['\\', '"']
  else if c = '\\' then ['\\', '\\']
  else if c = '\n' then if long then ['\n'] else ['\\', 'n']
  else if c = '\r' then ['\\', 'r']
  else if c = '\t' then ['\\', 't']
  else if c = Char.ofNat 8 then ['\\', 'b']
  else if c = Char.ofNat 12 then ['\\', 'f']
  else if c.toNat < 32 ∨ c.toNat = 127 then unicodeEscape c
  else [c]

/-- The text between quotes. -/
def escapeText (long : Bool) (quotes : Nat) : List Char → List Char
  | [] => []
  | c :: rest =>
    let next := if c = '"' ∧ long ∧ quotes < 2 then quotes + 1 else 0
    escapeChar long quotes c ++ escapeText long next rest

/-- A basic string. -/
def basicText (text : List Char) : List Char := '"' :: escapeText false 0 text ++ ['"']

/-- A literal string. -/
def literalText (text : List Char) : List Char := '\'' :: text ++ ['\'']

/-- The line break that a long string with several lines starts with. -/
def leadingBreak (text : List Char) : List Char := if text.contains '\n' then ['\n'] else []

/-- A long basic string. -/
def longBasicText (text : List Char) : List Char :=
  ['"', '"', '"'] ++ leadingBreak text ++ escapeText true 0 text ++ ['"', '"', '"']

/-- A long literal string. -/
def longLiteralText (text : List Char) : List Char :=
  ['\'', '\'', '\''] ++ leadingBreak text ++ text ++ ['\'', '\'', '\'']

/-- A writable string value in the plainest form that holds it. -/
def written (text : List Char) : List Char :=
  let newline := text.contains '\n'
  let singles := longestRun '\'' text 0
  let doubles := longestRun '"' text 0
  let backslash := text.contains '\\'
  if hasControls text then if newline then longBasicText text else basicText text
  else if ¬backslash ∧ doubles = 0 ∧ ¬newline then basicText text
  else if singles = 0 ∧ ¬newline then literalText text
  else if ¬backslash ∧ doubles ≤ 2 then longBasicText text
  else if singles ≤ 2 then longLiteralText text
  else if newline then longBasicText text
  else basicText text

/-- A character of an unquoted key. -/
def isBareKeyChar (c : Char) : Bool :=
  decide ('a' ≤ c ∧ c ≤ 'z') || decide ('A' ≤ c ∧ c ≤ 'Z') || decide ('0' ≤ c ∧ c ≤ '9') ||
    c == '-' || c == '_'

/-- A key in the plainest form that holds it. -/
def writtenKey (key : List Char) : List Char :=
  let controls := hasControls key || key.contains '\n'
  if ¬key.isEmpty ∧ key.all isBareKeyChar then key
  else if ¬controls ∧ ¬key.contains '\\' ∧ ¬key.contains '"' then basicText key
  else if ¬controls ∧ ¬key.contains '\'' then literalText key
  else basicText key

end Emitter.Toml
