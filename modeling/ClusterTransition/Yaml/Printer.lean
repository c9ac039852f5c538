import ClusterTransition.Yaml.Cursor
import ClusterTransition.Yaml.Scalar

/-! # Writing YAML

The writer takes texts, whole numbers and maps of these.  A map stands on lines of its own, two
columns further in than the map around it.

A text is written without quotes where it would be read back as the same text.  A text with line
feeds is written as a literal block.  Single quotes come next, and double quotes last, where
characters have to be escaped or the line breaks of the text would be lost.
-/

namespace ClusterTransition
namespace Yaml

/-- What is written. -/
inductive Setting where
  | text (s : String)
  | number (n : Int)
  | group (entries : List (String × Setting))
  deriving Inhabited

/-! ## What a text consists of -/

/-- Whether a character is written as it is. -/
def isPrintable (c : Char) : Bool :=
  let n := c.toNat
  n = 0xA || (0x20 ≤ n && n ≤ 0x7E) ||
    (0xA0 ≤ n && n ≠ 0xFEFF && n ≠ 0xFFFE && n ≠ 0xFFFF)

/-- Whether two characters that pass the given tests stand next to each other. -/
def hasPair (p q : Char → Bool) : List Char → Bool
  | c :: d :: cs => (p c && q d) || hasPair p q (d :: cs)
  | _ => false

/-- Whether a colon ends a word. -/
def hasKeyMark : List Char → Bool
  | [] => false
  | c :: cs => (c = ':' && endsWord cs) || hasKeyMark cs

/-- Whether a text starts with a document mark. -/
def startsWithMarks (cs : List Char) : Bool :=
  cs.take 3 = ['-', '-', '-'] || cs.take 3 = ['.', '.', '.']

/-- Whether the first character of a text would be taken as a mark. -/
def startsWithIndicator : List Char → Bool
  | [] => false
  | c :: cs =>
    "#,[]\x7b\x7d&*!|>'\"%@\x60".toList.contains c ||
      ((c = '?' || c = ':' || c = '-') && endsWord cs)

/-- Whether a text can be written without quotes. -/
def plainFits (cs : List Char) : Bool :=
  cs.all (fun c => isPrintable c && !isBreak c) && cs.head? ≠ some ' ' && cs.getLast? ≠ some ' ' &&
    !startsWithMarks cs && !startsWithIndicator cs && !hasKeyMark (cs.drop 1) &&
    !hasPair isGap (· = '#') cs

/-- Whether a text can be written between single quotes: its spaces and line breaks are not lost. -/
def singleFits (cs : List Char) : Bool :=
  cs.all isPrintable && !hasPair isBreak (· = ' ') cs && !hasPair (· = ' ') isBreak cs

/-- Whether a text can be written as a literal block. -/
def literalFits (cs : List Char) : Bool :=
  cs.all isPrintable && cs.getLast? ≠ some ' ' && !hasPair (· = ' ') isBreak cs

/-- Whether a text without quotes would be read as something else, or looks like a number. -/
def isAmbiguous (text : String) : Bool :=
  Plain.ofText text ≠ .text || isZeroPadded text.toList

/-- How a text is written. -/
def styleOf (text : String) : ScalarStyle :=
  let cs := text.toList
  if cs.contains '\n' then (if literalFits cs then .literal else .doubleQuoted)
  else if !isAmbiguous text && plainFits cs then .plain
  else if singleFits cs then .singleQuoted
  else .doubleQuoted

/-! ## Scalars -/

/-- The letter after a backslash that stands for a character. -/
def escapeLetter? (c : Char) : Option Char :=
  match c.toNat with
  | 0x00 => some '0'
  | 0x07 => some 'a'
  | 0x08 => some 'b'
  | 0x09 => some 't'
  | 0x0A => some 'n'
  | 0x0B => some 'v'
  | 0x0C => some 'f'
  | 0x0D => some 'r'
  | 0x1B => some 'e'
  | 0x22 => some '"'
  | 0x5C => some '\\'
  | 0x85 => some 'N'
  | 0xA0 => some '_'
  | 0x2028 => some 'L'
  | 0x2029 => some 'P'
  | _ => none

/-- The digits of a number to the base of sixteen, with zeros in front up to a width. -/
def hexDigits (width n : Nat) : List Char :=
  let digits := (Nat.toDigits 16 n).map Char.toUpper
  List.replicate (width - digits.length) '0' ++ digits

/-- A character between double quotes. -/
def doubleQuotedChar (c : Char) : List Char :=
  if isPrintable c && !isBreak c && c ≠ '"' && c ≠ '\\' then [c]
  else
    '\\' :: match escapeLetter? c with
      | some letter => [letter]
      | none =>
        if c.toNat ≤ 0xFF then 'x' :: hexDigits 2 c.toNat
        else if c.toNat ≤ 0xFFFF then 'u' :: hexDigits 4 c.toNat
        else 'U' :: hexDigits 8 c.toNat

/-- Spaces up to a column. -/
def spaces (n : Nat) : List Char := List.replicate n ' '

/-- The lines of a text, each but an empty one indented.  `lineStart` says whether a line starts
here, and `char` writes a character. -/
def indented (indent : Nat) (char : Char → List Char) : (lineStart : Bool) → List Char → List Char
  | _, [] => []
  | lineStart, c :: cs =>
    if isBreak c then c :: indented indent char true cs
    else (if lineStart then spaces indent else []) ++ char c ++ indented indent char false cs

/-- A text between single quotes. -/
def singleQuotedText (indent : Nat) (cs : List Char) : List Char :=
  ['\''] ++ indented indent (fun c => if c = '\'' then ['\'', '\''] else [c]) false cs ++
    (if cs.getLast?.any isBreak then spaces indent else []) ++ ['\'']

/-- The header of a literal block: the indentation, if the text does not show it, and what becomes
of the line breaks at its end. -/
def literalHeader (cs : List Char) : List Char :=
  (if cs.head?.any isGap then ['2'] else []) ++
    match cs.reverse with
    | [] => ['-']
    | [c] => if isBreak c then ['+'] else ['-']
    | c :: d :: _ => if !isBreak c then ['-'] else if isBreak d then ['+'] else []

/-- A literal block. -/
def literalText (indent : Nat) (cs : List Char) : List Char :=
  '|' :: literalHeader cs ++ '\n' :: indented indent (fun c => [c]) true cs

/-- A text in the style that is meant for it. -/
def textChars (indent : Nat) (text : String) : List Char :=
  let cs := text.toList
  match styleOf text with
  | .plain => cs
  | .singleQuoted => singleQuotedText indent cs
  | .literal => literalText indent cs
  | _ => '"' :: cs.flatMap doubleQuotedChar ++ ['"']

/-- A text, and the end of its line unless the text ends one itself. -/
def textLine (indent : Nat) (text : String) : List Char :=
  let cs := textChars indent text
  if styleOf text = .literal && cs.getLast?.any isBreak then cs else cs ++ ['\n']

/-! ## Maps -/

/-- Whether a key is written on one line with its value. -/
def isSimpleKey (key : String) : Bool := !key.toList.any isBreak && key.utf8ByteSize ≤ 128

mutual

/-- The value after the colon of an entry in a column.  `inline` says whether a map may start on the
same line. -/
def settingChars (column : Nat) (inline : Bool) : Setting → List Char
  | .text s => ' ' :: textLine (column + 2) s
  | .number n => ' ' :: Numeral.renderInt n ++ ['\n']
  | .group [] => " \x7b\x7d\n".toList
  | .group entries =>
    if inline then ' ' :: entriesChars (column + 2) false entries
    else '\n' :: entriesChars (column + 2) true entries

/-- The entries of a map in a column.  `lineStart` says whether the first one starts a line. -/
def entriesChars (column : Nat) (lineStart : Bool) : List (String × Setting) → List Char
  | [] => []
  | (key, value) :: rest =>
    (if lineStart then spaces column else []) ++
      (if isSimpleKey key then
        textChars (column + 2) key ++ ':' :: settingChars column false value
      else
        '?' :: ' ' :: textLine (column + 2) key ++ spaces column ++
          ':' :: settingChars column true value) ++
      entriesChars column true rest

end

/-- The text of a map. -/
def render (entries : List (String × Setting)) : String :=
  if entries.isEmpty then "\x7b\x7d\n" else String.ofList (entriesChars 0 true entries)

end Yaml
end ClusterTransition
