import ClusterTransition.Yaml.Block
import ClusterTransition.Yaml.Plain
import ClusterTransition.Yaml.Property
import ClusterTransition.Yaml.Quoted
import ClusterTransition.Yaml.Scalar

/-! # Tokens of a YAML text

The tokens of a text show its structure without regard to its layout: where lines are indented
further, a block collection starts, and where they are indented less, it ends.

A key of a mapping need not be marked as one; that it is a key shows only at the colon after it.  So
the place where it may have started is kept, and the marks of the key, and of the mapping if it
starts there, are inserted later.  Such a key lies on one line, and its colon follows within 1024
characters.
-/

namespace ClusterTransition
namespace Yaml

/-- A token. -/
inductive Token where
  | directive (d : Directive)
  | documentStart
  | documentEnd
  /-- The start of a list whose items are marked by hyphens. -/
  | blockSequenceStart
  /-- The start of a map whose entries stand on lines of their own. -/
  | blockMappingStart
  | blockEnd
  | flowSequenceStart
  | flowSequenceEnd
  | flowMappingStart
  | flowMappingEnd
  /-- The comma between two items in brackets. -/
  | flowEntry
  /-- The hyphen in front of an item. -/
  | blockEntry
  | key
  | value
  | alias (name : String)
  | anchor (name : String)
  | tag (tag : WrittenTag)
  | scalar (style : ScalarStyle) (text : String)
  deriving DecidableEq, Repr

/-- The place where a key may have started. -/
structure SimpleKey where
  /-- The number of tokens before it. -/
  position : Nat
  mark : Mark
  /-- Whether nothing but a key can stand there. -/
  isRequired : Bool

/-- A text of which some tokens were read. -/
structure Lexer where
  cursor : Cursor
  /-- The tokens that were read, the last one first. -/
  tokens : List Token := []
  /-- The number of tokens that were read. -/
  count : Nat := 0
  /-- The column after the one in which the current block collection stands; zero outside of all. -/
  margin : Nat := 0
  /-- The margins of the block collections around the current one. -/
  outerMargins : List Nat := []
  /-- The key that may have started between the innermost brackets, then between those around them;
  the last one is outside of all brackets. -/
  keys : List (Option SimpleKey) := [none]
  /-- Whether a key may start here. -/
  keyAllowed : Bool := true

namespace Lexer

/-- Whether the cursor is between brackets. -/
def inFlow (l : Lexer) : Bool := 1 < l.keys.length

/-- The column of the cursor. -/
def column (l : Lexer) : Nat := l.cursor.mark.column

/-- Takes a token. -/
def push (l : Lexer) (t : Token) : Lexer := { l with tokens := t :: l.tokens, count := l.count + 1 }

/-- Takes a token that was read up to a cursor. -/
def pushTo (l : Lexer) (t : Token) (cursor : Cursor) : Lexer := { l.push t with cursor }

/-! ## Indentation -/

/-- Opens a block collection in a column, unless one is open there; `start` marks its start. -/
def openBlock (l : Lexer) (column : Nat) (start : Token) : Lexer :=
  if l.inFlow || column < l.margin then l
  else { l.push start with margin := column + 1, outerMargins := l.margin :: l.outerMargins }

/-- Removes the margins above a limit.  The answer is how many there were, and what is left. -/
def popMargins (limit : Nat) : Nat → List Nat → Nat × Nat × List Nat
  | margin, [] => (0, margin, [])
  | margin, outer :: rest =>
    if limit < margin then
      let (n, left) := popMargins limit outer rest
      (n + 1, left)
    else (0, margin, outer :: rest)

/-- Closes the block collections whose margin is above a limit. -/
def closeBlocks (l : Lexer) (limit : Nat) : Lexer :=
  if l.inFlow then l
  else
    let (n, margin, outerMargins) := popMargins limit l.margin l.outerMargins
    { l with
      tokens := List.replicate n .blockEnd ++ l.tokens, count := l.count + n, margin, outerMargins }

/-! ## Keys without a mark -/

/-- Forgets the key that may have started between the innermost brackets, unless it must be one. -/
def dropKey? (l : Lexer) : Option Lexer :=
  match l.keys with
  | some key :: rest => if key.isRequired then none else some { l with keys := none :: rest }
  | _ => some l

/-- Keeps the place of the cursor as one where a key may have started. -/
def keepKey? (l : Lexer) : Option Lexer :=
  if l.keyAllowed then
    let key : SimpleKey :=
      { position := l.count, mark := l.cursor.mark
        isRequired := !l.inFlow && l.margin = l.column + 1 }
    l.dropKey?.map fun l => { l with keys := some key :: l.keys.tail }
  else some l

/-- Whether a key that started at a mark can no longer be followed by its colon. -/
def isStale (l : Lexer) (key : SimpleKey) : Bool :=
  key.mark.line < l.cursor.mark.line || key.mark.index + 1024 < l.cursor.mark.index

/-- A key that may have started, unless it is stale. -/
def fresh? (l : Lexer) : Option SimpleKey → Option (Option SimpleKey)
  | none => some none
  | some key =>
    if l.isStale key then (if key.isRequired then none else some none) else some (some key)

/-- Forgets all stale keys, unless one of them must be a key. -/
def dropStaleKeys? (l : Lexer) : Option Lexer :=
  (l.keys.mapM l.fresh?).map fun keys => { l with keys }

/-- Inserts the mark of a key where the key started, and the start of a mapping before it, if none
is open there. -/
def insertKey (l : Lexer) (key : SimpleKey) : Lexer :=
  let n := l.count - key.position
  let opened :=
    { l with tokens := l.tokens.drop n, count := key.position }.openBlock
      key.mark.column .blockMappingStart
  let marked := opened.push .key
  { marked with tokens := l.tokens.take n ++ marked.tokens, count := marked.count + n }

/-! ## Single tokens -/

/-- Reads a mark of one character that stands for a token. -/
def mark (l : Lexer) (t : Token) (n : Nat) : Lexer := l.pushTo t (l.cursor.advance n)

/-- Reads an opening bracket. -/
def openFlow? (l : Lexer) (t : Token) : Option Lexer :=
  l.keepKey?.map fun l => { l.mark t 1 with keys := none :: l.keys, keyAllowed := true }

/-- Reads a closing bracket. -/
def closeFlow? (l : Lexer) (t : Token) : Option Lexer :=
  l.dropKey?.map fun l =>
    let keys := if l.inFlow then l.keys.tail else l.keys
    { l.mark t 1 with keys, keyAllowed := false }

/-- Reads a comma. -/
def comma? (l : Lexer) : Option Lexer :=
  l.dropKey?.map fun l => { l.mark .flowEntry 1 with keyAllowed := true }

/-- Reads the hyphen in front of an item. -/
def hyphen? (l : Lexer) : Option Lexer :=
  if !l.inFlow && !l.keyAllowed then none
  else
    (l.openBlock l.column .blockSequenceStart).dropKey?.map fun l =>
      { l.mark .blockEntry 1 with keyAllowed := true }

/-- Reads the mark of a key. -/
def markedKey? (l : Lexer) : Option Lexer :=
  if !l.inFlow && !l.keyAllowed then none
  else
    (l.openBlock l.column .blockMappingStart).dropKey?.map fun l =>
      { l.mark .key 1 with keyAllowed := !l.inFlow }

/-- Reads the colon in front of a value. -/
def value? (l : Lexer) : Option Lexer :=
  match l.keys with
  | some key :: rest =>
    let l := l.insertKey key
    some { l.mark .value 1 with keys := none :: rest, keyAllowed := false }
  | _ =>
    if !l.inFlow && !l.keyAllowed then none
    else
      let l := l.openBlock l.column .blockMappingStart
      some { l.mark .value 1 with keyAllowed := !l.inFlow }

/-- Reads a token with which a key may start, by the given reader. -/
def startOfKey? (l : Lexer) (read : Lexer → Option (Token × Cursor)) : Option Lexer :=
  l.keepKey?.bind fun l =>
    (read l).map fun p => { l.pushTo p.1 p.2 with keyAllowed := false }

/-- Reads a plain scalar. -/
def plain? (l : Lexer) : Option Lexer :=
  l.keepKey?.bind fun l =>
    (plainScalar? l.inFlow l.margin l.cursor).map fun p =>
      { l.pushTo (.scalar .plain (String.ofList p.text)) p.cursor with keyAllowed := p.newLine }

/-- Reads a quoted scalar. -/
def quoted? (l : Lexer) (double : Bool) : Option Lexer :=
  l.startOfKey? fun l =>
    (quotedScalar? double l.cursor).map fun p =>
      (.scalar (if double then .doubleQuoted else .singleQuoted) (String.ofList p.1), p.2)

/-- Reads a block scalar. -/
def block? (l : Lexer) (folded : Bool) : Option Lexer :=
  l.dropKey?.bind fun l =>
    (blockScalar? folded l.margin l.cursor).map fun p =>
      let token := .scalar (if folded then .folded else .literal) (String.ofList p.1)
      { l.pushTo token p.2 with keyAllowed := true }

/-- Ends all block collections, and the key that may have started.  No key may start after that. -/
def endDocument? (l : Lexer) : Option Lexer :=
  (l.closeBlocks 0).dropKey?.map fun l => { l with keyAllowed := false }

/-- Whether a plain scalar may start with a character in front of others. -/
def startsPlain (inFlow : Bool) (c : Char) (cs : List Char) : Bool :=
  if c = '-' then !cs.head?.any isSpace
  else if c = '?' || c = ':' then !inFlow && !endsWord cs
  else !isGap c && !",[]\x7b\x7d#&*!|>'\"%@\x60".toList.contains c

/-- Reads the token at the cursor. -/
def token? (l : Lexer) : Option Lexer :=
  match l.cursor.rest with
  | [] => none
  | c :: cs =>
    if c = '%' && l.column = 0 then
      l.endDocument?.bind fun l =>
        (directive? l.cursor).map fun p => l.pushTo (.directive p.1) p.2
    else if l.cursor.atDocumentMark then
      l.endDocument?.map fun l => l.mark (if c = '-' then .documentStart else .documentEnd) 3
    else if c = '[' then l.openFlow? .flowSequenceStart
    else if c = '\x7b' then l.openFlow? .flowMappingStart
    else if c = ']' then l.closeFlow? .flowSequenceEnd
    else if c = '\x7d' then l.closeFlow? .flowMappingEnd
    else if c = ',' then l.comma?
    else if c = '-' && endsWord cs then l.hyphen?
    else if c = '?' && (l.inFlow || endsWord cs) then l.markedKey?
    else if c = ':' && (l.inFlow || endsWord cs) then l.value?
    else if c = '*' then
      l.startOfKey? fun l => (anchorName? l.cursor).map fun p => (.alias p.1, p.2)
    else if c = '&' then
      l.startOfKey? fun l => (anchorName? l.cursor).map fun p => (.anchor p.1, p.2)
    else if c = '!' then
      l.startOfKey? fun l => (tagProperty? l.inFlow l.cursor).map fun p => (.tag p.1, p.2)
    else if (c = '|' || c = '>') && !l.inFlow then l.block? (c = '>')
    else if c = '\'' || c = '"' then l.quoted? (c = '"')
    else if startsPlain l.inFlow c cs then l.plain?
    else none

/-! ## All tokens -/

/-- Skips spaces, comments and line breaks.  Outside of brackets a key may start on a new line, and
a tab may not stand where a key may start.  Every step takes a line. -/
def skipGaps : Nat → Lexer → Lexer
  | 0, l => l
  | fuel + 1, l =>
    let tabs := l.inFlow || !l.keyAllowed
    let c := l.cursor.skip fun x => x = ' ' || (tabs && x = '\t')
    let c := if c.rest.head? = some '#' then c.skip fun x => !isBreak x else c
    if breakLength c.rest = 0 then { l with cursor := c }
    else skipGaps fuel { l with cursor := c.lineBreak.2, keyAllowed := l.keyAllowed || !l.inFlow }

/-- Reads all tokens.  Every step takes a token and at least one character. -/
def run? : Nat → Lexer → Option (List Token)
  | 0, _ => none
  | fuel + 1, l =>
    (l.skipGaps (l.cursor.rest.length + 1)).dropStaleKeys?.bind fun l =>
      let l := l.closeBlocks (l.column + 1)
      if l.cursor.rest = [] then l.endDocument?.map fun l => l.tokens.reverse
      else l.token?.bind (run? fuel)

end Lexer

/-- The tokens of a text.  A byte order mark at the front does not count. -/
def tokens? (text : String) : Option (List Token) :=
  let cs := match text.toList with
    | '\ufeff' :: cs => cs
    | cs => cs
  if cs.all isAllowed then Lexer.run? (cs.length + 1) { cursor := ⟨cs, {}⟩ } else none

end Yaml
end ClusterTransition
