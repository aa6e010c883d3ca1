import EnvAudit.Yaml.Token.Property
import EnvAudit.Yaml.Token.Scalar

/-!
# The tokens of a document

A document is read from left to right. Outside of brackets the column of a token opens and closes
blocks. Whether a node is a key is seen only at the colon behind it: the place where it started is
remembered, on its line and for at most 1024 characters, and the tokens of a key are put there
afterwards.
-/
namespace EnvAudit.Yaml

/-- A place where a key may have started. -/
structure KeyStart where
  /-- How many tokens lie before it. -/
  number : Nat
  /-- Whether nothing but a key can be there. -/
  required : Bool
  index : Nat
  line : Nat
  column : Nat
deriving DecidableEq, Repr

/-- A document that is read up to a place. -/
structure Lexer where
  cursor : Cursor
  /-- The tokens so far, the last first. -/
  tokens : List Token
  /-- The columns of the open blocks, the innermost first. -/
  indents : List Nat
  /-- How many brackets are open. -/
  flowLevel : Nat
  /-- Whether a key without a mark of its own may start here. -/
  keyAllowed : Bool
  /-- The places where a key may have started, by the number of brackets around them. -/
  keyStarts : List (Nat × KeyStart)
deriving Repr

/-- The most characters between the start of a key and its colon. -/
def maxKeyLength : Nat := 1024

namespace Lexer

/-- A document before anything of it was read. -/
def start (t : Text) : Lexer where
  cursor := .start t
  tokens := []
  indents := []
  flowLevel := 0
  keyAllowed := true
  keyStarts := []

/-- Whether no bracket is open. -/
def inBlock (s : Lexer) : Bool := s.flowLevel == 0

/-- Adds a token and moves on to the place behind it. -/
def emit (token : Token) (c : Cursor) (s : Lexer) : Lexer :=
  { s with tokens := token :: s.tokens, cursor := c }

/-! ## Blocks -/

/-- Closes the blocks at columns that fail a test. -/
def closeBlocks (stays : Nat → Bool) (s : Lexer) : Lexer :=
  if s.inBlock then
    let closed := s.indents.takeWhile fun n => !stays n
    { s with
      indents := s.indents.drop closed.length
      tokens := closed.map (fun _ => Token.blockEnd) ++ s.tokens }
  else s

/-- Closes the blocks that do not reach to a column. -/
def unwind (column : Nat) : Lexer → Lexer := closeBlocks (· ≤ column)

/-- Closes all blocks. -/
def unwindAll : Lexer → Lexer := closeBlocks fun _ => false

/-- Whether a column lies deeper than the innermost block. -/
def isDeeper (column : Nat) (s : Lexer) : Bool :=
  match s.indents with
  | [] => true
  | n :: _ => n < column

/-- Opens a block at the cursor, if its column lies deeper than the innermost block. -/
def openBlock (token : Token) (s : Lexer) : Lexer :=
  if s.inBlock && s.isDeeper s.cursor.column then
    { s with indents := s.cursor.column :: s.indents, tokens := token :: s.tokens }
  else s

/-! ## Keys -/

/-- Whether a key that started there can still end here. -/
def isFresh (k : KeyStart) (s : Lexer) : Bool :=
  k.line == s.cursor.line && s.cursor.index - k.index ≤ maxKeyLength

/-- Forgets the places where a key can no longer have started. -/
def dropStale (s : Lexer) : Except Fault Lexer :=
  if s.keyStarts.any fun e => e.2.required && !s.isFresh e.2 then .error .malformed
  else .ok { s with keyStarts := s.keyStarts.filter fun e => s.isFresh e.2 }

/-- The place where a key may have started within the same brackets. -/
def keyStart? (s : Lexer) : Option KeyStart :=
  (s.keyStarts.find? (·.1 = s.flowLevel)).map (·.2)

/-- Forgets the place where a key may have started within the same brackets. -/
def forgetKey (s : Lexer) : Except Fault Lexer :=
  if s.keyStart?.any (·.required) then .error .malformed
  else .ok { s with keyStarts := s.keyStarts.filter (·.1 != s.flowLevel) }

/-- Remembers the cursor as a place where a key may start. -/
def rememberKey (s : Lexer) : Except Fault Lexer :=
  if s.keyAllowed then do
    let s ← s.forgetKey
    let k : KeyStart :=
      { number := s.tokens.length
        required := s.inBlock && s.indents.head? = some s.cursor.column
        index := s.cursor.index
        line := s.cursor.line
        column := s.cursor.column }
    return { s with keyStarts := (s.flowLevel, k) :: s.keyStarts }
  else .ok s

/-- Puts a token behind the first `number` tokens. -/
def insertToken (number : Nat) (token : Token) (s : Lexer) : Lexer :=
  let later := s.tokens.length - number
  { s with tokens := s.tokens.take later ++ token :: s.tokens.drop later }

/-! ## Single tokens -/

/-- A mark between documents. -/
def readBoundary (token : Token) (s : Lexer) : Except Fault Lexer := do
  let s ← s.unwindAll.forgetKey
  return emit token (s.cursor.advance 3) { s with keyAllowed := false }

/-- A bracket that opens. -/
def readOpening (token : Token) (s : Lexer) : Except Fault Lexer := do
  let s ← s.rememberKey
  return emit token s.cursor.step { s with flowLevel := s.flowLevel + 1, keyAllowed := true }

/-- A bracket that closes. -/
def readClosing (token : Token) (s : Lexer) : Except Fault Lexer :=
  if s.inBlock then .error .malformed
  else do
    let s ← s.forgetKey
    return emit token s.cursor.step { s with flowLevel := s.flowLevel - 1, keyAllowed := false }

/-- A comma. -/
def readFlowEntry (s : Lexer) : Except Fault Lexer := do
  let s ← s.forgetKey
  return emit .flowEntry s.cursor.step { s with keyAllowed := true }

/-- The dash before an item. -/
def readBlockEntry (s : Lexer) : Except Fault Lexer :=
  if s.inBlock && !s.keyAllowed then .error .malformed
  else do
    let s ← (s.openBlock .blockSequenceStart).forgetKey
    return emit .blockEntry s.cursor.step { s with keyAllowed := true }

/-- The question mark before a key. -/
def readKey (s : Lexer) : Except Fault Lexer :=
  if s.inBlock && !s.keyAllowed then .error .malformed
  else do
    let s ← (s.openBlock .blockMappingStart).forgetKey
    return emit .key s.cursor.step { s with keyAllowed := s.inBlock }

/-- The colon before a value. If a key may have started before, it did: its tokens are put where
it started. -/
def readValue (s : Lexer) : Except Fault Lexer :=
  match s.keyStart? with
  | some k =>
    let s := { s with keyStarts := s.keyStarts.filter (·.1 != s.flowLevel) }
    let opens := s.inBlock && s.isDeeper k.column
    let s := s.insertToken k.number .key
    let s :=
      if opens then
        { s.insertToken k.number .blockMappingStart with indents := k.column :: s.indents }
      else s
    .ok (emit .value s.cursor.step { s with keyAllowed := false })
  | none =>
    if s.inBlock && !s.keyAllowed then .error .malformed
    else do
      let s ← ({ s.openBlock .blockMappingStart with keyAllowed := s.inBlock }).forgetKey
      return emit .value s.cursor.step s

/-- A token that may be a key, or start one, and behind which none starts. -/
def readNode (read : Lexer → Except Fault (Token × Cursor)) (s : Lexer) : Except Fault Lexer := do
  let s ← s.rememberKey
  let (token, c) ← read s
  return emit token c { s with keyAllowed := false }

/-- An alias or an anchor. -/
def readName (make : Text → Token) : Lexer → Except Fault Lexer :=
  readNode fun s => do
    let (name, c) ← readAnchorName s.cursor
    return (make name, c)

/-- A scalar in quotes. -/
def readQuotedScalar : Lexer → Except Fault Lexer :=
  readNode fun s => do
    let (text, c) ← readQuoted s.cursor
    return (.scalar text false, c)

/-- A scalar in a block of its own. A key may follow it. -/
def readBlockScalar (folded : Bool) (s : Lexer) : Except Fault Lexer := do
  let s ← s.forgetKey
  let (text, c) ← readBlock folded s.indents.head? s.cursor.step
  return emit (.scalar text false) c { s with keyAllowed := true }

/-- A plain scalar. A key may follow it on a new line. -/
def readPlainScalar (s : Lexer) : Except Fault Lexer := do
  let s ← s.rememberKey
  let minColumn := match s.indents with
    | [] => 0
    | n :: _ => n + 1
  let (scalar, c) := readPlain (!s.inBlock) minColumn s.cursor
  return emit (.scalar scalar.text true) c { s with keyAllowed := scalar.endsInNewLine }

/-- A directive. -/
def readDirectiveLine (s : Lexer) : Except Fault Lexer := do
  let s ← s.unwindAll.forgetKey
  let (token, c) ← readDirective s.cursor
  return emit token c { s with keyAllowed := false }

/-- The characters that no plain scalar starts with, unless a dash, a question mark or a colon is
followed by more. -/
def isIndicator (c : Char) : Bool := "-?:,[]\x7b\x7d#&*!|>'\"%@\x60".toList.contains c

/-- Whether a plain scalar starts at the cursor. -/
def startsPlain (s : Lexer) : Bool :=
  let c := s.cursor.peek
  !(isBlankOrEnd c || isIndicator c) ||
    (!isBlankOrEnd (s.cursor.peekAt 1) && (c == '-' || (s.inBlock && (c == '?' || c == ':'))))

/-- Whether a mark at the cursor stands by itself, as it does inside brackets. -/
def standsAlone (s : Lexer) : Bool := !s.inBlock || isBlankOrEnd (s.cursor.peekAt 1)

/-- Reads the token at the cursor. -/
def readToken (s : Lexer) : Except Fault Lexer :=
  let c := s.cursor.peek
  let atLineStart := s.cursor.column == 0
  if c = '%' ∧ atLineStart then s.readDirectiveLine
  else if atLineStart && s.cursor.isTriple '-' then s.readBoundary .documentStart
  else if atLineStart && s.cursor.isTriple '.' then s.readBoundary .documentEnd
  else if c = '[' then s.readOpening .flowSequenceStart
  else if c = '{' then s.readOpening .flowMappingStart
  else if c = ']' then s.readClosing .flowSequenceEnd
  else if c = '}' then s.readClosing .flowMappingEnd
  else if c = ',' then s.readFlowEntry
  else if c = '-' ∧ isBlankOrEnd (s.cursor.peekAt 1) then s.readBlockEntry
  else if c = '?' ∧ s.standsAlone then s.readKey
  else if c = ':' ∧ s.standsAlone then s.readValue
  else if c = '*' then s.readName .alias
  else if c = '&' then s.readName .anchor
  else if c = '!' then s.readNode fun s => readTag s.cursor
  else if c = '|' ∧ s.inBlock then s.readBlockScalar false
  else if c = '>' ∧ s.inBlock then s.readBlockScalar true
  else if c = '\'' ∨ c = '"' then s.readQuotedScalar
  else if s.startsPlain then s.readPlainScalar
  else .error .malformed

/-! ## All tokens -/

/-- Skips spaces, comments and line ends; a key may start on a new line outside of brackets. -/
def skipGaps : Nat → Lexer → Lexer
  | 0, s => s
  | fuel + 1, s =>
    let c := s.cursor.skipComment
    match c.takeBreak? with
    | some (_, c) => skipGaps fuel { s with cursor := c, keyAllowed := s.keyAllowed || s.inBlock }
    | none => { s with cursor := c }

/-- The next token's place, with the blocks closed that end before it. -/
def toNextToken (s : Lexer) : Except Fault Lexer := do
  let s ← (skipGaps (s.cursor.rest.length + 1) s).dropStale
  return s.unwind s.cursor.column

/-- Ends the document. -/
def finish (s : Lexer) : Except Fault Lexer := s.unwindAll.forgetKey

/-- Reads up to the end. Each token takes at least one character, which bounds their number. -/
def run : Nat → Lexer → List Token
  | 0, s => s.tokens.reverse
  | fuel + 1, s =>
    let next := do
      let s ← s.toNextToken
      if s.cursor.rest.isEmpty then return (true, ← s.finish) else return (false, ← s.readToken)
    match next with
    | .error f => (.broken f :: s.tokens).reverse
    | .ok (true, s) => s.tokens.reverse
    | .ok (false, s) => run fuel s

end Lexer

/-- The tokens of a document. A byte order mark at its start is no part of it. -/
def Token.scan (t : Text) : List Token :=
  let s := Lexer.start t
  let s := if t.head? = some '\uFEFF' then { s with cursor := s.cursor.step } else s
  s.run (t.length + 1)

end EnvAudit.Yaml
