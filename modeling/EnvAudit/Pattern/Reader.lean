import EnvAudit.Pattern.Basic
import EnvAudit.Pattern.Fault

/-!
# Reading patterns

The written form of patterns: characters, sets in brackets, groups, choices, repetitions,
look-around and options. The reader keeps account of the groups, because only a pattern with a
single group of a certain name can tell the name of a variable.
-/
namespace EnvAudit.Pattern

/-! ## Widths -/

/-- The least and the greatest number of characters that a pattern matches; no greatest if there
is no bound. `groupWidth` is the width of the group. -/
def width (groupWidth : Nat × Option Nat) : Pattern → Nat × Option Nat
  | .empty | .anchor _ | .ahead .. | .behind .. => (0, some 0)
  | .one _ => (1, some 1)
  | .seq p q =>
    let (a, b) := width groupWidth p
    let (c, d) := width groupWidth q
    (a + c, do return (← b) + (← d))
  | .alt p q | .ifGroup p q =>
    let (a, b) := width groupWidth p
    let (c, d) := width groupWidth q
    (min a c, do return max (← b) (← d))
  | .many lo hi _ p =>
    let (a, b) := width groupWidth p
    let most := match hi, b with
      | _, some 0 => some 0
      | some n, some m => some (n * m)
      | some 0, none => some 0
      | _, _ => none
    (a * lo, most)
  | .group p | .atomic p => width groupWidth p
  | .again _ => groupWidth

/-! ## The state of a reader -/

/-- The options that are in force. -/
structure Options where
  ignoreCase : Bool := false
  multiline : Bool := false
  dotAll : Bool := false
  verbose : Bool := false
  ascii : Bool := false
deriving DecidableEq, Repr

/-- A group: its name and, once it is closed, its width. -/
structure GroupEntry where
  name : Option Text
  width : Option (Nat × Option Nat)

/-- What a reader knows at a place of the written pattern. -/
structure ReaderState where
  rest : Text
  position : Nat
  options : Options := {}
  groups : List GroupEntry := []
  /-- How many groups there were where the outermost look-behind began. -/
  lookbehind : Option Nat := none
  /-- Whether some look-behind has no fixed width. -/
  loose : Bool := false
  /-- The groups by number that a condition asks for, with the position. -/
  asked : List (Nat × Nat) := []

/-- A step of reading. -/
abbrev Reader := StateT ReaderState (Except PatternFault)

namespace Reader

/-- Fails at the position `back` characters before the place. -/
def fail {α : Type} (problem : PatternProblem) (back : Nat := 0) : Reader α := do
  throw (.malformed problem ((← get).position - back))

/-- Moves on by `n` characters. A lone backslash at the end is never a place to stop at. -/
def advance (n : Nat) : Reader Unit := do
  let s ← get
  let rest := s.rest.drop n
  set { s with rest := rest, position := s.position + n }
  if rest = ['\\'] then fail .escapeAtEnd

/-- The next character, or with a backslash the next two. -/
def peek : Reader Text := do
  return match (← get).rest with
    | '\\' :: c :: _ => ['\\', c]
    | c :: _ => [c]
    | [] => []

/-- Takes what `peek` shows. -/
def token : Reader Text := do
  let t ← peek
  advance t.length
  return t

/-- Takes a character if it is the next. -/
def accept (c : Char) : Reader Bool := do
  if (← get).rest.head? = some c then
    advance 1
    return true
  return false

/-- Takes up to `n` characters of a kind. -/
def takeUpTo (n : Nat) (kind : Char → Bool) : Reader Text := do
  let t := ((← get).rest.take n).takeWhile kind
  advance t.length
  return t

/-- What stands before a character. A backslash hides the character behind it; a lone one at the
end counts as a stop. -/
def before (stop : Char) : Text → Text
  | [] | ['\\'] => []
  | '\\' :: c :: rest => '\\' :: c :: before stop rest
  | c :: rest => if c = stop then [] else c :: before stop rest

/-- Takes everything up to a closing character, and that too. -/
def takeUntil (stop : Char) (what : String) : Reader Text := do
  let t := before stop (← get).rest
  advance t.length
  if (← get).rest.isEmpty then
    if t.isEmpty then fail (.missingName what.toList)
    fail (.unterminatedName stop) t.length
  advance 1
  if t.isEmpty then fail (.missingName what.toList) 1
  return t

/-! ## Escapes -/

/-- A letter. -/
def isLetter (c : Char) : Bool := isWordChar c && !isDecimalDigit c && c != '_'

/-- A digit of base eight. -/
def isOctal (c : Char) : Bool := '0' ≤ c && c ≤ '7'

/-- The characters with an escape of their own. -/
def control? : Char → Option Char
  | 'a' => some '\x07'
  | 'b' => some '\x08'
  | 'f' => some '\x0c'
  | 'n' => some '\n'
  | 'r' => some '\r'
  | 't' => some '\t'
  | 'v' => some '\x0b'
  | '\\' => some '\\'
  | _ => none

/-- The largest code point. -/
def lastCharacter : Char := Char.ofNat 0x10FFFF

/-- The items of a class with an escape of its own; only ASCII counts if so opted. -/
def category? (options : Options) : Char → Option (List ClassItem)
  | 'd' => some (if options.ascii then [.range '0' '9'] else [.digit])
  | 'D' => some (if options.ascii then [.range '\x00' '/', .range ':' lastCharacter]
      else [.notDigit])
  | 's' => some (if options.ascii then [.range '\t' '\r', .char ' '] else [.blank])
  | 'S' => some (if options.ascii then
      [.range '\x00' '\x08', .range '\x0e' '\x1f', .range '!' lastCharacter] else [.notBlank])
  | 'w' => some (if options.ascii then
      [.range '0' '9', .range 'A' 'Z', .char '_', .range 'a' 'z'] else [.word])
  | 'W' => some (if options.ascii then
      [.range '\x00' '/', .range ':' '@', .range '[' '^', .char '\x60', .range '\x7b' lastCharacter]
      else [.notWord])
  | _ => none

/-- A character by exactly `n` hexadecimal digits. -/
def hexEscape (escape : Text) (n : Nat) : Reader Char := do
  let ds ← takeUpTo n fun c => (hexValue? c).isSome
  let whole := escape ++ ds
  if ds.length ≠ n then fail (.incompleteEscape whole) whole.length
  let v := ofDigits 16 (ds.filterMap hexValue?)
  if 0x110000 ≤ v then fail (.badEscape whole) whole.length
  return Char.ofNat v

/-- A character by its name, of which none is known. -/
def namedEscape : Reader Char := do
  if !(← accept '{') then fail .missingBrace
  let name ← takeUntil '}' "character name"
  fail (.unknownCharacter name) (name.length + 4)

/-- A character by octal digits, of which `escape` has the first. -/
def octalEscape (escape : Text) : Reader Char := do
  let ds ← takeUpTo 2 isOctal
  let whole := escape ++ ds
  let v := ofDigits 8 ((whole.drop 1).map asciiDigitValue)
  if 0o377 < v then fail (.octalTooLarge whole) whole.length
  return Char.ofNat v

/-- The character of an escape that means the same everywhere. -/
def commonEscape (escape : Text) (c : Char) : Reader Char := do
  match c with
  | 'x' => hexEscape escape 2
  | 'u' => hexEscape escape 4
  | 'U' => hexEscape escape 8
  | 'N' => namedEscape
  | _ => if c.isAlpha then fail (.badEscape escape) escape.length else return c

/-- The items of an escape in a set, and the single character if it is one. -/
def setEscape (escape : Text) : Reader (List ClassItem × Option Char) := do
  let c := (escape.drop 1).head?.getD '\\'
  match control? c, category? (← get).options c with
  | some x, _ => return ([.char x], some x)
  | none, some items => return (items, none)
  | none, none =>
    let x ← if isOctal c then octalEscape escape
      else if isAsciiDigit c then fail (.badEscape escape) escape.length
      else commonEscape escape c
    return ([.char x], some x)

/-! ## Sets -/

/-- One member of a set: its text, its items, and its character if it is a single one. -/
def setMember (t : Text) : Reader (List ClassItem × Option Char) := do
  match t with
  | '\\' :: _ => setEscape t
  | c :: _ => return ([.char c], some c)
  | [] => return ([], none)

/-- The items of a set from its next member on; `here` is where the set begins. -/
def setItems (here : Nat) : Nat → List ClassItem → Reader (List ClassItem)
  | 0, _ => fail .unterminatedSet
  | fuel + 1, done => do
    let unfinished : Reader Unit := do fail .unterminatedSet ((← get).position - here)
    let t ← token
    if t.isEmpty then unfinished
    if t = [']'] ∧ !done.isEmpty then return done
    let (items, first) ← setMember t
    if ← accept '-' then
      let u ← token
      if u.isEmpty then unfinished
      if u = [']'] then return done ++ items ++ [.char '-']
      let (_, last) ← setMember u
      match first, last with
      | some a, some b =>
        if b.toNat < a.toNat then fail (.badRange t u) (t.length + 1 + u.length)
        setItems here fuel (done ++ [.range a b])
      | _, _ => fail (.badRange t u) (t.length + 1 + u.length)
    else setItems here fuel (done ++ items)

/-! ## Groups and options -/

/-- The group of a name and its number. -/
def groupNamed? (name : Text) : Reader (Option (Nat × GroupEntry)) := do
  return ((← get).groups.zipIdx 1).find? (fun (g, _) => g.name == some name) |>.map
    fun (g, i) => (i, g)

/-- Refuses a group that cannot be referred to from here. -/
def checkLookbehind (number : Nat) (closed : Bool) : Reader Unit := do
  match (← get).lookbehind with
  | none => return
  | some n =>
    if !closed then fail .openGroup
    if n < number then fail .groupInSameLookbehind

/-- Opens a group; `back` is where a complaint about its name points. -/
def openGroup (name : Option Text) : Reader Nat := do
  let number := (← get).groups.length + 1
  if let some n := name then
    if let some (previous, _) ← groupNamed? n then
      fail (.redefinition n number previous) (n.length + 1)
  modify fun s => { s with groups := s.groups ++ [⟨name, none⟩] }
  return number

/-- The width of the group with a number. -/
def groupWidth : Reader (Nat × Option Nat) := do
  return ((← get).groups.findSome? (·.width)).getD (0, none)

/-- Closes a group. -/
def closeGroup (number : Nat) (body : Pattern) : Reader Unit := do
  let w := body.width (← groupWidth)
  modify fun s =>
    { s with groups := s.groups.modify (number - 1) fun g => { g with width := some w } }

/-- Whether a text can be the name of a group. -/
def isGroupName : Text → Bool
  | [] => false
  | c :: rest => isWordChar c && !isDecimalDigit c && rest.all isWordChar

/-- Refuses a bad name of a group that was just read. -/
def checkGroupName (name : Text) : Reader Unit := do
  if !isGroupName name then fail (.badGroupName name) (name.length + 1)

/-- An option by its letter. -/
inductive Flag where
  | ignoreCase | locale | multiline | dotAll | verbose | ascii | template | unicode
deriving DecidableEq

/-- The option of a letter. -/
def flag? : Char → Option Flag
  | 'i' => some .ignoreCase
  | 'L' => some .locale
  | 'm' => some .multiline
  | 's' => some .dotAll
  | 'x' => some .verbose
  | 'a' => some .ascii
  | 't' => some .template
  | 'u' => some .unicode
  | _ => none

/-- Whether an option says which alphabet counts. -/
def Flag.isAlphabet : Flag → Bool
  | .locale | .ascii | .unicode => true
  | _ => false

/-- The options with one turned on or off. -/
def Options.with (options : Options) (on : Bool) : Flag → Options
  | .ignoreCase => { options with ignoreCase := on }
  | .multiline => { options with multiline := on }
  | .dotAll => { options with dotAll := on }
  | .verbose => { options with verbose := on }
  | .ascii => { options with ascii := on }
  | .unicode => { options with ascii := if on then false else options.ascii }
  | .locale | .template => options

/-- Reads letters of options from the one given on, up to a character of `stops`. Yields the
options and the stop. -/
def flagLetters (turnOn : Bool) (stops : List Char) (expected : String) :
    Nat → Char → List Flag → Reader (List Flag × Char)
  | 0, _, _ => fail .unknownFlag
  | fuel + 1, c, done => do
    match flag? c with
    | none => fail .unknownFlag
    | some f =>
      if turnOn ∧ f = .locale then
        fail (.flags "cannot use 'L' flag with a str pattern".toList)
      if !turnOn ∧ f.isAlphabet then
        fail (.flags "cannot turn off flags 'a', 'u' and 'L'".toList)
      let done := done ++ [f]
      if turnOn ∧ f.isAlphabet ∧ done.any (fun g => g.isAlphabet && g != f) then
        fail (.flags "flags 'a', 'u' and 'L' are incompatible".toList)
      match ← token with
      | [] => fail (.flagsUnfinished expected.toList)
      | d :: more =>
        if more.isEmpty && stops.contains d then return (done, d)
        if (flag? d).isNone || !more.isEmpty then
          if isLetter d then fail .unknownFlag 1
          else fail (.flagsUnfinished expected.toList) (1 + more.length)
        flagLetters turnOn stops expected fuel d done

/-- Reads options behind an opening parenthesis and question mark. Yields the options to turn on
and off, or none if the options are for the whole pattern. -/
def flags (first : Char) : Reader (List Flag × Option (List Flag)) := do
  let fuel := (← get).rest.length + 1
  let (on, stop) ← if first = '-' then pure ([], '-')
    else flagLetters true [')', '-', ':'] "-, : or )" fuel first []
  if stop = ')' then return (on, none)
  if on.contains .template then fail (.flags "cannot turn on global flag".toList) 1
  if stop = ':' then return (on, some [])
  match ← token with
  | [] => fail (.flagsUnfinished "flag".toList)
  | c :: more =>
    if (flag? c).isNone || !more.isEmpty then
      if isLetter c then fail .unknownFlag 1
      else fail (.flagsUnfinished "flag".toList) (1 + more.length)
    let (off, _) ← flagLetters false [':'] ":" fuel c []
    if off.contains .template then fail (.flags "cannot turn off global flag".toList) 1
    if on.any off.contains then fail (.flags "flag turned on and off".toList) 1
    return (on, some off)

/-! ## Items -/

/-- Whether an item can be repeated, and if not, why. -/
inductive ItemKind where
  | plain | anchor | repetition
deriving DecidableEq

/-- An item of a sequence. -/
structure Item where
  pattern : Pattern
  kind : ItemKind := .plain

/-- One character of a class as an item. -/
def classItem (items : List ClassItem) (negated ignoreCase : Bool) : Item where
  pattern := .one { items := items, negated := negated, ignoreCase := ignoreCase }

/-- A character under the options in force. -/
def charItem (c : Char) : Reader Item := do
  return classItem [.char c] false (← get).options.ignoreCase

/-- A reference to a group by number. -/
def reference (escape : Text) (number : Nat) : Reader Item := do
  let s ← get
  match s.groups[number - 1]? with
  | some g =>
    if g.width.isNone then fail .openGroup escape.length
    checkLookbehind number true
    return { pattern := .again s.options.ignoreCase }
  | none => fail (.invalidReference number) (escape.length - 1)

/-- An escape outside sets. -/
def escapeItem (escape : Text) : Reader Item := do
  let c := (escape.drop 1).head?.getD '\\'
  let options := (← get).options
  let anchored (a : Anchor) : Reader Item := return { pattern := .anchor a, kind := .anchor }
  match c with
  | 'A' => anchored .textStart
  | 'Z' => anchored .textEnd
  | 'b' => anchored .wordEdge
  | 'B' => anchored .notWordEdge
  | _ =>
    match category? options c, control? c with
    | some items, _ => return classItem items false false
    | none, some x => charItem x
    | none, none =>
      if c = '0' then charItem (← octalEscape escape)
      else if isAsciiDigit c then
        let more ← takeUpTo 1 isAsciiDigit
        let two := escape ++ more
        if !more.isEmpty && (two.drop 1).all isOctal then
          let third ← takeUpTo 1 isOctal
          if !third.isEmpty then
            let whole := two ++ third
            let v := ofDigits 8 ((whole.drop 1).map asciiDigitValue)
            if 0o377 < v then fail (.octalTooLarge whole) whole.length
            return ← charItem (Char.ofNat v)
        reference two (ofDigits 10 ((two.drop 1).map asciiDigitValue))
      else charItem (← commonEscape escape c)

/-- The set behind an opening bracket. -/
def setItem : Reader Item := do
  let s ← get
  let here := s.position - 1
  let negated ← accept '^'
  let items ← setItems here (s.rest.length + 1) []
  return classItem items negated s.options.ignoreCase

/-- The bounds of a repetition behind an opening brace, if there is one. -/
def bounds : Reader (Option (Nat × Option Nat)) := do
  let s ← get
  if s.rest.head? = some '}' then return none
  let lo ← takeUpTo s.rest.length isAsciiDigit
  let comma ← accept ','
  let hi ← if comma then takeUpTo s.rest.length isAsciiDigit else pure lo
  if !(← accept '}') then
    set s
    return none
  let number (t : Text) : Nat := ofDigits 10 (t.map asciiDigitValue)
  let tooLarge (t : Text) : Bool := 4294967295 ≤ number t
  if tooLarge lo || tooLarge hi then throw .tooManyRepeats
  if !hi.isEmpty && number hi < number lo then
    fail .minAboveMax ((← get).position - s.position)
  return some (number lo, if hi.isEmpty then none else some (number hi))

/-- Repeats the last of the items; `here` is the position behind the first sign of repetition. -/
def repeated (items : List Item) (here : Nat) (lo : Nat) (hi : Option Nat) :
    Reader (List Item) := do
  let back := (← get).position - here + 1
  match items.getLast? with
  | none => fail .nothingToRepeat back
  | some item =>
    match item.kind with
    | .anchor => fail .nothingToRepeat back
    | .repetition => fail .multipleRepeat back
    | .plain =>
      let p ←
        if ← accept '?' then pure (Pattern.many lo hi false item.pattern)
        else if ← accept '+' then pure (.atomic (.many lo hi true item.pattern))
        else pure (.many lo hi true item.pattern)
      return items.dropLast ++ [{ pattern := p, kind := .repetition }]

/-- Demands the closing parenthesis of a group that began at `start`. -/
def close (start : Nat) : Reader Unit := do
  if !(← accept ')') then fail .unterminatedGroup ((← get).position - start)

/-- The pattern of items in a row. -/
def ofItems (items : List Item) : Pattern := seqs (items.map (·.pattern))

/-- A reference to a group by name. -/
def namedReference : Reader Item := do
  let name ← takeUntil ')' "group name"
  checkGroupName name
  match ← groupNamed? name with
  | none => fail (.unknownGroup name) (name.length + 1)
  | some (number, g) =>
    if g.width.isNone then fail .openGroup (name.length + 1)
    checkLookbehind number true
    return { pattern := .again (← get).options.ignoreCase }

/-- Skips a comment up to its closing parenthesis. -/
def comment (start : Nat) : Reader Unit := do
  advance (before ')' (← get).rest).length
  if !(← accept ')') then fail .unterminatedComment ((← get).position - start)

/-- The group that a condition asks for. -/
def conditionGroup : Reader Unit := do
  let name ← takeUntil ')' "group name"
  if isGroupName name then
    match ← groupNamed? name with
    | none => fail (.unknownGroup name) (name.length + 1)
    | some (number, g) => checkLookbehind number g.width.isSome
  else
    match intOfText? name with
    | some (.ofNat n) =>
      if n = 0 then fail .badGroupNumber (name.length + 1)
      modify fun s => { s with asked := s.asked ++ [(n, s.position - name.length - 1)] }
      checkLookbehind n (((← get).groups[n - 1]?).any (·.width.isSome))
    | _ => fail (.badGroupName name) (name.length + 1)

mutual

/-- Reads choices up to the end of the group or of the pattern. -/
def choices : Nat → Bool → Reader (List Pattern)
  | 0, _ => return []
  | fuel + 1, first => do
    let items ← sequence fuel first []
    if ← accept '|' then return ofItems items :: (← choices fuel false)
    return [ofItems items]

/-- Reads a group behind its opening parenthesis, which is at `start`. Yields no item for what
only sets options or says nothing. -/
def groupItem : Nat → Bool → Nat → Reader (Option Item)
  | 0, _, _ => return none
  | fuel + 1, first, start => do
    let capture (name : Option Text) : Reader (Option Item) := do
      let number ← openGroup name
      let body := alts (← choices fuel false)
      close start
      closeGroup number body
      return some { pattern := .group body }
    if !(← accept '?') then return ← capture none
    match ← token with
    | [] => fail .patternEnds
    | ['P'] =>
      if ← accept '<' then
        let name ← takeUntil '>' "group name"
        checkGroupName name
        capture (some name)
      else if ← accept '=' then return some (← namedReference)
      else
        match ← token with
        | [] => fail .patternEnds
        | t => fail (.unknownExtension ('P' :: t)) (t.length + 2)
    | [':'] => do
      let body := alts (← choices fuel false)
      close start
      return some { pattern := body }
    | ['>'] => do
      let body := alts (← choices fuel false)
      close start
      return some { pattern := .atomic body }
    | ['#'] => do
      comment start
      return none
    | ['='] => return some (← lookAhead fuel false start)
    | ['!'] => return some (← lookAhead fuel true start)
    | ['<'] =>
      match ← token with
      | [] => fail .patternEnds
      | ['='] => return some (← lookBehind fuel false start)
      | ['!'] => return some (← lookBehind fuel true start)
      | t => fail (.unknownExtension ('<' :: t)) (t.length + 2)
    | ['('] => do
      conditionGroup
      let yes := ofItems (← sequence fuel false [])
      let no ← if ← accept '|' then pure (ofItems (← sequence fuel false [])) else pure .empty
      if (← get).rest.head? = some '|' then fail .tooManyBranches
      close start
      return some { pattern := .ifGroup yes no }
    | t =>
      match t with
      | [c] =>
        if (flag? c).isSome || c = '-' then
          let (on, off?) ← flags c
          let outer := (← get).options
          let turned := on.foldl (fun o f => Options.with o true f) outer
          match off? with
          | none =>
            if !first then fail .lateFlags ((← get).position - start)
            modify fun s => { s with options := turned }
            return none
          | some off =>
            let inner := off.foldl (fun o f => Options.with o false f) turned
            modify fun s => { s with options := inner }
            let body := alts (← choices fuel false)
            close start
            modify fun s => { s with options := outer }
            return some { pattern := body }
        else fail (.unknownExtension t) (t.length + 1)
      | _ => fail (.unknownExtension t) (t.length + 1)

/-- Reads the body of a look-ahead. -/
def lookAhead : Nat → Bool → Nat → Reader Item
  | 0, _, _ => fail .unterminatedGroup
  | fuel + 1, negated, start => do
    let body := alts (← choices fuel false)
    close start
    return { pattern := .ahead negated body }

/-- Reads the body of a look-behind. -/
def lookBehind : Nat → Bool → Nat → Reader Item
  | 0, _, _ => fail .unterminatedGroup
  | fuel + 1, negated, start => do
    let outer := (← get).lookbehind
    modify fun s => { s with lookbehind := some (outer.getD s.groups.length) }
    let body := alts (← choices fuel false)
    modify fun s => { s with lookbehind := outer }
    close start
    let (lo, hi) := body.width (← groupWidth)
    if hi ≠ some lo then modify fun s => { s with loose := true }
    return { pattern := .behind negated lo body }

/-- Reads items up to a bar, a closing parenthesis or the end. `first` says that nothing at all
was read before. -/
def sequence : Nat → Bool → List Item → Reader (List Item)
  | 0, _, items => return items
  | fuel + 1, first, items => do
    let options := (← get).options
    let t ← peek
    if t = [] ∨ t = ['|'] ∨ t = [')'] then return items
    advance t.length
    let here := (← get).position
    let more (item : Item) : Reader (List Item) := sequence fuel false (items ++ [item])
    let anchored (a : Anchor) : Reader (List Item) := more { pattern := .anchor a, kind := .anchor }
    match t with
    | '\\' :: _ :: _ => more (← escapeItem t)
    | ['['] => more (← setItem)
    | ['.'] => more (classItem (if options.dotAll then [] else [.char '\n']) true false)
    | ['^'] => anchored (if options.multiline then .lineStart else .textStart)
    | ['$'] => anchored (if options.multiline then .lineEnd else .lastLineEnd)
    | ['*'] => do sequence fuel false (← repeated items here 0 none)
    | ['+'] => do sequence fuel false (← repeated items here 1 none)
    | ['?'] => do sequence fuel false (← repeated items here 0 (some 1))
    | ['{'] =>
      match ← bounds with
      | some (lo, hi) => do sequence fuel false (← repeated items here lo hi)
      | none => more (← charItem '{')
    | ['('] =>
      match ← groupItem fuel (first && items.isEmpty) (here - 1) with
      | some item => more item
      | none => sequence fuel first items
    | c :: _ =>
      if options.verbose && (isBlank c && c.toNat < 28 || c = ' ') then sequence fuel first items
      else if options.verbose && c = '#' then do
        advance (before '\n' (← get).rest).length
        let _ ← accept '\n'
        sequence fuel first items
      else more (← charItem c)
    | [] => return items

end

end Reader

/-- A pattern as read, with the names of its groups. -/
structure Written where
  pattern : Pattern
  groupNames : List (Option Text)

/-- The pattern that a text writes. -/
def read (t : Text) : Except PatternFault Written := do
  let steps : Reader Pattern := do
    Reader.advance 0
    let body := alts (← Reader.choices (3 * t.length + 3) true)
    if !(← get).rest.isEmpty then Reader.fail .unbalanced
    return body
  let (pattern, s) ← steps.run { rest := t, position := 0 }
  match s.asked.find? fun (n, _) => s.groups.length < n with
  | some (n, position) => throw (.malformed (.invalidReference n) position)
  | none => if s.loose then throw .looseLookbehind
  return ⟨pattern, s.groups.map (·.name)⟩

end EnvAudit.Pattern
