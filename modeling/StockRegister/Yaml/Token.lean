import StockRegister.Number.Numeral

/-!
# YAML tokens

`TokenStream.ofText` splits a YAML text into tokens. Besides marks and scalars there are
tokens that no character stands for: the start of a block collection, when the indentation
grows, and its end, when it shrinks (`unwind`). Whether a scalar is a key is seen only at the
colon behind it, so the lexer remembers where a key might have started (`savePossibleKey`) and
puts the key mark there later.

A text that breaks off badly still has the tokens before that place, and a reader of these may
find another fault first. So a stream holds the tokens that are certain and the error behind
them.

Scalars are read by their style: plain, quoted in one of two ways, literal or folded. Line
breaks within a scalar are folded by the rules of its style. The text of a scalar is a list
of code points, because an escape may stand for half of a character.
-/

namespace StockRegister.Yaml

/-- Why a text is no document, or why a document has no value. -/
inductive YamlError where
  /-- The text, or a tag in it, breaks the rules of documents. -/
  | malformed
  /-- An escape names a code point that there is not. -/
  | badCodePoint
  /-- An escape names a number that is too large to be asked for a code point. -/
  | codePointTooLarge
  /-- A scalar that should be a number has no digits. -/
  | noDigits
  /-- A scalar that should be a number is none. -/
  | badNumber
  /-- A part of a number is too large. -/
  | tooLarge
  /-- A scalar that should be a truth value is none. -/
  | badWord
  /-- A scalar that should be a date has not the form of one. -/
  | noDate
  /-- A date is not in the calendar. -/
  | badDate
  /-- A collection stands where a text must. -/
  | notText
  /-- Collections are nested too deeply. -/
  | tooDeep
  /-- A value is looked for in itself. -/
  | endless
deriving DecidableEq

/-- A token of a YAML text. -/
inductive Token where
  | streamEnd
  | yamlDirective (major : Nat)
  | tagDirective (handle : String) (start : String)
  | otherDirective
  | documentStart
  | documentEnd
  | blockSequenceStart
  | blockMappingStart
  | blockEnd
  | flowSequenceStart
  | flowSequenceEnd
  | flowMappingStart
  | flowMappingEnd
  | key
  | value
  | blockEntry
  | flowEntry
  | alias (name : String)
  | anchor (name : String)
  | tag (handle : Option String) (suffix : String)
  | scalar (text : List Nat) (plain : Bool)
deriving DecidableEq

/-- A place where a key might have started. -/
structure PossibleKey where
  level : Int
  token : Nat
  required : Bool
  offset : Nat
  line : Nat
  column : Int

/-- What the lexer knows: the characters left, the place of the first of them, the tokens so
far, the indentation, the depth of flow collections, and the places of possible keys. -/
structure Lexer where
  rest : List Char
  offset : Nat := 0
  line : Nat := 0
  column : Int := 0
  tokens : Array Token := #[]
  indent : Int := -1
  indents : List Int := []
  level : Int := 0
  keyAllowed : Bool := true
  possible : List PossibleKey := []

/-- A step of the lexer. -/
abbrev Lex := StateT Lexer (Except YamlError)

/-! ## Characters -/

/-- The character that stands for the end of the text. -/
def endMark : Char := '\x00'

/-- A line break. -/
def isBreak (c : Char) : Bool :=
  c == '\n' || c == '\r' || c == '\u0085' || c == '\u2028' || c == '\u2029'

/-- A line break or the end. -/
def isBreakOrEnd (c : Char) : Bool := c == endMark || isBreak c

/-- A space, a line break or the end. -/
def isSpaceOrEnd (c : Char) : Bool := c == ' ' || isBreakOrEnd c

/-- A space, a tab, a line break or the end. -/
def isBlankOrEnd (c : Char) : Bool := c == '\t' || isSpaceOrEnd c

/-- A character of a name. -/
def isNameChar (c : Char) : Bool := c.isAlphanum || c == '-' || c == '_'

/-- A character of a tag, the percent sign apart. -/
def isTagChar (c : Char) : Bool := c.isAlphanum || "-;/?:@&=+$,_.!~*'()[]".toList.contains c

/-- A character that may stand in a YAML text. -/
def isAllowed (c : Char) : Bool :=
  let n := c.toNat
  n == 9 || n == 10 || n == 13 || (0x20 ≤ n && n ≤ 0x7E) || n == 0x85 || (0xA0 ≤ n && n ≤ 0xFFFD) ||
    0x10000 ≤ n

/-- The characters without a byte order mark at their head. -/
def withoutMark : List Char → List Char
  | '\uFEFF' :: rest => rest
  | cs => cs

/-- Line breaks of two kinds brought to one. -/
def unifyBreaks : List Char → List Char
  | '\r' :: '\n' :: cs => '\n' :: unifyBreaks cs
  | '\r' :: cs => '\n' :: unifyBreaks cs
  | c :: cs => c :: unifyBreaks cs
  | [] => []

namespace Lexer

/-! ## Moving on -/

/-- The character `k` places ahead. -/
def peekAt (s : Lexer) (k : Nat) : Char := s.rest.getD k endMark

/-- Step over one character. A byte order mark takes no column. -/
def step (s : Lexer) : Lexer :=
  match s.rest with
  | [] => s
  | c :: rest =>
    let s := { s with rest := rest, offset := s.offset + 1 }
    if isBreak c then { s with line := s.line + 1, column := 0 }
    else if c == '\uFEFF' then s
    else { s with column := s.column + 1 }

/-- Step over `n` characters. -/
def steps : Nat → Lexer → Lexer
  | 0, s => s
  | n + 1, s => steps n s.step

end Lexer

/-- The character `k` places ahead. -/
def peek (k : Nat := 0) : Lex Char := do return (← get).peekAt k

/-- Step over `n` characters. -/
def forward (n : Nat := 1) : Lex Unit := modify (Lexer.steps n)

/-- Give up. -/
def malformed {α : Type} : Lex α := throw .malformed

/-- Step over the characters at the head that `p` accepts, and give them out. -/
def takeChars (p : Char → Bool) : Lex (List Char) := do
  let taken := (← get).rest.takeWhile p
  forward taken.length
  return taken

/-- Code points of characters. -/
def codes (cs : List Char) : List Nat := cs.map Char.toNat

/-- Step over a line break, if there is one. All breaks but the two separators count as a line
feed. -/
def takeBreak : Lex (List Char) := do
  let c ← peek
  if c == '\n' || c == '\r' || c == '\u0085' then
    forward
    return ['\n']
  else if c == '\u2028' || c == '\u2029' then
    forward
    return [c]
  else return []

/-- Whether a mark of a document stands here: three dashes or points, and then a blank. -/
def atDocumentMark : Lex Bool := do
  let start := (← get).rest.take 3
  let behind ← peek 3
  return (start == ['-', '-', '-'] || start == ['.', '.', '.']) && isBlankOrEnd behind

/-- Step over a comment. -/
def skipComment : Lex Unit := do
  if (← peek) == '#' then
    let _ ← takeChars (!isBreakOrEnd ·)

/-- Step over spaces, a comment and a line break, and nothing else. -/
def skipRestOfLine : Lex Unit := do
  let _ ← takeChars (· == ' ')
  skipComment
  if !isBreakOrEnd (← peek) then malformed
  let _ ← takeBreak

/-- Step over everything up to the next token; behind a line break a key may start. -/
def skipToToken : Nat → Lex Unit
  | 0 => pure ()
  | fuel + 1 => do
    let _ ← takeChars (· == ' ')
    skipComment
    if !(← takeBreak).isEmpty then
      if (← get).level == 0 then modify ({ · with keyAllowed := true })
      skipToToken fuel

/-! ## Indentation and keys -/

/-- Add a token. -/
def emit (t : Token) : Lex Unit := modify fun s => { s with tokens := s.tokens.push t }

/-- End the block collections that are indented more than `column`. -/
def unwindTo (column : Int) : List Int → Lexer → Lexer
  | [], s => s
  | outer :: more, s =>
    if column < s.indent then
      unwindTo column more
        { s with tokens := s.tokens.push .blockEnd, indent := outer, indents := more }
    else s

/-- End the block collections that the column is outside of. -/
def unwind (column : Int) : Lex Unit :=
  modify fun s => if s.level != 0 then s else unwindTo column s.indents s

/-- Start a block collection at a column, if it is indented more than the last one. -/
def growIndent (column : Int) : Lex Bool := do
  let s ← get
  if s.indent < column then
    set { s with indents := s.indent :: s.indents, indent := column }
    return true
  else return false

/-- Forget the possible key of the present level; one that must be a key is an error. -/
def removePossibleKey : Lex Unit := do
  let s ← get
  if s.possible.any fun k => k.level == s.level && k.required then malformed
  set { s with possible := s.possible.filter (·.level != s.level) }

/-- Remember that a key may start here. -/
def savePossibleKey : Lex Unit := do
  let s ← get
  let required := s.level == 0 && s.indent == s.column
  if s.keyAllowed then
    removePossibleKey
    let k : PossibleKey := ⟨s.level, s.tokens.size, required, s.offset, s.line, s.column⟩
    modify fun s => { s with possible := k :: s.possible }

/-- Forget the possible keys that are on an earlier line or too far behind. -/
def dropStaleKeys : Lex Unit := do
  let s ← get
  let stale (k : PossibleKey) : Bool := k.line != s.line || 1024 < s.offset - k.offset
  if s.possible.any fun k => stale k && k.required then malformed
  set { s with possible := s.possible.filter (!stale ·) }

/-- Allow or forbid a key behind the next token. -/
def allowKey (b : Bool) : Lex Unit := modify ({ · with keyAllowed := b })

/-! ## Names and tags -/

/-- A name of at least one character. -/
def takeName : Lex String := do
  let name ← takeChars isNameChar
  if name.isEmpty then malformed
  return String.ofList name

/-- The name of an anchor or an alias. -/
def takeAnchorName : Lex String := do
  forward
  let name ← takeName
  let c ← peek
  if isBlankOrEnd c || "?:,]\x7d%@\x60".toList.contains c then return name
  malformed

/-- The bytes of escapes `%XX`, `fuel` of them at most. -/
def takeEscapedBytes : Nat → Lex (List UInt8)
  | 0 => pure []
  | fuel + 1 => do
    if (← peek) != '%' then return []
    match Text.hexDigit? (← peek 1), Text.hexDigit? (← peek 2) with
    | some a, some b =>
      forward 3
      let more ← takeEscapedBytes fuel
      return (a * 16 + b).toUInt8 :: more
    | _, _ => malformed

/-- The characters of a tag, `fuel` pieces at most. -/
def takeTagPieces : Nat → Lex (List Char)
  | 0 => pure []
  | fuel + 1 => do
    let plain ← takeChars isTagChar
    if (← peek) == '%' then
      let bytes ← takeEscapedBytes fuel
      match String.fromUTF8? ⟨bytes.toArray⟩ with
      | some s => return plain ++ s.toList ++ (← takeTagPieces fuel)
      | none => malformed
    else return plain

/-- A tag text of at least one character. -/
def takeTagText : Lex String := do
  let text ← takeTagPieces ((← get).rest.length + 1)
  if text.isEmpty then malformed
  return String.ofList text

/-- A handle: an exclamation mark, or a name between two of them. -/
def takeHandle : Lex String := do
  if (← peek) != '!' then malformed
  forward
  if (← peek) == ' ' then return "!"
  let name ← takeChars isNameChar
  if (← peek) == '!' then
    forward
    return String.ofList ('!' :: name ++ ['!'])
  else malformed

/-- A tag. -/
def takeTag : Lex Token := do
  let c ← peek 1
  let token ←
    if c == '<' then do
      forward 2
      let suffix ← takeTagText
      if (← peek) != '>' then malformed
      forward
      pure (Token.tag none suffix)
    else if isBlankOrEnd c then do
      forward
      pure (Token.tag none "!")
    else do
      let word := ((← get).rest.drop 1).takeWhile (!isSpaceOrEnd ·)
      if word.contains '!' then
        let handle ← takeHandle
        pure (Token.tag (some handle) (← takeTagText))
      else
        forward
        pure (Token.tag (some "!") (← takeTagText))
  if !isSpaceOrEnd (← peek) then malformed
  return token

/-- A number of a version, which may not have more digits than any integer. -/
def takeVersionNumber : Lex Nat := do
  let ds ← takeChars Char.isDigit
  if ds.isEmpty then malformed
  if maxIntegerDigits < ds.length then throw .badNumber
  return Text.ofDigits 10 (ds.filterMap Text.asciiDigit?)

/-- A directive. -/
def takeDirective : Lex Token := do
  forward
  let name ← takeName
  if !isSpaceOrEnd (← peek) then malformed
  let token ←
    if name == "YAML" then do
      let _ ← takeChars (· == ' ')
      let major ← takeVersionNumber
      if (← peek) != '.' then malformed
      forward
      let _ ← takeVersionNumber
      if !isSpaceOrEnd (← peek) then malformed
      pure (Token.yamlDirective major)
    else if name == "TAG" then do
      let _ ← takeChars (· == ' ')
      let handle ← takeHandle
      if (← peek) != ' ' then malformed
      let _ ← takeChars (· == ' ')
      let start ← takeTagText
      if !isSpaceOrEnd (← peek) then malformed
      pure (Token.tagDirective handle start)
    else do
      let _ ← takeChars (!isBreakOrEnd ·)
      pure Token.otherDirective
  skipRestOfLine
  return token

/-! ## Block scalars -/

/-- The marks behind the sign of a block scalar: what becomes of the line breaks at its end,
and the indentation if it is given. -/
def takeBlockMarks : Lex (Option Bool × Option Nat) := do
  let takeChomp : Lex (Option Bool) := do
    let c ← peek
    if c == '+' || c == '-' then
      forward
      return some (c == '+')
    else return none
  let takeIncrement : Lex (Option Nat) := do
    match Text.asciiDigit? (← peek) with
    | none => return none
    | some 0 => malformed
    | some n =>
      forward
      return some n
  let first ← takeChomp
  let increment ← takeIncrement
  let chomp ← if first.isNone && increment.isSome then takeChomp else pure first
  if !isSpaceOrEnd (← peek) then malformed
  return (chomp, increment)

/-- The line breaks before a block scalar and the largest indentation among its first lines. -/
def takeLeadingBreaks : Nat → Int → Lex (List Char × Int)
  | 0, widest => return ([], widest)
  | fuel + 1, widest => do
    let c ← peek
    if c == ' ' then
      forward
      takeLeadingBreaks fuel (max widest (← get).column)
    else if isBreak c then
      let br ← takeBreak
      let (more, widest) ← takeLeadingBreaks fuel widest
      return (br ++ more, widest)
    else return ([], widest)

/-- Step over the indentation of a line, up to a column. -/
def skipIndent (indent : Int) : Lex Unit := do
  let s ← get
  let spaces := s.rest.takeWhile (· == ' ')
  forward (min spaces.length (indent - s.column).toNat)

/-- The line breaks between the lines of a block scalar. -/
def takeBlockBreaks (indent : Int) : Nat → Lex (List Char)
  | 0 => return []
  | fuel + 1 => do
    skipIndent indent
    if isBreak (← peek) then
      let br ← takeBreak
      return br ++ (← takeBlockBreaks indent fuel)
    else return []

/-- The lines of a block scalar, with the last line break and the breaks behind it. -/
def takeBlockLines (folded : Bool) (indent : Int) :
    Nat → List Char → Lex (List Char × List Char × List Char)
  | 0, breaks => return ([], [], breaks)
  | fuel + 1, breaks => do
    if (← get).column != indent || (← peek) == endMark then return ([], [], breaks)
    let first ← peek
    let text ← takeChars (!isBreakOrEnd ·)
    let br ← takeBreak
    let next ← takeBlockBreaks indent (fuel + 1)
    let c ← peek
    if (← get).column == indent && c != endMark then
      let flush (d : Char) : Bool := d != ' ' && d != '\t'
      let joint :=
        if folded && br == ['\n'] && flush first && flush c then
          if next.isEmpty then [' '] else []
        else br
      let (more, last, tail) ← takeBlockLines folded indent fuel next
      return (breaks ++ text ++ joint ++ more, last, tail)
    else return (breaks ++ text, br, next)

/-- A literal or folded scalar. -/
def takeBlockScalar (folded : Bool) : Lex Token := do
  forward
  let (chomp, increment) ← takeBlockMarks
  skipRestOfLine
  let least := max 1 ((← get).indent + 1)
  let fuel := (← get).rest.length + 1
  let (breaks, indent) ← match increment with
    | none => do
      let (breaks, widest) ← takeLeadingBreaks fuel 0
      pure (breaks, max least widest)
    | some n => do
      let indent := least + n - 1
      pure (← takeBlockBreaks indent fuel, indent)
  let (text, last, tail) ← takeBlockLines folded indent fuel breaks
  let ending := match chomp with
    | some false => []
    | none => last
    | some true => last ++ tail
  return .scalar (codes (text ++ ending)) false

/-! ## Quoted scalars -/

/-- The code point of an escape that is one character behind the backslash. -/
def escapeCode? : Char → Option Nat
  | '0' => some 0
  | 'a' => some 7
  | 'b' => some 8
  | 't' => some 9
  | '\t' => some 9
  | 'n' => some 10
  | 'v' => some 11
  | 'f' => some 12
  | 'r' => some 13
  | 'e' => some 27
  | ' ' => some 32
  | '\x22' => some 34
  | '\\' => some 92
  | '/' => some 47
  | 'N' => some 0x85
  | '_' => some 0xA0
  | 'L' => some 0x2028
  | 'P' => some 0x2029
  | _ => none

/-- The number of hexadecimal digits behind an escape. -/
def escapeWidth? : Char → Option Nat
  | 'x' => some 2
  | 'u' => some 4
  | 'U' => some 8
  | _ => none

/-- The line breaks between the lines of a quoted scalar; a mark of a document ends it badly. -/
def takeQuotedBreaks : Nat → Lex (List Char)
  | 0 => return []
  | fuel + 1 => do
    if ← atDocumentMark then malformed
    let _ ← takeChars fun c => c == ' ' || c == '\t'
    if isBreak (← peek) then
      let br ← takeBreak
      return br ++ (← takeQuotedBreaks fuel)
    else return []

/-- How the breaks at the end of a line are folded: one becomes a space, of more the first is
dropped. -/
def foldBreaks (br breaks : List Char) : List Char :=
  if br != ['\n'] then br ++ breaks else if breaks.isEmpty then [' '] else breaks

/-- An escape, up to its last character. -/
def takeEscape (fuel : Nat) : Lex (List Nat) := do
  forward
  let c ← peek
  match escapeCode? c, escapeWidth? c with
  | some n, _ =>
    forward
    return [n]
  | none, some width =>
    forward
    match ((← get).rest.take width).mapM Text.hexDigit? with
    | some ds =>
      if ds.length < width then malformed
      let n := Text.ofDigits 16 ds
      if 0x7FFFFFFF < n then throw .codePointTooLarge
      if 0x10FFFF < n then throw .badCodePoint
      forward width
      return [n]
    | none => malformed
  | none, none =>
    if isBreak c then
      let _ ← takeBreak
      return codes (← takeQuotedBreaks fuel)
    else malformed

/-- The text of a quoted scalar up to its closing quote. -/
def takeQuotedText (double : Bool) : Nat → Lex (List Nat)
  | 0 => malformed
  | fuel + 1 => do
    let quote := if double then '\x22' else '\x27'
    let c ← peek
    if c == endMark then malformed
    else if c == quote then
      if !double && (← peek 1) == quote then
        forward 2
        return quote.toNat :: (← takeQuotedText double fuel)
      else
        forward
        return []
    else if double && c == '\\' then
      let n ← takeEscape fuel
      return n ++ (← takeQuotedText double fuel)
    else if c == ' ' || c == '\t' then
      let blanks ← takeChars fun c => c == ' ' || c == '\t'
      if isBreak (← peek) then takeQuotedText double fuel
      else return codes blanks ++ (← takeQuotedText double fuel)
    else if isBreak c then
      let br ← takeBreak
      let breaks ← takeQuotedBreaks fuel
      return codes (foldBreaks br breaks) ++ (← takeQuotedText double fuel)
    else
      forward
      return c.toNat :: (← takeQuotedText double fuel)

/-- A quoted scalar. -/
def takeQuoted (double : Bool) : Lex Token := do
  forward
  return .scalar (← takeQuotedText double ((← get).rest.length + 1)) false

/-! ## Plain scalars -/

/-- The number of characters up to the end of a piece of a plain scalar. -/
def plainLength (flow : Bool) : List Char → Nat
  | [] => 0
  | c :: rest =>
    let behind := rest.headD endMark
    let colon := c == ':' &&
      (isBlankOrEnd behind || (flow && ",[]\x7b\x7d".toList.contains behind))
    if isBlankOrEnd c || colon || (flow && ",?[]\x7b\x7d".toList.contains c) then 0
    else plainLength flow rest + 1

/-- The breaks between the lines of a plain scalar, or none at a mark of a document. -/
def takePlainBreaks : Nat → Lex (Option (List Char))
  | 0 => return some []
  | fuel + 1 => do
    let c ← peek
    if c == ' ' then
      forward
      takePlainBreaks fuel
    else if isBreak c then
      let br ← takeBreak
      if ← atDocumentMark then return none
      return (← takePlainBreaks fuel).map (br ++ ·)
    else return some []

/-- What stands between two pieces of a plain scalar; nothing if the scalar ends here. -/
def takePlainSpaces : Lex (List Char) := do
  let spaces ← takeChars (· == ' ')
  if isBreak (← peek) then
    let br ← takeBreak
    allowKey true
    if ← atDocumentMark then return []
    match ← takePlainBreaks ((← get).rest.length + 1) with
    | none => return []
    | some breaks => return foldBreaks br breaks
  else return spaces

/-- The text of a plain scalar behind the given spaces. -/
def takePlainText (indent : Int) : Nat → List Char → Lex (List Char)
  | 0, _ => return []
  | fuel + 1, spaces => do
    if (← peek) == '#' then return []
    let s ← get
    let length := plainLength (s.level != 0) s.rest
    if length == 0 then return []
    allowKey false
    let piece := s.rest.take length
    forward length
    let next ← takePlainSpaces
    let s ← get
    if next.isEmpty || (← peek) == '#' || (s.level == 0 && s.column < indent) then
      return spaces ++ piece
    return spaces ++ piece ++ (← takePlainText indent fuel next)

/-- A plain scalar. -/
def takePlain : Lex Token := do
  let s ← get
  let text ← takePlainText (s.indent + 1) (s.rest.length + 1) []
  return .scalar (codes text) true

/-! ## Tokens -/

/-- Take a mark of one character, or more. -/
def emitMark (t : Token) (width : Nat := 1) : Lex Unit := do
  forward width
  emit t

/-- What precedes a directive or a mark of a document. -/
def leaveDocument : Lex Unit := do
  unwind (-1)
  removePossibleKey
  allowKey false

/-- The start of a flow collection. -/
def openFlow (t : Token) : Lex Unit := do
  savePossibleKey
  modify fun s => { s with level := s.level + 1 }
  allowKey true
  emitMark t

/-- The end of a flow collection. -/
def closeFlow (t : Token) : Lex Unit := do
  removePossibleKey
  modify fun s => { s with level := s.level - 1 }
  allowKey false
  emitMark t

/-- In a block, a mark of an entry must stand where a key may start, and may start a
collection. -/
def enterBlock (start : Token) : Lex Unit := do
  let s ← get
  if s.level == 0 then
    if !s.keyAllowed then malformed
    if ← growIndent s.column then emit start

/-- The mark of an entry of a block sequence. -/
def takeEntryMark : Lex Unit := do
  enterBlock .blockSequenceStart
  allowKey true
  removePossibleKey
  emitMark .blockEntry

/-- The mark of a key. -/
def takeKeyMark : Lex Unit := do
  enterBlock .blockMappingStart
  allowKey ((← get).level == 0)
  removePossibleKey
  emitMark .key

/-- The mark of a value; a possible key before it turns out to be one. -/
def takeValueMark : Lex Unit := do
  let s ← get
  match s.possible.find? (·.level == s.level) with
  | some k =>
    set { s with
      possible := s.possible.filter (·.level != s.level)
      tokens := s.tokens.insertIdxIfInBounds k.token .key }
    if s.level == 0 then
      if ← growIndent k.column then
        modify fun s =>
          { s with tokens := s.tokens.insertIdxIfInBounds k.token .blockMappingStart }
    allowKey false
  | none =>
    enterBlock .blockMappingStart
    allowKey ((← get).level == 0)
    removePossibleKey
  emitMark .value

/-- A token that may be a key. -/
def takeKeyCandidate (take : Lex Token) : Lex Unit := do
  savePossibleKey
  allowKey false
  emit (← take)

/-- Whether a plain scalar may start here. -/
def startsPlain (flow : Bool) (c next : Char) : Bool :=
  if isBlankOrEnd c then false
  else if !"-?:,[]\x7b\x7d#&*!|>\x27\x22%@\x60".toList.contains c then true
  else !isBlankOrEnd next && (c == '-' || (!flow && (c == '?' || c == ':')))

/-- Take the next token, unless the text ends here. -/
def takeToken : Lex Bool := do
  skipToToken ((← get).rest.length + 1)
  dropStaleKeys
  unwind (← get).column
  let s ← get
  let c ← peek
  let next ← peek 1
  let flow := s.level != 0
  let atMark ← atDocumentMark
  if c == endMark then
    unwind (-1)
    removePossibleKey
    emit .streamEnd
    return false
  if c == '%' && s.column == 0 then
    leaveDocument
    emit (← takeDirective)
  else if s.column == 0 && atMark then
    leaveDocument
    emitMark (if c == '-' then .documentStart else .documentEnd) 3
  else if c == '[' then openFlow .flowSequenceStart
  else if c == '\x7b' then openFlow .flowMappingStart
  else if c == ']' then closeFlow .flowSequenceEnd
  else if c == '\x7d' then closeFlow .flowMappingEnd
  else if c == ',' then
    allowKey true
    removePossibleKey
    emitMark .flowEntry
  else if c == '-' && isBlankOrEnd next then takeEntryMark
  else if c == '?' && (flow || isBlankOrEnd next) then takeKeyMark
  else if c == ':' && (flow || isBlankOrEnd next) then takeValueMark
  else if c == '*' then takeKeyCandidate (return .alias (← takeAnchorName))
  else if c == '&' then takeKeyCandidate (return .anchor (← takeAnchorName))
  else if c == '!' then takeKeyCandidate takeTag
  else if (c == '|' || c == '>') && !flow then
    allowKey true
    removePossibleKey
    emit (← takeBlockScalar (c == '>'))
  else if c == '\x27' then takeKeyCandidate (takeQuoted false)
  else if c == '\x22' then takeKeyCandidate (takeQuoted true)
  else if startsPlain flow c next then takeKeyCandidate takePlain
  else malformed
  return true

/-- The tokens of a text, and the error behind them if the text breaks off badly. -/
structure TokenStream where
  tokens : List Token
  error : Option YamlError := none

/-- The tokens that are certain: those before the first place where a key might have started. -/
def Lexer.certain (s : Lexer) : List Token :=
  s.tokens.toList.take (s.possible.foldl (fun n k => min n k.token) s.tokens.size)

/-- Take tokens up to the end of the text, or up to an error. -/
def takeTokens : Nat → Lexer → TokenStream
  | 0, s => ⟨s.certain, some .malformed⟩
  | fuel + 1, s =>
    match dropStaleKeys.run s with
    | .error e => ⟨s.certain, some e⟩
    | .ok ((), s) =>
      match takeToken.run s with
      | .error e => ⟨s.certain, some e⟩
      | .ok (true, s) => takeTokens fuel s
      | .ok (false, s) => { tokens := s.tokens.toList }

/-- The tokens of a text. -/
def TokenStream.ofText (text : String) : TokenStream :=
  let cs := unifyBreaks text.toList
  if cs.all isAllowed then takeTokens (cs.length + 2) { rest := withoutMark cs }
  else { tokens := [], error := some .malformed }

end StockRegister.Yaml
