/-!
# Tokens of YAML

The first half of reading YAML cuts a text into tokens. Indentation becomes explicit here: a
collection whose entries are aligned in a column begins with a token of its own and ends with
`blockEnd`. That a scalar is a key is only seen at the colon after it, so the tokens for the
key are put in before it later. Errors are not told apart.
-/

namespace TraceRollup.Yaml

/-- A token. Directives and tags say nothing that matters here. -/
inductive Token
  | documentStart | documentEnd | directive
  | blockSequence | blockMapping | blockEnd
  | flowSequence | flowSequenceEnd | flowMapping | flowMappingEnd
  | entry | comma | key | value | tag
  | anchor (name : String)
  | alias (name : String)
  | scalar (plain : Bool) (text : String)
  deriving DecidableEq, Repr

/-! ### Characters -/

/-- A text may hold no other control characters. -/
def isAllowed (c : Char) : Bool :=
  let n := c.toNat
  c == '\t' || c == '\n' || c == '\r' || decide (0x20 ≤ n ∧ n ≤ 0x7E) || n == 0x85 ||
    decide (0xA0 ≤ n ∧ n ≤ 0xFFFD ∧ n ≠ 0xFEFF) || decide (0x10000 ≤ n)

def isBreak (c : Char) : Bool :=
  c == '\n' || c == '\r' || c == '\x85' || c == '\u2028' || c == '\u2029'

def isBlank (c : Char) : Bool := c == ' ' || c == '\t'

/-- The end of a word: a blank, a line break or the end of the text. -/
def endsWord : Option Char → Bool
  | none => true
  | some c => isBlank c || isBreak c

def isNameChar (c : Char) : Bool := c.isAlphanum || c == '_' || c == '-'
def isFlowMark (c : Char) : Bool := c == ',' || c == '[' || c == ']' || c == '{' || c == '}'

/-- Every line break but two stands for a line feed. -/
def breakText (c : Char) : Char := if c == '\u2028' || c == '\u2029' then c else '\n'

/-! ### Places in a text -/

structure Cursor where
  rest : List Char
  index : Nat := 0
  line : Nat := 0
  column : Nat := 0

namespace Cursor

def peek (c : Cursor) (n : Nat) : Option Char := c.rest[n]?

/-- Goes past one character; the two of a broken line count as one. -/
def skip (c : Cursor) : Cursor :=
  match c.rest with
  | [] => c
  | '\r' :: '\n' :: rest => ⟨rest, c.index + 2, c.line + 1, 0⟩
  | x :: rest =>
    if isBreak x then ⟨rest, c.index + 1, c.line + 1, 0⟩ else ⟨rest, c.index + 1, c.line, c.column + 1⟩

def skipMany (c : Cursor) : Nat → Cursor
  | 0 => c
  | n + 1 => c.skip.skipMany n

def atBreak (c : Cursor) : Bool := (c.peek 0).any isBreak
def atBlank (c : Cursor) : Bool := (c.peek 0).any isBlank

/-- At the beginning of a line with three times `mark` on it. -/
def atMarker (c : Cursor) (mark : Char) : Bool :=
  c.column == 0 && c.rest.take 3 == [mark, mark, mark] && endsWord (c.peek 3)

def atDocumentMarker (c : Cursor) : Bool := c.atMarker '-' || c.atMarker '.'

/-- Goes on while the characters satisfy `p` (`fuel` bounds their number). -/
def skipWhile (p : Char → Bool) : Nat → Cursor → Cursor
  | 0, c => c
  | fuel + 1, c => if (c.peek 0).any p then skipWhile p fuel c.skip else c

def length (c : Cursor) : Nat := c.rest.length

/-- The characters that satisfy `p` from here on, and the place after them. -/
def takeWhile (p : Char → Bool) (c : Cursor) : List Char × Cursor :=
  let taken := c.rest.takeWhile p
  (taken, c.skipMany taken.length)

end Cursor

/-! ### Blanks within scalars -/

/-- Blanks and line breaks between two words. -/
structure Gap where
  blanks : List Char := []
  breaks : List Char := []

/-- What a gap reads as: a single line break is a space, of several the first is left out. -/
def Gap.text (g : Gap) : List Char :=
  match g.breaks with
  | [] => g.blanks
  | '\n' :: [] => [' ']
  | '\n' :: more => more
  | breaks => breaks

/-- Reads a gap. A tab before column `indent` is an error. -/
def readGap (indent : Nat) : Nat → Gap → Cursor → Option (Gap × Cursor)
  | 0, g, c => some (g, c)
  | fuel + 1, g, c =>
    match c.peek 0 with
    | none => some (g, c)
    | some x =>
      if isBlank x then
        if g.breaks.isEmpty then readGap indent fuel { g with blanks := g.blanks ++ [x] } c.skip
        else if x == '\t' && decide (c.column < indent) then none
        else readGap indent fuel g c.skip
      else if isBreak x then readGap indent fuel { g with breaks := g.breaks ++ [breakText x] } c.skip
      else some (g, c)

/-! ### Plain scalars -/

/-- A word of a plain scalar, reversed. In a flow collection its marks end a word as well. -/
def plainWord (flow : Bool) : Nat → List Char → Cursor → Option (List Char × Cursor)
  | 0, acc, c => some (acc, c)
  | fuel + 1, acc, c =>
    match c.peek 0 with
    | none => some (acc, c)
    | some x =>
      if isBlank x || isBreak x then some (acc, c)
      else if flow && x == ':' && (c.peek 1).any (fun y => isFlowMark y || y == '?') then none
      else if x == ':' && endsWord (c.peek 1) then some (acc, c)
      else if flow && isFlowMark x then some (acc, c)
      else plainWord flow fuel (x :: acc) c.skip

/-- A plain scalar, reversed, whether a line break follows it, and the place after it. -/
def plainScalar (flow : Bool) (indent : Nat) : Nat → List Char → Gap → Cursor → Option (List Char × Bool × Cursor)
  | 0, acc, _, c => some (acc, false, c)
  | fuel + 1, acc, gap, c =>
    let done := some (acc, !gap.breaks.isEmpty, c)
    if c.atDocumentMarker || c.peek 0 == some '#' then done
    else
      match plainWord flow c.length [] c with
      | none => none
      | some (word, c') =>
        let acc' := if word.isEmpty then acc else word ++ gap.text.reverse ++ acc
        let broken := if word.isEmpty then !gap.breaks.isEmpty else false
        if !(c'.atBlank || c'.atBreak) then some (acc', broken, c')
        else
          match readGap indent c'.length (if word.isEmpty then gap else {}) c' with
          | none => none
          | some (gap, c'') =>
            if !flow && decide (c''.column < indent) then some (acc', !gap.breaks.isEmpty, c'')
            else plainScalar flow indent fuel acc' gap c''

/-! ### Quoted scalars -/

def hexValue? (cs : List Char) : Option Nat :=
  cs.foldlM (fun n c =>
    if c.isDigit then some (n * 16 + (c.toNat - 48))
    else if 'a' ≤ c ∧ c ≤ 'f' then some (n * 16 + (c.toNat - 87))
    else if 'A' ≤ c ∧ c ≤ 'F' then some (n * 16 + (c.toNat - 55))
    else none) 0

/-- The character with a number of so many hexadecimal digits. -/
def numbered? (digits : Nat) (c : Cursor) : Option (Char × Cursor) := do
  let ds := c.rest.take digits
  if ds.length = digits then
    let n ← hexValue? ds
    if n.isValidChar then return (Char.ofNat n, c.skipMany digits) else none
  else none

/-- The character written by an escape, from the letter after the backslash on. -/
def escape? (c : Cursor) : Option (Char × Cursor) := do
  let one (x : Char) : Option (Char × Cursor) := some (x, c.skip)
  match ← c.peek 0 with
  | '0' => one '\x00'
  | 'a' => one '\x07'
  | 'b' => one '\x08'
  | 't' | '\t' => one '\t'
  | 'n' => one '\n'
  | 'v' => one '\x0b'
  | 'f' => one '\x0c'
  | 'r' => one '\r'
  | 'e' => one '\x1b'
  | ' ' => one ' '
  | '"' => one '"'
  | '/' => one '/'
  | '\\' => one '\\'
  | 'N' => one '\x85'
  | '_' => one '\xa0'
  | 'L' => one '\u2028'
  | 'P' => one '\u2029'
  | 'x' => numbered? 2 c.skip
  | 'u' => numbered? 4 c.skip
  | 'U' => numbered? 8 c.skip
  | _ => none

/-- The rest of a quoted scalar, reversed, and the place after the closing quote. -/
def quotedScalar (single : Bool) : Nat → List Char → Cursor → Option (List Char × Cursor)
  | 0, _, _ => none
  | fuel + 1, acc, c =>
    if c.atDocumentMarker then none
    else
      match c.peek 0 with
      | none => none
      | some x =>
        if isBlank x || isBreak x then
          match readGap 0 c.length {} c with
          | none => none
          | some (gap, c') => quotedScalar single fuel (gap.text.reverse ++ acc) c'
        else if single then
          if x == '\'' then
            if c.peek 1 == some '\'' then quotedScalar single fuel ('\'' :: acc) (c.skipMany 2) else some (acc, c.skip)
          else quotedScalar single fuel (x :: acc) c.skip
        else if x == '"' then some (acc, c.skip)
        else if x == '\\' then
          if (c.peek 1).any isBreak then
            match readGap 0 c.length { breaks := ['\u2028'] } (c.skipMany 2) with
            | none => none
            | some (gap, c') => quotedScalar single fuel ((gap.breaks.drop 1).reverse ++ acc) c'
          else
            match escape? c.skip with
            | none => none
            | some (y, c') => quotedScalar single fuel (y :: acc) c'
        else quotedScalar single fuel (x :: acc) c.skip

/-! ### Block scalars -/

/-- What becomes of the line breaks at the end of a block scalar. -/
inductive Chomping
  | strip | clip | keep
  deriving DecidableEq

/-- The header of a block scalar: chomping and an explicit indentation, in either order. -/
def blockHeader (c : Cursor) : Option (Chomping × Option Nat × Cursor) :=
  let chomp (c : Cursor) : Option Chomping :=
    match c.peek 0 with
    | some '+' => some .keep
    | some '-' => some .strip
    | _ => none
  let depth (c : Cursor) : Option Nat :=
    match c.peek 0 with
    | some d => if d.isDigit then some (d.toNat - 48) else none
    | none => none
  let sound (r : Chomping × Option Nat × Cursor) : Option (Chomping × Option Nat × Cursor) :=
    if r.2.1 = some 0 then none else some r
  match chomp c with
  | some k =>
    match depth c.skip with
    | some d => sound (k, some d, c.skip.skip)
    | none => some (k, none, c.skip)
  | none =>
    match depth c with
    | none => some (.clip, none, c)
    | some d =>
      match chomp c.skip with
      | some k => sound (k, some d, c.skip.skip)
      | none => sound (.clip, some d, c.skip)

/-- Empty lines before a line of a block scalar: the line breaks, the widest indentation, and the
place of the line. -/
def blockBreaks (indent : Option Nat) : Nat → List Char → Nat → Cursor → Option (List Char × Nat × Cursor)
  | 0, breaks, widest, c => some (breaks, widest, c)
  | fuel + 1, breaks, widest, c =>
    let indenting (c : Cursor) : Bool := match indent with
      | none => true
      | some n => decide (c.column < n)
    match c.peek 0 with
    | some x =>
      if x == ' ' && indenting c then blockBreaks indent fuel breaks widest c.skip
      else if x == '\t' && indenting c then none
      else if isBreak x then blockBreaks indent fuel (breaks ++ [breakText x]) (max widest c.column) c.skip
      else some (breaks, max widest c.column, c)
    | none => some (breaks, max widest c.column, c)

/-- The lines of a block scalar of a known indentation, reversed, with the line breaks that
follow. -/
def blockLines (literal : Bool) (indent : Nat) :
    Nat → List Char → (leading trailing : List Char) → (blankBefore : Bool) → Cursor →
      Option (List Char × List Char × List Char × Cursor)
  | 0, acc, leading, trailing, _, c => some (acc, leading, trailing, c)
  | fuel + 1, acc, leading, trailing, blankBefore, c =>
    if c.column ≠ indent ∨ c.peek 0 = none then some (acc, leading, trailing, c)
    else
      let blank := c.atBlank
      let folded := !literal && leading.head? == some '\n' && !blankBefore && !blank
      let joint := if folded then (if trailing.isEmpty then [' '] else []) else leading
      let r := c.takeWhile fun x => !isBreak x
      let acc := r.1.reverse ++ trailing.reverse ++ joint.reverse ++ acc
      match r.2.peek 0 with
      | none => some (acc, [], [], r.2)
      | some x =>
        match blockBreaks (some indent) r.2.length [] 0 r.2.skip with
        | none => none
        | some (breaks, _, c) => blockLines literal indent fuel acc [breakText x] breaks blank c

/-- A block scalar from its header on, for a parent at column `parent`. -/
def blockScalar (literal : Bool) (parent : Int) (c : Cursor) : Option (String × Cursor) := do
  let (chomping, depth, c) ← blockHeader c
  let c := c.skipWhile isBlank c.length
  let c := if c.peek 0 = some '#' then c.skipWhile (fun x => !isBreak x) c.length else c
  let c ← match c.peek 0 with
    | none => some c
    | some x => if isBreak x then some c.skip else none
  let fixed : Option Nat := depth.map fun d => if 0 ≤ parent then parent.toNat + d else d
  let (breaks, widest, c) ← blockBreaks fixed (c.length + 1) [] 0 c
  let indent := fixed.getD (max (max widest (parent + 1).toNat) 1)
  let (acc, leading, trailing, c) ← blockLines literal indent (c.length + 1) [] [] breaks false c
  let tail := match chomping with
    | .strip => []
    | .clip => leading
    | .keep => leading ++ trailing
  return (String.ofList (acc.reverse ++ tail), c)

/-! ### The scanner -/

/-- A scalar or collection that a colon would make a key: where its token stands, where it
begins, and whether nothing else is allowed there. -/
structure PossibleKey where
  required : Bool
  token : Nat
  index : Nat
  line : Nat
  column : Nat

structure Scanner where
  cursor : Cursor
  tokens : Array Token := #[]
  /-- The column of the innermost block collection, -1 outside, and those around it. -/
  indent : Int := -1
  indents : List Int := []
  /-- May a key begin here? -/
  keyAllowed : Bool := true
  /-- The possible key of each flow collection, the innermost first, and of the block around. -/
  keys : List (Option PossibleKey) := [none]

namespace Scanner

def flow (s : Scanner) : Bool := decide (1 < s.keys.length)
def emit (s : Scanner) (t : Token) : Scanner := { s with tokens := s.tokens.push t }
def column (s : Scanner) : Int := s.cursor.column

/-- Gives up the possible key; one that was required is an error. -/
def dropKey (s : Scanner) : Option Scanner :=
  match s.keys with
  | some k :: rest => if k.required then none else some { s with keys := none :: rest }
  | _ => some s

/-- Notes that a key may begin here. -/
def noteKey (s : Scanner) : Option Scanner :=
  if s.keyAllowed then do
    let s ← s.dropKey
    let c := s.cursor
    let key : PossibleKey := ⟨!s.flow && decide (s.indent = s.column), s.tokens.size, c.index, c.line, c.column⟩
    return { s with keys := some key :: s.keys.tail }
  else some s

/-- Gives up the keys whose colon can no longer come: a key stands on one line and is short. -/
def dropStaleKeys (s : Scanner) : Option Scanner := do
  let stale (k : PossibleKey) : Bool := decide (k.line < s.cursor.line) || decide (k.index + 1024 < s.cursor.index)
  let keys ← s.keys.mapM fun k =>
    match k with
    | some k => if stale k then (if k.required then none else some none) else some (some k)
    | none => some none
  return { s with keys }

/-- Begins a block collection at a column further right, with its token at a position. -/
def deepen (s : Scanner) (column : Int) (position : Nat) (t : Token) : Scanner :=
  if !s.flow && decide (s.indent < column) then
    { s with indents := s.indent :: s.indents, indent := column, tokens := s.tokens.insertIdxIfInBounds position t }
  else s

/-- Ends the block collections that lie further right than a column. -/
def undeepen (s : Scanner) (column : Int) : Scanner :=
  if s.flow then s
  else
    let ended := (s.indent :: s.indents).takeWhile fun i => decide (column < i)
    let left := (s.indent :: s.indents).drop ended.length
    { s with
      tokens := s.tokens ++ (ended.map fun _ => Token.blockEnd).toArray
      indent := left.headD (-1), indents := left.tail }

def advance (s : Scanner) (n : Nat) : Scanner := { s with cursor := s.cursor.skipMany n }

/-- Goes to the next token. Tabs are no indentation. -/
def toNextToken : Nat → Scanner → Scanner
  | 0, s => s
  | fuel + 1, s =>
    match s.cursor.peek 0 with
    | some x =>
      if x == ' ' || (x == '\t' && (s.flow || !s.keyAllowed)) then toNextToken fuel (s.advance 1)
      else if x == '#' then
        toNextToken fuel { s with cursor := s.cursor.skipWhile (fun y => !isBreak y) s.cursor.length }
      else if isBreak x then
        toNextToken fuel { s with cursor := s.cursor.skip, keyAllowed := s.keyAllowed || !s.flow }
      else s
    | none => s

def documentMark (s : Scanner) (t : Token) : Option Scanner := do
  let s ← (s.undeepen (-1)).dropKey
  return ({ s with keyAllowed := false }.advance 3).emit t

/-- A directive: a version this reader knows, or a shorthand for tags. -/
def directiveLine (s : Scanner) : Option Scanner := do
  let s ← (s.undeepen (-1)).dropKey
  let r := s.cursor.takeWhile fun x => !isBreak x
  let words := ((String.ofList r.1).splitOn " ").filter (· ≠ "")
  if words.take 2 = ["%YAML", "1.1"] ∨ words.take 2 = ["%YAML", "1.2"] ∨ words.head? = some "%TAG" then
    return { s with keyAllowed := false, cursor := r.2 }.emit .directive
  else none

def flowStart (s : Scanner) (t : Token) : Option Scanner := do
  let s ← s.noteKey
  return ({ s with keys := none :: s.keys, keyAllowed := true }.advance 1).emit t

def flowEnd (s : Scanner) (t : Token) : Option Scanner := do
  let s ← s.dropKey
  return ({ s with keys := if s.flow then s.keys.tail else s.keys, keyAllowed := false }.advance 1).emit t

def flowComma (s : Scanner) : Option Scanner := do
  let s ← s.dropKey
  return ({ s with keyAllowed := true }.advance 1).emit .comma

def blockEntry (s : Scanner) : Option Scanner := do
  let s ← if s.flow then some s
    else if s.keyAllowed then some (s.deepen s.column s.tokens.size .blockSequence)
    else none
  let s ← s.dropKey
  return ({ s with keyAllowed := true }.advance 1).emit .entry

def explicitKey (s : Scanner) : Option Scanner := do
  let s ← if s.flow then some s
    else if s.keyAllowed then some (s.deepen s.column s.tokens.size .blockMapping)
    else none
  let s ← s.dropKey
  return ({ s with keyAllowed := !s.flow }.advance 1).emit .key

/-- A colon: what stands before it on the line was a key. -/
def valueMark (s : Scanner) : Option Scanner :=
  match s.keys with
  | some k :: rest =>
    let s := { s with tokens := s.tokens.insertIdxIfInBounds k.token .key, keys := none :: rest }
    some (({ s.deepen k.column k.token .blockMapping with keyAllowed := false }.advance 1).emit .value)
  | _ => do
    let s ← if s.flow then some s
      else if s.keyAllowed then some (s.deepen s.column s.tokens.size .blockMapping)
      else none
    return ({ s with keyAllowed := !s.flow }.advance 1).emit .value

/-- The name of an anchor, or of the anchor that an alias stands for. -/
def anchorName (s : Scanner) (t : String → Token) : Option Scanner := do
  let s ← s.noteKey
  let r := s.cursor.skip.takeWhile isNameChar
  let after := r.2.peek 0
  if r.1.isEmpty then none
  else if endsWord after || after.any (fun x => ['?', ':', ',', ']', '}', '%', '@', '\x60'].contains x) then
    return { s with keyAllowed := false, cursor := r.2 }.emit (t (String.ofList r.1))
  else none

def tagName (s : Scanner) : Option Scanner := do
  let s ← s.noteKey
  let r := s.cursor.takeWhile fun x => !(isBlank x || isBreak x || (s.flow && isFlowMark x))
  return { s with keyAllowed := false, cursor := r.2 }.emit .tag

def block (s : Scanner) (literal : Bool) : Option Scanner := do
  let s ← s.dropKey
  let (text, c) ← blockScalar literal s.indent s.cursor.skip
  return { s with keyAllowed := true, cursor := c }.emit (.scalar false text)

def quoted (s : Scanner) (single : Bool) : Option Scanner := do
  let s ← s.noteKey
  let (text, c) ← quotedScalar single (s.cursor.length + 1) [] s.cursor.skip
  return { s with keyAllowed := false, cursor := c }.emit (.scalar false (String.ofList text.reverse))

def plain (s : Scanner) : Option Scanner := do
  let s ← s.noteKey
  let (text, broken, c) ← plainScalar s.flow (s.indent + 1).toNat (s.cursor.length + 1) [] {} s.cursor
  return { s with keyAllowed := broken, cursor := c }.emit (.scalar true (String.ofList text.reverse))

/-- Could a plain scalar begin with `x`, followed by `next`? -/
def beginsPlain (flow : Bool) (x : Char) (next : Option Char) : Bool :=
  if x == '-' then !(next.any isBlank)
  else if x == '?' || x == ':' then !flow && !endsWord next
  else !(isBlank x || isFlowMark x || ['#', '&', '*', '!', '|', '>', '\'', '"', '%', '@', '\x60'].contains x)

def token (s : Scanner) (x : Char) : Option Scanner :=
  let next := s.cursor.peek 1
  if s.cursor.column == 0 && x == '%' then s.directiveLine
  else if s.cursor.atMarker '-' then s.documentMark .documentStart
  else if s.cursor.atMarker '.' then s.documentMark .documentEnd
  else if x == '[' then s.flowStart .flowSequence
  else if x == '{' then s.flowStart .flowMapping
  else if x == ']' then s.flowEnd .flowSequenceEnd
  else if x == '}' then s.flowEnd .flowMappingEnd
  else if x == ',' then s.flowComma
  else if x == '-' && endsWord next then s.blockEntry
  else if x == '?' && (s.flow || endsWord next) then s.explicitKey
  else if x == ':' && (s.flow || endsWord next) then s.valueMark
  else if x == '*' then s.anchorName .alias
  else if x == '&' then s.anchorName .anchor
  else if x == '!' then s.tagName
  else if x == '|' && !s.flow then s.block true
  else if x == '>' && !s.flow then s.block false
  else if x == '\'' then s.quoted true
  else if x == '"' then s.quoted false
  else if beginsPlain s.flow x next then s.plain
  else none

def run : Nat → Scanner → Option (List Token)
  | 0, _ => none
  | fuel + 1, s =>
    match (s.toNextToken (s.cursor.length + 1)).dropStaleKeys with
    | none => none
    | some s =>
      let s := s.undeepen s.column
      match s.cursor.peek 0 with
      | none => ((s.undeepen (-1)).dropKey).map fun s => s.tokens.toList
      | some x => (s.token x).bind (run fuel)

end Scanner

/-- The tokens of a text, or none if it is not YAML. A byte order mark may come first. -/
def scan (text : String) : Option (List Token) :=
  let cs := match text.toList with
    | '\ufeff' :: rest => rest
    | cs => cs
  if cs.all isAllowed then Scanner.run (cs.length + 2) { cursor := { rest := cs } } else none

end TraceRollup.Yaml
