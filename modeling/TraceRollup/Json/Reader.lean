import TraceRollup.Json.Number

/-!
# Reading JSON

`parse` reads one value that fills a text. Blanks are space, tab, line feed and carriage
return. A string may hold any character but raw control characters; its escapes are the
two-letter ones and `\u` with four hexadecimal digits, two of them for a character beyond
the first plane. A number has no leading zeros and at least one digit in every part.
-/

namespace TraceRollup.Json

/-! ### Tokens -/

def isBlank (c : Char) : Bool := c == ' ' || c == '\n' || c == '\t' || c == '\r'

def skipBlanks : List Char → List Char := List.dropWhile isBlank

def digit? (c : Char) : Option Nat :=
  if '0' ≤ c ∧ c ≤ '9' then some (c.toNat - '0'.toNat) else none

def hexDigit? (c : Char) : Option Nat :=
  if '0' ≤ c ∧ c ≤ '9' then some (c.toNat - '0'.toNat)
  else if 'a' ≤ c ∧ c ≤ 'f' then some (c.toNat - 'a'.toNat + 10)
  else if 'A' ≤ c ∧ c ≤ 'F' then some (c.toNat - 'A'.toNat + 10)
  else none

def hexUnit? (a b c d : Char) : Option Nat := do
  return (((← hexDigit? a) * 16 + (← hexDigit? b)) * 16 + (← hexDigit? c)) * 16 + (← hexDigit? d)

/-- The character of a two-letter escape. -/
def escape? (c : Char) : Option Char :=
  match c with
  | '"' => some '"'
  | '\\' => some '\\'
  | '/' => some '/'
  | 'b' => some '\x08'
  | 'f' => some '\x0c'
  | 'n' => some '\n'
  | 'r' => some '\r'
  | 't' => some '\t'
  | _ => none

def isHighSurrogate (u : Nat) : Bool := decide (0xD800 ≤ u) && decide (u < 0xDC00)
def isLowSurrogate (u : Nat) : Bool := decide (0xDC00 ≤ u) && decide (u < 0xE000)

/-- What has been read of a string: its characters, last first, and whether all of them are
characters. A high surrogate waits for its partner. -/
structure Spelling where
  reversed : List Char := []
  sound : Bool := true
  high : Option Nat := none

namespace Spelling

/-- Ends a wait for a second surrogate that has not come. -/
def settle (s : Spelling) : Spelling :=
  match s.high with
  | none => s
  | some _ => { s with sound := false, high := none }

def push (s : Spelling) (c : Char) : Spelling :=
  let t := s.settle
  { t with reversed := c :: t.reversed }

/-- Takes up the unit of a `\u` escape. -/
def pushUnit (s : Spelling) (u : Nat) : Spelling :=
  match s.high with
  | some h =>
    if isLowSurrogate u then
      { s with reversed := Char.ofNat (0x10000 + (h - 0xD800) * 0x400 + (u - 0xDC00)) :: s.reversed,
               high := none }
    else if isHighSurrogate u then { s with sound := false, high := some u }
    else { reversed := Char.ofNat u :: s.reversed, sound := false, high := none }
  | none =>
    if isHighSurrogate u then { s with high := some u }
    else if isLowSurrogate u then { s with sound := false }
    else { s with reversed := Char.ofNat u :: s.reversed }

def text? (s : Spelling) : Option String :=
  let t := s.settle
  if t.sound then some (String.ofList t.reversed.reverse) else none

end Spelling

/-- Reads a string up to and with its closing quote. -/
def stringTail (s : Spelling) : List Char → Option (Option String × List Char)
  | [] => none
  | '"' :: rest => some (s.text?, rest)
  | '\\' :: 'u' :: a :: b :: c :: d :: rest =>
    match hexUnit? a b c d with
    | some u => stringTail (s.pushUnit u) rest
    | none => none
  | '\\' :: c :: rest =>
    match escape? c with
    | some e => stringTail (s.push e) rest
    | none => none
  | c :: rest => if c.toNat < 0x20 then none else if c = '\\' then none else stringTail (s.push c) rest

def leadingDigits (cs : List Char) : List Nat × List Char :=
  ((cs.takeWhile fun c => (digit? c).isSome).filterMap digit?, cs.dropWhile fun c => (digit? c).isSome)

def fractionPart : List Char → Option (Option (List Nat) × List Char)
  | '.' :: rest =>
    let r := leadingDigits rest
    if r.1 = [] then none else some (some r.1, r.2)
  | cs => some (none, cs)

def exponentPart (cs : List Char) : Option (Option (Bool × List Nat) × List Char) :=
  let digitsOf (upwards : Bool) (rest : List Char) :=
    let r := leadingDigits rest
    if r.1 = [] then none else some (some (upwards, r.1), r.2)
  match cs with
  | e :: rest =>
    if e = 'e' ∨ e = 'E' then
      match rest with
      | '+' :: rest => digitsOf true rest
      | '-' :: rest => digitsOf false rest
      | rest => digitsOf true rest
    else some (none, cs)
  | [] => some (none, [])

def numberTail (negative : Bool) (cs : List Char) : Option (Json × List Char) := do
  let w := leadingDigits cs
  if w.1 = [] ∨ (w.1.head? = some 0 ∧ w.1 ≠ [0]) then none
  let f ← fractionPart w.2
  let e ← exponentPart f.2
  return (ofNumber ⟨negative, w.1, f.1, e.1⟩, e.2)

/-- Reads a value that starts no string, array or object. -/
def plainValue (cs : List Char) : Option (Json × List Char) :=
  match cs with
  | 't' :: 'r' :: 'u' :: 'e' :: rest => some (.bool true, rest)
  | 'f' :: 'a' :: 'l' :: 's' :: 'e' :: rest => some (.bool false, rest)
  | 'n' :: 'u' :: 'l' :: 'l' :: rest => some (.null, rest)
  | '-' :: rest => numberTail true rest
  | cs => numberTail false cs

/-! ### Values -/

/-- An object whose keys are all readable, or an unreadable one. -/
def ofMembers (members : List (Option String × Json)) : Json :=
  match members.mapM fun m => m.1.map fun k => (k, m.2) with
  | some ms => .obj ms
  | none => .unreadable

mutual
/-- Reads a value (`fuel` bounds the nesting and the number of parts). -/
def value : Nat → List Char → Option (Json × List Char)
  | 0, _ => none
  | fuel + 1, cs =>
    match skipBlanks cs with
    | '"' :: rest => do
      let (s, rest) ← stringTail {} rest
      return ((s.map Json.str).getD .unreadable, rest)
    | '[' :: rest =>
      match skipBlanks rest with
      | ']' :: rest => some (.arr [], rest)
      | rest => do
        let (items, rest) ← items fuel rest
        return (.arr items, rest)
    | '{' :: rest =>
      match skipBlanks rest with
      | '}' :: rest => some (.obj [], rest)
      | rest => do
        let (members, rest) ← members fuel rest
        return (ofMembers members, rest)
    | cs => plainValue cs

def items : Nat → List Char → Option (List Json × List Char)
  | 0, _ => none
  | fuel + 1, cs => do
    let (j, rest) ← value fuel cs
    match skipBlanks rest with
    | ',' :: rest => do
      let (js, rest) ← items fuel rest
      return (j :: js, rest)
    | ']' :: rest => return ([j], rest)
    | _ => none

def members : Nat → List Char → Option (List (Option String × Json) × List Char)
  | 0, _ => none
  | fuel + 1, cs =>
    match skipBlanks cs with
    | '"' :: rest => do
      let (k, rest) ← stringTail {} rest
      match skipBlanks rest with
      | ':' :: rest => do
        let (j, rest) ← value fuel rest
        match skipBlanks rest with
        | ',' :: rest => do
          let (ms, rest) ← members fuel rest
          return ((k, j) :: ms, rest)
        | '}' :: rest => return ([(k, j)], rest)
        | _ => none
      | _ => none
    | _ => none
end

/-- The one value that a text holds. -/
def parse (text : String) : Option Json :=
  let cs := text.toList
  match value (cs.length + 1) cs with
  | some (j, rest) => if skipBlanks rest = [] then some j else none
  | none => none

end TraceRollup.Json
