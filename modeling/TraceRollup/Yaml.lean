import TraceRollup.Yaml.Token
import TraceRollup.Binary64.Text

/-!
# YAML values

The second half of reading YAML makes a tree of the tokens. A scalar keeps its text; what the
text stands for is up to whoever asks for it: a number must not be quoted, a text may be. An
empty document reads as an empty scalar.
-/

namespace TraceRollup

/-- A YAML value. `plain` tells a scalar without quotes from others. -/
inductive Yaml
  | scalar (plain : Bool) (text : String)
  | sequence (items : List Yaml)
  | mapping (entries : List (Yaml × Yaml))
  deriving Inhabited

namespace Yaml

def blank : Yaml := .scalar true ""

/-! ### Trees of tokens -/

/-- The tokens still to be read, and the values of the anchors so far. -/
structure Progress where
  tokens : List Token
  anchors : List (String × Yaml) := []

namespace Progress

def next? (p : Progress) : Option Token := p.tokens.head?
def drop (p : Progress) : Progress := { p with tokens := p.tokens.tail }
def isNext (p : Progress) (ts : List Token) : Bool := p.next?.any ts.contains

end Progress

/-- Tags and an anchor before a node. -/
def properties : Nat → Option String → Bool → Progress → Option String × Bool × Progress
  | 0, name, tagged, p => (name, tagged, p)
  | fuel + 1, name, tagged, p =>
    match p.next?, name, tagged with
    | some (.anchor a), none, _ => properties fuel (some a) tagged p.drop
    | some .tag, _, false => properties fuel name true p.drop
    | _, _, _ => (name, tagged, p)

mutual
/-- A node. In block context (`block`) it may be a block collection, and where a key or a value
stands (`entry`), also a sequence that is not indented. `fuel` bounds the number of steps. -/
def node (block entry : Bool) : Nat → Progress → Option (Yaml × Progress)
  | 0, _ => none
  | fuel + 1, p =>
    match p.next? with
    | some (.alias name) => (p.anchors.lookup name).map fun v => (v, p.drop)
    | _ =>
      let (name, tagged, p) := properties 2 none false p
      let content : Option (Yaml × Progress) :=
        match p.next? with
        | some (.scalar plain text) => some (.scalar plain text, p.drop)
        | some .flowSequence => flowItems fuel true [] p.drop
        | some .flowMapping => flowEntries fuel true [] p.drop
        | some .blockSequence => if block then blockItems fuel [] p.drop else none
        | some .blockMapping => if block then blockEntries fuel [] p.drop else none
        | some .entry => if entry then looseItems fuel [] p else if tagged || name.isSome then some (blank, p) else none
        | _ => if tagged || name.isSome then some (blank, p) else none
      match content, name with
      | some (v, p), some a => some (v, { p with anchors := (a, v) :: p.anchors })
      | r, _ => r

/-- A node that may be left out before certain tokens. -/
def optional (block entry : Bool) (before : List Token) : Nat → Progress → Option (Yaml × Progress)
  | 0, _ => none
  | fuel + 1, p => if p.isNext before then some (blank, p) else node block entry fuel p

def blockItems : Nat → List Yaml → Progress → Option (Yaml × Progress)
  | 0, _, _ => none
  | fuel + 1, items, p =>
    match p.next? with
    | some .entry =>
      match optional true false [.entry, .blockEnd] fuel p.drop with
      | some (v, p) => blockItems fuel (v :: items) p
      | none => none
    | some .blockEnd => some (.sequence items.reverse, p.drop)
    | _ => none

/-- The entries of a sequence that ends with the mapping it stands in. -/
def looseItems : Nat → List Yaml → Progress → Option (Yaml × Progress)
  | 0, _, _ => none
  | fuel + 1, items, p =>
    match p.next? with
    | some .entry =>
      match optional true false [.entry, .key, .value, .blockEnd] fuel p.drop with
      | some (v, p) => looseItems fuel (v :: items) p
      | none => none
    | _ => some (.sequence items.reverse, p)

def blockEntries : Nat → List (Yaml × Yaml) → Progress → Option (Yaml × Progress)
  | 0, _, _ => none
  | fuel + 1, entries, p =>
    match p.next? with
    | some .key =>
      match optional true true [.key, .value, .blockEnd] fuel p.drop with
      | some (k, p) =>
        if p.isNext [.value] then
          match optional true true [.key, .value, .blockEnd] fuel p.drop with
          | some (v, p) => blockEntries fuel ((k, v) :: entries) p
          | none => none
        else blockEntries fuel ((k, blank) :: entries) p
      | none => none
    | some .blockEnd => some (.mapping entries.reverse, p.drop)
    | _ => none

/-- The items of a flow sequence up to its end. An item may be a single pair. -/
def flowItems : Nat → Bool → List Yaml → Progress → Option (Yaml × Progress)
  | 0, _, _, _ => none
  | fuel + 1, first, items, p =>
    if p.isNext [.flowSequenceEnd] then some (.sequence items.reverse, p.drop)
    else if !first && !p.isNext [.comma] then none
    else
      let p := if first then p else p.drop
      match p.next? with
      | some .flowSequenceEnd => some (.sequence items.reverse, p.drop)
      | some .key =>
        match optional false false [.value, .comma, .flowSequenceEnd] fuel p.drop with
        | some (k, p) =>
          if p.isNext [.value] then
            match optional false false [.comma, .flowSequenceEnd] fuel p.drop with
            | some (v, p) => flowItems fuel false (.mapping [(k, v)] :: items) p
            | none => none
          else flowItems fuel false (.mapping [(k, blank)] :: items) p
        | none => none
      | _ =>
        match node false false fuel p with
        | some (v, p) => flowItems fuel false (v :: items) p
        | none => none

def flowEntries : Nat → Bool → List (Yaml × Yaml) → Progress → Option (Yaml × Progress)
  | 0, _, _, _ => none
  | fuel + 1, first, entries, p =>
    if p.isNext [.flowMappingEnd] then some (.mapping entries.reverse, p.drop)
    else if !first && !p.isNext [.comma] then none
    else
      let p := if first then p else p.drop
      match p.next? with
      | some .flowMappingEnd => some (.mapping entries.reverse, p.drop)
      | some .key =>
        match optional false false [.value, .comma, .flowMappingEnd] fuel p.drop with
        | some (k, p) =>
          if p.isNext [.value] then
            match optional false false [.comma, .flowMappingEnd] fuel p.drop with
            | some (v, p) => flowEntries fuel false ((k, v) :: entries) p
            | none => none
          else flowEntries fuel false ((k, blank) :: entries) p
        | none => none
      | _ =>
        match node false false fuel p with
        | some (k, p) => flowEntries fuel false ((k, blank) :: entries) p
        | none => none
end

/-- The only document of a list of tokens. -/
def document (ts : List Token) : Option Yaml := do
  let steps := 4 * ts.length + 8
  let ends := [Token.documentStart, .documentEnd, .directive]
  let directives := ts.takeWhile (· == .directive)
  let (v, p) ← match ts.drop directives.length with
    | .documentStart :: body =>
      if body.isEmpty || body.head?.any ends.contains then some (blank, ⟨body, []⟩)
      else node true false steps ⟨body, []⟩
    | body =>
      if !directives.isEmpty then none
      else if body.isEmpty then some (blank, ⟨[], []⟩)
      else node true false steps ⟨body, []⟩
  if p.tokens.all (· == .documentEnd) then return v else none

/-- Reads a text with at most one document. -/
def parse (text : String) : Option Yaml := (scan text).bind document

/-! ### Reading scalars -/

def decimal? (cs : List Char) : Option Nat :=
  if cs.isEmpty then none else cs.foldlM (fun n c => if c.isDigit then some (n * 10 + (c.toNat - 48)) else none) 0

/-- A whole number in the digits of a small base. -/
def inBase? (base : Nat) (cs : List Char) : Option Nat :=
  if cs.isEmpty then none
  else cs.foldlM (fun n c => do
    let d ← hexValue? [c]
    if d < base then some (n * base + d) else none) 0

/-- A whole number without a sign: `0x`, `0o` and `0b` tell another base than ten. A decimal one
does not begin with a zero. -/
def natural? : List Char → Option Nat
  | '0' :: 'x' :: ds => inBase? 16 ds
  | '0' :: 'o' :: ds => inBase? 8 ds
  | '0' :: 'b' :: ds => inBase? 2 ds
  | '0' :: _ :: _ => none
  | ds => decimal? ds

def integer? : List Char → Option Int
  | '+' :: ds => (natural? ds).map Int.ofNat
  | '-' :: ds => (natural? ds).map fun n => -(n : Int)
  | ds => (natural? ds).map Int.ofNat

def exponent? : List Char → Option Int
  | '+' :: ds => (decimal? ds).map Int.ofNat
  | '-' :: ds => (decimal? ds).map fun n => -(n : Int)
  | ds => (decimal? ds).map Int.ofNat

/-- A decimal number without a sign: digits before or after the point, or both. -/
def unsignedDouble? (negative : Bool) (cs : List Char) : Option Binary64 := do
  let whole := cs.takeWhile Char.isDigit
  let rest := cs.dropWhile Char.isDigit
  let (places, rest) := match rest with
    | '.' :: r => (r.takeWhile Char.isDigit, r.dropWhile Char.isDigit)
    | r => ([], r)
  let e ← match rest with
    | [] => some 0
    | c :: r => if c == 'e' || c == 'E' then exponent? r else none
  let digits ← decimal? (whole ++ places)
  if digits = 0 then return Binary64.zero negative
  else
    let e := e - places.length
    if e + (whole.length + places.length) < -400 then return Binary64.zero negative
    else if 400 < e then none
    else
      let x := Binary64.ofDecimal negative digits e
      if x.isFinite then return x else none

def double? (s : String) : Option Binary64 :=
  if s ∈ [".inf", ".Inf", ".INF", "+.inf", "+.Inf", "+.INF"] then some (.infinity false)
  else if s ∈ ["-.inf", "-.Inf", "-.INF"] then some (.infinity true)
  else if s ∈ [".nan", ".NaN", ".NAN"] then some .notANumber
  else
    match s.toList with
    | '+' :: cs => unsignedDouble? false cs
    | '-' :: cs => unsignedDouble? true cs
    | cs => unsignedDouble? false cs

def bool? (s : String) : Option Bool :=
  if s ∈ ["true", "True", "TRUE"] then some true
  else if s ∈ ["false", "False", "FALSE"] then some false
  else none

end Yaml
end TraceRollup
