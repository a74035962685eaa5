import TraceRollup.Json.Basic
import TraceRollup.Binary64.Text

/-!
# Writing JSON

`render` writes a value without blanks. In a string the quote, the backslash and the
control characters are escaped, the common ones by two letters and the rest by `\u00` and
two hexadecimal digits; all other characters stand for themselves, so a line of rendered
text holds no line break.
-/

namespace TraceRollup.Json

def hexLetter (n : Nat) : Char := if n < 10 then Char.ofNat (48 + n) else Char.ofNat (87 + n)

def escapeChar (c : Char) : List Char :=
  match c with
  | '"' => ['\\', '"']
  | '\\' => ['\\', '\\']
  | '\x08' => ['\\', 'b']
  | '\x0c' => ['\\', 'f']
  | '\n' => ['\\', 'n']
  | '\r' => ['\\', 'r']
  | '\t' => ['\\', 't']
  | c =>
    if c.toNat < 0x20 then ['\\', 'u', '0', '0', hexLetter (c.toNat / 16), hexLetter (c.toNat % 16)]
    else [c]

def quote (s : String) : List Char := '"' :: s.toList.flatMap escapeChar ++ ['"']

mutual
def renderChars : Json → List Char
  | .null => "null".toList
  | .bool b => (if b then "true" else "false").toList
  | .int n => (toString n).toList
  | .float x => x.scientific.toList
  | .str s => quote s
  | .arr items => '[' :: renderItems items
  | .obj members => '{' :: renderMembers members
  | .unreadable => "null".toList
def renderItems : List Json → List Char
  | [] => [']']
  | [j] => renderChars j ++ [']']
  | j :: rest => renderChars j ++ ',' :: renderItems rest
def renderMembers : List (String × Json) → List Char
  | [] => ['}']
  | [(k, j)] => quote k ++ ':' :: renderChars j ++ ['}']
  | (k, j) :: rest => quote k ++ ':' :: renderChars j ++ ',' :: renderMembers rest
end

def render (j : Json) : String := String.ofList j.renderChars

end TraceRollup.Json
