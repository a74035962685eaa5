import TraceRollup.Text.Unprintable

/-!
# Quoted texts

How a name is quoted inside a message: between double quotes, with a backslash before a
quote or a backslash, two-letter escapes for NUL, tab, line feed and carriage return, and
`\u` with the code point in braces for any other character that cannot be shown.
-/

namespace TraceRollup.Text

/-- Lower-case hexadecimal digits without leading zeros. -/
def hexDigits (n : Nat) : List Char := Nat.toDigits 16 n

def quoteChar (c : Char) : List Char :=
  match c with
  | '\x00' => ['\\', '0']
  | '\t' => ['\\', 't']
  | '\n' => ['\\', 'n']
  | '\r' => ['\\', 'r']
  | '"' => ['\\', '"']
  | '\\' => ['\\', '\\']
  | c => if isUnprintable c then '\\' :: 'u' :: '\x7b' :: hexDigits c.toNat ++ ['\x7d'] else [c]

def quoted (s : String) : String := String.ofList ('"' :: s.toList.flatMap quoteChar ++ ['"'])

example : quoted "a\"b\x01" = "\"a\\\"b\\u\x7b1\x7d\"" := by decide +kernel

end TraceRollup.Text
