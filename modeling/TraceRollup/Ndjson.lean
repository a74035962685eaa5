import TraceRollup.Text.Utf8
import TraceRollup.WireMessage

/-!
# Batches of messages as bytes

Messages travel in batches, one to a line. `body` writes a batch; `lines` cuts bytes at line
breaks, of which blank lines are passed over, and `message?` reads a line.
-/

namespace TraceRollup.Ndjson

open Text (newline)

/-- The bytes of a batch. Every line ends in a line break. -/
def body (messages : List WireMessage) : List UInt8 := messages.flatMap fun m => Text.bytes m.line ++ [newline]

/-- The pieces between line breaks: one more than there are line breaks. -/
def lines : List UInt8 → List (List UInt8)
  | [] => [[]]
  | b :: rest =>
    if b = newline then [] :: lines rest
    else
      match lines rest with
      | [] => [[b]]
      | l :: ls => (b :: l) :: ls

/-- Space, tab, line break, form feed and carriage return. -/
def isBlankByte (b : UInt8) : Bool := b == 32 || b == 9 || b == 10 || b == 12 || b == 13

def isBlank (line : List UInt8) : Bool := line.all isBlankByte

/-- The lines that should hold a message. -/
def filled (bytes : List UInt8) : List (List UInt8) := (lines bytes).filter fun l => !isBlank l

def message? (line : List UInt8) : Option WireMessage := (Text.ofBytes? line).bind WireMessage.parse?

/-! ### Lines -/

theorem lines_line_append {l : List UInt8} (h : newline ∉ l) (rest : List UInt8) :
    lines (l ++ newline :: rest) = l :: lines rest := by
  induction l with
  | nil => simp [lines]
  | cons b l ih =>
    rw [List.mem_cons, not_or] at h
    simp [lines, Ne.symm h.1, ih h.2]

/-- Lines put one after the other are found again, and nothing else is. -/
theorem lines_flatMap {ls : List (List UInt8)} (h : ∀ l ∈ ls, newline ∉ l) :
    lines (ls.flatMap fun l => l ++ [newline]) = ls ++ [[]] := by
  induction ls with
  | nil => rfl
  | cons l ls ih =>
    rw [List.flatMap_cons, List.append_assoc, List.singleton_append,
      lines_line_append (h l List.mem_cons_self), ih fun l hl => h l (List.mem_cons_of_mem _ hl)]
    rfl

end TraceRollup.Ndjson
