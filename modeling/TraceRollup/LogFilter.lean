/-!
# Filters for log output

A filter is a list of directives between commas. A directive is a level alone, or a target, a
span in brackets or both, with a level after an equals sign if not everything is wanted.
-/

namespace TraceRollup.LogFilter

def levelNames : List String := ["trace", "debug", "info", "warn", "error", "off", "0", "1", "2", "3", "4", "5"]

/-- Levels are named in letters of either case, or numbered. -/
def isLevel (cs : List Char) : Bool := levelNames.contains (String.ofList cs).toLower

/-- Letters, digits and the signs in the path of a module. Beyond ASCII all count as letters. -/
def isTargetChar (c : Char) : Bool := c.isAlphanum || c == '_' || c == ':' || c == '-' || decide (127 < c.toNat)

/-- Nothing, or an equals sign and perhaps a level. -/
def isLevelPart : List Char → Bool
  | [] => true
  | '=' :: level => level.isEmpty || isLevel level
  | _ => false

/-- A span in brackets, then perhaps a level. -/
def isSpanPart : List Char → Bool
  | '[' :: rest =>
    match rest.dropWhile (· ≠ ']') with
    | _ :: rest => isLevelPart rest
    | [] => false
  | rest => isLevelPart rest

def isDirective (cs : List Char) : Bool :=
  let target := cs.takeWhile isTargetChar
  let rest := cs.dropWhile isTargetChar
  (!target.isEmpty || rest.head? == some '[') && isSpanPart rest

/-- Empty directives are passed over. -/
def isValid (text : String) : Bool :=
  ((text.toList.splitOn ',').filter fun d => !d.isEmpty).all isDirective

theorem isDirective_of_target {cs : List Char} (h : cs ≠ []) (ht : ∀ c ∈ cs, isTargetChar c = true) :
    isDirective cs = true := by
  have key (l : List Char) (hl : ∀ c ∈ l, isTargetChar c = true) : l.dropWhile isTargetChar = [] := by
    induction l with
    | nil => rfl
    | cons c l ih =>
      rw [List.dropWhile_cons_of_pos (hl c List.mem_cons_self)]
      exact ih fun d hd => hl d (List.mem_cons_of_mem _ hd)
  have hdrop := key cs ht
  have htake : cs.takeWhile isTargetChar = cs := by
    have := List.takeWhile_append_dropWhile (p := isTargetChar) (l := cs)
    rwa [hdrop, List.append_nil] at this
  simp [isDirective, htake, hdrop, isSpanPart, isLevelPart, h]

end TraceRollup.LogFilter
