import Mathlib.Data.List.Basic
import TraceRollup.Json.Reader
import TraceRollup.Json.Writer

/-!
# Reading what was written

A value without doubles is read back from its text as it was written (`Json.parse_render`). The
text of a number ends before the first character that cannot continue it, so a value may stand in
front of whatever follows it in a list (`Json.value_renderChars`).
-/

namespace TraceRollup.Json

/-! ### Strings -/

theorem hexDigit?_hexLetter : ∀ n < 16, hexDigit? (hexLetter n) = some n := by decide

/-- A character that needs no escape stands for itself. -/
theorem stringTail_cons {c : Char} (hquote : c ≠ '"') (hslash : c ≠ '\\') (hhigh : ¬ c.toNat < 0x20) (s : Spelling)
    (rest : List Char) : stringTail s (c :: rest) = stringTail (s.push c) rest := by
  rw [stringTail, if_neg hhigh, if_neg hslash]
  · exact hquote
  · intro _ _ _ _ _ h
    exact absurd h hslash
  · intro _ _ h
    exact absurd h hslash

theorem stringTail_escapeChar (reversed : List Char) (c : Char) (rest : List Char) :
    stringTail ⟨reversed, true, none⟩ (escapeChar c ++ rest) = stringTail ⟨c :: reversed, true, none⟩ rest := by
  unfold escapeChar
  split
  · rfl
  · rfl
  · rfl
  · rfl
  · rfl
  · rfl
  · rfl
  · rename_i hquote hslash _ _ _ _ _
    split
    · rename_i hlow
      have hunit : hexUnit? '0' '0' (hexLetter (c.toNat / 16)) (hexLetter (c.toNat % 16)) = some c.toNat := by
        have hzero : hexDigit? '0' = some 0 := by decide
        rw [hexUnit?, hzero, hexDigit?_hexLetter _ (by omega), hexDigit?_hexLetter _ (by omega)]
        simp only [Option.bind_eq_bind, Option.bind_some, Option.pure_def, Option.some.injEq]
        omega
      have hsurrogate : isHighSurrogate c.toNat = false ∧ isLowSurrogate c.toNat = false := by
        simp only [isHighSurrogate, isLowSurrogate, Bool.and_eq_false_iff, decide_eq_false_iff_not]
        omega
      simp only [List.cons_append, List.nil_append, stringTail, hunit, Spelling.pushUnit, hsurrogate,
        Bool.false_eq_true, if_false, Char.ofNat_toNat]
    · rename_i hhigh
      exact stringTail_cons hquote hslash hhigh _ rest

theorem stringTail_flatMap (reversed cs rest : List Char) :
    stringTail ⟨reversed, true, none⟩ (cs.flatMap escapeChar ++ '"' :: rest) =
      some (some (String.ofList (reversed.reverse ++ cs)), rest) := by
  induction cs generalizing reversed with
  | nil =>
    rw [List.append_nil]
    rfl
  | cons c cs ih =>
    rw [List.flatMap_cons, List.append_assoc, stringTail_escapeChar, ih, List.reverse_cons, List.append_assoc,
      List.singleton_append]

/-- A quoted text is read up to its closing quote. -/
theorem stringTail_quote (s : String) (rest : List Char) :
    stringTail {} (s.toList.flatMap escapeChar ++ '"' :: rest) = some (some s, rest) := by
  rw [stringTail_flatMap]
  simp

/-! ### Whole numbers -/

/-- What follows a number does not go on with it. -/
def EndsNumber (rest : List Char) : Prop :=
  ∀ c ∈ rest.head?, digit? c = none ∧ c ≠ '.' ∧ c ≠ 'e' ∧ c ≠ 'E'

theorem digit?_of_isDigit {c : Char} (h : c.isDigit = true) : digit? c = some (c.toNat - '0'.toNat) := by
  simp only [Char.isDigit, ge_iff_le, Bool.and_eq_true, decide_eq_true_eq] at h
  exact if_pos h

theorem leadingDigits_append {ds rest : List Char} (hd : ∀ c ∈ ds, c.isDigit = true) (hr : EndsNumber rest) :
    leadingDigits (ds ++ rest) = (ds.map fun c => c.toNat - '0'.toNat, rest) := by
  have hend : (rest.takeWhile fun c => (digit? c).isSome) = [] ∧ (rest.dropWhile fun c => (digit? c).isSome) = rest := by
    cases rest with
    | nil => exact ⟨rfl, rfl⟩
    | cons c cs =>
      have hc := (hr c rfl).1
      simp [hc]
  induction ds with
  | nil =>
    simp only [leadingDigits, List.nil_append, hend, List.filterMap_nil, List.map_nil]
  | cons c cs ih =>
    have hc := digit?_of_isDigit (hd c List.mem_cons_self)
    have hcs := ih fun x hx => hd x (List.mem_cons_of_mem _ hx)
    simp only [leadingDigits, Prod.mk.injEq] at hcs
    simp only [leadingDigits, List.cons_append, List.takeWhile_cons, List.dropWhile_cons, hc, Option.isSome_some,
      if_true, List.filterMap_cons, List.map_cons, hcs]

theorem le_ofDigitChars (ds : List Char) (start : Nat) : start ≤ Nat.ofDigitChars 10 ds start := by
  induction ds generalizing start with
  | nil => exact Nat.le_refl _
  | cons c cs ih =>
    rw [Nat.ofDigitChars_cons]
    have hle := ih (10 * start + (c.toNat - '0'.toNat))
    omega

theorem absorb_digits {ds : List Char} (start : Nat) (h : Nat.ofDigitChars 10 ds start < 18446744073709551616) :
    absorb start (ds.map fun c => c.toNat - '0'.toNat) = (Nat.ofDigitChars 10 ds start, []) := by
  induction ds generalizing start with
  | nil => rfl
  | cons c cs ih =>
    rw [Nat.ofDigitChars_cons] at h ⊢
    have hle : 10 * start + (c.toNat - '0'.toNat) ≤ Nat.ofDigitChars 10 cs (10 * start + (c.toNat - '0'.toNat)) :=
      le_ofDigitChars cs _
    simp only [List.map_cons, absorb]
    rw [if_pos (by omega), Nat.mul_comm start 10, ih _ h]

/-- A number does not start with a zero, unless it is zero. -/
theorem head?_toDigits {n : Nat} (h : 0 < n) : (Nat.toDigits 10 n).head? ≠ some '0' := by
  induction n using Nat.strongRecOn with
  | ind n ih =>
    rw [Nat.toDigits_eq_if (by decide)]
    split
    · have hdigits : ∀ d < 10, 0 < d → [Nat.digitChar d].head? ≠ some '0' := by decide
      exact hdigits n (by omega) h
    · have hfront := ih (n / 10) (by omega) (by omega)
      rw [List.head?_append_of_ne_nil _ Nat.toDigits_ne_nil]
      exact hfront

theorem fractionPart_of_ends {rest : List Char} (hr : EndsNumber rest) : fractionPart rest = some (none, rest) := by
  cases rest with
  | nil => rfl
  | cons c cs =>
    have hdot := (hr c rfl).2.1
    unfold fractionPart
    split
    · rename_i h
      exact absurd (List.cons.inj h).1 hdot
    · rfl

theorem exponentPart_of_ends {rest : List Char} (hr : EndsNumber rest) : exponentPart rest = some (none, rest) := by
  cases rest with
  | nil => rfl
  | cons c cs =>
    have hletters := (hr c rfl).2.2
    simp only [exponentPart]
    rw [if_neg (not_or.2 hletters)]

/-- The digits of a number are taken whole, for no zero leads them. -/
theorem numberTail_toDigits (negative : Bool) (n : Nat) {rest : List Char} (hr : EndsNumber rest) :
    numberTail negative (Nat.toDigits 10 n ++ rest) =
      some (ofNumber ⟨negative, (Nat.toDigits 10 n).map fun c => c.toNat - '0'.toNat, none, none⟩, rest) := by
  have hdigits : ∀ c ∈ Nat.toDigits 10 n, c.isDigit = true := fun c hc =>
    Nat.isDigit_of_mem_toDigits (by decide) (by decide) hc
  have hlead : ¬ (((Nat.toDigits 10 n).map fun c => c.toNat - '0'.toNat) = [] ∨
      (((Nat.toDigits 10 n).map fun c => c.toNat - '0'.toNat).head? = some 0 ∧
        ((Nat.toDigits 10 n).map fun c => c.toNat - '0'.toNat) ≠ [0])) := by
    rintro (hnone | ⟨hzero, hmore⟩)
    · exact Nat.toDigits_ne_nil (List.map_eq_nil_iff.1 hnone)
    · rcases Nat.eq_zero_or_pos n with rfl | hpos
      · exact hmore (by decide)
      · obtain ⟨c, hc, hval⟩ := Option.map_eq_some_iff.1 (List.head?_map ▸ hzero)
        have hdigit := hdigits c (List.mem_of_head? hc)
        have hc0 : c = '0' := by
          have hge : '0'.toNat ≤ c.toNat := by
            simp only [Char.isDigit, ge_iff_le, Bool.and_eq_true, decide_eq_true_eq] at hdigit
            exact hdigit.1
          have heq : c.toNat = '0'.toNat := by omega
          exact Char.ext (UInt32.toNat_inj.1 heq)
        exact head?_toDigits hpos (hc0 ▸ hc)
  rw [numberTail, leadingDigits_append hdigits hr, if_neg hlead]
  simp only [fractionPart_of_ends hr, exponentPart_of_ends hr, Option.bind_eq_bind, Option.bind_some, Option.pure_def]

/-- The whole numbers that a text keeps whole. -/
def InRange (n : Int) : Prop := -9223372036854775808 ≤ n ∧ n < 18446744073709551616

theorem absorb_toDigits {n : Nat} (hn : n < 18446744073709551616) :
    absorb 0 ((Nat.toDigits 10 n).map fun c => c.toNat - '0'.toNat) = (n, []) := by
  have hvalue : Nat.ofDigitChars 10 (Nat.toDigits 10 n) 0 = n := Nat.ofDigitChars_toDigits (by decide) (by decide)
  rw [absorb_digits 0 (by omega), hvalue]

theorem plainValue_of_isDigit {c : Char} (h : c.isDigit = true) (cs : List Char) :
    plainValue (c :: cs) = numberTail false (c :: cs) := by
  unfold plainValue
  split
  all_goals first
    | rfl
    | (rename_i heq
       rw [(List.cons.inj heq).1] at h
       exact absurd h (by decide))

theorem toDigits_eq_cons (n : Nat) : ∃ c cs, Nat.toDigits 10 n = c :: cs ∧ c.isDigit = true := by
  obtain ⟨c, cs, hdigits⟩ := List.exists_cons_of_ne_nil (Nat.toDigits_ne_nil (b := 10) (n := n))
  exact ⟨c, cs, hdigits,
    Nat.isDigit_of_mem_toDigits (b := 10) (n := n) (by decide) (by decide) (hdigits ▸ List.mem_cons_self)⟩

theorem plainValue_toDigits (n : Nat) (rest : List Char) :
    plainValue (Nat.toDigits 10 n ++ rest) = numberTail false (Nat.toDigits 10 n ++ rest) := by
  obtain ⟨c, cs, hdigits, hc⟩ := toDigits_eq_cons n
  rw [hdigits, List.cons_append]
  exact plainValue_of_isDigit hc _

theorem renderChars_ofNat (n : Nat) : renderChars (.int n) = Nat.toDigits 10 n := by
  rw [renderChars, Int.toString_eq_repr, Int.repr_eq_if, if_pos (Int.natCast_nonneg n), Int.toNat_natCast,
    Nat.toList_repr]

theorem renderChars_negSucc (n : Nat) : renderChars (.int (.negSucc n)) = '-' :: Nat.toDigits 10 (n + 1) := by
  rw [renderChars, Int.toString_eq_repr, Int.repr_eq_if, if_neg (by omega), String.toList_append, Nat.toList_repr]
  rfl

theorem plainValue_int {n : Int} (hn : InRange n) {rest : List Char} (hr : EndsNumber rest) :
    plainValue (renderChars (.int n) ++ rest) = some (.int n, rest) := by
  obtain ⟨hlow, hhigh⟩ := hn
  cases n with
  | ofNat n =>
    rw [Int.ofNat_eq_natCast] at hhigh ⊢
    have hparts : ofNumber ⟨false, (Nat.toDigits 10 n).map fun c => c.toNat - '0'.toNat, none, none⟩ = .int n := by
      simp only [ofNumber, absorb_toDigits (show n < 18446744073709551616 by omega)]
      rfl
    rw [renderChars_ofNat, plainValue_toDigits, numberTail_toDigits false n hr, hparts]
  | negSucc n =>
    have hparts : ofNumber ⟨true, (Nat.toDigits 10 (n + 1)).map fun c => c.toNat - '0'.toNat, none, none⟩ =
        .int (.negSucc n) := by
      simp only [ofNumber, absorb_toDigits (show n + 1 < 18446744073709551616 by omega)]
      rw [if_neg (by simp), if_neg (by decide), if_neg (by omega)]
      rfl
    rw [renderChars_negSucc, List.cons_append]
    show numberTail true (Nat.toDigits 10 (n + 1) ++ rest) = _
    rw [numberTail_toDigits true (n + 1) hr, hparts]

/-! ### Values -/

mutual
/-- Values that text holds without loss: no doubles, and whole numbers of 64 bits. -/
def exact : Json → Prop
  | .null | .bool _ | .str _ => True
  | .int n => InRange n
  | .float _ | .unreadable => False
  | .arr items => exactItems items
  | .obj members => exactMembers members
def exactItems : List Json → Prop
  | [] => True
  | j :: rest => j.exact ∧ exactItems rest
def exactMembers : List (String × Json) → Prop
  | [] => True
  | (_, j) :: rest => j.exact ∧ exactMembers rest
end

/-- A written value starts with no blank, and not as the end of a list. -/
def StartsValue (cs : List Char) : Prop := ∃ c rest, cs = c :: rest ∧ isBlank c = false ∧ c ≠ ']'

theorem StartsValue.append {cs : List Char} (h : StartsValue cs) (rest : List Char) : StartsValue (cs ++ rest) := by
  obtain ⟨c, cs, rfl, hc⟩ := h
  exact ⟨c, cs ++ rest, rfl, hc⟩

theorem isBlank_of_isDigit {c : Char} (h : c.isDigit = true) : isBlank c = false := by
  by_contra hblank
  rw [Bool.not_eq_false, isBlank] at hblank
  simp only [Bool.or_eq_true, beq_iff_eq] at hblank
  rcases hblank with ((rfl | rfl) | rfl) | rfl <;> exact absurd h (by decide)

theorem ne_of_isDigit {c d : Char} (hc : c.isDigit = true) (hd : d.isDigit = false) : c ≠ d := by
  rintro rfl
  exact absurd hc (by rw [hd]; exact Bool.false_ne_true)

theorem startsValue_toDigits (n : Nat) : StartsValue (Nat.toDigits 10 n) := by
  obtain ⟨c, cs, hdigits, hc⟩ := toDigits_eq_cons n
  exact ⟨c, cs, hdigits, isBlank_of_isDigit hc, ne_of_isDigit hc (by decide)⟩

theorem startsValue_renderChars {j : Json} (hj : j.exact) : StartsValue (renderChars j) := by
  cases j with
  | null => exact ⟨_, _, rfl, by decide, by decide⟩
  | bool b => cases b <;> exact ⟨_, _, rfl, by decide, by decide⟩
  | int n =>
    cases n with
    | ofNat n =>
      rw [Int.ofNat_eq_natCast, renderChars_ofNat]
      exact startsValue_toDigits n
    | negSucc n =>
      rw [renderChars_negSucc]
      exact ⟨_, _, rfl, by decide, by decide⟩
  | float => exact hj.elim
  | unreadable => exact hj.elim
  | str s => exact ⟨'"', s.toList.flatMap escapeChar ++ ['"'], by rw [renderChars, quote, List.cons_append], by decide, by decide⟩
  | arr items => exact ⟨'[', renderItems items, by rw [renderChars], by decide, by decide⟩
  | obj members => exact ⟨'{', renderMembers members, by rw [renderChars], by decide, by decide⟩

theorem renderItems_more (j : Json) {js : List Json} (hne : js ≠ []) :
    renderItems (j :: js) = renderChars j ++ ',' :: renderItems js := by
  rw [renderItems]
  exact hne

theorem renderMembers_more (k : String) (j : Json) {ms : List (String × Json)} (hne : ms ≠ []) :
    renderMembers ((k, j) :: ms) = quote k ++ ':' :: (renderChars j ++ ',' :: renderMembers ms) := by
  rw [renderMembers]
  · rw [List.append_assoc, List.cons_append]
  · exact hne

theorem renderMembers_one (k : String) (j : Json) :
    renderMembers [(k, j)] = quote k ++ ':' :: (renderChars j ++ ['}']) := by
  rw [renderMembers, List.append_assoc, List.cons_append]

theorem exists_renderMembers (k : String) (j : Json) (ms : List (String × Json)) :
    ∃ tail, renderMembers ((k, j) :: ms) = quote k ++ tail := by
  cases ms with
  | nil => exact ⟨_, renderMembers_one k j⟩
  | cons m ms => exact ⟨_, renderMembers_more k j (List.cons_ne_nil m ms)⟩

theorem startsValue_renderItems {js : List Json} (hne : js ≠ []) (hjs : exactItems js) : StartsValue (renderItems js) := by
  cases js with
  | nil => exact absurd rfl hne
  | cons j rest =>
    have hj := startsValue_renderChars hjs.1
    cases rest with
    | nil =>
      rw [renderItems]
      exact hj.append _
    | cons k rest =>
      rw [renderItems_more j (List.cons_ne_nil k rest)]
      exact hj.append _

theorem skipBlanks_of_starts {cs : List Char} (h : StartsValue cs) : skipBlanks cs = cs := by
  obtain ⟨c, rest, rfl, hc, -⟩ := h
  simp [skipBlanks, hc]

theorem ofMembers_some (ms : List (String × Json)) : ofMembers (ms.map fun m => (some m.1, m.2)) = .obj ms := by
  have hall : (ms.map fun m => (some m.1, m.2)).mapM (fun m : Option String × Json => m.1.map fun k => (k, m.2)) =
      some ms := by
    induction ms with
    | nil => rfl
    | cons m ms ih => simp [ih]
  rw [ofMembers, hall]

/-- What is read of a written value, and what is read of the parts of one. -/
structure Reads (fuel : Nat) : Prop where
  value {j : Json} {rest : List Char} (hj : j.exact) (hr : EndsNumber rest) (hfuel : (renderChars j).length ≤ fuel) :
    value fuel (renderChars j ++ rest) = some (j, rest)
  items {js : List Json} {rest : List Char} (hne : js ≠ []) (hjs : exactItems js)
    (hfuel : (renderItems js).length ≤ fuel) :
    items fuel (renderItems js ++ rest) = some (js, rest)
  members {ms : List (String × Json)} {rest : List Char} (hne : ms ≠ []) (hms : exactMembers ms)
    (hfuel : (renderMembers ms).length ≤ fuel) :
    members fuel (renderMembers ms ++ rest) = some (ms.map fun m => (some m.1, m.2), rest)

/-! One step of the reader per kind of value. -/

theorem value_str (fuel : Nat) (s : String) (rest : List Char) :
    value (fuel + 1) (quote s ++ rest) = some (.str s, rest) := by
  rw [quote, List.cons_append, List.cons_append, List.append_assoc, List.singleton_append]
  simp [value, skipBlanks, isBlank, stringTail_quote]

theorem value_arr {fuel : Nat} {cs rest : List Char} {js : List Json} (hcs : StartsValue cs)
    (hitems : Json.items fuel cs = some (js, rest)) : value (fuel + 1) ('[' :: cs) = some (.arr js, rest) := by
  have hopen : skipBlanks ('[' :: cs) = '[' :: cs := rfl
  simp only [value, hopen, skipBlanks_of_starts hcs]
  split
  · obtain ⟨c, cs', heq, -, hend⟩ := hcs
    exact absurd (List.cons.inj heq).1.symm hend
  · rw [hitems]
    rfl

theorem value_obj {fuel : Nat} {k : String} {cs rest : List Char} {ms : List (Option String × Json)}
    (hmembers : Json.members fuel (quote k ++ cs) = some (ms, rest)) :
    value (fuel + 1) ('{' :: (quote k ++ cs)) = some (ofMembers ms, rest) := by
  have hopen : skipBlanks ('{' :: (quote k ++ cs)) = '{' :: (quote k ++ cs) := rfl
  have hkey : skipBlanks (quote k ++ cs) = quote k ++ cs := rfl
  simp only [value, hopen, hkey]
  split
  · rename_i heq
    exact absurd (List.cons.inj heq).1 (by decide)
  · rw [hmembers]
    rfl

theorem value_plain {c : Char} (hblank : isBlank c = false) (hquote : c ≠ '"') (hlist : c ≠ '[') (hobject : c ≠ '{')
    (fuel : Nat) (cs : List Char) : value (fuel + 1) (c :: cs) = plainValue (c :: cs) := by
  have hskip : skipBlanks (c :: cs) = c :: cs := by simp [skipBlanks, hblank]
  simp only [value, hskip]
  split
  · rename_i heq
    exact absurd (List.cons.inj heq).1 hquote
  · rename_i heq
    exact absurd (List.cons.inj heq).1 hlist
  · rename_i heq
    exact absurd (List.cons.inj heq).1 hobject
  · rfl

theorem items_last {fuel : Nat} {cs rest : List Char} {j : Json} (hvalue : value fuel cs = some (j, ']' :: rest)) :
    items (fuel + 1) cs = some ([j], rest) := by
  rw [items, hvalue]
  rfl

theorem items_more {fuel : Nat} {cs tail rest : List Char} {j : Json} {js : List Json}
    (hvalue : value fuel cs = some (j, ',' :: tail)) (hitems : items fuel tail = some (js, rest)) :
    items (fuel + 1) cs = some (j :: js, rest) := by
  have hcomma : skipBlanks (',' :: tail) = ',' :: tail := rfl
  simp [items, hvalue, hcomma, hitems]

theorem members_last {fuel : Nat} {cs rest : List Char} {j : Json} (k : String)
    (hvalue : value fuel cs = some (j, '}' :: rest)) :
    members (fuel + 1) (quote k ++ ':' :: cs) = some ([(some k, j)], rest) := by
  have hkey : skipBlanks (quote k ++ ':' :: cs) = quote k ++ ':' :: cs := rfl
  have hcolon : skipBlanks (':' :: cs) = ':' :: cs := rfl
  have hclose : skipBlanks ('}' :: rest) = '}' :: rest := rfl
  rw [members, hkey]
  simp [quote, stringTail_quote, hcolon, hvalue, hclose]

theorem members_more {fuel : Nat} {cs tail rest : List Char} {j : Json} {ms : List (Option String × Json)} (k : String)
    (hvalue : value fuel cs = some (j, ',' :: tail)) (hmembers : members fuel tail = some (ms, rest)) :
    members (fuel + 1) (quote k ++ ':' :: cs) = some ((some k, j) :: ms, rest) := by
  have hkey : skipBlanks (quote k ++ ':' :: cs) = quote k ++ ':' :: cs := rfl
  have hcolon : skipBlanks (':' :: cs) = ':' :: cs := rfl
  have hcomma : skipBlanks (',' :: tail) = ',' :: tail := rfl
  rw [members, hkey]
  simp [quote, stringTail_quote, hcolon, hvalue, hcomma, hmembers]

theorem endsNumber_cons {c : Char} (h : c = ',' ∨ c = ']' ∨ c = '}') (rest : List Char) : EndsNumber (c :: rest) := by
  rintro d hd
  cases hd
  rcases h with rfl | rfl | rfl <;> decide

theorem value_int (fuel : Nat) {n : Int} (hn : InRange n) {rest : List Char} (hr : EndsNumber rest) :
    value (fuel + 1) (renderChars (.int n) ++ rest) = some (.int n, rest) := by
  rw [← plainValue_int hn hr]
  cases n with
  | ofNat n =>
    obtain ⟨c, cs, hdigits, hc⟩ := toDigits_eq_cons n
    rw [Int.ofNat_eq_natCast, renderChars_ofNat, hdigits, List.cons_append]
    exact value_plain (isBlank_of_isDigit hc) (ne_of_isDigit hc (by decide)) (ne_of_isDigit hc (by decide))
      (ne_of_isDigit hc (by decide)) _ _
  | negSucc n =>
    rw [renderChars_negSucc, List.cons_append]
    exact value_plain (by decide) (by decide) (by decide) (by decide) _ _

theorem Reads.nextValue {fuel : Nat} (h : Reads fuel) {j : Json} {rest : List Char} (hj : j.exact) (hr : EndsNumber rest)
    (hfuel : (renderChars j).length ≤ fuel + 1) : Json.value (fuel + 1) (renderChars j ++ rest) = some (j, rest) := by
  cases j with
  | null => exact value_plain (by decide) (by decide) (by decide) (by decide) _ _
  | bool b => cases b <;> exact value_plain (by decide) (by decide) (by decide) (by decide) _ _
  | int n => exact value_int fuel hj hr
  | float => exact hj.elim
  | unreadable => exact hj.elim
  | str s =>
    rw [renderChars]
    exact value_str fuel s rest
  | arr js =>
    rw [renderChars, List.cons_append]
    rw [renderChars, List.length_cons] at hfuel
    rcases js with _ | ⟨j, js⟩
    · rw [renderItems]
      rfl
    · have hne : j :: js ≠ [] := List.cons_ne_nil j js
      exact value_arr ((startsValue_renderItems hne hj).append rest) (h.items hne hj (by omega))
  | obj ms =>
    rw [renderChars, List.cons_append]
    rw [renderChars, List.length_cons] at hfuel
    rcases ms with _ | ⟨⟨k, j⟩, ms⟩
    · rw [renderMembers]
      rfl
    · have hmembers : Json.members fuel (renderMembers ((k, j) :: ms) ++ rest) =
          some (((k, j) :: ms).map fun m => (some m.1, m.2), rest) := h.members (List.cons_ne_nil _ ms) hj (by omega)
      obtain ⟨tail, htail⟩ := exists_renderMembers k j ms
      rw [htail, List.append_assoc] at hmembers ⊢
      rw [value_obj hmembers, ofMembers_some]

theorem Reads.nextItems {fuel : Nat} (h : Reads fuel) {js : List Json} {rest : List Char} (hne : js ≠ [])
    (hjs : exactItems js) (hfuel : (renderItems js).length ≤ fuel + 1) :
    Json.items (fuel + 1) (renderItems js ++ rest) = some (js, rest) := by
  match js with
  | [] => exact absurd rfl hne
  | [j] =>
    rw [renderItems, List.append_assoc]
    rw [renderItems, List.length_append, List.length_singleton] at hfuel
    exact items_last (h.value hjs.1 (endsNumber_cons (by simp) _) (by omega))
  | j :: k :: js =>
    have hmore : k :: js ≠ [] := List.cons_ne_nil k js
    rw [renderItems_more j hmore, List.length_append, List.length_cons] at hfuel
    rw [renderItems_more j hmore, List.append_assoc]
    exact items_more (h.value hjs.1 (endsNumber_cons (by simp) _) (by omega)) (h.items hmore hjs.2 (by omega))

theorem Reads.nextMembers {fuel : Nat} (h : Reads fuel) {ms : List (String × Json)} {rest : List Char} (hne : ms ≠ [])
    (hms : exactMembers ms) (hfuel : (renderMembers ms).length ≤ fuel + 1) :
    Json.members (fuel + 1) (renderMembers ms ++ rest) = some (ms.map fun m => (some m.1, m.2), rest) := by
  match ms with
  | [] => exact absurd rfl hne
  | [(k, j)] =>
    rw [renderMembers_one, List.length_append, List.length_cons, List.length_append, List.length_singleton] at hfuel
    rw [renderMembers_one, List.append_assoc, List.cons_append, List.append_assoc]
    exact members_last k (h.value hms.1 (endsNumber_cons (by simp) _) (by omega))
  | (k, j) :: m :: ms =>
    have hmore : m :: ms ≠ [] := List.cons_ne_nil m ms
    rw [renderMembers_more k j hmore, List.length_append, List.length_cons, List.length_append, List.length_cons] at hfuel
    rw [renderMembers_more k j hmore, List.append_assoc, List.cons_append, List.append_assoc]
    exact members_more k (h.value hms.1 (endsNumber_cons (by simp) _) (by omega)) (h.members hmore hms.2 (by omega))

/-- Fuel for every character is enough. -/
theorem reads (fuel : Nat) : Reads fuel := by
  induction fuel with
  | zero =>
    constructor
    · intro j rest hj _ hfuel
      obtain ⟨c, cs, hstart, -⟩ := startsValue_renderChars hj
      rw [hstart, List.length_cons] at hfuel
      omega
    · intro js rest hne hjs hfuel
      obtain ⟨c, cs, hstart, -⟩ := startsValue_renderItems hne hjs
      rw [hstart, List.length_cons] at hfuel
      omega
    · intro ms rest hne _ hfuel
      obtain ⟨⟨k, j⟩, ms, rfl⟩ := List.exists_cons_of_ne_nil hne
      obtain ⟨tail, htail⟩ := exists_renderMembers k j ms
      rw [htail, quote, List.cons_append, List.cons_append, List.length_cons] at hfuel
      omega
  | succ fuel ih => exact ⟨ih.nextValue, ih.nextItems, ih.nextMembers⟩

/-- A value without loss is read back from its text. -/
theorem parse_render {j : Json} (hj : j.exact) : parse j.render = some j := by
  have hends : EndsNumber [] := by
    intro c hc
    cases hc
  have hread := (reads ((renderChars j).length + 1)).value hj hends (by omega)
  rw [List.append_nil] at hread
  simp [parse, render, String.toList_ofList, hread, skipBlanks]

/-! ### One line -/

theorem newline_notMem_escapeChar (c : Char) : '\n' ∉ escapeChar c := by
  have hletter : ∀ n < 16, hexLetter n ≠ '\n' := by decide
  unfold escapeChar
  split
  all_goals try decide
  rename_i hnewline _ _
  split
  · rename_i hlow
    simp only [List.mem_cons, List.not_mem_nil, or_false]
    rintro (h | h | h | h | h | h)
    · exact absurd h (by decide)
    · exact absurd h (by decide)
    · exact absurd h (by decide)
    · exact absurd h (by decide)
    · exact hletter _ (by omega) h.symm
    · exact hletter _ (by omega) h.symm
  · exact fun h => hnewline (List.mem_singleton.1 h).symm

theorem newline_notMem_quote (s : String) : '\n' ∉ quote s := by
  rw [quote, List.cons_append, List.mem_cons, List.mem_append, List.mem_flatMap]
  rintro (h | ⟨c, -, h⟩ | h)
  · exact absurd h (by decide)
  · exact newline_notMem_escapeChar c h
  · exact absurd h (by decide)

theorem newline_notMem_toDigits (n : Nat) : '\n' ∉ Nat.toDigits 10 n := fun h =>
  absurd (Nat.isDigit_of_mem_toDigits (by decide) (by decide) h) (by decide)

mutual
theorem newline_notMem_renderChars : (j : Json) → j.exact → '\n' ∉ renderChars j
  | .null, _ | .bool true, _ | .bool false, _ => by decide
  | .int (.ofNat n), _ => by
    rw [Int.ofNat_eq_natCast, renderChars_ofNat]
    exact newline_notMem_toDigits n
  | .int (.negSucc n), _ => by
    rw [renderChars_negSucc, List.mem_cons, not_or]
    exact ⟨by decide, newline_notMem_toDigits (n + 1)⟩
  | .str s, _ => by
    rw [renderChars]
    exact newline_notMem_quote s
  | .arr items, h => by
    rw [renderChars, List.mem_cons, not_or]
    exact ⟨by decide, newline_notMem_renderItems items h⟩
  | .obj members, h => by
    rw [renderChars, List.mem_cons, not_or]
    exact ⟨by decide, newline_notMem_renderMembers members h⟩
theorem newline_notMem_renderItems : (js : List Json) → exactItems js → '\n' ∉ renderItems js
  | [], _ => by decide
  | [j], h => by
    rw [renderItems, List.mem_append, not_or]
    exact ⟨newline_notMem_renderChars j h.1, by decide⟩
  | j :: k :: js, h => by
    rw [renderItems_more j (List.cons_ne_nil k js), List.mem_append, List.mem_cons, not_or, not_or]
    exact ⟨newline_notMem_renderChars j h.1, by decide, newline_notMem_renderItems (k :: js) h.2⟩
theorem newline_notMem_renderMembers : (ms : List (String × Json)) → exactMembers ms → '\n' ∉ renderMembers ms
  | [], _ => by decide
  | [(k, j)], h => by
    rw [renderMembers_one, List.mem_append, List.mem_cons, List.mem_append, not_or, not_or, not_or]
    exact ⟨newline_notMem_quote k, by decide, newline_notMem_renderChars j h.1, by decide⟩
  | (k, j) :: m :: ms, h => by
    rw [renderMembers_more k j (List.cons_ne_nil m ms), List.mem_append, List.mem_cons, List.mem_append, List.mem_cons,
      not_or, not_or, not_or, not_or]
    exact ⟨newline_notMem_quote k, by decide, newline_notMem_renderChars j h.1, by decide,
      newline_notMem_renderMembers (m :: ms) h.2⟩
end

/-! ### Values that a text keeps as they are -/

mutual
theorem readable_of_exact : (j : Json) → j.exact → j.readable = true
  | .null, _ | .bool _, _ | .int _, _ | .str _, _ => rfl
  | .arr items, h => readableItems_of_exact items h
  | .obj members, h => readableMembers_of_exact members h
theorem readableItems_of_exact : (js : List Json) → exactItems js → readableItems js = true
  | [], _ => rfl
  | j :: js, h => Bool.and_eq_true_iff.2 ⟨readable_of_exact j h.1, readableItems_of_exact js h.2⟩
theorem readableMembers_of_exact : (ms : List (String × Json)) → exactMembers ms → readableMembers ms = true
  | [], _ => rfl
  | (_, j) :: ms, h => Bool.and_eq_true_iff.2 ⟨readable_of_exact j h.1, readableMembers_of_exact ms h.2⟩
end

theorem insertMember_last {k : String} (v : Json) {ms : List (String × Json)} (h : ∀ m ∈ ms, m.1 < k) :
    insertMember k v ms = ms ++ [(k, v)] := by
  induction ms with
  | nil => rfl
  | cons m ms ih =>
    have hm : m.1 < k := h m List.mem_cons_self
    rw [insertMember, if_neg (String.lt_asymm hm), if_neg (fun heq : k = m.1 => String.lt_irrefl k (heq ▸ hm)),
      ih fun x hx => h x (List.mem_cons_of_mem m hx), List.cons_append]

/-- Members in the order of their keys stay where they are. -/
theorem normalMembers_sorted {ms sorted : List (String × Json)} (hnormal : ∀ m ∈ ms, m.2.normal = m.2)
    (hkeys : ((sorted ++ ms).map Prod.fst).Pairwise (· < ·)) : normalMembers ms sorted = sorted ++ ms := by
  induction ms generalizing sorted with
  | nil => rw [normalMembers, List.append_nil]
  | cons m ms ih =>
    have hlast : ∀ x ∈ sorted, x.1 < m.1 := by
      intro x hx
      rw [List.map_append, List.pairwise_append] at hkeys
      exact hkeys.2.2 x.1 (List.mem_map_of_mem hx) m.1 (List.mem_map_of_mem List.mem_cons_self)
    have hone : sorted ++ m :: ms = (sorted ++ [m]) ++ ms := by rw [List.append_assoc, List.singleton_append]
    rw [hone] at hkeys ⊢
    rw [normalMembers, hnormal m List.mem_cons_self, insertMember_last m.2 hlast]
    exact ih (fun x hx => hnormal x (List.mem_cons_of_mem m hx)) hkeys

/-- A value whose text is read back as it is, nested no deeper than said. -/
structure Kept (depth : Nat) (j : Json) : Prop where
  exact : j.exact
  normal : j.normal = j
  shallow : j.depth ≤ depth

theorem Kept.int {n : Int} (h : InRange n) : Kept 0 (.int n) := ⟨h, rfl, Nat.le_refl 0⟩

theorem Kept.str (s : String) : Kept 0 (.str s) := ⟨trivial, rfl, Nat.le_refl 0⟩

theorem Kept.mono {d e : Nat} {j : Json} (h : Kept d j) (hde : d ≤ e) : Kept e j :=
  ⟨h.exact, h.normal, Nat.le_trans h.shallow hde⟩

theorem Kept.arr {d : Nat} {js : List Json} (h : ∀ j ∈ js, Kept d j) : Kept (d + 1) (.arr js) := by
  have hall : exactItems js ∧ normalItems js = js ∧ depthItems js ≤ d := by
    induction js with
    | nil => exact ⟨trivial, rfl, Nat.zero_le d⟩
    | cons j js ih =>
      have hj := h j List.mem_cons_self
      have hjs := ih fun x hx => h x (List.mem_cons_of_mem j hx)
      refine ⟨⟨hj.exact, hjs.1⟩, ?_, Nat.max_le.2 ⟨hj.shallow, hjs.2.2⟩⟩
      rw [normalItems, hj.normal, hjs.2.1]
  obtain ⟨hexact, hnormal, hdepth⟩ := hall
  refine ⟨hexact, ?_, Nat.succ_le_succ hdepth⟩
  rw [Json.normal, hnormal]

theorem Kept.obj {d : Nat} {ms : List (String × Json)} (hkeys : (ms.map Prod.fst).Pairwise (· < ·))
    (h : ∀ m ∈ ms, Kept d m.2) : Kept (d + 1) (.obj ms) := by
  have hmembers : exactMembers ms ∧ depthMembers ms ≤ d := by
    clear hkeys
    induction ms with
    | nil => exact ⟨trivial, Nat.zero_le d⟩
    | cons m ms ih =>
      have hm := h m List.mem_cons_self
      have hms := ih fun x hx => h x (List.mem_cons_of_mem m hx)
      exact ⟨⟨hm.exact, hms.1⟩, Nat.max_le.2 ⟨hm.shallow, hms.2⟩⟩
  have hnormal : normalMembers ms [] = [] ++ ms := normalMembers_sorted (fun m hm => (h m hm).normal) hkeys
  refine ⟨hmembers.1, ?_, Nat.succ_le_succ hmembers.2⟩
  rw [Json.normal, hnormal, List.nil_append]

/-! ### Numbers of the machine -/

theorem Kept.ofInt32 (n : Int32) : Kept 0 (ofInt32 n) := by
  have hlow := n.le_toInt
  have hhigh := n.toInt_lt
  exact .int ⟨by omega, by omega⟩

theorem Kept.ofInt64 (n : Int64) : Kept 0 (ofInt64 n) := by
  have hlow := n.le_toInt
  have hhigh := n.toInt_lt
  exact .int ⟨by omega, by omega⟩

theorem Kept.ofUInt64 (n : UInt64) : Kept 0 (ofUInt64 n) := by
  have hhigh := n.toNat_lt
  exact .int ⟨by omega, by omega⟩

end TraceRollup.Json
