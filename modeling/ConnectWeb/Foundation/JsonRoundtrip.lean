import ConnectWeb.Foundation.Json
import Mathlib.Data.List.TakeDrop
import Mathlib.Tactic.IntervalCases
import Mathlib.Tactic.Ring

/-!
# Reading back what was written

A text printed in any `Style` parses to the value it was printed from.  Inside a larger
text the reader stops where the printed value stops; only a number needs to know that what
follows cannot prolong it.
-/

namespace ConnectWeb.Json

/-! ## Blanks -/

theorem skipBlanks_append {blanks : List Char} (h : ∀ c ∈ blanks, isBlank c = true)
    (l : List Char) : skipBlanks (blanks ++ l) = skipBlanks l := by
  induction blanks with
  | nil => rfl
  | cons c blanks ih =>
      rw [skipBlanks, List.cons_append, List.dropWhile_cons_of_pos (h c (List.mem_cons_self ..))]
      exact ih fun d hd ↦ h d (List.mem_cons_of_mem _ hd)

theorem skipBlanks_cons {c : Char} (h : isBlank c = false) (l : List Char) :
    skipBlanks (c :: l) = c :: l :=
  List.dropWhile_cons_of_neg (by simp [h])

/-- Blanks in front of a value do not matter. -/
theorem parseValue_blanks {blanks : List Char} (h : ∀ c ∈ blanks, isBlank c = true) (fuel : Nat)
    (l : List Char) : parseValue fuel (blanks ++ l) = parseValue fuel l := by
  cases fuel with
  | zero => rfl
  | succ fuel => simp only [parseValue, skipBlanks_append h]

theorem parseMembers_blanks {blanks : List Char} (h : ∀ c ∈ blanks, isBlank c = true)
    (fuel : Nat) (l : List Char) : parseMembers fuel (blanks ++ l) = parseMembers fuel l := by
  cases fuel with
  | zero => rfl
  | succ fuel => simp only [parseMembers, skipBlanks_append h]

theorem parseElems_blanks {blanks : List Char} (h : ∀ c ∈ blanks, isBlank c = true)
    (fuel : Nat) (l : List Char) : parseElems fuel (blanks ++ l) = parseElems fuel l := by
  cases fuel with
  | zero => rfl
  | succ fuel => simp only [parseElems, parseValue_blanks h]

/-! ## Strings -/

/-- A quote starts no character. -/
theorem parseChar_quote (rest : List Char) : parseChar ('"' :: rest) = none := by
  simp [parseChar]

theorem parseChars_escape (style : Style) (cs rest : List Char) (fuel : Nat)
    (h : cs.length < fuel) :
    parseChars fuel (cs.flatMap style.escape ++ '"' :: rest) = some (cs, rest) := by
  induction cs generalizing fuel with
  | nil =>
      obtain ⟨fuel, rfl⟩ := Nat.exists_eq_add_of_lt h
      rfl
  | cons c cs ih =>
      obtain ⟨fuel, rfl⟩ : ∃ k, fuel = k + 1 := ⟨fuel - 1, by simp at h; omega⟩
      have hc := style.parseChar_escape c (cs.flatMap style.escape ++ '"' :: rest)
      have hquote : ∀ later, style.escape c ++ (cs.flatMap style.escape ++ '"' :: rest) =
          '"' :: later → False := by
        intro later heq
        rw [heq, parseChar_quote] at hc
        cases hc
      rw [List.flatMap_cons, List.append_assoc, parseChars, hc]
      · simp only [ih fuel (by simpa using h), Option.map_some]
      · exact hquote

/-- Escaping a character writes at least one. -/
theorem Style.length_escape_pos (style : Style) (c : Char) : 0 < (style.escape c).length := by
  rcases h : style.escape c with _ | ⟨d, l⟩
  · have := style.parseChar_escape c []
    rw [h] at this
    cases this
  · simp

theorem Style.length_le_flatMap_escape (style : Style) (cs : List Char) :
    cs.length ≤ (cs.flatMap style.escape).length := by
  induction cs with
  | nil => simp
  | cons c cs ih =>
      have := style.length_escape_pos c
      simp only [List.flatMap_cons, List.length_append, List.length_cons]
      omega

theorem parseString_print (style : Style) (s : String) (rest : List Char) :
    parseString (s.toList.flatMap style.escape ++ '"' :: rest) = some (s, rest) := by
  have hlen := style.length_le_flatMap_escape s.toList
  rw [parseString, parseChars_escape style _ _ _
    (by rw [List.length_append, List.length_cons]; omega), Option.map_some, String.ofList_toList]

/-! ## Numbers -/

/-- What follows a number cannot prolong it. -/
def Ends (rest : List Char) : Prop :=
  ∀ c, rest.head? = some c → c.isDigit = false ∧ c ≠ '.' ∧ c ≠ 'e' ∧ c ≠ 'E'

theorem span_isDigit {digits rest : List Char} (h : ∀ c ∈ digits, c.isDigit = true)
    (hrest : ∀ c, rest.head? = some c → c.isDigit = false) :
    (digits ++ rest).span Char.isDigit = (digits, rest) := by
  rw [List.span_eq_takeWhile_dropWhile, List.takeWhile_append_of_pos h,
    List.dropWhile_append_of_pos h]
  cases rest with
  | nil => simp
  | cons c rest => simp [hrest c rfl]

theorem head?_toDigits (n : Nat) (h : (Nat.toDigits 10 n).head? = some '0') : n = 0 := by
  induction n using Nat.strongRecOn with
  | _ n ih =>
      by_cases hn : n < 10
      · rw [Nat.toDigits_of_lt_base hn] at h
        have : n.digitChar = '0' := by simpa using h
        interval_cases n <;> first | rfl | exact absurd this (by decide)
      · rw [Nat.toDigits_of_base_le (by decide) (by omega)] at h
        rw [List.head?_append_of_ne_nil _ Nat.toDigits_ne_nil] at h
        have := ih (n / 10) (by omega) h
        omega

theorem isDigit_of_mem_fractionDigits {scale n : Nat} {c : Char}
    (h : c ∈ fractionDigits scale n) : c.isDigit = true := by
  induction scale generalizing n with
  | zero => simp [fractionDigits] at h
  | succ scale ih =>
      rw [fractionDigits, List.mem_append, List.mem_singleton] at h
      rcases h with h | rfl
      · exact ih h
      · simp [Nat.isDigit_digitChar, Nat.mod_lt n (by decide : 0 < 10)]

theorem length_fractionDigits (scale n : Nat) : (fractionDigits scale n).length = scale := by
  induction scale generalizing n with
  | zero => rfl
  | succ scale ih => simp [fractionDigits, ih]

theorem ofDigitChars_fractionDigits (scale n init : Nat) :
    Nat.ofDigitChars 10 (fractionDigits scale n) init = init * 10 ^ scale + n % 10 ^ scale := by
  induction scale generalizing n with
  | zero => simp [fractionDigits, Nat.mod_one]
  | succ scale ih =>
      have hlt : n % 10 < 10 := Nat.mod_lt _ (by decide)
      rw [fractionDigits, Nat.ofDigitChars_append, ih,
        Nat.ofDigitChars_cons_digitChar_of_lt_ten hlt, Nat.ofDigitChars_nil, Nat.pow_succ',
        Nat.mod_mul]
      ring

theorem parseFraction_print (scale n : Nat) {rest : List Char}
    (hrest : ∀ c, rest.head? = some c → c.isDigit = false ∧ c ≠ '.') :
    parseFraction ((if scale = 0 then [] else '.' :: fractionDigits scale n) ++ rest) =
      some (fractionDigits scale n, rest) := by
  by_cases hs : scale = 0
  · subst hs
    rw [if_pos rfl, List.nil_append, parseFraction.eq_def]
    split
    · exact absurd rfl (hrest '.' rfl).2
    · rfl
  · rw [if_neg hs, List.cons_append, parseFraction,
      span_isDigit (fun c ↦ isDigit_of_mem_fractionDigits) fun c hc ↦ (hrest c hc).1]
    have hne : fractionDigits scale n ≠ [] :=
      List.ne_nil_of_length_pos (by rw [length_fractionDigits]; omega)
    simp [hne]

theorem isDigit_of_mem_toDigits {n : Nat} {c : Char} (h : c ∈ Nat.toDigits 10 n) :
    c.isDigit = true :=
  Nat.isDigit_of_mem_toDigits (by decide : 0 < 10) (by decide) h

theorem isDigit_of_mem_exponentDigits {n : Nat} {c : Char} (h : c ∈ exponentDigits n) :
    c.isDigit = true := by
  rw [exponentDigits] at h
  split at h
  · rename_i hn
    simp only [List.mem_cons, List.not_mem_nil, or_false] at h
    rcases h with rfl | rfl
    · rfl
    · simp [Nat.isDigit_digitChar, hn]
  · exact isDigit_of_mem_toDigits h

theorem exponentDigits_ne_nil (n : Nat) : exponentDigits n ≠ [] := by
  rw [exponentDigits]
  split
  · exact List.cons_ne_nil _ _
  · exact Nat.toDigits_ne_nil

theorem ofDigitChars_exponentDigits (n : Nat) :
    Nat.ofDigitChars 10 (exponentDigits n) 0 = n := by
  rw [exponentDigits]
  split
  · rename_i hn
    have hzero : (0 : Nat) < 10 := by decide
    change Nat.ofDigitChars 10 [Nat.digitChar 0, Nat.digitChar n] 0 = n
    rw [Nat.ofDigitChars_cons_digitChar_of_lt_ten hzero,
      Nat.ofDigitChars_cons_digitChar_of_lt_ten hn, Nat.ofDigitChars_nil]
    omega
  · exact Nat.ofDigitChars_toDigits (by decide) (by decide)

theorem parseExponent_print (exponent : Option Int) {rest : List Char} (hrest : Ends rest) :
    parseExponent (printExponent exponent ++ rest) = some (exponent, rest) := by
  cases exponent with
  | none =>
      cases rest with
      | nil => rfl
      | cons c rest =>
          have := hrest c rfl
          simp [printExponent, parseExponent, this.2.2.1, this.2.2.2]
  | some e =>
      have hspan : (exponentDigits e.natAbs ++ rest).span Char.isDigit =
          (exponentDigits e.natAbs, rest) :=
        span_isDigit (fun c ↦ isDigit_of_mem_exponentDigits) fun c hc ↦ (hrest c hc).1
      have hne := exponentDigits_ne_nil e.natAbs
      have hvalue := ofDigitChars_exponentDigits e.natAbs
      by_cases hneg : e < 0
      · have he : -1 * (e.natAbs : Int) = e := by omega
        simp only [printExponent, parseExponent, hneg, if_true, true_or, List.cons_append, hspan,
          hne, if_false, hvalue, he]
      · have he : 1 * (e.natAbs : Int) = e := by omega
        simp only [printExponent, parseExponent, hneg, if_true, true_or, List.cons_append, hspan,
          hne, if_false, hvalue, he]

/-- Behind the digits of a number stands its exponent, or what follows it. -/
theorem head?_printExponent (exponent : Option Int) {rest : List Char} (hrest : Ends rest) :
    ∀ c, (printExponent exponent ++ rest).head? = some c → c.isDigit = false ∧ c ≠ '.' := by
  intro c hc
  cases exponent with
  | none => exact ⟨(hrest c hc).1, (hrest c hc).2.1⟩
  | some e =>
      cases hc
      decide

theorem parseUnsigned_print (n scale : Nat) (exponent : Option Int) {rest : List Char}
    (hrest : Ends rest) :
    parseUnsigned (printUnsigned n scale exponent ++ rest) = some (n, scale, exponent, rest) := by
  have hexponent := head?_printExponent exponent hrest
  have hnext : ∀ c, ((if scale = 0 then [] else '.' :: fractionDigits scale n) ++
      (printExponent exponent ++ rest)).head? = some c → c.isDigit = false := by
    intro c hc
    by_cases hs : scale = 0
    · exact (hexponent c (by simpa [hs] using hc)).1
    · simp only [hs, if_false, List.cons_append, List.head?_cons, Option.some.injEq] at hc
      subst hc
      rfl
  have hvalue : Nat.ofDigitChars 10 (Nat.toDigits 10 (n / 10 ^ scale) ++ fractionDigits scale n) 0 =
      n := by
    rw [Nat.ofDigitChars_append, Nat.ofDigitChars_toDigits (by decide) (by decide),
      ofDigitChars_fractionDigits, Nat.div_add_mod']
  have hzero : ¬ ((Nat.toDigits 10 (n / 10 ^ scale)).head? = some '0' ∧
      1 < (Nat.toDigits 10 (n / 10 ^ scale)).length) := by
    rintro ⟨hhead, hlen⟩
    rw [head?_toDigits _ hhead, Nat.toDigits_zero] at hlen
    simp at hlen
  rw [parseUnsigned, printUnsigned, List.append_assoc, List.append_assoc,
    span_isDigit (fun c ↦ isDigit_of_mem_toDigits) hnext]
  simp only [Nat.toDigits_ne_nil, hzero, or_self, if_false, parseFraction_print scale n hexponent,
    parseExponent_print exponent hrest, hvalue, length_fractionDigits]

/-- An unsigned number starts with a digit. -/
theorem printUnsigned_cons (n scale : Nat) (exponent : Option Int) :
    ∃ c l, printUnsigned n scale exponent = c :: l ∧ c.isDigit = true := by
  rcases h : Nat.toDigits 10 (n / 10 ^ scale) with _ | ⟨c, l⟩
  · exact absurd h Nat.toDigits_ne_nil
  · refine ⟨c, _, by rw [printUnsigned, h]; rfl, ?_⟩
    have hmem : c ∈ Nat.toDigits 10 (n / 10 ^ scale) := by
      rw [h]
      exact List.mem_cons_self ..
    exact isDigit_of_mem_toDigits hmem

theorem parseNumber_print (mantissa : Int) (scale : Nat) (exponent : Option Int)
    {rest : List Char} (hrest : Ends rest) :
    parseNumber (printNumber mantissa scale exponent ++ rest) =
      some (num mantissa scale exponent, rest) := by
  have hparse := parseUnsigned_print mantissa.natAbs scale exponent hrest
  by_cases hneg : mantissa < 0
  · rw [printNumber, if_pos hneg, List.cons_append, parseNumber, hparse]
    have hm : -(mantissa.natAbs : Int) = mantissa := by omega
    simp only [Option.map_some, hm]
  · obtain ⟨c, l, hcons, hc⟩ := printUnsigned_cons mantissa.natAbs scale exponent
    have hm : (mantissa.natAbs : Int) = mantissa := by omega
    rw [printNumber, if_neg hneg, parseNumber.eq_def]
    split
    · rename_i heq
      rw [hcons] at heq
      cases heq
      simp at hc
    · simp only [hparse, Option.map_some, hm]

/-- A number starts with a digit or a minus sign. -/
theorem printNumber_cons (mantissa : Int) (scale : Nat) (exponent : Option Int) :
    ∃ c l, printNumber mantissa scale exponent = c :: l ∧ (c.isDigit = true ∨ c = '-') := by
  by_cases hneg : mantissa < 0
  · exact ⟨'-', _, by rw [printNumber, if_pos hneg], .inr rfl⟩
  · obtain ⟨c, l, hcons, hc⟩ := printUnsigned_cons mantissa.natAbs scale exponent
    exact ⟨c, l, by rw [printNumber, if_neg hneg, hcons], .inl hc⟩

theorem mem_digits {c : Char} (h : c.isDigit = true) : c ∈ "0123456789".toList := by
  have hv : 48 ≤ c.toNat ∧ c.toNat ≤ 57 := by
    simpa [Char.isDigit, UInt32.le_iff_toNat_le] using h
  have hc : c = Char.ofNat c.toNat := (Char.ofNat_toNat c).symm
  obtain ⟨h1, h2⟩ := hv
  rw [hc]
  interval_cases c.toNat <;> decide

theorem parseValue_number (mantissa : Int) (scale : Nat) (exponent : Option Int) (fuel : Nat)
    {rest : List Char} (hrest : Ends rest) :
    parseValue (fuel + 1) (printNumber mantissa scale exponent ++ rest) =
      some (num mantissa scale exponent, rest) := by
  obtain ⟨c, l, hcons, hc⟩ := printNumber_cons mantissa scale exponent
  have hparse := parseNumber_print mantissa scale exponent hrest
  rw [hcons] at hparse ⊢
  have hmem : c ∈ '-' :: "0123456789".toList := by
    rcases hc with hc | rfl
    · exact List.mem_cons_of_mem _ (mem_digits hc)
    · exact List.mem_cons_self ..
  rw [← hparse]
  have hlist : c = '-' ∨ c = '0' ∨ c = '1' ∨ c = '2' ∨ c = '3' ∨ c = '4' ∨ c = '5' ∨ c = '6' ∨
      c = '7' ∨ c = '8' ∨ c = '9' := by
    simpa using hmem
  rcases hlist with rfl | rfl | rfl | rfl | rfl | rfl | rfl | rfl | rfl | rfl | rfl <;> rfl

/-! ## Values -/

theorem ends_cons {c : Char} (h : c.isDigit = false ∧ c ≠ '.' ∧ c ≠ 'e' ∧ c ≠ 'E')
    (rest : List Char) : Ends (c :: rest) := by
  intro d hd
  cases hd
  exact h

/-- A printed value does not start with a blank, nor with what closes an array or an
object. -/
theorem print_cons (style : Style) (v : Json) :
    ∃ c l, v.print style = c :: l ∧ isBlank c = false ∧ c ≠ ']' ∧ c ≠ '}' := by
  cases v with
  | null => exact ⟨_, _, rfl, by decide⟩
  | bool b => cases b <;> exact ⟨_, _, rfl, by decide⟩
  | num mantissa scale exponent =>
      obtain ⟨c, l, hcons, hc⟩ := printNumber_cons mantissa scale exponent
      refine ⟨c, l, hcons, ?_⟩
      rcases hc with hc | rfl
      · have hmem := mem_digits hc
        simp only [String.reduceToList, List.mem_cons, List.not_mem_nil, or_false] at hmem
        rcases hmem with rfl | rfl | rfl | rfl | rfl | rfl | rfl | rfl | rfl | rfl <;> decide
      · decide
  | str s => exact ⟨_, _, rfl, by decide⟩
  | arr elems => exact ⟨_, _, rfl, by decide⟩
  | obj members => exact ⟨_, _, rfl, by decide⟩

theorem skipBlanks_print (style : Style) (v : Json) (rest : List Char) :
    skipBlanks (v.print style ++ rest) = v.print style ++ rest := by
  obtain ⟨c, l, hcons, hc, -⟩ := print_cons style v
  rw [hcons, List.cons_append, skipBlanks_cons hc]

theorem Elems.print_cons (style : Style) (head : Json) (tail : Elems) :
    ∃ c l, Elems.print style (.cons head tail) = c :: l ∧ isBlank c = false ∧ c ≠ ']' := by
  obtain ⟨c, l, hcons, hc, hne, -⟩ := Json.print_cons style head
  cases tail with
  | nil => exact ⟨c, l, hcons, hc, hne⟩
  | cons next tail =>
      refine ⟨c, l ++ ',' :: style.afterComma ++ Elems.print style (.cons next tail), ?_, hc, hne⟩
      rw [Elems.print, hcons]
      rfl

theorem Members.print_cons (style : Style) (key : String) (value : Json) (tail : Members) :
    ∃ l, Members.print style (.cons key value tail) = '"' :: l := by
  cases tail with
  | nil => exact ⟨_, by rw [Members.print]; rfl⟩
  | cons key' value' tail => exact ⟨_, by rw [Members.print]; rfl⟩

mutual

/-- Reading a printed value gives the value and leaves what follows. -/
theorem parseValue_print (style : Style) (v : Json) (fuel : Nat) (rest : List Char)
    (hfuel : (v.print style).length < fuel) (hrest : Ends rest) :
    parseValue fuel (v.print style ++ rest) = some (v, rest) := by
  obtain ⟨fuel, rfl⟩ : ∃ k, fuel = k + 1 := ⟨fuel - 1, by omega⟩
  match v with
  | null => rfl
  | bool true => rfl
  | bool false => rfl
  | num mantissa scale exponent => exact parseValue_number mantissa scale exponent fuel hrest
  | str s =>
      have h := parseString_print style s rest
      rw [parseValue, skipBlanks_print, print, printString]
      simp only [List.cons_append, List.append_assoc, List.nil_append, h, Option.map_some]
  | arr .nil => rfl
  | arr (.cons head tail) =>
      obtain ⟨c, l, hcons, hc, hne⟩ := Elems.print_cons style head tail
      have h := parseElems_print style head tail fuel rest (by
        rw [print, List.length_append, List.length_cons, List.length_singleton] at hfuel
        omega)
      rw [hcons, List.cons_append] at h
      rw [parseValue, skipBlanks_print, print, hcons]
      simp only [List.cons_append, List.append_assoc, List.nil_append, skipBlanks_cons hc]
      split
      · rename_i heq
        cases heq
        exact absurd rfl hne
      · rw [h, Option.map_some]
  | obj .nil => rfl
  | obj (.cons key value tail) =>
      obtain ⟨l, hcons⟩ := Members.print_cons style key value tail
      have h := parseMembers_print style key value tail fuel rest (by
        rw [print, List.length_append, List.length_cons, List.length_singleton] at hfuel
        omega)
      rw [hcons, List.cons_append] at h
      rw [parseValue, skipBlanks_print, print, hcons]
      simp only [List.cons_append, List.append_assoc, List.nil_append,
        skipBlanks_cons (by decide : isBlank '"' = false), h, Option.map_some]
      rfl
termination_by fuel

theorem parseElems_print (style : Style) (head : Json) (tail : Elems) (fuel : Nat)
    (rest : List Char) (hfuel : (Elems.print style (.cons head tail)).length + 1 < fuel) :
    parseElems fuel (Elems.print style (.cons head tail) ++ ']' :: rest) =
      some (.cons head tail, rest) := by
  obtain ⟨fuel, rfl⟩ : ∃ k, fuel = k + 1 := ⟨fuel - 1, by omega⟩
  match tail with
  | .nil =>
      rw [Elems.print] at hfuel ⊢
      have hhead := parseValue_print style head fuel (']' :: rest) (by omega)
        (ends_cons (by decide) rest)
      rw [parseElems, hhead]
      rfl
  | .cons next tail =>
      rw [Elems.print, List.length_append, List.length_append, List.length_cons] at hfuel
      obtain ⟨c, l, hcons, -⟩ := print_cons style head
      have hpos : 0 < (head.print style).length := by
        rw [hcons]
        exact Nat.succ_pos _
      have hhead := parseValue_print style head fuel
        (',' :: (style.afterComma ++ (Elems.print style (.cons next tail) ++ ']' :: rest)))
        (by omega) (ends_cons (by decide) _)
      have htail := parseElems_print style next tail fuel rest (by omega)
      rw [Elems.print, parseElems]
      simp only [List.append_assoc, List.cons_append, hhead,
        skipBlanks_cons (by decide : isBlank ',' = false),
        parseElems_blanks style.afterComma_blank, htail, Option.map_some]
termination_by fuel

theorem parseMembers_print (style : Style) (key : String) (value : Json) (tail : Members)
    (fuel : Nat) (rest : List Char)
    (hfuel : (Members.print style (.cons key value tail)).length + 1 < fuel) :
    parseMembers fuel (Members.print style (.cons key value tail) ++ '}' :: rest) =
      some (.cons key value tail, rest) := by
  obtain ⟨fuel, rfl⟩ : ∃ k, fuel = k + 1 := ⟨fuel - 1, by omega⟩
  match tail with
  | .nil =>
      rw [Members.print, List.length_append, List.length_append, List.length_cons] at hfuel
      have hkey := parseString_print style key
        (':' :: (style.afterColon ++ (value.print style ++ '}' :: rest)))
      have hvalue := parseValue_print style value fuel ('}' :: rest) (by omega)
        (ends_cons (by decide) rest)
      rw [Members.print, printString, parseMembers]
      simp only [List.append_assoc, List.cons_append, List.nil_append, hkey,
        skipBlanks_cons (by decide : isBlank '"' = false),
        skipBlanks_cons (by decide : isBlank ':' = false),
        skipBlanks_cons (by decide : isBlank '}' = false),
        parseValue_blanks style.afterColon_blank, hvalue]
  | .cons key' value' tail =>
      rw [Members.print, List.length_append, List.length_append, List.length_append,
        List.length_append, List.length_cons, List.length_cons] at hfuel
      have hkey := parseString_print style key
        (':' :: (style.afterColon ++ (value.print style ++ ',' :: (style.afterComma ++
          (Members.print style (.cons key' value' tail) ++ '}' :: rest)))))
      have hvalue := parseValue_print style value fuel
        (',' :: (style.afterComma ++ (Members.print style (.cons key' value' tail) ++ '}' :: rest)))
        (by omega) (ends_cons (by decide) _)
      have htail := parseMembers_print style key' value' tail fuel rest (by omega)
      rw [Members.print, printString, parseMembers]
      simp only [List.append_assoc, List.cons_append, List.nil_append, hkey,
        skipBlanks_cons (by decide : isBlank '"' = false),
        skipBlanks_cons (by decide : isBlank ':' = false),
        skipBlanks_cons (by decide : isBlank ',' = false),
        parseValue_blanks style.afterColon_blank, hvalue,
        parseMembers_blanks style.afterComma_blank, htail, Option.map_some]
termination_by fuel

end

/-- A printed object is longer than each of its printed members. -/
theorem length_print_lt (style : Style) {members : List (String × Json)} {p : String × Json}
    (h : p ∈ members) : (p.2.print style).length < (print style (.obj (.ofList members))).length := by
  have hmembers : (p.2.print style).length ≤ (Members.print style (.ofList members)).length := by
    induction members with
    | nil => cases h
    | cons q members ih =>
        rcases members with _ | ⟨r, members⟩
        · obtain rfl := List.mem_singleton.mp h
          rw [Members.ofList, Members.ofList, Members.print, List.length_append]
          exact Nat.le_add_left ..
        · rw [Members.ofList, Members.ofList, Members.print]
          simp only [List.length_append, List.length_cons]
          rcases List.mem_cons.mp h with rfl | h
          · omega
          · have := ih h
            rw [Members.ofList] at this
            omega
  rw [print, List.length_append, List.length_cons]
  omega

/-- A printed text parses to the value it was printed from. -/
theorem parse_print (style : Style) (v : Json) : parse (v.print style) = some v := by
  have h := parseValue_print style v ((v.print style).length + 1) [] (Nat.lt_succ_self _)
    (by intro c hc; cases hc)
  rw [List.append_nil] at h
  rw [parse, h]
  rfl

/-! ## The two writers -/

theorem hexValue_digit {n : Nat} (h : n < 16) : hexValue (Nat.digitChar n) = some n := by
  interval_cases n <;> rfl

/-- Four lower-case hexadecimal digits. -/
def hex4 (n : Nat) : List Char :=
  [Nat.digitChar (n / 4096 % 16), Nat.digitChar (n / 256 % 16), Nat.digitChar (n / 16 % 16),
    Nat.digitChar (n % 16)]

theorem parseHex4_hex4 {n : Nat} (h : n < 65536) (rest : List Char) :
    parseHex4 (hex4 n ++ rest) = some (n, rest) := by
  have digit : ∀ m, hexValue (Nat.digitChar (m % 16)) = some (m % 16) :=
    fun m ↦ hexValue_digit (Nat.mod_lt _ (by decide))
  simp only [hex4, List.cons_append, List.nil_append, parseHex4, digit]
  congr 2
  omega

/-- The `\u` escape of a character, as two escapes when it is above `U+FFFF`. -/
def escapeUnicode (c : Char) : List Char :=
  if c.toNat < 0x10000 then '\\' :: 'u' :: hex4 c.toNat
  else
    '\\' :: 'u' :: hex4 (0xD800 + (c.toNat - 0x10000) / 0x400) ++
      '\\' :: 'u' :: hex4 (0xDC00 + (c.toNat - 0x10000) % 0x400)

theorem parseChar_escapeUnicode (c : Char) (rest : List Char) :
    parseChar (escapeUnicode c ++ rest) = some (c, rest) := by
  have hvalid : c.toNat < 0xD800 ∨ 0xDFFF < c.toNat ∧ c.toNat < 0x110000 := c.valid
  have hchar : Char.ofNat c.toNat = c := Char.ofNat_toNat c
  rw [escapeUnicode]
  by_cases hlow : c.toNat < 0x10000
  · rw [if_pos hlow]
    have hread := parseHex4_hex4 hlow rest
    have hhigh : ¬ (0xD800 ≤ c.toNat ∧ c.toNat ≤ 0xDBFF) := by omega
    have hsecond : ¬ (0xDC00 ≤ c.toNat ∧ c.toNat ≤ 0xDFFF) := by omega
    simp only [List.cons_append, parseChar, parseUnicode, hread, hhigh, hsecond, if_false, hchar]
  · rw [if_neg hlow]
    obtain ⟨k, hk⟩ : ∃ k, c.toNat = 0x10000 + k := ⟨c.toNat - 0x10000, by omega⟩
    have hk' : c.toNat - 0x10000 = k := by omega
    have hfirst := parseHex4_hex4 (n := 0xD800 + k / 0x400) (by omega)
      ('\\' :: 'u' :: (hex4 (0xDC00 + k % 0x400) ++ rest))
    have hlast := parseHex4_hex4 (n := 0xDC00 + k % 0x400) (by omega) rest
    have hhigh : 0xD800 ≤ 0xD800 + k / 0x400 ∧ 0xD800 + k / 0x400 ≤ 0xDBFF := by omega
    have hsecond : 0xDC00 ≤ 0xDC00 + k % 0x400 ∧ 0xDC00 + k % 0x400 ≤ 0xDFFF := by omega
    have hvalue : 0x10000 + (0xD800 + k / 0x400 - 0xD800) * 0x400 +
        (0xDC00 + k % 0x400 - 0xDC00) = c.toNat := by omega
    rw [hk']
    simp only [List.cons_append, List.append_assoc, parseChar, parseUnicode, hfirst, hhigh,
      and_self, if_true, hlast, hsecond, hvalue, hchar]

/-- The escapes that every writer uses. -/
def escapeAlways (c : Char) : Option (List Char) :=
  if c = '"' then some ['\\', '"']
  else if c = '\\' then some ['\\', '\\']
  else if c = '\x08' then some ['\\', 'b']
  else if c = '\x0c' then some ['\\', 'f']
  else if c = '\n' then some ['\\', 'n']
  else if c = '\r' then some ['\\', 'r']
  else if c = '\t' then some ['\\', 't']
  else if c.toNat < 0x20 then some (escapeUnicode c)
  else none

theorem parseChar_escapeAlways {c : Char} {l : List Char} (h : escapeAlways c = some l)
    (rest : List Char) : parseChar (l ++ rest) = some (c, rest) := by
  unfold escapeAlways at h
  split_ifs at h with h1 h2 h3 h4 h5 h6 h7 h8 <;> cases h
  · rw [h1]; rfl
  · rw [h2]; rfl
  · rw [h3]; rfl
  · rw [h4]; rfl
  · rw [h5]; rfl
  · rw [h6]; rfl
  · rw [h7]; rfl
  · exact parseChar_escapeUnicode c rest

/-- A character that needs no escape stands for itself. -/
theorem parseChar_self {c : Char} (h : escapeAlways c = none) (rest : List Char) :
    parseChar (c :: rest) = some (c, rest) := by
  unfold escapeAlways at h
  split_ifs at h with h1 h2 h3 h4 h5 h6 h7 h8
  rw [parseChar]
  · rw [if_neg (by simp [h1, h8])]
  · exact h2

/-- `JSON.stringify`: no blanks, and no escapes but those that are needed. -/
def Style.compact : Style where
  afterComma := []
  afterColon := []
  escape c := (escapeAlways c).getD [c]
  afterComma_blank := by simp
  afterColon_blank := by simp
  parseChar_escape c rest := by
    rcases h : escapeAlways c with _ | l
    · exact parseChar_self h rest
    · exact parseChar_escapeAlways h rest

/-- `json.dumps`: a blank behind each separator, and ASCII only. -/
def Style.ascii : Style where
  afterComma := [' ']
  afterColon := [' ']
  escape c := (escapeAlways c).getD (if c.toNat ≤ 0x7E then [c] else escapeUnicode c)
  afterComma_blank := by simp [isBlank]
  afterColon_blank := by simp [isBlank]
  parseChar_escape c rest := by
    rcases h : escapeAlways c with _ | l
    · rw [Option.getD_none]
      split
      · exact parseChar_self h rest
      · exact parseChar_escapeUnicode c rest
    · exact parseChar_escapeAlways h rest

example : String.ofList ((Json.obj (.ofList [("ok", .bool true), ("n", .num (-15) 1 none),
    ("t", .num 1 0 (some (-7)))])).print .ascii) =
    "\x7b\"ok\": true, \"n\": -1.5, \"t\": 1e-07\x7d" := by decide

end ConnectWeb.Json
