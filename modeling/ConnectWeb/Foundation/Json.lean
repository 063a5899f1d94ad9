import Mathlib.Algebra.Group.Int.Defs
import Mathlib.Algebra.Group.Nat.Defs
import Mathlib.Data.List.Basic

/-!
# JSON texts

Values, a printer and a parser.  Writers of JSON differ in the blanks after separators
and in which characters they escape, so the printer takes a `Style`, whose laws say that
a reader gets back what was written; `Style.compact` writes as `JSON.stringify` does and
`Style.ascii` as Python's `json.dumps` does by default.  There is one parser, since
readers do not differ on the texts that writers produce.
-/

namespace ConnectWeb

mutual

/-- A JSON value.  A number is kept as it is written: `mantissa * 10 ^ (-scale)`, in a text with
`scale` digits behind its point, and behind an exponent, if it has one, times a power of ten. -/
inductive Json where
  | null
  | bool (b : Bool)
  | num (mantissa : Int) (scale : Nat) (exponent : Option Int)
  | str (s : String)
  | arr (elems : Json.Elems)
  | obj (members : Json.Members)

/-- The elements of an array. -/
inductive Json.Elems where
  | nil
  | cons (head : Json) (tail : Json.Elems)

/-- The members of an object, in order. -/
inductive Json.Members where
  | nil
  | cons (key : String) (value : Json) (tail : Json.Members)

end

namespace Json

/-- The members as pairs. -/
def Members.ofList : List (String × Json) → Members
  | [] => .nil
  | (key, value) :: tail => .cons key value (ofList tail)

/-- The member of a key; the last one when the key is repeated. -/
def Members.get? (key : String) : Members → Option Json
  | .nil => none
  | .cons key' value tail =>
      match tail.get? key with
      | some later => some later
      | none => if key' = key then some value else none

/-- The member of a key, if the value is an object that has it. -/
def get? (key : String) : Json → Option Json
  | obj members => members.get? key
  | _ => none

/-- An object whose values are all strings. -/
def ofStrings (d : List (String × String)) : Json :=
  obj (.ofList (d.map fun p ↦ (p.1, str p.2)))

/-- The string members of an object, in order. -/
def Members.strings : Members → List (String × String)
  | .nil => []
  | .cons key (str s) tail => (key, s) :: tail.strings
  | .cons _ _ tail => tail.strings

@[simp] theorem Members.strings_ofList (d : List (String × String)) :
    (Members.ofList (d.map fun p ↦ (p.1, str p.2))).strings = d := by
  induction d with
  | nil => rfl
  | cons p d ih => simp [ofList, strings, ih]

/-! ## Reading -/

def isBlank (c : Char) : Bool := c = ' ' || c = '\t' || c = '\n' || c = '\r'

def skipBlanks (l : List Char) : List Char := l.dropWhile isBlank

def hexValue (c : Char) : Option Nat :=
  let n := c.toNat
  if 48 ≤ n ∧ n ≤ 57 then some (n - 48)
  else if 97 ≤ n ∧ n ≤ 102 then some (n - 87)
  else if 65 ≤ n ∧ n ≤ 70 then some (n - 55)
  else none

/-- The four hexadecimal digits behind `\u`. -/
def parseHex4 : List Char → Option (Nat × List Char)
  | a :: b :: c :: d :: rest =>
      match hexValue a, hexValue b, hexValue c, hexValue d with
      | some a, some b, some c, some d => some (((a * 16 + b) * 16 + c) * 16 + d, rest)
      | _, _, _, _ => none
  | _ => none

/-- A `\u` escape, or two of them when the first is a high surrogate.  A surrogate on its
own is no character. -/
def parseUnicode (l : List Char) : Option (Char × List Char) :=
  match parseHex4 l with
  | none => none
  | some (hi, rest) =>
      if 0xD800 ≤ hi ∧ hi ≤ 0xDBFF then
        match rest with
        | '\\' :: 'u' :: rest =>
            match parseHex4 rest with
            | some (lo, rest) =>
                if 0xDC00 ≤ lo ∧ lo ≤ 0xDFFF then
                  some (.ofNat (0x10000 + (hi - 0xD800) * 0x400 + (lo - 0xDC00)), rest)
                else none
            | none => none
        | _ => none
      else if 0xDC00 ≤ hi ∧ hi ≤ 0xDFFF then none
      else some (.ofNat hi, rest)

/-- One character of a string, escaped or not; `none` at the closing quote. -/
def parseChar : List Char → Option (Char × List Char)
  | [] => none
  | '\\' :: rest =>
      match rest with
      | '"' :: rest => some ('"', rest)
      | '\\' :: rest => some ('\\', rest)
      | '/' :: rest => some ('/', rest)
      | 'b' :: rest => some ('\x08', rest)
      | 'f' :: rest => some ('\x0c', rest)
      | 'n' :: rest => some ('\n', rest)
      | 'r' :: rest => some ('\r', rest)
      | 't' :: rest => some ('\t', rest)
      | 'u' :: rest => parseUnicode rest
      | _ => none
  | c :: rest => if c = '"' ∨ c.toNat < 0x20 then none else some (c, rest)

/-- The characters of a string up to its closing quote. -/
def parseChars : Nat → List Char → Option (List Char × List Char)
  | 0, _ => none
  | fuel + 1, l =>
      match l with
      | '"' :: rest => some ([], rest)
      | _ =>
          match parseChar l with
          | none => none
          | some (c, rest) => (parseChars fuel rest).map fun p ↦ (c :: p.1, p.2)

def parseString (l : List Char) : Option (String × List Char) :=
  (parseChars (l.length + 1) l).map fun p ↦ (.ofList p.1, p.2)

/-- The fraction of a number: its digits, none when there is no point. -/
def parseFraction : List Char → Option (List Char × List Char)
  | '.' :: rest =>
      let p := rest.span Char.isDigit
      if p.1 = [] then none else some p
  | l => some ([], l)

/-- The exponent of a number, if there is one. -/
def parseExponent : List Char → Option (Option Int × List Char)
  | c :: rest =>
      if c = 'e' ∨ c = 'E' then
        let signed : Int × List Char := match rest with
          | '-' :: rest => (-1, rest)
          | '+' :: rest => (1, rest)
          | rest => (1, rest)
        let p := signed.2.span Char.isDigit
        if p.1 = [] then none else some (some (signed.1 * (Nat.ofDigitChars 10 p.1 0 : Int)), p.2)
      else some (none, c :: rest)
  | [] => some (none, [])

/-- An unsigned number. -/
def parseUnsigned (l : List Char) : Option (Nat × Nat × Option Int × List Char) :=
  let p := l.span Char.isDigit
  if p.1 = [] ∨ (p.1.head? = some '0' ∧ 1 < p.1.length) then none
  else
    match parseFraction p.2 with
    | none => none
    | some (fraction, rest) =>
        match parseExponent rest with
        | none => none
        | some (exponent, rest) =>
            some (Nat.ofDigitChars 10 (p.1 ++ fraction) 0, fraction.length, exponent, rest)

def parseNumber : List Char → Option (Json × List Char)
  | '-' :: rest =>
      (parseUnsigned rest).map fun (n, scale, exponent, rest) ↦
        (num (-(n : Int)) scale exponent, rest)
  | l => (parseUnsigned l).map fun (n, scale, exponent, rest) ↦ (num n scale exponent, rest)

mutual

/-- A value, after blanks.  `fuel` bounds the nesting and the number of parts. -/
def parseValue : Nat → List Char → Option (Json × List Char)
  | 0, _ => none
  | fuel + 1, l =>
      match skipBlanks l with
      | 'n' :: 'u' :: 'l' :: 'l' :: rest => some (null, rest)
      | 't' :: 'r' :: 'u' :: 'e' :: rest => some (bool true, rest)
      | 'f' :: 'a' :: 'l' :: 's' :: 'e' :: rest => some (bool false, rest)
      | '"' :: rest => (parseString rest).map fun p ↦ (str p.1, p.2)
      | '[' :: rest =>
          match skipBlanks rest with
          | ']' :: rest => some (arr .nil, rest)
          | _ => (parseElems fuel rest).map fun p ↦ (arr p.1, p.2)
      | '{' :: rest =>
          match skipBlanks rest with
          | '}' :: rest => some (obj .nil, rest)
          | _ => (parseMembers fuel rest).map fun p ↦ (obj p.1, p.2)
      | l => parseNumber l

/-- The elements of an array that has some, with the closing bracket. -/
def parseElems : Nat → List Char → Option (Elems × List Char)
  | 0, _ => none
  | fuel + 1, l =>
      match parseValue fuel l with
      | none => none
      | some (value, rest) =>
          match skipBlanks rest with
          | ']' :: rest => some (.cons value .nil, rest)
          | ',' :: rest => (parseElems fuel rest).map fun p ↦ (.cons value p.1, p.2)
          | _ => none

/-- The members of an object that has some, with the closing brace. -/
def parseMembers : Nat → List Char → Option (Members × List Char)
  | 0, _ => none
  | fuel + 1, l =>
      match skipBlanks l with
      | '"' :: rest =>
          match parseString rest with
          | none => none
          | some (key, rest) =>
              match skipBlanks rest with
              | ':' :: rest =>
                  match parseValue fuel rest with
                  | none => none
                  | some (value, rest) =>
                      match skipBlanks rest with
                      | '}' :: rest => some (.cons key value .nil, rest)
                      | ',' :: rest =>
                          (parseMembers fuel rest).map fun p ↦ (.cons key value p.1, p.2)
                      | _ => none
              | _ => none
      | _ => none

end

/-- A text that is one value, with blanks around it. -/
def parse (text : List Char) : Option Json :=
  match parseValue (text.length + 1) text with
  | some (value, rest) => if skipBlanks rest = [] then some value else none
  | none => none

/-! ## Writing -/

/-- How a writer lays out a text. -/
structure Style where
  /-- What follows the comma between two elements or members. -/
  afterComma : List Char
  /-- What follows the colon between a key and its value. -/
  afterColon : List Char
  /-- A character inside a string. -/
  escape : Char → List Char
  afterComma_blank : ∀ c ∈ afterComma, isBlank c = true
  afterColon_blank : ∀ c ∈ afterColon, isBlank c = true
  /-- A reader gets an escaped character back. -/
  parseChar_escape : ∀ c rest, parseChar (escape c ++ rest) = some (c, rest)

def printString (style : Style) (s : String) : List Char :=
  '"' :: s.toList.flatMap style.escape ++ ['"']

/-- The `scale` digits of a fraction. -/
def fractionDigits : Nat → Nat → List Char
  | 0, _ => []
  | scale + 1, n => fractionDigits scale (n / 10) ++ [Nat.digitChar (n % 10)]

/-- At least two digits. -/
def exponentDigits (n : Nat) : List Char :=
  if n < 10 then ['0', Nat.digitChar n] else Nat.toDigits 10 n

/-- An exponent as Python's `repr` writes it. -/
def printExponent : Option Int → List Char
  | none => []
  | some e => 'e' :: (if e < 0 then '-' else '+') :: exponentDigits e.natAbs

def printUnsigned (n scale : Nat) (exponent : Option Int) : List Char :=
  Nat.toDigits 10 (n / 10 ^ scale) ++
    ((if scale = 0 then [] else '.' :: fractionDigits scale n) ++ printExponent exponent)

def printNumber (mantissa : Int) (scale : Nat) (exponent : Option Int) : List Char :=
  if mantissa < 0 then '-' :: printUnsigned mantissa.natAbs scale exponent
  else printUnsigned mantissa.natAbs scale exponent

mutual

def print (style : Style) : Json → List Char
  | null => ['n', 'u', 'l', 'l']
  | bool true => ['t', 'r', 'u', 'e']
  | bool false => ['f', 'a', 'l', 's', 'e']
  | num mantissa scale exponent => printNumber mantissa scale exponent
  | str s => printString style s
  | arr elems => '[' :: elems.print style ++ [']']
  | obj members => '{' :: members.print style ++ ['}']

def Elems.print (style : Style) : Elems → List Char
  | .nil => []
  | .cons head .nil => head.print style
  | .cons head (.cons next tail) =>
      head.print style ++ ',' :: style.afterComma ++ Elems.print style (.cons next tail)

def Members.print (style : Style) : Members → List Char
  | .nil => []
  | .cons key value .nil => printString style key ++ ':' :: style.afterColon ++ value.print style
  | .cons key value (.cons key' value' tail) =>
      printString style key ++ ':' :: style.afterColon ++ value.print style ++
        ',' :: style.afterComma ++ Members.print style (.cons key' value' tail)

end

end Json

end ConnectWeb
