import Mathlib.Data.List.Basic
import Mathlib.Tactic.IntervalCases

/-!
# UTF-8 with replacement

Encoding of characters, and a decoder that reports every ill-formed *maximal
subpart* on its own (what Python's `errors="replace"` and the web `TextDecoder`
both do).  The decoder is a machine over single bytes, so it is structurally
recursive and runs.
-/

namespace ConnectWeb

/-- A byte string. -/
abbrev Bytes := List UInt8

namespace Utf8

/-- The bytes of one character. -/
def encodeChar (c : Char) : Bytes :=
  let n := c.toNat
  if n < 0x80 then [.ofNat n]
  else if n < 0x800 then [.ofNat (0xC0 + n / 0x40), .ofNat (0x80 + n % 0x40)]
  else if n < 0x10000 then
    [.ofNat (0xE0 + n / 0x1000), .ofNat (0x80 + n / 0x40 % 0x40), .ofNat (0x80 + n % 0x40)]
  else
    [.ofNat (0xF0 + n / 0x40000), .ofNat (0x80 + n / 0x1000 % 0x40),
      .ofNat (0x80 + n / 0x40 % 0x40), .ofNat (0x80 + n % 0x40)]

def encode (cs : List Char) : Bytes := cs.flatMap encodeChar

/-- Inside a character: one continuation byte in `[lo, hi]` is due, then `more`
further ones, and `acc` holds the bits read so far. -/
structure Pending where
  more : Nat
  lo : Nat
  hi : Nat
  acc : Nat

/-- What a byte between characters starts: a whole character, an ill-formed
subpart (`inl none`), or a longer character. -/
def lead (b : UInt8) : Option Char ⊕ Pending :=
  let n := b.toNat
  if n < 0x80 then .inl (some (.ofNat n))
  else if n < 0xC2 then .inl none
  else if n < 0xE0 then .inr ⟨0, 0x80, 0xBF, n - 0xC0⟩
  else if n = 0xE0 then .inr ⟨1, 0xA0, 0xBF, 0⟩
  else if n = 0xED then .inr ⟨1, 0x80, 0x9F, 0xD⟩
  else if n < 0xF0 then .inr ⟨1, 0x80, 0xBF, n - 0xE0⟩
  else if n = 0xF0 then .inr ⟨2, 0x90, 0xBF, 0⟩
  else if n < 0xF4 then .inr ⟨2, 0x80, 0xBF, n - 0xF0⟩
  else if n = 0xF4 then .inr ⟨2, 0x80, 0x8F, 4⟩
  else .inl none

/-- Decode; `none` stands for an ill-formed maximal subpart. -/
def decodeFrom : Option Pending → Bytes → List (Option Char)
  | none, [] => []
  | some _, [] => [none]
  | none, b :: rest =>
      match lead b with
      | .inl c => c :: decodeFrom none rest
      | .inr p => decodeFrom (some p) rest
  | some p, b :: rest =>
      if p.lo ≤ b.toNat ∧ b.toNat ≤ p.hi then
        let acc := p.acc * 0x40 + (b.toNat - 0x80)
        match p.more with
        | 0 => some (.ofNat acc) :: decodeFrom none rest
        | more + 1 => decodeFrom (some ⟨more, 0x80, 0xBF, acc⟩) rest
      else
        -- the offending byte is not part of the subpart: it starts afresh
        match lead b with
        | .inl c => none :: c :: decodeFrom none rest
        | .inr p => none :: decodeFrom (some p) rest

def decode (bs : Bytes) : List (Option Char) := decodeFrom none bs

/-- Ill-formed subparts become `U+FFFD`. -/
def decodeReplace (bs : Bytes) : List Char := (decode bs).map (·.getD '\uFFFD')

/-- Ill-formed subparts are an error. -/
def decodeStrict (bs : Bytes) : Option (List Char) := (decode bs).mapM id

theorem toNat_ofNat_of_lt {n : Nat} (h : n < 256) : (UInt8.ofNat n).toNat = n := by
  simp [Nat.mod_eq_of_lt h]

/-- One continuation byte that is in range. -/
theorem decodeFrom_some_cons {p : Pending} {n : Nat} (hn : n < 256) (hlo : p.lo ≤ n)
    (hhi : n ≤ p.hi) (rest : Bytes) :
    decodeFrom (some p) (UInt8.ofNat n :: rest) =
      match p.more with
      | 0 => some (.ofNat (p.acc * 0x40 + (n - 0x80))) :: decodeFrom none rest
      | more + 1 => decodeFrom (some ⟨more, 0x80, 0xBF, p.acc * 0x40 + (n - 0x80)⟩) rest := by
  rw [decodeFrom.eq_def]
  simp only [toNat_ofNat_of_lt hn, hlo, hhi, and_self, ↓reduceIte]

/-- A lead byte of a longer character. -/
theorem decodeFrom_none_cons {n : Nat} {p : Pending} (h : lead (UInt8.ofNat n) = .inr p)
    (rest : Bytes) : decodeFrom none (UInt8.ofNat n :: rest) = decodeFrom (some p) rest := by
  rw [decodeFrom, h]

/-- A scalar value is below `0x110000` and no surrogate. -/
theorem toNat_valid (c : Char) : c.toNat < 0xD800 ∨ 0xDFFF < c.toNat ∧ c.toNat < 0x110000 :=
  c.valid

/-- Decoding reads back an encoded character and goes on behind it. -/
theorem decodeFrom_encodeChar (c : Char) (rest : Bytes) :
    decodeFrom none (encodeChar c ++ rest) = some c :: decodeFrom none rest := by
  have hv := toNat_valid c
  have hc : ∀ n, n = c.toNat → Char.ofNat n = c := by
    rintro _ rfl
    exact Char.ofNat_toNat c
  unfold encodeChar
  set n := c.toNat with hn
  by_cases h1 : n < 0x80
  · simp only [h1, ↓reduceIte, List.cons_append, List.nil_append]
    rw [decodeFrom, lead]
    simp only [toNat_ofNat_of_lt (show n < 256 by omega), h1, ↓reduceIte, hc n rfl]
  by_cases h2 : n < 0x800
  · simp only [h1, h2, ↓reduceIte, List.cons_append, List.nil_append]
    have hl : lead (UInt8.ofNat (0xC0 + n / 0x40)) = .inr ⟨0, 0x80, 0xBF, n / 0x40⟩ := by
      unfold lead
      rw [toNat_ofNat_of_lt (by omega)]
      rw [if_neg (by omega), if_neg (by omega), if_pos (by omega), Nat.add_sub_cancel_left]
    rw [decodeFrom_none_cons hl, decodeFrom_some_cons (by omega) (by simp) (by simp; omega)]
    simp only
    rw [hc _ (by omega)]
  by_cases h3 : n < 0x10000
  · simp only [h1, h2, h3, ↓reduceIte, List.cons_append, List.nil_append]
    have hl : ∃ lo hi, lead (UInt8.ofNat (0xE0 + n / 0x1000)) = .inr ⟨1, lo, hi, n / 0x1000⟩ ∧
        lo ≤ 0x80 + n / 0x40 % 0x40 ∧ 0x80 + n / 0x40 % 0x40 ≤ hi := by
      unfold lead
      rw [toNat_ofNat_of_lt (by omega)]
      rw [if_neg (by omega), if_neg (by omega), if_neg (by omega)]
      by_cases he0 : 0xE0 + n / 0x1000 = 0xE0
      · exact ⟨0xA0, 0xBF, by rw [if_pos he0, show n / 0x1000 = 0 by omega], by omega, by omega⟩
      by_cases hed : 0xE0 + n / 0x1000 = 0xED
      · exact ⟨0x80, 0x9F, by rw [if_neg he0, if_pos hed, show n / 0x1000 = 0xD by omega],
          by omega, by omega⟩
      · exact ⟨0x80, 0xBF, by
          rw [if_neg he0, if_neg hed, if_pos (by omega), Nat.add_sub_cancel_left],
          by omega, by omega⟩
    obtain ⟨lo, hi, hl, hlo, hhi⟩ := hl
    rw [decodeFrom_none_cons hl, decodeFrom_some_cons (by omega) hlo hhi]
    simp only
    rw [decodeFrom_some_cons (by omega) (by simp) (by simp; omega)]
    simp only
    rw [hc _ (by omega)]
  · simp only [h1, h2, h3, ↓reduceIte, List.cons_append, List.nil_append]
    have hl : ∃ lo hi, lead (UInt8.ofNat (0xF0 + n / 0x40000)) = .inr ⟨2, lo, hi, n / 0x40000⟩ ∧
        lo ≤ 0x80 + n / 0x1000 % 0x40 ∧ 0x80 + n / 0x1000 % 0x40 ≤ hi := by
      unfold lead
      rw [toNat_ofNat_of_lt (by omega)]
      rw [if_neg (by omega), if_neg (by omega), if_neg (by omega), if_neg (by omega),
        if_neg (by omega), if_neg (by omega)]
      by_cases hf0 : 0xF0 + n / 0x40000 = 0xF0
      · exact ⟨0x90, 0xBF, by rw [if_pos hf0, show n / 0x40000 = 0 by omega], by omega, by omega⟩
      by_cases hf4 : 0xF0 + n / 0x40000 < 0xF4
      · exact ⟨0x80, 0xBF, by rw [if_neg hf0, if_pos hf4, Nat.add_sub_cancel_left],
          by omega, by omega⟩
      · exact ⟨0x80, 0x8F, by
          rw [if_neg hf0, if_neg hf4, if_pos (by omega), show n / 0x40000 = 4 by omega],
          by omega, by omega⟩
    obtain ⟨lo, hi, hl, hlo, hhi⟩ := hl
    rw [decodeFrom_none_cons hl, decodeFrom_some_cons (by omega) hlo hhi]
    simp only
    rw [decodeFrom_some_cons (by omega) (by simp) (by simp; omega)]
    simp only
    rw [decodeFrom_some_cons (by omega) (by simp) (by simp; omega)]
    simp only
    rw [hc _ (by omega)]

theorem decode_encode_append (cs : List Char) (rest : Bytes) :
    decode (encode cs ++ rest) = cs.map some ++ decode rest := by
  induction cs with
  | nil => rfl
  | cons c cs ih =>
      simp only [encode, List.flatMap_cons, List.append_assoc, decode] at ih ⊢
      rw [decodeFrom_encodeChar, ih]
      rfl

/-- Decoding with replacement reads encoded text back, whatever follows it. -/
theorem decodeReplace_encode_append (cs : List Char) (rest : Bytes) :
    decodeReplace (encode cs ++ rest) = cs ++ decodeReplace rest := by
  simp [decodeReplace, decode_encode_append, Function.comp_def]

@[simp] theorem decodeReplace_encode (cs : List Char) : decodeReplace (encode cs) = cs := by
  simpa [decodeReplace, decode, decodeFrom] using decodeReplace_encode_append cs []

@[simp] theorem decodeStrict_encode (cs : List Char) : decodeStrict (encode cs) = some cs := by
  have h := decode_encode_append cs []
  rw [List.append_nil] at h
  rw [decodeStrict, h]
  simp only [decode, decodeFrom, List.append_nil]
  induction cs with
  | nil => rfl
  | cons c cs ih => simp [ih (by simpa [decode, decodeFrom] using decode_encode_append cs [])]

theorem length_le_encode (cs : List Char) : cs.length ≤ (encode cs).length := by
  induction cs with
  | nil => exact le_rfl
  | cons c cs ih =>
      have hpos : 0 < (encodeChar c).length := by
        simp only [encodeChar]
        split_ifs <;> simp
      rw [encode, List.flatMap_cons, List.length_append, List.length_cons, ← encode]
      omega

end Utf8

end ConnectWeb
