import ConnectWeb.Foundation.Utf8

/-!
# Byte regions

A region is a fixed number of bytes that is written in place, with the access rules of a
typed array: a single element outside the region reads as zero and is not written, a copy
that would leave the region is refused as a whole, and a slice clamps its bounds, a negative
bound counting from the end.  `Holds d off bs` says that the bytes `bs` lie at `off`; what a
reader gets from a region is decided by such facts alone.
-/

namespace ConnectWeb

/-- A fixed number of bytes. -/
structure Region where
  size : Nat
  /-- The byte at an offset; only those below `size` belong to the region. -/
  byte : Nat → UInt8

namespace Region

/-- A region of zeros. -/
def zeros (size : Nat) : Region := ⟨size, fun _ ↦ 0⟩

/-- `d[i]` -/
def get (d : Region) (i : Nat) : UInt8 := if i < d.size then d.byte i else 0

/-- `d[i] = v` -/
def setByte (d : Region) (i : Nat) (v : UInt8) : Region :=
  if i < d.size then { d with byte := fun j ↦ if j = i then v else d.byte j } else d

/-- `d.set(bs, off)`; `none` is the `RangeError`. -/
def set (d : Region) (bs : Bytes) (off : Nat) : Option Region :=
  let byte := fun j ↦ if off ≤ j ∧ j < off + bs.length then bs.getD (j - off) 0 else d.byte j
  if off + bs.length ≤ d.size then some { d with byte } else none

/-- A slice bound, clamped to `[0, n]` after counting a negative one from the end. -/
def clamp (n : Nat) (i : Int) : Nat := if i < 0 then (n + i).toNat else min i.toNat n

/-- The bytes of `d.slice(a, b)`, which are also those of `d.subarray(a, b)`. -/
def slice (d : Region) (a b : Int) : Bytes :=
  (List.range (clamp d.size b - clamp d.size a)).map fun i ↦ d.byte (clamp d.size a + i)

/-- A little-endian `u32`, byte by byte. -/
def putU32 (d : Region) (off v : Nat) : Region :=
  (((d.setByte off (.ofNat v)).setByte (off + 1) (.ofNat (v >>> 8))).setByte (off + 2)
    (.ofNat (v >>> 16))).setByte (off + 3) (.ofNat (v >>> 24))

def getU32 (d : Region) (off : Nat) : Nat :=
  (d.get off).toNat ||| ((d.get (off + 1)).toNat <<< 8) ||| ((d.get (off + 2)).toNat <<< 16) |||
    ((d.get (off + 3)).toNat <<< 24)

/-- A store into a region: an element, or a copy. -/
inductive Store where
  | byte (off : Nat) (v : UInt8)
  | copy (off : Nat) (bs : Bytes)

/-- `none` is the `RangeError` of a copy. -/
def Store.run (d : Region) : Store → Option Region
  | byte off v => some (d.setByte off v)
  | copy off bs => d.set bs off

/-- The store stays inside a region of `size` bytes. -/
def Store.Inside (size : Nat) : Store → Prop
  | byte off _ => off < size
  | copy off bs => off + bs.length ≤ size

/-- Stores one after the other, up to the first that raises. -/
def perform (d : Region) (stores : List Store) : Option Region := stores.foldlM Store.run d

/-- The bytes of a `u32`. -/
def u32 (v : Nat) : Bytes := [.ofNat v, .ofNat (v >>> 8), .ofNat (v >>> 16), .ofNat (v >>> 24)]

@[simp] theorem length_u32 (v : Nat) : (u32 v).length = 4 := rfl

@[simp] theorem size_setByte (d : Region) (i : Nat) (v : UInt8) :
    (d.setByte i v).size = d.size := by
  rw [setByte]
  split <;> rfl

@[simp] theorem size_putU32 (d : Region) (off v : Nat) : (d.putU32 off v).size = d.size := by
  simp [putU32]

theorem size_set {d d' : Region} {bs : Bytes} {off : Nat} (h : d.set bs off = some d') :
    d'.size = d.size := by
  rw [set] at h
  split at h
  · cases h
    rfl
  · cases h

theorem set_isSome_iff (d : Region) (bs : Bytes) (off : Nat) :
    (d.set bs off).isSome ↔ off + bs.length ≤ d.size := by
  rw [set]
  split <;> simp_all

/-- A bound inside the region is left as it is. -/
theorem clamp_of_le {n : Nat} {i : Int} (hnonneg : 0 ≤ i) (hle : i ≤ n) : clamp n i = i.toNat := by
  rw [clamp, if_neg (by omega)]
  omega

/-! ## What a region holds -/

/-- The bytes `bs` lie at `off`. -/
structure Holds (d : Region) (off : Nat) (bs : Bytes) : Prop where
  fits : off + bs.length ≤ d.size
  byte : ∀ i, (h : i < bs.length) → d.byte (off + i) = bs[i]

theorem Holds.append {d : Region} {off : Nat} {as bs : Bytes} :
    d.Holds off (as ++ bs) ↔ d.Holds off as ∧ d.Holds (off + as.length) bs := by
  constructor
  · rintro ⟨hfits, hbyte⟩
    rw [List.length_append] at hfits
    refine ⟨⟨by omega, fun i h ↦ ?_⟩, ⟨by omega, fun i h ↦ ?_⟩⟩
    · rw [hbyte i (by rw [List.length_append]; omega), List.getElem_append_left h]
    · rw [Nat.add_assoc, hbyte (as.length + i) (by rw [List.length_append]; omega)]
      simp
  · rintro ⟨ha, hb⟩
    refine ⟨by rw [List.length_append]; exact Nat.add_assoc .. ▸ hb.fits, fun i h ↦ ?_⟩
    rw [List.getElem_append]
    split
    · rename_i hlt
      exact ha.byte i hlt
    · rename_i hge
      have := hb.byte (i - as.length) (by rw [List.length_append] at h; omega)
      rw [← this]
      congr 1
      omega

/-- A copy puts its bytes in place. -/
theorem holds_set {d d' : Region} {bs : Bytes} {off : Nat} (h : d.set bs off = some d') :
    d'.Holds off bs := by
  rw [set] at h
  split at h
  swap
  · cases h
  rename_i hfits
  cases h
  refine ⟨hfits, fun i hi ↦ ?_⟩
  dsimp only
  rw [if_pos ⟨Nat.le_add_right .., by omega⟩, Nat.add_sub_cancel_left,
    List.getD_eq_getElem?_getD, List.getElem?_eq_getElem hi, Option.getD_some]

/-- A copy leaves what lies elsewhere. -/
theorem Holds.set {d d' : Region} {as bs : Bytes} {off off' : Nat} (ha : d.Holds off as)
    (h : d.set bs off' = some d') (hdisj : off + as.length ≤ off' ∨ off' + bs.length ≤ off) :
    d'.Holds off as := by
  have hsize := size_set h
  rw [Region.set] at h
  split at h
  swap
  · cases h
  cases h
  refine ⟨by rw [hsize]; exact ha.fits, fun i hi ↦ ?_⟩
  dsimp only
  rw [if_neg (by omega)]
  exact ha.byte i hi

/-- A `u32` inside the region is a copy of its four bytes. -/
theorem putU32_eq_set (d : Region) (off v : Nat) (h : off + 4 ≤ d.size) :
    d.set (u32 v) off = some (d.putU32 off v) := by
  rw [Region.set, length_u32, if_pos h]
  have lt : ∀ i, i < 4 → off + i < d.size := by
    intro i hi
    omega
  simp only [putU32, setByte, show off < d.size from lt 0 (by omega), lt 1 (by omega),
    lt 2 (by omega), lt 3 (by omega), if_true, Option.some.injEq, Region.mk.injEq, true_and]
  funext j
  by_cases h0 : j = off
  · subst h0
    simp [u32]
  by_cases h1 : j = off + 1
  · subst h1
    simp [u32]
  by_cases h2 : j = off + 2
  · subst h2
    simp [u32]
  by_cases h3 : j = off + 3
  · subst h3
    simp [u32]
  · rw [if_neg h0, if_neg h1, if_neg h2, if_neg h3, if_neg]
    omega

theorem holds_putU32 (d : Region) (off v : Nat) (h : off + 4 ≤ d.size) :
    (d.putU32 off v).Holds off (u32 v) :=
  holds_set (putU32_eq_set d off v h)

/-! ## What a reader gets -/

theorem or_eq_add {a b : Nat} (i : Nat) (h : b < 2 ^ i) : b ||| (a <<< i) = b + a * 2 ^ i := by
  rw [Nat.or_comm, ← Nat.shiftLeft_add_eq_or_of_lt h, Nat.shiftLeft_eq, Nat.add_comm]

theorem getU32_of_holds {d : Region} {off v : Nat} (h : d.Holds off (u32 v)) :
    d.getU32 off = v % 2 ^ 32 := by
  have hfits := h.fits
  rw [length_u32] at hfits
  have hget : ∀ i, (hi : i < 4) → d.get (off + i) = (u32 v)[i] := by
    intro i hi
    rw [get, if_pos (by omega)]
    exact h.byte i hi
  have h0 : d.get off = .ofNat v := hget 0 (by omega)
  have h1 : d.get (off + 1) = .ofNat (v >>> 8) := hget 1 (by omega)
  have h2 : d.get (off + 2) = .ofNat (v >>> 16) := hget 2 (by omega)
  have h3 : d.get (off + 3) = .ofNat (v >>> 24) := hget 3 (by omega)
  simp only [getU32, h0, h1, h2, h3, UInt8.toNat_ofNat', Nat.shiftRight_eq_div_pow]
  rw [or_eq_add 8 (by omega), or_eq_add 16 (by omega), or_eq_add 24 (by omega)]
  omega

theorem slice_of_holds {d : Region} {off : Nat} {bs : Bytes} (h : d.Holds off bs) :
    d.slice off (off + bs.length : Nat) = bs := by
  have hfits := h.fits
  have ha : clamp d.size (off : Int) = off := clamp_of_le (by omega) (by omega)
  have hb : clamp d.size ((off + bs.length : Nat) : Int) = off + bs.length :=
    clamp_of_le (by omega) (by omega)
  refine List.ext_getElem ?_ fun i h1 h2 ↦ ?_
  · rw [slice, List.length_map, List.length_range, ha, hb]
    omega
  · simp only [slice, List.getElem_map, List.getElem_range, ha]
    exact h.byte i h2

end Region

end ConnectWeb
