import Mathlib.Data.List.DropRight

/-!
# Python's `str` methods on lists of characters
-/

namespace ConnectWeb.Text

/-- The characters `str.strip()` removes (`str.isspace`). -/
def isSpace (c : Char) : Bool :=
  let n := c.toNat
  (9 ≤ n && n ≤ 13) || (0x1C ≤ n && n ≤ 0x20) || n == 0x85 || n == 0xA0 || n == 0x1680 ||
    (0x2000 ≤ n && n ≤ 0x200A) || n == 0x2028 || n == 0x2029 || n == 0x202F || n == 0x205F ||
    n == 0x3000

/-- `text.strip()` -/
def strip (cs : List Char) : List Char := (cs.dropWhile isSpace).rdropWhile isSpace

/-- `text.replace("\r\n", "\n")` -/
def replaceCrLf : List Char → List Char
  | '\r' :: '\n' :: cs => '\n' :: replaceCrLf cs
  | c :: cs => c :: replaceCrLf cs
  | [] => []

/-- `key, _, value = line.partition(sep)` -/
def partition (sep : Char) (cs : List Char) : List Char × List Char :=
  (cs.takeWhile (· != sep), (cs.dropWhile (· != sep)).tail)

/-- `text.lower()` on ASCII.  Python maps other letters too, which stay as they are here; none
of them becomes a letter of the keys that the code looks up. -/
def lower (cs : List Char) : List Char := cs.map Char.toLower

/-- `text.rstrip(c)` -/
def rstrip (c : Char) (cs : List Char) : List Char := cs.rdropWhile (· == c)

/-- `text.split(sep, 1)[1]`; `none` when `sep` does not occur. -/
def after (sep : List Char) : List Char → Option (List Char)
  | [] => if sep = [] then some [] else none
  | c :: cs => if sep.isPrefixOf (c :: cs) then some ((c :: cs).drop sep.length) else after sep cs

/-- `text.rsplit(sep, 1)`, for a text in which `sep` occurs -/
def rsplit (sep : Char) (cs : List Char) : List Char × List Char :=
  ((cs.rdropWhile (· != sep)).dropLast, cs.rtakeWhile (· != sep))

/-- A separator that occurs is found. -/
theorem isSome_after {sep cs : List Char} (h : sep <:+: cs) : (after sep cs).isSome = true := by
  induction cs with
  | nil =>
      rw [after, if_pos (List.infix_nil.mp h)]
      rfl
  | cons c cs ih =>
      rw [after]
      split
      · rfl
      · rename_i hprefix
        exact ih ((List.infix_cons_iff.mp h).resolve_left fun h ↦
          hprefix (List.isPrefixOf_iff_prefix.mpr h))

theorem toLower_toLower (c : Char) : c.toLower.toLower = c.toLower := by
  by_cases h : 'A'.val ≤ c.val ∧ c.val ≤ 'Z'.val
  · have hlow : 65 ≤ c.val.toNat := UInt32.le_iff_toNat_le.mp h.1
    have hhigh : c.val.toNat ≤ 90 := UInt32.le_iff_toNat_le.mp h.2
    have hval : c.toLower.val.toNat = c.val.toNat + 32 := by
      have hsum : c.toLower.val = c.val + 32 := congrArg Char.val (dif_pos h : c.toLower = _)
      rw [hsum, UInt32.toNat_add]
      exact Nat.mod_eq_of_lt (Nat.lt_of_le_of_lt (Nat.add_le_add_right hhigh 32) (by decide))
    have hup : ¬ ('A'.val ≤ c.toLower.val ∧ c.toLower.val ≤ 'Z'.val) := by
      rintro ⟨-, hle⟩
      have : c.toLower.val.toNat ≤ 90 := UInt32.le_iff_toNat_le.mp hle
      omega
    exact dif_neg hup
  · have hsame : c.toLower = c := dif_neg h
    rw [hsame, hsame]

theorem lower_lower (cs : List Char) : lower (lower cs) = lower cs := by
  rw [lower, lower, List.map_map]
  exact List.map_congr_left fun c _ ↦ toLower_toLower c

theorem rstrip_append_replicate {c : Char} {cs : List Char} (h : ∀ d ∈ cs.getLast?, d ≠ c)
    (n : Nat) : rstrip c (cs ++ List.replicate n c) = cs := by
  rw [rstrip, List.rdropWhile, List.reverse_append, List.reverse_replicate,
    List.dropWhile_append_of_pos (by simp)]
  have : cs.reverse.dropWhile (· == c) = cs.reverse := by
    rw [List.dropWhile_eq_self_iff]
    intro hl
    have := h (cs.reverse[0]) (by simp [List.getLast?_eq_getElem?])
    simpa using this
  rw [this, List.reverse_reverse]

/-- The last occurrence of the separator counts. -/
theorem rsplit_append {sep : Char} (a : List Char) {b : List Char} (h : sep ∉ b) :
    rsplit sep (a ++ sep :: b) = (a, b) := by
  have hb : ∀ c ∈ b.reverse, (c != sep) = true := by
    intro c hc
    rw [List.mem_reverse] at hc
    simpa using fun heq : c = sep ↦ h (heq ▸ hc)
  have hr : (a ++ sep :: b).reverse = b.reverse ++ sep :: a.reverse := by simp
  rw [rsplit, List.rdropWhile, List.rtakeWhile, hr, List.dropWhile_append_of_pos hb,
    List.takeWhile_append_of_pos hb]
  simp

theorem exists_rsplit {sep : Char} {cs : List Char} (h : sep ∈ cs) :
    ∃ a b, cs = a ++ sep :: b ∧ sep ∉ b := by
  obtain ⟨b, a, heq, hb⟩ := List.eq_append_cons_of_mem (List.mem_reverse.mpr h)
  refine ⟨a.reverse, b.reverse, ?_, by rwa [List.mem_reverse]⟩
  rw [← List.reverse_reverse cs, heq]
  simp

theorem partition_append {sep : Char} {a : List Char} (h : sep ∉ a) (b : List Char) :
    partition sep (a ++ sep :: b) = (a, b) := by
  have ha : ∀ c ∈ a, (c != sep) = true := by
    intro c hc
    simpa using fun heq : c = sep ↦ h (heq ▸ hc)
  rw [partition, List.takeWhile_append_of_pos ha, List.dropWhile_append_of_pos ha]
  simp

theorem partition_of_not_mem {sep : Char} {a : List Char} (h : sep ∉ a) :
    partition sep a = (a, []) := by
  have ha : ∀ c ∈ a, (c != sep) = true := by
    intro c hc
    simpa using fun heq : c = sep ↦ h (heq ▸ hc)
  rw [partition, List.takeWhile_eq_self_iff.mpr ha, List.dropWhile_eq_nil_iff.mpr ha]
  rfl

/-! ## Ink -/

/-- The characters that are no whitespace. -/
def ink (cs : List Char) : List Char := cs.filter fun c ↦ !isSpace c

@[simp] theorem ink_append (a b : List Char) : ink (a ++ b) = ink a ++ ink b := List.filter_append ..

theorem ink_eq_nil {cs : List Char} : ink cs = [] ↔ ∀ c ∈ cs, isSpace c = true := by
  simp [ink]

/-- Stripping is not seen in the ink. -/
@[simp] theorem ink_strip (cs : List Char) : ink (strip cs) = ink cs := by
  have hdrop : ∀ cs : List Char, ink (cs.dropWhile isSpace) = ink cs := by
    intro cs
    induction cs with
    | nil => rfl
    | cons c cs ih =>
        rw [List.dropWhile_cons]
        split
        · rename_i hc
          rw [ih, ink, ink, List.filter_cons_of_neg (by simp [hc])]
        · rfl
  have hreverse : ∀ cs : List Char, ink cs.reverse = (ink cs).reverse := fun cs ↦ List.filter_reverse
  rw [strip, List.rdropWhile, hreverse, hdrop, hreverse, hdrop, List.reverse_reverse]

theorem strip_eq_nil {cs : List Char} : strip cs = [] ↔ ∀ c ∈ cs, isSpace c = true := by
  constructor
  · intro h
    rw [← ink_eq_nil, ← ink_strip, h]
    rfl
  · intro h
    rw [strip, List.dropWhile_eq_nil_iff.mpr h]
    rfl

/-- Whitespace behind a text is stripped. -/
theorem strip_append_of_blank (a : List Char) {b : List Char} (h : ∀ c ∈ b, isSpace c = true) :
    strip (a ++ b) = strip a := by
  by_cases ha : a.dropWhile isSpace = []
  · have hblank := List.dropWhile_eq_nil_iff.mp ha
    rw [strip_eq_nil.mpr hblank, strip_eq_nil]
    intro c hc
    exact (List.mem_append.mp hc).elim (hblank c) (h c)
  · have hdrop : (a ++ b).dropWhile isSpace = a.dropWhile isSpace ++ b := by
      rw [List.dropWhile_append, if_neg (by simpa using ha)]
    rw [strip, hdrop, List.rdropWhile, List.reverse_append,
      List.dropWhile_append_of_pos fun c hc ↦ h c (List.mem_reverse.mp hc)]
    rfl

/-- A text without whitespace is stripped. -/
theorem strip_of_ink {cs : List Char} (h : ∀ c ∈ cs, isSpace c = false) : strip cs = cs := by
  have hink : ink (strip cs) = cs := by
    rw [ink_strip]
    exact List.filter_eq_self.mpr fun c hc ↦ by simp [h c hc]
  have hsub : List.Sublist cs (strip cs) := by
    have := @List.filter_sublist _ (fun c ↦ !isSpace c) (strip cs)
    rwa [← ink, hink] at this
  have hle : (strip cs).length ≤ cs.length :=
    (List.rdropWhile_prefix isSpace _).length_le.trans (List.dropWhile_suffix isSpace).length_le
  exact (hsub.eq_of_length_le hle).symm

/-- Of `key:value`, with ink in front and at the separator, the end of the value is stripped. -/
theorem strip_append_cons {c sep : Char} (key value : List Char) (hc : isSpace c = false)
    (hsep : isSpace sep = false) :
    strip (c :: key ++ sep :: value) = c :: key ++ sep :: value.rdropWhile isSpace := by
  have hdrop : (c :: key ++ sep :: value).dropWhile isSpace = c :: key ++ sep :: value :=
    List.dropWhile_cons_of_neg (by simp [hc])
  rw [strip, hdrop]
  induction value using List.reverseRecOn with
  | nil => exact List.rdropWhile_concat_neg isSpace _ sep (by simp [hsep])
  | append_singleton value d ih =>
      rw [← List.cons_append, ← List.append_assoc]
      by_cases hd : isSpace d = true
      · rw [List.rdropWhile_concat_pos isSpace _ d hd, List.rdropWhile_concat_pos isSpace _ d hd]
        exact ih (List.dropWhile_cons_of_neg (by simp [hc]))
      · rw [List.rdropWhile_concat_neg isSpace _ d hd, List.rdropWhile_concat_neg isSpace _ d hd]
        simp

@[simp] theorem strip_rdropWhile (cs : List Char) : strip (cs.rdropWhile isSpace) = strip cs := by
  conv_rhs => rw [← List.rdropWhile_append_rtakeWhile (p := isSpace) (l := cs)]
  rw [strip_append_of_blank]
  exact fun c hc ↦ List.mem_rtakeWhile_imp hc

theorem isSpace_of_mem_crLf {c : Char} (h : c ∈ ['\r', '\n']) : isSpace c = true := by
  rcases List.mem_pair.mp h with rfl | rfl <;> rfl

/-! ## Lines -/

/-- `text.replace("\r\n", "\n").split("\n")` -/
def lines (cs : List Char) : List (List Char) := (replaceCrLf cs).splitOn '\n'

theorem replaceCrLf_of_not_mem {cs : List Char} (h : '\n' ∉ cs) : replaceCrLf cs = cs := by
  induction cs with
  | nil => rfl
  | cons c cs ih =>
      rw [List.mem_cons, not_or] at h
      rw [replaceCrLf, ih h.2]
      rintro cs' - rfl
      exact h.2 List.mem_cons_self

/-- Up to a line break the text is kept, but for a carriage return before the break. -/
theorem replaceCrLf_append {a : List Char} (h : '\n' ∉ a) (b : List Char) :
    ∃ line, '\n' ∉ line ∧ (a = line ∨ a = line ++ ['\r']) ∧
      replaceCrLf (a ++ '\n' :: b) = line ++ '\n' :: replaceCrLf b := by
  induction a with
  | nil =>
      refine ⟨[], List.not_mem_nil, .inl rfl, ?_⟩
      rw [List.nil_append, replaceCrLf]
      · rfl
      · nofun
  | cons c a ih =>
      rw [List.mem_cons, not_or] at h
      by_cases hcr : c = '\r' ∧ a = []
      · obtain ⟨rfl, rfl⟩ := hcr
        exact ⟨[], List.not_mem_nil, .inr rfl, rfl⟩
      · obtain ⟨line, hline, ha, hreplace⟩ := ih h.2
        refine ⟨c :: line, ?_, ?_, ?_⟩
        · exact fun hm ↦ (List.mem_cons.mp hm).elim h.1 hline
        · exact ha.imp (congrArg (c :: ·)) (congrArg (c :: ·))
        · rw [List.cons_append, replaceCrLf, hreplace]
          · rfl
          · -- the break would be the next character
            rintro cs rfl heq
            cases a with
            | nil => exact hcr ⟨rfl, rfl⟩
            | cons d a =>
                rw [List.cons_append, List.cons.injEq] at heq
                exact h.2 (heq.1 ▸ List.mem_cons_self)

/-- The lines of a text with a line break in it; only the whitespace around the first one is
not what it was. -/
theorem lines_append {a : List Char} (h : '\n' ∉ a) (b : List Char) :
    ∃ line, strip line = strip a ∧ lines (a ++ '\n' :: b) = line :: lines b := by
  obtain ⟨line, hline, ha, hreplace⟩ := replaceCrLf_append h b
  refine ⟨line, ?_, ?_⟩
  · rcases ha with rfl | rfl
    · rfl
    · exact (strip_append_of_blank line (List.forall_mem_singleton.mpr rfl)).symm
  · rw [lines, hreplace, List.splitOn_append_cons_self, List.splitOn_eq_singleton hline]
    rfl

theorem lines_of_not_mem {a : List Char} (h : '\n' ∉ a) : lines a = [a] := by
  rw [lines, replaceCrLf_of_not_mem h, List.splitOn_eq_singleton h]

/-- The ink of a text is on its lines. -/
theorem flatMap_ink_lines (cs : List Char) : (lines cs).flatMap ink = ink cs := by
  by_cases h : '\n' ∈ cs
  · obtain ⟨a, b, hcs, ha⟩ := List.eq_append_cons_of_mem h
    have hlt : b.length < cs.length := by
      rw [hcs, List.length_append, List.length_cons]
      omega
    obtain ⟨line, hstrip, hlines⟩ := lines_append ha b
    have hink : ink line = ink a := by rw [← ink_strip, hstrip, ink_strip]
    rw [hcs, hlines, List.flatMap_cons, flatMap_ink_lines b, hink, ink_append]
    rfl
  · rw [lines_of_not_mem h, List.flatMap_singleton]
termination_by cs.length

theorem length_ink_le_of_mem_lines {line cs : List Char} (h : line ∈ lines cs) :
    (ink line).length ≤ (ink cs).length := by
  rw [← flatMap_ink_lines cs, List.flatMap_def]
  exact (List.sublist_flatten_of_mem (List.mem_map_of_mem h)).length_le

end ConnectWeb.Text
