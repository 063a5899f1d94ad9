import ConnectWeb.Arrow.Results
import Mathlib.Data.List.Nodup

/-!
# The session time zone (`arrow/results.py`)

`decode_arrow_batches` turns the reassembled batches into a frame and shows its tz-aware
columns in the session time zone.  The columns are found by position but read and written by
name, so a name that a tz-aware column shares with another column is read as a frame.
-/

namespace ConnectWeb.Arrow

/-- What `decode_arrow_batches` raises. -/
inductive FrameExc where
  | reassembly (e : Exc)
  | arrow (message : String)
  /-- `KeyError` -/
  | key (name : String)
  /-- `AttributeError` -/
  | attribute (message : String)
  /-- `TypeError` -/
  | type (message : String)
  /-- What pandas raises of a time zone that it does not know. -/
  | zone (name : String)
deriving DecidableEq, Repr

/-! ## Frames -/

/-- A column: `datetime64[ns, tz]` as instants, `datetime64[ns]` as wall clocks (`none` is
`NaT`), or anything else. -/
inductive Column (Cell : Type) where
  | aware (tz : String) (instants : List (Option Int))
  | naive (clocks : List (Option Int))
  | other (cells : List Cell)
deriving DecidableEq, Repr

/-- Columns by position, under their names. -/
abbrev Frame (Cell : Type) := List (String × Column Cell)

variable {Cell : Type}

/-- `isinstance(dtype, pd.DatetimeTZDtype)` -/
def Column.isAware : Column Cell → Bool
  | aware .. => true
  | _ => false

/-- What `pdf[name]` is. -/
inductive Item (Cell : Type) where
  | series (c : Column Cell)
  | frame (pdf : Frame Cell)

namespace Frame

def names (pdf : Frame Cell) : List String := pdf.map Prod.fst

/-- `pdf[name]` -/
def getItem (pdf : Frame Cell) (name : String) : Except FrameExc (Item Cell) :=
  match pdf.filter fun p ↦ p.1 = name with
  | [] => .error (.key name)
  | [p] => .ok (.series p.2)
  | ps => .ok (.frame ps)

/-- `pdf[name] = c` -/
def setItem (pdf : Frame Cell) (name : String) (c : Column Cell) : Frame Cell :=
  if name ∈ pdf.names then pdf.map fun p ↦ if p.1 = name then (p.1, c) else p
  else pdf ++ [(name, c)]

/-- `pd.DataFrame(columns=names, index=range(0))` -/
def empty (names : List String) : Frame Cell := names.map fun name ↦ (name, .other [])

end Frame

/-- `item.dt`, for `item = pdf[name]`; of a frame it is an attribute, or else its column. -/
def Item.dt (name : String) : Item Cell → Except FrameExc (Column Cell)
  | .series (.other _) =>
      .error (.attribute "Can only use .dt accessor with datetimelike values")
  | .series c => .ok c
  | .frame _ =>
      if name = "dt" then .error (.type "index is not a valid DatetimeIndex or PeriodIndex")
      else .error (.attribute "'DataFrame' object has no attribute 'dt'")

/-- The part of pyarrow and pandas behind the reassembly. -/
structure Pandas (Schema RecordBatch Table Cell : Type) where
  /-- `schema.names` -/
  schemaNames : Schema → List String
  /-- `pa.Table.from_batches` -/
  fromBatches : List RecordBatch → Except String Table
  /-- `table.schema.names` -/
  names : Table → List String
  /-- `table.num_rows` -/
  numRows : Table → Nat
  /-- `_pyarrow_supports_coerce_temporal_nanoseconds()` -/
  supportsCoerce : Bool
  /-- `table.to_pandas`, with or without `coerce_temporal_nanoseconds`; it may raise. -/
  toPandas : Bool → Table → Except String (Frame Cell)
  /-- The wall clock of an instant in a time zone that pandas knows. -/
  zone : String → Option (Int → Int)
  /-- `_get_local_timezone()` -/
  localTimezone : String

section Decode

variable {Schema RecordBatch Table : Type} (decoder : Decoder Schema RecordBatch)
  (pandas : Pandas Schema RecordBatch Table Cell)

namespace Pandas

/-- `session_timezone or _get_local_timezone()` -/
def timezone (sessionTimezone : Option String) : String :=
  match sessionTimezone with
  | none => pandas.localTimezone
  | some tz => if tz = "" then pandas.localTimezone else tz

/-- `dt.tz_convert(tz).dt.tz_localize(None)` -/
def wallClock (tz : String) : Column Cell → Except FrameExc (Column Cell)
  | .aware _ instants =>
      match pandas.zone tz with
      | none => .error (.zone tz)
      | some clock => .ok (.naive (instants.map (Option.map clock)))
  | .naive _ =>
      .error (.type "Cannot convert tz-naive timestamps, use tz_localize to localize")
  | .other _ => .error (.attribute "Can only use .dt accessor with datetimelike values")

/-- The loop body of `_localize_timestamp_columns` -/
def localizeColumn (tz : String) (pdf : Frame Cell) (name : String) :
    Except FrameExc (Frame Cell) := do
  let item ← pdf.getItem name
  let dt ← item.dt name
  let c ← pandas.wallClock tz dt
  return pdf.setItem name c

/-- `_localize_timestamp_columns` -/
def localizeTimestampColumns (pdf : Frame Cell) (sessionTimezone : Option String) :
    Except FrameExc (Frame Cell) :=
  let tz := pandas.timezone sessionTimezone
  let tzAware := (pdf.filter fun p ↦ p.2.isAware).map Prod.fst
  tzAware.foldlM (pandas.localizeColumn tz) pdf

end Pandas

/-- `decode_arrow_batches` -/
def decodeArrowBatches (responses : List Response) (sessionTimezone : Option String) :
    Except FrameExc (Frame Cell) :=
  match reassemble decoder responses with
  | .error e => .error (.reassembly e)
  | .ok ([], none) => .ok []
  | .ok ([], some schema) => .ok (Frame.empty (pandas.schemaNames schema))
  | .ok (batches, _) =>
      match pandas.fromBatches batches with
      | .error e => .error (.arrow e)
      | .ok table =>
          if pandas.numRows table = 0 then .ok (Frame.empty (pandas.names table))
          else
            match pandas.toPandas pandas.supportsCoerce table with
            | .error e => .error (.arrow e)
            | .ok pdf => pandas.localizeTimestampColumns pdf sessionTimezone

/-- The responses decode to a table with rows, of which `to_pandas` returns `pdf`. -/
def Decodes (responses : List Response) (pdf : Frame Cell) : Prop :=
  ∃ batches schema table, reassemble decoder responses = .ok (batches, schema) ∧
    batches ≠ [] ∧ pandas.fromBatches batches = .ok table ∧ pandas.numRows table ≠ 0 ∧
    pandas.toPandas pandas.supportsCoerce table = .ok pdf

/-! ## What is asked -/

/-- A column as it is to be returned, by position. -/
inductive Localized (tz : String) : String × Column Cell → String × Column Cell → Prop where
  | aware {name tz' : String} {instants : List (Option Int)} {clock : Int → Int}
      (h : pandas.zone tz = some clock) :
      Localized tz (name, .aware tz' instants) (name, .naive (instants.map (Option.map clock)))
  | unchanged {p : String × Column Cell} (h : p.2.isAware = false) : Localized tz p p

/-- The decoder returns `pdf` with its tz-aware columns localized. -/
def ColumnExact (pdf : Frame Cell) (sessionTimezone : Option String)
    (result : Except FrameExc (Frame Cell)) : Prop :=
  ∃ out, result = .ok out ∧
    List.Forall₂ (Localized pandas (pandas.timezone sessionTimezone)) pdf out

/-- Every tz-aware column has a name of its own, and pandas knows the session time zone if there
is one. -/
def Separate (pdf : Frame Cell) (sessionTimezone : Option String) : Prop :=
  ∀ p ∈ pdf, p.2.isAware = true →
    pdf.names.count p.1 = 1 ∧ (pandas.zone (pandas.timezone sessionTimezone)).isSome

end Decode

/-! ## Reading and writing by name -/

namespace Frame

variable {pdf : Frame Cell} {name : String}

theorem length_filter_name (pdf : Frame Cell) (name : String) :
    (pdf.filter fun p ↦ p.1 = name).length = pdf.names.count name := by
  rw [names, List.count_eq_countP, List.countP_map, ← List.countP_eq_length_filter]
  refine List.countP_congr fun p _ ↦ ?_
  simp

/-- A name of its own names one column. -/
theorem eq_of_count_eq_one (h : pdf.names.count name = 1) {p q : String × Column Cell}
    (hp : p ∈ pdf) (hq : q ∈ pdf) (hpn : p.1 = name) (hqn : q.1 = name) : p = q := by
  rw [← length_filter_name, List.length_eq_one_iff] at h
  obtain ⟨r, hr⟩ := h
  have hp' : p ∈ pdf.filter fun p ↦ p.1 = name := List.mem_filter.mpr ⟨hp, by simpa using hpn⟩
  have hq' : q ∈ pdf.filter fun p ↦ p.1 = name := List.mem_filter.mpr ⟨hq, by simpa using hqn⟩
  rw [hr, List.mem_singleton] at hp' hq'
  rw [hp', hq']

theorem getItem_of_count_eq_one (h : pdf.names.count name = 1) {c : Column Cell}
    (hm : (name, c) ∈ pdf) : pdf.getItem name = .ok (.series c) := by
  have hmem : (name, c) ∈ pdf.filter fun p ↦ p.1 = name :=
    List.mem_filter.mpr ⟨hm, by simp⟩
  rw [← length_filter_name, List.length_eq_one_iff] at h
  obtain ⟨r, hr⟩ := h
  rw [hr, List.mem_singleton] at hmem
  rw [getItem, hr, ← hmem]

theorem count_of_getItem {c : Column Cell} (h : pdf.getItem name = .ok (.series c)) :
    pdf.names.count name = 1 := by
  rw [← length_filter_name]
  unfold getItem at h
  split at h
  · cases h
  · rename_i heq
    rw [heq]
    rfl
  · cases h

theorem names_setItem (h : name ∈ pdf.names) (c : Column Cell) :
    (pdf.setItem name c).names = pdf.names := by
  rw [setItem, if_pos h, names, names, List.map_map]
  refine List.map_congr_left fun p _ ↦ ?_
  simp only [Function.comp_apply]
  split <;> rfl

end Frame

/-- A series has the accessor; a frame has not. -/
theorem Item.eq_series_of_dt {name : String} {item : Item Cell} {c : Column Cell}
    (h : item.dt name = .ok c) : item = .series c := by
  unfold Item.dt at h
  split at h
  · cases h
  · cases h
    rfl
  · split at h <;> cases h

/-- The tz-aware columns are localized. -/
def Column.localize (clock : Int → Int) : Column Cell → Column Cell
  | .aware _ instants => .naive (instants.map (Option.map clock))
  | c => c

namespace Pandas

variable {Schema RecordBatch Table : Type} (pandas : Pandas Schema RecordBatch Table Cell)
  {tz : String}

theorem localizeColumn_eq {pdf : Frame Cell} {name : String} {c : Column Cell} {clock : Int → Int}
    (hz : pandas.zone tz = some clock) (h : pdf.names.count name = 1) (hm : (name, c) ∈ pdf)
    (ha : c.isAware = true) :
    pandas.localizeColumn tz pdf name = .ok (pdf.setItem name (c.localize clock)) := by
  rw [localizeColumn, Frame.getItem_of_count_eq_one h hm]
  cases c with
  | aware _ instants =>
      simp only [bind, Except.bind, Item.dt, wallClock, hz]
      rfl
  | naive _ | other _ => cases ha

/-- The loop body comes through only for a name that one column has. -/
theorem of_localizeColumn {pdf out : Frame Cell} {name : String}
    (h : pandas.localizeColumn tz pdf name = .ok out) :
    pdf.names.count name = 1 ∧ (pandas.zone tz).isSome ∧ out.names = pdf.names := by
  rw [localizeColumn] at h
  rcases hi : pdf.getItem name with _ | item
  · rw [hi] at h
    cases h
  rw [hi] at h
  rcases hd : item.dt name with _ | c
  · simp [bind, Except.bind, hd] at h
  have hcount := Frame.count_of_getItem (hi.trans (congrArg _ (Item.eq_series_of_dt hd)))
  have hmem : name ∈ pdf.names := List.count_pos_iff.mp (by omega)
  rcases hw : pandas.wallClock tz c with _ | c'
  · simp [bind, Except.bind, hd, hw] at h
  have hout : pdf.setItem name c' = out := by
    simpa [bind, Except.bind, pure, Except.pure, hd, hw] using h
  refine ⟨hcount, ?_, hout ▸ Frame.names_setItem hmem c'⟩
  cases c with
  | aware tz' instants =>
      rw [wallClock] at hw
      split at hw
      · cases hw
      · rename_i hz
        rw [hz]
        rfl
  | naive _ | other _ => cases hw

/-- The loop comes through only if each of its names is the name of one column. -/
theorem of_foldlM_localizeColumn {names : List String} {pdf out : Frame Cell}
    (h : names.foldlM (pandas.localizeColumn tz) pdf = .ok out) :
    ∀ name ∈ names, pdf.names.count name = 1 ∧ (pandas.zone tz).isSome := by
  induction names generalizing pdf with
  | nil => simp
  | cons name names ih =>
      rw [List.foldlM_cons] at h
      rcases hc : pandas.localizeColumn tz pdf name with _ | pdf'
      · rw [hc] at h
        cases h
      · rw [hc] at h
        obtain ⟨hcount, hz, hnames⟩ := pandas.of_localizeColumn hc
        rintro name' (_ | ⟨_, hmem⟩)
        · exact ⟨hcount, hz⟩
        · exact hnames ▸ ih h name' hmem

/-- Names that one tz-aware column each has: the loop localizes these columns. -/
theorem foldlM_localizeColumn {clock : Int → Int} (hz : pandas.zone tz = some clock)
    {names : List String} {pdf : Frame Cell} (hnd : names.Nodup)
    (h : ∀ name ∈ names, pdf.names.count name = 1 ∧
      ∃ c : Column Cell, (name, c) ∈ pdf ∧ c.isAware = true) :
    names.foldlM (pandas.localizeColumn tz) pdf =
      .ok (pdf.map fun p ↦ if p.1 ∈ names then (p.1, p.2.localize clock) else p) := by
  induction names generalizing pdf with
  | nil => simp [pure, Except.pure]
  | cons name names ih =>
      obtain ⟨hnot, hnd⟩ := List.nodup_cons.mp hnd
      obtain ⟨hcount, c, hm, ha⟩ := h name (List.mem_cons_self ..)
      have hmem : name ∈ pdf.names := List.mem_map_of_mem hm
      rw [List.foldlM_cons, pandas.localizeColumn_eq hz hcount hm ha]
      refine (ih hnd fun name' hname' ↦ ?_).trans ?_
      · -- the other names keep their columns
        obtain ⟨hcount', c', hm', ha'⟩ := h name' (List.mem_cons_of_mem _ hname')
        have hne : name' ≠ name := fun heq ↦ hnot (heq ▸ hname')
        rw [Frame.names_setItem hmem, Frame.setItem, if_pos hmem]
        refine ⟨hcount', c', List.mem_map.mpr ⟨(name', c'), hm', ?_⟩, ha'⟩
        rw [if_neg hne]
      · rw [Frame.setItem, if_pos hmem, List.map_map]
        congr 1
        refine List.map_congr_left fun p hp ↦ ?_
        simp only [Function.comp_apply, List.mem_cons]
        by_cases hpn : p.1 = name
        · have heq := Frame.eq_of_count_eq_one hcount hp hm hpn rfl
          subst heq
          simp [hnot]
        · simp [hpn]

/-- With a name of its own for every tz-aware column, the loop is exact. -/
theorem columnExact_of_separate {pdf : Frame Cell} {sessionTimezone : Option String}
    (h : Separate pandas pdf sessionTimezone) :
    ColumnExact pandas pdf sessionTimezone
      (pandas.localizeTimestampColumns pdf sessionTimezone) := by
  set names := (pdf.filter fun p ↦ p.2.isAware).map Prod.fst with hnames
  have mem_names : ∀ {name}, name ∈ names ↔ ∃ c : Column Cell, (name, c) ∈ pdf ∧ c.isAware := by
    intro name
    rw [hnames, List.mem_map]
    constructor
    · rintro ⟨⟨name', c⟩, hp, rfl⟩
      exact ⟨c, List.mem_filter.mp hp⟩
    · rintro ⟨c, hp⟩
      exact ⟨(name, c), List.mem_filter.mpr hp, rfl⟩
  have unique : ∀ name ∈ names, pdf.names.count name = 1 := by
    intro name hm
    obtain ⟨c, hc, ha⟩ := mem_names.mp hm
    exact (h _ hc ha).1
  rcases hl : names with _ | ⟨name, rest⟩
  · -- no column is tz-aware
    refine ⟨pdf, ?_, List.forall₂_same.mpr fun p hp ↦ .unchanged ?_⟩
    · rw [localizeTimestampColumns, ← hnames, hl]
      rfl
    · by_contra ha
      rw [Bool.not_eq_false] at ha
      have := mem_names.mpr ⟨p.2, hp, ha⟩
      rw [hl] at this
      cases this
  · obtain ⟨c, hc, ha⟩ := mem_names.mp (hl ▸ List.mem_cons_self .. : name ∈ names)
    obtain ⟨clock, hz⟩ := Option.isSome_iff_exists.mp (h _ hc ha).2
    have hnd : names.Nodup := by
      refine List.nodup_iff_count_le_one.mpr fun name' ↦ ?_
      by_cases hm : name' ∈ names
      · have hsub : names.Sublist pdf.names := List.Sublist.map _ List.filter_sublist
        exact (hsub.count_le name').trans (unique name' hm).le
      · rw [List.count_eq_zero_of_not_mem hm]
        exact Nat.zero_le _
    refine ⟨_, pandas.foldlM_localizeColumn hz hnd fun name' hm ↦
      ⟨unique name' hm, mem_names.mp hm⟩, ?_⟩
    rw [List.forall₂_map_right_iff, List.forall₂_same]
    rintro ⟨name', c'⟩ hp
    by_cases ha' : c'.isAware = true
    · rw [if_pos (mem_names.mpr ⟨c', hp, ha'⟩)]
      cases c' with
      | aware tz' instants => exact .aware hz
      | naive _ | other _ => cases ha'
    · have hnot : name' ∉ names := fun hm ↦ by
        obtain ⟨d, hd, had⟩ := mem_names.mp hm
        have := Frame.eq_of_count_eq_one (unique name' hm) hp hd rfl rfl
        cases this
        exact ha' had
      rw [if_neg hnot]
      exact .unchanged (Bool.eq_false_iff.mpr ha')

theorem separate_of_columnExact {pdf : Frame Cell} {sessionTimezone : Option String}
    (h : ColumnExact pandas pdf sessionTimezone
      (pandas.localizeTimestampColumns pdf sessionTimezone)) :
    Separate pandas pdf sessionTimezone := by
  obtain ⟨out, hout, -⟩ := h
  intro p hp ha
  refine pandas.of_foldlM_localizeColumn hout p.1 (List.mem_map_of_mem ?_)
  exact List.mem_filter.mpr ⟨hp, ha⟩

end Pandas

/-! ## Exactly when the frame is column-exact -/

theorem decodeArrowBatches_eq {Schema RecordBatch Table : Type}
    {decoder : Decoder Schema RecordBatch} {pandas : Pandas Schema RecordBatch Table Cell}
    {responses : List Response} {pdf : Frame Cell} (h : Decodes decoder pandas responses pdf)
    (sessionTimezone : Option String) :
    decodeArrowBatches decoder pandas responses sessionTimezone =
      pandas.localizeTimestampColumns pdf sessionTimezone := by
  obtain ⟨batches, schema, table, hr, hne, ht, hrows, hpdf⟩ := h
  rw [decodeArrowBatches, hr]
  cases batches with
  | nil => exact absurd rfl hne
  | cons batch batches =>
      simp only [ht, if_neg hrows, hpdf]

/-- A decoded result with rows is localized column by column exactly if every tz-aware column
has a name of its own, and pandas knows the session time zone if there is such a column. -/
theorem columnExact_iff {Schema RecordBatch Table Cell : Type}
    {decoder : Decoder Schema RecordBatch} {pandas : Pandas Schema RecordBatch Table Cell}
    {responses : List Response} {pdf : Frame Cell} (h : Decodes decoder pandas responses pdf)
    (sessionTimezone : Option String) :
    ColumnExact pandas pdf sessionTimezone
        (decodeArrowBatches decoder pandas responses sessionTimezone) ↔
      Separate pandas pdf sessionTimezone := by
  rw [decodeArrowBatches_eq h]
  exact ⟨pandas.separate_of_columnExact, pandas.columnExact_of_separate⟩

/-! ## Two results -/

/-- A decoder of streams that are one batch, with a row for every byte. -/
def rowDecoder : Decoder Unit Bytes where
  openStream bs := .ok { schema := (), batches := [bs] }
  numRows := List.length

/-- A pandas in which every batch is shown under the given names, as instants in the zone the
column names and in a plain column, and which knows one time zone. -/
def shownAs (instants cells : String) : Pandas Unit Bytes (List Bytes) UInt8 where
  schemaNames _ := [instants, cells]
  fromBatches := .ok
  names _ := [instants, cells]
  numRows table := table.flatten.length
  supportsCoerce := true
  toPandas _ table := .ok [
    (instants, .aware "UTC" (table.flatten.map fun b ↦ some b.toNat)),
    (cells, .other table.flatten)]
  zone tz := if tz = "Etc/GMT+8" then some (· - 28800000000000) else none
  localTimezone := "UTC"

/-- One batch of two rows. -/
def pairRows : List Response := [{ arrowBatch := some { rowCount := 2, data := [7, 9] } }]

theorem decodes_pairRows (instants cells : String) :
    Decodes rowDecoder (shownAs instants cells) pairRows [
      (instants, .aware "UTC" [some 7, some 9]), (cells, .other [7, 9])] :=
  ⟨[[7, 9]], some (), [[7, 9]], rfl, by simp, rfl, by simp [shownAs], rfl⟩

theorem columnExact_pairRows :
    ColumnExact (shownAs "ts" "id") [("ts", .aware "UTC" [some 7, some 9]), ("id", .other [7, 9])]
      (some "Etc/GMT+8")
      (decodeArrowBatches rowDecoder (shownAs "ts" "id") pairRows (some "Etc/GMT+8")) := by
  refine (columnExact_iff (decodes_pairRows "ts" "id") _).mpr ?_
  intro p hp ha
  rcases List.mem_pair.mp hp with rfl | rfl
  · exact ⟨by decide, by decide⟩
  · cases ha

/-- `SELECT ts AS x, id AS x`: the loop raises. -/
theorem not_columnExact_repeated : ¬ ∀ (Schema RecordBatch Table Cell : Type)
    (decoder : Decoder Schema RecordBatch) (pandas : Pandas Schema RecordBatch Table Cell)
    (responses : List Response) (pdf : Frame Cell) (sessionTimezone : Option String),
    (pandas.zone (pandas.timezone sessionTimezone)).isSome →
    Decodes decoder pandas responses pdf → ColumnExact pandas pdf sessionTimezone
      (decodeArrowBatches decoder pandas responses sessionTimezone) := by
  intro hall
  obtain ⟨out, hout, -⟩ := hall _ _ _ _ rowDecoder (shownAs "x" "x") pairRows _
    (some "Etc/GMT+8") (by decide) (decodes_pairRows "x" "x")
  have : decodeArrowBatches rowDecoder (shownAs "x" "x") pairRows (some "Etc/GMT+8") =
      .error (.attribute "'DataFrame' object has no attribute 'dt'") := by
    decide +kernel
  rw [this] at hout
  cases hout

end ConnectWeb.Arrow
