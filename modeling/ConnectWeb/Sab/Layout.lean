import ConnectWeb.Foundation.JsonRoundtrip
import ConnectWeb.Foundation.Region

/-!
# What the two threads put into the data SAB

`worker/sab_channel.py` and `worker/bridge.js` exchange requests and response windows
through the data SAB.  A request is `[u32 len][header JSON][u32 len][body]`, written by
`_write_request` and read by `_readRequest`; a window is `[u32 len][meta JSON][payload]`,
written by `_writeWindow` and read by `_read_window`.
-/

namespace ConnectWeb.Sab

/-! ## Constants -/

/-- `META_ZONE` -/
def metaZone : Nat := 4096

/-- `_DEFAULT_DATA_BYTES` -/
def defaultDataBytes : Nat := 16 * 1024 * 1024

/-- An `Int32` element of the control SAB as it reads after `n` was stored. -/
def toInt32 (n : Int) : Int := n.bmod (2 ^ 32)

theorem toInt32_of_lt {n : Nat} (h : n < 2 ^ 31) : toInt32 n = n := by
  rw [toInt32, Int.bmod_eq_of_le] <;> omega

theorem toInt32_of_ge {n : Nat} (hge : 2 ^ 31 ≤ n) (hlt : n < 2 ^ 32) :
    toInt32 n = (n : Int) - 2 ^ 32 := by
  rw [toInt32, ← Int.sub_bmod_right, Int.bmod_eq_of_le] <;> omega

/-- Two numbers less than `2 ^ 32` apart are told apart by what reads back. -/
theorem eq_of_toInt32_eq {m n : Nat} (h : toInt32 m = n) (hle : n ≤ m) (hlt : m < n + 2 ^ 32) :
    m = n := by
  have hdvd : ((2 ^ 32 : Nat) : Int) ∣ (m : Int) - (m : Int).bmod (2 ^ 32) :=
    Int.dvd_self_sub_bmod
  rw [toInt32] at h
  rw [h] at hdvd
  omega

-- no unifier should look into the modulus
attribute [irreducible] toInt32

/-! ## Requests -/

/-- The `kind` of a request. -/
inductive Kind where
  | unary | serverStream
deriving DecidableEq, Repr

def Kind.text : Kind → String
  | .unary => "unary"
  | .serverStream => "server_stream"

/-- A finite number of seconds other than `-0.0`, as Python writes it: `5`, `0.25`, `1e-07`. -/
structure Timeout where
  mantissa : Int
  scale : Nat
  exponent : Option Int := none
deriving DecidableEq, Repr

/-- The request dictionary that `SabSyncChannel` hands to its backend. -/
structure Request where
  kind : Kind
  url : String
  headers : List (String × String) := []
  body : Bytes := []
  timeout : Option Timeout := none
deriving DecidableEq, Repr

/-- The header dictionary of `_write_request`. -/
def header (req : Request) (gen : Nat) : Json :=
  .obj (.ofList [
    ("kind", .str req.kind.text),
    ("url", .str req.url),
    ("headers", .ofStrings req.headers),
    ("timeout", match req.timeout with
      | none => .null
      | some t => .num t.mantissa t.scale t.exponent),
    ("gen", .num gen 0 none)])

/-- `json.dumps(header).encode("utf-8")` -/
def headerBytes (req : Request) (gen : Nat) : Bytes :=
  Utf8.encode ((header req gen).print .ascii)

/-- `needed` of `_write_request` -/
def neededBytes (req : Request) (gen : Nat) : Nat :=
  4 + (headerBytes req gen).length + 4 + req.body.length

/-- `off`, and the stores made on the way to it. -/
structure Cursor where
  off : Nat := 0
  stores : List Region.Store := []

/-- `_put_u32` -/
def Cursor.putU32 (w : Cursor) (value : Nat) : Cursor where
  off := w.off + 4
  stores := w.stores ++ [
    .byte w.off (.ofNat value),
    .byte (w.off + 1) (.ofNat (value >>> 8)),
    .byte (w.off + 2) (.ofNat (value >>> 16)),
    .byte (w.off + 3) (.ofNat (value >>> 24))]

/-- `_put_bytes` -/
def Cursor.putBytes (w : Cursor) (b : Bytes) : Cursor where
  off := w.off + b.length
  stores := w.stores ++ [.copy w.off b]

/-- The stores of `_write_request` into the data SAB, and the offset behind them. -/
def requestStores (headerBytes body : Bytes) : Cursor :=
  ((({} : Cursor).putU32 headerBytes.length |>.putBytes headerBytes).putU32 body.length).putBytes
    body

/-- The stores of `_write_request`, made; `none` is the `RangeError` of a copy. -/
def writeRequest (d : Region) (headerBytes body : Bytes) : Option Region :=
  d.perform (requestStores headerBytes body).stores

/-- `_readRequest`; `none` is the `SyntaxError` of `JSON.parse`. -/
def readRequest (d : Region) : Option (Json × Bytes) :=
  let headerLen := d.getU32 0
  let headerBytes := d.slice 4 (4 + headerLen : Nat)
  match Json.parse (Utf8.decodeReplace headerBytes) with
  | none => none
  | some header =>
      let off := 4 + headerLen
      let bodyLen := d.getU32 off
      some (header, d.slice (off + 4 : Nat) (off + 4 + bodyLen : Nat))

/-- The bytes of a request. -/
def requestBytes (headerBytes body : Bytes) : Bytes :=
  Region.u32 headerBytes.length ++ headerBytes ++ Region.u32 body.length ++ body

/-- A request that fits is stored inside the region. -/
theorem inside_requestStores {size : Nat} {headerBytes body : Bytes}
    (h : 4 + headerBytes.length + 4 + body.length ≤ size) :
    ∀ st ∈ (requestStores headerBytes body).stores, st.Inside size := by
  simp only [requestStores, Cursor.putU32, Cursor.putBytes, List.nil_append, List.cons_append,
    List.mem_cons, List.not_mem_nil, or_false, forall_eq_or_imp, forall_eq, Region.Store.Inside]
  omega

theorem writeRequest_eq (d : Region) (headerBytes body : Bytes) :
    writeRequest d headerBytes body = (d.putU32 0 headerBytes.length).set headerBytes 4 >>= fun d ↦
      (d.putU32 (4 + headerBytes.length) body.length).set body (4 + headerBytes.length + 4) := by
  simp [writeRequest, requestStores, Cursor.putU32, Cursor.putBytes, Region.perform,
    Region.Store.run, Region.putU32, Nat.add_assoc]

/-- A request that fits is stored at the front of the region. -/
theorem writeRequest_of_fits {d : Region} {headerBytes body : Bytes}
    (h : 4 + headerBytes.length + 4 + body.length ≤ d.size) :
    ∃ d', writeRequest d headerBytes body = some d' ∧ d'.size = d.size ∧
      d'.Holds 0 (requestBytes headerBytes body) := by
  have hlen := d.holds_putU32 0 headerBytes.length (by omega)
  obtain ⟨d1, h1⟩ := Option.isSome_iff_exists.mp
    ((Region.set_isSome_iff (d.putU32 0 headerBytes.length) headerBytes 4).mpr
      (by rw [Region.size_putU32]; omega))
  have hsize1 : d1.size = d.size := (Region.size_set h1).trans (Region.size_putU32 ..)
  have hset2 := d1.putU32_eq_set (4 + headerBytes.length) body.length (by omega)
  obtain ⟨d3, h3⟩ := Option.isSome_iff_exists.mp
    ((Region.set_isSome_iff (d1.putU32 (4 + headerBytes.length) body.length) body
      (4 + headerBytes.length + 4)).mpr (by rw [Region.size_putU32]; omega))
  refine ⟨d3, ?_, ?_, ?_⟩
  · simp only [writeRequest_eq, h1, Option.bind_eq_bind, Option.bind_some, h3]
  · rw [Region.size_set h3, Region.size_putU32, hsize1]
  · rw [requestBytes, Region.Holds.append, Region.Holds.append, Region.Holds.append]
    simp only [List.length_append, Region.length_u32, Nat.zero_add]
    refine ⟨⟨⟨?_, ?_⟩, ?_⟩, ?_⟩
    · exact ((hlen.set h1 (by simp)).set hset2 (by simp)).set h3 (by simp)
    · exact ((Region.holds_set h1).set hset2 (by omega)).set h3 (by omega)
    · exact (Region.holds_set hset2).set h3 (by simp)
    · exact Region.holds_set h3

/-- The bridge reads back the header and the body that the worker stored. -/
theorem readRequest_of_holds {d : Region} {req : Request} {gen : Nat}
    (h : d.Holds 0 (requestBytes (headerBytes req gen) req.body))
    (hheader : (headerBytes req gen).length < 2 ^ 32) (hbody : req.body.length < 2 ^ 32) :
    readRequest d = some (header req gen, req.body) := by
  rw [requestBytes, Region.Holds.append, Region.Holds.append, Region.Holds.append] at h
  simp only [List.length_append, Region.length_u32, Nat.zero_add] at h
  obtain ⟨⟨⟨hlen, hh⟩, hblen⟩, hb⟩ := h
  have hheaderLen : d.getU32 0 = (headerBytes req gen).length := by
    rw [Region.getU32_of_holds hlen, Nat.mod_eq_of_lt hheader]
  have hbodyLen : d.getU32 (4 + (headerBytes req gen).length) = req.body.length := by
    rw [Region.getU32_of_holds hblen, Nat.mod_eq_of_lt hbody]
  have hparse : Json.parse (Utf8.decodeReplace (headerBytes req gen)) = some (header req gen) := by
    rw [headerBytes, Utf8.decodeReplace_encode, Json.parse_print]
  have hslice : d.slice ((4 : Nat) : Int) ((4 + (headerBytes req gen).length : Nat) : Int) =
      headerBytes req gen := Region.slice_of_holds hh
  rw [readRequest, hheaderLen]
  simp only [Nat.cast_ofNat] at hslice
  simp only [hslice, hparse, hbodyLen, Region.slice_of_holds hb]

/-! ## Response windows -/

/-- The bytes of a meta object: `JSON.stringify`, then UTF-8. -/
def metaBytes (m : Json) : Bytes := Utf8.encode (m.print .compact)

/-- The meta of a window: `metaBase` merged with the `more` flag. -/
def windowMeta (metaBase : List (String × Json)) (more : Bool) : Json :=
  .obj (.ofList (metaBase ++ [("more", .bool more)]))

/-- The meta of `_writeError`. -/
def errorMeta (message kind : String) : Json :=
  .obj (.ofList [("message", .str message), ("kind", .str kind)])

/-- The stores of `_writeWindow` into the data SAB, and the offset behind them; without an
offset a copy raised `RangeError`, and the stores before it stay. -/
def writeWindow (d : Region) (metaBytes payload : Bytes) : Region × Option Nat :=
  let d := d.putU32 0 metaBytes.length
  match d.set metaBytes 4 with
  | none => (d, none)
  | some d =>
      let off := 4 + metaBytes.length
      if payload = [] then (d, some off)
      else
        match d.set payload off with
        | none => (d, none)
        | some d => (d, some (off + payload.length))

/-- The meta of a window: what `_read_window` and `_error_from_meta` both decode first.
`none` is what the decoder or the JSON reader raises. -/
def readMeta (d : Region) : Option Json :=
  let metaLen := d.getU32 0
  if metaLen = 0 then some (.obj .nil)
  else (Utf8.decodeStrict (d.slice 4 (4 + metaLen : Nat))).bind Json.parse

/-- `_read_window`, where `length` is what the worker loaded from `C_LENGTH`. -/
def readWindow (d : Region) (length : Int) : Option (Json × Bytes) :=
  (readMeta d).map fun m ↦ (m, d.slice (4 + d.getU32 0 : Nat) length)

/-- The bytes of a window. -/
def windowBytes (metaBytes payload : Bytes) : Bytes :=
  Region.u32 metaBytes.length ++ metaBytes ++ payload

@[simp] theorem size_writeWindow (d : Region) (metaBytes payload : Bytes) :
    (writeWindow d metaBytes payload).1.size = d.size := by
  unfold writeWindow
  rcases h : (d.putU32 0 metaBytes.length).set metaBytes 4 with _ | d1
  · simp [h]
  · have hsize : d1.size = d.size := (Region.size_set h).trans (Region.size_putU32 ..)
    by_cases hp : payload = []
    · simp [h, hp, hsize]
    · rcases h' : d1.set payload (4 + metaBytes.length) with _ | d2
      · simp [h, hp, h', hsize]
      · simp [h, hp, h', Region.size_set h', hsize]

/-- A window is stored as a whole exactly when it fits. -/
theorem writeWindow_eq_some {d : Region} {metaBytes payload : Bytes} {off : Nat} :
    (writeWindow d metaBytes payload).2 = some off ↔
      off = 4 + metaBytes.length + payload.length ∧ off ≤ d.size := by
  unfold writeWindow
  have hset := Region.set_isSome_iff (d.putU32 0 metaBytes.length) metaBytes 4
  rw [Region.size_putU32] at hset
  rcases h : (d.putU32 0 metaBytes.length).set metaBytes 4 with _ | d1
  · rw [h] at hset
    simp only [Option.isSome_none, Bool.false_eq_true, false_iff, not_le] at hset
    simp only [h, reduceCtorEq, false_iff, not_and, not_le]
    omega
  · rw [h] at hset
    simp only [Option.isSome_some, true_iff] at hset
    have hsize : d1.size = d.size := (Region.size_set h).trans (Region.size_putU32 ..)
    by_cases hp : payload = []
    · subst hp
      simp only [h, if_true, Option.some.injEq, List.length_nil, Nat.add_zero]
      omega
    · have hset' := d1.set_isSome_iff payload (4 + metaBytes.length)
      rw [hsize] at hset'
      rcases h' : d1.set payload (4 + metaBytes.length) with _ | d2
      · rw [h'] at hset'
        simp only [Option.isSome_none, Bool.false_eq_true, false_iff, not_le] at hset'
        simp only [h, if_neg hp, h', reduceCtorEq, false_iff, not_and, not_le]
        omega
      · rw [h'] at hset'
        simp only [Option.isSome_some, true_iff] at hset'
        simp only [h, if_neg hp, h', Option.some.injEq]
        omega

theorem writeWindow_holds {d : Region} {metaBytes payload : Bytes} {off : Nat}
    (h : (writeWindow d metaBytes payload).2 = some off) :
    (writeWindow d metaBytes payload).1.Holds 0 (windowBytes metaBytes payload) := by
  obtain ⟨hoff, hfits⟩ := writeWindow_eq_some.mp h
  have hlen := d.holds_putU32 0 metaBytes.length (by omega)
  unfold writeWindow at h ⊢
  rcases h1 : (d.putU32 0 metaBytes.length).set metaBytes 4 with _ | d1
  · simp [h1] at h
  have hsize : d1.size = d.size := (Region.size_set h1).trans (Region.size_putU32 ..)
  rw [windowBytes, Region.Holds.append, Region.Holds.append]
  simp only [List.length_append, Region.length_u32, Nat.zero_add]
  by_cases hp : payload = []
  · subst hp
    simp only [h1, if_true]
    refine ⟨⟨hlen.set h1 (by simp), Region.holds_set h1⟩, ?_, fun i hi ↦ absurd hi (by simp)⟩
    rw [hsize, List.length_nil]
    rw [List.length_nil] at hoff
    omega
  · rcases h2 : d1.set payload (4 + metaBytes.length) with _ | d2
    · simp [h1, hp, h2] at h
    · simp only [h1, if_neg hp, h2]
      refine ⟨⟨(hlen.set h1 (by simp)).set h2 (by simp), ?_⟩, Region.holds_set h2⟩
      exact (Region.holds_set h1).set h2 (by omega)

/-- The worker reads back the meta that the bridge stored. -/
theorem readMeta_of_holds {d : Region} {m : Json} {payload : Bytes}
    (h : d.Holds 0 (windowBytes (metaBytes m) payload))
    (hmeta : (metaBytes m).length < 2 ^ 32) :
    readMeta d = some m ∧ d.getU32 0 = (metaBytes m).length := by
  rw [windowBytes, Region.Holds.append, Region.Holds.append] at h
  simp only [Region.length_u32, Nat.zero_add] at h
  obtain ⟨⟨hlen, hm⟩, -⟩ := h
  have hmetaLen : d.getU32 0 = (metaBytes m).length := by
    rw [Region.getU32_of_holds hlen, Nat.mod_eq_of_lt hmeta]
  refine ⟨?_, hmetaLen⟩
  have hslice : d.slice ((4 : Nat) : Int) ((4 + (metaBytes m).length : Nat) : Int) =
      metaBytes m := Region.slice_of_holds hm
  simp only [Nat.cast_ofNat] at hslice
  have hparse : (Utf8.decodeStrict (metaBytes m)).bind Json.parse = some m := by
    rw [metaBytes, Utf8.decodeStrict_encode, Option.bind_some, Json.parse_print]
  have hne : (metaBytes m).length ≠ 0 := by
    intro h0
    rw [List.length_eq_zero_iff.mp h0] at hparse
    simp [Utf8.decodeStrict, Utf8.decode, Utf8.decodeFrom, Json.parse, Json.parseValue,
      Json.skipBlanks, Json.parseNumber, Json.parseUnsigned] at hparse
  rw [readMeta, hmetaLen, if_neg hne, hslice, hparse]

/-- The worker reads back a window whose length fits the control word. -/
theorem readWindow_of_holds {d : Region} {m : Json} {payload : Bytes}
    (h : d.Holds 0 (windowBytes (metaBytes m) payload))
    (hmeta : (metaBytes m).length < 2 ^ 32) :
    readWindow d (4 + (metaBytes m).length + payload.length : Nat) = some (m, payload) := by
  obtain ⟨hm, hlen⟩ := readMeta_of_holds h hmeta
  rw [windowBytes, Region.Holds.append] at h
  simp only [List.length_append, Region.length_u32, Nat.zero_add] at h
  rw [readWindow, hm, hlen, Option.map_some, Region.slice_of_holds h.2]

/-- The `more` flag of a window reads back. -/
theorem get?_more (metaBase : List (String × Json)) (more : Bool) :
    (windowMeta metaBase more).get? "more" = some (.bool more) := by
  rw [windowMeta, Json.get?]
  induction metaBase with
  | nil => rfl
  | cons p metaBase ih => simp only [List.cons_append, Json.Members.ofList, Json.Members.get?, ih]

end ConnectWeb.Sab
