import ConnectWeb.Foundation.JsonRoundtrip
import ConnectWeb.Transport.Unary

/-!
# Trailers

`encode_trailers` puts the message into a block of lines as it is, and `parse_trailers` takes the
lines for fields, the last one of a key winning.  What the message has behind its first line
break is read as fields of its own, or lost.
-/

namespace ConnectWeb.Transport

/-! ## The fields of a block -/

/-- The field on a line of a block. -/
def trailerField (rawLine : List Char) : Option (String × String) :=
  let line := Text.strip rawLine
  if line = [] ∨ ':' ∉ line then none
  else
    let (key, value) := Text.partition ':' line
    some (.ofList (Text.lower (Text.strip key)), .ofList (Text.strip value))

def trailerFields (text : List Char) : List (String × String) :=
  (Text.lines text).filterMap trailerField

theorem parseTrailerText_eq (text : List Char) :
    parseTrailerText text = .ofPairs (trailerFields text) := by
  rw [trailerFields, Dict.ofPairs, List.foldl_filterMap, parseTrailerText]
  change List.foldl _ _ (Text.lines text) = _
  congr 1
  funext out rawLine
  simp only [trailerField]
  split <;> rfl

/-- Whitespace around a line does not matter. -/
theorem trailerField_congr {a b : List Char} (h : Text.strip a = Text.strip b) :
    trailerField a = trailerField b := by
  rw [trailerField, trailerField, h]

theorem trailerField_blank {line : List Char} (h : ∀ c ∈ line, Text.isSpace c = true) :
    trailerField line = none := by
  rw [trailerField, Text.strip_eq_nil.mpr h]
  rfl

/-- A line `key:value`. -/
theorem trailerField_eq {c : Char} {key : List Char} (value : List Char)
    (hc : Text.isSpace c = false) (hkey : ':' ∉ c :: key) :
    trailerField (c :: key ++ ':' :: value) =
      some (.ofList (Text.lower (Text.strip (c :: key))), .ofList (Text.strip value)) := by
  have hstrip := Text.strip_append_cons key value hc (rfl : Text.isSpace ':' = false)
  simp only [trailerField, hstrip]
  rw [if_neg (by simp), Text.partition_append hkey, Text.strip_rdropWhile]

/-- The value of a field has less ink than its line. -/
theorem length_ink_lt_of_trailerField {line : List Char} {k v : String}
    (h : trailerField line = some (k, v)) :
    (Text.ink v.toList).length < (Text.ink line).length := by
  simp only [trailerField] at h
  split at h
  · cases h
  rename_i hno
  rw [not_or, not_not] at hno
  obtain ⟨key, value, hline, hkey⟩ := List.eq_append_cons_of_mem hno.2
  rw [hline, Text.partition_append hkey, Option.some.injEq, Prod.mk.injEq] at h
  obtain ⟨-, rfl⟩ := h
  rw [← Text.ink_strip line, hline, String.toList_ofList, Text.ink_strip, Text.ink_append,
    List.length_append]
  change (Text.ink value).length < _ + ((Text.ink value).length + 1)
  omega

theorem length_ink_lt_of_mem {text : List Char} {k v : String} (h : (k, v) ∈ trailerFields text) :
    (Text.ink v.toList).length < (Text.ink text).length := by
  obtain ⟨line, hline, hfield⟩ := List.mem_filterMap.mp h
  exact (length_ink_lt_of_trailerField hfield).trans_le (Text.length_ink_le_of_mem_lines hline)

theorem trailerFields_append {a : List Char} (h : '\n' ∉ a) (b : List Char) :
    trailerFields (a ++ '\n' :: b) = (trailerField a).toList ++ trailerFields b := by
  obtain ⟨line, hstrip, hlines⟩ := Text.lines_append h b
  rw [trailerFields, hlines, List.filterMap_cons, trailerField_congr hstrip]
  cases trailerField a <;> rfl

theorem trailerFields_blank {text : List Char} (h : ∀ c ∈ text, Text.isSpace c = true) :
    trailerFields text = [] := by
  refine List.filterMap_eq_nil_iff.mpr fun line hline ↦ trailerField_blank ?_
  have hle := Text.length_ink_le_of_mem_lines hline
  rw [Text.ink_eq_nil.mpr h, List.length_nil] at hle
  exact Text.ink_eq_nil.mp (List.length_eq_zero_iff.mp (by omega))

/-! ## The decimal of a status -/

theorem toList_toString (n : Int) :
    (toString n).toList = (if n < 0 then ['-'] else []) ++ Nat.toDigits 10 n.natAbs := by
  rcases n with n | n
  · exact Nat.toList_repr
  · change ("-" ++ Nat.repr (n + 1)).toList = _
    rw [String.toList_append, Nat.toList_repr, if_pos (Int.negSucc_lt_zero n)]
    rfl

theorem isSpace_of_isDigit {c : Char} (h : c.isDigit = true) : Text.isSpace c = false := by
  have hrange : 48 ≤ c.toNat ∧ c.toNat ≤ 57 := by
    simpa [Char.isDigit, UInt32.le_iff_toNat_le] using h
  simp [Text.isSpace]
  omega

theorem isSpace_of_mem_toString {n : Int} {c : Char} (h : c ∈ (toString n).toList) :
    Text.isSpace c = false := by
  rw [toList_toString, List.mem_append] at h
  rcases h with h | h
  · split at h
    · rw [List.mem_singleton.mp h]
      rfl
    · cases h
  · exact isSpace_of_isDigit (Nat.isDigit_of_mem_toDigits (by omega) (by omega) h)

theorem toString_ne_ok {n : Int} (h : n ≠ 0) : toString n ≠ grpcStatusOk := by
  intro heq
  have hlist := congrArg String.toList heq
  rw [toList_toString] at hlist
  split at hlist
  · cases hlist
  · have hzero := Json.head?_toDigits n.natAbs (by rw [← List.nil_append (Nat.toDigits _ _), hlist]; rfl)
    omega

/-! ## The block of a status and a message -/

/-- The body of `encode_trailers`. -/
def trailerText (status : Int) (message : String) : List Char :=
  let lines := ("grpc-status:" ++ toString status) ::
    if message ≠ "" then ["grpc-message:" ++ message] else []
  ("\r\n".intercalate lines ++ "\r\n").toList

/-- The frame that `encode_trailers` builds. -/
def trailerFrame (status : Int) (message : String) : Frame where
  flags := trailerFlag
  payload := Utf8.encode (trailerText status message)

theorem encodeTrailers_eq (status : Int) (message : String) :
    encodeTrailers status message =
      encodeMessage (trailerFrame status message).payload (trailerFrame status message).flags.toNat :=
  rfl

/-- The line of the status comes first, and that of the message, unless it is empty, behind. -/
theorem trailerText_eq (status : Int) (message : String) :
    trailerText status message =
      "grpc-status:".toList ++ ((toString status).toList ++ ['\r']) ++
        '\n' :: if message = "" then [] else "grpc-message:".toList ++ (message.toList ++ ['\r', '\n']) := by
  by_cases hm : message = ""
  · simp [trailerText, hm]
  · simp [trailerText, hm]

theorem trailerField_status (text : List Char) :
    trailerField ("grpc-status:".toList ++ text) =
      some ("grpc-status", .ofList (Text.strip text)) :=
  @trailerField_eq 'g' "rpc-status".toList text rfl (by decide)

theorem trailerField_message (text : List Char) :
    trailerField ("grpc-message:".toList ++ text) =
      some ("grpc-message", .ofList (Text.strip text)) :=
  @trailerField_eq 'g' "rpc-message".toList text rfl (by decide)

/-- The field of the status comes first. -/
theorem trailerFields_trailerText (status : Int) (message : String) :
    trailerFields (trailerText status message) = ("grpc-status", toString status) ::
      if message = "" then []
      else trailerFields ("grpc-message:".toList ++ (message.toList ++ ['\r', '\n'])) := by
  have hink : ∀ c ∈ (toString status).toList, Text.isSpace c = false :=
    fun c hc ↦ isSpace_of_mem_toString hc
  have hline : '\n' ∉ "grpc-status:".toList ++ ((toString status).toList ++ ['\r']) := by
    rw [List.mem_append, List.mem_append, not_or, not_or]
    refine ⟨by decide, fun hm ↦ ?_, by decide⟩
    cases hink _ hm
  rw [trailerText_eq, trailerFields_append hline, trailerField_status,
    Text.strip_append_of_blank _ (List.forall_mem_singleton.mpr rfl), Text.strip_of_ink hink,
    String.ofList_toList]
  by_cases hm : message = ""
  · rw [if_pos hm, if_pos hm, trailerFields_blank (by simp)]
    rfl
  · rw [if_neg hm, if_neg hm]
    rfl

/-- The field of the message is its first line; the later lines are fields of their own. -/
theorem trailerFields_message (message : List Char) :
    trailerFields ("grpc-message:".toList ++ (message ++ ['\r', '\n'])) =
      ("grpc-message", .ofList (Text.strip (Text.partition '\n' message).1)) ::
        trailerFields ((Text.partition '\n' message).2 ++ ['\r', '\n']) := by
  have hkey : '\n' ∉ "grpc-message:".toList := by decide
  by_cases h : '\n' ∈ message
  · obtain ⟨a, b, rfl, ha⟩ := List.eq_append_cons_of_mem h
    have hline : '\n' ∉ "grpc-message:".toList ++ a := by
      rw [List.mem_append, not_or]
      exact ⟨hkey, ha⟩
    rw [Text.partition_append ha, List.append_assoc, List.cons_append, ← List.append_assoc,
      trailerFields_append hline, trailerField_message]
    rfl
  · have hline : '\n' ∉ "grpc-message:".toList ++ (message ++ ['\r']) := by
      rw [List.mem_append, List.mem_append, not_or, not_or]
      exact ⟨hkey, h, by decide⟩
    have hbreak : "grpc-message:".toList ++ (message ++ ['\r', '\n']) =
        "grpc-message:".toList ++ (message ++ ['\r']) ++ '\n' :: [] := by simp
    have hend : trailerFields ['\r', '\n'] = [] :=
      trailerFields_blank fun c hc ↦ Text.isSpace_of_mem_crLf hc
    rw [Text.partition_of_not_mem h, hbreak, trailerFields_append hline, trailerField_message,
      Text.strip_append_of_blank _ (List.forall_mem_singleton.mpr rfl), trailerFields_blank (by simp),
      List.nil_append, hend]
    rfl

/-! ## What is read back -/

/-- The frame is all that the bytes hold, and it says the status and the message: nothing else
is a field, and a status that is not zero is raised. -/
structure SaysTrailers (status : Int) (message : String) (d : Bytes) (frame : Frame) : Prop where
  single : iterFrames d = ([frame], none)
  isTrailer : frame.isTrailer = true
  grpcStatus : (parseTrailers frame.payload).get? "grpc-status" = some (toString status)
  grpcMessage : Text.strip message.toList ≠ [] →
    (parseTrailers frame.payload).get? "grpc-message" =
      some (.ofList (Text.strip message.toList))
  keys : ∀ p ∈ parseTrailers frame.payload, p.1 = "grpc-status" ∨ p.1 = "grpc-message"
  raises : status ≠ 0 → ∀ httpStatus path, ∃ text,
    raiseForTrailers (some (parseTrailers frame.payload)) httpStatus path =
      .error (.grpc text (some (toString status)))

/-- `encode_trailers` builds a frame that says the status and the message. -/
def TrailersKept (status : Int) (message : String) : Prop :=
  ∃ d frame, encodeTrailers status message = .ok d ∧ SaysTrailers status message d frame

/-- Behind its first line break the message has only whitespace. -/
def OneLine (message : String) : Prop :=
  ∀ c ∈ (Text.partition '\n' message.toList).2, Text.isSpace c = true

theorem iterFrames_encodeFrame {frame : Frame} (h : frame.payload.length < 2 ^ 32) :
    iterFrames (encodeFrame frame) = ([frame], none) := by
  refine iterFrames_encodeFrames (encodeFrames_eq_ok_iff.mpr ⟨?_, ?_⟩)
  · exact fun f hf ↦ List.mem_singleton.mp hf ▸ h
  · exact (List.flatMap_singleton ..).symm

theorem parseTrailers_trailerFrame (status : Int) (message : String) :
    parseTrailers (trailerFrame status message).payload =
      .ofPairs (trailerFields (trailerText status message)) := by
  rw [parseTrailers, trailerFrame, Utf8.decodeReplace_encode, parseTrailerText_eq]

/-- A message is its first line, and its ink is that of the first line and of the later ones. -/
theorem ink_partition (message : List Char) :
    Text.ink message = Text.ink (Text.partition '\n' message).1 ++
      Text.ink (Text.partition '\n' message).2 := by
  by_cases h : '\n' ∈ message
  · obtain ⟨a, b, rfl, ha⟩ := List.eq_append_cons_of_mem h
    rw [Text.partition_append ha, Text.ink_append]
    rfl
  · rw [Text.partition_of_not_mem h]
    exact (List.append_nil _).symm

namespace OneLine

variable {message : String} (h : OneLine message)

include h

/-- The first line of a message of one line is the message. -/
theorem strip : Text.strip (Text.partition '\n' message.toList).1 = Text.strip message.toList := by
  rw [OneLine] at h
  by_cases hm : '\n' ∈ message.toList
  · obtain ⟨a, b, heq, ha⟩ := List.eq_append_cons_of_mem hm
    rw [heq, Text.partition_append ha] at h ⊢
    refine (Text.strip_append_of_blank a fun c hc ↦ ?_).symm
    rcases List.mem_cons.mp hc with rfl | hc
    · rfl
    · exact h c hc
  · rw [Text.partition_of_not_mem hm]

/-- A message of one line leaves the fields of the status and the message. -/
theorem parseTrailers (status : Int) :
    parseTrailers (trailerFrame status message).payload =
      ("grpc-status", toString status) :: if message = "" then []
        else [("grpc-message", .ofList (Text.strip message.toList))] := by
  rw [parseTrailers_trailerFrame, trailerFields_trailerText]
  by_cases hm : message = ""
  · rw [if_pos hm, if_pos hm]
    rfl
  · have hlater : trailerFields ((Text.partition '\n' message.toList).2 ++ ['\r', '\n']) = [] :=
      trailerFields_blank fun c hc ↦
        (List.mem_append.mp hc).elim (h c) Text.isSpace_of_mem_crLf
    rw [if_neg hm, if_neg hm, trailerFields_message, hlater, h.strip]
    rfl

end OneLine

/-- The frame says the status and the message, if the message is one line. -/
theorem OneLine.saysTrailers {message : String} (h : OneLine message) {status : Int}
    (hlt : (trailerFrame status message).payload.length < 2 ^ 32) :
    SaysTrailers status message (encodeFrame (trailerFrame status message))
      (trailerFrame status message) where
  single := iterFrames_encodeFrame hlt
  isTrailer := (by decide : (trailerFlag &&& trailerFlag != 0) = true)
  grpcStatus := by
    rw [h.parseTrailers]
    rfl
  grpcMessage hne := by
    have hm : message ≠ "" := by
      rintro rfl
      exact hne rfl
    rw [h.parseTrailers, if_neg hm]
    rfl
  keys p hp := by
    rw [h.parseTrailers] at hp
    split at hp
    · exact .inl (congrArg Prod.fst (List.mem_singleton.mp hp))
    · rcases List.mem_pair.mp hp with rfl | rfl
      · exact .inl rfl
      · exact .inr rfl
  raises hne httpStatus path := by
    refine (raiseForTrailers_eq _ httpStatus path).2.2 (toString status) ?_ (toString_ne_ok hne)
    rw [statusOf, Option.bind_some, h.parseTrailers]
    rfl

/-- A frame that says the message has it from the first line, and there is no ink behind. -/
theorem SaysTrailers.oneLine {status : Int} {message : String} {d : Bytes}
    (h : SaysTrailers status message d (trailerFrame status message)) : OneLine message := by
  have hink := ink_partition message.toList
  by_cases hblank : Text.strip message.toList = []
  · rw [← Text.ink_strip, hblank] at hink
    exact Text.ink_eq_nil.mp (List.append_eq_nil_iff.mp hink.symm).2
  have hm : message ≠ "" := by
    rintro rfl
    exact hblank rfl
  have hget := h.grpcMessage hblank
  rw [parseTrailers_trailerFrame, trailerFields_trailerText, if_neg hm,
    trailerFields_message] at hget
  rcases List.mem_cons.mp (Dict.mem_of_get?_ofPairs hget) with heq | hmem
  · have hkey : "grpc-message" = "grpc-status" := congrArg Prod.fst heq
    exact absurd hkey (by decide)
  rcases List.mem_cons.mp hmem with heq | hmem
  · -- the value is the first line
    have hfirst := congrArg (fun p ↦ Text.ink p.2.toList) heq
    simp only [String.toList_ofList] at hfirst
    rw [Text.ink_strip, Text.ink_strip, hink] at hfirst
    exact Text.ink_eq_nil.mp (List.append_right_eq_self.mp hfirst)
  · -- the value is a part of a later line, and has less ink than the message
    have hlt := length_ink_lt_of_mem hmem
    rw [String.toList_ofList, Text.ink_strip, hink, Text.ink_append, List.length_append,
      List.length_append] at hlt
    change _ < _ + 0 at hlt
    omega

/-- Trailers are kept if and only if the block fits a frame and the message is one line. -/
theorem trailersKept_iff (status : Int) (message : String) :
    TrailersKept status message ↔
      (trailerFrame status message).payload.length < 2 ^ 32 ∧ OneLine message := by
  rw [TrailersKept, encodeTrailers_eq]
  by_cases hlt : (trailerFrame status message).payload.length < 2 ^ 32
  · rw [encodeMessage_frame hlt]
    constructor
    · rintro ⟨d, frame, hd, h⟩
      rw [Except.ok.injEq] at hd
      subst hd
      have hframe := (iterFrames_encodeFrame hlt).symm.trans h.single
      rw [Prod.mk.injEq, List.cons.injEq] at hframe
      obtain ⟨⟨rfl, -⟩, -⟩ := hframe
      exact ⟨hlt, h.oneLine⟩
    · rintro ⟨-, hline⟩
      exact ⟨_, _, rfl, hline.saysTrailers hlt⟩
  · rw [encodeMessage, if_neg hlt]
    constructor
    · rintro ⟨d, frame, hd, -⟩
      cases hd
    · rintro ⟨hlt', -⟩
      exact absurd hlt' hlt

/-- The statuses that `parse_trailers` finds in the frames that `iter_frames` finds. -/
def readStatuses (d : Bytes) : List (Option String) :=
  (iterFrames d).1.map fun frame ↦ (parseTrailers frame.payload).get? "grpc-status"

/-- A message of two lines forges the status: a failure is read as a success. -/
theorem not_always_trailersKept : ¬ ∀ status message, TrailersKept status message := by
  intro hall
  obtain ⟨d, frame, hd, h⟩ := hall 13 "stage failed\ngrpc-status:0"
  have hforged : (encodeTrailers 13 "stage failed\ngrpc-status:0").toOption.map readStatuses =
      some [some "0"] := by decide +kernel
  rw [hd] at hforged
  have hread : readStatuses d = [some "0"] := Option.some.inj hforged
  rw [readStatuses, h.single, List.map_singleton, h.grpcStatus] at hread
  revert hread
  decide

end ConnectWeb.Transport
