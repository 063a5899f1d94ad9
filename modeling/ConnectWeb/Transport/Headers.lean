import ConnectWeb.Transport.Grpcweb

/-!
# The request headers

What `_headers_from_metadata` makes of the metadata of a channel and of a call: header names in
lower case, each once, of which the caller decides all but two.
-/

namespace ConnectWeb.Transport

/-- The metadata as header fields. -/
def fields (metadata : Metadata) : List (String × String) :=
  metadata.map fun p ↦ (lowerKey p.1, p.2)

/-- The request headers for some metadata. -/
structure Sendable (metadata : Metadata) (headers : Dict String String) : Prop where
  distinct : (headers.map Prod.fst).Nodup
  lower : ∀ p ∈ headers, lowerKey p.1 = p.1
  contentType : headers.get? "content-type" = some contentType
  grpcWeb : headers.get? "x-grpc-web" = some "1"
  /-- The last field of a name wins. -/
  others : ∀ name, name ≠ "content-type" → name ≠ "x-grpc-web" →
    headers.get? name = (Dict.get? (fields metadata).reverse name).or (baseHeaders.get? name)

theorem lowerKey_lowerKey (key : String) : lowerKey (lowerKey key) = lowerKey key := by
  rw [lowerKey, lowerKey, String.toList_ofList, Text.lower_lower]

theorem headersFromMetadata_eq (metadata : Metadata) :
    headersFromMetadata metadata = ((baseHeaders.setAll (fields metadata)).set "content-type"
      contentType).set "x-grpc-web" "1" := by
  rw [headersFromMetadata, Dict.setAll, fields, List.foldl_map]

theorem headersFromMetadata_sendable (metadata : Metadata) :
    Sendable metadata (headersFromMetadata metadata) where
  distinct := by
    rw [headersFromMetadata_eq]
    exact Dict.nodup_set (Dict.nodup_set (Dict.nodup_setAll (by decide) _) _ _) _ _
  lower p hp := by
    have hkey := List.mem_map_of_mem (f := Prod.fst) hp
    rw [headersFromMetadata_eq, Dict.mem_keys_set, Dict.mem_keys_set, Dict.mem_keys_setAll] at hkey
    rcases hkey with heq | heq | hmem | hmem
    · rw [heq]
      decide
    · rw [heq]
      decide
    · rw [fields, List.map_map] at hmem
      obtain ⟨q, -, hq⟩ := List.mem_map.mp hmem
      rw [← hq]
      exact lowerKey_lowerKey q.1
    · revert hmem
      generalize p.1 = key
      revert key
      decide
  contentType := by
    rw [headersFromMetadata_eq, Dict.get?_set_of_ne _ (by decide), Dict.get?_set_self]
  grpcWeb := by rw [headersFromMetadata_eq, Dict.get?_set_self]
  others name hc hx := by
    rw [headersFromMetadata_eq, Dict.get?_set_of_ne _ hx, Dict.get?_set_of_ne _ hc,
      Dict.get?_setAll]

end ConnectWeb.Transport
