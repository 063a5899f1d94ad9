import ConnectWeb.Foundation.Text
import Mathlib.Data.List.Infix

/-!
# Connection strings of the web scheme (`patch.py`)

`http(s)://` is a shorthand for a canonical `sc://` URL.  The shorthand's authority is split
at its last colon, wherever that stands: in a bracketed IPv6 literal without a port it stands
inside the brackets, and the two halves are joined again without the default port.
-/

namespace ConnectWeb.Patch

def paramTransport : List Char := "transport".toList
def webTransport : List Char := "grpcweb".toList

section
-- `str.isalnum` of the characters beyond ASCII
variable (alnum : Char → Bool)

/-- `\w` -/
def isWord (c : Char) : Bool :=
  if c.toNat < 128 then c.isAlphanum || c == '_' else alnum c

/-- `re.match(rf";{PARAM_TRANSPORT}=\s*{WEB_TRANSPORT}\b", cs)` -/
def matchTransport (cs : List Char) : Bool :=
  let key := ';' :: paramTransport ++ ['=']
  key.isPrefixOf cs &&
    let rest := (cs.drop key.length).dropWhile Text.isSpace
    webTransport.isPrefixOf rest &&
      match rest.drop webTransport.length with
      | [] => true
      | c :: _ => !isWord alnum c

/-- `re.search` of the same pattern -/
def searchTransport (cs : List Char) : Bool := cs.tails.any (matchTransport alnum)

/-- `_is_web_url` -/
def isWebUrl (url : List Char) : Bool :=
  if "https://".toList.isPrefixOf url || "http://".toList.isPrefixOf url then true
  else if "sc://".toList.isPrefixOf url then searchTransport alnum url
  else false

end

/-- `_normalize_web_url`; `none` is an `IndexError`. -/
def normalizeWebUrl (url : List Char) : Option (List Char) :=
  if "sc://".toList.isPrefixOf url then some url
  else
    let secure := "https://".toList.isPrefixOf url
    (Text.after "://".toList url).map fun rest ↦
      let rest := Text.rstrip '/' rest
      let hostPort :=
        if ':' ∈ rest then Text.rsplit ':' rest
        else (rest, if secure then "443".toList else "80".toList)
      let params := [paramTransport ++ '=' :: webTransport] ++
        if secure then ["use_ssl=true".toList] else []
      "sc://".toList ++ hostPort.1 ++ ':' :: hostPort.2 ++ "/;".toList ++ [';'].intercalate params

/-! ## Endpoints -/

/-- A host. -/
inductive Host where
  /-- a name or an IPv4 address -/
  | name (cs : List Char) (nonempty : cs ≠ []) (plain : ∀ c ∈ cs, c ∉ [':', '/', ';'])
  /-- an IPv6 literal, without its brackets -/
  | ipv6 (cs : List Char) (colon : ':' ∈ cs) (plain : ∀ c ∈ cs, c ∉ ['[', ']', '/', ';'])

def Host.text : Host → List Char
  | name cs _ _ => cs
  | ipv6 cs _ _ => '[' :: cs ++ [']']

/-- The host is a bracketed literal. -/
def Host.bracketed : Host → Bool
  | name .. => false
  | ipv6 .. => true

/-- A decimal string. -/
structure Port where
  text : List Char
  nonempty : text ≠ []
  decimal : ∀ c ∈ text, c.isDigit = true

/-- What stands behind the scheme. -/
structure Endpoint where
  host : Host
  port : Option Port

namespace Endpoint

/-- `host` or `host:port` -/
def text (e : Endpoint) : List Char :=
  match e.port with
  | none => e.host.text
  | some port => e.host.text ++ ':' :: port.text

/-- The port that is meant. -/
def portText (e : Endpoint) (secure : Bool) : List Char :=
  match e.port with
  | none => if secure then "443".toList else "80".toList
  | some port => port.text

/-- The shorthand URL of an endpoint, with trailing slashes. -/
def url (e : Endpoint) (secure : Bool) (slashes : Nat) : List Char :=
  (if secure then "https://".toList else "http://".toList) ++ e.text ++
    List.replicate slashes '/'

end Endpoint

/-! ## Reading a canonical URL -/

/-- The authority of a URL and what follows it. -/
def authority (url : List Char) : List Char × List Char :=
  let rest := url.drop "sc://".toList.length
  (rest.takeWhile (· != '/'), rest.dropWhile (· != '/'))

/-- The host and the port of an authority: the port stands behind the last colon, unless that
is inside the brackets of a literal. -/
def readAuthority (cs : List Char) : List Char × Option (List Char) :=
  if ':' ∈ cs ∧ ']' ∉ (Text.rsplit ':' cs).2 then
    ((Text.rsplit ':' cs).1, some (Text.rsplit ':' cs).2)
  else (cs, none)

/-- The parameters of a URL. -/
def readParams (url : List Char) : List (List Char) := ((authority url).2.splitOn ';').tail

/-- The endpoint is preserved: the shorthand is accepted, and so is its normal form, which is
normal and names the same host and port, and TLS for `https` only. -/
structure Endpoint.Preserved (alnum : Char → Bool) (e : Endpoint) (secure : Bool) (slashes : Nat) :
    Prop where
  accepted : isWebUrl alnum (e.url secure slashes) = true
  normal : ∃ out, normalizeWebUrl (e.url secure slashes) = some out ∧
    isWebUrl alnum out = true ∧ normalizeWebUrl out = some out ∧
    readAuthority (authority out).1 = (e.host.text, some (e.portText secure)) ∧
    ("use_ssl=true".toList ∈ readParams out ↔ secure = true)

/-! ## The normal form -/

/-- `sc://{host}:{port}/;` and the parameters -/
def canonical (host port : List Char) (secure : Bool) : List Char :=
  "sc://".toList ++ ((host ++ ':' :: port) ++ ('/' :: ';' :: (paramTransport ++ '=' :: webTransport ++
    if secure then ";use_ssl=true".toList else [])))

theorem Host.slash_not_mem (h : Host) : '/' ∉ h.text := by
  cases h with
  | name cs _ plain => exact fun hm ↦ plain _ hm (by simp)
  | ipv6 cs _ plain =>
      simp only [text, List.cons_append, List.mem_cons, List.mem_append, List.not_mem_nil, or_false]
      rintro (h | h | h)
      · cases h
      · exact plain _ h (by simp)
      · cases h

theorem Port.not_mem (p : Port) {c : Char} (hc : c.isDigit = false) : c ∉ p.text := by
  intro hm
  rw [p.decimal c hm] at hc
  cases hc

namespace Endpoint

theorem slash_not_mem (e : Endpoint) : '/' ∉ e.text := by
  rw [text]
  split
  · exact e.host.slash_not_mem
  · rename_i port _
    rw [List.mem_append, List.mem_cons]
    rintro (h | h | h)
    · exact e.host.slash_not_mem h
    · cases h
    · exact port.not_mem rfl h

/-- The host and the port that `_normalize_web_url` finds. -/
def hostPort (e : Endpoint) (secure : Bool) : List Char × List Char :=
  if ':' ∈ e.text then Text.rsplit ':' e.text
  else (e.text, if secure then "443".toList else "80".toList)

theorem normalizeWebUrl_url (e : Endpoint) (secure : Bool) (slashes : Nat) :
    normalizeWebUrl (e.url secure slashes) =
      some (canonical (e.hostPort secure).1 (e.hostPort secure).2 secure) := by
  have hsc : "sc://".toList.isPrefixOf (e.url secure slashes) = false := by
    cases secure <;> rfl
  have hsec : "https://".toList.isPrefixOf (e.url secure slashes) = secure := by
    cases secure <;> rfl
  have hafter : Text.after "://".toList (e.url secure slashes) =
      some (e.text ++ List.replicate slashes '/') := by
    cases secure <;> rfl
  have hstrip : Text.rstrip '/' (e.text ++ List.replicate slashes '/') = e.text := by
    refine Text.rstrip_append_replicate (fun c hc heq ↦ e.slash_not_mem ?_) slashes
    exact heq ▸ List.mem_of_getLast? hc
  rw [normalizeWebUrl, hsc, hsec, hafter]
  simp only [Bool.false_eq_true, if_false, Option.map_some, hstrip, Option.some.injEq]
  rw [hostPort, canonical]
  cases secure <;> simp

/-- Splitting loses nothing where a colon is found. -/
theorem hostPort_join (e : Endpoint) (secure : Bool) (h : ':' ∈ e.text) :
    (e.hostPort secure).1 ++ ':' :: (e.hostPort secure).2 = e.text ∧ ':' ∉ (e.hostPort secure).2 := by
  obtain ⟨a, b, heq, hb⟩ := Text.exists_rsplit h
  rw [hostPort, if_pos h, heq, Text.rsplit_append a hb]
  exact ⟨rfl, hb⟩

end Endpoint

theorem isWebUrl_canonical (alnum : Char → Bool) (host port : List Char) (secure : Bool) :
    isWebUrl alnum (canonical host port secure) = true := by
  have hmatch : matchTransport alnum (';' :: (paramTransport ++ '=' :: webTransport ++
      if secure then ";use_ssl=true".toList else [])) = true := by
    cases secure <;> rfl
  have hsearch : searchTransport alnum (canonical host port secure) = true := by
    rw [searchTransport, List.any_eq_true]
    refine ⟨_, (List.mem_tails ..).mpr ?_, hmatch⟩
    refine ⟨"sc://".toList ++ ((host ++ ':' :: port) ++ ['/']), ?_⟩
    rw [canonical]
    simp only [List.append_assoc, List.cons_append, List.nil_append]
  exact hsearch

theorem normalizeWebUrl_canonical (host port : List Char) (secure : Bool) :
    normalizeWebUrl (canonical host port secure) = some (canonical host port secure) :=
  rfl

theorem authority_canonical {host port : List Char} (secure : Bool) (h : '/' ∉ host ++ ':' :: port) :
    authority (canonical host port secure) = (host ++ ':' :: port,
      '/' :: ';' :: (paramTransport ++ '=' :: webTransport ++
        if secure then ";use_ssl=true".toList else [])) := by
  have hne : ∀ c ∈ host ++ ':' :: port, (c != '/') = true := by
    intro c hc
    simpa using fun heq : c = '/' ↦ h (heq ▸ hc)
  rw [authority, canonical, List.drop_left, List.takeWhile_append_of_pos hne,
    List.dropWhile_append_of_pos hne, List.takeWhile_cons_of_neg (by decide),
    List.dropWhile_cons_of_neg (by decide), List.append_nil]

theorem readParams_canonical {host port : List Char} (secure : Bool)
    (h : '/' ∉ host ++ ':' :: port) :
    "use_ssl=true".toList ∈ readParams (canonical host port secure) ↔ secure = true := by
  rw [readParams, authority_canonical secure h]
  dsimp only
  cases secure <;> decide

/-! ## Which endpoints are preserved -/

theorem readAuthority_append (host : List Char) {port : List Char} (hc : ':' ∉ port)
    (hb : ']' ∉ port) : readAuthority (host ++ ':' :: port) = (host, some port) := by
  rw [readAuthority, Text.rsplit_append host hc, if_pos]
  exact ⟨List.mem_append_right _ (List.mem_cons_self ..), hb⟩

namespace Endpoint

/-- A port is found where there is one, and the default is added behind a name. -/
theorem hostPort_eq (e : Endpoint) (secure : Bool)
    (h : e.host.bracketed = true → e.port.isSome = true) :
    e.hostPort secure = (e.host.text, e.portText secure) := by
  obtain ⟨host, _ | port⟩ := e
  · cases host with
    | name cs nonempty plain =>
        have hcol : ':' ∉ cs := fun hm ↦ plain _ hm (by simp)
        rw [hostPort, if_neg (show ':' ∉ text ⟨.name cs nonempty plain, none⟩ from hcol)]
        rfl
    | ipv6 cs _ _ => cases h rfl
  · have htext : text ⟨host, some port⟩ = host.text ++ ':' :: port.text := rfl
    rw [hostPort, htext, if_pos (List.mem_append_right _ (List.mem_cons_self ..)),
      Text.rsplit_append _ (port.not_mem rfl)]
    rfl

theorem portText_not_mem (e : Endpoint) (secure : Bool) {c : Char} (hc : c.isDigit = false) :
    c ∉ e.portText secure := by
  have hdefault : (if secure then "443".toList else "80".toList).all Char.isDigit = true := by
    cases secure <;> decide
  rw [portText]
  split
  · intro hm
    rw [List.all_eq_true.mp hdefault c hm] at hc
    cases hc
  · rename_i port _
    exact port.not_mem hc

theorem preserved_of_port (alnum : Char → Bool) (e : Endpoint) (secure : Bool) (slashes : Nat)
    (h : e.host.bracketed = true → e.port.isSome = true) : e.Preserved alnum secure slashes := by
  have hslash : '/' ∉ e.host.text ++ ':' :: e.portText secure := by
    rw [List.mem_append, List.mem_cons]
    rintro (hm | hm | hm)
    · exact e.host.slash_not_mem hm
    · cases hm
    · exact e.portText_not_mem secure rfl hm
  refine ⟨by cases secure <;> rfl, canonical e.host.text (e.portText secure) secure, ?_,
    isWebUrl_canonical .., normalizeWebUrl_canonical .., ?_, readParams_canonical secure hslash⟩
  · rw [normalizeWebUrl_url, hostPort_eq e secure h]
  · rw [authority_canonical secure hslash]
    exact readAuthority_append _ (e.portText_not_mem secure rfl) (e.portText_not_mem secure rfl)

/-- Without a port, a literal is split inside its brackets and joined again: its normal form
names no port. -/
theorem not_preserved_bracketed (alnum : Char → Bool) (e : Endpoint) (secure : Bool)
    (slashes : Nat) (hb : e.host.bracketed = true) (hp : e.port = none) :
    ¬ e.Preserved alnum secure slashes := by
  obtain ⟨host, _ | port⟩ := e
  swap
  · cases hp
  cases host with
  | name cs _ _ => cases hb
  | ipv6 cs colon plain =>
      rintro ⟨-, out, hout, -, -, hread, -⟩
      set e : Endpoint := ⟨.ipv6 cs colon plain, none⟩
      have htext : e.text = '[' :: cs ++ [']'] := rfl
      have hmem : ':' ∈ e.text := by
        rw [htext]
        exact List.mem_append_left _ (List.mem_cons_of_mem _ colon)
      obtain ⟨hjoin, hno⟩ := e.hostPort_join secure hmem
      rw [normalizeWebUrl_url, Option.some.injEq] at hout
      subst hout
      rw [authority_canonical secure (hjoin ▸ e.slash_not_mem), hjoin] at hread
      -- the last colon stands before the closing bracket
      have hclose : ']' ∈ (e.hostPort secure).2 := by
        rw [htext] at hjoin
        rcases List.eq_nil_or_concat (e.hostPort secure).2 with hnil | ⟨port, c, hport⟩
        · rw [hnil] at hjoin
          cases (List.append_inj' hjoin rfl).2
        · rw [hport, List.concat_eq_append, ← List.cons_append, ← List.append_assoc] at hjoin
          cases (List.append_inj' hjoin rfl).2
          rw [hport]
          simp
      have hsplit : Text.rsplit ':' e.text = e.hostPort secure := by
        rw [hostPort, if_pos hmem]
      rw [readAuthority, hsplit, if_neg fun h ↦ h.2 hclose] at hread
      cases (Prod.mk.inj hread).2

end Endpoint

/-- The normal form of a shorthand names its endpoint exactly if a bracketed literal comes with
a port. -/
theorem preserved_iff (alnum : Char → Bool) (e : Endpoint) (secure : Bool) (slashes : Nat) :
    e.Preserved alnum secure slashes ↔ (e.host.bracketed = true → e.port.isSome = true) := by
  refine ⟨fun h hb ↦ ?_, e.preserved_of_port alnum secure slashes⟩
  by_contra hp
  rw [Option.isSome_iff_ne_none, not_not] at hp
  exact e.not_preserved_bracketed alnum secure slashes hb hp h

/-- `https://[::1]` -/
def loopback : Endpoint where
  host := .ipv6 "::1".toList (by simp) (by simp)
  port := none

example : normalizeWebUrl (loopback.url true 0) =
    some "sc://[::1]/;transport=grpcweb;use_ssl=true".toList := by decide +kernel

theorem not_preserved_loopback :
    ¬ ∀ alnum e secure slashes, Endpoint.Preserved alnum e secure slashes := fun h ↦
  loopback.not_preserved_bracketed (fun _ ↦ false) true 0 rfl rfl (h ..)

end ConnectWeb.Patch
