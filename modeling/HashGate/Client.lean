import Mathlib.Data.List.Infix
import HashGate.Prelude.Str
import HashGate.Codec.Base64
import HashGate.Codec.Sha256
import HashGate.Url.Parse
import HashGate.Codec.Json

/-!
# `HashGate.Client` — the Python `HmacClient`

The signer of the scheme, method for method. `create_authenticated_headers` is split at the point where
the source has gathered what it signs: `signingInput` (parse the URL, read the clock, hash the body) and
the signing proper. `request` returns what it hands to the transport (`Dispatch`) in place of the
transport's response, which is outside the model.

The clock reading `int(time.time())` is the argument `now`, and Python's Unicode uppercase table is the
section variable `upperCase` (see `upper`). `request` is modelled from its second line on: it takes the
`content` that its first line computes from `json_data`, which is `jsonContent`; `post` and `put` take
`json_data` and compose the two.

## Contents
- Constants, `truthy`, `HmacClient` (its `baseUrl` carries the `rstrip('/')` of `__init__`).
- The methods, in the order of the source; `jsonContent`, the first line of `request`.
- `emptyContentHash_eq` and `calculateContentHash_eq`: the constant is the digest of the empty body, so
  the shortcut for a falsy body is not observable.
- `createStringToSign_data`, `generateAuthorizationHeader_data` and the character-set lemmas: which
  separators each signed field can hold.
- `createAuthenticatedHeaders_eq_ok`: the inversion lemma every later proof goes through.
-/

namespace HashGate

/-! ## Constants -/

/-- `DEFAULT_SCHEME_NAME`. -/
def defaultSchemeName : String := "HMAC"

/-- `TIME_STAMP_HEADER_NAME`. -/
def timeStampHeaderName : String := "x-timestamp"

/-- `CONTENT_HASH_HEADER_NAME`. -/
def contentHashHeaderName : String := "x-content-sha256"

/-- `EMPTY_CONTENT_HASH`, the base64 SHA-256 digest of the empty body (`emptyContentHash_eq`). -/
def emptyContentHash : String := "47DEQpj8HBSa+/TImW+5JCeuQeRkm5NMpJWZG3hSuFU="

/-- `DEFAULT_SIGNED_HEADERS`, in the order their values are signed. -/
def defaultSignedHeaders : List String := ["host", timeStampHeaderName, contentHashHeaderName]

/-- The default `base_url` of `__init__`. -/
def defaultBaseUrl : String := "https://localhost:7134"

/-- Python's uppercase table on ASCII: `a`–`z` to `A`–`Z`, every other character unchanged. The full
    table agrees with it on ASCII; it instantiates `upperCase` in the examples. -/
def asciiUpperCase (c : Char) : List Char := [c.toUpper]

/-- Python truthiness of an `Optional[str]`: `None` and `""` are false. -/
def truthy : Option String → Bool
  | some s => s != ""
  | none => false

/-! ## The client -/

/-- Python `s.rstrip('/')`. -/
def rstripSlash (s : String) : String :=
  ⟨(s.data.reverse.dropWhile (· = '/')).reverse⟩

theorem rstripSlash_getLast (s : String) : (rstripSlash s).data.getLast? ≠ some '/' := by
  have h := List.head?_dropWhile_not (· = '/') s.data.reverse
  simp only [rstripSlash, List.getLast?_reverse]
  intro h'
  rw [h'] at h
  simp at h

example : rstripSlash "https://api.example.com/" = "https://api.example.com" := by
  decide

/-- Python `sub in s` on strings. -/
def containsSubstr (s sub : String) : Bool := decide (sub.data <:+: s.data)

/-- An `HmacClient` as `__init__` leaves it: `secret` is `secret.encode('utf-8')`, `baseUrl` has no
    trailing `/`, and `verify` is the session's certificate check. -/
structure HmacClient where
  client : String
  secret : List UInt8
  baseUrl : String
  verify : Bool
  baseUrl_rstrip : baseUrl.data.getLast? ≠ some '/'

/-- `HmacClient(client, secret, base_url)`. Certificate checks are off when the text `localhost` or
    `127.0.0.1` occurs anywhere in `base_url`: the test is on the substring, so a path such as
    `/localhost/` or a host such as `localhost.example.com` turns them off as well. -/
def HmacClient.init (client secret baseUrl : String) : HmacClient where
  client := client
  secret := encodeUtf8 secret
  baseUrl := rstripSlash baseUrl
  verify := !(containsSubstr baseUrl "localhost" || containsSubstr baseUrl "127.0.0.1")
  baseUrl_rstrip := rstripSlash_getLast baseUrl

/-! ## Signing -/

section Methods

variable (upperCase : Char → List Char)

/-- `create_string_to_sign`: `"{METHOD}\n{path_and_query}\n{h1;h2;…}"`. -/
def createStringToSign (method pathAndQuery : String) (headerValues : List String) : String :=
  upper upperCase method ++ "\n" ++ pathAndQuery ++ "\n" ++ String.intercalate ";" headerValues

/-- `generate_signature`: base64 of `HMAC-SHA256(secret, string_to_sign.encode('utf-8'))`. -/
def HmacClient.generateSignature (self : HmacClient) (stringToSign : String) : String :=
  b64encode (hmacSha256 self.secret (encodeUtf8 stringToSign))

/-- `generate_authorization_header`. -/
def HmacClient.generateAuthorizationHeader (self : HmacClient) (signedHeaders : List String)
    (signature : String) : String :=
  defaultSchemeName ++ " Client=" ++ self.client ++ "&SignedHeaders=" ++
    String.intercalate ";" signedHeaders ++ "&Signature=" ++ signature

/-- `calculate_content_hash`: the constant for `None` or `""`, otherwise base64 of the SHA-256 of the
    UTF-8 bytes. -/
def calculateContentHash : Option String → String
  | some content => if content = "" then emptyContentHash else b64encode (sha256 (encodeUtf8 content))
  | none => emptyContentHash

/-- `url.path + ("?" + url.query if url.query else "")`. -/
def pathAndQueryOf (url : ParseResult) : String :=
  url.path ++ if url.query = "" then "" else "?" ++ url.query

/-- What `create_authenticated_headers` gathers before it signs. -/
structure SigningInput where
  host : String
  pathAndQuery : String
  timestamp : String
  contentHash : String
  deriving DecidableEq, Repr

/-- The first half of `create_authenticated_headers`: parse `base_url + path` (which may raise), read
    the clock, hash the body. -/
def HmacClient.signingInput (self : HmacClient) (now : Int) (path : String) (content : Option String) :
    Except String SigningInput :=
  (urlparse (self.baseUrl ++ path)).map fun url =>
    ⟨url.netloc, pathAndQueryOf url, toString now, calculateContentHash content⟩

/-- The local `string_to_sign`: the header values in the order of `DEFAULT_SIGNED_HEADERS`. -/
def SigningInput.stringToSign (i : SigningInput) (method : String) : String :=
  createStringToSign upperCase method i.pathAndQuery [i.host, i.timestamp, i.contentHash]

/-- The header dictionary `create_authenticated_headers` returns for `i`, in insertion order. -/
def HmacClient.headersFor (self : HmacClient) (i : SigningInput) (method : String)
    (content : Option String) : List (String × String) :=
  let signature := self.generateSignature (i.stringToSign upperCase method)
  let authorizationHeader := self.generateAuthorizationHeader defaultSignedHeaders signature
  let headers :=
    [("Host", i.host), (timeStampHeaderName, i.timestamp), (contentHashHeaderName, i.contentHash),
      ("Authorization", authorizationHeader)]
  if truthy content then headers ++ [("Content-Type", "application/json")] else headers

/-- `create_authenticated_headers(method, path, content)`. -/
def HmacClient.createAuthenticatedHeaders (self : HmacClient) (now : Int) (method path : String)
    (content : Option String) : Except String (List (String × String)) :=
  (self.signingInput now path content).map fun i => self.headersFor upperCase i method content

/-! ## Dispatch -/

/-- The first line of `request`: `json.dumps(json_data) if json_data else None`. -/
def jsonContent (jsonData : PyJson) : Option String :=
  if jsonData.truthy then some (jsonDumps jsonData) else none

/-- The arguments of `self.session.request(...)`. -/
structure Dispatch where
  method : String
  url : String
  headers : List (String × String)
  data : Option String
  verify : Bool

/-- `request(method, path, json_data)`, with the serialised body `content`. -/
def HmacClient.request (self : HmacClient) (now : Int) (method path : String)
    (content : Option String) : Except String Dispatch :=
  (self.createAuthenticatedHeaders upperCase now method path content).map fun headers =>
    ⟨upper upperCase method, self.baseUrl ++ path, headers, content, self.verify⟩

/-- `get(path)`. -/
def HmacClient.get (self : HmacClient) (now : Int) (path : String) : Except String Dispatch :=
  self.request upperCase now "GET" path none

/-- `post(path, json_data)`. -/
def HmacClient.post (self : HmacClient) (now : Int) (path : String) (jsonData : PyJson) :
    Except String Dispatch :=
  self.request upperCase now "POST" path (jsonContent jsonData)

/-- `put(path, json_data)`. -/
def HmacClient.put (self : HmacClient) (now : Int) (path : String) (jsonData : PyJson) :
    Except String Dispatch :=
  self.request upperCase now "PUT" path (jsonContent jsonData)

/-- `delete(path)`. -/
def HmacClient.delete (self : HmacClient) (now : Int) (path : String) : Except String Dispatch :=
  self.request upperCase now "DELETE" path none

end Methods

/-! ## The empty-body shortcut -/

set_option maxRecDepth 100000 in
/-- **`EMPTY_CONTENT_HASH` is the digest of the empty body.** -/
theorem emptyContentHash_eq : b64encode (sha256 []) = emptyContentHash := by
  rfl

/-- **The shortcut is not observable**: `calculate_content_hash` is the base64 SHA-256 digest of the
    body's UTF-8 bytes for every body, `None` read as `""`. -/
theorem calculateContentHash_eq (content : Option String) :
    calculateContentHash content = b64encode (sha256 (encodeUtf8 (content.getD ""))) := by
  rcases content with _ | s
  · exact emptyContentHash_eq.symm
  · by_cases hs : s = ""
    · subst hs
      exact emptyContentHash_eq.symm
    · simp [calculateContentHash, hs]

/-! ## The signed strings, field by field

`createStringToSign_data` and `generateAuthorizationHeader_data` lay the two strings out as nested
cuts, last separator outermost; the lemmas after them say which separators each field can hold. -/

theorem createStringToSign_data (upperCase : Char → List Char) (m p h t c : String) :
    (createStringToSign upperCase m p [h, t, c]).data =
      (((upper upperCase m).data ++ '\n' :: p.data) ++ '\n' :: h.data ++ ';' :: t.data) ++ ';' :: c.data := by
  simp [createStringToSign, String.intercalate, String.intercalate.go]

example : createStringToSign asciiUpperCase "GET" "/api/test" ["example.com", "1234567890", "abc123"] =
    "GET\n/api/test\nexample.com;1234567890;abc123" := by
  decide

/-- A header name the scheme can list: non-empty, with no `;` and no `&`. -/
def ListableName (n : String) : Prop := n ≠ "" ∧ ';' ∉ n.data ∧ '&' ∉ n.data

instance (n : String) : Decidable (ListableName n) := inferInstanceAs (Decidable (_ ∧ _))

theorem defaultSignedHeaders_listable : ∀ n ∈ defaultSignedHeaders, ListableName n := by
  decide

theorem generateAuthorizationHeader_data (self : HmacClient) (signedHeaders : List String)
    (signature : String) :
    (self.generateAuthorizationHeader signedHeaders signature).data =
      ((defaultSchemeName ++ " Client=").data ++ self.client.data) ++
        '&' :: ("SignedHeaders=".data ++ (String.intercalate ";" signedHeaders).data) ++
        '&' :: ("Signature=".data ++ signature.data) := by
  simp [HmacClient.generateAuthorizationHeader]

example : (HmacClient.init "TestClient" "test-secret" "https://api.example.com").generateAuthorizationHeader
    ["host", "x-timestamp", "x-content-sha256"] "test-signature" =
    "HMAC Client=TestClient&SignedHeaders=host;x-timestamp;x-content-sha256&Signature=test-signature" := by
  decide

theorem ampersand_not_mem_intercalate {l : List String} (hl : ∀ n ∈ l, ListableName n) :
    '&' ∉ (String.intercalate ";" l).data := fun h =>
  (mem_intercalate h).elim (by decide) fun ⟨n, hn, h⟩ => (hl n hn).2.2 h

theorem ampersand_not_mem_generateSignature (self : HmacClient) (stringToSign : String) :
    '&' ∉ (self.generateSignature stringToSign).data :=
  not_mem_b64encode (by decide) (by decide) _

/-- Two signatures agree exactly when their HMAC digests do: comparing signatures compares digests. -/
theorem generateSignature_eq_iff (self : HmacClient) (s₁ s₂ : String) :
    self.generateSignature s₁ = self.generateSignature s₂ ↔
      hmacSha256 self.secret (encodeUtf8 s₁) = hmacSha256 self.secret (encodeUtf8 s₂) :=
  b64encode_injective.eq_iff

theorem semicolon_not_mem_calculateContentHash (content : Option String) :
    ';' ∉ (calculateContentHash content).data := by
  rw [calculateContentHash_eq]
  exact not_mem_b64encode (by decide) (by decide) _

theorem semicolon_not_mem_decimal (t : Int) : ';' ∉ (toString t).data := fun h =>
  (mem_decimal h).elim (by decide) (by decide)

/-! ## Inversion -/

section Inversion

variable {upperCase : Char → List Char} {self : HmacClient} {now : Int} {method path : String}
  {content : Option String}

theorem signingInput_eq_ok {i : SigningInput} :
    self.signingInput now path content = .ok i ↔ ∃ url, urlparse (self.baseUrl ++ path) = .ok url ∧
      ⟨url.netloc, pathAndQueryOf url, toString now, calculateContentHash content⟩ = i :=
  except_map_eq_ok

theorem createAuthenticatedHeaders_eq_ok {hs : List (String × String)} :
    self.createAuthenticatedHeaders upperCase now method path content = .ok hs ↔
      ∃ i, self.signingInput now path content = .ok i ∧ self.headersFor upperCase i method content = hs :=
  except_map_eq_ok

end Inversion

end HashGate
