import HashGate.Client
import HashGate.Url.Target

/-!
# `HashGate.Verifier` — the server side of the scheme

The repository's Python material holds only the signer. The spec (§4.4, §7) fixes what a compliant
verifier does with a received request: parse the `Authorization` header, look up the client's secret,
check the timestamp's freshness, recompute the content hash of the body it received, rebuild the
string-to-sign from the received method, request target and the values of the headers named in
`SignedHeaders`, and accept only on an equal signature. Each failure is terminal and has its kind.
This module models that verifier from the spec, together with the transport between the two sides.

The `Authorization` value is parsed from the right, the one order in which a client id holding `&` or
`=` is still read back; comparisons are plain equality (the constant-time requirement of §2 is about
timing, which the model does not have).

## Contents
- `Received`, `Dispatch.received`: what the transport delivers; `SentAsWritten`, the URLs for which
  `requests` delivers that; `Received.WellFramed`.
- `sameHeaderName`, `lookupHeader` (first match), `parseAuthorization`, `parseInt`.
- `AuthFailure`, `verify`, and its inversion `verify_eq_ok`.
- `parseAuthorization_generateAuthorizationHeader`, `parseInt_toString`: the parsers read back what the
  client writes.
- `lookupHeader_headersFor`: the headers the client sends, looked up by name.
-/

namespace HashGate

/-! ## The transport -/

/-- A request as the server receives it. -/
structure Received where
  method : String
  target : String
  headers : List (String × String)
  body : Option String

/-- Modelled from the spec: the transport (out of scope, §1) delivers the method, the request target of
    the URL as written, the headers and the body as the client handed them over. This is what
    `requests` sends for a URL that is `SentAsWritten` and a host with no `.netrc` entry; for other
    URLs it sends another target, or replaces the `Authorization` header, and `received` is not what
    arrives. -/
def Dispatch.received (d : Dispatch) : Received :=
  ⟨d.method, requestTarget d.url, d.headers, d.data⟩

/-- The characters other than ASCII letters and digits that `requote_uri` and `urllib3` leave as they
    are in a path and a query: the unreserved `-._~` and the delimiters `!$&'()*+,=:@/?`. `%`, read as
    the start of an escape, and `;` are not among them. -/
def keptTargetChars : List Char := "-._~!$&\x27()*+,=:@/?".data

/-- A URL whose request target `requests` sends as it is written, with the client's `Authorization`
    header: the target starts with `/` (an empty path is sent as `/`), holds only characters that
    `requote_uri` and `urllib3` keep (the others are percent-encoded), and has no `.` or `..` path
    segment (which `urllib3` removes); the authority holds no `@`, whose user info `requests` sends as
    an `Authorization` header of its own, and no `\`, at which `urllib3` ends the authority. -/
def SentAsWritten (url : String) : Prop :=
  (requestTarget url).data.head? = some '/' ∧
    (∀ c ∈ (requestTarget url).data, c.isAlphanum ∨ c ∈ keptTargetChars) ∧
    (∀ seg ∈ ((requestTarget url).data.takeWhile (· ≠ '?')).splitOn '/', seg ≠ ['.'] ∧ seg ≠ ['.', '.']) ∧
    ∀ c ∈ (netlocStep (schemeStep url.data).2).1, c ≠ '@' ∧ c ≠ '\\'

instance (url : String) : Decidable (SentAsWritten url) := inferInstanceAs (Decidable (_ ∧ _ ∧ _ ∧ _))

theorem semicolon_not_mem_of_sentAsWritten {url : String} (h : SentAsWritten url) :
    ';' ∉ (requestTarget url).data := fun hc => by
  rcases h.2.1 _ hc with h | h <;> revert h <;> decide

/-- HTTP/1.1 framing: the request line ends the target and each header line ends its value, so neither
    holds a line break. -/
def Received.WellFramed (r : Received) : Prop := '\n' ∉ r.target.data ∧ ∀ h ∈ r.headers, '\n' ∉ h.2.data

instance (r : Received) : Decidable r.WellFramed := inferInstanceAs (Decidable (_ ∧ _))

/-! ## Reading the request -/

/-- Header names compare without regard to ASCII case, as HTTP compares them. -/
def sameHeaderName (a b : String) : Bool :=
  a.data.map Char.toLower == b.data.map Char.toLower

/-- The value of the first header named `name`. -/
def lookupHeader (name : String) (headers : List (String × String)) : Option String :=
  (headers.find? fun h => sameHeaderName h.1 name).map Prod.snd

theorem mem_of_lookupHeader_eq_some {name v : String} {headers : List (String × String)}
    (h : lookupHeader name headers = some v) : ∃ k, (k, v) ∈ headers := by
  obtain ⟨p, hp, rfl⟩ := Option.map_eq_some'.mp h
  exact ⟨p.1, List.mem_of_find?_eq_some hp⟩

/-- The three values the default signed headers name, looked up in turn. -/
theorem mapM_defaultSignedHeaders {headers : List (String × String)} {values : List String}
    (h : defaultSignedHeaders.mapM (lookupHeader · headers) = some values) :
    ∃ host, lookupHeader "host" headers = some host ∧
      ∃ ts, lookupHeader timeStampHeaderName headers = some ts ∧
        ∃ ch, lookupHeader contentHashHeaderName headers = some ch ∧ [host, ts, ch] = values := by
  simp only [defaultSignedHeaders, List.mapM_cons, List.mapM_nil] at h
  simpa [Option.bind_eq_some] using h

/-- The three fields of an `Authorization` value. -/
structure AuthorizationFields where
  client : String
  signedHeaders : List String
  signature : String
  deriving DecidableEq, Repr

/-- Modelled from the spec: the Parse state of §4.4. The last `&` opens `Signature=`, the one before it
    `SignedHeaders=`, and what follows `HMAC Client=` up to there is the client id. -/
def parseAuthorization (value : String) : Option AuthorizationFields := do
  let (rest, signature) ← splitLast '&' value.data
  let signature ← signature.dropPrefix? "Signature=".data
  let (rest, names) ← splitLast '&' rest
  let names ← names.dropPrefix? "SignedHeaders=".data
  let client ← rest.dropPrefix? (defaultSchemeName ++ " Client=").data
  pure ⟨⟨client⟩, splitItems ';' ⟨names⟩, ⟨signature⟩⟩

/-- Decimal digits, at least one. -/
def IsDigits (ds : List Char) : Prop := ds ≠ [] ∧ ∀ c ∈ ds, c.isDigit

instance (ds : List Char) : Decidable (IsDigits ds) := inferInstanceAs (Decidable (_ ∧ _))

/-- Reads an `int` as `str` writes it: an optional `-`, then at least one digit. -/
def parseInt (s : String) : Option Int :=
  match s.data with
  | '-' :: ds => if IsDigits ds then some (intValue s.data) else none
  | ds => if IsDigits ds then some (intValue s.data) else none

/-! ## The verifier -/

/-- The failure kinds of §7. -/
inductive AuthFailure
  | malformedAuthHeader
  | unknownClient
  | staleRequest
  | bodyTampered
  | signatureMismatch
  deriving DecidableEq, Repr

section Verify

variable (upperCase : Char → List Char)

/-- Modelled from the spec: the verifier of §4.4, with the client secrets `secrets`, the freshness
    window `tolerance` in seconds and the server clock `serverNow`. It returns the authenticated client
    id or the first check that failed: parse, lookup, freshness, content hash, signature. A timestamp
    that does not parse is not fresh; a signed header the request lacks leaves the string-to-sign
    unbuildable, a signature mismatch. -/
def verify (secrets : String → Option (List UInt8)) (tolerance : Nat) (serverNow : Int) (r : Received) :
    Except AuthFailure String :=
  match (lookupHeader "Authorization" r.headers).bind parseAuthorization with
  | none => .error .malformedAuthHeader
  | some fields =>
    match secrets fields.client with
    | none => .error .unknownClient
    | some secret =>
      match (lookupHeader timeStampHeaderName r.headers).bind parseInt with
      | none => .error .staleRequest
      | some ts =>
        if (serverNow - ts).natAbs > tolerance then .error .staleRequest
        else if lookupHeader contentHashHeaderName r.headers ≠ some (calculateContentHash r.body) then
          .error .bodyTampered
        else
          match fields.signedHeaders.mapM (lookupHeader · r.headers) with
          | none => .error .signatureMismatch
          | some values =>
            if b64encode (hmacSha256 secret (encodeUtf8 (createStringToSign upperCase r.method r.target
                values))) = fields.signature then .ok fields.client
            else .error .signatureMismatch

/-- **Inversion of `verify`.** An accepted request passed every check in turn. -/
theorem verify_eq_ok {secrets : String → Option (List UInt8)} {tolerance : Nat} {serverNow : Int}
    {r : Received} {c : String} (h : verify upperCase secrets tolerance serverNow r = .ok c) :
    ∃ fields secret ts values,
      (lookupHeader "Authorization" r.headers).bind parseAuthorization = some fields ∧
      secrets fields.client = some secret ∧
      (lookupHeader timeStampHeaderName r.headers).bind parseInt = some ts ∧
      (serverNow - ts).natAbs ≤ tolerance ∧
      lookupHeader contentHashHeaderName r.headers = some (calculateContentHash r.body) ∧
      fields.signedHeaders.mapM (lookupHeader · r.headers) = some values ∧
      b64encode (hmacSha256 secret (encodeUtf8 (createStringToSign upperCase r.method r.target values))) =
        fields.signature ∧ fields.client = c := by
  unfold verify at h
  split at h
  · cases h
  rename_i fields hf
  split at h
  · cases h
  rename_i secret hs
  split at h
  · cases h
  rename_i ts ht
  split_ifs at h with hstale hhash
  split at h
  · cases h
  rename_i values hv
  split_ifs at h with hsig
  cases h
  exact ⟨fields, secret, ts, values, hf, hs, ht, Nat.not_lt.mp hstale, not_not.mp hhash, hv, hsig, rfl⟩

end Verify

/-! ## The parsers read back what the client writes -/

/-- **An `Authorization` value laid out as `generate_authorization_header` writes it parses back**
    into the client id, the header names and the signature, for listable names and a signature free of
    `&`, whatever the client id holds. -/
theorem parseAuthorization_eq_some {v client s : String} {H : List String}
    (hH : ∀ n ∈ H, ListableName n) (hs : '&' ∉ s.data)
    (hv : v.data = ((defaultSchemeName ++ " Client=").data ++ client.data) ++
      '&' :: ("SignedHeaders=".data ++ (String.intercalate ";" H).data) ++ '&' :: ("Signature=".data ++ s.data)) :
    parseAuthorization v = some ⟨client, H, s⟩ := by
  have h₁ : '&' ∉ "Signature=".data ++ s.data := by simpa using hs
  have h₂ : '&' ∉ "SignedHeaders=".data ++ (String.intercalate ";" H).data := by
    simpa using ampersand_not_mem_intercalate hH
  have hsplit : splitItems ';' ⟨(String.intercalate ";" H).data⟩ = H :=
    splitItems_intercalate fun n hn => ⟨(hH n hn).1, (hH n hn).2.1⟩
  simp only [parseAuthorization, hv, splitLast_append_cons h₁, splitLast_append_cons h₂,
    Option.bind_eq_bind, Option.some_bind, List.dropPrefix?_append_of_beq _ (beq_self_eq_true _)]
  simp [hsplit]

/-- **The `Authorization` value parses back** into the client id, the header names and the signature,
    for listable names and a signature free of `&`. -/
theorem parseAuthorization_generateAuthorizationHeader {self : HmacClient} {H : List String}
    {s : String} (hH : ∀ n ∈ H, ListableName n) (hs : '&' ∉ s.data) :
    parseAuthorization (self.generateAuthorizationHeader H s) = some ⟨self.client, H, s⟩ :=
  parseAuthorization_eq_some hH hs (generateAuthorizationHeader_data _ _ _)

/-- A signature `parseAuthorization` reads holds no `&`: it is cut after the last one. -/
theorem ampersand_not_mem_of_parseAuthorization {v : String} {f : AuthorizationFields}
    (h : parseAuthorization v = some f) : '&' ∉ f.signature.data := by
  simp only [parseAuthorization, Option.bind_eq_bind, Option.bind_eq_some] at h
  obtain ⟨⟨rest, sig⟩, hsplit, sig', hsig, _, _, _, _, _, _, hf⟩ := h
  obtain ⟨p, rfl, -⟩ := List.dropPrefix?_eq_some_iff.mp hsig
  cases Option.some.inj hf
  exact fun h => not_mem_of_splitLast_eq_some hsplit (List.mem_append_right p h)

theorem parseInt_of_isDigits {s : String} (h : IsDigits s.data) : parseInt s = some (intValue s.data) := by
  unfold parseInt
  match hs : s.data, h with
  | c :: cs, h =>
    have hc : c ≠ '-' := by rintro rfl; exact absurd (h.2 _ (List.mem_cons_self _ _)) (by decide)
    simp [hc, h, hs]

/-- **`parseInt` reads back `str` of every `int`.** -/
theorem parseInt_toString (i : Int) : parseInt (toString i) = some i := by
  cases i with
  | ofNat n =>
    show parseInt (Nat.repr n) = _
    rw [parseInt_of_isDigits ⟨repr_ne_nil n, fun _ => isDigit_of_mem_repr⟩]
    exact congrArg some (intValue_toString (Int.ofNat n))
  | negSucc n =>
    show parseInt ⟨'-' :: (Nat.repr (n + 1)).data⟩ = _
    simp only [parseInt]
    rw [if_pos ⟨repr_ne_nil _, fun _ => isDigit_of_mem_repr⟩]
    exact congrArg some (intValue_toString (Int.negSucc n))

/-- What `parseInt` accepts holds no `;`. -/
theorem semicolon_not_mem_of_parseInt {s : String} {n : Int} (h : parseInt s = some n) :
    ';' ∉ s.data := by
  unfold parseInt at h
  split at h <;> split_ifs at h with hd
  · rename_i ds hs
    rw [hs]
    rintro (_ | ⟨_, h'⟩)
    exact absurd (hd.2 _ h') (by decide)
  · exact fun h' => absurd (hd.2 _ h') (by decide)

/-! ## The headers the client sends -/

section Headers

variable (upperCase : Char → List Char) (self : HmacClient) (i : SigningInput) (method : String)
  (content : Option String)

/-- The headers `create_authenticated_headers` returns, looked up by name: the `Authorization` value,
    the timestamp, the content hash, and — under the names it lists in `SignedHeaders`, matched as HTTP
    matches names — exactly the values it signed, in their order. -/
theorem lookupHeader_headersFor :
    lookupHeader "Authorization" (self.headersFor upperCase i method content) =
      some (self.generateAuthorizationHeader defaultSignedHeaders
        (self.generateSignature (i.stringToSign upperCase method))) ∧
    lookupHeader timeStampHeaderName (self.headersFor upperCase i method content) = some i.timestamp ∧
    lookupHeader contentHashHeaderName (self.headersFor upperCase i method content) =
      some i.contentHash ∧
    defaultSignedHeaders.mapM (lookupHeader · (self.headersFor upperCase i method content)) =
      some [i.host, i.timestamp, i.contentHash] := by
  have hlookup : ∀ n, n ∈ ["host", "Authorization", timeStampHeaderName, contentHashHeaderName] →
      lookupHeader n (self.headersFor upperCase i method content) =
        lookupHeader n [("Host", i.host), (timeStampHeaderName, i.timestamp),
          (contentHashHeaderName, i.contentHash), ("Authorization", self.generateAuthorizationHeader
            defaultSignedHeaders (self.generateSignature (i.stringToSign upperCase method)))] := by
    intro n hn
    unfold HmacClient.headersFor
    split
    · simp only [lookupHeader, List.find?_append]
      simp at hn
      rcases hn with rfl | rfl | rfl | rfl <;> simp [sameHeaderName, timeStampHeaderName, contentHashHeaderName]
    · rfl
  simp only [defaultSignedHeaders, List.mapM_cons, List.mapM_nil]
  rw [hlookup "Authorization" (by simp), hlookup timeStampHeaderName (by simp),
    hlookup contentHashHeaderName (by simp), hlookup "host" (by simp)]
  simp [lookupHeader, sameHeaderName, timeStampHeaderName, contentHashHeaderName, defaultSignedHeaders]

end Headers

end HashGate
