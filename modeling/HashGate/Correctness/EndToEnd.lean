import HashGate.Verifier
import HashGate.Correctness.Canonical
import HashGate.Correctness.Target

/-!
# `HashGate.Correctness.EndToEnd` — what the client sends, the verifier accepts

The two halves of the scheme composed through the transport: `request` builds the headers,
`Dispatch.received` carries the method, the URL's request target, the headers and the body across, and
`verify` checks them. The client's side of the contract holds where the signed path is the path on the
wire (`pathAndQuery_eq_requestTarget`) and `requests` sends the URL as it is written
(`SentAsWritten`): then a verifier that knows the client's secret and whose clock is within its window
accepts the request as that client. The checks that precede the signature still bind what they should:
a body with another content hash is rejected as tampered, and a timestamp outside the window as stale,
whatever the URL. A replayed `Authorization` value binds the rest: a request that carries it and is
accepted agrees with the signed one on every signed field, unless the signature function collides on the
two strings-to-sign. The `SignedHeaders` list does not: the verifier reads it from the request, so the
signature of any request it once accepted, listed under other names that carry the signed values, is
accepted with any body at any time inside the window.

## Contents
- `testDispatch`: the test client's request, as dispatched.
- `verify_headersFor`: the verifier on any request carrying the client's headers.
- `verify_request`: completeness.
- `verify_tampered_body`, `verify_stale`.
- `verify_replayed`: what a replayed signature binds.
- `relist`, `verify_relist`: the signature of an accepted request, re-listed under other header names,
  is accepted with any body and any fresh timestamp.
- `verify_drops_params`: the test client's `/users;v=2` is rejected.
-/

namespace HashGate

/-! ## The test client

The request the test client of `test.py` sends for `GET /api/test`; the witnesses below run the verifier
on it. -/

/-- The test client's `GET /api/test` at `1234567890`, as `request` hands it to the transport. -/
def testDispatch : Dispatch :=
  ⟨"GET", "https://api.example.com/api/test",
    [("Host", "api.example.com"), ("x-timestamp", "1234567890"), ("x-content-sha256", emptyContentHash),
      ("Authorization", "HMAC Client=TestClient&SignedHeaders=host;x-timestamp;x-content-sha256&" ++
        "Signature=of8xCsHR/04sgMPvlohwieFDDFnSRxyEN5aNwu61SXM=")], none, true⟩

set_option maxRecDepth 100000 in
theorem request_testDispatch :
    (HmacClient.init "TestClient" "test-secret" "https://api.example.com").request asciiUpperCase
      1234567890 "GET" "/api/test" none = .ok testDispatch := by
  rfl

/-! ## Client, transport and verifier -/

section EndToEnd

variable {upperCase : Char → List Char} {self : HmacClient} {now serverNow : Int} {method path : String}
  {content : Option String} {d : Dispatch} {secrets : String → Option (List UInt8)} {tolerance : Nat}

/-- **The verifier on the client's headers.** A received request that carries the headers the client
    built for `i` — whatever its method, target and body — parses, finds the client's secret and reads
    the signed timestamp and content hash back; what is left is the window, the body's hash and the
    signature over what was received. -/
theorem verify_headersFor {i : SigningInput} (hi : self.signingInput now path content = .ok i)
    (hsecret : secrets self.client = some self.secret) (m target : String) (body : Option String) :
    verify upperCase secrets tolerance serverNow ⟨m, target, self.headersFor upperCase i method content, body⟩ =
      if (serverNow - now).natAbs > tolerance then .error .staleRequest
      else if calculateContentHash content ≠ calculateContentHash body then .error .bodyTampered
      else if self.generateSignature (createStringToSign upperCase m target [i.host, i.timestamp, i.contentHash]) =
          self.generateSignature (i.stringToSign upperCase method) then .ok self.client
      else .error .signatureMismatch := by
  obtain ⟨hauth, hts, hch, hvals⟩ := lookupHeader_headersFor upperCase self i method content
  obtain ⟨url, -, rfl⟩ := signingInput_eq_ok.mp hi
  simp only [verify, hauth, hts, hch, hvals, hsecret, Option.some_bind, ne_eq, Option.some.injEq,
    parseAuthorization_generateAuthorizationHeader defaultSignedHeaders_listable
      (ampersand_not_mem_generateSignature _ _), parseInt_toString]
  rfl

/-- The request `request` dispatches, as the verifier receives it. -/
theorem received_of_request (hd : self.request upperCase now method path content = .ok d) :
    ∃ i, self.signingInput now path content = .ok i ∧ d.received =
      ⟨upper upperCase method, requestTarget (self.baseUrl ++ path),
        self.headersFor upperCase i method content, content⟩ := by
  obtain ⟨hs, hhs, rfl⟩ := except_map_eq_ok.mp hd
  obtain ⟨i, hi, rfl⟩ := createAuthenticatedHeaders_eq_ok.mp hhs
  exact ⟨i, hi, rfl⟩

/-- **A body with another content hash is rejected as tampered**, at a verifier holding the client's
    secret and within the window, whatever else the request carries. -/
theorem verify_tampered_body (hd : self.request upperCase now method path content = .ok d)
    (hsecret : secrets self.client = some self.secret) (hfresh : (serverNow - now).natAbs ≤ tolerance)
    {body : Option String} (hbody : calculateContentHash body ≠ calculateContentHash content) :
    verify upperCase secrets tolerance serverNow { d.received with body := body } = .error .bodyTampered := by
  obtain ⟨i, hi, hrec⟩ := received_of_request hd
  rw [hrec]
  exact (verify_headersFor hi hsecret _ _ body).trans (by
    rw [if_neg (Nat.not_lt.mpr hfresh), if_pos (Ne.symm hbody)])

set_option maxRecDepth 100000 in
/-- The body `{}` substituted for the empty one. -/
theorem verify_tampered_body_test :
    verify asciiUpperCase (fun _ => some (encodeUtf8 "test-secret")) 300 1234567890
      { testDispatch.received with body := some "{}" } = .error .bodyTampered :=
  verify_tampered_body request_testDispatch rfl (by decide) (by decide)

/-- **A request outside the window is rejected as stale**, at a verifier holding the client's secret. -/
theorem verify_stale (hd : self.request upperCase now method path content = .ok d)
    (hsecret : secrets self.client = some self.secret) (hstale : tolerance < (serverNow - now).natAbs) :
    verify upperCase secrets tolerance serverNow d.received = .error .staleRequest := by
  obtain ⟨i, hi, hrec⟩ := received_of_request hd
  rw [hrec, verify_headersFor hi hsecret, if_pos hstale]

/-- One second past a five-minute window. -/
theorem verify_stale_test :
    verify asciiUpperCase (fun _ => some (encodeUtf8 "test-secret")) 300 1234568191 testDispatch.received =
      .error .staleRequest :=
  verify_stale request_testDispatch rfl (by decide)

/-- **A replayed signature binds every signed field, up to a collision.** Take a well-framed request
    that carries the `Authorization` value the client sent — any method, target, other headers and
    body — and that a verifier holding the client's secret accepts. It is accepted as that client, and
    either it agrees with the signed request on the upper-cased method, the path and query, the three
    signed header values and the body's content hash, or the signature function gives the string the
    verifier rebuilt and the different string the client signed one signature — by
    `generateSignature_eq_iff`, one HMAC-SHA256 digest under the client's secret. -/
theorem verify_replayed (hd : self.request upperCase now method path content = .ok d)
    (hsecret : secrets self.client = some self.secret) {r : Received} {c : String}
    (hauth : lookupHeader "Authorization" r.headers = lookupHeader "Authorization" d.headers)
    (hframed : r.WellFramed) (hacc : verify upperCase secrets tolerance serverNow r = .ok c) :
    c = self.client ∧ ∃ i, self.signingInput now path content = .ok i ∧
      ((upper upperCase r.method = upper upperCase method ∧ r.target = i.pathAndQuery ∧
          defaultSignedHeaders.mapM (lookupHeader · r.headers) = some [i.host, i.timestamp, i.contentHash] ∧
          calculateContentHash r.body = i.contentHash) ∨
        ∃ values, defaultSignedHeaders.mapM (lookupHeader · r.headers) = some values ∧
          createStringToSign upperCase r.method r.target values ≠ i.stringToSign upperCase method ∧
          self.generateSignature (createStringToSign upperCase r.method r.target values) =
            self.generateSignature (i.stringToSign upperCase method)) := by
  obtain ⟨i, hi, hrec⟩ := received_of_request hd
  obtain ⟨fields, secret, ts, values, hf, hs, ht, -, hch, hv, hsig, rfl⟩ := verify_eq_ok upperCase hacc
  obtain ⟨hauth', -, -, -⟩ := lookupHeader_headersFor upperCase self i method content
  rw [hauth, show d.headers = _ from congrArg Received.headers hrec, hauth', Option.some_bind,
    parseAuthorization_generateAuthorizationHeader defaultSignedHeaders_listable
      (ampersand_not_mem_generateSignature _ _), Option.some.injEq] at hf
  subst hf
  obtain rfl := Option.some.inj (hsecret.symm.trans hs)
  refine ⟨rfl, i, hi, ?_⟩
  by_cases hS : createStringToSign upperCase r.method r.target values = i.stringToSign upperCase method
  · -- the verifier's timestamp and content hash hold no `;`, the framing keeps `\n` out of its target
    -- and host: the four cuts of `eq_of_createStringToSign_eq` apply
    obtain ⟨host, hhost, t, hts, ch, hch', rfl⟩ := mapM_defaultSignedHeaders hv
    rw [hts, Option.some_bind] at ht
    obtain rfl := Option.some.inj (hch'.symm.trans hch)
    obtain ⟨k, hk⟩ := mem_of_lookupHeader_eq_some hhost
    obtain ⟨hh₁, hp₁, ht₁, hc₁⟩ := signingInput_separators hi
    obtain ⟨hm, hp, hh, htt, hcc⟩ := eq_of_createStringToSign_eq upperCase hframed.1 hp₁
      (hframed.2 _ hk) hh₁ (semicolon_not_mem_of_parseInt ht) ht₁
      (semicolon_not_mem_calculateContentHash r.body) hc₁ hS
    dsimp only at hh hv
    rw [hh, htt, hcc] at hv
    exact .inl ⟨hm, hp, hv, hcc⟩
  · exact .inr ⟨values, hv, hS, hsig⟩

set_option maxRecDepth 100000 in
/-- The test client's request replayed with its method in lower case: accepted, on the fields it signed. -/
theorem verify_replayed_test :
    "TestClient" = (HmacClient.init "TestClient" "test-secret" "https://api.example.com").client ∧
      ∃ i, (HmacClient.init "TestClient" "test-secret" "https://api.example.com").signingInput
        1234567890 "/api/test" none = .ok i ∧
      ((upper asciiUpperCase "get" = upper asciiUpperCase "GET" ∧ testDispatch.received.target = i.pathAndQuery ∧
          defaultSignedHeaders.mapM (lookupHeader · testDispatch.headers) =
            some [i.host, i.timestamp, i.contentHash] ∧
          calculateContentHash none = i.contentHash) ∨
        ∃ values, defaultSignedHeaders.mapM (lookupHeader · testDispatch.headers) = some values ∧
          createStringToSign asciiUpperCase "get" testDispatch.received.target values ≠
            i.stringToSign asciiUpperCase "GET" ∧
          (HmacClient.init "TestClient" "test-secret" "https://api.example.com").generateSignature
              (createStringToSign asciiUpperCase "get" testDispatch.received.target values) =
            (HmacClient.init "TestClient" "test-secret" "https://api.example.com").generateSignature
              (i.stringToSign asciiUpperCase "GET")) :=
  verify_replayed request_testDispatch rfl rfl (by decide)
    (show verify asciiUpperCase (fun _ => some (encodeUtf8 "test-secret")) 300 1234567890
      { testDispatch.received with method := "get" } = .ok "TestClient" from rfl)

/-! ## Re-listed signed headers

The verifier rebuilds the string-to-sign from the names the request itself lists in `SignedHeaders`,
while it checks the timestamp and the body against the `x-timestamp` and `x-content-sha256` headers
whether or not they are listed. Listing another header that carries the signed timestamp and content
hash joined by `;` gives the same string-to-sign. -/

/-- The names a re-listed request signs under. -/
def relayNames : List String := ["host", "x-relay"]

/-- A request made from a received one without the secret: its client id and signature under
    `SignedHeaders=host;x-relay`, with `x-relay` carrying its timestamp and content hash joined by `;`,
    and a new body, the body's content hash and a new timestamp in their own headers. -/
def relist (r : Received) (body : Option String) (ts : Int) : Received :=
  let value (name : String) := (lookupHeader name r.headers).getD ""
  let fields := ((lookupHeader "Authorization" r.headers).bind parseAuthorization).getD ⟨"", [], ""⟩
  ⟨r.method, r.target,
    [("Host", value "host"),
      ("x-relay", value timeStampHeaderName ++ ";" ++ value contentHashHeaderName),
      (timeStampHeaderName, toString ts), (contentHashHeaderName, calculateContentHash body),
      ("Authorization", defaultSchemeName ++ " Client=" ++ fields.client ++ "&SignedHeaders=" ++
        String.intercalate ";" relayNames ++ "&Signature=" ++ fields.signature)],
    body⟩

/-- **Re-listed signed headers free the body and the clock.** Take any received request that a
    verifier accepted as `c`, at any clock and window, signed under the default `SignedHeaders`. The
    request `relist` makes from it without the secret, with every body and every timestamp inside the
    window of a verifier holding the same secrets, is accepted as `c`: the string-to-sign rebuilt from
    `host;x-relay` is the one signed. -/
theorem verify_relist {r : Received} {c : String} {tolerance₀ : Nat} {serverNow₀ : Int}
    (hacc : verify upperCase secrets tolerance₀ serverNow₀ r = .ok c)
    (hnames : ((lookupHeader "Authorization" r.headers).bind parseAuthorization).map
      AuthorizationFields.signedHeaders = some defaultSignedHeaders)
    (body : Option String) {ts : Int} (hfresh : (serverNow - ts).natAbs ≤ tolerance) :
    verify upperCase secrets tolerance serverNow (relist r body ts) = .ok c := by
  obtain ⟨fields, secret, -, values, hf, hs, -, -, -, hv, hsig, rfl⟩ := verify_eq_ok upperCase hacc
  rw [hf, Option.map_some', Option.some.injEq] at hnames
  rw [hnames] at hv
  obtain ⟨host, hhost, t, hts, ch, hch, rfl⟩ := mapM_defaultSignedHeaders hv
  obtain ⟨v, -, hparse⟩ := Option.bind_eq_some.mp hf
  let value := defaultSchemeName ++ " Client=" ++ fields.client ++ "&SignedHeaders=" ++
    String.intercalate ";" relayNames ++ "&Signature=" ++ fields.signature
  have hrel : relist r body ts = ⟨r.method, r.target, [("Host", host), ("x-relay", t ++ ";" ++ ch),
      (timeStampHeaderName, toString ts), (contentHashHeaderName, calculateContentHash body),
      ("Authorization", value)], body⟩ := by
    simp only [relist, hhost, hts, hch, hf, Option.getD_some]
  have hvalue : parseAuthorization value = some ⟨fields.client, relayNames, fields.signature⟩ :=
    parseAuthorization_eq_some (by decide) (ampersand_not_mem_of_parseAuthorization hparse) (by simp [value])
  have hsts : createStringToSign upperCase r.method r.target [host, t ++ ";" ++ ch] =
      createStringToSign upperCase r.method r.target [host, t, ch] := by
    simp [createStringToSign, String.intercalate, String.intercalate.go, String.append_assoc]
  have hauth : lookupHeader "Authorization" (relist r body ts).headers = some value := by rw [hrel]; rfl
  have hts' : lookupHeader timeStampHeaderName (relist r body ts).headers = some (toString ts) := by
    rw [hrel]; rfl
  have hch' : lookupHeader contentHashHeaderName (relist r body ts).headers =
      some (calculateContentHash body) := by rw [hrel]; rfl
  have hvals : relayNames.mapM (lookupHeader · (relist r body ts).headers) =
      some [host, t ++ ";" ++ ch] := by rw [hrel]; rfl
  simp only [verify, hauth, hts', hch', hvals, Option.some_bind, hvalue, hs, parseInt_toString,
    show (relist r body ts).method = r.method from rfl, show (relist r body ts).target = r.target from rfl,
    show (relist r body ts).body = body from rfl, hsts, hsig]
  rw [if_neg (Nat.not_lt.mpr hfresh)]
  simp

set_option maxRecDepth 100000 in
/-- The test client's `GET /api/test`, accepted at its own clock, re-listed under a body it never
    signed and a clock reading four days later, at a verifier on that later clock. -/
theorem verify_relist_test :
    verify asciiUpperCase (fun _ => some (encodeUtf8 "test-secret")) 300 1234999999
      (relist testDispatch.received (some "\x7b\"amount\": 1000000\x7d") 1234999999) = .ok "TestClient" :=
  verify_relist (show verify asciiUpperCase (fun _ => some (encodeUtf8 "test-secret")) 300 1234567890
    testDispatch.received = .ok "TestClient" from rfl) rfl _ (by decide)

end EndToEnd

/-! ## The unsigned `;params` -/

set_option maxRecDepth 100000 in
/-- **The unsigned `;params` cost the request its acceptance.** The test client's `GET /users;v=2`,
    received as sent by a verifier that holds the client's secret and shares its clock, fails the
    signature check: the verifier signs the target `/users;v=2`, the client signed `/users`. -/
theorem verify_drops_params :
    ((HmacClient.init "TestClient" "test-secret" "https://api.example.com").request asciiUpperCase
      1234567890 "GET" "/users;v=2" none).map (fun d => verify asciiUpperCase
        (fun _ => some (encodeUtf8 "test-secret")) 0 1234567890 d.received) =
      .ok (.error .signatureMismatch) := by
  rfl

end HashGate
