import HashGate.Codec.JsonDecode
import HashGate.Correctness.EndToEnd

/-!
# `HashGate.Correctness.Wire` — what the client puts on the wire

What `request` hands the transport, against what it signs. The body is `json.dumps(json_data)`; the
`x-content-sha256` header is the digest of its UTF-8 bytes, and since `json.dumps` writes printable
ASCII those are also the bytes `http.client` sends for a `str` body, which it encodes as Latin-1. The
body identifies the normal form of `json_data` (`PyJson.normalize`: tuples as lists, keys as the
strings written for them, surrogate pairs as their characters, every NaN as one), except that every
falsy value sends none, and so does its content hash unless SHA-256 collides. No header value holds a tab, CR or LF that the client id did not bring.
Trailing slashes of `base_url` leave no trace. The host the client signs and sends is the authority of
`base_url` only when what follows it starts with `/`, `?` or `#`: `urlparse` reads whatever text comes
first as more of the authority. And the secret is signed only up to trailing NUL bytes within the HMAC
block.

## Contents
- `request_jsonContent`: the body sent is the body hashed, with `Content-Type` exactly when there is
  one.
- `jsonContent_eq_iff`: what the body identifies; `calculateContentHash_jsonContent`: what its hash
  binds; both up to the normal form of `json_data`.
- `request_headers_unsafe`: every tab, CR or LF of a header value is a character of the client id.
- `init_append_slashes`: trailing slashes of `base_url`.
- `host_of_baseUrl`, `signingInput_host_eq_iff`: the host, for a `base_url` of the form
  `scheme://authority` and a base path.
- `hmacSha256_append_zeros`, `generateSignature_secret_nul`: secrets that differ by trailing NULs sign
  alike.
-/

namespace HashGate

/-! ## The body -/

/-- The body read as text, none as `""`, is ASCII. -/
theorem ascii_jsonContent (jsonData : PyJson) :
    ∀ c ∈ ((jsonContent jsonData).getD "").data, c.toNat < 0x80 := by
  unfold jsonContent
  split
  · intro c hc
    have := (printable_dumpsValue jsonData c hc).2
    omega
  · simp

/-- The body `request` builds is there exactly when it is truthy. -/
theorem truthy_jsonContent (jsonData : PyJson) :
    truthy (jsonContent jsonData) = (jsonContent jsonData).isSome := by
  unfold jsonContent
  split
  · simp [truthy, jsonDumps_ne_empty]
  · rfl

section Body

variable {upperCase : Char → List Char} {self : HmacClient} {now : Int} {method path : String}
  {d : Dispatch}

theorem lookupHeader_contentType_headersFor (i : SigningInput) (content : Option String) :
    lookupHeader "Content-Type" (self.headersFor upperCase i method content) =
      if truthy content then some "application/json" else none := by
  unfold HmacClient.headersFor
  split <;> simp [lookupHeader, List.find?_append, sameHeaderName, timeStampHeaderName,
    contentHashHeaderName]

/-- **The body on the wire is the body hashed.** For every `json_data`, `request` hands the transport
    `json.dumps(json_data)` when `json_data` is truthy and no body otherwise; it sends
    `Content-Type: application/json` exactly when it sends a body; its `x-content-sha256` is the
    base64 SHA-256 digest of the UTF-8 bytes of the body (none read as empty, so the
    `EMPTY_CONTENT_HASH` shortcut is not observable); and the body's Latin-1 bytes, which `http.client`
    sends for a `str`, are those UTF-8 bytes. -/
theorem request_jsonContent {jsonData : PyJson}
    (hd : self.request upperCase now method path (jsonContent jsonData) = .ok d) :
    d.data = jsonContent jsonData ∧
    lookupHeader "Content-Type" d.headers = d.data.map (fun _ => "application/json") ∧
    lookupHeader contentHashHeaderName d.headers =
      some (b64encode (sha256 (encodeUtf8 (d.data.getD "")))) ∧
    ∀ body ∈ d.data, latin1 body = some (encodeUtf8 body) := by
  obtain ⟨hs, hhs, rfl⟩ := except_map_eq_ok.mp hd
  obtain ⟨i, hi, rfl⟩ := createAuthenticatedHeaders_eq_ok.mp hhs
  obtain ⟨url, -, rfl⟩ := signingInput_eq_ok.mp hi
  refine ⟨rfl, ?_, ?_, fun body hb => ?_⟩
  · rw [lookupHeader_contentType_headersFor, truthy_jsonContent]
    cases jsonContent jsonData <;> rfl
  · rw [(lookupHeader_headersFor upperCase self _ method _).2.2.1, calculateContentHash_eq]
  · have hb' : jsonContent jsonData = some body := hb
    have := ascii_jsonContent jsonData
    rw [hb'] at this
    exact latin1_eq_encodeUtf8 this

theorem request_jsonContent_test :
    (HmacClient.init "TestClient" "test-secret" "https://api.example.com").request asciiUpperCase
      1234567890 "GET" "/api/test" (jsonContent .none) = .ok testDispatch ∧
    testDispatch.data = jsonContent .none ∧
    lookupHeader "Content-Type" testDispatch.headers = testDispatch.data.map (fun _ => "application/json") ∧
    lookupHeader contentHashHeaderName testDispatch.headers =
      some (b64encode (sha256 (encodeUtf8 (testDispatch.data.getD "")))) ∧
    ∀ body ∈ testDispatch.data, latin1 body = some (encodeUtf8 body) :=
  ⟨request_testDispatch, request_jsonContent request_testDispatch⟩

end Body

theorem normalize_eq_of_jsonContent_eq {v w : PyJson} (h : jsonContent v = jsonContent w) :
    v.normalize = w.normalize ∨ (v.truthy = false ∧ w.truthy = false) := by
  unfold jsonContent at h
  cases hv : v.truthy <;> cases hw : w.truthy <;> simp only [hv, hw, ite_true, ite_false,
    Bool.false_eq_true, reduceCtorEq, Option.some.injEq] at h
  · exact .inr ⟨rfl, rfl⟩
  · exact .inl (jsonDumps_eq_iff.mp h)

/-- **The body identifies the normal form of `json_data`**: two `json_data` send the same body exactly
    when they are equal once tuples are read as lists, keys as the strings written for them, surrogate
    pairs as the characters they encode and every NaN as one, or are both falsy (`None`, `False`, `0`,
    `0.0`, `""`, `[]`, `()`, `{}`), which sends no body at all. -/
theorem jsonContent_eq_iff {v w : PyJson} :
    jsonContent v = jsonContent w ↔ v.normalize = w.normalize ∨ (v.truthy = false ∧ w.truthy = false) := by
  refine ⟨normalize_eq_of_jsonContent_eq, ?_⟩
  rintro (h | ⟨hv, hw⟩)
  · have ht : v.truthy = w.truthy := by rw [← truthy_normalize v, h, truthy_normalize]
    simp only [jsonContent, ht, jsonDumps_eq_iff.mpr h]
  · simp [jsonContent, hv, hw]

theorem jsonContent_eq_of_getD_eq {v w : PyJson}
    (h : (jsonContent v).getD "" = (jsonContent w).getD "") : jsonContent v = jsonContent w := by
  unfold jsonContent at h ⊢
  split <;> split <;> simp_all [jsonDumps_ne_empty]
  exact jsonDumps_ne_empty _ h.symm

/-- **The content hash binds the normal form of `json_data`**, up to a collision of SHA-256: two
    `json_data` whose requests carry the same `x-content-sha256` have the same normal form or are both
    falsy, unless SHA-256 maps the UTF-8 bytes of their two different bodies to one digest. -/
theorem calculateContentHash_jsonContent {v w : PyJson}
    (h : calculateContentHash (jsonContent v) = calculateContentHash (jsonContent w)) :
    (v.normalize = w.normalize ∨ (v.truthy = false ∧ w.truthy = false)) ∨
      encodeUtf8 ((jsonContent v).getD "") ≠ encodeUtf8 ((jsonContent w).getD "") ∧
        sha256 (encodeUtf8 ((jsonContent v).getD "")) = sha256 (encodeUtf8 ((jsonContent w).getD "")) := by
  rw [calculateContentHash_eq, calculateContentHash_eq] at h
  by_cases he : encodeUtf8 ((jsonContent v).getD "") = encodeUtf8 ((jsonContent w).getD "")
  · exact .inl (normalize_eq_of_jsonContent_eq (jsonContent_eq_of_getD_eq
      (encodeUtf8_inj_of_ascii (ascii_jsonContent v) (ascii_jsonContent w) he)))
  · exact .inr ⟨he, b64encode_injective h⟩

/-- `None` and `{}` send the same content hash, and are both falsy. -/
theorem calculateContentHash_jsonContent_falsy :
    calculateContentHash (jsonContent .none) = calculateContentHash (jsonContent (.dict [])) ∧
    ((PyJson.none.normalize = (PyJson.dict []).normalize ∨
        (PyJson.none.truthy = false ∧ (PyJson.dict []).truthy = false)) ∨
      encodeUtf8 ((jsonContent .none).getD "") ≠ encodeUtf8 ((jsonContent (.dict [])).getD "") ∧
        sha256 (encodeUtf8 ((jsonContent .none).getD "")) =
          sha256 (encodeUtf8 ((jsonContent (.dict [])).getD ""))) :=
  ⟨rfl, calculateContentHash_jsonContent rfl⟩

/-! ## The headers

A header value with a line break would end the header line early, and the text after it would read
as another header. The client puts three kinds of text into header values: text cut out of the URL
after `urlsplit` removed tab, CR and LF from it, text it writes itself (decimal, base64 and fixed
text, none of which holds them), and the client id, which it copies as it is. -/

theorem unsafe_not_mem_fixed : ∀ c ∈ unsafeUrlBytes, c ≠ '&' ∧ c ≠ '-' ∧ c.isDigit = false ∧
    c ∉ alphabet ∧ c ≠ '=' ∧ ∀ s ∈ [defaultSchemeName ++ " Client=", "SignedHeaders=",
      String.intercalate ";" defaultSignedHeaders, "Signature=", "application/json"], c ∉ s.data := by
  decide

section Headers

variable {upperCase : Char → List Char} {self : HmacClient} {now : Int} {method path : String}
  {content : Option String} {d : Dispatch}

/-- The headers `create_authenticated_headers` returns, `Content-Type` or not. -/
theorem mem_headersFor {i : SigningInput} {h : String × String}
    (hh : h ∈ self.headersFor upperCase i method content) :
    h = ("Host", i.host) ∨ h = (timeStampHeaderName, i.timestamp) ∨
      h = (contentHashHeaderName, i.contentHash) ∨
      h = ("Authorization", self.generateAuthorizationHeader defaultSignedHeaders
        (self.generateSignature (i.stringToSign upperCase method))) ∨
      h = ("Content-Type", "application/json") := by
  unfold HmacClient.headersFor at hh
  split at hh
  · simpa only [List.mem_append, List.mem_cons, List.mem_singleton, List.not_mem_nil, or_false,
      or_assoc] using hh
  · simp only [List.mem_cons, List.not_mem_nil, or_false] at hh
    rcases hh with h | h | h | h <;> simp only [h, true_or, or_true]

/-- **No header line can be injected but through the client id.** Every tab, CR or LF in a header
    value of a request `request` builds is a character of the client id, whatever the path and the
    body. -/
theorem request_headers_unsafe (hd : self.request upperCase now method path content = .ok d) :
    ∀ h ∈ d.headers, ∀ c ∈ unsafeUrlBytes, c ∈ h.2.data → c ∈ self.client.data := by
  obtain ⟨hs, hhs, rfl⟩ := except_map_eq_ok.mp hd
  obtain ⟨i, hi, rfl⟩ := createAuthenticatedHeaders_eq_ok.mp hhs
  obtain ⟨url, hurl, hi'⟩ := signingInput_eq_ok.mp hi
  intro h hh c hc hch
  obtain ⟨hamp, hminus, hdigit, halpha, hpad, hlit⟩ := unsafe_not_mem_fixed c hc
  have hb64 (data : List UInt8) : c ∉ (b64encode data).data := not_mem_b64encode halpha hpad data
  rcases mem_headersFor hh with rfl | rfl | rfl | rfl | rfl
  · rw [← hi'] at hch
    exact absurd hch (not_mem_urlparse hurl hc).1
  · rw [← hi'] at hch
    exact ((mem_decimal hch).elim hminus (by simp [hdigit])).elim
  · rw [← hi'] at hch
    exact absurd (calculateContentHash_eq content ▸ hch) (hb64 _)
  · have hsig : c ∉ (self.generateSignature (i.stringToSign upperCase method)).data := hb64 _
    generalize self.generateSignature _ = sig at hch hsig
    simp only [generateAuthorizationHeader_data, List.mem_append, List.mem_cons (b := '&')] at hch
    rcases hch with (((hl | hcl) | rfl | hl | hl) | rfl | hl | hl)
    · exact absurd hl (hlit _ (by simp))
    · exact hcl
    · exact absurd rfl hamp
    · exact absurd hl (hlit "SignedHeaders=" (by simp))
    · exact absurd hl (hlit _ (by simp))
    · exact absurd rfl hamp
    · exact absurd hl (hlit "Signature=" (by simp))
    · exact absurd hl hsig
  · exact absurd hch (hlit _ (by simp))

theorem request_headers_unsafe_test :
    (HmacClient.init "TestClient" "test-secret" "https://api.example.com").request asciiUpperCase
      1234567890 "GET" "/api/test" none = .ok testDispatch ∧
    ∀ h ∈ testDispatch.headers, ∀ c ∈ unsafeUrlBytes, c ∈ h.2.data → c ∈ "TestClient".data :=
  ⟨request_testDispatch, request_headers_unsafe request_testDispatch⟩

end Headers

/-! ## The base URL

`__init__` strips the trailing slashes of `base_url` but tests the unstripped text for `localhost`
and `127.0.0.1`. Neither test can see a trailing slash, so the slashes leave no trace. -/

/-- A text that does not end in `/` is in a text followed by slashes only if it is in the text. -/
theorem infix_append_slashes {sub l : List Char} (hsub : sub.getLast? ≠ some '/') (k : Nat) :
    sub <:+: l ++ List.replicate k '/' ↔ sub <:+: l := by
  induction k with
  | zero => simp
  | succ k ih =>
    rw [List.replicate_succ', ← List.append_assoc, List.infix_concat_iff, ih]
    refine ⟨fun h => h.elim (fun hs => ?_) id, .inr⟩
    rcases List.suffix_concat_iff.mp hs with rfl | ⟨t, rfl, -⟩
    · exact List.nil_infix
    · simp at hsub

/-- **Trailing slashes of `base_url` are not observable**: the client `HmacClient(client, secret,
    base_url + "/" * k)` is the client `HmacClient(client, secret, base_url)`, with the same base URL
    and the same certificate check, so it sends and signs every request alike. -/
theorem init_append_slashes (client secret baseUrl : String) (k : Nat) :
    HmacClient.init client secret (baseUrl ++ ⟨List.replicate k '/'⟩) =
      HmacClient.init client secret baseUrl := by
  have hrstrip : rstripSlash (baseUrl ++ ⟨List.replicate k '/'⟩) = rstripSlash baseUrl := by
    simp [rstripSlash, List.reverse_replicate]
  have hsub (sub : String) (hsub : sub.data.getLast? ≠ some '/') :
      containsSubstr (baseUrl ++ ⟨List.replicate k '/'⟩) sub = containsSubstr baseUrl sub := by
    simp only [containsSubstr, String.data_append, infix_append_slashes hsub]
  simp only [HmacClient.init, hrstrip, hsub "localhost" (by decide), hsub "127.0.0.1" (by decide)]

/-! ## The host

`create_authenticated_headers` signs, and `request` sends, the authority that `urlparse` finds in
`base_url + path`. For a `base_url` of the form `scheme://authority` followed by a base path, the
authority ends at the first `/`, `?` or `#` after the `//`: in the base path when it has one, else in
the path, whose text before it is then read as more of the authority. -/

/-- `urlsplit`'s scheme test, on the text before the first `:`. -/
def isScheme : List Char → Bool
  | c :: cs => c.isAlpha && (c :: cs).all (· ∈ schemeChars)
  | [] => false

theorem schemeChars_spec : ∀ c ∈ schemeChars,
    isC0ControlOrSpace c = false ∧ c ∉ unsafeUrlBytes ∧ c ≠ ':' := by
  decide

/-- Sanitising a URL that starts with a clean text keeps that text and cleans the rest. -/
theorem sanitize_append {a p : List Char} (ha : ∀ c ∈ a, c ∉ unsafeUrlBytes)
    (hhead : ∃ c ∈ a.head?, isC0ControlOrSpace c = false) :
    sanitize (a ++ p) = a ++ p.filter fun c => c ∉ unsafeUrlBytes := by
  obtain ⟨c, hc, hc0⟩ := hhead
  obtain ⟨cs, rfl⟩ : ∃ cs, a = c :: cs := by
    cases a with
    | nil => cases hc
    | cons c' cs => exact ⟨cs, by cases hc; rfl⟩
  rw [sanitize, List.cons_append, List.dropWhile_cons_of_neg (by simp [hc0]), ← List.cons_append,
    List.filter_append, List.filter_eq_self.mpr (by simpa using ha)]

theorem isScheme_spec {s : List Char} (hs : isScheme s) :
    ∃ c cs, s = c :: cs ∧ c.isAlpha ∧ ∀ x ∈ s, x ∈ schemeChars := by
  cases s with
  | nil => cases hs
  | cons c cs =>
    simp only [isScheme, Bool.and_eq_true, List.all_eq_true, decide_eq_true_eq] at hs
    exact ⟨c, cs, rfl, hs⟩

theorem schemeStep_append {s rest : List Char} (hs : isScheme s) :
    schemeStep (s ++ ':' :: rest) = (s.map Char.toLower, rest) := by
  obtain ⟨c, cs, rfl, hc, hall⟩ := isScheme_spec hs
  have hcolon : ':' ∉ c :: cs := fun h => (schemeChars_spec _ (hall _ h)).2.2 rfl
  simp only [schemeStep, splitFirst_append_cons hcolon]
  rw [if_pos ⟨hc, hall⟩]

theorem netlocStep_append {auth p : List Char} (ha : ∀ c ∈ auth, c ∉ netlocDelims) :
    (netlocStep ('/' :: '/' :: (auth ++ p))).1 = auth ++ p.takeWhile fun c => c ∉ netlocDelims := by
  simp only [netlocStep, List.take, if_pos, List.drop, List.span_eq_take_drop]
  exact List.takeWhile_append_of_pos fun c hc => by simpa using ha c hc

section Host

variable {self : HmacClient} {now : Int} {path : String} {content : Option String} {i : SigningInput}
  {scheme authority basePath : String}

/-- **The host is the authority, extended by what follows it up to the first `/`, `?` or `#`**, for a
    `base_url` of the form `scheme://authority` followed by a base path, with an authority free of `/`,
    `?`, `#`, tab, CR and LF. -/
theorem host_of_baseUrl (hbase : self.baseUrl = scheme ++ "://" ++ authority ++ basePath)
    (hscheme : isScheme scheme.data)
    (hauth : ∀ c ∈ authority.data, c ∉ netlocDelims ∧ c ∉ unsafeUrlBytes)
    (hi : self.signingInput now path content = .ok i) :
    i.host.data = authority.data ++
      ((basePath ++ path).data.filter fun c => c ∉ unsafeUrlBytes).takeWhile
        fun c => c ∉ netlocDelims := by
  obtain ⟨url, hurl, rfl⟩ := signingInput_eq_ok.mp hi
  obtain ⟨r, hr, rfl⟩ := except_map_eq_ok.mp hurl
  obtain ⟨-, rfl⟩ := urlsplit_eq_ok hr
  obtain ⟨c, cs, hcs, -, hsch⟩ := isScheme_spec hscheme
  have hclean : ∀ x ∈ scheme.data ++ ':' :: '/' :: '/' :: authority.data, x ∉ unsafeUrlBytes := by
    simp only [List.mem_append, List.mem_cons]
    rintro x (hx | rfl | rfl | rfl | hx)
    · exact (schemeChars_spec x (hsch x hx)).2.1
    all_goals first | decide | exact (hauth x hx).2
  have hsan : sanitize (self.baseUrl ++ path).data = scheme.data ++ ':' :: '/' :: '/' ::
      (authority.data ++ (basePath ++ path).data.filter fun c => c ∉ unsafeUrlBytes) := by
    have := sanitize_append (p := (basePath ++ path).data) hclean
      ⟨c, by simp [hcs], (schemeChars_spec c (hsch c (by simp [hcs]))).1⟩
    simpa [hbase] using this
  show (netlocStep (schemeStep (sanitize (self.baseUrl ++ path).data)).2).1 = _
  rw [hsan, schemeStep_append hscheme, netlocStep_append fun x hx => (hauth x hx).1]

/-- **The host the client signs and sends is `base_url`'s authority exactly when what follows the
    authority starts with `/`, `?` or `#`**, or is empty, once tab, CR and LF are removed from it: always
    when `base_url` has a path, and otherwise exactly when the path starts so. Otherwise the text up to
    the first such character is signed, and sent, as part of the host. -/
theorem signingInput_host_eq_iff (hbase : self.baseUrl = scheme ++ "://" ++ authority ++ basePath)
    (hscheme : isScheme scheme.data)
    (hauth : ∀ c ∈ authority.data, c ∉ netlocDelims ∧ c ∉ unsafeUrlBytes)
    (hi : self.signingInput now path content = .ok i) :
    i.host = authority ↔
      ∀ c ∈ ((basePath ++ path).data.filter fun c => c ∉ unsafeUrlBytes).head?, c ∈ netlocDelims := by
  rw [String.ext_iff, host_of_baseUrl hbase hscheme hauth hi, List.append_right_eq_self]
  cases (basePath ++ path).data.filter fun c => c ∉ unsafeUrlBytes with
  | nil => simp
  | cons c cs => by_cases hc : c ∈ netlocDelims <;> simp [List.takeWhile_cons, hc]

/-- The test client asked for `users`, without the `/`: it signs and sends the host
    `api.example.comusers`. -/
theorem signingInput_host_eq_iff_users :
    (HmacClient.init "TestClient" "test-secret" "https://api.example.com").baseUrl =
      "https" ++ "://" ++ "api.example.com" ++ "" ∧ isScheme "https".data ∧
    (∀ c ∈ "api.example.com".data, c ∉ netlocDelims ∧ c ∉ unsafeUrlBytes) ∧
    (HmacClient.init "TestClient" "test-secret" "https://api.example.com").signingInput 1234567890 "users"
      none = .ok ⟨"api.example.comusers", "", "1234567890", emptyContentHash⟩ ∧
    ("api.example.comusers" = "api.example.com" ↔
      ∀ c ∈ (("" ++ "users").data.filter fun c => c ∉ unsafeUrlBytes).head?, c ∈ netlocDelims) :=
  ⟨by decide, by decide, by decide, rfl,
    @signingInput_host_eq_iff (HmacClient.init "TestClient" "test-secret" "https://api.example.com")
      1234567890 "users" none ⟨"api.example.comusers", "", "1234567890", emptyContentHash⟩ "https"
      "api.example.com" "" (by decide) (by decide) (by decide) rfl⟩

end Host

/-! ## Trailing NULs of the secret

`hmac` fills a key shorter than its 64-byte block with zero bytes, so a key and the same key followed
by zero bytes, up to the block, are one key. -/

theorem hmacSha256_append_zeros (key msg : List UInt8) {j : Nat} (h : key.length + j ≤ 64) :
    hmacSha256 (key ++ List.replicate j 0) msg = hmacSha256 key msg := by
  have hpad : key ++ List.replicate j 0 ++ List.replicate (64 - (key.length + j)) 0 =
      key ++ List.replicate (64 - key.length) 0 := by
    rw [List.append_assoc, ← List.replicate_add]
    congr 2
    omega
  simp only [hmacSha256, List.length_append, List.length_replicate,
    if_neg (show ¬key.length + j > 64 by omega), if_neg (show ¬key.length > 64 by omega), hpad]

theorem encodeUtf8_append (s t : String) : encodeUtf8 (s ++ t) = encodeUtf8 s ++ encodeUtf8 t := by
  simp [encodeUtf8_eq]

theorem encodeUtf8_nuls (j : Nat) : encodeUtf8 ⟨List.replicate j '\x00'⟩ = List.replicate j 0 := by
  rw [encodeUtf8_eq]
  induction j with
  | zero => rfl
  | succ j ih => simp [List.replicate_succ, utf8EncodeChar_of_lt (show '\x00'.toNat < 0x80 by decide), ih]

/-- **Secrets that differ by trailing NULs sign alike.** Two clients whose secrets differ by NUL
    characters at the end, within the 64 bytes of the HMAC block, compute the same signature for every
    string-to-sign, so no verifier can tell the two secrets apart. -/
theorem generateSignature_secret_nul (client secret baseUrl : String) {j : Nat}
    (h : (encodeUtf8 secret).length + j ≤ 64) (s : String) :
    (HmacClient.init client (secret ++ ⟨List.replicate j '\x00'⟩) baseUrl).generateSignature s =
      (HmacClient.init client secret baseUrl).generateSignature s := by
  simp only [HmacClient.generateSignature, HmacClient.init, encodeUtf8_append, encodeUtf8_nuls,
    hmacSha256_append_zeros _ _ h]

theorem generateSignature_secret_nul_test :
    (encodeUtf8 "test-secret").length + 1 ≤ 64 ∧
    (HmacClient.init "TestClient" ("test-secret" ++ ⟨List.replicate 1 '\x00'⟩)
        "https://api.example.com").generateSignature "GET\n/api/test\napi.example.com;1234567890;" =
      (HmacClient.init "TestClient" "test-secret" "https://api.example.com").generateSignature
        "GET\n/api/test\napi.example.com;1234567890;" :=
  ⟨by decide, generateSignature_secret_nul _ _ _ (by decide) _⟩

end HashGate
