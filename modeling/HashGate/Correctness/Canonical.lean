import HashGate.Client

/-!
# `HashGate.Correctness.Canonical` — the string-to-sign determines the signed request

`create_string_to_sign` joins its parts with `\n` and `;` and escapes nothing, so a method may hold a
newline and a host may hold a `;`. The string can still be decoded — from the right. The content hash
is base64 or `EMPTY_CONTENT_HASH` and the timestamp is `str` of an `int`: neither holds a `;`, so the
last two `;` are the two separators. The host and the path hold no newline, so the last two `\n` are
the two line breaks, and what remains is the upper-cased method.

## Contents
- `eq_of_createStringToSign_eq`: four cuts from the right, one per `append_cons_cancel_right`.
- `createStringToSign_injective`: the statement over the values `create_authenticated_headers` signs.
- `SigningInput.stringToSign_injective`: the same, for whole requests, with the newline-freedom of the
  host and path taken from `urlparse` instead of assumed.
-/

namespace HashGate

section Cuts

variable (upperCase : Char → List Char)

/-- **Four cuts from the right.** Equal strings-to-sign whose two last header values hold no `;` and
    whose host and path hold no newline have equal parts. -/
theorem eq_of_createStringToSign_eq {m₁ m₂ p₁ p₂ h₁ h₂ t₁ t₂ c₁ c₂ : String}
    (hp₁ : '\n' ∉ p₁.data) (hp₂ : '\n' ∉ p₂.data) (hh₁ : '\n' ∉ h₁.data) (hh₂ : '\n' ∉ h₂.data)
    (ht₁ : ';' ∉ t₁.data) (ht₂ : ';' ∉ t₂.data) (hc₁ : ';' ∉ c₁.data) (hc₂ : ';' ∉ c₂.data)
    (h : createStringToSign upperCase m₁ p₁ [h₁, t₁, c₁] = createStringToSign upperCase m₂ p₂ [h₂, t₂, c₂]) :
    upper upperCase m₁ = upper upperCase m₂ ∧ p₁ = p₂ ∧ h₁ = h₂ ∧ t₁ = t₂ ∧ c₁ = c₂ := by
  have e := congrArg String.data h
  rw [createStringToSign_data, createStringToSign_data] at e
  obtain ⟨e, hc⟩ := append_cons_cancel_right hc₁ hc₂ e
  obtain ⟨e, ht⟩ := append_cons_cancel_right ht₁ ht₂ e
  obtain ⟨e, hh⟩ := append_cons_cancel_right hh₁ hh₂ e
  obtain ⟨hm, hp⟩ := append_cons_cancel_right hp₁ hp₂ e
  exact ⟨String.ext hm, String.ext hp, String.ext hh, String.ext ht, String.ext hc⟩

/-- **The string-to-sign determines the signed request.** For newline-free hosts and paths, any
    methods, clock readings and bodies: equal strings-to-sign have equal upper-cased methods, paths,
    hosts, clock readings and content hashes. -/
theorem createStringToSign_injective {m₁ m₂ p₁ p₂ h₁ h₂ : String} {t₁ t₂ : Int} {c₁ c₂ : Option String}
    (hp₁ : '\n' ∉ p₁.data) (hp₂ : '\n' ∉ p₂.data) (hh₁ : '\n' ∉ h₁.data) (hh₂ : '\n' ∉ h₂.data)
    (h : createStringToSign upperCase m₁ p₁ [h₁, toString t₁, calculateContentHash c₁] =
      createStringToSign upperCase m₂ p₂ [h₂, toString t₂, calculateContentHash c₂]) :
    upper upperCase m₁ = upper upperCase m₂ ∧ p₁ = p₂ ∧ h₁ = h₂ ∧ t₁ = t₂ ∧
      calculateContentHash c₁ = calculateContentHash c₂ := by
  obtain ⟨hm, hp, hh, ht, hc⟩ := eq_of_createStringToSign_eq upperCase hp₁ hp₂ hh₁ hh₂
    (semicolon_not_mem_decimal t₁) (semicolon_not_mem_decimal t₂)
    (semicolon_not_mem_calculateContentHash c₁) (semicolon_not_mem_calculateContentHash c₂) h
  exact ⟨hm, hp, hh, decimal_injective ht, hc⟩

/-- `get` and `GET` sign the same string for the same target, clock and body. -/
theorem createStringToSign_injective_get :
    '\n' ∉ "/api/test".data ∧ '\n' ∉ "api.example.com".data ∧
      (upper asciiUpperCase "get" = upper asciiUpperCase "GET" ∧ "/api/test" = "/api/test" ∧
        "api.example.com" = "api.example.com" ∧ (1234567890 : Int) = 1234567890 ∧
        calculateContentHash none = calculateContentHash none) :=
  ⟨by decide, by decide, createStringToSign_injective asciiUpperCase (by decide) (by decide) (by decide)
    (by decide) (by decide)⟩

/-! ## Whole requests -/

theorem newline_not_mem_pathAndQueryOf {u : String} {url : ParseResult} (h : urlparse u = .ok url) :
    '\n' ∉ (pathAndQueryOf url).data := by
  obtain ⟨-, hp, hq⟩ := not_mem_urlparse h (c := '\n') (by decide)
  simp only [pathAndQueryOf]
  split <;> simp [hp, hq]

/-- The separators a signed input cannot hold: no newline in its host and path, no `;` in its
    timestamp and content hash. -/
theorem signingInput_separators {self : HmacClient} {now : Int} {path : String}
    {content : Option String} {i : SigningInput} (h : self.signingInput now path content = .ok i) :
    '\n' ∉ i.host.data ∧ '\n' ∉ i.pathAndQuery.data ∧ ';' ∉ i.timestamp.data ∧
      ';' ∉ i.contentHash.data := by
  obtain ⟨u, hu, rfl⟩ := signingInput_eq_ok.mp h
  exact ⟨(not_mem_urlparse hu (by decide)).1, newline_not_mem_pathAndQueryOf hu,
    semicolon_not_mem_decimal now, semicolon_not_mem_calculateContentHash content⟩

/-- **A request's string-to-sign determines it.** For any two requests that `create_authenticated_headers`
    signs — any clients, paths, methods, clock readings and bodies — equal strings-to-sign mean equal
    upper-cased methods, equal signed inputs (host, path and query, timestamp, content hash) and equal
    clock readings. `urlparse` supplies the newline-freedom of host and path. -/
theorem SigningInput.stringToSign_injective {c₁ c₂ : HmacClient} {now₁ now₂ : Int}
    {m₁ m₂ path₁ path₂ : String} {b₁ b₂ : Option String} {i₁ i₂ : SigningInput}
    (h₁ : c₁.signingInput now₁ path₁ b₁ = .ok i₁) (h₂ : c₂.signingInput now₂ path₂ b₂ = .ok i₂)
    (h : i₁.stringToSign upperCase m₁ = i₂.stringToSign upperCase m₂) :
    upper upperCase m₁ = upper upperCase m₂ ∧ i₁ = i₂ ∧ now₁ = now₂ := by
  obtain ⟨hh₁, hp₁, ht₁, hc₁⟩ := signingInput_separators h₁
  obtain ⟨hh₂, hp₂, ht₂, hc₂⟩ := signingInput_separators h₂
  obtain ⟨hm, hp, hh, ht, hc⟩ := eq_of_createStringToSign_eq upperCase hp₁ hp₂ hh₁ hh₂ ht₁ ht₂ hc₁ hc₂ h
  obtain ⟨u₁, -, rfl⟩ := signingInput_eq_ok.mp h₁
  obtain ⟨u₂, -, rfl⟩ := signingInput_eq_ok.mp h₂
  dsimp only at hp hh ht hc
  exact ⟨hm, by rw [hp, hh, ht, hc], decimal_injective ht⟩

/-- The test client's request for `/api/test` at `1234567890`, signed as `get` and as `GET`. -/
theorem stringToSign_injective_test :
    upper asciiUpperCase "get" = upper asciiUpperCase "GET" ∧
      (⟨"api.example.com", "/api/test", "1234567890", emptyContentHash⟩ : SigningInput) =
        ⟨"api.example.com", "/api/test", "1234567890", emptyContentHash⟩ ∧
      (1234567890 : Int) = 1234567890 :=
  SigningInput.stringToSign_injective asciiUpperCase
    (show (HmacClient.init "TestClient" "test-secret" "https://api.example.com").signingInput
      1234567890 "/api/test" none = .ok ⟨"api.example.com", "/api/test", "1234567890", emptyContentHash⟩
      from rfl)
    (show (HmacClient.init "TestClient" "test-secret" "https://api.example.com").signingInput
      1234567890 "/api/test" none = .ok ⟨"api.example.com", "/api/test", "1234567890", emptyContentHash⟩
      from rfl)
    (show SigningInput.stringToSign asciiUpperCase ⟨"api.example.com", "/api/test", "1234567890",
        emptyContentHash⟩ "get" = SigningInput.stringToSign asciiUpperCase ⟨"api.example.com",
        "/api/test", "1234567890", emptyContentHash⟩ "GET" from by decide)

end Cuts

end HashGate
