import HashGate.Client

/-!
# `HashGate.Correctness.Authorization` — the `Authorization` header is unambiguous

`HMAC Client={client}&SignedHeaders={h1;h2;…}&Signature={signature}` escapes nothing, and a client id
may hold `&` and `=`. It is still read uniquely, from the right: a signature is base64 and holds no `&`,
and neither do `Signature=`, `SignedHeaders=` or a list of header names free of `&`. So the last `&`
starts the signature field, the one before it starts the header list, and the client id is what
remains; splitting the list on `;` gives back the names.

## Contents
- `eq_of_generateAuthorizationHeader_eq`: for any signatures free of `&`.
- `generateAuthorizationHeader_injective`: for signatures made by `generate_signature`.
-/

namespace HashGate

/-- **Two cuts from the right.** Equal headers with `&`-free signatures and listable names have equal
    client ids, name lists and signatures. -/
theorem eq_of_generateAuthorizationHeader_eq {self₁ self₂ : HmacClient} {H₁ H₂ : List String}
    {s₁ s₂ : String} (hH₁ : ∀ n ∈ H₁, ListableName n) (hH₂ : ∀ n ∈ H₂, ListableName n)
    (hs₁ : '&' ∉ s₁.data) (hs₂ : '&' ∉ s₂.data)
    (h : self₁.generateAuthorizationHeader H₁ s₁ = self₂.generateAuthorizationHeader H₂ s₂) :
    self₁.client = self₂.client ∧ H₁ = H₂ ∧ s₁ = s₂ := by
  have e := congrArg String.data h
  rw [generateAuthorizationHeader_data, generateAuthorizationHeader_data] at e
  have hsig (s : String) (hs : '&' ∉ s.data) : '&' ∉ "Signature=".data ++ s.data := by simpa using hs
  have hlist (l : List String) (hl : ∀ n ∈ l, ListableName n) :
      '&' ∉ "SignedHeaders=".data ++ (String.intercalate ";" l).data := by
    simpa using ampersand_not_mem_intercalate hl
  obtain ⟨e, hs⟩ := append_cons_cancel_right (hsig s₁ hs₁) (hsig s₂ hs₂) e
  obtain ⟨hc, hl⟩ := append_cons_cancel_right (hlist H₁ hH₁) (hlist H₂ hH₂) e
  have hJ : String.intercalate ⟨[';']⟩ H₁ = String.intercalate ⟨[';']⟩ H₂ :=
    String.ext (List.append_cancel_left hl)
  exact ⟨String.ext (List.append_cancel_left hc),
    intercalate_injective (fun n hn => ⟨(hH₁ n hn).1, (hH₁ n hn).2.1⟩)
      (fun n hn => ⟨(hH₂ n hn).1, (hH₂ n hn).2.1⟩) hJ,
    String.ext (List.append_cancel_left hs)⟩

/-- **The `Authorization` header is unambiguous.** For any two clients (any ids, `&` and `=`
    included), any two lists of listable header names, and any two signatures produced by
    `generate_signature`: equal headers have equal client ids, name lists and signatures. -/
theorem generateAuthorizationHeader_injective {self₁ self₂ signer₁ signer₂ : HmacClient}
    {H₁ H₂ : List String} {sts₁ sts₂ : String}
    (hH₁ : ∀ n ∈ H₁, ListableName n) (hH₂ : ∀ n ∈ H₂, ListableName n)
    (h : self₁.generateAuthorizationHeader H₁ (signer₁.generateSignature sts₁) =
      self₂.generateAuthorizationHeader H₂ (signer₂.generateSignature sts₂)) :
    self₁.client = self₂.client ∧ H₁ = H₂ ∧
      signer₁.generateSignature sts₁ = signer₂.generateSignature sts₂ :=
  eq_of_generateAuthorizationHeader_eq hH₁ hH₂ (ampersand_not_mem_generateSignature _ _)
    (ampersand_not_mem_generateSignature _ _) h

/-- A client id holding `&` and `=`, with the default signed headers. -/
theorem generateAuthorizationHeader_injective_test :
    (HmacClient.init "ops&team=1" "test-secret" defaultBaseUrl).client =
        (HmacClient.init "ops&team=1" "test-secret" defaultBaseUrl).client ∧
      defaultSignedHeaders = defaultSignedHeaders ∧
      (HmacClient.init "ops&team=1" "test-secret" defaultBaseUrl).generateSignature "GET\n/\nh;1;x" =
        (HmacClient.init "ops&team=1" "test-secret" defaultBaseUrl).generateSignature "GET\n/\nh;1;x" :=
  generateAuthorizationHeader_injective (by decide) (by decide) rfl

end HashGate
