import HashGate.Client
import HashGate.Url.Target

/-!
# `HashGate.Correctness.Target` — the signed path against the path on the wire

`request` sends `base_url + path` as it is, while `create_authenticated_headers` signs a path rebuilt
from `urlparse(base_url + path)`: `url.path`, then `?` and `url.query` when the query is not empty. The
rebuilt path is the request target exactly when `urlparse` left the URL whole. It does not when

* the scheme is in `uses_params` and the last path segment holds a `;` — `urlparse` moves the text
  after it to `params`, which the client never signs (`signingInput_drops_params`);
* the URL needs sanitising — a tab, CR or LF anywhere, or a leading control character or space.

Otherwise the two agree (`pathAndQuery_eq_requestTarget`).

## Contents
- `pathAndQuery_eq_requestTarget`: agreement on URLs whose target holds no `;` and that need no
  sanitising.
- `signingInput_drops_params`: the test client at `/users;v=2`.
- `pathAndQuery_eq_requestTarget_iff`: on URLs that need no sanitising, agreement exactly when no
  `;params` are cut.
-/

namespace HashGate

/-! ## The signed path -/

/-- **The signed path is the path on the wire** whenever the URL's request target holds no `;` and the
    URL needs no sanitising: the path-and-query `create_authenticated_headers` signs is the request
    target of the URL `request` sends. -/
theorem pathAndQuery_eq_requestTarget {self : HmacClient} {now : Int} {path : String}
    {content : Option String} {i : SigningInput}
    (hsan : sanitize (self.baseUrl ++ path).data = (self.baseUrl ++ path).data)
    (hsemi : ';' ∉ (requestTarget (self.baseUrl ++ path)).data)
    (h : self.signingInput now path content = .ok i) :
    i.pathAndQuery = requestTarget (self.baseUrl ++ path) := by
  obtain ⟨url, hurl, rfl⟩ := signingInput_eq_ok.mp h
  obtain ⟨r, hr, rfl⟩ := except_map_eq_ok.mp hurl
  rw [requestTarget_eq_split hsan hr] at hsemi ⊢
  have hp : ';' ∉ r.path.data := fun hp => hsemi (by simp [hp])
  simp [pathAndQueryOf, ParseResult.ofSplit, hp]

/-- The test client's `/api/test?x=1`: signed and sent alike. -/
example : ("/api/test?x=1" : String) =
    requestTarget ((HmacClient.init "TestClient" "test-secret" "https://api.example.com").baseUrl ++
      "/api/test?x=1") := by
  decide

/-- **The `;params` of the last segment are not signed.** The test client's request for `/users;v=2`
    goes to `https://api.example.com/users;v=2`, whose target is `/users;v=2`, but the path it signs is
    `/users`. -/
theorem signingInput_drops_params :
    ((HmacClient.init "TestClient" "test-secret" "https://api.example.com").signingInput 1234567890
      "/users;v=2" none).map SigningInput.pathAndQuery = .ok "/users" ∧
    ((HmacClient.init "TestClient" "test-secret" "https://api.example.com").request asciiUpperCase
      1234567890 "GET" "/users;v=2" none).map Dispatch.url = .ok "https://api.example.com/users;v=2" ∧
    requestTarget "https://api.example.com/users;v=2" = "/users;v=2" :=
  ⟨rfl, rfl, by decide⟩

/-- **Exactly the `;params` of the last segment go unsigned.** On a URL that needs no sanitising, the
    path and query the client signs are the request target of the URL it sends if and only if the
    scheme is not one of `uses_params` (`http` and `https` are) or the last path segment holds no
    `;`. -/
theorem pathAndQuery_eq_requestTarget_iff {self : HmacClient} {now : Int} {path : String}
    {content : Option String} {i : SigningInput} {r : SplitResult}
    (hsan : sanitize (self.baseUrl ++ path).data = (self.baseUrl ++ path).data)
    (hr : urlsplit (self.baseUrl ++ path) = .ok r) (h : self.signingInput now path content = .ok i) :
    i.pathAndQuery = requestTarget (self.baseUrl ++ path) ↔
      ¬(r.scheme ∈ usesParams ∧ ';' ∈ lastSegment r.path.data) := by
  obtain ⟨url, hurl, rfl⟩ := signingInput_eq_ok.mp h
  obtain ⟨s, hs, rfl⟩ := except_map_eq_ok.mp hurl
  obtain rfl : r = s := Except.ok.inj (hr.symm.trans hs)
  have hq : (ParseResult.ofSplit r).query = r.query := rfl
  rw [requestTarget_eq_split hsan hr, ← ofSplit_path_eq_iff]
  simp only [pathAndQueryOf, hq, String.ext_iff, String.data_append, List.append_left_inj]

/-- The test client at `/users;v=2`: `https` is in `uses_params` and `users;v=2` holds a `;`. -/
theorem pathAndQuery_eq_requestTarget_iff_users :
    (("/users" : String) = requestTarget
        ((HmacClient.init "TestClient" "test-secret" "https://api.example.com").baseUrl ++ "/users;v=2") ↔
      ¬(("https" : String) ∈ usesParams ∧ ';' ∈ lastSegment "/users;v=2".data)) :=
  pathAndQuery_eq_requestTarget_iff (by decide)
    (show urlsplit ((HmacClient.init "TestClient" "test-secret" "https://api.example.com").baseUrl ++
      "/users;v=2") = .ok ⟨"https", "api.example.com", "/users;v=2", "", ""⟩ from rfl)
    (show (HmacClient.init "TestClient" "test-secret" "https://api.example.com").signingInput 1234567890
      "/users;v=2" none = .ok ⟨"api.example.com", "/users", "1234567890", emptyContentHash⟩ from rfl)

end HashGate
