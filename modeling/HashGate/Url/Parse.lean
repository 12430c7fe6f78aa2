import HashGate.Prelude.Str

/-!
# `HashGate.Url.Parse` — `urllib.parse.urlsplit` and `urlparse`

The client learns the host and the path it signs from `urlparse(self.base_url + path)`, not from the
URL it hands to the transport. This module models CPython 3.12's `urlsplit` and `urlparse` on the
characters of the URL: the WHATWG sanitising (leading C0 controls and spaces stripped, tab, CR and LF
removed everywhere), the scheme, the `//` authority, the fragment, the query, and — for the schemes in
`uses_params` — the `;params` cut off the last path segment.

Two checks of the library raise `ValueError` on unusual hosts and are not modelled: the IPv6/IPvFuture
literal parse of a bracketed host (`_check_bracketed_netloc`) and the NFKC test of a non-ASCII host
(`_checknetloc`). Both only turn a result into an error, so every fact below about a successful parse
holds for the library.

## Contents
- `urlsplit`, `splitparams`, `urlparse`.
- `not_mem_urlparse`: no field of a parse holds a tab, CR or LF.
- `ofSplit_path_eq_iff`: `urlparse` shortens the path exactly when the scheme is in `uses_params` and
  the last segment holds a `;`.
-/

namespace HashGate

/-! ## `urlsplit` -/

/-- `_WHATWG_C0_CONTROL_OR_SPACE`: the characters `\x00` … `' '`, stripped from the left. -/
def isC0ControlOrSpace (c : Char) : Bool := c.toNat ≤ 0x20

/-- `_UNSAFE_URL_BYTES_TO_REMOVE`, removed everywhere. -/
def unsafeUrlBytes : List Char := ['\t', '\r', '\n']

/-- `scheme_chars`. -/
def schemeChars : List Char :=
  "abcdefghijklmnopqrstuvwxyzABCDEFGHIJKLMNOPQRSTUVWXYZ0123456789+-.".data

/-- The characters that end the authority in `_splitnetloc`. -/
def netlocDelims : List Char := ['/', '?', '#']

/-- The URL after `lstrip(_WHATWG_C0_CONTROL_OR_SPACE)` and the removal of tab, CR and LF. -/
def sanitize (url : List Char) : List Char :=
  (url.dropWhile isC0ControlOrSpace).filter fun c => c ∉ unsafeUrlBytes

/-- `if d in u: u, x = u.split(d, 1)`: the text before the first `d` and after it, or `u` and `""`. -/
def cutAt (d : Char) (u : List Char) : List Char × List Char :=
  (splitFirst d u).getD (u, [])

/-- The scheme test of `urlsplit`: the text before the first `:` is the scheme when it is non-empty,
    starts with an ASCII letter and uses only `scheme_chars`; it is lower-cased and cut off. -/
def schemeStep (url : List Char) : List Char × List Char :=
  match splitFirst ':' url with
  | some (c :: cs, rest) =>
    if c.isAlpha ∧ ∀ x ∈ c :: cs, x ∈ schemeChars then ((c :: cs).map Char.toLower, rest) else ([], url)
  | _ => ([], url)

/-- `if url[:2] == '//': netloc, url = _splitnetloc(url, 2)`: the authority runs to the first `/`,
    `?` or `#`. -/
def netlocStep (url : List Char) : List Char × List Char :=
  if url.take 2 = ['/', '/'] then (url.drop 2).span fun c => c ∉ netlocDelims else ([], url)

/-- The `Invalid IPv6 URL` test: a bracket without its partner. -/
def bracketsUnbalanced (netloc : List Char) : Prop :=
  ('[' ∈ netloc ∧ ']' ∉ netloc) ∨ (']' ∈ netloc ∧ '[' ∉ netloc)

instance (netloc : List Char) : Decidable (bracketsUnbalanced netloc) :=
  inferInstanceAs (Decidable (_ ∨ _))

/-- Python `urllib.parse.SplitResult`. -/
structure SplitResult where
  scheme : String
  netloc : String
  path : String
  query : String
  fragment : String
  deriving DecidableEq, Repr

/-- Python `urllib.parse.urlsplit(url)` (CPython 3.12, `allow_fragments=True`). -/
def urlsplit (url : String) : Except String SplitResult :=
  let scheme := schemeStep (sanitize url.data)
  let netloc := netlocStep scheme.2
  let fragment := cutAt '#' netloc.2
  let query := cutAt '?' fragment.1
  if bracketsUnbalanced netloc.1 then .error "Invalid IPv6 URL"
  else .ok ⟨⟨scheme.1⟩, ⟨netloc.1⟩, ⟨query.1⟩, ⟨query.2⟩, ⟨fragment.2⟩⟩

/-! ## `urlparse` -/

/-- `uses_params`: the schemes whose last path segment may carry `;params`. -/
def usesParams : List String :=
  ["", "ftp", "hdl", "prospero", "http", "imap", "https", "shttp", "rtsp", "rtsps", "rtspu", "sip",
   "sips", "mms", "sftp", "tel"]

/-- `_splitparams(url)`: with a `/`, cut at the first `;` after the last `/`; without one, at the
    first `;`. (Without any `;` the source's `find` returns `-1`; `urlparse` never calls it so.) -/
def splitparams (url : List Char) : List Char × List Char :=
  match splitFirst '/' url.reverse with
  | some (seg, dir) =>
    match splitFirst ';' seg.reverse with
    | some (p, params) => (dir.reverse ++ '/' :: p, params)
    | none => (url, [])
  | none =>
    match splitFirst ';' url with
    | some (p, params) => (p, params)
    | none => (url.dropLast, url)

/-- Python `urllib.parse.ParseResult`. -/
structure ParseResult where
  scheme : String
  netloc : String
  path : String
  params : String
  query : String
  fragment : String
  deriving DecidableEq, Repr

/-- The step of `urlparse` after `urlsplit`. -/
def ParseResult.ofSplit (r : SplitResult) : ParseResult :=
  let (path, params) :=
    if r.scheme ∈ usesParams ∧ ';' ∈ r.path.data then splitparams r.path.data else (r.path.data, [])
  ⟨r.scheme, r.netloc, ⟨path⟩, ⟨params⟩, r.query, r.fragment⟩

/-- Python `urllib.parse.urlparse(url)`. -/
def urlparse (url : String) : Except String ParseResult :=
  (urlsplit url).map ParseResult.ofSplit

example : urlparse "https://api.example.com/api/test?x=1#top" =
    .ok ⟨"https", "api.example.com", "/api/test", "", "x=1", "top"⟩ := by rfl
example : urlparse "https://api.example.com/a;b/users;v=2" =
    .ok ⟨"https", "api.example.com", "/a;b/users", "v=2", "", ""⟩ := by rfl

/-! ## What a parse is made of

Every field of a parse, the scheme aside, is cut out of the sanitised URL; so a character that
sanitising removes is in no field. -/

section Parts

variable {d : Char} {u : List Char}

theorem cutAt_subset : (cutAt d u).1 ⊆ u ∧ (cutAt d u).2 ⊆ u := by
  unfold cutAt
  cases h : splitFirst d u with
  | none => simp
  | some p => exact subset_of_splitFirst_eq_some h

theorem schemeStep_subset : (schemeStep u).2 ⊆ u := by
  unfold schemeStep
  split
  · split
    · exact (subset_of_splitFirst_eq_some ‹_›).2
    · exact List.Subset.refl _
  · exact List.Subset.refl _

theorem netlocStep_subset : (netlocStep u).1 ⊆ u ∧ (netlocStep u).2 ⊆ u := by
  unfold netlocStep
  split
  · simp only [List.span_eq_take_drop]
    exact ⟨((List.takeWhile_sublist _).trans (List.drop_sublist _ _)).subset,
      ((List.dropWhile_sublist _).trans (List.drop_sublist _ _)).subset⟩
  · simp

theorem splitparams_subset : (splitparams u).1 ⊆ u ∧ (splitparams u).2 ⊆ u := by
  unfold splitparams
  split
  · rename_i seg dir hseg
    have hu : u = dir.reverse ++ '/' :: seg.reverse := by
      simpa using congrArg List.reverse (eq_of_splitFirst_eq_some hseg).1
    split
    · rename_i p params hp
      rw [(eq_of_splitFirst_eq_some hp).1] at hu
      subst hu
      refine ⟨fun c hc => ?_, fun c hc => ?_⟩ <;> simp at hc ⊢ <;> tauto
    · simp
  · split
    · exact subset_of_splitFirst_eq_some ‹_›
    · exact ⟨(List.dropLast_sublist _).subset, List.Subset.refl _⟩

end Parts

/-- **Inversion of `urlsplit`.** A successful split is the five stages applied in turn. -/
theorem urlsplit_eq_ok {url : String} {r : SplitResult} (h : urlsplit url = .ok r) :
    ¬bracketsUnbalanced (netlocStep (schemeStep (sanitize url.data)).2).1 ∧
    r = ⟨⟨(schemeStep (sanitize url.data)).1⟩, ⟨(netlocStep (schemeStep (sanitize url.data)).2).1⟩,
      ⟨(cutAt '?' (cutAt '#' (netlocStep (schemeStep (sanitize url.data)).2).2).1).1⟩,
      ⟨(cutAt '?' (cutAt '#' (netlocStep (schemeStep (sanitize url.data)).2).2).1).2⟩,
      ⟨(cutAt '#' (netlocStep (schemeStep (sanitize url.data)).2).2).2⟩⟩ := by
  simp only [urlsplit] at h
  split at h
  · cases h
  · cases h
    exact ⟨‹_›, rfl⟩

/-- The host, path and query of a split are made of characters of the sanitised URL. -/
theorem subset_sanitize_of_urlsplit {url : String} {r : SplitResult} (h : urlsplit url = .ok r) :
    r.netloc.data ⊆ sanitize url.data ∧ r.path.data ⊆ sanitize url.data ∧
      r.query.data ⊆ sanitize url.data := by
  obtain ⟨-, rfl⟩ := urlsplit_eq_ok h
  have hn := netlocStep_subset (u := (schemeStep (sanitize url.data)).2)
  have hf := List.Subset.trans
    (cutAt_subset (d := '#') (u := (netlocStep (schemeStep (sanitize url.data)).2).2)).1
    (List.Subset.trans hn.2 schemeStep_subset)
  have hq := cutAt_subset (d := '?') (u := (cutAt '#' (netlocStep (schemeStep (sanitize url.data)).2).2).1)
  exact ⟨List.Subset.trans hn.1 schemeStep_subset, List.Subset.trans hq.1 hf, List.Subset.trans hq.2 hf⟩

theorem ofSplit_path_subset (r : SplitResult) : (ParseResult.ofSplit r).path.data ⊆ r.path.data := by
  simp only [ParseResult.ofSplit]
  split
  · exact splitparams_subset.1
  · exact List.Subset.refl _

/-! ## Where `urlparse` cuts the path -/

/-- The last segment of a path: what follows its last `/`, or the whole path when it has none. -/
def lastSegment (path : List Char) : List Char := ((splitLast '/' path).map Prod.snd).getD path

theorem lastSegment_subset (path : List Char) : lastSegment path ⊆ path := by
  unfold lastSegment splitLast
  cases h : splitFirst '/' path.reverse with
  | none => exact List.Subset.refl _
  | some p => simpa using fun c hc => List.mem_reverse.mp ((subset_of_splitFirst_eq_some h).1 hc)

/-- **`_splitparams` cuts exactly when the last segment holds a `;`.** On a path with a `;`, the path
    it keeps is the whole path if and only if the last segment holds none. -/
theorem splitparams_fst_eq_iff {u : List Char} (hu : ';' ∈ u) :
    (splitparams u).1 = u ↔ ';' ∉ lastSegment u := by
  unfold splitparams lastSegment splitLast
  cases h₁ : splitFirst '/' u.reverse with
  | some p =>
    obtain ⟨seg, dir⟩ := p
    have hu' : u = dir.reverse ++ '/' :: seg.reverse := by
      simpa using congrArg List.reverse (eq_of_splitFirst_eq_some h₁).1
    simp only [Option.map_some', Option.getD_some]
    cases h₂ : splitFirst ';' seg.reverse with
    | some q =>
      -- the last segment is `p ++ ';' :: params`, and the kept path is shorter than the path
      obtain ⟨p, params⟩ := q
      have hs := (eq_of_splitFirst_eq_some h₂).1
      simp only [hs, List.mem_append, List.mem_cons, true_or, or_true, not_true_eq_false, iff_false]
      intro he
      have := congrArg List.length (he.trans hu')
      simp [hs] at this
    | none => simp [not_mem_of_splitFirst_eq_none h₂]
  | none =>
    simp only [Option.map_none', Option.getD_none, hu, not_true_eq_false, iff_false]
    cases h₂ : splitFirst ';' u with
    | some q =>
      obtain ⟨p, params⟩ := q
      intro he
      simp only at he
      have := congrArg List.length (eq_of_splitFirst_eq_some h₂).1
      simp [he] at this
    | none => exact absurd hu (not_mem_of_splitFirst_eq_none h₂)

/-- `urlparse` keeps `urlsplit`'s path exactly when it cuts no `;params` off it: unless the scheme is
    in `uses_params` and the last segment holds a `;`. -/
theorem ofSplit_path_eq_iff (r : SplitResult) :
    (ParseResult.ofSplit r).path = r.path ↔
      ¬(r.scheme ∈ usesParams ∧ ';' ∈ lastSegment r.path.data) := by
  simp only [ParseResult.ofSplit]
  split
  · rename_i hc
    simp [String.ext_iff, splitparams_fst_eq_iff hc.2, hc.1]
  · rename_i hc
    simp only [true_iff]
    exact fun ⟨hs, hl⟩ => hc ⟨hs, lastSegment_subset _ hl⟩

/-- The host, path and query of a parse are made of characters of the sanitised URL. -/
theorem subset_sanitize_of_urlparse {url : String} {r : ParseResult} (h : urlparse url = .ok r) :
    r.netloc.data ⊆ sanitize url.data ∧ r.path.data ⊆ sanitize url.data ∧
      r.query.data ⊆ sanitize url.data := by
  obtain ⟨s, hs, rfl⟩ := except_map_eq_ok.mp h
  obtain ⟨hn, hp, hq⟩ := subset_sanitize_of_urlsplit hs
  exact ⟨hn, List.Subset.trans (ofSplit_path_subset s) hp, hq⟩

theorem not_mem_sanitize {c : Char} (hc : c ∈ unsafeUrlBytes) (url : List Char) : c ∉ sanitize url := by
  simp [sanitize, List.mem_filter, hc]

/-- **No field of a parse holds a tab, CR or LF**: `urlsplit` removed them from the whole URL. -/
theorem not_mem_urlparse {url : String} {r : ParseResult} (h : urlparse url = .ok r) {c : Char}
    (hc : c ∈ unsafeUrlBytes) : c ∉ r.netloc.data ∧ c ∉ r.path.data ∧ c ∉ r.query.data := by
  obtain ⟨hn, hp, hq⟩ := subset_sanitize_of_urlparse h
  exact ⟨fun h => not_mem_sanitize hc _ (hn h), fun h => not_mem_sanitize hc _ (hp h),
    fun h => not_mem_sanitize hc _ (hq h)⟩

end HashGate
