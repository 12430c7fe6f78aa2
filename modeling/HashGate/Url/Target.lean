import HashGate.Url.Parse

/-!
# `HashGate.Url.Target` — the request target of a URL

What goes on the request line for a URL: everything after the scheme and the authority, up to the first
`#`, with the `?` of an empty query dropped. The scheme and the authority are those `urlsplit`'s
`schemeStep` and `netlocStep` find, so on a URL that `urlsplit` need not sanitise the target is read
off its path and query (`requestTarget_eq_split`).

## Contents
- `dropEmptyQuery`, `requestTarget`.
- `cutAt_fst_eq_takeWhile`, `dropEmptyQuery_eq`, `requestTarget_eq_split`.
-/

namespace HashGate

/-- The query mark of a target with an empty query is dropped (`/a?` is `/a`; `/a??` is kept). -/
def dropEmptyQuery (t : List Char) : List Char :=
  if t.getLast? = some '?' ∧ '?' ∉ t.dropLast then t.dropLast else t

/-- The request target of `url`, as the spec states it: everything after the scheme and the
    authority, up to the first `#`, with a trailing empty `?` dropped. Scheme and authority are those
    that `schemeStep` and `netlocStep` find. -/
def requestTarget (url : String) : String :=
  ⟨dropEmptyQuery (((netlocStep (schemeStep url.data).2).2).takeWhile (· ≠ '#'))⟩

/-! ## The target read off `urlsplit` -/

theorem cutAt_fst_eq_takeWhile (d : Char) (u : List Char) : (cutAt d u).1 = u.takeWhile (· ≠ d) := by
  induction u with
  | nil => rfl
  | cons c cs ih =>
    by_cases hc : c = d
    · simp [cutAt, splitFirst, hc]
    · have : (cutAt d (c :: cs)).1 = c :: (cutAt d cs).1 := by
        unfold cutAt
        cases h : splitFirst d cs <;> simp [splitFirst, hc, h]
      simp [this, ih, hc]

theorem dropEmptyQuery_eq (t : List Char) :
    dropEmptyQuery t = (cutAt '?' t).1 ++ if (cutAt '?' t).2 = [] then [] else '?' :: (cutAt '?' t).2 := by
  unfold dropEmptyQuery cutAt
  cases h : splitFirst '?' t with
  | none =>
    have ht := not_mem_of_splitFirst_eq_none h
    have hl : t.getLast? ≠ some '?' := fun hl => ht (List.mem_of_getLast?_eq_some hl)
    simp [hl]
  | some p =>
    obtain ⟨a, b⟩ := p
    obtain ⟨rfl, ha⟩ := eq_of_splitFirst_eq_some h
    rcases List.eq_nil_or_concat b with rfl | ⟨b', x, rfl⟩
    · simp [List.dropLast_concat, ha]
    · have hd : (a ++ '?' :: (b' ++ [x])).dropLast = a ++ '?' :: b' := by
        rw [← List.cons_append, ← List.append_assoc, List.dropLast_concat]
      simp [hd]

/-- On a URL that `urlsplit` need not sanitise, the request target is `urlsplit`'s path, then `?` and
    the query when it is not empty. -/
theorem requestTarget_eq_split {url : String} {r : SplitResult} (hsan : sanitize url.data = url.data)
    (h : urlsplit url = .ok r) :
    requestTarget url = r.path ++ if r.query = "" then "" else "?" ++ r.query := by
  obtain ⟨-, rfl⟩ := urlsplit_eq_ok h
  rw [hsan]
  apply String.ext
  simp only [requestTarget, dropEmptyQuery_eq, ← cutAt_fst_eq_takeWhile, String.data_append]
  split <;> simp_all [String.ext_iff]

end HashGate
