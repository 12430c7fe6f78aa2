import Mathlib.Data.List.Basic
import Mathlib.Data.Nat.Digits

/-!
# `HashGate.Prelude.Str` — the Python `str` operations the signer is built from

The client assembles every signed artifact by concatenation and `sep.join(...)`, with no escaping. This
module models those operations on Lean `String`s and proves the facts the unambiguity results rest on:
a separator absent from one side of a cut fixes where the cut is, and `sep.join` over separator-free,
non-empty items is undone by splitting on the separator.

## Contents
- **Operations.** `upper` (Python `str.upper`, its Unicode table a parameter), `encodeUtf8`,
  `latin1`, `sep.join` as `String.intercalate`, `str(n)` on an `int` as `toString`;
  `latin1_eq_encodeUtf8`: the two encodings agree on ASCII, and `map_encodeUtf8`: ASCII reads back.
- **`partition`.** `splitFirst` (`s.partition(d)`) and `splitLast` (`s.rpartition(d)`) with their
  decomposition lemmas; `append_cons_cancel_right`: a separator absent from the right parts fixes the
  cut.
- **`join` round trip.** `splitItems_intercalate`: splitting undoes joining, so `intercalate_injective`.
- **Decimal.** `decimal_injective` (`str` on `int` is injective), `mem_decimal` (it emits only `-`
  and digits).
- `except_map_eq_ok`: a mapped fallible step succeeds exactly when its input does.
-/

namespace HashGate

/-! ## Operations -/

/-- Python `str.upper`: every character is replaced by its full Unicode uppercase mapping, which may be
    several characters (`'ß'` becomes `"SS"`). The mapping table is Unicode data, not code of the
    client, so it is a parameter. -/
def upper (upperCase : Char → List Char) (s : String) : String :=
  ⟨s.data.flatMap upperCase⟩

/-- Python `s.encode('utf-8')`. -/
def encodeUtf8 (s : String) : List UInt8 :=
  s.toUTF8.data.toList

/-- Python `s.encode('latin-1')`, which `http.client` applies to a `str` body: one byte per character
    below `U+0100`, and `UnicodeEncodeError` otherwise. -/
def latin1 (s : String) : Option (List UInt8) :=
  s.data.mapM fun c => if c.toNat < 0x100 then some (UInt8.ofNat c.toNat) else none

/-- Items of `sep.join`, read back by splitting on the separator (the empty string is no items). -/
def splitItems (sep : Char) (s : String) : List String :=
  if s.data = [] then [] else (s.data.splitOn sep).map String.mk

theorem encodeUtf8_eq (s : String) : encodeUtf8 s = s.data.flatMap String.utf8EncodeChar :=
  rfl

theorem utf8EncodeChar_of_lt {c : Char} (h : c.toNat < 0x80) :
    String.utf8EncodeChar c = [UInt8.ofNat c.toNat] := by
  have : c.val ≤ 0x7f := by
    show c.val.toNat ≤ 127
    exact Nat.le_of_lt_succ h
  simp [String.utf8EncodeChar, this]
  rfl

/-- On ASCII text the two encodings agree. -/
theorem latin1_eq_encodeUtf8 {s : String} (h : ∀ c ∈ s.data, c.toNat < 0x80) :
    latin1 s = some (encodeUtf8 s) := by
  obtain ⟨l⟩ := s
  rw [encodeUtf8_eq, latin1]
  induction l with
  | nil => rfl
  | cons c cs ih =>
    have hc := h c (List.mem_cons_self _ _)
    have ih' := ih fun x hx => h x (List.mem_cons_of_mem _ hx)
    dsimp only at ih'
    simp only [List.mapM_cons, List.flatMap_cons, utf8EncodeChar_of_lt hc,
      if_pos (show c.toNat < 0x100 by omega), ih']
    rfl

/-- ASCII text reads back from its UTF-8 bytes, one character per byte. -/
theorem map_encodeUtf8 {s : String} (h : ∀ c ∈ s.data, c.toNat < 0x80) :
    (encodeUtf8 s).map (fun b => Char.ofNat b.toNat) = s.data := by
  obtain ⟨l⟩ := s
  rw [encodeUtf8_eq]
  induction l with
  | nil => rfl
  | cons c cs ih =>
    have hc := h c (List.mem_cons_self _ _)
    have ih' := ih fun x hx => h x (List.mem_cons_of_mem _ hx)
    dsimp only at ih'
    simp only [List.flatMap_cons, utf8EncodeChar_of_lt hc, List.singleton_append, List.map_cons, ih']
    rw [UInt8.toNat_ofNat_of_lt (by show c.toNat < 256; omega), Char.ofNat_toNat]

theorem encodeUtf8_inj_of_ascii {s t : String} (hs : ∀ c ∈ s.data, c.toNat < 0x80)
    (ht : ∀ c ∈ t.data, c.toNat < 0x80) (h : encodeUtf8 s = encodeUtf8 t) : s = t :=
  String.ext (by rw [← map_encodeUtf8 hs, h, map_encodeUtf8 ht])

/-! ## `partition` and `rpartition` -/

/-- Python `s.partition(d)` when `d` occurs in `s`: the text before the first `d` and after it. -/
def splitFirst (d : Char) : List Char → Option (List Char × List Char)
  | [] => none
  | c :: cs => if c = d then some ([], cs) else (splitFirst d cs).map fun p => (c :: p.1, p.2)

section SplitFirst

variable {d : Char} {s a b : List Char}

theorem eq_of_splitFirst_eq_some (h : splitFirst d s = some (a, b)) : s = a ++ d :: b ∧ d ∉ a := by
  induction s generalizing a with
  | nil => simp [splitFirst] at h
  | cons c cs ih =>
    simp only [splitFirst] at h
    split at h
    · simp_all
    · obtain ⟨⟨a', b'⟩, h', ⟨⟩⟩ := Option.map_eq_some'.mp h
      simp_all [Ne.symm, ih h']

theorem not_mem_of_splitFirst_eq_none (h : splitFirst d s = none) : d ∉ s := by
  induction s with
  | nil => simp
  | cons c cs ih =>
    simp only [splitFirst] at h
    split at h
    · cases h
    · simp_all [Ne.symm]

theorem subset_of_splitFirst_eq_some (h : splitFirst d s = some (a, b)) : a ⊆ s ∧ b ⊆ s := by
  rw [(eq_of_splitFirst_eq_some h).1]
  exact ⟨List.subset_append_left _ _, fun x hx => by simp [hx]⟩

theorem splitFirst_append_cons (ha : d ∉ a) : splitFirst d (a ++ d :: b) = some (a, b) := by
  induction a with
  | nil => simp [splitFirst]
  | cons c cs ih =>
    have hc : c ≠ d := fun h => ha (h ▸ List.mem_cons_self c cs)
    simp [splitFirst, hc, ih (fun h => ha (List.mem_cons_of_mem c h))]

end SplitFirst

/-- Python `s.rpartition(d)` when `d` occurs in `s`: the text before the last `d` and after it. -/
def splitLast (d : Char) (s : List Char) : Option (List Char × List Char) :=
  (splitFirst d s.reverse).map fun p => (p.2.reverse, p.1.reverse)

theorem splitLast_append_cons {d : Char} {a b : List Char} (hb : d ∉ b) :
    splitLast d (a ++ d :: b) = some (a, b) := by
  simp [splitLast, splitFirst_append_cons (List.mem_reverse.not.mpr hb)]

theorem not_mem_of_splitLast_eq_some {d : Char} {s a b : List Char} (h : splitLast d s = some (a, b)) :
    d ∉ b := by
  obtain ⟨⟨a', b'⟩, h', he⟩ := Option.map_eq_some'.mp h
  obtain ⟨-, rfl⟩ := Prod.mk.inj he
  simpa using (eq_of_splitFirst_eq_some h').2

/-- **Cutting at the last separator.** When `d` occurs in neither right part, two cuts of one string
    are the same cut: `splitLast` reads both back. -/
theorem append_cons_cancel_right {d : Char} {a b a' b' : List Char} (hb : d ∉ b) (hb' : d ∉ b')
    (h : a ++ d :: b = a' ++ d :: b') : a = a' ∧ b = b' := by
  simpa [splitLast_append_cons hb, splitLast_append_cons hb'] using congrArg (splitLast d) h


/-! ## `sep.join` and its round trip -/

theorem intercalate_go_append (acc t s : String) (l : List String) :
    String.intercalate.go (acc ++ t) s l = acc ++ String.intercalate.go t s l := by
  induction l generalizing t with
  | nil => rfl
  | cons x xs ih => simp only [String.intercalate.go, String.append_assoc, ih]

@[simp] theorem intercalate_cons_cons (s x y : String) (ys : List String) :
    String.intercalate s (x :: y :: ys) = x ++ s ++ String.intercalate s (y :: ys) := by
  simp only [String.intercalate, String.intercalate.go, ← intercalate_go_append]

/-- The characters of `sep.join(items)` are the list-level `intercalate` of the items' characters. -/
theorem data_intercalate (s : String) :
    ∀ l : List String, (String.intercalate s l).data = s.data.intercalate (l.map String.data)
  | [] => rfl
  | [x] => by simp [String.intercalate, String.intercalate.go, List.intercalate]
  | x :: y :: ys => by
    rw [intercalate_cons_cons, String.data_append, String.data_append, data_intercalate s (y :: ys)]
    simp [List.intercalate, List.intersperse_cons₂]

/-- A character of `sep.join(items)` is a character of the separator or of an item. -/
theorem mem_intercalate {c : Char} {sep : String} :
    ∀ {l : List String}, c ∈ (String.intercalate sep l).data → c ∈ sep.data ∨ ∃ x ∈ l, c ∈ x.data
  | [], h => by simp [String.intercalate] at h
  | [x], h => .inr ⟨x, List.mem_singleton_self x, by simpa [String.intercalate, String.intercalate.go] using h⟩
  | x :: y :: ys, h => by
    rw [intercalate_cons_cons, String.data_append, String.data_append, List.mem_append,
      List.mem_append] at h
    rcases h with (h | h) | h
    · exact .inr ⟨x, List.mem_cons_self x _, h⟩
    · exact .inl h
    · rcases mem_intercalate h with h | ⟨z, hz, h⟩
      · exact .inl h
      · exact .inr ⟨z, List.mem_cons_of_mem x hz, h⟩

section Join

variable {sep : Char} {l l' : List String}

/-- **Splitting undoes `sep.join`** over non-empty items that do not contain the separator. -/
theorem splitItems_intercalate (hl : ∀ x ∈ l, x ≠ "" ∧ sep ∉ x.data) :
    splitItems sep (String.intercalate ⟨[sep]⟩ l) = l := by
  cases l with
  | nil => rfl
  | cons x xs =>
    have hsplit : (String.intercalate ⟨[sep]⟩ (x :: xs)).data.splitOn sep = (x :: xs).map String.data := by
      rw [data_intercalate]
      exact List.splitOn_intercalate _ sep (by simpa using fun y hy => (hl y hy).2) (by simp)
    have hne : (String.intercalate ⟨[sep]⟩ (x :: xs)).data ≠ [] := by
      intro h0
      rw [h0, List.splitOn_nil, List.map_cons, List.cons.injEq] at hsplit
      exact (hl x (List.mem_cons_self x xs)).1 (String.ext hsplit.1.symm)
    simp [splitItems, hne, hsplit, Function.comp_def]

/-- `sep.join` is injective on lists of non-empty, separator-free items. -/
theorem intercalate_injective (hl : ∀ x ∈ l, x ≠ "" ∧ sep ∉ x.data)
    (hl' : ∀ x ∈ l', x ≠ "" ∧ sep ∉ x.data)
    (h : String.intercalate ⟨[sep]⟩ l = String.intercalate ⟨[sep]⟩ l') : l = l' := by
  rw [← splitItems_intercalate hl, h, splitItems_intercalate hl']

end Join

/-! ## Decimal rendering of an `int`

Python's `str(n)` on an `int` and Lean's `toString` on an `Int` agree: an optional `-`, then the
digits of the magnitude with no leading zero. `intValue` reads it back. -/

/-- The value of a run of decimal digits read after `acc` (`48` is the code of `'0'`). -/
def digitsValue (acc : Nat) (ds : List Char) : Nat :=
  ds.foldl (fun n c => n * 10 + (c.toNat - 48)) acc

/-- Reads back `str(n)`: a leading `-` negates the digits after it. -/
def intValue : List Char → Int
  | '-' :: ds => -(digitsValue 0 ds : Int)
  | ds => digitsValue 0 ds

theorem digitChar_spec : ∀ k : Fin 10, (Nat.digitChar k).isDigit ∧ (Nat.digitChar k).toNat - 48 = k := by
  decide

/-- Rendering `n` in front of `ds` and reading the result back is reading `ds` from `n`. -/
theorem digitsValue_toDigitsCore :
    ∀ fuel n ds, n < fuel → digitsValue 0 (Nat.toDigitsCore 10 fuel n ds) = digitsValue n ds
  | 0, _, _, h => absurd h (Nat.not_lt_zero _)
  | fuel + 1, n, ds, h => by
    have hd := (digitChar_spec ⟨n % 10, Nat.mod_lt n (by omega)⟩).2
    have step : digitsValue (n / 10) (Nat.digitChar (n % 10) :: ds) = digitsValue n ds := by
      simp only [digitsValue, List.foldl_cons] at hd ⊢
      congr 1
      omega
    simp only [Nat.toDigitsCore]
    split
    · rw [← step, ‹n / 10 = 0›]
    · rw [digitsValue_toDigitsCore fuel (n / 10) _ (by omega), step]

/-- Every character of a rendered natural number is a decimal digit. -/
theorem isDigit_of_mem_toDigitsCore :
    ∀ fuel n ds c, (∀ c ∈ ds, c.isDigit) → c ∈ Nat.toDigitsCore 10 fuel n ds → c.isDigit
  | 0, _, _, _, hds, hc => hds _ hc
  | fuel + 1, n, ds, c, hds, hc => by
    have hd := (digitChar_spec ⟨n % 10, Nat.mod_lt n (by omega)⟩).1
    have hds' : ∀ c ∈ Nat.digitChar (n % 10) :: ds, c.isDigit := by
      simpa [hd] using hds
    simp only [Nat.toDigitsCore] at hc
    split at hc
    · exact hds' c hc
    · exact isDigit_of_mem_toDigitsCore fuel _ _ c hds' hc

theorem toDigitsCore_ne_nil : ∀ fuel n ds, ds ≠ [] → Nat.toDigitsCore 10 fuel n ds ≠ []
  | 0, _, _, hds => hds
  | fuel + 1, n, ds, _ => by
    simp only [Nat.toDigitsCore]
    split
    · exact List.cons_ne_nil _ _
    · exact toDigitsCore_ne_nil fuel _ _ (List.cons_ne_nil _ _)

theorem repr_ne_nil (n : Nat) : (Nat.repr n).data ≠ [] := by
  show Nat.toDigitsCore 10 (n + 1) n [] ≠ []
  simp only [Nat.toDigitsCore]
  split <;> simp [toDigitsCore_ne_nil]

theorem isDigit_of_mem_repr {n : Nat} {c : Char} (h : c ∈ (Nat.repr n).data) : c.isDigit :=
  isDigit_of_mem_toDigitsCore _ n [] c (by simp) h

theorem intValue_of_isDigit : ∀ {ds : List Char}, (∀ c ∈ ds, c.isDigit) → intValue ds = digitsValue 0 ds
  | [], _ => rfl
  | c :: ds, h => by
    have hc : c ≠ '-' := by rintro rfl; exact absurd (h _ (List.mem_cons_self _ _)) (by decide)
    simp [intValue, hc]

theorem digitsValue_repr (n : Nat) : digitsValue 0 (Nat.repr n).data = n :=
  digitsValue_toDigitsCore (n + 1) n [] (by omega)

/-- **`intValue` reads back `str(n)`.** -/
theorem intValue_toString (i : Int) : intValue (toString i).data = i := by
  have hv := digitsValue_repr
  cases i with
  | ofNat n =>
    show intValue (Nat.repr n).data = n
    rw [intValue_of_isDigit fun c => isDigit_of_mem_repr, hv]
  | negSucc n =>
    show intValue ('-' :: (Nat.repr (n + 1)).data) = Int.negSucc n
    simp only [intValue, hv]
    rfl

/-- **`str` on `int` is injective.** -/
theorem decimal_injective {i j : Int} (h : toString i = toString j) : i = j := by
  rw [← intValue_toString i, h, intValue_toString]

/-- `str(n)` emits only `-` and decimal digits. -/
theorem mem_decimal {i : Int} {c : Char} (h : c ∈ (toString i).data) : c = '-' ∨ c.isDigit := by
  cases i with
  | ofNat n => exact .inr (isDigit_of_mem_repr h)
  | negSucc n =>
    rcases List.mem_cons.mp (show c ∈ '-' :: (Nat.repr (n + 1)).data from h) with h | h
    · exact .inl h
    · exact .inr (isDigit_of_mem_repr h)

/-! ## Fallible steps -/

/-- Every fallible step of the client is an `Except.map`: it succeeds exactly when its input does. -/
theorem except_map_eq_ok {ε α β : Type} {f : α → β} {x : Except ε α} {b : β} :
    x.map f = .ok b ↔ ∃ a, x = .ok a ∧ f a = b := by
  cases x <;> simp [Except.map]

end HashGate
