import HashGate.Codec.Json

/-!
# `HashGate.Codec.JsonDecode` — `json.dumps` tells normal forms apart

A serialised normal form, followed by any text that cannot continue a number, determines both the
value and where it ends (`dumpsValue_append_inj`). So `json.dumps` writes two values alike exactly when
their normal forms are equal (`jsonDumps_eq_iff`).

A string is read back one escaped code point at a time by `readEscape`, which reads a high-surrogate
escape followed by a low-surrogate escape as the character of the pair, as a JSON reader does. No high
surrogate is followed by a low one in a normal form, so there every code point reads back as itself. A
number ends where its characters do: an `int` is written with a sign and digits only, a finite `float`
always with a point or an exponent, and the others as `NaN`, `Infinity` or `-Infinity`. The readers
are proof devices, not a model of `json.loads`.

## Contents
- `readHex4`, `readLowSurrogate`, `readEscape`; `readEscape_escapeCodePoint`, `escapes_append_inj`.
- `NoNumberStart`, `NumberToken`, `numberToken_append_inj`, `decimal_ne_floatStr`.
- `leadKind`, `PyJson.kind`, `dumpsValue_eq_cons`: the first character names the constructor.
- `dumpsValue_append_inj`, `jsonDumps_eq_iff`, `jsonDumps_ne_empty`.
-/

namespace HashGate

/-! ## Reading an escape back -/

/-- The value of a lowercase hex digit. -/
def hexValue (c : Char) : Option Nat :=
  if c ∈ hexDigits then some (hexDigits.indexOf c) else none

/-- Four hex digits, most significant first, and the rest. -/
def readHex4 : List Char → Option (Nat × List Char)
  | a :: b :: c :: d :: rest =>
    ([a, b, c, d].mapM hexValue).map fun ds => (ds.foldl (fun n k => 16 * n + k) 0, rest)
  | _ => none

/-- The code of a two-character escape `\x`. -/
def unescapeShort : Char → Option Nat
  | '\\' => some 0x5c
  | '"' => some 0x22
  | 'b' => some 0x08
  | 'f' => some 0x0c
  | 'n' => some 0x0a
  | 'r' => some 0x0d
  | 't' => some 0x09
  | _ => none

/-- A `\uXXXX` escape of a low surrogate, and the rest. -/
def readLowSurrogate : List Char → Option (Nat × List Char)
  | '\\' :: 'u' :: rest =>
    (readHex4 rest).bind fun (m, rest) => if 0xdc00 ≤ m ∧ m < 0xe000 then some (m, rest) else none
  | _ => none

/-- Reads one code point off the front of an escaped text, and returns the rest; a high-surrogate
    escape followed by a low-surrogate escape reads as the character of the pair. -/
def readEscape : List Char → Option (Nat × List Char)
  | '\\' :: 'u' :: rest =>
    (readHex4 rest).bind fun (n, rest) =>
      if 0xd800 ≤ n ∧ n < 0xdc00 then
        match readLowSurrogate rest with
        | some (m, rest') => some (0x10000 + (n - 0xd800) * 0x400 + (m - 0xdc00), rest')
        | none => some (n, rest)
      else some (n, rest)
  | '\\' :: c :: rest => (unescapeShort c).map (·, rest)
  | c :: rest => some (c.toNat, rest)
  | [] => none

theorem hexValue_getD : ∀ k : Fin 16, hexValue (hexDigits.getD k '0') = some k := by
  decide

theorem readHex4_hex4 {n : Nat} (hn : n < 0x10000) (r : List Char) :
    readHex4 (hex4 n ++ r) = some (n, r) := by
  have h (s : Nat) : hexValue (hexDigits.getD ((n >>> s) % 16) '0') = some ((n >>> s) % 16) :=
    hexValue_getD ⟨_, Nat.mod_lt _ (by decide)⟩
  simp only [hex4, List.map_cons, List.map_nil, List.cons_append, List.nil_append, readHex4,
    List.mapM_cons, List.mapM_nil, h]
  simp [Nat.shiftRight_eq_div_pow]
  omega

theorem readLowSurrogate_of_ne {c : Char} (hc : c ≠ '\\') (r : List Char) :
    readLowSurrogate (c :: r) = none := by
  unfold readLowSurrogate
  split
  · rename_i h
    exact absurd (List.cons.inj h).1 hc
  · rfl

/-- A safe code point is copied as the character of its value, which is neither `\` nor `"`. -/
theorem ofNat_of_isSafe {c : CodePoint} (hs : isSafe c) :
    (Char.ofNat c.val).toNat = c.val ∧ Char.ofNat c.val ≠ '\\' ∧ Char.ofNat c.val ≠ '"' := by
  simp only [isSafe, Bool.and_eq_true, decide_eq_true_eq, bne_iff_ne, ne_eq] at hs
  have hc : (Char.ofNat c.val).toNat = c.val := toNat_ofNat_of_lt (by omega)
  refine ⟨hc, fun h => hs.1.2 ?_, fun h => hs.2 ?_⟩ <;> rw [← hc, h] <;> rfl

/-- An escaped code point that is not a low surrogate is not read as the second half of a pair. -/
theorem readLowSurrogate_escapeCodePoint {d : CodePoint} (hd : isLow d = false) (r : List Char) :
    readLowSurrogate (escapeCodePoint d ++ r) = none := by
  simp only [isLow, Bool.and_eq_false_iff, decide_eq_false_iff_not, not_le, not_lt] at hd
  unfold escapeCodePoint
  split
  · exact readLowSurrogate_of_ne (ofNat_of_isSafe ‹_›).2.1 r
  · split
    any_goals rfl
    split
    · simp only [List.cons_append, List.append_assoc, readLowSurrogate,
        readHex4_hex4 (show 0xd7c0 + d.val / 0x400 < 0x10000 by omega), Option.some_bind]
      rw [if_neg (by omega)]
    · simp only [List.cons_append, readLowSurrogate, readHex4_hex4 (show d.val < 0x10000 by omega),
        Option.some_bind]
      rw [if_neg (by omega)]

/-- **One escaped code point reads back**, unless it is a high surrogate and what follows reads as a
    low one. -/
theorem readEscape_escapeCodePoint (c : CodePoint) {r : List Char}
    (hr : isHigh c → readLowSurrogate r = none) : readEscape (escapeCodePoint c ++ r) = some (c.val, r) := by
  unfold escapeCodePoint
  split
  · obtain ⟨hc, hne, -⟩ := ofNat_of_isSafe ‹_›
    unfold readEscape
    split <;> simp_all
  · have hlt := c.isLt
    split
    any_goals (rename_i heq; rw [heq]; rfl)
    split
    · have hhi : 0xd7c0 + c.val / 0x400 < 0x10000 := by omega
      have hlo : 0xdc00 + c.val % 0x400 < 0x10000 := by omega
      have hcode : 0x10000 + (0xd7c0 + c.val / 0x400 - 0xd800) * 0x400 +
          (0xdc00 + c.val % 0x400 - 0xdc00) = c.val := by
        omega
      simp only [List.cons_append, List.append_assoc, readEscape, readHex4_hex4 hhi, readLowSurrogate,
        readHex4_hex4 hlo, Option.some_bind]
      rw [if_pos (by omega), if_pos (by omega)]
      simp only [hcode]
    · simp only [List.cons_append, readEscape, readHex4_hex4 (show c.val < 0x10000 by omega),
        Option.some_bind]
      split
      · rename_i hh
        rw [hr (by simpa [isHigh] using hh)]
      · rfl

theorem noPair_tail {c : CodePoint} {cs : List CodePoint} (h : noPair (c :: cs)) : noPair cs := by
  rw [noPair_cons, Bool.and_eq_true] at h
  exact h.2

/-- In a text with no surrogate pair, a high surrogate is followed by no low one. -/
theorem readLowSurrogate_escapes {c : CodePoint} {cs : List CodePoint} (h : noPair (c :: cs))
    (hc : isHigh c) (r : List Char) : readLowSurrogate (cs.flatMap escapeCodePoint ++ '"' :: r) = none := by
  cases cs with
  | nil => exact readLowSurrogate_of_ne (by decide) r
  | cons d ds =>
    rw [noPair_cons, hc] at h
    have hd : isLow d = false ∧ noPair (d :: ds) := by simpa using h
    rw [List.flatMap_cons, List.append_assoc]
    exact readLowSurrogate_escapeCodePoint hd.1 _

/-- No escaped code point starts with `"`: the closing quote is never read as text. -/
theorem escapeCodePoint_append_ne_quote (c : CodePoint) (t u : List Char) :
    escapeCodePoint c ++ t ≠ '"' :: u := by
  unfold escapeCodePoint
  split
  · exact fun h => (ofNat_of_isSafe ‹_›).2.2 (List.cons.inj h).1
  · simp

theorem escapes_append_inj {cs cs' : List CodePoint} {r r' : List Char} (hcs : noPair cs)
    (hcs' : noPair cs')
    (h : cs.flatMap escapeCodePoint ++ '"' :: r = cs'.flatMap escapeCodePoint ++ '"' :: r') :
    cs = cs' ∧ r = r' := by
  induction cs generalizing cs' with
  | nil =>
    cases cs' with
    | nil => simpa using h
    | cons c' cs' =>
      rw [List.flatMap_cons, List.append_assoc] at h
      exact absurd h.symm (escapeCodePoint_append_ne_quote _ _ _)
  | cons c cs ih =>
    cases cs' with
    | nil =>
      rw [List.flatMap_cons, List.append_assoc] at h
      exact absurd h (escapeCodePoint_append_ne_quote _ _ _)
    | cons c' cs' =>
      rw [List.flatMap_cons, List.flatMap_cons, List.append_assoc, List.append_assoc] at h
      have hread := readEscape_escapeCodePoint c (readLowSurrogate_escapes hcs · r)
      rw [h, readEscape_escapeCodePoint c' (readLowSurrogate_escapes hcs' · r'), Option.some.injEq,
        Prod.mk.injEq] at hread
      obtain ⟨rfl, rfl⟩ := ih (noPair_tail hcs) (noPair_tail hcs') hread.2.symm
      exact ⟨by rw [Fin.ext hread.1], rfl⟩

theorem encodeBasestringAscii_append_inj {s s' : List CodePoint} {r r' : List Char} (hs : noPair s)
    (hs' : noPair s') (h : encodeBasestringAscii s ++ r = encodeBasestringAscii s' ++ r') :
    s = s' ∧ r = r' := by
  simp only [encodeBasestringAscii, List.cons_append, List.append_assoc, List.singleton_append,
    List.cons.injEq, true_and] at h
  exact escapes_append_inj hs hs' h

/-! ## Numbers read back

A number ends where its characters do, so it reads back when what follows cannot continue it. -/

/-- A text that cannot continue a number: empty, or not starting with a character of one. -/
def NoNumberStart (r : List Char) : Prop := ∀ c ∈ r.head?, isNumberChar c = false

theorem noNumberStart_cons (c : Char) (hc : isNumberChar c = false) (r : List Char) :
    NoNumberStart (c :: r) := by
  rintro _ ⟨⟩
  exact hc

/-- The text of a number: `NaN`, `Infinity` or `-Infinity`, or characters of numbers that start with
    a digit, or with `-` and a digit. -/
def NumberToken (t : List Char) : Prop :=
  t = "NaN".data ∨ t = "Infinity".data ∨ t = "-Infinity".data ∨
    ((∀ c ∈ t, isNumberChar c) ∧ ∃ c cs, c.isDigit ∧ (t = c :: cs ∨ t = '-' :: c :: cs))

theorem takeWhile_isNumberChar_append {t r : List Char} (ht : ∀ c ∈ t, isNumberChar c)
    (hr : NoNumberStart r) : (t ++ r).takeWhile isNumberChar = t := by
  rw [List.takeWhile_append_of_pos ht]
  cases r with
  | nil => simp
  | cons c r => simp [List.takeWhile_cons, hr c rfl]

/-- **A number's text, followed by what cannot continue it, determines both.** -/
theorem numberToken_append_inj {t t' r r' : List Char} (ht : NumberToken t) (ht' : NumberToken t')
    (hr : NoNumberStart r) (hr' : NoNumberStart r') (h : t ++ r = t' ++ r') : t = t' ∧ r = r' := by
  suffices htt : t = t' by
    subst htt
    exact ⟨rfl, List.append_cancel_left h⟩
  rcases ht with rfl | rfl | rfl | ⟨hall, c, cs, hc, rfl | rfl⟩ <;>
    rcases ht' with rfl | rfl | rfl | ⟨hall', c', cs', hc', rfl | rfl⟩
  all_goals first
    | rfl
    | exact takeWhile_isNumberChar_append hall hr ▸ h ▸ takeWhile_isNumberChar_append hall' hr'
    | (simp only [String.data, List.cons_append, List.cons.injEq, eq_self_iff_true, true_and] at h
       obtain ⟨h1, -⟩ := h
       first
         | exact absurd h1 (by decide)
         | (subst h1; first | exact absurd hc (by decide) | exact absurd hc' (by decide)))

theorem numberToken_decimal (n : Int) : NumberToken (toString n).data := by
  have hrepr (k : Nat) : ∃ c cs, c.isDigit ∧ (Nat.repr k).data = c :: cs := by
    obtain ⟨c, cs, h⟩ := List.exists_cons_of_ne_nil (repr_ne_nil k)
    exact ⟨c, cs, isDigit_of_mem_repr (h ▸ List.mem_cons_self _ _), h⟩
  refine .inr (.inr (.inr ⟨fun c hc => ?_, ?_⟩))
  · rcases mem_decimal hc with rfl | h
    · rfl
    · exact isNumberChar_of_isDigit h
  · cases n with
    | ofNat k =>
      obtain ⟨c, cs, hc, h⟩ := hrepr k
      exact ⟨c, cs, hc, .inl h⟩
    | negSucc k =>
      obtain ⟨c, cs, hc, h⟩ := hrepr (k + 1)
      exact ⟨c, cs, hc, .inr (by rw [← h]; rfl)⟩

theorem numberToken_floatStr (x : PyFloat) : NumberToken (floatStr x) := by
  unfold floatStr
  split
  · obtain ⟨c, cs, hc, h⟩ := floatRepr_eq x
    refine .inr (.inr (.inr ⟨isNumberChar_of_mem_floatRepr x, c, cs, hc, ?_⟩))
    rw [h]
    cases x.sign
    · exact .inl rfl
    · exact .inr rfl
  · split
    · exact .inl rfl
    · split
      · exact .inr (.inr (.inl rfl))
      · exact .inr (.inl rfl)

/-- `str` of an `int` is never the text of a `float`: `repr` writes a point or an exponent, or a
    letter. -/
theorem decimal_ne_floatStr (n : Int) (x : PyFloat) : (toString n).data ≠ floatStr x := by
  intro h
  have hdec (c : Char) (hc : c ∈ floatStr x) : c = '-' ∨ c.isDigit := mem_decimal (h ▸ hc)
  unfold floatStr at hdec
  split at hdec
  · rcases point_or_e_mem_floatRepr x with hc | hc <;>
      rcases hdec _ hc with h' | h' <;> exact absurd h' (by decide)
  · split at hdec
    · exact absurd (hdec 'N' (by decide)) (by decide)
    · split at hdec <;> exact absurd (hdec 'I' (by decide)) (by decide)

/-! ## Unique decodability -/

/-- What the first character of a serialised value tells: `null`, a `bool`, a number, a string, a
    list, a dict; anything else (`]`, `}`, `,`) is `6`. -/
def leadKind (c : Char) : Nat :=
  if c = 'n' then 0 else if c = 't' ∨ c = 'f' then 1
  else if c = '-' ∨ c.isDigit ∨ c = 'N' ∨ c = 'I' then 2
  else if c = '"' then 3 else if c = '[' then 4 else if c = '{' then 5 else 6

/-- The constructor of a value, numbered as `leadKind` numbers first characters. -/
def PyJson.kind : PyJson → Nat
  | .none => 0
  | .bool _ => 1
  | .int _ | .float _ => 2
  | .str _ => 3
  | .list _ | .tuple _ => 4
  | .dict _ => 5

theorem kind_lt (v : PyJson) : v.kind < 6 := by
  cases v <;> simp [PyJson.kind]

theorem leadKind_numberToken {t : List Char} (ht : NumberToken t) :
    ∃ c cs, t = c :: cs ∧ leadKind c = 2 := by
  rcases ht with rfl | rfl | rfl | ⟨-, c, cs, hc, rfl | rfl⟩
  · exact ⟨_, _, rfl, rfl⟩
  · exact ⟨_, _, rfl, rfl⟩
  · exact ⟨_, _, rfl, rfl⟩
  · refine ⟨c, cs, rfl, ?_⟩
    have ⟨hn, _, _⟩ : c ≠ 'n' ∧ c ≠ 't' ∧ c ≠ 'f' := by
      refine ⟨?_, ?_, ?_⟩ <;> rintro rfl <;> exact absurd hc (by decide)
    simp_all [leadKind]
  · exact ⟨_, _, rfl, rfl⟩

/-- The first character of a serialised value names its constructor. -/
theorem dumpsValue_eq_cons (v : PyJson) : ∃ c cs, dumpsValue v = c :: cs ∧ leadKind c = v.kind := by
  cases v with
  | none => exact ⟨_, _, rfl, rfl⟩
  | bool b => cases b <;> exact ⟨_, _, rfl, rfl⟩
  | int n => exact leadKind_numberToken (numberToken_decimal n)
  | float x => exact leadKind_numberToken (numberToken_floatStr x)
  | str s => exact ⟨_, _, rfl, rfl⟩
  | list items => exact ⟨_, _, rfl, rfl⟩
  | tuple items => exact ⟨_, _, rfl, rfl⟩
  | dict items => exact ⟨_, _, rfl, rfl⟩

theorem kind_eq_of_append_eq {v w : PyJson} {r r' : List Char}
    (h : dumpsValue v ++ r = dumpsValue w ++ r') : v.kind = w.kind := by
  obtain ⟨c, cs, hc, hk⟩ := dumpsValue_eq_cons v
  obtain ⟨c', cs', hc', hk'⟩ := dumpsValue_eq_cons w
  rw [hc, hc', List.cons_append, List.cons_append, List.cons.injEq] at h
  rw [← hk, ← hk', h.1]

/-- No serialised value starts with `]`, `}` or `,`. -/
theorem dumpsValue_append_ne (v : PyJson) {c : Char} (hc : leadKind c = 6) (t u : List Char) :
    dumpsValue v ++ t ≠ c :: u := by
  obtain ⟨c', cs, h', hk⟩ := dumpsValue_eq_cons v
  rw [h', List.cons_append, Ne, List.cons.injEq]
  rintro ⟨rfl, -⟩
  have := kind_lt v
  omega

/-- Two numbers in normal form, each followed by what cannot continue it. -/
theorem number_append_inj {v w : PyJson} (hv : v.kind = 2) (hw : w.kind = 2) (hvn : v.isNormal)
    (hwn : w.isNormal) {r r' : List Char} (hr : NoNumberStart r) (hr' : NoNumberStart r')
    (h : dumpsValue v ++ r = dumpsValue w ++ r') : v = w ∧ r = r' := by
  have htok (u : PyJson) (hu : u.kind = 2) : NumberToken (dumpsValue u) := by
    cases u <;> simp [PyJson.kind] at hu
    · exact numberToken_decimal _
    · exact numberToken_floatStr _
  obtain ⟨ht, rfl⟩ := numberToken_append_inj (htok v hv) (htok w hw) hr hr' h
  refine ⟨?_, rfl⟩
  cases v <;> cases w <;> simp [PyJson.kind] at hv hw <;> simp only [dumpsValue] at ht
  · exact congrArg _ (decimal_injective (String.ext ht))
  · exact absurd ht (decimal_ne_floatStr _ _)
  · exact absurd ht.symm (decimal_ne_floatStr _ _)
  · rename_i x y
    have hnan (z : PyFloat) (hz : PyJson.isNormal (.float z)) (hn : z.isNaN) : z = PyFloat.nan := by
      simpa [PyJson.isNormal, hn] using hz
    rcases floatStr_eq_iff.mp ht with rfl | ⟨hx, hy⟩
    · rfl
    · rw [hnan x hvn hx, hnan y hwn hy]

theorem comma_data : ", ".data = [',', ' '] := rfl

theorem colon_data : ": ".data = [':', ' '] := rfl

/-- The items after the first: `", "` and the rest, or nothing. -/
theorem dumpsItems_cons (v : PyJson) (vs : List PyJson) :
    dumpsItems (v :: vs) = dumpsValue v ++ if vs.isEmpty then [] else ',' :: ' ' :: dumpsItems vs := by
  cases vs <;> simp [dumpsItems, comma_data]

theorem dumpsMembers_cons (k : PyKey) (v : PyJson) (ms : List (PyKey × PyJson)) :
    dumpsMembers ((k, v) :: ms) = encodeBasestringAscii k.text ++ ':' :: ' ' ::
      (dumpsValue v ++ if ms.isEmpty then [] else ',' :: ' ' :: dumpsMembers ms) := by
  cases ms <;> simp [dumpsMembers, comma_data, colon_data]

/-- What follows an item cannot continue a number: `", "` or the closing bracket. -/
theorem noNumberStart_sep (b : Bool) (c : Char) (hc : isNumberChar c = false) (x r : List Char) :
    NoNumberStart ((if b then [] else ',' :: ' ' :: x) ++ c :: r) := by
  split
  · exact noNumberStart_cons c hc r
  · exact noNumberStart_cons ',' rfl _

mutual
/-- **A serialised normal form determines the value and where it ends**, in front of any text that
    cannot continue a number. -/
theorem dumpsValue_append_inj : ∀ (v w : PyJson) {r r' : List Char}, v.isNormal → w.isNormal →
    NoNumberStart r → NoNumberStart r' → dumpsValue v ++ r = dumpsValue w ++ r' → v = w ∧ r = r'
  | .none, w, _, _, _, _, _, _, h => by
    have hk := kind_eq_of_append_eq h
    cases w <;> simp [PyJson.kind] at hk
    exact ⟨rfl, List.append_cancel_left h⟩
  | .bool b, w, _, _, _, _, _, _, h => by
    obtain ⟨b', rfl⟩ : ∃ b', w = .bool b' := by
      have hk := kind_eq_of_append_eq h
      cases w <;> simp_all [PyJson.kind]
    cases b <;> cases b' <;> simp [dumpsValue] at h <;> exact ⟨rfl, h⟩
  | .int _, _, _, _, hv, hw, hr, hr', h =>
    number_append_inj (by rfl) (kind_eq_of_append_eq h).symm hv hw hr hr' h
  | .float _, _, _, _, hv, hw, hr, hr', h =>
    number_append_inj (by rfl) (kind_eq_of_append_eq h).symm hv hw hr hr' h
  | .str s, w, _, _, hv, hw, _, _, h => by
    have hk := kind_eq_of_append_eq h
    cases w <;> simp [PyJson.kind] at hk
    obtain ⟨rfl, rfl⟩ := encodeBasestringAscii_append_inj hv hw h
    exact ⟨rfl, rfl⟩
  | .list items, w, _, _, hv, hw, _, _, h => by
    have hk := kind_eq_of_append_eq h
    cases w <;> simp [PyJson.kind, PyJson.isNormal] at hk hw
    rename_i items'
    simp only [dumpsValue, List.cons_append, List.append_assoc, List.singleton_append, List.cons.injEq,
      true_and] at h
    obtain ⟨rfl, rfl⟩ := dumpsItems_append_inj items items' hv hw h
    exact ⟨rfl, rfl⟩
  | .tuple _, _, _, _, hv, _, _, _, _ => absurd hv (by simp [PyJson.isNormal])
  | .dict items, w, _, _, hv, hw, _, _, h => by
    have hk := kind_eq_of_append_eq h
    cases w <;> simp [PyJson.kind] at hk
    rename_i items'
    simp only [dumpsValue, List.cons_append, List.append_assoc, List.singleton_append, List.cons.injEq,
      true_and] at h
    obtain ⟨rfl, rfl⟩ := dumpsMembers_append_inj items items' hv hw h
    exact ⟨rfl, rfl⟩
/-- The items of a list, up to the closing `]`. -/
theorem dumpsItems_append_inj : ∀ (vs ws : List PyJson) {r r' : List Char}, isNormalItems vs →
    isNormalItems ws → dumpsItems vs ++ ']' :: r = dumpsItems ws ++ ']' :: r' → vs = ws ∧ r = r'
  | [], [], _, _, _, _, h => ⟨rfl, (List.cons.inj h).2⟩
  | [], w :: ws, _, _, _, _, h => by
    rw [dumpsItems_cons, List.append_assoc] at h
    exact absurd h.symm (dumpsValue_append_ne w (by decide) _ _)
  | v :: vs, [], _, _, _, _, h => by
    rw [dumpsItems_cons, List.append_assoc] at h
    exact absurd h (dumpsValue_append_ne v (by decide) _ _)
  | v :: vs, w :: ws, _, _, hvs, hws, h => by
    simp only [isNormalItems, Bool.and_eq_true] at hvs hws
    rw [dumpsItems_cons, dumpsItems_cons, List.append_assoc, List.append_assoc] at h
    obtain ⟨rfl, hrest⟩ := dumpsValue_append_inj v w hvs.1 hws.1 (noNumberStart_sep _ ']' rfl _ _)
      (noNumberStart_sep _ ']' rfl _ _) h
    split_ifs at hrest with hvs' hws' hws'
    · rw [List.isEmpty_iff] at hvs' hws'
      subst hvs' hws'
      exact ⟨rfl, (List.cons.inj hrest).2⟩
    all_goals simp only [List.nil_append, List.cons_append, List.cons.injEq, true_and] at hrest
    · exact absurd hrest.1 (by decide)
    · exact absurd hrest.1 (by decide)
    · obtain ⟨rfl, rfl⟩ := dumpsItems_append_inj vs ws hvs.2 hws.2 hrest
      exact ⟨rfl, rfl⟩
/-- The items of a dict, up to the closing `}`. -/
theorem dumpsMembers_append_inj : ∀ (ms ns : List (PyKey × PyJson)) {r r' : List Char},
    isNormalMembers ms → isNormalMembers ns →
    dumpsMembers ms ++ '}' :: r = dumpsMembers ns ++ '}' :: r' → ms = ns ∧ r = r'
  | [], [], _, _, _, _, h => ⟨rfl, (List.cons.inj h).2⟩
  | [], (k, w) :: ns, _, _, _, _, h => by
    rw [dumpsMembers_cons, encodeBasestringAscii] at h
    exact absurd (List.cons.inj h).1 (by decide)
  | (k, v) :: ms, [], _, _, _, _, h => by
    rw [dumpsMembers_cons, encodeBasestringAscii] at h
    exact absurd (List.cons.inj h).1 (by decide)
  | (k, v) :: ms, (k', w) :: ns, _, _, hms, hns, h => by
    cases k <;> simp [isNormalMembers] at hms
    cases k' <;> simp [isNormalMembers] at hns
    rename_i s s'
    simp only [dumpsMembers_cons, List.append_assoc, List.cons_append, PyKey.text_str] at h
    obtain ⟨rfl, hkey⟩ := encodeBasestringAscii_append_inj hms.1.1 hns.1.1 h
    simp only [List.cons.injEq, true_and] at hkey
    obtain ⟨rfl, hrest⟩ := dumpsValue_append_inj v w hms.1.2 hns.1.2 (noNumberStart_sep _ '}' rfl _ _)
      (noNumberStart_sep _ '}' rfl _ _) hkey
    split_ifs at hrest with hms' hns' hns'
    · rw [List.isEmpty_iff] at hms' hns'
      subst hms' hns'
      exact ⟨rfl, (List.cons.inj hrest).2⟩
    all_goals simp only [List.nil_append, List.cons_append, List.cons.injEq, true_and] at hrest
    · exact absurd hrest.1 (by decide)
    · exact absurd hrest.1 (by decide)
    · obtain ⟨rfl, rfl⟩ := dumpsMembers_append_inj ms ns hms.2 hns.2 hrest
      exact ⟨rfl, rfl⟩
end

/-- **`json.dumps` tells normal forms apart.** -/
theorem jsonDumps_inj_of_isNormal {v w : PyJson} (hv : v.isNormal) (hw : w.isNormal)
    (h : jsonDumps v = jsonDumps w) : v = w := by
  have h' : dumpsValue v ++ [] = dumpsValue w ++ [] := by
    simpa [jsonDumps] using congrArg String.data h
  exact (dumpsValue_append_inj v w hv hw (by rintro _ ⟨⟩) (by rintro _ ⟨⟩) h').1

/-- **What `json.dumps` identifies**: two values are written alike exactly when their normal forms
    are equal, that is, when they are equal once tuples are read as lists, keys as the strings written
    for them, surrogate pairs as the characters they encode, and every NaN as one. -/
theorem jsonDumps_eq_iff {v w : PyJson} : jsonDumps v = jsonDumps w ↔ v.normalize = w.normalize := by
  have hd (u : PyJson) : jsonDumps u.normalize = jsonDumps u := by
    rw [jsonDumps, dumpsValue_normalize, jsonDumps]
  refine ⟨fun h => jsonDumps_inj_of_isNormal (isNormal_normalize v) (isNormal_normalize w) ?_,
    fun h => by rw [← hd v, h, hd]⟩
  rw [hd, hd, h]

/-- `json.dumps` never writes the empty string. -/
theorem jsonDumps_ne_empty (v : PyJson) : jsonDumps v ≠ "" := by
  obtain ⟨c, cs, h, -⟩ := dumpsValue_eq_cons v
  intro he
  have := congrArg String.data he
  simp [jsonDumps, h] at this

end HashGate
