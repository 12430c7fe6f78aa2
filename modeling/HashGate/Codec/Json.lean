import HashGate.Codec.Float

/-!
# `HashGate.Codec.Json` — `json.dumps` with its default options

`request` sends `json.dumps(json_data)` as the body and hashes the same text. This module models the C
encoder (`c_make_encoder`) on every value it serialises: `None`, `bool`, `int`, `float`, `str`, `list`,
`tuple`, and `dict` in insertion order, with `str`, `int`, `float`, `bool` or `None` keys. With the
default options it writes `", "` between items and `": "` after a key, a `tuple` as a list, a key as
the string of its value, a `float` as `float.__repr__` or `NaN`/`Infinity`/`-Infinity`
(`HashGate.Codec.Float`), and every string through `encode_basestring_ascii` (`ensure_ascii=True`):
printable ASCII other than `"` and `\` is copied, seven characters have a short escape, and the rest
are written `\uXXXX`, as a UTF-16 surrogate pair above `U+FFFF`.

A `str` is a list of code points, lone surrogates included, as in Python. Left out: values and keys of
other types, for which `json.dumps` raises `TypeError`, and containers that hold themselves
(`ValueError`), which no Lean value can.

`json.dumps` is not injective. A `tuple` and a `list` of the same items, a key and the string written
for it (`1` and `"1"`), a character above `U+FFFF` and its surrogate pair (`chr(0x10000)` and
`"\ud800\udc00"`), and two NaNs are written alike. `PyJson.normalize` makes exactly these
identifications: a value and its normal form are written alike (`dumpsValue_normalize`), and
`HashGate.Codec.JsonDecode` shows that normal forms written alike are equal. The output is printable
ASCII (`printable_dumpsValue`), so all byte encodings of it agree.

## Contents
- `CodePoint`, `PyKey`, `PyJson`, `PyJson.truthy`.
- `hex4`, `isSafe`, `escapeCodePoint`, `encodeBasestringAscii`, `PyKey.text`; `dumpsValue`,
  `dumpsItems`, `dumpsMembers`; `jsonDumps`.
- `printable_dumpsValue`: the output is printable ASCII.
- `joinSurrogates`, `noPair`, `PyJson.normalize`, `PyJson.isNormal`; `dumpsValue_normalize`,
  `isNormal_normalize`, `truthy_normalize`.
-/

namespace HashGate

/-! ## Values -/

/-- A code point, `U+0000` to `U+10FFFF`: what a Python `str` is a sequence of, lone surrogates
    included. -/
abbrev CodePoint := Fin 0x110000

/-- The code point of a Lean character, which is never a surrogate. -/
def CodePoint.ofChar (c : Char) : CodePoint :=
  ⟨c.toNat, by
    have hv : c.toNat < 0xd800 ∨ (0xdfff < c.toNat ∧ c.toNat < 0x110000) := c.valid
    omega⟩

/-- The code points of a Lean string. -/
def codePoints (s : String) : List CodePoint := s.data.map CodePoint.ofChar

/-- A `dict` key `json.dumps` accepts. -/
inductive PyKey where
  | str (s : List CodePoint)
  | int (n : Int)
  | float (x : PyFloat)
  | bool (b : Bool)
  | none
  deriving DecidableEq, Repr

/-- A Python value `json.dumps` serialises; a `dict` is its items in insertion order. -/
inductive PyJson where
  | none
  | bool (b : Bool)
  | int (n : Int)
  | float (x : PyFloat)
  | str (s : List CodePoint)
  | list (items : List PyJson)
  | tuple (items : List PyJson)
  | dict (items : List (PyKey × PyJson))
  deriving Repr

/-- Python truthiness: `None`, `False`, `0`, `0.0`, `-0.0`, `""` and the empty containers are false;
    a NaN is true. -/
def PyJson.truthy : PyJson → Bool
  | .none => false
  | .bool b => b
  | .int n => n != 0
  | .float x => x.mag != 0
  | .str s => !s.isEmpty
  | .list items => !items.isEmpty
  | .tuple items => !items.isEmpty
  | .dict items => !items.isEmpty

/-! ## `encode_basestring_ascii` -/

/-- `Py_hexdigits`. -/
def hexDigits : List Char := "0123456789abcdef".data

/-- Four lowercase hex digits of a value below `0x10000`, most significant first. -/
def hex4 (n : Nat) : List Char :=
  [12, 8, 4, 0].map fun s => hexDigits.getD ((n >>> s) % 16) '0'

/-- `S_CHAR`: printable ASCII other than `"` and `\`, which `encode_basestring_ascii` copies. -/
def isSafe (c : CodePoint) : Bool :=
  0x20 ≤ c.val && c.val ≤ 0x7e && c.val != 0x5c && c.val != 0x22

/-- `ascii_escape_unichar`, and the copy of a safe character: the seven short escapes, else
    `\uXXXX`, as a UTF-16 surrogate pair above `U+FFFF`. -/
def escapeCodePoint (c : CodePoint) : List Char :=
  if isSafe c then [Char.ofNat c.val]
  else '\\' :: match c.val with
    | 0x5c => ['\\']
    | 0x22 => ['"']
    | 0x08 => ['b']
    | 0x0c => ['f']
    | 0x0a => ['n']
    | 0x0d => ['r']
    | 0x09 => ['t']
    | n =>
      if 0x10000 ≤ n then 'u' :: hex4 (0xd7c0 + n / 0x400) ++ '\\' :: 'u' :: hex4 (0xdc00 + n % 0x400)
      else 'u' :: hex4 n

/-- `encode_basestring_ascii(s)`: `s` in double quotes, every code point not safe escaped. -/
def encodeBasestringAscii (s : List CodePoint) : List Char :=
  '"' :: s.flatMap escapeCodePoint ++ ['"']

/-- The string `encoder_listencode_dict` writes for a key: a `str` as it is, a `float` as
    `encoder_encode_float` writes it, `True`, `False` and `None` as `true`, `false` and `null`, an
    `int` in decimal. -/
def PyKey.text : PyKey → List CodePoint
  | .str s => s
  | .float x => (floatStr x).map CodePoint.ofChar
  | .bool b => codePoints (if b then "true" else "false")
  | .none => codePoints "null"
  | .int n => codePoints (toString n)

@[simp] theorem PyKey.text_str (s : List CodePoint) : (PyKey.str s).text = s := rfl

/-! ## `json.dumps` -/

mutual
/-- `encoder_listencode_obj` with the default options. -/
def dumpsValue : PyJson → List Char
  | .none => "null".data
  | .bool b => if b then "true".data else "false".data
  | .int n => (toString n).data
  | .float x => floatStr x
  | .str s => encodeBasestringAscii s
  | .list items => '[' :: dumpsItems items ++ [']']
  | .tuple items => '[' :: dumpsItems items ++ [']']
  | .dict items => '{' :: dumpsMembers items ++ ['}']
/-- The items of a list or a tuple, `", "` between two. -/
def dumpsItems : List PyJson → List Char
  | [] => []
  | [v] => dumpsValue v
  | v :: vs => dumpsValue v ++ ", ".data ++ dumpsItems vs
/-- The items of a dict, each `key: value`, `", "` between two. -/
def dumpsMembers : List (PyKey × PyJson) → List Char
  | [] => []
  | [(k, v)] => encodeBasestringAscii k.text ++ ": ".data ++ dumpsValue v
  | (k, v) :: ms =>
    encodeBasestringAscii k.text ++ ": ".data ++ dumpsValue v ++ ", ".data ++ dumpsMembers ms
end

/-- Python `json.dumps(obj)`. -/
def jsonDumps (v : PyJson) : String := ⟨dumpsValue v⟩

example : jsonDumps (.dict [(.str (codePoints "first"), .str (codePoints "Ada")),
    (.int 1, .tuple [.int (-1), .none, .bool true])]) =
    "\x7b\"first\": \"Ada\", \"1\": [-1, null, true]\x7d" := by
  decide

example : jsonDumps (.list [.str (codePoints "é\n😀"), .str [⟨0xd800, by decide⟩]]) =
    "[\"\\u00e9\\n\\ud83d\\ude00\", \"\\ud800\"]" := by
  decide

/-! ## The output is printable ASCII -/

/-- Printable ASCII, `' '` to `'~'`. -/
def IsPrintable (c : Char) : Prop := 0x20 ≤ c.toNat ∧ c.toNat ≤ 0x7e

instance (c : Char) : Decidable (IsPrintable c) := inferInstanceAs (Decidable (_ ∧ _))

theorem printable_hex4 (n : Nat) : ∀ c ∈ hex4 n, IsPrintable c := by
  have hd : ∀ c ∈ hexDigits, IsPrintable c := by decide
  have h (k : Nat) : IsPrintable (hexDigits.getD k '0') := by
    rw [List.getD_eq_getElem?_getD]
    cases hk : hexDigits[k]? with
    | none => decide
    | some c => exact hd c (List.getElem?_mem hk)
  simp only [hex4, List.mem_map]
  rintro _ ⟨s, -, rfl⟩
  exact h _

theorem toNat_ofNat_of_lt {n : Nat} (h : n < 0xd800) : (Char.ofNat n).toNat = n := by
  unfold Char.ofNat
  rw [dif_pos (Or.inl h)]
  rfl

theorem printable_escapeCodePoint (c : CodePoint) : ∀ x ∈ escapeCodePoint c, IsPrintable x := by
  unfold escapeCodePoint
  split
  · rename_i hs
    simp only [isSafe, Bool.and_eq_true, decide_eq_true_eq, bne_iff_ne, ne_eq] at hs
    simp only [List.mem_singleton]
    rintro x rfl
    unfold IsPrintable
    rw [toNat_ofNat_of_lt (by omega)]
    omega
  · intro x hx
    simp only [List.mem_cons] at hx
    rcases hx with rfl | hx
    · decide
    split at hx
    any_goals (simp only [List.mem_singleton] at hx; subst hx; decide)
    split at hx <;> simp only [List.mem_cons, List.mem_append] at hx
    · rcases hx with (rfl | hx) | rfl | rfl | hx
      any_goals decide
      all_goals exact printable_hex4 _ _ hx
    · rcases hx with rfl | hx
      · decide
      · exact printable_hex4 _ _ hx

theorem printable_of_isNumberChar {c : Char} (h : isNumberChar c) : IsPrintable c := by
  simp only [isNumberChar, Char.isDigit, Bool.or_eq_true, Bool.and_eq_true, decide_eq_true_eq,
    beq_iff_eq] at h
  rcases h with (((⟨h₁, h₂⟩ | rfl) | rfl) | rfl) | rfl
  · have h₁ : 48 ≤ c.toNat := h₁
    have h₂ : c.toNat ≤ 57 := h₂
    exact ⟨by omega, by omega⟩
  all_goals decide

theorem printable_floatStr (x : PyFloat) : ∀ c ∈ floatStr x, IsPrintable c := by
  unfold floatStr
  split
  · exact fun c hc => printable_of_isNumberChar (isNumberChar_of_mem_floatRepr x c hc)
  · split
    · decide
    · split <;> decide

theorem printable_decimal (n : Int) : ∀ c ∈ (toString n).data, IsPrintable c := fun _ hc =>
  (mem_decimal hc).elim (fun h => h ▸ by decide) fun h =>
    printable_of_isNumberChar (isNumberChar_of_isDigit h)

theorem printable_encodeBasestringAscii (s : List CodePoint) :
    ∀ c ∈ encodeBasestringAscii s, IsPrintable c := by
  simp only [encodeBasestringAscii, List.mem_cons, List.mem_append, List.mem_flatMap, List.not_mem_nil,
    or_false]
  rintro c ((rfl | ⟨x, -, hc⟩) | rfl)
  · decide
  · exact printable_escapeCodePoint x c hc
  · decide

mutual
/-- **`json.dumps` writes printable ASCII only.** -/
theorem printable_dumpsValue : ∀ v : PyJson, ∀ c ∈ dumpsValue v, IsPrintable c
  | .none => by decide
  | .bool b => by cases b <;> decide
  | .int n => printable_decimal n
  | .float x => printable_floatStr x
  | .str s => printable_encodeBasestringAscii s
  | .list items => by
    simp only [dumpsValue, List.mem_cons, List.mem_append, List.not_mem_nil, or_false]
    rintro c ((rfl | hc) | rfl)
    · decide
    · exact printable_dumpsItems items c hc
    · decide
  | .tuple items => by
    simp only [dumpsValue, List.mem_cons, List.mem_append, List.not_mem_nil, or_false]
    rintro c ((rfl | hc) | rfl)
    · decide
    · exact printable_dumpsItems items c hc
    · decide
  | .dict items => by
    simp only [dumpsValue, List.mem_cons, List.mem_append, List.not_mem_nil, or_false]
    rintro c ((rfl | hc) | rfl)
    · decide
    · exact printable_dumpsMembers items c hc
    · decide
theorem printable_dumpsItems : ∀ vs : List PyJson, ∀ c ∈ dumpsItems vs, IsPrintable c
  | [] => by simp [dumpsItems]
  | [v] => by simpa [dumpsItems] using printable_dumpsValue v
  | v :: w :: vs => by
    simp only [dumpsItems, List.mem_append]
    rintro c ((hc | hc) | hc)
    · exact printable_dumpsValue v c hc
    · revert c; decide
    · exact printable_dumpsItems (w :: vs) c hc
theorem printable_dumpsMembers : ∀ ms : List (PyKey × PyJson), ∀ c ∈ dumpsMembers ms, IsPrintable c
  | [] => by simp [dumpsMembers]
  | [(k, v)] => by
    simp only [dumpsMembers, List.mem_append]
    rintro c ((hc | hc) | hc)
    · exact printable_encodeBasestringAscii k.text c hc
    · revert c; decide
    · exact printable_dumpsValue v c hc
  | (k, v) :: m :: ms => by
    simp only [dumpsMembers, List.mem_append]
    rintro c ((((hc | hc) | hc) | hc) | hc)
    · exact printable_encodeBasestringAscii k.text c hc
    · revert c; decide
    · exact printable_dumpsValue v c hc
    · revert c; decide
    · exact printable_dumpsMembers (m :: ms) c hc
end

/-! ## What `json.dumps` identifies -/

/-- A high surrogate, `U+D800` to `U+DBFF`. -/
def isHigh (c : CodePoint) : Bool := 0xd800 ≤ c.val && c.val < 0xdc00

/-- A low surrogate, `U+DC00` to `U+DFFF`. -/
def isLow (c : CodePoint) : Bool := 0xdc00 ≤ c.val && c.val < 0xe000

/-- Replaces each surrogate pair, a high surrogate followed by a low one, by the character it encodes
    in UTF-16, from the left. -/
def joinSurrogates : List CodePoint → List CodePoint
  | h :: tl@(l :: rest) =>
    if hp : isHigh h ∧ isLow l then
      ⟨0x10000 + (h.val - 0xd800) * 0x400 + (l.val - 0xdc00), by
        simp only [isHigh, isLow, Bool.and_eq_true, decide_eq_true_eq] at hp
        omega⟩ :: joinSurrogates rest
    else h :: joinSurrogates tl
  | s => s

/-- No high surrogate is followed by a low one. -/
def noPair : List CodePoint → Bool
  | h :: tl@(l :: _) => !(isHigh h && isLow l) && noPair tl
  | _ => true

mutual
/-- The value as `json.dumps` sees it: a `tuple` as a `list`, a key as the string written for it,
    surrogate pairs joined, and every NaN as `float('nan')`. -/
def PyJson.normalize : PyJson → PyJson
  | .float x => .float (if x.isNaN then PyFloat.nan else x)
  | .str s => .str (joinSurrogates s)
  | .list items => .list (normalizeItems items)
  | .tuple items => .list (normalizeItems items)
  | .dict items => .dict (normalizeMembers items)
  | v => v
/-- `PyJson.normalize` on every item. -/
def normalizeItems : List PyJson → List PyJson
  | [] => []
  | v :: vs => v.normalize :: normalizeItems vs
/-- `PyJson.normalize` on every value, and every key made the string written for it. -/
def normalizeMembers : List (PyKey × PyJson) → List (PyKey × PyJson)
  | [] => []
  | (k, v) :: ms => (.str (joinSurrogates k.text), v.normalize) :: normalizeMembers ms
end

mutual
/-- A normal form: no `tuple`, only `str` keys, no surrogate pair, and no NaN but `float('nan')`. -/
def PyJson.isNormal : PyJson → Bool
  | .float x => !x.isNaN || x == PyFloat.nan
  | .str s => noPair s
  | .list items => isNormalItems items
  | .tuple _ => false
  | .dict items => isNormalMembers items
  | _ => true
/-- Every item is in normal form. -/
def isNormalItems : List PyJson → Bool
  | [] => true
  | v :: vs => v.isNormal && isNormalItems vs
/-- Every key is a `str` with no surrogate pair and every value is in normal form. -/
def isNormalMembers : List (PyKey × PyJson) → Bool
  | [] => true
  | (.str s, v) :: ms => noPair s && v.isNormal && isNormalMembers ms
  | _ :: _ => false
end

theorem escapeCodePoint_of_surrogate {c : CodePoint} (hc : 0xd800 ≤ c.val ∧ c.val < 0xe000) :
    escapeCodePoint c = '\\' :: 'u' :: hex4 c.val := by
  unfold escapeCodePoint
  rw [if_neg (by simp [isSafe]; omega)]
  split <;> first | omega | rw [if_neg (by omega)]

theorem escapeCodePoint_of_le {c : CodePoint} (hc : 0x10000 ≤ c.val) :
    escapeCodePoint c =
      '\\' :: 'u' :: hex4 (0xd7c0 + c.val / 0x400) ++ '\\' :: 'u' :: hex4 (0xdc00 + c.val % 0x400) := by
  unfold escapeCodePoint
  rw [if_neg (by simp [isSafe]; omega)]
  split <;> first | omega | rw [if_pos hc]; rfl

/-- **A surrogate pair is escaped as the character it encodes.** -/
theorem escapes_joinSurrogates (s : List CodePoint) :
    (joinSurrogates s).flatMap escapeCodePoint = s.flatMap escapeCodePoint := by
  induction s using joinSurrogates.induct with
  | case1 h l rest hp ih =>
    simp only [isHigh, isLow, Bool.and_eq_true, decide_eq_true_eq] at hp
    rw [joinSurrogates, dif_pos (by simpa [isHigh, isLow] using hp), List.flatMap_cons, ih,
      escapeCodePoint_of_le (by simp; omega), List.flatMap_cons, List.flatMap_cons,
      escapeCodePoint_of_surrogate (by omega), escapeCodePoint_of_surrogate (by omega)]
    have hhi : 0xd7c0 + (0x10000 + (h.val - 0xd800) * 0x400 + (l.val - 0xdc00)) / 0x400 = h.val := by
      omega
    have hlo : 0xdc00 + (0x10000 + (h.val - 0xd800) * 0x400 + (l.val - 0xdc00)) % 0x400 = l.val := by
      omega
    simp only [hhi, hlo, List.cons_append, List.append_assoc]
  | case2 h l rest hp ih =>
    rw [joinSurrogates, dif_neg hp, List.flatMap_cons, ih]
    rfl
  | case3 s h => rw [joinSurrogates.eq_2 s h]

/-- The first code point left by joining is the first one given, or a joined pair. -/
theorem isLow_head_joinSurrogates (l : CodePoint) (rest : List CodePoint) :
    ∀ c ∈ (joinSurrogates (l :: rest)).head?, isLow c → isLow l := by
  cases rest with
  | nil => simp [joinSurrogates]
  | cons l' rest =>
    rw [joinSurrogates]
    split
    · simp [isLow]
      omega
    · simp

/-- `noPair` one code point at a time: a high surrogate must not be followed by a low one. -/
theorem noPair_cons (c : CodePoint) (t : List CodePoint) :
    noPair (c :: t) = (!(isHigh c && t.head?.any isLow) && noPair t) := by
  cases t <;> simp [noPair]

/-- **Joining leaves no surrogate pair.** -/
theorem noPair_joinSurrogates (s : List CodePoint) : noPair (joinSurrogates s) := by
  induction s using joinSurrogates.induct with
  | case1 h l rest hp ih =>
    rw [joinSurrogates, dif_pos (by simpa using hp), noPair_cons, ih]
    simp [isHigh]
    omega
  | case2 h l rest hp ih =>
    rw [joinSurrogates, dif_neg hp, noPair_cons, ih, Bool.and_true, Bool.not_eq_true',
      Bool.and_eq_false_iff]
    cases hj : (joinSurrogates (l :: rest)).head? with
    | none => exact .inr rfl
    | some c =>
      by_cases hc : isLow c
      · exact .inl (by simpa [isLow_head_joinSurrogates l rest c hj hc] using hp)
      · exact .inr (by simpa using hc)
  | case3 s h => rw [joinSurrogates.eq_2 s h, noPair.eq_2 s h]

theorem encodeBasestringAscii_joinSurrogates (s : List CodePoint) :
    encodeBasestringAscii (joinSurrogates s) = encodeBasestringAscii s := by
  rw [encodeBasestringAscii, escapes_joinSurrogates, encodeBasestringAscii]

theorem floatStr_normalize (x : PyFloat) :
    floatStr (if x.isNaN then PyFloat.nan else x) = floatStr x := by
  split
  · exact floatStr_eq_iff.mpr (.inr ⟨rfl, ‹_›⟩)
  · rfl

mutual
/-- **A value and its normal form are written alike.** -/
theorem dumpsValue_normalize : ∀ v : PyJson, dumpsValue v.normalize = dumpsValue v
  | .none | .bool _ | .int _ => rfl
  | .float x => floatStr_normalize x
  | .str s => by simp only [PyJson.normalize, dumpsValue, encodeBasestringAscii_joinSurrogates]
  | .list items => by simp only [PyJson.normalize, dumpsValue, dumpsItems_normalize items]
  | .tuple items => by simp only [PyJson.normalize, dumpsValue, dumpsItems_normalize items]
  | .dict items => by simp only [PyJson.normalize, dumpsValue, dumpsMembers_normalize items]
theorem dumpsItems_normalize : ∀ vs : List PyJson, dumpsItems (normalizeItems vs) = dumpsItems vs
  | [] => rfl
  | [v] => by simp only [normalizeItems, dumpsItems, dumpsValue_normalize v]
  | v :: w :: vs => by
    have := dumpsItems_normalize (w :: vs)
    simp only [normalizeItems] at this ⊢
    simp only [dumpsItems, dumpsValue_normalize v, this]
theorem dumpsMembers_normalize :
    ∀ ms : List (PyKey × PyJson), dumpsMembers (normalizeMembers ms) = dumpsMembers ms
  | [] => rfl
  | [(k, v)] => by
    simp only [normalizeMembers, dumpsMembers, PyKey.text_str, encodeBasestringAscii_joinSurrogates,
      dumpsValue_normalize v]
  | (k, v) :: (k', v') :: ms => by
    have := dumpsMembers_normalize ((k', v') :: ms)
    simp only [normalizeMembers] at this ⊢
    simp only [dumpsMembers, PyKey.text_str, encodeBasestringAscii_joinSurrogates, dumpsValue_normalize v,
      this]
end

mutual
/-- **The normal form is normal.** -/
theorem isNormal_normalize : ∀ v : PyJson, v.normalize.isNormal
  | .none | .bool _ | .int _ => rfl
  | .float x => by
    simp only [PyJson.normalize, PyJson.isNormal]
    split <;> simp_all
  | .str s => noPair_joinSurrogates s
  | .list items => isNormalItems_normalize items
  | .tuple items => isNormalItems_normalize items
  | .dict items => isNormalMembers_normalize items
theorem isNormalItems_normalize : ∀ vs : List PyJson, isNormalItems (normalizeItems vs)
  | [] => rfl
  | v :: vs => by
    simp only [normalizeItems, isNormalItems, isNormal_normalize v, isNormalItems_normalize vs,
      Bool.and_self]
theorem isNormalMembers_normalize :
    ∀ ms : List (PyKey × PyJson), isNormalMembers (normalizeMembers ms)
  | [] => rfl
  | (k, v) :: ms => by
    simp only [normalizeMembers, isNormalMembers, noPair_joinSurrogates, isNormal_normalize v,
      isNormalMembers_normalize ms, Bool.and_self]
end

theorem isEmpty_joinSurrogates (s : List CodePoint) : (joinSurrogates s).isEmpty = s.isEmpty := by
  induction s using joinSurrogates.induct with
  | case1 h l rest hp _ => rw [joinSurrogates, dif_pos hp, List.isEmpty_cons, List.isEmpty_cons]
  | case2 h l rest hp _ => rw [joinSurrogates, dif_neg hp, List.isEmpty_cons, List.isEmpty_cons]
  | case3 s h => rw [joinSurrogates.eq_2 s h]

/-- **Normalising keeps truthiness.** -/
theorem truthy_normalize (v : PyJson) : v.normalize.truthy = v.truthy := by
  cases v with
  | float x =>
    simp only [PyJson.normalize, PyJson.truthy]
    split
    · rename_i h
      simp only [PyFloat.isNaN, Bool.and_eq_true, beq_iff_eq, bne_iff_ne, ne_eq] at h
      have hnan := PyFloat.mag_pos (x := PyFloat.nan) (by decide)
      have hx := PyFloat.mag_pos (x := x) (by omega)
      rw [bne_iff_ne.mpr hnan.ne', bne_iff_ne.mpr hx.ne']
    · rfl
  | str s => simp only [PyJson.normalize, PyJson.truthy, isEmpty_joinSurrogates]
  | list items | tuple items => cases items <;> rfl
  | dict items => cases items <;> rfl
  | _ => rfl

end HashGate
