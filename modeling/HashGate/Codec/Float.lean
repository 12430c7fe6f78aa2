import HashGate.Prelude.Str

/-!
# `HashGate.Codec.Float` — a `float` as `json.dumps` writes it

`json.dumps` writes a `float` with `float.__repr__`, and writes `NaN`, `Infinity` and `-Infinity` for
the values that are not finite (`allow_nan=True`). `repr` writes the shortest decimal that `float()`
reads back as the same value (`_Py_dg_dtoa` in mode 0), laid out by `format_float_short`: positionally,
with `.0` after an integer, or in exponent notation below `1e-4` and from `1e16` on.

A value is modelled by its binary64 fields, and magnitudes by naturals in units of `2^-1074`, so that
every finite value and every decimal is a fraction of naturals. `float()`'s rounding is `roundMag`: the
nearest binary64 magnitude, ties to even, or `none` past the largest. `repr`'s digits are found by search
rather than by dtoa's bignum loop: at 1 to 17 significant digits, the two decimals on either side of
the value, kept when `float()` reads them back as the value, the nearer of two, ties to even. No binary64
value needs more than 17 digits; past them the exact value stands in.

What the JSON results need of all this: `repr` is read back by `float()` (`floatOfDecimal_reprDigits`),
and its text gives back the decimal it was made from (`readDecimal_formatShort`), so `floatStr` tells
two values apart unless both are NaN (`floatStr_eq_iff`).

## Contents
- `PyFloat` and its magnitude; `rne`, `ulpExp`, `roundMag`: `float()`'s rounding.
- `decimalMag`, `floatOfDecimal`, `nearestDigits`, `reprDigits`: `repr`'s digits;
  `exponentText`, `formatShort`, `floatRepr`, `floatStr`.
- `ulpExp_spec`, `roundMag_scale`, `roundMag_exact`: rounding depends on the value alone and keeps a
  binary64 magnitude.
- `floatOfDecimal_reprDigits`: `float(repr(x))` is `x`.
- `readDecimal_formatShort`, `floatRepr_injective`, `floatStr_eq_iff`.
- The characters `floatStr` writes, for the JSON reader.
-/

namespace HashGate

/-! ## Binary64 values -/

/-- A Python `float`: a binary64 floating-point number, as its sign bit, its 11-bit biased exponent and its
    52-bit fraction. -/
structure PyFloat where
  sign : Bool
  biasedExp : Fin 2048
  fraction : Fin (2 ^ 52)
  deriving DecidableEq, Repr

namespace PyFloat

/-- `Py_IS_FINITE`: the biased exponent is not all ones. -/
def isFinite (x : PyFloat) : Bool := x.biasedExp.val != 2047

/-- `Py_IS_NAN`: the biased exponent is all ones and the fraction is not zero. -/
def isNaN (x : PyFloat) : Bool := x.biasedExp.val == 2047 && x.fraction.val != 0

/-- `float('nan')`, the quiet NaN CPython builds. -/
def nan : PyFloat := ⟨false, 2047, ⟨2 ^ 51, by decide⟩⟩

/-- The significand: the fraction, with the hidden bit of a normal number. -/
def sig (x : PyFloat) : Nat := if x.biasedExp.val = 0 then x.fraction.val else x.fraction.val + 2 ^ 52

/-- The exponent of the significand's unit, counted from the least subnormal, `2^-1074`. -/
def uexp (x : PyFloat) : Nat := x.biasedExp.val - 1

/-- The magnitude, in units of `2^-1074`. -/
def mag (x : PyFloat) : Nat := x.sig * 2 ^ x.uexp

end PyFloat

/-! ## `float()`: rounding a magnitude -/

/-- The integer nearest `a / d`, the even one of two. -/
def rne (a d : Nat) : Nat :=
  if 2 * (a % d) < d then a / d
  else if d < 2 * (a % d) then a / d + 1
  else if a / d % 2 = 0 then a / d else a / d + 1

/-- The unit exponent of the binade of the magnitude `a / d`: the `p` with
    `2^(p+52) ≤ a / d < 2^(p+53)`, or `0` below `2^52`. -/
def ulpExp (a d : Nat) : Nat :=
  let p := a.log2 - (d.log2 + 52)
  if 0 < p ∧ a < d * 2 ^ (p + 52) then p - 1 else p

/-- The magnitude `a / d` rounded to binary64, ties to even: its significand and unit exponent, or
    `none` past the largest finite magnitude. -/
def roundMag (a d : Nat) : Option (Nat × Nat) :=
  let p := ulpExp a d
  let m := rne a (d * 2 ^ p)
  if m = 2 ^ 53 then if p + 1 ≤ 2045 then some (2 ^ 52, p + 1) else none
  else if p ≤ 2045 then some (m, p) else none

/-! ## The fields -/

namespace PyFloat

theorem sig_lt (x : PyFloat) : x.sig < 2 ^ 53 := by
  have := x.fraction.isLt
  unfold sig
  split <;> omega

/-- Below `2^52`, a significand's unit is the least one. -/
theorem sig_normal (x : PyFloat) : x.uexp = 0 ∨ 2 ^ 52 ≤ x.sig := by
  unfold sig uexp
  split <;> omega

theorem uexp_le {x : PyFloat} (hx : x.isFinite) : x.uexp ≤ 2045 := by
  have := x.biasedExp.isLt
  simp only [isFinite, bne_iff_ne, ne_eq] at hx
  unfold uexp
  omega

/-- The sign, the significand and the unit exponent determine a value. -/
theorem eq_of_sig_uexp {x y : PyFloat} (hs : x.sign = y.sign) (hsig : x.sig = y.sig)
    (hu : x.uexp = y.uexp) : x = y := by
  obtain ⟨s, ⟨e, he⟩, ⟨f, hf⟩⟩ := x
  obtain ⟨s', ⟨e', he'⟩, ⟨f', hf'⟩⟩ := y
  simp only [sig, uexp] at hsig hu
  obtain ⟨rfl, rfl⟩ : e = e' ∧ f = f' := by split at hsig <;> split at hsig <;> omega
  cases hs
  rfl

theorem mag_pos {x : PyFloat} (h : x.biasedExp.val ≠ 0) : 0 < x.mag := by
  unfold mag sig
  rw [if_neg h]
  positivity

theorem sig_uexp_of_mag_eq_zero {x : PyFloat} (h : x.mag = 0) : x.sig = 0 ∧ x.uexp = 0 := by
  have hs : x.sig = 0 := (Nat.mul_eq_zero.mp h).resolve_right (Nat.two_pow_pos _).ne'
  exact ⟨hs, (sig_normal x).resolve_right (by omega)⟩

end PyFloat

/-! ## Rounding depends on the value alone -/

theorem rne_mul (m : Nat) {d : Nat} (hd : 0 < d) : rne (m * d) d = m := by
  simp [rne, Nat.mul_mod_left, Nat.mul_div_cancel _ hd, hd]

theorem rne_scale (a d : Nat) {c : Nat} (hc : 0 < c) : rne (a * c) (d * c) = rne a d := by
  unfold rne
  rw [Nat.mul_div_mul_right _ _ hc, Nat.mul_mod_mul_right, ← Nat.mul_assoc]
  simp only [Nat.mul_lt_mul_right hc]

/-- `p` is the unit exponent of the binade of the magnitude `a / d`. -/
def UlpSpec (a d p : Nat) : Prop := a < d * 2 ^ (p + 53) ∧ (p = 0 ∨ d * 2 ^ (p + 52) ≤ a)

theorem ulpExp_spec {a d : Nat} (ha : 0 < a) (hd : 0 < d) : UlpSpec a d (ulpExp a d) := by
  have la1 := Nat.log2_self_le (Nat.pos_iff_ne_zero.mp ha)
  have la2 := Nat.lt_log2_self (n := a)
  have ld1 := Nat.log2_self_le (Nat.pos_iff_ne_zero.mp hd)
  have ld2 := Nat.lt_log2_self (n := d)
  unfold ulpExp UlpSpec
  generalize a.log2 = la at *
  generalize d.log2 = ld at *
  dsimp only
  split
  · rename_i h
    obtain ⟨hp, hlt⟩ := h
    refine ⟨by rwa [show la - (ld + 52) - 1 + 53 = la - (ld + 52) + 52 by omega], .inr ?_⟩
    calc d * 2 ^ (la - (ld + 52) - 1 + 52)
        ≤ 2 ^ (ld + 1) * 2 ^ (la - (ld + 52) - 1 + 52) := Nat.mul_le_mul_right _ ld2.le
      _ = 2 ^ la := by rw [← Nat.pow_add]; congr 1; omega
      _ ≤ a := la1
  · rename_i h
    refine ⟨?_, ?_⟩
    · calc a < 2 ^ (la + 1) := la2
        _ ≤ 2 ^ ld * 2 ^ (la - (ld + 52) + 53) := by
          rw [← Nat.pow_add]; exact Nat.pow_le_pow_right (by decide) (by omega)
        _ ≤ d * 2 ^ (la - (ld + 52) + 53) := Nat.mul_le_mul_right _ ld1
    · by_cases h0 : la - (ld + 52) = 0
      · exact .inl h0
      · exact .inr (Nat.le_of_not_lt fun h' => h ⟨by omega, h'⟩)

theorem ulpSpec_unique {a d p q : Nat} (hp : UlpSpec a d p) (hq : UlpSpec a d q) : p = q := by
  have le {p q : Nat} (hp : UlpSpec a d p) (hq : UlpSpec a d q) : q ≤ p := by
    rcases hq.2 with h | h
    · omega
    · have := (Nat.pow_lt_pow_iff_right (by decide)).mp
        (Nat.lt_of_mul_lt_mul_left (Nat.lt_of_le_of_lt h hp.1))
      omega
  exact Nat.le_antisymm (le hq hp) (le hp hq)

theorem ulpSpec_scale {a d p c : Nat} (hc : 0 < c) : UlpSpec (a * c) (d * c) p ↔ UlpSpec a d p := by
  unfold UlpSpec
  simp only [Nat.mul_right_comm d c, Nat.mul_lt_mul_right hc, mul_le_mul_iff_of_pos_right hc]

/-- **Rounding depends on the value alone**, not on the fraction that writes it. -/
theorem roundMag_scale {a d c : Nat} (ha : 0 < a) (hd : 0 < d) (hc : 0 < c) :
    roundMag (a * c) (d * c) = roundMag a d := by
  have hu : ulpExp (a * c) (d * c) = ulpExp a d := ulpSpec_unique
    (ulpExp_spec (Nat.mul_pos ha hc) (Nat.mul_pos hd hc)) ((ulpSpec_scale hc).mpr (ulpExp_spec ha hd))
  unfold roundMag
  dsimp only
  rw [hu, Nat.mul_right_comm d c, rne_scale _ _ hc]

theorem roundMag_cross {a d a' d' : Nat} (ha : 0 < a) (hd : 0 < d) (ha' : 0 < a') (hd' : 0 < d')
    (h : a * d' = a' * d) : roundMag a d = roundMag a' d' := by
  rw [← roundMag_scale ha hd hd', h, Nat.mul_comm d d', roundMag_scale ha' hd' hd]

theorem roundMag_zero {d : Nat} (hd : 0 < d) : roundMag 0 d = some (0, 0) := by
  simp [roundMag, ulpExp, rne, hd]

/-- **A binary64 magnitude is its own rounding.** -/
theorem roundMag_exact {x : PyFloat} (hx : x.isFinite) {d : Nat} (hd : 0 < d) :
    roundMag (x.mag * d) d = some (x.sig, x.uexp) := by
  rcases Nat.eq_zero_or_pos x.mag with h0 | h0
  · obtain ⟨hs, hu⟩ := PyFloat.sig_uexp_of_mag_eq_zero h0
    rw [h0, Nat.zero_mul, hs, hu, roundMag_zero hd]
  have hunit : 0 < d * 2 ^ x.uexp := Nat.mul_pos hd (Nat.two_pow_pos _)
  have hmag : x.mag * d = x.sig * (d * 2 ^ x.uexp) := by
    unfold PyFloat.mag
    rw [Nat.mul_comm d, Nat.mul_assoc]
  have hpow (k : Nat) : d * 2 ^ (x.uexp + k) = 2 ^ k * (d * 2 ^ x.uexp) := by
    rw [Nat.pow_add, Nat.mul_comm (2 ^ x.uexp), ← Nat.mul_assoc, Nat.mul_comm d, Nat.mul_assoc]
  have hspec : UlpSpec (x.mag * d) d x.uexp := by
    refine ⟨?_, (x.sig_normal).imp id fun h => ?_⟩
    · rw [hmag, hpow]
      exact Nat.mul_lt_mul_of_pos_right x.sig_lt hunit
    · rw [hmag, hpow]
      exact Nat.mul_le_mul_right _ h
  have hu := ulpSpec_unique (ulpExp_spec (Nat.mul_pos h0 hd) hd) hspec
  unfold roundMag
  dsimp only
  rw [hu, hmag, rne_mul _ hunit, if_neg x.sig_lt.ne, if_pos (PyFloat.uexp_le hx)]

/-! ## `repr`'s digits -/

/-- The decimal `c × 10^e` as a magnitude: numerator and denominator, in units of `2^-1074`. -/
def decimalMag (c : Nat) (e : Int) : Nat × Nat :=
  (c * 10 ^ e.toNat * 2 ^ 1074, 10 ^ (-e).toNat)

/-- `float()` of the decimal `c × 10^e`, as significand and unit exponent. -/
def floatOfDecimal (c : Nat) (e : Int) : Option (Nat × Nat) :=
  roundMag (decimalMag c e).1 (decimalMag c e).2

/-- `⌊log₁₀ n⌋` for a positive `n`: its number of decimal digits, less one. -/
def log10 (n : Nat) : Nat := (Nat.repr n).length - 1

/-- `⌊log₁₀ (a / d)⌋` for positive `a` and `d`. -/
def decimalExp (a d : Nat) : Int :=
  if d ≤ a then log10 (a / d) else -((log10 ((d - 1) / a) + 1 : Nat) : Int)

/-- Of `lo` and `lo + 1`, around the value `lo + r / den` with `r < den`, those `ok` accepts; of two,
    the nearer, ties to the even one. -/
def chooseNearest (ok : Nat → Bool) (lo r den : Nat) : Option Nat :=
  if r = 0 then (if ok lo then some lo else none)
  else match ok lo, ok (lo + 1) with
    | true, true => if 2 * r < den ∨ (2 * r = den ∧ lo % 2 = 0) then some lo else some (lo + 1)
    | true, false => some lo
    | false, true => some (lo + 1)
    | false, false => none

/-- The decimals of `n` significant digits on either side of the magnitude of `x`, whose decimal
    exponent is `e10`: `⌊x × 10^k⌋` and the next, for `k = n - 1 - e10`. Of those `float()` reads back
    as `x`, the nearer, ties to even. -/
def nearestDigits (x : PyFloat) (e10 : Int) (n : Nat) : Option (Nat × Int) :=
  let k : Int := n - 1 - e10
  let num := x.mag * 10 ^ k.toNat
  let den := 2 ^ 1074 * 10 ^ (-k).toNat
  (chooseNearest (fun c => floatOfDecimal c (-k) == some (x.sig, x.uexp)) (num / den) (num % den) den).map
    (·, -k)

/-- Drops trailing zero digits of `c × 10^e`, at most `fuel` of them. -/
def stripZeros : Nat → Nat → Int → Nat × Int
  | 0, c, e => (c, e)
  | fuel + 1, c, e => if 0 < c ∧ c % 10 = 0 then stripZeros fuel (c / 10) (e + 1) else (c, e)

/-- `_Py_dg_dtoa(x, 0, ...)`, as the digits `c` and exponent `e` of `c × 10^e`: the fewest significant
    digits, 1 to 17, that `float()` reads back as `x`, and of two such decimals the nearer, ties to
    even; `0` for a zero. No binary64 value needs more than 17 digits; past them the exact value
    stands in. -/
def reprDigits (x : PyFloat) : Nat × Int :=
  if x.mag = 0 then (0, 0)
  else match (List.range 17).findSome? fun i => nearestDigits x (decimalExp x.mag (2 ^ 1074)) (i + 1) with
    | some (c, e) => stripZeros 17 c e
    | none => (x.mag * 5 ^ 1074, -1074)

/-! ## The text -/

/-- `"%+.02d"`: a sign, then at least two digits. -/
def exponentText (n : Int) : List Char :=
  (if n < 0 then '-' else '+') :: ((if n.natAbs < 10 then ['0'] else []) ++ (Nat.repr n.natAbs).data)

/-- `format_float_short` for the `'r'` code with `Py_DTSF_ADD_DOT_0`, the sign apart: the digits `ds`
    with the decimal point `decpt` places after their start; in exponent notation when `decpt ≤ -4` or
    `16 < decpt`, else positionally, padded with zeros, and with `.0` after an integer. -/
def formatShort (ds : List Char) (decpt : Int) : List Char :=
  if decpt ≤ -4 ∨ 16 < decpt then
    ds.take 1 ++ (if ds.length ≤ 1 then [] else '.' :: ds.drop 1) ++ 'e' :: exponentText (decpt - 1)
  else if decpt ≤ 0 then '0' :: '.' :: (List.replicate (-decpt).toNat '0' ++ ds)
  else if decpt < ds.length then ds.take decpt.toNat ++ '.' :: ds.drop decpt.toNat
  else ds ++ List.replicate (decpt.toNat - ds.length) '0' ++ ['.', '0']

/-- `float.__repr__` of a finite value. -/
def floatRepr (x : PyFloat) : List Char :=
  let ds := (Nat.repr (reprDigits x).1).data
  (if x.sign then ['-'] else []) ++ formatShort ds (ds.length + (reprDigits x).2)

/-- `encoder_encode_float`: `float.__repr__` of a finite value; `NaN`, `-Infinity` and `Infinity` for
    the others (`allow_nan=True`). -/
def floatStr (x : PyFloat) : List Char :=
  if x.isFinite then floatRepr x
  else if x.isNaN then "NaN".data
  else if x.sign then "-Infinity".data else "Infinity".data


/-! ## `float(repr(x))` is `x` -/

theorem floatOfDecimal_zero (e : Int) : floatOfDecimal 0 e = some (0, 0) := by
  simp only [floatOfDecimal, decimalMag, Nat.zero_mul]
  exact roundMag_zero (by positivity)

/-- Moving zeros from the digits to the exponent does not change what `float()` reads. -/
theorem floatOfDecimal_shift (c : Nat) (e : Int) (t : Nat) :
    floatOfDecimal (c * 10 ^ t) (e - t) = floatOfDecimal c e := by
  rcases Nat.eq_zero_or_pos c with rfl | hc
  · simp only [Nat.zero_mul, floatOfDecimal_zero]
  unfold floatOfDecimal decimalMag
  apply roundMag_cross (by positivity) (by positivity) (by positivity) (by positivity)
  have hexp : t + (e - t).toNat + (-e).toNat = e.toNat + (-(e - t)).toNat := by omega
  generalize (2 : Nat) ^ 1074 = M
  calc c * 10 ^ t * 10 ^ (e - t).toNat * M * 10 ^ (-e).toNat
      = c * M * 10 ^ (t + (e - t).toNat + (-e).toNat) := by ring
    _ = c * 10 ^ e.toNat * M * 10 ^ (-(e - t)).toNat := by rw [hexp]; ring

theorem floatOfDecimal_stripZeros : ∀ fuel c e,
    floatOfDecimal (stripZeros fuel c e).1 (stripZeros fuel c e).2 = floatOfDecimal c e
  | 0, _, _ => rfl
  | fuel + 1, c, e => by
    unfold stripZeros
    split
    · rename_i h
      rw [floatOfDecimal_stripZeros fuel, ← floatOfDecimal_shift (c / 10) (e + 1) 1,
        show c / 10 * 10 ^ 1 = c by omega, show e + 1 - ((1 : Nat) : Int) = e by omega]
    · rfl

theorem ok_of_chooseNearest {ok : Nat → Bool} {lo r den c : Nat} (h : chooseNearest ok lo r den = some c) :
    ok c = true := by
  unfold chooseNearest at h
  split at h
  · split at h <;> cases h
    assumption
  · split at h <;> (try split at h) <;> cases h <;> assumption

/-- What `nearestDigits` offers, `float()` reads back as `x`. -/
theorem floatOfDecimal_of_nearestDigits {x : PyFloat} {e10 : Int} {n c : Nat} {e : Int}
    (h : nearestDigits x e10 n = some (c, e)) : floatOfDecimal c e = some (x.sig, x.uexp) := by
  obtain ⟨c', hc', hce⟩ := Option.map_eq_some'.mp h
  cases hce
  simpa using ok_of_chooseNearest hc'

/-- **`float(repr(x))` is `x`**: the decimal `repr` writes for a finite `x` reads back as the magnitude
    of `x`. -/
theorem floatOfDecimal_reprDigits {x : PyFloat} (hx : x.isFinite) :
    floatOfDecimal (reprDigits x).1 (reprDigits x).2 = some (x.sig, x.uexp) := by
  unfold reprDigits
  split
  · obtain ⟨hs, hu⟩ := PyFloat.sig_uexp_of_mag_eq_zero ‹_›
    rw [hs, hu]
    exact floatOfDecimal_zero 0
  · split
    · rename_i hfind
      obtain ⟨i, -, hi⟩ := List.exists_of_findSome?_eq_some hfind
      rw [floatOfDecimal_stripZeros]
      exact floatOfDecimal_of_nearestDigits hi
    · have hmag (n : Nat) :
          decimalMag (x.mag * 5 ^ n) (-(n : Int)) = (x.mag * (5 ^ n * 2 ^ 1074), 10 ^ n) := by
        simp [decimalMag, Nat.mul_assoc, -Nat.reducePow]
      have h10 (n : Nat) : 5 ^ n * 2 ^ n = 10 ^ n := (Nat.mul_pow 5 2 n).symm
      rw [show (-1074 : Int) = -((1074 : Nat) : Int) from rfl, floatOfDecimal, hmag, h10]
      exact roundMag_exact hx (by positivity)

/-! ## The text reads back

`readDecimal` reads a text `formatShort` writes back as a decimal `c × 10^e`. It is a proof device,
not a model of `float()`'s parser. -/

/-- The exponent after `e`: a sign, then digits. -/
def readExponent : List Char → Int
  | '-' :: ds => -(digitsValue 0 ds : Int)
  | '+' :: ds => digitsValue 0 ds
  | _ => 0

/-- The value of every digit, the point skipped, and the exponent after `e` less the number of digits
    after the point. -/
def readDecimal (s : List Char) : Nat × Int :=
  let (m, ex) := (splitFirst 'e' s).getD (s, [])
  let (ip, fp) := (splitFirst '.' m).getD (m, [])
  (digitsValue 0 (ip ++ fp), readExponent ex - fp.length)

theorem splitFirst_of_not_mem {d : Char} {s : List Char} (h : d ∉ s) : splitFirst d s = none := by
  cases hs : splitFirst d s with
  | none => rfl
  | some p => exact absurd ((eq_of_splitFirst_eq_some hs).1 ▸ by simp) h

theorem digitsValue_append (acc : Nat) (l l' : List Char) :
    digitsValue acc (l ++ l') = digitsValue (digitsValue acc l) l' :=
  List.foldl_append _ _ _ _

theorem digitsValue_zero_cons (acc : Nat) (l : List Char) :
    digitsValue acc ('0' :: l) = digitsValue (acc * 10) l :=
  rfl

theorem digitsValue_zeros (acc k : Nat) : digitsValue acc (List.replicate k '0') = acc * 10 ^ k := by
  induction k generalizing acc with
  | zero => simp [digitsValue]
  | succ k ih => rw [List.replicate_succ, digitsValue_zero_cons, ih, Nat.pow_succ']; ring

theorem readExponent_exponentText (n : Int) : readExponent (exponentText n) = n := by
  have hv : digitsValue 0 ((if n.natAbs < 10 then ['0'] else []) ++ (Nat.repr n.natAbs).data) =
      n.natAbs := by
    split <;> exact digitsValue_repr _
  unfold exponentText
  split <;> simp only [readExponent, hv] <;> omega

theorem not_mem_repr {n : Nat} {c : Char} (hc : c.isDigit = false) : c ∉ (Nat.repr n).data :=
  fun h => by simp [isDigit_of_mem_repr h] at hc

/-- **The text gives back its decimal**: read back, what `formatShort` writes for the digits of `c`
    is `c`, followed by as many zeros as the text pads it with. -/
theorem readDecimal_formatShort (c : Nat) (decpt : Int) :
    ∃ t : Nat, readDecimal (formatShort (Nat.repr c).data decpt) =
      (c * 10 ^ t, decpt - (Nat.repr c).data.length - t) := by
  have hpt : '.' ∉ (Nat.repr c).data := not_mem_repr rfl
  have he : 'e' ∉ (Nat.repr c).data := not_mem_repr rfl
  have hval := digitsValue_repr c
  have hlen : 0 < (Nat.repr c).data.length := List.length_pos.mpr (repr_ne_nil c)
  generalize (Nat.repr c).data = ds at *
  have hnoe : ∀ l, 'e' ∉ l → splitFirst 'e' l = none := fun _ => splitFirst_of_not_mem
  have htake (k : Nat) : '.' ∉ ds.take k ∧ 'e' ∉ ds.take k :=
    ⟨fun h => hpt (List.mem_of_mem_take h), fun h => he (List.mem_of_mem_take h)⟩
  have hdrop (k : Nat) : '.' ∉ ds.drop k ∧ 'e' ∉ ds.drop k :=
    ⟨fun h => hpt (List.mem_of_mem_drop h), fun h => he (List.mem_of_mem_drop h)⟩
  unfold formatShort
  split_ifs with h1 h2 h3 h4
  · -- exponent notation, one digit
    refine ⟨0, ?_⟩
    rw [readDecimal, List.append_nil, splitFirst_append_cons (htake 1).2]
    dsimp only [Option.getD_some]
    rw [splitFirst_of_not_mem (htake 1).1, List.take_of_length_le h2, readExponent_exponentText]
    simp only [Option.getD_none, List.append_nil, List.length_nil, Prod.mk.injEq, pow_zero,
      Nat.mul_one]
    exact ⟨hval, by omega⟩
  · -- exponent notation, a point after the first digit
    refine ⟨0, ?_⟩
    rw [readDecimal, splitFirst_append_cons fun h => by
      simp only [List.mem_append, List.mem_cons] at h
      rcases h with h | h | h
      exacts [(htake 1).2 h, absurd h (by decide), (hdrop 1).2 h]]
    dsimp only [Option.getD_some]
    rw [splitFirst_append_cons (htake 1).1, readExponent_exponentText]
    simp only [Option.getD_some, List.take_append_drop, List.length_drop, Prod.mk.injEq, pow_zero,
      Nat.mul_one]
    exact ⟨hval, by omega⟩
  · -- `0.`, zeros, the digits
    refine ⟨0, ?_⟩
    have hsplit : splitFirst '.' ('0' :: '.' :: (List.replicate (-decpt).toNat '0' ++ ds)) =
        some (['0'], List.replicate (-decpt).toNat '0' ++ ds) :=
      splitFirst_append_cons (a := ['0']) (by decide)
    rw [readDecimal, hnoe _ (by simp [he])]
    dsimp only [Option.getD_none]
    rw [hsplit]
    simp only [Option.getD_some, readExponent, Prod.mk.injEq, pow_zero, Nat.mul_one,
      List.length_append, List.length_replicate]
    rw [digitsValue_append, digitsValue_append, digitsValue_zeros,
      show digitsValue 0 ['0'] = 0 by decide, Nat.zero_mul]
    exact ⟨hval, by omega⟩
  · -- the digits with a point among them
    refine ⟨0, ?_⟩
    rw [readDecimal, hnoe _ (by simp [(htake _).2, (hdrop _).2])]
    dsimp only [Option.getD_none]
    rw [splitFirst_append_cons (htake _).1]
    simp only [Option.getD_some, readExponent, List.take_append_drop, Prod.mk.injEq, pow_zero,
      Nat.mul_one, List.length_drop]
    exact ⟨hval, by omega⟩
  · -- the digits, zeros, `.0`
    refine ⟨decpt.toNat - ds.length + 1, ?_⟩
    rw [readDecimal, hnoe _ (by simp [he])]
    dsimp only [Option.getD_none]
    rw [splitFirst_append_cons (by simp [hpt])]
    simp only [Option.getD_some, readExponent, Prod.mk.injEq, List.length_singleton]
    rw [digitsValue_append, digitsValue_append, digitsValue_zeros, hval]
    exact ⟨by rw [Nat.pow_succ, ← Nat.mul_assoc]; rfl, by omega⟩

/-! ## `floatStr` tells values apart -/

/-- A formatted text starts with a digit. -/
theorem formatShort_cons {ds : List Char} (hne : ds ≠ []) (hdig : ∀ c ∈ ds, c.isDigit) (decpt : Int) :
    ∃ c cs, formatShort ds decpt = c :: cs ∧ c.isDigit := by
  obtain ⟨d, ds', rfl⟩ := List.exists_cons_of_ne_nil hne
  have hd := hdig d (List.mem_cons_self _ _)
  unfold formatShort
  split_ifs with h1 h2 h3 h4
  · exact ⟨d, _, rfl, hd⟩
  · exact ⟨d, _, rfl, hd⟩
  · exact ⟨'0', _, rfl, rfl⟩
  · obtain ⟨k, hk⟩ : ∃ k, decpt.toNat = k + 1 := ⟨decpt.toNat - 1, by omega⟩
    rw [hk]
    exact ⟨d, _, rfl, hd⟩
  · exact ⟨d, _, rfl, hd⟩

/-- `repr` of a finite value: `-` for a set sign bit, then a digit. -/
theorem floatRepr_eq (x : PyFloat) :
    ∃ c cs, c.isDigit ∧ floatRepr x = (if x.sign then ['-'] else []) ++ c :: cs := by
  obtain ⟨c, cs, h, hc⟩ := formatShort_cons (repr_ne_nil (reprDigits x).1)
    (fun _ => isDigit_of_mem_repr) ((Nat.repr (reprDigits x).1).data.length + (reprDigits x).2)
  exact ⟨c, cs, hc, by rw [← h]; rfl⟩

/-- **`repr` is injective** on finite values: `float()` reads its text back. -/
theorem floatRepr_injective {x y : PyFloat} (hx : x.isFinite) (hy : y.isFinite)
    (h : floatRepr x = floatRepr y) : x = y := by
  have hsign : x.sign = y.sign := by
    obtain ⟨c, cs, hc, hx'⟩ := floatRepr_eq x
    obtain ⟨c', cs', hc', hy'⟩ := floatRepr_eq y
    rw [hx', hy'] at h
    cases hxs : x.sign <;> cases hys : y.sign <;>
      simp only [hxs, hys, ite_true, ite_false, Bool.false_eq_true, List.nil_append,
        List.singleton_append, List.cons.injEq] at h
    · rfl
    · exact absurd (h.1 ▸ hc) (by decide)
    · exact absurd (h.1 ▸ hc') (by decide)
    · rfl
  have hf := h
  unfold floatRepr at hf
  rw [hsign] at hf
  obtain ⟨t, ht⟩ := readDecimal_formatShort (reprDigits x).1
    ((Nat.repr (reprDigits x).1).data.length + (reprDigits x).2)
  obtain ⟨t', ht'⟩ := readDecimal_formatShort (reprDigits y).1
    ((Nat.repr (reprDigits y).1).data.length + (reprDigits y).2)
  rw [List.append_cancel_left hf, ht', Prod.mk.injEq] at ht
  have hxy : some (x.sig, x.uexp) = some (y.sig, y.uexp) := by
    rw [← floatOfDecimal_reprDigits hx, ← floatOfDecimal_reprDigits hy,
      ← floatOfDecimal_shift (reprDigits x).1 _ t, ← floatOfDecimal_shift (reprDigits y).1 _ t', ht.1]
    congr 1
    omega
  simp only [Option.some.injEq, Prod.mk.injEq] at hxy
  exact PyFloat.eq_of_sig_uexp hsign hxy.1 hxy.2

theorem PyFloat.eq_of_infinite {x y : PyFloat} (hx : x.isFinite = false) (hxn : x.isNaN = false)
    (hy : y.isFinite = false) (hyn : y.isNaN = false) (hs : x.sign = y.sign) : x = y := by
  obtain ⟨s, ⟨e, he⟩, ⟨f, hf⟩⟩ := x
  obtain ⟨s', ⟨e', he'⟩, ⟨f', hf'⟩⟩ := y
  simp [isFinite, isNaN] at hx hxn hy hyn hs
  obtain ⟨rfl, rfl⟩ : e = e' ∧ f = f' := by omega
  rw [hs]

/-- **`floatStr` tells values apart, NaNs aside**: two values are written alike exactly when they are
    equal or both NaN. -/
theorem floatStr_eq_iff {x y : PyFloat} : floatStr x = floatStr y ↔ x = y ∨ (x.isNaN ∧ y.isNaN) := by
  have hspecial (z : PyFloat) :
      floatRepr z ≠ "NaN".data ∧ floatRepr z ≠ "Infinity".data ∧ floatRepr z ≠ "-Infinity".data := by
    obtain ⟨c, cs, hc, hz⟩ := floatRepr_eq z
    rw [hz]
    refine ⟨?_, ?_, ?_⟩ <;> cases z.sign <;> intro h <;>
      simp only [ite_true, ite_false, Bool.false_eq_true, List.nil_append, List.singleton_append,
        String.data, List.cons.injEq] at h <;> simp_all
  have hfin (z : PyFloat) (h : z.isNaN) : z.isFinite = false := by
    simp only [PyFloat.isNaN, PyFloat.isFinite, Bool.and_eq_true, beq_iff_eq] at h ⊢
    simp [h.1]
  constructor
  · intro h
    unfold floatStr at h
    cases hfx : x.isFinite <;> cases hfy : y.isFinite <;> simp only [hfx, hfy, ite_true, ite_false,
      Bool.false_eq_true] at h
    · cases hnx : x.isNaN <;> cases hny : y.isNaN <;>
        simp only [hnx, hny, ite_true, ite_false, Bool.false_eq_true] at h
      · refine .inl (PyFloat.eq_of_infinite hfx hnx hfy hny ?_)
        cases hsx : x.sign <;> cases hsy : y.sign <;> simp_all
      · split at h <;> simp at h
      · split at h <;> simp at h
      · exact .inr ⟨rfl, rfl⟩
    · split_ifs at h <;> exact absurd h.symm (by simp [hspecial])
    · split_ifs at h <;> exact absurd h (by simp [hspecial])
    · exact .inl (floatRepr_injective hfx hfy h)
  · rintro (rfl | ⟨hx, hy⟩)
    · rfl
    · simp [floatStr, hfin x hx, hfin y hy, hx, hy]

/-! ## The characters of a number -/

/-- The characters a number's text is made of: digits, the two signs, the point and `e`. -/
def isNumberChar (c : Char) : Bool := c.isDigit || c == '-' || c == '+' || c == '.' || c == 'e'

theorem isNumberChar_of_isDigit {c : Char} (h : c.isDigit) : isNumberChar c := by
  simp [isNumberChar, h]

/-- `formatShort` writes the digits, the exponent, `0`, the point and `e`. -/
theorem formatShort_subset (ds : List Char) (decpt : Int) :
    formatShort ds decpt ⊆ ds ++ exponentText (decpt - 1) ++ ['0', '.', 'e'] := by
  have hz (k : Nat) : List.replicate k '0' ⊆ ds ++ (exponentText (decpt - 1) ++ ['0', '.', 'e']) :=
    fun c hc => by simp [List.eq_of_mem_replicate hc]
  unfold formatShort
  split_ifs <;> simp [List.append_subset, List.cons_subset, List.subset_append_of_subset_left,
    List.take_subset, List.drop_subset, List.tail_subset, hz]

theorem isNumberChar_of_mem_exponentText (n : Int) : ∀ c ∈ exponentText n, isNumberChar c := by
  unfold exponentText
  simp only [List.mem_cons, List.mem_append]
  rintro c (rfl | hc | hc)
  · split <;> rfl
  · split at hc <;> simp_all [isNumberChar]
  · exact isNumberChar_of_isDigit (isDigit_of_mem_repr hc)

/-- Every character `repr` writes belongs to a number. -/
theorem isNumberChar_of_mem_floatRepr (x : PyFloat) : ∀ c ∈ floatRepr x, isNumberChar c := by
  unfold floatRepr
  simp only [List.mem_append]
  rintro c (hc | hc)
  · split at hc <;> simp_all [isNumberChar]
  · rcases List.mem_append.mp (formatShort_subset _ _ hc) with hc | hc
    · rcases List.mem_append.mp hc with hc | hc
      · exact isNumberChar_of_isDigit (isDigit_of_mem_repr hc)
      · exact isNumberChar_of_mem_exponentText _ c hc
    · simp only [List.mem_cons, List.mem_singleton, List.not_mem_nil, or_false] at hc
      rcases hc with rfl | rfl | rfl <;> rfl

/-- `repr` always writes a point or an exponent: it never writes an integer. -/
theorem point_or_e_mem_floatRepr (x : PyFloat) : '.' ∈ floatRepr x ∨ 'e' ∈ floatRepr x := by
  unfold floatRepr formatShort
  simp only [List.mem_append]
  split_ifs <;> simp

end HashGate
