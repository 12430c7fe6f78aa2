import Mathlib.Data.List.Basic

/-!
# `HashGate.Codec.Base64` — `base64.b64encode`

Signatures and content hashes reach the wire as standard, padded base64 (alphabet `A-Z a-z 0-9 + /`,
pad `=`), produced by
`base64.b64encode(digest).decode('utf-8')`. What the unambiguity results need from the encoder is which
characters it can emit: the 64 letters of the alphabet and the pad `=`, so never `;`, `&` or a newline;
and that it is injective, so that comparing signatures compares digests.

## Contents
- `b64encode`, three bytes to four characters, the last group padded with `=`.
- `mem_b64encode`: every emitted character is in `alphabet` or is `=`; `not_mem_b64encode` for any
  other character.
- `length_b64encode`: four characters per started group of three bytes.
- `decodeGroups_encodeGroups`, `b64encode_injective`: the bytes are read back.
-/

namespace HashGate

/-- The standard base64 alphabet, indexed by the 6-bit group it encodes. -/
def alphabet : List Char :=
  "ABCDEFGHIJKLMNOPQRSTUVWXYZabcdefghijklmnopqrstuvwxyz0123456789+/".data

/-- The character of a 6-bit group (`n < 64` at every use). -/
def sextet (n : Nat) : Char := alphabet.getD n '='

/-- Three bytes make four sextets; a final group of one or two bytes is padded with `=`. -/
def encodeGroups : List UInt8 → List Char
  | [] => []
  | [a] => [sextet (a.toNat / 4), sextet (a.toNat % 4 * 16), '=', '=']
  | [a, b] =>
    [sextet (a.toNat / 4), sextet (a.toNat % 4 * 16 + b.toNat / 16), sextet (b.toNat % 16 * 4), '=']
  | a :: b :: c :: rest =>
    sextet (a.toNat / 4) :: sextet (a.toNat % 4 * 16 + b.toNat / 16) ::
      sextet (b.toNat % 16 * 4 + c.toNat / 64) :: sextet (c.toNat % 64) :: encodeGroups rest

/-- Python `base64.b64encode(data).decode('utf-8')`. -/
def b64encode (data : List UInt8) : String := ⟨encodeGroups data⟩

example : b64encode [77, 97, 110] = "TWFu" := by decide
example : b64encode [77] = "TQ==" := by decide

theorem sextet_mem (n : Nat) : sextet n ∈ alphabet ∨ sextet n = '=' := by
  unfold sextet
  rw [List.getD_eq_getElem?_getD]
  cases h : alphabet[n]? with
  | none => exact .inr rfl
  | some c => exact .inl (List.getElem?_mem h)

/-- **The encoder's character set.** Every character of `b64encode data` is in the alphabet or is the
    pad `=`. -/
theorem mem_b64encode {data : List UInt8} {c : Char} (h : c ∈ (b64encode data).data) :
    c ∈ alphabet ∨ c = '=' := by
  induction data using encodeGroups.induct with
  | case1 => simp [b64encode, encodeGroups] at h
  | case2 a =>
    simp only [b64encode, encodeGroups, List.mem_cons, List.not_mem_nil, or_false] at h
    rcases h with rfl | rfl | rfl | rfl <;> simp [sextet_mem]
  | case3 a b =>
    simp only [b64encode, encodeGroups, List.mem_cons, List.not_mem_nil, or_false] at h
    rcases h with rfl | rfl | rfl | rfl <;> simp [sextet_mem]
  | case4 a b d rest ih =>
    simp only [b64encode, encodeGroups, List.mem_cons] at h ih
    rcases h with rfl | rfl | rfl | rfl | h
    any_goals exact sextet_mem _
    exact ih h

/-- A character outside the alphabet, other than `=`, never occurs in base64 output. -/
theorem not_mem_b64encode {c : Char} (hc : c ∉ alphabet) (hc' : c ≠ '=') (data : List UInt8) :
    c ∉ (b64encode data).data := fun h => (mem_b64encode h).elim hc hc'

/-- Four characters for every started group of three bytes. -/
theorem length_b64encode (data : List UInt8) :
    (b64encode data).length = 4 * ((data.length + 2) / 3) := by
  induction data using encodeGroups.induct with
  | case1 | case2 | case3 => simp [b64encode, String.length, encodeGroups]
  | case4 a b c rest ih =>
    simp only [b64encode, String.length, encodeGroups, List.length_cons] at ih ⊢
    omega

/-! ## Decoding

The encoder loses nothing: reading each group of four characters back into the bytes it came from
recovers the input, so equal encodings come from equal byte strings. -/

/-- The 6-bit group an alphabet character encodes: its index. -/
def sextetValue (c : Char) : Nat := alphabet.indexOf c

/-- Four characters make three bytes, one or two before a pad. -/
def decodeGroups : List Char → List UInt8
  | c₀ :: c₁ :: c₂ :: c₃ :: rest =>
    let b₀ := UInt8.ofNat (sextetValue c₀ * 4 + sextetValue c₁ / 16)
    let b₁ := UInt8.ofNat (sextetValue c₁ % 16 * 16 + sextetValue c₂ / 4)
    let b₂ := UInt8.ofNat (sextetValue c₂ % 4 * 64 + sextetValue c₃)
    if c₂ = '=' then [b₀] else if c₃ = '=' then [b₀, b₁] else b₀ :: b₁ :: b₂ :: decodeGroups rest
  | _ => []

/-- Every 6-bit group has its own character, and it is not the pad. -/
theorem sextet_spec : ∀ n : Fin 64, sextetValue (sextet n) = n ∧ sextet n ≠ '=' := by
  decide

theorem sextetValue_sextet {n : Nat} (h : n < 64) : sextetValue (sextet n) = n :=
  (sextet_spec ⟨n, h⟩).1

theorem sextet_ne_pad {n : Nat} (h : n < 64) : sextet n ≠ '=' :=
  (sextet_spec ⟨n, h⟩).2

theorem ofNat_eq_of_toNat {a : UInt8} {e : Nat} (h : e = a.toNat) : UInt8.ofNat e = a :=
  UInt8.toNat.inj (by rw [UInt8.toNat_ofNat_of_lt (h ▸ a.toNat_lt_size), h])

/-- **`decodeGroups` reads back every byte `encodeGroups` writes.** -/
theorem decodeGroups_encodeGroups (data : List UInt8) : decodeGroups (encodeGroups data) = data := by
  induction data using encodeGroups.induct with
  | case1 => rfl
  | case2 a =>
    have ha : a.toNat < 256 := a.toNat_lt_size
    simp (disch := omega) only [encodeGroups, decodeGroups, sextetValue_sextet, if_true]
    rw [ofNat_eq_of_toNat (a := a) (by omega)]
  | case3 a b =>
    have ha : a.toNat < 256 := a.toNat_lt_size
    have hb : b.toNat < 256 := b.toNat_lt_size
    simp (disch := omega) only [encodeGroups, decodeGroups, sextetValue_sextet, sextet_ne_pad, if_true,
      if_false]
    rw [ofNat_eq_of_toNat (a := a) (by omega), ofNat_eq_of_toNat (a := b) (by omega)]
  | case4 a b c rest ih =>
    have ha : a.toNat < 256 := a.toNat_lt_size
    have hb : b.toNat < 256 := b.toNat_lt_size
    have hc : c.toNat < 256 := c.toNat_lt_size
    simp (disch := omega) only [encodeGroups, decodeGroups, sextetValue_sextet, sextet_ne_pad, if_false,
      ih]
    rw [ofNat_eq_of_toNat (a := a) (by omega), ofNat_eq_of_toNat (a := b) (by omega),
      ofNat_eq_of_toNat (a := c) (by omega)]

/-- **Base64 is injective**: different byte strings have different encodings. -/
theorem b64encode_injective : Function.Injective b64encode := fun a b h =>
  calc a = decodeGroups (b64encode a).data := (decodeGroups_encodeGroups a).symm
    _ = decodeGroups (b64encode b).data := by rw [h]
    _ = b := decodeGroups_encodeGroups b

end HashGate
