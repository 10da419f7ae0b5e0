/-
# `PkiExecutor.Lib.Base64` — standard base64

Bytes as text: each three bytes become four characters of six bits, a shorter
rest is padded with `=`, and there are no line breaks.  Decoding reads four
characters at a time; padding may stand in the last group only, and the bits it
leaves over are not looked at.

`decode_encode` is the round trip and `length_encode` the length of the text.
`decodeEach` lets every group be padded, as tools do that decode one text after
another; it agrees with `decode` where that succeeds (`decodeEach_of_decode`).
-/
import Mathlib.Data.List.Basic
import Mathlib.Tactic.Common

namespace PkiExecutor.Base64

/-- The characters of six bits, in order. -/
def alphabet : List Char :=
  "ABCDEFGHIJKLMNOPQRSTUVWXYZabcdefghijklmnopqrstuvwxyz0123456789+/".toList

/-- The character of six bits. -/
def sym (n : Nat) : Char := alphabet.getD n '='

/-- The six bits of a character. -/
def value (c : Char) : Option Nat := alphabet.idxOf? c

/-- The text of some bytes, padded. -/
def encode : List UInt8 → List Char
  | [] => []
  | [a] => [sym (a.toNat / 4), sym (a.toNat % 4 * 16), '=', '=']
  | [a, b] =>
      [sym (a.toNat / 4), sym (a.toNat % 4 * 16 + b.toNat / 16), sym (b.toNat % 16 * 4), '=']
  | a :: b :: c :: rest =>
      sym (a.toNat / 4) :: sym (a.toNat % 4 * 16 + b.toNat / 16)
        :: sym (b.toNat % 16 * 4 + c.toNat / 64) :: sym (c.toNat % 64) :: encode rest

/-- Four characters without padding. -/
def decodeGroup (p q r s : Char) : Option (List UInt8) := do
  let x ← value p
  let y ← value q
  let z ← value r
  let w ← value s
  return [UInt8.ofNat (x * 4 + y / 16), UInt8.ofNat (y % 16 * 16 + z / 4),
    UInt8.ofNat (z % 4 * 64 + w)]

/-- The last four characters, which may be padded. -/
def decodeLast (p q r s : Char) : Option (List UInt8) :=
  if s = '=' then
    if r = '=' then do
      let x ← value p
      let y ← value q
      return [UInt8.ofNat (x * 4 + y / 16)]
    else do
      let x ← value p
      let y ← value q
      let z ← value r
      return [UInt8.ofNat (x * 4 + y / 16), UInt8.ofNat (y % 16 * 16 + z / 4)]
  else decodeGroup p q r s

/-- The bytes of a text; only its last group may be padded. -/
def decode : List Char → Option (List UInt8)
  | [] => some []
  | p :: q :: r :: s :: rest =>
      if rest = [] then decodeLast p q r s
      else do return (← decodeGroup p q r s) ++ (← decode rest)
  | _ => none

/-- The same where every group may be padded. -/
def decodeEach : List Char → Option (List UInt8)
  | [] => some []
  | p :: q :: r :: s :: rest => do return (← decodeLast p q r s) ++ (← decodeEach rest)
  | _ => none

/-! ## Characters -/

theorem value_sym {n : Nat} (h : n < 64) : value (sym n) = some n := by
  have hall : ∀ m < 64, value (sym m) = some m := by decide
  exact hall n h

theorem sym_ne_pad {n : Nat} (h : n < 64) : sym n ≠ '=' := by
  have hall : ∀ m < 64, sym m ≠ '=' := by decide +kernel
  exact hall n h

theorem sym_mem {n : Nat} (h : n < 64) : sym n ∈ alphabet := by
  have hall : ∀ m < 64, sym m ∈ alphabet := by decide +kernel
  exact hall n h

theorem sixBits (a b : UInt8) :
    a.toNat / 4 < 64 ∧ a.toNat % 4 * 16 < 64 ∧ a.toNat % 4 * 16 + b.toNat / 16 < 64 ∧
      a.toNat % 16 * 4 < 64 ∧ a.toNat % 16 * 4 + b.toNat / 64 < 64 ∧ a.toNat % 64 < 64 := by
  have ha : a.toNat < 256 := a.toNat_lt
  have hb : b.toNat < 256 := b.toNat_lt
  omega

theorem mem_encode : ∀ {bytes : List UInt8} {c : Char}, c ∈ encode bytes → c ∈ alphabet ∨ c = '='
  | [], c, h => absurd h List.not_mem_nil
  | [a], c, h => by
      obtain ⟨h1, h2, -⟩ := sixBits a 0
      simp only [encode, List.mem_cons, List.not_mem_nil, or_false] at h
      rcases h with rfl | rfl | rfl | rfl
      · exact .inl (sym_mem h1)
      · exact .inl (sym_mem h2)
      · exact .inr rfl
      · exact .inr rfl
  | [a, b], c, h => by
      obtain ⟨h1, -, h2, -⟩ := sixBits a b
      obtain ⟨-, -, -, h3, -⟩ := sixBits b 0
      simp only [encode, List.mem_cons, List.not_mem_nil, or_false] at h
      rcases h with rfl | rfl | rfl | rfl
      · exact .inl (sym_mem h1)
      · exact .inl (sym_mem h2)
      · exact .inl (sym_mem h3)
      · exact .inr rfl
  | a :: b :: d :: rest, c, h => by
      obtain ⟨h1, -, h2, -⟩ := sixBits a b
      obtain ⟨-, -, -, -, h3, -⟩ := sixBits b d
      obtain ⟨-, -, -, -, -, h4⟩ := sixBits d 0
      simp only [encode, List.mem_cons] at h
      rcases h with rfl | rfl | rfl | rfl | h
      · exact .inl (sym_mem h1)
      · exact .inl (sym_mem h2)
      · exact .inl (sym_mem h3)
      · exact .inl (sym_mem h4)
      · exact mem_encode h

/-! ## Lengths -/

theorem length_encode : ∀ bytes : List UInt8, (encode bytes).length = 4 * ((bytes.length + 2) / 3)
  | [] => rfl
  | [_] => by simp [encode]
  | [_, _] => by simp [encode]
  | a :: b :: c :: rest => by
      have ih := length_encode rest
      simp only [encode, List.length_cons, ih]
      omega

theorem encode_eq_nil {bytes : List UInt8} : encode bytes = [] ↔ bytes = [] := by
  constructor
  · intro h
    have hl := length_encode bytes
    rw [h, List.length_nil] at hl
    exact List.length_eq_zero_iff.mp (by omega)
  · rintro rfl
    rfl

/-! ## Round trip -/

theorem byte_first (a b : UInt8) :
    UInt8.ofNat (a.toNat / 4 * 4 + (a.toNat % 4 * 16 + b.toNat / 16) / 16) = a := by
  have hb : b.toNat < 256 := b.toNat_lt
  have h : a.toNat / 4 * 4 + (a.toNat % 4 * 16 + b.toNat / 16) / 16 = a.toNat := by omega
  rw [h]
  exact UInt8.ofNat_toNat

theorem byte_second (a b c : UInt8) :
    UInt8.ofNat ((a.toNat % 4 * 16 + b.toNat / 16) % 16 * 16
      + (b.toNat % 16 * 4 + c.toNat / 64) / 4) = b := by
  have hb : b.toNat < 256 := b.toNat_lt
  have hc : c.toNat < 256 := c.toNat_lt
  have h : (a.toNat % 4 * 16 + b.toNat / 16) % 16 * 16
      + (b.toNat % 16 * 4 + c.toNat / 64) / 4 = b.toNat := by omega
  rw [h]
  exact UInt8.ofNat_toNat

theorem byte_third (b c : UInt8) :
    UInt8.ofNat ((b.toNat % 16 * 4 + c.toNat / 64) % 4 * 64 + c.toNat % 64) = c := by
  have hc : c.toNat < 256 := c.toNat_lt
  have h : (b.toNat % 16 * 4 + c.toNat / 64) % 4 * 64 + c.toNat % 64 = c.toNat := by omega
  rw [h]
  exact UInt8.ofNat_toNat

theorem decodeGroup_sym (a b c : UInt8) :
    decodeGroup (sym (a.toNat / 4)) (sym (a.toNat % 4 * 16 + b.toNat / 16))
      (sym (b.toNat % 16 * 4 + c.toNat / 64)) (sym (c.toNat % 64)) = some [a, b, c] := by
  obtain ⟨h1, -, h2, -⟩ := sixBits a b
  obtain ⟨-, -, -, -, h3, -⟩ := sixBits b c
  obtain ⟨-, -, -, -, -, h4⟩ := sixBits c 0
  simp only [decodeGroup, value_sym h1, value_sym h2, value_sym h3, value_sym h4,
    Option.bind_eq_bind, Option.bind_some, byte_first, byte_second, byte_third]
  rfl

theorem decode_encode : ∀ bytes : List UInt8, decode (encode bytes) = some bytes
  | [] => rfl
  | [a] => by
      obtain ⟨h1, h2, -⟩ := sixBits a 0
      have hbyte := byte_first a 0
      simp only [encode, decode, decodeLast, if_pos, value_sym h1, value_sym h2,
        Option.bind_eq_bind, Option.bind_some]
      exact congrArg (fun x => some [x]) hbyte
  | [a, b] => by
      obtain ⟨h1, -, h2, -⟩ := sixBits a b
      obtain ⟨-, -, -, h3, -⟩ := sixBits b 0
      have hsecond : UInt8.ofNat ((a.toNat % 4 * 16 + b.toNat / 16) % 16 * 16
          + b.toNat % 16 * 4 / 4) = b := byte_second a b 0
      simp only [encode, decode, decodeLast, if_pos, if_neg (sym_ne_pad h3), value_sym h1,
        value_sym h2, value_sym h3, Option.bind_eq_bind, Option.bind_some, byte_first, hsecond]
      rfl
  | a :: b :: c :: rest => by
      have ih := decode_encode rest
      rw [encode, decode, decodeGroup_sym, ih]
      cases rest with
      | nil =>
          obtain ⟨-, -, -, -, -, h4⟩ := sixBits c 0
          have hnil : encode [] = [] := rfl
          rw [if_pos hnil, decodeLast, if_neg (sym_ne_pad h4), decodeGroup_sym]
      | cons d rest =>
          rw [if_neg fun h => List.cons_ne_nil d rest (encode_eq_nil.mp h)]
          rfl

/-! ## Padding in every group -/

theorem value_pad : value '=' = none := by decide

theorem decodeLast_of_decodeGroup {p q r s : Char} {bytes : List UInt8}
    (h : decodeGroup p q r s = some bytes) : decodeLast p q r s = some bytes := by
  have hs : s ≠ '=' := by
    rintro rfl
    simp only [decodeGroup, Option.bind_eq_bind, Option.bind_eq_some_iff, value_pad] at h
    obtain ⟨x, -, y, -, z, -, w, hw, -⟩ := h
    cases hw
  rw [decodeLast, if_neg hs, h]

theorem decodeEach_of_decode : ∀ {cs : List Char} {bytes : List UInt8},
    decode cs = some bytes → decodeEach cs = some bytes
  | [], bytes, h => h
  | [_], _, h | [_, _], _, h | [_, _, _], _, h => by cases h
  | [p, q, r, s], bytes, h => by
      rw [decode, if_pos rfl] at h
      rw [decodeEach, h, decodeEach]
      simp
  | p :: q :: r :: s :: t :: rest, bytes, h => by
      rw [decode, if_neg (List.cons_ne_nil t rest)] at h
      simp only [Option.bind_eq_bind, Option.bind_eq_some_iff] at h
      obtain ⟨front, hfront, back, hback, h⟩ := h
      rw [decodeEach, decodeLast_of_decodeGroup hfront, decodeEach_of_decode hback]
      exact h

/-! ## Lengths of what is decoded -/

/-- Two characters of padding at the end. -/
def doublyPadded (cs : List Char) : Bool := ['=', '='].isSuffixOf cs

theorem length_of_decodeGroup {p q r s : Char} {bytes : List UInt8}
    (h : decodeGroup p q r s = some bytes) : bytes.length = 3 := by
  simp only [decodeGroup, Option.bind_eq_bind, Option.bind_eq_some_iff] at h
  obtain ⟨x, -, y, -, z, -, w, -, h⟩ := h
  obtain rfl := Option.some.inj h
  rfl

/-- The last group holds three bytes less the padding, which is two where its last
two characters are. -/
theorem length_of_decodeLast {p q r s : Char} {bytes : List UInt8}
    (h : decodeLast p q r s = some bytes) :
    ∃ pads, pads ≤ 2 ∧ bytes.length + pads = 3 ∧ (pads = 2 ↔ r = '=' ∧ s = '=') := by
  unfold decodeLast at h
  split at h
  · rename_i hs
    split at h
    · rename_i hr
      simp only [Option.bind_eq_bind, Option.bind_eq_some_iff] at h
      obtain ⟨x, -, y, -, h⟩ := h
      obtain rfl := Option.some.inj h
      exact ⟨2, Nat.le_refl 2, rfl, iff_of_true rfl ⟨hr, hs⟩⟩
    · rename_i hr
      simp only [Option.bind_eq_bind, Option.bind_eq_some_iff] at h
      obtain ⟨x, -, y, -, z, -, h⟩ := h
      obtain rfl := Option.some.inj h
      exact ⟨1, by decide, rfl, iff_of_false (by decide) fun hp => hr hp.1⟩
  · rename_i hs
    exact ⟨0, by decide, length_of_decodeGroup h, iff_of_false (by decide) fun hp => hs hp.2⟩

/-- A text that decodes consists of groups of four characters; each stands for
three bytes, but for the padding at the end. -/
theorem length_of_decode : ∀ {cs : List Char} {bytes : List UInt8}, decode cs = some bytes →
    ∃ pads, pads ≤ 2 ∧ 4 ∣ cs.length ∧ bytes.length + pads = 3 * (cs.length / 4) ∧
      (pads = 2 ↔ doublyPadded cs = true)
  | [], bytes, h => by
      obtain rfl : [] = bytes := Option.some.inj h
      exact ⟨0, by decide, by simp, rfl, by decide⟩
  | [_], _, h | [_, _], _, h | [_, _, _], _, h => by cases h
  | [p, q, r, s], bytes, h => by
      rw [decode, if_pos rfl] at h
      obtain ⟨pads, hle, hlen, hpads⟩ := length_of_decodeLast h
      refine ⟨pads, hle, by simp, by simpa using hlen, hpads.trans ?_⟩
      rw [doublyPadded, List.isSuffixOf_iff_suffix]
      constructor
      · rintro ⟨rfl, rfl⟩
        exact ⟨[p, q], rfl⟩
      · rintro ⟨front, hfront⟩
        have hrev := congrArg List.reverse hfront
        simp only [List.reverse_append, List.reverse_cons, List.reverse_nil, List.nil_append,
          List.cons_append, List.cons.injEq] at hrev
        exact ⟨hrev.2.1.symm, hrev.1.symm⟩
  | p :: q :: r :: s :: t :: rest, bytes, h => by
      rw [decode, if_neg (List.cons_ne_nil t rest)] at h
      simp only [Option.bind_eq_bind, Option.bind_eq_some_iff] at h
      obtain ⟨front, hfront, back, hback, h⟩ := h
      obtain rfl : front ++ back = bytes := Option.some.inj h
      obtain ⟨pads, hle, hfour, hlen, hpads⟩ := length_of_decode hback
      have hthree := length_of_decodeGroup hfront
      refine ⟨pads, hle, ?_, ?_, hpads.trans ?_⟩
      · simp only [List.length_cons] at hfour ⊢
        omega
      · rw [List.length_append]
        simp only [List.length_cons] at hlen ⊢
        omega
      · -- the rest is long enough to hold the padding
        have hlong : 2 ≤ (t :: rest).length := by
          have hpos : 0 < (t :: rest).length := Nat.succ_pos _
          omega
        have hrest : t :: rest <:+ p :: q :: r :: s :: t :: rest := ⟨[p, q, r, s], rfl⟩
        rw [doublyPadded, doublyPadded, List.isSuffixOf_iff_suffix, List.isSuffixOf_iff_suffix]
        constructor
        · intro hsuffix
          exact hsuffix.trans hrest
        · intro hsuffix
          exact List.suffix_of_suffix_length_le hsuffix hrest hlong

example : encode [77, 97] = "TWE=".toList := by decide

example : decode "QQ==QQ==".toList = none ∧ decodeEach "QQ==QQ==".toList = some [65, 65] := by
  decide

end PkiExecutor.Base64
