import QueryBook.Text.Utf8
import Mathlib.Data.List.Basic

/-!
# Reading what was encoded

Reading undoes the encoding of characters as bytes. The encoding of a character takes one to four
bytes according to its code point, and in each of the four ranges the head of the bytes is that
character again, whatever bytes follow. The bounds that a reader puts on the second byte are
exactly met: an encoding is never overlong, and no character is a surrogate.
-/

namespace QueryBook.Text.Utf8

/-- The bytes of a text. -/
def encode (cs : List Char) : List UInt8 := cs.flatMap String.utf8EncodeChar

theorem toNat_ofNat {n : Nat} (h : n < 256) : (UInt8.ofNat n).toNat = n := by
  rw [UInt8.toNat_ofNat']
  exact Nat.mod_eq_of_lt h

theorem isContinuation_ofNat {n : Nat} (h : n < 0x40) :
    isContinuation (UInt8.ofNat (n + 128)) = true := by
  have hbyte : (UInt8.ofNat (n + 128)).toNat = n + 128 := toNat_ofNat (by omega)
  simp only [isContinuation, hbyte, Bool.and_eq_true, decide_eq_true_eq]
  omega

theorem payload_ofNat {n : Nat} (h : n < 0x40) : payload (UInt8.ofNat (n + 128)) = n := by
  rw [payload, toNat_ofNat (by omega)]
  omega

/-- The bounds on a second byte, as numbers. -/
theorem isSecond_ofNat {lead n : Nat} (hlead : lead < 256) (hn : n < 0x40)
    (he0 : lead = 0xE0 → 0x20 ≤ n) (hed : lead = 0xED → n < 0x20) (hf0 : lead = 0xF0 → 0x10 ≤ n)
    (hf4 : lead = 0xF4 → n < 0x10) :
    isSecond (UInt8.ofNat lead) (UInt8.ofNat (n + 128)) = true := by
  have hbyte : (UInt8.ofNat (n + 128)).toNat = n + 128 := toNat_ofNat (by omega)
  have hiff : ∀ b : UInt8, UInt8.ofNat lead = b ↔ lead = b.toNat := by
    intro b
    rw [← UInt8.toNat_inj, toNat_ofNat hlead]
  rw [isSecond, isContinuation_ofNat hn, Bool.true_and]
  simp only [hiff, hbyte]
  split
  · exact decide_eq_true (by have := he0 ‹_›; omega)
  · split
    · exact decide_eq_true (by have := hed ‹_›; omega)
    · split
      · exact decide_eq_true (by have := hf0 ‹_›; omega)
      · split
        · exact decide_eq_true (by have := hf4 ‹_›; omega)
        · rfl

/-! ## The head of well-formed bytes, by their number -/

theorem head_one {n : Nat} (h : n < 0x80) (rest : List UInt8) :
    head (UInt8.ofNat n) rest = .char (Char.ofNat n) 0 := by
  have hn : (UInt8.ofNat n).toNat = n := toNat_ofNat (by omega)
  simp only [head, hn]
  rw [if_pos h]

theorem head_two {lead low : Nat} (hge : 0xC2 ≤ lead) (hlt : lead < 0xE0) (hlow : low < 0x40)
    (rest : List UInt8) :
    head (UInt8.ofNat lead) (UInt8.ofNat (low + 128) :: rest) =
      .char (Char.ofNat (lead % 0x20 * 0x40 + low)) 1 := by
  have hlead : (UInt8.ofNat lead).toNat = lead := toNat_ofNat (by omega)
  simp only [head, hlead, isContinuation_ofNat hlow, payload_ofNat hlow, if_true]
  rw [if_neg (by omega), if_neg (by omega), if_pos hlt]

theorem head_three {lead mid low : Nat} (hge : 0xE0 ≤ lead) (hlt : lead < 0xF0)
    (hmid : mid < 0x40) (hlow : low < 0x40)
    (hsecond : isSecond (UInt8.ofNat lead) (UInt8.ofNat (mid + 128)) = true) (rest : List UInt8) :
    head (UInt8.ofNat lead) (UInt8.ofNat (mid + 128) :: UInt8.ofNat (low + 128) :: rest) =
      .char (Char.ofNat ((lead % 0x10 * 0x40 + mid) * 0x40 + low)) 2 := by
  have hlead : (UInt8.ofNat lead).toNat = lead := toNat_ofNat (by omega)
  simp only [head, hlead, hsecond, isContinuation_ofNat hlow, payload_ofNat hmid,
    payload_ofNat hlow, Bool.not_true, Bool.false_eq_true, if_false, if_true]
  rw [if_neg (by omega), if_neg (by omega), if_neg (by omega), if_pos hlt]

theorem head_four {lead high mid low : Nat} (hge : 0xF0 ≤ lead) (hlt : lead < 0xF5)
    (hhigh : high < 0x40) (hmid : mid < 0x40) (hlow : low < 0x40)
    (hsecond : isSecond (UInt8.ofNat lead) (UInt8.ofNat (high + 128)) = true) (rest : List UInt8) :
    head (UInt8.ofNat lead) (UInt8.ofNat (high + 128) :: UInt8.ofNat (mid + 128) ::
        UInt8.ofNat (low + 128) :: rest) =
      .char (Char.ofNat (((lead % 0x08 * 0x40 + high) * 0x40 + mid) * 0x40 + low)) 3 := by
  have hlead : (UInt8.ofNat lead).toNat = lead := toNat_ofNat (by omega)
  simp only [head, hlead, hsecond, isContinuation_ofNat hmid, isContinuation_ofNat hlow,
    payload_ofNat hhigh, payload_ofNat hmid, payload_ofNat hlow, Bool.not_true,
    Bool.false_eq_true, if_false, if_true]
  rw [if_neg (by omega), if_neg (by omega), if_neg (by omega), if_neg (by omega), if_pos hlt]

/-! ## One character -/

/-- No character is a surrogate or lies past the last code point. -/
theorem val_lt_or (c : Char) :
    c.val.toNat < 0xD800 ∨ 0xDFFF < c.val.toNat ∧ c.val.toNat < 0x110000 :=
  c.valid

/-- **The head of an encoded character is that character, whatever bytes follow.** -/
theorem head_encodeChar (c : Char) (rest : List UInt8) :
    ∃ b more, String.utf8EncodeChar c = b :: more ∧
      head b (more ++ rest) = .char c more.length := by
  have hvalid := val_lt_or c
  have hc : Char.ofNat c.val.toNat = c := Char.ofNat_toNat c
  generalize hv : c.val.toNat = v at hvalid hc
  simp only [String.utf8EncodeChar, hv]
  by_cases h₁ : v ≤ 0x7F
  · rw [if_pos h₁]
    refine ⟨_, _, rfl, ?_⟩
    rw [List.nil_append, head_one (by omega), hc]
    rfl
  rw [if_neg h₁]
  by_cases h₂ : v ≤ 0x7FF
  · rw [if_pos h₂]
    refine ⟨_, _, rfl, ?_⟩
    have hsum : (v / 64 % 32 + 192) % 0x20 * 0x40 + v % 64 = v := by omega
    rw [List.singleton_append, head_two (by omega) (by omega) (by omega), hsum, hc]
    rfl
  rw [if_neg h₂]
  by_cases h₃ : v ≤ 0xFFFF
  · rw [if_pos h₃]
    refine ⟨_, _, rfl, ?_⟩
    have hsecond : isSecond (UInt8.ofNat (v / 4096 % 16 + 224))
        (UInt8.ofNat (v / 64 % 64 + 128)) = true := by
      -- not overlong behind `E0`, no surrogate behind `ED`
      refine isSecond_ofNat (by omega) (by omega) ?_ ?_ ?_ ?_
      all_goals omega
    have hsum : ((v / 4096 % 16 + 224) % 0x10 * 0x40 + v / 64 % 64) * 0x40 + v % 64 = v := by omega
    rw [List.cons_append, List.singleton_append,
      head_three (by omega) (by omega) (by omega) (by omega) hsecond, hsum, hc]
    rfl
  · rw [if_neg h₃]
    refine ⟨_, _, rfl, ?_⟩
    have hsecond : isSecond (UInt8.ofNat (v / 262144 % 8 + 240))
        (UInt8.ofNat (v / 4096 % 64 + 128)) = true := by
      -- not overlong behind `F0`, not past the last code point behind `F4`
      refine isSecond_ofNat (by omega) (by omega) ?_ ?_ ?_ ?_
      all_goals omega
    have hsum : (((v / 262144 % 8 + 240) % 0x08 * 0x40 + v / 4096 % 64) * 0x40 + v / 64 % 64) *
        0x40 + v % 64 = v := by omega
    rw [List.cons_append, List.cons_append, List.singleton_append,
      head_four (by omega) (by omega) (by omega) (by omega) (by omega) hsecond, hsum, hc]
    rfl

/-! ## A text -/

theorem decodeLenient_encodeChar (c : Char) (rest : List UInt8) :
    decodeLenient (String.utf8EncodeChar c ++ rest) = c :: decodeLenient rest := by
  obtain ⟨b, more, hencoded, hhead⟩ := head_encodeChar c rest
  rw [hencoded, List.cons_append, decodeLenient, hhead]
  simp only [List.drop_left]

/-- Lenient reading has nothing to drop from the bytes of a text. -/
theorem decodeLenient_encode (cs : List Char) : decodeLenient (encode cs) = cs := by
  induction cs with
  | nil => rw [encode, List.flatMap_nil, decodeLenient]
  | cons c cs ih =>
    rw [encode, List.flatMap_cons, decodeLenient_encodeChar]
    exact congrArg (c :: ·) ih

end QueryBook.Text.Utf8
