import QueryBook.Column.Source
import QueryBook.Proofs.Text.Encoding
import Mathlib.Algebra.Group.Nat.Defs

/-!
# Every sequence of values can be drawn

For each value that fits its column there are bytes from which it is drawn, and they do not depend
on what is drawn next: put one after the other, the bytes of several values give these values in
order and leave whatever follows untouched (`drawAll_encodeAll`).

A reader of bytes sees only those that are left, so every lemma here is about a source whose bytes
left begin with an encoding. The delicate part is the length of a string, which is a byte reduced
modulo what follows: a length that the rest of its own encoding covers is never reduced.
-/

namespace QueryBook

namespace ByteSource

/-- The bytes that are left. -/
def left (s : ByteSource) : List UInt8 := s.data.drop s.position

@[simp] theorem left_ofBytes (data : List UInt8) : (ofBytes data).left = data := rfl

theorem remaining_eq (s : ByteSource) : s.remaining = s.left.length := by
  rw [remaining, left, List.length_drop]

theorem chunk_eq (s : ByteSource) (n : Nat) : s.chunk n = s.left.take n := by
  have hstop : ¬ ((s.position : Int) + (n : Int) < 0) := by omega
  have hend : s.sliceEnd n = min (s.position + n) s.data.length := by
    simp only [sliceEnd]
    rw [if_neg hstop]
    rfl
  rw [chunk, hend, left, ← List.take_eq_take_min, List.drop_take, Nat.add_sub_cancel_left]

/-- Taking bytes that are there takes them from the front. -/
theorem take_append {s : ByteSource} {bytes rest : List UInt8} (h : s.left = bytes ++ rest) :
    (s.take bytes.length).1 = bytes ∧ (s.take bytes.length).2.left = rest := by
  have hchunk : s.chunk bytes.length = bytes := by rw [chunk_eq, h, List.take_left]
  refine ⟨hchunk, ?_⟩
  have hdrop : (s.take bytes.length).2.left = s.left.drop bytes.length := by
    simp only [take, left, hchunk, List.drop_drop]
  rw [hdrop, h, List.drop_left]

theorem takeFixed_append {s : ByteSource} {bytes rest : List UInt8} (h : s.left = bytes ++ rest) :
    (s.takeFixed bytes.length).1 = bytes ∧ (s.takeFixed bytes.length).2.left = rest := by
  obtain ⟨hbytes, hrest⟩ := take_append h
  refine ⟨?_, hrest⟩
  simp only [takeFixed, hbytes, Nat.sub_self, List.replicate_zero, List.append_nil]

/-! ## Numbers -/

/-- A number in so many bytes, the lowest first. -/
def bytesOf : Nat → Nat → List UInt8
  | 0, _ => []
  | width + 1, n => UInt8.ofNat (n % 256) :: bytesOf width (n / 256)

theorem length_bytesOf (width n : Nat) : (bytesOf width n).length = width := by
  induction width generalizing n with
  | zero => rfl
  | succ width ih => rw [bytesOf, List.length_cons, ih]

theorem littleEndian_bytesOf {width n : Nat} (h : n < 256 ^ width) :
    littleEndian (bytesOf width n) = n := by
  induction width generalizing n with
  | zero =>
    have hn : n = 0 := by simpa using h
    rw [hn]
    rfl
  | succ width ih =>
    have hlow : (UInt8.ofNat (n % 256)).toNat = n % 256 := Text.Utf8.toNat_ofNat (by omega)
    have hhigh : n / 256 < 256 ^ width := by
      rw [Nat.pow_succ] at h
      omega
    rw [bytesOf, littleEndian, hlow, ih hhigh]
    omega

theorem takeFixed_bytesOf {s : ByteSource} {width n : Nat} {rest : List UInt8}
    (hn : n < 256 ^ width) (h : s.left = bytesOf width n ++ rest) :
    littleEndian (s.takeFixed width).1 = n ∧ (s.takeFixed width).2.left = rest := by
  have htaken := takeFixed_append h
  rw [length_bytesOf] at htaken
  obtain ⟨hbytes, hrest⟩ := htaken
  exact ⟨by rw [hbytes, littleEndian_bytesOf hn], hrest⟩

theorem int32_eq (s : ByteSource) :
    s.int32.1 = Int.bmod (littleEndian (s.takeFixed 4).1) (Nat.pow 2 32) := by
  unfold int32
  -- the modulus must not be unfolded
  generalize Nat.pow 2 32 = modulus
  rfl

/-- The bytes of a signed number are those of its remainder. -/
theorem int32_append {s : ByteSource} {n : Int} {rest : List UInt8} (hlo : -2147483648 ≤ n)
    (hhi : n < 2147483648) (h : s.left = bytesOf 4 (n % 4294967296).toNat ++ rest) :
    s.int32.1 = n ∧ s.int32.2.left = rest := by
  have hnonneg : 0 ≤ n % 4294967296 := Int.emod_nonneg n (by decide)
  have hlt : n % 4294967296 < 4294967296 := Int.emod_lt_of_pos n (by decide)
  have hbound : (n % 4294967296).toNat < 256 ^ 4 := by
    have hpow : (256 : Nat) ^ 4 = 4294967296 := by decide
    omega
  obtain ⟨hnumber, hrest⟩ := takeFixed_bytesOf hbound h
  refine ⟨?_, hrest⟩
  have hcast : (((n % 4294967296).toNat : Nat) : Int) = n % 4294967296 :=
    Int.toNat_of_nonneg hnonneg
  have hpow : Nat.pow 2 32 = 4294967296 := by decide
  calc s.int32.1 = Int.bmod (n % 4294967296) 4294967296 := by rw [int32_eq, hnumber, hcast, hpow]
    _ = Int.bmod n 4294967296 := Int.emod_bmod n 4294967296
    _ = n := Int.bmod_eq_of_le (by omega) (by omega)

theorem float64_append {s : ByteSource} {x : Binary64} {rest : List UInt8}
    (h : s.left = bytesOf 8 x.bits.toNat ++ rest) :
    s.float64.1 = x ∧ s.float64.2.left = rest := by
  have hbound : x.bits.toNat < 256 ^ 8 := x.bits.toNat_lt
  obtain ⟨hnumber, hrest⟩ := takeFixed_bytesOf hbound h
  refine ⟨?_, hrest⟩
  calc s.float64.1 = ⟨.ofNat (littleEndian (s.takeFixed 8).1)⟩ := rfl
    _ = ⟨.ofNat x.bits.toNat⟩ := by rw [hnumber]
    _ = x := by rw [UInt64.ofNat_toNat]

theorem boolean_append {s : ByteSource} {b : Bool} {rest : List UInt8}
    (h : s.left = b.toUInt8 :: rest) : s.boolean.1 = b ∧ s.boolean.2.left = rest := by
  have hsplit : s.left = [b.toUInt8] ++ rest := h
  obtain ⟨hbytes, hrest⟩ := takeFixed_append hsplit
  refine ⟨?_, hrest⟩
  calc s.boolean.1 = (littleEndian (s.takeFixed 1).1 % 2 == 1) := rfl
    _ = (littleEndian [b.toUInt8] % 2 == 1) := by rw [← hbytes]; rfl
    _ = b := by cases b <;> decide

/-! ## Strings -/

/-- A byte string behind its length. -/
def sized (data : List UInt8) : List UInt8 := UInt8.ofNat data.length :: data

/-- A length is the next byte, reduced modulo one more than the bytes behind it. -/
theorem length_of_left {s : ByteSource} {b : UInt8} {rest : List UInt8} (h : s.left = b :: rest) :
    s.length.1 = b.toNat % (rest.length + 1) ∧ s.length.2.left = rest := by
  have hsome : s.remaining ≠ 0 := by
    rw [remaining_eq, h]
    exact Nat.succ_ne_zero _
  have hsplit : s.left = [b] ++ rest := h
  obtain ⟨hbyte, hrest⟩ := take_append hsplit
  have hnumber : littleEndian (s.take 1).1 = b.toNat := by
    calc littleEndian (s.take 1).1 = littleEndian [b] := congrArg littleEndian hbyte
      _ = b.toNat := by rw [littleEndian, littleEndian, Nat.mul_zero, Nat.add_zero]
  -- what is left is counted behind the byte
  have hremaining : (s.take 1).2.remaining = rest.length := by
    rw [remaining_eq]
    exact congrArg List.length hrest
  have hlength : s.length =
      (littleEndian (s.take 1).1 % ((s.take 1).2.remaining + 1), (s.take 1).2) := by
    rw [length, if_neg hsome]
  rw [hlength, hnumber, hremaining]
  exact ⟨rfl, hrest⟩

/-- The bytes behind a length are at least as many as it says, so that it is not reduced. -/
theorem length_sized {s : ByteSource} {data rest : List UInt8} (hsize : data.length ≤ 255)
    (h : s.left = sized data ++ rest) :
    s.length.1 = data.length ∧ s.length.2.left = data ++ rest := by
  have hn : (UInt8.ofNat data.length).toNat = data.length := Text.Utf8.toNat_ofNat (by omega)
  have hsplit : s.left = UInt8.ofNat data.length :: (data ++ rest) := h
  obtain ⟨hlength, hrest⟩ := length_of_left hsplit
  refine ⟨?_, hrest⟩
  rw [hlength, hn, List.length_append]
  exact Nat.mod_eq_of_lt (by omega)

theorem byteString_append {s : ByteSource} {data rest : List UInt8} (hsize : data.length ≤ 255)
    (h : s.left = sized data ++ rest) :
    s.byteString.1 = data ∧ s.byteString.2.left = rest := by
  obtain ⟨hlength, hleft⟩ := length_sized hsize h
  have hstring : s.byteString = s.length.2.take data.length := by
    rw [← hlength]
    rfl
  rw [hstring]
  exact take_append hleft

theorem text_append {s : ByteSource} {text : String} {rest : List UInt8}
    (hsize : (Text.Utf8.encode text.toList).length ≤ 255)
    (h : s.left = sized (Text.Utf8.encode text.toList) ++ rest) :
    s.text.1 = text ∧ s.text.2.left = rest := by
  obtain ⟨hbytes, hleft⟩ := byteString_append hsize h
  refine ⟨?_, hleft⟩
  calc s.text.1 = .ofList (Text.Utf8.decodeLenient s.byteString.1) := rfl
    _ = text := by rw [hbytes, Text.Utf8.decodeLenient_encode, String.ofList_toList]

end ByteSource

namespace ColumnType

open ByteSource

/-! ## Values -/

/-- The values of a type that some bytes stand for: numbers of 32 bits and strings whose length is
one byte. -/
inductive Encodable : ColumnType → Value → Prop where
  | int {n : Int} (lo : -2147483648 ≤ n) (hi : n < 2147483648) : Encodable .int (.int n)
  | float (x : Binary64) : Encodable .float (.float x)
  | bool (b : Bool) : Encodable .bool (.bool b)
  | text {s : String} (size : (Text.Utf8.encode s.toList).length ≤ 255) : Encodable .text (.text s)
  | bytes {data : List UInt8} (size : data.length ≤ 255) : Encodable .bytes (.bytes data)
  | null (inner : ColumnType) : Encodable (.optional inner) .null
  | present {inner : ColumnType} {v : Value} (h : Encodable inner v) :
      Encodable (.optional inner) v

/-- Bytes from which a value is drawn; none for what is no value of the type. -/
def encode : ColumnType → Value → List UInt8
  | int, .int n => bytesOf 4 (n % 4294967296).toNat
  | float, .float x => bytesOf 8 x.bits.toNat
  | bool, .bool b => [b.toUInt8]
  | text, .text s => sized (Text.Utf8.encode s.toList)
  | bytes, .bytes data => sized data
  | optional _, .null => [false.toUInt8]
  | optional inner, v => true.toUInt8 :: inner.encode v
  | _, _ => []

/-- Bytes from which values of several types are drawn, each from its own. -/
def encodeAll (types : List ColumnType) (values : List Value) : List UInt8 :=
  (List.zipWith encode types values).flatten

theorem encode_present {inner : ColumnType} {v : Value} (h : v ≠ .null) :
    (optional inner).encode v = true.toUInt8 :: inner.encode v := by
  rw [encode]
  exact h

theorem draw_int {s : ByteSource} : s.draw .int = (.int s.int32.1, s.int32.2) := by
  rw [draw]

theorem draw_optional {inner : ColumnType} {s : ByteSource} :
    s.draw (.optional inner) =
      if s.boolean.1 = true then s.boolean.2.draw inner else (.null, s.boolean.2) := by
  rw [draw]

theorem draw_null {inner : ColumnType} {s : ByteSource} {rest : List UInt8}
    (h : s.left = (optional inner).encode .null ++ rest) :
    (s.draw (.optional inner)).1 = .null ∧ (s.draw (.optional inner)).2.left = rest := by
  rw [encode] at h
  obtain ⟨habsent, hleft⟩ := boolean_append h
  rw [draw_optional, habsent, if_neg Bool.false_ne_true]
  exact ⟨rfl, hleft⟩

/-- **A value is drawn from its encoding, whatever follows it.** -/
theorem draw_encode {t : ColumnType} {v : Value} (hv : Encodable t v) {s : ByteSource}
    {rest : List UInt8} (h : s.left = t.encode v ++ rest) :
    (s.draw t).1 = v ∧ (s.draw t).2.left = rest := by
  induction hv generalizing s with
  | int lo hi =>
    rw [encode] at h
    obtain ⟨hn, hleft⟩ := int32_append lo hi h
    rw [draw_int]
    exact ⟨congrArg Value.int hn, hleft⟩
  | float x =>
    rw [encode] at h
    obtain ⟨hx, hleft⟩ := float64_append h
    exact ⟨congrArg Value.float hx, hleft⟩
  | bool b =>
    rw [encode] at h
    obtain ⟨hb, hleft⟩ := boolean_append h
    exact ⟨congrArg Value.bool hb, hleft⟩
  | text size =>
    rw [encode] at h
    obtain ⟨hs, hleft⟩ := text_append size h
    exact ⟨congrArg Value.text hs, hleft⟩
  | bytes size =>
    rw [encode] at h
    obtain ⟨hdata, hleft⟩ := byteString_append size h
    exact ⟨congrArg Value.bytes hdata, hleft⟩
  | null inner => exact draw_null h
  | @present inner v hv ih =>
    by_cases hnull : v = .null
    · -- null is the absence of the outermost optional value
      subst hnull
      exact draw_null h
    · rw [encode_present hnull] at h
      obtain ⟨hpresent, hleft⟩ := boolean_append h
      rw [draw_optional, hpresent, if_pos rfl]
      exact ih hleft

/-- Values drawn one after the other, each from the bytes that the one before has left. -/
theorem drawAll_encode {types : List ColumnType} {values : List Value}
    (h : List.Forall₂ Encodable types values) {s : ByteSource} {rest : List UInt8}
    (hleft : s.left = encodeAll types values ++ rest) :
    (s.drawAll types).1 = values ∧ (s.drawAll types).2.left = rest := by
  induction h generalizing s with
  | nil => exact ⟨rfl, hleft⟩
  | @cons t v types values hv _ ih =>
    have hsplit : s.left = t.encode v ++ (encodeAll types values ++ rest) := by
      rw [hleft, encodeAll, List.zipWith_cons_cons, List.flatten_cons, List.append_assoc]
      rfl
    obtain ⟨hfirst, hrest⟩ := draw_encode hv hsplit
    obtain ⟨hvalues, hlast⟩ := ih hrest
    refine ⟨?_, hlast⟩
    calc (s.drawAll (t :: types)).1 = (s.draw t).1 :: ((s.draw t).2.drawAll types).1 := rfl
      _ = v :: values := by rw [hfirst, hvalues]

/-- **Values that fit their columns are drawn, in order, from their encodings put one after the
other, and exactly what follows these is left.** -/
theorem drawAll_encodeAll {types : List ColumnType} {values : List Value}
    (h : List.Forall₂ Encodable types values) (suffix : List UInt8) :
    ∃ s, (ofBytes (encodeAll types values ++ suffix)).drawAll types = (values, s) ∧
      s.data.drop s.position = suffix ∧ s.remaining = suffix.length := by
  obtain ⟨hvalues, hleft⟩ := drawAll_encode h (left_ofBytes (encodeAll types values ++ suffix))
  refine ⟨_, Prod.ext hvalues rfl, hleft, ?_⟩
  rw [remaining_eq, hleft]

/-- A text of two bytes, the least number, an absent value under two optional types and a double
that is not a number. -/
theorem drawAll_encodeAll_mixed :
    List.Forall₂ Encodable [.optional .text, .int, .optional (.optional .bytes), .float]
        [.text "é", .int (-2147483648), .null, .float ⟨0x7FF0000000000001⟩] ∧
      ∃ s, (ofBytes (encodeAll [.optional .text, .int, .optional (.optional .bytes), .float]
          [.text "é", .int (-2147483648), .null, .float ⟨0x7FF0000000000001⟩] ++ [9, 9])).drawAll
            [.optional .text, .int, .optional (.optional .bytes), .float] =
          ([.text "é", .int (-2147483648), .null, .float ⟨0x7FF0000000000001⟩], s) ∧
        s.data.drop s.position = [9, 9] ∧ s.remaining = 2 := by
  have hfits : List.Forall₂ Encodable [.optional .text, .int, .optional (.optional .bytes), .float]
      [.text "é", .int (-2147483648), .null, .float ⟨0x7FF0000000000001⟩] :=
    .cons (.present (.text (by decide))) (.cons (.int (by decide) (by decide))
      (.cons (.null _) (.cons (.float _) .nil)))
  exact ⟨hfits, drawAll_encodeAll hfits [9, 9]⟩

end ColumnType

end QueryBook
