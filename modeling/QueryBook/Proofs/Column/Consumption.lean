import QueryBook.Proofs.Column.Encoding

/-!
# How much of a source a call takes

Every call on a source comes down to taking bytes, and what is taken is always a beginning of what
is left: a slice cannot reach beyond the data, and one that ends before its beginning, or is counted
from the end of the data, gives nothing or a piece from the position on. So the position only moves
forward and stays within the data, whatever is called and in whatever order (`advances_run`).

How far it moves is known for every value of a fixed width. A string takes as many bytes as its
length says, because the length was reduced to what is left behind it. When nothing is left a call
takes nothing, so that all later values are drawn from zeros and no call changes the source any more
(`run_of_remaining_eq_zero`).
-/

namespace QueryBook

/-- The value of a type that is drawn from nothing. -/
def ColumnType.zero : ColumnType → Value
  | .int => .int 0
  | .float => .float ⟨0⟩
  | .bool => .bool false
  | .text => .text ""
  | .bytes => .bytes []
  | .optional _ => .null

namespace ByteSource

/-- How many bytes a call takes if they are there, for calls that do not depend on the bytes. -/
def Operation.width? : Operation → Option Nat
  | .int32 => some 4
  | .float64 => some 8
  | .boolean => some 1
  | .length => some 1
  | _ => none

/-- What a call returns when nothing is left. -/
def Operation.zero : Operation → Value
  | .take _ => .bytes []
  | .int32 => .int 0
  | .float64 => .float ⟨0⟩
  | .boolean => .bool false
  | .length => .int 0
  | .byteString => .bytes []
  | .text => .text ""
  | .draw type => type.zero

variable {s s' s'' : ByteSource}

/-! ## Moving forward -/

/-- A source over the same data, and not further back. -/
structure Advances (s s' : ByteSource) : Prop where
  data : s'.data = s.data
  position : s.position ≤ s'.position

theorem Advances.refl (s : ByteSource) : s.Advances s := ⟨rfl, Nat.le_refl _⟩

theorem Advances.trans (h : s.Advances s') (h' : s'.Advances s'') : s.Advances s'' :=
  ⟨h'.data.trans h.data, Nat.le_trans h.position h'.position⟩

/-- What is taken is taken from the front, also for a size below zero. -/
theorem chunk_isPrefix (s : ByteSource) (size : Int) : s.chunk size <+: s.left := by
  have hchunk : s.chunk size = s.left.take (s.sliceEnd size - s.position) := List.drop_take
  rw [hchunk]
  exact List.take_prefix _ _

theorem advances_take (s : ByteSource) (size : Int) : s.Advances (s.take size).2 :=
  ⟨rfl, Nat.le_add_right _ _⟩

theorem advances_length (s : ByteSource) : s.Advances s.length.2 := by
  by_cases hremaining : s.remaining = 0
  · rw [length, if_pos hremaining]
    exact .refl s
  · rw [length, if_neg hremaining]
    exact advances_take s 1

theorem advances_byteString (s : ByteSource) : s.Advances s.byteString.2 :=
  (advances_length s).trans (advances_take s.length.2 s.length.1)

theorem advances_draw (s : ByteSource) (t : ColumnType) : s.Advances (s.draw t).2 := by
  induction t generalizing s with
  | int => exact advances_take s 4
  | float => exact advances_take s 8
  | bool => exact advances_take s 1
  | text => exact advances_byteString s
  | bytes => exact advances_byteString s
  | optional inner ih =>
    -- the inner value is drawn, if at all, behind the truth value
    have hboolean : s.Advances s.boolean.2 := advances_take s 1
    rw [ColumnType.draw_optional]
    split
    · exact hboolean.trans (ih s.boolean.2)
    · exact hboolean

/-- **A call moves forward within the data.** -/
theorem advances_step (s : ByteSource) (op : Operation) : s.Advances (s.step op).2 := by
  cases op with
  | take size => exact advances_take s size
  | int32 => exact advances_take s 4
  | float64 => exact advances_take s 8
  | boolean => exact advances_take s 1
  | length => exact advances_length s
  | byteString => exact advances_byteString s
  | text => exact advances_byteString s
  | draw t => exact advances_draw s t

/-- So do several calls. -/
theorem advances_run (s : ByteSource) (ops : List Operation) : s.Advances (s.run ops).2 := by
  induction ops generalizing s with
  | nil => exact .refl s
  | cons op ops ih => exact (advances_step s op).trans (ih (s.step op).2)

/-! ## Values of a fixed width -/

theorem position_take (s : ByteSource) (n : Nat) :
    (s.take n).2.position = s.position + min n s.remaining := by
  have hlength : (s.chunk n).length = min n s.remaining := by
    rw [chunk_eq, List.length_take, remaining_eq]
  rw [← hlength]
  rfl

theorem position_length (s : ByteSource) :
    s.length.2.position = s.position + min 1 s.remaining := by
  by_cases hremaining : s.remaining = 0
  · rw [length, if_pos hremaining, hremaining]
    rfl
  · rw [length, if_neg hremaining]
    exact position_take s 1

/-- **A call of a fixed width takes so many bytes, or all that are left.** -/
theorem position_step {op : Operation} {width : Nat} (h : op.width? = some width) :
    (s.step op).2.position = s.position + min width s.remaining := by
  cases op with
  | int32 =>
    cases h
    exact position_take s 4
  | float64 =>
    cases h
    exact position_take s 8
  | boolean =>
    cases h
    exact position_take s 1
  | length =>
    cases h
    exact position_length s
  | _ => cases h

theorem int32_range (s : ByteSource) : -2147483648 ≤ s.int32.1 ∧ s.int32.1 < 2147483648 := by
  have hpow : Nat.pow 2 32 = 4294967296 := by decide
  rw [int32_eq, hpow]
  have hlo := @Int.le_bmod (littleEndian (s.takeFixed 4).1) 4294967296 (by decide)
  have hhi := @Int.bmod_lt (littleEndian (s.takeFixed 4).1) 4294967296 (by decide)
  omega

/-! ## Strings -/

/-- A length is covered by what is left behind it. -/
theorem length_le_remaining (s : ByteSource) : s.length.1 ≤ s.length.2.remaining := by
  by_cases hremaining : s.remaining = 0
  · rw [length, if_pos hremaining]
    exact Nat.zero_le _
  · rw [length, if_neg hremaining]
    exact Nat.le_of_lt_succ (Nat.mod_lt _ (Nat.succ_pos _))

/-- **A byte string takes as many bytes as its length says.** -/
theorem byteString_reads (s : ByteSource) :
    s.byteString.1 = s.length.2.left.take s.length.1 ∧
    s.byteString.1.length = s.length.1 ∧
    s.byteString.2.position = s.length.2.position + s.length.1 := by
  have hle : s.length.1 ≤ s.length.2.left.length := by
    rw [← remaining_eq]
    exact length_le_remaining s
  have hbytes : s.byteString.1 = s.length.2.left.take s.length.1 := chunk_eq s.length.2 s.length.1
  have hlength : s.byteString.1.length = s.length.1 := by
    rw [hbytes, List.length_take, Nat.min_eq_left hle]
  -- the position moves by what was taken, which is all that was asked for
  have hposition : s.byteString.2.position = s.length.2.position + s.byteString.1.length := rfl
  exact ⟨hbytes, hlength, by rw [hposition, hlength]⟩

/-! ## Nothing left -/

theorem eq_of_position_eq (hdata : s'.data = s.data) (hposition : s'.position = s.position) :
    s' = s := by
  cases s
  cases s'
  cases hdata
  cases hposition
  rfl

theorem littleEndian_zeros (n : Nat) : littleEndian (List.replicate n 0) = 0 := by
  induction n with
  | zero => rfl
  | succ n ih => rw [List.replicate_succ, littleEndian, ih]; rfl

section

variable (h : s.remaining = 0)

include h

theorem take_of_remaining_eq_zero (size : Int) : s.take size = ([], s) := by
  have hleft : s.left = [] := by
    rw [remaining_eq] at h
    exact List.length_eq_zero_iff.mp h
  -- whatever the size, and wherever it is counted from
  have hchunk : s.chunk size = [] := List.prefix_nil.mp (hleft ▸ chunk_isPrefix s size)
  refine Prod.ext hchunk (eq_of_position_eq rfl ?_)
  show s.position + (s.chunk size).length = s.position
  rw [hchunk]
  rfl

theorem takeFixed_of_remaining_eq_zero (n : Nat) :
    littleEndian (s.takeFixed n).1 = 0 ∧ (s.takeFixed n).2 = s := by
  rw [takeFixed, take_of_remaining_eq_zero h]
  exact ⟨littleEndian_zeros n, rfl⟩

theorem int32_of_remaining_eq_zero : s.int32 = (0, s) := by
  obtain ⟨hzero, hsame⟩ := takeFixed_of_remaining_eq_zero h 4
  refine Prod.ext ?_ hsame
  rw [int32_eq, hzero]
  exact Int.zero_bmod

theorem float64_of_remaining_eq_zero : s.float64 = (⟨0⟩, s) := by
  obtain ⟨hzero, hsame⟩ := takeFixed_of_remaining_eq_zero h 8
  refine Prod.ext ?_ hsame
  show (⟨.ofNat (littleEndian (s.takeFixed 8).1)⟩ : Binary64) = ⟨0⟩
  rw [hzero]
  rfl

theorem boolean_of_remaining_eq_zero : s.boolean = (false, s) := by
  obtain ⟨hzero, hsame⟩ := takeFixed_of_remaining_eq_zero h 1
  refine Prod.ext ?_ hsame
  show (littleEndian (s.takeFixed 1).1 % 2 == 1) = false
  rw [hzero]
  rfl

theorem byteString_of_remaining_eq_zero : s.byteString = ([], s) := by
  have hlength : s.length = (0, s) := if_pos h
  rw [byteString, hlength]
  exact take_of_remaining_eq_zero h 0

theorem text_of_remaining_eq_zero : s.text = ("", s) := by
  have hnone : Text.Utf8.decodeLenient [] = [] := Text.Utf8.decodeLenient_encode []
  rw [text, byteString_of_remaining_eq_zero h]
  show (String.ofList (Text.Utf8.decodeLenient []), s) = ("", s)
  rw [hnone]

/-- A value drawn from nothing is the zero of its type; an optional value is null. -/
theorem draw_of_remaining_eq_zero (t : ColumnType) : s.draw t = (t.zero, s) := by
  cases t with
  | int => rw [ColumnType.draw_int, int32_of_remaining_eq_zero h]; rfl
  | float => rw [draw, float64_of_remaining_eq_zero h]; rfl
  | bool => rw [draw, boolean_of_remaining_eq_zero h]; rfl
  | text => rw [draw, text_of_remaining_eq_zero h]; rfl
  | bytes => rw [draw, byteString_of_remaining_eq_zero h]; rfl
  | optional inner => rw [ColumnType.draw_optional, boolean_of_remaining_eq_zero h]; rfl

theorem step_of_remaining_eq_zero (op : Operation) : s.step op = (op.zero, s) := by
  cases op with
  | take size => rw [step, take_of_remaining_eq_zero h]; rfl
  | int32 => rw [step, int32_of_remaining_eq_zero h]; rfl
  | float64 => rw [step, float64_of_remaining_eq_zero h]; rfl
  | boolean => rw [step, boolean_of_remaining_eq_zero h]; rfl
  | length => rw [step, length, if_pos h]; rfl
  | byteString => rw [step, byteString_of_remaining_eq_zero h]; rfl
  | text => rw [step, text_of_remaining_eq_zero h]; rfl
  | draw t => exact draw_of_remaining_eq_zero h t

/-- **With nothing left, every call returns a zero and leaves the source as it is.** -/
theorem run_of_remaining_eq_zero (ops : List Operation) :
    s.run ops = (ops.map Operation.zero, s) := by
  induction ops with
  | nil => rfl
  | cons op ops ih =>
    have hrun : s.run (op :: ops) = (op.zero :: (s.run ops).1, (s.run ops).2) := by
      rw [run, step_of_remaining_eq_zero h]
    rw [hrun, ih]
    rfl

end

/-! ## Any calls in any order -/

/-- **Whatever is called on a source, it moves forward within its data.** Let `s` be reached by any
calls. The next call leaves the position between where it was and the end of the data. A call of a
fixed width takes so many bytes or all that are left, and any other size takes what it returns from
the front. A length is the next byte reduced to what is left behind it, and a string takes just so
many bytes. A number of 32 bits is in its range. If nothing is left, it stays so, and all later
values are zeros. -/
theorem run_moves_within {data : List UInt8} {ops : List Operation} {values : List Value}
    {s : ByteSource} (h : (ofBytes data).run ops = (values, s)) :
    (∀ op, (s.step op).2.data = data ∧ s.position ≤ (s.step op).2.position ∧
      (s.step op).2.position ≤ data.length) ∧
    (∀ op width, op.width? = some width →
      (s.step op).2.position = s.position + min width s.remaining) ∧
    (∀ size, (s.take size).1 <+: data.drop s.position ∧
      (s.take size).2.position = s.position + (s.take size).1.length) ∧
    (s.length.1 ≤ s.length.2.remaining ∧
      (∀ b rest, data.drop s.position = b :: rest → s.length.1 = b.toNat % (rest.length + 1)) ∧
      s.byteString.1 = (data.drop s.length.2.position).take s.length.1 ∧
      s.byteString.1.length = s.length.1 ∧
      s.byteString.2.position = s.length.2.position + s.length.1 ∧
      s.text = (.ofList (Text.Utf8.decodeLenient s.byteString.1), s.byteString.2)) ∧
    (-2147483648 ≤ s.int32.1 ∧ s.int32.1 < 2147483648) ∧
    (s.remaining = 0 → ∀ later, s.run later = (later.map Operation.zero, s)) := by
  have hdata : s.data = data := by
    have hrun := (advances_run (ofBytes data) ops).data
    rw [h] at hrun
    exact hrun
  subst hdata
  obtain ⟨hbytes, hlength, hposition⟩ := byteString_reads s
  rw [left, (advances_length s).data] at hbytes
  refine ⟨fun op => ?_, fun op width hwidth => position_step hwidth, fun size => ?_,
    ⟨length_le_remaining s, fun b rest hleft => (length_of_left hleft).1, hbytes, hlength,
      hposition, rfl⟩, int32_range s, fun hnothing later => run_of_remaining_eq_zero hnothing later⟩
  · obtain ⟨hdata, hforward⟩ := advances_step s op
    refine ⟨hdata, hforward, ?_⟩
    rw [← hdata]
    exact (s.step op).2.position_le
  · exact ⟨chunk_isPrefix s size, rfl⟩

/-- A string, and a size below zero that is counted from the end of the data and leaves one byte. A
number takes no more than this byte, and a length is reduced to zero. If a truth value takes the
byte, nothing is left. -/
theorem run_moves_within_wrapped :
    ∃ s t, (ofBytes [2, 97, 98, 200, 9, 9]).run [.byteString, .take (-4)] =
        ([.bytes [97, 98], .bytes [200, 9]], s) ∧
      (s.step .int32).2.position = s.position + min 4 1 ∧ s.length.1 = 9 % (0 + 1) ∧
      (ofBytes [2, 97, 98, 200, 9, 9]).run [.byteString, .take (-4), .boolean] =
        ([.bytes [97, 98], .bytes [200, 9], .bool true], t) ∧
      t.remaining = 0 ∧
      t.run [.draw (.optional .text), .length, .take (-7)] = ([.null, .int 0, .bytes []], t) := by
  have hone : (ofBytes [2, 97, 98, 200, 9, 9]).run [.byteString, .take (-4)] =
      ([.bytes [97, 98], .bytes [200, 9]], ⟨[2, 97, 98, 200, 9, 9], 5, by decide⟩) := rfl
  have hnone : (ofBytes [2, 97, 98, 200, 9, 9]).run [.byteString, .take (-4), .boolean] =
      ([.bytes [97, 98], .bytes [200, 9], .bool true],
        ⟨[2, 97, 98, 200, 9, 9], 6, by decide⟩) := rfl
  obtain ⟨_, hwidth, _, ⟨_, hlength, _⟩, _⟩ := run_moves_within hone
  obtain ⟨_, _, _, _, _, hzeros⟩ := run_moves_within hnone
  exact ⟨_, _, hone, hwidth .int32 4 rfl, hlength 9 [] rfl, hnone, rfl, hzeros rfl _⟩

end ByteSource

end QueryBook
