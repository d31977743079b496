import QueryBook.Column.Source

/-!
# Decoding is a retraction

A column accepts more than the values of its type: whole numbers where doubles are declared, zero
and one for truth values, three forms of byte strings. What it returns is always a value of its
own type, and such a value is returned as it is. So decoding twice is decoding once, whatever the
columns, and the values of a type are exactly those that decoding leaves alone.

Drawing from bytes is separate code with the same range: whatever the bytes, the value drawn for a
type is one of the type, and decoding takes it back unchanged (`decode_retracts`).
-/

namespace QueryBook.ColumnType

/-- The values of a type. A truth value is no number, and null is a value of optional types only. -/
inductive Holds : ColumnType → Value → Prop where
  | int (n : Int) : Holds .int (.int n)
  | float (x : Binary64) : Holds .float (.float x)
  | bool (b : Bool) : Holds .bool (.bool b)
  | text (s : String) : Holds .text (.text s)
  | bytes (data : List UInt8) : Holds .bytes (.bytes data)
  | null (inner : ColumnType) : Holds (.optional inner) .null
  | present {inner : ColumnType} {v : Value} (h : Holds inner v) : Holds (.optional inner) v

theorem decode_eq_ok_iff {t : ColumnType} {column : Int} {v w : Value} {limit : Option Nat} :
    t.decode column v limit = .ok w ↔ t.convert v = .ok w := by
  unfold decode
  constructor
  · intro h
    split at h
    · rename_i hconvert
      cases h
      exact hconvert
    · cases h
    · cases h
  · intro h
    rw [h]

/-- An optional type decides only about null. -/
theorem convert_optional {inner : ColumnType} {v : Value} (h : v ≠ .null) :
    (optional inner).convert v = inner.convert v := by
  rw [convert]
  exact h

/-! ## Decoding -/

/-- What is returned is a value of the type. -/
theorem holds_of_convert {t : ColumnType} {v w : Value} (h : t.convert v = .ok w) : t.Holds w := by
  induction t with
  | int =>
    cases v with
    | int n =>
      cases h
      exact .int n
    | _ => cases h
  | float =>
    cases v with
    | float x =>
      cases h
      exact .float x
    | int n =>
      -- a whole number is accepted if some double is near to it
      rw [convert] at h
      split at h
      · cases h
        exact .float _
      · cases h
    | _ => cases h
  | bool =>
    cases v with
    | bool b =>
      cases h
      exact .bool b
    | int n =>
      rw [convert] at h
      split at h
      · cases h
        exact .bool false
      · split at h
        · cases h
          exact .bool true
        · cases h
    | _ => cases h
  | text =>
    cases v with
    | text s =>
      cases h
      exact .text s
    | _ => cases h
  | bytes =>
    cases v with
    | bytes data | byteArray data | byteView data =>
      cases h
      exact .bytes data
    | _ => cases h
  | optional inner ih =>
    by_cases hnull : v = .null
    · subst hnull
      cases h
      exact .null inner
    · rw [convert_optional hnull] at h
      exact .present (ih h)

/-- A value of the type is returned as it is. -/
theorem convert_of_holds {t : ColumnType} {w : Value} (h : t.Holds w) : t.convert w = .ok w := by
  induction h with
  | int n => rfl
  | float x => rfl
  | bool b => rfl
  | text s => rfl
  | bytes data => rfl
  | null inner => rfl
  | @present inner v h ih =>
    by_cases hnull : v = .null
    · subst hnull
      rfl
    · rw [convert_optional hnull, ih]

theorem decode_eq_self_iff {t : ColumnType} {column : Int} {w : Value} :
    t.decode column w = .ok w ↔ t.Holds w := by
  rw [decode_eq_ok_iff]
  exact ⟨holds_of_convert, convert_of_holds⟩

/-! ## Drawing -/

/-- What is drawn is a value of the type, whatever the bytes. -/
theorem holds_draw (t : ColumnType) (s : ByteSource) : t.Holds (s.draw t).1 := by
  induction t generalizing s with
  | int => exact .int _
  | float => exact .float _
  | bool => exact .bool _
  | text => exact .text _
  | bytes => exact .bytes _
  | optional inner ih =>
    rw [ByteSource.draw]
    split
    · rename_i present rest _
      cases present with
      | false => exact .null inner
      | true => exact .present (ih rest)

/-- **Decoding returns values of the type only, returns each of them as it is in any column, and so
decodes a decoded value to itself; a value drawn from any bytes is a value of the type, and
decoding takes it unchanged.** -/
theorem decode_retracts (t : ColumnType) :
    (∀ (v w : Value) (column : Int), t.decode column v = .ok w →
      t.Holds w ∧ ∀ column', t.decode column' w = .ok w) ∧
    (∀ (w : Value) (column : Int), t.decode column w = .ok w ↔ t.Holds w) ∧
    ∀ s : ByteSource, t.Holds (s.draw t).1 ∧
      ∀ column, t.decode column (s.draw t).1 = .ok (s.draw t).1 := by
  refine ⟨fun v w column h => ?_, fun w column => decode_eq_self_iff, fun s => ?_⟩
  · have hw : t.Holds w := holds_of_convert (decode_eq_ok_iff.mp h)
    exact ⟨hw, fun column' => decode_eq_self_iff.mpr hw⟩
  · have hdrawn := holds_draw t s
    exact ⟨hdrawn, fun column => decode_eq_self_iff.mpr hdrawn⟩

/-- One is taken for a truth value, and is none itself. -/
theorem decode_retracts_one :
    (optional .bool).decode 3 (.int 1) = .ok (.bool true) ∧
      (optional .bool).Holds (.bool true) ∧
      ∀ column', (optional .bool).decode column' (.bool true) = .ok (.bool true) := by
  have hone : (optional .bool).decode 3 (.int 1) = .ok (.bool true) := rfl
  exact ⟨hone, (decode_retracts (.optional .bool)).1 (.int 1) (.bool true) 3 hone⟩

end QueryBook.ColumnType
