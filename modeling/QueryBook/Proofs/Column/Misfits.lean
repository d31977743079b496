import QueryBook.Proofs.Column.Retraction
import QueryBook.Proofs.Query.Checked
import QueryBook.Proofs.Query.Reporting
import Mathlib.Data.List.Forall2
import Mathlib.Tactic.Linarith
import Mathlib.Tactic.Ring
import Mathlib.Tactic.SplitIfs

/-!
# Rows that do not decode

A row is decoded from left to right, and the first column that does not decode is reported. What is
reported about it is a decode error, which names the column, the type and the value, with two
exceptions. A whole number past the doubles does not get as far as a decode error in a column of
doubles: the conversion itself fails, and its failure is passed on. And where the language bounds
the digits that it writes, the decode error of a longer number fails for want of its message.

`Decodes` gives the rule of each type and `Reported` what is said of a value that has no rule. The
first section finds out where the doubles end.
-/

namespace QueryBook

/-! ## Where the doubles end -/

namespace Binary64

/-- Rounding reaches an even number half a unit before it. -/
theorem le_roundShift_iff {n shift m : Nat} (hm : m % 2 = 0) :
    m ≤ roundShift n shift ↔ 2 * m * Nat.pow 2 shift ≤ 2 * n + Nat.pow 2 shift := by
  have hpos : 0 < Nat.pow 2 shift := Nat.pow_pos (by decide)
  unfold roundShift
  generalize Nat.pow 2 shift = unit at hpos
  have hdiv : unit * (n / unit) + n % unit = n := Nat.div_add_mod n unit
  have hmod : n % unit < unit := Nat.mod_lt n hpos
  generalize n / unit = low at hdiv
  generalize n % unit = rest at hdiv hmod
  subst hdiv
  dsimp only
  rcases Nat.lt_trichotomy (low + 1) m with hlt | heq | hgt
  · -- even the next number is too small
    have hmul : unit * (low + 2) ≤ unit * m := Nat.mul_le_mul_left unit hlt
    constructor
    · intro h
      split at h <;> omega
    · intro h
      nlinarith
  · subst heq
    have hodd : low % 2 = 1 := by omega
    have hmul : 2 * (low + 1) * unit = 2 * (unit * low) + 2 * unit := by ring
    rw [hmul]
    by_cases hup : unit ≤ 2 * rest
    · rw [if_pos (by omega)]
      omega
    · rw [if_neg (by omega)]
      omega
  · have hmul : unit * m ≤ unit * low := Nat.mul_le_mul_left unit (by omega)
    constructor
    · intro _
      nlinarith
    · intro _
      split <;> omega

theorem roundShift_le {n shift m : Nat} (h : n < m * Nat.pow 2 shift) : roundShift n shift ≤ m := by
  have hlow : n / Nat.pow 2 shift < m := Nat.div_lt_of_lt_mul (by rwa [Nat.mul_comm])
  unfold roundShift
  dsimp only
  split <;> omega

/-- The exponent field is that of the highest bit, or one more after rounding up. -/
theorem fieldsOfNat_fst (n : Nat) : (fieldsOfNat n).1 =
    if (if n.log2 ≤ 52 then n * Nat.pow 2 (52 - n.log2) else roundShift n (n.log2 - 52)) =
      Nat.pow 2 53 then n.log2 + 1024 else n.log2 + 1023 := by
  unfold fieldsOfNat
  exact apply_ite Prod.fst _ _ _

/-- The least number that is rounded up to `2 ^ (d + 54)`: half a unit of the last place before
it. -/
def leastUp (d : Nat) : Nat := (Nat.pow 2 54 - 1) * Nat.pow 2 d

theorem leastUp_pos (d : Nat) : 0 < leastUp d :=
  Nat.mul_pos (by decide) (Nat.pow_pos (by decide))

/-- From there on the exponent field is that of the power of two. -/
theorem le_fieldsOfNat_iff {n d : Nat} (hn : n ≠ 0) :
    d + 1077 ≤ (fieldsOfNat n).1 ↔ leastUp d ≤ n := by
  have hsplit : ∀ k, Nat.pow 2 (k + d) = Nat.pow 2 k * Nat.pow 2 d := fun k => Nat.pow_add 2 k d
  have hpos : 0 < Nat.pow 2 d := Nat.pow_pos (by decide)
  have h53 : Nat.pow 2 53 = 9007199254740992 := rfl
  have h54 : Nat.pow 2 54 = 18014398509481984 := rfl
  rw [fieldsOfNat_fst, leastUp, h54]
  rcases Nat.lt_trichotomy n.log2 (53 + d) with hlog | hlog | hlog
  · have hsmall : n < Nat.pow 2 (53 + d) := (Nat.log2_lt hn).mp hlog
    rw [hsplit, h53] at hsmall
    split_ifs <;> omega
  · -- the one size at which rounding decides
    have hlarge : n < Nat.pow 2 (54 + d) := (Nat.log2_lt hn).mp (by omega)
    rw [hsplit, h54] at hlarge
    have hunit : Nat.pow 2 (1 + d) = 2 * Nat.pow 2 d := hsplit 1
    have heven : Nat.pow 2 53 % 2 = 0 := rfl
    have hround : Nat.pow 2 53 ≤ roundShift n (1 + d) ↔ _ := le_roundShift_iff heven
    have hle : roundShift n (1 + d) ≤ Nat.pow 2 53 := roundShift_le (by rw [hunit, h53]; omega)
    rw [hunit, h53] at hround
    have hshift : n.log2 - 52 = 1 + d := by omega
    rw [if_neg (by omega : ¬ n.log2 ≤ 52), hshift]
    rw [h53] at hle ⊢
    split <;> omega
  · have hlarge : Nat.pow 2 (54 + d) ≤ n := (Nat.le_log2 hn).mp (by omega)
    rw [hsplit, h54] at hlarge
    split_ifs <;> omega

/-- **No double is near to a whole number from `2 ^ 1024 - 2 ^ 970` on**, of either sign. -/
theorem ofInt?_eq_none_iff {n : Int} : ofInt? n = none ↔ leastUp 970 ≤ n.natAbs := by
  unfold ofInt?
  by_cases hn : n = 0
  · subst hn
    rw [if_pos rfl]
    exact ⟨nofun, fun h => absurd h (Nat.not_le_of_gt (leastUp_pos 970))⟩
  · rw [if_neg hn, ← le_fieldsOfNat_iff (Int.natAbs_ne_zero.mpr hn)]
    dsimp only
    split
    · rename_i h
      exact ⟨fun _ => h, fun _ => rfl⟩
    · rename_i h
      exact ⟨nofun, fun h' => absurd h' h⟩

end Binary64

namespace ColumnType

/-! ## Single columns -/

/-- What a value becomes in a column, by the rules of its type. -/
inductive Decodes : ColumnType → Value → Value → Prop where
  | int (n : Int) : Decodes .int (.int n) (.int n)
  | float (x : Binary64) : Decodes .float (.float x) (.float x)
  | whole {n : Int} {x : Binary64} (h : Binary64.ofInt? n = some x) :
      Decodes .float (.int n) (.float x)
  | bool (b : Bool) : Decodes .bool (.bool b) (.bool b)
  | zero : Decodes .bool (.int 0) (.bool false)
  | one : Decodes .bool (.int 1) (.bool true)
  | text (s : String) : Decodes .text (.text s) (.text s)
  | bytes (data : List UInt8) : Decodes .bytes (.bytes data) (.bytes data)
  | byteArray (data : List UInt8) : Decodes .bytes (.byteArray data) (.bytes data)
  | byteView (data : List UInt8) : Decodes .bytes (.byteView data) (.bytes data)
  | null (inner : ColumnType) : Decodes (.optional inner) .null .null
  | present {inner : ColumnType} {v w : Value} (hv : v ≠ .null) (h : Decodes inner v w) :
      Decodes (.optional inner) v w

/-- A whole number past the doubles, in a column of doubles. -/
inductive Overflows : ColumnType → Value → Prop where
  | float {n : Int} (h : Binary64.leastUp 970 ≤ n.natAbs) : Overflows .float (.int n)
  | optional {inner : ColumnType} {v : Value} (h : Overflows inner v) :
      Overflows (.optional inner) v

/-- What is reported about a value that does not decode. -/
inductive Reported (limit : Option Nat) (column : Int) (t : ColumnType) (v : Value) :
    Failure → Prop where
  | misfit (hv : ¬ t.Overflows v) (hshown : ∀ digits, limit = some digits → v.fits digits = true) :
      Reported limit column t v (.rows (.decode column t.name v none))
  | overflow (hv : t.Overflows v) : Reported limit column t v .tooLarge
  /-- The message would show the value, which has too many digits. -/
  | unshown {digits : Nat} (hv : ¬ t.Overflows v) (hlimit : limit = some digits)
      (hlong : v.fits digits = false) : Reported limit column t v (.tooLong digits)

variable {t inner : ColumnType} {v w : Value}

theorem Decodes.convert_eq (h : t.Decodes v w) : t.convert v = .ok w := by
  induction h with
  | whole h => rw [convert, h]
  | present hv _ ih => rw [convert_optional hv, ih]
  | _ => rfl

theorem Overflows.ne_null (h : t.Overflows v) : v ≠ .null := by
  induction h with
  | float => exact nofun
  | optional _ ih => exact ih

theorem Overflows.convert_eq (h : t.Overflows v) : t.convert v = .error .tooLarge := by
  induction h with
  | float h => rw [convert, Binary64.ofInt?_eq_none_iff.mpr h]
  | optional h ih => rw [convert_optional h.ne_null, ih]

/-- The rules say all that can happen. -/
theorem convert_cases (t : ColumnType) (v : Value) :
    (∃ w, t.Decodes v w) ∨ t.Overflows v ∨ t.convert v = .error .kind := by
  induction t with
  | int =>
    cases v with
    | int n => exact .inl ⟨_, .int n⟩
    | _ => exact .inr (.inr rfl)
  | float =>
    cases v with
    | float x => exact .inl ⟨_, .float x⟩
    | int n =>
      cases hn : Binary64.ofInt? n with
      | some x => exact .inl ⟨_, .whole hn⟩
      | none => exact .inr (.inl (.float (Binary64.ofInt?_eq_none_iff.mp hn)))
    | _ => exact .inr (.inr rfl)
  | bool =>
    cases v with
    | bool b => exact .inl ⟨_, .bool b⟩
    | int n =>
      by_cases hzero : n = 0
      · subst hzero
        exact .inl ⟨_, .zero⟩
      · by_cases hone : n = 1
        · subst hone
          exact .inl ⟨_, .one⟩
        · exact .inr (.inr (by rw [convert, if_neg hzero, if_neg hone]))
    | _ => exact .inr (.inr rfl)
  | text =>
    cases v with
    | text s => exact .inl ⟨_, .text s⟩
    | _ => exact .inr (.inr rfl)
  | bytes =>
    cases v with
    | bytes data => exact .inl ⟨_, .bytes data⟩
    | byteArray data => exact .inl ⟨_, .byteArray data⟩
    | byteView data => exact .inl ⟨_, .byteView data⟩
    | _ => exact .inr (.inr rfl)
  | optional inner ih =>
    by_cases hnull : v = .null
    · subst hnull
      exact .inl ⟨_, .null inner⟩
    · rw [convert_optional hnull]
      rcases ih with ⟨w, h⟩ | h | h
      · exact .inl ⟨w, .present hnull h⟩
      · exact .inr (.inl (.optional h))
      · exact .inr (.inr h)

theorem decode_eq_ok_iff_decodes {column : Int} {limit : Option Nat} :
    t.decode column v limit = .ok w ↔ t.Decodes v w := by
  rw [decode_eq_ok_iff]
  constructor
  · intro h
    rcases convert_cases t v with ⟨w', hw'⟩ | hover | hkind
    · cases h.symm.trans hw'.convert_eq
      exact hw'
    · cases h.symm.trans hover.convert_eq
    · cases h.symm.trans hkind
  · exact Decodes.convert_eq

/-- What is reported when the conversion as such does not fail. -/
theorem reported_iff {column : Int} {limit : Option Nat} {e : Failure} (hv : ¬ t.Overflows v) :
    t.Reported limit column v e ↔
      (Failure.ofDisplay? limit v).getD (.rows (.decode column t.name v none)) = e := by
  constructor
  · intro h
    cases h with
    | misfit _ hshown =>
      cases limit with
      | none => rfl
      | some digits =>
        simp only [Failure.ofDisplay?, Option.bind_some, hshown digits rfl]
        rfl
    | overflow h => exact absurd h hv
    | unshown _ hlimit hlong =>
      subst hlimit
      simp only [Failure.ofDisplay?, Option.bind_some, hlong]
      rfl
  · rintro rfl
    cases limit with
    | none => exact .misfit hv nofun
    | some digits =>
      simp only [Failure.ofDisplay?, Option.bind_some]
      cases hfits : v.fits digits with
      | true =>
        refine .misfit hv fun digits' h => ?_
        cases h
        exact hfits
      | false => exact .unshown hv rfl hfits

theorem decode_eq_error_iff {column : Int} {limit : Option Nat} {e : Failure} :
    t.decode column v limit = .error e ↔
      (∀ w, ¬ t.Decodes v w) ∧ t.Reported limit column v e := by
  rcases convert_cases t v with ⟨w, hw⟩ | hover | hkind
  · rw [decode_eq_ok_iff_decodes.mpr hw]
    exact ⟨nofun, fun h => absurd hw (h.1 w)⟩
  · have hnone : ∀ w, ¬ t.Decodes v w := fun w hw => by
      cases hover.convert_eq.symm.trans hw.convert_eq
    unfold decode
    rw [hover.convert_eq]
    constructor
    · intro h
      cases h
      exact ⟨hnone, .overflow hover⟩
    · rintro ⟨-, h⟩
      cases h with
      | misfit hv | unshown hv => exact absurd hover hv
      | overflow => rfl
  · have hnone : ∀ w, ¬ t.Decodes v w := fun w hw => by
      cases hkind.symm.trans hw.convert_eq
    have hover : ¬ t.Overflows v := fun h => by
      cases hkind.symm.trans h.convert_eq
    rw [reported_iff hover]
    unfold decode
    rw [hkind]
    exact ⟨fun h => ⟨hnone, Except.error.inj h⟩, fun h => congrArg Except.error h.2⟩

theorem exists_reported (limit : Option Nat) (column : Int) (hnone : ∀ w, ¬ t.Decodes v w) :
    ∃ e, t.Reported limit column v e := by
  cases h : t.decode column v limit with
  | ok w => exact absurd (decode_eq_ok_iff_decodes.mp h) (hnone w)
  | error e => exact ⟨e, (decode_eq_error_iff.mp h).2⟩

/-! ## Rows -/

/-- The column `i`, of type `t` and with the value `v`, is the first that does not decode. -/
structure FirstMisfit (types : List ColumnType) (row : List Value) (i : Nat) (t : ColumnType)
    (v : Value) : Prop where
  type : types[i]? = some t
  value : row[i]? = some v
  undecoded : ∀ w, ¬ t.Decodes v w
  before : ∀ j < i, ∀ t' v', types[j]? = some t' → row[j]? = some v' → ∃ w, t'.Decodes v' w

/-- The fault of a column, which is numbered by the columns before it. -/
def fault (limit : Option Nat) (before : List (ColumnType × Value)) (c : ColumnType × Value) :
    Faults Failure :=
  fun k e => k = [] ∧ (∀ w, ¬ c.1.Decodes c.2 w) ∧ c.1.Reported limit before.length c.2 e

variable {limit : Option Nat} {types : List ColumnType} {row values : List Value}

theorem decode_reports (before : List (ColumnType × Value)) (c : ColumnType × Value) :
    Reports (c.1.decode before.length c.2 limit) (fault limit before c) := by
  cases h : c.1.decode before.length c.2 limit with
  | ok w =>
    rintro k e ⟨-, hnone, -⟩
    exact hnone w (decode_eq_ok_iff_decodes.mp h)
  | error e =>
    refine ⟨[], ⟨rfl, decode_eq_error_iff.mp h⟩, ?_⟩
    rintro k' e' ⟨rfl, h'⟩
    have he := h.symm.trans (decode_eq_error_iff.mpr h')
    exact .inr ⟨rfl, Except.error.inj he⟩

theorem decodeColumns_reports (before : List (ColumnType × Value)) (types : List ColumnType)
    (row : List Value) :
    Reports (decodeColumns limit before.length types row)
      (Faults.along (fault limit) before (types.zip row)) := by
  induction types generalizing before row with
  | nil => exact reports_along_nil
  | cons t types ih =>
    cases row with
    | nil => exact reports_along_nil
    | cons v row =>
      refine reports_along_cons (decode_reports before (t, v)) fun w _ => ?_
      have hrest := ih (before ++ [(t, v)]) row
      rw [List.length_append, List.length_singleton] at hrest
      exact hrest.map (w :: ·)

/-- Every declared column gives its value, and nothing else is given. -/
theorem decodeColumns_eq_ok_iff {column : Nat} :
    decodeColumns limit column types row = .ok values ↔
      List.Forall₂ (fun c w => c.1.Decodes c.2 w) (types.zip row) values := by
  induction types generalizing column row values with
  | nil =>
    rw [List.zip_nil_left, List.forall₂_nil_left_iff]
    exact ⟨fun h => by cases h; rfl, fun h => by rw [h]; rfl⟩
  | cons t types ih =>
    cases row with
    | nil =>
      rw [List.zip_nil_right, List.forall₂_nil_left_iff]
      exact ⟨fun h => by cases h; rfl, fun h => by rw [h]; rfl⟩
    | cons v row =>
      rw [List.zip_cons_cons, List.forall₂_cons_left_iff, decodeColumns, bind_eq_ok_iff]
      constructor
      · rintro ⟨w, hw, h⟩
        obtain ⟨ws, hws, rfl⟩ := map_eq_ok_iff.mp h
        exact ⟨w, ws, decode_eq_ok_iff_decodes.mp hw, ih.mp hws, rfl⟩
      · rintro ⟨w, ws, hw, hws, rfl⟩
        exact ⟨w, decode_eq_ok_iff_decodes.mpr hw, map_eq_ok_iff.mpr ⟨ws, ih.mpr hws, rfl⟩⟩

theorem along_fault_iff {k : List Nat} {e : Failure} :
    Faults.along (fault limit) [] (types.zip row) k e ↔
      ∃ (i : Nat) (t : ColumnType) (v : Value), k = [i] ∧ types[i]? = some t ∧ row[i]? = some v ∧
        (∀ w, ¬ t.Decodes v w) ∧ t.Reported limit i v e := by
  have hcolumn : ∀ (i : Nat) (c : ColumnType × Value), (types.zip row)[i]? = some c →
      ([] ++ (types.zip row).take i).length = i := by
    intro i c hc
    have hlt := (List.getElem?_eq_some_iff.mp hc).1
    rw [List.nil_append, List.length_take]
    omega
  constructor
  · rintro ⟨i, ⟨t, v⟩, hc, _, rfl, rfl, hnone, hreported⟩
    rw [hcolumn i _ hc] at hreported
    obtain ⟨ht, hv⟩ := List.getElem?_zip_eq_some.mp hc
    exact ⟨i, t, v, rfl, ht, hv, hnone, hreported⟩
  · rintro ⟨i, t, v, rfl, ht, hv, hnone, hreported⟩
    have hc : (types.zip row)[i]? = some (t, v) := List.getElem?_zip_eq_some.mpr ⟨ht, hv⟩
    refine ⟨i, (t, v), hc, [], rfl, rfl, hnone, ?_⟩
    rw [hcolumn i _ hc]
    exact hreported

/-- The first fault is that of the first column that does not decode. -/
theorem first_along_iff {e : Failure} :
    (Faults.along (fault limit) [] (types.zip row)).First e ↔
      ∃ (i : Nat) (t : ColumnType) (v : Value), FirstMisfit types row i t v ∧
        t.Reported limit i v e := by
  constructor
  · rintro ⟨k, hk, hfirst⟩
    obtain ⟨i, t, v, rfl, ht, hv, hnone, hreported⟩ := along_fault_iff.mp hk
    refine ⟨i, t, v, ⟨ht, hv, hnone, fun j hj t' v' ht' hv' => ?_⟩, hreported⟩
    by_contra hno
    -- then the column `j` has a fault as well, and comes first
    have hnone' : ∀ w, ¬ t'.Decodes v' w := fun w hw => hno ⟨w, hw⟩
    obtain ⟨e', he'⟩ := exists_reported limit j hnone'
    have hle := hfirst [j] e' (along_fault_iff.mpr ⟨j, t', v', rfl, ht', hv', hnone', he'⟩)
    exact not_lt_of_ge hle (List.cons_lt_cons_iff.mpr (.inl hj))
  · rintro ⟨i, t, v, hfirst, hreported⟩
    refine ⟨[i], along_fault_iff.mpr ⟨i, t, v, rfl, hfirst.type, hfirst.value, hfirst.undecoded,
      hreported⟩, fun k' e' hk' => ?_⟩
    obtain ⟨j, t', v', rfl, ht', hv', hnone', -⟩ := along_fault_iff.mp hk'
    have hij : ¬ j < i := fun hj => by
      obtain ⟨w, hw⟩ := hfirst.before j hj t' v' ht' hv'
      exact hnone' w hw
    rcases Nat.lt_or_eq_of_le (Nat.le_of_not_lt hij) with hlt | rfl
    · exact le_of_lt (List.cons_lt_cons_iff.mpr (.inl hlt))
    · exact le_refl _

/-- What is reported when the column after the last one of the row is missing. -/
def missing (types : List ColumnType) (row : List Value) (t : ColumnType) : Failure :=
  .rows (.decode row.length t.name .null
    (some s!"row has {row.length} columns, {types.length} declared"))

theorem decodeRow_of_missing {t : ColumnType} (h : types[row.length]? = some t) :
    decodeRow types row limit = .error (missing types row t) := by
  obtain ⟨hlt, rfl⟩ := List.getElem?_eq_some_iff.mp h
  unfold decodeRow
  rw [List.drop_eq_getElem_cons hlt]
  rfl

theorem decodeRow_of_length_le (h : types.length ≤ row.length) :
    decodeRow types row limit = decodeColumns limit 0 types row := by
  unfold decodeRow
  rw [List.drop_of_length_le h]

/-- **A row is decoded if it is long enough and each declared column decodes, and gives one value
for each of them, whatever comes behind. Otherwise the first missing column is reported; and if
there is none, the first column that does not decode.** The report is a decode error with the number
of the column, its type and its value, except that a whole number past the doubles is another
failure in a column of doubles, and so is a number with more digits than a message may show. -/
theorem decodeRow_reports_first (types : List ColumnType) (row : List Value)
    (limit : Option Nat) :
    (∀ values, decodeRow types row limit = .ok values ↔
      types.length ≤ row.length ∧
        List.Forall₂ (fun c w => c.1.Decodes c.2 w) (types.zip row) values) ∧
    ∀ e, decodeRow types row limit = .error e ↔
      (∃ t, types[row.length]? = some t ∧ e = missing types row t) ∨
      types.length ≤ row.length ∧ ∃ (i : Nat) (t : ColumnType) (v : Value),
        FirstMisfit types row i t v ∧ t.Reported limit i v e := by
  rcases Nat.lt_or_ge row.length types.length with hshort | hlong
  · have hmissing : types[row.length]? = some types[row.length] := List.getElem?_eq_getElem hshort
    rw [decodeRow_of_missing hmissing]
    refine ⟨fun values => ⟨nofun, fun h => by omega⟩, fun e => ⟨?_, ?_⟩⟩
    · intro h
      exact .inl ⟨_, hmissing, (Except.error.inj h).symm⟩
    · rintro (⟨t, ht, rfl⟩ | ⟨hle, -⟩)
      · cases hmissing.symm.trans ht
        rfl
      · omega
  · have hnone : types[row.length]? = none := List.getElem?_eq_none hlong
    rw [decodeRow_of_length_le hlong]
    refine ⟨fun values => ?_, fun e => ?_⟩
    · rw [decodeColumns_eq_ok_iff]
      exact ⟨fun h => ⟨hlong, h⟩, fun h => h.2⟩
    · have hreports : Reports (decodeColumns limit 0 types row)
          (Faults.along (fault limit) [] (types.zip row)) := decodeColumns_reports [] types row
      rw [hreports.eq_error_iff, first_along_iff, hnone]
      exact ⟨fun h => .inr ⟨hlong, h⟩, fun h => (h.resolve_left nofun).2⟩

/-- A number past the doubles is refused by a column of doubles, and not by a decode error. -/
theorem overflow_is_no_decode_error :
    decodeRow [.float] [.int (Nat.pow 10 400)] = .error .tooLarge ∧
      ∀ column expected value reason,
        Failure.tooLarge ≠ .rows (.decode column expected value reason) := by
  refine ⟨?_, nofun⟩
  have hover : Overflows .float (.int (Nat.pow 10 400)) := .float (by decide +kernel)
  have hfirst : decode .float (0 : Nat) (.int (Nat.pow 10 400)) = .error .tooLarge := by
    unfold decode
    rw [hover.convert_eq]
  have hrow : decodeRow [.float] [.int (Nat.pow 10 400)] =
      decodeColumns none 0 [.float] [.int (Nat.pow 10 400)] := rfl
  rw [hrow, decodeColumns, hfirst]
  rfl

end ColumnType

end QueryBook
