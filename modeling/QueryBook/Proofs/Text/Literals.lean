import QueryBook.Text.Literal
import Mathlib.Algebra.Group.Nat.Defs
import Mathlib.Data.List.Basic

/-!
# Reading literals

The reader of quoted literals, which is given here by the rules of the generated language and knows
nothing of how a literal is written. It goes from the opening quote to the closing one and takes one
character of the text at a time: a backslash and one character more, a backslash and a code point in
two, four or eight hexadecimal digits, or a character that stands for itself. A line may not end
inside a literal, and nothing may follow the closing quote.

Whatever the text, its literal is read as that text. What is written for one character is read as
that character, with any characters behind it; so the rest of the literal is never looked at to tell
where an escape ends.
-/

namespace QueryBook.Text

/-! ## Hexadecimal numbers -/

/-- The value of a hexadecimal digit, in either case. -/
def hexValue? (c : Char) : Option Nat :=
  if '0' ≤ c ∧ c ≤ '9' then some (c.toNat - '0'.toNat)
  else if 'a' ≤ c ∧ c ≤ 'f' then some (c.toNat - 'a'.toNat + 10)
  else if 'A' ≤ c ∧ c ≤ 'F' then some (c.toNat - 'A'.toNat + 10)
  else none

/-- The number that hexadecimal digits write. -/
def number? (cs : List Char) : Option Nat :=
  cs.foldlM (fun n c => (hexValue? c).map (16 * n + ·)) 0

theorem hexValue?_hexDigit {n : Nat} (h : n < 16) : hexValue? (hexDigit n) = some n := by
  decide +revert

theorem length_hex (width n : Nat) : (hex width n).length = width := by
  induction width generalizing n with
  | zero => rfl
  | succ width ih => rw [hex, List.length_append, ih, List.length_singleton]

/-- The digits of a number write what is left of it in so many digits. -/
theorem number?_hex (width n : Nat) : number? (hex width n) = some (n % 16 ^ width) := by
  induction width generalizing n with
  | zero => rw [Nat.pow_zero, Nat.mod_one]; rfl
  | succ width ih =>
    have hvalue : hexValue? (hexDigit (n % 16)) = some (n % 16) :=
      hexValue?_hexDigit (Nat.mod_lt n (by omega))
    have hsplit : n % 16 ^ (width + 1) = n % 16 + 16 * (n / 16 % 16 ^ width) := by
      rw [Nat.pow_succ, Nat.mul_comm, Nat.mod_mul]
    unfold number? at ih ⊢
    rw [hex, List.foldlM_append, ih, hsplit, Nat.add_comm]
    simp [hvalue]

namespace Literal

/-! ## The reader -/

/-- A character by its code point. -/
def char? (n : Nat) : Option Char := if n.isValidChar then some (Char.ofNat n) else none

/-- The character that one character behind a backslash stands for. -/
def simple? : Char → Option Char
  | '\\' => some '\\'
  | '\'' => some '\''
  | '"' => some '"'
  | 'n' => some '\n'
  | 'r' => some '\r'
  | 't' => some '\t'
  | _ => none

/-- How many hexadecimal digits follow a character behind a backslash. -/
def digits? : Char → Option Nat
  | 'x' => some 2
  | 'u' => some 4
  | 'U' => some 8
  | _ => none

/-- The character that is written behind a backslash, and in how many characters. -/
def escaped? : List Char → Option (Char × Nat)
  | [] => none
  | e :: cs =>
    match simple? e, digits? e with
    | some c, _ => some (c, 1)
    | none, none => none
    | none, some width =>
      if cs.length < width then none
      else ((number? (cs.take width)).bind char?).map fun c => (c, width + 1)

/-- The text of a literal whose opening quote comes before. -/
def body? (quote : Char) : List Char → Option (List Char)
  | [] => none
  | c :: cs =>
    if c = quote then if cs.isEmpty then some [] else none
    else if c = '\n' ∨ c = '\r' then none
    else if c = '\\' then
      match escaped? cs with
      | some (d, n) => (body? quote (cs.drop n)).map (d :: ·)
      | none => none
    else (body? quote cs).map (c :: ·)
termination_by cs => cs.length
decreasing_by all_goals simp only [List.length_cons, List.length_drop]; omega

/-- The text that a literal denotes. -/
def decode : List Char → Option (List Char)
  | [] => none
  | quote :: cs => if quote = '\'' ∨ quote = '"' then body? quote cs else none

/-! ## Reading one character -/

theorem char?_toNat (c : Char) : char? c.toNat = some c := by
  have hvalid : c.toNat.isValidChar := c.valid
  rw [char?, if_pos hvalid, Char.ofNat_toNat]

/-- A code point is read back in any width that holds it. -/
theorem escaped?_hex {e : Char} {width : Nat} {c : Char} (hsimple : simple? e = none)
    (hdigits : digits? e = some width) (hc : c.toNat < 16 ^ width) (rest : List Char) :
    escaped? (e :: (hex width c.toNat ++ rest)) = some (c, width + 1) := by
  have hlength : ¬ (hex width c.toNat ++ rest).length < width := by
    rw [List.length_append, length_hex]
    omega
  have htake : (hex width c.toNat ++ rest).take width = hex width c.toNat :=
    List.take_left' (length_hex width c.toNat)
  simp only [escaped?, hsimple, hdigits]
  rw [if_neg hlength, htake, number?_hex, Nat.mod_eq_of_lt hc, Option.bind_some, char?_toNat,
    Option.map_some]

/-- A backslash and what is written behind it. -/
theorem body?_backslash {quote : Char} (hquote : quote ≠ '\\') {c : Char} {cs rest : List Char}
    (h : escaped? (cs ++ rest) = some (c, cs.length)) :
    body? quote ('\\' :: (cs ++ rest)) = (body? quote rest).map (c :: ·) := by
  rw [body?, if_neg (Ne.symm hquote), if_neg (by decide), if_pos rfl, h]
  simp only [List.drop_left]

theorem body?_codeEscape {quote : Char} (hquote : quote ≠ '\\') (c : Char) (rest : List Char) :
    body? quote (codeEscape c.toNat ++ rest) = (body? quote rest).map (c :: ·) := by
  have hread : ∀ (e : Char) (width : Nat), simple? e = none → digits? e = some width →
      c.toNat < 16 ^ width →
      body? quote ('\\' :: e :: hex width c.toNat ++ rest) = (body? quote rest).map (c :: ·) := by
    intro e width hsimple hdigits hc
    have hescaped : escaped? (e :: hex width c.toNat ++ rest) =
        some (c, (e :: hex width c.toNat).length) := by
      rw [List.cons_append, escaped?_hex hsimple hdigits hc, List.length_cons, length_hex]
    exact body?_backslash hquote hescaped
  unfold codeEscape
  split
  · exact hread 'x' 2 rfl rfl (by omega)
  · split
    · exact hread 'u' 4 rfl rfl (by omega)
    · -- no code point takes more than six digits
      have hc : c.toNat < 0x110000 := by
        rcases c.valid with h | h
        · exact Nat.lt_trans h (by decide)
        · exact h.2
      exact hread 'U' 8 rfl rfl (by omega)

/-- What is written for a character is read as that character. -/
theorem body?_escape {quote : Char} (hquote : quote = '\'' ∨ quote = '"') (c : Char)
    (rest : List Char) :
    body? quote (escape quote c ++ rest) = (body? quote rest).map (c :: ·) := by
  have hslash : quote ≠ '\\' := by
    rcases hquote with rfl | rfl <;> decide
  have hsimple : ∀ d, simple? d = some c →
      body? quote (['\\', d] ++ rest) = (body? quote rest).map (c :: ·) := by
    intro d hd
    have hescaped : escaped? ([d] ++ rest) = some (c, [d].length) := by
      simp [escaped?, hd]
    exact body?_backslash hslash hescaped
  unfold escape
  split
  · rename_i hc
    refine hsimple c ?_
    rcases hc with rfl | rfl
    · rcases hquote with rfl | rfl <;> rfl
    · rfl
  split
  · rename_i hc
    exact hsimple 't' (hc ▸ rfl)
  split
  · rename_i hc
    exact hsimple 'n' (hc ▸ rfl)
  split
  · rename_i hc
    exact hsimple 'r' (hc ▸ rfl)
  split
  · rename_i hspecial _ hnewline hreturn _
    obtain ⟨hc, hbackslash⟩ := not_or.mp hspecial
    rw [List.singleton_append, body?, if_neg hc, if_neg (not_or.mpr ⟨hnewline, hreturn⟩),
      if_neg hbackslash]
  · exact body?_codeEscape hslash c rest

/-! ## Reading a text -/

theorem quoteFor_eq (cs : List Char) : quoteFor cs = '\'' ∨ quoteFor cs = '"' := by
  unfold quoteFor
  split
  · exact .inr rfl
  · exact .inl rfl

theorem body?_flatMap_escape {quote : Char} (hquote : quote = '\'' ∨ quote = '"')
    (cs : List Char) : body? quote (cs.flatMap (escape quote) ++ [quote]) = some cs := by
  induction cs with
  | nil =>
    rw [List.flatMap_nil, List.nil_append, body?, if_pos rfl]
    rfl
  | cons c cs ih =>
    rw [List.flatMap_cons, List.append_assoc, body?_escape hquote, ih, Option.map_some]

/-- A literal denotes its text. -/
theorem decode_encode (cs : List Char) : decode (encode cs) = some cs := by
  rw [encode, decode, if_pos (quoteFor_eq cs), body?_flatMap_escape (quoteFor_eq cs)]

/-! ## Quotes inside -/

/-- Whether the character behind these is escaped: a backslash escapes the character behind it,
unless it is itself escaped. -/
def escapesNext (before : List Char) : Bool :=
  before.foldl (fun escaped c => !escaped && c == '\\') false

/-- Each occurrence of the quote is escaped, and the closing quote is not. -/
structure Encloses (quote : Char) (cs : List Char) : Prop where
  inside : ∀ before after, cs = before ++ quote :: after → escapesNext before = true
  closed : escapesNext cs = false

theorem Encloses.nil (quote : Char) : Encloses quote [] := by
  refine ⟨?_, rfl⟩
  intro before after h
  exact absurd h.symm (List.append_ne_nil_of_right_ne_nil before (List.cons_ne_nil quote after))

theorem Encloses.plain {quote c : Char} {cs : List Char} (hquote : c ≠ quote)
    (hbackslash : c ≠ '\\') (h : Encloses quote cs) : Encloses quote (c :: cs) := by
  have hskip : ∀ before, escapesNext (c :: before) = escapesNext before := by
    intro before
    have hc : (c == '\\') = false := beq_eq_false_iff_ne.mpr hbackslash
    simp [escapesNext, hc]
  refine ⟨?_, (hskip cs).trans h.closed⟩
  intro before after heq
  cases before with
  | nil => exact absurd (List.cons.inj heq).1 hquote
  | cons d before =>
    obtain ⟨rfl, htail⟩ := List.cons.inj heq
    rw [hskip]
    exact h.inside before after htail

theorem Encloses.escaped {quote : Char} (hquote : quote ≠ '\\') (c : Char) {cs : List Char}
    (h : Encloses quote cs) : Encloses quote ('\\' :: c :: cs) := by
  have hskip : ∀ before, escapesNext ('\\' :: c :: before) = escapesNext before := by
    intro before
    simp [escapesNext]
  refine ⟨?_, (hskip cs).trans h.closed⟩
  intro before after heq
  match before, heq with
  | [], heq => exact absurd (List.cons.inj heq).1.symm hquote
  | [_], heq =>
    obtain ⟨rfl, -⟩ := List.cons.inj heq
    rfl
  | _ :: _ :: before, heq =>
    obtain ⟨rfl, htail⟩ := List.cons.inj heq
    obtain ⟨rfl, hrest⟩ := List.cons.inj htail
    rw [hskip]
    exact h.inside before after hrest

/-! ## Printable characters -/

theorem isPrintable_of_ascii {c : Char} (hge : 0x20 ≤ c.toNat) (hle : c.toNat ≤ 0x7e) :
    isPrintable c = true := by
  show Ranges.contains ((0x20, 0x7e) :: _) c.toNat = true
  rw [Ranges.contains, if_neg (Nat.not_lt.mpr hge), if_pos hle]

theorem le_of_isPrintable {c : Char} (h : isPrintable c = true) : 0x20 ≤ c.toNat := by
  by_cases hlt : c.toNat < 0x20
  · have hnot : isPrintable c = false := by
      show Ranges.contains ((0x20, 0x7e) :: _) c.toNat = false
      rw [Ranges.contains, if_pos hlt]
    rw [hnot] at h
    cases h
  · exact Nat.not_lt.mp hlt

/-- A digit is printable, and neither a quote nor a backslash. -/
theorem hexDigit_spec {n : Nat} (h : n < 16) :
    0x30 ≤ (hexDigit n).toNat ∧ (hexDigit n).toNat ≤ 0x66 ∧ hexDigit n ≠ '\\' := by
  decide +revert

theorem mem_hex {width n : Nat} {c : Char} (h : c ∈ hex width n) : ∃ d < 16, c = hexDigit d := by
  induction width generalizing n with
  | zero => cases h
  | succ width ih =>
    rcases List.mem_append.mp h with h | h
    · exact ih h
    · exact ⟨n % 16, Nat.mod_lt n (by omega), List.mem_singleton.mp h⟩

/-! ## The form of a literal -/

/-- A character stands for itself, or is written behind a backslash by one character and some
digits. -/
theorem escape_cases {quote : Char} (hquote : quote = '\'' ∨ quote = '"') (c : Char) :
    (escape quote c = [c] ∧ c ≠ quote ∧ c ≠ '\\' ∧ isPrintable c = true) ∨
    ∃ e width n, escape quote c = '\\' :: e :: hex width n ∧ 0x20 ≤ e.toNat ∧ e.toNat ≤ 0x7e := by
  unfold escape
  split
  · rename_i hc
    refine .inr ⟨c, 0, 0, rfl, ?_⟩
    rcases hc with rfl | rfl
    · rcases hquote with rfl | rfl <;> decide
    · decide
  split
  · exact .inr ⟨'t', 0, 0, rfl, by decide⟩
  split
  · exact .inr ⟨'n', 0, 0, rfl, by decide⟩
  split
  · exact .inr ⟨'r', 0, 0, rfl, by decide⟩
  split
  · rename_i hspecial _ _ _ hprintable
    obtain ⟨hc, hbackslash⟩ := not_or.mp hspecial
    exact .inl ⟨rfl, hc, hbackslash, hprintable⟩
  · refine .inr ?_
    unfold codeEscape
    split
    · exact ⟨'x', 2, c.toNat, rfl, by decide⟩
    split
    · exact ⟨'u', 4, c.toNat, rfl, by decide⟩
    · exact ⟨'U', 8, c.toNat, rfl, by decide⟩

theorem isPrintable_of_mem_escape {quote : Char} (hquote : quote = '\'' ∨ quote = '"')
    {c d : Char} (h : d ∈ escape quote c) : isPrintable d = true := by
  rcases escape_cases hquote c with ⟨heq, -, -, hc⟩ | ⟨e, width, n, heq, hge, hle⟩
  · rw [heq] at h
    rw [List.mem_singleton.mp h]
    exact hc
  · rw [heq] at h
    rcases List.mem_cons.mp h with rfl | h
    · exact isPrintable_of_ascii (by decide) (by decide)
    rcases List.mem_cons.mp h with rfl | h
    · exact isPrintable_of_ascii hge hle
    · obtain ⟨digit, hdigit, rfl⟩ := mem_hex h
      obtain ⟨hge, hle, -⟩ := hexDigit_spec hdigit
      exact isPrintable_of_ascii (by omega) (by omega)

theorem Encloses.digits {quote : Char} (hquote : quote = '\'' ∨ quote = '"') {ds cs : List Char}
    (hds : ∀ d ∈ ds, ∃ n < 16, d = hexDigit n) (h : Encloses quote cs) :
    Encloses quote (ds ++ cs) := by
  induction ds with
  | nil => exact h
  | cons d ds ih =>
    obtain ⟨⟨n, hn, rfl⟩, hrest⟩ := List.forall_mem_cons.mp hds
    obtain ⟨hge, -, hbackslash⟩ := hexDigit_spec hn
    have hne : hexDigit n ≠ quote := by
      intro heq
      rw [heq] at hge
      rcases hquote with rfl | rfl
      · exact absurd hge (by decide)
      · exact absurd hge (by decide)
    exact (ih hrest).plain hne hbackslash

theorem encloses_flatMap_escape {quote : Char} (hquote : quote = '\'' ∨ quote = '"')
    (cs : List Char) : Encloses quote (cs.flatMap (escape quote)) := by
  have hslash : quote ≠ '\\' := by
    rcases hquote with rfl | rfl <;> decide
  induction cs with
  | nil => exact .nil quote
  | cons c cs ih =>
    rw [List.flatMap_cons]
    rcases escape_cases hquote c with ⟨heq, hc, hbackslash, -⟩ | ⟨e, width, n, heq, -, -⟩
    · rw [heq]
      exact ih.plain hc hbackslash
    · rw [heq]
      exact (ih.digits hquote fun d hd => mem_hex hd).escaped hslash e

/-- A literal of a text: one line of printable characters between two equal quotes that are not
escaped, as are all such quotes between them, and the reader makes the text of it. -/
structure Quoted (source text : List Char) : Prop where
  enclosed : ∃ quote body, source = quote :: (body ++ [quote]) ∧ (quote = '\'' ∨ quote = '"') ∧
    Encloses quote body
  printable : ∀ c ∈ source, isPrintable c = true
  one_line : '\n' ∉ source ∧ '\r' ∉ source
  decode_eq : decode source = some text

theorem quoted_encode (cs : List Char) : Quoted (encode cs) cs := by
  have hquote := quoteFor_eq cs
  have hprintable : ∀ c ∈ encode cs, isPrintable c = true := by
    have hself : isPrintable (quoteFor cs) = true := by
      rcases hquote with h | h
      · rw [h]
        exact isPrintable_of_ascii (by decide) (by decide)
      · rw [h]
        exact isPrintable_of_ascii (by decide) (by decide)
    intro c hc
    rcases List.mem_cons.mp hc with rfl | hc
    · exact hself
    rcases List.mem_append.mp hc with hc | hc
    · obtain ⟨d, -, hd⟩ := List.mem_flatMap.mp hc
      exact isPrintable_of_mem_escape hquote hd
    · rw [List.mem_singleton.mp hc]
      exact hself
  refine ⟨⟨_, _, rfl, hquote, encloses_flatMap_escape hquote cs⟩, hprintable, ⟨?_, ?_⟩,
    decode_encode cs⟩
  · intro hmem
    exact absurd (le_of_isPrintable (hprintable _ hmem)) (by decide)
  · intro hmem
    exact absurd (le_of_isPrintable (hprintable _ hmem)) (by decide)

theorem Quoted.text_eq {source text text' : List Char} (h : Quoted source text)
    (h' : Quoted source text') : text = text' :=
  Option.some.inj (h.decode_eq.symm.trans h'.decode_eq)

end Literal

theorem quoted_literal (text : String) : Literal.Quoted (literal text).toList text.toList := by
  rw [literal, String.toList_ofList]
  exact Literal.quoted_encode text.toList

end QueryBook.Text
