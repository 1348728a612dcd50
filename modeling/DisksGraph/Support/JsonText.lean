import DisksGraph.Support.Json

/-!
# Support — JsonText

Reading a JSON text.

* `Reader`: takes something off the front of a text.
* `value`: one value, by the grammar of RFC 8259: no leading zeros, no control characters in a
  string, no comma before a closing bracket.  Integers of 64 bits are `int`, other numbers `float`;
  a string with an unpaired surrogate is `garbled`.
* `parse`: a whole text, with nothing but white space after the value.
* `value_spends`: what is read is written with no more bytes than it was read from.
-/

namespace DisksGraph.Support.JsonValue

/-- Takes something off the front of a text. -/
abbrev Reader (α : Type) : Type := List Char → Option (α × List Char)

/-- White space between the tokens. -/
def isSpace (c : Char) : Bool := c == ' ' || c == '\t' || c == '\n' || c == '\r'

/-- The text without leading white space. -/
def skip (text : List Char) : List Char := text.dropWhile isSpace

/-! ### Numbers -/

/-- One digit or more. -/
def digits : Reader (List Char) := fun text =>
  if text.takeWhile Char.isDigit = [] then none
  else some (text.takeWhile Char.isDigit, text.dropWhile Char.isDigit)

/-- One of the allowed signs, or none. -/
def sign (allowed : Char → Bool) (text : List Char) : List Char × List Char :=
  match text with
  | c :: rest => if allowed c then ([c], rest) else ([], text)
  | [] => ([], [])

/-- The digits after the point, with it. -/
def fraction : Reader (List Char)
  | [] => some ([], [])
  | c :: rest =>
      if c = '.' then (digits rest).map fun found => (c :: found.1, found.2)
      else some ([], c :: rest)

/-- The power of ten. -/
def exponent : Reader (List Char)
  | [] => some ([], [])
  | c :: rest =>
      if c = 'e' ∨ c = 'E' then
        (digits (sign (fun c => c == '+' || c == '-') rest).2).map fun found =>
          (c :: ((sign (fun c => c == '+' || c == '-') rest).1 ++ found.1), found.2)
      else some ([], c :: rest)

/-- The number of a literal: an integer when it has neither a fraction nor an exponent and fits in
64 bits. -/
def numeral (minus whole tail : List Char) : JsonValue :=
  if tail ≠ [] then .float (String.ofList (minus ++ whole ++ tail))
  else if minus = [] then
    if Nat.ofDigitChars 10 whole 0 < 2 ^ 64 then .int (Nat.ofDigitChars 10 whole 0)
    else .float (String.ofList whole)
  else if 0 < Nat.ofDigitChars 10 whole 0 ∧ Nat.ofDigitChars 10 whole 0 ≤ 2 ^ 63 then
    .int (-(Nat.ofDigitChars 10 whole 0))
  else .float (String.ofList (minus ++ whole))

/-- Reads a number. -/
def number : Reader JsonValue := fun text => do
  let (whole, rest) ← digits (sign (· == '-') text).2
  if whole.head? = some '0' ∧ whole ≠ ['0'] then none
  let (decimals, rest) ← fraction rest
  let (power, rest) ← exponent rest
  return (numeral (sign (· == '-') text).1 whole (decimals ++ power), rest)

/-! ### Strings -/

/-- The value of a hexadecimal digit. -/
def hexValue (c : Char) : Option Nat :=
  if '0' ≤ c ∧ c ≤ '9' then some (c.toNat - 48)
  else if 'a' ≤ c ∧ c ≤ 'f' then some (c.toNat - 87)
  else if 'A' ≤ c ∧ c ≤ 'F' then some (c.toNat - 55)
  else none

/-- The four digits of a UTF-16 unit. -/
def codeUnit : Reader Nat
  | a :: b :: c :: d :: rest => do
      let a ← hexValue a
      let b ← hexValue b
      let c ← hexValue c
      let d ← hexValue d
      return (a * 4096 + b * 256 + c * 16 + d, rest)
  | _ => none

/-- What one step in a string finds; `lone` is a surrogate without its other half. -/
inductive Piece where
  | close
  | char (c : Char)
  | lone

/-- The second half of a surrogate pair. -/
def trailing : Reader Nat
  | '\\' :: 'u' :: rest =>
      (codeUnit rest).bind fun found =>
        if 0xDC00 ≤ found.1 ∧ found.1 ≤ 0xDFFF then some found else none
  | _ => none

/-- The rest of an escape by number. -/
def unicode : Reader Piece := fun text =>
  (codeUnit text).map fun (unit, rest) =>
    if 0xDC00 ≤ unit ∧ unit ≤ 0xDFFF then (.lone, rest)
    else if 0xD800 ≤ unit ∧ unit ≤ 0xDBFF then
      match trailing rest with
      | some (low, rest) =>
          (.char (Char.ofNat (0x10000 + (unit - 0xD800) * 0x400 + (low - 0xDC00))), rest)
      | none => (.lone, rest)
    else (.char (Char.ofNat unit), rest)

/-- The character that a letter after a backslash stands for. -/
def simpleEscape (letter : Char) : Option Char :=
  if letter = '/' then some '/'
  else (escapes.find? fun entry => entry.2 == letter).map Prod.fst

/-- Reads an escape after its backslash. -/
def escape : Reader Piece
  | [] => none
  | c :: rest =>
      if c = 'u' then unicode rest
      else (simpleEscape c).map fun c => (.char c, rest)

/-- One step in a string. -/
def piece : Reader Piece
  | [] => none
  | c :: rest =>
      if c = '"' then some (.close, rest)
      else if c = '\\' then escape rest
      else if c.toNat < 32 then none
      else some (.char c, rest)

/-- The rest of a string, and its closing quote. -/
def pieces : Nat → Reader (Option (List Char))
  | 0, _ => none
  | fuel + 1, text =>
      (piece text).bind fun (found, rest) =>
        match found with
        | .close => some (some [], rest)
        | .char c => (pieces fuel rest).map fun (text, rest) => (text.map (c :: ·), rest)
        | .lone => (pieces fuel rest).map fun (_, rest) => (none, rest)

/-- The rest of a string; every step takes a byte. -/
def stringTail : Reader (Option String) := fun text =>
  (pieces (byteLength text) text).map fun (found, rest) => (found.map String.ofList, rest)

/-! ### Values -/

/-- Parts with commas between them, up to the closing bracket. -/
def listed {α : Type} (part : Reader α) (close : Char) : Nat → Reader (List α)
  | 0, _ => none
  | fuel + 1, text =>
      (part (skip text)).bind fun (found, rest) =>
        match skip rest with
        | c :: rest =>
            if c = ',' then (listed part close fuel rest).map fun (all, rest) =>
              (found :: all, rest)
            else if c = close then some ([found], rest)
            else none
        | [] => none

/-- The parts of an array or of an object, which may have none. -/
def bracketed {α : Type} (part : Reader α) (close : Char) : Reader (List α) := fun text =>
  match skip text with
  | c :: rest =>
      if c = close then some ([], rest) else listed part close (byteLength text) (c :: rest)
  | [] => none

/-- A name, a colon and a value. -/
def member (value : Reader JsonValue) : Reader (Option String × JsonValue)
  | '"' :: rest =>
      (stringTail rest).bind fun (name, rest) =>
        match skip rest with
        | ':' :: rest => (value (skip rest)).map fun (found, rest) => ((name, found), rest)
        | _ => none
  | _ => none

/-- A string, unless a surrogate is missing its other half. -/
def ofString : Option String → JsonValue
  | some text => .string text
  | none => .garbled

/-- An object, unless one of its names is garbled. -/
def ofMembers (members : List (Option String × JsonValue)) : JsonValue :=
  match members.mapM fun member => member.1.map fun name => (name, member.2) with
  | some members => .object members
  | none => .garbled

/-- One value, nested at most as deep as the fuel allows. -/
def value : Nat → Reader JsonValue
  | 0, _ => none
  | fuel + 1, text =>
      match text with
      | [] => none
      | '"' :: rest => (stringTail rest).map fun (found, rest) => (ofString found, rest)
      | '[' :: rest => (bracketed (value fuel) ']' rest).map fun (items, rest) =>
          (.array items, rest)
      | '{' :: rest =>
          (bracketed (member (value fuel)) '}' rest).map fun (members, rest) =>
            (ofMembers members, rest)
      | 'n' :: 'u' :: 'l' :: 'l' :: rest => some (.null, rest)
      | 't' :: 'r' :: 'u' :: 'e' :: rest => some (.bool true, rest)
      | 'f' :: 'a' :: 'l' :: 's' :: 'e' :: rest => some (.bool false, rest)
      | text => number text

/-- A whole text.  A value has no more levels than its text has bytes. -/
def parse (text : String) : Option JsonValue :=
  (value (text.utf8ByteSize + 1) (skip text.toList)).bind fun (found, rest) =>
    if skip rest = [] then some found else none

/-! ### What is read is written as short -/

/-- A reader that takes at least as many bytes as the size of what it finds. -/
def Spends {α : Type} (read : Reader α) (size : α → Nat) : Prop :=
  ∀ text found rest, read text = some (found, rest) →
    size found + byteLength rest ≤ byteLength text

/-- Skipping spaces makes a text no longer. -/
theorem byteLength_skip (text : List Char) : byteLength (skip text) ≤ byteLength text := by
  induction text with
  | nil => exact Nat.le_refl _
  | cons c rest ih =>
      rw [skip, List.dropWhile_cons]
      split
      · rw [byteLength_cons]
        exact ih.trans (Nat.le_add_left _ _)
      · exact Nat.le_refl _

section Spends

variable {text rest : List Char}

/-- The digits that were read stand before the rest. -/
theorem digits_eq_some {found : List Char} (h : digits text = some (found, rest)) :
    text = found ++ rest ∧ found ≠ [] ∧ ∀ c ∈ found, c.isDigit = true := by
  unfold digits at h
  split at h
  · cases h
  · next hnonempty =>
    obtain ⟨rfl, rfl⟩ := Prod.mk.inj (Option.some.inj h)
    exact ⟨List.takeWhile_append_dropWhile.symm, hnonempty, List.all_eq_true.mp List.all_takeWhile⟩

/-- The sign and the rest are the text. -/
theorem sign_append (allowed : Char → Bool) (text : List Char) :
    (sign allowed text).1 ++ (sign allowed text).2 = text := by
  unfold sign
  split
  · split <;> rfl
  · rfl

theorem fraction_eq_some {found : List Char} (h : fraction text = some (found, rest)) :
    text = found ++ rest := by
  cases text with
  | nil =>
      obtain ⟨rfl, rfl⟩ := Prod.mk.inj (Option.some.inj h)
      rfl
  | cons c text =>
      rw [fraction] at h
      split at h
      · obtain ⟨⟨ds, rest'⟩, hdigits, hfound⟩ := Option.map_eq_some_iff.mp h
        obtain ⟨rfl, rfl⟩ := Prod.mk.inj hfound
        rw [(digits_eq_some hdigits).1]
        rfl
      · obtain ⟨rfl, rfl⟩ := Prod.mk.inj (Option.some.inj h)
        rfl

theorem exponent_eq_some {found : List Char} (h : exponent text = some (found, rest)) :
    text = found ++ rest := by
  cases text with
  | nil =>
      obtain ⟨rfl, rfl⟩ := Prod.mk.inj (Option.some.inj h)
      rfl
  | cons c text =>
      rw [exponent] at h
      split at h
      · obtain ⟨⟨ds, rest'⟩, hdigits, hfound⟩ := Option.map_eq_some_iff.mp h
        obtain ⟨rfl, rfl⟩ := Prod.mk.inj hfound
        have hsplit := (digits_eq_some hdigits).1
        rw [List.cons_append, List.append_assoc]
        dsimp only at hsplit ⊢
        rw [← hsplit, sign_append]
      · obtain ⟨rfl, rfl⟩ := Prod.mk.inj (Option.some.inj h)
        rfl

/-- Digits are ASCII. -/
theorem byteLength_of_isDigit {found : List Char} (h : ∀ c ∈ found, c.isDigit = true) :
    byteLength found = found.length := by
  induction found with
  | nil => rfl
  | cons c found ih =>
      obtain ⟨hc, hfound⟩ := List.forall_mem_cons.mp h
      have hascii : c.utf8Size = 1 := by
        rw [Char.utf8Size_eq_one_iff]
        have hnine : '9'.toNat = 57 := rfl
        have hle := (Char.isDigit_iff_toNat.mp hc).2
        exact UInt32.le_iff_toNat_le.mpr (by rw [← Char.toNat]; simp; omega)
      rw [byteLength_cons, ih hfound, hascii, List.length_cons, Nat.add_comm]

/-- The value of digits is bounded by their number. -/
theorem ofDigitChars_lt {found : List Char} (h : ∀ c ∈ found, c.isDigit = true) :
    Nat.ofDigitChars 10 found 0 < 10 ^ found.length := by
  induction found with
  | nil => decide
  | cons c found ih =>
      obtain ⟨hc, hfound⟩ := List.forall_mem_cons.mp h
      have hdigit := Char.isDigit_iff_toNat.mp hc
      have hrest := ih hfound
      rw [Nat.ofDigitChars_cons, Nat.ofDigitChars_eq_ofDigitChars_zero, List.length_cons,
        Nat.pow_succ]
      have hvalue : c.toNat - '0'.toNat ≤ 9 := by
        have hzero : '0'.toNat = 48 := rfl
        have hnine : '9'.toNat = 57 := rfl
        omega
      have hscaled : 10 ^ found.length * (10 * 0 + (c.toNat - '0'.toNat)) ≤
          10 ^ found.length * 9 := Nat.mul_le_mul_left _ (by omega)
      omega

/-- The digits of a number are no more than those it was read from. -/
theorem byteLength_toDigits_le {found : List Char} (hnonempty : found ≠ [])
    (h : ∀ c ∈ found, c.isDigit = true) :
    byteLength (Nat.toDigits 10 (Nat.ofDigitChars 10 found 0)) ≤ byteLength found := by
  have hdigits : ∀ c ∈ Nat.toDigits 10 (Nat.ofDigitChars 10 found 0), c.isDigit = true :=
    fun c hc => Nat.isDigit_of_mem_toDigits (by decide) (by decide) hc
  rw [byteLength_of_isDigit hdigits, byteLength_of_isDigit h,
    Nat.length_toDigits_le_iff (by decide) (List.length_pos_iff.mpr hnonempty)]
  exact ofDigitChars_lt h

/-- A number is written no longer than its literal. -/
theorem byteLength_numeral_le {minus whole tail : List Char} (hminus : minus = [] ∨ minus = ['-'])
    (hnonempty : whole ≠ []) (hdigits : ∀ c ∈ whole, c.isDigit = true) :
    byteLength (numeral minus whole tail).chars ≤ byteLength (minus ++ whole ++ tail) := by
  have hliteral : ∀ literal : List Char,
      (JsonValue.float (String.ofList literal)).chars = literal :=
    fun literal => String.toList_ofList
  have hle := byteLength_toDigits_le hnonempty hdigits
  unfold numeral
  split
  · rw [hliteral]
  · next htail =>
    obtain rfl := not_not.mp htail
    rw [List.append_nil]
    rcases hminus with rfl | rfl
    · rw [if_pos rfl]
      split
      · exact hle
      · rw [hliteral, List.nil_append]
    · rw [if_neg (List.cons_ne_nil _ _)]
      split
      · next hpositive =>
        obtain ⟨n, hn⟩ := Nat.exists_eq_add_of_lt hpositive.1
        rw [Nat.zero_add] at hn
        rw [hn] at hle ⊢
        exact Nat.add_le_add_left hle _
      · rw [hliteral]

theorem number_spends : Spends number fun found => byteLength found.chars := by
  intro text found rest h
  obtain ⟨⟨whole, afterWhole⟩, hwhole, h⟩ := Option.bind_eq_some_iff.mp h
  dsimp only at h
  split at h
  · cases h
  obtain ⟨⟨decimals, afterDecimals⟩, hdecimals, h⟩ := Option.bind_eq_some_iff.mp h
  obtain ⟨⟨power, rest'⟩, hpower, h⟩ := Option.bind_eq_some_iff.mp h
  obtain ⟨rfl, rfl⟩ := Prod.mk.inj (Option.some.inj h)
  obtain ⟨hsplit, hnonempty, hdigits⟩ := digits_eq_some hwhole
  have hminus : (sign (· == '-') text).1 = [] ∨ (sign (· == '-') text).1 = ['-'] := by
    unfold sign
    split
    · split
      · next hc =>
        rw [beq_iff_eq.mp hc]
        exact .inr rfl
      · exact .inl rfl
    · exact .inl rfl
  have hall : text = (sign (· == '-') text).1 ++ whole ++ (decimals ++ power) ++ rest' := by
    rw [List.append_assoc, List.append_assoc, List.append_assoc, ← exponent_eq_some hpower,
      ← fraction_eq_some hdecimals, ← hsplit, sign_append]
  have hle : byteLength (numeral _ whole (decimals ++ power)).chars ≤ _ :=
    byteLength_numeral_le hminus hnonempty hdigits
  have hlength := congrArg byteLength hall
  rw [byteLength_append] at hlength
  dsimp only at hle ⊢
  omega

/-! #### Strings -/

/-- A code unit takes four bytes. -/
theorem codeUnit_eq_some {unit : Nat} (h : codeUnit text = some (unit, rest)) :
    4 + byteLength rest ≤ byteLength text := by
  unfold codeUnit at h
  split at h
  · next a b c d rest' =>
    obtain ⟨_, -, h⟩ := Option.bind_eq_some_iff.mp h
    obtain ⟨_, -, h⟩ := Option.bind_eq_some_iff.mp h
    obtain ⟨_, -, h⟩ := Option.bind_eq_some_iff.mp h
    obtain ⟨_, -, h⟩ := Option.bind_eq_some_iff.mp h
    obtain ⟨-, rfl⟩ := Prod.mk.inj (Option.some.inj h)
    have ha := a.utf8Size_pos
    have hb := b.utf8Size_pos
    have hc := c.utf8Size_pos
    have hd := d.utf8Size_pos
    simp only [byteLength_cons]
    omega
  · cases h

/-- A trailing surrogate takes six bytes. -/
theorem trailing_eq_some {unit : Nat} (h : trailing text = some (unit, rest)) :
    6 + byteLength rest ≤ byteLength text := by
  unfold trailing at h
  split at h
  · obtain ⟨⟨unit', rest'⟩, hunit, h⟩ := Option.bind_eq_some_iff.mp h
    split at h
    · obtain ⟨rfl, rfl⟩ := Prod.mk.inj (Option.some.inj h)
      have hle := codeUnit_eq_some hunit
      have hbackslash : ('\\' : Char).utf8Size = 1 := rfl
      have hu : ('u' : Char).utf8Size = 1 := rfl
      simp only [byteLength_cons]
      omega
    · cases h
  · cases h

theorem hexDigit_utf8Size : ∀ n < 16, (hexDigit n).utf8Size = 1 := by decide

theorem escapes_utf8Size : ∀ entry ∈ escapes, entry.2.utf8Size = 1 := by decide

/-- The longest escape is one by number. -/
theorem byteLength_escaped_le (c : Char) : byteLength (escaped c) ≤ 6 := by
  have hbackslash : ('\\' : Char).utf8Size = 1 := rfl
  unfold escaped
  split
  · next letter hlookup =>
    have hletter : letter.utf8Size = 1 := escapes_utf8Size _ (mem_of_lookup hlookup)
    simp only [byteLength_cons, byteLength_nil]
    omega
  · split
    · next hcontrol =>
      have hhigh := hexDigit_utf8Size (c.toNat / 16) (by omega)
      have hlow := hexDigit_utf8Size (c.toNat % 16) (by omega)
      have hu : ('u' : Char).utf8Size = 1 := rfl
      have hzero : ('0' : Char).utf8Size = 1 := rfl
      simp only [byteLength_cons, byteLength_nil]
      omega
    · have hsize := c.utf8Size_le_four
      simp only [byteLength_cons, byteLength_nil]
      omega

/-- What a step in a string takes pays for what it finds. -/
def Piece.size : Piece → Nat
  | .close => 1
  | .char c => byteLength (escaped c)
  | .lone => 1

theorem escapes_size : ∀ entry ∈ escapes, byteLength (escaped entry.1) ≤ 2 := by decide

theorem simpleEscape_size {letter found : Char} (h : simpleEscape letter = some found) :
    byteLength (escaped found) ≤ 2 := by
  unfold simpleEscape at h
  split at h
  · obtain rfl := Option.some.inj h
    decide
  · obtain ⟨entry, hentry, rfl⟩ := Option.map_eq_some_iff.mp h
    exact escapes_size entry (List.mem_of_find?_eq_some hentry)

/-- A unicode escape is written no longer than it was read. -/
theorem unicode_spends {found : Piece} (h : unicode text = some (found, rest)) :
    found.size + byteLength rest ≤ byteLength text + 2 := by
  obtain ⟨⟨unit, after⟩, hunit, h⟩ := Option.map_eq_some_iff.mp h
  have hle := codeUnit_eq_some hunit
  dsimp only at h
  split at h
  · obtain ⟨rfl, rfl⟩ := Prod.mk.inj h
    simp only [Piece.size]
    omega
  · split at h
    · split at h
      · next low after' htrailing =>
        obtain ⟨rfl, rfl⟩ := Prod.mk.inj h
        have htaken := trailing_eq_some htrailing
        have hchar := byteLength_escaped_le
          (Char.ofNat (0x10000 + (unit - 0xD800) * 0x400 + (low - 0xDC00)))
        simp only [Piece.size]
        omega
      · obtain ⟨rfl, rfl⟩ := Prod.mk.inj h
        simp only [Piece.size]
        omega
    · obtain ⟨rfl, rfl⟩ := Prod.mk.inj h
      have hchar := byteLength_escaped_le (Char.ofNat unit)
      simp only [Piece.size]
      omega

/-- An escape is written no longer than it was read. -/
theorem escape_spends {found : Piece} (h : escape text = some (found, rest)) :
    found.size + byteLength rest ≤ byteLength text + 1 := by
  cases text with
  | nil => cases h
  | cons c text =>
      have hc := c.utf8Size_pos
      rw [escape] at h
      split at h
      · have hle := unicode_spends h
        rw [byteLength_cons]
        omega
      · obtain ⟨found', hfound, h⟩ := Option.map_eq_some_iff.mp h
        obtain ⟨rfl, rfl⟩ := Prod.mk.inj h
        have hle := simpleEscape_size hfound
        simp only [Piece.size, byteLength_cons]
        omega

/-- A character that needs no escape is written as it is. -/
theorem escaped_self {c : Char}
    (hquote : c ≠ '"') (hbackslash : c ≠ '\\') (hprintable : ¬c.toNat < 32) :
    escaped c = [c] := by
  have hother : ∀ entry ∈ escapes, entry.1 = '"' ∨ entry.1 = '\\' ∨ entry.1.toNat < 32 := by decide
  unfold escaped
  split
  · next letter hlookup =>
    rcases hother _ (mem_of_lookup hlookup) with hc | hc | hc
    · exact absurd hc hquote
    · exact absurd hc hbackslash
    · exact absurd hc hprintable
  · rw [if_neg hprintable]

theorem piece_spends : Spends piece Piece.size := by
  intro text found rest h
  cases text with
  | nil => cases h
  | cons c text =>
      have hc := c.utf8Size_pos
      rw [piece] at h
      split at h
      · obtain ⟨rfl, rfl⟩ := Prod.mk.inj (Option.some.inj h)
        simp only [Piece.size, byteLength_cons]
        omega
      · next hquote =>
        split at h
        · have hle := escape_spends h
          rw [byteLength_cons]
          omega
        · next hbackslash =>
          split at h
          · cases h
          · next hprintable =>
            obtain ⟨rfl, rfl⟩ := Prod.mk.inj (Option.some.inj h)
            rw [Piece.size, escaped_self hquote hbackslash hprintable]
            simp

/-- What is left of the text pays for the string that was found, and for its closing quote. -/
def stringSize : Option (List Char) → Nat
  | some found => byteLength (found.flatMap escaped) + 1
  | none => 1

theorem pieces_spends (fuel : Nat) : Spends (pieces fuel) stringSize := by
  induction fuel with
  | zero => exact fun _ _ _ h => by cases h
  | succ fuel ih =>
      intro text found rest h
      obtain ⟨⟨step, after⟩, hstep, h⟩ := Option.bind_eq_some_iff.mp h
      have hle := piece_spends _ _ _ hstep
      cases step with
      | close =>
          obtain ⟨rfl, rfl⟩ := Prod.mk.inj (Option.some.inj h)
          simp only [Piece.size] at hle
          simp only [stringSize, List.flatMap_nil, byteLength_nil]
          omega
      | char c =>
          obtain ⟨⟨found', rest'⟩, hrest, h⟩ := Option.map_eq_some_iff.mp h
          obtain ⟨rfl, rfl⟩ := Prod.mk.inj h
          have hle' := ih _ _ _ hrest
          simp only [Piece.size] at hle
          cases found' with
          | none =>
              simp only [stringSize, Option.map_none] at hle' ⊢
              omega
          | some found' =>
              simp only [stringSize, Option.map_some, List.flatMap_cons,
                byteLength_append] at hle' ⊢
              omega
      | lone =>
          obtain ⟨⟨found', rest'⟩, hrest, h⟩ := Option.map_eq_some_iff.mp h
          obtain ⟨rfl, rfl⟩ := Prod.mk.inj h
          have hle' := ih _ _ _ hrest
          simp only [Piece.size] at hle
          simp only [stringSize]
          omega

/-- A string, read behind its opening quote. -/
theorem stringTail_spends {found : Option String} (h : stringTail text = some (found, rest)) :
    byteLength (ofString found).chars + byteLength rest ≤ byteLength text + 1 := by
  obtain ⟨⟨found', rest'⟩, hfound, h⟩ := Option.map_eq_some_iff.mp h
  obtain ⟨rfl, rfl⟩ := Prod.mk.inj h
  have hle := pieces_spends _ _ _ _ hfound
  cases found' with
  | none =>
      have hgarbled : (ofString none).chars = [] := rfl
      simp only [Option.map_none, hgarbled, byteLength_nil]
      omega
  | some found' =>
      have hquoted : (ofString (some (String.ofList found'))).chars =
          '"' :: (found'.flatMap escaped ++ ['"']) := by
        rw [ofString]
        exact congrArg
          (fun text => '"' :: (List.flatMap escaped text ++ ['"'])) String.toList_ofList
      have hquote : ('"' : Char).utf8Size = 1 := rfl
      simp only [Option.map_some, hquoted, byteLength_cons, byteLength_append, byteLength_nil, hquote]
      simp only [stringSize] at hle
      omega

/-! #### Values -/

section Listed

variable {α : Type} {part : Reader α} {written : α → List Char} {close : Char}

/-- A list is written no longer than it was read, if its parts are. -/
theorem listed_spends (hpart : Spends part fun found => byteLength (written found)) (fuel : Nat) :
    Spends (listed part close fuel) fun all => byteLength (separated (all.map written)) + 1 := by
  induction fuel with
  | zero => exact fun _ _ _ h => by cases h
  | succ fuel ih =>
      intro text all rest h
      obtain ⟨⟨found, after⟩, hfound, h⟩ := Option.bind_eq_some_iff.mp h
      have hle : byteLength (written found) + byteLength after ≤ byteLength (skip text) :=
        hpart _ _ _ hfound
      have hspace := byteLength_skip text
      have hspace' := byteLength_skip after
      dsimp only at h
      split at h
      · next c next hnext =>
        rw [hnext, byteLength_cons] at hspace'
        have hc := c.utf8Size_pos
        split at h
        · obtain ⟨⟨others, rest'⟩, hothers, h⟩ := Option.map_eq_some_iff.mp h
          obtain ⟨rfl, rfl⟩ := Prod.mk.inj h
          have hle' : byteLength (separated (others.map written)) + 1 + byteLength rest' ≤
            byteLength next := ih _ _ _ hothers
          have hparts := byteLength_separated ((found :: others).map written)
          have hothers' := byteLength_separated (others.map written)
          simp only [List.map_cons, List.sum_cons, List.length_cons, reduceCtorEq, if_false]
            at hparts
          split at hothers' <;> simp only [List.map_cons] at hle' ⊢ <;> omega
        · split at h
          · obtain ⟨rfl, rfl⟩ := Prod.mk.inj (Option.some.inj h)
            simp only [List.map_cons, List.map_nil, separated]
            omega
          · cases h
      · cases h

/-- A bracketed list is written no longer than it was read, if its parts are. -/
theorem bracketed_spends (hpart : Spends part fun found => byteLength (written found)) :
    Spends (bracketed part close) fun all => byteLength (separated (all.map written)) + 1 := by
  intro text all rest h
  have hspace := byteLength_skip text
  unfold bracketed at h
  split at h
  · next c next hnext =>
    rw [hnext] at hspace
    have hc := c.utf8Size_pos
    split at h
    · obtain ⟨rfl, rfl⟩ := Prod.mk.inj (Option.some.inj h)
      simp only [byteLength_cons] at hspace
      simp only [List.map_nil, separated, byteLength_nil]
      omega
    · exact (listed_spends hpart _ _ _ _ h).trans hspace
  · cases h

end Listed

/-- The text of a member; a garbled name has none. -/
def memberChars : Option String × JsonValue → List Char
  | (some name, found) => membered (name, found.chars)
  | (none, _) => []

/-- A member is written no longer than it was read, if its value is. -/
theorem member_spends {value : Reader JsonValue}
    (hvalue : Spends value fun found => byteLength found.chars) :
    Spends (member value) fun found => byteLength (memberChars found) := by
  intro text found rest h
  unfold member at h
  split at h
  · next text =>
    obtain ⟨⟨name, after⟩, hname, h⟩ := Option.bind_eq_some_iff.mp h
    have hle := stringTail_spends hname
    have hspace := byteLength_skip after
    have hquote : ('"' : Char).utf8Size = 1 := rfl
    have hcolon : (':' : Char).utf8Size = 1 := rfl
    dsimp only at h
    split at h
    · next next hnext =>
      obtain ⟨⟨found', rest'⟩, hfound, h⟩ := Option.map_eq_some_iff.mp h
      obtain ⟨rfl, rfl⟩ := Prod.mk.inj h
      have hle' : byteLength found'.chars + byteLength rest' ≤ byteLength (skip next) :=
        hvalue _ _ _ hfound
      have hspace' := byteLength_skip next
      rw [hnext, byteLength_cons] at hspace
      rw [byteLength_cons]
      cases name with
      | none =>
          simp only [memberChars, byteLength_nil]
          omega
      | some name =>
          have hname' : (ofString (some name)).chars = quoted name := rfl
          rw [hname'] at hle
          simp only [memberChars, byteLength_membered]
          omega
    · cases h
  · cases h

/-- An object is no longer than the members it was made of. -/
theorem byteLength_ofMembers_le (members : List (Option String × JsonValue)) :
    byteLength (ofMembers members).chars ≤ byteLength
      (separated (members.map memberChars)) + 2 := by
  unfold ofMembers
  split
  · next named hnamed =>
    have hmembers : members.map memberChars = objectChars named := by
      clear * - hnamed
      induction members generalizing named with
      | nil =>
          obtain rfl := Option.some.inj hnamed
          rfl
      | cons member members ih =>
          obtain ⟨name, found⟩ := member
          rw [List.mapM_cons] at hnamed
          obtain ⟨first, hfirst, h⟩ := Option.bind_eq_some_iff.mp hnamed
          obtain ⟨others, hothers, h⟩ := Option.bind_eq_some_iff.mp h
          obtain ⟨name, rfl, rfl⟩ := Option.map_eq_some_iff.mp hfirst
          obtain rfl := Option.some.inj h
          rw [List.map_cons, ih _ hothers]
          rfl
    have hopen : ('{' : Char).utf8Size = 1 := rfl
    have hclose : ('}' : Char).utf8Size = 1 := rfl
    rw [chars_object, hmembers]
    simp only [byteLength_cons, byteLength_append, byteLength_nil, hopen, hclose, objectChars]
    omega
  · exact Nat.zero_le _

/-- **What is read is written with no more bytes** than it was read from. -/
theorem value_spends (fuel : Nat) : Spends (value fuel) fun found => byteLength found.chars := by
  induction fuel with
  | zero => exact fun _ _ _ h => by cases h
  | succ fuel ih =>
      intro text found rest h
      unfold value at h
      split at h
      · cases h
      · obtain ⟨⟨found', rest'⟩, hfound, h⟩ := Option.map_eq_some_iff.mp h
        obtain ⟨rfl, rfl⟩ := Prod.mk.inj h
        have hle := stringTail_spends hfound
        have hquote : ('"' : Char).utf8Size = 1 := rfl
        simp only [byteLength_cons]
        omega
      · obtain ⟨⟨items, rest'⟩, hitems, h⟩ := Option.map_eq_some_iff.mp h
        obtain ⟨rfl, rfl⟩ := Prod.mk.inj h
        have hle : byteLength (separated (items.map chars)) + 1 + byteLength rest' ≤ _ :=
          bracketed_spends ih _ _ _ hitems
        have hopen : ('[' : Char).utf8Size = 1 := rfl
        have hclose : (']' : Char).utf8Size = 1 := rfl
        simp only [chars_array, byteLength_cons, byteLength_append, byteLength_nil, hopen, hclose]
        omega
      · obtain ⟨⟨members, rest'⟩, hmembers, h⟩ := Option.map_eq_some_iff.mp h
        obtain ⟨rfl, rfl⟩ := Prod.mk.inj h
        have hle : byteLength (separated (members.map memberChars)) + 1 + byteLength rest' ≤ _ :=
          bracketed_spends (member_spends ih) _ _ _ hmembers
        have hof := byteLength_ofMembers_le members
        have hopen : ('{' : Char).utf8Size = 1 := rfl
        simp only [byteLength_cons, hopen]
        omega
      · obtain ⟨rfl, rfl⟩ := Prod.mk.inj (Option.some.inj h)
        exact Nat.le_of_eq (byteLength_append ['n', 'u', 'l', 'l'] _).symm
      · obtain ⟨rfl, rfl⟩ := Prod.mk.inj (Option.some.inj h)
        exact Nat.le_of_eq (byteLength_append ['t', 'r', 'u', 'e'] _).symm
      · obtain ⟨rfl, rfl⟩ := Prod.mk.inj (Option.some.inj h)
        exact Nat.le_of_eq (byteLength_append ['f', 'a', 'l', 's', 'e'] _).symm
      · exact number_spends _ _ _ h

end Spends

end DisksGraph.Support.JsonValue
