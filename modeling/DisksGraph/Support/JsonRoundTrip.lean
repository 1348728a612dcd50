import DisksGraph.Support.JsonText

/-!
# Support — JsonRoundTrip

The compact text of a plain value is read back.

* `Ends`: what may follow a value in a text.
* `number_decimal`, `stringTail_escaped`, `bracketed_separated`: the round trip of each kind of
  token.
* `byteLength_le_weight`: a bound on the text of a value that needs no text.
* `value_chars` and `parse_print`: the round trip of a value, and of a whole text.
* `utf8ByteSize_canonical_le`: the compact text of what a text denotes is no longer than the text.
-/

namespace DisksGraph.Support.JsonValue

/-! ### What is written is read back -/

/-- A text that can follow a value: the next comma or bracket, or nothing. -/
def Ends (text : List Char) : Prop := ∀ c ∈ text.head?, c = ',' ∨ c = ']' ∨ c = '}'

section Numbers

variable {rest : List Char}

theorem Ends.not_isDigit (h : Ends rest) : ∀ c ∈ rest.head?, c.isDigit = false := by
  intro c hc
  rcases h c hc with rfl | rfl | rfl <;> rfl

theorem Ends.fraction (h : Ends rest) : fraction rest = some ([], rest) := by
  cases rest with
  | nil => rfl
  | cons c rest =>
      rcases h c rfl with rfl | rfl | rfl <;> rfl

theorem Ends.exponent (h : Ends rest) : exponent rest = some ([], rest) := by
  cases rest with
  | nil => rfl
  | cons c rest =>
      rcases h c rfl with rfl | rfl | rfl <;> rfl

/-- A run of digits is read up to its end. -/
theorem digits_append {found : List Char} (hnonempty : found ≠ [])
    (hfound : ∀ c ∈ found, c.isDigit = true) (hrest : ∀ c ∈ rest.head?, c.isDigit = false) :
    digits (found ++ rest) = some (found, rest) := by
  have htake : (found ++ rest).takeWhile Char.isDigit = found := by
    rw [List.takeWhile_append_of_pos hfound]
    cases rest with
    | nil => simp
    | cons c rest => simp [hrest c rfl]
  have hdrop : (found ++ rest).dropWhile Char.isDigit = rest := by
    rw [List.dropWhile_append_of_pos hfound]
    cases rest with
    | nil => rfl
    | cons c rest => simp [hrest c rfl]
  rw [digits, htake, hdrop, if_neg hnonempty]

/-- Only zero is written with a zero first. -/
theorem toDigits_head {n : Nat} (h : (Nat.toDigits 10 n).head? = some '0') :
    Nat.toDigits 10 n = ['0'] := by
  induction n using Nat.strongRecOn with
  | ind n ih =>
      rw [Nat.toDigits_eq_if (by decide)] at h ⊢
      split at h
      · next hlt =>
        rw [if_pos hlt]
        simp only [List.head?_cons, Option.some.injEq] at h
        rw [h]
      · next hlarge =>
        have hfirst : (Nat.toDigits 10 (n / 10)).head? = some '0' := by
          rwa [List.head?_append_of_ne_nil _ Nat.toDigits_ne_nil] at h
        have hzero := congrArg (Nat.ofDigitChars 10 · 0) (ih (n / 10) (by omega) hfirst)
        simp only [Nat.ofDigitChars_ten_toDigits] at hzero
        have hsmall : n / 10 = 0 := hzero
        omega

theorem isDigit_toDigits {n : Nat} : ∀ c ∈ Nat.toDigits 10 n, c.isDigit = true :=
  fun _ hc => Nat.isDigit_of_mem_toDigits (by decide) (by decide) hc

/-- The digits of a number are not the start of a number with leading zeros. -/
theorem digits_toDigits {n : Nat} (hrest : Ends rest) :
    digits (Nat.toDigits 10 n ++ rest) = some (Nat.toDigits 10 n, rest) ∧
      ¬((Nat.toDigits 10 n).head? = some '0' ∧ Nat.toDigits 10 n ≠ ['0']) :=
  ⟨digits_append Nat.toDigits_ne_nil isDigit_toDigits hrest.not_isDigit,
    fun h => h.2 (toDigits_head h.1)⟩

/-- A decimal number is read back. -/
theorem number_decimal {n : Int} (hlower : -2 ^ 63 ≤ n) (hupper : n < 2 ^ 64) (hrest : Ends rest) :
    number (decimal n ++ rest) = some (.int n, rest) := by
  cases n with
  | ofNat n =>
      have hsign : sign (· == '-') (Nat.toDigits 10 n ++ rest) =
          ([], Nat.toDigits 10 n ++ rest) := by
        cases hdigits : Nat.toDigits 10 n with
        | nil => exact absurd hdigits Nat.toDigits_ne_nil
        | cons c others =>
            have hc : c.isDigit = true := isDigit_toDigits c (hdigits ▸ List.mem_cons_self)
            have hminus : (c == '-') = false := by
              rw [beq_eq_false_iff_ne]
              rintro rfl
              cases hc
            simp [sign, hminus]
      obtain ⟨hdigits, hzero⟩ := digits_toDigits (n := n) hrest
      have hfits : n < 2 ^ 64 := by
        have : (n : Int) < 2 ^ 64 := hupper
        omega
      simp only [decimal, number, hsign, hdigits, Option.bind_eq_bind, Option.bind_some, hzero,
        if_false, hrest.fraction, hrest.exponent, Option.pure_def, numeral, List.append_nil,
        ne_eq, not_true_eq_false, if_true, Nat.ofDigitChars_ten_toDigits, hfits]
      rfl
  | negSucc n =>
      have hsign : sign (· == '-') ('-' :: (Nat.toDigits 10 (n + 1) ++ rest)) =
          (['-'], Nat.toDigits 10 (n + 1) ++ rest) := rfl
      obtain ⟨hdigits, hzero⟩ := digits_toDigits (n := n + 1) hrest
      have hfits : 0 < n + 1 ∧ n + 1 ≤ 2 ^ 63 := by
        have : -(2 ^ 63 : Int) ≤ -((n : Int) + 1) := by
          simpa [Int.negSucc_eq] using hlower
        omega
      simp only [decimal, List.cons_append, number, hsign, hdigits, Option.bind_eq_bind,
        Option.bind_some, hzero, if_false, hrest.fraction, hrest.exponent, Option.pure_def, numeral,
        List.append_nil, ne_eq, not_true_eq_false, List.cons_ne_nil, Nat.ofDigitChars_ten_toDigits,
        hfits, and_self, if_true]
      rfl

end Numbers

section Strings

/-- The short escapes are read back. -/
theorem escapes_read : ∀ entry ∈ escapes, entry.2 ≠ 'u' ∧ simpleEscape entry.2 = some entry.1 := by
  decide

/-- A hexadecimal digit is read back. -/
theorem hexValue_hexDigit : ∀ n < 16, hexValue (hexDigit n) = some n := by decide

/-- The escape of a control character by number. -/
theorem codeUnit_control {n : Nat} (h : n < 32) (rest : List Char) :
    codeUnit ('0' :: '0' :: hexDigit (n / 16) :: hexDigit (n % 16) :: rest) = some (n, rest) := by
  have hzero : hexValue '0' = some 0 := rfl
  have hhigh := hexValue_hexDigit (n / 16) (by omega)
  have hlow := hexValue_hexDigit (n % 16) (by omega)
  have hvalue : 0 * 4096 + 0 * 256 + n / 16 * 16 + n % 16 = n := by omega
  simp only [codeUnit, hzero, hhigh, hlow, Option.bind_eq_bind, Option.bind_some, Option.pure_def,
    hvalue]

/-- An escaped character is read back. -/
theorem piece_escaped (c : Char) (rest : List Char) :
    piece (escaped c ++ rest) = some (.char c, rest) := by
  have hbackslash : ∀ text, piece ('\\' :: text) = escape text := fun _ => rfl
  unfold escaped
  split
  · next letter hlookup =>
    obtain ⟨hletter, hread⟩ := escapes_read _ (mem_of_lookup hlookup)
    simp only [List.cons_append, List.nil_append, hbackslash, escape, if_neg hletter, hread,
      Option.map_some]
  · next hlookup =>
    split
    · next hcontrol =>
      have hescape : ∀ text, escape ('u' :: text) = unicode text := fun _ => rfl
      have hlow : ¬(0xDC00 ≤ c.toNat ∧ c.toNat ≤ 0xDFFF) := by omega
      have hhigh : ¬(0xD800 ≤ c.toNat ∧ c.toNat ≤ 0xDBFF) := by omega
      simp only [List.cons_append, List.nil_append, hbackslash, hescape, unicode,
        codeUnit_control hcontrol, Option.map_some, if_neg hlow, if_neg hhigh, Char.ofNat_toNat]
    · next hprintable =>
      have hother : ∀ entry ∈ escapes, c ≠ entry.1 := by
        rintro entry hentry rfl
        simpa using List.lookup_eq_none_iff.mp hlookup entry hentry
      have hquote : c ≠ '"' := hother ('"', '"') (by decide)
      have hslash : c ≠ '\\' := hother ('\\', '\\') (by decide)
      simp only [List.cons_append, List.nil_append, piece, if_neg hquote, if_neg hslash,
        if_neg hprintable]

/-- An escaped text is read back up to its quote. -/
theorem pieces_escaped {text : List Char} {fuel : Nat} (hfuel : text.length < fuel)
    (rest : List Char) :
    pieces fuel (text.flatMap escaped ++ '"' :: rest) = some (some text, rest) := by
  induction text generalizing fuel with
  | nil =>
      obtain ⟨fuel, rfl⟩ := Nat.exists_eq_add_of_lt hfuel
      rfl
  | cons c text ih =>
      obtain ⟨fuel, rfl⟩ := Nat.exists_eq_add_of_lt hfuel
      rw [List.length_cons] at hfuel ⊢
      rw [pieces, List.flatMap_cons, List.append_assoc, piece_escaped, Option.bind_some]
      dsimp only
      rw [ih (by omega)]
      rfl

theorem length_escaped_pos (c : Char) : 1 ≤ (escaped c).length := by
  unfold escaped
  split
  · exact Nat.one_le_iff_ne_zero.mpr (by simp)
  · split <;> exact Nat.one_le_iff_ne_zero.mpr (by simp)

theorem length_le_byteLength (text : List Char) : text.length ≤ byteLength text := by
  induction text with
  | nil => exact Nat.le_refl _
  | cons c text ih =>
      have hc := c.utf8Size_pos
      rw [byteLength_cons, List.length_cons]
      omega

theorem length_le_flatMap_escaped (text : List Char) :
    text.length ≤ (text.flatMap escaped).length := by
  induction text with
  | nil => exact Nat.le_refl _
  | cons c text ih =>
      have hc := length_escaped_pos c
      rw [List.flatMap_cons, List.length_append, List.length_cons]
      omega

/-- A string, read behind its opening quote. -/
theorem stringTail_escaped (text : String) (rest : List Char) :
    stringTail (text.toList.flatMap escaped ++ '"' :: rest) = some (some text, rest) := by
  have hfuel : text.toList.length < byteLength (text.toList.flatMap escaped ++ '"' :: rest) := by
    have hquote : ('"' : Char).utf8Size = 1 := rfl
    have hle := length_le_flatMap_escaped text.toList
    have hbytes := length_le_byteLength (text.toList.flatMap escaped)
    rw [byteLength_append, byteLength_cons, hquote]
    omega
  rw [stringTail, pieces_escaped hfuel, Option.map_some]
  dsimp only
  rw [Option.map_some, String.ofList_toList]

end Strings

/-! #### Values -/

section Values

/-- A text that starts with no space is not shortened. -/
theorem skip_of_head {text : List Char} (h : ∀ c ∈ text.head?, isSpace c = false) :
    skip text = text := by
  cases text with
  | nil => rfl
  | cons c rest => simp [skip, h c rfl]

/-- The first part and the rest. -/
theorem separated_cons (part : List Char) (parts : List (List Char)) :
    separated (part :: parts) = part ++ (if parts = [] then [] else ',' :: separated parts) := by
  cases parts with
  | nil => simp [separated]
  | cons next parts => simp [separated]

theorem length_le_separated (parts : List (List Char)) :
    parts.length ≤ (separated parts).length + 1 := by
  induction parts with
  | nil => exact Nat.zero_le _
  | cons part parts ih =>
      rw [separated_cons]
      split
      · next hparts =>
        rw [hparts]
        exact Nat.le_add_left _ _
      · rw [List.length_append, List.length_cons, List.length_cons]
        omega

variable {α : Type} {part : Reader α} {written : α → List Char} {close : Char} {all : List α}

/-- How a part is written: it starts with a character of its own, and is read back before a comma or
the closing bracket. -/
structure Rereads (part : Reader α) (written : α → List Char) (close : Char) (found : α) :
    Prop where
  head : ∃ c text, written found = c :: text ∧ isSpace c = false ∧ c ≠ close
  read : ∀ rest, Ends rest → part (written found ++ rest) = some (found, rest)

/-- Parts that are read back one by one are read back as a list. -/
theorem listed_separated (hclose : close = ']' ∨ close = '}')
    (hall : ∀ found ∈ all, Rereads part written close found) (hnonempty : all ≠ []) {fuel : Nat}
    (hfuel : all.length ≤ fuel) (rest : List Char) :
    listed part close fuel (separated (all.map written) ++ close :: rest) = some (all, rest) := by
  induction all generalizing fuel with
  | nil => exact absurd rfl hnonempty
  | cons found others ih =>
      obtain ⟨fuel, rfl⟩ := Nat.exists_eq_add_of_lt (Nat.lt_of_lt_of_le (Nat.zero_lt_succ _) hfuel)
      rw [Nat.zero_add]
      obtain ⟨hfound, hothers⟩ := List.forall_mem_cons.mp hall
      obtain ⟨c, text, hhead, hspace, -⟩ := hfound.head
      rw [List.map_cons, separated_cons, List.append_assoc, listed, skip_of_head]
      · by_cases hlast : others = []
        · subst hlast
          have hends : Ends (close :: rest) := by
            rintro c ⟨⟩
            exact .inr hclose
          have hskip : skip (close :: rest) = close :: rest := by
            rcases hclose with rfl | rfl <;> rfl
          have hcomma : close ≠ ',' := by
            rcases hclose with rfl | rfl <;> decide
          simp only [List.map_nil, if_true, List.nil_append, hfound.read _ hends, Option.bind_some,
            hskip, if_neg hcomma]
        · have hends : Ends (',' :: (separated (others.map written) ++ close :: rest)) := by
            rintro c ⟨⟩
            exact .inl rfl
          have hskip : ∀ text, skip (',' :: text) = ',' :: text := fun _ => rfl
          have hmap : others.map written ≠ [] := fun h => hlast (List.map_eq_nil_iff.mp h)
          rw [if_neg hmap, List.cons_append, hfound.read _ hends, Option.bind_some]
          dsimp only
          rw [hskip]
          dsimp only
          rw [if_pos rfl, ih hothers hlast (by simpa using hfuel)]
          rfl
      · rw [hhead]
        rintro _ ⟨⟩
        exact hspace

/-- A bracketed list of such parts is read back. -/
theorem bracketed_separated (hclose : close = ']' ∨ close = '}')
    (hall : ∀ found ∈ all, Rereads part written close found) (rest : List Char) :
    bracketed part close (separated (all.map written) ++ close :: rest) = some (all, rest) := by
  cases all with
  | nil =>
      have hskip : skip (close :: rest) = close :: rest := by
        rcases hclose with rfl | rfl <;> rfl
      simp [bracketed, separated, hskip]
  | cons found others =>
      obtain ⟨c, text, hhead, hspace, hother⟩ := (hall found List.mem_cons_self).head
      have hfuel : (found :: others).length ≤
          byteLength (separated ((found :: others).map written) ++ close :: rest) := by
        have hle := length_le_separated ((found :: others).map written)
        have hbytes := length_le_byteLength (separated ((found :: others).map written))
        have hc := close.utf8Size_pos
        rw [List.length_map] at hle
        rw [byteLength_append, byteLength_cons]
        omega
      have hlisted := listed_separated hclose hall (List.cons_ne_nil _ _) hfuel rest
      have hshape : ∃ text, separated ((found :: others).map written) ++
          close :: rest = c :: text := by
        rw [List.map_cons, separated_cons, hhead]
        exact ⟨_, rfl⟩
      obtain ⟨text', hshape⟩ := hshape
      rw [hshape] at hlisted ⊢
      have hskip : skip (c :: text') = c :: text' := skip_of_head (by
        rintro _ ⟨⟩
        exact hspace)
      simp only [bracketed, hskip, if_neg hother]
      exact hlisted

/-- Members with proper names make an object. -/
theorem ofMembers_some (members : List (String × JsonValue)) :
    ofMembers (members.map fun member => (some member.1, member.2)) = .object members := by
  have hnamed : (members.map fun member => (some member.1, member.2)).mapM
      (fun member : Option String × JsonValue => member.1.map fun name => (name, member.2)) =
        some members := by
    induction members with
    | nil => rfl
    | cons member members ih =>
        rw [List.map_cons, List.mapM_cons, ih]
        rfl
  rw [ofMembers, hnamed]

/-- A value that starts like a number is one. -/
theorem value_number {fuel : Nat} {c : Char} {text : List Char} (h : c = '-' ∨ c.isDigit = true) :
    value (fuel + 1) (c :: text) = number (c :: text) := by
  have hother : ∀ d : Char, d ≠ '-' → d.isDigit = false → c ≠ d := by
    rintro d hminus hdigit rfl
    rcases h with rfl | h
    · exact hminus rfl
    · rw [hdigit] at h
      cases h
  unfold value
  split
  · next heq => cases heq
  · next heq => exact absurd (List.cons.inj heq).1 (hother '"' (by decide) rfl)
  · next heq => exact absurd (List.cons.inj heq).1 (hother '[' (by decide) rfl)
  · next heq => exact absurd (List.cons.inj heq).1 (hother '{' (by decide) rfl)
  · next heq => exact absurd (List.cons.inj heq).1 (hother 'n' (by decide) rfl)
  · next heq => exact absurd (List.cons.inj heq).1 (hother 't' (by decide) rfl)
  · next heq => exact absurd (List.cons.inj heq).1 (hother 'f' (by decide) rfl)
  · rfl

/-- A decimal number starts with a sign or a digit. -/
theorem decimal_head (n : Int) :
    ∃ c text, decimal n = c :: text ∧ (c = '-' ∨ c.isDigit = true) := by
  cases n with
  | ofNat n =>
      cases hdigits : Nat.toDigits 10 n with
      | nil => exact absurd hdigits Nat.toDigits_ne_nil
      | cons c text =>
          exact ⟨c, text, hdigits, .inr (isDigit_toDigits c (hdigits ▸ List.mem_cons_self))⟩
  | negSucc n => exact ⟨'-', _, rfl, .inl rfl⟩

variable {limit : Nat} {j : JsonValue}

/-- The text of a value starts with neither white space nor a closing bracket. -/
theorem Plain.head (h : Plain limit j) :
    ∃ c text, j.chars = c :: text ∧ isSpace c = false ∧ c ≠ ']' ∧ c ≠ '}' := by
  cases h with
  | null => exact ⟨'n', _, rfl, by decide⟩
  | bool value => cases value <;> exact ⟨_, _, rfl, by decide⟩
  | string value => exact ⟨'"', _, rfl, by decide⟩
  | array => exact ⟨'[', _, chars_array _, by decide⟩
  | object => exact ⟨'{', _, chars_object _, by decide⟩
  | @int _ value =>
      obtain ⟨c, text, hhead, hc⟩ := decimal_head value
      refine ⟨c, text, hhead, ?_⟩
      rcases hc with rfl | hc
      · decide
      · refine ⟨?_, ?_, ?_⟩
        · by_contra hspace
          simp only [isSpace, Bool.not_eq_false, Bool.or_eq_true, beq_iff_eq] at hspace
          rcases hspace with ((rfl | rfl) | rfl) | rfl <;> cases hc
        · rintro rfl
          cases hc
        · rintro rfl
          cases hc

/-- **A plain value is read back from its compact text.** -/
theorem value_chars (h : Plain limit j) {fuel : Nat} (hfuel : j.depth < fuel) {rest : List Char}
    (hrest : Ends rest) : value fuel (j.chars ++ rest) = some (j, rest) := by
  induction h generalizing fuel rest with
  | null =>
      obtain ⟨fuel, rfl⟩ := Nat.exists_eq_add_of_lt hfuel
      rfl
  | bool value =>
      obtain ⟨fuel, rfl⟩ := Nat.exists_eq_add_of_lt hfuel
      cases value <;> rfl
  | @int _ n hlower hupper =>
      obtain ⟨fuel, rfl⟩ := Nat.exists_eq_add_of_lt hfuel
      obtain ⟨c, text, hhead, hc⟩ := decimal_head n
      have hnumber := number_decimal hlower hupper hrest
      have hchars : (JsonValue.int n).chars = decimal n := rfl
      rw [hchars, hhead, List.cons_append] at *
      rw [value_number hc]
      exact hnumber
  | string text =>
      obtain ⟨fuel, rfl⟩ := Nat.exists_eq_add_of_lt hfuel
      have hchars : (JsonValue.string text).chars ++ rest =
          '"' :: (text.toList.flatMap escaped ++ '"' :: rest) := by
        have hquoted : (JsonValue.string text).chars =
            '"' :: (text.toList.flatMap escaped ++ ['"']) := rfl
        rw [hquoted, List.cons_append, List.append_assoc, List.singleton_append]
      have hvalue : ∀ fuel text, value (fuel + 1) ('"' :: text) =
        (stringTail text).map fun found => (ofString found.1, found.2) := fun _ _ => rfl
      rw [hchars, hvalue, stringTail_escaped]
      rfl
  | @array _ items hitems ih =>
      cases fuel with
      | zero => cases hfuel
      | succ fuel =>
          have hall : ∀ item ∈ items, Rereads (value fuel) chars ']' item := by
            intro item hitem
            obtain ⟨c, text, hhead, hspace, hclose, -⟩ := (hitems item hitem).head
            exact ⟨⟨c, text, hhead, hspace, hclose⟩,
              fun rest hrest => ih item hitem (depth_item hfuel item hitem) hrest⟩
          have hvalue : ∀ text, value (fuel + 1) ('[' :: text) =
            (bracketed (value fuel) ']' text).map fun found => (.array found.1, found.2) :=
              fun _ => rfl
          rw [chars_array, List.cons_append, List.append_assoc, List.singleton_append, hvalue,
            bracketed_separated (.inl rfl) hall]
          rfl
  | @object _ members hnames hmembers ih =>
      cases fuel with
      | zero => cases hfuel
      | succ fuel =>
          have hall : ∀ found ∈ members.map (fun member => (some member.1, member.2)),
              Rereads (member (value fuel)) memberChars '}' found := by
            intro found hfound
            obtain ⟨⟨name, j⟩, hmember, rfl⟩ := List.mem_map.mp hfound
            refine ⟨⟨'"', _, rfl, by decide⟩, fun rest hrest => ?_⟩
            obtain ⟨c, text, hhead, hspace, -⟩ := (hmembers _ hmember).head
            have hread := ih _ hmember (depth_member hfuel _ hmember) hrest
            have hchars : memberChars (some name, j) ++ rest =
                '"' :: (name.toList.flatMap escaped ++ '"' :: ':' :: (j.chars ++ rest)) := by
              rw [memberChars, membered, quoted]
              simp
            have hskip : skip (j.chars ++ rest) = j.chars ++ rest := skip_of_head (by
              dsimp only at hhead
              rw [hhead]
              rintro _ ⟨⟩
              exact hspace)
            have hcolon : ∀ text, skip (':' :: text) = ':' :: text := fun _ => rfl
            dsimp only at hread
            simp only [hchars, member, stringTail_escaped, Option.bind_some, hcolon, hskip, hread,
              Option.map_some]
          have hvalue : ∀ text, value (fuel + 1) ('{' :: text) =
            (bracketed (member (value fuel)) '}' text).map fun found =>
              (ofMembers found.1, found.2) := fun _ => rfl
          have hmap : (members.map fun member => (some member.1, member.2)).map memberChars =
              members.map fun member => membered (member.1, member.2.chars) := by
            rw [List.map_map]
            rfl
          rw [chars_object, List.cons_append, List.append_assoc, List.singleton_append, hvalue, ← hmap,
            bracketed_separated (.inr rfl) hall, Option.map_some]
          dsimp only
          rw [ofMembers_some]

end Values

/-! ### Whole texts -/

section Parse

theorem utf8ByteSize_ofList (text : List Char) :
    (String.ofList text).utf8ByteSize = byteLength text := by
  induction text with
  | nil => rfl
  | cons c text ih =>
      rw [String.ofList_cons, String.utf8ByteSize_append, String.utf8ByteSize_singleton, ih,
        byteLength_cons]

theorem byteLength_toList (text : String) : byteLength text.toList = text.utf8ByteSize := by
  rw [← utf8ByteSize_ofList, String.ofList_toList]

/-- The size of the text is the length of its characters. -/
theorem utf8ByteSize_print (j : JsonValue) : j.print.utf8ByteSize = byteLength j.chars := by
  rw [← byteLength_toList, print, String.toList_ofList]

/-- **What is parsed denotes a value whose text is no longer.** -/
theorem utf8ByteSize_canonical_le {text : String} {j : JsonValue} (h : parse text = some j) :
    j.canonical.print.utf8ByteSize ≤ text.utf8ByteSize := by
  obtain ⟨⟨found, rest⟩, hfound, h⟩ := Option.bind_eq_some_iff.mp h
  dsimp only at h
  split at h
  · obtain rfl := Option.some.inj h
    have hle : byteLength found.chars + byteLength rest ≤ byteLength (skip text.toList) :=
      value_spends _ _ _ _ hfound
    have hspace := byteLength_skip text.toList
    have hcanonical := byteLength_canonical_le found
    rw [utf8ByteSize_print, ← byteLength_toList]
    omega
  · cases h

/-- A value has no more levels than its text has bytes. -/
theorem depth_le_byteLength (j : JsonValue) : j.depth ≤ byteLength j.chars := by
  have hpart : ∀ {parts : List (List Char)}, ∀ part ∈ parts,
      byteLength part ≤ byteLength (separated parts) := fun part hpart =>
    byteLength_separated_sublist (show [part].Sublist _ from List.singleton_sublist.mpr hpart)
  induction j with
  | array items ih =>
      have hopen : ('[' : Char).utf8Size = 1 := rfl
      rw [depth_array, chars_array, byteLength_cons, hopen, byteLength_append]
      refine Nat.add_le_add_left ((foldr_max_le fun length hlength => ?_).trans
        (Nat.le_add_right _ _)) 1
      obtain ⟨item, hitem, rfl⟩ := List.mem_map.mp hlength
      exact (ih item hitem).trans (hpart _ (List.mem_map_of_mem hitem))
  | object members ih =>
      have hopen : ('{' : Char).utf8Size = 1 := rfl
      rw [depth_object, chars_object, byteLength_cons, hopen, byteLength_append]
      refine Nat.add_le_add_left ((foldr_max_le fun length hlength => ?_).trans
        (Nat.le_add_right _ _)) 1
      obtain ⟨member, hmember, rfl⟩ := List.mem_map.mp hlength
      have hmembered := hpart _ (List.mem_map_of_mem
        (f := fun member : String × JsonValue => membered (member.1, member.2.chars)) hmember)
      rw [byteLength_membered] at hmembered
      exact ((ih member hmember).trans (Nat.le_add_left _ _)).trans hmembered
  | _ => exact Nat.zero_le _

/-- A bound on the text of a value, from the lengths of its strings. -/
def weight : JsonValue → Nat :=
  fold
    (fun
      | .string value => 6 * value.length + 2
      | leaf => byteLength leaf.chars)
    (fun items => items.sum + items.length + 2)
    (fun members => (members.map fun member => 6 * member.1.length + 3 + member.2).sum +
      members.length + 2)

/-- Quoting makes a text at most six times as long. -/
theorem byteLength_quoted_le (text : String) : byteLength (quoted text) ≤ 6 * text.length + 2 := by
  have hquote : ('"' : Char).utf8Size = 1 := rfl
  have hescaped : ∀ cs : List Char, byteLength (cs.flatMap escaped) ≤ 6 * cs.length := by
    intro cs
    induction cs with
    | nil => exact Nat.zero_le _
    | cons c cs ih =>
        have hc := byteLength_escaped_le c
        rw [List.flatMap_cons, byteLength_append, List.length_cons]
        omega
  have hchars := hescaped text.toList
  rw [String.length_toList] at hchars
  rw [quoted, byteLength_cons, byteLength_append, byteLength_cons, byteLength_nil, hquote]
  omega

theorem weight_array (items : List JsonValue) :
    weight (.array items) = (items.map weight).sum + items.length + 2 := by
  rw [weight, fold_array, List.length_map]

theorem weight_object (members : List (String × JsonValue)) :
    weight (.object members) =
      (members.map fun member => 6 * member.1.length + 3 + member.2.weight).sum +
        members.length + 2 := by
  rw [weight, fold_object, List.length_map, List.map_map]
  rfl

/-- **The text of a value is no longer than its weight.** -/
theorem byteLength_le_weight (j : JsonValue) : byteLength j.chars ≤ j.weight := by
  have hseparated : ∀ parts : List (List Char),
      byteLength (separated parts) ≤ (parts.map byteLength).sum + parts.length := fun parts => by
    have := byteLength_separated parts
    omega
  induction j with
  | array items ih =>
      have hopen : ('[' : Char).utf8Size = 1 := rfl
      have hclose : (']' : Char).utf8Size = 1 := rfl
      have hparts := hseparated (items.map chars)
      have hitems := List.sum_le_sum ih
      rw [List.map_map, List.length_map, Function.comp_def] at hparts
      rw [weight_array, chars_array]
      simp only [byteLength_cons, byteLength_append, byteLength_nil, hopen, hclose]
      omega
  | object members ih =>
      have hopen : ('{' : Char).utf8Size = 1 := rfl
      have hclose : ('}' : Char).utf8Size = 1 := rfl
      have hparts := hseparated (members.map fun member => membered (member.1, member.2.chars))
      have hmembers : (members.map fun member =>
          byteLength (membered (member.1, member.2.chars))).sum ≤
          (members.map fun member => 6 * member.1.length + 3 + member.2.weight).sum := by
        refine List.sum_le_sum fun member hmember => ?_
        have hname := byteLength_quoted_le member.1
        have hvalue := ih member hmember
        rw [byteLength_membered]
        omega
      rw [List.map_map, List.length_map, Function.comp_def] at hparts
      rw [weight_object, chars_object]
      simp only [byteLength_cons, byteLength_append, byteLength_nil, hopen, hclose]
      omega
  | string value => exact byteLength_quoted_le value
  | _ => exact Nat.le_refl _

/-- **A plain value is parsed from its compact text.** -/
theorem parse_print {limit : Nat} {j : JsonValue} (h : Plain limit j) : parse j.print = some j := by
  obtain ⟨c, text, hhead, hspace, -⟩ := h.head
  have hskip : skip j.chars = j.chars := skip_of_head (by
    rw [hhead]
    rintro _ ⟨⟩
    exact hspace)
  have hfuel : j.depth < j.print.utf8ByteSize + 1 := by
    rw [utf8ByteSize_print]
    exact Nat.lt_succ_of_le (depth_le_byteLength j)
  have hends : Ends [] := fun c hc => by cases hc
  have hread := value_chars h hfuel hends
  rw [List.append_nil] at hread
  have htext : j.print.toList = j.chars := String.toList_ofList
  rw [parse, htext, hskip, hread, Option.bind_some]
  rfl

end Parse

end DisksGraph.Support.JsonValue
