import DisksGraph.Probe.Records
import DisksGraph.Support.Writes

/-!
# Wire — Value

The JSON form of identities, numbers and paths.

* A `Uuid` is written with hyphens and read in any spelling that `Uuid::parse_str` knows.
* A path is held with its spelling; one that is not UTF-8 is not written.
-/

namespace DisksGraph

open Support (Codec)

/-! ### Identities -/

namespace Uuid

theorem hexDigit_digitChar : ∀ n < 16, hexDigit n.digitChar = some n := by decide

/-- So many hexadecimal digits, the most significant first. -/
def hexDigits (length n : Nat) : List Char :=
  (List.range length).map fun i => (n / 16 ^ (length - 1 - i) % 16).digitChar

/-- One more digit. -/
theorem hexDigits_succ (length n : Nat) :
    hexDigits (length + 1) n = hexDigits length (n / 16) ++ [(n % 16).digitChar] := by
  rw [hexDigits, List.range_succ, List.map_append, List.map_singleton]
  congr 1
  · refine List.map_congr_left fun i hi => ?_
    have hlt : i < length := List.mem_range.mp hi
    have hpow : length + 1 - 1 - i = 1 + (length - 1 - i) := by omega
    rw [hpow, Nat.pow_add, Nat.pow_one, Nat.div_div_eq_div_mul]
  · simp

/-- Digits are read back. -/
theorem hexValue_hexDigits (length n : Nat) :
    hexValue (hexDigits length n) = some (n % 16 ^ length) := by
  induction length generalizing n with
  | zero => simp [hexDigits, hexValue, Nat.mod_one]
  | succ length ih =>
      have hinit := ih (n / 16)
      rw [hexValue, Option.map_eq_some_iff] at hinit
      obtain ⟨digits, hdigits, hvalue⟩ := hinit
      have hlast : hexDigit (n % 16).digitChar = some (n % 16) :=
        hexDigit_digitChar _ (Nat.mod_lt _ (by decide))
      have hall : (hexDigits (length + 1) n).mapM hexDigit = some (digits ++ [n % 16]) := by
        rw [hexDigits_succ, List.mapM_append, hdigits]
        simp [hlast]
      rw [hexValue, hall, Option.map_some, List.foldl_append, hvalue, List.foldl_cons,
        List.foldl_nil,
        Nat.pow_succ, Nat.mul_comm _ 16, Nat.mod_mul, Nat.add_comm]

/-- No digit is a hyphen. -/
theorem hyphen_notMem_hexDigits (length n : Nat) : '-' ∉ hexDigits length n := by
  have hdigit : ∀ digit < 16, digit.digitChar ≠ '-' := by decide
  intro hmem
  obtain ⟨i, -, hi⟩ := List.mem_map.mp hmem
  exact hdigit _ (Nat.mod_lt _ (by decide)) hi

/-- The five groups of digits between the hyphens. -/
def groups (id : Uuid) : List (List Char) :=
  [(0, 8), (8, 4), (12, 4), (16, 4), (20, 12)].map fun group =>
    ((hexDigits 32 id.toNat).drop group.1).take group.2

/-- A UUID is displayed as its groups between hyphens. -/
theorem toList_display (id : Uuid) : id.display.toList = ['-'].intercalate id.groups := by
  have hdigits : hexDigits 32 id.toNat =
      (List.range 32).map fun i => (id.toNat / 16 ^ (31 - i) % 16).digitChar := rfl
  simp only [display, String.toList_append, String.toList_ofList, groups, hdigits, List.map_cons,
    List.map_nil, List.intercalate]
  rfl

/-- The groups are the 32 digits. -/
theorem flatten_groups (id : Uuid) : id.groups.flatten = hexDigits 32 id.toNat := by
  have hlength : (hexDigits 32 id.toNat).length = 32 := by
    rw [hexDigits, List.length_map, List.length_range]
  have hsplit : ∀ digits : List Char, digits.length = 32 →
      ([(0, 8), (8, 4), (12, 4), (16, 4), (20, 12)].map fun group : Nat × Nat =>
        (digits.drop group.1).take group.2).flatten = digits := by
    intro digits h
    simp only [List.map_cons, List.map_nil, List.flatten_cons, List.flatten_nil, List.append_nil,
      List.drop_zero]
    have hlast : (digits.drop 20).take 12 = digits.drop 20 :=
      List.take_of_length_le (by rw [List.length_drop]; omega)
    have hjoin : ∀ from_ count, (digits.drop from_).take count ++ digits.drop (from_ + count) =
        digits.drop from_ := by
      intro from_ count
      rw [← List.drop_drop, List.take_append_drop]
    rw [hlast, hjoin 16 4, hjoin 12 4, hjoin 8 4, List.take_append_drop]
  exact hsplit _ hlength

/-- The lengths of the groups. -/
theorem length_groups (id : Uuid) : id.groups.map List.length = [8, 4, 4, 4, 12] := by
  have hlength : (hexDigits 32 id.toNat).length = 32 := by
    rw [hexDigits, List.length_map, List.length_range]
  simp [groups, hlength]

/-- **What is written is read back.** -/
theorem parseStr_display (id : Uuid) : parseStr id.display = some id := by
  have hsplit : (['-'].intercalate id.groups).splitOn '-' = id.groups := by
    refine List.splitOn_intercalate '-' ?_ (by simp [groups])
    intro group hgroup hmem
    refine hyphen_notMem_hexDigits 32 id.toNat ?_
    rw [← flatten_groups]
    exact List.mem_flatten.mpr ⟨group, hgroup, hmem⟩
  have hlength : (['-'].intercalate id.groups).length = 36 := by
    have h := length_groups id
    simp only [groups, List.map_cons, List.map_nil, List.cons.injEq, and_true] at h
    obtain ⟨h1, h2, h3, h4, h5⟩ := h
    simp only [groups, List.map_cons, List.map_nil, List.intercalate, List.intersperse,
      List.flatten_cons, List.flatten_nil, List.length_append, List.length_cons, List.length_nil,
      h1, h2, h3, h4, h5]
  have hvalue : parseSimple (hexDigits 32 id.toNat) = some id := by
    rw [parseSimple, hexValue_hexDigits, Option.map_some, Option.some.injEq]
    refine BitVec.eq_of_toNat_eq ?_
    rw [BitVec.toNat_ofNat]
    have hlt := id.isLt
    omega
  rw [parseStr, toList_display]
  simp only [hlength]
  rw [if_neg (by decide), if_pos trivial, parseHyphenated, hsplit, if_pos (length_groups id),
    flatten_groups, hvalue]

/-- A UUID in its hyphenated form. -/
def codec : Codec Uuid := .text parseStr display parseStr_display

end Uuid

/-- A newtype: the UUID inside. -/
def NodeId.codec : Codec NodeId := Uuid.codec.map NodeId.mk

/-! ### Numbers -/

theorem width_u8 : 8 ≤ 64 := by decide

theorem width_u16 : 16 ≤ 64 := by decide

theorem width_u32 : 32 ≤ 64 := by decide

theorem width_u64 : 64 ≤ 64 := le_rfl

/-- A `u8`. -/
def u8 : Codec Nat := .unsigned 8 width_u8

/-- A `u16`. -/
def u16 : Codec Nat := .unsigned 16 width_u16

/-- A `u32`. -/
def u32 : Codec Nat := .unsigned 32 width_u32

/-- A `u64`. -/
def u64 : Codec Nat := .unsigned 64 width_u64

/-- A newtype: the `u64` inside. -/
def Bytes.codec : Codec Bytes := u64

/-- `NonZeroU16`, `NonZeroU32` and `NonZeroU64`, at their widths. -/
def NonZero.codec (width : Nat) (h : width ≤ 64) : Codec (NonZero width) :=
  (Codec.natural 1 (2 ^ width) (Codec.two_pow_le h)).map fun n => ⟨n.1, n.2⟩

/-- A `NonZeroU16`. -/
def nonZeroU16 : Codec (NonZero 16) := NonZero.codec 16 width_u16

/-- A `NonZeroU32`. -/
def nonZeroU32 : Codec (NonZero 32) := NonZero.codec 32 width_u32

/-- A `NonZeroU64`. -/
def nonZeroU64 : Codec (NonZero 64) := NonZero.codec 64 width_u64

/-! ### Paths -/

/-- A path as it is held: its text, or one that no text spells. -/
def PathBuf.codec : Codec PathBuf where
  Stored := String ⊕ { path : PathBuf // ∀ text, PathBuf.ofString text ≠ path }
  value := Sum.elim PathBuf.ofString Subtype.val
  encode
    | .inl text => some (.string text)
    | .inr _ => none
  decode
    | .string text => some (.inl text)
    | _ => none
  textual := false
  depth := 0
  decode_encode := by
    rintro (text | path) j hencode
    · obtain rfl := Option.some.inj hencode
      exact ⟨fun _ => trivial, fun _ => rfl⟩
    · cases hencode
  sound := by
    rintro j s hdecode
    split at hdecode
    · obtain rfl := Option.some.inj hdecode
      exact ⟨trivial, _, rfl⟩
    · cases hdecode
  missing_sound := by
    rintro _ ⟨⟩
  plain := by
    rintro (text | path) j hencode
    · obtain rfl := Option.some.inj hencode
      exact .string _
    · cases hencode
  not_null := by
    rintro (text | path) hencode
    · cases hencode
    · cases hencode
  null_sound := by
    rintro _ _ ⟨⟩
  accepts_all := fun _ _ => trivial
  writes_all := by
    rintro ⟨⟩

/-- The path is UTF-8: some text spells it. -/
def PathBuf.Utf8 (path : PathBuf) : Prop := ∃ text, PathBuf.ofString text = path

/-- A path is written when it is UTF-8. -/
theorem PathBuf.writes : PathBuf.codec.Writes PathBuf.Utf8 := by
  rintro (text | path)
  · exact iff_of_true ⟨_, rfl⟩ ⟨text, rfl⟩
  · refine iff_of_false ?_ ?_
    · rintro ⟨j, hj⟩
      cases hj
    · rintro ⟨text, htext⟩
      exact path.2 text htext

/-- No text spells a name that is not UTF-8. -/
theorem PathBuf.nonUtf8_notMem_ofString (text : String) (name : NonUtf8) :
    Component.nonUtf8 name ∉ (PathBuf.ofString text).components := by
  intro hmem
  unfold PathBuf.ofString at hmem
  dsimp only at hmem
  split at hmem
  · rcases List.mem_cons.mp hmem with hroot | hmem
    · cases hroot
    · obtain ⟨piece, -, hpiece⟩ := List.mem_filterMap.mp hmem
      split at hpiece <;> cases hpiece
  · split at hmem
    · rcases List.mem_cons.mp hmem with hdot | hmem
      · cases hdot
      · obtain ⟨piece, -, hpiece⟩ := List.mem_filterMap.mp hmem
        split at hpiece <;> cases hpiece
    · obtain ⟨piece, -, hpiece⟩ := List.mem_filterMap.mp hmem
      split at hpiece <;> cases hpiece

/-- A path that is not UTF-8 is spelled by no text. -/
theorem PathBuf.not_utf8 {path : PathBuf} {name : NonUtf8}
    (h : Component.nonUtf8 name ∈ path.components) (text : String) :
    PathBuf.ofString text ≠ path := by
  rintro rfl
  exact PathBuf.nonUtf8_notMem_ofString text name h

end DisksGraph
