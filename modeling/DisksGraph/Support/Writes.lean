import DisksGraph.Support.Codec

/-!
# Support — Writes

Which values have a JSON form.

* `Codec.Writes`: exactly the values with a property can be written.
* A value of a `textual` codec always can; `list`, `option`, `keyed` and `record` ask it of what is
  inside, and `choice` of the variant that is there.
-/

namespace DisksGraph.Support

variable {α β γ : Type}

/-- Exactly the values with the property can be written. -/
def Codec.Writes (c : Codec α) (P : α → Prop) : Prop :=
  ∀ s, (∃ j, c.encode s = some j) ↔ P (c.value s)

/-- The same of the fields of a struct, of which the property sees the stored ones. -/
def Fields.Writes (fs : Fields α) (P : fs.Stored → Prop) : Prop :=
  ∀ s, (∃ members, fs.write s = some members) ↔ P s

/-- The same of one variant of an enum. -/
def Variant.Writes (v : Variant α) (P : α → Prop) : Prop :=
  ∀ s, (∃ payload, v.encode s = some payload) ↔ P (v.value s)

/-- A textual codec writes every value. -/
theorem Codec.Writes.of_textual {c : Codec α} (h : c.textual = true) : c.Writes fun _ => True :=
  fun s => iff_of_true (c.writes_all h s) trivial

section Sequences

variable {c : Codec α} {P : α → Prop} (h : c.Writes P)
include h

/-- A list is written when its items are. -/
theorem Codec.Writes.list : c.list.Writes fun items => ∀ item ∈ items, P item := by
  intro s
  have hitems : (∃ written, s.1.mapM c.encode = some written) ↔ ∀ item ∈ s.1, P (c.value item) := by
    rw [option_mapM_some_iff]
    exact forall₂_congr fun item _ => h item
  refine option_map_some_iff.trans (hitems.trans ?_)
  exact List.forall_mem_map.symm

theorem Codec.Writes.option : c.option.Writes fun a => ∀ inner ∈ a, P inner := by
  intro s
  cases s with
  | none =>
      refine iff_of_true ⟨.null, rfl⟩ ?_
      rintro inner ⟨⟩
  | some s =>
      refine (h s).trans ?_
      constructor
      · rintro hinner _ ⟨⟩
        exact hinner
      · exact fun hall => hall _ rfl

/-- A table is written when its values are. -/
theorem Codec.Writes.keyed {κ : Type} [DecidableEq κ] {parse : String → Option κ}
    {print : κ → String} (hkey : ∀ key, parse (print key) = some key) :
    (c.keyed parse print hkey).Writes fun entries => ∀ entry ∈ entries, P entry.2 := by
  intro s
  have hentries : (∃ members, s.1.mapM (c.writeEntry print) = some members) ↔
      ∀ entry ∈ s.1, P (c.value entry.2) := by
    rw [option_mapM_some_iff]
    exact forall₂_congr fun entry _ => option_map_some_iff.trans (h entry.2)
  refine option_map_some_iff.trans (hentries.trans ?_)
  constructor
  · rintro hall _ hentry
    obtain ⟨entry, hmem, rfl⟩ := List.mem_map.mp hentry
    exact hall entry hmem
  · exact fun hall entry hentry => hall _ (List.mem_map_of_mem hentry)

end Sequences

/-! ### Structs -/

theorem Fields.Writes.of (a : α) : (Fields.of a).Writes fun _ => True :=
  fun _ => iff_of_true ⟨_, rfl⟩ trivial

/-- One more field. -/
theorem Fields.Writes.member {fs : Fields (β → γ)} {P : fs.Stored → Prop} (h : fs.Writes P)
    {c : Codec β} {Q : β → Prop} (hc : c.Writes Q) {name : String} {skip : c.Stored → Bool}
    {absent absentSeq : Option c.Stored} (hskip) (habsent) (habsentSeq) :
    (fs.member name c skip absent absentSeq hskip habsent habsentSeq).Writes
      fun s => P s.1 ∧ Q (c.value s.2) := by
  rintro ⟨s, t⟩
  refine Iff.trans ?_ (and_congr (h s) (hc t))
  constructor
  · rintro ⟨members, hmembers⟩
    obtain ⟨before, hbefore, hmembers⟩ := Option.bind_eq_some_iff.mp hmembers
    obtain ⟨j, hj, -⟩ := Option.bind_eq_some_iff.mp hmembers
    exact ⟨⟨before, hbefore⟩, ⟨j, hj⟩⟩
  · rintro ⟨⟨before, hbefore⟩, ⟨j, hj⟩⟩
    exact ⟨_, Option.bind_eq_some_iff.mpr
      ⟨before, hbefore, Option.bind_eq_some_iff.mpr ⟨j, hj, rfl⟩⟩⟩

/-- One more field is written with those before it. -/
theorem Fields.Writes.field {fs : Fields (β → γ)} {P : fs.Stored → Prop} (h : fs.Writes P)
    (name : String) {c : Codec β} {Q : β → Prop} (hc : c.Writes Q) :
    (fs.field name c).Writes fun s => P s.1 ∧ Q (c.value s.2) :=
  h.member hc _ _ _

/-- The fields of a struct that hold no path. -/
theorem Fields.Writes.of_textual {fs : Fields α} (h : fs.textual = true) :
    fs.Writes fun _ => True :=
  fun s => iff_of_true (fs.writes_all h s) trivial

/-- A struct is written when its fields are. -/
theorem Codec.Writes.record {fs : Fields α} {P : fs.Stored → Prop} (h : fs.Writes P) {Q : α → Prop}
    (hQ : ∀ s, P s ↔ Q (fs.value s)) (deny : Bool) (hnames : fs.names.Nodup) :
    (Codec.record deny fs hnames).Writes Q := by
  intro s
  exact option_map_some_iff.trans ((h s).trans (hQ s))

/-! ### Enums -/

theorem Variant.Writes.of_textual {v : Variant α} {P : α → Prop} (h : v.textual = true)
    (hP : ∀ s, P (v.value s)) : v.Writes P :=
  fun s => iff_of_true (v.writes_all h s) (hP s)

/-- A variant is written when its fields are. -/
theorem Variant.Writes.record {fs : Fields α} {P : fs.Stored → Prop} (h : fs.Writes P)
    {Q : α → Prop} (hQ : ∀ s, P s ↔ Q (fs.value s)) (deny : Bool) (name : String)
    (hnames : fs.names.Nodup) : (Variant.record deny name fs hnames).Writes Q := by
  intro s
  exact option_map_some_iff.trans (option_map_some_iff.trans ((h s).trans (hQ s)))

/-- One of the variants is there. -/
theorem Codec.Writes.choice {variants : List (Variant α)} {P : α → Prop}
    (h : ∀ v ∈ variants, v.Writes P) (hnames : (variants.map Variant.name).Nodup) :
    (Codec.choice variants hnames).Writes P := by
  have hwrite : ∀ s : Variant.Held variants,
      (∃ written, Variant.write variants s = some written) ↔ P (Variant.held variants s) := by
    clear hnames
    intro s
    induction variants with
    | nil => cases s
    | cons v variants ih =>
        obtain ⟨hv, hrest⟩ := List.forall_mem_cons.mp h
        cases s with
        | inl s => exact option_map_some_iff.trans (hv s)
        | inr s => exact ih hrest s
  intro s
  exact option_map_some_iff.trans (hwrite s)

end DisksGraph.Support
