import DisksGraph.Support.Codec

/-!
# Support — Walk

Where the JSON of a value holds the values inside it.

* A `Walk` finds parts of a JSON value; `field`, `alternatives` and `members` follow a struct, an
  enum and an object.
* `Codec.Reads`: in every JSON that a codec reads, a walk finds what another codec reads as the
  parts of the value, in their order.
* `Fields.Holds`: where a struct keeps the value of one of its fields.
-/

namespace DisksGraph.Support

/-- The parts of a JSON value that lie along some way through it. -/
abbrev Walk : Type := JsonValue → List JsonValue

namespace Walk

/-- The value itself. -/
def here : Walk := fun j => [j]

/-- The field of a struct, by its name or by its position, as often as it is there. -/
def named (name : String) (index : Nat) : Walk
  | .object members => (members.filter fun member => member.1 = name).map Prod.snd
  | .array items => items[index]?.toList
  | _ => []

/-- On from the field of a struct. -/
def field (name : String) (index : Nat) (rest : Walk) : Walk :=
  fun j => (named name index j).flatMap rest

/-- On from the payload of one of the named variants of an enum. -/
def alternatives (walks : List (String × Walk)) : Walk
  | .object [(name, payload)] => (walks.lookup name).toList.flatMap fun rest => rest payload
  | _ => []

/-- On from every member of an object. -/
def members (rest : Walk) : Walk
  | .object members => members.flatMap fun member => rest member.2
  | _ => []

end Walk

variable {α β γ : Type}

/-- What is found is read as the parts, one by one. -/
def ReadAs (d : Codec β) (found : List JsonValue) (parts : List β) : Prop :=
  List.Forall₂ (fun j part => ∃ t, d.decode j = some t ∧ d.value t = part) found parts

/-- In every JSON that `c` reads, `walk` finds the parts of the value that is read. -/
def Codec.Reads (c : Codec α) (walk : Walk) (parts : α → List β) (d : Codec β) : Prop :=
  ∀ j s, c.decode j = some s → ReadAs d (walk j) (parts (c.value s))

theorem Codec.Reads.here (c : Codec α) : c.Reads Walk.here (fun a => [a]) c :=
  fun _ s h => .cons ⟨s, h, rfl⟩ .nil

/-! ### Structs -/

/-- The field `name` at `index` is read by `c`, and held where `get` says. -/
structure Fields.Holds (fs : Fields α) (name : String) (index : Nat) (c : Codec β)
    (get : fs.Stored → c.Stored) : Prop where
  mem : name ∈ fs.names
  byName : ∀ {members s}, fs.read members = some s →
    ∃ j, members.lookup name = some j ∧ c.decode j = some (get s)
  byPosition : ∀ {items s rest}, fs.readSeq items = some (s, rest) →
    ∃ j, items[index]? = some j ∧ c.decode j = some (get s)

/-- The last field, when its absence stands for nothing. -/
theorem Fields.Holds.last (fs : Fields (β → γ)) (name : String) {c : Codec β}
    (h : c.missing = none) : (fs.field name c).Holds name fs.names.length c Prod.snd where
  mem := List.mem_append_right _ List.mem_cons_self
  byName := by
    rintro members ⟨s, t⟩ hread
    obtain ⟨s', -, hread⟩ := Option.bind_eq_some_iff.mp hread
    obtain ⟨t', ht, heq⟩ := Option.bind_eq_some_iff.mp hread
    obtain ⟨rfl, rfl⟩ := Prod.mk.inj (Option.some.inj heq)
    cases hlookup : members.lookup name with
    | none =>
        rw [hlookup, Option.map_none, Option.getD_none, h] at ht
        cases ht
    | some j =>
        rw [hlookup] at ht
        exact ⟨j, rfl, ht⟩
  byPosition := by
    rintro items ⟨s, t⟩ rest hread
    obtain ⟨⟨s', rest'⟩, hs, hread⟩ := Option.bind_eq_some_iff.mp hread
    obtain ⟨t', ht, heq⟩ := Option.bind_eq_some_iff.mp hread
    obtain ⟨rfl, rfl⟩ := Prod.mk.inj (Prod.mk.inj (Option.some.inj heq)).1
    rw [fs.drops hs, List.head?_drop] at ht
    cases hitem : items[fs.names.length]? with
    | none =>
        rw [hitem] at ht
        cases ht
    | some j =>
        rw [hitem] at ht
        exact ⟨j, rfl, ht⟩

/-- A field stays where it is when another one comes after it. -/
theorem Fields.Holds.before {fs : Fields (β → γ)} {name : String} {index : Nat} {c : Codec α}
    {get : fs.Stored → c.Stored} (h : fs.Holds name index c get) (other : String) (d : Codec β) :
    (fs.field other d).Holds name index c fun s => get s.1 where
  mem := List.mem_append_left _ h.mem
  byName := by
    rintro members ⟨s, t⟩ hread
    obtain ⟨s', hs, hread⟩ := Option.bind_eq_some_iff.mp hread
    obtain ⟨t', -, heq⟩ := Option.bind_eq_some_iff.mp hread
    obtain ⟨rfl, rfl⟩ := Prod.mk.inj (Option.some.inj heq)
    exact h.byName hs
  byPosition := by
    rintro items ⟨s, t⟩ rest hread
    obtain ⟨⟨s', rest'⟩, hs, hread⟩ := Option.bind_eq_some_iff.mp hread
    obtain ⟨t', -, heq⟩ := Option.bind_eq_some_iff.mp hread
    obtain ⟨rfl, rfl⟩ := Prod.mk.inj (Prod.mk.inj (Option.some.inj heq)).1
    exact h.byPosition hs

/-- Where no field comes twice, the one that is looked up is the only one of its name. -/
theorem Walk.named_of_lookup {names : List String} {name : String} (hname : name ∈ names)
    {members : List (String × JsonValue)} (h : ((members.map Prod.fst).filter (· ∈ names)).Nodup)
    {j : JsonValue} (hlookup : members.lookup name = some j) :
    (members.filter fun member => member.1 = name).map Prod.snd = [j] := by
  induction members with
  | nil => cases hlookup
  | cons member rest ih =>
      by_cases heq : member.1 = name
      · obtain rfl := heq
        rw [List.map_cons, List.filter_cons_of_pos (by simpa using hname)] at h
        rw [List.lookup_cons_self, Option.some.injEq] at hlookup
        have hnone : (rest.filter fun other => other.1 = member.1) = [] := by
          refine List.filter_eq_nil_iff.mpr fun other hother heq => ?_
          refine (List.nodup_cons.mp h).1 (List.mem_filter.mpr ⟨?_, by simpa using hname⟩)
          rw [← of_decide_eq_true heq]
          exact List.mem_map_of_mem hother
        rw [List.filter_cons_of_pos (by simp), hnone, List.map_cons, hlookup, List.map_nil]
      · have hne : (name == member.1) = false := beq_eq_false_iff_ne.mpr (Ne.symm heq)
        rw [List.lookup_cons, hne] at hlookup
        rw [List.filter_cons_of_neg (by simpa using heq)]
        refine ih ?_ hlookup
        rw [List.map_cons, List.filter_cons] at h
        split at h
        · exact (List.nodup_cons.mp h).2
        · exact h

/-- A struct has each of its fields once. -/
theorem Codec.named_of_decode {fs : Fields α} {h : fs.names.Nodup} {deny : Bool} {name : String}
    {index : Nat} {c : Codec β} {get : fs.Stored → c.Stored} (hholds : fs.Holds name index c get)
    {j : JsonValue} {s : fs.Stored} (hdecode : (Codec.record deny fs h).decode j = some s) :
    ∃ part, Walk.named name index j = [part] ∧ c.decode part = some (get s) := by
  cases j with
  | object members =>
      dsimp only [Codec.record] at hdecode
      split at hdecode
      · next hchecks =>
        obtain ⟨part, hlookup, hpart⟩ := hholds.byName hdecode
        exact ⟨part, Walk.named_of_lookup hholds.mem hchecks.1 hlookup, hpart⟩
      · cases hdecode
  | array items =>
      obtain ⟨⟨s', rest⟩, hread, hrest⟩ := Option.bind_eq_some_iff.mp hdecode
      split at hrest
      · obtain rfl := Option.some.inj hrest
        obtain ⟨part, hitem, hpart⟩ := hholds.byPosition hread
        exact ⟨part, by rw [Walk.named, hitem, Option.toList_some], hpart⟩
      · cases hrest
  | _ => cases hdecode

/-- **A struct has the parts of one of its fields.** -/
theorem Codec.Reads.field {fs : Fields α} {h : fs.names.Nodup} {deny : Bool} {name : String}
    {index : Nat} {c : Codec β} {get : fs.Stored → c.Stored} (hholds : fs.Holds name index c get)
    {walk : Walk} {inner : β → List γ} {d : Codec γ} (hinner : c.Reads walk inner d)
    {parts : α → List γ} (hparts : ∀ s, parts (fs.value s) = inner (c.value (get s))) :
    (Codec.record deny fs h).Reads (.field name index walk) parts d := by
  have hread : ∀ {j} {s : fs.Stored}, (Codec.record deny fs h).decode j = some s →
      ReadAs d (Walk.field name index walk j) (parts (fs.value s)) := by
    intro j s hdecode
    obtain ⟨part, hnamed, hpart⟩ := Codec.named_of_decode hholds hdecode
    rw [Walk.field, hnamed, List.flatMap_singleton, hparts]
    exact hinner part _ hpart
  intro j s hdecode
  exact hread hdecode

/-! ### Enums -/

/-- In every payload that the variant reads, `walk` finds the parts of the value. -/
def Variant.Reads (v : Variant α) (walk : Walk) (parts : α → List β) (d : Codec β) : Prop :=
  ∀ payload t, v.decode payload = some t →
    ReadAs d (payload.toList.flatMap walk) (parts (v.value t))

theorem Variant.Reads.holding {name : String} {f : β → α} {c : Codec β} {walk : Walk}
    {inner : β → List γ} {d : Codec γ} (hinner : c.Reads walk inner d) {parts : α → List γ}
    (hparts : ∀ t, parts (f (c.value t)) = inner (c.value t)) :
    (Variant.holding name f c).Reads walk parts d := by
  intro payload t hdecode
  obtain ⟨j, rfl, hj⟩ := Option.bind_eq_some_iff.mp hdecode
  have hread : ∀ t : c.Stored, c.decode j = some t →
      ReadAs d (walk j) (parts (f (c.value t))) := by
    intro t ht
    rw [hparts]
    exact hinner j t ht
  rw [Option.toList_some, List.flatMap_singleton]
  exact hread t hj

/-- A walk into a field of a variant. -/
theorem Variant.Reads.record {fs : Fields α} {h : fs.names.Nodup} {deny : Bool}
    {variant name : String} {index : Nat} {c : Codec β} {get : fs.Stored → c.Stored}
    (hholds : fs.Holds name index c get) {walk : Walk} {inner : β → List γ} {d : Codec γ}
    (hinner : c.Reads walk inner d) {parts : α → List γ}
    (hparts : ∀ s, parts (fs.value s) = inner (c.value (get s))) :
    (Variant.record deny variant fs h).Reads (.field name index walk) parts d :=
  Variant.Reads.holding (Codec.Reads.field hholds hinner hparts) fun _ => rfl

/-- **An enum has the parts of the variants that are followed, when the others have none.** -/
theorem Codec.Reads.choice {variants : List (Variant α)} {h : (variants.map Variant.name).Nodup}
    {walks : List (String × Walk)} {parts : α → List β} {d : Codec β}
    (hfollowed : ∀ entry ∈ walks, ∃ v ∈ variants, v.name = entry.1 ∧ v.Reads entry.2 parts d)
    (hothers : ∀ v ∈ variants, v.name ∉ walks.map Prod.fst → ∀ t, parts (v.value t) = []) :
    (Codec.choice variants h).Reads (.alternatives walks) parts d := by
  have hread : ∀ {name payload s}, Variant.read variants name payload = some s →
      ReadAs d ((walks.lookup name).toList.flatMap fun rest => payload.toList.flatMap rest)
        (parts (Variant.held variants s)) := by
    intro name payload s hread
    obtain ⟨v, hv, rfl, t, ht, hvalue⟩ := Variant.read_cases hread
    rw [hvalue]
    cases hlookup : walks.lookup v.name with
    | none =>
        have hnot : v.name ∉ walks.map Prod.fst := by
          intro hmem
          obtain ⟨entry, hentry, hname⟩ := List.mem_map.mp hmem
          have hne := List.lookup_eq_none_iff.mp hlookup entry hentry
          rw [bne_iff_ne] at hne
          exact hne hname.symm
        rw [hothers v hv hnot t]
        exact .nil
    | some walk =>
        obtain ⟨w, hw, hname, hreads⟩ := hfollowed _ (JsonValue.mem_of_lookup hlookup)
        obtain rfl := List.inj_on_of_nodup_map h hw hv hname
        rw [Option.toList_some, List.flatMap_singleton]
        exact hreads payload t ht
  intro j s hdecode
  cases j with
  | string name =>
      have hfound : ReadAs d _ (parts (Variant.held variants s)) := hread hdecode
      have hnothing : ((walks.lookup name).toList.flatMap fun rest : Walk =>
          (none : Option JsonValue).toList.flatMap rest) = [] :=
        List.flatMap_eq_nil_iff.mpr fun _ _ => rfl
      rw [hnothing] at hfound
      exact hfound
  | object members =>
      cases members with
      | nil => cases hdecode
      | cons member others =>
          cases others with
          | nil =>
              have hfound : ReadAs d _ (parts (Variant.held variants s)) :=
                @hread member.1 (some member.2) s hdecode
              simp only [Option.toList_some, List.flatMap_singleton] at hfound
              exact hfound
          | cons => cases hdecode
  | _ => cases hdecode

end DisksGraph.Support
