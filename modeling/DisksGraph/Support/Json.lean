import Mathlib

/-!
# Support — Json

JSON values as a text gives them, and the compact text that is written for a value.

* `JsonValue`: an object keeps its members in the order of the text, repeated names included; a
  number that is no integer keeps its literal; `garbled` stands for a string or a name with an
  unpaired surrogate, which no text denotes.
* `fold`: every function on values is one, so each has one equation for arrays and one for objects.
* `Plain`: what a serializer writes: integers of 64 bits, names that differ, bounded nesting.
* `chars`: the compact text.
* `canonical`: the value a text denotes: of the members of one name the last one counts, and their
  order does not.
* `byteLength_canonical_le`: a value is written no longer than with its repeated members.
-/

namespace DisksGraph.Support

/-- A JSON value, as its text gives it. -/
inductive JsonValue where
  | null
  | bool (value : Bool)
  | int (value : Int)
  | float (literal : String)
  | string (value : String)
  | garbled
  | array (items : List JsonValue)
  | object (members : List (String × JsonValue))

namespace JsonValue

/-- Induction over a value, with one hypothesis for the items of an array and one for the members
of an object. -/
@[induction_eliminator]
theorem induct {motive : JsonValue → Prop} (null : motive .null)
    (bool : ∀ value, motive (.bool value)) (int : ∀ value, motive (.int value))
    (float : ∀ literal, motive (.float literal)) (string : ∀ value, motive (.string value))
    (garbled : motive .garbled)
    (array : ∀ items, (∀ item ∈ items, motive item) → motive (.array items))
    (object : ∀ members, (∀ member ∈ members, motive member.2) → motive (.object members))
    (j : JsonValue) : motive j :=
  @JsonValue.rec motive (fun items => ∀ item ∈ items, motive item)
    (fun members => ∀ member ∈ members, motive member.2) (fun member => motive member.2)
    null bool int float string garbled array object
    (fun _ h => absurd h List.not_mem_nil)
    (fun _ _ hhead htail => List.forall_mem_cons.mpr ⟨hhead, htail⟩)
    (fun _ h => absurd h List.not_mem_nil)
    (fun _ _ hhead htail => List.forall_mem_cons.mpr ⟨hhead, htail⟩)
    (fun _ _ h => h) j

/-! ### Folds -/

section Fold

variable {β : Type} (leaf : JsonValue → β) (array : List β → β) (object : List (String × β) → β)

mutual

/-- Works a value out from its leaves. -/
def fold : JsonValue → β
  | .array items => array (foldItems items)
  | .object members => object (foldMembers members)
  | .null => leaf .null
  | .bool value => leaf (.bool value)
  | .int value => leaf (.int value)
  | .float literal => leaf (.float literal)
  | .string value => leaf (.string value)
  | .garbled => leaf .garbled

/-- The results of the items of an array. -/
def foldItems : List JsonValue → List β
  | [] => []
  | item :: rest => fold item :: foldItems rest

/-- The results of the members of an object, under their names. -/
def foldMembers : List (String × JsonValue) → List (String × β)
  | [] => []
  | (name, value) :: rest => (name, fold value) :: foldMembers rest

end

theorem foldItems_eq (items : List JsonValue) :
    foldItems leaf array object items = items.map (fold leaf array object) := by
  induction items with
  | nil => rfl
  | cons item rest ih => rw [foldItems, ih, List.map_cons]

theorem foldMembers_eq (members : List (String × JsonValue)) :
    foldMembers leaf array object members =
      members.map fun member => (member.1, fold leaf array object member.2) := by
  induction members with
  | nil => rfl
  | cons member rest ih => rw [foldMembers, ih, List.map_cons]

/-- The fold of an array. -/
theorem fold_array (items : List JsonValue) :
    fold leaf array object (.array items) = array (items.map (fold leaf array object)) := by
  rw [fold, foldItems_eq]

/-- The fold of an object. -/
theorem fold_object (members : List (String × JsonValue)) :
    fold leaf array object (.object members) =
      object (members.map fun member => (member.1, fold leaf array object member.2)) := by
  rw [fold, foldMembers_eq]

end Fold

/-! ### Equality -/

mutual

/-- Equality of values as texts give them. -/
def same : JsonValue → JsonValue → Bool
  | .null, .null => true
  | .bool a, .bool b => a == b
  | .int a, .int b => a == b
  | .float a, .float b => a == b
  | .string a, .string b => a == b
  | .garbled, .garbled => true
  | .array a, .array b => sameItems a b
  | .object a, .object b => sameMembers a b
  | _, _ => false

/-- Equality of items. -/
def sameItems : List JsonValue → List JsonValue → Bool
  | [], [] => true
  | a :: as, b :: bs => same a b && sameItems as bs
  | _, _ => false

/-- Equality of members, names and order included. -/
def sameMembers : List (String × JsonValue) → List (String × JsonValue) → Bool
  | [], [] => true
  | (name, a) :: as, (name', b) :: bs => name == name' && same a b && sameMembers as bs
  | _, _ => false

end

theorem sameItems_iff {as bs : List JsonValue} (h : ∀ a ∈ as, ∀ b, same a b = true ↔ a = b) :
    sameItems as bs = true ↔ as = bs := by
  induction as generalizing bs with
  | nil => cases bs <;> simp [sameItems]
  | cons a as ih =>
      obtain ⟨ha, has⟩ := List.forall_mem_cons.mp h
      cases bs with
      | nil => simp [sameItems]
      | cons b bs => simp [sameItems, ha, ih has]

theorem sameMembers_iff {as bs : List (String × JsonValue)}
    (h : ∀ a ∈ as, ∀ b, same a.2 b = true ↔ a.2 = b) : sameMembers as bs = true ↔ as = bs := by
  induction as generalizing bs with
  | nil => cases bs <;> simp [sameMembers]
  | cons a as ih =>
      obtain ⟨ha, has⟩ := List.forall_mem_cons.mp h
      cases bs with
      | nil => simp [sameMembers]
      | cons b bs => simp [sameMembers, ha, ih has, Prod.ext_iff]

/-- `same` decides equality. -/
theorem same_iff {a b : JsonValue} : same a b = true ↔ a = b := by
  induction a generalizing b with
  | null => cases b <;> simp [same]
  | bool value => cases b <;> simp [same]
  | int value => cases b <;> simp [same]
  | float literal => cases b <;> simp [same]
  | string value => cases b <;> simp [same]
  | garbled => cases b <;> simp [same]
  | array items ih =>
      cases b with
      | array items' => simp [same, sameItems_iff fun a ha b => ih a ha]
      | _ => simp [same]
  | object members ih =>
      cases b with
      | object members' => simp [same, sameMembers_iff fun a ha b => ih a ha]
      | _ => simp [same]

instance : DecidableEq JsonValue := fun _ _ => decidable_of_iff _ same_iff

/-! ### What is written -/

/-- How deep the arrays and objects of a value are nested. -/
def depth : JsonValue → Nat :=
  fold (fun _ => 0) (fun depths => 1 + depths.foldr max 0)
    (fun depths => 1 + (depths.map Prod.snd).foldr max 0)

/-- The depth of an array. -/
theorem depth_array (items : List JsonValue) :
    (array items).depth = 1 + (items.map depth).foldr max 0 :=
  fold_array _ _ _ items

/-- The depth of an object. -/
theorem depth_object (members : List (String × JsonValue)) :
    (object members).depth = 1 + (members.map fun member => member.2.depth).foldr max 0 := by
  rw [depth, fold_object, List.map_map]
  rfl

/-- The longest text among the strings of a value, names of members apart. -/
def longest : JsonValue → Nat :=
  fold (fun | .string value => value.utf8ByteSize | _ => 0) (fun lengths => lengths.foldr max 0)
    (fun lengths => (lengths.map Prod.snd).foldr max 0)

/-- A text denotes the value: none of its strings is garbled and its floats are `finite`. -/
def strict (finite : String → Bool) : JsonValue → Bool :=
  fold (fun | .float literal => finite literal | .garbled => false | _ => true)
    (fun items => items.all id) (fun members => members.all (·.2))

section Strict

variable {finite : String → Bool}

/-- An array is strict when its items are. -/
theorem strict_array {items : List JsonValue} :
    (array items).strict finite = true ↔ ∀ item ∈ items, item.strict finite = true := by
  rw [strict, fold_array, List.all_map, List.all_eq_true]
  rfl

/-- An object is strict when its members are. -/
theorem strict_object {members : List (String × JsonValue)} :
    (object members).strict finite = true ↔ ∀ member ∈ members, member.2.strict finite = true := by
  rw [strict, fold_object, List.all_map, List.all_eq_true]
  rfl

end Strict

/-- What a serializer writes, nested at most so deep. -/
inductive Plain : Nat → JsonValue → Prop where
  | null {limit : Nat} : Plain limit .null
  | bool {limit : Nat} (value : Bool) : Plain limit (.bool value)
  | int {limit : Nat} {value : Int} : -2 ^ 63 ≤ value → value < 2 ^ 64 → Plain limit (.int value)
  | string {limit : Nat} (value : String) : Plain limit (.string value)
  | array {limit : Nat} {items : List JsonValue} : (∀ item ∈ items, Plain limit item) →
      Plain (limit + 1) (.array items)
  | object {limit : Nat} {members : List (String × JsonValue)} : (members.map Prod.fst).Nodup →
      (∀ member ∈ members, Plain limit member.2) → Plain (limit + 1) (.object members)

/-- A bound of all is a bound of the largest. -/
theorem foldr_max_le {lengths : List Nat} {bound : Nat} (h : ∀ length ∈ lengths, length ≤ bound) :
    lengths.foldr max 0 ≤ bound := by
  induction lengths with
  | nil => exact Nat.zero_le _
  | cons length rest ih =>
      obtain ⟨hlength, hrest⟩ := List.forall_mem_cons.mp h
      exact Nat.max_le.mpr ⟨hlength, ih hrest⟩

theorem le_foldr_max {lengths : List Nat} {length : Nat} (h : length ∈ lengths) :
    length ≤ lengths.foldr max 0 := by
  induction lengths with
  | nil => exact absurd h List.not_mem_nil
  | cons first rest ih =>
      rcases List.mem_cons.mp h with rfl | h
      · exact Nat.le_max_left _ _
      · exact (ih h).trans (Nat.le_max_right _ _)

/-- The items of an array are less deep. -/
theorem depth_item {items : List JsonValue} {limit : Nat} (h : (array items).depth < limit + 1) :
    ∀ item ∈ items, item.depth < limit := by
  intro item hitem
  have hle := le_foldr_max (List.mem_map_of_mem (f := depth) hitem)
  rw [depth_array] at h
  omega

/-- The members of an object are less deep. -/
theorem depth_member {members : List (String × JsonValue)} {limit : Nat}
    (h : (object members).depth < limit + 1) : ∀ member ∈ members, member.2.depth < limit := by
  intro member hmember
  have hle := le_foldr_max
    (List.mem_map_of_mem (f := fun member : String × JsonValue => member.2.depth) hmember)
  rw [depth_object] at h
  omega

section Plain

variable {limit : Nat} {j : JsonValue}

/-- A plain value is plain to any larger depth. -/
theorem Plain.mono {larger : Nat} (h : Plain limit j) (hle : limit ≤ larger) : Plain larger j := by
  induction h generalizing larger with
  | null => exact .null
  | bool value => exact .bool value
  | int hlower hupper => exact .int hlower hupper
  | string value => exact .string value
  | array _ ih =>
      obtain ⟨larger, rfl⟩ := Nat.exists_eq_add_of_lt hle
      exact .array fun item hitem => ih item hitem (by omega)
  | object hnames _ ih =>
      obtain ⟨larger, rfl⟩ := Nat.exists_eq_add_of_lt hle
      exact .object hnames fun member hmember => ih member hmember (by omega)

theorem Plain.depth_le (h : Plain limit j) : j.depth ≤ limit := by
  induction h with
  | null => exact Nat.zero_le _
  | bool value => exact Nat.zero_le _
  | int => exact Nat.zero_le _
  | string value => exact Nat.zero_le _
  | array _ ih =>
      rw [depth_array, Nat.add_comm]
      refine Nat.succ_le_succ (foldr_max_le fun length hlength => ?_)
      obtain ⟨item, hitem, rfl⟩ := List.mem_map.mp hlength
      exact ih item hitem
  | object _ _ ih =>
      rw [depth_object, Nat.add_comm]
      refine Nat.succ_le_succ (foldr_max_le fun length hlength => ?_)
      obtain ⟨member, hmember, rfl⟩ := List.mem_map.mp hlength
      exact ih member hmember

/-- A plain value is strict. -/
theorem Plain.strict (h : Plain limit j) (finite : String → Bool) : j.strict finite = true := by
  induction h with
  | null => rfl
  | bool value => rfl
  | int => rfl
  | string value => rfl
  | array _ ih => exact strict_array.mpr ih
  | object _ _ ih => exact strict_object.mpr ih

end Plain

/-! ### Compact text -/

/-- The UTF-8 length of a text. -/
def byteLength (text : List Char) : Nat := (text.map Char.utf8Size).sum

@[simp] theorem byteLength_nil : byteLength [] = 0 := rfl

@[simp] theorem byteLength_cons (c : Char) (text : List Char) :
    byteLength (c :: text) = c.utf8Size + byteLength text := by
  simp [byteLength]

@[simp] theorem byteLength_append (text rest : List Char) :
    byteLength (text ++ rest) = byteLength text + byteLength rest := by
  simp [byteLength]

/-- A hexadecimal digit, in lower case. -/
def hexDigit (n : Nat) : Char := if n < 10 then Char.ofNat (48 + n) else Char.ofNat (87 + n)

theorem mem_of_lookup {α β : Type} [BEq α] [LawfulBEq α] {entries : List (α × β)} {a : α} {b : β}
    (h : entries.lookup a = some b) : (a, b) ∈ entries := by
  obtain ⟨before, after, rfl, -⟩ := List.lookup_eq_some_iff.mp h
  exact List.mem_append_right _ List.mem_cons_self

/-- The characters that are escaped by a letter of their own. -/
def escapes : List (Char × Char) :=
  [('"', '"'), ('\\', '\\'), ('\x08', 'b'), ('\x0c', 'f'), ('\n', 'n'), ('\r', 'r'), ('\t', 't')]

/-- A character of a string, escaped where it has to be. -/
def escaped (c : Char) : List Char :=
  match escapes.lookup c with
  | some letter => ['\\', letter]
  | none =>
      if c.toNat < 32 then
        ['\\', 'u', '0', '0', hexDigit (c.toNat / 16), hexDigit (c.toNat % 16)]
      else [c]

/-- A string in its quotes. -/
def quoted (text : String) : List Char := '"' :: (text.toList.flatMap escaped ++ ['"'])

/-- An integer, in decimal. -/
def decimal : Int → List Char
  | .ofNat n => Nat.toDigits 10 n
  | .negSucc n => '-' :: Nat.toDigits 10 (n + 1)

/-- Commas between the parts. -/
def separated : List (List Char) → List Char
  | [] => []
  | [part] => part
  | part :: next :: rest => part ++ ',' :: separated (next :: rest)

/-- One member of an object. -/
def membered (member : String × List Char) : List Char := quoted member.1 ++ ':' :: member.2

/-- The compact text of a value; what no text denotes is left out. -/
def chars : JsonValue → List Char :=
  fold
    (fun
      | .null => ['n', 'u', 'l', 'l']
      | .bool true => ['t', 'r', 'u', 'e']
      | .bool false => ['f', 'a', 'l', 's', 'e']
      | .int value => decimal value
      | .float literal => literal.toList
      | .string value => quoted value
      | _ => [])
    (fun items => '[' :: (separated items ++ [']']))
    (fun members => '{' :: (separated (members.map membered) ++ ['}']))

/-- The text of an array. -/
theorem chars_array (items : List JsonValue) :
    chars (.array items) = '[' :: (separated (items.map chars) ++ [']']) :=
  fold_array _ _ _ items

/-- The text of an object. -/
theorem chars_object (members : List (String × JsonValue)) :
    chars (.object members) =
      '{' :: (separated (members.map fun member => membered (member.1, member.2.chars)) ++
        ['}']) := by
  rw [chars, fold_object, List.map_map]
  rfl

/-- `serde_json::to_string`. -/
def print (j : JsonValue) : String := String.ofList j.chars

/-! ### The value a text denotes -/

/-- The members of an object by name; of those of one name, the last. -/
def arrange {β : Type} : List (String × β) → List (String × β)
  | [] => []
  | member :: rest =>
      if member.1 ∈ (arrange rest).map Prod.fst then arrange rest
      else List.orderedInsert (fun a b => a.1 ≤ b.1) member (arrange rest)

/-- The value a text denotes. -/
def canonical : JsonValue → JsonValue := fold id .array fun members => .object (arrange members)

theorem canonical_array (items : List JsonValue) :
    canonical (.array items) = .array (items.map canonical) :=
  fold_array _ _ _ items

/-- The canonical form of an object: its members arranged. -/
theorem canonical_object (members : List (String × JsonValue)) :
    canonical (.object members) =
      .object (arrange (members.map fun member => (member.1, member.2.canonical))) :=
  fold_object _ _ _ members

section Arrange

variable {β : Type}

/-- Arranging adds no member. -/
theorem arrange_subperm (members : List (String × β)) : (arrange members).Subperm members := by
  induction members with
  | nil => exact List.Subperm.refl _
  | cons member rest ih =>
      rw [arrange]
      split
      · exact ih.trans (List.sublist_cons_self _ _).subperm
      · exact (List.perm_orderedInsert _ _ _).subperm_right.mpr ((List.subperm_cons member).mpr ih)

/-- Without repeated names arranging loses no member. -/
theorem arrange_perm {members : List (String × β)} (h : (members.map Prod.fst).Nodup) :
    (arrange members).Perm members := by
  induction members with
  | nil => exact .refl _
  | cons member rest ih =>
      obtain ⟨hfresh, hrest⟩ := List.nodup_cons.mp h
      have hperm := ih hrest
      rw [arrange, if_neg]
      · exact (List.perm_orderedInsert _ _ _).trans (hperm.cons member)
      · rwa [(hperm.map Prod.fst).mem_iff]

/-- Without repeated names a member is found under its name. -/
theorem lookup_of_mem {members : List (String × β)} (h : (members.map Prod.fst).Nodup)
    {name : String}
    {part : β} (hpart : (name, part) ∈ members) : members.lookup name = some part := by
  obtain ⟨before, after, rfl⟩ := List.mem_iff_append.mp hpart
  refine List.lookup_eq_some_iff.mpr ⟨before, after, rfl, fun member hmember => ?_⟩
  rw [List.map_append] at h
  rw [bne_iff_ne]
  exact ((List.nodup_append.mp h).2.2 _ (List.mem_map_of_mem hmember) _ List.mem_cons_self).symm

/-- Where no name comes twice, the order of the members says nothing. -/
theorem lookup_arrange {members : List (String × β)} (h : (members.map Prod.fst).Nodup)
    (name : String) : (arrange members).lookup name = members.lookup name := by
  have hperm := arrange_perm h
  cases hlookup : members.lookup name with
  | none =>
      rw [List.lookup_eq_none_iff] at hlookup ⊢
      exact fun member hmember => hlookup member (hperm.mem_iff.mp hmember)
  | some part =>
      refine lookup_of_mem ((hperm.map Prod.fst).nodup_iff.mpr h) ?_
      exact hperm.mem_iff.mpr (mem_of_lookup hlookup)

end Arrange

/-! ### Access -/

/-- A member of an object. -/
def get (name : String) : JsonValue → Option JsonValue
  | object members => members.lookup name
  | _ => none

/-- The number, if it is a natural one. -/
def asU64 : JsonValue → Option Nat
  | int (.ofNat n) => some n
  | _ => none

/-- The items, if it is an array. -/
def asArray : JsonValue → Option (List JsonValue)
  | array items => some items
  | _ => none

/-- A member of an object that has no name twice, in the value that a text denotes. -/
theorem get_canonical {members : List (String × JsonValue)} (h : (members.map Prod.fst).Nodup)
    (name : String) :
    get name (canonical (object members)) = (members.lookup name).map canonical := by
  have hnames : (members.map fun member => (member.1, member.2.canonical)).map Prod.fst =
      members.map Prod.fst := by
    rw [List.map_map]
    rfl
  rw [canonical_object, get, lookup_arrange (hnames ▸ h)]
  clear h hnames
  induction members with
  | nil => rfl
  | cons member rest ih =>
      rw [List.map_cons, List.lookup_cons, List.lookup_cons]
      by_cases heq : name = member.1
      · rw [beq_iff_eq.mpr heq]
        rfl
      · rw [beq_eq_false_iff_ne.mpr heq]
        exact ih

/-! ### Lengths -/

section Length

/-- The parts and the commas between them. -/
theorem byteLength_separated (parts : List (List Char)) :
    byteLength (separated parts) + (if parts = [] then 0 else 1) =
      (parts.map byteLength).sum + parts.length := by
  induction parts with
  | nil => rfl
  | cons part rest ih =>
      cases rest with
      | nil => simp [separated]
      | cons next rest =>
          have hcomma : (',' : Char).utf8Size = 1 := rfl
          simp only [separated, byteLength_append, byteLength_cons, List.map_cons, List.sum_cons,
            List.length_cons, hcomma, reduceCtorEq, if_false] at ih ⊢
          omega

theorem sum_le_of_sublist {parts others : List Nat} (h : parts.Sublist others) :
    parts.sum ≤ others.sum := by
  induction h with
  | slnil => exact Nat.le_refl _
  | cons a _ ih => simp only [List.sum_cons]; omega
  | cons_cons a _ ih => simp only [List.sum_cons]; omega

/-- Fewer parts are no longer. -/
theorem byteLength_separated_sublist {parts others : List (List Char)} (h : parts.Sublist others) :
    byteLength (separated parts) ≤ byteLength (separated others) := by
  have hparts := byteLength_separated parts
  have hothers := byteLength_separated others
  have hsum := sum_le_of_sublist (h.map byteLength)
  have hlength := h.length_le
  by_cases hempty : parts = []
  · subst hempty
    simp [separated]
  · have hfull : others ≠ [] := by
      rintro rfl
      exact hempty (List.sublist_nil.mp h)
    rw [if_neg hempty] at hparts
    rw [if_neg hfull] at hothers
    omega

/-- The order of the parts does not matter to the length. -/
theorem byteLength_separated_perm {parts others : List (List Char)} (h : parts.Perm others) :
    byteLength (separated parts) = byteLength (separated others) := by
  have hparts := byteLength_separated parts
  have hothers := byteLength_separated others
  have hsum := (h.map byteLength).sum_nat
  have hlength := h.length_eq
  by_cases hempty : parts = []
  · subst hempty
    rw [h.nil_eq]
  · have hfull : others ≠ [] := by
      rintro rfl
      exact hempty h.eq_nil
    rw [if_neg hempty] at hparts
    rw [if_neg hfull] at hothers
    omega

/-- Parts that are no longer, one by one, are no longer together. -/
theorem byteLength_separated_le {α : Type} {items : List α} {f g : α → List Char}
    (h : ∀ item ∈ items, byteLength (f item) ≤ byteLength (g item)) :
    byteLength (separated (items.map f)) ≤ byteLength (separated (items.map g)) := by
  have hf := byteLength_separated (items.map f)
  have hg := byteLength_separated (items.map g)
  have hsum : ((items.map f).map byteLength).sum ≤ ((items.map g).map byteLength).sum := by
    induction items with
    | nil => exact Nat.le_refl _
    | cons item rest ih =>
        obtain ⟨hitem, hrest⟩ := List.forall_mem_cons.mp h
        have := ih hrest (byteLength_separated _) (byteLength_separated _)
        simp only [List.map_cons, List.sum_cons]
        omega
  simp only [List.map_eq_nil_iff, List.length_map] at hf hg
  omega

theorem byteLength_membered (name : String) (text : List Char) :
    byteLength (membered (name, text)) = byteLength (quoted name) + 1 + byteLength text := by
  have hcolon : (':' : Char).utf8Size = 1 := rfl
  simp only [membered, byteLength_append, byteLength_cons, hcolon]
  omega

/-- An object is as long as before when its first member is. -/
theorem byteLength_object_head {name : String} {first other : JsonValue}
    (rest : List (String × JsonValue)) (h : byteLength first.chars = byteLength other.chars) :
    byteLength (object ((name, first) :: rest)).chars =
      byteLength (object ((name, other) :: rest)).chars := by
  have hmember := byteLength_membered name first.chars
  have hother := byteLength_membered name other.chars
  cases rest with
  | nil => simp [chars_object, separated, hmember, hother, h]
  | cons next rest => simp [chars_object, separated, hmember, hother, h]

/-- The text of an object, from the texts of its members. -/
def objectChars (members : List (String × JsonValue)) : List (List Char) :=
  members.map fun member => membered (member.1, member.2.chars)

/-- Arranging makes no object longer. -/
theorem byteLength_arrange_le (members : List (String × JsonValue)) :
    byteLength (separated (objectChars (arrange members))) ≤
      byteLength (separated (objectChars members)) := by
  obtain ⟨others, hperm, hsublist⟩ := arrange_subperm members
  rw [objectChars, ← byteLength_separated_perm (hperm.map _)]
  exact byteLength_separated_sublist (hsublist.map _)

/-- **A value is written no longer than with its repeated members.** -/
theorem byteLength_canonical_le (j : JsonValue) :
    byteLength j.canonical.chars ≤ byteLength j.chars := by
  induction j with
  | array items ih =>
      rw [canonical_array, chars_array, chars_array, List.map_map]
      have hitems := byteLength_separated_le ih
      simp only [byteLength_cons, byteLength_append]
      exact Nat.add_le_add_left (Nat.add_le_add_right hitems _) _
  | object members ih =>
      rw [canonical_object, chars_object, chars_object]
      have harranged := byteLength_arrange_le
        (members.map fun member => (member.1, member.2.canonical))
      have hmembers : byteLength (separated (members.map fun member =>
            membered (member.1, member.2.canonical.chars))) ≤
          byteLength (separated (members.map fun member =>
            membered (member.1, member.2.chars))) := by
        refine byteLength_separated_le fun member hmember => ?_
        rw [byteLength_membered, byteLength_membered]
        exact Nat.add_le_add_left (ih member hmember) _
      rw [objectChars, objectChars, List.map_map] at harranged
      simp only [byteLength_cons, byteLength_append]
      exact Nat.add_le_add_left (Nat.add_le_add_right (harranged.trans hmembers) _) _
  | _ => exact Nat.le_refl _

/-- What a serializer writes has no repeated members. -/
theorem Plain.byteLength_canonical {limit : Nat} {j : JsonValue} (h : Plain limit j) :
    byteLength j.canonical.chars = byteLength j.chars := by
  induction h with
  | array _ ih =>
      rw [canonical_array, chars_array, chars_array, List.map_map]
      have hitems := Nat.le_antisymm (byteLength_separated_le fun item hitem => (ih item hitem).le)
        (byteLength_separated_le fun item hitem => (ih item hitem).ge)
      simp only [byteLength_cons, byteLength_append]
      rw [← hitems]
      rfl
  | @object _ members hnames _ ih =>
      rw [canonical_object, chars_object, chars_object]
      have hperm : (arrange (members.map fun member => (member.1, member.2.canonical))).Perm
          (members.map fun member => (member.1, member.2.canonical)) := by
        refine arrange_perm ?_
        rw [List.map_map]
        exact hnames
      simp only [byteLength_cons, byteLength_append]
      rw [byteLength_separated_perm (hperm.map _), List.map_map]
      have hmembers : ∀ member ∈ members,
          byteLength (membered (member.1, member.2.canonical.chars)) =
            byteLength (membered (member.1, member.2.chars)) := by
        intro member hmember
        rw [byteLength_membered, byteLength_membered, ih member hmember]
      have hall := Nat.le_antisymm
        (byteLength_separated_le fun member hmember => (hmembers member hmember).le)
        (byteLength_separated_le fun member hmember => (hmembers member hmember).ge)
      rw [← hall]
      rfl
  | _ => rfl

end Length

end JsonValue

end DisksGraph.Support
