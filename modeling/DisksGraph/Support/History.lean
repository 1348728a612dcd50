import Mathlib.Data.List.Basic
import Mathlib.Data.List.Infix

/-!
# Support — History

A value with an undo and a redo stack of bounded length, next to the timeline of the values it took.

A stack that is full drops its oldest entry, recording a value clears only the redo stack, and the
bound may change between any two operations.

* `Follows`: the stacks are what the timeline holds directly around its position.
* `Follows.record`, `Follows.back`, `Follows.forward`, `Follows.restrict`: every operation keeps it.
* `back_record`, `forward_back`: with room for one entry, going back undoes what was recorded and
  going forward undoes going back.
-/

namespace DisksGraph.Support

variable {α : Type*}

/-- A value with what it was before and what was undone, newest entries last. -/
structure History (α : Type*) where
  limit : Nat
  undo : List α
  current : α
  redo : List α

/-- Every value since the start, with the place of the current one. -/
structure Timeline (α : Type*) where
  entries : List α
  position : Nat

namespace Timeline

/-- The timeline of one value. -/
def start (value : α) : Timeline α := ⟨[value], 0⟩

/-- Truncates the timeline after its position and appends a value. -/
def record (timeline : Timeline α) (value : α) : Timeline α :=
  ⟨timeline.entries.take (timeline.position + 1) ++ [value], timeline.position + 1⟩

/-- One step back. -/
def back (timeline : Timeline α) : Timeline α :=
  { timeline with position := timeline.position - 1 }

/-- One step forward. -/
def forward (timeline : Timeline α) : Timeline α :=
  { timeline with position := timeline.position + 1 }

end Timeline

namespace History

/-- Appends an entry to a stack of at most `limit` entries, dropping the oldest one when it is
full. -/
def retain (limit : Nat) (stack : List α) (entry : α) : List α :=
  if limit = 0 then stack
  else (if limit ≤ stack.length then stack.drop 1 else stack) ++ [entry]

/-- A new value; what was undone is forgotten. -/
def record (history : History α) (value : α) : History α :=
  { history with
    undo := retain history.limit history.undo history.current
    current := value
    redo := [] }

/-- Undo: the last value before the current one comes back. -/
def back (history : History α) : Option (History α) :=
  history.undo.getLast?.map fun value =>
    { history with
      undo := history.undo.dropLast
      current := value
      redo := retain history.limit history.redo history.current }

/-- Redo: the value undone last comes back. -/
def forward (history : History α) : Option (History α) :=
  history.redo.getLast?.map fun value =>
    { history with
      redo := history.redo.dropLast
      current := value
      undo := retain history.limit history.undo history.current }

/-- Changes the bound; both stacks lose their oldest entries. -/
def restrict (history : History α) (limit : Nat) : History α :=
  { history with
    limit
    undo := history.undo.drop (history.undo.length - limit)
    redo := history.redo.drop (history.redo.length - limit) }

/-! ### Stacks -/

section Stack

variable {limit : Nat} {stack before : List α} {entry : α}

theorem length_retain (h : stack.length ≤ limit) : (retain limit stack entry).length ≤ limit := by
  unfold retain
  by_cases hzero : limit = 0
  · rwa [if_pos hzero]
  · rw [if_neg hzero]
    by_cases hfull : limit ≤ stack.length
    · rw [if_pos hfull, List.length_append, List.length_drop, List.length_singleton]
      omega
    · rw [if_neg hfull, List.length_append, List.length_singleton]
      omega

/-- What is retained is still the newest part of everything that was pushed. -/
theorem retain_suffix (h : stack.length ≤ limit) (hsuffix : stack <:+ before) :
    retain limit stack entry <:+ before ++ [entry] := by
  unfold retain
  by_cases hzero : limit = 0
  · rw [if_pos hzero, List.eq_nil_of_length_eq_zero (by omega : stack.length = 0)]
    exact List.nil_suffix
  · rw [if_neg hzero]
    have hkept : (if limit ≤ stack.length then stack.drop 1 else stack) <:+ before := by
      by_cases hfull : limit ≤ stack.length
      · rw [if_pos hfull]
        exact (List.drop_suffix 1 stack).trans hsuffix
      · rwa [if_neg hfull]
    obtain ⟨dropped, hdropped⟩ := hkept
    exact ⟨dropped, by rw [← hdropped, List.append_assoc]⟩

theorem getLast?_retain (h : 1 ≤ limit) : (retain limit stack entry).getLast? = some entry := by
  rw [retain, if_neg (by omega), List.getLast?_append, List.getLast?_singleton, Option.some_or]

end Stack

/-! ### The timeline -/

/-- The current value is the one at the position, and each stack is the run of values directly next
to it, as far as it reaches. -/
structure Follows (history : History α) (timeline : Timeline α) : Prop where
  current : timeline.entries[timeline.position]? = some history.current
  undo : history.undo <:+ timeline.entries.take timeline.position
  redo : history.redo.reverse <+: timeline.entries.drop (timeline.position + 1)
  undo_le : history.undo.length ≤ history.limit
  redo_le : history.redo.length ≤ history.limit

variable {history next : History α} {timeline : Timeline α}

/-- A timeline cut at its position. -/
theorem Follows.split (h : history.Follows timeline) : ∃ before after,
    timeline = ⟨before ++ history.current :: after, before.length⟩ ∧
      history.undo <:+ before ∧ history.redo.reverse <+: after := by
  obtain ⟨hlt, hcurrent⟩ := List.getElem?_eq_some_iff.mp h.current
  refine ⟨_, _, ?_, h.undo, h.redo⟩
  obtain ⟨entries, position⟩ := timeline
  rw [Timeline.mk.injEq]
  constructor
  · rw [← hcurrent, ← List.drop_eq_getElem_cons, List.take_append_drop]
  · rw [List.length_take, Nat.min_eq_left (Nat.le_of_lt hlt)]

/-- A history that is split at its current value follows its timeline. -/
theorem Follows.of_split {before after : List α}
    (htimeline : timeline = ⟨before ++ history.current :: after, before.length⟩)
    (hundo : history.undo <:+ before) (hredo : history.redo.reverse <+: after)
    (hundo_le : history.undo.length ≤ history.limit)
    (hredo_le : history.redo.length ≤ history.limit) : history.Follows timeline := by
  subst htimeline
  have htail : (before ++ history.current :: after).drop (before.length + 1) = after := by
    rw [← List.drop_drop, List.drop_left, List.drop_one, List.tail_cons]
  refine ⟨?_, ?_, ?_, hundo_le, hredo_le⟩
  · simp
  · simpa using hundo
  · simpa only [htail] using hredo

theorem Follows.start {limit : Nat} (value : α) :
    Follows ⟨limit, [], value, []⟩ (Timeline.start value) :=
  of_split rfl (List.suffix_refl []) (List.prefix_refl []) (Nat.zero_le _) (Nat.zero_le _)

/-- A recorded value follows on the timeline. -/
theorem Follows.record (h : history.Follows timeline) (value : α) :
    (history.record value).Follows (timeline.record value) := by
  obtain ⟨before, after, rfl, hundo, -⟩ := h.split
  refine of_split ?_ (retain_suffix h.undo_le hundo) (List.prefix_refl [])
    (length_retain h.undo_le) (Nat.zero_le _)
  have htake : (before ++ history.current :: after).take (before.length + 1) =
      before ++ [history.current] := by
    rw [List.take_length_add_append, List.take_succ_cons, List.take_zero]
  rw [Timeline.record, htake, List.length_append, List.length_singleton]
  rfl

/-- A step back follows the timeline back. -/
theorem Follows.back (h : history.Follows timeline) (hback : history.back = some next) :
    next.Follows timeline.back := by
  obtain ⟨before, after, rfl, hundo, hredo⟩ := h.split
  obtain ⟨value, hlast, rfl⟩ := Option.map_eq_some_iff.mp hback
  obtain ⟨older, holder⟩ := List.getLast?_eq_some_iff.mp hlast
  -- the value that becomes current was pushed last, so it stands directly before the position
  rw [holder] at hundo
  obtain ⟨dropped, rfl⟩ := hundo
  have hretained : retain history.limit history.redo history.current <:+
      after.reverse ++ [history.current] :=
    retain_suffix h.redo_le (List.reverse_prefix.mp (by rwa [List.reverse_reverse]))
  rw [← List.reverse_cons] at hretained
  have hredo' : (retain history.limit history.redo history.current).reverse <+:
      history.current :: after :=
    List.reverse_suffix.mp (by rwa [List.reverse_reverse])
  have hundo' : history.undo.dropLast <:+ dropped ++ older := by
    rw [holder, List.dropLast_concat]
    exact List.suffix_append _ _
  refine of_split ?_ hundo' hredo' ?_ (length_retain h.redo_le)
  · simp [Timeline.back]
  · exact (List.length_dropLast ▸ Nat.sub_le _ _ : history.undo.dropLast.length ≤ _).trans h.undo_le

/-- A step forward follows the timeline forward. -/
theorem Follows.forward (h : history.Follows timeline) (hforward : history.forward = some next) :
    next.Follows timeline.forward := by
  obtain ⟨before, after, rfl, hundo, hredo⟩ := h.split
  obtain ⟨value, hlast, rfl⟩ := Option.map_eq_some_iff.mp hforward
  obtain ⟨older, holder⟩ := List.getLast?_eq_some_iff.mp hlast
  -- reversed, the value undone last stands directly after the position
  rw [holder, List.reverse_append] at hredo
  obtain ⟨rest, rfl⟩ := hredo
  have hredo' : history.redo.dropLast.reverse <+: older.reverse ++ rest := by
    rw [holder, List.dropLast_concat]
    exact List.prefix_append _ _
  refine of_split ?_ (retain_suffix h.undo_le hundo) hredo' (length_retain h.undo_le) ?_
  · simp [Timeline.forward]
  · exact (List.length_dropLast ▸ Nat.sub_le _ _ : history.redo.dropLast.length ≤ _).trans h.redo_le

/-- A smaller limit forgets, and still follows. -/
theorem Follows.restrict (h : history.Follows timeline) (limit : Nat) :
    (history.restrict limit).Follows timeline where
  current := h.current
  undo := (List.drop_suffix _ _).trans h.undo
  redo := (List.reverse_prefix.mpr (List.drop_suffix _ _)).trans h.redo
  undo_le := by
    change (history.undo.drop _).length ≤ limit
    rw [List.length_drop]
    omega
  redo_le := by
    change (history.redo.drop _).length ≤ limit
    rw [List.length_drop]
    omega

/-! ### Going back and forward again -/

/-- With room for one entry, going back restores the value a new one was recorded over. -/
theorem back_record (h : 1 ≤ history.limit) (value : α) :
    ∃ next, (history.record value).back = some next ∧ next.current = history.current :=
  ⟨_, Option.map_eq_some_iff.mpr ⟨_, getLast?_retain h, rfl⟩, rfl⟩

/-- With room for one entry, going forward restores the value that was gone back from. -/
theorem forward_back (h : 1 ≤ history.limit) (hback : history.back = some next) :
    ∃ last, next.forward = some last ∧ last.current = history.current := by
  obtain ⟨value, -, rfl⟩ := Option.map_eq_some_iff.mp hback
  exact ⟨_, Option.map_eq_some_iff.mpr ⟨_, getLast?_retain h, rfl⟩, rfl⟩

end History

end DisksGraph.Support
