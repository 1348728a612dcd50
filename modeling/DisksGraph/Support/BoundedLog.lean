import Mathlib.Data.List.Basic
import Mathlib.Data.List.Infix

/-!
# Support — Bounded log

A queue of at most `capacity` entries that drops its oldest entry when it is full, next to the full
history of what was pushed.

* `Suffix.push`: the queue stays the last `capacity` entries of its history.
* `Numbered`: the entries of a history are numbered from one; the numbers a queue still has are
  contiguous and end at the length of the history.
-/

namespace DisksGraph.Support

variable {α : Type*}

/-- Appends an entry, dropping the oldest one of a full queue. -/
def pushBounded (capacity : Nat) (log : List α) (entry : α) : List α :=
  (if log.length = capacity then log.tail else log) ++ [entry]

/-- The queue is the last `capacity` entries of the history. -/
def Retains (capacity : Nat) (log history : List α) : Prop :=
  log = history.drop (history.length - capacity)

theorem Retains.nil (capacity : Nat) : Retains capacity ([] : List α) [] :=
  List.drop_nil.symm

/-- What is retained is the end of the history. -/
theorem Retains.suffix {capacity : Nat} {log history : List α} (h : Retains capacity log history) :
    log <:+ history :=
  h ▸ List.drop_suffix _ _

theorem Retains.length_le {capacity : Nat} {log history : List α}
    (h : Retains capacity log history) : log.length ≤ capacity := by
  rw [h, List.length_drop]
  omega

/-- Pushing onto the queue pushes onto the history. -/
theorem Retains.push {capacity : Nat} {log history : List α} (hpos : 0 < capacity)
    (h : Retains capacity log history) (entry : α) :
    Retains capacity (pushBounded capacity log entry) (history ++ [entry]) := by
  have hlength : log.length = history.length - (history.length - capacity) := by
    rw [h, List.length_drop]
  rw [Retains, pushBounded, List.length_append, List.length_singleton,
    List.drop_append_of_le_length (by omega)]
  congr 1
  by_cases hfull : log.length = capacity
  · rw [if_pos hfull, h, List.tail_drop]
    congr 1
    omega
  · rw [if_neg hfull, h]
    congr 1
    omega

/-- The entries of a history are numbered `1, 2, …`. -/
def Numbered (number : α → Nat) (history : List α) : Prop :=
  history.map number = List.range' 1 history.length

theorem Numbered.nil (number : α → Nat) : Numbered number ([] : List α) := rfl

/-- The next entry has the next number. -/
theorem Numbered.snoc {number : α → Nat} {history : List α} (h : Numbered number history)
    {entry : α} (he : number entry = history.length + 1) :
    Numbered number (history ++ [entry]) := by
  rw [Numbered, List.map_append, h, List.map_singleton, he, List.length_append,
    List.length_singleton, List.range'_concat]
  congr 2
  omega

/-- The number of an entry is one more than its position. -/
theorem Numbered.getElem {number : α → Nat} {history : List α} (h : Numbered number history)
    {i : Nat} {entry : α} (hi : history[i]? = some entry) : number entry = i + 1 := by
  have hlt : i < history.length := (List.getElem?_eq_some_iff.mp hi).1
  have hmap : (history.map number)[i]? = some (number entry) := by
    rw [List.getElem?_map, hi, Option.map_some]
  rw [h, List.getElem?_range' hlt, Option.some_inj] at hmap
  omega

/-- The entries numbered above a cursor, in a part of the history. -/
theorem Numbered.filter_drop {number : α → Nat} {history : List α} (h : Numbered number history)
    (dropped since : Nat) :
    (history.drop dropped).filter (fun entry => number entry > since) =
      history.drop (max dropped since) := by
  have hsplit : history.drop dropped = (history.drop dropped).take (since - dropped) ++
      history.drop (max dropped since) := by
    conv_lhs => rw [← List.take_append_drop (since - dropped) (history.drop dropped)]
    rw [List.drop_drop]
    congr 2
    omega
  have hbelow : ((history.drop dropped).take (since - dropped)).filter
      (fun entry => number entry > since) = [] := by
    rw [List.filter_eq_nil_iff]
    intro entry hm
    obtain ⟨i, hi⟩ := List.mem_iff_getElem?.mp hm
    rw [List.getElem?_take] at hi
    split at hi
    next hlt =>
      rw [List.getElem?_drop] at hi
      have hn := h.getElem hi
      simp only [decide_eq_true_eq]
      omega
    next => cases hi
  have habove : (history.drop (max dropped since)).filter (fun entry => number entry > since) =
      history.drop (max dropped since) := by
    rw [List.filter_eq_self]
    intro entry hm
    obtain ⟨i, hi⟩ := List.mem_iff_getElem?.mp hm
    rw [List.getElem?_drop] at hi
    have hn := h.getElem hi
    simp only [decide_eq_true_eq]
    omega
  rw [hsplit, List.filter_append, hbelow, habove, List.nil_append]

/-- The end of a numbered history has contiguous numbers, up to the last one. -/
theorem Numbered.suffix {number : α → Nat} {log history : List α} (h : Numbered number history)
    (hlog : log <:+ history) :
    log.map number = List.range' (history.length - log.length + 1) log.length := by
  obtain ⟨earlier, rfl⟩ := hlog
  rw [Numbered, List.map_append, List.length_append, List.range'_append_1.symm] at h
  rw [(List.append_inj h (by simp)).2, List.length_append, Nat.add_sub_cancel, Nat.add_comm]

/-- A queue over a numbered history has contiguous numbers, ending with the last one. -/
theorem Numbered.retained {number : α → Nat} {capacity : Nat} {log history : List α}
    (h : Numbered number history) (hlog : Retains capacity log history) :
    log.map number = List.range' (history.length - log.length + 1) log.length :=
  h.suffix hlog.suffix

/-- An entry above a cursor has left the queue exactly when the cursor is below what was dropped. -/
theorem Numbered.evicted {number : α → Nat} {capacity : Nat} {log history : List α}
    (h : Numbered number history) (hlog : Retains capacity log history) (since : Nat) :
    (∃ entry ∈ history, since < number entry ∧ entry ∉ log) ↔
      since < history.length - log.length := by
  have hlength : log.length = history.length - (history.length - capacity) := by
    rw [hlog, List.length_drop]
  constructor
  · rintro ⟨entry, hentry, hsince, hout⟩
    obtain ⟨i, hi⟩ := List.mem_iff_getElem?.mp hentry
    have hn := h.getElem hi
    by_contra hle
    refine hout (hlog ▸ List.mem_iff_getElem?.mpr ⟨i - (history.length - capacity), ?_⟩)
    rw [List.getElem?_drop, show history.length - capacity + (i - (history.length - capacity)) = i
      by omega]
    exact hi
  · intro hlt
    obtain ⟨entry, hentry⟩ : ∃ entry, history[since]? = some entry :=
      ⟨_, List.getElem?_eq_getElem (by omega)⟩
    refine ⟨entry, List.mem_of_getElem? hentry, by rw [h.getElem hentry]; omega, fun hin => ?_⟩
    -- Its number would be one of those the queue still has.
    have hmem := List.mem_map_of_mem (f := number) hin
    rw [h.retained hlog, List.mem_range'_1, h.getElem hentry] at hmem
    omega

end DisksGraph.Support
