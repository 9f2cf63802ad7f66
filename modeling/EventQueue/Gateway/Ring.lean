import EventQueue.Lib.InsertionOrder
import Mathlib.Data.List.DropRight

/-!
# The ring of recent identifiers

The idempotency check of `WsServer` in `gateway/src/wsServer.js`: a set of identifiers, and a ring
that keeps them in the order in which they were accepted, so that the oldest can be taken out of the
set when the ring is full. The array has holes where nothing was written yet. An identifier is a
`BigInt` here and its decimal text in the source.

`Window` ties a ring to the identifiers that were accepted: its set is the last of them, as many as
the ring has room for. `Window.accept` is the step, and `Window.has_iff` what the check decides.
-/

namespace EventQueue.Gateway

/-- The number of identifiers that the ring has room for. -/
def RING_SIZE : ℕ := 50000

/-- The fields of `WsServer` for the idempotency check. -/
structure Ring where
  /-- The identifiers that are recent. -/
  recentMsgIds : OrderedSet UInt64
  /-- The identifiers by the cell that they were written to. -/
  recentMsgIdRing : ℕ → Option UInt64
  /-- The cell that is written next. -/
  ringIndex : ℕ
  /-- The number of cells that are in use. -/
  ringCount : ℕ

namespace Ring

/-- The ring at first. -/
def empty : Ring := ⟨OrderedSet.empty, fun _ => none, 0, 0⟩

/-- The set before an identifier is added: without the oldest one when the ring is full. -/
def evict (ringSize : ℕ) (r : Ring) : OrderedSet UInt64 :=
  if r.ringCount = ringSize then
    match r.recentMsgIdRing r.ringIndex with
    | some oldest => r.recentMsgIds.delete oldest
    | none => r.recentMsgIds
  else r.recentMsgIds

/-- What `#dispatchEvent` does to the ring when it accepts an identifier. -/
def accept (ringSize : ℕ) (r : Ring) (id : UInt64) : Ring where
  recentMsgIds := (r.evict ringSize).add id
  recentMsgIdRing := Function.update r.recentMsgIdRing r.ringIndex (some id)
  ringIndex := (r.ringIndex + 1) % ringSize
  ringCount := if r.ringCount = ringSize then r.ringCount else r.ringCount + 1

/-- A ring that has accepted `ids`, oldest first. -/
structure Window (ringSize : ℕ) (ids : List UInt64) (r : Ring) : Prop where
  /-- The cells in use. -/
  count : r.ringCount = min ringSize ids.length
  /-- The cells are written in turn. -/
  index : r.ringIndex = ids.length % ringSize
  /-- The last identifiers are in their cells. -/
  cell : ∀ i, i < ids.length → ids.length ≤ i + ringSize →
    r.recentMsgIdRing (i % ringSize) = ids[i]?
  /-- The set holds the last identifiers. -/
  mem : ∀ id, id ∈ r.recentMsgIds.elems ↔ id ∈ ids.rtake ringSize
  /-- The last identifiers are pairwise distinct. -/
  nodup : (ids.rtake ringSize).Nodup

variable {ringSize : ℕ} {ids : List UInt64} {r : Ring} {id : UInt64}

/-- The ring at first has accepted nothing. -/
theorem window_empty (ringSize : ℕ) : Window ringSize [] empty where
  count := by simp [empty]
  index := by simp [empty]
  cell i hi := absurd hi (by simp)
  mem id := by simp [empty, List.rtake]
  nodup := by simp [List.rtake]

/-- What the check decides. -/
theorem Window.has_iff (h : Window ringSize ids r) :
    r.recentMsgIds.has id = true ↔ id ∈ ids.rtake ringSize := by
  rw [OrderedSet.has_eq_true, h.mem]

/-- The last identifiers, when the ring is not full: all of them. -/
theorem rtake_of_le (h : ids.length ≤ ringSize) : ids.rtake ringSize = ids := by
  simp [List.rtake, h]

/-- The last identifiers when the ring is full: the one in the next cell, and the others. -/
theorem Window.rtake_of_full (h : Window ringSize ids r) (hpos : 0 < ringSize)
    (hfull : ringSize ≤ ids.length) :
    ∃ oldest, r.recentMsgIdRing r.ringIndex = some oldest ∧
      ids.rtake ringSize = oldest :: ids.rtake (ringSize - 1) := by
  have hlt : ids.length - ringSize < ids.length := by omega
  refine ⟨ids[ids.length - ringSize], ?_, ?_⟩
  · have hcell := h.cell (ids.length - ringSize) hlt (by omega)
    rw [h.index, Nat.mod_eq_sub_mod hfull, hcell, List.getElem?_eq_getElem hlt]
  · rw [List.rtake, List.rtake, List.drop_eq_getElem_cons hlt]
    congr 2
    omega

/-- The last identifiers after one was accepted. -/
theorem rtake_concat (hpos : 0 < ringSize) (ids : List UInt64) (id : UInt64) :
    (ids ++ [id]).rtake ringSize = ids.rtake (ringSize - 1) ++ [id] := by
  obtain ⟨n, rfl⟩ : ∃ n, ringSize = n + 1 := ⟨ringSize - 1, by omega⟩
  simp only [List.rtake_concat_succ, Nat.add_sub_cancel]

/-- The set before an identifier is added: the last identifiers but the one that falls out. -/
theorem Window.mem_evict (h : Window ringSize ids r) (hpos : 0 < ringSize) (id : UInt64) :
    id ∈ (r.evict ringSize).elems ↔ id ∈ ids.rtake (ringSize - 1) := by
  by_cases hfull : ringSize ≤ ids.length
  · obtain ⟨oldest, hcell, htake⟩ := h.rtake_of_full hpos hfull
    have hcount : r.ringCount = ringSize := by rw [h.count]; omega
    have hnodup := h.nodup
    rw [htake, List.nodup_cons] at hnodup
    rw [evict, if_pos hcount, hcell]
    simp only [OrderedSet.mem_elems_delete, h.mem, htake, List.mem_cons]
    constructor
    · rintro ⟨heq | hmem, hne⟩
      · exact absurd heq hne
      · exact hmem
    · exact fun hmem => ⟨.inr hmem, fun heq => hnodup.1 (heq ▸ hmem)⟩
  · have hcount : r.ringCount ≠ ringSize := by rw [h.count]; omega
    rw [evict, if_neg hcount, h.mem, rtake_of_le (by omega), rtake_of_le (by omega)]

/-- The cells after an identifier was accepted. -/
theorem Window.cell_accept (h : Window ringSize ids r) (id : UInt64) {i : ℕ}
    (hi : i < (ids ++ [id]).length) (hlast : (ids ++ [id]).length ≤ i + ringSize) :
    (r.accept ringSize id).recentMsgIdRing (i % ringSize) = (ids ++ [id])[i]? := by
  simp only [List.length_append, List.length_singleton] at hi hlast
  simp only [accept, h.index]
  by_cases heq : i = ids.length
  · subst heq
    simp
  · -- another cell: two of the last `ringSize` positions never share one
    have hcells : i % ringSize ≠ ids.length % ringSize := by
      intro hmod
      have hdvd : ringSize ∣ ids.length - i :=
        Nat.dvd_of_mod_eq_zero (Nat.sub_mod_eq_zero_of_mod_eq hmod.symm)
      have hle := Nat.le_of_dvd (by omega) hdvd
      omega
    rw [Function.update_of_ne hcells, h.cell i (by omega) (by omega),
      List.getElem?_append_left (by omega)]

/-- A ring that accepts an identifier that is not recent. -/
theorem Window.accept (h : Window ringSize ids r) (hpos : 0 < ringSize)
    (hid : r.recentMsgIds.has id = false) :
    Window ringSize (ids ++ [id]) (r.accept ringSize id) where
  count := by
    simp only [Ring.accept, h.count, List.length_append, List.length_singleton]
    split_ifs <;> omega
  index := by
    simp only [Ring.accept, h.index, List.length_append, List.length_singleton]
    exact Nat.mod_add_mod _ _ _
  cell _ hi hlast := h.cell_accept id hi hlast
  mem id' := by
    simp only [Ring.accept, OrderedSet.mem_elems_add, h.mem_evict hpos, rtake_concat hpos,
      List.mem_append, List.mem_singleton]
  nodup := by
    -- It is new, and the others are among those that were recent.
    have hnew : id ∉ ids.rtake ringSize := fun hmem => by
      rw [h.has_iff.mpr hmem] at hid
      cases hid
    have hsuffix : ids.rtake (ringSize - 1) <:+ ids.rtake ringSize := by
      have hdrop : ids.rtake (ringSize - 1) =
          (ids.rtake ringSize).drop ((ids.length - (ringSize - 1)) - (ids.length - ringSize)) := by
        rw [List.rtake, List.rtake, List.drop_drop]
        congr 1
        omega
      rw [hdrop]
      exact List.drop_suffix _ _
    rw [rtake_concat hpos]
    exact List.nodup_append'.mpr ⟨h.nodup.sublist hsuffix.sublist, List.nodup_singleton _,
      List.disjoint_singleton.mpr fun hmem => hnew (hsuffix.subset hmem)⟩

end Ring

end EventQueue.Gateway
