import EventQueue.Lib.AssocMap

/-!
# Maps and sets in insertion order

A map that is iterated in the order in which its keys were first inserted: `AList.set` gives a key
that is there its new value in place, and puts a new key at the end. `OrderedSet` is a set with the
same order of iteration.
-/

namespace AList

variable {κ ν : Type*} [DecidableEq κ]

/-- Set the value of a key, in its place or at the end. -/
def set (m : AList fun _ : κ => ν) (k : κ) (v : ν) : AList fun _ : κ => ν :=
  if k ∈ m then m.filterMapVal fun k' v' => some (if k' = k then v else v')
  else m ∪ AList.singleton k v

/-- The value of a key after one was set. -/
theorem lookup_set (m : AList fun _ : κ => ν) (k k' : κ) (v : ν) :
    (m.set k v).lookup k' = if k' = k then some v else m.lookup k' := by
  unfold set
  split_ifs with hmem heq heq
  · subst heq
    obtain ⟨w, hw⟩ := Option.isSome_iff_exists.mp (lookup_isSome.mpr hmem)
    simp [hw]
  · cases h : m.lookup k' <;> simp [h, heq]
  · subst heq
    rw [lookup_union_right hmem]
    exact List.dlookup_cons_eq _ _ _
  · by_cases hk' : k' ∈ m
    · exact lookup_union_left hk'
    · rw [lookup_union_right hk', lookup_eq_none.mpr hk']
      exact List.dlookup_cons_ne _ _ heq

/-- The value of a key after one was erased. -/
theorem lookup_erase_eq (m : AList fun _ : κ => ν) (k k' : κ) :
    (m.erase k).lookup k' = if k' = k then none else m.lookup k' := by
  split_ifs with heq
  · rw [heq]
    exact lookup_erase k m
  · exact lookup_erase_ne heq

end AList

/-- A set that is iterated in the order of insertion. -/
structure OrderedSet (α : Type*) where
  /-- The elements, oldest first. -/
  elems : List α
  /-- An element is there once. -/
  nodup : elems.Nodup
deriving DecidableEq

namespace OrderedSet

/-- The set without elements. -/
def empty {α : Type*} : OrderedSet α := ⟨[], List.nodup_nil⟩

@[simp] theorem elems_empty {α : Type*} : (empty : OrderedSet α).elems = [] := rfl

variable {α : Type*} [DecidableEq α] {s : OrderedSet α} {x y : α}

/-- Whether an element is there. -/
def has (s : OrderedSet α) (x : α) : Bool := x ∈ s.elems

/-- Add an element, at the end if it is new. -/
def add (s : OrderedSet α) (x : α) : OrderedSet α :=
  if h : x ∈ s.elems then s
  else ⟨s.elems ++ [x], List.nodup_append'.mpr
    ⟨s.nodup, List.nodup_singleton _, List.disjoint_singleton.mpr h⟩⟩

/-- Remove an element. -/
def delete (s : OrderedSet α) (x : α) : OrderedSet α := ⟨s.elems.erase x, s.nodup.erase x⟩

@[simp] theorem has_eq_true : s.has x = true ↔ x ∈ s.elems := by simp [has]

@[simp] theorem mem_elems_add : y ∈ (s.add x).elems ↔ y ∈ s.elems ∨ y = x := by
  unfold add
  split_ifs with h
  · exact ⟨.inl, fun hy => hy.elim id fun hyx => hyx ▸ h⟩
  · simp

@[simp] theorem mem_elems_delete : y ∈ (s.delete x).elems ↔ y ∈ s.elems ∧ y ≠ x := by
  rw [delete, s.nodup.mem_erase_iff, and_comm]

end OrderedSet
