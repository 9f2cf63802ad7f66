import Mathlib.Data.List.AList

/-!
# Rewriting and counting the values of an association list

Mathlib's `AList` is a finite map as a list of entries with distinct keys. `filterMapVal` edits
every value in place and drops the entries for which the edit returns `none`: a loop that walks
a map, changes its values, and erases some of them as it goes. `entries_perm_erase` is for counts:
what erasing a key takes away is the entry of the key.
-/

namespace AList

variable {κ : Type*} {ν : κ → Type*}

/-- Edit every value, and drop the entries whose edit is `none`. -/
def filterMapVal (f : ∀ k, ν k → Option (ν k)) (m : AList ν) : AList ν where
  entries := m.entries.filterMap fun e => (f e.1 e.2).map (Sigma.mk e.1)
  nodupKeys := by
    have hsub : ∀ l : List (Sigma ν),
        ((l.filterMap fun e => (f e.1 e.2).map (Sigma.mk e.1)).map Sigma.fst).Sublist
          (l.map Sigma.fst) := by
      intro l
      induction l with
      | nil => exact .slnil
      | cons e l ih =>
        cases h : f e.1 e.2 with
        | none => simpa [List.filterMap_cons, h] using ih.cons e.1
        | some v => simpa [List.filterMap_cons, h] using ih
    exact (hsub m.entries).nodup m.nodupKeys

variable [DecidableEq κ]

/-- The edited map's value at a key is the edit of the map's value there. -/
@[simp] theorem lookup_filterMapVal (f : ∀ k, ν k → Option (ν k)) (m : AList ν) (k : κ) :
    (m.filterMapVal f).lookup k = (m.lookup k).bind (f k) := by
  ext v
  rw [← Option.mem_def, ← Option.mem_def, mem_lookup_iff, Option.mem_bind_iff]
  simp only [filterMapVal, List.mem_filterMap, Option.map_eq_some_iff]
  constructor
  · rintro ⟨⟨k', w⟩, hmem, v', hf, heq⟩
    obtain ⟨rfl, hv⟩ := Sigma.mk.inj_iff.mp heq
    obtain rfl := eq_of_heq hv
    exact ⟨w, mem_lookup_iff.mpr hmem, hf⟩
  · rintro ⟨w, hw, hf⟩
    exact ⟨⟨k, w⟩, mem_lookup_iff.mp hw, v, hf, rfl⟩

/-- An entry of the map is a key with the value that is looked up there. -/
theorem mem_entries_iff {m : AList ν} {k : κ} {v : ν k} :
    (⟨k, v⟩ : Sigma ν) ∈ m.entries ↔ m.lookup k = some v :=
  (mem_lookup_iff (s := m)).symm

/-- The entries of a map are the entry of one of its keys and those that are left without it. -/
theorem entries_perm_erase {m : AList ν} {k : κ} {v : ν k} (h : m.lookup k = some v) :
    m.entries.Perm (⟨k, v⟩ :: (m.erase k).entries) := by
  have hmem := mem_entries_iff.mpr h
  obtain ⟨w, l₁, l₂, -, hentries, herase⟩ :=
    List.exists_of_kerase (List.mem_keys_of_mem hmem)
  obtain rfl : v = w := by
    have hw : m.lookup k = some w := mem_entries_iff.mp (by simp [hentries])
    exact Option.some.inj (h.symm.trans hw)
  rw [hentries, show (m.erase k).entries = l₁ ++ l₂ from herase]
  exact List.perm_middle

/-- The keys of a map are one of them and those that are left without it. -/
theorem keys_perm_erase {m : AList ν} {k : κ} {v : ν k} (h : m.lookup k = some v) :
    m.keys.Perm (k :: (m.erase k).keys) :=
  (entries_perm_erase h).map Sigma.fst

/-- What the entries of a map contribute, when only the entry of one key contributes anything. -/
theorem flatMap_entries_of_key {β : Type*} {m : AList ν} {f : Sigma ν → List β} {k : κ}
    (h : ∀ e ∈ m.entries, e.1 ≠ k → f e = []) :
    m.entries.flatMap f = ((m.lookup k).map fun v => f ⟨k, v⟩).getD [] := by
  cases hk : m.lookup k with
  | none =>
    refine List.flatMap_eq_nil_iff.mpr fun e he => h e he ?_
    rintro rfl
    exact absurd (hk.symm.trans (mem_entries_iff.mp he)) (by simp)
  | some v =>
    obtain ⟨w, l₁, l₂, hl₁, hentries, -⟩ :=
      List.exists_of_kerase (List.mem_keys_of_mem (mem_entries_iff.mpr hk))
    obtain rfl : v = w := by
      have hw : m.lookup k = some w := mem_entries_iff.mp (by simp [hentries])
      exact Option.some.inj (hk.symm.trans hw)
    -- The key stands neither before nor after its entry.
    have hnodup := m.nodupKeys
    rw [hentries, List.nodupKeys_middle, List.nodupKeys_cons] at hnodup
    have hother : ∀ e ∈ l₁ ++ l₂, f e = [] := fun e he => by
      have hkey : e.1 ≠ k := fun heq => hnodup.1 (List.mem_map.mpr ⟨e, he, heq⟩)
      refine h e ?_ hkey
      rw [hentries]
      exact List.perm_middle.symm.subset (List.mem_cons_of_mem _ he)
    have hbefore : l₁.flatMap f = [] :=
      List.flatMap_eq_nil_iff.mpr fun e he => hother e (List.mem_append_left _ he)
    have hafter : l₂.flatMap f = [] :=
      List.flatMap_eq_nil_iff.mpr fun e he => hother e (List.mem_append_right _ he)
    rw [hentries, List.flatMap_append, List.flatMap_cons, hbefore, hafter]
    simp

/-- A map that looks up as another one filtered has the entries of the filter. -/
theorem entries_perm_filter {m m' : AList ν} {p : Sigma ν → Bool}
    (h : ∀ k, m'.lookup k = (m.lookup k).filter fun v => p ⟨k, v⟩) :
    m'.entries.Perm (m.entries.filter p) := by
  refine (List.perm_ext_iff_of_nodup m'.nodupKeys.nodup (m.nodupKeys.nodup.filter p)).mpr ?_
  rintro ⟨k, v⟩
  rw [mem_entries_iff, h, List.mem_filter, mem_entries_iff, Option.filter_eq_some_iff]

/-- Erasing a key that a map does not have leaves it as it is. -/
theorem erase_of_lookup_eq_none {m : AList ν} {k : κ} (h : m.lookup k = none) : m.erase k = m :=
  AList.ext (List.kerase_of_notMem_keys (lookup_eq_none.mp h))

/-- Writing a key that a map does not have adds it to the keys. -/
theorem keys_insert_of_lookup_eq_none {m : AList ν} {k : κ} (v : ν k) (h : m.lookup k = none) :
    (m.insert k v).keys = k :: m.keys := by
  rw [keys_insert, ← keys_erase, erase_of_lookup_eq_none h]

end AList
