import Mathlib.Data.List.Perm.Basic
import Mathlib.Data.List.Induction

/-!
# The items of a history

Some events of a history open an item, and an event may end items that were opened before it.
`alive` are the items that no later event has ended, and `ended` the others, each with the first
event that has ended it. Both look at the whole history. A system that keeps its items one event at
a time keeps the same ones (`alive_of_steps`), and what it puts out for the items that an event ends
is, over the whole history, what is due for `ended` (`outputs_of_steps`).
-/

namespace Lifetime

variable {α ι β σ : Type*} (opens : α → Option ι) (ends : ι → α → Bool)

/-- The items of a history in the order they were opened, each with what has ended it. -/
def items : List α → List (ι × Option α)
  | [] => []
  | a :: as => ((opens a).toList.map fun i => (i, as.find? (ends i))) ++ items as

/-- The items that nothing has ended. -/
def alive (as : List α) : List ι :=
  (items opens ends as).filterMap fun x => if x.2.isNone then some x.1 else none

/-- The items that were ended, each with the event. -/
def ended (as : List α) : List (ι × α) :=
  (items opens ends as).filterMap fun x => x.2.map (Prod.mk x.1)

/-! ## One more event -/

/-- An event ends items that nothing has ended before, and opens one of its own. -/
theorem items_concat (as : List α) (a : α) :
    items opens ends (as ++ [a]) =
      (items opens ends as).map (fun x => (x.1, x.2.or (Option.guard (ends x.1) a))) ++
        (opens a).toList.map fun i => (i, none) := by
  induction as with
  | nil => simp [items]
  | cons b as ih =>
    rw [List.cons_append, items, ih, items, List.map_append, List.append_assoc, List.map_map]
    refine congrArg (· ++ _) (List.map_congr_left fun i _ => ?_)
    rw [List.find?_append, Function.comp_apply, List.find?_singleton]
    rfl

theorem alive_concat (as : List α) (a : α) :
    alive opens ends (as ++ [a]) =
      (alive opens ends as).filter (fun i => !ends i a) ++ (opens a).toList := by
  unfold alive
  rw [items_concat, List.filterMap_append, List.filterMap_map, List.filter_filterMap]
  congr 1
  · refine List.filterMap_congr fun x _ => ?_
    obtain ⟨i, e⟩ := x
    cases e with
    | none => cases h : ends i a <;> simp [Option.guard, Option.filter, h]
    | some b => rfl
  · cases opens a <;> rfl

theorem ended_concat (as : List α) (a : α) :
    (ended opens ends (as ++ [a])).Perm
      (ended opens ends as ++ ((alive opens ends as).filter (ends · a)).map fun i => (i, a)) := by
  have hlast : ((opens a).toList.map fun i => ((i, none) : ι × Option α)).filterMap
      (fun x => x.2.map (Prod.mk x.1)) = [] := by
    cases opens a <;> rfl
  unfold ended alive
  rw [items_concat, List.filterMap_append, hlast, List.append_nil]
  induction items opens ends as with
  | nil => exact List.Perm.refl _
  | cons x xs ih =>
    obtain ⟨i, e⟩ := x
    cases e with
    | none =>
      -- An item that was alive stays alive, or has moved from the one list to the other.
      cases h : ends i a with
      | false => simpa [Option.guard, h] using ih
      | true =>
        simp only [List.map_cons, Option.or, Option.guard, h, if_true, List.filterMap_cons,
          Option.map_some, Option.map_none, Option.isNone_none, List.filter_cons] at ih ⊢
        exact (ih.cons _).trans List.perm_middle.symm
    | some b =>
      simp only [List.map_cons, Option.or, List.filterMap_cons, Option.map_some,
        Option.isNone_some, Bool.false_eq_true, if_false, List.cons_append] at ih ⊢
      exact ih.cons _

/-! ## A system that keeps the items -/

section Steps

variable {opens ends} {step : σ → α → σ} {s₀ : σ} {I : σ → Prop}

/-- What holds at first and after every event holds after a history. -/
theorem invariant_foldl (h₀ : I s₀) (hstep : ∀ s a, I s → I (step s a)) (as : List α) :
    I (as.foldl step s₀) := by
  induction as using List.reverseRecOn with
  | nil => exact h₀
  | append_singleton as a ih =>
    rw [List.foldl_concat]
    exact hstep _ a ih

/-- A system that drops what an event ends and takes in what it opens keeps the items that are
alive. -/
theorem alive_of_steps (kept : σ → List ι) (h₀ : I s₀)
    (hstep : ∀ s a, I s → I (step s a)) (hnil : kept s₀ = [])
    (hkept : ∀ s a, I s → (kept (step s a)).Perm
      ((kept s).filter (fun i => !ends i a) ++ (opens a).toList)) (as : List α) :
    (kept (as.foldl step s₀)).Perm (alive opens ends as) := by
  induction as using List.reverseRecOn with
  | nil =>
    rw [List.foldl_nil, hnil]
    exact List.Perm.refl _
  | append_singleton as a ih =>
    rw [List.foldl_concat, alive_concat]
    refine (hkept _ a (invariant_foldl h₀ hstep as)).trans ?_
    exact (ih.filter _).append_right _

/-- What a system has put out after a history. -/
def outputs (step : σ → α → σ) (out : σ → α → List β) (s₀ : σ) : List α → List β
  | [] => []
  | a :: as => out s₀ a ++ outputs step out (step s₀ a) as

theorem outputs_concat (step : σ → α → σ) (out : σ → α → List β) (s₀ : σ) (as : List α) (a : α) :
    outputs step out s₀ (as ++ [a]) = outputs step out s₀ as ++ out (as.foldl step s₀) a := by
  induction as generalizing s₀ with
  | nil => simp [outputs]
  | cons b as ih =>
    rw [List.cons_append, outputs, ih, outputs, List.append_assoc, List.foldl_cons]

/-- A system that also puts something out for what an event ends has put it out for all that was
ended. -/
theorem outputs_of_steps (kept : σ → List ι) {out : σ → α → List β} {due : ι × α → Option β}
    (h₀ : I s₀) (hstep : ∀ s a, I s → I (step s a)) (hnil : kept s₀ = [])
    (hkept : ∀ s a, I s → (kept (step s a)).Perm
      ((kept s).filter (fun i => !ends i a) ++ (opens a).toList))
    (hout : ∀ s a, I s →
      (out s a).Perm (((kept s).filter (ends · a)).filterMap fun i => due (i, a)))
    (as : List α) :
    (outputs step out s₀ as).Perm ((ended opens ends as).filterMap due) := by
  induction as using List.reverseRecOn with
  | nil => exact List.Perm.refl _
  | append_singleton as a ih =>
    have hlast : (out (as.foldl step s₀) a).Perm
        (((alive opens ends as).filter (ends · a)).filterMap fun i => due (i, a)) :=
      (hout _ a (invariant_foldl h₀ hstep as)).trans
        (((alive_of_steps kept h₀ hstep hnil hkept as).filter _).filterMap _)
    have hended := (ended_concat opens ends as a).filterMap due
    rw [List.filterMap_append, List.filterMap_map] at hended
    rw [outputs_concat]
    exact (ih.append hlast).trans hended.symm

end Steps

end Lifetime
