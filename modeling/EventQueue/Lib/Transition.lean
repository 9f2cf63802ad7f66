import Mathlib.Data.List.Basic

/-!
# Runs of a deterministic transition system

A system is a partial step function `step : σ → α → Option σ`: `none` is an action that is not
enabled in the state, such as a push on a full queue. `exec` runs a list of actions. `Run` is the
same as a relation, with a guard on every step: the condition `ok s a` holds of the state before
the step and of the action taken there. The guard is how a theorem says "in every run whose steps
all meet this condition", and `Run.invariant` is the induction that such a theorem rests on.
`observed` is what an observer of the steps notes down along an execution, and `exec_simulated` the
rule for a system that follows another one.
-/

namespace Transition

variable {σ α : Type*}

/-- The state that a list of actions leads to, or `none` when one of them is not enabled. -/
def exec (step : σ → α → Option σ) : σ → List α → Option σ
  | s, [] => some s
  | s, a :: as => (step s a).bind fun t => exec step t as

/-- A run whose steps all meet `ok`, from its first state, through its actions, to its last. -/
inductive Run (step : σ → α → Option σ) (ok : σ → α → Prop) : σ → List α → σ → Prop
  /-- The run of no actions. -/
  | nil (s : σ) : Run step ok s [] s
  /-- One more action at the end of a run. -/
  | snoc {s t u : σ} {as : List α} {a : α} :
      Run step ok s as t → ok t a → step t a = some u → Run step ok s (as ++ [a]) u

variable {step : σ → α → Option σ} {ok ok' : σ → α → Prop} {s t u : σ} {a : α} {as bs : List α}

/-- A property that every guarded step preserves holds at the end of a run that starts with it. -/
theorem Run.invariant {I : σ → Prop}
    (hstep : ∀ s a t, I s → ok s a → step s a = some t → I t)
    (hrun : Run step ok s as t) (hs : I s) : I t := by
  induction hrun with
  | nil => exact hs
  | snoc _ hok h ih => exact hstep _ _ _ ih hok h

/-- A weaker guard admits the run as well. -/
theorem Run.mono (himp : ∀ s a, ok s a → ok' s a) (hrun : Run step ok s as t) :
    Run step ok' s as t := by
  induction hrun with
  | nil => exact .nil _
  | snoc _ hok h ih => exact .snoc ih (himp _ _ hok) h

/-- Runs compose. -/
theorem Run.append (h₁ : Run step ok s as t) (h₂ : Run step ok t bs u) :
    Run step ok s (as ++ bs) u := by
  induction h₂ with
  | nil => simpa using h₁
  | snoc _ hok h ih =>
    rw [← List.append_assoc]
    exact .snoc ih hok h

/-- One step in front of a run. -/
theorem Run.cons (hok : ok s a) (h : step s a = some t) (hrun : Run step ok t as u) :
    Run step ok s (a :: as) u := by
  have hone := Run.snoc (Run.nil s) hok h
  exact hone.append hrun

/-- A guarded run is an execution. -/
theorem Run.exec_eq (hrun : Run step ok s as t) : exec step s as = some t := by
  have happ : ∀ (xs ys : List α) (p : σ),
      exec step p (xs ++ ys) = (exec step p xs).bind fun q => exec step q ys := by
    intro xs
    induction xs with
    | nil => intro ys p; rfl
    | cons x xs ih =>
      intro ys p
      simp only [List.cons_append, exec]
      cases step p x with
      | none => rfl
      | some q => exact ih ys q
  induction hrun with
  | nil => rfl
  | snoc _ _ h ih => simp [happ, ih, exec, h]

/-- An execution is a run whose guard asks for nothing. -/
theorem run_of_exec : ∀ {as : List α} {s : σ}, exec step s as = some t →
    Run step (fun _ _ => True) s as t
  | [], s, h => by
    obtain rfl : s = t := by simpa [exec] using h
    exact .nil s
  | a :: as, s, h => by
    obtain ⟨q, hq, hrest⟩ := Option.bind_eq_some_iff.mp h
    exact .cons trivial hq (run_of_exec hrest)

/-- A forward simulation: every step of the one system is a step of the other, or none at all, and
so is every execution. -/
theorem exec_simulated {τ β : Type*} {step' : τ → β → Option τ} {R : σ → τ → Prop}
    {f : α → Option β} (hstep : ∀ s a t r, R s r → step s a = some t →
      ∃ r', exec step' r (f a).toList = some r' ∧ R t r') :
    ∀ {as : List α} {s : σ} {r : τ}, R s r → exec step s as = some t →
      ∃ r', exec step' r (as.filterMap f) = some r' ∧ R t r'
  | [], s, r, hr, h => by
    obtain rfl : s = t := by simpa [exec] using h
    exact ⟨r, rfl, hr⟩
  | a :: as, s, r, hr, h => by
    obtain ⟨q, hq, hrest⟩ := Option.bind_eq_some_iff.mp h
    obtain ⟨p, hp, hqp⟩ := hstep s a q r hr hq
    obtain ⟨r', hr', htr'⟩ := exec_simulated hstep hqp hrest
    refine ⟨r', ?_, htr'⟩
    cases hf : f a with
    | none =>
      obtain rfl : r = p := by simpa [hf, exec] using hp
      simpa [List.filterMap_cons, hf] using hr'
    | some b =>
      rw [hf, Option.toList_some, exec, Option.bind_eq_some_iff] at hp
      obtain ⟨p', hb, hp'⟩ := hp
      obtain rfl : p' = p := by simpa [exec] using hp'
      rw [List.filterMap_cons, hf]
      exact Option.bind_eq_some_iff.mpr ⟨p', hb, hr'⟩

/-- What an observer notes along an execution, who sees the state before each step and its
action. -/
def observed {β : Type*} (step : σ → α → Option σ) (note : σ → α → Option β) : σ → List α → List β
  | _, [] => []
  | s, a :: as => (note s a).toList ++ ((step s a).map fun t => observed step note t as).getD []

section Observed

variable {β : Type*} {note : σ → α → Option β}

/-- One more step adds what is noted of it. -/
theorem observed_concat : ∀ {as : List α} {s : σ}, exec step s as = some t →
    observed step note s (as ++ [a]) = observed step note s as ++ (note t a).toList
  | [], s, h => by
    obtain rfl : s = t := by simpa [exec] using h
    cases hstep : step s a <;> simp [observed, hstep]
  | b :: as, s, h => by
    obtain ⟨q, hq, hrest⟩ := Option.bind_eq_some_iff.mp h
    simp [observed, hq, observed_concat hrest]

/-- Nothing is noted along a run of steps of which nothing is noted. -/
theorem Run.observed_eq_nil (hrun : Run step (fun s a => note s a = none) s as t) :
    observed step note s as = [] := by
  induction hrun with
  | nil => rfl
  | snoc hrun hnone h ih => rw [observed_concat hrun.exec_eq, ih, hnone]; rfl

/-- An execution along which nothing is noted is a run of steps of which nothing is noted. -/
theorem run_of_observed : ∀ {as : List α} {s : σ}, exec step s as = some t →
    observed step note s as = [] → Run step (fun s a => note s a = none) s as t
  | [], s, h, _ => by
    obtain rfl : s = t := by simpa [exec] using h
    exact .nil s
  | a :: as, s, h, hnil => by
    obtain ⟨q, hq, hrest⟩ := Option.bind_eq_some_iff.mp h
    obtain ⟨hnone, hnil⟩ : note s a = none ∧ observed step note q as = [] := by
      simpa [observed, hq] using hnil
    exact .cons hnone hq (run_of_observed hrest hnil)

end Observed

/-- The execution of a list of actions that checks a decidable guard before each of them, so that a
concrete guarded run can be evaluated. -/
def execChecked (step : σ → α → Option σ) (ok : σ → α → Prop) [∀ s a, Decidable (ok s a)] :
    σ → List α → Option σ
  | s, [] => some s
  | s, a :: as => if ok s a then (step s a).bind fun t => execChecked step ok t as else none

/-- A checked execution is a guarded run. -/
theorem run_of_execChecked [∀ s a, Decidable (ok s a)] :
    ∀ {as : List α} {s : σ}, execChecked step ok s as = some t → Run step ok s as t
  | [], s, h => by
    obtain rfl : s = t := by simpa [execChecked] using h
    exact .nil s
  | a :: as, s, h => by
    unfold execChecked at h
    split_ifs at h with hok
    obtain ⟨q, hq, hrest⟩ := Option.bind_eq_some_iff.mp h
    exact .cons hok hq (run_of_execChecked hrest)

end Transition
