import Mathlib.Data.List.Induction
/-!
# Steps that may fail

A run of steps gives a result exactly when each step does, so what every step keeps is kept by the
run.
-/

namespace DepthRaster

variable {ε ε' α β : Type}

theorem mapError_eq_ok {x : Except ε α} {f : ε → ε'} {a : α} :
    x.mapError f = .ok a ↔ x = .ok a := by
  cases x with
  | error e => simp [Except.mapError]
  | ok b => simp [Except.mapError]

theorem bind_eq_ok {x : Except ε α} {f : α → Except ε β} {b : β} :
    x >>= f = .ok b ↔ ∃ a, x = .ok a ∧ f a = .ok b := by
  cases x with
  | error e => simp [bind, Except.bind]
  | ok a => simp [bind, Except.bind]

theorem bind_eq_error {x : Except ε α} {f : α → Except ε β} {e : ε} :
    x >>= f = .error e ↔ x = .error e ∨ ∃ a, x = .ok a ∧ f a = .error e := by
  cases x with
  | error e' => simp [bind, Except.bind]
  | ok a => simp [bind, Except.bind]

theorem foldlM_concat_eq_ok {f : β → α → Except ε β} {l : List α} {a : α} {b c : β} :
    (l ++ [a]).foldlM f b = .ok c ↔ ∃ d, l.foldlM f b = .ok d ∧ f d a = .ok c := by
  rw [List.foldlM_append, bind_eq_ok]
  simp only [List.foldlM_cons, List.foldlM_nil, bind_pure]

/-- What holds at the start and is kept by every step that succeeds holds at the end. -/
theorem foldlM_induction {f : β → α → Except ε β} {b c : β} {l : List α}
    {motive : List α → β → Prop} (start : motive [] b)
    (step : ∀ {done a d d'}, a ∈ l → motive done d → f d a = .ok d' → motive (done ++ [a]) d')
    (h : l.foldlM f b = .ok c) : motive l c := by
  induction l using List.reverseRecOn generalizing c with
  | nil => exact Except.ok.inj h ▸ start
  | append_singleton l a ih =>
      obtain ⟨d, hl, ha⟩ := foldlM_concat_eq_ok.mp h
      have hlast := ih (fun hmem => step (List.mem_append_left [a] hmem)) hl
      exact step (List.mem_append_right l List.mem_cons_self) hlast ha

theorem foldlM_total {f : β → α → Except ε β} {l : List α} (h : ∀ a ∈ l, ∀ b, ∃ c, f b a = .ok c)
    (b : β) : ∃ c, l.foldlM f b = .ok c := by
  induction l generalizing b with
  | nil => exact ⟨b, rfl⟩
  | cons a l ih =>
      obtain ⟨c, hc⟩ := h a List.mem_cons_self b
      obtain ⟨d, hd⟩ := ih (fun a' ha' => h a' (List.mem_cons_of_mem a ha')) c
      exact ⟨d, by rw [List.foldlM_cons]; exact bind_eq_ok.mpr ⟨c, hc, hd⟩⟩

/-- A run that fails does so at one of its steps, with everything kept so far. -/
theorem exists_of_foldlM_error {f : β → α → Except ε β} {l : List α} {e : ε} {p : β → Prop}
    (step : ∀ a ∈ l, ∀ {d d'}, p d → f d a = .ok d' → p d') {b : β} (start : p b)
    (h : l.foldlM f b = .error e) : ∃ a ∈ l, ∃ d, p d ∧ f d a = .error e := by
  induction l generalizing b with
  | nil => exact absurd h nofun
  | cons a l ih =>
      rw [List.foldlM_cons] at h
      cases hstep : f b a with
      | error e' =>
          rw [hstep] at h
          exact ⟨a, List.mem_cons_self, b, start, by rw [hstep, Except.error.inj h]⟩
      | ok d =>
          rw [hstep] at h
          obtain ⟨a', ha', hfails⟩ := ih (fun a' ha' => step a' (List.mem_cons_of_mem a ha'))
            (step a List.mem_cons_self start hstep) h
          exact ⟨a', List.mem_cons_of_mem a ha', hfails⟩

end DepthRaster
