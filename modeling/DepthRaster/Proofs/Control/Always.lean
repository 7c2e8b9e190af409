import Mathlib.Init
/-!
# Results that always hold

A computation always has results with a property when it can be carried out so that each result
comes with a proof. Where a computation can end without a result, that says nothing about such ends.
-/

namespace DepthRaster

variable {m : Type → Type} {α β : Type}

def Always [Functor m] (p : α → Prop) (x : m α) : Prop :=
  ∃ y : m {a // p a}, Subtype.val <$> y = x

namespace Always

variable [Monad m] [LawfulMonad m] {p q : α → Prop} {r : β → Prop}

theorem pure {a : α} (h : p a) : Always p (Pure.pure a : m α) :=
  ⟨Pure.pure ⟨a, h⟩, map_pure _ _⟩

theorem top (x : m α) : Always (fun _ => True) x := by
  refine ⟨(fun a => ⟨a, True.intro⟩) <$> x, ?_⟩
  rw [← comp_map]
  exact id_map x

theorem bind {x : m α} {f : α → m β} (hx : Always p x) (hf : ∀ a, p a → Always r (f a)) :
    Always r (x >>= f) := by
  obtain ⟨y, rfl⟩ := hx
  refine ⟨y >>= fun a => Classical.choose (hf a.val a.property), ?_⟩
  rw [map_bind, bind_map_left]
  congr 1
  funext a
  exact Classical.choose_spec (hf a.val a.property)

theorem map {x : m α} {f : α → β} (hx : Always p x) (hf : ∀ a, p a → r (f a)) :
    Always r (f <$> x) := by
  rw [map_eq_pure_bind]
  exact hx.bind fun a ha => .pure (hf a ha)

/-- Of a computation that passes a state, what always holds holds of the result from each state. -/
theorem run_stateT {σ : Type} {x : StateT σ m α} (h : Always p x) (s : σ) :
    Always (fun result => p result.1) (x.run s) := by
  obtain ⟨y, rfl⟩ := h
  rw [StateT.run_map]
  exact (top _).map fun result _ => result.1.property

theorem lift_stateT {σ : Type} {x : m α} (h : Always p x) :
    Always p (StateT.lift x : StateT σ m α) := by
  obtain ⟨y, rfl⟩ := h
  refine ⟨StateT.lift y, ?_⟩
  funext s
  simp [StateT.lift, Functor.map, StateT.map]

end Always

end DepthRaster
