import Mathlib.Data.List.Forall2

/-! When computations that may fail succeed. -/

namespace Dcpu16

variable {ε α β : Type}

theorem bind_eq_ok {x : Except ε α} {f : α → Except ε β} {b : β} :
    x >>= f = .ok b ↔ ∃ a, x = .ok a ∧ f a = .ok b := by
  cases x with
  | ok a => exact ⟨fun h => ⟨a, rfl, h⟩, by rintro ⟨_, ⟨⟩, h⟩; exact h⟩
  | error e => exact ⟨nofun, by rintro ⟨_, ⟨⟩, _⟩⟩

theorem map_eq_ok {x : Except ε α} {f : α → β} {b : β} :
    x.map f = .ok b ↔ ∃ a, x = .ok a ∧ f a = b := by
  cases x <;> simp [Except.map]

theorem mapM_eq_ok {f : α → Except ε β} {xs : List α} {ys : List β} :
    xs.mapM f = .ok ys ↔ List.Forall₂ (fun x y => f x = .ok y) xs ys := by
  induction xs generalizing ys with
  | nil =>
    rw [List.mapM_nil, List.forall₂_nil_left_iff]
    exact ⟨by rintro ⟨⟩; rfl, by rintro rfl; rfl⟩
  | cons x xs ih =>
    simp only [List.mapM_cons, bind_eq_ok, ih, List.forall₂_cons_left_iff]
    constructor
    · rintro ⟨y, hy, ys, hys, ⟨⟩⟩
      exact ⟨y, ys, hy, hys, rfl⟩
    · rintro ⟨y, ys, hy, hys, rfl⟩
      exact ⟨y, hy, ys, hys, rfl⟩

theorem mapM_eq_error {f : α → Except ε β} {xs : List α} {e : ε} :
    xs.mapM f = .error e ↔ ∃ before x after, xs = before ++ x :: after ∧
      (∀ y ∈ before, ∃ z, f y = .ok z) ∧ f x = .error e := by
  induction xs with
  | nil => simp [pure, Except.pure]
  | cons x xs ih =>
    rw [List.mapM_cons]
    cases hx : f x with
    | error e' =>
      show Except.error e' = .error e ↔ _
      constructor
      · rintro ⟨⟩
        exact ⟨[], x, xs, rfl, nofun, hx⟩
      · rintro ⟨before, y, after, hsplit, hbefore, hy⟩
        cases before with
        | nil =>
          obtain ⟨rfl, -⟩ := List.cons.inj hsplit
          exact congrArg Except.error (Except.error.inj (hx.symm.trans hy))
        | cons z before =>
          obtain ⟨rfl, -⟩ := List.cons.inj hsplit
          obtain ⟨w, hw⟩ := hbefore x List.mem_cons_self
          cases hx.symm.trans hw
    | ok w =>
      have hrest : (do let ys ← xs.mapM f; pure (w :: ys)) = .error e ↔
          xs.mapM f = .error e := by
        cases xs.mapM f with
        | ok ys => exact ⟨nofun, nofun⟩
        | error e' => exact Iff.rfl
      refine hrest.trans (ih.trans ⟨?_, ?_⟩)
      · rintro ⟨before, y, after, rfl, hbefore, hy⟩
        refine ⟨x :: before, y, after, rfl, fun z hz => ?_, hy⟩
        rcases List.mem_cons.mp hz with rfl | hz
        · exact ⟨w, hx⟩
        · exact hbefore z hz
      · rintro ⟨before, y, after, hsplit, hbefore, hy⟩
        cases before with
        | nil =>
          obtain ⟨rfl, -⟩ := List.cons.inj hsplit
          cases hx.symm.trans hy
        | cons z before =>
          obtain ⟨rfl, rfl⟩ := List.cons.inj hsplit
          exact ⟨before, y, after, rfl, fun z hz => hbefore z (List.mem_cons_of_mem _ hz), hy⟩

theorem exists_of_mapM_eq_ok {f : α → Except ε β} {xs : List α} {ys : List β} {y : β}
    (h : xs.mapM f = .ok ys) (hy : y ∈ ys) : ∃ x ∈ xs, f x = .ok y := by
  have hall := mapM_eq_ok.mp h
  clear h
  induction hall with
  | nil => cases hy
  | cons hfirst _ ih =>
    rcases List.mem_cons.mp hy with rfl | hy
    · exact ⟨_, List.mem_cons_self, hfirst⟩
    · obtain ⟨x, hx, hmade⟩ := ih hy
      exact ⟨x, List.mem_cons_of_mem _ hx, hmade⟩

theorem mapM_eq_some_map {f : α → Option β} {g : α → β} {xs : List α}
    (h : ∀ x ∈ xs, f x = some (g x)) : xs.mapM f = some (xs.map g) := by
  induction xs with
  | nil => rfl
  | cons x xs ih =>
    rw [List.mapM_cons, h x List.mem_cons_self, ih fun x hx => h x (List.mem_cons_of_mem _ hx)]
    rfl

/-- Choosing a preimage of every element chooses a preimage of the list. -/
theorem forall₂_exists_map {γ : Type} {R : α → β → Prop} {g : β → γ} {xs : List α} {zs : List γ} :
    List.Forall₂ (fun x z => ∃ y, R x y ∧ g y = z) xs zs ↔
      ∃ ys, List.Forall₂ R xs ys ∧ ys.map g = zs := by
  constructor
  · intro h
    induction h with
    | nil => exact ⟨[], .nil, rfl⟩
    | cons hy _ ih =>
      obtain ⟨y, hy, rfl⟩ := hy
      obtain ⟨ys, hys, rfl⟩ := ih
      exact ⟨y :: ys, .cons hy hys, rfl⟩
  · rintro ⟨ys, h, rfl⟩
    exact List.forall₂_map_right_iff.mpr (h.imp fun x y hy => ⟨y, hy, rfl⟩)

theorem forall₂_append_left {R : α → β → Prop} {xs xs' : List α} {ys : List β} :
    List.Forall₂ R (xs ++ xs') ys ↔ ∃ before after, ys = before ++ after ∧
      List.Forall₂ R xs before ∧ List.Forall₂ R xs' after := by
  constructor
  · intro h
    induction xs generalizing ys with
    | nil => exact ⟨[], ys, rfl, .nil, h⟩
    | cons x xs ih =>
      obtain ⟨y, rest, hy, hrest, rfl⟩ := List.forall₂_cons_left_iff.mp h
      obtain ⟨before, after, rfl, hbefore, hafter⟩ := ih hrest
      exact ⟨y :: before, after, rfl, .cons hy hbefore, hafter⟩
  · rintro ⟨before, after, rfl, hbefore, hafter⟩
    exact List.rel_append hbefore hafter

/-- What is related to a list is related to a list whose members are related to as much. -/
theorem forall₂_of_forall₂_imp {R : α → β → Prop} {xs xs' : List α} {ys : List β}
    (h : List.Forall₂ (fun x x' => ∀ y, R x y → R x' y) xs xs') (hys : List.Forall₂ R xs ys) :
    List.Forall₂ R xs' ys := by
  induction h generalizing ys with
  | nil => exact hys
  | cons hfirst _ ih =>
    obtain ⟨y, rest, hy, hrest, rfl⟩ := List.forall₂_cons_left_iff.mp hys
    exact .cons (hfirst y hy) (ih hrest)

end Dcpu16
