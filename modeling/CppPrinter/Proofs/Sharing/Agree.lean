import CppPrinter.Proofs.Result

/-!
# Prints that agree

Two prints agree when they end in the same result, or both in an error (`Agree`). Which error is left
open: the error of a loop that starts with the wrong statement shows that statement with the positions
of its expressions, and those are what programs with the same expressions may differ in. Steps that
agree make up prints that agree.
-/

namespace CppPrinter

variable {α β γ δ ε : Type}

/-- Both results are the same, or both are errors. -/
def Agree (r r' : Rendered α) : Prop := r.toOption = r'.toOption

namespace Agree

theorem of_eq {r r' : Rendered α} (h : r = r') : Agree r r' := congrArg Except.toOption h

@[simp] theorem refl (r : Rendered α) : Agree r r := rfl

theorem iff {r r' : Rendered α} (h : Agree r r') (a : α) : r = .ok a ↔ r' = .ok a := by
  cases r <;> cases r' <;> simp_all [Agree, Except.toOption]

theorem errors {e e' : RenderError} : Agree (.error e : Rendered α) (.error e') := rfl

/-- Two steps agree when the first ones do, and the second ones on the same result. -/
theorem bind {x y : Rendered α} {f g : α → Rendered β} (first : Agree x y)
    (second : ∀ a, Agree (f a) (g a)) : Agree (x >>= f) (y >>= g) := by
  cases x with
  | error e =>
    cases y with
    | error e' => rfl
    | ok b => cases first
  | ok a =>
    cases y with
    | error e' => cases first
    | ok b =>
      obtain rfl : a = b := Option.some.inj first
      exact second a

end Agree

/-- Lists that look the same through two functions, member by member. -/
theorem map_eq_map_iff_forall₂ {f : α → γ} {g : β → γ} {xs : List α} {ys : List β} :
    xs.map f = ys.map g ↔ List.Forall₂ (fun x y => f x = g y) xs ys := by
  rw [← List.forall₂_eq_eq_eq, List.forall₂_map_left_iff, List.forall₂_map_right_iff]

/-- Lists of steps agree when the lists look the same and steps on members that do agree. -/
theorem Agree.mapM {m : α → γ} {m' : β → γ} {f : α → Rendered δ} {g : β → Rendered δ} {xs : List α}
    {ys : List β} (same : xs.map m = ys.map m')
    (each : ∀ x ∈ xs, ∀ y, m x = m' y → Agree (f x) (g y)) : Agree (xs.mapM f) (ys.mapM g) := by
  have pairs := map_eq_map_iff_forall₂.1 same
  clear same
  induction pairs with
  | nil => rfl
  | cons here _ ih =>
    obtain ⟨first, later⟩ := List.forall_mem_cons.1 each
    rw [List.mapM_cons, List.mapM_cons]
    exact (first _ here).bind fun _ => (ih later).bind fun _ => rfl

/-- Steps on the same list agree when the steps on every member do. -/
theorem Agree.mapM_same {f g : α → Rendered δ} (each : ∀ x, Agree (f x) (g x)) (xs : List α) :
    Agree (xs.mapM f) (xs.mapM g) := by
  refine Agree.mapM (rfl : xs.map id = xs.map id) ?_
  rintro x - _ rfl
  exact each x

/-- Options that look the same through two functions. -/
theorem option_map_eq_map {f : α → γ} {g : β → γ} {x : Option α} {y : Option β}
    (same : x.map f = y.map g) :
    (x = none ∧ y = none) ∨ ∃ a b, x = some a ∧ y = some b ∧ f a = g b := by
  cases x <;> cases y <;> simp_all

/-- Results that look the same through two functions. -/
theorem result_map_eq_map {f : α → γ} {g : β → γ} {x : Rendered α} {y : Rendered β}
    (same : f <$> x = g <$> y) :
    (∃ e, x = .error e ∧ y = .error e) ∨ ∃ a b, x = .ok a ∧ y = .ok b ∧ f a = g b := by
  cases x with
  | error e =>
    cases y with
    | error e' =>
      cases same
      exact .inl ⟨e, rfl, rfl⟩
    | ok b => cases same
  | ok a =>
    cases y with
    | error e' => cases same
    | ok b => exact .inr ⟨a, b, rfl, rfl, Except.ok.inj same⟩

end CppPrinter
