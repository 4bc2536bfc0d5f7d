import CppPrinter.Error.Basic
import Mathlib.Data.List.Forall2

/-!
# Results of printing, step by step

A print asks for one result after the other and ends at the first error. The laws here take such a
chain apart: what it means that a chain of two steps succeeded, and that it ended in an error. A
list of steps succeeds when every step does (`mapM_eq_ok_iff`).
-/

namespace CppPrinter

variable {α β : Type}

@[simp] theorem ok_bind (a : α) (f : α → Rendered β) : (Except.ok a >>= f : Rendered β) = f a := rfl

@[simp] theorem error_bind (e : RenderError) (f : α → Rendered β) :
    (Except.error e >>= f : Rendered β) = .error e := rfl

@[simp] theorem pure_eq_ok (a : α) : (pure a : Rendered α) = .ok a := rfl

/-- Two steps succeed when both do. -/
@[simp] theorem bind_eq_ok_iff {x : Rendered α} {f : α → Rendered β} {b : β} :
    x >>= f = .ok b ↔ ∃ a, x = .ok a ∧ f a = .ok b := by
  cases x <;> simp

/-- Two steps end in the error of the first, or in that of the second. -/
theorem bind_eq_error_iff {x : Rendered α} {f : α → Rendered β} {e : RenderError} :
    x >>= f = .error e ↔ x = .error e ∨ ∃ a, x = .ok a ∧ f a = .error e := by
  cases x <;> simp

@[simp] theorem map_eq_ok_iff {x : Rendered α} {f : α → β} {b : β} :
    f <$> x = .ok b ↔ ∃ a, x = .ok a ∧ f a = b := by
  cases x <;> simp [Functor.map, Except.map]

theorem exists_of_isOk {r : Rendered α} (h : r.isOk = true) : ∃ a, r = .ok a := by
  cases r with
  | ok a => exact ⟨a, rfl⟩
  | error e => cases h

theorem eq_ok_of_toOption {r : Rendered α} {a : α} (h : r.toOption = some a) : r = .ok a := by
  cases r with
  | ok b => exact congrArg Except.ok (Option.some.inj h)
  | error e => cases h

/-- A list of steps succeeds when each of them does, in order. -/
theorem mapM_eq_ok_iff {f : α → Rendered β} {xs : List α} {ys : List β} :
    xs.mapM f = .ok ys ↔ List.Forall₂ (fun x y => f x = .ok y) xs ys := by
  induction xs generalizing ys with
  | nil => simp [eq_comm (a := ([] : List β))]
  | cons x rest ih =>
    rw [List.mapM_cons, List.forall₂_cons_left_iff]
    simp [ih, eq_comm (b := ys)]

/-- A function applied to the result of each step is applied to the list of the results. -/
theorem mapM_map {γ : Type} (f : α → Rendered β) (g : β → γ) (xs : List α) :
    (xs.mapM fun x => do return g (← f x)) = (do return (← xs.mapM f).map g) := by
  induction xs with
  | nil => rfl
  | cons x rest ih =>
    rw [List.mapM_cons, List.mapM_cons, ih]
    simp

/-- Lists of steps in a row are one list of steps. -/
theorem mapM_flatMap {γ : Type} (f : β → Rendered γ) (g : α → List β) (xs : List α) :
    (xs.flatMap g).mapM f = (do return (← xs.mapM fun x => (g x).mapM f).flatten) := by
  induction xs with
  | nil => rfl
  | cons x rest ih =>
    rw [List.flatMap_cons, List.mapM_append, ih, List.mapM_cons]
    simp

/-- Every step of a list that succeeds has a result. -/
theorem exists_of_mapM {f : α → Rendered β} {xs : List α} {ys : List β}
    (printed : xs.mapM f = .ok ys) {x : α} (member : x ∈ xs) : ∃ y, f x = .ok y := by
  have each := mapM_eq_ok_iff.1 printed
  clear printed
  induction each with
  | nil => cases member
  | cons first _ ih =>
    rcases List.mem_cons.1 member with rfl | later
    · exact ⟨_, first⟩
    · exact ih later

/-- What a list of steps comes to, when the result of each step is known. -/
theorem eq_map_of_mapM {f : α → Rendered β} {g : α → β} {xs : List α} {ys : List β}
    (printed : xs.mapM f = .ok ys) (each : ∀ x ∈ xs, f x = .ok (g x)) : ys = xs.map g := by
  have known := mapM_eq_ok_iff.1 printed
  clear printed
  induction known with
  | nil => rfl
  | @cons x y rest ys first _ ih =>
    obtain ⟨here, later⟩ := List.forall_mem_cons.1 each
    rw [here] at first
    cases first
    rw [List.map_cons, ih later]

@[simp] theorem unsupported_ne_ok {cause : Unsupported} {a : α} :
    (unsupported cause : Rendered α) ≠ .ok a := by
  simp [unsupported]

/-! ### What a result is like -/

/-- If there is a result, it is `good`. -/
def Gives (good : α → Prop) (r : Rendered α) : Prop := ∀ a, r = .ok a → good a

namespace Gives

variable {good : α → Prop} {good' : β → Prop}

theorem ok {a : α} (h : good a) : Gives good (.ok a) := by
  rintro _ ⟨⟩
  exact h

theorem error (e : RenderError) : Gives good (.error e : Rendered α) := nofun

theorem unsupported (cause : Unsupported) : Gives good (CppPrinter.unsupported cause : Rendered α) :=
  nofun

/-- A step goes on from a good result. -/
theorem bind {x : Rendered α} {f : α → Rendered β} (first : Gives good x)
    (second : ∀ a, good a → Gives good' (f a)) : Gives good' (x >>= f) := by
  intro b result
  obtain ⟨a, found, rest⟩ := bind_eq_ok_iff.1 result
  exact second a (first a found) b rest

/-- A step goes on from any result. -/
theorem after {x : Rendered α} {f : α → Rendered β} (second : ∀ a, Gives good' (f a)) :
    Gives good' (x >>= f) := by
  have anything : Gives (fun _ => True) x := fun _ _ => trivial
  exact anything.bind fun a _ => second a

theorem mono {good'' : α → Prop} {x : Rendered α} (h : Gives good x)
    (more : ∀ a, good a → good'' a) : Gives good'' x :=
  fun a found => more a (h a found)

theorem mapM {γ : Type} {good'' : γ → Prop} {f : α → Rendered γ} {xs : List α}
    (each : ∀ x ∈ xs, Gives good'' (f x)) :
    Gives (fun ys : List γ => ∀ y ∈ ys, good'' y) (xs.mapM f) := by
  induction xs with
  | nil => exact .ok (List.forall_mem_nil _)
  | cons x rest ih =>
    obtain ⟨here, later⟩ := List.forall_mem_cons.1 each
    rw [List.mapM_cons]
    exact here.bind fun y first => (ih later).bind fun ys others =>
      .ok (List.forall_mem_cons.2 ⟨first, others⟩)

/-- The results of a list of steps, each good for its own step. -/
theorem forall₂ {γ : Type} {good'' : α → γ → Prop} {f : α → Rendered γ} {xs : List α}
    (each : ∀ x ∈ xs, Gives (good'' x) (f x)) : Gives (List.Forall₂ good'' xs) (xs.mapM f) := by
  induction xs with
  | nil => exact .ok .nil
  | cons x rest ih =>
    obtain ⟨here, later⟩ := List.forall_mem_cons.1 each
    rw [List.mapM_cons]
    exact here.bind fun y first => (ih later).bind fun ys others => .ok (.cons first others)

end Gives

end CppPrinter
