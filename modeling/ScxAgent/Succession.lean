import Mathlib.Data.List.Induction

/-!
# Lines of succession

A list whose items carry a key and name the key of their predecessor. `Succeeds` says
that each item names the one before it, so the list is one line without a fork.
-/

namespace Succession

variable {α κ : Type} (key : α → κ) (predecessor : α → Option κ)

/-- The items follow one another, and the first one follows `start`. -/
def Succeeds : Option κ → List α → Prop
  | _, [] => True
  | start, item :: rest => predecessor item = start ∧ Succeeds (some (key item)) rest

/-- The key at which the line ends. -/
def lineEnd (start : Option κ) (items : List α) : Option κ :=
  items.foldl (fun _ item => some (key item)) start

@[simp] theorem lineEnd_concat (start : Option κ) (items : List α) (item : α) :
    lineEnd key start (items ++ [item]) = some (key item) := by
  simp [lineEnd]

theorem lineEnd_eq_getLast (items : List α) :
    lineEnd key none items = items.getLast?.map key := by
  induction items using List.reverseRecOn with
  | nil => rfl
  | append_singleton items item _ => simp

theorem succeeds_concat {start : Option κ} {items : List α} {item : α} :
    Succeeds key predecessor start (items ++ [item]) ↔
      Succeeds key predecessor start items ∧ predecessor item = lineEnd key start items := by
  induction items generalizing start with
  | nil => simp [Succeeds, lineEnd]
  | cons first rest ih =>
    simp only [List.cons_append, Succeeds, ih, lineEnd, List.foldl_cons]
    exact and_assoc.symm

end Succession
