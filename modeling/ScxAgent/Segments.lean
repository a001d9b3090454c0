import Mathlib.Data.List.Basic

/-!
# Segments

A stream in which a mark ends each segment. What follows the last mark is a segment without its mark.
-/

namespace Segments

open List

variable {α : Type} [DecidableEq α] {mark : α} {line items rest : List α}

/-- The segments with their marks, and what follows the last mark unless it is empty. The flag says
that the mark is there. -/
def segments (mark : α) (items : List α) : List (List α × Bool) :=
  let parts := items.splitOn mark
  parts.dropLast.map (·, true) ++ (parts.getLast?.filter (· ≠ [])).toList.map (·, false)

theorem splitOn_line (h : mark ∉ line) (rest : List α) :
    (line ++ mark :: rest).splitOn mark = line :: rest.splitOn mark := by
  apply splitOnP_append_cons_of_forall_mem
  · intro item hitem
    exact beq_false_of_ne (ne_of_mem_of_not_mem hitem h)
  · exact beq_self_eq_true mark

theorem segments_line (h : mark ∉ line) (rest : List α) :
    segments mark (line ++ mark :: rest) = (line, true) :: segments mark rest := by
  have hparts : rest.splitOn mark ≠ [] := splitOnP_ne_nil _ _
  rw [segments, splitOn_line h, dropLast_cons_of_ne_nil hparts,
    getLast?_cons_of_ne_nil hparts]
  rfl

theorem segments_rest (h : mark ∉ items) :
    segments mark items = if items = [] then [] else [(items, false)] := by
  rw [segments, splitOn_eq_singleton h]
  by_cases hitems : items = [] <;> simp [hitems]

/-- Every stream has no mark, or has a first one. -/
theorem marked_induction (mark : α) {motive : List α → Prop}
    (rest : ∀ items, mark ∉ items → motive items)
    (line : ∀ line items, mark ∉ line → motive items → motive (line ++ mark :: items))
    (items : List α) : motive items := by
  induction hsize : items.length using Nat.strongRecOn generalizing items with
  | ind size ih =>
    by_cases hmark : mark ∈ items
    · obtain ⟨first, later, rfl, hfirst⟩ := eq_append_cons_of_mem hmark
      apply line first later hfirst
      apply ih later.length _ later rfl
      rw [← hsize, length_append, length_cons]
      omega
    · exact rest items hmark

/-- Every segment has its mark. -/
def Ended (mark : α) (items : List α) : Prop := items = [] ∨ items.getLast? = some mark

theorem segments_append (h : Ended mark items) (rest : List α) :
    segments mark (items ++ rest) = segments mark items ++ segments mark rest := by
  induction items using marked_induction mark with
  | rest items hitems =>
    have hnil : items = [] := h.resolve_right fun hlast => hitems (mem_of_getLast? hlast)
    rw [hnil, segments_rest not_mem_nil]
    rfl
  | line line items hline ih =>
    have hended : Ended mark items := by
      rcases h with h | h
      · simp at h
      · by_cases hitems : items = []
        · exact .inl hitems
        · rw [getLast?_append_cons, getLast?_cons_of_ne_nil hitems] at h
          exact .inr h
    rw [append_assoc, cons_append, segments_line hline, segments_line hline, ih hended,
      cons_append]

end Segments
