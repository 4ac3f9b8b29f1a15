import EngineHost.Metrics.Basic

/-!
# Values under labels

The values of a metric stand in a table by the values of its labels. A change of one of them is seen
under its own labels and nowhere else.
-/

namespace EngineHost.Metrics.Table

variable {α : Type} {t : Table α}

theorem get?_cons (x k : List Bytes) (v : α) (t : Table α) :
    get? ((x, v) :: t) k = if x = k then some v else t.get? k := by
  by_cases hx : x = k
  · simp [get?, hx]
  · simp only [get?, List.find?_cons, beq_false_of_ne hx, if_neg hx]

private theorem get?_update (t : Table α) (key k : List Bytes) (d : α) (f : α → α) :
    (t.update key d f).get? k = if key = k then some (f ((t.get? k).getD d)) else t.get? k := by
  induction t with
  | nil => exact get?_cons ..
  | cons entry t ih =>
    obtain ⟨x, v⟩ := entry
    by_cases hx : x = key
    · subst hx
      simp only [update, BEq.rfl, if_true, get?_cons]
      by_cases hk : x = k <;> simp [hk]
    · simp only [update, beq_iff_eq, hx, if_false, get?_cons, ih]
      by_cases hk : x = k
      · rw [if_pos hk, if_pos hk, if_neg fun h => hx (hk.trans h.symm)]
      · rw [if_neg hk, if_neg hk]

theorem keys_update (t : Table α) (key : List Bytes) (d : α) (f : α → α) :
    (t.update key d f).map Prod.fst =
      if key ∈ t.map Prod.fst then t.map Prod.fst else t.map Prod.fst ++ [key] := by
  induction t with
  | nil => rfl
  | cons entry t ih =>
    obtain ⟨k, v⟩ := entry
    by_cases hk : k = key
    · simp [update, hk]
    · have hkey : key ∈ k :: t.map Prod.fst ↔ key ∈ t.map Prod.fst := by
        rw [List.mem_cons, or_iff_right (Ne.symm hk)]
      simp only [update, beq_iff_eq, hk, if_false, List.map_cons, ih, hkey]
      split <;> rfl

theorem get?_of_mem (h : (t.map Prod.fst).Nodup) {k : List Bytes} {v : α} (hmem : (k, v) ∈ t) :
    t.get? k = some v := by
  induction t with
  | nil => simp at hmem
  | cons entry t ih =>
    obtain ⟨k', v'⟩ := entry
    simp only [List.map_cons, List.nodup_cons] at h
    rw [get?_cons]
    rcases List.mem_cons.1 hmem with heq | hmem
    · obtain ⟨rfl, rfl⟩ := Prod.mk.inj heq
      rw [if_pos rfl]
    · have hne : k' ≠ k := fun heq => h.1 (heq ▸ List.mem_map_of_mem hmem)
      rw [if_neg hne, ih h.2 hmem]

/-- The value under labels, or the value with which every entry starts. -/
def valueAt (t : Table α) (d : α) (key : List Bytes) : α := (t.get? key).getD d

@[simp] theorem valueAt_nil (d : α) (key : List Bytes) : valueAt [] d key = d := rfl

@[simp] theorem valueAt_update (t : Table α) (d : α) (key k : List Bytes) (f : α → α) :
    (t.update key d f).valueAt d k = if key = k then f (t.valueAt d k) else t.valueAt d k := by
  rw [valueAt, get?_update, valueAt]
  split <;> rfl

end EngineHost.Metrics.Table
