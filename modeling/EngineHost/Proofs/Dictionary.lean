import EngineHost.Config.Params

/-!
# Dictionaries as maps

A dictionary is a map: setting a key changes the value of that key and of no other, and later
settings win. Its keys increase as long as it is built by setting keys.
-/

namespace EngineHost

private theorem Bytes.less_iff_lt {s t : Bytes} : Bytes.less s t = true ↔ s < t := by
  fun_induction Bytes.less s t with
  | case1 s => simp
  | case2 b t => simp
  | case3 a s b t ih => simp [ih, List.cons_lt_cons_iff]

namespace Dict

variable {α : Type u} {d : Dict α} {key : Bytes}

@[simp] theorem get?_nil (key : Bytes) : get? ([] : Dict α) key = none := rfl

theorem get?_cons (e : Bytes × α) (d : Dict α) (key : Bytes) :
    get? (e :: d) key = if e.1 = key then some e.2 else get? d key := by
  by_cases h : e.1 = key <;> simp [get?, h]

theorem has_eq_isSome (d : Dict α) (key : Bytes) : has d key = (get? d key).isSome := by
  induction d with
  | nil => rfl
  | cons e d ih =>
    rw [get?_cons, has, List.any_cons, ← has, ih]
    by_cases h : e.1 = key <;> simp [h]

theorem mem_of_get? {v : α} (h : get? d key = some v) : (key, v) ∈ d := by
  obtain ⟨e, hfind, rfl⟩ := Option.map_eq_some_iff.1 h
  have hkey : e.1 = key := by simpa using List.find?_some hfind
  rw [← hkey]
  exact List.mem_of_find?_eq_some hfind

theorem get?_insert (d : Dict α) (k : Bytes) (v : α) (key : Bytes) :
    get? (insert d k v) key = if k = key then some v else get? d key := by
  fun_induction insert d k v with
  | case1 k v => simp [get?_cons]
  | case2 k w rest k' v heq =>
    obtain rfl := eq_of_beq heq
    by_cases h : k' = key <;> simp [get?_cons, h]
  | case3 k w rest k' v hne hless => simp [get?_cons]
  | case4 k w rest k' v hne hless ih =>
    have hkey : k' ≠ k := by simpa using hne
    rw [get?_cons, get?_cons, ih]
    by_cases h : k = key
    · simp [h ▸ hkey, h]
    · simp [h]

def Increasing (d : Dict α) : Prop := d.Pairwise fun e e' => e.1 < e'.1

theorem mem_insert {e : Bytes × α} {k : Bytes} {v : α} (h : e ∈ insert d k v) :
    e = (k, v) ∨ e ∈ d := by
  fun_induction insert d k v with grind

theorem Increasing.insert (h : d.Increasing) (k : Bytes) (v : α) : (insert d k v).Increasing := by
  fun_induction Dict.insert d k v with
  | case1 k v => exact List.pairwise_singleton ..
  | case2 k w rest k' v heq =>
    obtain rfl := eq_of_beq heq
    exact List.pairwise_cons.2 (List.pairwise_cons.1 h)
  | case3 k w rest k' v hne hless =>
    have hlt : k' < k := Bytes.less_iff_lt.1 hless
    refine List.pairwise_cons.2 ⟨fun e he => ?_, h⟩
    rcases List.mem_cons.1 he with rfl | he
    · exact hlt
    · exact List.lt_trans hlt ((List.pairwise_cons.1 h).1 e he)
  | case4 k w rest k' v hne hless ih =>
    obtain ⟨hfirst, hrest⟩ := List.pairwise_cons.1 h
    refine List.pairwise_cons.2 ⟨fun e he => ?_, ih hrest⟩
    rcases mem_insert he with rfl | he
    · have hle : ¬k' < k := fun hlt => hless (Bytes.less_iff_lt.2 hlt)
      exact Std.lt_of_le_of_ne hle fun heq => hne (beq_iff_eq.2 heq.symm)
    · exact hfirst e he

/-- The value that entries give a key; later ones win. -/
def lastValue? (entries : List (Bytes × α)) (key : Bytes) : Option α :=
  get? entries.reverse key

theorem lastValue?_cons (e : Bytes × α) (entries : List (Bytes × α)) (key : Bytes) :
    lastValue? (e :: entries) key =
      (lastValue? entries key).or (if e.1 = key then some e.2 else none) := by
  by_cases h : e.1 = key <;>
    simp [lastValue?, get?, List.find?_append, h]

theorem get?_foldl_insert (entries : List (Bytes × α)) (d : Dict α) (key : Bytes) :
    get? (entries.foldl (fun d e => insert d e.1 e.2) d) key =
      (lastValue? entries key).or (get? d key) := by
  induction entries generalizing d with
  | nil => rfl
  | cons e entries ih =>
    rw [List.foldl_cons, ih, get?_insert, lastValue?_cons, Option.or_assoc]
    by_cases h : e.1 = key <;> simp [h]

theorem increasing_foldl_insert (entries : List (Bytes × α)) (h : d.Increasing) :
    Increasing (entries.foldl (fun d e => insert d e.1 e.2) d) := by
  induction entries generalizing d with
  | nil => exact h
  | cons e entries ih => exact ih (h.insert e.1 e.2)

theorem increasing_ofList (entries : List (Bytes × α)) : (ofList entries).Increasing :=
  increasing_foldl_insert entries List.Pairwise.nil

theorem get?_ofList (entries : List (Bytes × α)) (key : Bytes) :
    get? (ofList entries) key = lastValue? entries key := by
  simp [ofList, get?_foldl_insert]

private theorem Increasing.get?_tail {e : Bytes × α} (h : Increasing (e :: d)) :
    get? d e.1 = none := by
  simp only [get?, Option.map_eq_none_iff, List.find?_eq_none, beq_iff_eq]
  intro e' he' heq
  have hlt := (List.pairwise_cons.1 h).1 e' he'
  rw [heq] at hlt
  exact List.lt_irrefl _ hlt

private theorem Increasing.lastValue?_eq (h : d.Increasing) (key : Bytes) :
    lastValue? d key = get? d key := by
  induction d with
  | nil => rfl
  | cons e d ih =>
    rw [lastValue?_cons, ih (List.pairwise_cons.1 h).2, get?_cons]
    by_cases hkey : e.1 = key
    · have hnone : get? d key = none := hkey ▸ h.get?_tail
      simp [hkey, hnone]
    · simp [hkey]

theorem Increasing.not_lt {e : Bytes × α} (h : Increasing (e :: d)) {v : α}
    (hkey : get? (e :: d) key = some v) : ¬key < e.1 := by
  intro hlt
  rcases List.mem_cons.1 (mem_of_get? hkey) with rfl | htail
  · exact List.lt_irrefl _ hlt
  · exact List.lt_irrefl _ (List.lt_trans hlt ((List.pairwise_cons.1 h).1 _ htail))

/-- Dictionaries with increasing keys are equal if they hold the same values. -/
theorem Increasing.ext {d d' : Dict α} (h : d.Increasing) (h' : d'.Increasing)
    (hget : ∀ key, get? d key = get? d' key) : d = d' := by
  induction d generalizing d' with
  | nil =>
    cases d' with
    | nil => rfl
    | cons e' d' => simpa [get?_cons] using hget e'.1
  | cons e d ih =>
    cases d' with
    | nil => simpa [get?_cons] using hget e.1
    | cons e' d' =>
      have hfirst : get? (e :: d) e.1 = some e.2 := by simp [get?_cons]
      have hfirst' : get? (e' :: d') e'.1 = some e'.2 := by simp [get?_cons]
      have hkey : e.1 = e'.1 := by
        have hle : ¬e.1 < e'.1 := h'.not_lt (hget e.1 ▸ hfirst)
        have hge : ¬e'.1 < e.1 := h.not_lt (hget e'.1 ▸ hfirst')
        exact Std.le_antisymm hge hle
      have hvalue : e.2 = e'.2 := by
        rw [hget, hkey, hfirst'] at hfirst
        exact (Option.some.inj hfirst).symm
      have htail : ∀ key, get? d key = get? d' key := by
        intro key
        by_cases heq : e.1 = key
        · rw [← heq, h.get?_tail, hkey, h'.get?_tail]
        · have hcons := hget key
          rwa [get?_cons, get?_cons, if_neg heq, if_neg (hkey ▸ heq)] at hcons
      rw [Prod.ext hkey hvalue, ih (List.pairwise_cons.1 h).2 (List.pairwise_cons.1 h').2 htail]

theorem get?_merge {override : Dict α} (h : override.Increasing) (base : Dict α) (key : Bytes) :
    get? (merge base override) key = (get? override key).or (get? base key) := by
  rw [merge, get?_foldl_insert, h.lastValue?_eq]

end Dict

theorem Params.ofPairs_eq_ok_iff {pairs : List Bytes} {acc params : Params} :
    Params.ofPairs pairs acc = .ok params ↔
      ∃ written : List (Bytes × Value), pairs.map Params.pair? = written.map some ∧
        params = written.foldl (fun d e => Dict.insert d e.1 e.2) acc := by
  induction pairs generalizing acc with
  | nil =>
    simp only [Params.ofPairs, List.map_nil, Except.ok.injEq]
    constructor
    · rintro rfl
      exact ⟨[], rfl, rfl⟩
    · rintro ⟨written, hwritten, rfl⟩
      obtain rfl : written = [] := by simpa using hwritten.symm
      rfl
  | cons pair pairs ih =>
    simp only [Params.ofPairs, List.map_cons]
    cases hpair : Params.pair? pair with
    | none =>
      refine ⟨fun h => by simp at h, ?_⟩
      rintro ⟨written, hwritten, -⟩
      cases written <;> simp at hwritten
    | some e =>
      rw [ih]
      constructor
      · rintro ⟨written, hwritten, rfl⟩
        exact ⟨e :: written, by simp [hwritten], rfl⟩
      · rintro ⟨written, hwritten, rfl⟩
        cases written with
        | nil => simp at hwritten
        | cons e' written =>
          simp only [List.map_cons, List.cons.injEq, Option.some.injEq] at hwritten
          obtain ⟨rfl, hrest⟩ := hwritten
          exact ⟨written, hrest, rfl⟩

end EngineHost
