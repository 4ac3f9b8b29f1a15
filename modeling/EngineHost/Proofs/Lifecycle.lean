import EngineHost.Proofs.ExactlyOnce
import Mathlib.Data.List.Infix

/-!
# Reported lifecycles

An engine reports a transition apart from the call that brought it about. What it reports is
nevertheless a function of its calls: each thing that a call hands over or takes back is told once,
and the finalizer tells one thing more. Counts of reports are therefore counts of calls.
-/

namespace EngineHost

variable {σ : Type} {e : Engine σ}

def Operation.finalizes : Operation → Bool
  | .finalize _ => true
  | _ => false

theorem Call.count_told_finalized (calls : List Call) (r : Resource) :
    (calls.flatMap told).count ⟨r, .finalized⟩ = 0 := by
  refine List.count_eq_zero.2 fun h => ?_
  simp [told] at h

theorem Operation.count_told_finalized (op : Operation) (calls : List Call) (r : Resource) :
    (op.told calls).count ⟨r, .finalized⟩ =
      if op.finalizes ∧ r = .book then calls.length else 0 := by
  have hconst : calls.map (fun _ => (⟨.book, .finalized⟩ : Event)) =
      List.replicate calls.length ⟨.book, .finalized⟩ :=
    List.map_const' ..
  cases op <;> simp only [told, finalizes, List.count_append, Call.count_told_finalized, hconst,
    List.count_replicate, List.count_nil, Nat.zero_add] <;>
    cases r <;> rfl

private theorem Call.count_told_allocated (calls : List Call) (r : Resource) :
    (calls.flatMap told).count ⟨r, .allocated⟩ =
      (calls.flatMap handed).countP fun h => h.resource = r := by
  induction calls with
  | nil => rfl
  | cons c calls ih =>
    simp only [List.flatMap_cons, told, List.count_append, List.countP_append, ih]
    simp [List.count, List.countP_map, Function.comp_def, beq_eq_decide]

private theorem Call.count_told_released (calls : List Call) (r : Resource) :
    (calls.flatMap told).count ⟨r, .released⟩ =
      (calls.flatMap released).countP fun h => h.resource = r := by
  induction calls with
  | nil => rfl
  | cons c calls ih =>
    simp only [List.flatMap_cons, told, List.count_append, List.countP_append, ih]
    simp [List.count, List.countP_map, Function.comp_def, beq_eq_decide]

private theorem Operation.count_told (op : Operation) (calls : List Call) (r : Resource)
    {t : Transition} (ht : t ≠ .finalized) :
    (op.told calls).count ⟨r, t⟩ = (calls.flatMap Call.told).count ⟨r, t⟩ := by
  cases op <;> simp [told, List.count_eq_zero, ht]

private theorem prefix_append_cases {pre xs ys : List Event} (h : pre <+: xs ++ ys) :
    pre <+: xs ∨ ∃ rest, pre = xs ++ rest ∧ rest <+: ys := by
  obtain ⟨after, heq⟩ := h
  rcases List.append_eq_append_iff.1 heq with ⟨rest, rfl, -⟩ | ⟨rest, rfl, rfl⟩
  · exact .inl (List.prefix_append ..)
  · exact .inr ⟨rest, rfl, List.prefix_append ..⟩

/-- What the finalizer adds comes last, so a part of the reports is a part of what the calls amount
to, but for that. -/
theorem Operation.prefix_told {op : Operation} {calls : List Call} {pre : List Event}
    (h : pre <+: op.told calls) :
    ∃ rest, rest <+: calls.flatMap Call.told ∧
      ∀ r t, t ≠ .finalized → pre.count ⟨r, t⟩ = rest.count ⟨r, t⟩ := by
  rcases prefix_append_cases h with hpre | ⟨last, rfl, hlast⟩
  · exact ⟨pre, hpre, fun _ _ _ => rfl⟩
  · refine ⟨_, List.prefix_refl _, fun r t ht => ?_⟩
    rw [List.count_append, Nat.add_eq_left, List.count_eq_zero]
    intro hmem
    have hmem := hlast.subset hmem
    cases op <;> simp at hmem
    exact ht hmem.2.2

private theorem countP_unlessNull_le (p : Ptr) (r k : Resource) :
    ((unlessNull p [⟨r, p⟩] : List Handle).countP fun h => h.resource = k) ≤
      if r = k then 1 else 0 := by
  by_cases hp : p = 0
  · simp [hp]
  · simp [hp, List.countP_singleton]

/-- In the course of an operation that gives back all it was handed, nothing is reported as released
before it was reported as allocated, and at most one thing of a kind is live. -/
theorem Transcript.told_bounded {r : Resource} {calls : List Call} (h : Transcript r calls)
    {pre : List Event} (hpre : pre <+: calls.flatMap Call.told) (k : Resource) :
    pre.count ⟨k, .released⟩ ≤ pre.count ⟨k, .allocated⟩ ∧ pre.count ⟨k, .allocated⟩ ≤ 1 := by
  have htail := h.handed_tail
  have hperm := h.handed_perm_released.countP_eq fun h => h.resource = k
  cases h with
  | silent =>
    obtain rfl := List.prefix_nil.1 hpre
    simp
  | served made p v looks hmade hasks hkind hlooks =>
    rw [List.tail_cons] at htail
    generalize unlessNull v _ ++ _ = rest at hpre hperm htail
    have hmade_told : made.told = made.handed.map fun h => ⟨h.resource, .allocated⟩ := by
      simp [Call.told, hasks]
    have hmade_released : made.told.count ⟨k, .released⟩ = 0 := by
      simp [hmade_told, List.count_eq_zero]
    have hmade_allocated : made.told.count ⟨k, .allocated⟩ =
        made.handed.countP fun h => h.resource = k := by
      simpa using Call.count_told_allocated [made] k
    -- the thing and the text that one call hands over differ in kind
    have hone : made.told.count ⟨k, .allocated⟩ ≤ 1 := by
      have hthing := countP_unlessNull_le p r k
      have htext := countP_unlessNull_le v .text k
      rw [hmade_allocated, hmade, List.countP_append]
      by_cases hr : r = k
      · rw [if_neg fun h => hkind (hr.trans h.symm)] at htext
        rw [if_pos hr] at hthing
        omega
      · rw [if_neg hr] at hthing
        split at htext <;> omega
    have hrest_handed : rest.flatMap Call.handed = [] := List.flatMap_eq_nil_iff.2 htail
    have hrest_allocated : (rest.flatMap Call.told).count ⟨k, .allocated⟩ = 0 := by
      rw [Call.count_told_allocated, hrest_handed, List.countP_nil]
    have hrest_released : (rest.flatMap Call.told).count ⟨k, .released⟩ =
        made.told.count ⟨k, .allocated⟩ := by
      rw [Call.count_told_released, hmade_allocated]
      simpa [hasks, hrest_handed] using hperm.symm
    rw [List.flatMap_cons] at hpre
    rcases prefix_append_cases hpre with hpre | ⟨last, rfl, hlast⟩
    · have hreleased := hpre.sublist.count_le ⟨k, .released⟩
      have hallocated := hpre.sublist.count_le ⟨k, .allocated⟩
      omega
    · have hreleased := hlast.sublist.count_le ⟨k, .released⟩
      have hallocated := hlast.sublist.count_le ⟨k, .allocated⟩
      rw [List.count_append, List.count_append]
      omega

def liveBooks (books : List Book) : Nat := books.countP fun b => !b.released

private theorem countP_held (books : List Book) (r : Resource) :
    (Session.held books).countP (fun h => h.resource = r) =
      if r = .book then liveBooks books else 0 := by
  induction books with
  | nil => simp [Session.held, liveBooks]
  | cons b books ih =>
    simp only [Session.held, List.flatMap_cons, List.countP_append] at ih ⊢
    rw [ih]
    by_cases hb : b.ptr = 0 <;> cases r <;> simp [hb, liveBooks, Book.released, Nat.add_comm]

private theorem liveBooks_pos {books : List Book} {i : Nat} {p : Ptr} (hb : books[i]? = some ⟨p⟩)
    (hp : p ≠ 0) : 0 < liveBooks books := by
  refine List.countP_pos_iff.2 ⟨⟨p⟩, List.mem_of_getElem? hb, ?_⟩
  simp [Book.released, hp]

/-- In the course of an operation, what is reported as released was reported as allocated before or
is a live book, and at most one thing of a kind is added to what is live. -/
theorem StepKind.told_bounded {s : Session σ} {op : Operation} {a : Answer} {books : List Book}
    {calls : List Call} (h : StepKind s op a books calls) {pre : List Event}
    (hpre : pre <+: op.told calls) (r : Resource) :
    pre.count ⟨r, .released⟩ ≤
        pre.count ⟨r, .allocated⟩ + (if r = .book then liveBooks s.books else 0) ∧
      pre.count ⟨r, .allocated⟩ ≤ pre.count ⟨r, .released⟩ + 1 := by
  obtain ⟨rest, hrest, hcount⟩ := Operation.prefix_told hpre
  rw [hcount r .allocated (by simp), hcount r .released (by simp)]
  have hreleased := hrest.sublist.count_le ⟨r, .released⟩
  have hallocated := hrest.sublist.count_le ⟨r, .allocated⟩
  rw [Call.count_told_released] at hreleased
  rw [Call.count_told_allocated] at hallocated
  cases h with
  | @kept p hop hp =>
    have hone := countP_unlessNull_le p .book r
    simp only [Call.handed, Call.released, List.flatMap_singleton, unlessNull_zero,
      List.append_nil, List.countP_nil] at hreleased hallocated
    split at hone <;> omega
  | @closed i p a hop hb hp =>
    have hlive := liveBooks_pos hb hp
    simp only [Call.handed, Call.released, List.flatMap_singleton, List.countP_nil,
      List.countP_singleton, decide_eq_true_eq] at hreleased hallocated
    split at hreleased
    · rename_i hr
      rw [if_pos hr.symm]
      omega
    · omega
  | settled hcalls =>
    have := hcalls.told_bounded hrest r
    omega

/-- At no time was more of a kind reported as released than as allocated, and at no time were more
than `n` of a kind live. -/
def Solvent (n : Nat) (events : List Event) : Prop :=
  ∀ pre, pre <+: events → ∀ r,
    pre.count ⟨r, .released⟩ ≤ pre.count ⟨r, .allocated⟩ ∧
      pre.count ⟨r, .allocated⟩ ≤ pre.count ⟨r, .released⟩ + n

theorem solvent_nil (n : Nat) : Solvent n [] := by
  intro pre hpre r
  obtain rfl := List.prefix_nil.1 hpre
  simp

namespace Session

def eventsOf (e : Engine σ) (s : Session σ) (op : Operation) : List Event :=
  (s.step e op).2.world.events.drop s.world.events.length

theorem step_events (e : Engine σ) (s : Session σ) {op : Operation}
    (hop : op.throughEngine = true) :
    (s.step e op).2.world.events = s.world.events ++ s.eventsOf e op ∧
      s.eventsOf e op = if e.observed then op.told (s.callsOf e op) else [] := by
  obtain ⟨calls, hadded, -⟩ := s.step_kind e hop
  rw [callsOf_eq hadded.trace, eventsOf, hadded.events, List.drop_left]
  exact ⟨rfl, rfl⟩

/-- Of each kind as many were reported as allocated as were reported as released, and the live
books besides. -/
def Balanced (s : Session σ) : Prop :=
  ∀ r, s.world.events.count ⟨r, .allocated⟩ =
    s.world.events.count ⟨r, .released⟩ + if r = .book then liveBooks s.books else 0

theorem step_balanced (hobserved : e.observed = true) {s : Session σ} (hs : s.Balanced)
    {op : Operation} (hop : op.throughEngine = true) : (s.step e op).2.Balanced := by
  intro r
  obtain ⟨hevents, htold⟩ := s.step_events e hop
  have hperm := (held_perm_of_stepKind (s.step_trace e hop).2).countP_eq fun h => h.resource = r
  simp only [List.countP_append, countP_held] at hperm
  rw [hevents, htold, hobserved, if_pos rfl, List.count_append, List.count_append, hs r,
    op.count_told _ r (by simp), op.count_told _ r (by simp), Call.count_told_allocated,
    Call.count_told_released]
  omega

theorem step_count_released (hobserved : e.observed = true) {s : Session σ} {r : Resource}
    (hs : s.world.events.count ⟨r, .released⟩ =
      (s.world.trace.flatMap Call.released).countP fun h => h.resource = r)
    {op : Operation} (hop : op.throughEngine = true) :
    (s.step e op).2.world.events.count ⟨r, .released⟩ =
      ((s.step e op).2.world.trace.flatMap Call.released).countP fun h => h.resource = r := by
  obtain ⟨hevents, htold⟩ := s.step_events e hop
  rw [hevents, htold, hobserved, if_pos rfl, List.count_append, hs,
    op.count_told _ r (by simp), Call.count_told_released, (s.step_trace e hop).1,
    List.flatMap_append, List.countP_append]

private theorem step_solvent (hobserved : e.observed = true) {s : Session σ} {n : Nat}
    (hs : s.Balanced) (hsolvent : Solvent n s.world.events) (hlive : liveBooks s.books < n)
    {op : Operation} (hop : op.throughEngine = true) : Solvent n (s.step e op).2.world.events := by
  obtain ⟨hevents, htold⟩ := s.step_events e hop
  rw [hobserved, if_pos rfl] at htold
  rw [hevents, htold]
  intro pre hpre r
  rcases prefix_append_cases hpre with hpre | ⟨rest, rfl, hrest⟩
  · exact hsolvent pre hpre r
  · obtain ⟨hreleased, hallocated⟩ := (s.step_trace e hop).2.told_bounded hrest r
    have hbalance := hs r
    have hkind : (if r = .book then liveBooks s.books else 0) < n := by split <;> omega
    rw [List.count_append, List.count_append]
    omega

/-- The reports are solvent in every history in which fewer than `n` books are live at a time. -/
theorem run_solvent (hobserved : e.observed = true) {s : Session σ} {n : Nat} (hs : s.Balanced)
    (hsolvent : Solvent n s.world.events) {ops : List Operation}
    (hops : ∀ op ∈ ops, op.throughEngine = true)
    (hlive : ∀ before after, ops = before ++ after → liveBooks (s.run e before).2.books < n) :
    Solvent n (s.run e ops).2.world.events := by
  induction ops generalizing s with
  | nil => exact hsolvent
  | cons op ops ih =>
    simp only [List.forall_mem_cons] at hops
    have hnow : liveBooks s.books < n := hlive [] _ rfl
    refine ih (step_balanced hobserved hs hops.1) (step_solvent hobserved hs hsolvent hnow hops.1)
      hops.2 fun before after heq => ?_
    exact hlive (op :: before) after (by rw [heq, List.cons_append])

theorem step_aside (e : Engine σ) (s : Session σ) {op : Operation}
    (hop : op.throughEngine = false) :
    (s.step e op).2.books = s.books ∧ (s.step e op).2.world.events = s.world.events := by
  have hdecode : ∀ p, (e.boundary.decodeText p s.world).2.events = s.world.events := by
    intro p
    simpa using (Engine.runs_decodeText (e := e) p s.world.backend s.world rfl).2.2.2
  have htext : ∀ t : NativeText, (t.text e.boundary s.world).2.events = s.world.events := by
    intro t
    obtain ⟨p, decoded⟩ := t
    cases decoded with
    | none => exact hdecode p
    | some text => rfl
  have hrelease : ∀ t : NativeText, (t.release e.boundary s.world).2.events = s.world.events := by
    intro t
    by_cases ht : t.ptr = 0
    · simp only [NativeText.release, ht, if_true]
      rfl
    · simpa using (Engine.runs_release (e := e) ht s.world.backend s.world rfl).2.2.2
  cases op with
  | newText p => exact ⟨rfl, rfl⟩
  | textHasValue i =>
    simp only [step, onText]
    split <;> exact ⟨rfl, rfl⟩
  | textText i =>
    simp only [step, onText]
    split
    · exact ⟨rfl, rfl⟩
    · exact ⟨rfl, htext _⟩
  | textRelease i =>
    simp only [step, onText]
    split
    · exact ⟨rfl, rfl⟩
    · exact ⟨rfl, hrelease _⟩
  | decode p => exact ⟨rfl, hdecode p⟩
  | raw call => cases call <;> exact ⟨rfl, rfl⟩
  | _ => simp [Operation.throughEngine] at hop

/-- A finalization is reported by the finalizer alone, when it releases a book that is live, and
right behind that release. -/
theorem finalized_of_mem_eventsOf (e : Engine σ) (s : Session σ) {op : Operation} {r : Resource}
    (h : ⟨r, .finalized⟩ ∈ s.eventsOf e op) :
    r = .book ∧ ∃ i p, op = .finalize (.parsed i) ∧ s.books[i]? = some ⟨p⟩ ∧ p ≠ 0 ∧
      s.callsOf e op = [.freeBook p] ∧
      s.eventsOf e op = [⟨.book, .released⟩, ⟨.book, .finalized⟩] := by
  cases hop : op.throughEngine with
  | false => simp [eventsOf, (s.step_aside e hop).2] at h
  | true =>
    have hevents := (s.step_events e hop).2
    have hobserved : e.observed = true := by
      by_contra hunobserved
      simp [hevents, hunobserved] at h
    rw [hobserved, if_pos rfl] at hevents
    have hcount := List.count_pos_iff.2 (hevents ▸ h)
    rw [Operation.count_told_finalized] at hcount
    split at hcount
    · rename_i hfinalizes
      refine ⟨hfinalizes.2, ?_⟩
      cases op with
      | finalize ref =>
        cases ref with
        | foreign => simp [eventsOf, step, onBook] at h
        | parsed i =>
          cases hb : s.books[i]? with
          | none => simp [eventsOf, step, onBook, hb] at h
          | some b =>
            obtain ⟨p⟩ := b
            by_cases hp : p = 0
            · subst hp
              rw [(step_released hop hb).2 rfl] at hcount
              exact absurd hcount (Nat.lt_irrefl 0)
            · have hcalls := (step_release (e := e) hop hb hp (by simp [Operation.releases])).2
              rw [hcalls] at hevents
              exact ⟨i, p, rfl, hb, hp, hcalls, hevents⟩
      | _ => simp [Operation.finalizes] at hfinalizes
    · exact absurd hcount (Nat.lt_irrefl 0)

/-- Every report of a finalization is about a book and stands right behind that of a release. -/
def FollowsRelease (events : List Event) : Prop :=
  ∀ pre r post, events = pre ++ ⟨r, .finalized⟩ :: post →
    r = .book ∧ pre.getLast? = some ⟨.book, .released⟩

theorem step_followsRelease {s : Session σ} (hs : FollowsRelease s.world.events) {op : Operation}
    (hop : op.throughEngine = true) : FollowsRelease (s.step e op).2.world.events := by
  intro pre r post heq
  rw [(s.step_events e hop).1] at heq
  have htwo : ⟨r, .finalized⟩ ∈ s.eventsOf e op →
      s.eventsOf e op = [⟨.book, .released⟩, ⟨.book, .finalized⟩] := by
    intro hmem
    obtain ⟨-, i, p, -, -, -, -, htwo⟩ := finalized_of_mem_eventsOf e s hmem
    exact htwo
  rcases List.append_eq_append_iff.1 heq with ⟨mid, rfl, hevents⟩ | ⟨mid, hbefore, hevents⟩
  -- the report is one of this operation, which makes two
  · rw [htwo (by simp [hevents])] at hevents
    match mid, hevents with
    | [], hevents => simp at hevents
    | [x], hevents =>
      obtain ⟨rfl, rfl, -⟩ := by simpa using hevents
      simp
    | x :: y :: mid, hevents => simp at hevents
  · cases mid with
    | nil =>
      rw [List.nil_append] at hevents
      simp [htwo (hevents ▸ List.mem_cons_self)] at hevents
    | cons x mid =>
      obtain ⟨rfl, -⟩ := List.cons.inj hevents
      exact hs pre r mid hbefore

end Session

end EngineHost
