import EngineHost.Proofs.GuestOperations

/-!
# Sessions over a guest

Over any guest, after every operation of a history: the blocks that the host reserved have been
given back, each once and with its size, nothing else was given back, and each error text was
released by whoever had made it. An operation during which the guest fails reports an error, with
one exception: the length of a vector that the guest cannot tell is taken to be zero.
-/

namespace EngineHost

def Answer.isFailure : Answer → Bool
  | failed _ | evaluation (.error _) | bytes (.error _) | length (.error _) => true
  | filled ⟨.error _, _⟩ => true
  | _ => false

namespace Guest

variable {γ α : Type} {m : Machine γ} {observed : Bool} {s : Session (Instance γ)}

theorem Settles.congr {i i' : Instance γ} {calls : List Call} {h : List GuestCall}
    {failed failed' : Prop} (hs : Settles i i' calls h failed) (hiff : failed ↔ failed') :
    Settles i i' calls h failed' :=
  ⟨hs.grew, hs.balanced, fun hfails => hiff.symm.trans (hs.tells hfails)⟩

theorem Settles.idle {i : Instance γ} (hi : i.hostTexts = []) (failed : Prop) :
    Settles i i [] [] failed where
  grew := ⟨(List.append_nil _).symm, hi⟩
  balanced := .of_quiet .nil
  tells := by simp

private theorem settles_of_runs {x : HostM (Instance γ) α} {failed : α → Prop}
    (hx : ∃ a i' calls events h, Runs (host m observed) x s.world.backend a i' calls events ∧
      Settles s.world.backend i' calls h (failed a)) :
    ∃ calls h, (x s.world).2.trace = s.world.trace ++ calls ∧
      Settles s.world.backend (x s.world).2.backend calls h (failed (x s.world).1) := by
  obtain ⟨a, i', calls, events, h, hruns, hsettles⟩ := hx
  obtain ⟨rfl, rfl, htrace, -⟩ := hruns s.world rfl
  exact ⟨calls, h, htrace, hsettles⟩

private theorem exists_mapError {ε ε' : Type} (f : ε → ε') (a : Except ε α) :
    (∃ g, a.mapError f = .error g) ↔ ∃ g, a = .error g := by
  cases a <;> simp [Except.mapError]

private theorem settles_of_book {x : Book → HostM (Instance γ) α} (failed : α → Prop) (b : Book)
    (hs : s.world.backend.hostTexts = [])
    (hreleased : ∃ a, Runs (host m observed) (x ⟨0⟩) s.world.backend a s.world.backend [] [])
    (hlive : ∀ p, p ≠ 0 → ∃ a i' calls events h,
      Runs (host m observed) (x ⟨p⟩) s.world.backend a i' calls events ∧
        Settles s.world.backend i' calls h (failed a)) :
    ∃ calls h, (x b s.world).2.trace = s.world.trace ++ calls ∧
      Settles s.world.backend (x b s.world).2.backend calls h (failed (x b s.world).1) := by
  obtain ⟨p⟩ := b
  by_cases hp : p = 0
  · subst hp
    obtain ⟨a, hruns⟩ := hreleased
    exact settles_of_runs ⟨a, _, _, _, [], hruns, .idle hs _⟩
  · exact settles_of_runs (hlive p hp)

private theorem freeBook_settles (m : Machine γ) (p : Ptr) {i : Instance γ}
    (hi : i.hostTexts = []) :
    ∃ h, Settles i ((boundary m).freeBook p i).state [.freeBook p] h False := by
  obtain ⟨ending, memory, hrelease⟩ := does_release m .freeBook p i
  rw [hi] at hrelease
  have hquiet := quiet_release (f := .freeBook) rfl (by simp) (by simp)
    [(guestAddress p).toUInt64] ending memory
  refine ⟨_, hrelease.reply.2, .of_quiet hquiet, ?_⟩
  rintro ⟨c, hc, hfails⟩
  rw [List.mem_singleton.1 hc] at hfails
  cases ending <;> simp [GuestCall.fails, Export.releases] at hfails

private theorem step_settled (m : Machine γ) (observed : Bool) (hs : s.world.backend.hostTexts = [])
    {op : Operation} (hop : op.throughEngine = true) :
    ∃ calls h, (s.step (host m observed) op).2.world.trace = s.world.trace ++ calls ∧
      Settles s.world.backend (s.step (host m observed) op).2.world.backend calls h
        ((s.step (host m observed) op).1.isFailure = true) := by
  have hsteps := s.step_steps (host m observed) hop
  generalize (s.step (host m observed) op).1 = a, (s.step (host m observed) op).2 = s' at hsteps ⊢
  cases hsteps with
  | idle => exact ⟨[], [], by simp, .idle hs _⟩
  | @refused source f hparse =>
    obtain ⟨calls, h, htrace, hsettles⟩ := settles_of_runs (parse_settles m observed source hs)
    exact ⟨calls, h, htrace, hsettles.congr (by simp [hparse, Answer.isFailure])⟩
  | @parsed source b hparse =>
    obtain ⟨calls, h, htrace, hsettles⟩ := settles_of_runs (parse_settles m observed source hs)
    exact ⟨calls, h, htrace, hsettles.congr (by simp [hparse, Answer.isFailure])⟩
  | @evaluated i b options hb =>
    obtain ⟨calls, h, htrace, hsettles⟩ := settles_of_book
      (x := fun b => (host m observed).evaluate b options) _ b hs
      ⟨_, Engine.runs_evaluate_released options _⟩
      fun p hp => evaluate_settles m observed hp options hs
    refine ⟨calls, h, htrace, hsettles.congr ?_⟩
    cases ((host m observed).evaluate b options s.world).1 <;> simp [Answer.isFailure]
  | @serialized i b hb =>
    obtain ⟨calls, h, htrace, hsettles⟩ := settles_of_book
      (x := fun b => (host m observed).serialize b) (fun a => ∃ f, a = .error f) b hs
      ⟨_, Engine.runs_serialize_released _⟩ fun p hp => by
        obtain ⟨a, i', calls, events, h, hruns, hsettles⟩ :=
          withVec_settles m observed (vecBytes_uses m observed) none p hs
        exact ⟨_, i', calls, events, h, Engine.runs_serialize hp hruns,
          hsettles.congr (exists_mapError _ a).symm⟩
    refine ⟨calls, h, htrace, hsettles.congr ?_⟩
    cases ((host m observed).serialize b s.world).1 <;> simp [Answer.isFailure]
  | @filled i b buffer hb =>
    obtain ⟨calls, h, htrace, hsettles⟩ := settles_of_book
      (x := fun b => (host m observed).serializeTo b buffer)
      (fun r => ∃ f, r.outcome = .error f) b hs
      ⟨_, Engine.runs_serializeTo_released buffer _⟩ fun p hp => by
        obtain ⟨a, i', calls, events, h, hruns, hsettles⟩ :=
          withVec_settles m observed (vecFill_uses m observed buffer) { buffer := buffer } p hs
        refine ⟨_, i', calls, events, h, Engine.runs_serializeTo hp hruns, hsettles.congr ?_⟩
        cases a <;> simp [Engine.Filled.ofReturned]
    refine ⟨calls, h, htrace, hsettles.congr ?_⟩
    rcases ((host m observed).serializeTo b buffer s.world).1 with ⟨_ | _, _⟩ <;>
      simp [Answer.isFailure]
  | @measured i b hb =>
    obtain ⟨calls, h, htrace, hsettles⟩ := settles_of_book
      (x := fun b => (host m observed).serializedLength b) (fun a => ∃ f, a = .error f) b hs
      ⟨_, Engine.runs_serializedLength_released _⟩ fun p hp => by
        obtain ⟨a, i', calls, events, h, hruns, hsettles⟩ :=
          withVec_settles m observed (vecLength_uses m observed) 0 p hs
        exact ⟨_, i', calls, events, h, Engine.runs_serializedLength hp hruns,
          hsettles.congr (exists_mapError _ a).symm⟩
    refine ⟨calls, h, htrace, hsettles.congr ?_⟩
    cases ((host m observed).serializedLength b s.world).1 <;> simp [Answer.isFailure]
  | @closed i b hb =>
    obtain ⟨calls, h, htrace, hsettles⟩ := settles_of_book
      (x := fun b => (host m observed).close b) (fun _ => False) b hs
      ⟨_, Engine.runs_close_released _⟩ fun p hp =>
        let ⟨h, hsettles⟩ := freeBook_settles m p hs
        ⟨_, _, _, _, h, Engine.runs_close hp _, hsettles⟩
    exact ⟨calls, h, htrace, hsettles.congr (by simp [Answer.isFailure])⟩
  | @finalized i b hb =>
    obtain ⟨calls, h, htrace, hsettles⟩ := settles_of_book
      (x := fun b => (host m observed).finalize b) (fun _ => False) b hs
      ⟨_, Engine.runs_finalize_released _⟩ fun p hp =>
        let ⟨h, hsettles⟩ := freeBook_settles m p hs
        ⟨_, _, _, _, h, Engine.runs_finalize hp _, hsettles⟩
    exact ⟨calls, h, htrace, hsettles.congr (by simp [Answer.isFailure])⟩

def guestCallsOf (e : Engine (Instance γ)) (s : Session (Instance γ)) (op : Operation) :
    List GuestCall :=
  (s.step e op).2.world.backend.history.drop s.world.backend.history.length

private theorem step_settles (m : Machine γ) (observed : Bool) (hs : s.world.backend.hostTexts = [])
    {op : Operation} (hop : op.throughEngine = true) :
    Settles s.world.backend (s.step (host m observed) op).2.world.backend
      (s.callsOf (host m observed) op) (guestCallsOf (host m observed) s op)
      ((s.step (host m observed) op).1.isFailure = true) := by
  obtain ⟨calls, h, htrace, hsettles⟩ := step_settled m observed hs hop
  have hguest : guestCallsOf (host m observed) s op = h := by
    rw [guestCallsOf, hsettles.grew.history, List.drop_left]
  rw [Session.callsOf_eq htrace, hguest]
  exact hsettles

/-- A module that no call has reached yet. -/
def fresh (guest : γ) (memory : Memory) (stderr : Capture) (closed : Bool) : Instance γ :=
  { guest, memory, stderr, closed }

/-- Between operations the host holds no guest memory. -/
theorem run_settles (m : Machine γ) (observed : Bool) (i : Instance γ) (hhistory : i.history = [])
    (htexts : i.hostTexts = []) {ops : List Operation}
    (hops : ∀ op ∈ ops, op.throughEngine = true) :
    let s := ((Session.start i).run (host m observed) ops).2
    Leaves s.world.backend.history 0 ∧ s.world.backend.hostTexts = [] := by
  have hstart : Leaves i.history 0 := hhistory ▸ .nil
  refine Session.run_preserves (P := fun s : Session (Instance γ) =>
    Leaves s.world.backend.history 0 ∧ s.world.backend.hostTexts = []) ?_ hops ⟨hstart, htexts⟩
  rintro s op hop ⟨hleaves, htexts⟩
  have hsettles := step_settles m observed htexts hop
  refine ⟨?_, hsettles.grew.hostTexts⟩
  rw [hsettles.grew.history]
  simpa using hleaves.append hsettles.balanced.leaves

structure MemoryKept (m : Machine γ) (observed : Bool) (i : Instance γ) (ops : List Operation) :
    Prop where
  /-- At any time every block has been given back, and the host keeps no text of its own. -/
  between : ∀ before after, ops = before ++ after →
    let s := ((Session.start i).run (host m observed) before).2
    holdings s.world.backend.history 0 = some 0 ∧ s.world.backend.hostTexts = []
  /-- The accounts of each operation are balanced. -/
  operation : ∀ before op after, ops = before ++ op :: after →
    let s := ((Session.start i).run (host m observed) before).2
    (s.step (host m observed) op).2.world.backend.history =
        s.world.backend.history ++ guestCallsOf (host m observed) s op ∧
      Balanced (guestCallsOf (host m observed) s op)
        ((s.callsOf (host m observed) op).flatMap Call.errorTexts)

/-- Whatever a guest does, the host gives back what it reserved and nothing else, and every error
text is released by its maker. -/
theorem memoryKept (m : Machine γ) (observed : Bool) (guest : γ) (memory : Memory)
    (stderr : Capture) (closed : Bool) (ops : List Operation)
    (hops : ∀ op ∈ ops, op.throughEngine = true) :
    MemoryKept m observed (fresh guest memory stderr closed) ops where
  between := by
    rintro before after rfl
    have hbefore : ∀ op ∈ before, op.throughEngine = true := fun op hop => hops op (by simp [hop])
    obtain ⟨hleaves, htexts⟩ :=
      run_settles m observed (fresh guest memory stderr closed) rfl rfl hbefore
    exact ⟨hleaves 0, htexts⟩
  operation := by
    rintro before op after rfl
    have hbefore : ∀ op ∈ before, op.throughEngine = true := fun op hop => hops op (by simp [hop])
    obtain ⟨-, htexts⟩ :=
      run_settles m observed (fresh guest memory stderr closed) rfl rfl hbefore
    have hsettles := step_settles m observed htexts (hops op (by simp))
    exact ⟨hsettles.grew.history, hsettles.balanced⟩

/-- A guest that reserves piece after piece, refuses to evaluate and cannot tell the length of a
vector; with an encoding it leaves an error text at the given address. -/
def stubborn (text : UInt8) : Machine UInt64 where
  run
    | .allocate, _, next, _ => { outcome := .ok [next], state := next + 32 }
    | .bookEvaluate, _, next, _ | .vecLength, _, next, _ =>
      { outcome := .error "boom", state := next }
    | .bookSerialize, [_, slot], next, _ =>
      { effects := [.store slot.toUInt32 [text, 0, 0, 0]], outcome := .ok [8], state := next }
    | _, _, next, _ => { outcome := .ok [8], state := next }

/-- An evaluation that traps, whose error text is the host's, and an encoding whose error text is
the guest's. -/
theorem memoryKept_stubborn :
    let ops : List Operation := [.parse "@main = 1", .evaluate (.parsed 0) {},
      .serialize (.parsed 0), .close (.parsed 0)]
    let i : Instance UInt64 := fresh 32 (.ofBytes (List.replicate 256 0)) { limit := 16 } false
    (∀ op ∈ ops, op.throughEngine = true) ∧
      ((Session.start i).run (host (stubborn 9) true) ops).2.world.backend.calls =
        [(.allocate, [10]), (.allocate, [4]), (.bookParse, [32, 64]), (.deallocate, [64, 4]),
          (.deallocate, [32, 10]), (.allocate, [4]), (.bookEvaluate, [8, 0, 0, 96]),
          (.allocate, [20]), (.deallocate, [96, 4]), (.deallocate, [128, 20]), (.allocate, [4]),
          (.bookSerialize, [8, 160]), (.deallocate, [160, 4]), (.freeText, [9]), (.freeVec, [8]),
          (.freeBook, [8])] ∧
      MemoryKept (stubborn 9) true i ops :=
  ⟨by decide, by decide +kernel, memoryKept _ _ _ _ _ _ _ (by decide)⟩

/-- Whatever a guest does, an operation during which one of its functions fails that is more than
a release reports an error, unless it was the first question for the length of a vector. -/
theorem isFailure_iff_length_told (m : Machine γ) (observed : Bool) (guest : γ) (memory : Memory)
    (stderr : Capture) (closed : Bool) (before : List Operation) (op : Operation)
    (hbefore : ∀ o ∈ before, o.throughEngine = true) (hop : op.throughEngine = true) :
    let s := ((Session.start (fresh guest memory stderr closed)).run (host m observed) before).2
    (∃ c ∈ guestCallsOf (host m observed) s op, c.fails = true) →
      ((s.step (host m observed) op).1.isFailure = true ↔
        lengthFails (guestCallsOf (host m observed) s op) = false) := by
  intro s hfails
  obtain ⟨-, htexts⟩ := run_settles m observed (fresh guest memory stderr closed) rfl rfl hbefore
  exact (step_settles m observed htexts hop).tells hfails

/-- A refused evaluation is reported; a length that the guest cannot tell is not. -/
theorem isFailure_iff_length_told_stubborn :
    let e := host (stubborn 0) true
    let i : Instance UInt64 := fresh 32 (.ofBytes (List.replicate 256 0)) { limit := 16 } false
    let s := ((Session.start i).run e [.parse "@main = 1"]).2
    ((s.step e (.evaluate (.parsed 0) {})).1.isFailure = true ∧
        (s.step e (.serializedLength (.parsed 0))).1.isFailure = false) ∧
      ((s.step e (.evaluate (.parsed 0) {})).1.isFailure = true ↔
        lengthFails (guestCallsOf e s (.evaluate (.parsed 0) {})) = false) ∧
      ((s.step e (.serializedLength (.parsed 0))).1.isFailure = true ↔
        lengthFails (guestCallsOf e s (.serializedLength (.parsed 0))) = false) :=
  ⟨by decide +kernel,
    isFailure_iff_length_told (stubborn 0) true 32 _ _ _ [.parse "@main = 1"] _ (by decide)
      (by decide) (by decide +kernel),
    isFailure_iff_length_told (stubborn 0) true 32 _ _ _ [.parse "@main = 1"] _ (by decide)
      (by decide) (by decide +kernel)⟩

end Guest

end EngineHost
