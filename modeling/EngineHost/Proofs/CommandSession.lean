import EngineHost.Cli.Serialize
import EngineHost.Proofs.Capacity
import EngineHost.Proofs.EngineFault
import EngineHost.Proofs.Isolation
import EngineHost.Proofs.LiveGauge
import EngineHost.Proofs.ReleasedBook

/-!
# The work of a command is a session

A command that works with an engine parses one program, uses the book and closes it. Whatever the
boundary answers, the backend, the calls and the transitions are then those of a session that does
the same, so that what holds of all sessions holds of commands.
-/

namespace EngineHost

variable {σ α : Type} {e : Engine σ}

namespace Metrics.Registry

private theorem live_observe_congr {m m' : Registry} (h : m.live = m'.live) (event : Event) :
    (m.observe event).live = (m'.observe event).live := by
  obtain ⟨r, t⟩ := event
  cases t <;> simp [observe, count, Transition.name_inj, h]

private theorem live_foldl_congr {m m' : Registry} (h : m.live = m'.live) (events : List Event) :
    (events.foldl observe m).live = (events.foldl observe m').live := by
  induction events generalizing m m' with
  | nil => exact h
  | cons event events ih => exact ih (live_observe_congr h event)

private theorem live_observeEvaluation (m : Registry) (i : Interpreter)
    (outcome : Option Evaluation) :
    (m.observeEvaluation i outcome).live = m.live := by
  cases outcome <;> rfl

end Metrics.Registry

private theorem Engine.serializedLength_asks {b : Book} {w : World σ} {n : UInt64}
    (h : (e.serializedLength b w).1 = .ok n) :
    ∃ p, Call.vecLength p n ∈ (e.serializedLength b w).2.trace := by
  obtain ⟨book⟩ := b
  by_cases hb : book = 0
  · subst hb
    rw [(runs_serializedLength_released w.backend w rfl).1] at h
    cases h
  rcases hmade : (e.boundary.serialize book 0 w.backend).value with ⟨p, v⟩
  by_cases hv : v = 0
  · subst hv
    by_cases hp : p = 0
    · subst hp
      rw [(runs_serializedLength hb (runs_withVec_nothing hmade) w rfl).1] at h
      cases h
    · have hruns := runs_serializedLength hb (runs_withVec_made hmade hp
        ((runs_vecLength p _).map Except.ok)) w rfl
      rw [hruns.1] at h
      obtain rfl := Except.ok.inj h
      exact ⟨p, by simp [hruns.2.2.1]⟩
  · rw [(runs_serializedLength hb (runs_withVec_refused hmade hv) w rfl).1] at h
    cases h

private theorem Session.step_tells_length {s : Session σ} {i : Nat} {book : Book} {n : UInt64}
    (hb : s.books[i]? = some book)
    (h : (s.step e (.serializedLength (.parsed i))).1 = .length (.ok n)) :
    ∃ p, Call.vecLength p n ∈ (s.step e (.serializedLength (.parsed i))).2.world.trace := by
  simp only [step, onBook, hb] at h ⊢
  exact Engine.serializedLength_asks (Answer.length.inj h)

private theorem Session.step_close_nothing {s : Session σ} {i : Nat} (h : s.books[i]? = none) :
    (s.step e (.close (.parsed i))).2 = s := by
  simp only [step, onBook, h]

namespace Cli

/-- Whether an act belongs to the work between the opening of a backend and its closing. -/
def Act.isWork : Act → Bool
  | call _ | saved _ _ => true
  | opened | closed => false

/-- The path and the contents of a file that was written. -/
def Act.saved? : Act → Option (Bytes × Bytes)
  | saved path data => some (path, data)
  | _ => none

private theorem filterMap_call?_map (calls : List Call) :
    (calls.map .call).filterMap Act.call? = calls := by
  induction calls with
  | nil => rfl
  | cons c calls ih => exact congrArg (c :: ·) ih

private theorem filterMap_saved?_map (calls : List Call) :
    (calls.map .call).filterMap Act.saved? = [] := by
  induction calls with
  | nil => rfl
  | cons c calls ih => exact ih

private theorem Workplace.perform_outcome (p : Workplace σ) {P : α → Prop} {x : HostM σ α}
    (hx : Ends P x) (w : Work σ) : P (p.perform x w).1 :=
  hx { backend := w.backend }

/-- Work with an open backend that has gone as far as a session and has written some files. -/
structure Work.Follows (w : Work σ) (s : Session σ) (files : List (Bytes × Bytes)) : Prop where
  backend : w.backend = s.world.backend
  acts : ∃ work, w.acts = .opened :: work ∧ (∀ a ∈ work, a.isWork = true) ∧
    work.filterMap Act.call? = s.world.trace ∧ work.filterMap Act.saved? = files
  live : w.metrics.live = (s.world.events.foldl Metrics.Registry.observe {}).live

namespace Work.Follows

variable {w w' : Work σ} {s : Session σ} {files : List (Bytes × Bytes)}

/-- Remarks and counts of other things are not part of the session. -/
theorem of_eq (hw : w.Follows s files) (hbackend : w'.backend = w.backend)
    (hacts : w'.acts = w.acts) (hlive : w'.metrics.live = w.metrics.live) : w'.Follows s files :=
  ⟨hbackend.trans hw.backend, hacts ▸ hw.acts, hlive.trans hw.live⟩

theorem save (hw : w.Follows s files) (path data : Bytes) :
    Work.Follows { w with acts := w.acts ++ [.saved path data] } s (files ++ [(path, data)]) := by
  obtain ⟨work, hacts, hwork, hcalls, hfiles⟩ := hw.acts
  refine ⟨hw.backend, ⟨work ++ [.saved path data], ?_, ?_, ?_, ?_⟩, hw.live⟩
  · rw [hacts]
    rfl
  · rw [List.forall_mem_append]
    exact ⟨hwork, by simp [Act.isWork]⟩
  · rw [List.filterMap_append, hcalls]
    exact List.append_nil _
  · rw [List.filterMap_append, hfiles]
    rfl

/-- An operation of the host has the same value in the work as in the session, and the work goes on
to follow the session. -/
theorem perform (hw : w.Follows s files) {p : Workplace σ} {x : HostM σ α}
    (hx : ∃ a backend calls events, Runs p.engine x s.world.backend a backend calls events)
    (books : List Book) :
    (p.perform x w).1 = (x s.world).1 ∧
      (p.perform x w).2.Follows { s with world := (x s.world).2, books := books } files := by
  obtain ⟨a, backend, calls, events, hruns⟩ := hx
  obtain ⟨hvalue, hbackend, htrace, hevents⟩ := hruns s.world rfl
  obtain ⟨hvalue', hbackend', htrace', hevents'⟩ := hruns { backend := w.backend } hw.backend
  refine ⟨hvalue'.trans hvalue.symm, hbackend'.trans hbackend.symm, ?_, ?_⟩
  · obtain ⟨work, hacts, hwork, hcalls, hfiles⟩ := hw.acts
    refine ⟨work ++ calls.map .call, ?_, ?_, ?_, ?_⟩
    · change w.acts ++ (x { backend := w.backend }).2.trace.map .call = _
      rw [htrace', hacts]
      rfl
    · rw [List.forall_mem_append]
      exact ⟨hwork, by simp [Act.isWork]⟩
    · rw [List.filterMap_append, hcalls, filterMap_call?_map, htrace]
    · rw [List.filterMap_append, hfiles, filterMap_saved?_map, List.append_nil]
  · change ((x { backend := w.backend }).2.events.foldl _ w.metrics).live = _
    rw [hevents', hevents, List.foldl_append, List.foldl_append]
    exact Metrics.Registry.live_foldl_congr hw.live _

variable {p : Workplace σ} {book : Book}

private theorem parse_error (hw : w.Follows s files) {source : Bytes} {f : Fault}
    (hf : (p.perform (p.engine.parse source) w).1 = .error f) :
    (s.step p.engine (.parse source)).2.books = s.books ∧
      (p.perform (p.engine.parse source) w).2.Follows
        (s.step p.engine (.parse source)).2 files := by
  obtain ⟨a, backend, calls, hruns, -⟩ := p.engine.parse_transcript source s.world.backend
  obtain ⟨hvalue, hfollows⟩ := hw.perform ⟨a, backend, calls, _, hruns⟩ s.books
  rw [Session.step_parse_error (hvalue.symm.trans hf)]
  exact ⟨rfl, hfollows⟩

private theorem parse_ok (hw : w.Follows s files) {source : Bytes}
    (hbook : (p.perform (p.engine.parse source) w).1 = .ok book) :
    (s.step p.engine (.parse source)).1 = .book s.books.length ∧
      (s.step p.engine (.parse source)).2.books = s.books ++ [book] ∧
      (p.perform (p.engine.parse source) w).2.Follows
        (s.step p.engine (.parse source)).2 files := by
  obtain ⟨a, backend, calls, hruns, -⟩ := p.engine.parse_transcript source s.world.backend
  obtain ⟨hvalue, hfollows⟩ := hw.perform ⟨a, backend, calls, _, hruns⟩ (s.books ++ [book])
  rw [Session.step_parse_ok (hvalue.symm.trans hbook)]
  exact ⟨rfl, rfl, hfollows⟩

section Uses

variable {i : Nat} (hw : w.Follows s files) (hb : s.books[i]? = some book)

include hw hb

theorem evaluate (options : EvaluateOptions) :
    (s.step p.engine (.evaluate (.parsed i) options)).1 =
        .evaluation (p.perform (p.engine.evaluate book options) w).1 ∧
      (p.perform (p.engine.evaluate book options) w).2.Follows
        (s.step p.engine (.evaluate (.parsed i) options)).2 files := by
  obtain ⟨a, backend, calls, hruns, -⟩ := p.engine.evaluate_transcript book options s.world.backend
  obtain ⟨hvalue, hfollows⟩ := hw.perform ⟨a, backend, calls, _, hruns⟩ s.books
  simp only [Session.step, Session.onBook, hb]
  exact ⟨by rw [hvalue]; rfl, hfollows⟩

theorem serializedLength :
    (s.step p.engine (.serializedLength (.parsed i))).1 =
        .length (p.perform (p.engine.serializedLength book) w).1 ∧
      (p.perform (p.engine.serializedLength book) w).2.Follows
        (s.step p.engine (.serializedLength (.parsed i))).2 files := by
  obtain ⟨a, backend, calls, hruns, -⟩ := p.engine.serializedLength_transcript book s.world.backend
  obtain ⟨hvalue, hfollows⟩ := hw.perform ⟨a, backend, calls, _, hruns⟩ s.books
  simp only [Session.step, Session.onBook, hb]
  exact ⟨by rw [hvalue]; rfl, hfollows⟩

theorem serializeTo (buffer : Bytes) :
    (s.step p.engine (.serializeTo (.parsed i) buffer)).1 =
        .filled (p.perform (p.engine.serializeTo book buffer) w).1 ∧
      (p.perform (p.engine.serializeTo book buffer) w).2.Follows
        (s.step p.engine (.serializeTo (.parsed i) buffer)).2 files := by
  obtain ⟨a, backend, calls, hruns, -⟩ := p.engine.serializeTo_transcript book buffer
    s.world.backend
  obtain ⟨hvalue, hfollows⟩ := hw.perform ⟨a, backend, calls, _, hruns⟩ s.books
  simp only [Session.step, Session.onBook, hb]
  exact ⟨by rw [hvalue]; rfl, hfollows⟩

theorem close :
    (s.step p.engine (.close (.parsed i))).1 = .closed ∧
      (p.perform (p.engine.close book) w).2.Follows
        (s.step p.engine (.close (.parsed i))).2 files := by
  have hruns : ∃ a backend calls events,
      Runs p.engine (p.engine.close book) s.world.backend a backend calls events := by
    obtain ⟨q⟩ := book
    by_cases hq : q = 0
    · subst hq
      exact ⟨_, _, _, _, Engine.runs_close_released _⟩
    · exact ⟨_, _, _, _, Engine.runs_close hq _⟩
  simp only [Session.step, Session.onBook, hb]
  exact ⟨trivial, (hw.perform hruns _).2⟩

end Uses

end Work.Follows

/-- A few uses of the first book of a session, none of which releases it. -/
structure Uses (ops : List Operation) : Prop where
  few : ops.length ≤ 2
  keeps : ∀ op ∈ ops, op.book? = some 0 ∧ op.ends = false

namespace Uses

variable {ops : List Operation}

theorem throughEngine (h : Uses ops) : ∀ op ∈ ops, op.throughEngine = true :=
  fun op hop => Operation.throughEngine_of_book? (h.keeps op hop).1

theorem run_live (h : Uses ops) {s : Session σ} {book : Book} (hb : s.books[0]? = some book) :
    (s.run e ops).2.books[0]? = some book :=
  (Session.run_live h.throughEngine hb fun op hop => by
    rw [Operation.releases_eq_ends (h.keeps op hop).1]
    exact (h.keeps op hop).2).1

end Uses

/-- What is said of a value: which operations it comes from, what they answered and which files were
written on the way. -/
abbrev Postcondition (α : Type) :=
  α → List Operation → List Answer → List (Bytes × Bytes) → Prop

/-- A failure of the work itself: one of the engine, one to write a file, or that there is no room
for an encoding of the length that the engine told. -/
inductive Failure.OfWork (f : Failure) (files : Files) (room : Nat) (trace : List Call) : Prop
  | engine (h : f.fault.ByEngine)
  | file {path : Bytes} (h : files.checkWrite path = .error f.fault)
  | crash {reason : Bytes} {p : Ptr} {n : UInt64} (h : f.fault = .crash reason)
      (hroom : room < n.toNat) (hcall : .vecLength p n ∈ trace)

theorem Failure.OfWork.append {f : Failure} {files : Files} {room : Nat} {trace : List Call}
    (h : f.OfWork files room trace) (calls : List Call) : f.OfWork files room (trace ++ calls) := by
  cases h with
  | engine h => exact .engine h
  | file h => exact .file h
  | crash h hroom hcall => exact .crash h hroom (List.mem_append_left _ hcall)

/-- From work that follows a session, the use of its first book follows some uses of it there. If it
succeeds, the postcondition holds, and else the failure is one of the work. -/
def FollowsUses (p : Workplace σ) (use : Book → WorkM σ (Except Failure α))
    (post : Postcondition α) : Prop :=
  ∀ {w : Work σ} {s : Session σ} {book : Book} {files : List (Bytes × Bytes)},
    w.Follows s files → s.books[0]? = some book →
    ∃ ops written, Uses ops ∧ (use book w).2.Follows (s.run p.engine ops).2 (files ++ written) ∧
      (∀ a, (use book w).1 = .ok a → post a ops (s.run p.engine ops).1 written) ∧
      ∀ f, (use book w).1 = .error f →
        f.OfWork p.files p.room (s.run p.engine ops).2.world.trace

private theorem bind_apply {β : Type} (m : WorkM σ α) (f : α → WorkM σ β) (w : Work σ) :
    (m >>= f) w = f (m w).1 (m w).2 :=
  rfl

private theorem pure_apply (a : α) (w : Work σ) : (pure a : WorkM σ α) w = (a, w) := rfl

private theorem modify_apply (f : Work σ → Work σ) (w : Work σ) :
    (modify f : WorkM σ PUnit) w = (⟨⟩, f w) :=
  rfl

private theorem follows_failure {p : Workplace σ} {w : Work σ} {s : Session σ}
    {ops : List Operation} {files : List (Bytes × Bytes)} {post : Postcondition α}
    (huses : Uses ops) (hw : w.Follows (s.run p.engine ops).2 files) {f : Failure}
    (hf : f.OfWork p.files p.room (s.run p.engine ops).2.world.trace) :
    ∃ ops written, Uses ops ∧
      ((pure (.error f) : WorkM σ (Except Failure α)) w).2.Follows (s.run p.engine ops).2
        (files ++ written) ∧
      (∀ a, ((pure (.error f) : WorkM σ (Except Failure α)) w).1 = .ok a →
        post a ops (s.run p.engine ops).1 written) ∧
      ∀ f', ((pure (.error f) : WorkM σ (Except Failure α)) w).1 = .error f' →
        f'.OfWork p.files p.room (s.run p.engine ops).2.world.trace := by
  simp only [pure_apply]
  refine ⟨ops, [], huses, ?_, by simp, fun f' hf' => ?_⟩
  · rwa [List.append_nil]
  · rwa [← Except.error.inj hf']

def runOptions (c : RunConfig) : EvaluateOptions :=
  .ofSettings [.interpreter (interpreterOf c), .memDump c.memDump]

/-- A run evaluates its book and asks for the size of the encoding, and it reports both. -/
structure Evaluated (env : Environment σ) (c : RunConfig) (program : Bytes) (r : RunResult)
    (ops : List Operation) (answers : List Answer) (written : List (Bytes × Bytes)) : Prop where
  ops_eq : ops = [.evaluate (.parsed 0) (runOptions c), .serializedLength (.parsed 0)]
  reported : ∃ evaluation size,
    answers = [.evaluation (.ok evaluation), .length (.ok size)] ∧
      r.report =
        { runId := env.runId, timestamp := env.stop, outcome := .success evaluation
          metadata := some
            { start := env.start, stop := env.stop, backend := c.backend
              interpreter := (interpreterOf c).name, serializedBytes := size } }
  program_eq : r.program = program
  unwritten : written = []

theorem evaluateBook_follows (env : Environment σ) (p : Workplace σ) (c : RunConfig)
    (program : Bytes) : FollowsUses p (evaluateBook env p c program) (Evaluated env c program) := by
  intro w s book files hw hb
  have hevaluates : Uses [.evaluate (.parsed 0) (runOptions c)] := by
    constructor <;> simp [Operation.book?, Operation.ends]
  have hmeasures : Uses [.evaluate (.parsed 0) (runOptions c), .serializedLength (.parsed 0)] := by
    constructor <;> simp [Operation.book?, Operation.ends]
  simp only [evaluateBook, bind_apply, modify_apply]
  rw [← runOptions.eq_1]
  obtain ⟨hevaluation, hevaluated⟩ := hw.evaluate (p := p) hb (runOptions c)
  have hb : (s.step p.engine (.evaluate (.parsed 0) (runOptions c))).2.books[0]? = some book :=
    Session.step_stays_live p.engine hb rfl
  have hfault := p.perform_outcome (p.engine.ends_evaluate book (runOptions c)) w
  generalize p.perform (p.engine.evaluate book (runOptions c)) w = evaluated
    at hevaluation hevaluated hfault ⊢
  obtain ⟨outcome, w₁⟩ := evaluated
  have hcounted : Work.Follows { w₁ with
      metrics := w₁.metrics.observeEvaluation (interpreterOf c) outcome.toOption } _ files :=
    hevaluated.of_eq rfl rfl (Metrics.Registry.live_observeEvaluation ..)
  generalize { w₁ with metrics := _ } = w₂ at hcounted ⊢
  cases outcome with
  | error f => exact follows_failure hevaluates hcounted (.engine (hfault f rfl))
  | ok evaluation =>
    obtain ⟨hlength, hmeasured⟩ := hcounted.serializedLength (p := p) hb
    have hfault := p.perform_outcome (p.engine.ends_serializedLength book) w₂
    simp only [bind_apply]
    generalize p.perform (p.engine.serializedLength book) w₂ = measured
      at hlength hmeasured hfault ⊢
    obtain ⟨size, w₃⟩ := measured
    cases size with
    | error f => exact follows_failure hmeasures hmeasured (.engine (hfault f rfl))
    | ok size =>
      simp only [bind_apply, pure_apply, Workplace.log, modify_apply, Except.ok.injEq]
      refine ⟨_, [], hmeasures, ?_, ?_, by simp⟩
      · rw [List.append_nil]
        exact hmeasured.of_eq rfl rfl rfl
      · rintro r rfl
        refine ⟨rfl, ⟨evaluation, size, ?_, rfl⟩, rfl, rfl⟩
        simp only [Session.run, hevaluation, hlength]

def outputFile (file data : Bytes) : List (Bytes × Bytes) :=
  if file.isEmpty then [] else [(file, data)]

/-- A program is encoded into a buffer of the size that was reported before. -/
structure Encoded (program file : Bytes) (r : Encoding) (ops : List Operation)
    (answers : List Answer) (written : List (Bytes × Bytes)) : Prop where
  measured : ∃ size buffer,
    ops = [.serializedLength (.parsed 0), .serializeTo (.parsed 0) (List.replicate size.toNat 0)] ∧
      answers = [.length (.ok size), .filled ⟨.ok (some r.size), buffer⟩] ∧
      r.data = buffer.take r.size.toNat
  program_eq : r.program = program
  file_eq : r.file = file
  written_eq : written = outputFile file r.data

theorem encodeBook_follows (p : Workplace σ) (program file : Bytes) :
    FollowsUses p (encodeBook p program file) (Encoded program file) := by
  intro w s book files hw hbook
  simp only [encodeBook, bind_apply]
  obtain ⟨hlength, hmeasured⟩ := hw.serializedLength (p := p) hbook
  have hb : (s.step p.engine (.serializedLength (.parsed 0))).2.books[0]? = some book :=
    Session.step_stays_live p.engine hbook rfl
  have hfault := p.perform_outcome (p.engine.ends_serializedLength book) w
  generalize p.perform (p.engine.serializedLength book) w = measured at hlength hmeasured hfault ⊢
  obtain ⟨size, w₁⟩ := measured
  have hmeasures : Uses [.serializedLength (.parsed 0)] := by
    constructor <;> simp [Operation.book?, Operation.ends]
  cases size with
  | error f => exact follows_failure hmeasures hmeasured (.engine (hfault f rfl))
  | ok size =>
    by_cases hroom : p.room < size.toNat
    · simp only [hroom, if_true]
      obtain ⟨q, hcall⟩ := Session.step_tells_length hbook hlength
      exact follows_failure hmeasures hmeasured (.crash rfl hroom hcall)
    simp only [hroom, if_false, bind_apply]
    generalize hblank : List.replicate size.toNat (0 : UInt8) = blank
    have huses : Uses [.serializedLength (.parsed 0), .serializeTo (.parsed 0) blank] := by
      constructor <;> simp [Operation.book?, Operation.ends]
    obtain ⟨hfilled, hencoded⟩ := hmeasured.serializeTo (p := p) hb blank
    have hfault := p.perform_outcome (p.engine.ends_serializeTo book blank) w₁
    generalize p.perform (p.engine.serializeTo book blank) w₁ = encoded at hfilled hencoded hfault ⊢
    obtain ⟨⟨outcome, buffer⟩, w₂⟩ := encoded
    cases outcome with
    | error f => exact follows_failure huses hencoded (.engine (hfault f rfl))
    | ok written =>
      cases written with
      | none => exact follows_failure huses hencoded (.engine (.noticed _))
      | some written =>
        have hanswers : (s.run p.engine
            [.serializedLength (.parsed 0), .serializeTo (.parsed 0) blank]).1 =
              [.length (.ok size), .filled ⟨.ok (some written), buffer⟩] := by
          simp only [Session.run, hlength, hfilled]
        simp only [bind_apply, Workplace.remark, modify_apply]
        have hremarked : Work.Follows { w₂ with diagnostics := w₂.diagnostics ++
            (p.output.remark ("Serialized " ++ program ++ ": " ++ Bytes.ofNat written.toNat ++
              " bytes")).err } _ files := hencoded.of_eq rfl rfl rfl
        generalize { w₂ with diagnostics := _ } = w₃ at hremarked ⊢
        by_cases hfile : file.isEmpty
        · simp only [hfile, if_true, pure_apply, Except.ok.injEq]
          refine ⟨_, [], huses, ?_, ?_, by simp⟩
          · rw [List.append_nil]
            exact hremarked
          · rintro r rfl
            exact ⟨⟨size, buffer, by rw [hblank], hanswers, rfl⟩, rfl, rfl,
              by simp [outputFile, hfile]⟩
        · simp only [hfile, Bool.false_eq_true, if_false, bind_apply, Workplace.save]
          cases hwrite : p.files.checkWrite file with
          | error f => exact follows_failure huses hremarked (.file hwrite)
          | ok =>
            simp only [pure_apply, Except.ok.injEq]
            refine ⟨_, [(file, buffer.take written.toNat)], huses, hremarked.save .., ?_, by simp⟩
            rintro r rfl
            exact ⟨⟨size, buffer, by rw [hblank], hanswers, rfl⟩, rfl, rfl,
              by simp [outputFile, hfile]⟩

/-- What a session does on the errand of a command: it parses one program, uses the book and closes
it. -/
def errand (source : Bytes) (ops : List Operation) : List Operation :=
  .parse source :: (ops ++ [.close (.parsed 0)])

theorem run_errand (e : Engine σ) (s : Session σ) (source : Bytes) (ops : List Operation) :
    let parsed := s.step e (.parse source)
    let used := parsed.2.run e ops
    let closed := used.2.step e (.close (.parsed 0))
    s.run e (errand source ops) = (parsed.1 :: (used.1 ++ [closed.1]), closed.2) := by
  simp only [errand, Session.run, Session.run_append]

theorem withBook_follows {p : Workplace σ} {w : Work σ} {files : List (Bytes × Bytes)}
    {use : Book → WorkM σ (Except Failure α)} {post : Postcondition α}
    (huse : FollowsUses p use post) (source : Bytes) {backend : σ}
    (hw : w.Follows (.start backend) files) :
    ∃ ops written, Uses ops ∧
      (p.withBook source use w).2.Follows
        ((Session.start backend).run p.engine (errand source ops)).2 (files ++ written) ∧
      (∀ a, (p.withBook source use w).1 = .ok a → ∃ answers,
        ((Session.start backend).run p.engine (errand source ops)).1 =
          .book 0 :: (answers ++ [.closed]) ∧ post a ops answers written) ∧
      ∀ f, (p.withBook source use w).1 = .error f →
        f.OfWork p.files p.room
          ((Session.start backend).run p.engine (errand source ops)).2.world.trace := by
  simp only [Workplace.withBook, bind_apply]
  generalize hstart : Session.start backend = s at hw ⊢
  have hnone : s.books = [] := by rw [← hstart]; rfl
  have hfault := p.perform_outcome (p.engine.ends_parse source) w
  cases hparsed : (p.perform (p.engine.parse source) w).1 with
  | error f =>
    obtain ⟨hbooks, hfollows⟩ := hw.parse_error hparsed
    -- there is no book that could be used, and none to be closed
    have hidle : (s.run p.engine (errand source [])).2 = (s.step p.engine (.parse source)).2 := by
      rw [run_errand]
      exact Session.step_close_nothing (by rw [Session.run, hbooks, hnone]; rfl)
    simp only [pure_apply]
    refine ⟨[], [], ⟨by simp, by simp⟩, ?_, by simp, fun f' hf' => ?_⟩
    · rw [hidle, List.append_nil]
      exact hfollows
    · rw [← Except.error.inj hf']
      exact .engine (hfault f hparsed)
  | ok book =>
    obtain ⟨hmade, hbooks, hfollows⟩ := hw.parse_ok hparsed
    have hb : (s.step p.engine (.parse source)).2.books[0]? = some book := by
      rw [hbooks, hnone]
      rfl
    simp only [bind_apply, pure_apply]
    obtain ⟨ops, written, huses, hused, hpost, hfails⟩ := huse hfollows hb
    obtain ⟨hclosed, hfollows⟩ := hused.close (p := p) (huses.run_live hb)
    refine ⟨ops, written, huses, ?_, fun a ha => ⟨_, ?_, hpost a ha⟩, fun f hf => ?_⟩
    · rw [run_errand]
      exact hfollows
    · simp only [run_errand, hmade, hclosed, hnone, List.length_nil]
    · rw [run_errand, (Session.step_trace p.engine _ rfl).1]
      exact (hfails f hf).append _

section Errands

variable {ops : List Operation} (e) (backend : σ) (source : Bytes)

theorem length_books_le_one (hops : ∀ op ∈ ops, op.book? = some 0) :
    ((Session.start backend).run e (.parse source :: ops)).2.books.length ≤ 1 := by
  have hparsed : ((Session.start backend).step e (.parse source)).2.books.length ≤ 1 := by
    have hsteps := (Session.start backend).step_parse e source
    generalize ((Session.start backend).step e (.parse source)).1 = answer,
      ((Session.start backend).step e (.parse source)).2 = s at hsteps ⊢
    cases hsteps with
    | idle hop => exact absurd rfl (hop source)
    | refused => exact Nat.zero_le 1
    | parsed => exact Nat.le_refl 1
  refine Session.run_preserves (Q := fun op => op.book? = some 0)
    (P := fun s => s.books.length ≤ 1) ?_ hops hparsed
  intro s op hop hs
  refine Nat.le_trans (Nat.not_lt.1 fun hlt => ?_) hs
  obtain ⟨source, rfl, -⟩ := s.parse_of_length_lt e (Operation.throughEngine_of_book? hop) hlt
  simp [Operation.book?] at hop

theorem Uses.errand_book? (h : Uses ops) :
    ∀ op ∈ ops ++ [.close (.parsed 0)], op.book? = some 0 := by
  rw [List.forall_mem_append]
  exact ⟨fun op hop => (h.keeps op hop).1, by simp [Operation.book?]⟩

theorem Uses.errand_throughEngine (h : Uses ops) :
    ∀ op ∈ errand source ops, op.throughEngine = true := by
  rw [errand, List.forall_mem_cons]
  exact ⟨rfl, fun op hop => Operation.throughEngine_of_book? (h.errand_book? op hop)⟩

theorem Uses.errand_within (h : Uses ops) {source : Bytes} (hsource : source.length < 2 ^ 63) :
    (Session.start backend).Within e (errand source ops) := by
  have hfew := h.few
  refine Session.within_alone e backend hsource h.errand_book? ?_
  rw [List.length_append, List.length_singleton]
  omega

theorem Uses.errand_released (h : Uses ops) :
    ∀ b ∈ ((Session.start backend).run e (errand source ops)).2.books, b.released = true := by
  have hfew := length_books_le_one e backend source h.errand_book?
  rw [← errand, run_errand] at hfew
  rw [run_errand]
  generalize (((Session.start backend).step e (.parse source)).2.run e ops).2 = s at hfew ⊢
  intro b hb
  obtain ⟨i, hi, rfl⟩ := List.mem_iff_getElem.1 hb
  obtain rfl : i = 0 := by omega
  cases hbook : s.books[0]? with
  | none =>
    rw [Session.step_close_nothing hbook] at hi
    exact absurd hi (Nat.not_lt.2 (List.getElem?_eq_none_iff.1 hbook))
  | some book =>
    have hzero : (s.step e (.close (.parsed 0))).2.books[0]? = some ⟨0⟩ :=
      Session.step_ends e (List.getElem?_eq_some_iff.1 hbook).1 rfl
    obtain ⟨_, hzero⟩ := List.getElem?_eq_some_iff.1 hzero
    rw [hzero]
    rfl

theorem Uses.errand_settled (h : Uses ops) :
    let trace := ((Session.start backend).run e (errand source ops)).2.world.trace
    (trace.flatMap Call.handed).Perm (trace.flatMap Call.released) := by
  have hheld : Session.held ((Session.start backend).run e (errand source ops)).2.books = [] := by
    refine List.flatMap_eq_nil_iff.2 fun b hb => ?_
    have hzero : b.ptr = 0 := by simpa [Book.released] using h.errand_released e backend source b hb
    rw [hzero, unlessNull_zero]
  have hperm := Session.handed_perm_held e backend (h.errand_throughEngine source)
  simpa only [hheld, List.append_nil] using hperm

end Errands

end Cli

end EngineHost
