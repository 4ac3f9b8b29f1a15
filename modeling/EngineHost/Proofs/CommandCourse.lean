import EngineHost.Proofs.CommandSession

/-!
# The course of a command

A command that loads a program may fail before it opens a backend. Once it has opened one, its acts
are the work that follows a session, the closing of the backend and the writing of the metrics, in
this order.
-/

namespace EngineHost.Cli

variable {σ α : Type}

def Backend.closingActs (b : Backend σ) : List Act := if b.closing.isSome then [.closed] else []

/-- The acts by which metrics are written: none if no file was asked for or if it cannot be
replaced. -/
def GlobalSettings.metricsActs (s : GlobalSettings) (files : Files) (m : Metrics.Registry) :
    List Act :=
  if s.metered then
    match files.checkReplace s.metricsFile with
    | .ok () => [.saved s.metricsFile m.text]
    | .error _ => []
  else []

theorem GlobalSettings.eq_saved_of_mem {s : GlobalSettings} {files : Files} {m : Metrics.Registry}
    {a : Act} (h : a ∈ s.metricsActs files m) : a = .saved s.metricsFile m.text := by
  unfold metricsActs at h
  split at h
  · split at h
    · exact List.mem_singleton.1 h
    · exact nomatch h
  · exact nomatch h

section Engines

variable {env : Environment σ} {s : GlobalSettings} {logger : Logger} {c : RunConfig}
  {diagnostics : Bytes} {use : Workplace σ → WorkM σ (Except Failure α)}

@[simp] theorem Finished.acts_saveMetrics (files : Files) (logger : Logger) (s : GlobalSettings)
    (m : Metrics.Registry) (r : Finished σ α) :
    (r.saveMetrics files logger s m).acts = r.acts ++ s.metricsActs files m := by
  simp only [saveMetrics, GlobalSettings.metricsActs]
  cases s.metered with
  | false => exact (List.append_nil _).symm
  | true =>
    cases files.checkReplace s.metricsFile with
    | error f => exact (List.append_nil _).symm
    | ok => rfl

@[simp] theorem Finished.kept_saveMetrics (files : Files) (logger : Logger) (s : GlobalSettings)
    (m : Metrics.Registry) (r : Finished σ α) :
    (r.saveMetrics files logger s m).backend = r.backend ∧
      (r.saveMetrics files logger s m).outcome = r.outcome := by
  simp only [saveMetrics]
  cases s.metered with
  | false => exact ⟨rfl, rfl⟩
  | true => cases files.checkReplace s.metricsFile <;> exact ⟨rfl, rfl⟩

@[simp] theorem Finished.acts_close (logger : Logger) (name : Bytes) (b : Backend σ) (w : Work σ) :
    (close logger name b w).acts = w.acts ++ b.closingActs := by
  simp only [close, Backend.closingActs]
  rcases b.closing with _ | ⟨_ | _⟩
  · exact (List.append_nil _).symm
  · rfl
  · rfl

@[simp] theorem Finished.kept_close (logger : Logger) (name : Bytes) (b : Backend σ) (w : Work σ) :
    (close logger name b w).backend = w.backend ∧ (close logger name b w).metrics = w.metrics := by
  simp only [close]
  rcases b.closing with _ | ⟨_ | _⟩ <;> exact ⟨rfl, rfl⟩

private theorem withEngine_unopened {f : Fault} (h : (env.openBackend c).outcome = .error f) :
    let r := withEngine env s logger c diagnostics use
    r.acts = s.metricsActs env.files {} ∧ r.backend = none ∧
      r.outcome = .error ⟨"failed to open engine", f⟩ := by
  simp [withEngine, h]

def Environment.workplace (env : Environment σ) (s : GlobalSettings) (logger : Logger)
    (b : Backend σ) : Workplace σ where
  engine := { boundary := b.boundary, observed := s.metered }
  logger := logger
  output := s.output
  files := env.files
  room := env.room

/-- Work with a backend that was opened begins with a session in which nothing has happened, the
backend is closed when it ends, and the metrics are written last. -/
theorem withEngine_opened {b : Backend σ} (h : (env.openBackend c).outcome = .ok b) :
    ∃ w : Work σ, w.Follows (.start b.state) [] ∧
      let done := use (env.workplace s logger b) w
      let r := withEngine env s logger c diagnostics use
      r.acts = done.2.acts ++ b.closingActs ++ s.metricsActs env.files done.2.metrics ∧
        r.backend = some done.2.backend ∧ r.outcome = done.1 := by
  refine ⟨{ backend := b.state, diagnostics := diagnostics ++ logger.lines (env.openBackend c).log,
            acts := [.opened] }, ⟨rfl, ⟨[], rfl, by simp, rfl, rfl⟩, rfl⟩, ?_⟩
  simp only [withEngine, h, Environment.workplace]
  generalize use _ _ = done
  obtain ⟨outcome, w⟩ := done
  simp

/-- The errand of a command with an open backend: the answers and the session afterwards. -/
abbrev Backend.attend (b : Backend σ) (observed : Bool) (source : Bytes) (ops : List Operation) :
    List Answer × Session σ :=
  (Session.start b.state).run { boundary := b.boundary, observed := observed } (errand source ops)

/-- Work with an open backend, from the program text to the end, for the operations on the book, the
acts between opening and closing, and the metrics. -/
structure Attended (env : Environment σ) (s : GlobalSettings) (b : Backend σ) (source : Bytes)
    (post : Postcondition α) (r : Finished σ α) (ops : List Operation) (work : List Act)
    (m : Metrics.Registry) : Prop where
  uses : Uses ops
  acts : r.acts = .opened :: (work ++ b.closingActs ++ s.metricsActs env.files m)
  isWork : ∀ a ∈ work, a.isWork = true
  calls : work.filterMap Act.call? = (b.attend s.metered source ops).2.world.trace
  backend : r.backend = some (b.attend s.metered source ops).2.world.backend
  live : m.live =
    ((b.attend s.metered source ops).2.world.events.foldl Metrics.Registry.observe {}).live
  ok : ∀ a, r.outcome = .ok a → ∃ answers,
    (b.attend s.metered source ops).1 = .book 0 :: (answers ++ [.closed]) ∧
      post a ops answers (work.filterMap Act.saved?)
  error : ∀ f, r.outcome = .error f →
    f.OfWork env.files env.room (b.attend s.metered source ops).2.world.trace

inductive Course (env : Environment σ) (s : GlobalSettings) (c : RunConfig)
    (post : ProgramText → Postcondition α) (r : Finished σ α) : Prop
  | unloaded {f : Fault} (hload : ProgramText.load env.files c = .error f) (hacts : r.acts = [])
      (hbackend : r.backend = none) (houtcome : r.outcome = .error ⟨"failed to load program", f⟩)
  | unopened {program : ProgramText} {f : Fault}
      (hload : ProgramText.load env.files c = .ok program)
      (hopen : (env.openBackend c).outcome = .error f)
      (hacts : r.acts = s.metricsActs env.files {}) (hbackend : r.backend = none)
      (houtcome : r.outcome = .error ⟨"failed to open engine", f⟩)
  | worked {program : ProgramText} {b : Backend σ} {ops : List Operation} {work : List Act}
      {m : Metrics.Registry} (hload : ProgramText.load env.files c = .ok program)
      (hopen : (env.openBackend c).outcome = .ok b)
      (hattended : Attended env s b program.source (post program) r ops work m)

private theorem withEngine_course {program : ProgramText}
    {use : Workplace σ → Book → WorkM σ (Except Failure α)} {post : ProgramText → Postcondition α}
    (hload : ProgramText.load env.files c = .ok program)
    (huse : ∀ p, FollowsUses p (use p) (post program)) :
    Course env s c post (withEngine env s logger c diagnostics fun p =>
      p.withBook program.source (use p)) := by
  cases hopen : (env.openBackend c).outcome with
  | error f =>
    obtain ⟨hacts, hbackend, houtcome⟩ := withEngine_unopened hopen
    exact .unopened hload hopen hacts hbackend houtcome
  | ok b =>
    obtain ⟨w, hw, hacts, hbackend, houtcome⟩ := withEngine_opened hopen
    obtain ⟨ops, written, huses, hfollows, hok, herror⟩ :=
      withBook_follows (huse (env.workplace s logger b)) program.source hw
    obtain ⟨work, hopened, hwork, hcalls, rfl⟩ := hfollows.acts
    refine .worked hload hopen ⟨huses, ?_, hwork, hcalls, ?_, hfollows.live, ?_, ?_⟩
    · rw [hacts, hopened]
      simp only [List.cons_append]
    · rw [hbackend, hfollows.backend]
      rfl
    · intro a ha
      exact hok a (houtcome.symm.trans ha)
    · intro f hf
      exact herror f (houtcome.symm.trans hf)

end Engines

theorem runConfigured_course (env : Environment σ) (s : GlobalSettings) (c : RunConfig) :
    Course env s c (fun program => Evaluated env c program.name) (runConfigured env s c) := by
  cases hload : ProgramText.load env.files c with
  | error f =>
    simp only [runConfigured, hload]
    exact .unloaded hload rfl rfl rfl
  | ok program =>
    simp only [runConfigured, hload]
    exact withEngine_course hload fun p => evaluateBook_follows env p c program.name

theorem serializeConfigured_course (env : Environment σ) (s : GlobalSettings) (file : Bytes)
    (c : RunConfig) : Course env s c (fun program => Encoded program.name file)
      (serializeConfigured env s file c) := by
  cases hload : ProgramText.load env.files c with
  | error f =>
    simp only [serializeConfigured, hload]
    exact .unloaded hload rfl rfl rfl
  | ok program =>
    simp only [serializeConfigured, hload]
    exact withEngine_course hload fun p => encodeBook_follows p program.name file

end EngineHost.Cli
