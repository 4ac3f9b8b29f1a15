import EngineHost.Proofs.RunnableSamples
import EngineHost.Proofs.Shelf
import EngineHost.Proofs.WellFormedText

/-!
# Evaluations by the simulated engine

What evaluating a live book over the simulated engine comes to, in every case: whether it succeeds,
what the evaluation holds, and which refusal comes first when there is more than one reason.
-/

namespace EngineHost

namespace EvaluateSetting

def interpreter? : EvaluateSetting → Option Interpreter
  | interpreter i => some i
  | memDump _ => none

def memDump? : EvaluateSetting → Option Bool
  | interpreter _ => none
  | memDump on => some on

end EvaluateSetting

private theorem EvaluateOptions.ofSettings_eq (settings : List EvaluateSetting) :
    ofSettings settings =
      { interpreter := (settings.filterMap EvaluateSetting.interpreter?).getLast?.getD .rust
        memDump := (settings.filterMap EvaluateSetting.memDump?).getLast?.getD false } := by
  induction settings using List.reverseRecOn with
  | nil => rfl
  | append_singleton settings setting ih =>
    rw [ofSettings] at ih ⊢
    rw [List.foldl_append, ih]
    cases setting <;> simp [set, EvaluateSetting.interpreter?, EvaluateSetting.memDump?]

namespace Utf8

private theorem repair_cons_ascii {b : UInt8} (hb : b < 128) (s : Bytes) :
    repair (b :: s) = b :: repair s := by
  have hchar := repair_encode_append (Char.ofNat b.toNat) s
  rwa [Bytes.encode_of_ascii hb] at hchar

end Utf8

namespace Simulator

open Program (source_of_parse)

private theorem shown_cons {b : UInt8} (hb : b < 128) (hzero : b ≠ 0) (s : Bytes) :
    shown (b :: s) = b :: shown s := by
  rw [shown, List.takeWhile_cons_of_pos (by simpa using hzero), Utf8.repair_cons_ascii hb]
  rfl

private theorem shown_of_ascii {s : Bytes} (h : ∀ b ∈ s, b < 128 ∧ b ≠ 0) : shown s = s := by
  induction s with
  | nil => rfl
  | cons b s ih =>
    rw [List.forall_mem_cons] at h
    rw [shown_cons h.1.1 h.1.2, ih h.2]

/-- What an evaluation of a program with an interpreter comes to. A refusal carries a message, and
of several reasons the interpreter comes first, then the missing definition, then the message that
the engine was told to refuse with. -/
structure EvaluateLaw (o : Options) (program : Program) (i : Interpreter) (dump : Bool)
    (outcome : Except Fault Evaluation) : Prop where
  succeeds : (∃ a, outcome = .ok a) ↔ (i = .rust ∨ i = .c ∧ o.hasC = true) ∧
    Bytes.ofString "main" ∈ program.defs ∧ o.evaluateError = []
  iterations : ∀ a, outcome = .ok a → a.iterations.toNat =
    (1000 * program.defs.length + program.source.length) % 2 ^ 64
  duration : ∀ a, outcome = .ok a → a.duration = Duration.ofSeconds o.seconds
  result : ∀ a, outcome = .ok a →
    a.result = shown (o.result.getD ("#" ++ Bytes.ofNat program.defs.length))
  noDump : ∀ a, outcome = .ok a → dump = false → a.memDump = []
  dump : ∀ a, outcome = .ok a → dump = true →
    a.memDump = shown program.memDump ∧ a.memDump ≠ []
  missing : i = .c → o.hasC = false →
    outcome = .error (.interop "book_evaluate" "C runtime not supported")
  unknown : i ≠ .rust → i ≠ .c → outcome = .error (.interop "book_evaluate"
    ("Invalid runtime type: " ++ Bytes.ofNat i.code.toNat))
  noMain : (i = .rust ∨ i = .c ∧ o.hasC = true) → Bytes.ofString "main" ∉ program.defs →
    outcome = .error (.interop "book_evaluate" "No main function found")
  injected : (i = .rust ∨ i = .c ∧ o.hasC = true) → Bytes.ofString "main" ∈ program.defs →
    o.evaluateError ≠ [] → outcome = .error (.interop "book_evaluate" (shown o.evaluateError))

private theorem iterations_toNat (program : Program) :
    program.iterations.toNat = (1000 * program.defs.length + program.source.length) % 2 ^ 64 := by
  simp only [Program.iterations, UInt64.toNat_add, UInt64.toNat_mul, UInt64.toNat_ofNat',
    UInt64.reduceToNat]
  omega

private theorem shown_memDump_ne_nil (program : Program) : shown program.memDump ≠ [] := by
  have hhead : Bytes.ofString "DEFS:\n" = 68 :: Bytes.ofString "EFS:\n" := by decide
  rw [Program.memDump, hhead, List.cons_append, shown_cons (by decide) (by decide)]
  exact List.cons_ne_nil _ _

private theorem shown_unknown (i : Interpreter) :
    shown ("Invalid runtime type: " ++ Bytes.ofNat i.code.toNat) =
      "Invalid runtime type: " ++ Bytes.ofNat i.code.toNat := by
  have hwords : ∀ b ∈ Bytes.ofString "Invalid runtime type: ", b < 128 ∧ b ≠ 0 := by decide +kernel
  have hdigit : ∀ b, Bytes.isDigit b = true → b < 128 ∧ b ≠ 0 :=
    Bytes.forall_byte (P := fun b => Bytes.isDigit b = true → b < 128 ∧ b ≠ 0) (by decide +kernel)
  apply shown_of_ascii
  intro b hb
  rcases List.mem_append.1 hb with hb | hb
  · exact hwords b hb
  · exact hdigit b ((Bytes.numeral_ofNat _).digits b hb)

private theorem refusedInterpreter?_eq_none_iff {o : Options} {i : Interpreter} :
    refusedInterpreter? o i = none ↔ i = .rust ∨ i = .c ∧ o.hasC = true := by
  unfold refusedInterpreter?
  split_ifs <;> simp_all

private theorem hasDef_eq_true_iff {program : Program} {name : Bytes} :
    program.hasDef name = true ↔ name ∈ program.defs := by
  simp [Program.hasDef]

private theorem exists_evaluated_iff {o : Options} {program : Program} {options : EvaluateOptions} :
    (∃ a, o.evaluated program options = .ok a) ↔
      (options.interpreter = .rust ∨ options.interpreter = .c ∧ o.hasC = true) ∧
        Bytes.ofString "main" ∈ program.defs ∧ o.evaluateError = [] := by
  rw [← refusedInterpreter?_eq_none_iff, ← hasDef_eq_true_iff]
  unfold Options.evaluated injected
  cases refusedInterpreter? o options.interpreter with
  | some message => simp
  | none => cases program.hasDef "main" <;> cases o.evaluateError <;> simp

private theorem reply_eq_ok_iff {α : Type} {call : Bytes} {x : Except Bytes α} {a : α} :
    reply call x = .ok a ↔ x = .ok a := by
  cases x <;> simp [reply, Except.mapError]

private theorem evaluateLaw (o : Options) (program : Program) (options : EvaluateOptions) :
    EvaluateLaw o program options.interpreter options.memDump
      (reply "book_evaluate" (o.evaluated program options)) := by
  have hok : ∀ a, reply "book_evaluate" (o.evaluated program options) = .ok a → a = ⟨_, _, _, _⟩ :=
    fun a ha => eq_of_evaluated (reply_eq_ok_iff.1 ha)
  constructor
  · simp only [reply_eq_ok_iff]
    exact exists_evaluated_iff
  · intro a ha
    rw [hok a ha]
    exact iterations_toNat program
  · intro a ha
    rw [hok a ha]
  · intro a ha
    rw [hok a ha]
    rfl
  · intro a ha hdump
    rw [hok a ha, hdump]
    rfl
  · intro a ha hdump
    rw [hok a ha, hdump]
    exact ⟨rfl, shown_memDump_ne_nil program⟩
  · intro hc hnone
    have hshown : shown "C runtime not supported" = "C runtime not supported" := by decide +kernel
    have hrefused : refusedInterpreter? o options.interpreter =
        some (Bytes.ofString "C runtime not supported") := by
      simp [refusedInterpreter?, hc, hnone, show Interpreter.c ≠ .rust by decide]
    rw [Options.evaluated, hrefused, reply_error, hshown]
  · intro hrust hc
    have hrefused : refusedInterpreter? o options.interpreter =
        some ("Invalid runtime type: " ++ Bytes.ofNat options.interpreter.code.toNat) := by
      simp [refusedInterpreter?, hrust, hc]
    rw [Options.evaluated, hrefused, reply_error, shown_unknown]
  · intro hi hmain
    have hshown : shown "No main function found" = "No main function found" := by decide +kernel
    rw [← hasDef_eq_true_iff, Bool.not_eq_true] at hmain
    rw [Options.evaluated, refusedInterpreter?_eq_none_iff.2 hi]
    simp only [hmain, Bool.not_false, if_true, reply_error, hshown]
  · intro hi hmain hinjected
    rw [← hasDef_eq_true_iff] at hmain
    rw [Options.evaluated, refusedInterpreter?_eq_none_iff.2 hi]
    simp [hmain, injected, hinjected, reply_error]

/-- After every history over the simulated engine, evaluating a book that is live follows the law,
for the program that the book was parsed from. The last setting of each kind counts. -/
theorem evaluate_law (o : Options) (observed : Bool) (before after : List Operation)
    (source : Bytes) (i : Nat) (b : Book) (settings : List EvaluateSetting)
    (hwithin : (Session.start {}).Within (host o observed) (before ++ .parse source :: after))
    (hparse : (((Session.start {}).run (host o observed) before).2.step (host o observed)
      (.parse source)).1 = .book i)
    (hbook : ((Session.start {}).run (host o observed)
      (before ++ .parse source :: after)).2.books[i]? = some b)
    (hlive : b.released = false) :
    let s := ((Session.start {}).run (host o observed) (before ++ .parse source :: after)).2
    ∃ program outcome, Program.parse source = .ok program ∧ program.source = source ∧
      (s.step (host o observed) (.evaluate (.parsed i) (.ofSettings settings))).1 =
        .evaluation outcome ∧
      EvaluateLaw o program
        ((settings.filterMap EvaluateSetting.interpreter?).getLast?.getD .rust)
        ((settings.filterMap EvaluateSetting.memDump?).getLast?.getD false) outcome := by
  intro s
  obtain ⟨shelf, p, program, hshelf, hplace, hparsed⟩ :=
    exists_place_of_parse hwithin hparse hbook hlive
  have hanswer : (s.step (host o observed)
      (.evaluate (.parsed i) (.ofSettings settings))).1 = respond o (some program) _ :=
    (hshelf.step_book observed rfl hplace hwithin.addresses).1
  have hoptions := EvaluateOptions.ofSettings_eq settings
  have hlaw := evaluateLaw o program (.ofSettings settings)
  rw [congrArg EvaluateOptions.interpreter hoptions, congrArg EvaluateOptions.memDump hoptions]
    at hlaw
  have hprogram := parse_of_parsed hparsed
  exact ⟨program, _, hprogram, source_of_parse hprogram, hanswer, hlaw⟩

/-- A book that defines a name twice, one of them not well-formed, evaluated after another book was
released. The last settings ask for the second interpreter and a dump. -/
theorem evaluate_law_two_books :
    let o : Options := { hasC := true, result := some [65, 0xff, 66, 0, 67] }
    let source := Bytes.ofString "@a = 1\n@main = (1 2)\n@" ++ 0xc3 :: Bytes.ofString "= 3\n@a = 4"
    let before : List Operation := [.parse "@main = 0"]
    let after : List Operation := [.close (.parsed 0), .serialize (.parsed 1)]
    let settings : List EvaluateSetting :=
      [.interpreter ⟨7⟩, .memDump false, .interpreter .c, .memDump true]
    let s := ((Session.start {}).run (host o true) (before ++ .parse source :: after)).2
    (((Session.start {}).run (host o true) before).2.step (host o true) (.parse source)).1 =
        .book 1 ∧ s.books[1]? = some ⟨0x1020⟩ ∧
      ∃ program outcome, Program.parse source = .ok program ∧ program.source = source ∧
        (s.step (host o true) (.evaluate (.parsed 1) (.ofSettings settings))).1 =
          .evaluation outcome ∧
        EvaluateLaw o program .c true outcome := by
  intro o source before after settings s
  have hwithin : (Session.start {}).Within (host o true) (before ++ .parse source :: after) :=
    ⟨by decide, by decide +kernel, by decide +kernel⟩
  have hparse : (((Session.start {}).run (host o true) before).2.step (host o true)
      (.parse source)).1 = .book 1 := by
    rfl
  have hbook : s.books[1]? = some ⟨0x1020⟩ := by decide +kernel
  exact ⟨hparse, hbook,
    evaluate_law o true before after source 1 ⟨0x1020⟩ settings hwithin hparse hbook (by decide)⟩

end Simulator

end EngineHost
