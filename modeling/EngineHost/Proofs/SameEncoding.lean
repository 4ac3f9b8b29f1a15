import EngineHost.Cli.Basic
import EngineHost.Proofs.CommandCourse
import EngineHost.Proofs.LoadedProgram
import EngineHost.Proofs.PrintedText

/-!
# Commands agree on encodings

With the simulated engine, a run that reports the size of an encoding, a command that shows the
encoding in hexadecimal and one that writes it to a file have each the engine encode the program
anew. They agree: it is the encoding of the names that the program defines.
-/

namespace EngineHost

namespace Bytes

/-- Reads pairs of hexadecimal digits. -/
def fromHex? : Bytes → Option Bytes
  | [] => some []
  | [_] => none
  | high :: low :: rest => do
    let high ← hexDigit? high
    let low ← hexDigit? low
    return .ofNat (16 * high + low) :: (← fromHex? rest)

private theorem hexDigit?_hexByte (b : UInt8) :
    (hexByte b).map hexDigit? = [some (b.toNat / 16), some (b.toNat % 16)] :=
  forall_byte
    (P := fun b => (hexByte b).map hexDigit? = [some (b.toNat / 16), some (b.toNat % 16)])
    (by decide +kernel) b

private theorem isPlain_toHex (s : Bytes) : (toHex s).all Json.isPlain = true := by
  have hbyte : ∀ b, (hexByte b).all Json.isPlain = true := fun b =>
    forall_byte (P := fun b => (hexByte b).all Json.isPlain = true) (by decide +kernel) b
  rw [toHex, List.all_flatMap, List.all_eq_true]
  exact fun b _ => hbyte b

private theorem length_toHex (s : Bytes) : (toHex s).length = 2 * s.length := by
  have hbyte : ∀ b, (hexByte b).length = 2 := fun b => by
    simpa using congrArg List.length (hexDigit?_hexByte b)
  simp [toHex, List.length_flatMap, hbyte, Nat.mul_comm]

private theorem fromHex?_toHex (s : Bytes) : fromHex? (toHex s) = some s := by
  induction s with
  | nil => rfl
  | cons b s ih =>
    obtain ⟨high, rest, hbyte, hhigh, hrest⟩ := List.map_eq_cons_iff.1 (hexDigit?_hexByte b)
    obtain ⟨low, rfl, hlow⟩ := List.map_eq_singleton_iff.1 hrest
    rw [toHex, List.flatMap_cons, hbyte, ← toHex]
    calc fromHex? ([high, low] ++ toHex s)
        = some (.ofNat (16 * (b.toNat / 16) + b.toNat % 16) :: s) := by
          simp only [List.cons_append, List.nil_append, fromHex?, hhigh, hlow, ih]
          rfl
      _ = some (b :: s) := by rw [Nat.div_add_mod, UInt8.ofNat_toNat]

end Bytes

namespace Simulator

variable {o : Options} {p : Program}

private theorem encoded_of_respond {book : BookRef} {n : UInt64}
    (h : respond o (some p) (.serializedLength book) = .length (.ok n)) :
    o.encoded p = .ok p.encode ∧ n = .ofNat p.encode.length := by
  cases hencoded : o.encoded p with
  | error message =>
    simp only [respond, opened_some, hencoded, reply_error, Answer.length.injEq] at h
    cases h
  | ok data =>
    obtain rfl := eq_of_encoded hencoded
    simp only [respond, opened_some, hencoded, reply_ok] at h
    exact ⟨rfl, (Except.ok.inj (Answer.length.inj h)).symm⟩

private theorem respond_serializeTo (hencoded : o.encoded p = .ok p.encode) (book : BookRef)
    {size : Nat} (hsize : size = p.encode.length) :
    respond o (some p) (.serializeTo book (List.replicate size 0)) =
      .filled ⟨.ok (some (.ofNat p.encode.length)), p.encode⟩ := by
  simp [respond, opened_some, hencoded, reply_ok, filled, hsize]

end Simulator

namespace Cli

open Simulator

variable {σ α : Type} {o : Options} {ops : List Operation} {source : Bytes}

private theorem Uses.answers_eq (h : Uses ops) (p : Program) :
    answers o (some p) (ops ++ [.close (.parsed 0)]) =
      ops.map (respond o (some p)) ++ [.closed] := by
  obtain ⟨-, hkeeps⟩ := h
  induction ops with
  | nil => rfl
  | cons op ops ih =>
    rw [List.forall_mem_cons] at hkeeps
    simp only [List.cons_append, answers, hkeeps.1.2, Bool.false_eq_true, if_false, List.map_cons,
      ih hkeeps.2]

private theorem Uses.errand_answers (h : Uses ops) {observed : Bool}
    (hsource : source.length < 2 ^ 63)
    {given : List Answer}
    (hrun : ((Session.start {}).run (host o observed) (errand source ops)).1 =
      .book 0 :: (given ++ [.closed])) :
    ∃ p, Program.parse source = .ok p ∧ given = ops.map (respond o (some p)) := by
  cases hparsed : o.parsed source with
  | error message =>
    have hrefused := shelved_start.step_refused observed hparsed hsource (by decide)
    rw [run_errand] at hrun
    exact nomatch hrefused.symm.trans (List.cons.inj hrun).1
  | ok p =>
    have hwithin := h.errand_within (host o observed) {} hsource
    rw [errand, run_alone hwithin hparsed h.errand_book?, h.answers_eq] at hrun
    exact ⟨p, parse_of_parsed hparsed, (List.append_cancel_right (List.cons.inj hrun).2).symm⟩

section Commands

variable {env : Environment Ledger} {c : RunConfig}
  (hopen : ∀ c b, (env.openBackend c).outcome = .ok b →
    b.boundary = Simulator.boundary o ∧ b.state = {})
  (hread : ∀ path image, env.files.read path = .ok image → image.data.length < 2 ^ 63)

include hopen hread

/-- When a command has succeeded, there was a program, and what the engine answered is what that
program answers. -/
theorem Course.answered {s : GlobalSettings} {post : ProgramText → Postcondition α}
    {r : Finished Ledger α} (h : Course env s c post r) {a : α} (ha : r.outcome = .ok a) :
    ∃ program p ops written m, ProgramText.load env.files c = .ok program ∧
      Program.parse program.source = .ok p ∧ p.encode.length < 2 ^ 64 ∧
      post program a ops (ops.map (respond o (some p))) written ∧
      r.acts.filterMap Act.saved? =
        written ++ (s.metricsActs env.files m).filterMap Act.saved? := by
  cases h with
  | unloaded hload hacts hbackend houtcome => exact nomatch houtcome.symm.trans ha
  | unopened hload hrefused hacts hbackend houtcome => exact nomatch houtcome.symm.trans ha
  | @worked program b ops work m hload hopened hattended =>
    obtain ⟨hboundary, hstate⟩ := hopen c b hopened
    have hsource := ProgramText.length_load hread hload
    obtain ⟨given, hgiven, hpost⟩ := hattended.ok a ha
    rw [Backend.attend, hboundary, hstate] at hgiven
    obtain ⟨p, hparse, rfl⟩ := hattended.uses.errand_answers hsource hgiven
    have hlength := Program.length_encode_le hparse
    refine ⟨program, p, ops, _, m, hload, hparse, by omega, hpost, ?_⟩
    have hclosing : b.closingActs.filterMap Act.saved? = [] := by
      unfold Backend.closingActs
      split <;> rfl
    rw [hattended.acts, List.filterMap_cons, List.filterMap_append, List.filterMap_append, hclosing,
      List.append_nil]
    rfl

end Commands

/-- The output of a command is a payload in its format. -/
def Result.Prints (r : Result σ) (f : Format) (p : Payload) : Prop :=
  ∃ w, f.success p = .ok w ∧ r.written.out = w.out

private theorem Result.prints_of_success (f : Format) (runId : Option Bytes) (payload : α → Payload)
    {done : Finished σ α} (h : (ofFinished f runId payload done).ending = .success) :
    ∃ a, done.outcome = .ok a ∧ (ofFinished f runId payload done).Prints f (payload a) := by
  cases houtcome : done.outcome with
  | error failure =>
    cases hcrash : failure.crash? <;>
      simp [ofFinished, ofOutcome, fail, crash, houtcome, hcrash] at h
  | ok a =>
    refine ⟨a, rfl, ?_⟩
    cases hwritten : f.success (payload a) with
    | error u => simp [ofFinished, ofOutcome, succeed, houtcome, hwritten] at h
    | ok w =>
      refine ⟨w, hwritten, ?_⟩
      simp [ofFinished, ofOutcome, succeed, houtcome, hwritten]

/-! ## What is printed for an encoding -/

/-- The bytes that are printed for an encoding of a size: its digits, or the file that it is in. -/
def Format.encodingText (f : Format) (program file : Bytes) (size : Nat) (digits : Bytes) : Bytes :=
  if f.json then
    "\x7b\"status\":\"ok\",\"data\":\x7b\"program\":" ++ Json.quote program ++ ",\"bytes\":" ++
      Bytes.ofNat size ++
      (if file.isEmpty then ",\"hex\":\"" ++ digits ++ "\""
        else ",\"output\":" ++ Json.quote file) ++
      "\x7d\x7d\n"
  else if file.isEmpty then digits ++ "\n"
  else "wrote " ++ Bytes.ofNat size ++ " bytes to " ++ file ++ "\n"

private theorem Result.Prints.encodingText {r : Result σ} {f : Format} {e : Encoding}
    (h : r.Prints f e.payload) (hdata : e.data ≠ []) :
    r.written.out = f.encodingText e.program e.file e.size.toNat (Bytes.toHex e.data) := by
  obtain ⟨w, hw, hout⟩ := h
  obtain ⟨htext, hdocument⟩ := Format.out_success hw
  rw [hout, Format.encodingText]
  cases hjson : f.json with
  | false =>
    rw [htext hjson]
    by_cases hfile : e.file.isEmpty <;> simp [Encoding.payload, hfile]
  | true =>
    obtain ⟨j, hj, hprinted⟩ := hdocument _ hjson rfl
    have hwords : Json.quote "program" = 34 :: (Bytes.ofString "program" ++ [34]) ∧
        Json.quote "bytes" = 34 :: (Bytes.ofString "bytes" ++ [34]) ∧
        Json.quote "output" = 34 :: (Bytes.ofString "output" ++ [34]) ∧
        Json.quote "hex" = 34 :: (Bytes.ofString "hex" ++ [34]) := by
      refine ⟨?_, ?_, ?_, ?_⟩ <;> exact Json.quote_plain (by decide)
    have hdigits := Json.quote_plain (Bytes.isPlain_toHex e.data)
    have hsome : (Bytes.toHex e.data).isEmpty = false := by
      rw [List.isEmpty_eq_false_iff, ← List.length_pos_iff, Bytes.length_toHex]
      have := List.length_pos_iff.2 hdata
      omega
    rw [hprinted, ← Except.ok.inj hj]
    by_cases hfile : e.file.isEmpty = true <;>
      simp only [hfile, hsome, Json.textMember, Json.member, Json.render_objectOf, if_true,
        if_false, Bool.false_eq_true, id, List.filterMap_cons, List.filterMap_nil, List.map_cons,
        List.map_nil, Bytes.join, Json.render, hwords, hdigits, List.cons_append, List.nil_append,
        List.append_assoc] <;>
      rfl

/-! ## What is printed for a run -/

private theorem chomp_line (s : Bytes) {b : UInt8} (hb : b ≠ 10) (t : Bytes) :
    ∃ rest, Bytes.chomp (s ++ b :: 10 :: t) ++ [10] = s ++ b :: 10 :: rest := by
  have hreverse : (s ++ b :: 10 :: t).reverse = t.reverse ++ 10 :: b :: s.reverse := by simp
  rw [Bytes.chomp, Bytes.dropTrailing, hreverse, List.dropWhile_append]
  split
  · exact ⟨[], by simp [hb]⟩
  · exact ⟨((t.reverse.dropWhile (· == 10)).reverse) ++ [10], by simp⟩

private theorem eq_of_ofInstant {t : Instant} {j : Json} (h : Json.ofInstant t = .ok j) :
    j = .string t.text := by
  unfold Json.ofInstant at h
  split at h
  · cases h
  · split at h
    · cases h
    · exact (Except.ok.inj h).symm

def runText (program : Bytes) (e : Evaluation) (m : Metadata) : Bytes :=
  "program:    " ++ program ++ "\nbackend:    " ++ m.backend ++ "\nruntime:    " ++ m.interpreter ++
    "\nresult:     " ++ e.result ++ "\niterations: " ++ Bytes.ofNat e.iterations.toNat ++
    "\nduration:   " ++ e.duration.text ++ "\nips:        " ++ Layout.fixed e.perSecond 2 ++
    "\nserialized: "

def runDocument (e : Evaluation) (m : Metadata) : Bytes :=
  "\x7b\"status\":\"ok\",\"data\":\x7b\"timestamp\":" ++ Json.quote m.stop.text ++
    ",\"evaluation\":" ++ e.json.render ++ ",\"metadata\":\x7b\"start_time\":" ++
    Json.quote m.start.text ++ ",\"end_time\":" ++ Json.quote m.stop.text ++ ",\"backend\":" ++
    Json.quote m.backend ++ ",\"runtime\":" ++ Json.quote m.interpreter ++
    ",\"serialized_bytes\":"

/-- The size of an encoding is printed for a run: on a line of its own, or among the metadata. -/
structure Format.TellsSize (f : Format) (program : Bytes) (e : Evaluation) (m : Metadata)
    (size : Nat) (out : Bytes) : Prop where
  text : f.json = false →
    ∃ rest, out = runText program e m ++ Bytes.ofNat size ++ " bytes\n" ++ rest
  document : f.json = true →
    ∃ rest, out = runDocument e m ++ Bytes.ofNat size ++ ",\"duration_ns\":" ++ rest

section Runs

variable {run : RunResult} {e : Evaluation} {m : Metadata}
  (houtcome : run.report.outcome = .success e) (hmetadata : run.report.metadata = some m)

include houtcome hmetadata

private theorem text_payload : ∃ rest, run.payload.text ++ "\n" =
    runText run.program e m ++ Bytes.ofNat m.serializedBytes.toNat ++ " bytes\n" ++ rest := by
  have hlabels : ["program:", "backend:", "runtime:", "result:", "iterations:", "duration:",
      "ips:", "serialized:"].map (fun label => Bytes.padRight 12 32 (Bytes.ofString label)) =
      ["program:    ", "backend:    ", "runtime:    ", "result:     ", "iterations: ",
        "duration:   ", "ips:        ", "serialized: "].map Bytes.ofString := by
    decide
  simp only [List.map_cons, List.map_nil, List.cons.injEq, and_true] at hlabels
  simp only [RunResult.payload, Report.text, Report.line, Report.evaluation?, houtcome, hmetadata,
    hlabels]
  generalize (if e.hasMemDump = true then _ else _ : Bytes) = dump
  obtain ⟨rest, hrest⟩ := chomp_line (runText run.program e m ++
    Bytes.ofNat m.serializedBytes.toNat ++ " byte") (b := 115) (by decide) dump
  refine ⟨rest, Eq.trans (congrArg (Bytes.chomp · ++ [10]) ?_) (hrest.trans ?_)⟩
  · simp only [runText, List.append_assoc]
    rfl
  · simp only [List.append_assoc]
    rfl

private theorem json_payload (hstop : run.report.timestamp = m.stop) (hbackend : m.backend ≠ [])
    (hinterpreter : m.interpreter ≠ []) (hsize : m.serializedBytes ≠ 0) {j : Json}
    (hj : run.report.json = .ok j) : ∃ rest,
    Bytes.ofString "\x7b\"status\":\"ok\",\"data\":" ++ j.render ++ "\x7d\n" =
      runDocument e m ++ Bytes.ofNat m.serializedBytes.toNat ++ ",\"duration_ns\":" ++ rest := by
  simp only [Report.json, hstop, hmetadata, houtcome, bind, Except.bind, Option.mapM_some,
    Report.metadataJson] at hj
  rcases hinstant : Json.ofInstant m.stop with u | stop
  · simp [hinstant] at hj
  rcases hstart : Json.ofInstant m.start with u | start
  · simp [hinstant, hstart] at hj
  rcases hrate : Report.rateMember e.perSecond with u | rate
  · simp [hinstant, hstart, hrate, pure, Except.pure] at hj
  simp only [hinstant, hstart, hrate, pure, Except.pure, Functor.map, Except.map,
    Except.ok.injEq] at hj
  rw [← hj, eq_of_ofInstant hinstant, eq_of_ofInstant hstart]
  have hwords : Json.quote "timestamp" = 34 :: (Bytes.ofString "timestamp" ++ [34]) ∧
      Json.quote "evaluation" = 34 :: (Bytes.ofString "evaluation" ++ [34]) ∧
      Json.quote "metadata" = 34 :: (Bytes.ofString "metadata" ++ [34]) ∧
      Json.quote "start_time" = 34 :: (Bytes.ofString "start_time" ++ [34]) ∧
      Json.quote "end_time" = 34 :: (Bytes.ofString "end_time" ++ [34]) ∧
      Json.quote "backend" = 34 :: (Bytes.ofString "backend" ++ [34]) ∧
      Json.quote "runtime" = 34 :: (Bytes.ofString "runtime" ++ [34]) ∧
      Json.quote "serialized_bytes" = 34 :: (Bytes.ofString "serialized_bytes" ++ [34]) ∧
      Json.quote "duration_ns" = 34 :: (Bytes.ofString "duration_ns" ++ [34]) := by
    refine ⟨?_, ?_, ?_, ?_, ?_, ?_, ?_, ?_, ?_⟩ <;> exact Json.quote_plain (by decide)
  simp only [Json.render_objectOf, Json.optionalMember, Option.bind_some, Json.textMember,
    List.isEmpty_iff, hbackend, hinterpreter, hsize, if_false, Json.member, id,
    List.filterMap_cons, List.filterMap_nil, List.map_cons, List.map_nil]
  -- the members behind the metadata stay as they are
  generalize (Json.quote (Bytes.ofString "run_id") ++ _ :: _) :: _ = others
  generalize hentry : Json.quote (Bytes.ofString "metadata") ++ _ = entry
  obtain ⟨more, hmore⟩ := Json.join_cons [44] entry others
  refine ⟨(Json.ofInt m.duration.nanoseconds.toInt).render ++ 125 ::
    (more ++ Bytes.ofString "\x7d\x7d\n"), ?_⟩
  rw [Json.join_cons_cons, Json.join_cons_cons, hmore, ← hentry]
  simp only [Bytes.join, Json.render, Json.ofNat, hwords, runDocument, List.cons_append,
    List.nil_append, List.append_assoc]
  rfl

end Runs

private theorem Result.Prints.tellsSize {r : Result σ} {f : Format} {run : RunResult}
    {e : Evaluation} {m : Metadata} (h : r.Prints f run.payload)
    (houtcome : run.report.outcome = .success e) (hmetadata : run.report.metadata = some m)
    (hstop : run.report.timestamp = m.stop) (hbackend : m.backend ≠ [])
    (hinterpreter : m.interpreter ≠ []) (hsize : m.serializedBytes ≠ 0) :
    f.TellsSize run.program e m m.serializedBytes.toNat r.written.out := by
  obtain ⟨w, hw, hout⟩ := h
  obtain ⟨htext, hdocument⟩ := Format.out_success hw
  rw [hout]
  constructor
  · intro hjson
    rw [htext hjson]
    exact text_payload houtcome hmetadata
  · intro hjson
    obtain ⟨j, hj, hprinted⟩ := hdocument _ hjson rfl
    rw [hprinted]
    exact json_payload houtcome hmetadata hstop hbackend hinterpreter hsize hj

/-! ## Agreement -/

/-- The file that an encoding is to be written to; none if empty. -/
def outputPath (given : Given) : Bytes := (Flag.valueOf? given "output").getD []

/-- A command shows an encoding: it prints how many bytes there are, and the bytes in hexadecimal
unless they go to a file. -/
structure ShowsEncoding (program : Bytes) (given : Given) (data : Bytes) (r : Result Ledger) :
    Prop where
  printed : ∃ digits, digits.length = 2 * data.length ∧ Bytes.fromHex? digits = some data ∧
    r.written.out = (GlobalSettings.ofGiven given).output.encodingText program (outputPath given)
      data.length digits
  /-- No other file is written but that of the metrics. -/
  saved : ∃ others, r.acts.filterMap Act.saved? = outputFile (outputPath given) data ++ others ∧
    ∀ f ∈ others, f.1 = (GlobalSettings.ofGiven given).metricsFile

private theorem Encoded.eq_encode {program file : Bytes} {e : Encoding}
    {written : List (Bytes × Bytes)}
    {p : Program} (h : Encoded program file e ops (ops.map (respond o (some p))) written)
    (hlength : p.encode.length < 2 ^ 64) :
    e.size = .ofNat p.encode.length ∧ e.data = p.encode := by
  obtain ⟨size, buffer, rfl, hanswers, hdata⟩ := h.measured
  obtain ⟨hsize, hanswers⟩ := List.cons.inj hanswers
  obtain ⟨hencoded, rfl⟩ := encoded_of_respond hsize
  have hn : (UInt64.ofNat p.encode.length).toNat = p.encode.length :=
    UInt64.toNat_ofNat_of_lt' hlength
  have hfilled := (List.cons.inj hanswers).1
  rw [respond_serializeTo hencoded _ hn] at hfilled
  simp only [Answer.filled.injEq, Engine.Filled.mk.injEq, Except.ok.injEq,
    Option.some.injEq] at hfilled
  obtain ⟨hwritten, rfl⟩ := hfilled
  refine ⟨hwritten.symm, ?_⟩
  rw [hdata, ← hwritten, hn, List.take_length]

private theorem showsEncoding {env : Environment Ledger} {given : Given} {e : Encoding}
    {p : Program}
    {program : Bytes} {r : Result Ledger} {written : List (Bytes × Bytes)} {m : Metrics.Registry}
    (hprints : r.Prints (GlobalSettings.ofGiven given).output e.payload)
    (hencoded : Encoded program (outputPath given) e ops (ops.map (respond o (some p))) written)
    (hlength : p.encode.length < 2 ^ 64)
    (hsaved : r.acts.filterMap Act.saved? = written ++
      ((GlobalSettings.ofGiven given).metricsActs env.files m).filterMap Act.saved?) :
    ShowsEncoding program given p.encode r := by
  obtain ⟨hsize, hdata⟩ := hencoded.eq_encode hlength
  have hout := hprints.encodingText (hdata ▸ List.cons_ne_nil _ _)
  rw [hencoded.program_eq, hencoded.file_eq, hsize, UInt64.toNat_ofNat_of_lt' hlength,
    hdata] at hout
  rw [hencoded.written_eq, hdata] at hsaved
  refine ⟨⟨_, Bytes.length_toHex _, Bytes.fromHex?_toHex _, hout⟩, _, hsaved, fun f hf => ?_⟩
  obtain ⟨a, ha, hf⟩ := List.mem_filterMap.1 hf
  rw [GlobalSettings.eq_saved_of_mem ha] at hf
  rw [← Option.some.inj hf]

/-- For one configuration, a run that succeeds prints the length of the encoding that every
successful command for encodings prints or writes, and it is the encoding of the names that the
program defines. -/
theorem commands_agree_on_encoding (env : Environment Ledger) (o : Options)
    (hopen : ∀ c b, (env.openBackend c).outcome = .ok b →
      b.boundary = Simulator.boundary o ∧ b.state = {})
    (hread : ∀ path image, env.files.read path = .ok image → image.data.length < 2 ^ 63)
    (c : RunConfig) (running : Flag.Line)
    (hrunning : (RunSettings.ofGiven running.given).resolve env.contents = .ok c)
    (hran : (act env .run running).ending = .success) :
    ∃ program p, ProgramText.load env.files c = .ok program ∧
      Program.parse program.source = .ok p ∧
      (∃ (e : Evaluation) (m : Metadata), (GlobalSettings.ofGiven running.given).output.TellsSize
        program.name e m p.encode.length (act env .run running).written.out) ∧
      ∀ serializing : Flag.Line,
        (RunSettings.ofGiven serializing.given).resolve env.contents = .ok c →
        (act env .serialize serializing).ending = .success →
        ShowsEncoding program.name serializing.given p.encode
          (act env .serialize serializing) := by
  have hadmissible := RunSettings.admissible_of_resolve hrunning
  simp only [act, withConfig, hrunning] at hran ⊢
  obtain ⟨run, hrun, hprints⟩ := Result.prints_of_success _ _ _ hran
  obtain ⟨program, p, ops, written, m, hload, hparse, hlength, hevaluated, -⟩ :=
    (runConfigured_course env _ c).answered hopen hread hrun
  refine ⟨program, p, hload, hparse, ?_, fun serializing hserializing hsuccess => ?_⟩
  · obtain ⟨evaluation, size, hanswers, hreport⟩ := hevaluated.reported
    rw [hevaluated.ops_eq] at hanswers
    obtain ⟨-, hanswers⟩ := List.cons.inj hanswers
    obtain ⟨-, rfl⟩ := encoded_of_respond (List.cons.inj hanswers).1
    have hn : (UInt64.ofNat p.encode.length).toNat = p.encode.length :=
      UInt64.toNat_ofNat_of_lt' hlength
    have htells := hprints.tellsSize (by rw [hreport]) (by rw [hreport]) (by rw [hreport])
      ?_ ?_ ?_
    rw [hevaluated.program_eq, hn] at htells
    exact ⟨_, _, htells⟩
    · rcases hadmissible.backend with h | h <;> simp only [h] <;> decide
    · change (interpreterOf c).name ≠ []
      rw [hadmissible.interpreterOf_eq]
      split <;> decide
    · intro hzero
      have hlength := congrArg UInt64.toNat hzero
      rw [hn] at hlength
      exact absurd hlength (by simp [Program.encode])
  · rw [hserializing] at hsuccess ⊢
    obtain ⟨encoding, hencoding, hshown⟩ := Result.prints_of_success _ _ _ hsuccess
    obtain ⟨program', p', ops, written, m, hload', hparse', hlength', hencoded, hsaved⟩ :=
      (serializeConfigured_course env _ _ c).answered hopen hread hencoding
    obtain rfl : program = program' := Except.ok.inj (hload.symm.trans hload')
    obtain rfl : p = p' := Except.ok.inj (hparse.symm.trans hparse')
    exact showsEncoding hshown hencoded hlength hsaved

/-- A program with two names, run and written to a file. -/
theorem commands_agree_on_encoding_two_names :
    let env : Environment Ledger :=
      { files := ⟨fun _ => .ok (.bytes "@main = (1)\n@a = 2"), fun _ => .ok (), fun _ => .ok ()⟩
        openBackend := fun _ => { outcome := .ok ⟨Simulator.boundary {}, {}, some (.ok ())⟩ }
        runId := [], start := default, stop := default }
    let args : List Bytes := ["--wasm", "m.wasm", "--source", "p.hvm"]
    ∃ running serializing c,
      Flag.read Command.run.flags args = .ok running ∧
      Flag.read Command.serialize.flags ("--output" :: "p.bin" :: args) = .ok serializing ∧
      (RunSettings.ofGiven running.given).resolve env.contents = .ok c ∧
      (RunSettings.ofGiven serializing.given).resolve env.contents = .ok c ∧
      (act env .run running).ending = .success ∧
      (act env .serialize serializing).ending = .success ∧
      ShowsEncoding "p.hvm" serializing.given [2, 4, 109, 97, 105, 110, 1, 97]
        (act env .serialize serializing) := by
  intro env args
  have hall : ((Flag.read Command.run.flags args).toOption.any fun running =>
      (Flag.read Command.serialize.flags ("--output" :: "p.bin" :: args)).toOption.any
        fun serializing => ((RunSettings.ofGiven running.given).resolve env.contents).toOption.any
          fun c => (ProgramText.load env.files c).toOption.any
            fun program => (Program.parse program.source).toOption.any
              fun p => program.name = Bytes.ofString "p.hvm" ∧
                p.encode = [2, 4, 109, 97, 105, 110, 1, 97] ∧
                RunSettings.ofGiven serializing.given = RunSettings.ofGiven running.given ∧
                (act env .run running).ending.fault?.isNone = true ∧
                (act env .serialize serializing).ending.fault?.isNone = true) = true := by
    decide +kernel
  have hsuccess : ∀ e : Ending, e.fault?.isNone = true → e = .success := by
    intro e he
    cases e with
    | success => rfl
    | _ => simp [Ending.fault?] at he
  have hok : ∀ {ε β : Type} {x : Except ε β} {b : β}, x.toOption = some b ↔ x = .ok b := by
    intro ε β x b
    cases x <;> simp [Except.toOption]
  simp only [Option.any_eq_true, decide_eq_true_eq, hok] at hall
  obtain ⟨running, hrunning, serializing, hserializing, c, hc, program, hprogram, p, hp, hname,
    hencode, hsettings, hran, hserialized⟩ := hall
  have hopen : ∀ c b, (env.openBackend c).outcome = .ok b →
      b.boundary = Simulator.boundary {} ∧ b.state = {} := by
    intro c b hb
    obtain rfl := Except.ok.inj hb
    exact ⟨rfl, rfl⟩
  have hread : ∀ path image, env.files.read path = .ok image → image.data.length < 2 ^ 63 := by
    intro path image himage
    obtain rfl := Except.ok.inj himage
    decide
  obtain ⟨program', p', hprogram', hp', -, hshows⟩ :=
    commands_agree_on_encoding env {} hopen hread c running hc (hsuccess _ hran)
  obtain rfl : program = program' := Except.ok.inj (hprogram.symm.trans hprogram')
  obtain rfl : p = p' := Except.ok.inj (hp.symm.trans hp')
  have hc' : (RunSettings.ofGiven serializing.given).resolve env.contents = .ok c :=
    hsettings ▸ hc
  refine ⟨running, serializing, c, hrunning, hserializing, hc, hc', hsuccess _ hran,
    hsuccess _ hserialized, ?_⟩
  rw [← hencode, ← hname]
  exact hshows serializing hc' (hsuccess _ hserialized)

end Cli

end EngineHost
