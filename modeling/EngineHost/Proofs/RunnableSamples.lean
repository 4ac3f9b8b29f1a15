import EngineHost.Proofs.Dictionary
import EngineHost.Proofs.FilledProgram
import EngineHost.Proofs.Isolation
import EngineHost.Sample.Basic

/-!
# The samples run

Every sample but the faulty one runs for all parameters in its ranges: the numerals that its
template is filled with leave its definitions alone.
-/

namespace EngineHost

open Template

namespace Sample

variable {s : Sample} {params resolved : Params} {p : Parameter} {n : Int64}

/-! ## Parameters -/

/-- What a parameter is set to, if that is an integer: what is given, or else the default. -/
def setting? (params : Params) (p : Parameter) : Option Int64 :=
  match Dict.get? params p.name with
  | some v => Params.integerOf? v
  | none => some p.default

/-- Parameters that a sample admits: each is one of its own, and an integer in the range. -/
structure Admits (s : Sample) (params : Params) : Prop where
  known : ∀ k ∈ Dict.keys params, s.hasParameter k = true
  inRange : ∀ p ∈ s.params, ∀ v, Dict.get? params p.name = some v →
    ∃ n, Params.integerOf? v = some n ∧ p.least ≤ n ∧ n ≤ p.greatest

theorem value_eq_ok_iff :
    value params p = .ok n ↔ setting? params p = some n ∧ p.least ≤ n ∧ n ≤ p.greatest := by
  have hcheck : ∀ m : Int64, ∀ fault : Fault,
      (if m < p.least ∨ p.greatest < m then .error fault else .ok m : Except Fault Int64) = .ok n ↔
        m = n ∧ p.least ≤ n ∧ n ≤ p.greatest := by
    intro m fault
    split <;> grind
  simp only [value, setting?, Dict.has_eq_isSome, Params.getInt, Params.getInt?, bind, Except.bind,
    pure, Except.pure, throw, throwThe, MonadExceptOf.throw]
  cases Dict.get? params p.name with
  | none => simpa using hcheck p.default _
  | some v =>
    cases hinteger : Params.integerOf? v with
    | none => simp [hinteger]
    | some m => simpa [hinteger] using hcheck m _

private theorem values_cons_eq_ok_iff {ps : List Parameter} :
    values params (p :: ps) = .ok resolved ↔ ∃ n rest, value params p = .ok n ∧
      values params ps = .ok rest ∧ resolved = Dict.insert rest p.name (.int n) := by
  simp only [values, bind, Except.bind, pure, Except.pure]
  cases value params p with
  | error f => simp
  | ok n => cases values params ps <;> simp [eq_comm]

private theorem exists_value {ps : List Parameter} (h : values params ps = .ok resolved)
    {name : Bytes} (hname : ∃ p ∈ ps, p.name = name) :
    ∃ p ∈ ps, p.name = name ∧
      ∃ n, value params p = .ok n ∧ Dict.get? resolved name = some (.int n) := by
  induction ps generalizing resolved with
  | nil => simp at hname
  | cons p ps ih =>
    obtain ⟨n, rest, hn, hrest, rfl⟩ := values_cons_eq_ok_iff.1 h
    rw [Dict.get?_insert]
    -- Of parameters with one name the first is set last.
    by_cases hp : p.name = name
    · exact ⟨p, by simp, hp, n, hn, by simp [hp]⟩
    · have hlater : ∃ p ∈ ps, p.name = name := by simpa [hp] using hname
      obtain ⟨p', hp', hname', m, hm, hget⟩ := ih hrest hlater
      exact ⟨p', by simp [hp'], hname', m, hm, by simp [hp, hget]⟩

private theorem exists_values_iff {ps : List Parameter} :
    (∃ resolved, values params ps = .ok resolved) ↔ ∀ p ∈ ps, ∃ n, value params p = .ok n := by
  induction ps with
  | nil => simp [values]
  | cons p ps ih =>
    simp only [values_cons_eq_ok_iff, List.forall_mem_cons, ← ih]
    constructor
    · rintro ⟨_, n, rest, hn, hrest, -⟩
      exact ⟨⟨n, hn⟩, rest, hrest⟩
    · rintro ⟨⟨n, hn⟩, rest, hrest⟩
      exact ⟨_, n, rest, hn, hrest, rfl⟩

private theorem resolve_eq_ok_iff : s.resolve params = .ok resolved ↔
    values params s.params = .ok resolved ∧ ∀ k ∈ Dict.keys params, s.hasParameter k = true := by
  simp only [resolve, bind, Except.bind, pure, Except.pure, throw, throwThe, MonadExceptOf.throw]
  cases values params s.params with
  | error f => simp
  | ok r =>
    cases hunknown : (Dict.keys params).find? fun k => !s.hasParameter k with
    | none =>
      have hknown : ∀ k ∈ Dict.keys params, s.hasParameter k = true := by
        simpa using List.find?_eq_none.1 hunknown
      simpa using fun _ => hknown
    | some k =>
      have hk : s.hasParameter k = false := by simpa using List.find?_some hunknown
      simp only [reduceCtorEq, false_iff, not_and]
      exact fun _ hknown => by simp [hknown k (List.mem_of_find?_eq_some hunknown)] at hk

theorem exists_resolved (h : s.resolve params = .ok resolved) {name : Bytes}
    (hname : s.hasParameter name = true) :
    ∃ p ∈ s.params, p.name = name ∧
      ∃ n, value params p = .ok n ∧ Dict.get? resolved name = some (.int n) :=
  exists_value (resolve_eq_ok_iff.1 h).1 (by simpa [hasParameter] using hname)

theorem exists_resolve_iff
    (hdefaults : ∀ p ∈ s.params, p.least ≤ p.default ∧ p.default ≤ p.greatest) :
    (∃ resolved, s.resolve params = .ok resolved) ↔ s.Admits params := by
  have hvalue : ∀ p ∈ s.params, (∃ n, value params p = .ok n) ↔
      ∀ v, Dict.get? params p.name = some v →
        ∃ n, Params.integerOf? v = some n ∧ p.least ≤ n ∧ n ≤ p.greatest := by
    intro p hp
    simp only [value_eq_ok_iff, setting?]
    cases Dict.get? params p.name with
    | none => simpa using hdefaults p hp
    | some v => simp
  simp only [resolve_eq_ok_iff, exists_and_right, exists_values_iff]
  constructor
  · exact fun h => ⟨h.2, fun p hp => (hvalue p hp).1 (h.1 p hp)⟩
  · exact fun h => ⟨fun p hp => (hvalue p hp).2 (h.inRange p hp), h.known⟩

/-! ## Templates -/

def parts? (s : Sample) : Option (List Part) :=
  match s.template with
  | .ok p => Template.parts? p.body
  | .error _ => none

theorem instantiate_eq_ok_iff {parts : List Part} {text : Bytes} (hparts : s.parts? = some parts)
    (hrefers : ∀ name, .param name ∈ parts → s.hasParameter name = true) :
    s.instantiate params = .ok text ↔
      ∃ resolved, s.resolve params = .ok resolved ∧ text = fillIn (written resolved) parts := by
  unfold parts? at hparts
  split at hparts
  · rename_i program hprogram
    cases hresolve : s.resolve params with
    | error f => simp [instantiate, hresolve, bind, Except.bind]
    | ok resolved =>
      have hgiven : ∀ name, .param name ∈ parts → (Dict.get? resolved name).isSome = true := by
        intro name hname
        obtain ⟨p, -, -, n, -, hget⟩ := exists_resolved hresolve (hrefers name hname)
        simp [hget]
      have hrender := program.render_parts (some resolved) hparts hgiven
      simp [instantiate, hresolve, hprogram, hrender, bind, Except.bind, pure, Except.pure, eq_comm]
  · simp at hparts

/-- Parameters of ranges that start at zero or later are written as numerals. -/
theorem numerals_written {parts : List Part} (hresolve : s.resolve params = .ok resolved)
    (hleast : ∀ p ∈ s.params, 0 ≤ p.least)
    (hrefers : ∀ name, .param name ∈ parts → s.hasParameter name = true) :
    Numerals (written resolved) parts ∧
      ∀ name, .param name ∈ parts → (written resolved name).length ≤ 19 := by
  have hwritten : ∀ name, .param name ∈ parts →
      ∃ m : Nat, m < 10 ^ 19 ∧ written resolved name = Bytes.ofNat m := by
    intro name hname
    obtain ⟨p, hp, -, n, hn, hget⟩ := exists_resolved hresolve (hrefers name hname)
    have hnonneg : (0 : Int) ≤ n.toInt :=
      Int64.le_iff_toInt_le.1 (Int64.le_trans (hleast p hp) (value_eq_ok_iff.1 hn).2.1)
    have hbound := n.toInt_lt
    obtain ⟨m, hm⟩ := Int.eq_ofNat_of_zero_le hnonneg
    refine ⟨m, by omega, ?_⟩
    rw [written, hget, Option.map_some, Option.getD_some, display_int, hm]
    rfl
  refine ⟨fun name hname => ?_, fun name hname => ?_⟩
  · obtain ⟨m, -, hm⟩ := hwritten name hname
    exact hm ▸ Bytes.numeral_ofNat m
  · obtain ⟨m, hlt, hm⟩ := hwritten name hname
    rw [hm, Bytes.ofNat, List.length_map]
    exact (Nat.length_toDigits_le_iff (by decide) (by decide)).2 hlt

/-- Whether parts refer to nothing but the parameters of a sample and make a program with `main`,
in which no numeral matters and no brace is doubled. -/
def wellMade (s : Sample) (parts : List Part) : Bool :=
  let text := fillIn (fun _ => "0") parts
  parts.all refers && (lines parts).all steady && !Bytes.contains text "\x7b\x7b" &&
    decide (text.length + 19 * parts.length < 2 ^ 63) &&
    (Simulator.Program.parse text).toOption.any (·.hasDef "main")
where
  /-- Whether a part is text or refers to a parameter of the sample. -/
  refers : Part → Bool
    | .text _ => true
    | .param name => s.hasParameter name

private theorem find?_of_mem_all (hs : s ∈ all) : find? s.name = some s := by
  simp only [all, List.mem_cons, List.not_mem_nil, or_false] at hs
  rcases hs with rfl | rfl | rfl | rfl <;> rfl

theorem ranges_of_mem_all : ∀ s ∈ all, ∀ p ∈ s.params,
    0 ≤ p.least ∧ p.least ≤ p.default ∧ p.default ≤ p.greatest := by decide +kernel

theorem wellMade_of_mem_all : ∀ s ∈ all, s.name ≠ "faulty" → s.parts?.any s.wellMade = true := by
  decide +kernel

theorem render_eq (hs : s ∈ all) (params : Params) :
    render s.name params = s.instantiate params := by
  simp [render, get, find?_of_mem_all hs, bind, Except.bind]

/-- A sample that is not faulty is filled with whatever it admits, and the definitions of its
program do not depend on that. -/
theorem exists_definitions (hs : s ∈ all) (hname : s.name ≠ "faulty") :
    ∃ names : List Bytes, Bytes.ofString "main" ∈ names ∧ ∀ params,
      ((∃ text, render s.name params = .ok text) ↔ s.Admits params) ∧
      ∀ text, render s.name params = .ok text →
        Simulator.Program.parse text = .ok ⟨text, names⟩ ∧
          Bytes.contains text "\x7b\x7b" = false ∧ text.length < 2 ^ 63 := by
  obtain ⟨parts, hparts, hmade⟩ := (Option.any_eq_true _ _).1 (wellMade_of_mem_all s hs hname)
  simp only [wellMade, Bool.and_eq_true, Bool.not_eq_true', decide_eq_true_eq] at hmade
  obtain ⟨⟨⟨⟨hall, hsteady⟩, hbraces⟩, hshort⟩, hmain⟩ := hmade
  have hrefers : ∀ name, .param name ∈ parts → s.hasParameter name = true :=
    fun name h => List.all_eq_true.1 hall _ h
  have hranges := ranges_of_mem_all s hs
  obtain ⟨⟨source, names⟩, hprogram, hdef⟩ := (Option.any_eq_true _ _).1 hmain
  have hparse : Simulator.Program.parse (fillIn (fun _ => "0") parts) = .ok ⟨source, names⟩ := by
    cases h : Simulator.Program.parse (fillIn (fun _ => "0") parts) with
    | error e => simp [h, Except.toOption] at hprogram
    | ok program =>
      rw [h] at hprogram
      rw [Option.some.inj hprogram]
  obtain rfl : source = _ := Simulator.Program.source_of_parse hparse
  refine ⟨names, by simpa [Simulator.Program.hasDef] using hdef, fun params => ⟨?_, ?_⟩⟩
  · simp only [render_eq hs, instantiate_eq_ok_iff hparts hrefers,
      ← exists_resolve_iff fun p hp => (hranges p hp).2]
    exact ⟨fun ⟨_, resolved, h, _⟩ => ⟨resolved, h⟩, fun ⟨resolved, h⟩ => ⟨_, resolved, h, rfl⟩⟩
  · intro text htext
    rw [render_eq hs, instantiate_eq_ok_iff hparts hrefers] at htext
    obtain ⟨resolved, hresolve, rfl⟩ := htext
    obtain ⟨hnumerals, hlength⟩ :=
      numerals_written hresolve (fun p hp => (hranges p hp).1) hrefers
    -- What was checked of the text with zeros carries over to the numerals of these parameters.
    have hzero := numerals_zero parts
    exact ⟨Simulator.Program.parse_fillIn hsteady hzero hnumerals hparse,
      contains_fillIn hzero hnumerals hbraces,
      Nat.lt_of_le_of_lt (length_fillIn_le hlength fun _ => "0") hshort⟩

end Sample

namespace Simulator

open Ledger

variable {o : Options} {shelf : Shelf} {s : Session Ledger}

/-- The names that the program of a parsed book defines, as long as the book is live. -/
def definitions? (s : Session Ledger) (i : Nat) : Option (List Bytes) :=
  match s.books[i]?.bind fun b => s.world.backend.find? b.ptr with
  | some (.book program) => some program.defs
  | _ => none

/-- A text is parsed to a book with these definitions, and the book can be evaluated. -/
structure Runnable (e : Engine Ledger) (s : Session Ledger) (text : Bytes) (names : List Bytes) :
    Prop where
  parsed : (s.step e (.parse text)).1 = .book s.books.length
  defines : definitions? (s.step e (.parse text)).2 s.books.length = some names
  evaluates : ∀ memDump, ∃ evaluation, ((s.step e (.parse text)).2.step e
    (.evaluate (.parsed s.books.length) ⟨.rust, memDump⟩)).1 = .evaluation (.ok evaluation)

private theorem Shelved.definitions?_eq {i : Nat} {p : Ptr} {program : Program}
    (hs : Shelved shelf s)
    (hplace : shelf[i]? = some (some (p, program))) : definitions? s i = some program.defs := by
  have hbook : s.books[i]? = some ⟨p⟩ := by
    rw [hs.books, Shelf.getElem?_books, hplace]
    rfl
  have hfind : s.world.backend.find? p = some (.book program) :=
    hs.sound.find? (hs.live ▸ Shelf.mem_entries (List.mem_of_getElem? hplace))
  simp [definitions?, hbook, hfind]

private theorem Shelved.runnable (observed : Bool) {text : Bytes} {names : List Bytes}
    (hs : Shelved shelf s) (hparse : o.parseError = []) (hbook : o.errorWithBook = false)
    (hevaluate : o.evaluateError = []) (htext : Program.parse text = .ok ⟨text, names⟩)
    (hmain : Bytes.ofString "main" ∈ names) (hlength : text.length < 2 ^ 63)
    (hfew : allocations s.world.trace + 4 < 2 ^ 59) :
    Runnable (host o observed) s text names := by
  have hparsed : o.parsed text = .ok ⟨text, names⟩ := by
    simp [Options.parsed, hparse, hbook, htext]
  have hlast : s.books.length = shelf.length := by simp [hs.books, Shelf.books]
  obtain ⟨hanswer, p, hnext⟩ := hs.step_parsed observed hparsed hlength (by omega)
  have hplace : (shelf ++ [some (p, ⟨text, names⟩)])[s.books.length]? =
      some (some (p, ⟨text, names⟩)) := by
    rw [hlast, List.getElem?_concat_length]
  have hroom : allocations (s.step (host o observed) (.parse text)).2.world.trace < 2 ^ 59 := by
    have hengine : (Operation.parse text).throughEngine = true := rfl
    obtain ⟨htrace, hkind⟩ := s.step_trace (host o observed) hengine
    rw [htrace, allocations_append]
    have hle := hkind.allocations_le
    omega
  refine ⟨hlast ▸ hanswer, hnext.definitions?_eq hplace, fun memDump => ?_⟩
  have hdef : Program.hasDef ⟨text, names⟩ "main" = true := by simpa [Program.hasDef] using hmain
  obtain ⟨evaluation, hevaluated⟩ :
      ∃ evaluation, o.evaluated ⟨text, names⟩ ⟨.rust, memDump⟩ = .ok evaluation := by
    simp [Options.evaluated, refusedInterpreter?, hdef, injected, hevaluate]
  refine ⟨evaluation, ?_⟩
  rw [(hnext.step_book observed rfl hplace hroom).1]
  simp only [Option.map_some, respond, opened_some, hevaluated, reply_ok]

private theorem faulty_refused (hparse : o.parseError = []) :
    ∃ text message, Sample.render "faulty" [] = .ok text ∧ text.length < 2 ^ 63 ∧
      o.parsed text = .error message := by
  have hrender : (Sample.render "faulty" []).toOption = some Sample.faulty := by decide +kernel
  have hrefused : (Program.parse Sample.faulty).isOk = false := by decide +kernel
  cases htext : Sample.render "faulty" [] with
  | error f => simp [htext, Except.toOption] at hrender
  | ok text =>
    rw [htext] at hrender
    obtain rfl := Option.some.inj hrender
    cases hprogram : Program.parse Sample.faulty with
    | error e =>
      exact ⟨_, e.message, rfl, by decide +kernel, by simp [Options.parsed, hparse, hprogram]⟩
    | ok program => simp [hprogram, Except.isOk, Except.toBool] at hrefused

/-- After every history over the simulated engine, as long as it is not told to refuse texts or
evaluations, a sample runs with whatever it admits, and has the same definitions with all of it;
only the faulty sample is refused. -/
theorem samples_run (o : Options) (observed : Bool) (ops : List Operation)
    (hparse : o.parseError = []) (hbook : o.errorWithBook = false)
    (hevaluate : o.evaluateError = []) (hops : ∀ op ∈ ops, op.throughEngine = true)
    (hsources : ∀ op ∈ ops, op.source.length < 2 ^ 63) (hlength : ops.length < 2 ^ 56) :
    let e : Engine Ledger := { boundary := boundary o, observed := observed }
    let s := ((Session.start {}).run e ops).2
    (∀ sample ∈ Sample.all, sample.name ≠ "faulty" →
      ∃ names : List Bytes, Bytes.ofString "main" ∈ names ∧
        (∃ text, Sample.render sample.name [] = .ok text ∧ Runnable e s text names) ∧
        ∀ params, ((∃ text, Sample.render sample.name params = .ok text) ↔ sample.Admits params) ∧
          ∀ text, Sample.render sample.name params = .ok text →
            Runnable e s text names ∧ Bytes.contains text "\x7b\x7b" = false) ∧
    ∃ text message, Sample.render "faulty" [] = .ok text ∧
      (s.step e (.parse text)).1 = .failed (.interop "book_parse" message) := by
  intro e s
  obtain ⟨shelf, hshelf, -⟩ := shelved_start.run
    (Session.within_of_length (host o observed) {} hops hsources (by omega))
  have hfew : allocations s.world.trace + 4 < 2 ^ 59 := by
    have hle : allocations s.world.trace ≤ 0 + 4 * ops.length :=
      (Session.start {}).allocations_run_le e hops
    omega
  refine ⟨fun sample hsample hname => ?_, ?_⟩
  · obtain ⟨names, hmain, hnames⟩ := Sample.exists_definitions hsample hname
    have hrun : ∀ params text, Sample.render sample.name params = .ok text →
        Runnable e s text names ∧ Bytes.contains text "\x7b\x7b" = false := by
      intro params text htext
      obtain ⟨hprogram, hbraces, hshort⟩ := (hnames params).2 text htext
      exact ⟨hshelf.runnable observed hparse hbook hevaluate hprogram hmain hshort hfew, hbraces⟩
    have hdefaults : sample.Admits [] := ⟨fun _ h => (nomatch h), fun _ _ _ h => (nomatch h)⟩
    obtain ⟨text, htext⟩ := (hnames []).1.2 hdefaults
    exact ⟨names, hmain, ⟨text, htext, (hrun [] text htext).1⟩,
      fun params => ⟨(hnames params).1, hrun params⟩⟩
  · obtain ⟨text, message, htext, hshort, hrefused⟩ := faulty_refused (o := o) hparse
    exact ⟨text, _, htext, hshelf.step_refused observed hrefused hshort
      (Nat.lt_of_le_of_lt (Nat.le_add_right _ 4) hfew)⟩

/-- The greatest number that the Fibonacci sample admits, on an engine that refuses encodings and
has seen a text that is no program. -/
theorem samples_run_fibonacci :
    let o : Options := { serializeError := "stopped" }
    let e : Engine Ledger := { boundary := boundary o }
    let ops : List Operation := [.parse "@main = 1", .parse "main", .evaluate (.parsed 0) {},
      .close (.parsed 0)]
    let s := ((Session.start {}).run e ops).2
    let params : Params := [("N", .int 1048576)]
    o.parseError = [] ∧ o.errorWithBook = false ∧ o.evaluateError = [] ∧
      (∀ op ∈ ops, op.throughEngine = true) ∧ (∀ op ∈ ops, op.source.length < 2 ^ 63) ∧
      ops.length < 2 ^ 56 ∧
      ∃ text text' names, Sample.render "fib" params = .ok text ∧
        Sample.render "fib" [] = .ok text' ∧ Bytes.ofString "main" ∈ names ∧
        Runnable e s text names ∧ Runnable e s text' names ∧
        Bytes.contains text "\x7b\x7b" = false := by
  intro o e ops s params
  refine ⟨rfl, rfl, rfl, by decide, by decide, by decide, ?_⟩
  obtain ⟨hruns, -⟩ := samples_run o true ops rfl rfl rfl (by decide) (by decide) (by decide)
  obtain ⟨sample, hsample, hname⟩ : ∃ sample ∈ Sample.all, sample.name = "fib" := by
    decide +kernel
  obtain ⟨names, hmain, ⟨text', htext', hrun'⟩, hparams⟩ :=
    hruns sample hsample (by rw [hname]; decide)
  rw [hname] at htext' hparams
  have haccepted : (Sample.render "fib" params).isOk = true := by decide +kernel
  cases htext : Sample.render "fib" params with
  | error f => simp [htext, Except.isOk, Except.toBool] at haccepted
  | ok text =>
    obtain ⟨hrun, hbraces⟩ := (hparams params).2 text htext
    exact ⟨text, text', names, rfl, htext', hmain, hrun, hrun', hbraces⟩

end Simulator

end EngineHost
