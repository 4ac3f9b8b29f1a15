import EngineHost.Proofs.Conversation
import EngineHost.Proofs.EngineFault

/-!
# The error channel

A call that can fail makes something and may leave a text in its error slot. Whatever a boundary
answers, the slot is looked at first, then what was made, and only then is it used. An operation
returns a value also when it fails; that value is empty, so nothing of a half-done operation is
seen.
-/

namespace EngineHost

variable {σ ρ α : Type} {e : Engine σ}

/-- How the outcome of an operation follows from the answer of its call. A text in the slot is the
failure, whatever was made; nothing made is a failure of the call as well; and a value comes only
with an empty slot from what was made, in the way that `Yields` says. -/
structure Channel (b : Boundary σ) (name : Bytes) (made : Reply σ Made)
    (outcome : Except (Failed ρ) α) (Yields : Ptr → σ → α → Prop) : Prop where
  told : made.value.slot ≠ 0 → ∀ w : World σ, w.backend = made.state →
    outcome.mapError Failed.fault =
      .error (.interop name (b.decodeText made.value.slot w).1)
  unreadable : made.value.slot ≠ 0 → (b.readText made.value.slot made.state).value = none →
    outcome.mapError Failed.fault = .error (.interop name [])
  nothing : made.value.slot = 0 → made.value.ptr = 0 →
    ∃ message, outcome.mapError Failed.fault = .error (.interop name message)
  value : ∀ a, outcome = .ok a ↔
    made.value.slot = 0 ∧ made.value.ptr ≠ 0 ∧ Yields made.value.ptr made.state a

namespace Channel

variable {name : Bytes} {made : Reply σ Made} {outcome : Except (Failed ρ) α}
  {Yields : Ptr → σ → α → Prop}

private theorem of_cases
    (htold : made.value.slot ≠ 0 → ∃ out, outcome = .error ⟨.interop name
      (decodedText (e.boundary.readText made.value.slot made.state).value), out⟩)
    (hnothing : made.value.slot = 0 → made.value.ptr = 0 →
      ∃ message out, outcome = .error ⟨.interop name message, out⟩)
    (hmade : made.value.slot = 0 → made.value.ptr ≠ 0 →
      ∀ a, outcome = .ok a ↔ Yields made.value.ptr made.state a) :
    Channel e.boundary name made outcome Yields := by
  constructor
  · intro hslot w hw
    obtain ⟨out, herror⟩ := htold hslot
    have htext := (Engine.runs_decodeText (e := e) made.value.slot made.state w hw).1
    rw [herror, htext, Boundary.textAt, if_neg hslot]
    rfl
  · intro hslot hread
    obtain ⟨out, herror⟩ := htold hslot
    rw [herror, hread]
    rfl
  · intro hslot hptr
    obtain ⟨message, out, herror⟩ := hnothing hslot hptr
    exact ⟨message, herror ▸ rfl⟩
  · intro a
    by_cases hslot : made.value.slot = 0
    · by_cases hptr : made.value.ptr = 0
      · obtain ⟨message, out, herror⟩ := hnothing hslot hptr
        simp [herror, hptr]
      · simp [hmade hslot hptr, hslot, hptr]
    · obtain ⟨out, herror⟩ := htold hslot
      simp [herror, hslot]

end Channel

namespace Engine

private theorem channel_parse (e : Engine σ) (w : World σ) (source : Bytes) :
    Channel e.boundary "book_parse" (e.boundary.parse source 0 w.backend)
      (e.parseReturning source w).1 fun p _ book => book = ⟨p⟩ := by
  have hmade : (e.boundary.parse source 0 w.backend).value = ⟨_, _⟩ := rfl
  apply Channel.of_cases
  · intro hslot
    exact ⟨_, (runs_parseReturning_refused hmade hslot w rfl).1⟩
  · intro hslot hptr
    rw [hslot, hptr] at hmade
    exact ⟨_, _, (runs_parseReturning_nothing hmade w rfl).1⟩
  · intro hslot hptr book
    rw [hslot] at hmade
    rw [(runs_parseReturning_made hmade hptr w rfl).1, Except.ok.injEq]
    exact eq_comm

/-- From the backend `s`, an operation ends with exactly the values that `Yields` says. -/
def Delivers (e : Engine σ) (x : HostM σ (Except (Failed ρ) α)) (s : σ) (Yields : α → Prop) :
    Prop :=
  ∃ outcome s' calls events, Runs e x s outcome s' calls events ∧ ∀ a, outcome = .ok a ↔ Yields a

/-- An evaluation is what its record says, with the texts that the record points to. -/
def Evaluates (b : Boundary σ) (p : Ptr) (s : σ) (a : Evaluation) : Prop :=
  let read := b.readRecord p s
  ∃ record, read.value = some record ∧ a =
    { result := b.textAt record.result read.state
      memDump := b.textAt record.memDump (b.afterRead record.result read.state)
      iterations := record.iterations
      duration := Duration.ofSeconds record.seconds }

private theorem delivers_copyRecord (p : Ptr) (s : σ) :
    Delivers e (e.copyRecord p) s (Evaluates e.boundary p s) := by
  cases hread : (e.boundary.readRecord p s).value with
  | none =>
    refine ⟨_, _, _, _, runs_copyRecord_unreadable hread, ?_⟩
    intro a
    simp [Evaluates, hread]
  | some record =>
    refine ⟨_, _, _, _, runs_copyRecord hread, ?_⟩
    intro a
    simp [Evaluates, hread, eq_comm]

private theorem channel_evaluate (e : Engine σ) (w : World σ) {book : Ptr} (hbook : book ≠ 0)
    (options : EvaluateOptions) :
    Channel e.boundary "book_evaluate"
      (e.boundary.evaluate book options.interpreter options.dump 0 w.backend)
      (e.evaluateReturning ⟨book⟩ options w).1 (Evaluates e.boundary) := by
  have hmade : (e.boundary.evaluate book options.interpreter options.dump 0 w.backend).value =
    ⟨_, _⟩ := rfl
  apply Channel.of_cases
  · intro hslot
    exact ⟨_, (runs_evaluateReturning hbook hmade (runs_evaluationOf_refused _ hslot _) w rfl).1⟩
  · intro hslot hptr
    rw [hslot, hptr] at hmade
    exact ⟨_, _, (runs_evaluateReturning hbook hmade (runs_evaluationOf_nothing _) w rfl).1⟩
  · intro hslot hptr a
    rw [hslot] at hmade
    obtain ⟨outcome, s', calls, events, hcopy, hvalue⟩ := delivers_copyRecord (e := e) _ _
    rw [(runs_evaluateReturning hbook hmade (runs_evaluationOf_made hptr hcopy) w rfl).1]
    exact hvalue a

/-- An encoding that is used by an operation goes through the channel of the encoding call. -/
theorem channel_withVec (e : Engine σ) (w : World σ) (book : Ptr) (out : ρ)
    {use : Ptr → HostM σ (Except (Failed ρ) α)} {Yields : Ptr → σ → α → Prop}
    (huse : ∀ p s, Delivers e (use p) s (Yields p s)) :
    Channel e.boundary "book_serialize" (e.boundary.serialize book 0 w.backend)
      (e.withVec book out use w).1 Yields := by
  have hmade : (e.boundary.serialize book 0 w.backend).value = ⟨_, _⟩ := rfl
  apply Channel.of_cases
  · intro hslot
    exact ⟨_, (runs_withVec_refused hmade hslot w rfl).1⟩
  · intro hslot hptr
    rw [hslot, hptr] at hmade
    exact ⟨_, _, (runs_withVec_nothing hmade w rfl).1⟩
  · intro hslot hptr a
    rw [hslot] at hmade
    obtain ⟨outcome, s', calls, events, hruns, hvalue⟩ := huse _ _
    rw [(runs_withVec_made hmade hptr hruns w rfl).1]
    exact hvalue a

/-- The copy of a vector over a buffer, once its length was told. -/
def copyOf (b : Boundary σ) (p : Ptr) (s : σ) (buffer : Bytes) : UInt64 × Bytes :=
  (b.vecCopy p buffer (b.vecLength p s).state).value

/-- The bytes of a vector are a copy of as many bytes as was told, and nothing is copied if that is
none. There has to be room for them. -/
def Encodes (e : Engine σ) (p : Ptr) (s : σ) (data : Bytes) : Prop :=
  let n := (e.boundary.vecLength p s).value
  n.toNat ≤ e.room ∧
    if n = 0 then data = [] else copyOf e.boundary p s (List.replicate n.toNat 0) = (n, data)

private theorem delivers_vecBytes (p : Ptr) (s : σ) :
    Delivers e (e.vecBytes p) s (Encodes e p s) := by
  by_cases hn : (e.boundary.vecLength p s).value = 0
  · refine ⟨_, _, _, _, runs_vecBytes_empty hn, ?_⟩
    intro data
    simp [Encodes, hn, eq_comm]
  by_cases hroom : (e.boundary.vecLength p s).value.toNat ≤ e.room
  · refine ⟨_, _, _, _, runs_vecBytes rfl hn hroom, ?_⟩
    intro data
    simp only [Encodes, hn, hroom, true_and, if_false, copyOf, Prod.ext_iff]
    split <;> simp [*]
  · refine ⟨_, _, _, _, runs_vecBytes_crash rfl (Nat.not_le.1 hroom), ?_⟩
    intro data
    simp [Encodes, hroom]

/-- A buffer that is too short is left alone. A longer one is filled by a copy of as many bytes as
was told, and nothing is copied if that is none. -/
def Fills (b : Boundary σ) (buffer : Bytes) (p : Ptr) (s : σ) (a : Filling) : Prop :=
  let n := (b.vecLength p s).value
  if buffer.length < n.toNat then a = ⟨0, false, buffer⟩
  else if n = 0 then a = ⟨0, true, buffer⟩
  else a.written = n ∧ a.fits = true ∧ copyOf b p s buffer = (n, a.buffer)

private theorem delivers_vecFill (buffer : Bytes) (p : Ptr) (s : σ) :
    Delivers e (e.vecFill buffer p) s (Fills e.boundary buffer p s) := by
  by_cases hshort : buffer.length < (e.boundary.vecLength p s).value.toNat
  · refine ⟨_, _, _, _, runs_vecFill_short rfl hshort, ?_⟩
    intro a
    simp [Fills, hshort, eq_comm]
  by_cases hn : (e.boundary.vecLength p s).value = 0
  · refine ⟨_, _, _, _, runs_vecFill_empty hn, ?_⟩
    intro a
    simp [Fills, hn, eq_comm]
  · refine ⟨_, _, _, _, runs_vecFill rfl hn (Nat.not_lt.1 hshort), ?_⟩
    rintro ⟨written, fits, after⟩
    simp only [Fills, hshort, hn, if_false, copyOf, Prod.ext_iff]
    by_cases hcopied : (e.boundary.vecCopy p buffer (e.boundary.vecLength p s).state).value.1 =
      (e.boundary.vecLength p s).value
    · simp [hcopied, eq_comm]
    · simp [hcopied]

private theorem channel_serializeTo (e : Engine σ) (w : World σ) {book : Ptr} (hbook : book ≠ 0)
    (buffer : Bytes) :
    Channel e.boundary "book_serialize" (e.boundary.serialize book 0 w.backend)
      (e.serializeToReturning ⟨book⟩ buffer w).1 (Fills e.boundary buffer) := by
  have hmade : (e.boundary.serialize book 0 w.backend).value = ⟨_, _⟩ := rfl
  apply Channel.of_cases
  · intro hslot
    exact ⟨_, (runs_serializeToReturning hbook (runs_withVec_refused hmade hslot) w rfl).1⟩
  · intro hslot hptr
    rw [hslot, hptr] at hmade
    exact ⟨_, _, (runs_serializeToReturning hbook (runs_withVec_nothing hmade) w rfl).1⟩
  · intro hslot hptr a
    rw [hslot] at hmade
    obtain ⟨outcome, s', calls, events, hruns, hvalue⟩ := delivers_vecFill (e := e) buffer _ _
    rw [(runs_serializeToReturning hbook (runs_withVec_made hmade hptr hruns) w rfl).1,
      ← hvalue a]
    cases outcome with
    | ok r => exact Iff.rfl
    | error f => exact ⟨nofun, nofun⟩

/-- Whenever an operation on a book fails, released or not, what it returns beside the fault is
empty: no book, no evaluation, no bytes, nothing written and no length. -/
structure FailsEmpty (e : Engine σ) (w : World σ) (b : Book) : Prop where
  parse : ∀ source f, (e.parseReturning source w).1 = .error f → f.value = none
  evaluate : ∀ options f, (e.evaluateReturning b options w).1 = .error f →
    f.value = ⟨[], [], 0, ⟨0⟩⟩
  serialize : ∀ f, (e.serializeReturning b w).1 = .error f → f.value = none
  serializeTo : ∀ buffer f, (e.serializeToReturning b buffer w).1 = .error f →
    f.value.written = 0 ∧ f.value.fits = false
  serializedLength : ∀ f, (e.serializedLengthReturning b w).1 = .error f → f.value = 0

private theorem failsEmpty (e : Engine σ) (w : World σ) (b : Book) : FailsEmpty e w b where
  parse source f hf := (e.ends_parseReturning source w f hf).2
  evaluate options f hf := (e.ends_evaluateReturning b options w f hf).2
  serialize f hf := e.ends_serializeReturning b w f hf
  serializeTo buffer f hf := (e.ends_serializeToReturning b buffer w f hf).2
  serializedLength f hf := (e.ends_serializedLengthReturning b w f hf).2

/-- The five operations that make a call which can fail, each with its channel. -/
structure ErrorChannel (e : Engine σ) (w : World σ) (book : Ptr) : Prop where
  parse : ∀ source, Channel e.boundary "book_parse" (e.boundary.parse source 0 w.backend)
    (e.parseReturning source w).1 fun p _ book => book = ⟨p⟩
  evaluate : ∀ options, Channel e.boundary "book_evaluate"
    (e.boundary.evaluate book options.interpreter options.dump 0 w.backend)
    (e.evaluateReturning ⟨book⟩ options w).1 (Evaluates e.boundary)
  serialize : Channel e.boundary "book_serialize" (e.boundary.serialize book 0 w.backend)
    (e.serializeReturning ⟨book⟩ w).1 (Encodes e)
  serializeTo : ∀ buffer, Channel e.boundary "book_serialize"
    (e.boundary.serialize book 0 w.backend) (e.serializeToReturning ⟨book⟩ buffer w).1
    (Fills e.boundary buffer)
  serializedLength : Channel e.boundary "book_serialize" (e.boundary.serialize book 0 w.backend)
    (e.serializedLengthReturning ⟨book⟩ w).1 fun p s n => n = (e.boundary.vecLength p s).value
  empty : ∀ b, FailsEmpty e w b

/-- Whatever a boundary answers, every operation on a live book goes through the channel of its
call, and no operation that fails lets anything of its result out. -/
theorem errorChannel (e : Engine σ) (w : World σ) (book : Ptr) (hbook : book ≠ 0) :
    ErrorChannel e w book := by
  constructor
  · exact channel_parse e w
  · exact channel_evaluate e w hbook
  · rw [serializeReturning, withBook_live _ hbook]
    exact channel_withVec e w book none delivers_vecBytes
  · exact channel_serializeTo e w hbook
  · rw [serializedLengthReturning, withBook_live _ hbook]
    apply channel_withVec e w book 0
    intro p s
    refine ⟨_, _, _, _, (runs_vecLength p s).map Except.ok, ?_⟩
    intro n
    rw [Except.ok.injEq]
    exact eq_comm
  · exact failsEmpty e w

/-- A boundary that contradicts itself: it makes a book along with a text that cannot be read,
evaluates to nothing, and copies less than it tells. -/
def crooked : Boundary Unit where
  parse _ _ s := { value := ⟨8, 16⟩, state := s }
  freeBook _ s := { value := (), state := s }
  evaluate _ _ _ _ s := { value := ⟨0, 0⟩, state := s }
  freeEvaluation _ s := { value := (), state := s }
  serialize _ _ s := { value := ⟨8, 0⟩, state := s }
  vecLength _ s := { value := 3, state := s }
  vecCopy _ buffer s := { value := (2, [1, 2] ++ buffer.drop 2), state := s }
  freeVec _ s := { value := (), state := s }
  freeText _ s := { value := (), state := s }
  readText _ s := { value := none, state := s }
  readRecord _ s := { value := none, state := s }

theorem errorChannel_crooked :
    let e : Engine Unit := { boundary := crooked }
    let w : World Unit := { backend := () }
    (8 : Ptr) ≠ 0 ∧
      (e.parseReturning "@main = 1" w).1 = .error ⟨.interop "book_parse" [], none⟩ ∧
      (e.serializeToReturning ⟨8⟩ [7, 7] w).1 = .ok ⟨0, false, [7, 7]⟩ ∧
      (e.serializeToReturning ⟨8⟩ [7, 7, 7] w).1 =
        .error ⟨.plain "vec_copy: copied 2 of 3 bytes", ⟨0, false, [1, 2, 7]⟩⟩ ∧
      (e.serializeReturning ⟨8⟩ w).1 = .error ⟨.plain "vec_copy: copied 2 of 3 bytes", none⟩ ∧
      ErrorChannel e w 8 :=
  ⟨by decide, rfl, rfl, rfl, rfl, errorChannel _ _ 8 (by decide)⟩

end Engine

end EngineHost
