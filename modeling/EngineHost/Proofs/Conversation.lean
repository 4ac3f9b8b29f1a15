import EngineHost.Engine.Session

/-!
# Conversations with the boundary

What each operation of an engine does, whatever serves its boundary: its value, the backend that it
leaves behind, the calls it makes and the transitions it reports. Later results about books,
ledgers and guests open no operation; they start from the statements here.
-/

namespace EngineHost

variable {σ ρ α β : Type} {e : Engine σ}

/-- From the backend `s`, an operation ends with a value and a backend, after these calls and
transitions. Nothing but the backend decides what it does. -/
def Runs (e : Engine σ) (x : HostM σ α) (s : σ) (a : α) (s' : σ) (calls : List Call)
    (events : List Event) : Prop :=
  ∀ w : World σ, w.backend = s →
    (x w).1 = a ∧ (x w).2.backend = s' ∧ (x w).2.trace = w.trace ++ calls ∧
      (x w).2.events = w.events ++ if e.observed then events else []

/-- What concerns an address, which is nothing if the address is zero. -/
def unlessNull (p : Ptr) (xs : List β) : List β := if p = 0 then [] else xs

@[simp] theorem unlessNull_zero (xs : List β) : unlessNull 0 xs = [] := rfl

@[simp] theorem unlessNull_of_ne {p : Ptr} (hp : p ≠ 0) (xs : List β) : unlessNull p xs = xs := by
  simp [unlessNull, hp]

theorem mem_unlessNull {p : Ptr} {x : β} {xs : List β} :
    x ∈ unlessNull p xs ↔ p ≠ 0 ∧ x ∈ xs := by
  by_cases hp : p = 0 <;> simp [hp]

/-- The backend once an address has been released, if there is one to release. -/
def afterFree (free : Ptr → σ → Reply σ Unit) (p : Ptr) (s : σ) : σ :=
  if p = 0 then s else (free p s).state

namespace Runs

theorem pure (a : α) (s : σ) : Runs e (Pure.pure a) s a s [] [] := by
  rintro w rfl
  refine ⟨rfl, rfl, (List.append_nil _).symm, ?_⟩
  change w.events = _
  split <;> simp

theorem bind {x : HostM σ α} {f : α → HostM σ β} {s s₁ s₂ : σ} {a : α} {b : β}
    {calls₁ calls₂ : List Call} {events₁ events₂ : List Event}
    (hx : Runs e x s a s₁ calls₁ events₁) (hf : Runs e (f a) s₁ b s₂ calls₂ events₂) :
    Runs e (x >>= f) s b s₂ (calls₁ ++ calls₂) (events₁ ++ events₂) := by
  intro w hw
  obtain ⟨ha, hs, htrace, hevents⟩ := hx w hw
  obtain ⟨hb, hs', htrace', hevents'⟩ := hf (x w).2 hs
  change (f (x w).1 (x w).2).1 = b ∧ (f (x w).1 (x w).2).2.backend = s₂ ∧
    (f (x w).1 (x w).2).2.trace = _ ∧ (f (x w).1 (x w).2).2.events = _
  rw [ha]
  refine ⟨hb, hs', ?_, ?_⟩
  · rw [htrace', htrace, List.append_assoc]
  · rw [hevents', hevents]
    split <;> simp

theorem map {x : HostM σ α} {s s' : σ} {a : α} {calls : List Call} {events : List Event}
    (f : α → β) (hx : Runs e x s a s' calls events) :
    Runs e (x >>= fun a => Pure.pure (f a)) s (f a) s' calls events := by
  simpa using hx.bind (f := fun a => Pure.pure (f a)) (pure (f a) s')

theorem call (f : σ → Reply σ α) (note : α → Call) (s : σ) :
    Runs e (World.call f note) s (f s).value (f s).state [note (f s).value] [] := by
  rintro w rfl
  simp [World.call]

theorem track (r : Resource) (t : Transition) (s : σ) :
    Runs e (e.track r t) s () s [] [⟨r, t⟩] := by
  rintro w rfl
  cases hobserved : e.observed with
  | true => simp [Engine.track, World.emit, World.observe, hobserved, Bind.bind, StateT.bind]
  | false =>
    rw [Engine.track, hobserved]
    exact ⟨rfl, rfl, (List.append_nil _).symm, (List.append_nil _).symm⟩

theorem emit (r : Log.Record) (s : σ) : Runs e (World.emit r) s () s [] [] := by
  rintro w rfl
  simp [World.emit]

private theorem trackUnlessNull (p : Ptr) (r : Resource) (t : Transition) {k : Unit → HostM σ β}
    {s s' : σ}
    {b : β} {calls : List Call} {events : List Event} (hk : Runs e (k ()) s b s' calls events) :
    Runs e (if p ≠ 0 then e.track r t >>= k else k ()) s b s' calls
      (unlessNull p [⟨r, t⟩] ++ events) := by
  by_cases hp : p = 0
  · simpa [hp] using hk
  · simpa [hp] using (track r t s).bind hk

private theorem freeUnlessNull (p : Ptr) {free : Ptr → σ → Reply σ Unit} {x : HostM σ Unit} {s : σ}
    {calls : List Call} {events : List Event} (b : β)
    (hx : Runs e x s () (free p s).state calls events) :
    Runs e (if p ≠ 0 then x >>= fun _ => Pure.pure b else Pure.pure b) s b (afterFree free p s)
      (unlessNull p calls) (unlessNull p events) := by
  by_cases hp : p = 0
  · simpa [hp, afterFree] using pure b s
  · simpa [hp, afterFree] using hx.bind (f := fun _ => Pure.pure b) (pure b _)

end Runs

/-- What the host makes of the bytes that were read as a text. -/
def decodedText : Option Bytes → Bytes
  | none => []
  | some data => Utf8.repair data

def Boundary.textAt (b : Boundary σ) (p : Ptr) (s : σ) : Bytes :=
  if p = 0 then [] else decodedText (b.readText p s).value

/-- The backend after the host has read the text at an address. -/
def Boundary.afterRead (b : Boundary σ) (p : Ptr) (s : σ) : σ :=
  if p = 0 then s else (b.readText p s).state

def EvaluateOptions.dump (o : EvaluateOptions) : UInt32 := if o.memDump then 1 else 0

namespace Engine

theorem runs_decodeText (p : Ptr) (s : σ) :
    Runs e (e.boundary.decodeText p) s (e.boundary.textAt p s) (e.boundary.afterRead p s)
      (unlessNull p [.readText p]) [] := by
  by_cases hp : p = 0
  · subst hp
    exact Runs.pure [] s
  · simp only [Boundary.decodeText, Boundary.textAt, Boundary.afterRead, hp, if_false,
      unlessNull_of_ne hp]
    refine (Runs.call (e.boundary.readText p) (fun _ => .readText p) s).bind ?_
    cases (e.boundary.readText p s).value with
    | none => exact Runs.pure _ _
    | some data => exact Runs.pure _ _

private theorem runs_text {t : NativeText} (ht : t.ptr ≠ 0) (hdecoded : t.decoded = none) (s : σ) :
    Runs e (t.text e.boundary) s
      (decodedText (e.boundary.readText t.ptr s).value,
        { t with decoded := some (decodedText (e.boundary.readText t.ptr s).value) })
      (e.boundary.readText t.ptr s).state [.readText t.ptr] [] := by
  have hread := runs_decodeText (e := e) t.ptr s
  simp only [Boundary.textAt, Boundary.afterRead, ht, if_false, unlessNull_of_ne ht] at hread
  simp only [NativeText.text, hdecoded]
  exact hread.bind (Runs.pure _ _)

theorem runs_release {t : NativeText} (ht : t.ptr ≠ 0) (s : σ) :
    Runs e (t.release e.boundary) s { t with ptr := 0 } (e.boundary.freeText t.ptr s).state
      [.freeText t.ptr] [] := by
  simp only [NativeText.release, ht, if_false]
  exact (Runs.call (e.boundary.freeText t.ptr) (fun _ => .freeText t.ptr) s).bind (Runs.pure _ _)

private theorem runs_checkSlot (op : Bytes) {v : Ptr} (hv : v ≠ 0) (s : σ) :
    Runs e (e.checkSlot op v) s (some (.interop op (decodedText (e.boundary.readText v s).value)))
      (e.boundary.freeText v (e.boundary.readText v s).state).state [.readText v, .freeText v]
      [⟨.text, .allocated⟩, ⟨.text, .released⟩] := by
  have hvalue : ({ ptr := v } : NativeText).hasValue = true := by simp [NativeText.hasValue, hv]
  simp only [checkSlot, hvalue, Bool.not_true, Bool.false_eq_true, if_false]
  refine (Runs.track .text .allocated s).bind ?_
  refine (runs_text (t := { ptr := v }) hv rfl s).bind ?_
  refine (runs_release (t := { ptr := v, decoded := _ }) hv _).bind ?_
  exact (Runs.track .text .released _).bind (Runs.pure _ _)

private theorem runs_freeBook (p : Ptr) (s : σ) :
    Runs e (e.freeBook p) s () (e.boundary.freeBook p s).state [.freeBook p]
      [⟨.book, .released⟩] :=
  (Runs.call (e.boundary.freeBook p) (fun _ => .freeBook p) s).bind (Runs.track _ _ _)

private theorem runs_freeEvaluation (p : Ptr) (s : σ) :
    Runs e (e.freeEvaluation p) s () (e.boundary.freeEvaluation p s).state [.freeEvaluation p]
      [⟨.evaluation, .released⟩] :=
  (Runs.call (e.boundary.freeEvaluation p) (fun _ => .freeEvaluation p) s).bind (Runs.track _ _ _)

private theorem runs_freeVec (p : Ptr) (s : σ) :
    Runs e (e.freeVec p) s () (e.boundary.freeVec p s).state [.freeVec p] [⟨.vec, .released⟩] :=
  (Runs.call (e.boundary.freeVec p) (fun _ => .freeVec p) s).bind (Runs.track _ _ _)

private theorem runs_checkSlot_null (op : Bytes) (s : σ) :
    Runs e (e.checkSlot op 0) s none s [] [] :=
  Runs.pure none s

/-- The slot of a refused parse is emptied, and a book that came with it is released at once. -/
theorem runs_parseReturning_refused {source : Bytes} {s : σ} {p v : Ptr}
    (hmade : (e.boundary.parse source 0 s).value = ⟨p, v⟩) (hv : v ≠ 0) :
    let read := e.boundary.readText v (e.boundary.parse source 0 s).state
    Runs e (e.parseReturning source) s
      (.error ⟨.interop "book_parse" (decodedText read.value), none⟩)
      (afterFree e.boundary.freeBook p (e.boundary.freeText v read.state).state)
      ([.parse p v, .readText v, .freeText v] ++ unlessNull p [.freeBook p])
      (unlessNull p [⟨.book, .allocated⟩] ++
        ([⟨.text, .allocated⟩, ⟨.text, .released⟩] ++ unlessNull p [⟨.book, .released⟩])) := by
  have hcall := Runs.call (e := e) (e.boundary.parse source 0) (fun m => .parse m.ptr m.slot) s
  rw [hmade] at hcall
  refine hcall.bind (Runs.trackUnlessNull p .book .allocated ?_)
  exact (runs_checkSlot "book_parse" hv _).bind (Runs.freeUnlessNull p _ (runs_freeBook p _))

theorem runs_parse_refused {source : Bytes} {s : σ} {p v : Ptr}
    (hmade : (e.boundary.parse source 0 s).value = ⟨p, v⟩) (hv : v ≠ 0) :
    let read := e.boundary.readText v (e.boundary.parse source 0 s).state
    Runs e (e.parse source) s (.error (.interop "book_parse" (decodedText read.value)))
      (afterFree e.boundary.freeBook p (e.boundary.freeText v read.state).state)
      ([.parse p v, .readText v, .freeText v] ++ unlessNull p [.freeBook p])
      (unlessNull p [⟨.book, .allocated⟩] ++
        ([⟨.text, .allocated⟩, ⟨.text, .released⟩] ++ unlessNull p [⟨.book, .released⟩])) :=
  (runs_parseReturning_refused hmade hv).map _

theorem runs_parseReturning_nothing {source : Bytes} {s : σ}
    (hmade : (e.boundary.parse source 0 s).value = ⟨0, 0⟩) :
    Runs e (e.parseReturning source) s
      (.error ⟨.interop "book_parse" "engine returned no book", none⟩)
      (e.boundary.parse source 0 s).state [.parse 0 0] [] := by
  have hcall := Runs.call (e := e) (e.boundary.parse source 0) (fun m => .parse m.ptr m.slot) s
  rw [hmade] at hcall
  exact hcall.bind ((runs_checkSlot_null "book_parse" _).bind (Runs.pure _ _))

theorem runs_parse_nothing {source : Bytes} {s : σ}
    (hmade : (e.boundary.parse source 0 s).value = ⟨0, 0⟩) :
    Runs e (e.parse source) s (.error (.interop "book_parse" "engine returned no book"))
      (e.boundary.parse source 0 s).state [.parse 0 0] [] :=
  (runs_parseReturning_nothing hmade).map _

theorem runs_parseReturning_made {source : Bytes} {s : σ} {p : Ptr}
    (hmade : (e.boundary.parse source 0 s).value = ⟨p, 0⟩) (hp : p ≠ 0) :
    Runs e (e.parseReturning source) s (.ok ⟨p⟩) (e.boundary.parse source 0 s).state [.parse p 0]
      [⟨.book, .allocated⟩] := by
  have hcall := Runs.call (e := e) (e.boundary.parse source 0) (fun m => .parse m.ptr m.slot) s
  rw [hmade] at hcall
  refine hcall.bind ?_
  simp only [ne_eq, hp, not_false_eq_true, if_true, if_false]
  exact (Runs.track .book .allocated _).bind
    ((runs_checkSlot_null "book_parse" _).bind (Runs.pure _ _))

theorem runs_parse_made {source : Bytes} {s : σ} {p : Ptr}
    (hmade : (e.boundary.parse source 0 s).value = ⟨p, 0⟩) (hp : p ≠ 0) :
    Runs e (e.parse source) s (.ok ⟨p⟩) (e.boundary.parse source 0 s).state [.parse p 0]
      [⟨.book, .allocated⟩] :=
  (runs_parseReturning_made hmade hp).map _

theorem runs_close_released (s : σ) : Runs e (e.close ⟨0⟩) s ⟨0⟩ s [] [] := Runs.pure _ _

theorem runs_close {p : Ptr} (hp : p ≠ 0) (s : σ) :
    Runs e (e.close ⟨p⟩) s ⟨0⟩ (e.boundary.freeBook p s).state [.freeBook p]
      [⟨.book, .released⟩] := by
  simp only [close, hp, if_false]
  exact (runs_freeBook p s).bind (Runs.pure _ _)

theorem runs_finalize_released (s : σ) : Runs e (e.finalize ⟨0⟩) s ⟨0⟩ s [] [] := Runs.pure _ _

theorem runs_finalize {p : Ptr} (hp : p ≠ 0) (s : σ) :
    Runs e (e.finalize ⟨p⟩) s ⟨0⟩ (e.boundary.freeBook p s).state [.freeBook p]
      [⟨.book, .released⟩, ⟨.book, .finalized⟩] := by
  simp only [finalize, hp, if_false]
  exact (runs_freeBook p s).bind
    ((Runs.track .book .finalized _).bind ((Runs.emit _ _).bind (Runs.pure _ _)))

theorem runs_withBook_released (op : Bytes) (out : ρ) (f : Ptr → HostM σ (Except (Failed ρ) α))
    (s : σ) :
    Runs e (withBook op ⟨0⟩ out f) s (.error ⟨.wrap op (.condition .released), out⟩) s [] [] :=
  Runs.pure _ _

theorem withBook_live (op : Bytes) {p : Ptr} (hp : p ≠ 0) (out : ρ)
    (f : Ptr → HostM σ (Except (Failed ρ) α)) : withBook op ⟨p⟩ out f = f p := by
  simp [withBook, hp]

theorem runs_copyRecord_unreadable {p : Ptr} {s : σ}
    (hread : (e.boundary.readRecord p s).value = none) :
    Runs e (e.copyRecord p) s
      (.error ⟨.plain
        ("book_evaluate: evaluation record at " ++ Bytes.ofAddress p ++ " is not readable"), {}⟩)
      (e.boundary.readRecord p s).state [.readRecord p] [] := by
  refine (Runs.call (e.boundary.readRecord p) (fun _ => .readRecord p) s).bind ?_
  rw [hread]
  exact Runs.pure _ _

theorem runs_copyRecord {p : Ptr} {s : σ} {record : Record}
    (hread : (e.boundary.readRecord p s).value = some record) :
    let s₁ := (e.boundary.readRecord p s).state
    let s₂ := e.boundary.afterRead record.result s₁
    Runs e (e.copyRecord p) s
      (.ok ⟨e.boundary.textAt record.result s₁, e.boundary.textAt record.memDump s₂,
        record.iterations, Duration.ofSeconds record.seconds⟩)
      (e.boundary.afterRead record.memDump s₂)
      ([.readRecord p] ++ (unlessNull record.result [.readText record.result] ++
        unlessNull record.memDump [.readText record.memDump])) [] := by
  refine (Runs.call (e.boundary.readRecord p) (fun _ => .readRecord p) s).bind ?_
  rw [hread]
  exact (runs_decodeText record.result _).bind ((runs_decodeText record.memDump _).map _)

theorem runs_evaluate_released (options : EvaluateOptions) (s : σ) :
    Runs e (e.evaluate ⟨0⟩ options) s (.error (.wrap "Book.Evaluate" (.condition .released))) s
      [] [] :=
  (runs_withBook_released _ _ _ s).map _

theorem runs_evaluationOf_refused (p : Ptr) {v : Ptr} (hv : v ≠ 0) (s : σ) :
    Runs e (e.evaluationOf p v) s
      (.error ⟨.interop "book_evaluate" (decodedText (e.boundary.readText v s).value), {}⟩)
      (e.boundary.freeText v (e.boundary.readText v s).state).state [.readText v, .freeText v]
      [⟨.text, .allocated⟩, ⟨.text, .released⟩] :=
  (runs_checkSlot "book_evaluate" hv s).bind (Runs.pure _ _)

theorem runs_evaluationOf_nothing (s : σ) :
    Runs e (e.evaluationOf 0 0) s
      (.error ⟨.interop "book_evaluate" "engine returned no evaluation result", {}⟩) s [] [] :=
  (runs_checkSlot_null "book_evaluate" s).bind (Runs.pure _ _)

theorem runs_evaluationOf_made {p : Ptr} (hp : p ≠ 0) {s s' : σ}
    {a : Except (Failed Evaluation) Evaluation} {calls : List Call} {events : List Event}
    (hcopy : Runs e (e.copyRecord p) s a s' calls events) :
    Runs e (e.evaluationOf p 0) s a s' calls events := by
  refine (runs_checkSlot_null "book_evaluate" s).bind ?_
  simpa only [hp, if_false] using hcopy

/-- Whatever becomes of an evaluation, its record is released last. -/
theorem runs_evaluateReturning {book p v : Ptr} {options : EvaluateOptions} {s s' : σ}
    {a : Except (Failed Evaluation) Evaluation} {calls : List Call} {events : List Event}
    (hb : book ≠ 0)
    (hmade : (e.boundary.evaluate book options.interpreter options.dump 0 s).value = ⟨p, v⟩)
    (houtcome : Runs e (e.evaluationOf p v)
      (e.boundary.evaluate book options.interpreter options.dump 0 s).state a s' calls events) :
    Runs e (e.evaluateReturning ⟨book⟩ options) s a (afterFree e.boundary.freeEvaluation p s')
      ([.evaluate book options.interpreter options.dump p v] ++
        (calls ++ unlessNull p [.freeEvaluation p]))
      (unlessNull p [⟨.evaluation, .allocated⟩] ++
        (events ++ unlessNull p [⟨.evaluation, .released⟩])) := by
  rw [evaluateReturning, withBook_live _ hb]
  have hcall := Runs.call (e := e) (e.boundary.evaluate book options.interpreter options.dump 0)
    (fun m => .evaluate book options.interpreter options.dump m.ptr m.slot) s
  rw [hmade] at hcall
  refine hcall.bind (Runs.trackUnlessNull p .evaluation .allocated ?_)
  exact houtcome.bind (Runs.freeUnlessNull p a (runs_freeEvaluation p s'))

theorem runs_evaluate {book p v : Ptr} {options : EvaluateOptions} {s s' : σ}
    {a : Except (Failed Evaluation) Evaluation} {calls : List Call} {events : List Event}
    (hb : book ≠ 0)
    (hmade : (e.boundary.evaluate book options.interpreter options.dump 0 s).value = ⟨p, v⟩)
    (houtcome : Runs e (e.evaluationOf p v)
      (e.boundary.evaluate book options.interpreter options.dump 0 s).state a s' calls events) :
    Runs e (e.evaluate ⟨book⟩ options) s (a.mapError Failed.fault)
      (afterFree e.boundary.freeEvaluation p s')
      ([.evaluate book options.interpreter options.dump p v] ++
        (calls ++ unlessNull p [.freeEvaluation p]))
      (unlessNull p [⟨.evaluation, .allocated⟩] ++
        (events ++ unlessNull p [⟨.evaluation, .released⟩])) :=
  (runs_evaluateReturning hb hmade houtcome).map _

theorem runs_withVec_refused {book p v : Ptr} {out : ρ}
    {use : Ptr → HostM σ (Except (Failed ρ) α)} {s : σ}
    (hmade : (e.boundary.serialize book 0 s).value = ⟨p, v⟩) (hv : v ≠ 0) :
    let read := e.boundary.readText v (e.boundary.serialize book 0 s).state
    Runs e (e.withVec book out use) s
      (.error ⟨.interop "book_serialize" (decodedText read.value), out⟩)
      (afterFree e.boundary.freeVec p (e.boundary.freeText v read.state).state)
      ([.serialize book p v, .readText v, .freeText v] ++ unlessNull p [.freeVec p])
      (unlessNull p [⟨.vec, .allocated⟩] ++
        ([⟨.text, .allocated⟩, ⟨.text, .released⟩] ++ unlessNull p [⟨.vec, .released⟩])) := by
  have hcall := Runs.call (e := e) (e.boundary.serialize book 0)
    (fun m => .serialize book m.ptr m.slot) s
  rw [hmade] at hcall
  refine hcall.bind (Runs.trackUnlessNull p .vec .allocated ?_)
  exact (runs_checkSlot "book_serialize" hv _).bind (Runs.freeUnlessNull p _ (runs_freeVec p _))

theorem runs_withVec_nothing {book : Ptr} {out : ρ}
    {use : Ptr → HostM σ (Except (Failed ρ) α)} {s : σ}
    (hmade : (e.boundary.serialize book 0 s).value = ⟨0, 0⟩) :
    Runs e (e.withVec book out use) s
      (.error ⟨.interop "book_serialize" "engine returned no buffer", out⟩)
      (e.boundary.serialize book 0 s).state [.serialize book 0 0] [] := by
  have hcall := Runs.call (e := e) (e.boundary.serialize book 0)
    (fun m => .serialize book m.ptr m.slot) s
  rw [hmade] at hcall
  exact hcall.bind ((runs_checkSlot_null "book_serialize" _).bind (Runs.pure _ _))

theorem runs_withVec_made {book p : Ptr} {out : ρ}
    {use : Ptr → HostM σ (Except (Failed ρ) α)} {s s' : σ} {a : Except (Failed ρ) α}
    {calls : List Call} {events : List Event}
    (hmade : (e.boundary.serialize book 0 s).value = ⟨p, 0⟩) (hp : p ≠ 0)
    (huse : Runs e (use p) (e.boundary.serialize book 0 s).state a s' calls events) :
    Runs e (e.withVec book out use) s a (e.boundary.freeVec p s').state
      ([.serialize book p 0] ++ (calls ++ [.freeVec p]))
      ([⟨.vec, .allocated⟩] ++ (events ++ [⟨.vec, .released⟩])) := by
  have hcall := Runs.call (e := e) (e.boundary.serialize book 0)
    (fun m => .serialize book m.ptr m.slot) s
  rw [hmade] at hcall
  refine hcall.bind ?_
  simp only [ne_eq, hp, not_false_eq_true, if_true, if_false]
  exact (Runs.track .vec .allocated _).bind ((runs_checkSlot_null "book_serialize" _).bind
    (huse.bind ((runs_freeVec p s').map _)))

theorem runs_vecLength (p : Ptr) (s : σ) :
    Runs e (e.vecLength p) s (e.boundary.vecLength p s).value (e.boundary.vecLength p s).state
      [.vecLength p (e.boundary.vecLength p s).value] [] :=
  Runs.call (e.boundary.vecLength p) (fun n => .vecLength p n) s

private theorem runs_vecCopy_empty (p : Ptr) (buffer : Bytes) (s : σ) :
    Runs e (e.vecCopy p 0 buffer) s (none, buffer) s [] [] :=
  Runs.pure _ _

def shortCopy (got want : UInt64) : Fault :=
  .plain ("vec_copy: copied " ++ Bytes.ofNat got.toNat ++ " of " ++ Bytes.ofNat want.toNat ++
    " bytes")

private theorem runs_vecCopy (p : Ptr) {want : UInt64} (hwant : want ≠ 0) (buffer : Bytes) (s : σ) :
    let copied := (e.boundary.vecCopy p buffer s).value
    Runs e (e.vecCopy p want buffer) s
      (if copied.1 = want then none else some (shortCopy copied.1 want), copied.2)
      (e.boundary.vecCopy p buffer s).state [.vecCopy p buffer.length copied.1] [] := by
  simp only [vecCopy, hwant, if_false]
  refine (Runs.call (e.boundary.vecCopy p buffer)
    (fun r => .vecCopy p buffer.length r.1) s).bind ?_
  by_cases hgot : (e.boundary.vecCopy p buffer s).value.1 = want
  · simp only [hgot, if_true]
    exact Runs.pure _ _
  · simp only [hgot, if_false]
    exact Runs.pure _ _

theorem runs_vecBytes_empty {p : Ptr} {s : σ} (hn : (e.boundary.vecLength p s).value = 0) :
    Runs e (e.vecBytes p) s (.ok []) (e.boundary.vecLength p s).state [.vecLength p 0] [] := by
  have hlength := runs_vecLength (e := e) p s
  rw [hn] at hlength
  refine hlength.bind ?_
  have hroom : ¬e.room < (0 : UInt64).toNat := Nat.not_lt_zero _
  simp only [hroom, if_false]
  exact (runs_vecCopy_empty p _ _).bind (Runs.pure _ _)

/-- The host does not survive a length for which it has no room, and copies nothing. -/
theorem runs_vecBytes_crash {p : Ptr} {s : σ} {n : UInt64}
    (hn : (e.boundary.vecLength p s).value = n) (hroom : e.room < n.toNat) :
    Runs e (e.vecBytes p) s (.error ⟨.crash "makeslice: len out of range", none⟩)
      (e.boundary.vecLength p s).state [.vecLength p n] [] := by
  have hlength := runs_vecLength (e := e) p s
  rw [hn] at hlength
  refine hlength.bind ?_
  simp only [hroom, if_true]
  exact Runs.pure _ _

theorem runs_vecBytes {p : Ptr} {s : σ} {n : UInt64} (hn : (e.boundary.vecLength p s).value = n)
    (hne : n ≠ 0) (hroom : n.toNat ≤ e.room) :
    let copy := e.boundary.vecCopy p (List.replicate n.toNat 0) (e.boundary.vecLength p s).state
    Runs e (e.vecBytes p) s
      (if copy.value.1 = n then .ok copy.value.2 else .error ⟨shortCopy copy.value.1 n, none⟩)
      copy.state [.vecLength p n, .vecCopy p n.toNat copy.value.1] [] := by
  intro copy
  have hlength := runs_vecLength (e := e) p s
  have hcopy := runs_vecCopy (e := e) p hne (List.replicate n.toNat 0)
    (e.boundary.vecLength p s).state
  rw [hn] at hlength
  rw [List.length_replicate] at hcopy
  refine hlength.bind ?_
  simp only [Nat.not_lt.2 hroom, if_false]
  refine hcopy.bind ?_
  by_cases hgot : copy.value.1 = n
  · simp only [copy, hgot, if_true]
    exact Runs.pure _ _
  · simp only [copy] at hgot
    simp only [copy, hgot, if_false]
    exact Runs.pure _ _

theorem runs_vecFill_short {p : Ptr} {s : σ} {buffer : Bytes} {n : UInt64}
    (hn : (e.boundary.vecLength p s).value = n) (hshort : buffer.length < n.toNat) :
    Runs e (e.vecFill buffer p) s (.ok { buffer := buffer }) (e.boundary.vecLength p s).state
      [.vecLength p n] [] := by
  have hlength := runs_vecLength (e := e) p s
  rw [hn] at hlength
  refine hlength.bind ?_
  simp only [hshort, if_true]
  exact Runs.pure _ _

theorem runs_vecFill_empty {p : Ptr} {s : σ} {buffer : Bytes}
    (hn : (e.boundary.vecLength p s).value = 0) :
    Runs e (e.vecFill buffer p) s (.ok { fits := true, buffer := buffer })
      (e.boundary.vecLength p s).state [.vecLength p 0] [] := by
  have hlength := runs_vecLength (e := e) p s
  rw [hn] at hlength
  exact hlength.bind ((runs_vecCopy_empty p _ _).bind (Runs.pure _ _))

theorem runs_vecFill {p : Ptr} {s : σ} {buffer : Bytes} {n : UInt64}
    (hn : (e.boundary.vecLength p s).value = n) (hne : n ≠ 0) (hfits : n.toNat ≤ buffer.length) :
    let copy := e.boundary.vecCopy p buffer (e.boundary.vecLength p s).state
    Runs e (e.vecFill buffer p) s
      (if copy.value.1 = n then .ok { written := n, fits := true, buffer := copy.value.2 }
        else .error ⟨shortCopy copy.value.1 n, { buffer := copy.value.2 }⟩)
      copy.state [.vecLength p n, .vecCopy p buffer.length copy.value.1] [] := by
  intro copy
  have hlength := runs_vecLength (e := e) p s
  have hcopy := runs_vecCopy (e := e) p hne buffer (e.boundary.vecLength p s).state
  rw [hn] at hlength
  refine hlength.bind ?_
  simp only [Nat.not_lt.mpr hfits, if_false]
  refine hcopy.bind ?_
  by_cases hgot : copy.value.1 = n
  · simp only [copy, hgot, if_true]
    exact Runs.pure _ _
  · simp only [copy] at hgot
    simp only [copy, hgot, if_false]
    exact Runs.pure _ _

theorem runs_serializedLength_released (s : σ) :
    Runs e (e.serializedLength ⟨0⟩) s
      (.error (.wrap "Book.SerializedLen" (.condition .released))) s [] [] :=
  (runs_withBook_released _ _ _ s).map _

theorem runs_serialize_released (s : σ) :
    Runs e (e.serialize ⟨0⟩) s (.error (.wrap "Book.Serialize" (.condition .released))) s [] [] :=
  (runs_withBook_released _ _ _ s).map _

theorem runs_serializeTo_released (buffer : Bytes) (s : σ) :
    Runs e (e.serializeTo ⟨0⟩ buffer) s
      ⟨.error (.wrap "Book.SerializeTo" (.condition .released)), buffer⟩ s [] [] :=
  ((runs_withBook_released _ _ _ s).map _).map _

section Encodings

variable {book : Ptr} {s s' : σ} {calls : List Call} {events : List Event}

theorem runs_serializedLength (hb : book ≠ 0) {a : Except (Failed UInt64) UInt64}
    (h : Runs e (e.withVec book 0 fun vec => do return .ok (← e.vecLength vec)) s a s' calls
      events) :
    Runs e (e.serializedLength ⟨book⟩) s (a.mapError Failed.fault) s' calls events := by
  rw [serializedLength, serializedLengthReturning, withBook_live _ hb]
  exact h.map _

theorem runs_serialize (hb : book ≠ 0) {a : Except (Failed (Option Bytes)) Bytes}
    (h : Runs e (e.withVec book none e.vecBytes) s a s' calls events) :
    Runs e (e.serialize ⟨book⟩) s (a.mapError Failed.fault) s' calls events := by
  rw [serialize, serializeReturning, withBook_live _ hb]
  exact h.map _

/-- What is returned beside the fault of an encoding into a buffer: the buffer, and no bytes
written. -/
def unfilled (f : Failed Filling) : Failed Filling := ⟨f.fault, { buffer := f.value.buffer }⟩

theorem runs_serializeToReturning (hb : book ≠ 0) {buffer : Bytes}
    {a : Except (Failed Filling) Filling}
    (h : Runs e (e.withVec book { buffer := buffer } (e.vecFill buffer)) s a s' calls events) :
    Runs e (e.serializeToReturning ⟨book⟩ buffer) s (a.mapError unfilled) s' calls events := by
  rw [serializeToReturning, withBook_live _ hb]
  exact h.map _

private theorem ofReturned_mapError (a : Except (Failed Filling) Filling) :
    Filled.ofReturned (a.mapError unfilled) = .ofReturned a := by
  cases a <;> rfl

theorem runs_serializeTo (hb : book ≠ 0) {buffer : Bytes} {a : Except (Failed Filling) Filling}
    (h : Runs e (e.withVec book { buffer := buffer } (e.vecFill buffer)) s a s' calls events) :
    Runs e (e.serializeTo ⟨book⟩ buffer) s (.ofReturned a) s' calls events := by
  rw [← ofReturned_mapError]
  exact (runs_serializeToReturning hb h).map _

end Encodings

end Engine

end EngineHost
