import EngineHost.Proofs.Conversation

/-!
# Histories of a session

An operation of a session adds to the trace and changes at most one book. What one operation
preserves, every history of operations preserves.
-/

namespace EngineHost

variable {σ α : Type} {e : Engine σ}

/-- Whether an operation goes through the engine and its books. The others are calls made past
them and uses of native texts that the host holds itself. -/
def Operation.throughEngine : Operation → Bool
  | .parse _ | .parseForeign | .newForeign | .evaluate _ _ | .serialize _ | .serializeTo _ _
  | .serializedLength _ | .close _ | .released _ | .finalize _ => true
  | .newText _ | .textHasValue _ | .textText _ | .textRelease _ | .decode _ | .raw _ => false

def Operation.book? : Operation → Option Nat
  | .evaluate (.parsed i) _ | .serialize (.parsed i) | .serializeTo (.parsed i) _
  | .serializedLength (.parsed i) | .close (.parsed i) | .released (.parsed i)
  | .finalize (.parsed i) => some i
  | _ => none

/-- Whether an operation releases a book that is still live. -/
def Operation.releases (i : Nat) : Operation → Bool
  | .close (.parsed j) | .finalize (.parsed j) => i == j
  | _ => false

theorem Operation.throughEngine_of_book? {op : Operation} {i : Nat} (h : op.book? = some i) :
    op.throughEngine = true := by
  cases op <;> first | rfl | simp [Operation.book?] at h

namespace Session

def start (backend : σ) : Session σ := { world := { backend } }

def callsOf (e : Engine σ) (s : Session σ) (op : Operation) : List Call :=
  (s.step e op).2.world.trace.drop s.world.trace.length

theorem callsOf_eq {s : Session σ} {op : Operation} {calls : List Call}
    (h : (s.step e op).2.world.trace = s.world.trace ++ calls) : s.callsOf e op = calls := by
  rw [callsOf, h, List.drop_left]

/-- The ways in which an operation through the engine can go, with its answer and the session
afterwards. -/
inductive Steps (e : Engine σ) (s : Session σ) : Operation → Answer → Session σ → Prop
  | idle {op : Operation} {a : Answer} (hop : ∀ source, op ≠ .parse source)
      (hbook : ∀ i b, op.releases i = true → s.books[i]? ≠ some b) : Steps e s op a s
  | refused {source : Bytes} {f : Fault} (hparse : (e.parse source s.world).1 = .error f) :
      Steps e s (.parse source) (.failed f) { s with world := (e.parse source s.world).2 }
  | parsed {source : Bytes} {b : Book} (hparse : (e.parse source s.world).1 = .ok b) :
      Steps e s (.parse source) (.book s.books.length)
        { s with world := (e.parse source s.world).2, books := s.books ++ [b] }
  | evaluated {i : Nat} {b : Book} (options : EvaluateOptions) (hb : s.books[i]? = some b) :
      Steps e s (.evaluate (.parsed i) options) (.evaluation (e.evaluate b options s.world).1)
        { s with world := (e.evaluate b options s.world).2 }
  | serialized {i : Nat} {b : Book} (hb : s.books[i]? = some b) :
      Steps e s (.serialize (.parsed i)) (.bytes (e.serialize b s.world).1)
        { s with world := (e.serialize b s.world).2 }
  | filled {i : Nat} {b : Book} (buffer : Bytes) (hb : s.books[i]? = some b) :
      Steps e s (.serializeTo (.parsed i) buffer) (.filled (e.serializeTo b buffer s.world).1)
        { s with world := (e.serializeTo b buffer s.world).2 }
  | measured {i : Nat} {b : Book} (hb : s.books[i]? = some b) :
      Steps e s (.serializedLength (.parsed i)) (.length (e.serializedLength b s.world).1)
        { s with world := (e.serializedLength b s.world).2 }
  | closed {i : Nat} {b : Book} (hb : s.books[i]? = some b) :
      Steps e s (.close (.parsed i)) .closed
        { s with world := (e.close b s.world).2, books := s.books.set i (e.close b s.world).1 }
  | finalized {i : Nat} {b : Book} (hb : s.books[i]? = some b) :
      Steps e s (.finalize (.parsed i)) .finalized
        { s with
          world := (e.finalize b s.world).2, books := s.books.set i (e.finalize b s.world).1 }

theorem step_parse (e : Engine σ) (s : Session σ) (source : Bytes) :
    Steps e s (.parse source) (s.step e (.parse source)).1 (s.step e (.parse source)).2 := by
  rcases hrun : e.parse source s.world with ⟨outcome, w⟩
  have hw : w = (e.parse source s.world).2 := by rw [hrun]
  cases outcome with
  | error f =>
    have hstep : s.step e (.parse source) = (.failed f, { s with world := w }) := by
      simp [step, lift, hrun]
    rw [hstep, hw]
    exact .refused (by rw [hrun])
  | ok b =>
    have hstep : s.step e (.parse source) =
        (.book s.books.length, { s with world := w, books := s.books ++ [b] }) := by
      simp [step, lift, hrun]
    rw [hstep, hw]
    exact .parsed (by rw [hrun])

private theorem step_onBook {s : Session σ} {op : Operation} (ref : BookRef) (foreign : Answer)
    (f : Nat → Book → Session σ → Answer × Session σ) (hparse : ∀ source, op ≠ .parse source)
    (hreleases : ∀ i, op.releases i = true → ref = .parsed i)
    (hf : ∀ i b, ref = .parsed i → s.books[i]? = some b → Steps e s op (f i b s).1 (f i b s).2) :
    Steps e s op (s.onBook ref foreign f).1 (s.onBook ref foreign f).2 := by
  cases ref with
  | foreign => exact .idle hparse fun i b hi => nomatch hreleases i hi
  | parsed i =>
    cases hb : s.books[i]? with
    | none =>
      simp only [onBook, hb]
      refine .idle hparse fun j b hj => ?_
      obtain rfl := BookRef.parsed.inj (hreleases j hj)
      simp [hb]
    | some b =>
      simp only [onBook, hb]
      exact hf i b rfl hb

theorem step_steps (e : Engine σ) (s : Session σ) {op : Operation}
    (hop : op.throughEngine = true) : Steps e s op (s.step e op).1 (s.step e op).2 := by
  cases op with
  | parse source => exact step_parse e s source
  | parseForeign => exact .idle (by simp) (by simp [Operation.releases])
  | newForeign => exact .idle (by simp) (by simp [Operation.releases])
  | evaluate ref options =>
    simp only [step]
    refine step_onBook ref _ _ (by simp) (by simp [Operation.releases]) ?_
    rintro i b rfl hb
    exact .evaluated options hb
  | serialize ref =>
    simp only [step]
    refine step_onBook ref _ _ (by simp) (by simp [Operation.releases]) ?_
    rintro i b rfl hb
    exact .serialized hb
  | serializeTo ref buffer =>
    simp only [step]
    refine step_onBook ref _ _ (by simp) (by simp [Operation.releases]) ?_
    rintro i b rfl hb
    exact .filled buffer hb
  | serializedLength ref =>
    simp only [step]
    refine step_onBook ref _ _ (by simp) (by simp [Operation.releases]) ?_
    rintro i b rfl hb
    exact .measured hb
  | close ref =>
    simp only [step]
    refine step_onBook ref _ _ (by simp) ?_ ?_
    · intro i hi
      cases ref <;> simp_all [Operation.releases]
    · rintro i b rfl hb
      exact .closed hb
  | released ref =>
    simp only [step]
    refine step_onBook ref _ _ (by simp) (by simp [Operation.releases]) ?_
    rintro i b rfl hb
    exact .idle (by simp) (by simp [Operation.releases])
  | finalize ref =>
    simp only [step]
    refine step_onBook ref _ _ (by simp) ?_ ?_
    · intro i hi
      cases ref <;> simp_all [Operation.releases]
    · rintro i b rfl hb
      exact .finalized hb
  | newText _ => simp [Operation.throughEngine] at hop
  | textHasValue _ => simp [Operation.throughEngine] at hop
  | textText _ => simp [Operation.throughEngine] at hop
  | textRelease _ => simp [Operation.throughEngine] at hop
  | decode _ => simp [Operation.throughEngine] at hop
  | raw _ => simp [Operation.throughEngine] at hop

theorem run_append (e : Engine σ) (s : Session σ) (before after : List Operation) :
    s.run e (before ++ after) =
      ((s.run e before).1 ++ ((s.run e before).2.run e after).1,
        ((s.run e before).2.run e after).2) := by
  induction before generalizing s with
  | nil => rfl
  | cons op before ih =>
    simp only [List.cons_append, run, ih]

/-- What every operation of a kind preserves holds after every history of them. -/
theorem run_preserves {Q : Operation → Prop} {P : Session σ → Prop}
    (hstep : ∀ s op, Q op → P s → P (s.step e op).2) {ops : List Operation}
    (hops : ∀ op ∈ ops, Q op) {s : Session σ} (hs : P s) : P (s.run e ops).2 := by
  induction ops generalizing s with
  | nil => exact hs
  | cons op ops ih =>
    have hnext := hstep s op (hops op (List.mem_cons_self ..)) hs
    exact ih (fun o ho => hops o (List.mem_cons_of_mem _ ho)) hnext

end Session

end EngineHost
