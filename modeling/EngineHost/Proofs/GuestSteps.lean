import EngineHost.Proofs.Conversation
import EngineHost.Proofs.GuestBlocks

/-!
# What the host does to a guest

Each step of the host on a running module is described by its value, the guest calls that it makes
and the host's own texts that are left in guest memory. Nothing is assumed of the guest: it may
trap, answer with any number and write its memory in any call.
-/

namespace EngineHost.Guest

variable {γ α β : Type} {m : Machine γ} {i : Instance γ}

def Export.releases : Export → Bool
  | freeBook | freeEvaluation | freeVec | freeText | deallocate => true
  | _ => false

/-- The functions that report an error through a slot. -/
def Export.fallible : Export → Bool
  | bookParse | bookEvaluate | bookSerialize => true
  | _ => false

namespace GuestCall

def fails (c : GuestCall) : Bool :=
  match c.ending with
  | .error _ => !c.function.releases
  | .ok _ => false

def onMemory (c : GuestCall) : Bool := c.function = .allocate ∨ c.function = .deallocate

/-- The error text that a call left in its slot, which is its last argument, when it returned. -/
def errorTexts (c : GuestCall) : List Ptr :=
  match c.function, c.ending, c.args.getLast? with
  | .bookParse, .ok _, some slot | .bookEvaluate, .ok _, some slot
  | .bookSerialize, .ok _, some slot =>
    let text := ((c.memory.readWord? slot.toUInt32).getD 0).toUInt64
    unlessNull text [text]
  | _, _, _ => []

theorem errorTexts_of_infallible {c : GuestCall} (h : c.function.fallible = false) :
    c.errorTexts = [] := by
  obtain ⟨function, args, ending, memory⟩ := c
  cases function <;> simp_all [Export.fallible, errorTexts]

private theorem errorTexts_of_onMemory {c : GuestCall} (h : c.onMemory = true) :
    c.errorTexts = [] := by
  refine errorTexts_of_infallible ?_
  rcases of_decide_eq_true h with h | h <;> rw [h] <;> rfl

theorem leaves_of_not_onMemory {c : GuestCall} (h : c.onMemory = false) : Leaves [c] 0 := by
  obtain ⟨function, args, ending, memory⟩ := c
  refine .of_neither ?_ ?_
  · cases function <;> simp_all [onMemory, returned?]
  · cases function <;> simp_all [onMemory, reserved?]

private theorem errorTexts_of_error {c : GuestCall} {trap : Bytes} (h : c.ending = .error trap) :
    c.errorTexts = [] := by
  obtain ⟨function, args, ending, memory⟩ := c
  subst h
  cases function <;> rfl

end GuestCall

/-- From a module, a step ends with a value after these guest calls, with these texts of the host
in guest memory. -/
def Does (x : InstanceM γ α) (i : Instance γ) (a : α) (calls : List GuestCall)
    (texts : List (Ptr × UInt32)) : Prop :=
  (x i).1 = a ∧ (x i).2.history = i.history ++ calls ∧ (x i).2.hostTexts = texts

namespace Does

theorem pure (a : α) (i : Instance γ) : Does (Pure.pure a) i a [] i.hostTexts :=
  ⟨rfl, (List.append_nil _).symm, rfl⟩

theorem bind {x : InstanceM γ α} {f : α → InstanceM γ β} {a : α} {b : β}
    {calls calls' : List GuestCall} {texts texts' : List (Ptr × UInt32)}
    (hx : Does x i a calls texts) (hf : Does (f a) (x i).2 b calls' texts') :
    Does (x >>= f) i b (calls ++ calls') texts' := by
  obtain ⟨rfl, hcalls, -⟩ := hx
  obtain ⟨hb, hcalls', htexts⟩ := hf
  refine ⟨hb, ?_, htexts⟩
  rw [← List.append_assoc, ← hcalls]
  exact hcalls'

theorem keep {x : InstanceM γ α} {f : α → InstanceM γ β} {a : α} {b : β}
    {calls calls' : List GuestCall} (hx : Does x i a calls i.hostTexts)
    (hf : Does (f a) (x i).2 b calls' (x i).2.hostTexts) :
    Does (x >>= f) i b (calls ++ calls') i.hostTexts := by
  have hboth := hx.bind hf
  rwa [hx.2.2] at hboth

private theorem bind_pure {x : InstanceM γ α} {f : α → InstanceM γ β} {a : α} {b : β}
    {calls : List GuestCall} {texts : List (Ptr × UInt32)} (hx : Does x i a calls texts)
    (hf : f a = Pure.pure b) : Does (x >>= f) i b calls texts := by
  obtain ⟨rfl, hcalls, htexts⟩ := hx
  change (f (x i).1 (x i).2).1 = b ∧ (f (x i).1 (x i).2).2.history = _ ∧
    (f (x i).1 (x i).2).2.hostTexts = _
  rw [hf]
  exact ⟨rfl, hcalls, htexts⟩

private theorem ofGet {f : Instance γ → InstanceM γ β} {b : β} {calls : List GuestCall}
    {texts : List (Ptr × UInt32)} (hf : Does (f i) i b calls texts) :
    Does (get >>= f) i b calls texts :=
  hf

private theorem setTexts {f : Instance γ → List (Ptr × UInt32)} {texts : List (Ptr × UInt32)}
    (h : f i = texts) : Does (modify fun i => { i with hostTexts := f i }) i () [] texts :=
  ⟨rfl, (List.append_nil _).symm, h⟩

theorem complain (message : String) (attrs : List Log.Attr) (i : Instance γ) :
    Does (complain message attrs) i () [] i.hostTexts := by
  simp [Does, Guest.complain, emit]

end Does

theorem foldl_apply (maxLog : UInt32) (effects : List Effect) (i : Instance γ) :
    (effects.foldl (Instance.apply maxLog) i).history = i.history ∧
      (effects.foldl (Instance.apply maxLog) i).hostTexts = i.hostTexts := by
  induction effects generalizing i with
  | nil => exact ⟨rfl, rfl⟩
  | cons effect effects ih =>
    rw [List.foldl_cons, (ih _).1, (ih _).2]
    cases effect <;> exact ⟨rfl, rfl⟩

/-- A call is written down with its end and with the memory that it left. -/
theorem does_invoke (m : Machine γ) (f : Export) (args : List UInt64) (i : Instance γ) :
    ∃ ending, Does (invoke m f args) i (ending.mapError (m.label f ++ ": " ++ ·))
      [⟨f, args, ending, (invoke m f args i).2.memory⟩] i.hostTexts := by
  obtain ⟨hhistory, htexts⟩ := foldl_apply m.maxLog (m.run f args i.guest i.memory).effects
    { i with guest := (m.run f args i.guest i.memory).state }
  exact ⟨_, rfl, by simp [invoke, hhistory], htexts⟩

private theorem does_allocate (m : Machine γ) (size : UInt32) (i : Instance γ) :
    ∃ c : GuestCall, c.function = .allocate ∧
      (∀ b, c.reserved? = some b → b.size = size ∧ b.addr ≠ 0 ∧ c.fails = false) ∧
      Does (allocate m size) i (c.reserved?.map Block.addr) [c] i.hostTexts := by
  obtain ⟨ending, hinvoke⟩ := does_invoke m .allocate [size.toUInt64] i
  cases ending with
  | error trap =>
    refine ⟨_, rfl, by simp [GuestCall.reserved?], hinvoke.keep ?_⟩
    exact (Does.complain _ _ _).keep (.pure _ _)
  | ok addr =>
    by_cases haddr : addr.toUInt32 = 0
    · refine ⟨_, rfl, by simp [GuestCall.reserved?, haddr], hinvoke.keep ?_⟩
      simp only [Except.mapError, haddr, if_true, GuestCall.reserved?]
      exact (Does.complain _ _ _).keep (.pure _ _)
    · refine ⟨_, rfl, ?_, hinvoke.keep ?_⟩
      · simp [GuestCall.reserved?, haddr, GuestCall.fails]
      · simp only [Except.mapError, haddr, if_false, GuestCall.reserved?]
        exact .pure _ _

private theorem does_deallocate (m : Machine γ) (addr size : UInt32) (i : Instance γ) :
    ∃ c : GuestCall, c.returned? = some ⟨addr, size⟩ ∧
      Does (deallocate m addr size) i () [c] i.hostTexts := by
  obtain ⟨ending, hinvoke⟩ := does_invoke m .deallocate [addr.toUInt64, size.toUInt64] i
  refine ⟨_, by simp [GuestCall.returned?], hinvoke.keep ?_⟩
  cases ending with
  | error trap => exact .complain _ _ _
  | ok result => exact .pure _ _

theorem does_release (m : Machine γ) (f : Export) (p : Ptr) (i : Instance γ) :
    ∃ ending memory, Does (release m f p) i ()
      [⟨f, [(guestAddress p).toUInt64], ending, memory⟩] i.hostTexts := by
  obtain ⟨ending, hinvoke⟩ := does_invoke m f [(guestAddress p).toUInt64] i
  refine ⟨ending, _, hinvoke.keep ?_⟩
  cases ending with
  | error trap => exact .complain _ _ _
  | ok result => exact .pure _ _

theorem does_vecLength (m : Machine γ) (vec : Ptr) (i : Instance γ) :
    ∃ ending memory, Does (vecLength m vec) i (ending.toOption.getD 0)
      [⟨.vecLength, [(guestAddress vec).toUInt64], ending, memory⟩] i.hostTexts := by
  obtain ⟨ending, hinvoke⟩ := does_invoke m .vecLength [(guestAddress vec).toUInt64] i
  refine ⟨ending, _, hinvoke.keep ?_⟩
  cases ending with
  -- the failure goes to the log alone, and the answer is zero
  | error trap => exact (Does.complain _ _ _).keep (.pure _ _)
  | ok n => exact .pure _ _

private theorem does_writeMemory (addr : UInt32) (data : Bytes) (i : Instance γ) :
    ∃ fits, Does (writeMemory addr data) i fits [] i.hostTexts := by
  unfold Does writeMemory
  cases i.memory.write? addr data <;> simp

private theorem GuestCall.leaves_of_refused {c : GuestCall} (hfunction : c.function = .allocate)
    (hreserved : c.reserved? = none) : Leaves [c] 0 := by
  refine .of_neither ?_ hreserved
  cases hreturned : c.returned? with
  | none => rfl
  | some b => simp [function_of_returned? hreturned] at hfunction

/-- What writing a text into guest memory comes to. -/
inductive Wrote : List GuestCall → Option (UInt32 × UInt32) → Prop
  | refused {calls : List GuestCall} (hleaves : Leaves calls 0)
      (hcalls : ∀ c ∈ calls, c.onMemory = true) : Wrote calls none
  | written {c : GuestCall} {addr size : UInt32} (hc : c.reserved? = some ⟨addr, size⟩)
      (haddr : addr ≠ 0) (hfails : c.fails = false) : Wrote [c] (some (addr, size))

private theorem does_writeText (m : Machine γ) (s : Bytes) (i : Instance γ) :
    ∃ calls written, Wrote calls written ∧ Does (writeText m s) i written calls i.hostTexts := by
  by_cases hlong : 2 ^ 32 - 1 < s.length + 1
  · refine ⟨[], none, .refused .nil (by simp), ?_⟩
    simp only [writeText, hlong, if_true]
    exact .pure _ _
  simp only [writeText, hlong, if_false]
  obtain ⟨c, hfunction, hreserved, hallocate⟩ := does_allocate m (UInt32.ofNat (s.length + 1)) i
  have hc : c.onMemory = true := by simp [GuestCall.onMemory, hfunction]
  cases hblock : c.reserved? with
  | none =>
    rw [hblock] at hallocate
    refine ⟨[c], none, .refused (GuestCall.leaves_of_refused hfunction hblock) (by simpa using hc),
      hallocate.keep ?_⟩
    exact .pure _ _
  | some b =>
    obtain ⟨addr, size⟩ := b
    obtain ⟨rfl, haddr, hfails⟩ := hreserved _ hblock
    rw [hblock] at hallocate
    obtain ⟨fits, hwrite⟩ := does_writeMemory addr (s ++ [0]) (allocate m _ i).2
    cases fits with
    | true =>
      refine ⟨[c], _, .written hblock haddr hfails, hallocate.keep ?_⟩
      exact hwrite.keep (.pure _ _)
    | false =>
      -- the guest answered with an address where the text does not fit: the block goes back at once
      obtain ⟨d, hd, hdeallocate⟩ := does_deallocate m addr (UInt32.ofNat (s.length + 1)) _
      refine ⟨[c] ++ [] ++ [d], none, .refused (.bracketed hblock .nil hd) ?_, hallocate.keep ?_⟩
      · simp [GuestCall.onMemory, hfunction, GuestCall.function_of_returned? hd]
      · exact hwrite.keep ((Does.complain _ _ _).keep (hdeallocate.keep (.pure _ _)))

/-- The host's own texts as blocks. -/
def hostBlocks (texts : List (Ptr × UInt32)) : Multiset Block :=
  Multiset.ofList (texts.map fun t => ⟨guestAddress t.1, t.2⟩)

/-- An error text is the host's own, in a block that one of these calls reserved, or there is
none. -/
def OwnText (calls : List GuestCall) (v : Ptr) (texts : List (Ptr × UInt32)) : Prop :=
  ∃ addr size : UInt32, v = addr.toUInt64 ∧ texts = unlessNull v [(v, size)] ∧
    (v ≠ 0 → ∃ c ∈ calls, c.reserved? = some ⟨addr, size⟩)

theorem OwnText.mono {calls calls' : List GuestCall} {v : Ptr} {texts : List (Ptr × UInt32)}
    (h : OwnText calls v texts) (hsub : calls ⊆ calls') : OwnText calls' v texts := by
  obtain ⟨addr, size, hv, htexts, hreserved⟩ := h
  refine ⟨addr, size, hv, htexts, fun hne => ?_⟩
  obtain ⟨c, hc, hblock⟩ := hreserved hne
  exact ⟨c, hsub hc, hblock⟩

structure Reported (calls : List GuestCall) (v : Ptr) (texts : List (Ptr × UInt32)) : Prop where
  leaves : Leaves calls (hostBlocks texts)
  onMemory : ∀ c ∈ calls, c.onMemory = true
  own : OwnText calls v texts

private theorem does_hostError (m : Machine γ) (message : Bytes) (hi : i.hostTexts = []) :
    ∃ calls v texts, Reported calls v texts ∧ Does (hostError m message) i v calls texts := by
  have hcomplain := Does.complain "wazero: guest call failed" [⟨"error", .string message⟩] i
  obtain ⟨calls, written, hwrote, hwrite⟩ := does_writeText m message
    (complain "wazero: guest call failed" [⟨"error", .string message⟩] i).2
  rw [hcomplain.2.2, hi] at hwrite
  cases hwrote with
  | refused hleaves hcalls =>
    refine ⟨calls, 0, [], ⟨hleaves, hcalls, 0, 0, rfl, rfl, by simp⟩, hcomplain.bind ?_⟩
    exact hwrite.bind_pure rfl
  | @written c addr size hc haddr hfails =>
    have hne : addr.toUInt64 ≠ 0 := by simpa [← UInt64.toNat_inj, ← UInt32.toNat_inj] using haddr
    refine ⟨[c], addr.toUInt64, [(addr.toUInt64, size)],
      ⟨?_, ?_, addr, size, rfl, by simp [hne], fun _ => ⟨c, by simp, hc⟩⟩, hcomplain.bind ?_⟩
    · simpa [hostBlocks, guestAddress] using Leaves.of_reserved hc
    · simp [GuestCall.onMemory, GuestCall.function_of_reserved? hc]
    · exact hwrite.bind ((Does.setTexts (by simp [hwrite.2.2])).bind_pure rfl)

/-- How a fallible call ends: the guest returned and nothing failed, or nothing was made and the
error text is the host's own. -/
inductive Outcome (calls : List GuestCall) : Made → List (Ptr × UInt32) → Prop
  | answered (p : Ptr) (w : UInt32) (hsmooth : ∀ c ∈ calls, c.fails = false)
      (htexts : calls.flatMap GuestCall.errorTexts = unlessNull w.toUInt64 [w.toUInt64]) :
      Outcome calls ⟨p, w.toUInt64⟩ []
  | failed {v : Ptr} {texts : List (Ptr × UInt32)}
      (htexts : calls.flatMap GuestCall.errorTexts = []) (hown : OwnText calls v texts) :
      Outcome calls ⟨0, v⟩ texts

structure Served (calls : List GuestCall) (made : Made) (texts : List (Ptr × UInt32)) : Prop where
  leaves : Leaves calls (hostBlocks texts)
  quiet : ∀ c ∈ calls, c.function ≠ .freeText ∧ c.function ≠ .vecLength
  outcome : Outcome calls made texts

private theorem GuestCall.quiet_of_onMemory {c : GuestCall} (h : c.onMemory = true) :
    c.function ≠ .freeText ∧ c.function ≠ .vecLength := by
  obtain ⟨function, args, ending, memory⟩ := c
  cases function <;> simp_all [GuestCall.onMemory]

private theorem Served.of_reported {before calls : List GuestCall} {v : Ptr}
    {texts : List (Ptr × UInt32)} (hleaves : Leaves before 0)
    (hquiet : ∀ c ∈ before, c.function ≠ .freeText ∧ c.function ≠ .vecLength)
    (hbefore : before.flatMap GuestCall.errorTexts = []) (h : Reported calls v texts) :
    Served (before ++ calls) ⟨0, v⟩ texts := by
  have hcalls : calls.flatMap GuestCall.errorTexts = [] :=
    List.flatMap_eq_nil_iff.2 fun c hc => GuestCall.errorTexts_of_onMemory (h.onMemory c hc)
  refine ⟨?_, ?_, .failed ?_ (h.own.mono (List.subset_append_right _ _))⟩
  · simpa using hleaves.append h.leaves
  · intro c hc
    rcases List.mem_append.1 hc with hc | hc
    · exact hquiet c hc
    · exact GuestCall.quiet_of_onMemory (h.onMemory c hc)
  · rw [List.flatMap_append, hbefore, hcalls, List.append_nil]

theorem GuestCall.fails_of_returned? {c : GuestCall} {b : Block} (h : c.returned? = some b) :
    c.fails = false := by
  have hfunction := function_of_returned? h
  cases hending : c.ending <;> simp [fails, hending, hfunction, Export.releases]

theorem Served.bracketed {calls : List GuestCall} {made : Made} {texts : List (Ptr × UInt32)}
    {c d : GuestCall} {b : Block} (hc : c.reserved? = some b) (hfails : c.fails = false)
    (h : Served calls made texts) (hd : d.returned? = some b) :
    Served ([c] ++ calls ++ [d]) made texts := by
  have hconMemory : c.onMemory = true := by
    simp [GuestCall.onMemory, GuestCall.function_of_reserved? hc]
  have hdonMemory : d.onMemory = true := by
    simp [GuestCall.onMemory, GuestCall.function_of_returned? hd]
  have hdfails := GuestCall.fails_of_returned? hd
  have htexts : ([c] ++ calls ++ [d]).flatMap GuestCall.errorTexts =
      calls.flatMap GuestCall.errorTexts := by
    simp [GuestCall.errorTexts_of_onMemory hconMemory, GuestCall.errorTexts_of_onMemory hdonMemory]
  refine ⟨.bracketed hc h.leaves hd, ?_, ?_⟩
  · simp only [List.forall_mem_append, List.forall_mem_singleton]
    exact ⟨⟨GuestCall.quiet_of_onMemory hconMemory, h.quiet⟩,
      GuestCall.quiet_of_onMemory hdonMemory⟩
  · cases h.outcome with
    | answered p w hsmooth hleft =>
      refine .answered p w ?_ (htexts.trans hleft)
      simp only [List.forall_mem_append, List.forall_mem_singleton]
      exact ⟨⟨hfails, hsmooth⟩, hdfails⟩
    | failed hleft hown =>
      refine .failed (htexts.trans hleft) (hown.mono fun x hx => ?_)
      simp [hx]

private theorem GuestCall.errorTexts_of_ok {f : Export} (hf : f.fallible = true)
    {args : List UInt64} {slot : UInt32} (hargs : args.getLast? = some slot.toUInt64)
    (result : UInt64) (memory : Memory) :
    let w := (memory.readWord? slot).getD 0
    errorTexts ⟨f, args, .ok result, memory⟩ = unlessNull w.toUInt64 [w.toUInt64] := by
  cases f <;> simp_all [Export.fallible, errorTexts]

private theorem Export.quiet_of_fallible {f : Export} (hf : f.fallible = true) :
    f ≠ .freeText ∧ f ≠ .vecLength := by
  cases f <;> simp_all [Export.fallible]

private theorem GuestCall.leaves_of_fallible {c : GuestCall} (hf : c.function.fallible = true) :
    Leaves [c] 0 := by
  refine leaves_of_not_onMemory ?_
  cases hfunction : c.function <;> simp_all [onMemory, Export.fallible]

private theorem does_answerOf (m : Machine γ) {f : Export} (hf : f.fallible = true)
    {args : List UInt64}
    {slot : UInt32} (hargs : args.getLast? = some slot.toUInt64) (hi : i.hostTexts = []) :
    ∃ calls made texts, Served calls made texts ∧
      Does (invoke m f args >>= answerOf m slot) i made calls texts := by
  obtain ⟨ending, hinvoke⟩ := does_invoke m f args i
  have hi' : (invoke m f args i).2.hostTexts = [] := by rw [hinvoke.2.2, hi]
  have hquiet := Export.quiet_of_fallible hf
  cases ending with
  | error trap =>
    -- after a trap the slot is not read, so whatever the guest left in it is nobody's text
    obtain ⟨calls, v, texts, hreported, hreport⟩ := does_hostError m
      (Capture.explain (m.label f ++ ": " ++ trap) (invoke m f args i).2.stderr) hi'
    refine ⟨_, _, texts, ?_, hinvoke.bind (.ofGet (hreport.bind_pure rfl))⟩
    have hnone : GuestCall.errorTexts ⟨f, args, .error trap, (invoke m f args i).2.memory⟩ = [] :=
      GuestCall.errorTexts_of_error rfl
    exact .of_reported (GuestCall.leaves_of_fallible hf) (by simpa using hquiet)
      (by simpa using hnone) hreported
  | ok result =>
    have hread : Does (answerOf m slot (.ok result)) (invoke m f args i).2
        ⟨result.toUInt32.toUInt64,
          (((invoke m f args i).2.memory.readWord? slot).getD 0).toUInt64⟩ [] [] :=
      ⟨rfl, (List.append_nil _).symm, hi'⟩
    refine ⟨_, _, [], ?_, hinvoke.bind hread⟩
    refine ⟨GuestCall.leaves_of_fallible hf, by simpa using hquiet, .answered _ _ ?_ ?_⟩
    · simp [GuestCall.fails]
    · simpa using GuestCall.errorTexts_of_ok hf hargs result _

private theorem does_inSlot (m : Machine γ) {f : Export} (hf : f.fallible = true)
    {args : List UInt64}
    {slot : UInt32} (hargs : args.getLast? = some slot.toUInt64) (hi : i.hostTexts = []) :
    ∃ calls made texts, Served calls made texts ∧
      Does (inSlot m slot (invoke m f args)) i made calls texts := by
  obtain ⟨fits, hwrite⟩ := does_writeMemory slot (Bytes.toLittleEndian 4 0) i
  rw [hi] at hwrite
  cases fits with
  | false =>
    obtain ⟨calls, v, texts, hreported, hreport⟩ :=
      does_hostError m "could not clear error slot in guest memory" hwrite.2.2
    refine ⟨calls, _, texts, ?_, hwrite.bind (hreport.bind_pure rfl)⟩
    exact .of_reported .nil (by simp) rfl hreported
  | true =>
    have hreset : Does (modify fun i : Instance γ => { i with stderr := i.stderr.reset })
        (writeMemory slot (Bytes.toLittleEndian 4 0) i).2 () [] [] :=
      ⟨rfl, (List.append_nil _).symm, hwrite.2.2⟩
    obtain ⟨calls, made, texts, hserved, hanswer⟩ := does_answerOf m hf hargs hreset.2.2
    exact ⟨calls, made, texts, hserved, hwrite.bind (hreset.bind hanswer)⟩

private theorem does_withSlot (m : Machine γ) {f : Export} (hf : f.fallible = true)
    (args : UInt32 → List UInt64) (hargs : ∀ slot, (args slot).getLast? = some slot.toUInt64)
    (hi : i.hostTexts = []) :
    ∃ calls made texts, Served calls made texts ∧
      Does (withSlot m fun slot => invoke m f (args slot)) i made calls texts := by
  obtain ⟨c, hfunction, hreserved, hallocate⟩ := does_allocate m 4 i
  rw [hi] at hallocate
  cases hblock : c.reserved? with
  | none =>
    rw [hblock] at hallocate
    obtain ⟨calls, v, texts, hreported, hreport⟩ :=
      does_hostError m "could not allocate error slot in guest memory" hallocate.2.2
    refine ⟨_, _, texts, ?_, hallocate.bind (hreport.bind_pure rfl)⟩
    have honMemory : c.onMemory = true := by simp [GuestCall.onMemory, hfunction]
    refine .of_reported (GuestCall.leaves_of_refused hfunction hblock)
      (by simpa using GuestCall.quiet_of_onMemory honMemory) ?_ hreported
    simp [GuestCall.errorTexts_of_onMemory honMemory]
  | some b =>
    obtain ⟨slot, size⟩ := b
    obtain ⟨rfl, -, hfails⟩ := hreserved _ hblock
    rw [hblock] at hallocate
    -- the text of a failure is reserved before the slot is given back, and outlives it
    obtain ⟨calls, made, texts, hserved, hcall⟩ := does_inSlot m hf (hargs slot) hallocate.2.2
    obtain ⟨d, hd, hdeallocate⟩ := does_deallocate m slot 4
      (inSlot m slot (invoke m f (args slot)) (allocate m 4 i).2).2
    rw [hcall.2.2] at hdeallocate
    refine ⟨_, made, texts, .bracketed hblock hfails hserved hd, ?_⟩
    rw [List.append_assoc]
    exact hallocate.bind (hcall.bind (hdeallocate.bind_pure rfl))

theorem does_bookParse (m : Machine γ) (source : Bytes) (hi : i.hostTexts = []) :
    ∃ calls made texts, Served calls made texts ∧
      Does (bookParse m source) i made calls texts := by
  obtain ⟨written, calls, hwrote, hwrite⟩ := does_writeText m source i
  rw [hi] at hwrite
  cases hwrote with
  | refused hleaves honMemory =>
    obtain ⟨calls', v, texts, hreported, hreport⟩ :=
      does_hostError m "could not copy program text into guest memory" hwrite.2.2
    refine ⟨_, _, texts, ?_, hwrite.bind (hreport.bind_pure rfl)⟩
    exact .of_reported hleaves (fun c hc => GuestCall.quiet_of_onMemory (honMemory c hc))
      (List.flatMap_eq_nil_iff.2 fun c hc => GuestCall.errorTexts_of_onMemory (honMemory c hc))
      hreported
  | @written c addr size hc haddr hfails =>
    obtain ⟨calls, made, texts, hserved, hcall⟩ := does_withSlot m (f := .bookParse) rfl
      (fun slot => [addr.toUInt64, slot.toUInt64]) (fun _ => rfl) hwrite.2.2
    obtain ⟨d, hd, hdeallocate⟩ := does_deallocate m addr size _
    rw [hcall.2.2] at hdeallocate
    refine ⟨_, made, texts, .bracketed hc hfails hserved hd, ?_⟩
    rw [List.append_assoc]
    exact hwrite.bind (hcall.bind (hdeallocate.bind_pure rfl))

theorem does_bookEvaluate (m : Machine γ) (book : Ptr) (interpreter : Interpreter) (dump : UInt32)
    (hi : i.hostTexts = []) :
    ∃ calls made texts, Served calls made texts ∧
      Does (bookEvaluate m book interpreter dump) i made calls texts :=
  does_withSlot m rfl _ (fun _ => rfl) hi

theorem does_bookSerialize (m : Machine γ) (book : Ptr) (hi : i.hostTexts = []) :
    ∃ calls made texts, Served calls made texts ∧
      Does (bookSerialize m book) i made calls texts :=
  does_withSlot m rfl _ (fun _ => rfl) hi

theorem does_freeText_guest (m : Machine γ) (p : Ptr) (hi : i.hostTexts = []) :
    ∃ ending memory, Does (freeText m p) i ()
      [⟨.freeText, [(guestAddress p).toUInt64], ending, memory⟩] [] := by
  obtain ⟨ending, memory, hrelease⟩ := does_release m .freeText p i
  rw [hi] at hrelease
  refine ⟨ending, memory, .ofGet ?_⟩
  rw [hi]
  exact hrelease

theorem does_freeText_host (m : Machine γ) {p : Ptr} {size : UInt32}
    (hi : i.hostTexts = [(p, size)]) :
    ∃ c : GuestCall, c.returned? = some ⟨guestAddress p, size⟩ ∧
      Does (freeText m p) i () [c] [] := by
  have hset : Does (modify fun i : Instance γ =>
      { i with hostTexts := i.hostTexts.filter (·.1 != p) }) i () [] [] :=
    .setTexts (by simp [hi])
  obtain ⟨c, hc, hdeallocate⟩ := does_deallocate m (guestAddress p) size
    ((modify fun i => { i with hostTexts := i.hostTexts.filter (·.1 != p) } :
      InstanceM γ PUnit) i).2
  rw [hset.2.2] at hdeallocate
  refine ⟨c, hc, .ofGet ?_⟩
  simp only [hi, List.find?_cons, beq_self_eq_true]
  exact hset.bind hdeallocate

/-- What copying a vector comes to: no block is left, and a failure copies nothing. -/
structure Copied (calls : List GuestCall) (n : UInt64) : Prop where
  leaves : Leaves calls 0
  quiet : ∀ c ∈ calls, c.function ≠ .freeText ∧ c.errorTexts = []
  failed : (∃ c ∈ calls, c.fails = true) → n = 0

private theorem does_copyThrough (m : Machine γ) (vec : Ptr) (scratch size : UInt32)
    (buffer : Bytes) (i : Instance γ) :
    ∃ (c : GuestCall) (n : UInt64) (after : Bytes), c.function = .vecCopy ∧
      (c.fails = true → n = 0) ∧
      Does (copyThrough m vec scratch size buffer) i (n, after) [c] i.hostTexts := by
  obtain ⟨ending, hinvoke⟩ := does_invoke m .vecCopy
    [(guestAddress vec).toUInt64, scratch.toUInt64, size.toUInt64] i
  cases ending with
  | error trap =>
    exact ⟨_, 0, buffer, rfl, fun _ => rfl, hinvoke.keep ((Does.complain _ _ _).bind_pure rfl)⟩
  | ok result =>
    cases hread : (invoke m .vecCopy [(guestAddress vec).toUInt64, scratch.toUInt64,
        size.toUInt64] i).2.memory.read? scratch size.toNat with
    | none =>
      refine ⟨_, 0, buffer, rfl, fun _ => rfl, hinvoke.keep (.ofGet ?_)⟩
      rw [hread]
      exact (Does.complain _ _ _).bind_pure rfl
    | some data =>
      refine ⟨_, UInt64.ofNat data.length, data ++ buffer.drop data.length, rfl,
        by simp [GuestCall.fails], hinvoke.keep (.ofGet ?_)⟩
      rw [hread]
      exact .pure _ _

private theorem does_copySized (m : Machine γ) (vec : Ptr) (size : UInt32) (buffer : Bytes)
    (i : Instance γ) :
    ∃ calls n after, Copied calls n ∧
      Does (copySized m vec size buffer) i (n, after) calls i.hostTexts := by
  obtain ⟨c, hfunction, hreserved, hallocate⟩ := does_allocate m size i
  have honMemory : c.onMemory = true := by simp [GuestCall.onMemory, hfunction]
  have hquiet : c.function ≠ .freeText ∧ c.errorTexts = [] :=
    ⟨(GuestCall.quiet_of_onMemory honMemory).1, GuestCall.errorTexts_of_onMemory honMemory⟩
  cases hblock : c.reserved? with
  | none =>
    rw [hblock] at hallocate
    refine ⟨[c], 0, buffer, ⟨?_, by simpa using hquiet, fun _ => rfl⟩, hallocate.bind_pure rfl⟩
    exact GuestCall.leaves_of_refused hfunction hblock
  | some b =>
    obtain ⟨scratch, size⟩ := b
    obtain ⟨rfl, -, hfails⟩ := hreserved _ hblock
    rw [hblock] at hallocate
    obtain ⟨x, n, after, hx, hfailed, hcopy⟩ :=
      does_copyThrough m vec scratch size buffer (allocate m size i).2
    obtain ⟨d, hd, hdeallocate⟩ := does_deallocate m scratch size
      (copyThrough m vec scratch size buffer (allocate m size i).2).2
    have hdfunction := GuestCall.function_of_returned? hd
    have hleaves : Leaves [x] 0 :=
      GuestCall.leaves_of_not_onMemory (by simp [GuestCall.onMemory, hx])
    refine ⟨[c] ++ [x] ++ [d], n, after, ⟨.bracketed hblock hleaves hd, ?_, ?_⟩,
      hallocate.keep (hcopy.keep (hdeallocate.bind_pure rfl))⟩
    · simp only [List.forall_mem_append, List.forall_mem_singleton]
      refine ⟨⟨hquiet, ?_⟩, ?_⟩
      · exact ⟨by simp [hx], GuestCall.errorTexts_of_infallible (by rw [hx]; rfl)⟩
      · exact ⟨by simp [hdfunction], GuestCall.errorTexts_of_infallible (by rw [hdfunction]; rfl)⟩
    · rintro ⟨y, hy, hyfails⟩
      simp only [List.mem_append, List.mem_singleton] at hy
      rcases hy with (rfl | rfl) | rfl
      · simp [hfails] at hyfails
      · exact hfailed hyfails
      · simp [GuestCall.fails_of_returned? hd] at hyfails

theorem does_vecCopy (m : Machine γ) (vec : Ptr) (buffer : Bytes) (i : Instance γ) :
    ∃ calls n after, Copied calls n ∧
      Does (vecCopy m vec buffer) i (n, after) calls i.hostTexts := by
  obtain ⟨ending, memory, hlength⟩ := does_vecLength m vec i
  have hleaves : Leaves [⟨.vecLength, [(guestAddress vec).toUInt64], ending, memory⟩] 0 :=
    .of_neither rfl rfl
  by_cases hstop : ending.toOption.getD 0 = 0 ∨ buffer.length < (ending.toOption.getD 0).toNat ∨
      2 ^ 32 - 1 < (ending.toOption.getD 0).toNat
  · refine ⟨_, 0, buffer, ⟨hleaves, by simp [GuestCall.errorTexts], fun _ => rfl⟩,
      hlength.bind_pure ?_⟩
    simp only [hstop, if_true]
  · obtain ⟨calls, n, after, hcopied, hcopy⟩ :=
      does_copySized m vec (ending.toOption.getD 0).toUInt32 buffer (vecLength m vec i).2
    refine ⟨[⟨.vecLength, _, ending, memory⟩] ++ calls, n, after, ⟨?_, ?_, ?_⟩, hlength.keep ?_⟩
    · simpa using hleaves.append hcopied.leaves
    · simpa [GuestCall.errorTexts] using hcopied.quiet
    · rintro ⟨c, hc, hfails⟩
      rcases List.mem_cons.1 hc with rfl | hc
      · cases ending with
        -- a length that could not be asked for is zero, and then nothing is copied
        | error trap => simp [Except.toOption] at hstop
        | ok n => simp [GuestCall.fails] at hfails
      · exact hcopied.failed ⟨c, hc, hfails⟩
    · simp only [hstop, if_false]
      exact hcopy

theorem does_read (read : Memory → UInt32 → Option β) (p : Ptr) (i : Instance γ) :
    ∃ found, Does (do
      if !fitsGuest p then return none
      return read (← get).memory (guestAddress p)) i found [] i.hostTexts := by
  cases hp : fitsGuest p with
  | false =>
    refine ⟨none, ?_⟩
    simp only [Bool.not_false, if_true]
    exact .pure _ _
  | true =>
    refine ⟨read i.memory (guestAddress p), ?_⟩
    simp only [Bool.not_true, Bool.false_eq_true, if_false]
    exact .ofGet (.pure _ _)

end EngineHost.Guest
