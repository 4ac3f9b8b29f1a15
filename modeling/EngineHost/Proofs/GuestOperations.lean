import EngineHost.Proofs.GuestSteps
import EngineHost.Proofs.Release

/-!
# Operations over a guest

An operation of the host over a guest is settled when it returns: the memory that it reserved has
been given back, the guest's error text has been released by the guest and the host's own by the
host. A failure in the guest makes the operation fail, unless it is the first question for the
length of a vector that fails.
-/

namespace EngineHost

def Call.errorTexts : Call → List Ptr
  | parse _ v | evaluate _ _ _ _ v | serialize _ _ v => unlessNull v [v]
  | _ => []

namespace Guest

variable {γ ρ α : Type} {m : Machine γ} {observed : Bool} {i i' : Instance γ}

/-- The arguments of the calls that release an error text of the guest. -/
def freedTexts (h : List GuestCall) : List (List UInt64) :=
  (h.filter fun c => c.function = .freeText).map GuestCall.args

private theorem freedTexts_append (h h' : List GuestCall) :
    freedTexts (h ++ h') = freedTexts h ++ freedTexts h' := by
  simp [freedTexts]

/-- The accounts of an operation that made these guest calls and was told of these error texts. -/
structure Balanced (h : List GuestCall) (reported : List Ptr) : Prop where
  /-- Every block that was reserved has been given back, and no other. -/
  leaves : Leaves h 0
  /-- The guest releases the texts that its calls left, each once, and no other. -/
  texts : freedTexts h = (h.flatMap GuestCall.errorTexts).map fun v => [v]
  /-- What was reported is what the guest left, or the host's own in a block that was reserved and
  given back. -/
  own : reported = h.flatMap GuestCall.errorTexts ∨
    h.flatMap GuestCall.errorTexts = [] ∧ ∀ v ∈ reported, ∃ size : UInt32,
      (∃ c ∈ h, c.reserved? = some ⟨guestAddress v, size⟩) ∧
        ∃ c ∈ h, c.returned? = some ⟨guestAddress v, size⟩

/-- Calls that touch neither error texts nor, in the end, memory. -/
structure Quiet (h : List GuestCall) : Prop where
  leaves : Leaves h 0
  silent : ∀ c ∈ h, c.function ≠ .freeText ∧ c.errorTexts = []

theorem Quiet.nil : Quiet [] := ⟨.nil, by simp⟩

private theorem Quiet.freedTexts {h : List GuestCall} (hquiet : Quiet h) : freedTexts h = [] := by
  simpa [Guest.freedTexts] using fun c hc => (hquiet.silent c hc).1

theorem Quiet.errorTexts {h : List GuestCall} (hquiet : Quiet h) :
    h.flatMap GuestCall.errorTexts = [] :=
  List.flatMap_eq_nil_iff.2 fun c hc => (hquiet.silent c hc).2

theorem Quiet.append {h h' : List GuestCall} (hh : Quiet h) (hh' : Quiet h') :
    Quiet (h ++ h') where
  leaves := by simpa using hh.leaves.append hh'.leaves
  silent := List.forall_mem_append.2 ⟨hh.silent, hh'.silent⟩

theorem Balanced.append {h h' : List GuestCall} {reported : List Ptr} (hh : Balanced h reported)
    (hquiet : Quiet h') : Balanced (h ++ h') reported := by
  have htexts : (h ++ h').flatMap GuestCall.errorTexts = h.flatMap GuestCall.errorTexts := by
    rw [List.flatMap_append, hquiet.errorTexts, List.append_nil]
  refine ⟨by simpa using hh.leaves.append hquiet.leaves, ?_, ?_⟩
  · rw [htexts, freedTexts_append, hquiet.freedTexts, List.append_nil, hh.texts]
  · rw [htexts]
    refine hh.own.imp_right fun ⟨hnone, hown⟩ => ⟨hnone, fun v hv => ?_⟩
    obtain ⟨size, ⟨c, hc, hreserved⟩, d, hd, hreturned⟩ := hown v hv
    exact ⟨size, ⟨c, List.mem_append_left _ hc, hreserved⟩, d, List.mem_append_left _ hd, hreturned⟩

theorem Balanced.of_quiet {h : List GuestCall} (hquiet : Quiet h) : Balanced h [] where
  leaves := hquiet.leaves
  texts := by rw [hquiet.freedTexts, hquiet.errorTexts, List.map_nil]
  own := .inl hquiet.errorTexts.symm

/-- A module after these guest calls, with these texts of the host in its memory. -/
structure Grew (i : Instance γ) (h : List GuestCall) (texts : List (Ptr × UInt32))
    (i' : Instance γ) : Prop where
  history : i'.history = i.history ++ h
  hostTexts : i'.hostTexts = texts

theorem Grew.trans {i'' : Instance γ} {h h' : List GuestCall} {texts texts' : List (Ptr × UInt32)}
    (hi : Grew i h texts i') (hi' : Grew i' h' texts' i'') : Grew i (h ++ h') texts' i'' where
  history := by rw [hi'.history, hi.history, List.append_assoc]
  hostTexts := hi'.hostTexts

theorem Does.reply {x : InstanceM γ α} {a : α} {h : List GuestCall} {texts : List (Ptr × UInt32)}
    (hx : Does x i a h texts) :
    (reply x i).value = a ∧ Grew i h texts (reply x i).state :=
  ⟨hx.1, hx.2.1, hx.2.2⟩

private theorem grew_readText (m : Machine γ) (p : Ptr) (i : Instance γ) :
    Grew i [] i.hostTexts ((boundary m).readText p i).state := by
  obtain ⟨text, hread⟩ := does_read Memory.readText? p i
  exact hread.reply.2

private theorem grew_readRecord (m : Machine γ) (p : Ptr) (i : Instance γ) :
    Grew i [] i.hostTexts ((boundary m).readRecord p i).state := by
  obtain ⟨record, hread⟩ := does_read Memory.readRecord? p i
  exact hread.reply.2

private theorem grew_afterRead (m : Machine γ) (p : Ptr) (i : Instance γ) :
    Grew i [] i.hostTexts ((boundary m).afterRead p i) := by
  unfold Boundary.afterRead
  split
  · exact ⟨(List.append_nil _).symm, rfl⟩
  · exact grew_readText m p i

theorem quiet_release {f : Export} (hf : f.releases = true) (htext : f ≠ .freeText)
    (hmemory : f ≠ .deallocate) (args : List UInt64) (ending : Except Bytes UInt64)
    (memory : Memory) : Quiet [⟨f, args, ending, memory⟩] := by
  refine ⟨GuestCall.leaves_of_not_onMemory ?_, ?_⟩
  · cases f <;> simp_all [GuestCall.onMemory, Export.releases]
  · simp only [List.forall_mem_singleton]
    refine ⟨htext, GuestCall.errorTexts_of_infallible ?_⟩
    cases f <;> simp_all [Export.releases, Export.fallible]

private theorem grew_afterFree (m : Machine γ) {f : Export} (hf : f.releases = true)
    (htext : f ≠ .freeText) (hmemory : f ≠ .deallocate) (p : Ptr) (hi : i.hostTexts = []) :
    ∃ h, Quiet h ∧ (∀ c ∈ h, c.fails = false ∧ c.function ≠ .vecLength) ∧
      Grew i h [] (afterFree (fun p => reply (release m f p)) p i) := by
  unfold afterFree
  split
  · exact ⟨[], .nil, by simp, (List.append_nil _).symm, hi⟩
  · obtain ⟨ending, memory, hrelease⟩ := does_release m f p i
    rw [hi] at hrelease
    refine ⟨_, quiet_release hf htext hmemory _ ending memory, ?_, hrelease.reply.2⟩
    simp only [List.forall_mem_singleton]
    refine ⟨?_, ?_⟩
    · cases ending <;> simp [GuestCall.fails, hf]
    · cases f <;> simp_all [Export.releases]

namespace Served

variable {calls : List GuestCall} {made : Made} {texts : List (Ptr × UInt32)}

private theorem freedTexts (h : Served calls made texts) : freedTexts calls = [] := by
  simpa [Guest.freedTexts] using fun c hc => (h.quiet c hc).1

private theorem ptr_eq_zero (h : Served calls made texts) (hfails : ∃ c ∈ calls, c.fails = true) :
    made.ptr = 0 := by
  obtain ⟨c, hc, hfails⟩ := hfails
  cases h.outcome with
  | answered p w hsmooth hleft => simp [hsmooth c hc] at hfails
  | failed hleft hown => rfl

theorem settled (h : Served calls made texts) (hslot : made.slot = 0) :
    texts = [] ∧ Balanced calls [] := by
  have hleaves := h.leaves
  have hfreed := h.freedTexts
  cases h.outcome with
  | answered p w hsmooth hleft =>
    rw [show w.toUInt64 = 0 from hslot, unlessNull_zero] at hleft
    exact ⟨rfl, hleaves, by rw [hfreed, hleft, List.map_nil], .inl hleft.symm⟩
  | @failed v texts hleft hown =>
    obtain ⟨addr, size, -, rfl, -⟩ := hown
    obtain rfl : v = 0 := hslot
    exact ⟨rfl, hleaves, by rw [hfreed, hleft, List.map_nil], .inl hleft.symm⟩

/-- The error text that a fallible call reports is released by whoever made it. -/
theorem text_settled (m : Machine γ) (h : Served calls made texts) (hslot : made.slot ≠ 0)
    (hi : i.hostTexts = texts) :
    ∃ c : GuestCall, c.fails = false ∧ c.function ≠ .vecLength ∧
      Balanced (calls ++ [c]) [made.slot] ∧
      Grew i [c] [] ((boundary m).freeText made.slot
        ((boundary m).readText made.slot i).state).state := by
  have hread := grew_readText m made.slot i
  have hleaves := h.leaves
  have hfreed := h.freedTexts
  cases h.outcome with
  | answered p w hsmooth hleft =>
    obtain ⟨ending, memory, hfree⟩ :=
      does_freeText_guest m w.toUInt64 (hread.hostTexts.trans hi)
    have hargs : (guestAddress w.toUInt64).toUInt64 = w.toUInt64 := by simp [guestAddress]
    rw [hargs] at hfree
    refine ⟨_, by cases ending <;> rfl, by simp, ?_, hread.trans hfree.reply.2⟩
    have hnone : GuestCall.errorTexts ⟨.freeText, [w.toUInt64], ending, memory⟩ = [] := rfl
    have htexts : (calls ++ [(⟨.freeText, [w.toUInt64], ending, memory⟩ : GuestCall)]).flatMap
        GuestCall.errorTexts = [w.toUInt64] := by
      simp [hleft, unlessNull_of_ne hslot, hnone]
    refine ⟨?_, ?_, .inl htexts.symm⟩
    · exact hleaves.append (.of_neither rfl rfl)
    · rw [freedTexts_append, hfreed, htexts]
      simp [Guest.freedTexts]
  | failed hleft hown =>
    -- the text is still in the block that the host reserved for it
    obtain ⟨addr, size, rfl, rfl, hreserved⟩ := hown
    rw [unlessNull_of_ne hslot] at hi hleaves
    obtain ⟨c, hc, hfree⟩ := does_freeText_host m (hread.hostTexts.trans hi)
    have hfunction := GuestCall.function_of_returned? hc
    refine ⟨c, GuestCall.fails_of_returned? hc, by simp [hfunction], ?_,
      hread.trans hfree.reply.2⟩
    have haddr : guestAddress addr.toUInt64 = addr := by simp [guestAddress]
    have htexts : (calls ++ [c]).flatMap GuestCall.errorTexts = [] := by
      have hnone := GuestCall.errorTexts_of_infallible (c := c) (by rw [hfunction]; rfl)
      simp [hleft, hnone]
    refine ⟨.give_back hleaves hc, ?_, .inr ⟨htexts, ?_⟩⟩
    · rw [freedTexts_append, hfreed, htexts]
      simp [Guest.freedTexts, hfunction]
    · simp only [List.forall_mem_singleton]
      obtain ⟨d, hd, hblock⟩ := hreserved hslot
      exact ⟨size, ⟨d, List.mem_append_left _ hd, by rw [haddr, hblock]⟩, c, by simp, hc⟩

end Served

/-- Whether the first question for the length of a vector fails. -/
def lengthFails (h : List GuestCall) : Bool :=
  ((h.find? fun c => c.function = .vecLength).map GuestCall.fails).getD false

private theorem lengthFails_eq_false {h : List GuestCall} (hh : ∀ c ∈ h, c.function ≠ .vecLength) :
    lengthFails h = false := by
  have hnone : h.find? (fun c => c.function = .vecLength) = none := by simpa using hh
  rw [lengthFails, hnone]
  rfl

private theorem lengthFails_append {h : List GuestCall} (hh : ∀ c ∈ h, c.function ≠ .vecLength)
    (h' : List GuestCall) : lengthFails (h ++ h') = lengthFails h' := by
  have hnone : h.find? (fun c => c.function = .vecLength) = none := by simpa using hh
  simp [lengthFails, List.find?_append, hnone]

private theorem lengthFails_append_right (h : List GuestCall) {h' : List GuestCall}
    (hh : ∀ c ∈ h', c.function ≠ .vecLength) : lengthFails (h ++ h') = lengthFails h := by
  have hnone : h'.find? (fun c => c.function = .vecLength) = none := by simpa using hh
  simp [lengthFails, List.find?_append, hnone]

private theorem lengthFails_cons {c : GuestCall} (hc : c.function = .vecLength)
    (h : List GuestCall) :
    lengthFails (c :: h) = c.fails := by
  simp [lengthFails, hc]

private theorem Served.lengthFails_eq_false {h : List GuestCall} {made : Made}
    {texts : List (Ptr × UInt32)} (hserved : Served h made texts) : lengthFails h = false :=
  Guest.lengthFails_eq_false fun c hc => (hserved.quiet c hc).2

theorem Served.refused (m : Machine γ) {i₁ : Instance γ} {h : List GuestCall} {p v : Ptr}
    {texts : List (Ptr × UInt32)} (hserved : Served h ⟨p, v⟩ texts) (hv : v ≠ 0)
    (hgrew : Grew i h texts i₁) {f : Export} (hf : f.releases = true) (htext : f ≠ .freeText)
    (hmemory : f ≠ .deallocate) :
    ∃ h', Grew i h' [] (afterFree (fun p => reply (release m f p)) p
      ((boundary m).freeText v ((boundary m).readText v i₁).state).state) ∧
      Balanced h' [v] ∧ lengthFails h' = false := by
  obtain ⟨c, -, hc, hbalanced, hfreed⟩ := hserved.text_settled m hv hgrew.hostTexts
  obtain ⟨h', hquiet, hreleases, hfree⟩ := grew_afterFree m hf htext hmemory p hfreed.hostTexts
  refine ⟨h ++ [c] ++ h', (hgrew.trans hfreed).trans hfree, hbalanced.append hquiet, ?_⟩
  refine Guest.lengthFails_eq_false ?_
  simp only [List.forall_mem_append, List.forall_mem_singleton]
  exact ⟨⟨fun c hc => (hserved.quiet c hc).2, hc⟩, fun x hx => (hreleases x hx).2⟩

/-- An operation that made these calls and guest calls is settled, and it fails when something in
the guest failed, unless that was the first question for a length. -/
structure Settles (i : Instance γ) (i' : Instance γ) (calls : List Call) (h : List GuestCall)
    (failed : Prop) : Prop where
  grew : Grew i h [] i'
  balanced : Balanced h (calls.flatMap Call.errorTexts)
  tells : (∃ c ∈ h, c.fails = true) → (failed ↔ lengthFails h = false)

private theorem Settles.of_failed {calls : List Call} {h : List GuestCall} {reported : List Ptr}
    {failed : Prop} (hgrew : Grew i h [] i') (hbalanced : Balanced h reported)
    (hcalls : calls.flatMap Call.errorTexts = reported) (hfailed : failed)
    (hlength : lengthFails h = false) : Settles i i' calls h failed where
  grew := hgrew
  balanced := hcalls ▸ hbalanced
  tells _ := iff_of_true hfailed hlength

abbrev host (m : Machine γ) (observed : Bool) : Engine (Instance γ) :=
  { boundary := boundary m, observed := observed }

theorem parse_settles (m : Machine γ) (observed : Bool) (source : Bytes) (hi : i.hostTexts = []) :
    ∃ a i' calls events h,
      Runs (host m observed) ((host m observed).parse source) i a i' calls events ∧
        Settles i i' calls h (∃ f, a = .error f) := by
  obtain ⟨h, ⟨p, v⟩, texts, hserved, hdoes⟩ := does_bookParse m source hi
  obtain ⟨hmade, hgrew⟩ := hdoes.reply
  by_cases hv : v = 0
  · subst hv
    obtain ⟨rfl, hbalanced⟩ := hserved.settled rfl
    by_cases hp : p = 0
    · subst hp
      refine ⟨_, _, _, _, h, Engine.runs_parse_nothing hmade, ?_⟩
      exact .of_failed hgrew hbalanced rfl ⟨_, rfl⟩ hserved.lengthFails_eq_false
    · refine ⟨_, _, _, _, h, Engine.runs_parse_made hmade hp, hgrew, hbalanced, fun hfails => ?_⟩
      exact absurd (hserved.ptr_eq_zero hfails) hp
  · obtain ⟨h', hgrew', hbalanced, hlength⟩ :=
      hserved.refused m hv hgrew (f := .freeBook) rfl (by simp) (by simp)
    refine ⟨_, _, _, _, h', Engine.runs_parse_refused hmade hv, ?_⟩
    refine .of_failed hgrew' hbalanced ?_ ⟨_, rfl⟩ hlength
    by_cases hp : p = 0 <;> simp [Call.errorTexts, hp, hv]

private theorem copyRecord_grew (m : Machine γ) (observed : Bool) (p : Ptr) (i : Instance γ) :
    ∃ a i' calls events,
      Runs (host m observed) ((host m observed).copyRecord p) i a i' calls events ∧
        Grew i [] i.hostTexts i' ∧ calls.flatMap Call.errorTexts = [] := by
  have hrecord := grew_readRecord m p i
  cases hread : ((boundary m).readRecord p i).value with
  | none => exact ⟨_, _, _, _, Engine.runs_copyRecord_unreadable hread, hrecord, rfl⟩
  | some record =>
    refine ⟨_, _, _, _, Engine.runs_copyRecord hread, ?_, ?_⟩
    · have hresult := grew_afterRead m record.result ((boundary m).readRecord p i).state
      have hdump := grew_afterRead m record.memDump
        ((boundary m).afterRead record.result ((boundary m).readRecord p i).state)
      rw [hresult.hostTexts, hrecord.hostTexts] at hdump
      exact (hrecord.trans hresult).trans hdump
    · by_cases hresult : record.result = 0 <;> by_cases hdump : record.memDump = 0 <;>
        simp [Call.errorTexts, hresult, hdump]

theorem evaluate_settles (m : Machine γ) (observed : Bool) {book : Ptr} (hb : book ≠ 0)
    (options : EvaluateOptions) (hi : i.hostTexts = []) :
    ∃ a i' calls events h,
      Runs (host m observed) ((host m observed).evaluate ⟨book⟩ options) i a i' calls events ∧
        Settles i i' calls h (∃ f, a = .error f) := by
  obtain ⟨h, ⟨p, v⟩, texts, hserved, hdoes⟩ :=
    does_bookEvaluate m book options.interpreter options.dump hi
  obtain ⟨hmade, hgrew⟩ := hdoes.reply
  by_cases hv : v = 0
  · subst hv
    obtain ⟨rfl, hbalanced⟩ := hserved.settled rfl
    by_cases hp : p = 0
    · subst hp
      refine ⟨_, _, _, _, h, Engine.runs_evaluate hb hmade (Engine.runs_evaluationOf_nothing _), ?_⟩
      exact .of_failed hgrew hbalanced rfl ⟨_, rfl⟩ hserved.lengthFails_eq_false
    · obtain ⟨a, i₂, calls, events, hcopy, hread, hlooks⟩ :=
        copyRecord_grew m observed p (reply (bookEvaluate m book options.interpreter
          options.dump) i).state
      rw [hgrew.hostTexts] at hread
      obtain ⟨h', hquiet, hreleases, hfree⟩ := grew_afterFree m (f := .freeEvaluation) rfl
        (by simp) (by simp) p hread.hostTexts
      refine ⟨_, _, _, _, h ++ [] ++ h', Engine.runs_evaluate hb hmade
        (Engine.runs_evaluationOf_made hp hcopy), (hgrew.trans hread).trans hfree, ?_, ?_⟩
      · have hreported : ([Call.evaluate book options.interpreter options.dump p 0] ++
            (calls ++ unlessNull p [Call.freeEvaluation p])).flatMap Call.errorTexts = [] := by
          simp [Call.errorTexts, hp, hlooks]
        rw [hreported]
        exact (hbalanced.append .nil).append hquiet
      · rintro ⟨c, hc, hfails⟩
        simp only [List.append_nil, List.mem_append] at hc
        rcases hc with hc | hc
        · exact absurd (hserved.ptr_eq_zero ⟨c, hc, hfails⟩) hp
        · simp [(hreleases c hc).1] at hfails
  · obtain ⟨h', hgrew', hbalanced, hlength⟩ :=
      hserved.refused m hv hgrew (f := .freeEvaluation) rfl (by simp) (by simp)
    refine ⟨_, _, _, _, h', Engine.runs_evaluate hb hmade
      (Engine.runs_evaluationOf_refused p hv _), ?_⟩
    refine .of_failed hgrew' hbalanced ?_ ⟨_, rfl⟩ hlength
    by_cases hp : p = 0 <;> simp [Call.errorTexts, hp, hv]

/-- A use of a vector that is quiet and fails when the guest fails, unless the first question for
the length fails. -/
def Uses (m : Machine γ) (observed : Bool)
    (use : Ptr → HostM (Instance γ) (Except (Failed ρ) α)) : Prop :=
  ∀ p i, i.hostTexts = [] → ∃ a i' calls events h,
    Runs (host m observed) (use p) i a i' calls events ∧ Grew i h [] i' ∧ Quiet h ∧
      calls.flatMap Call.errorTexts = [] ∧
      ((∃ c ∈ h, c.fails = true) → ((∃ f, a = .error f) ↔ lengthFails h = false))

theorem withVec_settles (m : Machine γ) (observed : Bool)
    {use : Ptr → HostM (Instance γ) (Except (Failed ρ) α)} (huse : Uses m observed use) (out : ρ)
    (book : Ptr) (hi : i.hostTexts = []) :
    ∃ a i' calls events h,
      Runs (host m observed) ((host m observed).withVec book out use) i a i' calls events ∧
        Settles i i' calls h (∃ f, a = .error f) := by
  obtain ⟨h, ⟨p, v⟩, texts, hserved, hdoes⟩ := does_bookSerialize m book hi
  obtain ⟨hmade, hgrew⟩ := hdoes.reply
  by_cases hv : v = 0
  · subst hv
    obtain ⟨rfl, hbalanced⟩ := hserved.settled rfl
    by_cases hp : p = 0
    · subst hp
      refine ⟨_, _, _, _, h, Engine.runs_withVec_nothing hmade, ?_⟩
      exact .of_failed hgrew hbalanced rfl ⟨_, rfl⟩ hserved.lengthFails_eq_false
    · obtain ⟨a, i₂, calls, events, h₁, hruns, hused, hquiet, hlooks, htells⟩ :=
        huse p _ hgrew.hostTexts
      obtain ⟨ending, memory, hrelease⟩ := does_release m .freeVec p i₂
      rw [hused.hostTexts] at hrelease
      have hfree := hrelease.reply.2
      have hfreeQuiet := quiet_release (f := .freeVec) rfl (by simp) (by simp)
        [(guestAddress p).toUInt64] ending memory
      refine ⟨_, _, _, _, h ++ h₁ ++ [_], Engine.runs_withVec_made hmade hp hruns,
        (hgrew.trans hused).trans hfree, ?_, ?_⟩
      · have hreported : ([Call.serialize book p 0] ++
            (calls ++ [Call.freeVec p])).flatMap Call.errorTexts = [] := by
          simp [Call.errorTexts, hlooks]
        rw [hreported]
        exact (hbalanced.append hquiet).append hfreeQuiet
      · rintro ⟨c, hc, hfails⟩
        have hlength : lengthFails (h ++ h₁ ++
            [⟨.freeVec, [(guestAddress p).toUInt64], ending, memory⟩]) = lengthFails h₁ := by
          rw [lengthFails_append_right _ (by simp),
            lengthFails_append fun c hc => (hserved.quiet c hc).2]
        rw [hlength]
        simp only [List.mem_append, List.mem_singleton] at hc
        -- a vector was made, so nothing failed before its use; its release does not count
        rcases hc with (hc | hc) | rfl
        · exact absurd (hserved.ptr_eq_zero ⟨c, hc, hfails⟩) hp
        · exact htells ⟨c, hc, hfails⟩
        · cases ending <;> simp [GuestCall.fails, Export.releases] at hfails
  · obtain ⟨h', hgrew', hbalanced, hlength⟩ :=
      hserved.refused m hv hgrew (f := .freeVec) rfl (by simp) (by simp)
    refine ⟨_, _, _, _, h', Engine.runs_withVec_refused hmade hv, ?_⟩
    refine .of_failed hgrew' hbalanced ?_ ⟨_, rfl⟩ hlength
    by_cases hp : p = 0 <;> simp [Call.errorTexts, hp, hv]

private theorem vecLength_grew (m : Machine γ) (p : Ptr) (hi : i.hostTexts = []) :
    ∃ c : GuestCall, c.function = .vecLength ∧
      (c.fails = true → ((boundary m).vecLength p i).value = 0) ∧
      Grew i [c] [] ((boundary m).vecLength p i).state ∧ Quiet [c] := by
  obtain ⟨ending, memory, hlength⟩ := does_vecLength m p i
  rw [hi] at hlength
  obtain ⟨hvalue, hgrew⟩ := hlength.reply
  refine ⟨_, rfl, fun hfails => hvalue.trans ?_, hgrew, .of_neither rfl rfl,
    by simp [GuestCall.errorTexts]⟩
  cases ending with
  | error trap => rfl
  | ok n => simp [GuestCall.fails] at hfails

private theorem tells_of_length {c : GuestCall} {failed : Prop} (hc : c.function = .vecLength)
    (hfailed : ¬failed) (hfails : ∃ x ∈ [c], x.fails = true) :
    failed ↔ lengthFails [c] = false := by
  obtain ⟨x, hx, hxfails⟩ := hfails
  rw [List.mem_singleton.1 hx] at hxfails
  simp [lengthFails_cons hc, hxfails, hfailed]

theorem vecLength_uses (m : Machine γ) (observed : Bool) :
    Uses m observed (fun vec => do
      return (.ok (← (host m observed).vecLength vec) : Except (Failed UInt64) UInt64)) := by
  intro p i hi
  obtain ⟨c, hc, -, hgrew, hquiet⟩ := vecLength_grew m p hi
  exact ⟨_, _, _, _, [c], (Engine.runs_vecLength p i).map _, hgrew, hquiet, rfl,
    tells_of_length hc (by simp)⟩

private theorem vecCopy_grew (m : Machine γ) (p : Ptr) (buffer : Bytes) (hi : i.hostTexts = []) :
    ∃ h, Grew i h [] ((boundary m).vecCopy p buffer i).state ∧ Quiet h ∧
      ((∃ c ∈ h, c.fails = true) → ((boundary m).vecCopy p buffer i).value.1 = 0) := by
  obtain ⟨h, n, after, hcopied, hcopy⟩ := does_vecCopy m p buffer i
  rw [hi] at hcopy
  obtain ⟨hvalue, hgrew⟩ := hcopy.reply
  refine ⟨h, hgrew, ⟨hcopied.leaves, hcopied.quiet⟩, fun hfails => ?_⟩
  exact (congrArg Prod.fst hvalue).trans (hcopied.failed hfails)

private theorem tells_of_copy {c : GuestCall} {h : List GuestCall} {n got : UInt64} {failed : Prop}
    (hc : c.function = .vecLength) (hlength : c.fails = true → n = 0) (hn : n ≠ 0)
    (hcopy : (∃ c ∈ h, c.fails = true) → got = 0) (hfailed : got ≠ n → failed)
    (hfails : ∃ x ∈ [c] ++ h, x.fails = true) : failed ↔ lengthFails ([c] ++ h) = false := by
  have hok : c.fails = false := by
    cases hc : c.fails with
    | false => rfl
    | true => exact absurd (hlength hc) hn
  obtain ⟨x, hx, hxfails⟩ := hfails
  rcases List.mem_append.1 hx with hx | hx
  · rw [List.mem_singleton.1 hx, hok] at hxfails
    simp at hxfails
  -- a failure during the copy copies nothing, which is less than the length that was told
  · have hgot := hcopy ⟨x, hx, hxfails⟩
    refine iff_of_true (hfailed fun heq => hn (heq.symm.trans hgot)) ?_
    rw [List.singleton_append, lengthFails_cons hc, hok]

theorem vecBytes_uses (m : Machine γ) (observed : Bool) :
    Uses m observed (host m observed).vecBytes := by
  intro p i hi
  obtain ⟨c, hc, hlength, hgrew, hquiet⟩ := vecLength_grew m p hi
  by_cases hn : ((boundary m).vecLength p i).value = 0
  · exact ⟨_, _, _, _, [c], Engine.runs_vecBytes_empty hn, hgrew, hquiet, rfl,
      tells_of_length hc (by simp)⟩
  · have hroom : ((boundary m).vecLength p i).value.toNat ≤ (host m observed).room :=
      (UInt64.toNat_lt _).le
    obtain ⟨h, hcopied, hquiet', hfailed⟩ := vecCopy_grew m p
      (List.replicate ((boundary m).vecLength p i).value.toNat 0) hgrew.hostTexts
    refine ⟨_, _, _, _, [c] ++ h, Engine.runs_vecBytes rfl hn hroom, hgrew.trans hcopied,
      hquiet.append hquiet', rfl, fun hfails => ?_⟩
    refine tells_of_copy hc hlength hn hfailed (fun hne => ?_) hfails
    exact ⟨_, if_neg hne⟩

theorem vecFill_uses (m : Machine γ) (observed : Bool) (buffer : Bytes) :
    Uses m observed ((host m observed).vecFill buffer) := by
  intro p i hi
  obtain ⟨c, hc, hlength, hgrew, hquiet⟩ := vecLength_grew m p hi
  by_cases hshort : buffer.length < ((boundary m).vecLength p i).value.toNat
  · exact ⟨_, _, _, _, [c], Engine.runs_vecFill_short rfl hshort, hgrew, hquiet, rfl,
      tells_of_length hc (by simp)⟩
  by_cases hn : ((boundary m).vecLength p i).value = 0
  · exact ⟨_, _, _, _, [c], Engine.runs_vecFill_empty hn, hgrew, hquiet, rfl,
      tells_of_length hc (by simp)⟩
  · obtain ⟨h, hcopied, hquiet', hfailed⟩ := vecCopy_grew m p buffer hgrew.hostTexts
    refine ⟨_, _, _, _, [c] ++ h, Engine.runs_vecFill rfl hn (Nat.not_lt.1 hshort),
      hgrew.trans hcopied, hquiet.append hquiet', rfl, fun hfails => ?_⟩
    refine tells_of_copy hc hlength hn hfailed (fun hne => ?_) hfails
    exact ⟨_, if_neg hne⟩

end Guest

end EngineHost
