import EngineHost.Proofs.ParameterReach

/-!
# Watched runs

A run of a template is watched for two things: each variable holds what it may hold, and a parameter
that is lacking is a listed one. The variables that are there at the start are there at the end,
with new ones on top of them. There is a rule for each way in which runs are put together.
-/

namespace EngineHost.Template

def Run.names (r : Run) : List Bytes := r.vars.map Prod.fst

structure Watch where
  params : Option Params
  /-- What the variables of the running template may hold. -/
  holdings : Holdings
  listed : List Bytes

def Watch.Fits (W : Watch) (r : Run) : Prop := ∀ v ∈ r.vars, v.2.Within W.params (W.holdings v.1)

/-- How a run ends that started with the variables `N`: with an outcome, with a failure that lacks
no unlisted parameter, or with a jump. All but a failure keep the variables. -/
def Watch.Ends {α : Type} (W : Watch) (jumps : Stop → Prop) (N : List Bytes)
    (Q : α → List Bytes → Prop) : Except Stop α × Run → Prop
  | (.ok a, r) => W.Fits r ∧ N <:+ r.names ∧ Q a r.names
  | (.error (.failure f), _) => f.obstacle.Listed W.params W.listed
  | (.error s, r) => W.Fits r ∧ N <:+ r.names ∧ jumps s

/-- Whatever starts with fitting variables `N` ends well. -/
def Watch.Keeps {α : Type} (W : Watch) (jumps : Stop → Prop) (N : List Bytes) (x : RunM α)
    (Q : α → List Bytes → Prop) : Prop :=
  ∀ r, W.Fits r → r.names = N → W.Ends jumps N Q (x.run.run r)

namespace Watch

open RunM

variable {α β : Type} {W : Watch} {jumps jumps' : Stop → Prop} {N N' : List Bytes}
  {Q Q' : α → List Bytes → Prop} {R : β → List Bytes → Prop} {k : Reach} {c : Cell}

/-! ## Steps -/

theorem suffix_of_eq (h : N' = N) : N <:+ N' := h ▸ List.suffix_rfl

theorem Ends.mono {p : Except Stop α × Run} (h : W.Ends jumps N' Q p) (hN : N <:+ N')
    (hQ : ∀ a N'', N' <:+ N'' → Q a N'' → Q' a N'') (hjumps : ∀ s, jumps s → jumps' s) :
    W.Ends jumps' N Q' p := by
  obtain ⟨res, r⟩ := p
  cases res with
  | ok a => exact ⟨h.1, hN.trans h.2.1, hQ a _ h.2.1 h.2.2⟩
  | error s =>
    cases s with
    | failure f => exact h
    | leave => exact ⟨h.1, hN.trans h.2.1, hjumps _ h.2.2⟩
    | skip => exact ⟨h.1, hN.trans h.2.1, hjumps _ h.2.2⟩

private theorem Ends.of_error {s : Stop} {r : Run} (h : W.Ends jumps N Q (.error s, r)) :
    W.Ends jumps N R (.error s, r) := by
  cases s with
  | failure f => exact h
  | leave => exact h
  | skip => exact h

theorem Keeps.imp {x : RunM α} (h : W.Keeps jumps N x Q)
    (hQ : ∀ a N', N <:+ N' → Q a N' → Q' a N') : W.Keeps jumps N x Q' :=
  fun r hr hN => (h r hr hN).mono List.suffix_rfl hQ fun _ h => h

theorem Keeps.allow {x : RunM α} (h : W.Keeps jumps N x Q) (hjumps : ∀ s, jumps s → jumps' s) :
    W.Keeps jumps' N x Q :=
  fun r hr hN => (h r hr hN).mono List.suffix_rfl (fun _ _ _ h => h) hjumps

theorem Keeps.forget {x : RunM α} (h : W.Keeps jumps N x Q) :
    W.Keeps jumps N x fun _ _ => True := h.imp fun _ _ _ _ => trivial

theorem keeps_pure {a : α} (h : Q a N) : W.Keeps jumps N (pure a) Q := by
  rintro r hr rfl
  exact ⟨hr, List.suffix_rfl, h⟩

theorem Keeps.bind {x : RunM α} {f : α → RunM β} (hx : W.Keeps jumps N x Q)
    (hf : ∀ a N', N <:+ N' → Q a N' → W.Keeps jumps N' (f a) R) :
    W.Keeps jumps N (x >>= f) R := by
  intro r hr hN
  have hends := hx r hr hN
  cases hrun : x.run.run r with
  | mk res r' =>
    rw [hrun] at hends
    cases res with
    | ok a =>
      rw [run_bind hrun]
      have hrest := hf a _ hends.2.1 hends.2.2 r' hends.1 rfl
      exact hrest.mono hends.2.1 (fun _ _ _ h => h) fun _ h => h
    | error s =>
      rw [run_bind_error hrun]
      exact hends.of_error

theorem keeps_get_bind {f : Run → RunM β}
    (hf : ∀ r, W.Fits r → r.names = N → W.Keeps jumps N (f r) R) :
    W.Keeps jumps N (get >>= f) R := fun r hr hN => hf r hr hN r hr hN

theorem keeps_throw {s : Stop} (hs : ∀ f, s ≠ .failure f) (h : jumps s) :
    W.Keeps jumps N (throw s : RunM α) Q := by
  rintro r hr rfl
  cases s with
  | failure f => exact absurd rfl (hs f)
  | leave => exact ⟨hr, List.suffix_rfl, h⟩
  | skip => exact ⟨hr, List.suffix_rfl, h⟩

theorem keeps_fail {o : Obstacle} (h : o.Listed W.params W.listed) :
    W.Keeps jumps N (fail o : RunM α) Q := fun _ _ _ => h

theorem keeps_orFail {x : Except Obstacle α} (hok : ∀ a, x = .ok a → Q a N)
    (herror : ∀ o, x = .error o → o.Listed W.params W.listed) : W.Keeps jumps N (orFail x) Q := by
  cases x with
  | ok a => exact keeps_pure (hok a rfl)
  | error o => exact keeps_fail (herror o rfl)

theorem keeps_found {x : Except Obstacle Cell} (h : Finds W.params W.listed k x) :
    W.Keeps jumps N (orFail x) fun c _ => c.Within W.params k := by
  refine keeps_orFail (fun c hc => ?_) fun o ho => ?_
  · rw [hc] at h
    exact h
  · rw [ho] at h
    exact h

private theorem keeps_modify {g : Run → Run} (hg : ∀ r, (g r).vars = r.vars) :
    W.Keeps jumps N (modify g) fun _ N' => N' = N := by
  rintro r hr rfl
  have hnames : (g r).names = r.names := congrArg (List.map Prod.fst) (hg r)
  have hfits : W.Fits (g r) := by
    unfold Watch.Fits
    rw [hg r]
    exact hr
  exact ⟨hfits, suffix_of_eq hnames, hnames⟩

private theorem keeps_visit (s : Spot) : W.Keeps jumps N (visit s) fun _ N' => N' = N :=
  keeps_modify fun _ => rfl

theorem keeps_write (s : Bytes) : W.Keeps jumps N (write s) fun _ N' => N' = N :=
  keeps_modify fun _ => rfl

theorem Keeps.after_visit {s : Spot} {x : RunM α} (h : W.Keeps jumps N x Q) :
    W.Keeps jumps N (visit s >>= fun _ => x) Q := by
  refine (keeps_visit s).bind fun _ N' _ hN' => ?_
  rw [hN']
  exact h

/-! ## Variables -/

theorem keeps_variableValue (name : Bytes) :
    W.Keeps jumps N (variableValue name) fun c _ => c.Within W.params (W.holdings name) := by
  refine keeps_get_bind fun r hr _ => ?_
  split
  · rename_i v hfind
    have hname : v.1 = name := by simpa using List.find?_some hfind
    rw [← hname]
    exact keeps_pure (hr v (List.mem_of_find?_eq_some hfind))
  · exact keeps_fail fun _ h => by cases h

private theorem keeps_push {name : Bytes} (h : c.Within W.params (W.holdings name)) :
    W.Keeps jumps N (push name c) fun _ N' => N' = name :: N := by
  rintro r hr rfl
  refine ⟨?_, List.suffix_cons _ _, rfl⟩
  intro v hv
  rcases List.mem_cons.1 hv with rfl | hv
  · exact h
  · exact hr v hv

private theorem replaced_spec {name : Bytes} {vars vars' : List (Bytes × Cell)}
    (h : replaced name c vars = some vars') :
    vars'.map Prod.fst = vars.map Prod.fst ∧ ∀ v ∈ vars', v = (name, c) ∨ v ∈ vars := by
  induction vars generalizing vars' with
  | nil => cases h
  | cons v rest ih =>
    rw [replaced] at h
    split at h
    · rename_i hname
      obtain rfl := Option.some.inj h
      refine ⟨by simp [hname], fun w hw => ?_⟩
      rcases List.mem_cons.1 hw with rfl | hw
      · exact .inl rfl
      · exact .inr (List.mem_cons_of_mem _ hw)
    · obtain ⟨rest', hrest, rfl⟩ := Option.map_eq_some_iff.1 h
      obtain ⟨hnames, hmem⟩ := ih hrest
      refine ⟨by simp [hnames], fun w hw => ?_⟩
      rcases List.mem_cons.1 hw with rfl | hw
      · exact .inr List.mem_cons_self
      · exact (hmem w hw).imp_right (List.mem_cons_of_mem _)

private theorem keeps_setVars {vars : List (Bytes × Cell)} (hnames : vars.map Prod.fst = N)
    (hvars : ∀ v ∈ vars, v.2.Within W.params (W.holdings v.1)) :
    W.Keeps jumps N (modify fun r => { r with vars }) fun _ N' => N' = N :=
  fun _ _ _ => ⟨hvars, suffix_of_eq hnames, hnames⟩

theorem keeps_assign {name : Bytes} (h : c.Within W.params (W.holdings name)) :
    W.Keeps jumps N (assign name c) fun _ N' => N' = N := by
  refine keeps_get_bind fun r hr hN => ?_
  split
  · rename_i vars hvars
    obtain ⟨hnames, hmem⟩ := replaced_spec hvars
    refine keeps_setVars (hnames.trans hN) fun v hv => ?_
    rcases hmem v hv with rfl | hold
    · exact h
    · exact hr v hold
  · exact keeps_fail fun _ h => by cases h

private theorem modify_spec (vars : List (Bytes × Cell)) (depth : Nat) (c : Cell) :
    (vars.modify depth fun v => (v.1, c)).map Prod.fst = vars.map Prod.fst ∧
      ∀ v ∈ vars.modify depth fun v => (v.1, c),
        v ∈ vars ∨ v.2 = c ∧ (vars.map Prod.fst)[depth]? = some v.1 := by
  induction vars generalizing depth with
  | nil => simp
  | cons v rest ih =>
    cases depth with
    | zero =>
      refine ⟨by simp, fun w hw => ?_⟩
      rcases List.mem_cons.1 (List.modify_zero_cons _ v rest ▸ hw) with rfl | hw
      · exact .inr ⟨rfl, rfl⟩
      · exact .inl (List.mem_cons_of_mem _ hw)
    | succ depth =>
      obtain ⟨hnames, hmem⟩ := ih depth
      refine ⟨by simp [hnames], fun w hw => ?_⟩
      rcases List.mem_cons.1 (List.modify_succ_cons _ v rest depth ▸ hw) with rfl | hw
      · exact .inl List.mem_cons_self
      · exact (hmem w hw).imp_left (List.mem_cons_of_mem _)

theorem keeps_assignAt {depth : Nat}
    (h : ∀ name, N[depth]? = some name → c.Within W.params (W.holdings name)) :
    W.Keeps jumps N (assignAt depth c) fun _ N' => N' = N := by
  rintro r hr rfl
  obtain ⟨hnames, hmem⟩ := modify_spec r.vars depth c
  refine ⟨fun v hv => ?_, suffix_of_eq hnames, hnames⟩
  rcases hmem v hv with hold | ⟨rfl, hname⟩
  · exact hr v hold
  · exact h v.1 hname

/-- Each variable of a pipeline takes the outcome; new ones are the innermost afterwards. -/
theorem keeps_bindAll {p : Pipeline} (h : ∀ v ∈ p.vars, c.Within W.params (W.holdings v)) :
    W.Keeps jumps N (bindAll p c) fun _ N' => p.assigns = false → N' = p.vars.reverse ++ N := by
  unfold bindAll
  generalize p.vars = vars at h
  induction vars generalizing N with
  | nil => exact keeps_pure fun _ => rfl
  | cons v rest ih =>
    have hrest : ∀ w ∈ rest, c.Within W.params (W.holdings w) :=
      fun w hw => h w (List.mem_cons_of_mem _ hw)
    have hv : W.Keeps jumps N (if p.assigns then assign v c else push v c) fun _ N' =>
        p.assigns = false → N' = v :: N := by
      split
      · rename_i hassigns
        refine (keeps_assign (h v List.mem_cons_self)).imp ?_
        intro _ _ _ _ hnew
        rw [hassigns] at hnew
        cases hnew
      · exact (keeps_push (h v List.mem_cons_self)).imp fun _ _ _ heq _ => heq
    refine hv.bind fun _ N' _ hN' => (ih hrest).imp ?_
    intro _ N'' _ hN'' hnew
    rw [hN'' hnew, hN' hnew]
    simp

theorem length_vars {r : Run} (h : r.names = N) : r.vars.length = N.length := by
  rw [← h]
  exact (List.length_map _).symm

/-- Variables that were declared since are dropped. -/
theorem popTo_spec {r : Run} (hr : W.Fits r) (hN : N <:+ r.names) :
    ∃ r', (popTo N.length).run.run r = (.ok (), r') ∧ W.Fits r' ∧ r'.names = N := by
  refine ⟨_, rfl, fun v hv => hr v (List.mem_of_mem_drop hv), ?_⟩
  obtain ⟨newer, hnewer⟩ := hN
  have hlength : r.vars.length = newer.length + N.length := by
    rw [← List.length_map (f := Prod.fst), ← List.length_append, hnewer]
    rfl
  have hdrop : (r.names).drop (r.vars.length - N.length) = N := by
    rw [hlength, Nat.add_sub_cancel, ← hnewer, List.drop_left]
  rw [Run.names, List.map_drop]
  exact hdrop

theorem Keeps.then_popTo {x : RunM α} (hx : W.Keeps jumps N x fun _ _ => True) :
    W.Keeps jumps N (x >>= fun _ => popTo N.length) fun _ N' => N' = N := by
  intro r hr hN
  have hends := hx r hr hN
  cases hrun : x.run.run r with
  | mk res r' =>
    rw [hrun] at hends
    cases res with
    | ok a =>
      obtain ⟨r'', hpop, hr'', hN''⟩ := popTo_spec hends.1 hends.2.1
      rw [run_bind hrun, hpop]
      exact ⟨hr'', suffix_of_eq hN'', hN''⟩
    | error s =>
      rw [run_bind_error hrun]
      exact hends.of_error

theorem Keeps.inScope {x : RunM Unit} (hx : W.Keeps jumps N x fun _ _ => True) :
    W.Keeps jumps N (RunM.inScope x) fun _ N' => N' = N := by
  refine keeps_get_bind fun r _ hN => ?_
  have hcount := length_vars hN
  have heq : (do let a ← x; popTo r.vars.length; return a) =
      (x >>= fun _ => popTo N.length) := by
    rw [hcount]
    simp
  exact heq ▸ hx.then_popTo

private theorem run_tryCatch {x : RunM α} {handle : Stop → RunM α} {a : α} {r r' : Run}
    (h : x.run.run r = (.ok a, r')) : (tryCatch x handle).run.run r = (.ok a, r') := by
  rw [ExceptT.run_tryCatch, StateT.run_bind, h]
  rfl

private theorem run_tryCatch_error {x : RunM α} {handle : Stop → RunM α} {s : Stop} {r r' : Run}
    (h : x.run.run r = (.error s, r')) :
    (tryCatch x handle).run.run r = (handle s).run.run r' := by
  rw [ExceptT.run_tryCatch, StateT.run_bind, h]
  rfl

theorem Keeps.tryCatch {x : RunM α} {handle : Stop → RunM α} (hx : W.Keeps jumps N x Q)
    (hfailure : ∀ f, handle (.failure f) = throw (.failure f))
    (hhandle : ∀ s N', (∀ f, s ≠ .failure f) → jumps s → N <:+ N' →
      W.Keeps jumps' N' (handle s) Q) :
    W.Keeps jumps' N (MonadExcept.tryCatch x handle) Q := by
  intro r hr hN
  have hends := hx r hr hN
  cases hrun : x.run.run r with
  | mk res r' =>
    rw [hrun] at hends
    cases res with
    | ok a =>
      rw [run_tryCatch hrun]
      exact hends
    | error s =>
      rw [run_tryCatch_error hrun]
      have hjump (hs : ∀ f, s ≠ .failure f) (h : W.Fits r' ∧ N <:+ r'.names ∧ jumps s) :
          W.Ends jumps' N Q ((handle s).run.run r') :=
        (hhandle s _ hs h.2.2 h.2.1 r' h.1 rfl).mono h.2.1 (fun _ _ _ h => h) fun _ h => h
      cases s with
      | failure f =>
        rw [hfailure]
        exact hends
      | leave => exact hjump (by simp) hends
      | skip => exact hjump (by simp) hends

end Watch

end EngineHost.Template
