import EngineHost.Proofs.FilledProgram
import EngineHost.Proofs.WellFormedText
import Mathlib.Algebra.BigOperators.Group.List.Basic
import Mathlib.Data.List.Flatten
import Mathlib.Data.List.Infix

/-!
# The grammar of programs

Which texts are programs is said of their lines as a whole: the depth of the brackets at a place is
a count over everything in front of it. Reading goes line by line with a depth and the names so far,
and comes to the same verdict. Where a text breaks several conditions, the first in reading order is
reported.
-/

namespace EngineHost

private theorem Bytes.cut_map_fst (sep : UInt8) (s : Bytes) :
    (Bytes.cut sep s).map Prod.fst = if sep ∈ s then some (s.takeWhile (· != sep)) else none := by
  induction s with
  | nil => rfl
  | cons b s ih =>
    by_cases hb : b = sep
    · simp [Bytes.cut, hb]
    · have hmap : (Bytes.cut sep (b :: s)).map Prod.fst =
          ((Bytes.cut sep s).map Prod.fst).map (b :: ·) := by
        simp [Bytes.cut, hb, Function.comp_def]
      have hmem : sep ∈ b :: s ↔ sep ∈ s := by simp [Ne.symm hb]
      rw [hmap, ih]
      by_cases hs : sep ∈ s <;> simp [hs, hmem, hb]

namespace Simulator.Program

open Bytes Utf8

/-! ## Conditions -/

/-- What a character adds to the depth of the brackets. -/
def weight (c : Char) : Int :=
  if c == '(' || c == '{' || c == '[' then 1
  else if c == ')' || c == '}' || c == ']' then -1
  else 0

/-- How many more brackets a text opens than it closes. -/
def balance (cs : List Char) : Int := (cs.map weight).sum

def starts (l : Bytes) : Bool := l.head? == some 64

/-- What stands between the at sign of a line and its first equals sign, without blanks around. -/
def nameOf (l : Bytes) : Bytes := trim (l.tail.takeWhile (· != 61))

def names (ls : List Bytes) : List Bytes := (ls.filter starts).map nameOf

/-- The lines of a program, without the blank ones and without the blanks around them. -/
structure Grammatical (ls : List Bytes) : Prop where
  nonempty : ls ≠ []
  first : ∀ l, ls.head? = some l → starts l = true
  named : ∀ l ∈ ls, starts l = true → 61 ∈ l ∧ nameOf l ≠ []
  nonnegative : ∀ cs, cs <+: ls.flatMap chars → 0 ≤ balance cs
  closedBefore : ∀ before l after, ls = before ++ l :: after → starts l = true →
    balance (before.flatMap chars) = 0
  closedAtEnd : balance (ls.flatMap chars) = 0

def leadFaults (before : List Bytes) (l : Bytes) (n : Nat) : List ProgramError :=
  if starts l then
    (if 61 ∈ l ∧ nameOf l ≠ [] then [] else [.malformed n]) ++
      if balance (before.flatMap chars) = 0 then [] else [.openBefore n (nameOf l)]
  else if before = [] then [.stray n l] else []

def closeFaults (before : List Bytes) (l : Bytes) (n : Nat) : List ProgramError :=
  if ∀ cs ∈ (chars l).inits, 0 ≤ balance (before.flatMap chars ++ cs) then []
  else [.unexpectedClose n]

def endFaults (ls : List Bytes) : List ProgramError :=
  (if balance (ls.flatMap chars) = 0 then [] else [.openAtEnd]) ++ if ls = [] then [.empty] else []

/-- All conditions that numbered lines break behind the lines before them, in reading order: of a
line first how it starts, then its brackets. -/
def faultsFrom : (before : List Bytes) → List (Bytes × Nat) → List ProgramError
  | before, [] => endFaults before
  | before, (l, n) :: rest =>
    leadFaults before l n ++ closeFaults before l n ++ faultsFrom (before ++ [l]) rest

def contentFrom (n : Nat) (ls : List Bytes) : List (Bytes × Nat) :=
  ((ls.map trim).zipIdx n).filter fun l => !l.1.isEmpty

/-- The lines of a text that are not blank, without the blanks around them, with the numbers that
they have among all lines. -/
def content (source : Bytes) : List (Bytes × Nat) := contentFrom 1 (lines source)

def texts (source : Bytes) : List Bytes := (content source).map Prod.fst

/-- All conditions that a text breaks, in reading order. -/
def faults (source : Bytes) : List ProgramError := faultsFrom [] (content source)

/-! ## Brackets -/

@[simp]
theorem balance_nil : balance [] = 0 := rfl

@[simp]
theorem balance_cons (c : Char) (cs : List Char) : balance (c :: cs) = weight c + balance cs := rfl

@[simp]
theorem balance_append (cs ds : List Char) : balance (cs ++ ds) = balance cs + balance ds := by
  simp [balance]

private theorem weight_of_not_ascii {c : Char} (h : 128 ≤ c.toNat) : weight c = 0 := by
  have hne : ∀ d : Char, d.toNat < 128 → c ≠ d := by
    rintro d hd rfl
    omega
  simp [weight, hne '(' (by decide), hne '{' (by decide), hne '[' (by decide),
    hne ')' (by decide), hne '}' (by decide), hne ']' (by decide)]

private theorem weight_byte (b : UInt8) :
    weight (Char.ofNat b.toNat) = if opens b then 1 else if closes b then -1 else 0 :=
  forall_byte (P := fun b =>
    weight (Char.ofNat b.toNat) = if opens b then 1 else if closes b then -1 else 0)
    (by decide +kernel) b

/-- Reads on behind a character that changes the depth. -/
def step (depth : Nat) (c : Char) (rest : Bytes) : Option Nat :=
  if 0 ≤ depth + weight c then depthAfter (depth + weight c).toNat rest else none

private theorem depthAfter_cons (depth : Nat) (b : UInt8) (s : Bytes) :
    depthAfter depth (b :: s) = step depth (Char.ofNat b.toNat) s := by
  rw [step, weight_byte]
  by_cases ho : opens b = true
  · have hdepth : ((depth : Int) + 1).toNat = depth + 1 := by omega
    have hle : (0 : Int) ≤ depth + 1 := by omega
    simp [depthAfter, ho, hdepth, hle]
  · by_cases hc : closes b = true
    · cases depth with
      | zero => simp [depthAfter, ho, hc]
      | succ d => simp [depthAfter, ho, hc]
    · simp [depthAfter, ho, hc]

private theorem step_of_not_ascii {c : Char} (h : 128 ≤ c.toNat) (depth : Nat) (s : Bytes) :
    step depth c s = depthAfter depth s := by
  simp [step, weight_of_not_ascii h]

private theorem toNat_ofNat_byte (b : UInt8) : (Char.ofNat b.toNat).toNat = b.toNat :=
  forall_byte (P := fun b => (Char.ofNat b.toNat).toNat = b.toNat) (by decide +kernel) b

private theorem depthAfter_append_of_not_ascii {u : Bytes} (h : ∀ b ∈ u, 128 ≤ b.toNat)
    (depth : Nat) (s : Bytes) : depthAfter depth (u ++ s) = depthAfter depth s := by
  induction u with
  | nil => rfl
  | cons b u ih =>
    rw [List.forall_mem_cons] at h
    have hb : 128 ≤ (Char.ofNat b.toNat).toNat := by
      rw [toNat_ofNat_byte]
      exact h.1
    rw [List.cons_append, depthAfter_cons, step_of_not_ascii hb, ih h.2]

private theorem depthAfter_encode_append (depth : Nat) (c : Char) (s : Bytes) :
    depthAfter depth (Utf8.encode c ++ s) = step depth c s := by
  by_cases hc : c.toNat < 128
  · have hbyte : (UInt8.ofNat c.toNat).toNat = c.toNat := by
      rw [UInt8.toNat_ofNat']
      omega
    have hb : UInt8.ofNat c.toNat < 128 := by
      rw [UInt8.lt_iff_toNat_lt, hbyte]
      exact hc
    have hchar : Char.ofNat (UInt8.ofNat c.toNat).toNat = c := by rw [hbyte, Char.ofNat_toNat]
    have hencode := encode_of_ascii hb
    rw [hchar] at hencode
    rw [hencode, List.singleton_append, depthAfter_cons, hchar]
  · -- No byte of a longer character is a bracket.
    have hhigh : ∀ b ∈ Utf8.encode c, 128 ≤ b.toNat := by
      intro b hb
      rcases mem_encode hb with h | h
      · exact h
      · omega
    rw [depthAfter_append_of_not_ascii hhigh, step_of_not_ascii (by omega)]

private theorem not_ascii_of_stray {skip : Nat} {s : Bytes} {b : UInt8}
    (h : .stray b ∈ piecesAfter skip s) : 128 ≤ b.toNat := by
  fun_induction piecesAfter skip s with
  | case1 => simp at h
  | case2 skip a rest ih => exact ih h
  | case3 a rest n w hfront ih => exact ih (by simpa using h)
  | case4 a rest hfront ih =>
    rcases List.mem_cons.1 h with heq | hrest
    · obtain rfl : b = a := by simpa using heq
      by_contra hlt
      have hwidth : width b = 1 := by
        rw [width_eq, if_pos (by omega)]
      simp [front?, hwidth] at hfront
    · exact ih hrest

private theorem depthAfter_piece {p : Piece} (h : ∀ b, p = .stray b → 128 ≤ b.toNat) (depth : Nat)
    (s : Bytes) : depthAfter depth (p.bytes ++ s) = step depth p.toChar s := by
  cases p with
  | char c => exact depthAfter_encode_append depth c s
  | stray b =>
    have hb : ∀ a ∈ [b], 128 ≤ a.toNat := by simpa using h b rfl
    rw [Piece.bytes, depthAfter_append_of_not_ascii hb, Piece.toChar,
      step_of_not_ascii (by decide)]

private theorem forall_prefix_cons {P : List Char → Prop} {c : Char} {cs : List Char} :
    (∀ t, t <+: c :: cs → P t) ↔ P [] ∧ ∀ t, t <+: cs → P (c :: t) := by
  simp only [List.prefix_cons_iff]
  constructor
  · intro h
    refine ⟨h [] (.inl rfl), ?_⟩
    intro t ht
    exact h (c :: t) (.inr ⟨t, rfl, ht⟩)
  · rintro ⟨hnil, hcons⟩ t (rfl | ⟨t, rfl, ht⟩)
    · exact hnil
    · exact hcons t ht

private theorem depthAfter_pieces {ps : List Piece} (hps : ∀ b, .stray b ∈ ps → 128 ≤ b.toNat)
    (depth depth' : Nat) :
    depthAfter depth (ps.flatMap Piece.bytes) = some depth' ↔
      (∀ cs, cs <+: ps.map Piece.toChar → 0 ≤ depth + balance cs) ∧
        (depth' : Int) = depth + balance (ps.map Piece.toChar) := by
  induction ps generalizing depth with
  | nil =>
    simp only [List.flatMap_nil, List.map_nil, depthAfter, Option.some.injEq, List.prefix_nil,
      forall_eq, balance_nil]
    omega
  | cons p ps ih =>
    have hp : ∀ b, p = .stray b → 128 ≤ b.toNat := by
      rintro b rfl
      exact hps b List.mem_cons_self
    have hrest : ∀ b, .stray b ∈ ps → 128 ≤ b.toNat := by
      intro b hb
      exact hps b (List.mem_cons_of_mem _ hb)
    rw [List.flatMap_cons, depthAfter_piece hp, step, List.map_cons, forall_prefix_cons]
    simp only [balance_cons, balance_nil, ← Int.add_assoc]
    by_cases hle : 0 ≤ depth + weight p.toChar
    · rw [if_pos hle, ih hrest, Int.toNat_of_nonneg hle]
      simp
    · rw [if_neg hle]
      constructor
      · simp
      · rintro ⟨⟨-, h⟩, -⟩
        exact absurd (by simpa using h [] List.nil_prefix) hle

/-- The depth behind a text is known exactly if no character closes what is not open. -/
theorem depthAfter_eq_some_iff {depth depth' : Nat} {s : Bytes} :
    depthAfter depth s = some depth' ↔
      (∀ cs, cs <+: chars s → 0 ≤ depth + balance cs) ∧
        (depth' : Int) = depth + balance (chars s) := by
  have hstray : ∀ b, .stray b ∈ pieces s → 128 ≤ b.toNat := fun b hb => not_ascii_of_stray hb
  have hpieces := depthAfter_pieces hstray depth depth'
  rwa [pieces, flatMap_bytes_piecesAfter, List.drop_zero] at hpieces

private theorem depthAfter_eq_none_iff {depth : Nat} {s : Bytes} :
    depthAfter depth s = none ↔ ¬∀ cs, cs <+: chars s → 0 ≤ depth + balance cs := by
  constructor
  · intro hnone h
    have hsome : depthAfter depth s = some (depth + balance (chars s)).toNat :=
      depthAfter_eq_some_iff.2 ⟨h, Int.toNat_of_nonneg (h (chars s) List.prefix_rfl)⟩
    simp [hnone] at hsome
  · intro h
    cases hdepth : depthAfter depth s with
    | none => rfl
    | some depth' => exact absurd (depthAfter_eq_some_iff.1 hdepth).1 h

/-! ## Reading a line -/

private theorem definedName?_eq (rest : Bytes) :
    definedName? rest =
      if 61 ∈ rest ∧ trim (rest.takeWhile (· != 61)) ≠ [] then
        some (trim (rest.takeWhile (· != 61)))
      else none := by
  have hcut := cut_map_fst 61 rest
  unfold definedName?
  cases h : cut 61 rest with
  | none =>
    rw [h] at hcut
    have hmem : 61 ∉ rest := by
      intro hmem
      simp [hmem] at hcut
    simp [hmem]
  | some parts =>
    rw [h] at hcut
    have hmem : 61 ∈ rest := by
      by_contra hmem
      simp [hmem] at hcut
    have hname : parts.1 = rest.takeWhile (· != 61) := by simpa [hmem] using hcut
    simp [hmem, hname, ite_not]

theorem define_eq (n depth : Nat) (defs : List Bytes) (l : Bytes) :
    define n depth defs l =
      if starts l then
        if 61 ∈ l ∧ nameOf l ≠ [] then
          if depth = 0 then .ok (nameOf l :: defs) else .error (.openBefore n (nameOf l))
        else .error (.malformed n)
      else if defs = [] then .error (.stray n l) else .ok defs := by
  unfold define
  split
  · rename_i rest
    have hstarts : starts (64 :: rest) = true := rfl
    rw [if_pos hstarts, definedName?_eq]
    by_cases h : 61 ∈ rest ∧ trim (rest.takeWhile (· != 61)) ≠ []
    · simp [h, nameOf]
    · simp [h, nameOf]
  · rename_i h
    have hstarts : starts l = false := by
      cases l with
      | nil => rfl
      | cons b rest =>
        have hb : b ≠ 64 := by
          rintro rfl
          exact h rest rfl
        simp [starts, hb]
    simp [hstarts]

private theorem contentFrom_cons (n : Nat) (s : Bytes) (ls : List Bytes) :
    contentFrom n (s :: ls) =
      if trim s = [] then contentFrom (n + 1) ls else (trim s, n) :: contentFrom (n + 1) ls := by
  by_cases h : trim s = [] <;> simp [contentFrom, List.zipIdx_cons, h]

private theorem closeFaults_eq_of_ne_nil {before : List Bytes} {l : Bytes} {n : Nat}
    (h : closeFaults before l n ≠ []) : closeFaults before l n = [.unexpectedClose n] := by
  unfold closeFaults at h ⊢
  split at h
  · exact absurd rfl h
  · exact if_neg ‹_›

/-- The first fault, or what was read if there is none. -/
def verdict (faults : List ProgramError) (read : List Bytes) :
    Except ProgramError (List Bytes) :=
  match faults with
  | [] => .ok read
  | e :: _ => .error e

/-- Lines without a fault so far, and the depth behind them. -/
structure Reached (before : List Bytes) (depth : Nat) : Prop where
  depth_eq : (depth : Int) = balance (before.flatMap chars)
  names_ne_nil : before ≠ [] → names before ≠ []

namespace Reached

variable {before : List Bytes} {depth depth' n : Nat} {l : Bytes}

theorem start : Reached [] 0 := ⟨rfl, fun h => absurd rfl h⟩

private theorem names_eq_nil_iff (h : Reached before depth) : names before = [] ↔ before = [] := by
  constructor
  · intro hnames
    by_contra hbefore
    exact h.names_ne_nil hbefore hnames
  · rintro rfl
    rfl

private theorem depth_eq_zero_iff (h : Reached before depth) :
    depth = 0 ↔ balance (before.flatMap chars) = 0 := by
  rw [← h.depth_eq]
  omega

private theorem define_eq_verdict (h : Reached before depth) (l : Bytes) (n : Nat) :
    define n depth (names before).reverse l =
      verdict (leadFaults before l n) (names (before ++ [l])).reverse := by
  rw [define_eq, leadFaults]
  simp only [List.reverse_eq_nil_iff, h.names_eq_nil_iff, h.depth_eq_zero_iff]
  by_cases hl : starts l = true
  · by_cases hname : 61 ∈ l ∧ nameOf l ≠ []
    · by_cases hdepth : balance (before.flatMap chars) = 0
      · simp [hl, hname, hdepth, verdict, names]
      · simp [hl, hname, hdepth, verdict]
    · simp [hl, hname, verdict]
  · by_cases hbefore : before = []
    · simp [hl, hbefore, verdict]
    · simp [hl, hbefore, verdict, names]

private theorem closeFaults_eq_nil_iff (h : Reached before depth) :
    closeFaults before l n = [] ↔ ∀ cs, cs <+: chars l → 0 ≤ depth + balance cs := by
  simp [closeFaults, h.depth_eq]

theorem next (h : Reached before depth) (hlead : leadFaults before l n = [])
    (hdepth : depthAfter depth l = some depth') : Reached (before ++ [l]) depth' := by
  refine ⟨?_, ?_⟩
  · rw [(depthAfter_eq_some_iff.1 hdepth).2, h.depth_eq]
    simp
  · intro _ hnil
    by_cases hl : starts l = true
    · simp [names, hl] at hnil
    · have hbefore : before ≠ [] := by
        rintro rfl
        simp [leadFaults, hl] at hlead
      have hsame : names (before ++ [l]) = names before := by simp [names, hl]
      exact h.names_ne_nil hbefore (hsame ▸ hnil)

end Reached

/-- Reading stops at the first fault of the lines that are left. -/
theorem scan_eq_verdict {before : List Bytes} {depth : Nat} (h : Reached before depth) (n : Nat)
    (ls : List Bytes) :
    scan n depth (names before).reverse ls = verdict (faultsFrom before (contentFrom n ls))
      (names (before ++ (contentFrom n ls).map Prod.fst)) := by
  induction ls generalizing before depth n with
  | nil =>
    have hnames := h.names_eq_nil_iff
    have hdepth := h.depth_eq_zero_iff
    by_cases hb : balance (before.flatMap chars) = 0
    · by_cases hbefore : before = []
      · simp [scan, contentFrom, faultsFrom, endFaults, verdict, hdepth, hbefore, names]
      · simp [scan, contentFrom, faultsFrom, endFaults, verdict, hdepth, hnames, hb, hbefore]
    · simp [scan, contentFrom, faultsFrom, endFaults, verdict, hdepth, hb]
  | cons s ls ih =>
    rw [scan, contentFrom_cons]
    by_cases hblank : trim s = []
    · simp [hblank, ih h]
    · simp only [hblank, List.isEmpty_iff, if_false, h.define_eq_verdict, faultsFrom]
      cases hlead : leadFaults before (trim s) n with
      | cons e es => simp [verdict]
      | nil =>
        cases hdepth : depthAfter depth (trim s) with
        | none =>
          have hne : closeFaults before (trim s) n ≠ [] := by
            rw [ne_eq, h.closeFaults_eq_nil_iff]
            exact depthAfter_eq_none_iff.1 hdepth
          have hclose : closeFaults before (trim s) n = [.unexpectedClose n] :=
            closeFaults_eq_of_ne_nil hne
          simp [verdict, hclose]
        | some depth' =>
          have hclose : closeFaults before (trim s) n = [] :=
            h.closeFaults_eq_nil_iff.2 (depthAfter_eq_some_iff.1 hdepth).1
          have hrest := ih (h.next hlead hdepth) (n + 1)
          simpa [verdict, hclose] using hrest

/-! ## Conditions on all lines -/

/-- What is asked of a line behind the lines before it. -/
structure Fits (before : List Bytes) (l : Bytes) : Prop where
  named : starts l = true → 61 ∈ l ∧ nameOf l ≠ []
  closedBefore : starts l = true → balance (before.flatMap chars) = 0
  notFirst : starts l = false → before ≠ []
  nonnegative : ∀ cs, cs <+: chars l → 0 ≤ balance (before.flatMap chars ++ cs)

private theorem line_faults_eq_nil_iff {before : List Bytes} {l : Bytes} {n : Nat} :
    leadFaults before l n ++ closeFaults before l n = [] ↔ Fits before l := by
  rw [List.append_eq_nil_iff]
  have hclose : closeFaults before l n = [] ↔
      ∀ cs, cs <+: chars l → 0 ≤ balance (before.flatMap chars ++ cs) := by
    simp [closeFaults]
  have hlead : leadFaults before l n = [] ↔
      (starts l = true → 61 ∈ l ∧ nameOf l ≠ []) ∧
        (starts l = true → balance (before.flatMap chars) = 0) ∧
        (starts l = false → before ≠ []) := by
    by_cases hl : starts l = true
    · simp [leadFaults, hl]
    · simp [leadFaults, hl]
  rw [hclose, hlead]
  exact ⟨fun ⟨⟨h₁, h₂, h₃⟩, h₄⟩ => ⟨h₁, h₂, h₃, h₄⟩, fun ⟨h₁, h₂, h₃, h₄⟩ => ⟨⟨h₁, h₂, h₃⟩, h₄⟩⟩

private theorem forall_split_cons {P : List Bytes → Bytes → Prop} {x : Bytes} {xs : List Bytes} :
    (∀ a l b, x :: xs = a ++ l :: b → P a l) ↔
      P [] x ∧ ∀ a l b, xs = a ++ l :: b → P (x :: a) l := by
  constructor
  · intro h
    refine ⟨h [] x xs rfl, ?_⟩
    intro a l b hxs
    exact h (x :: a) l b (by rw [hxs, List.cons_append])
  · rintro ⟨hfirst, hrest⟩ a l b heq
    cases a with
    | nil =>
      obtain ⟨rfl, -⟩ := List.cons.inj heq
      exact hfirst
    | cons y a =>
      obtain ⟨rfl, hxs⟩ := List.cons.inj heq
      exact hrest a l b hxs

private theorem faultsFrom_eq_nil_iff {before : List Bytes} {ls : List (Bytes × Nat)} :
    faultsFrom before ls = [] ↔
      (∀ a l b, ls.map Prod.fst = a ++ l :: b → Fits (before ++ a) l) ∧
        endFaults (before ++ ls.map Prod.fst) = [] := by
  induction ls generalizing before with
  | nil => simp [faultsFrom]
  | cons x ls ih =>
    obtain ⟨l, n⟩ := x
    rw [faultsFrom, List.append_eq_nil_iff, line_faults_eq_nil_iff, ih, List.map_cons,
      forall_split_cons]
    simp only [List.append_assoc, List.singleton_append, List.append_nil, and_assoc]

private theorem exists_split_of_prefix {ls : List Bytes} {cs : List Char}
    (h : cs <+: ls.flatMap chars) (hcs : cs ≠ []) :
    ∃ a l b ds, ls = a ++ l :: b ∧ ds <+: chars l ∧ cs = a.flatMap chars ++ ds := by
  induction ls generalizing cs with
  | nil => exact absurd (List.prefix_nil.1 h) hcs
  | cons l ls ih =>
    obtain ⟨after, heq⟩ := h
    rw [List.flatMap_cons] at heq
    rcases List.append_eq_append_iff.1 heq with ⟨ds, hl, -⟩ | ⟨ds, rfl, hrest⟩
    · exact ⟨[], l, ls, cs, rfl, ⟨ds, hl.symm⟩, rfl⟩
    · by_cases hds : ds = []
      · exact ⟨[], l, ls, chars l, rfl, List.prefix_rfl, by simp [hds]⟩
      · obtain ⟨a, m, b, es, rfl, hes, rfl⟩ := ih ⟨after, hrest.symm⟩ hds
        exact ⟨l :: a, m, b, es, rfl, hes, by simp⟩

private theorem grammatical_iff {ls : List Bytes} :
    Grammatical ls ↔ (∀ a l b, ls = a ++ l :: b → Fits a l) ∧ endFaults ls = [] := by
  have hend : endFaults ls = [] ↔ balance (ls.flatMap chars) = 0 ∧ ls ≠ [] := by simp [endFaults]
  rw [hend]
  constructor
  · intro h
    refine ⟨?_, h.closedAtEnd, h.nonempty⟩
    rintro a l b rfl
    refine ⟨h.named l (by simp), h.closedBefore a l b rfl, ?_, ?_⟩
    · rintro hl rfl
      simp [h.first l rfl] at hl
    · intro cs hcs
      apply h.nonnegative
      rw [List.flatMap_append, List.flatMap_cons, List.prefix_append_right_inj]
      exact hcs.trans (List.prefix_append ..)
  · rintro ⟨hfits, hclosed, hne⟩
    refine ⟨hne, ?_, ?_, ?_, fun a l b heq => (hfits a l b heq).closedBefore, hclosed⟩
    · intro l hl
      obtain ⟨rest, rfl⟩ := List.head?_eq_some_iff.1 hl
      by_contra hstarts
      exact (hfits [] l rest rfl).notFirst (by simpa using hstarts) rfl
    · intro l hl
      obtain ⟨a, b, rfl⟩ := List.append_of_mem hl
      exact (hfits a l b rfl).named
    · intro cs hcs
      by_cases hnil : cs = []
      · simp [hnil]
      · obtain ⟨a, l, b, ds, rfl, hds, rfl⟩ := exists_split_of_prefix hcs hnil
        exact (hfits a l b rfl).nonnegative ds hds

private theorem faults_eq_nil_iff {source : Bytes} :
    faults source = [] ↔ Grammatical (texts source) := by
  rw [faults, faultsFrom_eq_nil_iff, grammatical_iff]
  simp only [List.nil_append, texts]

/-- A text is read as a program exactly if its lines are those of a program. It is kept as it is,
with the names of its definitions in their order. Otherwise the first fault in reading order is
reported, with the number that its line has in the text. -/
theorem parse_iff_grammatical (source : Bytes) :
    (∀ p, parse source = .ok p ↔
      Grammatical (texts source) ∧ p = ⟨source, names (texts source)⟩) ∧
      ∀ e, parse source = .error e ↔ (faults source).head? = some e := by
  have hscan : scan 1 0 [] (lines source) = verdict (faults source) (names (texts source)) :=
    scan_eq_verdict Reached.start 1 (lines source)
  rw [← faults_eq_nil_iff, parse, hscan]
  cases faults source with
  | nil => simp [verdict, Except.map, eq_comm]
  | cons e es => simp [verdict, Except.map]

-- Both faults of the third line come before the one at the end; the blank line counts.
example : faults "@a = (\n\n@ = b" = [.malformed 3, .openBefore 3 [], .openAtEnd] := by
  decide +kernel

end Simulator.Program

end EngineHost
