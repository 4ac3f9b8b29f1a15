import EngineHost.Proofs.ProgramGrammar

/-!
# Programs one behind the other

Behind a program, reading is where it was at the start, but for the number of the line and the names
so far. So a second program on the lines below adds its definitions, and what is wrong with it is
wrong there too, further down.
-/

namespace EngineHost

private theorem Bytes.lines_append_newline (s t : Bytes) :
    lines (s ++ 10 :: t) = lines s ++ lines t := by
  have hjoin : ∀ ls ms : List Bytes, ls ≠ [] → joinLines ls ([] :: ms) = ls ++ ms := by
    intro ls ms hls
    induction ls with
    | nil => exact absurd rfl hls
    | cons l ls ih =>
      cases ls with
      | nil => simp [joinLines]
      | cons l' ls =>
        rw [joinLines, ih (by simp)]
        rfl
  have hsplit : split 10 (10 :: t) = [] :: split 10 t := by simp [split]
  rw [lines, split_append, hsplit, hjoin _ _ (split_ne_nil 10 s)]
  rfl

namespace Simulator

namespace ProgramError

/-- Whether an error is about brackets or about how a definition starts. -/
def ofForm : ProgramError → Bool
  | malformed _ | openBefore _ _ | unexpectedClose _ | openAtEnd => true
  | stray _ _ | empty => false

def line? : ProgramError → Option Nat
  | malformed line | openBefore line _ | stray line _ | unexpectedClose line => some line
  | openAtEnd | empty => none

/-- The same error some lines further down. -/
def moved (k : Nat) : ProgramError → ProgramError
  | malformed line => malformed (line + k)
  | openBefore line name => openBefore (line + k) name
  | stray line text => stray (line + k) text
  | unexpectedClose line => unexpectedClose (line + k)
  | openAtEnd => openAtEnd
  | empty => empty

def reason : ProgramError → Bytes
  | malformed _ => "expected '@name = <net>'"
  | openBefore _ name => "unbalanced brackets before @" ++ name
  | stray _ text => "expected definition, found " ++ Quoted.text text
  | unexpectedClose _ => "unexpected closing bracket"
  | openAtEnd => "unbalanced brackets at end of input"
  | empty => "empty book"

def located (line : Nat) (reason : Bytes) : Bytes :=
  "PARSE_ERROR (" ++ Bytes.ofNat line ++ ":1): " ++ reason

private theorem message_eq_located {e : ProgramError} {line : Nat} (h : e.line? = some line) :
    e.message = located line e.reason := by
  cases e with
  | malformed n =>
    have htext : Bytes.ofString ":1): expected '@name = <net>'" =
        ":1): " ++ Bytes.ofString "expected '@name = <net>'" := by decide +kernel
    obtain rfl : n = line := by simpa [line?] using h
    simp [message, located, reason, htext]
  | openBefore n name =>
    have htext : Bytes.ofString ":1): unbalanced brackets before @" =
        ":1): " ++ Bytes.ofString "unbalanced brackets before @" := by decide +kernel
    obtain rfl : n = line := by simpa [line?] using h
    simp [message, located, reason, htext]
  | stray n text =>
    have htext : Bytes.ofString ":1): expected definition, found " =
        ":1): " ++ Bytes.ofString "expected definition, found " := by decide +kernel
    obtain rfl : n = line := by simpa [line?] using h
    simp [message, located, reason, htext]
  | unexpectedClose n =>
    have htext : Bytes.ofString ":1): unexpected closing bracket" =
        ":1): " ++ Bytes.ofString "unexpected closing bracket" := by decide +kernel
    obtain rfl : n = line := by simpa [line?] using h
    simp [message, located, reason, htext]
  | openAtEnd => simp [line?] at h
  | empty => simp [line?] at h

private theorem line?_moved (e : ProgramError) (k : Nat) :
    (e.moved k).line? = e.line?.map (· + k) := by
  cases e <;> rfl

private theorem reason_moved (e : ProgramError) (k : Nat) : (e.moved k).reason = e.reason := by
  cases e <;> rfl

private theorem message_moved {e : ProgramError} {line : Nat} (h : e.line? = some line) (k : Nat) :
    (e.moved k).message = located (line + k) e.reason := by
  have hline : (e.moved k).line? = some (line + k) := by simp [line?_moved, h]
  rw [message_eq_located hline, reason_moved]

end ProgramError

namespace Program

open Bytes

variable {n k depth : Nat} {defs old : List Bytes}

/-- What reading comes to behind `k` lines with the names `old`. -/
def behind (k : Nat) (old : List Bytes) :
    Except ProgramError (List Bytes) → Except ProgramError (List Bytes)
  | .ok names => .ok (old ++ names)
  | .error e => .error (e.moved k)

private theorem scan_append {ls names : List Bytes} (h : scan n depth defs ls = .ok names)
    (ms : List Bytes) : scan n depth defs (ls ++ ms) = scan (n + ls.length) 0 names.reverse ms := by
  induction ls generalizing n depth defs with
  | nil =>
    rw [scan] at h
    split_ifs at h with hdepth hdefs
    obtain rfl : depth = 0 := by simpa using hdepth
    obtain rfl : defs.reverse = names := by simpa using h
    simp
  | cons s ls ih =>
    rw [List.cons_append, scan, List.length_cons]
    rcases scan_cons_eq_ok_iff.1 h with
      ⟨hblank, hrest⟩ | ⟨hblank, defs', depth', hdefine, hdepth, hrest⟩
    · simp [hblank, ih hrest, Nat.add_assoc, Nat.add_comm 1]
    · simp [hblank, hdefine, hdepth, ih hrest, Nat.add_assoc, Nat.add_comm 1]

private theorem define_behind {l : Bytes}
    (h : ∀ e, define n depth defs l = .error e → e.ofForm = true) :
    define (n + k) depth (defs ++ old) l =
      match define n depth defs l with
      | .ok defs' => .ok (defs' ++ old)
      | .error e => .error (e.moved k) := by
  rw [define_eq] at h ⊢
  rw [define_eq]
  by_cases hl : starts l = true
  · by_cases hname : 61 ∈ l ∧ nameOf l ≠ []
    · by_cases hdepth : depth = 0
      · simp [hl, hname, hdepth]
      · simp [hl, hname, hdepth, ProgramError.moved]
    · simp [hl, hname, ProgramError.moved]
  · by_cases hdefs : defs = []
    · have hform := h (.stray n l) (by simp [hl, hdefs])
      simp [ProgramError.ofForm] at hform
    · simp [hl, hdefs]

private theorem scan_behind {ls : List Bytes} (k : Nat) (old : List Bytes)
    (h : ∀ e, scan n depth defs ls = .error e → e.ofForm = true) :
    scan (n + k) depth (defs ++ old.reverse) ls = behind k old (scan n depth defs ls) := by
  induction ls generalizing n depth defs with
  | nil =>
    by_cases hdepth : depth = 0
    · by_cases hdefs : defs = []
      · have hform := h .empty (by simp [scan, hdepth, hdefs])
        simp [ProgramError.ofForm] at hform
      · simp [scan, hdepth, hdefs, behind]
    · simp [scan, hdepth, behind, ProgramError.moved]
  | cons s ls ih =>
    rw [scan] at h ⊢
    rw [scan]
    by_cases hblank : trim s = []
    · simp only [hblank, List.isEmpty_nil, if_true] at h ⊢
      rw [Nat.add_right_comm]
      exact ih h
    · simp only [hblank, List.isEmpty_iff, if_false] at h ⊢
      have hdefine : ∀ e, define n depth defs (trim s) = .error e → e.ofForm = true := by
        intro e he
        exact h e (by simp [he])
      rw [define_behind hdefine]
      cases hdefs : define n depth defs (trim s) with
      | error e => simp [behind]
      | ok defs' =>
        cases hdepth : depthAfter depth (trim s) with
        | none => simp [behind, ProgramError.moved]
        | some depth' =>
          simp only [hdefs, hdepth] at h ⊢
          rw [Nat.add_right_comm]
          exact ih h

private theorem parse_eq_error_iff {source : Bytes} {e : ProgramError} :
    parse source = .error e ↔ scan 1 0 [] (lines source) = .error e := by
  rw [parse]
  cases scan 1 0 [] (lines source) <;> simp [Except.map]

private theorem parse_behind {s₁ : Bytes} {names : List Bytes} (h₁ : parse s₁ = .ok ⟨s₁, names⟩)
    (s₂ : Bytes) (hform : ∀ e, scan 1 0 [] (lines s₂) = .error e → e.ofForm = true) :
    parse (s₁ ++ 10 :: s₂) = (behind (lines s₁).length names (scan 1 0 [] (lines s₂))).map
      fun defs => ⟨s₁ ++ 10 :: s₂, defs⟩ := by
  have hscan := scan_append (parse_eq_ok_iff.1 h₁) (lines s₂)
  have hbehind := scan_behind (lines s₁).length names hform
  rw [List.nil_append] at hbehind
  rw [parse, lines_append_newline, hscan, hbehind]

/-- A program on the lines below another adds its definitions behind those of the first. What is
wrong with its brackets or definitions is reported for the same line as before, counted on from the
lines of the first. -/
theorem parse_append_newline {s₁ s₂ : Bytes} {p₁ : Program} (h₁ : parse s₁ = .ok p₁) :
    (∀ p₂, parse s₂ = .ok p₂ → ∃ p, parse (s₁ ++ 10 :: s₂) = .ok p ∧
      p.defs = p₁.defs ++ p₂.defs ∧ p.encode.tail = p₁.encode.tail ++ p₂.encode.tail ∧
      ∀ name, p.hasDef name = true ↔ p₁.hasDef name = true ∨ p₂.hasDef name = true) ∧
    ∀ e, e.ofForm = true → parse s₂ = .error e →
      parse (s₁ ++ 10 :: s₂) = .error (e.moved (lines s₁).length) ∧
      ∀ k, e.line? = some k → ∃ reason, e.message = ProgramError.located k reason ∧
        (e.moved (lines s₁).length).message =
          ProgramError.located (k + (lines s₁).length) reason := by
  obtain ⟨source, names⟩ := p₁
  obtain rfl : source = s₁ := source_of_parse h₁
  refine ⟨?_, ?_⟩
  · rintro ⟨source₂, names₂⟩ h₂
    obtain rfl : source₂ = s₂ := source_of_parse h₂
    have hscan := parse_eq_ok_iff.1 h₂
    have hparse := parse_behind h₁ source₂ (by simp [hscan])
    rw [hscan] at hparse
    refine ⟨_, hparse, rfl, ?_, ?_⟩
    · simp [encode]
    · intro name
      simp [hasDef]
  · intro e he h₂
    have hscan := parse_eq_error_iff.1 h₂
    have hparse := parse_behind h₁ s₂ (by simp [hscan, he])
    rw [hscan] at hparse
    refine ⟨hparse, ?_⟩
    intro k hk
    exact ⟨e.reason, ProgramError.message_eq_located hk, ProgramError.message_moved hk _⟩

/-- The second text is a program, with a blank line above it, until a bracket follows. -/
theorem parse_append_newline_loop :
    (∃ p₁ p₂, parse "@main = (a b)\n" = .ok p₁ ∧ parse "\n @loop = a" = .ok p₂) ∧
      (∃ p, parse (ofString "@main = (a b)\n" ++ 10 :: ofString "\n @loop = a") = .ok p ∧
        p.defs = [ofString "main", ofString "loop"]) ∧
      parse "\n @loop = a\n)" = .error (.unexpectedClose 3) ∧
      parse (ofString "@main = (a b)\n" ++ 10 :: ofString "\n @loop = a\n)") =
        .error (.unexpectedClose 5) := by
  have h₁ : parse "@main = (a b)\n" = .ok ⟨"@main = (a b)\n", ["main"]⟩ := by decide +kernel
  have h₂ : parse "\n @loop = a" = .ok ⟨"\n @loop = a", ["loop"]⟩ := by decide +kernel
  have h₃ : parse "\n @loop = a\n)" = .error (.unexpectedClose 3) := by decide +kernel
  have hlines : (lines "@main = (a b)\n").length = 2 := by decide +kernel
  obtain ⟨p, hp, hdefs, -⟩ := (parse_append_newline h₁).1 _ h₂
  obtain ⟨herror, -⟩ := (parse_append_newline h₁).2 _ rfl h₃
  refine ⟨⟨_, _, h₁, h₂⟩, ⟨p, hp, hdefs⟩, h₃, ?_⟩
  rw [herror, hlines]
  rfl

end Program

end Simulator

end EngineHost
