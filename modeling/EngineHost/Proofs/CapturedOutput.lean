import EngineHost.Guest.Instance
import Mathlib.Data.List.DropRight

/-!
# What is kept of the error output

Keeping the first bytes of an output as they come is the same as putting all of it together and
cutting it off. So neither the kept bytes nor the explanation of a trap depend on the pieces in
which a guest prints.
-/

namespace EngineHost

private theorem Utf8.Piece.bytes_ne_nil (p : Utf8.Piece) : p.bytes ≠ [] := by
  cases p with
  | char c => exact String.utf8EncodeChar_ne_nil
  | stray b => simp [Utf8.Piece.bytes]

private theorem Bytes.trim_eq_nil_iff {s : Bytes} :
    Bytes.trim s = [] ↔ ∀ p ∈ Utf8.pieces s, p.isBlank = true := by
  have hbytes : ∀ ps : List Utf8.Piece, ps.flatMap Utf8.Piece.bytes = [] ↔ ps = [] := by
    intro ps
    cases ps with
    | nil => simp
    | cons p ps => simp [Utf8.Piece.bytes_ne_nil]
  rw [Bytes.trim, hbytes, List.reverse_eq_nil_iff, List.dropWhile_eq_nil_iff]
  simp only [List.mem_reverse]
  constructor
  · intro h p hp
    have hsplit := List.takeWhile_append_dropWhile (p := Utf8.Piece.isBlank) (l := Utf8.pieces s)
    rw [← hsplit, List.mem_append] at hp
    rcases hp with hp | hp
    · exact List.mem_takeWhile_imp hp
    · exact h p hp
  · intro h p hp
    exact h p ((List.dropWhile_sublist _).mem hp)

namespace Guest

def Effect.printed : Effect → Bytes
  | print text => text
  | _ => []

namespace Capture

inductive Act
  | write (data : Bytes)
  | reset

def Act.isWrite : Act → Bool
  | write _ => true
  | reset => false

def Act.data : Act → Bytes
  | write data => data
  | reset => []

def act (c : Capture) : Act → Capture
  | .write data => (c.write data).2
  | .reset => c.reset

def after (limit : Nat) (acts : List Act) : Capture := acts.foldl act { limit := limit }

/-- Everything that was written since the last reset. -/
def written (acts : List Act) : Bytes := (acts.rtakeWhile Act.isWrite).flatMap Act.data

def cutOff (limit : Nat) (output : Bytes) : Capture where
  limit := limit
  text := output.take limit
  truncated := limit < output.length

private theorem write_cutOff (limit : Nat) (output data : Bytes) :
    (cutOff limit output).write data = (data.length, cutOff limit (output ++ data)) := by
  have hroom : limit - (output.take limit).length = limit - output.length := by
    rw [List.length_take]
    omega
  have hlong : (decide (limit < output.length) || decide (limit - output.length < data.length)) =
      decide (limit < (output ++ data).length) := by
    rw [← Bool.decide_or, List.length_append]
    congr 1
    apply propext
    omega
  simp only [write, cutOff, hroom, hlong, List.take_append]

private theorem reset_cutOff (limit : Nat) (output : Bytes) :
    (cutOff limit output).reset = cutOff limit [] := by
  simp [reset, cutOff]

private theorem written_append_write (acts : List Act) (data : Bytes) :
    written (acts ++ [.write data]) = written acts ++ data := by
  simp [written, List.rtakeWhile_concat, Act.isWrite, Act.data]

private theorem written_append_reset (acts : List Act) : written (acts ++ [.reset]) = [] := by
  simp [written, Act.isWrite]

/-- Keeping the first bytes as they come is cutting off all of the output. -/
theorem after_eq_cutOff (limit : Nat) (acts : List Act) :
    after limit acts = cutOff limit (written acts) := by
  induction acts using List.reverseRecOn with
  | nil => simp [after, cutOff, written]
  | append_singleton acts a ih =>
    have hstep : after limit (acts ++ [a]) = (after limit acts).act a := by simp [after]
    rw [hstep, ih]
    cases a with
    | write data => rw [act, write_cutOff, written_append_write]
    | reset => rw [act, reset_cutOff, written_append_reset]

private theorem written_append_writes (acts : List Act) (chunks : List Bytes) :
    written (acts ++ chunks.map .write) = written acts ++ chunks.flatten := by
  induction chunks using List.reverseRecOn with
  | nil => simp
  | append_singleton chunks data ih =>
    rw [List.map_append, List.map_singleton, ← List.append_assoc, written_append_write, ih]
    simp

private theorem explain_cutOff (trap : Bytes) (limit : Nat) (output : Bytes) :
    explain trap (cutOff limit output) =
      if ∀ p ∈ Utf8.pieces (output.take limit), p.isBlank = true then trap
      else trap ++ ": " ++ Bytes.trim (output.take limit) ++
        if limit < output.length then "..." else "" := by
  have htext : (cutOff limit output).text = output.take limit := rfl
  have htruncated : (cutOff limit output).truncated = decide (limit < output.length) := rfl
  simp only [explain, htext, htruncated, List.isEmpty_iff, Bytes.trim_eq_nil_iff, decide_eq_true_eq]

end Capture

variable {γ : Type} {limit : Nat} {output : Bytes}

private theorem Instance.stderr_apply {i : Instance γ} (h : i.stderr = .cutOff limit output)
    (maxLog : UInt32) (e : Effect) :
    (i.apply maxLog e).stderr = .cutOff limit (output ++ e.printed) := by
  cases e with
  | print text => simp [apply, h, Capture.write_cutOff, Effect.printed]
  | store addr data => simp [apply, h, Effect.printed]
  | replace data => simp [apply, h, Effect.printed]
  | log word => simp [apply, h, Effect.printed]

private theorem stderr_foldl_apply (maxLog : UInt32) (effects : List Effect) {i : Instance γ}
    (h : i.stderr = .cutOff limit output) :
    (effects.foldl (Instance.apply maxLog) i).stderr =
      .cutOff limit (output ++ effects.flatMap Effect.printed) := by
  induction effects generalizing i output with
  | nil => simpa using h
  | cons e effects ih =>
    rw [List.foldl_cons, List.flatMap_cons, ← List.append_assoc]
    exact ih (Instance.stderr_apply h maxLog e)

private theorem stderr_invoke (m : Machine γ) (f : Export) (args : List UInt64) {i : Instance γ}
    (h : i.stderr = .cutOff limit output) :
    (invoke m f args i).2.stderr =
      .cutOff limit (output ++ (m.run f args i.guest i.memory).effects.flatMap Effect.printed) :=
  stderr_foldl_apply m.maxLog _ h

/-- Of what is written since the last reset the first bytes are kept, and that bytes are missing is
noted exactly if there were more; a write always counts in full. In which pieces it was written
makes no difference: a call of a guest leaves what one write of all that it prints leaves. A trap is
explained by the kept bytes, unless they are white space. -/
theorem Capture.keeps_first_bytes (limit : Nat) (acts : List Act) :
    (after limit acts).text = (written acts).take limit ∧
      ((after limit acts).truncated = true ↔ limit < (written acts).length) ∧
      (∀ data, ((after limit acts).write data).1 = data.length) ∧
      (∀ chunks chunks' : List Bytes, chunks.flatten = chunks'.flatten →
        after limit (acts ++ chunks.map .write) = after limit (acts ++ chunks'.map .write)) ∧
      (∀ (m : Machine γ) f args (i : Instance γ), i.stderr = after limit acts →
        (invoke m f args i).2.stderr = after limit (acts ++
          [.write ((m.run f args i.guest i.memory).effects.flatMap Effect.printed)])) ∧
      ∀ trap, explain trap (after limit acts) =
        if ∀ p ∈ Utf8.pieces ((written acts).take limit), p.isBlank = true then trap
        else trap ++ ": " ++ Bytes.trim ((written acts).take limit) ++
          if limit < (written acts).length then "..." else "" := by
  simp only [after_eq_cutOff, written_append_writes, written_append_write]
  refine ⟨rfl, decide_eq_true_iff, ?_, ?_, ?_, ?_⟩
  · intro data
    rw [write_cutOff]
  · intro chunks chunks' h
    rw [h]
  · intro m f args i h
    exact stderr_invoke m f args h
  · intro trap
    exact explain_cutOff trap limit (written acts)

/-- A guest that prints in pieces before it traps. -/
def stammering : Machine Unit where
  run _ _ state _ :=
    { effects := [.print "12345", .print "", .print "6789X"], outcome := .error "boom", state }

/-- The last byte that the guest prints is one too many; what was printed before the reset is
gone. -/
theorem Capture.keeps_first_bytes_stammering :
    let acts := [.write "gone", .reset, .write " "]
    let i : Instance Unit := { guest := (), memory := .ofBytes [], stderr := after 10 acts }
    (invoke stammering .bookParse [] i).2.stderr = after 10 (acts ++ [.write "123456789X"]) ∧
      after 10 (acts ++ [.write "123456789X"]) =
        after 10 (acts ++ [.write "1234", .write "56789X"]) ∧
      (after 10 (acts ++ [.write "123456789X"])).text = " 123456789" ∧
      (after 10 (acts ++ [.write "123456789X"])).truncated = true ∧
      explain "boom" (after 10 (acts ++ [.write "123456789X"])) = "boom: 123456789..." := by
  intro acts i
  have hwritten : written (acts ++ [.write "123456789X"]) = " 123456789X" := by decide +kernel
  have hchunks : [Bytes.ofString "123456789X"].flatten =
      [Bytes.ofString "1234", Bytes.ofString "56789X"].flatten := by decide +kernel
  have hprinted : (stammering.run .bookParse [] () (.ofBytes [])).effects.flatMap Effect.printed =
      "123456789X" := by decide +kernel
  obtain ⟨-, -, -, hsplit, hcall, -⟩ := @keeps_first_bytes Unit 10 acts
  obtain ⟨htext, htruncated, -, -, -, hexplain⟩ := @keeps_first_bytes Unit 10
    (acts ++ [.write "123456789X"])
  rw [hwritten] at htext htruncated hexplain
  refine ⟨?_, hsplit _ _ hchunks, ?_, htruncated.2 (by decide +kernel), ?_⟩
  · have hstderr := hcall stammering .bookParse [] i rfl
    rwa [hprinted] at hstderr
  · rw [htext]
    decide +kernel
  · rw [hexplain]
    decide +kernel

end Guest

end EngineHost
