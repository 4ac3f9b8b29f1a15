import EngineHost.Cli.Output
import EngineHost.Fault
import EngineHost.Proofs.FilledProgram
import EngineHost.Proofs.JsonReadBack

/-!
# What is printed

The bytes of results and errors, in both formats. A result is its text or its document on a line; an
error tells the kind and the text of a fault, and the run that it belongs to.
-/

namespace EngineHost

open Utf8

namespace Json

/-- The bytes of which the names of members are made. -/
def isPlain (b : UInt8) : Bool := Bytes.isDigit b || 97 ≤ b && b ≤ 122 || b == 95

private theorem plain_byte {b : UInt8} :
    isPlain b = true → encode (Char.ofNat b.toNat) = [b] ∧ escapeChar (Char.ofNat b.toNat) = [b] :=
  Bytes.forall_byte (P := fun b => isPlain b = true →
    encode (Char.ofNat b.toNat) = [b] ∧ escapeChar (Char.ofNat b.toNat) = [b]) (by decide +kernel) b

private theorem spelled_plain {s : Bytes} (h : s.all isPlain = true) : spelled s = s := by
  induction s with
  | nil => rfl
  | cons b s ih =>
    rw [List.all_cons, Bool.and_eq_true] at h
    obtain ⟨hencode, hescape⟩ := plain_byte h.1
    have hpieces := pieces_encode_append (Char.ofNat b.toNat) s
    rw [hencode, List.singleton_append] at hpieces
    calc spelled (b :: s)
        = escapeChar (Char.ofNat b.toNat) ++ spelled s := by
          rw [spelled, chars, hpieces]
          rfl
      _ = b :: s := by
          rw [hescape, ih h.2]
          rfl

theorem quote_plain {s : Bytes} (h : s.all isPlain = true) : quote s = 34 :: (s ++ [34]) := by
  rw [quote_eq, spelled_plain h]

private theorem objectOfParts_ok (front members : List (Bytes × Json)) :
    objectOfParts front (members.map fun m => (m.1, .ok m.2)) =
      .ok (.object (front.reverse ++ members)) := by
  induction members generalizing front with
  | nil => rw [List.map_nil, objectOfParts, List.append_nil]
  | cons m members ih =>
    rw [List.map_cons, objectOfParts, ih, List.reverse_cons, List.append_assoc]
    rfl

private theorem objectAround_ok (front : List (Option (Bytes × Json))) (name : String) (j : Json)
    (back : List (Option (Bytes × Json))) :
    objectAround front name (.ok j) back = .ok (objectOf (front ++ member name j :: back)) := by
  have hparts := objectOfParts_ok [] (front.filterMap id ++ (Bytes.ofString name, j) ::
    back.filterMap id)
  rw [List.map_append, List.map_cons] at hparts
  rw [objectAround, hparts, objectOf, List.filterMap_append]
  rfl

theorem render_objectOf (members : List (Option (Bytes × Json))) : render (objectOf members) =
    123 :: (Bytes.join [44] ((members.filterMap id).map fun m => quote m.1 ++ 58 :: render m.2) ++
      [125]) :=
  render_object _

end Json

namespace Cli.Format

open Json

variable {f : Format}

theorem out_success {p : Payload} {w : Written} (h : f.success p = .ok w) :
    (f.json = false → w.out = p.text ++ "\n") ∧
    ∀ data, f.json = true → p.json = some data →
      ∃ j, data = .ok j ∧ w.out = "\x7b\"status\":\"ok\",\"data\":" ++ j.render ++ "\x7d\n" := by
  unfold success at h
  refine ⟨fun hjson => ?_, fun data hjson hdata => ?_⟩
  · rw [hjson] at h
    rw [← Except.ok.inj h]
  · simp only [hjson, if_true, hdata] at h
    cases data with
    | error u => cases h
    | ok j =>
      rw [objectAround_ok] at h
      refine ⟨j, rfl, ?_⟩
      rw [← Except.ok.inj h]
      have hwords : quote "status" = 34 :: (Bytes.ofString "status" ++ [34]) ∧
          quote "ok" = 34 :: (Bytes.ofString "ok" ++ [34]) ∧
          quote "data" = 34 :: (Bytes.ofString "data" ++ [34]) := by
        refine ⟨?_, ?_, ?_⟩ <;> exact quote_plain (by decide)
      simp only [document, render_objectOf, member, id, List.filterMap_cons, List.filterMap_nil,
        List.map_cons, List.map_nil, Bytes.join, render, hwords, List.cons_append, List.nil_append,
        List.append_assoc]
      rfl

/-- The response to a failure. The text shows the identifier of the run only when details are asked
for. -/
def response (f : Format) (runId : Option Bytes) (d : Detail) : Bytes :=
  if f.json then
    "\x7b\"status\":\"error\",\"error\":\x7b\"code\":\"" ++ d.kind ++ "\",\"message\":" ++
      quote d.message ++
      (match runId with
        | none => []
        | some run => ",\"details\":\x7b\"run_id\":" ++ quote run ++ "\x7d") ++ "\x7d\x7d\n"
  else
    "Error [" ++ d.kind ++ "]: " ++ d.message ++ "\n" ++
      match runId with
      | none => []
      | some run => if f.verbose then "Details: map[run_id:" ++ run ++ "]\n" else []

theorem error_response (f : Format) (runId : Option Bytes) {d : Detail}
    (hkind : d.kind.all isPlain = true) :
    f.error d.kind d.message (runId.map fun run => .map [("run_id", .string run)]) =
      .ok { out := f.response runId d } := by
  unfold error response
  cases f.json with
  | false =>
    cases runId with
    | none => simp
    | some run =>
      cases f.verbose with
      | false => simp
      | true =>
        simp only [Option.map_some, Value.display, Value.displayEntries, Bytes.join, if_true,
          Bool.false_eq_true, if_false, List.append_assoc]
        rfl
  | true =>
    have hwords : quote "status" = 34 :: (Bytes.ofString "status" ++ [34]) ∧
        quote "error" = 34 :: (Bytes.ofString "error" ++ [34]) ∧
        quote "code" = 34 :: (Bytes.ofString "code" ++ [34]) ∧
        quote "message" = 34 :: (Bytes.ofString "message" ++ [34]) ∧
        quote "details" = 34 :: (Bytes.ofString "details" ++ [34]) := by
      refine ⟨?_, ?_, ?_, ?_, ?_⟩ <;> exact quote_plain (by decide)
    cases runId <;>
      simp only [if_true, Option.map_none, Option.map_some, ofValue, ofEntries, objectOfParts,
        List.reverse_singleton, objectAround_ok, Except.map, document, render_objectOf, member, id,
        List.filterMap_cons, List.filterMap_nil, List.map_cons, List.map_nil, Bytes.join, render,
        hwords, quote_plain hkind, List.cons_append, List.nil_append, List.append_assoc] <;>
      rfl

end Cli.Format

end EngineHost
