import EngineHost.Log.Forward
import EngineHost.Proofs.DurationText
import EngineHost.Proofs.FloatText
import EngineHost.Proofs.InstantText

/-!
# Restored attributes

An attribute comes with the name of its type and the text of its value. `Denotes` says which typed
value the two stand for, and an attribute that stands for none keeps its text. Integers and
durations come back from their own texts.
-/

namespace EngineHost.Log

open Bytes (SignedNumeral)

def truthWords : Bool → List Bytes
  | true => ["1", "t", "T", "true", "True", "TRUE"]
  | false => ["0", "f", "F", "false", "False", "FALSE"]

/-- The typed value that a type and a text stand for, by the form of the text. -/
inductive Denotes (a : WireAttr) : AttrValue → Prop
  | int64 {n : Int64} (htype : a.type = "int64") (h : SignedNumeral a.value n.toInt) :
    Denotes a (.int64 n)
  | uint64 {n : UInt64} (htype : a.type = "uint64") (hdigits : a.value.Numeral)
    (h : a.value.decimal = n.toNat) : Denotes a (.uint64 n)
  | bool {b : Bool} (htype : a.type = "bool") (h : a.value ∈ truthWords b) : Denotes a (.bool b)
  | float64 {x : Binary64} (htype : a.type = "float64") (h : Literal.Spells a.value x) :
    Denotes a (.float64 x)
  | time {t : Instant} (htype : a.type = "time") (h : Instant.Spelled a.value t) :
    Denotes a (.ofInstant t)
  | duration {d : Duration} (htype : a.type = "duration") (h : Duration.Spelled a.value d) :
    Denotes a (.duration d)

/-- The attribute that a guest's attribute is restored to: its typed value, or else its text. -/
inductive Restores (a : WireAttr) : Attr → Prop
  | typed {v : AttrValue} (h : Denotes a v) : Restores a ⟨a.key, v⟩
  | verbatim (h : ∀ v, ¬Denotes a v) : Restores a ⟨a.key, .string a.value⟩

variable {a : WireAttr} {v : AttrValue} {b : Attr}

/-! ## Each type has its own reader -/

private theorem typedValue?_int64 (h : a.type = "int64") :
    typedValue? a = (Literal.int64? a.value).map .int64 :=
  if_pos h

private theorem typedValue?_uint64 (h : a.type = "uint64") :
    typedValue? a = (Literal.uint64? a.value).map .uint64 := by
  rw [typedValue?, h]
  rfl

private theorem typedValue?_bool (h : a.type = "bool") :
    typedValue? a = (Literal.bool? a.value).map .bool := by
  rw [typedValue?, h]
  rfl

private theorem typedValue?_float64 (h : a.type = "float64") :
    typedValue? a = (Literal.float? a.value).map .float64 := by
  rw [typedValue?, h]
  rfl

private theorem typedValue?_time (h : a.type = "time") :
    typedValue? a = (Instant.parse? Instant.standard a.value).map .ofInstant := by
  rw [typedValue?, h]
  rfl

private theorem typedValue?_duration (h : a.type = "duration") :
    typedValue? a = (Duration.parse? a.value).map .duration := by
  rw [typedValue?, h]
  rfl

private theorem bool?_eq_some_iff {s : Bytes} {b : Bool} :
    Literal.bool? s = some b ↔ s ∈ truthWords b := by
  constructor
  · intro h
    rw [Literal.bool?] at h
    split_ifs at h with hyes hno
    · cases h
      exact List.contains_iff_mem.1 hyes
    · cases h
      exact List.contains_iff_mem.1 hno
  · intro h
    have hwords : (truthWords b).all (fun w => Literal.bool? w == some b) = true := by
      cases b <;> decide
    exact eq_of_beq (List.all_eq_true.1 hwords s h)

private theorem float?_eq_some_iff {s : Bytes} {x : Binary64} :
    Literal.float? s = some x ↔ Literal.Spells s x := by
  rw [← Literal.float_eq_ok_iff, Literal.float?]
  cases Literal.float s <;> simp [Except.toOption]

private theorem typedValue?_of_denotes (h : Denotes a v) : typedValue? a = some v := by
  cases h with
  | int64 htype h =>
    rw [typedValue?_int64 htype, Literal.int64?_eq_some_iff_toInt.2 h, Option.map_some]
  | uint64 htype hdigits h =>
    rw [typedValue?_uint64 htype, Literal.uint64?_eq_some_iff.2 ⟨hdigits, h⟩, Option.map_some]
  | bool htype h => rw [typedValue?_bool htype, bool?_eq_some_iff.2 h, Option.map_some]
  | float64 htype h => rw [typedValue?_float64 htype, float?_eq_some_iff.2 h, Option.map_some]
  | time htype h => rw [typedValue?_time htype, Instant.parse?_standard_iff.2 h, Option.map_some]
  | duration htype h =>
    rw [typedValue?_duration htype, Duration.parse?_eq_some_iff.2 h, Option.map_some]

private theorem denotes_of_typedValue? (h : typedValue? a = some v) : Denotes a v := by
  rw [typedValue?] at h
  split_ifs at h with hint huint hbool hfloat htime hduration
  · obtain ⟨n, hn, rfl⟩ := Option.map_eq_some_iff.1 h
    exact .int64 hint (Literal.int64?_eq_some_iff_toInt.1 hn)
  · obtain ⟨n, hn, rfl⟩ := Option.map_eq_some_iff.1 h
    obtain ⟨hdigits, hvalue⟩ := Literal.uint64?_eq_some_iff.1 hn
    exact .uint64 huint hdigits hvalue
  · obtain ⟨b, hb, rfl⟩ := Option.map_eq_some_iff.1 h
    exact .bool hbool (bool?_eq_some_iff.1 hb)
  · obtain ⟨x, hx, rfl⟩ := Option.map_eq_some_iff.1 h
    exact .float64 hfloat (float?_eq_some_iff.1 hx)
  · obtain ⟨t, ht, rfl⟩ := Option.map_eq_some_iff.1 h
    exact .time htime (Instant.parse?_standard_iff.1 ht)
  · obtain ⟨d, hd, rfl⟩ := Option.map_eq_some_iff.1 h
    exact .duration hduration (Duration.parse?_eq_some_iff.1 hd)

private theorem typedValue?_eq_some_iff : typedValue? a = some v ↔ Denotes a v :=
  ⟨denotes_of_typedValue?, typedValue?_of_denotes⟩

private theorem typedValue?_eq_none_iff : typedValue? a = none ↔ ∀ v, ¬Denotes a v := by
  simp only [Option.eq_none_iff_forall_ne_some, ne_eq, typedValue?_eq_some_iff]

theorem restores_iff : Restores a b ↔ b = attrOfWire a := by
  constructor
  · intro h
    cases h with
    | typed h => rw [attrOfWire, typedValue?_of_denotes h, Option.getD_some]
    | verbatim h => rw [attrOfWire, typedValue?_eq_none_iff.2 h, Option.getD_none]
  · rintro rfl
    rw [attrOfWire]
    cases hread : typedValue? a with
    | none => exact .verbatim (typedValue?_eq_none_iff.1 hread)
    | some v => exact .typed (denotes_of_typedValue? hread)

/-! ## Integers and durations -/

private theorem attrOfWire_eq_typed_iff (hv : v ≠ .string a.value) :
    attrOfWire a = ⟨a.key, v⟩ ↔ Denotes a v := by
  rw [← typedValue?_eq_some_iff, attrOfWire]
  cases typedValue? a <;> simp [Ne.symm hv]

/-- No type stands for a text, so an attribute is a text only when it stands for no value. -/
theorem attrOfWire_eq_string_iff :
    attrOfWire a = ⟨a.key, .string a.value⟩ ↔ ¬∃ v, Denotes a v := by
  constructor
  · rintro h ⟨v, hv⟩
    have hstring : v = .string a.value := by
      rw [attrOfWire, typedValue?_of_denotes hv] at h
      exact congrArg Attr.value h
    subst hstring
    cases hv
  · intro h
    exact (restores_iff.1 (.verbatim fun v hv => h ⟨v, hv⟩)).symm

private theorem denotes_int64_iff {n : Int64} (htype : a.type = "int64") :
    Denotes a (.int64 n) ↔ SignedNumeral a.value n.toInt := by
  constructor
  · intro h
    cases h
    assumption
  · exact .int64 htype

private theorem denotes_uint64_iff {n : UInt64} (htype : a.type = "uint64") :
    Denotes a (.uint64 n) ↔ a.value.Numeral ∧ a.value.decimal = n.toNat := by
  constructor
  · intro h
    cases h
    exact ⟨‹_›, ‹_›⟩
  · rintro ⟨hdigits, h⟩
    exact .uint64 htype hdigits h

private theorem exists_denotes_int64_iff (htype : a.type = "int64") :
    (∃ v, Denotes a v) ↔ ∃ n : Int, SignedNumeral a.value n ∧ -2 ^ 63 ≤ n ∧ n < 2 ^ 63 := by
  constructor
  · rintro ⟨v, hv⟩
    have hread := typedValue?_of_denotes hv
    rw [typedValue?_int64 htype] at hread
    obtain ⟨n, hn, -⟩ := Option.map_eq_some_iff.1 hread
    exact ⟨n.toInt, Literal.int64?_eq_some_iff_toInt.1 hn, n.le_toInt, n.toInt_lt⟩
  · rintro ⟨n, hn, hlow, hhigh⟩
    rw [← Int64.toInt_ofInt_of_le hlow hhigh] at hn
    exact ⟨_, .int64 htype hn⟩

private theorem exists_denotes_uint64_iff (htype : a.type = "uint64") :
    (∃ v, Denotes a v) ↔ a.value.Numeral ∧ a.value.decimal < 2 ^ 64 := by
  constructor
  · rintro ⟨v, hv⟩
    have hread := typedValue?_of_denotes hv
    rw [typedValue?_uint64 htype] at hread
    obtain ⟨n, hn, -⟩ := Option.map_eq_some_iff.1 hread
    obtain ⟨hdigits, h⟩ := Literal.uint64?_eq_some_iff.1 hn
    exact ⟨hdigits, h ▸ n.toNat_lt⟩
  · rintro ⟨hdigits, h⟩
    exact ⟨_, .uint64 htype hdigits (UInt64.toNat_ofNat_of_lt h).symm⟩

/-- An integer comes back from its decimal text. Of all texts, the numerals of the integers in the
type's range are read, each as its integer, and every other text is kept as it is. -/
theorem integers_restored (key : Bytes) :
    (∀ n : Int64, attrOfWire ⟨key, "int64", Bytes.ofInt n.toInt⟩ = ⟨key, .int64 n⟩) ∧
    (∀ n : UInt64, attrOfWire ⟨key, "uint64", Bytes.ofNat n.toNat⟩ = ⟨key, .uint64 n⟩) ∧
    (∀ value n, attrOfWire ⟨key, "int64", value⟩ = ⟨key, .int64 n⟩ ↔
      SignedNumeral value n.toInt) ∧
    (∀ value, attrOfWire ⟨key, "int64", value⟩ = ⟨key, .string value⟩ ↔
      ¬∃ n : Int, SignedNumeral value n ∧ -2 ^ 63 ≤ n ∧ n < 2 ^ 63) ∧
    (∀ value n, attrOfWire ⟨key, "uint64", value⟩ = ⟨key, .uint64 n⟩ ↔
      value.Numeral ∧ value.decimal = n.toNat) ∧
    ∀ value, attrOfWire ⟨key, "uint64", value⟩ = ⟨key, .string value⟩ ↔
      ¬(value.Numeral ∧ value.decimal < 2 ^ 64) := by
  have hsigned (value : Bytes) (n : Int64) :
      attrOfWire ⟨key, "int64", value⟩ = ⟨key, .int64 n⟩ ↔ SignedNumeral value n.toInt :=
    (attrOfWire_eq_typed_iff (by simp)).trans (denotes_int64_iff rfl)
  have hunsigned (value : Bytes) (n : UInt64) :
      attrOfWire ⟨key, "uint64", value⟩ = ⟨key, .uint64 n⟩ ↔
        value.Numeral ∧ value.decimal = n.toNat :=
    (attrOfWire_eq_typed_iff (by simp)).trans (denotes_uint64_iff rfl)
  refine ⟨fun n => ?_, fun n => ?_, hsigned, fun value => ?_, hunsigned, fun value => ?_⟩
  · exact (hsigned _ n).2 (Bytes.signedNumeral_ofInt n.toInt)
  · exact (hunsigned _ n).2 ⟨Bytes.numeral_ofNat n.toNat, Bytes.decimal_ofNat n.toNat⟩
  · exact attrOfWire_eq_string_iff.trans (not_congr (exists_denotes_int64_iff rfl))
  · exact attrOfWire_eq_string_iff.trans (not_congr (exists_denotes_uint64_iff rfl))

/-- A duration comes back from its text. -/
theorem duration_restored (key : Bytes) (d : Duration) :
    attrOfWire ⟨key, "duration", d.text⟩ = ⟨key, .duration d⟩ :=
  (attrOfWire_eq_typed_iff (by simp)).2 (.duration rfl (Duration.spelled_text d))

end EngineHost.Log
