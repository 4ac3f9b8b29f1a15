import EngineHost.Simulator.Program
import Mathlib.Data.List.Flatten

/-!
# Reading encoded names

An encoding has one byte for the number of names and one for the length of each, and both wrap
without notice. A reader that trusts these bytes gives the names back exactly if they fit.
-/

namespace EngineHost.Simulator.Program

variable {s rest name : Bytes} {names : List Bytes}

def takeName? : Bytes → Option (Bytes × Bytes)
  | [] => none
  | size :: s => if s.length < size.toNat then none else some (s.take size.toNat, s.drop size.toNat)

def takeNames? : (count : Nat) → Bytes → Option (List Bytes × Bytes)
  | 0, s => some ([], s)
  | count + 1, s =>
    (takeName? s).bind fun (name, s) =>
      (takeNames? count s).map fun (names, s) => (name :: names, s)

/-- Reads as many names as the first byte says; nothing may be left behind them. -/
def decode? : Bytes → Option (List Bytes)
  | [] => none
  | count :: s =>
    match takeNames? count.toNat s with
    | some (names, []) => some names
    | _ => none

/-- Names whose number and lengths fit in a byte. -/
structure Short (names : List Bytes) : Prop where
  count : names.length ≤ 255
  sizes : ∀ name ∈ names, name.length ≤ 255

private theorem toNat_ofNat_of_le {n : Nat} (h : n ≤ 255) : (UInt8.ofNat n).toNat = n := by
  rw [UInt8.toNat_ofNat']
  exact Nat.mod_eq_of_lt (by omega)

private theorem takeName?_encodeName (h : name.length ≤ 255) (rest : Bytes) :
    takeName? (encodeName name ++ rest) = some (name, rest) := by
  simp [encodeName, takeName?, toNat_ofNat_of_le h]

private theorem takeName?_eq_some_iff :
    takeName? s = some (name, rest) ↔ name.length ≤ 255 ∧ s = encodeName name ++ rest := by
  constructor
  · intro h
    cases s with
    | nil => simp [takeName?] at h
    | cons size s =>
      have hsize : size.toNat ≤ 255 := Nat.le_of_lt_succ size.toNat_lt
      by_cases hlength : s.length < size.toNat
      · simp [takeName?, hlength] at h
      · obtain ⟨rfl, rfl⟩ : s.take size.toNat = name ∧ s.drop size.toNat = rest := by
          simpa [takeName?, hlength] using h
        have htake : (s.take size.toNat).length = size.toNat := by
          rw [List.length_take]
          omega
        refine ⟨by omega, ?_⟩
        rw [encodeName, htake, UInt8.ofNat_toNat, List.cons_append, List.take_append_drop]
  · rintro ⟨hname, rfl⟩
    exact takeName?_encodeName hname rest

private theorem takeNames?_succ_eq_some_iff {count : Nat} :
    takeNames? (count + 1) s = some (names, rest) ↔
      ∃ name names' s', takeName? s = some (name, s') ∧
        takeNames? count s' = some (names', rest) ∧ names = name :: names' := by
  simp only [takeNames?, Option.bind_eq_some_iff, Option.map_eq_some_iff, Prod.exists,
    Prod.mk.injEq]
  constructor
  · rintro ⟨name, s', hname, names', rest', hnames, rfl, rfl⟩
    exact ⟨name, names', s', hname, hnames, rfl⟩
  · rintro ⟨name, names', s', hname, hnames, rfl⟩
    exact ⟨name, s', hname, names', rest, hnames, rfl, rfl⟩

private theorem takeNames?_eq_some_iff {count : Nat} :
    takeNames? count s = some (names, rest) ↔
      names.length = count ∧ (∀ name ∈ names, name.length ≤ 255) ∧
        s = names.flatMap encodeName ++ rest := by
  induction count generalizing s names with
  | zero =>
    constructor
    · intro h
      obtain ⟨rfl, rfl⟩ : [] = names ∧ s = rest := by simpa [takeNames?] using h
      simp
    · rintro ⟨hcount, -, rfl⟩
      obtain rfl : names = [] := List.length_eq_zero_iff.1 hcount
      rfl
  | succ count ih =>
    rw [takeNames?_succ_eq_some_iff]
    constructor
    · rintro ⟨name, names', s', hname, hnames, rfl⟩
      obtain ⟨hsize, rfl⟩ := takeName?_eq_some_iff.1 hname
      obtain ⟨hcount, hsizes, rfl⟩ := ih.1 hnames
      exact ⟨by simp [hcount], List.forall_mem_cons.2 ⟨hsize, hsizes⟩, by simp⟩
    · rintro ⟨hcount, hsizes, rfl⟩
      obtain ⟨name, names', rfl⟩ := List.exists_cons_of_length_eq_add_one hcount
      rw [List.forall_mem_cons] at hsizes
      refine ⟨name, names', names'.flatMap encodeName ++ rest, ?_, ?_, rfl⟩
      · rw [takeName?_eq_some_iff]
        exact ⟨hsizes.1, by simp⟩
      · exact ih.2 ⟨by simpa using hcount, hsizes.2, rfl⟩

private theorem decode?_cons_eq_some_iff {count : UInt8} :
    decode? (count :: s) = some names ↔ takeNames? count.toNat s = some (names, []) := by
  rw [decode?]
  split
  · rename_i names' h
    simp [h]
  · rename_i h
    constructor
    · simp
    · intro hnames
      exact absurd hnames (h names)

private theorem decode?_eq_some_iff :
    decode? s = some names ↔
      Short names ∧ s = UInt8.ofNat names.length :: names.flatMap encodeName := by
  cases s with
  | nil => simp [decode?]
  | cons count s =>
    rw [decode?_cons_eq_some_iff, takeNames?_eq_some_iff, List.append_nil]
    constructor
    · rintro ⟨hcount, hsizes, rfl⟩
      have hle : count.toNat ≤ 255 := Nat.le_of_lt_succ count.toNat_lt
      refine ⟨⟨by omega, hsizes⟩, ?_⟩
      rw [hcount, UInt8.ofNat_toNat]
    · rintro ⟨hshort, heq⟩
      obtain ⟨rfl, rfl⟩ := List.cons.inj heq
      exact ⟨(toNat_ofNat_of_le hshort.count).symm, hshort.sizes, rfl⟩

private theorem decode?_eq_defs_iff (p : Program) :
    decode? p.encode = some p.defs ↔ Short p.defs := by
  rw [decode?_eq_some_iff]
  exact and_iff_left rfl

private theorem length_encode (p : Program) :
    p.encode.length = 1 + (p.defs.map fun name => 1 + name.length).sum := by
  simp [encode, List.length_flatMap, encodeName, Nat.add_comm]

/-- The length of an encoding is that of its names, with a byte in front of each and one in front of
all. Reading it gives the names back exactly if their number and lengths fit in these bytes, and
within these limits programs with the same encoding define the same names. -/
theorem decode?_encode_iff (p q : Program) :
    p.encode.length = 1 + (p.defs.map fun name => 1 + name.length).sum ∧
      (decode? p.encode = some p.defs ↔
        p.defs.length ≤ 255 ∧ ∀ name ∈ p.defs, name.length ≤ 255) ∧
      (Short p.defs → Short q.defs → (p.encode = q.encode ↔ p.defs = q.defs)) := by
  refine ⟨length_encode p, ?_, ?_⟩
  · rw [decode?_eq_defs_iff]
    exact ⟨fun h => ⟨h.count, h.sizes⟩, fun h => ⟨h.1, h.2⟩⟩
  · intro hp hq
    constructor
    · intro h
      have hread : some p.defs = some q.defs := by
        rw [← (decode?_eq_defs_iff p).2 hp, ← (decode?_eq_defs_iff q).2 hq, h]
      exact Option.some.inj hread
    · intro h
      rw [encode, encode, h]

/-- Programs with different texts, and a name that is as long as a byte can say. -/
theorem decode?_encode_iff_long_name :
    (encode ⟨"@a = 1", [List.replicate 255 97, "b"]⟩).length = 259 ∧
      decode? (encode ⟨"@a = 1", [List.replicate 255 97, "b"]⟩) =
        some [List.replicate 255 97, Bytes.ofString "b"] ∧
      encode ⟨"@a = 1", [List.replicate 255 97, "b"]⟩ =
        encode ⟨"@b = 2", [List.replicate 255 97, "b"]⟩ := by
  have hshort : Short [List.replicate 255 97, "b"] := ⟨by decide, by decide +kernel⟩
  have hsum : ([List.replicate 255 97, Bytes.ofString "b"].map fun name =>
      1 + name.length).sum = 258 := by
    decide +kernel
  obtain ⟨hlength, hread, hsame⟩ := decode?_encode_iff
    ⟨"@a = 1", [List.replicate 255 97, "b"]⟩ ⟨"@b = 2", [List.replicate 255 97, "b"]⟩
  refine ⟨?_, hread.2 ⟨hshort.count, hshort.sizes⟩, (hsame hshort hshort).2 rfl⟩
  rw [hlength, hsum]

-- Beyond the limits different names can have one encoding.
example : encode ⟨[], [List.replicate 256 0]⟩ = encode ⟨[], List.replicate 257 []⟩ := by
  decide +kernel

end EngineHost.Simulator.Program
