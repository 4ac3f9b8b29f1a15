import EngineHost.Proofs.Dictionary
import EngineHost.Proofs.SignedNumeral

/-!
# Parameters from pairs

Reading pairs one list behind the other is merging what the lists give. A list is refused for its
first malformed pair, and otherwise a key has the value of its last pair.
-/

namespace EngineHost

private theorem Bytes.cut_eq_some_iff {sep : UInt8} {s before after : Bytes} :
    Bytes.cut sep s = some (before, after) ↔ s = before ++ sep :: after ∧ sep ∉ before := by
  induction s generalizing before with
  | nil => simp [Bytes.cut]
  | cons b s ih =>
    rw [Bytes.cut]
    by_cases hb : b = sep
    · subst hb
      cases before with
      | nil => simp [eq_comm]
      | cons b' before => simp +contextual
    · cases before with
      | nil => simp [hb]
      | cons b' before =>
        have hstep : ((Bytes.cut sep s).map fun p => (b :: p.1, p.2)) = some (b' :: before, after) ↔
            b = b' ∧ Bytes.cut sep s = some (before, after) := by
          cases Bytes.cut sep s with
          | none => simp
          | some p =>
            simp only [Option.map_some, Option.some.injEq, List.cons.injEq, Prod.ext_iff]
            tauto
        rw [if_neg hb]
        refine hstep.trans ?_
        rw [ih]
        simp only [List.cons_append, List.cons.injEq, List.mem_cons, not_or]
        constructor
        · rintro ⟨rfl, rfl, hsep⟩
          exact ⟨⟨rfl, rfl⟩, Ne.symm hb, hsep⟩
        · rintro ⟨⟨rfl, rfl⟩, -, hsep⟩
          exact ⟨rfl, rfl, hsep⟩

private theorem Bytes.cut_eq_none_iff {sep : UInt8} {s : Bytes} :
    Bytes.cut sep s = none ↔ sep ∉ s := by
  induction s with
  | nil => simp [Bytes.cut]
  | cons b s ih =>
    by_cases hb : b = sep
    · simp [Bytes.cut, hb]
    · simp [Bytes.cut, hb, ih, Ne.symm hb]

namespace Dict

variable {α : Type u} {base : Dict α} {entries : List (Bytes × α)} {key : Bytes} {v : α}

private theorem Increasing.foldl_insert_eq_merge (h : base.Increasing)
    (entries : List (Bytes × α)) :
    entries.foldl (fun d e => Dict.insert d e.1 e.2) base = merge base (ofList entries) := by
  have hentries := increasing_ofList entries
  refine (increasing_foldl_insert entries h).ext (increasing_foldl_insert _ h) fun key => ?_
  rw [get?_foldl_insert, get?_merge hentries, get?_ofList]

private theorem lastValue?_eq_none_iff :
    lastValue? entries key = none ↔ ∀ e ∈ entries, e.1 ≠ key := by
  simp [lastValue?, get?]

private theorem lastValue?_eq_some_iff : lastValue? entries key = some v ↔
    ∃ before after, entries = before ++ (key, v) :: after ∧ ∀ e ∈ after, e.1 ≠ key := by
  induction entries with
  | nil => simp [lastValue?]
  | cons e entries ih =>
    rw [lastValue?_cons, Option.or_eq_some_iff, ih, lastValue?_eq_none_iff]
    constructor
    · rintro (⟨before, after, rfl, hafter⟩ | ⟨hnone, hfirst⟩)
      · exact ⟨e :: before, after, rfl, hafter⟩
      · obtain ⟨rfl, rfl⟩ : e.1 = key ∧ e.2 = v := by simpa using hfirst
        exact ⟨[], entries, rfl, hnone⟩
    · rintro ⟨before, after, heq, hafter⟩
      cases before with
      | nil =>
        obtain ⟨rfl, rfl⟩ := List.cons.inj heq
        exact .inr ⟨hafter, by simp⟩
      | cons e' before =>
        obtain ⟨rfl, rfl⟩ := List.cons.inj heq
        exact .inl ⟨before, after, rfl, hafter⟩

end Dict

namespace Params

open Bytes (SignedNumeral trim)

variable {pair key text : Bytes} {pairs : List Bytes} {acc params : Params} {v : Value}

/-! ## Pairs -/

/-- A pair, with what stands in front of its first equals sign and behind it. -/
structure Split (pair key value : Bytes) : Prop where
  eq : pair = key ++ 61 :: value
  first : 61 ∉ key

/-- A text without an equals sign, or with a blank key in front of the first one. -/
def Malformed (pair : Bytes) : Prop :=
  61 ∉ pair ∨ ∃ key value, Split pair key value ∧ trim key = []

/-- What a text is stored as: the integer of its numeral, as far as that is in the 64-bit range, and
otherwise the text with the blanks around it. -/
def Stored (text : Bytes) (v : Value) : Prop :=
  (∃ n, SignedNumeral (trim text) n ∧ -(2 ^ 63) ≤ n ∧ n < 2 ^ 63 ∧ v = .int (Int64.ofInt n)) ∨
    (¬∃ n, SignedNumeral (trim text) n ∧ -(2 ^ 63) ≤ n ∧ n < 2 ^ 63) ∧ v = .string text

/-- The value of the last pair whose key reads like this without the blanks around it. -/
def LastText (pairs : List Bytes) (key text : Bytes) : Prop :=
  ∃ before pair after written, pairs = before ++ pair :: after ∧ Split pair written text ∧
    trim written = key ∧ ∀ later ∈ after, ∀ written' text', Split later written' text' →
      trim written' ≠ key

def refusal (pair : Bytes) : Fault :=
  .config "params" (some (.plain ("expected key=value, got " ++ Quoted.text pair)))

private theorem stored_iff : Stored text v ↔ pairValue text = v := by
  simp only [Stored, pairValue]
  cases hread : Literal.int64? (trim text) with
  | none =>
    have hno : ¬∃ n, SignedNumeral (trim text) n ∧ -(2 ^ 63) ≤ n ∧ n < 2 ^ 63 := by
      rintro ⟨n, hn, hleast, hgreatest⟩
      rw [Literal.int64?_eq_some_iff.2 ⟨n, hn, hleast, hgreatest, rfl⟩] at hread
      cases hread
    constructor
    · rintro (⟨n, hn, hleast, hgreatest, -⟩ | ⟨-, rfl⟩)
      · exact absurd ⟨n, hn, hleast, hgreatest⟩ hno
      · rfl
    · rintro rfl
      exact .inr ⟨hno, rfl⟩
  | some k =>
    obtain ⟨n, hn, hleast, hgreatest, rfl⟩ := Literal.int64?_eq_some_iff.1 hread
    constructor
    · rintro (⟨m, hm, hleast', hgreatest', rfl⟩ | ⟨hno, -⟩)
      · have hread' := Literal.int64?_eq_some_iff.2 ⟨m, hm, hleast', hgreatest', rfl⟩
        rw [hread] at hread'
        exact congrArg Value.int (Option.some.inj hread')
      · exact absurd ⟨n, hn, hleast, hgreatest⟩ hno
    · rintro rfl
      exact .inl ⟨n, hn, hleast, hgreatest, rfl⟩

private theorem split_iff : Split pair key text ↔ Bytes.cut 61 pair = some (key, text) :=
  ⟨fun h => Bytes.cut_eq_some_iff.2 ⟨h.eq, h.first⟩, fun h =>
    ⟨(Bytes.cut_eq_some_iff.1 h).1, (Bytes.cut_eq_some_iff.1 h).2⟩⟩

private theorem pair?_eq_none_iff : pair? pair = none ↔ Malformed pair := by
  simp only [Malformed, split_iff, ← Bytes.cut_eq_none_iff, pair?]
  cases Bytes.cut 61 pair with
  | none => simp
  | some p => by_cases hkey : trim p.1 = [] <;> simp [hkey, Prod.ext_iff]

private theorem pair?_eq_some_iff : pair? pair = some (key, v) ↔
    key ≠ [] ∧ ∃ written text, Split pair written text ∧ trim written = key ∧ Stored text v := by
  simp only [split_iff, stored_iff, pair?]
  cases Bytes.cut 61 pair with
  | none => simp
  | some p =>
    by_cases hkey : trim p.1 = []
    · simp only [hkey, List.isEmpty_nil, if_true, reduceCtorEq, false_iff]
      rintro ⟨hne, written, text, heq, rfl, -⟩
      obtain rfl := Option.some.inj heq
      exact hne hkey
    · simp only [List.isEmpty_iff, hkey, if_false, Option.some.injEq, Prod.mk.injEq]
      constructor
      · rintro ⟨rfl, rfl⟩
        exact ⟨hkey, p.1, p.2, rfl, rfl, rfl⟩
      · rintro ⟨-, written, text, rfl, rfl, rfl⟩
        exact ⟨rfl, rfl⟩

/-! ## Lists of pairs -/

private theorem ofPairs_eq_error_iff {fault : Fault} : ofPairs pairs acc = .error fault ↔
    ∃ before pair after, pairs = before ++ pair :: after ∧ (∀ p ∈ before, ¬Malformed p) ∧
      Malformed pair ∧ fault = refusal pair := by
  induction pairs generalizing acc with
  | nil => simp [ofPairs]
  | cons first pairs ih =>
    rw [ofPairs]
    cases hfirst : pair? first with
    | none =>
      have hbad := pair?_eq_none_iff.1 hfirst
      constructor
      · intro h
        exact ⟨[], first, pairs, rfl, by simp, hbad, (Except.error.inj h).symm⟩
      · rintro ⟨before, pair, after, heq, hbefore, -, rfl⟩
        cases before with
        | nil => rw [(List.cons.inj heq).1]; rfl
        | cons p before =>
          exact absurd ((List.cons.inj heq).1 ▸ hbad) (hbefore p List.mem_cons_self)
    | some e =>
      have hgood : ¬Malformed first := by simp [← pair?_eq_none_iff, hfirst]
      refine ih.trans ⟨?_, ?_⟩
      · rintro ⟨before, pair, after, rfl, hbefore, hpair, hfault⟩
        exact ⟨first :: before, pair, after, rfl, by simpa [hgood] using hbefore, hpair, hfault⟩
      · rintro ⟨before, pair, after, heq, hbefore, hpair, hfault⟩
        cases before with
        | nil => exact absurd ((List.cons.inj heq).1 ▸ hpair) hgood
        | cons p before =>
          obtain ⟨-, rfl⟩ := List.cons.inj heq
          exact ⟨before, pair, after, rfl, fun q hq => hbefore q (List.mem_cons_of_mem _ hq), hpair,
            hfault⟩

private theorem exists_ofPairs_iff :
    (∃ params, ofPairs pairs acc = .ok params) ↔ ∀ pair ∈ pairs, ¬Malformed pair := by
  induction pairs generalizing acc with
  | nil => simp [ofPairs]
  | cons pair pairs ih =>
    rw [ofPairs, List.forall_mem_cons, ← pair?_eq_none_iff]
    cases pair? pair with
    | none => simp
    | some e => simpa using ih

private theorem exists_error_iff :
    (∃ fault, ofPairs pairs acc = .error fault) ↔ ∃ pair ∈ pairs, Malformed pair := by
  have hok : (∃ params, ofPairs pairs acc = .ok params) ↔ ∀ pair ∈ pairs, ¬Malformed pair :=
    exists_ofPairs_iff
  cases hread : ofPairs pairs acc with
  | ok params =>
    have hgood := hok.1 ⟨params, hread⟩
    simpa using hgood
  | error fault =>
    rw [hread] at hok
    simpa using hok

private theorem ofPairs_append {xs ys : List Bytes} {base override : Params}
    (hxs : ofPairs xs = .ok base)
    (hys : ofPairs ys = .ok override) : ofPairs (xs ++ ys) = .ok (merge base override) := by
  obtain ⟨es, hes, rfl⟩ := ofPairs_eq_ok_iff.1 hxs
  obtain ⟨fs, hfs, rfl⟩ := ofPairs_eq_ok_iff.1 hys
  refine ofPairs_eq_ok_iff.2 ⟨es ++ fs, by rw [List.map_append, List.map_append, hes, hfs], ?_⟩
  rw [List.foldl_append]
  exact ((Dict.increasing_ofList es).foldl_insert_eq_merge fs).symm

private theorem get?_ofPairs (h : ofPairs pairs = .ok params) :
    Dict.get? params key = some v ↔ ∃ text, LastText pairs key text ∧ Stored text v := by
  obtain ⟨entries, hentries, rfl⟩ := ofPairs_eq_ok_iff.1 h
  have hget : Dict.get? (Dict.ofList entries) key = some v ↔ _ :=
    (Dict.get?_ofList entries key).symm ▸ Dict.lastValue?_eq_some_iff
  refine hget.trans ⟨?_, ?_⟩
  · rintro ⟨es, fs, rfl, hlater⟩
    simp only [List.map_append, List.map_cons] at hentries
    obtain ⟨before, rest, rfl, -, hrest⟩ := List.map_eq_append_iff.1 hentries
    obtain ⟨pair, after, rfl, hpair, hafter⟩ := List.map_eq_cons_iff.1 hrest
    obtain ⟨hkey, written, text, hsplit, htrim, hstored⟩ := pair?_eq_some_iff.1 hpair
    refine ⟨text, ⟨before, pair, after, written, rfl, hsplit, htrim, ?_⟩, hstored⟩
    intro later hmem written' text' hsplit' htrim'
    have hread : pair? later = some (key, pairValue text') :=
      pair?_eq_some_iff.2 ⟨hkey, written', text', hsplit', htrim', stored_iff.2 rfl⟩
    have hin : some (key, pairValue text') ∈ fs.map some := by
      rw [← hafter, ← hread]
      exact List.mem_map_of_mem hmem
    obtain ⟨e, he, heq⟩ := List.mem_map.1 hin
    exact hlater e he (congrArg Prod.fst (Option.some.inj heq))
  · rintro ⟨text, ⟨before, pair, after, written, rfl, hsplit, htrim, hlater⟩, hstored⟩
    have hkey : key ≠ [] := by
      rintro rfl
      exact exists_ofPairs_iff.1 ⟨_, h⟩ pair (by simp) (.inr ⟨written, text, hsplit, htrim⟩)
    have hread := pair?_eq_some_iff.2 ⟨hkey, written, text, hsplit, htrim, hstored⟩
    simp only [List.map_append, List.map_cons, hread] at hentries
    obtain ⟨es, rest, rfl, -, hrest⟩ := List.map_eq_append_iff.1 hentries.symm
    obtain ⟨e, fs, rfl, he, hfs⟩ := List.map_eq_cons_iff.1 hrest
    rw [Option.some.inj he]
    refine ⟨es, fs, rfl, fun e' he' heq => ?_⟩
    have hin : some e' ∈ after.map pair? := by
      rw [← hfs]
      exact List.mem_map_of_mem he'
    obtain ⟨later, hmem, hread'⟩ := List.mem_map.1 hin
    rw [← Prod.eta e', heq] at hread'
    obtain ⟨-, written', text', hsplit', htrim', -⟩ := pair?_eq_some_iff.1 hread'
    exact hlater later hmem written' text' hsplit' htrim'

/-- Reading pairs is a homomorphism into merging; a list fails for its first malformed pair, and
otherwise gives each key what its last pair says. -/
theorem ofPairs_merges (xs ys : List Bytes) :
    ((∃ params, ofPairs (xs ++ ys) = .ok params) ↔
      (∃ base, ofPairs xs = .ok base) ∧ ∃ override, ofPairs ys = .ok override) ∧
    (∀ base override, ofPairs xs = .ok base → ofPairs ys = .ok override →
      ofPairs (xs ++ ys) = .ok (merge base override)) ∧
    ((∃ fault, ofPairs xs = .error fault) ↔ ∃ pair ∈ xs, Malformed pair) ∧
    (∀ fault, ofPairs xs = .error fault → ∃ before pair after, xs = before ++ pair :: after ∧
      (∀ p ∈ before, ¬Malformed p) ∧ Malformed pair ∧ fault = refusal pair) ∧
    ∀ params, ofPairs xs = .ok params → ∀ key v,
      Dict.get? params key = some v ↔ ∃ text, LastText xs key text ∧ Stored text v := by
  refine ⟨?_, ?_, exists_error_iff, ?_, ?_⟩
  · simp only [exists_ofPairs_iff, List.forall_mem_append]
  · intro base override hxs hys
    exact ofPairs_append hxs hys
  · intro fault hfault
    exact ofPairs_eq_error_iff.1 hfault
  · intro params hparams key v
    exact get?_ofPairs hparams

/-- A key that is written in two ways, a numeral just above the range, and two signs. -/
example :
    let pairs : List Bytes := ["a =1", " a= +07 ", "b= 9223372036854775808", "c=--1=2"]
    let shown : List (Bytes × Bytes) := [("a", "7"), ("b", " 9223372036854775808"), ("c", "--1=2")]
    ((ofPairs pairs).toOption.map fun params => params.map fun e => (e.1, e.2.display)) =
      some shown := by
  decide +kernel

end Params

end EngineHost
