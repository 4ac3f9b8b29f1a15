import EngineHost.Guest.Instance
import Mathlib.Data.Multiset.AddSub

/-!
# Blocks of guest memory

The blocks that the host holds in guest memory follow from its guest calls alone: a call that
reserves memory adds a block, and a call that gives memory back must name a block that is held, by
its address and its size.
-/

namespace EngineHost.Guest

structure Block where
  addr : UInt32
  size : UInt32
deriving DecidableEq

namespace GuestCall

/-- The block that a call reserves, unless it fails or answers with the null address. -/
def reserved? (c : GuestCall) : Option Block :=
  match c.function, c.args, c.ending with
  | .allocate, [size], .ok addr =>
    if addr.toUInt32 = 0 then none else some ⟨addr.toUInt32, size.toUInt32⟩
  | _, _, _ => none

/-- The block that a call gives back, however it ends. -/
def returned? (c : GuestCall) : Option Block :=
  match c.function, c.args with
  | .deallocate, [addr, size] => some ⟨addr.toUInt32, size.toUInt32⟩
  | _, _ => none

theorem function_of_returned? {c : GuestCall} {b : Block} (h : c.returned? = some b) :
    c.function = .deallocate := by
  obtain ⟨function, args, ending, memory⟩ := c
  cases function <;> simp_all [returned?]

theorem function_of_reserved? {c : GuestCall} {b : Block} (h : c.reserved? = some b) :
    c.function = .allocate := by
  obtain ⟨function, args, ending, memory⟩ := c
  cases function <;> simp_all [reserved?]

private theorem returned?_of_reserved? {c : GuestCall} {b : Block} (h : c.reserved? = some b) :
    c.returned? = none := by
  cases hreturned : c.returned? with
  | none => rfl
  | some b' => exact absurd (function_of_returned? hreturned) (by simp [function_of_reserved? h])

end GuestCall

/-- The blocks held after a sequence of calls, unless one of the calls gives back a block that is
not held. -/
def holdings : List GuestCall → Multiset Block → Option (Multiset Block)
  | [], held => some held
  | c :: calls, held =>
    match c.returned? with
    | some b => if b ∈ held then holdings calls (held.erase b) else none
    | none => holdings calls (Multiset.ofList c.reserved?.toList + held)

private theorem holdings_append (calls calls' : List GuestCall) (held : Multiset Block) :
    holdings (calls ++ calls') held = (holdings calls held).bind (holdings calls') := by
  induction calls generalizing held with
  | nil => rfl
  | cons c calls ih =>
    simp only [List.cons_append, holdings]
    cases c.returned? with
    | none => exact ih _
    | some b =>
      dsimp only
      split
      · exact ih _
      · rfl

/-- Whatever else is held, these calls leave these blocks to be given back. -/
def Leaves (calls : List GuestCall) (kept : Multiset Block) : Prop :=
  ∀ held, holdings calls held = some (kept + held)

namespace Leaves

theorem nil : Leaves [] 0 := fun held => by simp [holdings]

theorem append {calls calls' : List GuestCall} {kept kept' : Multiset Block}
    (h : Leaves calls kept) (h' : Leaves calls' kept') :
    Leaves (calls ++ calls') (kept' + kept) := by
  intro held
  rw [holdings_append, h held, Option.bind_some, h' (kept + held), Multiset.add_assoc]

theorem of_neither {c : GuestCall} (hreturned : c.returned? = none)
    (hreserved : c.reserved? = none) : Leaves [c] 0 := by
  intro held
  simp [holdings, hreturned, hreserved]

theorem of_reserved {c : GuestCall} {b : Block} (h : c.reserved? = some b) : Leaves [c] {b} := by
  intro held
  simp [holdings, GuestCall.returned?_of_reserved? h, h]

theorem give_back {calls : List GuestCall} {kept : Multiset Block} {c : GuestCall} {b : Block}
    (h : Leaves calls (b ::ₘ kept)) (hc : c.returned? = some b) : Leaves (calls ++ [c]) kept := by
  intro held
  rw [holdings_append, h held, Option.bind_some]
  simp [holdings, hc]

/-- A block that is reserved before and given back after is of no account. -/
theorem bracketed {calls : List GuestCall} {kept : Multiset Block} {c d : GuestCall} {b : Block}
    (hc : c.reserved? = some b) (h : Leaves calls kept) (hd : d.returned? = some b) :
    Leaves ([c] ++ calls ++ [d]) kept := by
  refine give_back (b := b) ?_ hd
  have hopen := (of_reserved hc).append h
  rwa [Multiset.add_comm, Multiset.singleton_add] at hopen

end Leaves

end EngineHost.Guest
