import EngineHost.Guest.LogLine
import EngineHost.Wasm.Execution

/-!
# Functions of the host

What the functions do that a guest imports: one takes log lines, the others reach the system. The
system has two outputs, of which one is thrown away, no arguments, no environment and no files.
-/

namespace EngineHost.Guest

def systemName : Bytes := "wasi_snapshot_preview1"

namespace System

inductive Status
  | success | badFile | badAddress | badArgument | unsupported
deriving DecidableEq, Repr

def Status.code : Status → BitVec 32
  | success => 0
  | badFile => 8
  | badAddress => 21
  | badArgument => 28
  | unsupported => 52

/-- What a function of the system leads to: its code, the store, and what it prints to the error
output. -/
structure Answer where
  status : Status
  store : Wasm.Store
  printed : Bytes := []

/-- Writes a number of some bytes; nothing if it does not fit. -/
def writeNumber? (s : Wasm.Store) (width address n : Nat) : Option Wasm.Store := do
  let memory ← (← s.memory).write? address (Bytes.toLittleEndian width n)
  return { s with memory := some memory }

/-- Writes a number of 32 bits; nothing if it does not fit. -/
def writeWord? (s : Wasm.Store) (address n : Nat) : Option Wasm.Store := writeNumber? s 4 address n

/-- Whether a file is one of the standard ones, which are all that there are. -/
def isOpen (file : Nat) : Bool := file ≤ 2

/-- The piece to which an entry of a list leads, an address and a length. -/
def piece? (m : Wasm.LinearMemory) (entry : Nat) : Option Bytes := do
  let start ← m.read? entry 4
  let length ← m.read? (entry + 4) 4
  m.read? (Bytes.littleEndian start) (Bytes.littleEndian length)

/-- The pieces of a list up to the first that cannot be read, and whether that is all of them. -/
def pieces (m : Wasm.LinearMemory) (list : Nat) : (count : Nat) → Bytes × Bool
  | 0 => ([], true)
  | count + 1 =>
    match piece? m list with
    | none => ([], false)
    | some p =>
      let (rest, complete) := pieces m (list + 8) count
      (p ++ rest, complete)

/-- Passes on the pieces of a list, and stores how many bytes they have. A file that is not for this
refuses the first piece; pieces before one that cannot be read are passed on. -/
def transfer (accepts : Bool) (pass : Bytes → Bytes) (moved : Bytes → Nat) (list count result : Nat)
    (s : Wasm.Store) : Answer :=
  match s.memory with
  | none => { status := .badAddress, store := s }
  | some m =>
    let width := count * 8 % 2 ^ 32
    if m.size < list + width then { status := .badAddress, store := s }
    else if !accepts && width ≠ 0 then
      { status := if (piece? m list).isSome then .badFile else .badAddress, store := s }
    else
      let (text, complete) := pieces m list (width / 8)
      match if complete then writeWord? s result (moved text) else none with
      | some store => { status := .success, store, printed := pass text }
      | none => { status := .badAddress, store := s, printed := pass text }

/-- Prints the pieces of a list. Nothing can be printed to the input. -/
def write (file list count result : Nat) (s : Wasm.Store) : Answer :=
  if !isOpen file then { status := .badFile, store := s }
  else transfer (file != 0) (fun text => if file = 2 then text else []) List.length list count result s

/-- Reads into the pieces of a list. The input is empty, and the outputs cannot be read. -/
def read (file list count result : Nat) (s : Wasm.Store) : Answer :=
  if !isOpen file then { status := .badFile, store := s }
  else transfer (file == 0) (fun _ => []) (fun _ => 0) list count result s

/-- Stores how fine a clock is, in billionths of a second. -/
def clockStep (clock result : Nat) (s : Wasm.Store) : Answer :=
  match if clock = 0 then some 1000 else if clock = 1 then some 1 else none with
  | none => { status := .badArgument, store := s }
  | some step =>
    match writeNumber? s 8 result step with
    | some store => { status := .success, store }
    | none => { status := .badAddress, store := s }

/-- Takes a piece of advice of a known kind on an open file. -/
def advise (file advice : Nat) (s : Wasm.Store) : Answer :=
  { status := if !isOpen file then .badFile else if 5 < advice % 256 then .badArgument else .success
    store := s }

/-- Stores that there are no texts and that they have no bytes. -/
def noSizes (count size : Nat) (s : Wasm.Store) : Answer :=
  match writeWord? s count 0 with
  | none => { status := .badAddress, store := s }
  | some s =>
    match writeWord? s size 0 with
    | none => { status := .badAddress, store := s }
    | some store => { status := .success, store }

/-- Stores no texts. -/
def noTexts (list texts : Nat) (s : Wasm.Store) : Answer :=
  let outside := s.memory.all fun m => m.size < list || m.size < texts
  { status := if outside then .badAddress else .success, store := s }

/-- The functions of the system that do something; the others know no file. -/
def answer (name : Bytes) (arguments : List Nat) (s : Wasm.Store) : Answer :=
  let arg (i : Nat) : Nat := arguments.getD i 0
  if name = Bytes.ofString "fd_write" then write (arg 0) (arg 1) (arg 2) (arg 3) s
  else if name = Bytes.ofString "fd_read" then read (arg 0) (arg 1) (arg 2) (arg 3) s
  else if name = Bytes.ofString "fd_advise" then advise (arg 0) (arg 3) s
  else if name = Bytes.ofString "fd_sync" || name = Bytes.ofString "fd_datasync" then
    { status := if isOpen (arg 0) then .success else .badFile, store := s }
  else if name = Bytes.ofString "clock_res_get" then clockStep (arg 0) (arg 1) s
  else if name = Bytes.ofString "args_sizes_get" || name = Bytes.ofString "environ_sizes_get" then
    noSizes (arg 0) (arg 1) s
  else if name = Bytes.ofString "args_get" || name = Bytes.ofString "environ_get" then
    noTexts (arg 0) (arg 1) s
  else if name = Bytes.ofString "sched_yield" then { status := .success, store := s }
  else if name = Bytes.ofString "proc_raise" then { status := .unsupported, store := s }
  else { status := .badFile, store := s }

end System

structure Listener (σ : Type) where
  /-- Takes what is printed to the error output. -/
  print : Bytes → σ → σ
  /-- Takes a log line. -/
  log : UInt64 → Wasm.Store → σ → σ

def Listener.host {σ : Type} (l : Listener σ) : Wasm.Host σ where
  call source name arguments s state :=
    if source ≠ systemName then
      (.results [], s, l.log (UInt64.ofBitVec (arguments.headD default).long) s state)
    else if name = Bytes.ofString "proc_exit" then
      (.exit (UInt32.ofBitVec (arguments.headD default).word), s, state)
    else
      let a := System.answer name (arguments.map fun v => v.word.toNat) s
      (.results [.i32 a.status.code], a.store, l.print a.printed state)

end EngineHost.Guest
