import EngineHost.Guest.Script

/-!
# The demonstration module

A minimal engine module: every text that starts with `@` is the same book, whose evaluation gives
a fixed record and whose encoding is five fixed bytes. It counts its release calls in memory.
-/

namespace EngineHost.Guest.Demo

def bookAt : UInt32 := 64

def recordAt : UInt32 := 256

def vecAt : UInt32 := 512

def encodingAt : UInt32 := 600

def errorAt : UInt32 := 16

/-- The seven counters: calls of the deallocator with its last address and size, then releases of
texts, books, records and vectors. -/
def counters : List UInt32 := [896, 900, 904, 908, 912, 916, 920]

def initialMemory : Memory :=
  let m := Memory.filled 1 0
  let m := m.store errorAt "PARSE_ERROR (1:1): expected definition\x00"
  let m := m.store 128 "#7\x00"
  let m := m.store recordAt (Bytes.toLittleEndian 8 42 ++ Bytes.toLittleEndian 8 0x3fe0000000000000 ++
    Bytes.toLittleEndian 4 128 ++ Bytes.toLittleEndian 8 0)
  m.store encodingAt (7 :: "abcd")

/-- The number at an address that is inside the memory. -/
def word (m : Memory) (addr : UInt32) : UInt32 := (m.readWord? addr).getD 0

def storeWord (addr n : UInt32) : Effect := .store addr (Bytes.toLittleEndian 4 n.toNat)

def increment (m : Memory) (addr : UInt32) : Effect := storeWord addr (word m addr + 1)

/-- The text of a trap: its cause and the function with its signature. -/
def trapText (cause signature : String) : Bytes :=
  Bytes.ofString "wasm error: " ++ cause ++ "\nwasm stack trace:\n\t." ++ signature

def counted (heap : UInt32) (m : Memory) (addr : UInt32) : Run UInt32 :=
  { effects := [increment m addr], outcome := .ok [], state := heap }

/-- The copy of the encoding: four bytes, then one. A store outside the memory traps. -/
def copyEncoding (heap : UInt32) (m : Memory) (target : UInt32) : Run UInt32 :=
  let data := (m.read? encodingAt 5).getD []
  let trap : Except Bytes (List UInt64) :=
    .error (trapText "out of bounds memory access" "$8(i32,i32,i32)")
  if !m.holds target 4 then { outcome := trap, state := heap }
  else if !m.holds target 5 then
    { effects := [.store target (data.take 4)], outcome := trap, state := heap }
  else { effects := [.store target data], outcome := .ok [], state := heap }

/-- Runs an exported function; the state is the heap. -/
def run (f : Export) (args : List UInt64) (heap : UInt32) (m : Memory) : Run UInt32 :=
  let arg (i : Nat) : UInt32 := (args.getD i 0).toUInt32
  match f with
  | .allocate => { outcome := .ok [heap.toUInt64], state := Script.bump heap (arg 0) }
  | .deallocate =>
    { effects := [increment m 896, storeWord 900 (arg 0), storeWord 904 (arg 1)]
      outcome := .ok [], state := heap }
  | .bookParse =>
    if m.read? (arg 0) 1 = some [64] then { outcome := .ok [bookAt.toUInt64], state := heap }
    else { effects := [storeWord (arg 1) errorAt], outcome := .ok [0], state := heap }
  | .bookEvaluate =>
    if arg 1 = 1 then
      { outcome := .error (trapText "unreachable" "$4(i32,i32,i32,i32) i32"), state := heap }
    else { outcome := .ok [recordAt.toUInt64], state := heap }
  | .bookSerialize => { outcome := .ok [vecAt.toUInt64], state := heap }
  | .vecLength => { outcome := .ok [5], state := heap }
  | .vecCopy => copyEncoding heap m (arg 1)
  | .freeBook => counted heap m 912
  | .freeEvaluation => counted heap m 916
  | .freeVec => counted heap m 920
  | .freeText => counted heap m 908

def machine (maxLog : UInt32) : Machine UInt32 where
  run := run
  maxLog := maxLog

def start (maxStderr : Nat) : Instance UInt32 where
  guest := 1024
  memory := initialMemory
  stderr := { limit := maxStderr }

end EngineHost.Guest.Demo
