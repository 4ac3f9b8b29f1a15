import EngineHost.Cli.Run

/-!
# Encodings

Writing a program's binary encoding, to a file or in hexadecimal.
-/

namespace EngineHost.Cli

variable {σ : Type}

structure Encoding where
  program : Bytes
  data : Bytes
  /-- The number of bytes that the engine wrote. -/
  size : UInt64
  /-- The file that it went to; none if empty. -/
  file : Bytes := []
deriving DecidableEq, Repr, Inhabited

/-- What is shown of an encoding: the bytes themselves unless they went to a file. -/
def Encoding.payload (e : Encoding) : Payload :=
  let size := Bytes.ofNat e.size.toNat
  { text :=
      if e.file.isEmpty then Bytes.toHex e.data else "wrote " ++ size ++ " bytes to " ++ e.file
    json := some <| .ok <| Json.objectOf [
      Json.member "program" (.string e.program),
      Json.member "bytes" (.number size),
      Json.textMember "output" e.file,
      if e.file.isEmpty then Json.textMember "hex" (Bytes.toHex e.data) else none] }

def serializing (f : Fault) : Failure := ⟨"failed to serialize program", f⟩

/-- Encodes a book into a buffer of the size that the engine reports, and writes the encoding to
`file` unless that is empty. The host does not survive a size for which it has no room. -/
def encodeBook (p : Workplace σ) (program file : Bytes) (book : Book) :
    WorkM σ (Except Failure Encoding) := do
  match ← p.perform (p.engine.serializedLength book) with
  | .error f => return .error (serializing f)
  | .ok size =>
    if p.room < size.toNat then
      return .error (serializing (.crash "makeslice: len out of range"))
    let filled ← p.perform (p.engine.serializeTo book (List.replicate size.toNat 0))
    match filled.outcome with
    | .error f => return .error (serializing f)
    | .ok none => return .error (serializing (.plain
        ("encoding grew beyond the " ++ Bytes.ofNat size.toNat ++ " bytes reported")))
    | .ok (some written) =>
      let data := filled.buffer.take written.toNat
      p.remark ("Serialized " ++ program ++ ": " ++ Bytes.ofNat written.toNat ++ " bytes")
      let encoding : Encoding := { program := program, data := data, size := written, file := file }
      if file.isEmpty then return .ok encoding
      match ← p.save file data with
      | .error f => return .error ⟨"failed to write output", f⟩
      | .ok () => return .ok encoding

def serializeConfigured (env : Environment σ) (s : GlobalSettings) (file : Bytes) (c : RunConfig) :
    Finished σ Encoding :=
  match ProgramText.load env.files c with
  | .error f => { outcome := .error ⟨"failed to load program", f⟩ }
  | .ok program =>
    withEngine env s { least := s.level } c [] fun place =>
      place.withBook program.source (encodeBook place program.name file)

end EngineHost.Cli
