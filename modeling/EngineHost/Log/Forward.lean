import EngineHost.Log.Wire

/-!
# Forwarding guest log lines

Every line of a guest becomes one record: the decoded message with typed attributes, or the raw
payload when it cannot be decoded.
-/

namespace EngineHost.Log

/-- The value that an attribute's type and text denote, if they denote one. -/
def typedValue? (a : WireAttr) : Option AttrValue :=
  if a.type = "int64" then (Literal.int64? a.value).map .int64
  else if a.type = "uint64" then (Literal.uint64? a.value).map .uint64
  else if a.type = "bool" then (Literal.bool? a.value).map .bool
  else if a.type = "float64" then (Literal.float? a.value).map .float64
  else if a.type = "time" then (Instant.parse? Instant.standard a.value).map .ofInstant
  else if a.type = "duration" then (Duration.parse? a.value).map .duration
  else none

/-- The attribute of a wire attribute; a value that cannot be read stays a text. -/
def attrOfWire (a : WireAttr) : Attr := ⟨a.key, (typedValue? a).getD (.string a.value)⟩

/-- The level of a line: that of its name, or the information level. -/
def wireLevel (level : Bytes) : Level := (Level.parse? level).getD .info

def forward (payload : Bytes) : Record :=
  match WireMessage.decode? payload with
  | none => ⟨.info, "hvm guest log (raw)", [⟨"payload", .string payload⟩]⟩
  | some w => ⟨wireLevel w.level, w.message,
      ⟨"origin", .string "guest"⟩ :: w.attrs.map attrOfWire⟩

end EngineHost.Log
