import EngineHost.Yaml.Cursor

/-!
# Anchors, tags and directives
-/

namespace EngineHost.Yaml

open ReadM

/-- Whether a character may follow the name of an anchor or an alias. -/
def endsAnchor (c : Char) : Bool :=
  isSeparator c || c == '?' || c == ':' || c == ',' || c == ']' || c == '}' || c == '%' ||
    c == '@' || c == '\x60'

/-- Reads the name behind an anchor or alias indicator. -/
def anchorName (word : Bytes → Word) : ReadM Token := do
  let start ← mark
  skip
  need 1
  let name ← charsWhile isWordChar
  if name.isEmpty || !endsAnchor (← peek 0) then ReadM.fail start .anchorName
  return ⟨word (Bytes.ofChars name), start, ← mark⟩

def isUriChar (c : Char) : Bool :=
  isWordChar c || c == ';' || c == '/' || c == '?' || c == ':' || c == '@' || c == '&' ||
    c == '=' || c == '+' || c == '$' || c == ',' || c == '.' || c == '!' || c == '~' ||
    c == '*' || c == '\x27' || c == '(' || c == ')' || c == '[' || c == ']' || c == '%'

/-- The octet that an escape at the cursor stands for. -/
def uriOctet (start : Mark) : ReadM UInt8 := do
  need 3
  match (← peek 0) == '%', hexValue? (← peek 1), hexValue? (← peek 2) with
  | true, some a, some b =>
    skips 3
    return (16 * a + b).toUInt8
  | _, _, _ => ReadM.fail start .tagEscape

/-- Reads `n` escaped octets that continue a character. -/
def uriTail (start : Mark) : (n : Nat) → ReadM Bytes
  | 0 => return []
  | n + 1 => do
    let c ← get
    let octet ← uriOctet start
    if octet &&& 0xc0 != 0x80 then
      set c
      ReadM.fail start .tagTrailingOctet
    return octet :: (← uriTail start n)

def uriEscape (start : Mark) : ReadM Bytes := do
  let octet ← uriOctet start
  match Characters.lead? octet with
  | none => ReadM.fail start .tagLeadingOctet
  | some (width, _) => return octet :: (← uriTail start (width - 1))

/-- Reads the characters of a tag, the last first. -/
def uriChars (start : Mark) : (steps : Nat) → (acc : List Bytes) → ReadM (List Bytes)
  | 0, acc => return acc
  | steps + 1, acc => do
    let c ← peek 0
    if !isUriChar c then return acc
    let text ← if c == '%' then uriEscape start else do pure (Utf8.encode (← char))
    need 1
    uriChars start steps (text :: acc)

/-- Reads the part of a tag behind `head`, of which the mark in front is dropped. Without a head
there must be such a part. -/
def uri (start : Mark) (head : Bytes) : ReadM Bytes := do
  need 1
  let parts ← uriChars start ((← total) + 1) []
  if parts.isEmpty && head.isEmpty then ReadM.fail start .tagUri
  return head.drop 1 ++ parts.reverse.flatten

/-- Reads a tag handle. One that is not closed is the beginning of a tag, and in a directive only
the bare mark may stay open. -/
def tagHandle (directive : Bool) (start : Mark) : ReadM Bytes := do
  need 1
  if (← peek 0) != '!' then ReadM.fail start .tagMark
  skip
  need 1
  let name ← charsWhile isWordChar
  if (← peek 0) == '!' then
    skip
    return "!" ++ Bytes.ofChars name ++ "!"
  if directive && !name.isEmpty then ReadM.fail start .tagMark
  return "!" ++ Bytes.ofChars name

/-- Reads the handle and the suffix of a tag. A tag in angle brackets has no handle, and the bare
mark is a suffix without one. -/
def tagParts (start : Mark) : ReadM (Bytes × Bytes) := do
  need 2
  if (← peek 1) == '<' then
    skips 2
    let suffix ← uri start []
    if (← peek 0) != '>' then ReadM.fail start .tagClose
    skip
    return ([], suffix)
  let handle ← tagHandle false start
  if 1 < handle.length && handle.getLast? == some 33 then
    return (handle, ← uri start [])
  let suffix ← uri start handle
  return if suffix.isEmpty then ([], "!") else (Bytes.ofString "!", suffix)

def tagToken : ReadM Token := do
  let start ← mark
  let (handle, suffix) ← tagParts start
  need 1
  if !isSeparator (← peek 0) then ReadM.fail start .tagEnd
  return ⟨.tag handle suffix, start, ← mark⟩

/-- Reads one number of a version, of at most two digits. -/
def versionNumber (start : Mark) : ReadM Nat := do
  need 1
  let digits ← charsFrom Char.isDigit 2 []
  if digits.isEmpty then ReadM.fail start .versionNumber
  if (← peek 0).isDigit then ReadM.fail start .versionLength
  return digits.foldl (fun n d => 10 * n + (d.toNat - 48)) 0

def directiveWord (start : Mark) : ReadM Word := do
  need 1
  let name ← charsWhile isWordChar
  if name.isEmpty then ReadM.fail start .directiveName
  if !isSeparator (← peek 0) then ReadM.fail start .directiveCharacter
  if name = ['Y', 'A', 'M', 'L'] then
    gaps
    let major ← versionNumber start
    if (← peek 0) != '.' then ReadM.fail start .versionPoint
    skip
    let minor ← versionNumber start
    return .version major minor
  if name = ['T', 'A', 'G'] then
    gaps
    let handle ← tagHandle true start
    need 1
    if !isGap (← peek 0) then ReadM.fail start .tagDirectiveBlank
    gaps
    let expansion ← uri start []
    need 1
    if !isSeparator (← peek 0) then ReadM.fail start .tagDirectiveEnd
    return .tagHandle handle expansion
  ReadM.fail start .unknownDirective

def directive : ReadM Token := do
  let start ← mark
  skip
  let word ← directiveWord start
  let stop ← mark
  need 1
  gaps
  if (← peek 0) == '#' then restOfLine
  if !isBreakOrEnd (← peek 0) then ReadM.fail start .directiveEnd
  endLine
  return ⟨word, start, stop⟩

end EngineHost.Yaml
