import EngineHost.Yaml.Characters

/-!
# What is wrong with a document

A failure names its cause and two places: where the construct began and where reading stopped.
-/

namespace EngineHost.Yaml

/-- A place in a document, all counted from zero. -/
structure Mark where
  index : Nat := 0
  line : Nat := 0
  column : Nat := 0
deriving DecidableEq, Inhabited, Repr

/-- Why the next token cannot be read. -/
inductive TokenProblem
  | noToken
  | keyWithoutColon
  | flowDepth
  | blockDepth
  | entryNotAllowed
  | keyNotAllowed
  | valueNotAllowed
  | unknownDirective
  | directiveName
  | directiveCharacter
  | directiveEnd
  | versionNumber
  | versionLength
  | versionPoint
  | tagDirectiveBlank
  | tagDirectiveEnd
  | tagMark
  | tagUri
  | tagEscape
  | tagLeadingOctet
  | tagTrailingOctet
  | tagClose
  | tagEnd
  | anchorName
  | zeroIndent
  | blockHeader
  | blockTab
  | documentMarkInQuotes
  | endInQuotes
  | unknownEscape
  | hexadecimal
  | escapedCodePoint
  | plainTab
deriving DecidableEq, Repr

def TokenProblem.message : TokenProblem → Bytes
  | noToken => "found character that cannot start any token"
  | keyWithoutColon => "could not find expected ':'"
  | flowDepth => "exceeded max depth of 10000"
  | blockDepth => "exceeded max depth of 10000"
  | entryNotAllowed => "block sequence entries are not allowed in this context"
  | keyNotAllowed => "mapping keys are not allowed in this context"
  | valueNotAllowed => "mapping values are not allowed in this context"
  | unknownDirective => "found unknown directive name"
  | directiveName => "could not find expected directive name"
  | directiveCharacter => "found unexpected non-alphabetical character"
  | directiveEnd => "did not find expected comment or line break"
  | versionNumber => "did not find expected version number"
  | versionLength => "found extremely long version number"
  | versionPoint => "did not find expected digit or '.' character"
  | tagDirectiveBlank => "did not find expected whitespace"
  | tagDirectiveEnd => "did not find expected whitespace or line break"
  | tagMark => "did not find expected '!'"
  | tagUri => "did not find expected tag URI"
  | tagEscape => "did not find URI escaped octet"
  | tagLeadingOctet => "found an incorrect leading UTF-8 octet"
  | tagTrailingOctet => "found an incorrect trailing UTF-8 octet"
  | tagClose => "did not find the expected '>'"
  | tagEnd => "did not find expected whitespace or line break"
  | anchorName => "did not find expected alphabetic or numeric character"
  | zeroIndent => "found an indentation indicator equal to 0"
  | blockHeader => "did not find expected comment or line break"
  | blockTab => "found a tab character where an indentation space is expected"
  | documentMarkInQuotes => "found unexpected document indicator"
  | endInQuotes => "found unexpected end of stream"
  | unknownEscape => "found unknown escape character"
  | hexadecimal => "did not find expected hexdecimal number"
  | escapedCodePoint => "found invalid Unicode character escape code"
  | plainTab => "found a tab character that violates indentation"

/-- Why the tokens form no document. -/
inductive ShapeProblem
  | documentStart
  | nodeContent
  | undefinedHandle
  | blockEntry
  | blockKey
  | flowSequence
  | flowMapping
  | duplicateVersion
  | incompatibleVersion
  | duplicateHandle
deriving DecidableEq, Repr

def ShapeProblem.message : ShapeProblem → Bytes
  | documentStart => "did not find expected <document start>"
  | nodeContent => "did not find expected node content"
  | undefinedHandle => "found undefined tag handle"
  | blockEntry => "did not find expected '-' indicator"
  | blockKey => "did not find expected key"
  | flowSequence => "did not find expected ',' or ']'"
  | flowMapping => "did not find expected ',' or '\x7d'"
  | duplicateVersion => "found duplicate %YAML directive"
  | incompatibleVersion => "found incompatible YAML document"
  | duplicateHandle => "found duplicate %TAG directive"

/-- Why a document cannot be read, or why its contents cannot be used at all. -/
inductive Failure
  | encoding (problem : EncodingProblem)
  | token (start stop : Mark) (problem : TokenProblem)
  | shape (start stop : Mark) (problem : ShapeProblem)
  | unknownAnchor (name : Bytes)
  | selfContaining (name : Bytes)
  | excessiveAliasing
  | badBase64
  | undecodable (found text wanted : Bytes)
  | mergeWithoutMap
  | compoundKey (text : Bytes)
  /-- Values of the wrong kind, each with its own text. -/
  | mismatches (texts : List Bytes)
deriving DecidableEq, Repr

namespace Failure

/-- The first of two places that does not lie on the first line, as a line number; places on the
first line are not named. `shift` is added to the line. -/
def placed (shift : Nat) (start stop : Mark) (text : Bytes) : Bytes :=
  let line := if start.line ≠ 0 then start.line else stop.line
  if line = 0 then text else "line " ++ Bytes.ofNat (line + shift) ++ ": " ++ text

/-- The text of a failure behind the name of the format. -/
def body : Failure → Bytes
  | encoding problem => problem.message
  | token start stop problem => placed 1 start stop problem.message
  | shape start stop problem => placed 0 start stop problem.message
  | unknownAnchor name => "unknown anchor '" ++ name ++ "' referenced"
  | selfContaining name => "anchor '" ++ name ++ "' value contains itself"
  | excessiveAliasing => "document contains excessive aliasing"
  | badBase64 => "!!binary value contains invalid base64 data"
  | undecodable found text wanted =>
    "cannot decode " ++ found ++ " `" ++ text ++ "` as a " ++ wanted
  | mergeWithoutMap => "map merge requires map or sequence of maps as the value"
  | compoundKey text => "invalid map key: " ++ text
  | mismatches texts => "unmarshal errors:\n  " ++ Bytes.join "\n  " texts

def message (f : Failure) : Bytes := "yaml: " ++ f.body

end Failure

end EngineHost.Yaml
