import EngineHost.Cli.Command

/-!
# Usage texts

How a command is called: its line, the commands below it and its flags in columns.
-/

namespace EngineHost.Cli

namespace Flag

def signature (f : Flag) : Bytes :=
  let names : Bytes := match f.letter with
    | some b => "  -" ++ [b] ++ ", --" ++ f.name
    | none => "      --" ++ f.name
  if f.kind.label.isEmpty then names else names ++ " " ++ f.kind.label

def explanation (f : Flag) : Bytes :=
  if f.default.isEmpty then f.usage
  else f.usage ++ " (default " ++ Quoted.text f.default ++ ")"

/-- Flags in the order of their names, one a line, the right column three blanks behind the longest
entry of the left one. -/
def table (flags : List Flag) : Bytes :=
  let sorted := flags.mergeSort fun f g => !Bytes.less g.name f.name
  let width := (flags.map fun f => f.signature.length).foldl max 0
  Bytes.join "\n" (sorted.map fun f =>
    Bytes.padRight (width + 3) 32 f.signature ++ f.explanation)

end Flag

namespace Command

/-- The line with which a command is called. Two commands hide their flags. -/
def callLine (c : Command) : Bytes :=
  let called := if c.placeholder.isEmpty then c.path else c.path ++ " " ++ c.placeholder
  if c = completion .bash ∨ c = request then called else called ++ " [flags]"

/-- The commands below a command in the order of their names. -/
def listing (c : Command) : Bytes :=
  let sorted := c.children.mergeSort fun a b => !Bytes.less b.name a.name
  sorted.flatMap fun child => "\n  " ++ Bytes.padRight 11 32 child.name ++ " " ++ child.summary

/-- The flags that only a command itself has; `helped` tells whether the one for help is among
them. -/
def shownFlags (c : Command) (helped : Bool) : List Flag :=
  (if c = root then globalFlags else c.ownFlags) ++ (if helped then [c.helpFlag] else [])

def usage (c : Command) (helped : Bool) : Bytes :=
  let grouped := !c.children.isEmpty
  let call : Bytes := if c.isRunnable then "\n  " ++ c.callLine else []
  let group : Bytes := if grouped then "\n  " ++ c.path ++ " [command]" else []
  let aliases : Bytes :=
    if c.aliases.isEmpty then [] else "\n\nAliases:\n  " ++ Bytes.join ", " (c.name :: c.aliases)
  let commands : Bytes := if grouped then "\n\nAvailable Commands:" ++ c.listing else []
  let flags : Bytes := "\n\nFlags:\n" ++ Flag.table (c.shownFlags helped)
  let inherited : Bytes :=
    if c = root then [] else "\n\nGlobal Flags:\n" ++ Flag.table globalFlags
  let more : Bytes :=
    if grouped then "\n\nUse \"" ++ c.path ++ " [command] --help\" for more information about a command."
    else []
  "Usage:" ++ call ++ group ++ aliases ++ commands ++ flags ++ inherited ++ more ++ "\n"

def helpText (c : Command) : Bytes := c.description ++ "\n\n" ++ c.usage true

end Command

end EngineHost.Cli
