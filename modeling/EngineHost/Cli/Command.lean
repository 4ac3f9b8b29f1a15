import EngineHost.Cli.Backend
import EngineHost.Cli.Flag

/-!
# Commands

The tree of commands with what each of them takes and how it describes itself.
-/

namespace EngineHost.Cli

inductive ShellName
  | bash
  | zsh
  | fish
  | powershell
deriving DecidableEq, Repr

namespace ShellName

def all : List ShellName := [bash, zsh, fish, powershell]

def name : ShellName → Bytes
  | bash => "bash"
  | zsh => "zsh"
  | fish => "fish"
  | powershell => "powershell"

end ShellName

inductive Command
  /-- The program itself. -/
  | root
  | run
  | serialize
  | samples
  /-- Prints one sample. -/
  | sample
  | schema
  | help
  /-- The group of the commands that complete command lines. -/
  | completions
  | completion (shell : ShellName)
  /-- Answers a shell that completes a command line. It is listed nowhere. -/
  | request
deriving DecidableEq, Repr

inductive Arity
  | any
  | none
  | exactly (count : Nat)
  | atLeast (count : Nat)
deriving DecidableEq, Repr

namespace Command

def name : Command → Bytes
  | root => "hvm"
  | run => "run"
  | serialize => "serialize"
  | samples => "samples"
  | sample => "show"
  | schema => "schema"
  | help => "help"
  | completions => "completion"
  | completion shell => shell.name
  | request => "__complete"

def aliases : Command → List Bytes
  | request => ["__completeNoDesc"]
  | _ => []

def children : Command → List Command
  | root => [run, serialize, samples, schema, help, completions]
  | samples => [sample]
  | completions => ShellName.all.map completion
  | _ => []

def words (c : Command) : List Bytes :=
  match c with
  | root => [root.name]
  | sample => [root.name, samples.name, c.name]
  | completion _ => [root.name, completions.name, c.name]
  | _ => [root.name, c.name]

def path (c : Command) : Bytes := Bytes.join " " c.words

def isRunnable : Command → Bool
  | root | completions => false
  | _ => true

/-- Whether a command leaves it to its caller to report that it was refused. -/
def isSilent : Command → Bool
  | run | serialize | samples | sample | schema => true
  | _ => false

def arity : Command → Arity
  | root | help => .any
  | sample => .exactly 1
  | request => .atLeast 1
  | _ => .none

def placeholder : Command → Bytes
  | sample => "<name>"
  | help => "[command]"
  | request => "[command-line]"
  | _ => []

def globalFlags : List Flag := [
  { name := "verbose", letter := some 118, kind := .switch, usage := "verbose output" },
  { name := "format", kind := .text, usage := "output format (json|text)", default := "text" },
  { name := "metrics-file", kind := .text,
    usage := "write Prometheus metrics to this file on exit" }]

def paramFlag : Flag :=
  { name := "param", letter := some 112, kind := .texts,
    usage := "sample parameter as key=value (repeatable)" }

def programFlags : List Flag := [
  { name := "config", letter := some 99, kind := .text, usage := "run configuration file (YAML)" },
  { name := "backend", kind := .text, usage := backendUsage false, default := "wasm" },
  { name := "wasm", kind := .text,
    usage := "path to the engine's wasm32 module (wasm backend)" },
  { name := "runtime", kind := .text, usage := "evaluation runtime (rust|c)", default := "rust" },
  { name := "mem-dump", kind := .switch,
    usage := "include the engine's memory dump in the result" },
  { name := "source", letter := some 115, kind := .text, usage := "program file to load" },
  { name := "sample", kind := .text, usage := "embedded sample program to load" },
  paramFlag]

/-- The flags of a command itself, without the one that asks for help. -/
def ownFlags : Command → List Flag
  | run => programFlags
  | serialize => programFlags ++
    [{ name := "output", letter := some 111, kind := .text,
       usage := "file to write the encoding to" }]
  | sample => [paramFlag]
  | completion _ =>
    [{ name := "no-descriptions", kind := .switch, usage := "disable completion descriptions" }]
  | _ => []

def helpFlag (c : Command) : Flag :=
  { name := "help", letter := some 104, kind := .switch, usage := "help for " ++ c.name }

/-- The flags that a command knows before it is selected. -/
def selectionFlags (c : Command) : List Flag := c.ownFlags ++ globalFlags

def flags (c : Command) : List Flag := c.selectionFlags ++ [c.helpFlag]

def summary : Command → Bytes
  | root => "Run HVM programs"
  | run => "Parse and evaluate a program"
  | serialize => "Write a program's binary encoding"
  | samples => "List the embedded sample programs"
  | sample => "Print a sample program with its parameters applied"
  | schema => "Print the JSON schema of the run configuration file"
  | help => "Help about any command"
  | completions => "Generate the autocompletion script for the specified shell"
  | completion shell => "Generate the autocompletion script for " ++ shell.name
  | request => "Request shell completion choices for the specified command-line"

def completionText : ShellName → Bytes
  | .bash => Bytes.ofLines [
      "Generate the autocompletion script for the bash shell.",
      "",
      "This script depends on the 'bash-completion' package.",
      "If it is not installed already, you can install it via your OS's package manager.",
      "",
      "To load completions in your current shell session:",
      "",
      "\tsource <(hvm completion bash)",
      "",
      "To load completions for every new session, execute once:",
      "",
      "#### Linux:",
      "",
      "\thvm completion bash > /etc/bash_completion.d/hvm",
      "",
      "#### macOS:",
      "",
      "\thvm completion bash > $(brew --prefix)/etc/bash_completion.d/hvm",
      "",
      "You will need to start a new shell for this setup to take effect."]
  | .zsh => Bytes.ofLines [
      "Generate the autocompletion script for the zsh shell.",
      "",
      "If shell completion is not already enabled in your environment you will need",
      "to enable it.  You can execute the following once:",
      "",
      "\techo \"autoload -U compinit; compinit\" >> ~/.zshrc",
      "",
      "To load completions in your current shell session:",
      "",
      "\tsource <(hvm completion zsh)",
      "",
      "To load completions for every new session, execute once:",
      "",
      "#### Linux:",
      "",
      "\thvm completion zsh > \"$\x7bfpath[1]\x7d/_hvm\"",
      "",
      "#### macOS:",
      "",
      "\thvm completion zsh > $(brew --prefix)/share/zsh/site-functions/_hvm",
      "",
      "You will need to start a new shell for this setup to take effect."]
  | .fish => Bytes.ofLines [
      "Generate the autocompletion script for the fish shell.",
      "",
      "To load completions in your current shell session:",
      "",
      "\thvm completion fish | source",
      "",
      "To load completions for every new session, execute once:",
      "",
      "\thvm completion fish > ~/.config/fish/completions/hvm.fish",
      "",
      "You will need to start a new shell for this setup to take effect."]
  | .powershell => Bytes.ofLines [
      "Generate the autocompletion script for powershell.",
      "",
      "To load completions in your current shell session:",
      "",
      "\thvm completion powershell | Out-String | Invoke-Expression",
      "",
      "To load completions for every new session, add the output of the above command",
      "to your powershell profile."]

def description : Command → Bytes
  | root => "Parse, evaluate and serialize HVM interaction-net programs through the native engine " ++
      Bytes.ofString "or its wasm32 build."
  | run => Bytes.ofLines [
      "Parse a program, evaluate its @main definition and report the result.",
      "",
      "The program comes from --source or one of the embedded samples (--sample).",
      "Settings can be read from a YAML file with --config; flags override it.",
      "",
      "Example:",
      "  hvm run --sample fib --param N=40 --wasm ./hvm.wasm",
      "  hvm run --backend native --runtime c --source ./prog.hvm --mem-dump"]
  | serialize => Bytes.ofLines [
      "Parse a program and write the engine's binary encoding of it.",
      "",
      "Without --output the encoding is printed as hex."]
  | help => Bytes.ofLines [
      "Help provides help for any command in the application.",
      "Simply type hvm help [path to command] for full details."]
  | completions => Bytes.ofLines [
      "Generate the autocompletion script for hvm for the specified shell.",
      "See each sub-command's help for details on how to use the generated script."]
  | completion shell => completionText shell
  | request => Bytes.ofLines [
      "__complete is a special command that is used by the shell completion logic",
      "to request completion choices for the specified command-line."]
  | c => c.summary

end Command

end EngineHost.Cli
