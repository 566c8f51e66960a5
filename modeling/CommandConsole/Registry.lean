import CommandConsole.Log
import CommandConsole.Signature
import CommandConsole.Text.Quoted

/-!
# CommandConsole.Registry — declared commands and how lines are resolved

A command has a name, a description and signatures, each bound to a handler. Declarations are
compiled into a registry all at once: the first defect stops the build. What a handler is does not
matter here.

* `Registry.build`: the registry of a list of declarations.
* `resolve`: the help or the signature that a line asks for. Commands come in the order they were
  declared in; of each, help comes before its signatures.
-/

namespace CommandConsole

variable {η : Type}

/-- How the lines of a declared signature are given. -/
inductive Grammar where
  | written (text : String)
  | custom (pattern display : String)
deriving DecidableEq, Repr

namespace Grammar

/-- How an error refers to the signature. -/
def source : Grammar → String
  | written text => text
  | custom _ display => display

/-- The signature that is meant. -/
def compile : Grammar → Except ConsoleError Signature
  | written text => Signature.compile text
  | custom pattern display => Signature.custom pattern display

end Grammar

/-- A declared signature. -/
structure SignatureDecl (η : Type) where
  grammar : Grammar
  hint : String
  handler : Option η

/-- A declared command; its name is trimmed when it is built. -/
structure CommandDecl (η : Type) where
  name : String
  description : String
  signatures : List (SignatureDecl η) := []

/-- A signature bound to its handler. -/
structure Binding (η : Type) where
  signature : Signature
  hint : String
  handler : η

/-- The binding as it is shown for inspection. -/
def Binding.inspect (b : Binding η) : String :=
  "SignatureDescriptor \x7b display: " ++ Text.quoted b.signature.display ++
    ", hint: " ++ Text.quoted b.hint ++ ", .. \x7d"

/-- A compiled command. -/
structure Command (η : Type) where
  name : String
  description : String
  bindings : List (Binding η)

namespace SignatureDecl

/-- Compiles the signature of a command. -/
def build (command : String) (d : SignatureDecl η) : Except ConsoleError (Binding η) := do
  let signature ← d.grammar.compile
  match d.handler with
  | some handler => return { signature, hint := d.hint, handler }
  | none => throw (.unresolvedHandler command d.grammar.source)

end SignatureDecl

namespace CommandDecl

/-- The name under which the command is known. -/
def trimmedName (d : CommandDecl η) : String := Text.trim d.name

/-- Compiles a command. -/
def build (d : CommandDecl η) : Except ConsoleError (Command η) := do
  let bindings ← d.signatures.mapM (·.build d.trimmedName)
  return { name := d.trimmedName, description := d.description, bindings }

end CommandDecl

namespace Command

/-- The requests for help: the name and a question mark, or `help` and the name. -/
def helpTemplates (name : String) : List Template :=
  [Template.exactly name.toList ++ [.one Text.blanks, .one (.only '?')],
    Template.exactly "help".toList ++ .one Text.blanks :: Template.exactly name.toList]

/-- Whether a line asks for help on the command. -/
def isHelpRequest (c : Command η) (line : String) : Bool :=
  (helpTemplates c.name).any fun t => Template.accepts t line

/-- A signature and its hint as a line of help. -/
def helpLine (b : Binding η) : String :=
  "\n  " ++ b.signature.display ++ " - " ++ b.hint

/-- The help on the command: its description and its signatures. -/
def helpText (c : Command η) : String :=
  c.name ++ " - " ++ c.description ++ String.join (c.bindings.map helpLine)

/-- The first signature that a line has, with the values in the line. -/
def matchLine (c : Command η) (line : String) : Option (Binding η × List String) :=
  c.bindings.findSome? fun b => (b.signature.captures? line).map (b, ·)

/-- The command with its handlers replaced. -/
def map {ζ : Type} (f : η → ζ) (c : Command η) : Command ζ :=
  { c with bindings := c.bindings.map fun b => { b with handler := f b.handler } }

/-- What the operator's log says about the command. -/
def announcement (c : Command η) : LogLine :=
  .debug s!"Registered command '{c.name}' ({c.bindings.length} signatures)"

end Command

/-- What a line asks for. -/
inductive Resolution (η : Type) where
  | help (command : Command η)
  | invoke (command : Command η) (binding : Binding η) (values : List String)

/-- Every command, in the order of the declarations. -/
structure Registry (η : Type) where
  commands : List (Command η) := []

namespace Registry

/-- Compiles declarations, given the names already taken. -/
def buildAfter (taken : List String) :
    List (CommandDecl η) → Except ConsoleError (List (Command η))
  | [] => .ok []
  | d :: ds =>
    if taken.contains d.trimmedName then .error (.duplicateCommand d.trimmedName)
    else do
      let c ← d.build
      return c :: (← buildAfter (d.trimmedName :: taken) ds)

/-- The registry of a list of declarations. -/
def build (ds : List (CommandDecl η)) : Except ConsoleError (Registry η) :=
  (buildAfter [] ds).map (⟨·⟩)

/-- What the operator's log says about the commands. -/
def announcements (r : Registry η) : List LogLine := r.commands.map (·.announcement)

/-- The command with a name. -/
def get? (r : Registry η) (name : String) : Option (Command η) :=
  r.commands.find? (·.name == name)

/-- The number of commands. -/
def size (r : Registry η) : Nat := r.commands.length

/-- The first command on which a line asks for help. -/
def matchHelp (r : Registry η) (line : String) : Option (Command η) :=
  r.commands.find? (·.isHelpRequest line)

/-- The first signature of all commands that a line has, with the values in the line. -/
def matchCommand (r : Registry η) (line : String) : Option (Binding η × List String) :=
  r.commands.findSome? (·.matchLine line)

/-- What a line asks of one command. -/
def resolveIn (line : String) (c : Command η) : Option (Resolution η) :=
  if c.isHelpRequest line then some (.help c)
  else (c.matchLine line).map fun (b, values) => .invoke c b values

/-- What a line asks for; the first command counts. -/
def resolve (r : Registry η) (line : String) : Option (Resolution η) :=
  r.commands.findSome? (resolveIn line)

/-- Whether a line has a signature. -/
def isValid (r : Registry η) (line : String) : Bool := (r.matchCommand line).isSome

/-- The registry with its handlers replaced. -/
def map {ζ : Type} (f : η → ζ) (r : Registry η) : Registry ζ := ⟨r.commands.map (·.map f)⟩

end Registry

end CommandConsole
