import TestBench.Cli.Arguments
import TestBench.Console.Notice
import TestBench.Text.Terminal
/-!
# Help and version

The help text in the language of the messages; only the description of the program and those of its
four arguments are translated. With markup, titles are bold and underlined and what is typed
literally is bold.
-/
namespace TestBench.Cli

open Console (Message)

def version : String := "0.1.0"

def versionText : String := Console.programName ++ " " ++ version ++ "\n"

def shownName (args : List Bytes) : String :=
  match ((args.head?).bind Path.fileName?).bind Utf8.text? with
  | some name => name
  | none => Console.programName

structure Markup where
  marked : Bool
deriving DecidableEq, Repr

def title (s : String) : String := "\x1b[1m\x1b[4m" ++ s ++ "\x1b[0m"

def typed (s : String) : String := "\x1b[1m" ++ s ++ "\x1b[0m"

def markedHelp (l : Locale) (name : String) : String :=
  Message.about.text l [] ++ "\n\n"
    ++ title "Usage:" ++ " " ++ typed name ++ " [OPTIONS] <TEST_PLAN_FILE> <TARGET>\n\n"
    ++ title "Arguments:" ++ "\n"
    ++ "  <TEST_PLAN_FILE>  " ++ Message.planArgument.text l [] ++ "\n"
    ++ "  <TARGET>          "
    ++ Message.targetArgument.text l [("targets", String.intercalate ", " knownTargets)] ++ "\n\n"
    ++ title "Options:" ++ "\n"
    ++ "  " ++ typed "-c" ++ ", " ++ typed "--config" ++ " <CONFIG>  "
    ++ Message.configArgument.text l [] ++ "\n"
    ++ "      " ++ typed "--lang" ++ " <LANGUAGE>  " ++ Message.languageArgument.text l [] ++ "\n"
    ++ "  " ++ typed "-h" ++ ", " ++ typed "--help" ++ "             Print help\n"
    ++ "  " ++ typed "-V" ++ ", " ++ typed "--version" ++ "          Print version\n"

/-- Without markup all that is no plain text is taken out, in the name of the program too. -/
def helpText (m : Markup) (l : Locale) (name : String) : String :=
  if m.marked then markedHelp l name else Terminal.visible (markedHelp l name)

/-- What an argument list comes to: the arguments of a run, or a text and an exit code. -/
structure Answer where
  locale : Locale
  result : Except Nat Arguments
  printed : Console.Printed

/-- Reads an argument list. The language of all texts is fixed before. -/
def answer (env : Environment) (m : Markup) (colored : Bool) (args : List Bytes) : Answer :=
  let l := Locale.resolve env (scanLanguage args)
  match parse args with
  | .run a => ⟨l, .ok a, .empty⟩
  | .help => ⟨l, .error 0, .toOut (helpText m l (shownName args))⟩
  | .version => ⟨l, .error 0, .toOut versionText⟩
  | .usage => ⟨l, .error 1, .toOut (Console.Manner.usage ⟨l, colored⟩)⟩

end TestBench.Cli
