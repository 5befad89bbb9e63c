import TestBench.Environment
/-!
# Message languages

Messages come in English and in simplified Chinese. A request that names neither falls back to the
part before its first hyphen, and that to English.
-/
namespace TestBench

inductive Locale where
  | english
  | chinese
deriving DecidableEq, Repr

namespace Locale

def tag : Locale → String
  | .english => "en"
  | .chinese => "zh-CN"

def ofTag? (s : String) : Option Locale :=
  if s = "en" then some .english else if s = "zh-CN" then some .chinese else none

def firstPart (s : String) : String := String.ofList (s.toList.takeWhile (· != '-'))

def ofRequest (s : String) : Locale :=
  match ofTag? s with
  | some l => l
  | none => (ofTag? (firstPart s)).getD .english

/-- A locale name as the system writes it: the encoding and the modifier are dropped, and the
country is set off by a hyphen. -/
def systemTag (s : String) : String :=
  String.ofList ((s.toList.takeWhile (fun c => c != '.' && c != '@')).map
    fun c => if c == '_' then '-' else c)

def nonEmpty (env : Environment) (name : String) : Option String :=
  (env.get? name).filter (!·.isEmpty)

/-- The system's language: the first entry of the language list, else the first of the three
locale variables that is set. -/
def system (env : Environment) : Option String :=
  match nonEmpty env "LANGUAGE" with
  | some v => some (systemTag (String.ofList (v.toList.takeWhile (· != ':'))))
  | none => ((nonEmpty env "LC_ALL").or ((nonEmpty env "LC_MESSAGES").or
      (nonEmpty env "LANG"))).map systemTag

def resolve (env : Environment) (requested : Option String) : Locale :=
  ofRequest ((requested.or (system env)).getD "en")

end Locale
end TestBench
