import TestBench.Environment
/-!
# When output is colored

The output goes to no terminal, so it is colored only where the environment forces colors.
-/
namespace TestBench.Console

/-- Notices are colored when colors are forced. -/
def colorsForced (env : Environment) : Bool :=
  match env.get? "CLICOLOR_FORCE" with
  | some v => v != "0"
  | none => false

/-- Help texts take any value for a demand, but they obey a refusal first. -/
def markupForced (env : Environment) : Bool :=
  let isSet := fun name => (env.get? name).getD "" != ""
  isSet "CLICOLOR_FORCE" && !isSet "NO_COLOR"

end TestBench.Console
