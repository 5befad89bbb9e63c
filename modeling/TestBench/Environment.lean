/-!
# Environment variables
-/
namespace TestBench

abbrev Environment := List (String × String)

namespace Environment

/-- The value of a variable. A name that is empty or holds `=` or NUL names none. -/
def get? (env : Environment) (name : String) : Option String :=
  if name.isEmpty || name.toList.any (fun c => c == '=' || c == '\x00') then none
  else env.lookup name

/-- Sets a variable, in front of all earlier settings. -/
def set (env : Environment) (name value : String) : Environment :=
  (name, value) :: env.filter (·.1 != name)

end Environment
end TestBench
