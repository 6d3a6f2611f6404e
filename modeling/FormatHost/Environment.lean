/-! # The environment of a process

Variables and their values. The home directory and the directory for configurations, in which
users keep what several programs look at, are found through them.
-/

namespace FormatHost

structure Environment where
  /-- The variables and their values. -/
  bindings : List (String × String)
  /-- The home directory of the account that the process runs under, as far as it is known. -/
  accountHome : Option String

namespace Environment

def get? (env : Environment) (name : String) : Option String :=
  env.bindings.lookup name

def has (env : Environment) (name : String) : Bool :=
  (env.get? name).isSome

def nonempty? (env : Environment) (name : String) : Option String :=
  (env.get? name).filter (!·.isEmpty)

/-- The home directory: that of the account, unless a variable names another one. An empty name is
that of the working directory. -/
def home? (env : Environment) : Option String :=
  (env.get? "HOME").or env.accountHome

/-- The home directory, where an empty name does not count. -/
def properHome? (env : Environment) : Option String :=
  (env.nonempty? "HOME").or env.accountHome

end Environment

end FormatHost
