import HfsPlus.Volume

/-!
# The files that a program works on

The program meets files only through a `Host`: it asks what is at a path, makes a
file empty, adds bytes to it, and asks whether two paths lead to the same file. So
a request can be answered on the files of the system as well as on files that are
given.
-/

namespace HfsPlus.CommandLine

/-- Access to files by their paths. -/
structure Host (m : Type → Type) where
  /-- What is found at a path. -/
  status : String → m FileStatus
  /-- Make a file empty, or say why that cannot be done. -/
  create : String → m (Except String Unit)
  /-- Add bytes at the end of a file, or say why that cannot be done. -/
  append : String → Bytes → m (Except String Unit)
  /-- Whether two paths lead to the same file. -/
  sameFile : String → String → m Bool

/-- Use a host beside a state. -/
def Host.beside {m : Type → Type} [Monad m] (σ : Type) (host : Host m) : Host (StateT σ m) where
  status path := StateT.lift (host.status path)
  create path := StateT.lift (host.create path)
  append path bytes := StateT.lift (host.append path bytes)
  sameFile left right := StateT.lift (host.sameFile left right)

end HfsPlus.CommandLine
