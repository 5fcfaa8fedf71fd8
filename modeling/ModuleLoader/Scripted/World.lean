import ModuleLoader.File.System
import ModuleLoader.OrderedMap
import ModuleLoader.Tsconfig.Options

/-! The world of scripted sessions, in which loaders are tried out without a JavaScript runtime: a
tree of files, and records of what the host and the engine were asked for. -/

namespace ModuleLoader.Scripted

open File Tsconfig

/-- A tree of files, and what was done so far. -/
structure World where
  files : FileSystem
  /-- The URLs of the modules that ran, in order. -/
  evaluated : List String := []
  /-- The number of native imports of each URL. -/
  imported : OrderedMap Nat := .empty
  /-- The number of calls of the engine for each file. -/
  transpiled : OrderedMap Nat := .empty
  /-- The options that the engine saw last for each file. -/
  options : OrderedMap CompilerOptions := .empty

def count (counts : OrderedMap Nat) (key : String) : OrderedMap Nat :=
  counts.insert key ((counts.get? key).getD 0 + 1)

end ModuleLoader.Scripted
