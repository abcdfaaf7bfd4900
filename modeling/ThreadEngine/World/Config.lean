import ThreadEngine.Failure.Error
set_option autoImplicit false

/-!
# Runtime configuration

The configuration that threads are built from, and the process-wide cell that holds it.  The cell
is decided once: by the first installation or by the first reading, which fixes the default.
-/

namespace ThreadEngine

/-- Configuration read when a thread is built. -/
structure Config where
  /-- most frames on one thread's frame stack -/
  maxStackDepth : Nat
  deriving DecidableEq, Repr, Inhabited

namespace Config

/-- Frame-stack depth of a thread unless configured otherwise. -/
def defaultDepth : Nat := 1024

/-- The default configuration. -/
def standard : Config := ⟨defaultDepth⟩

/-- Sets the frame-stack depth limit. -/
def withMaxStackDepth (_ : Config) (depth : Nat) : Config := ⟨depth⟩

end Config

/-- The process-wide configuration, once it is decided. -/
structure ConfigCell where
  decided : Option Config
  deriving DecidableEq, Repr, Inhabited

namespace ConfigCell

/-- Nothing decided yet. -/
def fresh : ConfigCell := ⟨none⟩

/-- Installs a configuration, which succeeds only while nothing is decided. -/
def install (cell : ConfigCell) (c : Config) : Except Error Unit × ConfigCell :=
  match cell.decided with
  | none => (.ok (), ⟨some c⟩)
  | some _ => (.error .configAlreadyInstalled, cell)

/-- Reads the configuration; the first reading decides for the default. -/
def read (cell : ConfigCell) : Config × ConfigCell :=
  match cell.decided with
  | some c => (c, cell)
  | none => (Config.standard, ⟨some Config.standard⟩)

end ConfigCell

end ThreadEngine
