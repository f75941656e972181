import Conductor.Config.Document
import Conductor.Document.Writer
import Conductor.Machine.FileTree

/-!
# Configurations in files

A project keeps its configuration in a file of its own directory. Where there is no such
file the standard configuration holds.
-/

namespace Conductor

namespace DocumentLibrary

variable (lib : DocumentLibrary)

def loadFrom (files : FileTree) (path : String) : Except LaunchError Config :=
  match files.readText path with
  | .error fault => .error (.system fault)
  | .ok text =>
      match lib.config? text with
      | some c => .ok c
      | none => .error (.document "not a configuration")

/-- The configuration of a project. -/
def load (files : FileTree) (root : String) : Except LaunchError Config :=
  if files.has (Config.pathIn root) then lib.loadFrom files (Config.pathIn root)
  else .ok Config.standard

/-- Put the configuration of a project in place. -/
def save (files : FileTree) (root : String) (c : Config) : Except LaunchError FileTree :=
  match lib.write c.record with
  | none => .error (.document "not a record")
  | some text =>
      (files.replaceFile (Config.pathIn root) (Text.encode text)).mapError LaunchError.system

end DocumentLibrary

/-! ## The library of the command line -/

namespace Config

def document (c : Config) : String :=
  Document.write c.record

def ofDocument? (text : String) : Option Config :=
  Document.library.config? text

def loadFrom (files : FileTree) (path : String) : Except LaunchError Config :=
  Document.library.loadFrom files path

def load (files : FileTree) (root : String) : Except LaunchError Config :=
  Document.library.load files root

def save (files : FileTree) (root : String) (c : Config) : Except LaunchError FileTree :=
  Document.library.save files root c

end Config

end Conductor
