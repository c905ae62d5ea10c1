import RootedHeap.Config.Printing
import RootedHeap.Config.Reading
import RootedHeap.Files

/-!
Configurations in files. Saving makes the folder of the file if it is missing, before it looks at
the configuration, and writes last.
-/

namespace RootedHeap.Config

/-- The configuration in the file at a path. -/
def load (files : Files) (path : Path) : Except ConfigError Config := ofFile (files.read path)

/-- The files with every folder on the way to a path; if there is anything at the last of them
already, they stay as they are. -/
def prepare (files : Files) (path : Path) : Except ConfigError Files :=
  if (files.locate path.parent).isSome then .ok files
  else
    match files.makeFolder path.parent with
    | some files => .ok files
    | none => .error .inaccessible

/-- The files with a configuration saved at a path. -/
def save (files : Files) (path : Path) (c : Config) : Except ConfigError Files := do
  let files ← prepare files path
  let text ← c.text
  match files.write path text.toUTF8 with
  | some files => return files
  | none => .error .inaccessible

end RootedHeap.Config
