import Bindery.Files.Operations
import Bindery.Json.Reader
import Bindery.Spec.Reading
import Bindery.Toml.Reader

/-!
Spec files: their format, and how they are loaded.
-/

namespace Bindery

namespace Format

/-- The format that the extension of a path stands for. -/
def ofPath? (path : String) : Option Format :=
  match Path.lowerExtension? path with
  | some "json" => some .json
  | some "toml" => some .toml
  | _ => none

def document : Format → String → Document
  | .json => Json.document
  | .toml => Toml.document

end Format

/-- Why a spec file is refused. -/
inductive SpecFault where
  | unsupported (path : String)
  | unreadable (fault : FileFault)
  | unparsed (path : String) (format : Format) (fault : Fault)
  deriving DecidableEq, Repr

namespace SpecFault

/-- The outermost message, without its cause. -/
def headline : SpecFault → String
  | .unsupported path => s!"unsupported spec format: {path} (expected a .json or .toml file)"
  | .unreadable fault => fault.headline
  | .unparsed path _ _ => "failed to parse spec: " ++ path

/-- The message with its cause. -/
def message : SpecFault → String
  | .unsupported path => (unsupported path).headline
  | .unreadable fault => fault.message
  | .unparsed path format fault => (unparsed path format fault).headline ++ ": " ++
    fault.message format

end SpecFault

namespace Spec

/-- Reads the text of a spec. -/
def parse (format : Format) (text : String) : Except Fault Spec :=
  (format.document text).read read

/-- Loads a spec file, in the format of its extension. -/
def load (fs : FileSystem) (path : String) : Except SpecFault Spec := do
  let some format := Format.ofPath? path | throw (.unsupported path)
  match fs.readText path with
  | .error cause => throw (.unreadable ⟨.readSpec, path, cause⟩)
  | .ok text => (parse format text).mapError (.unparsed path format)

end Spec

end Bindery
