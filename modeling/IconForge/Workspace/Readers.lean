import IconForge.Service.Body
import IconForge.Workspace.Basic
import IconForge.Yaml.Document

/-!
# The readers of the program

Settings files are read as YAML 1.1, and the bodies of requests as JSON.
-/

namespace IconForge

/-- Reads YAML and JSON. -/
def Readers.standard : Readers := ⟨Yaml.reader, Service.reader⟩

end IconForge
