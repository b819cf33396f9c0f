import Scaffold.CommandLine.Run
import Scaffold.Host.Attributes
import Scaffold.Host.Markup
import Scaffold.Host.Schema
import Scaffold.Host.Stencil.Render
import Scaffold.Host.Yaml.Reader

/-!
# Libraries

What the program is run with.  These are stand-ins, written to run the program and to try it on examples; what is
known about the program is known for any libraries.
-/

namespace Scaffold.Host

/-- The libraries at hand. -/
def libraries : CommandLine.Libraries := ⟨schema, Yaml.documents, attributes, Stencil.renderings, console⟩

end Scaffold.Host
