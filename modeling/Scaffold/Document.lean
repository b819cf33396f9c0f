import Scaffold.Value.Basic

/-!
# Documents

Manifests and the values of parameters are written as documents, whose values a library reads.  It is no part of
this program, and given as `Documents`.
-/

namespace Scaffold

/-- Why a text has no value as a document. -/
inductive DocumentFault where
  /-- The text is no document, for a reason. -/
  | malformed (reason : String)
  /-- A value in the document is refused where it is made. -/
  | value (message : String)
  /-- Anything else that goes wrong: its kind, and its own words. -/
  | raised (kind message : String)
  deriving DecidableEq, Repr

/-- The wording of a fault. -/
def DocumentFault.message : DocumentFault → String
  | .malformed reason => reason
  | .value message => message
  | .raised _ message => message

/-- Reads the value of a document. -/
abbrev Documents := String → Except DocumentFault Value

end Scaffold
