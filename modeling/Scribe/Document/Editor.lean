import Scribe.Document.Basic
import Scribe.Typing.Editor

set_option autoImplicit false

/-! # Documents as editors

A document in memory is edited by the same calls as an open one. -/

namespace Scribe

/-- The editor of a document in memory. -/
def Document.editor (c : Document.Connection) : Editor Document where
  perform := Document.perform
  identity doc := (doc.identity.map some, doc)
  connect := Document.connect c

end Scribe
