import EntityModel.Schema.Codec
import EntityModel.Settings
import EntityModel.Yaml.Reader

/-!
# Parsers of documents

Schemas and settings are read from YAML documents, and records from JSON documents. Libraries of
others read them, so what a YAML document shows, and the reason that is given for a text that shows
nothing, are parameters. The parsers of plain YAML are an instance: they leave out anchors, aliases,
tags and directives.
-/

namespace EntityModel

/-- What the libraries for documents make of texts. -/
structure Parsers where
  /-- The definition of a schema that a YAML text shows, or the reason why it shows none. -/
  definition : String → Except String Definition
  /-- The settings that a YAML text shows, or the reason why it shows none. -/
  settings : String → Except String Settings
  /-- The reason why a text is no JSON document. -/
  jsonFault : String → String

namespace Parsers

/-- Parsers of plain YAML; `reason` words what is wrong with a text. -/
def plain (reason : String → String) : Parsers where
  definition text :=
    ((Yaml.read? text).bind (Definition.ofNode? .yaml)).elim (.error (reason text)) .ok
  settings text :=
    ((Yaml.read? text).bind (Settings.ofNode? .yaml)).elim (.error (reason text)) .ok
  jsonFault := reason

end Parsers

end EntityModel
