import EntityCompiler.Column.Parse
import EntityCompiler.Digest.Sha256
import EntityCompiler.Json.Text
import EntityCompiler.Specification.Basic
import EntityCompiler.Value.Plain

/-!
# Canonical forms and fingerprints

The canonical form of an entity is a JSON value in which every setting is written out, whether its
author gave it or not.  Columns are a list, because their order counts.  The fingerprint is the
digest of its text, in which the order of members does not count.
-/

namespace EntityCompiler

def StorageFlags.toJson (flags : StorageFlags) : Json :=
  .object [("primary", .bool flags.primary), ("unique", .bool flags.unique),
    ("index", .bool flags.index), ("default_now", .bool flags.defaultNow)]

/-- The canonical form of a column.  A default or example has a member only when there is one. -/
def Column.toJson (c : Column) : Json :=
  .object ([("type", c.type.toJson), ("optional", .bool c.optional), ("nullable", .bool c.nullable),
    ("description", Json.ofText? c.description), ("visibility", .text c.visibility.name),
    ("immutable", .bool c.immutable), ("stored", .bool c.stored), ("db", c.db.toJson)] ++
    Json.optionalMember "default" c.default ++ Json.optionalMember "example" c.sample)

def ApiSettings.toJson (settings : ApiSettings) : Json :=
  .object [("enabled", .bool settings.enabled), ("tags", Json.ofTexts settings.tags),
    ("summary", Json.ofText? settings.summary),
    ("description", Json.ofText? settings.description)]

def DocsSettings.toJson (settings : DocsSettings) : Json :=
  .object [("description", Json.ofText? settings.description),
    ("examples", .object (settings.examples.map fun (name, value) ↦ (name, value.plain)))]

/-- The value of a part that may be absent. -/
def Json.ofOption {α : Type} (toJson : α → Json) : Option α → Json
  | some x => toJson x
  | none => .null

/-- The canonical form of a specification with the columns built from it. -/
def Specification.canonical (spec : Specification) (columns : List (String × Column)) : Json :=
  .object [("name", .text spec.name), ("table", .bool spec.table), ("doc", .bool spec.doc),
    ("test", Json.ofText? (spec.test.map TestMode.name)), ("active", .bool spec.active),
    ("openapi", Json.ofOption ApiSettings.toJson spec.openapi),
    ("docs", Json.ofOption DocsSettings.toJson spec.docs),
    ("columns", .array (columns.map fun (name, column) ↦ .array [.text name, column.toJson]))]

/-- The digest that identifies a canonical form. -/
def Json.fingerprint (canonical : Json) : String :=
  Sha256.digest canonical.canonicalText.toUTF8.toList

end EntityCompiler
