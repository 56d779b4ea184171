import EntityCompiler.Shape
import EntityCompiler.Specification.Basic

/-!
# Reading specifications

The specification that a value gives.  Every part is checked, in a fixed order, and all issues are
reported; keys that have no place are reported after the parts that have one.
-/

namespace EntityCompiler

/-- The storage flags of a column. -/
def StorageFlags.ofValue : Value → Checked StorageFlags
  | .dict entries =>
    let now := Shape.spelling "default_now" ["defaultNow"] entries
    StorageFlags.mk
      <$> Shape.optional false "primary" Shape.flag entries
      <*> Shape.optional false "unique" Shape.flag entries
      <*> Shape.optional false "index" Shape.flag entries
      <*> Shape.optional false now Shape.flag entries
      <* Shape.noOthers ["primary", "unique", "index", now] entries
  | _ => .fail .modelType

/-- The description of a column. -/
def ColumnSpecification.ofValue : Value → Checked ColumnSpecification
  | .dict entries =>
    ColumnSpecification.mk
      <$> Shape.required "type" Shape.any entries
      <*> Shape.optional false "optional" Shape.flag entries
      <*> Shape.optional false "nullable" Shape.flag entries
      <*> .accepted (Value.lookup? "default" entries)
      <*> Shape.optional none "description" (Shape.orNull Shape.nonempty) entries
      <*> Shape.optional .isPublic "visibility" (Shape.oneOf Visibility.all Visibility.name) entries
      <*> Shape.optional false "immutable" Shape.flag entries
      <*> Shape.optional true "stored" Shape.flag entries
      <*> .accepted (Value.lookup? "example" entries)
      <*> Shape.optional {} "db" StorageFlags.ofValue entries
      <* Shape.noOthers ["type", "optional", "nullable", "default", "description", "visibility",
        "immutable", "stored", "example", "db"] entries
  | _ => .fail .modelType

/-- The API settings of an entity. -/
def ApiSettings.ofValue : Value → Checked ApiSettings
  | .dict entries =>
    ApiSettings.mk
      <$> Shape.optional true "enabled" Shape.flag entries
      <*> Shape.optional [] "tags" (Shape.list Shape.text) entries
      <*> Shape.optional none "summary" (Shape.orNull Shape.text) entries
      <*> Shape.optional none "description" (Shape.orNull Shape.text) entries
      <* Shape.noOthers ["enabled", "tags", "summary", "description"] entries
  | _ => .fail .modelType

/-- The documentation of an entity. -/
def DocsSettings.ofValue : Value → Checked DocsSettings
  | .dict entries =>
    DocsSettings.mk
      <$> Shape.optional none "description" (Shape.orNull Shape.text) entries
      <*> Shape.optional [] "examples" (Shape.mapping Shape.any) entries
      <* Shape.noOthers ["description", "examples"] entries
  | _ => .fail .modelType

/-- The test mode of an entity.  False means none. -/
def TestMode.ofValue : Value → Checked (Option TestMode)
  | .bool false => .accepted none
  | v => Shape.orNull (Shape.oneOf TestMode.all TestMode.name) v

/-- The description of an entity. -/
def Specification.ofValue : Value → Checked Specification
  | .dict entries =>
    let columns := Shape.spelling "columns" ["fields"] entries
    Specification.mk
      <$> Shape.required "name" Shape.text entries
      <*> Shape.optional false "table" Shape.flag entries
      <*> Shape.required columns (Shape.mapping ColumnSpecification.ofValue) entries
      <*> Shape.optional false "doc" Shape.flag entries
      <*> Shape.optional none "test" TestMode.ofValue entries
      <*> Shape.optional true "active" Shape.flag entries
      <*> Shape.optional none "openapi" (Shape.orNull ApiSettings.ofValue) entries
      <*> Shape.optional none "docs" (Shape.orNull DocsSettings.ofValue) entries
      <* Shape.noOthers ["name", "table", columns, "doc", "test", "active", "openapi", "docs"]
        entries
  | _ => .fail .modelType

end EntityCompiler
