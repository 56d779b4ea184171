import EntityCompiler.Calendar.Instant
import EntityCompiler.Column.Parse
import EntityCompiler.Issue

/-!
# Errors

The reasons for which a specification does not become an entity or an entity does not become an
artifact, each with its message.
-/

namespace EntityCompiler

/-- The families of errors whose message is given by the caller. -/
inductive ErrorFamily where
  | entity
  | validation
  | generation
  | specification
deriving DecidableEq, Repr

/-- Why a specification is no entity, or an entity has no artifact. -/
inductive EntityError where
  /-- A specification that is not a dictionary. -/
  | notAMapping (found : String)
  /-- A specification of the wrong shape. -/
  | shape (entity : Option String) (issues : List Issue)
  | noColumns (entity : String)
  /-- A column filled with the current time that is not a date. -/
  | defaultNowType (entity column declaredType : String)
  /-- A column with a default that is also filled with the current time. -/
  | defaultNowAndDefault (entity column : String)
  /-- A column of the primary key that accepts null. -/
  | nullablePrimaryKey (entity column : String)
  /-- A name that does not match its pattern. -/
  | invalidName (kind : String) (name : Value) (pattern : String) (entity : Option String)
  | invalidColumnType (column : String) (raw : Value) (entity : Option String)
  /-- A default or example that the column type does not admit. -/
  | invalidLiteral (role column declaredType : String) (value : Value) (reason : String)
      (entity : Option String)
  | unsupportedDialect (dialect : Value) (supported : List String)
  /-- A column type that a backend cannot represent. -/
  | unsupportedType (column declaredType backend : String) (entity : Option String)
  /-- Something that is nested too deeply to be written out. -/
  | tooDeep
  /-- An integer with more digits than a numeral may have. -/
  | tooManyDigits
  /-- Bytes that are not those of a text. -/
  | notUtf8 (data : List UInt8)
  /-- A value that cannot become the text of a key. -/
  | notAKey (found : String)
  /-- A collection that has no written form. -/
  | notSerializable
  | stated (family : ErrorFamily) (message : String) (entity : Option String)

namespace EntityError

private def columnOf (column entity : String) : String :=
  "Column " ++ Text.quoted column ++ " of entity " ++ Text.quoted entity ++ ": "

def message : EntityError → String
  | .notAMapping found =>
    "Entity specification must be a mapping or EntitySpecification, got " ++ found
  | .shape entity _ => "Invalid specification for entity " ++ Text.quotedOption entity
  | .noColumns entity =>
    "Entity " ++ Text.quoted entity ++ " must define at least one column"
  | .defaultNowType entity column declaredType =>
    columnOf column entity ++ "default_now requires type date, got " ++ declaredType
  | .defaultNowAndDefault entity column =>
    columnOf column entity ++ "default and default_now are mutually exclusive"
  | .nullablePrimaryKey entity column =>
    columnOf column entity ++ "a primary key cannot be optional or nullable"
  | .invalidName kind name pattern entity =>
    if kind = "entity" then
      "Invalid entity name " ++ name.display ++
        ": entity names must be PascalCase (expected pattern " ++ pattern ++ ")"
    else
      "Invalid " ++ kind ++ " name " ++ name.display ++ " in entity " ++ Text.quotedOption entity ++
        " (expected pattern " ++ pattern ++ ")"
  | .invalidColumnType column raw entity =>
    "Column " ++ Text.quoted column ++ " of entity " ++ Text.quotedOption entity ++
      " has an invalid type: " ++ raw.display
  | .invalidLiteral role column declaredType value reason entity =>
    "Invalid " ++ role ++ " for column " ++ Text.quoted column ++ " of entity " ++
      Text.quotedOption entity ++ ": declared type " ++ declaredType ++ " does not accept " ++
      value.display ++ (if reason = "" then "" else " (" ++ reason ++ ")")
  | .unsupportedDialect dialect supported =>
    "Unsupported SQL dialect: " ++ dialect.display ++
      (if supported = [] then ""
        else " (supported: " ++ ", ".intercalate supported ++ ")")
  | .unsupportedType column declaredType backend entity =>
    "Column " ++ Text.quoted column ++ " of entity " ++ Text.quotedOption entity ++ ": type " ++
      declaredType ++ " has no representation in " ++ backend
  | .tooDeep => "Maximum serialization depth exceeded"
  | .tooManyDigits =>
    "Exceeds the limit (" ++ Numeral.ofNat Numeral.digitLimit ++
      " digits) for integer string conversion; use sys.set_int_max_str_digits() to increase the limit"
  | .notUtf8 data =>
    let position := Text.utf8Length data
    "'utf-8' codec can't decode byte 0x" ++
      String.ofList (Numeral.hexDigits 2 (data.getD position 0).toNat) ++ " in position " ++
      Numeral.ofNat position ++ ": invalid utf-8"
  | .notAKey found => "\x60" ++ found ++ "\x60 not valid as object key"
  | .notSerializable => "Unable to serialize unknown type: <class 'collections.deque'>"
  | .stated _ message _ => message

/-- The entity that an error is about. -/
def entity? : EntityError → Option String
  | .notAMapping _ => none
  | .shape entity _ => entity
  | .noColumns entity => some entity
  | .defaultNowType entity _ _ => some entity
  | .defaultNowAndDefault entity _ => some entity
  | .nullablePrimaryKey entity _ => some entity
  | .invalidName _ _ _ entity => entity
  | .invalidColumnType _ _ entity => entity
  | .invalidLiteral _ _ _ _ _ entity => entity
  | .unsupportedDialect _ _ => none
  | .unsupportedType _ _ _ entity => entity
  | .tooDeep => none
  | .tooManyDigits => none
  | .notUtf8 _ => none
  | .notAKey _ => none
  | .notSerializable => none
  | .stated _ _ entity => entity

/-- The error that shows a value in its message, where the value can be shown. -/
def showing (v : Value) (error : EntityError) : EntityError :=
  if v.isShowable then error else .tooManyDigits

end EntityError

/-- Why a run fails. -/
inductive Failure where
  | entity (error : EntityError)
  /-- Settings or a specification of the wrong shape. -/
  | issues (issues : List Issue)
  | unknownTableNaming (value : Value)
  | columnType (fault : ColumnType.Fault)
  | instant (refusal : Instant.Refusal)
  /-- A moment whose day in universal time is not in the calendar. -/
  | dateOutOfRange
  /-- A value that has no JSON text. -/
  | notJson
  /-- A pool without workers. -/
  | noWorkers
  /-- A look-up under an unknown name. -/
  | unknownName (name : Value)
  | numeral (fault : Numeral.Fault)
  | unknownComponent (value : Value)
  /-- A setting or context field that does not exist, or that has no value of the right kind. -/
  | unknownField
  | unknownLevel (text : String)
  /-- A level that is neither a number nor a name. -/
  | levelType

/-- The number of characters that a message shows of a quoted text that is not a numeral. -/
def Numeral.shownLength : Nat := 200

def Numeral.Fault.message : Numeral.Fault → String
  | .notANumeral text =>
    "invalid literal for int() with base 10: " ++
      String.ofList ((Text.quoted text).toList.take Numeral.shownLength)
  | .tooLong digits =>
    "Exceeds the limit (" ++ Numeral.ofNat Numeral.digitLimit ++
      " digits) for integer string conversion: value has " ++ Numeral.ofNat digits ++
      " digits; use sys.set_int_max_str_digits() to increase the limit"

/-- The message of a failure, if it has one of its own. -/
def Failure.message? : Failure → Option String
  | .entity error => some error.message
  | .issues _ => none
  | .unknownTableNaming value => some (value.display ++ " is not a valid TableNaming")
  | .columnType fault => some fault.message
  | .instant refusal => some refusal.message
  | .dateOutOfRange => some "date value out of range"
  | .notJson => none
  | .noWorkers => some "max_workers must be greater than 0"
  | .unknownName name => some name.display
  | .numeral fault => some fault.message
  | .unknownComponent value => some (value.display ++ " is not a valid ComponentType")
  | .unknownField => none
  | .unknownLevel text => some ("Unknown level: " ++ Text.quoted text)
  | .levelType => none

end EntityCompiler
