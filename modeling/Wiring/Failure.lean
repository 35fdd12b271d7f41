/-! Failures of the machinery around an analysis: loading models, configuration, files. Problems
with the analyzed registrations are diagnostics and never failures. -/
namespace Wiring

/-- What the file system answers when it refuses an operation. -/
inductive FileError where
  | notFound | exists | isDirectory | notDirectory | nameTooLong
  /-- A path holds the character that ends texts. -/
  | nulInName
  /-- The bytes of the file are no text. -/
  | invalidText
  /-- Any other refusal, by its description and number. -/
  | other (description : String) (number : Nat)
  deriving DecidableEq, Repr, Inhabited

def FileError.message : FileError → String
  | .notFound => "No such file or directory (os error 2)"
  | .exists => "File exists (os error 17)"
  | .isDirectory => "Is a directory (os error 21)"
  | .notDirectory => "Not a directory (os error 20)"
  | .nameTooLong => "File name too long (os error 36)"
  | .nulInName => "file name contained an unexpected NUL byte"
  | .invalidText => "stream did not contain valid UTF-8"
  | .other description number => description ++ " (os error " ++ toString number ++ ")"

/-- Serialization format of a model document. -/
inductive DocumentFormat where
  | json | yaml
  deriving DecidableEq, Repr, Inhabited

/-- The name of the format in messages. -/
def DocumentFormat.label : DocumentFormat → String
  | .json => "JSON"
  | .yaml => "YAML"

/-- The part of the program a failure belongs to. -/
inductive Area where
  | files | invalidArgument | model | emission | configuration | infrastructure
  deriving DecidableEq, Repr, Inhabited

/-- How a message of the area opens. -/
def Area.label : Area → String
  | .files => "I/O error"
  | .invalidArgument => "Invalid argument"
  | .model => "Symbol model error"
  | .emission => "Emit error"
  | .configuration => "Configuration error"
  | .infrastructure => "Infrastructure error"

inductive Failure where
  | duplicateType (name : String)
  | undeclaredBase (type base : String)
  | inheritanceCycle (type : String)
  | malformedDocument (format : DocumentFormat)
  | unsupportedModelFile (path : String)
  | unknownReportFormat (text : String)
  | unreadableModel (path : String) (cause : FileError)
  | unwritableConfig (path : String) (cause : FileError)
  | missingConfig (path : String)
  /-- The merged layers do not have the form of a configuration. -/
  | unextractableConfig
  | invalidLogLevel (level : String)
  | blankSetting (key : String)
  /-- A foreign failure, reported under a context. -/
  | foreign (area : Area) (context cause : String)
  deriving DecidableEq, Repr, Inhabited

namespace Failure

def area : Failure → Area
  | .duplicateType _ => .model
  | .undeclaredBase _ _ => .model
  | .inheritanceCycle _ => .model
  | .malformedDocument _ => .model
  | .unsupportedModelFile _ => .invalidArgument
  | .unknownReportFormat _ => .invalidArgument
  | .unreadableModel _ _ => .files
  | .unwritableConfig _ _ => .files
  | .missingConfig _ => .configuration
  | .unextractableConfig => .configuration
  | .invalidLogLevel _ => .configuration
  | .blankSetting _ => .configuration
  | .foreign area _ _ => area

def detail : Failure → String
  | .duplicateType name => "Type '" ++ name ++ "' is declared more than once"
  | .undeclaredBase type base =>
    "Type '" ++ type ++ "' derives from undeclared type '" ++ base ++ "'"
  | .inheritanceCycle type => "Inheritance cycle through type '" ++ type ++ "'"
  | .malformedDocument format => "Failed to parse " ++ format.label ++ " model document"
  | .unsupportedModelFile path =>
    "Unsupported model file '" ++ path ++ "': expected a .json, .yaml or .yml extension"
  | .unknownReportFormat text =>
    "Unknown report format '" ++ text ++ "', expected 'human' or 'json'"
  | .unreadableModel path cause => "Failed to read model file " ++ path ++ ": " ++ cause.message
  | .unwritableConfig path cause => "Failed to write config file " ++ path ++ ": " ++ cause.message
  | .missingConfig path => "Configuration file not found: " ++ path
  | .unextractableConfig => "Failed to extract configuration"
  | .invalidLogLevel level =>
    "Invalid log level: " ++ level ++ ". Use trace, debug, info, warn, or error"
  | .blankSetting key => key ++ " cannot be empty"
  | .foreign _ context cause => context ++ ": " ++ cause

/-- The area, then what went wrong. -/
def message (f : Failure) : String := f.area.label ++ ": " ++ f.detail

end Failure
end Wiring
