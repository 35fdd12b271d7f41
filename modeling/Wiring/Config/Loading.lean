import Wiring.Codec.Config
import Wiring.Config.Variable
import Wiring.Files.System
import Wiring.Toml.Reader
/-! Where a configuration comes from: a file, and environment variables over it. What neither sets
is at its default. -/
namespace Wiring

/-- What a process is told by the one that starts it. -/
structure Environment where
  /-- Variables and their values. -/
  named : List (String × String) := []
  /-- The user's directory for configuration files. -/
  configDirectory : Option String := none
  deriving Repr, Inhabited

namespace Environment

/-- The environment of a process's variables. The directory for configuration files is one they
name, or the usual one in the home directory. -/
def ofVariables (named : List (String × String)) : Environment :=
  let chosen := (named.lookup "XDG_CONFIG_HOME").filter fun path => path.startsWith "/"
  let usual := (named.lookup "HOME").map fun home => home ++ "/.config"
  ⟨named, chosen.orElse fun _ => usual⟩

/-- The variables in the text of a block, each ended by the character that ends texts. -/
def variablesOfBlock (block : String) : List (String × String) :=
  (Text.splitString '\x00' block).filterMap fun entry =>
    match entry.toList.dropWhile (· != '=') with
    | _ :: value => some (String.ofList (entry.toList.takeWhile (· != '=')), String.ofList value)
    | [] => none

end Environment

namespace Config

/-- Start of the names of environment variables, before an underscore. -/
def defaultVariableStart : String := "WIREBIND"

def fileName : String := "wirebind.toml"

/-- The directory that may hold the file. -/
def directoryName : String := "wirebind"

/-- The places where a file is looked for, in order. -/
def defaultPaths (environment : Environment) : List String :=
  [fileName, directoryName ++ "/" ++ fileName]
    ++ (environment.configDirectory.map fun directory =>
      directory ++ "/" ++ directoryName ++ "/" ++ fileName).toList

/-- All settings of a configuration. -/
def toSetting (c : Config) : Setting := c.written Setting.writer

/-- The configuration of two layers of settings over the defaults. -/
def ofLayers (file upper : Setting) : Except Failure Config :=
  match decode? (Setting.overlay upper (Setting.overlay file ({} : Config).toSetting)) with
  | some config => config.validate
  | none => .error .unextractableConfig

/-- The settings in the text of a file. -/
def settingsOfText? (text : String) : Option Setting :=
  (Toml.parse? text).map fun entries => .table (Setting.ofEntries entries)

/-- The settings that reading a file gives. What is no file has none. -/
def fileLayer (content : Except FileError String) : Except Failure Setting :=
  match content with
  | .ok text =>
    match settingsOfText? text with
    | some settings => .ok settings
    | none => .error .unextractableConfig
  | .error .invalidText => .error .unextractableConfig
  | .error _ => .ok (.table [])

variable {m : Type → Type} [Monad m] [FileSystem m]

/-- The first path of a list with anything there. -/
def firstPresent : List String → m (Option String)
  | [] => return none
  | path :: rest => do
    if ← FileSystem.isPresent path then return some path
    firstPresent rest

/-- The path that is read: the explicit one, else the first default place with anything there. -/
def sourcePath (explicit : Option String) (environment : Environment) : m (Option String) :=
  match explicit with
  | some path => return some path
  | none => firstPresent (defaultPaths environment)

/-- The settings of the file. An explicit path must lead somewhere; without one there may be no
file. -/
def readLayer (explicit : Option String) (environment : Environment) :
    m (Except Failure Setting) := do
  match explicit with
  | some path =>
    if ← FileSystem.isPresent path then return fileLayer (← FileSystem.readText path)
    else return .error (.missingConfig path)
  | none =>
    match ← firstPresent (defaultPaths environment) with
    | some path => return fileLayer (← FileSystem.readText path)
    | none => return .ok (.table [])

/-- Loads the configuration, with variables whose names start with `start` and an underscore. -/
def load (explicit : Option String) (start : String) (environment : Environment) :
    m (Except Failure Config) := do
  let file ← readLayer explicit environment
  return file.bind fun file => ofLayers file (Setting.ofVariables (start ++ "_") environment.named)

end Config
end Wiring
