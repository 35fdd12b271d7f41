import Wiring.Decode.Writer
import Wiring.Toml.Basic
/-! Settings as a tree, before they are known to form a configuration. Layers of settings are laid
over each other table by table; elsewhere the upper layer wins. -/
namespace Wiring

inductive Setting where
  | text (s : String)
  | flag (b : Bool)
  /-- A number, which no setting takes. -/
  | number
  | list (items : List Setting)
  | table (entries : List (String × Setting))
  deriving Repr, Inhabited

namespace Setting

/-- The entries with a value put under a name. -/
def put (name : String) (value : Setting) : List (String × Setting) → List (String × Setting)
  | [] => [(name, value)]
  | (other, old) :: rest =>
    if other = name then (other, value) :: rest else (other, old) :: put name value rest

mutual

/-- A setting laid over another. -/
def overlay : Setting → Setting → Setting
  | .table upper, .table lower => .table (entriesOver upper lower)
  | upper, _ => upper

/-- Entries laid over others, in order: of two under one name the later wins. -/
def entriesOver : List (String × Setting) → List (String × Setting) → List (String × Setting)
  | [], lower => lower
  | (name, value) :: rest, lower =>
    let merged := match lower.lookup name with
      | some old => overlay value old
      | none => value
    entriesOver rest (put name merged lower)

end

mutual

/-- The setting of a TOML value. A date or time counts as a table without settings. -/
def ofToml : Toml → Setting
  | .text s => .text s
  | .flag b => .flag b
  | .number _ => .number
  | .moment _ => .table []
  | .array items => .list (ofItems items)
  | .table _ entries => .table (ofEntries entries)
  | .tables elements => .list (ofElements elements)

def ofItems : List Toml → List Setting
  | [] => []
  | value :: rest => ofToml value :: ofItems rest

def ofEntries : List (String × Toml) → List (String × Setting)
  | [] => []
  | (name, value) :: rest => (name, ofToml value) :: ofEntries rest

def ofElements : List (List (String × Toml)) → List Setting
  | [] => []
  | entries :: rest => .table (ofEntries entries) :: ofElements rest

end

def text? : Setting → Option String
  | .text s => some s
  | _ => none

def flag? : Setting → Option Bool
  | .flag b => some b
  | _ => none

/-- A record by names, or as a list of its fields, of which further items are ignored. -/
def record? (names : List String) : Setting → Option (Decode.Record Setting)
  | .table entries => Decode.Record.ofEntries? names entries
  | .list items => some ⟨names.zip items, true⟩
  | _ => none

instance : Decode.ValueTree Setting where
  text? := text?
  flag? := flag?
  absent? _ := some false
  record? := record?
  choice? := text?

def writer : Decode.Writer Setting where
  text := .text
  flag := .flag
  record := .table
  text?_text _ := rfl
  absent?_text _ := rfl
  choice?_text _ := rfl
  flag?_flag _ := rfl
  record?_record _ _ := rfl

end Setting
end Wiring
