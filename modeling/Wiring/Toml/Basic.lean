/-! TOML values, and tables under construction: which lines may still add to a table depends on how
it came to be. -/
namespace Wiring

/-- How a table came to be. -/
inductive Toml.Origin where
  /-- By its own header, or as the document itself. -/
  | header
  /-- By the header of a table inside it. -/
  | implied
  /-- By a dotted key. -/
  | dotted
  /-- Written out in braces. -/
  | braces
  deriving DecidableEq, Repr, Inhabited

inductive Toml where
  | text (s : String)
  | flag (b : Bool)
  /-- A number, as written. -/
  | number (written : String)
  /-- A date, a time, or both, as written. -/
  | moment (written : String)
  | array (items : List Toml)
  | table (origin : Toml.Origin) (entries : List (String × Toml))
  /-- Tables under one repeated header. -/
  | tables (elements : List (List (String × Toml)))
  deriving Repr, Inhabited

namespace Toml

/-- The entries of a table, in order. -/
abbrev Entries := List (String × Toml)

/-- The entries with another value under a name that they hold. -/
def replace (name : String) (value : Toml) : Entries → Entries
  | [] => []
  | (other, old) :: rest =>
    if other = name then (other, value) :: rest else (other, old) :: replace name value rest

/-- Whether a dotted key may lead into a table, or the path of a header may. -/
def Origin.isOpenTo (dotted : Bool) : Origin → Bool
  | .header => !dotted
  | .implied => true
  | .dotted => true
  | .braces => false

/-- The origin of a table that a path creates on its way. -/
def Origin.onTheWay (dotted : Bool) : Origin := if dotted then .dotted else .implied

/-- Changes the table at the end of a path. Missing tables are created on the way, and the last
table of a repeated header stands for all of them. -/
def change? (dotted : Bool) (f : Origin → Entries → Option Entries) :
    List String → Origin → Entries → Option Entries
  | [], origin, entries => f origin entries
  | name :: path, _, entries =>
    match entries.lookup name with
    | none =>
      (change? dotted f path (.onTheWay dotted) []).map fun inner =>
        entries ++ [(name, .table (.onTheWay dotted) inner)]
    | some (.table origin inner) =>
      if origin.isOpenTo dotted then
        (change? dotted f path origin inner).map fun inner =>
          replace name (.table origin inner) entries
      else none
    | some (.tables elements) =>
      match elements.getLast? with
      | some last =>
        (change? dotted f path .header last).map fun last =>
          replace name (.tables (elements.dropLast ++ [last])) entries
      | none => none
    | some _ => none

/-- Adds a value under a dotted key. Only the key that a table was created by may lead to it, and
no name is given twice. -/
def assign? (path : List String) (name : String) (value : Toml) :
    Origin → Entries → Option Entries :=
  change? true (fun origin entries =>
    if (origin == .dotted) == path.isEmpty || (entries.lookup name).isSome then none
    else some (entries ++ [(name, value)])) path

/-- Opens the table of a header. A table may have been implied before, but never given. -/
def openTable? (path : List String) (name : String) : Entries → Option Entries :=
  change? false (fun _ entries =>
    match entries.lookup name with
    | none => some (entries ++ [(name, .table .header [])])
    | some (.table .implied inner) => some (replace name (.table .header inner) entries)
    | some _ => none) path .header

/-- Opens one more table under a repeated header. -/
def openElement? (path : List String) (name : String) : Entries → Option Entries :=
  change? false (fun _ entries =>
    match entries.lookup name with
    | none => some (entries ++ [(name, .tables [[]])])
    | some (.tables elements) => some (replace name (.tables (elements ++ [[]])) entries)
    | some _ => none) path .header

end Toml
end Wiring
