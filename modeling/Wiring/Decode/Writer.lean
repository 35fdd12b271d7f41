import Wiring.Decode.Tree
/-! What data is written to. The writers of domain types are written once, for any format that reads
back what it writes. -/
namespace Wiring.Decode

/-- The forms in which a format writes texts, truth values and records, such that they are read
back. -/
structure Writer (ν : Type) [ValueTree ν] where
  text : String → ν
  flag : Bool → ν
  record : List (String × ν) → ν
  text?_text : ∀ s, text? (text s) = some s
  absent?_text : ∀ s, absent? (text s) = some false
  choice?_text : ∀ s, choice? (text s) = some s
  flag?_flag : ∀ b, flag? (flag b) = some b
  record?_record : ∀ names fields,
    record? names (record fields) = Record.ofEntries? names fields

end Wiring.Decode
