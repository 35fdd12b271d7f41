import Wiring.Analysis.Extraction
/-! Memory of extractions. Extraction depends on the site and the model alone, so a cache belongs
to one model. Rejections are not kept: their diagnostics are due on every pass. -/
namespace Wiring

/-- Extractions by site, with counts of the questions answered and not answered. -/
structure Cache where
  entries : List (InvocationSite × Option RegistrationRecord) := []
  hits : Nat := 0
  misses : Nat := 0
  deriving DecidableEq, Repr, Inhabited

namespace Cache

/-- What the cache holds for a site; every part of the site counts, identities included. -/
def find? (c : Cache) (site : InvocationSite) : Option (Option RegistrationRecord) :=
  c.entries.lookup site

/-- Asks for a site; the answer is counted. -/
def get (c : Cache) (site : InvocationSite) : Option (Option RegistrationRecord) × Cache :=
  match c.find? site with
  | some extracted => (some extracted, { c with hits := c.hits + 1 })
  | none => (none, { c with misses := c.misses + 1 })

/-- Stores a value, in place of an earlier one for the site. -/
def insert (c : Cache) (site : InvocationSite) (extracted : Option RegistrationRecord) : Cache :=
  { c with entries := (site, extracted) :: c.entries.filter fun entry => entry.1 != site }

def size (c : Cache) : Nat := c.entries.length

def isEmpty (c : Cache) : Bool := c.entries.isEmpty

/-- A cleared cache is as a new one, counters included. -/
def clear (_ : Cache) : Cache := {}

/-- Answers from memory, or extracts and remembers what is no rejection. -/
def extract (e : Extractor) (c : Cache) (site : InvocationSite) : Extraction × Cache :=
  match c.get site with
  | (some extracted, c) => (.ok extracted, c)
  | (none, c) =>
    match e.extract site with
    | .ok extracted => (.ok extracted, c.insert site extracted)
    | .error rejection => (.error rejection, c)

/-- Extracts sites in order. -/
def extractAll (e : Extractor) : Cache → List InvocationSite → List Extraction × Cache
  | c, [] => ([], c)
  | c, site :: rest =>
    let (extraction, c) := c.extract e site
    let (extractions, c) := extractAll e c rest
    (extraction :: extractions, c)

end Cache
end Wiring
