import Wiring.Analysis.Cache
/-! Extraction of sites side by side, over one cache. Every site is a task of its own: it asks the
cache and, when there is no answer, extracts and stores what is no rejection. Asking is one step and
storing is one step; between them the other tasks may take any of theirs. -/
namespace Wiring

/-- How far the task of a site has come. -/
inductive Progress where
  | waiting
  /-- The cache had no answer. -/
  | missed
  /-- Extracted, and not stored yet. -/
  | extracted (found : Option RegistrationRecord)
  | done (extraction : Extraction)
  deriving Inhabited

namespace Progress

/-- The next step of a task, with the cache it leaves behind. A task that is done has none. -/
def next? (e : Extractor) (site : InvocationSite) (c : Cache) :
    Progress → Option (Progress × Cache)
  | .waiting =>
    match c.get site with
    | (some found, c) => some (.done (.ok found), c)
    | (none, c) => some (.missed, c)
  | .missed =>
    match e.extract site with
    | .ok found => some (.extracted found, c)
    | .error rejection => some (.done (.error rejection), c)
  | .extracted found => some (.done (.ok found), c.insert site found)
  | .done _ => none

def result? : Progress → Option Extraction
  | .done extraction => some extraction
  | _ => none

end Progress

/-- A pass over sites that is under way. -/
structure Pass where
  cache : Cache
  tasks : List (InvocationSite × Progress)
  deriving Inhabited

namespace Pass

def start (c : Cache) (sites : List InvocationSite) : Pass :=
  ⟨c, sites.map fun site => (site, .waiting)⟩

/-- What the task of each site has found so far, in the order of the sites. -/
def results (p : Pass) : List (Option Extraction) := p.tasks.map fun task => task.2.result?

/-- Some task takes its next step. -/
inductive Step (e : Extractor) : Pass → Pass → Prop where
  | task (before after : List (InvocationSite × Progress)) {site : InvocationSite}
    {progress next : Progress} {c c' : Cache} (h : progress.next? e site c = some (next, c')) :
    Step e ⟨c, before ++ (site, progress) :: after⟩ ⟨c', before ++ (site, next) :: after⟩

end Pass
end Wiring
