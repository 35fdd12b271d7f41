import Wiring.Proofs.Config.Setting
import Wiring.Toml.Reader

/-! A document that is read gives no name twice: a name is only added to a table that does not hold
it, and whatever else changes a table keeps its names. -/
namespace Wiring.Toml

theorem ofEntries_eq_map (entries : Entries) :
    Setting.ofEntries entries = entries.map fun entry => (entry.1, Setting.ofToml entry.2) := by
  induction entries with
  | nil => rfl
  | cons entry rest ih => rw [Setting.ofEntries, ih, List.map_cons]

/-- The settings of entries give no name twice. -/
def Distinct (entries : Entries) : Prop := (Setting.table (Setting.ofEntries entries)).Distinct

variable {name : String} {value : Toml} {entries : Entries}

theorem distinct_iff :
    Distinct entries ↔ (entries.map Prod.fst).Nodup ∧
      ∀ entry ∈ entries, (Setting.ofToml entry.2).Distinct := by
  have hnames : (Setting.ofEntries entries).map Prod.fst = entries.map Prod.fst := by
    rw [ofEntries_eq_map, List.map_map]
    rfl
  have hvalues : (∀ entry ∈ Setting.ofEntries entries, entry.2.Distinct) ↔
      ∀ entry ∈ entries, (Setting.ofToml entry.2).Distinct := by
    rw [ofEntries_eq_map, List.forall_mem_map]
  rw [← hnames, ← hvalues]
  constructor
  · rintro (_ | _ | _ | _ | ⟨names, values⟩)
    exact ⟨names, values⟩
  · exact fun h => .table h.1 h.2

theorem distinct_nil : Distinct [] := Setting.distinct_empty

theorem Distinct.of_lookup (h : Distinct entries) (hfound : entries.lookup name = some value) :
    (Setting.ofToml value).Distinct := by
  obtain ⟨before, after, hentries, _⟩ := List.lookup_eq_some_iff.mp hfound
  exact (distinct_iff.mp h).2 (name, value) (by simp [hentries])

theorem Distinct.concat (h : Distinct entries) (hname : entries.lookup name = none)
    (hvalue : (Setting.ofToml value).Distinct) : Distinct (entries ++ [(name, value)]) := by
  obtain ⟨hnames, hvalues⟩ := distinct_iff.mp h
  refine distinct_iff.mpr ⟨?_, fun entry hentry => ?_⟩
  · rw [List.map_append, List.nodup_append]
    refine ⟨hnames, by simp, fun old hold new hnew => ?_⟩
    obtain ⟨entry, hentry, rfl⟩ := List.mem_map.mp hold
    rw [List.lookup_eq_none_iff] at hname
    obtain rfl : new = name := by simpa using hnew
    exact fun heq => by simpa [heq] using hname entry hentry
  · rcases List.mem_append.mp hentry with hold | hnew
    · exact hvalues entry hold
    · obtain rfl := List.mem_singleton.mp hnew
      exact hvalue

theorem names_replace (name : String) (value : Toml) (entries : Entries) :
    (replace name value entries).map Prod.fst = entries.map Prod.fst := by
  induction entries with
  | nil => rfl
  | cons entry rest ih =>
    obtain ⟨other, old⟩ := entry
    unfold replace
    split
    · rfl
    · rw [List.map_cons, ih, List.map_cons]

theorem mem_replace {entry : String × Toml} (h : entry ∈ replace name value entries) :
    entry.2 = value ∨ entry ∈ entries := by
  induction entries with
  | nil => exact .inr h
  | cons head rest ih =>
    obtain ⟨other, old⟩ := head
    unfold replace at h
    split at h
    · rcases List.mem_cons.mp h with rfl | hrest
      · exact .inl rfl
      · exact .inr (List.mem_cons_of_mem _ hrest)
    · rcases List.mem_cons.mp h with rfl | hrest
      · exact .inr List.mem_cons_self
      · exact (ih hrest).imp_right (List.mem_cons_of_mem _)

theorem Distinct.replace (h : Distinct entries) (hvalue : (Setting.ofToml value).Distinct) :
    Distinct (replace name value entries) := by
  obtain ⟨hnames, hvalues⟩ := distinct_iff.mp h
  refine distinct_iff.mpr ⟨by rwa [names_replace], fun entry hentry => ?_⟩
  rcases mem_replace hentry with heq | hold
  · rwa [heq]
  · exact hvalues entry hold

/-- What is changed at the end of a path keeps the names above it apart. -/
theorem distinct_of_change? {dotted : Bool} {f : Origin → Entries → Option Entries}
    (hf : ∀ {origin : Origin} {entries result : Entries}, Distinct entries →
      f origin entries = some result → Distinct result)
    {path : List String} {origin : Origin} {entries result : Entries} (h : Distinct entries)
    (hresult : change? dotted f path origin entries = some result) : Distinct result := by
  induction path generalizing origin entries result with
  | nil => exact hf h hresult
  | cons name path ih =>
    unfold change? at hresult
    split at hresult
    · rename_i hname
      obtain ⟨inner, hinner, rfl⟩ := Option.map_eq_some_iff.mp hresult
      exact h.concat hname (ih distinct_nil hinner)
    · rename_i origin old hfound
      split at hresult
      · obtain ⟨inner, hinner, rfl⟩ := Option.map_eq_some_iff.mp hresult
        exact h.replace (ih (h.of_lookup hfound) hinner)
      · exact nomatch hresult
    · split at hresult
      · obtain ⟨last, _, rfl⟩ := Option.map_eq_some_iff.mp hresult
        exact h.replace (.list _)
      · exact nomatch hresult
    · exact nomatch hresult

theorem distinct_of_assign? {path : List String} {origin : Origin} {result : Entries}
    (hvalue : (Setting.ofToml value).Distinct) (h : Distinct entries)
    (hresult : assign? path name value origin entries = some result) : Distinct result := by
  refine distinct_of_change? (fun hentries hadded => ?_) h hresult
  split at hadded
  · exact nomatch hadded
  · rename_i hfree
    obtain rfl := Option.some.inj hadded
    rw [Bool.or_eq_true, not_or, Option.not_isSome_iff_eq_none] at hfree
    exact hentries.concat hfree.2 hvalue

theorem distinct_of_openTable? {path : List String} {result : Entries} (h : Distinct entries)
    (hresult : openTable? path name entries = some result) : Distinct result := by
  refine distinct_of_change? (fun hentries hopened => ?_) h hresult
  split at hopened
  · rename_i hname
    obtain rfl := Option.some.inj hopened
    exact hentries.concat hname Setting.distinct_empty
  · rename_i inner hfound
    obtain rfl := Option.some.inj hopened
    -- a table's origin is not among its settings
    have hinner : Distinct inner := hentries.of_lookup hfound
    exact hentries.replace hinner
  · exact nomatch hopened

theorem distinct_of_openElement? {path : List String} {result : Entries} (h : Distinct entries)
    (hresult : openElement? path name entries = some result) : Distinct result := by
  refine distinct_of_change? (fun hentries hopened => ?_) h hresult
  split at hopened
  · rename_i hname
    obtain rfl := Option.some.inj hopened
    exact hentries.concat hname (.list _)
  · obtain rfl := Option.some.inj hopened
    exact hentries.replace (.list _)
  · exact nomatch hopened

theorem distinct_of_bare? {cs rest : List Char} (h : bare? cs = some (value, rest)) :
    (Setting.ofToml value).Distinct := by
  unfold bare? at h
  dsimp only at h
  split at h
  · split at h
    · obtain ⟨rfl, -⟩ := Prod.mk.inj (Option.some.inj h)
      exact Setting.distinct_empty
    · exact nomatch h
  · obtain ⟨word, hword, heq⟩ := Option.map_eq_some_iff.mp h
    obtain ⟨rfl, -⟩ := Prod.mk.inj heq
    unfold ofWord? at hword
    dsimp only at hword
    split_ifs at hword <;> obtain rfl := Option.some.inj hword
    · exact .flag _
    · exact .flag _
    · exact .number
    · exact Setting.distinct_empty

/-- The values and tables of a document give no name twice. -/
theorem distinct_of_read (fuel : Nat) :
    (∀ {levels : Nat} {cs rest : List Char} {value : Toml},
      value? levels fuel cs = some (value, rest) → (Setting.ofToml value).Distinct) ∧
    ∀ {levels : Nat} {cs rest : List Char} {before entries : Entries}, Distinct before →
      fields? levels fuel cs before = some (entries, rest) → Distinct entries := by
  induction fuel with
  | zero => exact ⟨nofun, nofun⟩
  | succ fuel ih =>
    constructor
    · intro levels cs rest value h
      unfold value? at h
      split at h
      · obtain ⟨⟨s, after⟩, _, heq⟩ := Option.map_eq_some_iff.mp h
        obtain ⟨rfl, -⟩ := Prod.mk.inj heq
        exact .text s
      · obtain ⟨⟨s, after⟩, _, heq⟩ := Option.map_eq_some_iff.mp h
        obtain ⟨rfl, -⟩ := Prod.mk.inj heq
        exact .text s
      · split at h
        · exact nomatch h
        · split at h
          · obtain ⟨rfl, -⟩ := Prod.mk.inj (Option.some.inj h)
            exact .list _
          · obtain ⟨⟨items, after⟩, _, heq⟩ := Option.map_eq_some_iff.mp h
            obtain ⟨rfl, -⟩ := Prod.mk.inj heq
            exact .list _
      · split at h
        · exact nomatch h
        · split at h
          · obtain ⟨rfl, -⟩ := Prod.mk.inj (Option.some.inj h)
            exact Setting.distinct_empty
          · obtain ⟨⟨entries, after⟩, hentries, heq⟩ := Option.map_eq_some_iff.mp h
            obtain ⟨rfl, -⟩ := Prod.mk.inj heq
            exact ih.2 distinct_nil hentries
      · exact distinct_of_bare? h
    · intro levels cs rest before entries hbefore h
      unfold fields? at h
      split at h
      · exact nomatch h
      · split at h
        · exact nomatch h
        · rename_i hvalue
          split at h
          · exact nomatch h
          · rename_i hassign
            have hafter := distinct_of_assign? (ih.1 hvalue) hbefore hassign
            split at h
            · exact ih.2 hafter h
            · obtain ⟨rfl, -⟩ := Prod.mk.inj (Option.some.inj h)
              exact hafter
            · exact nomatch h

theorem Draft.distinct_of_add? {d result : Draft} {line : Line} (h : Distinct d.entries)
    (hvalue : ∀ path name value, line = .assignment path name value →
      (Setting.ofToml value).Distinct)
    (hresult : d.add? line = some result) : Distinct result.entries := by
  cases line with
  | blank =>
    obtain rfl := Option.some.inj hresult
    exact h
  | table path name =>
    obtain ⟨entries, hopened, rfl⟩ := Option.map_eq_some_iff.mp hresult
    exact distinct_of_openTable? h hopened
  | element path name =>
    obtain ⟨entries, hopened, rfl⟩ := Option.map_eq_some_iff.mp hresult
    exact distinct_of_openElement? h hopened
  | assignment path name value =>
    obtain ⟨entries, hadded, rfl⟩ := Option.map_eq_some_iff.mp hresult
    exact distinct_of_change? (distinct_of_assign? (hvalue path name value rfl)) h hadded

/-- The value that a line assigns has been read as one. -/
theorem value?_of_line? {cs rest : List Char} {path : List String}
    (h : line? cs = some (.assignment path name value, rest)) :
    ∃ levels fuel start after, value? levels fuel start = some (value, after) := by
  unfold line? at h
  split at h
  · exact nomatch h
  · obtain ⟨_, _, heq⟩ := Option.bind_eq_some_iff.mp h
    exact nomatch heq
  · obtain ⟨_, _, heq⟩ := Option.bind_eq_some_iff.mp h
    exact nomatch heq
  · obtain ⟨_, _, heq⟩ := Option.bind_eq_some_iff.mp h
    exact nomatch heq
  · obtain ⟨⟨parts, after⟩, _, hkey⟩ := Option.bind_eq_some_iff.mp h
    dsimp only at hkey
    split at hkey
    · obtain ⟨_, _, hsplit⟩ := Option.bind_eq_some_iff.mp hkey
      obtain ⟨_, _, heq⟩ := Option.bind_eq_some_iff.mp hsplit
      exact nomatch heq
    · exact nomatch hkey
  · obtain ⟨⟨parts, after⟩, _, hkey⟩ := Option.bind_eq_some_iff.mp h
    dsimp only at hkey
    split at hkey
    · obtain ⟨_, _, hsplit⟩ := Option.bind_eq_some_iff.mp hkey
      obtain ⟨_, _, heq⟩ := Option.bind_eq_some_iff.mp hsplit
      exact nomatch heq
    · exact nomatch hkey
  · obtain ⟨⟨key, after⟩, _, hassigned⟩ := Option.bind_eq_some_iff.mp h
    obtain ⟨⟨read, after⟩, hread, hend⟩ := Option.bind_eq_some_iff.mp hassigned
    obtain ⟨_, _, heq⟩ := Option.bind_eq_some_iff.mp hend
    cases heq
    exact ⟨_, _, _, _, hread⟩

theorem Draft.distinct_of_addLines? {bound : Nat} {d result : Draft} {cs : List Char}
    (h : Distinct d.entries) (hresult : addLines? bound d cs = some result) :
    Distinct result.entries := by
  induction bound generalizing d cs with
  | zero =>
    cases cs with
    | nil =>
      obtain rfl := Option.some.inj hresult
      exact h
    | cons c rest => exact nomatch hresult
  | succ bound ih =>
    cases cs with
    | nil =>
      obtain rfl := Option.some.inj hresult
      exact h
    | cons c rest =>
      unfold addLines? at hresult
      split at hresult
      · rename_i hline
        obtain ⟨after, hadd, hrest⟩ := Option.bind_eq_some_iff.mp hresult
        refine ih (distinct_of_add? h (fun path name value heq => ?_) hadd) hrest
        obtain ⟨_, fuel, _, _, hread⟩ := value?_of_line? (heq ▸ hline)
        exact (distinct_of_read fuel).1 hread
      · exact nomatch hresult

/-- A document gives no name twice. -/
theorem distinct_of_parse? {text : String} (h : parse? text = some entries) : Distinct entries := by
  obtain ⟨draft, hdraft, rfl⟩ := Option.map_eq_some_iff.mp h
  exact Draft.distinct_of_addLines? distinct_nil hdraft

end Wiring.Toml
