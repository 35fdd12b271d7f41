import Wiring.Proofs.Config.Loading
import Wiring.Proofs.Toml.Distinct

/-! No layer of settings gives a name twice, wherever it comes from: a reader that meets a name
again refuses it or takes the later value. -/
namespace Wiring
namespace Setting

variable {value : Setting}

theorem distinct_nest (hvalue : value.Distinct) (place : List String) :
    (nest value place).Distinct := by
  induction place with
  | nil => exact hvalue
  | cons name rest ih =>
    unfold nest
    split
    · exact hvalue
    · exact .table (by simp) (by simpa using ih)

theorem distinct_ofPlain (cs : List Char) : (ofPlain cs).Distinct := by
  unfold ofPlain
  dsimp only
  split
  · exact .number
  · exact .text _

/-- The values and tables that are read from a text give no name twice. -/
theorem distinct_of_read (fuel : Nat) :
    (∀ {cs rest : List Char} {value : Setting}, value? fuel cs = some (value, rest) →
      value.Distinct) ∧
    ∀ {cs rest : List Char} {before entries : List (String × Setting)},
      Distinct (.table before) → entries? fuel cs before = some (entries, rest) →
        Distinct (.table entries) := by
  induction fuel with
  | zero => exact ⟨nofun, nofun⟩
  | succ fuel ih =>
    constructor
    · intro cs rest value h
      unfold value? at h
      obtain ⟨⟨read, after⟩, hread, heq⟩ := Option.map_eq_some_iff.mp h
      obtain ⟨rfl, -⟩ := Prod.mk.inj heq
      split at hread
      · obtain ⟨rfl, -⟩ := Prod.mk.inj (Option.some.inj hread)
        exact .flag true
      · obtain ⟨rfl, -⟩ := Prod.mk.inj (Option.some.inj hread)
        exact .flag false
      · split at hread
        · obtain ⟨⟨entries, after⟩, hentries, heq⟩ := Option.map_eq_some_iff.mp hread
          obtain ⟨rfl, -⟩ := Prod.mk.inj heq
          exact ih.2 distinct_empty hentries
        · obtain ⟨⟨items, after⟩, _, heq⟩ := Option.map_eq_some_iff.mp hread
          obtain ⟨rfl, -⟩ := Prod.mk.inj heq
          exact .list items
        · obtain ⟨⟨chars, after⟩, _, heq⟩ := Option.map_eq_some_iff.mp hread
          obtain ⟨rfl, -⟩ := Prod.mk.inj heq
          exact .text _
        · obtain ⟨rfl, -⟩ := Prod.mk.inj (Option.some.inj hread)
          exact .text _
        · exact nomatch hread
        · obtain ⟨rfl, -⟩ := Prod.mk.inj (Option.some.inj hread)
          exact distinct_ofPlain _
    · intro cs rest before entries hbefore h
      unfold entries? at h
      split at h
      · obtain ⟨rfl, -⟩ := Prod.mk.inj (Option.some.inj h)
        exact hbefore
      · split at h
        · exact nomatch h
        · split at h
          · rename_i hvalue
            exact ih.2 (hbefore.put (ih.1 hvalue)) h
          · rename_i hvalue
            obtain ⟨rfl, -⟩ := Prod.mk.inj (Option.some.inj h)
            exact hbefore.put (ih.1 hvalue)
          · exact nomatch h

theorem distinct_ofText (text : String) : (ofText text).Distinct := by
  unfold ofText
  split
  · rename_i hvalue
    exact (distinct_of_read _).1 hvalue
  · exact .text _

theorem distinct_ofVariable? {start : String} {variable_ : String × String} {s : Setting}
    (h : ofVariable? start variable_ = some s) : s.Distinct := by
  obtain ⟨place, _, hplace⟩ := Option.bind_eq_some_iff.mp h
  dsimp only at hplace
  split at hplace
  · rename_i entries hnest
    cases hplace
    rw [← hnest]
    exact distinct_nest (distinct_ofText _) _
  · cases hplace

theorem exists_ofVariable?_eq_table {start : String} {variable_ : String × String} {s : Setting}
    (h : ofVariable? start variable_ = some s) : ∃ entries, s = .table entries := by
  obtain ⟨place, _, hplace⟩ := Option.bind_eq_some_iff.mp h
  dsimp only at hplace
  split at hplace
  · cases hplace
    exact ⟨_, rfl⟩
  · cases hplace

/-- The settings of variables are a table that gives no name twice. -/
theorem distinct_ofVariables (start : String) (named : List (String × String)) :
    (ofVariables start named).Distinct ∧ ∃ entries, ofVariables start named = .table entries := by
  have hlayers : ∀ layers : List Setting, ∀ below : List (String × Setting),
      (∀ s ∈ layers, s.Distinct ∧ ∃ entries, s = .table entries) → Distinct (.table below) →
        (layers.foldl (fun lower upper => Setting.overlay upper lower) (.table below)).Distinct ∧
        ∃ entries,
          layers.foldl (fun lower upper => Setting.overlay upper lower) (.table below) =
            .table entries := by
    intro layers
    induction layers with
    | nil => exact fun below _ hbelow => ⟨hbelow, below, rfl⟩
    | cons upper rest ih =>
      intro below hall hbelow
      obtain ⟨hupper, entries, rfl⟩ := hall upper List.mem_cons_self
      have hover := hupper.overlay hbelow
      rw [List.foldl_cons, Setting.overlay] at *
      exact ih _ (fun s hs => hall s (List.mem_cons_of_mem _ hs)) hover
  refine hlayers _ [] (fun s hs => ?_) distinct_empty
  obtain ⟨variable_, _, hvariable⟩ := List.mem_filterMap.mp hs
  exact ⟨distinct_ofVariable? hvariable, exists_ofVariable?_eq_table hvariable⟩

end Setting

namespace Config

theorem distinct_of_fileLayer {content : Except FileError String} {file : Setting}
    (h : fileLayer content = .ok file) : file.Distinct ∧ ∃ entries, file = .table entries := by
  unfold fileLayer at h
  split at h
  · split at h
    · rename_i hsettings
      obtain rfl := Except.ok.inj h
      obtain ⟨entries, hparse, rfl⟩ := Option.map_eq_some_iff.mp hsettings
      exact ⟨Toml.distinct_of_parse? hparse, _, rfl⟩
    · exact nomatch h
  · exact nomatch h
  · obtain rfl := Except.ok.inj h
    exact ⟨Setting.distinct_empty, _, rfl⟩

/-- What is read of the file is a table that gives no name twice. -/
theorem distinct_of_readLayer {explicit : Option String} {environment : Environment}
    {tree : FileTree} {file : Setting}
    (h : ((readLayer explicit environment : StateM FileTree _).run tree).1 = .ok file) :
    file.Distinct ∧ ∃ entries, file = .table entries := by
  cases explicit with
  | some path =>
    rw [run_readLayer_some] at h
    cases hpresent : tree.isPresent path with
    | true =>
      rw [hpresent] at h
      exact distinct_of_fileLayer h
    | false =>
      rw [hpresent] at h
      exact nomatch h
  | none =>
    unfold readLayer at h
    dsimp only at h
    rw [StateT.run_bind] at h
    generalize (firstPresent (defaultPaths environment) : StateM FileTree _).run tree = first at h
    obtain ⟨found, after⟩ := first
    cases found with
    | some path =>
      have hlayer : fileLayer ((after.read path).bind FileSystem.decodeText) = .ok file := h
      exact distinct_of_fileLayer hlayer
    | none =>
      obtain rfl := Except.ok.inj h
      exact ⟨Setting.distinct_empty, _, rfl⟩

end Config
end Wiring
