import SpecVerdict.Proofs.CucumberReading
import SpecVerdict.Proofs.NumberedRows
import SpecVerdict.Proofs.OrderedRows

namespace SpecVerdict

/-- The results of a name know the rows from the first on, each row once, and the result of each
row has the row's status. -/
def HoldsRows (key : String) (statuses : List Status) (results : List ScenarioResult) : Prop :=
  ((results.filter (nameKey ·.name == key)).map fun s => (s.exampleIndex, s.status)).Perm
    (statuses.zipIdx.map fun entry => (some (entry.2 : Int), entry.1))

theorem HoldsRows.of_perm {key : String} {statuses : List Status}
    {results others : List ScenarioResult} (h : HoldsRows key statuses results)
    (hperm : others.Perm results) : HoldsRows key statuses others :=
  ((hperm.filter _).map _).trans h

namespace Cucumber

variable {key outline : String}

@[simp] theorem giveRows_none (s : ScenarioResult)
    (entries : List (ScenarioResult × Option RowMark)) (indices : List Nat) :
    giveRows ((s, none) :: entries) indices = s :: giveRows entries indices := by
  cases indices <;> rfl

/-- A row that is given changes nothing else of a result. -/
theorem map_giveRows {α : Type} (seen : ScenarioResult → α)
    (h : ∀ (s : ScenarioResult) (index : Option Int), seen { s with exampleIndex := index } = seen s)
    (entries : List (ScenarioResult × Option RowMark)) (indices : List Nat) :
    (giveRows entries indices).map seen = entries.map fun entry => seen entry.1 := by
  induction entries generalizing indices with
  | nil => rfl
  | cons entry entries ih =>
    obtain ⟨s, _ | mark⟩ := entry
    · rw [giveRows_none, List.map_cons, List.map_cons, ih]
    · cases indices with
      | nil =>
        rw [giveRows, List.map_cons, List.map_cons, ih]
        simp
      | cons index indices => rw [giveRows, List.map_cons, List.map_cons, ih, h]

theorem mem_giveRows {entries : List (ScenarioResult × Option RowMark)} {indices : List Nat}
    {s : ScenarioResult} (h : s ∈ giveRows entries indices) :
    ∃ entry ∈ entries, s.name = entry.1.name ∧ s.steps = entry.1.steps := by
  have hseen := List.mem_map_of_mem (f := fun s : ScenarioResult => (s.name, s.steps)) h
  rw [map_giveRows _ fun _ _ => rfl] at hseen
  obtain ⟨entry, hentry, hsame⟩ := List.mem_map.mp hseen
  obtain ⟨hname, hsteps⟩ := Prod.mk.inj hsame
  exact ⟨entry, hentry, hname.symm, hsteps.symm⟩

/-- The results of a name get the rows of the marks that tell the outline. -/
theorem giveRows_named {entries : List (ScenarioResult × Option RowMark)} {indices : List Nat}
    (hlength : indices.length = (entries.filterMap (·.2)).length)
    (hown : ∀ entry ∈ entries,
      nameKey entry.1.name = key ↔ ∃ m, entry.2 = some m ∧ m.outline = outline) :
    ((giveRows entries indices).filter (nameKey ·.name == key)).map
        (fun s => (s.exampleIndex, s.status)) =
      List.zipWith (fun (i : Nat) entry => (some (i : Int), entry.1.status))
        ((((entries.filterMap (·.2)).zip indices).filter (·.1.outline == outline)).map (·.2))
        (entries.filter (nameKey ·.1.name == key)) := by
  induction entries generalizing indices with
  | nil => rfl
  | cons entry entries ih =>
    obtain ⟨hentry, hentries⟩ := List.forall_mem_cons.mp hown
    obtain ⟨s, mark⟩ := entry
    cases mark with
    -- A result without a mark takes no row, and it has another name.
    | none =>
      have hother : nameKey s.name ≠ key := fun h => by
        obtain ⟨m, hm, -⟩ := hentry.mp h
        cases hm
      have hlater := ih hlength hentries
      simpa [hother] using hlater
    | some m =>
      cases indices with
      | nil => simp at hlength
      | cons index indices =>
        have hlater := @ih indices (by simpa using hlength) hentries
        have hname : nameKey s.name = key ↔ m.outline = outline := by
          rw [hentry]
          simp
        by_cases h : m.outline = outline
        · simpa [giveRows, h, hname.mpr h] using hlater
        · simpa [giveRows, h, mt hname.mp h] using hlater

/-- The ids of the rows of an outline, block by block. -/
def outlineIds (feature outline : String) (sizes : List (String × Nat)) : List String :=
  sizes.flatMap fun block => (List.range block.2).map (rowId feature outline block.1)

theorem outlineIds_eq (feature outline : String) (sizes : List (String × Nat)) :
    outlineIds feature outline sizes =
      (sizes.flatMap (blockMarks outline)).map fun m => rowId feature outline m.block m.row := by
  rw [outlineIds, List.map_flatMap]
  simp [blockMarks, Function.comp_def]

theorem mem_blocks {sizes : List (String × Nat)} {m : RowMark}
    (h : m ∈ sizes.flatMap (blockMarks outline)) :
    m.outline = outline ∧ ∃ block ∈ sizes, m.block = block.1 := by
  obtain ⟨block, hblock, hm⟩ := List.mem_flatMap.mp h
  obtain ⟨row, -, rfl⟩ := List.mem_map.mp hm
  exact ⟨rfl, block, hblock, rfl⟩

theorem marks_of_ids {feature : String} {sizes : List (String × Nat)} {named : List ElementRun}
    {entries : List (ScenarioResult × Option RowMark)} (h : List.Forall₂ IsReadRun named entries)
    (hf : ';' ∉ feature.toList) (ho : ';' ∉ outline.toList)
    (hb : ∀ block ∈ sizes, ';' ∉ block.1.toList)
    (hids : named.map (·.id) = outlineIds feature outline sizes) :
    entries.map (·.2) = (sizes.flatMap (blockMarks outline)).map some := by
  have hread : List.Forall₂ (fun id mark => RowMark.ofId id.toList = .ok mark) (named.map (·.id))
      (entries.map (·.2)) :=
    List.forall₂_map_left_iff.mpr (List.forall₂_map_right_iff.mpr (h.imp fun _ _ h => h.2.2.1))
  rw [hids, outlineIds_eq, List.forall₂_map_left_iff] at hread
  rw [← List.map_id (entries.map (·.2))]
  refine map_eq_of_forall₂ hread fun m hm mark hmark => ?_
  obtain ⟨houtline, block, hblock, hname⟩ := mem_blocks hm
  have hrow := RowMark.ofId_rowId hf ho (hname ▸ hb block hblock) m.row hmark
  rw [← houtline] at hrow
  exact hrow

theorem zipWith_range {α β : Type} (f : Nat → α → β) (l : List α) :
    List.zipWith f (List.range l.length) l = l.zipIdx.map fun e => f e.2 e.1 := by
  rw [List.zipIdx_eq_zip_range', ← List.range_eq_range', List.zipWith_comm, List.map_zip_eq_zipWith]
  rfl

/-- Where the entries of a name are those whose marks tell an outline, the marks of the outline are
theirs. -/
theorem outline_marks {entries : List (ScenarioResult × Option RowMark)}
    (hown : ∀ entry ∈ entries,
      nameKey entry.1.name = key ↔ ∃ m, entry.2 = some m ∧ m.outline = outline) :
    (entries.filterMap (·.2)).filter (·.outline == outline) =
      (entries.filter (nameKey ·.1.name == key)).filterMap (·.2) := by
  rw [List.filter_filterMap, List.filterMap_filter]
  refine List.filterMap_congr fun entry hentry => ?_
  have hname := hown entry hentry
  cases hmark : entry.2 with
  | none =>
    rw [ite_self]
    rfl
  | some m =>
    rw [Option.filter_some]
    simp only [hmark, Option.some.injEq, exists_eq_left'] at hname
    simp [hname]

/-- The entries of a name whose marks are all rows of an outline are those whose marks tell it, if
no other id does. -/
theorem named_iff_marked {node : Json} {entries : List (ScenarioResult × Option RowMark)}
    {sizes : List (String × Nat)} (hentries : List.Forall₂ IsReadRun (runs node) entries)
    (hmarks : (entries.filter (nameKey ·.1.name == key)).map (·.2) =
      (sizes.flatMap (blockMarks outline)).map some)
    (hother : ∀ run ∈ runs node, nameKey run.name ≠ key →
      idOutline? run.id.toList ≠ some outline.toList) :
    ∀ entry ∈ entries, nameKey entry.1.name = key ↔ ∃ m, entry.2 = some m ∧ m.outline = outline := by
  intro entry hentry
  constructor
  · intro hname
    have hm : entry.2 ∈ (sizes.flatMap (blockMarks outline)).map some := by
      rw [← hmarks]
      exact List.mem_map_of_mem (List.mem_filter.mpr ⟨hentry, by simpa using hname⟩)
    obtain ⟨m, hm, hmark⟩ := List.mem_map.mp hm
    exact ⟨m, hmark.symm, (mem_blocks hm).1⟩
  · rintro ⟨m, hmark, rfl⟩
    obtain ⟨run, hrun, hname, -, hid, -⟩ := exists_of_forall₂ hentries entry hentry
    by_contra hne
    rw [hmark] at hid
    exact hother run hrun (hname ▸ hne) (RowMark.ofId_outline hid)

/-- The runs of a name whose ids number the rows of an outline are read as results that hold the
rows, if no other id tells the outline. -/
theorem holdsRows_of_runs {node : Json} {f : FeatureResult} {feature : String}
    {sizes : List (String × Nat)} (hread : IsReadFeature node f)
    (hf : ';' ∉ feature.toList) (ho : ';' ∉ outline.toList)
    (hb : ∀ block ∈ sizes, ';' ∉ block.1.toList) (hn : ∀ block ∈ sizes, 0 < block.2)
    (hids : (runsNamed node key).map (·.id) = outlineIds feature outline sizes)
    (hother : ∀ run ∈ runs node, nameKey run.name ≠ key →
      idOutline? run.id.toList ≠ some outline.toList) :
    HoldsRows key ((runsNamed node key).map (·.status)) f.scenarios := by
  obtain ⟨entries, hentries, hscenarios⟩ := hread.scenarios
  have hnamed : List.Forall₂ IsReadRun (runsNamed node key)
      (entries.filter (nameKey ·.1.name == key)) :=
    filter_forall₂ hentries fun run entry h => by rw [h.1]
  have hmarks := marks_of_ids hnamed hf ho hb hids
  have hown := named_iff_marked hentries hmarks hother
  have hall : (entries.filterMap (·.2)).filter (·.outline == outline) =
      sizes.flatMap (blockMarks outline) := by
    calc (entries.filterMap (·.2)).filter (·.outline == outline)
        = ((entries.filter (nameKey ·.1.name == key)).map (·.2)).filterMap id := by
          rw [outline_marks hown, List.filterMap_map]
          rfl
      _ = sizes.flatMap (blockMarks outline) := by
          rw [hmarks, List.filterMap_map]
          simp
  have hstatuses : (entries.filter (nameKey ·.1.name == key)).map (·.1.status) =
      (runsNamed node key).map (·.status) :=
    map_eq_of_forall₂ hnamed fun _ _ _ h => h.2.1
  have hcount : (sizes.map (·.2)).sum =
      (entries.filter (nameKey ·.1.name == key)).length := by
    have hlength := congrArg List.length hmarks
    rw [List.length_map, List.length_map, List.length_flatMap] at hlength
    rw [hlength]
    simp [blockMarks]
  rw [HoldsRows, hscenarios, giveRows_named (rowIndices_length _) hown,
    rowIndices_of_blocks hn hall, ← hstatuses, hcount, zipWith_range, List.zipIdx_map, List.map_map]
  exact List.Perm.refl _

end Cucumber

end SpecVerdict
