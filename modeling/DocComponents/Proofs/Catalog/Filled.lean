import DocComponents.Proofs.Catalog.Refresh
import DocComponents.Proofs.File.Place

/-!
# Catalogs filled from a folder

Filling a catalog computes the map of a folder: which name has which definition is told by the files
below the folder alone. The files are met in path order, so each of them stands behind all that were
loaded before it, and the last claim of a name is always the one in use.
-/

set_option autoImplicit false

namespace DocComponents.Catalog

variable {catalog : Catalog} {updates : Updates}

/-! ## Updates in path order -/

/-- A file below a folder with the suffix of markdown files, in letters of either case, behind some
stem. -/
inductive IsComponentFile (disk : Disk) (root : Option Path) : Path → Prop where
  | intro {folder : Path} {place above : List Text} {stem suffix : Text} {contents : Bytes}
      {changed : Int} (rooted : root = some folder) (located : disk.place folder = .ok place)
      (isFolder : disk.entryAt? place = some .folder)
      (stands : disk.entries.get? (place ++ (above ++ [stem ++ '.' :: suffix])) =
        some (.file contents changed))
      (hasStem : stem ≠ []) (markdown : Text.lower suffix = "md".toList) :
      IsComponentFile disk root (folder ++ (above ++ [stem ++ '.' :: suffix]))

variable {disk : Disk} {root : Option Path}

/-- The scan of a folder finds its component files. -/
theorem mem_scan_iff {folder path : Path} (isFolder : disk.isFolder folder = .ok true) :
    path ∈ scan disk folder ↔ IsComponentFile disk (some folder) path := by
  obtain ⟨place, located, present⟩ := Disk.isFolder_eq_true_iff.mp isFolder
  rw [scan, Disk.mem_filesBelow_iff located, Path.isMarkdown_iff]
  constructor
  · rintro ⟨⟨before, stem, suffix, shape, hasStem, markdown⟩, rest, contents, changed, rfl,
      notEmpty, stands⟩
    obtain ⟨above, last, rfl⟩ := (List.eq_nil_or_concat' rest).resolve_left notEmpty
    rw [← List.append_assoc] at shape
    obtain ⟨-, same⟩ := List.append_inj' shape rfl
    cases same
    exact .intro rfl located present stands hasStem markdown
  · rintro ⟨rooted, found, -, stands, hasStem, markdown⟩
    cases rooted
    cases located.symm.trans found
    exact ⟨⟨_, _, _, (List.append_assoc _ _ _).symm, hasStem, markdown⟩, _, _, _, rfl, by simp,
      stands⟩

/-- Paths are compared part by part: as texts, the path of the first file comes behind the other. -/
example :
    let text (template : String) := Utf8.encode ("---\nname: x\n---\n".toList ++ template.toList)
    let disk : Disk :=
      { entries := (SortedMap.empty.insert ["c".toList] .folder).insertAll
          [(["c".toList, "a".toList], .folder),
            (["c".toList, "a".toList, "b.MD".toList], .file (text "<p>1</p>") 1),
            (["c".toList, "a-b.md".toList], .file (text "<p>2</p>") 1)] }
    let step := ({} : Catalog).loadDirectory disk (some ["c".toList])
    step.result = .ok 1 ∧
      (step.catalog.get? "x".toList).map Definition.template = some "<p>2</p>".toList := by
  decide +kernel

end DocComponents.Catalog
