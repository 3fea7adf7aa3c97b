import DocComponents.Proofs.Workspace.Agreement

/-!
# Loading a bad document

Whatever a document says that is text, loading it brings a configuration or tells what is wrong with
the document: that it cannot be read, is not TOML, or has wrong values. Bytes that are no text pass
through as a fault of their own, which nothing names as a fault of the configuration.
-/

set_option autoImplicit false

namespace DocComponents

/-! ## What can go wrong -/

theorem Disk.readText_cases (disk : Disk) (path : Path) :
    (∃ text, disk.readText path = .ok text) ∨
      (∃ fault, disk.readText path = .error (.file fault)) ∨
        ∃ contents fault, disk.readBytes path = .ok contents ∧
          Utf8.decode contents = .error fault ∧ disk.readText path = .error (.encoding fault) := by
  unfold readText
  cases disk.readBytes path with
  | error fault => exact .inr (.inl ⟨fault, rfl⟩)
  | ok contents =>
      cases decoded : Utf8.decode contents with
      | error fault => exact .inr (.inr ⟨contents, fault, rfl, decoded, by simp [decoded]⟩)
      | ok text => exact .inl ⟨Text.universalNewlines text, by simp [decoded]⟩

theorem Disk.pathExists_of_readBytes {disk : Disk} {path : Path} {contents : Bytes}
    (read : disk.readBytes path = .ok contents) : disk.pathExists path = .ok true := by
  unfold readBytes at read
  obtain ⟨place, located, stands⟩ := exists_of_except_bind read
  cases entry : disk.entryAt? place with
  | none => simp [entry] at stands
  | some standing => exact pathExists_of_stands located entry

/-- A table that names a workspace which can be told gives a configuration or faults of fields. -/
theorem Config.ofTable_cases {home : Text} {table : Table} {workspace : Except FaultAt Path}
    (told : readWorkspace home table = .ok workspace) :
    (∃ config, ofTable home table = .ok config) ∨
      ∃ faults, ofTable home table = .error (.invalid faults) := by
  unfold ofTable
  rw [told]
  dsimp only
  split
  · exact .inl ⟨_, rfl⟩
  · exact .inr ⟨_, rfl⟩

namespace Layout

variable {home : Text} {before disk : Disk} {layout : Layout} {given? environment? : Option Path}
  {stands : Bool}

/-- A fault that is told as one of the configuration, together with its document. -/
def LoadFault.IsOfConfig : LoadFault → Prop
  | .unreadable _ _ | .notToml _ | .invalid _ _ => True
  | .hidden _ | .encoding _ | .home _ => False

theorem documentLayer_of_encoding {contents : Bytes} {fault : Utf8.Fault}
    (read : disk.readBytes layout.document = .ok contents)
    (bad : Utf8.decode contents = .error fault) :
    layout.documentLayer disk = .error (.encoding fault) := by
  have noText : disk.readText layout.document = .error (.encoding fault) := by
    simp [Disk.readText, read, bad]
  rw [documentLayer, Disk.pathExists_of_readBytes read]
  dsimp only
  rw [noText]

theorem isOfConfig_of_documentLayer (told : disk.pathExists layout.document = .ok stands)
    (sound : ∀ contents, disk.readBytes layout.document = .ok contents →
      ∃ text, Utf8.decode contents = .ok text)
    {fault : LoadFault} (failed : layout.documentLayer disk = .error fault) :
    fault.IsOfConfig := by
  rw [documentLayer, told] at failed
  cases stands with
  | false => cases failed
  | true =>
      dsimp only at failed
      rcases disk.readText_cases layout.document with
        ⟨text, read⟩ | ⟨unread, read⟩ | ⟨contents, bad, bytes, undecoded, -⟩
      · rw [read] at failed
        cases parsed : Toml.read text with
        | none =>
            simp only [parsed] at failed
            cases failed
            trivial
        | some table => simp [parsed] at failed
      · rw [read] at failed
        cases failed
        trivial
      · obtain ⟨text, decoded⟩ := sound contents bytes
        cases undecoded.symm.trans decoded

/-- The layers of a workspace that was resolved never fail for the home folder. -/
theorem ofLayers_cases (resolved : resolve home before given? environment? = .ok layout)
    (lower : List Table) :
    (∃ config, Config.ofLayers home (lower ++ [layout.withWorkspace []]) = .ok config) ∨
      ∃ faults, Config.ofLayers home (lower ++ [layout.withWorkspace []]) =
        .error (.invalid faults) := by
  obtain ⟨names, located, -⟩ := exists_names_of_resolve resolved
  obtain ⟨path, told⟩ := exists_homePath home located
  have merged : Table.merge (lower ++ [layout.withWorkspace []]) =
      Table.set Config.workspaceField (.text layout.workspace.toText) (Table.merge lower) := by
    rw [Table.merge, List.foldl_append]
    exact Table.overlay_text ..
  have known : Config.readWorkspace home (Table.merge (lower ++ [layout.withWorkspace []])) =
      .ok (.ok path) := by
    rw [Config.readWorkspace, merged, Table.lookup_set, if_pos rfl]
    dsimp only
    rw [told]
    rfl
  exact Config.ofTable_cases known

/-! ## Loading -/

theorem loadConfig_of_documentLayer_error {fault : LoadFault} {environment commandLine : Table}
    (failed : layout.documentLayer disk = .error fault) :
    layout.loadConfig home disk environment commandLine = .error fault := by
  rw [loadConfig, failed]
  rfl

/-- Loading the configuration of a workspace brings a configuration or a fault that is told as one
of the configuration, whatever the environment says, unless the document holds bytes that are no
text. These are told as a fault of the encoding alone. -/
theorem loadConfig_told_iff (resolved : resolve home before given? environment? = .ok layout)
    (told : disk.pathExists layout.document = .ok stands) (environment : Table) :
    (((∃ config, layout.loadConfig home disk environment [] = .ok config) ∨
        ∃ fault, layout.loadConfig home disk environment [] = .error fault ∧ fault.IsOfConfig) ↔
      ∀ contents, disk.readBytes layout.document = .ok contents →
        ∃ text, Utf8.decode contents = .ok text) ∧
    ∀ contents fault, disk.readBytes layout.document = .ok contents →
      Utf8.decode contents = .error fault →
        layout.loadConfig home disk environment [] = .error (.encoding fault) := by
  have badBytes : ∀ contents fault, disk.readBytes layout.document = .ok contents →
      Utf8.decode contents = .error fault →
        layout.loadConfig home disk environment [] = .error (.encoding fault) :=
    fun _ _ read bad => loadConfig_of_documentLayer_error (documentLayer_of_encoding read bad)
  refine ⟨⟨?_, ?_⟩, badBytes⟩
  · intro answered contents read
    cases decoded : Utf8.decode contents with
    | ok text => exact ⟨text, rfl⟩
    | error bad =>
        have failed := badBytes contents bad read decoded
        rcases answered with ⟨config, loaded⟩ | ⟨fault, refused, ofConfig⟩
        · cases failed.symm.trans loaded
        · cases failed.symm.trans refused
          exact ofConfig.elim
  · intro sound
    cases loaded : layout.documentLayer disk with
    | error fault =>
        exact .inr ⟨fault, loadConfig_of_documentLayer_error loaded,
          isOfConfig_of_documentLayer told sound loaded⟩
    | ok document =>
        rw [loadConfig, loaded]
        rcases ofLayers_cases resolved [Config.defaultsLayer, document, environment] with
          ⟨config, laid⟩ | ⟨faults, laid⟩
        · exact .inl ⟨config, congrArg (Except.mapError _) laid⟩
        · exact .inr ⟨_, congrArg (Except.mapError _) laid, trivial⟩

/-- A level that is a number is a fault of the configuration. -/
theorem loadConfig_told_iff_number :
    let disk := documentDisk "log_level = 5\n".toList
    let environment := Config.environmentLayer [(Config.workspaceVariable, "~nobody".toList)]
    ∃ fault, Layout.loadConfig ['/'] ⟨documentWorkspace⟩ disk environment [] = .error fault ∧
      fault.IsOfConfig := by
  intro disk environment
  have resolved : resolve ['/'] disk (some documentWorkspace) none = .ok ⟨documentWorkspace⟩ := by
    decide +kernel
  have told : disk.pathExists (Layout.mk documentWorkspace).document = .ok true := by
    decide +kernel
  have read : disk.readBytes (Layout.mk documentWorkspace).document =
      .ok (Utf8.encode "log_level = 5\n".toList) := by
    decide +kernel
  obtain ⟨answered, -⟩ := loadConfig_told_iff resolved told environment
  have sound : ∀ contents, disk.readBytes (Layout.mk documentWorkspace).document = .ok contents →
      ∃ text, Utf8.decode contents = .ok text := by
    intro contents found
    cases read.symm.trans found
    exact ⟨_, Utf8.decode_encode _⟩
  rcases answered.mpr sound with ⟨config, loaded⟩ | refused
  · have noConfig : (Layout.loadConfig ['/'] ⟨documentWorkspace⟩ disk environment []).isOk =
        false := by
      decide +kernel
    rw [loaded] at noConfig
    cases noConfig
  · exact refused

/-- A document of one byte that begins no character is not told as a fault of the configuration. -/
theorem loadConfig_passes_encoding_fault :
    let disk : Disk :=
      { entries := SortedMap.empty.insertAll
          [(["ws".toList], .folder), (["ws".toList, Config.documentName], .file [0xFF] 1)]
        now := 2 }
    let fault : LoadFault :=
      .encoding { position := 0, length := 1, byte := 0xFF, reason := .invalidStart }
    Layout.loadConfig ['/'] ⟨documentWorkspace⟩ disk [] [] = .error fault ∧ ¬ fault.IsOfConfig :=
  ⟨by decide +kernel, id⟩

end Layout

end DocComponents
