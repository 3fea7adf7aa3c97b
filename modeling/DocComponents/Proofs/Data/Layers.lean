import DocComponents.Proofs.Data.Table

/-!
# Layers of tables

A layer says something about a key path when it has a value there, or a value on the way there that
is no table. Laid over others it is followed: its values stand, its tables are tables, and a value
on the way leaves nothing behind it. Where it says nothing, what lies below it stays.
-/

set_option autoImplicit false

namespace DocComponents.Table

variable {table lower upper : Table} {key : Text} {path : List Text} {value : Data}

/-- A key has one entry, in the table and in every table inside it. -/
def HasDistinctKeys (table : Table) : Prop :=
  ∀ path entries, table.at? path = some (.table entries) → (entries.map Prod.fst).Nodup

/-- A value that is no table stands on the way to a path. -/
def Blocks (table : Table) (path : List Text) : Prop :=
  ∃ before behind value, path = before ++ behind ∧ behind ≠ [] ∧
    table.at? before = some value ∧ value.entries? = none

/-- A table has a value at a path, or blocks it. -/
def Decides (table : Table) (path : List Text) : Prop :=
  (∃ value, table.at? path = some value) ∨ table.Blocks path

/-! ### What stands at a key -/

theorem lookup_cases (table : Table) (key : Text) :
    table.lookup key = none ∨ (∃ inside, table.lookup key = some (.table inside)) ∨
      ∃ value, table.lookup key = some value ∧ value.entries? = none := by
  cases found : table.lookup key with
  | none => exact .inl rfl
  | some value =>
      cases value with
      | table inside => exact .inr (.inl ⟨inside, rfl⟩)
      | _ => exact .inr (.inr ⟨_, rfl, rfl⟩)

theorem at?_cons_of_none (absent : table.lookup key = none) (path : List Text) :
    table.at? (key :: path) = none := by
  rw [at?, absent]

theorem at?_cons_of_table {inside : Table} (found : table.lookup key = some (.table inside))
    (path : List Text) : table.at? (key :: path) = inside.at? path := by
  rw [at?, found]

theorem at?_cons_of_plain (found : table.lookup key = some value) (plain : value.entries? = none)
    (path : List Text) : table.at? (key :: path) = if path = [] then some value else none := by
  rw [at?, found]
  cases value with
  | table entries => cases plain
  | _ => cases path <;> rfl

theorem at?_cons_congr (same : upper.lookup key = lower.lookup key) (path : List Text) :
    upper.at? (key :: path) = lower.at? (key :: path) := by
  rw [at?, at?, same]

theorem HasDistinctKeys.of_lookup (distinct : table.HasDistinctKeys) {inside : Table}
    (found : table.lookup key = some (.table inside)) : inside.HasDistinctKeys := by
  intro path entries stands
  rw [← at?_cons_of_table found] at stands
  exact distinct (key :: path) entries stands

theorem hasDistinctKeys_nil : HasDistinctKeys [] := by
  intro path entries stands
  cases path with
  | nil =>
      cases stands
      exact List.nodup_nil
  | cons key path => cases stands

theorem HasDistinctKeys.cons {rest : Table} (distinct : rest.HasDistinctKeys)
    (fresh : key ∉ rest.map Prod.fst)
    (inside : ∀ entries, value = .table entries → HasDistinctKeys entries) :
    HasDistinctKeys ((key, value) :: rest) := by
  intro path entries stands
  cases path with
  | nil =>
      cases stands
      exact List.nodup_cons.mpr ⟨fresh, distinct [] rest rfl⟩
  | cons other path =>
      have found := lookup_cons_eq_ite other key value rest
      by_cases here : other = key
      · rw [if_pos here] at found
        cases value with
        | table inner =>
            rw [at?_cons_of_table found] at stands
            exact inside inner rfl path entries stands
        | _ =>
            rw [at?_cons_of_plain found rfl] at stands
            split at stands <;> cases stands
      · rw [if_neg here] at found
        rw [at?_cons_congr found] at stands
        exact distinct (other :: path) entries stands

theorem blocks_cons_iff :
    table.Blocks (key :: path) ↔ ∃ before behind value, path = before ++ behind ∧ behind ≠ [] ∧
      table.at? (key :: before) = some value ∧ value.entries? = none := by
  constructor
  · intro blocks
    obtain ⟨before, behind, value, whole, goesOn, stands, plain⟩ := blocks
    cases before with
    | nil =>
        cases stands
        cases plain
    | cons first before =>
        cases whole
        exact ⟨before, behind, value, rfl, goesOn, stands, plain⟩
  · intro blocks
    obtain ⟨before, behind, value, rfl, goesOn, stands, plain⟩ := blocks
    exact ⟨key :: before, behind, value, rfl, goesOn, stands, plain⟩

theorem not_decides_cons_of_none (absent : table.lookup key = none) (path : List Text) :
    ¬ table.Decides (key :: path) := by
  unfold Decides
  rw [blocks_cons_iff]
  simp [at?_cons_of_none absent]

theorem blocks_cons_of_table {inside : Table} (found : table.lookup key = some (.table inside)) :
    table.Blocks (key :: path) ↔ inside.Blocks path := by
  rw [blocks_cons_iff]
  simp only [at?_cons_of_table found]
  rfl

theorem decides_cons_of_table {inside : Table} (found : table.lookup key = some (.table inside)) :
    table.Decides (key :: path) ↔ inside.Decides path := by
  unfold Decides
  rw [blocks_cons_of_table found, at?_cons_of_table found]

theorem decides_cons_of_plain (found : table.lookup key = some value)
    (plain : value.entries? = none) (path : List Text) : table.Decides (key :: path) := by
  have stands : table.at? [key] = some value := at?_cons_of_plain found plain []
  cases path with
  | nil => exact .inl ⟨value, stands⟩
  | cons next behind =>
      exact .inr ⟨[key], next :: behind, value, rfl, List.cons_ne_nil _ _, stands, plain⟩

theorem at?_eq_none_of_blocks (blocks : table.Blocks path) : table.at? path = none := by
  induction path generalizing table with
  | nil =>
      obtain ⟨before, behind, -, whole, goesOn, -⟩ := blocks
      exact absurd (List.append_eq_nil_iff.mp whole.symm).2 goesOn
  | cons key path ih =>
      rcases lookup_cases table key with absent | ⟨inside, found⟩ | ⟨value, found, plain⟩
      · exact at?_cons_of_none absent path
      · rw [at?_cons_of_table found]
        exact ih ((blocks_cons_of_table found).mp blocks)
      · obtain ⟨before, behind, -, whole, goesOn, -⟩ := blocks_cons_iff.mp blocks
        rw [at?_cons_of_plain found plain, whole, if_neg (by simp [goesOn])]

theorem at?_eq_none_of_not_decides (silent : ¬ table.Decides path) : table.at? path = none := by
  cases stands : table.at? path with
  | none => rfl
  | some value => exact absurd (.inl ⟨value, stands⟩) silent

/-! ### One layer -/

theorem overlayValue_of_plain (lower? : Option Data) (plain : value.entries? = none) :
    overlayValue lower? value = value := by
  unfold overlayValue
  cases value with
  | table entries => cases plain
  | _ => rfl

theorem overlayValue_table_of_plain {below : Data} (plain : below.entries? = none)
    (upper : Table) : overlayValue (some below) (.table upper) = .table upper := by
  unfold overlayValue
  cases below with
  | table entries => cases plain
  | _ => rfl

/-- What a key stands for when a layer is laid over a table. -/
theorem lookup_overlay (distinct : (upper.map Prod.fst).Nodup) (lower : Table) (key : Text) :
    (overlay lower upper).lookup key =
      ((upper.lookup key).map (overlayValue (lower.lookup key))).or (lower.lookup key) := by
  induction upper generalizing lower with
  | nil =>
      rw [overlay_nil]
      rfl
  | cons entry rest ih =>
      obtain ⟨name, value⟩ := entry
      obtain ⟨fresh, others⟩ := List.nodup_cons.mp distinct
      rw [overlay, overlayEntry, ih others, lookup_set, lookup_cons_eq_ite]
      by_cases here : key = name
      · subst here
        have absent : rest.lookup key = none := by
          rw [List.lookup_eq_none_iff]
          intro entry member
          have apart : key ≠ entry.1 := by
            intro same
            rw [same] at fresh
            exact fresh (List.mem_map.mpr ⟨entry, member, rfl⟩)
          simpa using apart
        simp [absent]
      · rw [if_neg here, if_neg here]

/-- A table is laid over a table with the same key, and stands alone over anything else. -/
theorem exists_table_of_overlay (distinct : (upper.map Prod.fst).Nodup) {inside : Table}
    (found : upper.lookup key = some (.table inside)) (lower : Table) :
    ∃ merged, (overlay lower upper).lookup key = some (.table merged) ∧
      ((∃ below, lower.lookup key = some (.table below) ∧ merged = overlay below inside) ∨
        (∀ next path, lower.at? (key :: next :: path) = none) ∧ merged = inside) := by
  have merged := lookup_overlay distinct lower key
  rw [found] at merged
  rcases lookup_cases lower key with absent | ⟨below, known⟩ | ⟨value, known, plain⟩
  · rw [absent] at merged
    exact ⟨inside, merged, .inr ⟨fun _ _ => at?_cons_of_none absent _, rfl⟩⟩
  · rw [known] at merged
    exact ⟨overlay below inside, merged, .inl ⟨below, known, rfl⟩⟩
  · rw [known, Option.map_some, overlayValue_table_of_plain plain] at merged
    refine ⟨inside, merged, .inr ⟨fun next path => ?_, rfl⟩⟩
    rw [at?_cons_of_plain known plain, if_neg (List.cons_ne_nil _ _)]

/-- What may be found at a path about which a layer says something. -/
inductive Follows : (said found : Option Data) → Prop
  | same (said : Option Data) : Follows said said
  | table (said found : Table) : Follows (some (.table said)) (some (.table found))

/-- A layer is followed where it decides, and leaves alone what it does not decide. -/
theorem overlay_follows (distinct : upper.HasDistinctKeys) (lower : Table) (path : List Text) :
    (upper.Decides path → Follows (upper.at? path) ((overlay lower upper).at? path)) ∧
      (¬ upper.Decides path → (overlay lower upper).at? path = lower.at? path) := by
  induction path generalizing lower upper with
  | nil => exact ⟨fun _ => .table upper _, fun silent => absurd (.inl ⟨_, rfl⟩) silent⟩
  | cons key path ih =>
      have keys := distinct [] upper rfl
      rcases lookup_cases upper key with absent | ⟨inside, found⟩ | ⟨value, found, plain⟩
      · have silent := not_decides_cons_of_none absent path
        have kept := lookup_overlay keys lower key
        rw [absent] at kept
        exact ⟨fun decides => absurd decides silent, fun _ => at?_cons_congr kept path⟩
      · rw [decides_cons_of_table found, at?_cons_of_table found]
        obtain ⟨merged, stands, laid⟩ := exists_table_of_overlay keys found lower
        rw [at?_cons_of_table stands]
        cases laid with
        | inl both =>
            obtain ⟨below, known, rfl⟩ := both
            rw [at?_cons_of_table known]
            exact ih (distinct.of_lookup found) below
        | inr alone =>
            obtain ⟨nothing, rfl⟩ := alone
            refine ⟨fun _ => .same _, fun silent => ?_⟩
            cases path with
            | nil => exact absurd (.inl ⟨_, rfl⟩) silent
            | cons next rest => rw [at?_eq_none_of_not_decides silent, nothing]
      · have kept := lookup_overlay keys lower key
        rw [found, Option.map_some, overlayValue_of_plain _ plain] at kept
        have same : (overlay lower upper).at? (key :: path) = upper.at? (key :: path) :=
          at?_cons_congr (kept.trans found.symm) path
        rw [same]
        have decides := decides_cons_of_plain found plain path
        exact ⟨fun _ => .same _, fun silent => absurd decides silent⟩

/-! ### All layers -/

theorem at?_foldl_overlay_of_silent {layers : List Table}
    (distinct : ∀ layer ∈ layers, layer.HasDistinctKeys)
    (silent : ∀ layer ∈ layers, ¬ layer.Decides path) (lower : Table) :
    (layers.foldl overlay lower).at? path = lower.at? path := by
  induction layers generalizing lower with
  | nil => rfl
  | cons layer above ih =>
      have step := (overlay_follows (distinct layer List.mem_cons_self) lower path).2
        (silent layer List.mem_cons_self)
      have later := ih (fun other member => distinct other (List.mem_cons_of_mem _ member))
        (fun other member => silent other (List.mem_cons_of_mem _ member)) (overlay lower layer)
      rw [List.foldl_cons, later, step]

/-- What the highest layer with something to say about a path says of it is followed. -/
theorem follows_at?_merge {below above : List Table} {layer : Table}
    (distinct : ∀ other ∈ below ++ layer :: above, other.HasDistinctKeys)
    (decides : layer.Decides path) (highest : ∀ higher ∈ above, ¬ higher.Decides path) :
    Follows (layer.at? path) ((merge (below ++ layer :: above)).at? path) := by
  have here : layer.HasDistinctKeys := distinct layer (by simp)
  have higher : ∀ other ∈ above, other.HasDistinctKeys := fun other member =>
    distinct other (by simp [member])
  unfold merge
  rw [List.foldl_append, List.foldl_cons, at?_foldl_overlay_of_silent higher highest]
  exact (overlay_follows here _ path).1 decides

/-- At every path, the layers that are laid over the defaults are merged to what the highest layer
with something to say about the path says of it: its value, a table where it has a table, nothing
where a value of it stands on the way. Where no layer says anything there is nothing. -/
theorem merge_follows_highest_layer (defaults : Table) (layers : List Table)
    (distinct : ∀ layer ∈ defaults :: layers, layer.HasDistinctKeys) (path : List Text) :
    let stack := defaults :: layers
    (∀ below layer above, stack = below ++ layer :: above → layer.Decides path →
      (∀ higher ∈ above, ¬ higher.Decides path) →
        (∀ value, layer.at? path = some value → value.entries? = none →
          (merge stack).at? path = some value) ∧
        (∀ entries, layer.at? path = some (.table entries) →
          ∃ merged, (merge stack).at? path = some (.table merged)) ∧
        (layer.Blocks path → (merge stack).at? path = none)) ∧
      ((∀ layer ∈ stack, ¬ layer.Decides path) → (merge stack).at? path = none) := by
  intro stack
  constructor
  · intro below layer above whole decides highest
    have everyKey : ∀ other ∈ below ++ layer :: above, other.HasDistinctKeys := by
      rw [← whole]
      exact distinct
    have follows := follows_at?_merge everyKey decides highest
    rw [← whole] at follows
    refine ⟨fun value stands plain => ?_, fun entries stands => ?_, fun blocks => ?_⟩
    · rw [stands] at follows
      generalize (merge stack).at? path = found at follows
      cases follows with
      | same => rfl
      | table => cases plain
    · rw [stands] at follows
      generalize (merge stack).at? path = found at follows
      cases follows with
      | same => exact ⟨entries, rfl⟩
      | table said found => exact ⟨found, rfl⟩
    · rw [at?_eq_none_of_blocks blocks] at follows
      generalize (merge stack).at? path = found at follows
      cases follows with
      | same => rfl
  · intro silent
    have nothing := at?_foldl_overlay_of_silent distinct silent []
    cases path with
    | nil => exact absurd (.inl ⟨_, rfl⟩) (silent defaults List.mem_cons_self)
    | cons key path => exact nothing.trans (at?_cons_of_none rfl path)

/-- Defaults with a table that the layer above hides. -/
def hiddenDefaults : Table :=
  [("log".toList, .text "info".toList),
    ("ui".toList, .table [("menu".toList, .table [("size".toList, .integer 9)])])]

/-- A layer with a value where the layers around it have tables. -/
def hidingLayer : Table :=
  [("ui".toList, .bool false)]

/-- A layer with a table that starts anew. -/
def renewingLayer : Table :=
  [("ui".toList, .table [("menu".toList, .table [("open".toList, .null)])])]

theorem merge_follows_highest_layer_hiding :
    let stack := [hiddenDefaults, hidingLayer, renewingLayer]
    (merge stack).at? ["ui".toList, "menu".toList, "size".toList] = none ∧
      (merge stack).at? ["ui".toList, "menu".toList, "open".toList] = some .null ∧
      (∃ merged, (merge stack).at? ["ui".toList, "menu".toList] = some (.table merged)) ∧
      (merge stack).at? ["log".toList] = some (.text "info".toList) ∧
      (merge stack).at? ["theme".toList] = none := by
  intro stack
  have single (name : Text) (value : Data)
      (inside : ∀ entries, value = .table entries → HasDistinctKeys entries) :
      HasDistinctKeys [(name, value)] :=
    hasDistinctKeys_nil.cons (List.not_mem_nil) inside
  have flat (name : Text) (value : Data) (plain : value.entries? = none) :
      HasDistinctKeys [(name, value)] := by
    apply single
    rintro entries rfl
    cases plain
  have nested (name : Text) (entries : Table) (inside : entries.HasDistinctKeys) :
      HasDistinctKeys [(name, .table entries)] := by
    apply single
    rintro given ⟨⟩
    exact inside
  have distinct : ∀ layer ∈ stack, layer.HasDistinctKeys := by
    simp only [stack, List.forall_mem_cons]
    refine ⟨?_, flat _ _ rfl, nested _ _ (nested _ _ (flat _ _ rfl)), List.forall_mem_nil _⟩
    apply (nested _ _ (nested _ _ (flat _ _ rfl))).cons (by decide)
    intro entries same
    cases same
  have facts := merge_follows_highest_layer hiddenDefaults [hidingLayer, renewingLayer] distinct
  have blocks : hidingLayer.Blocks ["ui".toList, "menu".toList, "size".toList] :=
    ⟨["ui".toList], ["menu".toList, "size".toList], .bool false, rfl, List.cons_ne_nil _ _, rfl,
      rfl⟩
  have anew : ¬ renewingLayer.Decides ["ui".toList, "menu".toList, "size".toList] := by
    rw [decides_cons_of_table rfl, decides_cons_of_table rfl]
    exact not_decides_cons_of_none rfl []
  have silent (key : Text) {layers : List Table}
      (absent : ∀ layer ∈ layers, layer.lookup key = none) :
      ∀ layer ∈ layers, ¬ layer.Decides [key] :=
    fun layer member => not_decides_cons_of_none (absent layer member) []
  refine ⟨?_, ?_, ?_, ?_, ?_⟩
  · exact ((facts _).1 [hiddenDefaults] hidingLayer [renewingLayer] rfl (.inr blocks)
      (List.forall_mem_singleton.mpr anew)).2.2 blocks
  · exact ((facts _).1 [hiddenDefaults, hidingLayer] renewingLayer [] rfl (.inl ⟨_, rfl⟩)
      (List.forall_mem_nil _)).1 _ rfl rfl
  · exact ((facts _).1 [hiddenDefaults, hidingLayer] renewingLayer [] rfl (.inl ⟨_, rfl⟩)
      (List.forall_mem_nil _)).2.1 _ rfl
  · exact ((facts _).1 [] hiddenDefaults [hidingLayer, renewingLayer] rfl (.inl ⟨_, rfl⟩)
      (silent _ (by decide))).1 _ rfl rfl
  · exact (facts _).2 (silent _ (by decide))

end DocComponents.Table
