import DocComponents.SortedMap

/-! Laws of sorted maps that tell what is found after an operation: under filters, among the keys
and the values, and at the end of the entries, where the greatest key stands. -/

set_option autoImplicit false

namespace DocComponents.SortedMap

variable {Key Value : Type} [OrderedKey Key] [DecidableEq Key]

omit [DecidableEq Key] in
theorem not_before_of_before {left right : Key} (first : before left right = true) :
    before right left = false := by
  cases second : before right left with
  | false => rfl
  | true => exact absurd rfl (OrderedKey.ne_of_before (OrderedKey.before_trans _ _ _ first second))

theorem eq_or_before_of_mem {Entry : Type} {relation : Entry → Entry → Prop}
    {entries : List Entry} {last entry : Entry} (sorted : entries.Pairwise relation)
    (ends : entries.getLast? = some last) (member : entry ∈ entries) :
    entry = last ∨ relation entry last := by
  obtain ⟨before, rfl⟩ := List.getLast?_eq_some_iff.mp ends
  rcases List.mem_append.mp member with earlier | here
  · exact .inr ((List.pairwise_append.mp sorted).2.2 entry earlier last List.mem_cons_self)
  · exact .inl (by simpa using here)

theorem get?_filter_eq_some_iff (map : SortedMap Key Value) (keep : Key → Value → Bool) (key : Key)
    (value : Value) :
    (map.filter keep).get? key = some value ↔
      map.get? key = some value ∧ keep key value = true := by
  rw [get?_eq_some_iff, get?_eq_some_iff]
  simp [filter]

theorem get?_filter_key (map : SortedMap Key Value) (keep : Key → Bool) (key : Key) :
    (map.filter fun other _ => keep other).get? key = if keep key then map.get? key else none :=
  lookup_filter_key keep key map.entries

theorem get?_insertAll_of_not_mem {map : SortedMap Key Value} {entries : List (Key × Value)}
    {key : Key} (untouched : ∀ entry ∈ entries, entry.1 ≠ key) :
    (map.insertAll entries).get? key = map.get? key := by
  induction entries generalizing map with
  | nil => rfl
  | cons entry rest ih =>
      have apart := untouched entry List.mem_cons_self
      refine (ih fun later member => untouched later (List.mem_cons_of_mem _ member)).trans ?_
      rw [get?_insert, if_neg (Ne.symm apart)]

/-- The entries of one key decide what is found under it, when they agree. -/
theorem get?_insertAll_of_mem {map : SortedMap Key Value} {entries : List (Key × Value)}
    {key : Key} {value : Value} (member : (key, value) ∈ entries)
    (agree : ∀ entry ∈ entries, entry.1 = key → entry.2 = value) :
    (map.insertAll entries).get? key = some value := by
  induction entries generalizing map with
  | nil => cases member
  | cons entry rest ih =>
      have agreeLater : ∀ later ∈ rest, later.1 = key → later.2 = value :=
        fun later inRest => agree later (List.mem_cons_of_mem _ inRest)
      by_cases again : ∃ later ∈ rest, later.1 = key
      · obtain ⟨⟨other, given⟩, inRest, rfl⟩ := again
        have same : given = value := agreeLater _ inRest rfl
        exact ih (same ▸ inRest) agreeLater
      · have untouched : ∀ later ∈ rest, later.1 ≠ key := fun later inRest same =>
          again ⟨later, inRest, same⟩
        refine (get?_insertAll_of_not_mem untouched).trans ?_
        rcases List.mem_cons.mp member with rfl | inRest
        · rw [get?_insert, if_pos rfl]
        · exact absurd rfl (untouched _ inRest)

theorem filter_eq_self {map : SortedMap Key Value} {keep : Key → Value → Bool}
    (all : ∀ key value, map.get? key = some value → keep key value = true) :
    map.filter keep = map := by
  apply eq_of_get?_eq
  intro key
  cases found : map.get? key with
  | some value =>
      exact (get?_filter_eq_some_iff map keep key value).mpr ⟨found, all key value found⟩
  | none =>
      cases kept : (map.filter keep).get? key with
      | none => rfl
      | some value =>
          have still := ((get?_filter_eq_some_iff map keep key value).mp kept).1
          cases found.symm.trans still

theorem mem_keys_iff (map : SortedMap Key Value) (key : Key) :
    key ∈ map.keys ↔ ∃ value, map.get? key = some value := by
  simp only [get?_eq_some_iff, keys, List.mem_map]
  constructor
  · intro isKey
    obtain ⟨⟨other, value⟩, member, rfl⟩ := isKey
    exact ⟨value, member⟩
  · intro found
    obtain ⟨value, member⟩ := found
    exact ⟨_, member, rfl⟩

omit [DecidableEq Key] in
theorem keys_pairwise (map : SortedMap Key Value) :
    map.keys.Pairwise fun left right => before left right = true :=
  List.pairwise_map.mpr map.sorted

theorem contains_eq_true_iff (map : SortedMap Key Value) (key : Key) :
    map.contains key = true ↔ ∃ value, map.get? key = some value := by
  rw [contains, Option.isSome_iff_exists]

theorem get?_eq_none_of_not_mem {map : SortedMap Key Value} {key : Key}
    (absent : key ∉ map.keys) : map.get? key = none := by
  cases found : map.get? key with
  | none => rfl
  | some value => exact absurd ((map.mem_keys_iff key).mpr ⟨value, found⟩) absent

omit [DecidableEq Key] in
theorem size_le_size_insert (map : SortedMap Key Value) (key : Key) (value : Value) :
    map.size ≤ (map.insert key value).size := by
  have longer : ∀ entries : List (Key × Value),
      entries.length ≤ (insertEntry key value entries).length := by
    intro entries
    induction entries with
    | nil => simp
    | cons entry rest ih =>
        obtain ⟨other, old⟩ := entry
        simp only [insertEntry]
        split
        · simp
        · split
          · simpa using ih
          · simp
  exact longer map.entries

end DocComponents.SortedMap
