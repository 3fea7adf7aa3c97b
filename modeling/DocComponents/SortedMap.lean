import DocComponents.Text.Basic

/-!
# Sorted maps

A map as the list of its entries in the order of their keys. The order is part of the type, so two
maps that agree on every key are equal.
-/

set_option autoImplicit false

namespace DocComponents

class OrderedKey (Key : Type) where
  before : Key → Key → Bool
  not_before_self : ∀ key, before key key = false
  before_trans : ∀ first second third,
    before first second = true → before second third = true → before first third = true
  eq_of_not_before : ∀ left right,
    before left right = false → before right left = false → left = right

export OrderedKey (before)

/-- Texts in the order of their code points. -/
instance : OrderedKey Text where
  before left right := decide (left < right)
  not_before_self key := decide_eq_false (List.lt_irrefl key)
  before_trans first second third := by simpa using List.lt_trans
  eq_of_not_before left right := by
    intro notLess notGreater
    exact Std.Trichotomous.trichotomous (r := (· < ·)) left right
      (of_decide_eq_false notLess) (of_decide_eq_false notGreater)

/-- Lists of texts, part by part. -/
instance : OrderedKey (List Text) where
  before left right := decide (left < right)
  not_before_self key := decide_eq_false (List.lt_irrefl key)
  before_trans first second third := by simpa using List.lt_trans
  eq_of_not_before left right := by
    intro notLess notGreater
    exact Std.Trichotomous.trichotomous (r := (· < ·)) left right
      (of_decide_eq_false notLess) (of_decide_eq_false notGreater)

variable {Key Value : Type}

/-- Looking up a key in entries, told by its first entry. -/
theorem lookup_cons_eq_ite [BEq Key] [LawfulBEq Key] [DecidableEq Key] (key name : Key)
    (value : Value) (rest : List (Key × Value)) :
    ((name, value) :: rest).lookup key = if key = name then some value else rest.lookup key := by
  by_cases here : key = name
  · simp [here]
  · simp [List.lookup_cons, here, beq_false_of_ne here]

/-- A test on keys hides the keys that fail it and leaves the others as they are. -/
theorem lookup_filter_key [DecidableEq Key] (keep : Key → Bool) (key : Key)
    (entries : List (Key × Value)) :
    (entries.filter fun entry => keep entry.1).lookup key =
      if keep key then entries.lookup key else none := by
  induction entries with
  | nil => simp
  | cons entry rest ih =>
      obtain ⟨other, value⟩ := entry
      by_cases kept : keep other = true
      · rw [List.filter_cons_of_pos (by simpa using kept), lookup_cons_eq_ite, lookup_cons_eq_ite,
          ih]
        by_cases here : key = other <;> simp [here, kept]
      · rw [List.filter_cons_of_neg (by simpa using kept), lookup_cons_eq_ite, ih]
        by_cases here : key = other <;> simp [here, kept]

variable [OrderedKey Key]

def SortedEntries (entries : List (Key × Value)) : Prop :=
  entries.Pairwise fun left right => before left.1 right.1 = true

structure SortedMap (Key Value : Type) [OrderedKey Key] where
  entries : List (Key × Value)
  sorted : SortedEntries entries

def insertEntry (key : Key) (value : Value) : List (Key × Value) → List (Key × Value)
  | [] => [(key, value)]
  | (other, old) :: rest =>
    if before key other then (key, value) :: (other, old) :: rest
    else if before other key then (other, old) :: insertEntry key value rest
    else (key, value) :: rest

theorem mem_insertEntry {key : Key} {value : Value} {entries : List (Key × Value)}
    {entry : Key × Value} (member : entry ∈ insertEntry key value entries) :
    entry = (key, value) ∨ entry ∈ entries := by
  induction entries with
  | nil => simpa [insertEntry] using member
  | cons head rest ih =>
      obtain ⟨other, old⟩ := head
      simp only [insertEntry] at member
      split at member
      · simpa using member
      · split at member
        · rcases List.mem_cons.mp member with same | later
          · exact .inr (List.mem_cons.mpr (.inl same))
          · exact (ih later).imp_right (List.mem_cons_of_mem _)
        · rcases List.mem_cons.mp member with same | later
          · exact .inl same
          · exact .inr (List.mem_cons_of_mem _ later)

theorem SortedEntries.insertEntry {key : Key} {value : Value} {entries : List (Key × Value)}
    (sorted : SortedEntries entries) : SortedEntries (insertEntry key value entries) := by
  induction entries with
  | nil => simp [DocComponents.insertEntry, SortedEntries]
  | cons head rest ih =>
      obtain ⟨other, old⟩ := head
      have below := List.pairwise_cons.mp sorted
      simp only [DocComponents.insertEntry]
      split
      next first =>
        refine List.pairwise_cons.mpr ⟨fun entry member => ?_, sorted⟩
        rcases List.mem_cons.mp member with same | later
        · subst same; exact first
        · exact OrderedKey.before_trans _ _ _ first (below.1 entry later)
      next notFirst =>
        split
        next after =>
          refine List.pairwise_cons.mpr ⟨fun entry member => ?_, ih below.2⟩
          rcases mem_insertEntry member with same | later
          · subst same; exact after
          · exact below.1 entry later
        next notAfter =>
          have same := OrderedKey.eq_of_not_before key other
            (Bool.eq_false_iff.mpr notFirst) (Bool.eq_false_iff.mpr notAfter)
          subst same
          exact List.pairwise_cons.mpr ⟨below.1, below.2⟩

theorem OrderedKey.ne_of_before {left right : Key} (first : before left right = true) :
    left ≠ right := by
  rintro rfl
  simp [OrderedKey.not_before_self] at first

/-- Setting the value of a key changes the value of that key only. -/
theorem lookup_insertEntry [DecidableEq Key] (key other : Key) (value : Value)
    (entries : List (Key × Value)) :
    (insertEntry key value entries).lookup other =
      if other = key then some value else entries.lookup other := by
  induction entries with
  | nil => simp [insertEntry, lookup_cons_eq_ite]
  | cons entry rest ih =>
      obtain ⟨name, old⟩ := entry
      simp only [insertEntry]
      split
      · simp only [lookup_cons_eq_ite]
      · split
        next after =>
          have apart := OrderedKey.ne_of_before after
          simp only [lookup_cons_eq_ite, ih]
          by_cases here : other = name
          · simp [here, apart]
          · simp [here]
        next notFirst notAfter =>
          have same := OrderedKey.eq_of_not_before key name
            (Bool.eq_false_iff.mpr notFirst) (Bool.eq_false_iff.mpr notAfter)
          subst same
          simp only [lookup_cons_eq_ite]
          by_cases here : other = key <;> simp [here]

/-- Sorted entries are determined by their members. -/
theorem eq_of_sortedEntries {left right : List (Key × Value)} (leftSorted : SortedEntries left)
    (rightSorted : SortedEntries right) (agree : ∀ entry, entry ∈ left ↔ entry ∈ right) :
    left = right := by
  induction left generalizing right with
  | nil =>
      cases right with
      | nil => rfl
      | cons entry rest => exact absurd ((agree entry).mpr (by simp)) (by simp)
  | cons first rest ih =>
      cases right with
      | nil => exact absurd ((agree first).mp (by simp)) (by simp)
      | cons other others =>
          have afterFirst := List.pairwise_cons.mp leftSorted
          have afterOther := List.pairwise_cons.mp rightSorted
          have same : first = other := by
            rcases List.mem_cons.mp ((agree first).mp (by simp)) with equal | later
            · exact equal
            · rcases List.mem_cons.mp ((agree other).mpr (by simp)) with equal | earlier
              · exact equal.symm
              · exact absurd rfl (OrderedKey.ne_of_before (OrderedKey.before_trans _ _ _
                  (afterOther.1 first later) (afterFirst.1 other earlier)))
          subst same
          refine congrArg _ (ih afterFirst.2 afterOther.2 fun entry =>
            ⟨fun member => ?_, fun member => ?_⟩)
          · have apart : entry ≠ first := fun equal =>
              OrderedKey.ne_of_before (afterFirst.1 entry member) (congrArg Prod.fst equal.symm)
            have found := (agree entry).mp (List.mem_cons_of_mem _ member)
            exact (List.mem_cons.mp found).resolve_left apart
          · have apart : entry ≠ first := fun equal =>
              OrderedKey.ne_of_before (afterOther.1 entry member) (congrArg Prod.fst equal.symm)
            have found := (agree entry).mpr (List.mem_cons_of_mem _ member)
            exact (List.mem_cons.mp found).resolve_left apart

namespace SortedMap

def empty : SortedMap Key Value := ⟨[], List.Pairwise.nil⟩

instance : Inhabited (SortedMap Key Value) := ⟨empty⟩

instance [DecidableEq Key] [DecidableEq Value] : DecidableEq (SortedMap Key Value) :=
  fun left right =>
    if same : left.entries = right.entries then
      isTrue (by cases left; cases right; cases same; rfl)
    else isFalse fun equal => same (congrArg entries equal)

def get? [DecidableEq Key] (map : SortedMap Key Value) (key : Key) : Option Value :=
  map.entries.lookup key

def contains [DecidableEq Key] (map : SortedMap Key Value) (key : Key) : Bool :=
  (map.get? key).isSome

def insert (map : SortedMap Key Value) (key : Key) (value : Value) : SortedMap Key Value :=
  ⟨insertEntry key value map.entries, map.sorted.insertEntry⟩

def filter (map : SortedMap Key Value) (keep : Key → Value → Bool) : SortedMap Key Value :=
  ⟨map.entries.filter fun entry => keep entry.1 entry.2, List.Pairwise.filter _ map.sorted⟩

def erase [DecidableEq Key] (map : SortedMap Key Value) (key : Key) : SortedMap Key Value :=
  map.filter fun other _ => other ≠ key

def keys (map : SortedMap Key Value) : List Key :=
  map.entries.map Prod.fst

def values (map : SortedMap Key Value) : List Value :=
  map.entries.map Prod.snd

def size (map : SortedMap Key Value) : Nat :=
  map.entries.length

def insertAll (map : SortedMap Key Value) (entries : List (Key × Value)) : SortedMap Key Value :=
  entries.foldl (fun current entry => current.insert entry.1 entry.2) map

variable [DecidableEq Key]

@[simp]
theorem get?_empty (key : Key) : (empty : SortedMap Key Value).get? key = none := rfl

@[simp]
theorem get?_insert (map : SortedMap Key Value) (key other : Key) (value : Value) :
    (map.insert key value).get? other = if other = key then some value else map.get? other :=
  lookup_insertEntry key other value map.entries

@[simp]
theorem get?_erase (map : SortedMap Key Value) (key other : Key) :
    (map.erase key).get? other = if other = key then none else map.get? other := by
  simp only [get?, erase, filter]
  rw [lookup_filter_key fun name => decide (name ≠ key)]
  by_cases same : other = key <;> simp [same]

/-- An entry of a map is the one that is found under its key. -/
theorem get?_eq_some_iff (map : SortedMap Key Value) (key : Key) (value : Value) :
    map.get? key = some value ↔ (key, value) ∈ map.entries := by
  obtain ⟨entries, sorted⟩ := map
  simp only [get?]
  induction entries with
  | nil => simp
  | cons entry rest ih =>
      obtain ⟨other, old⟩ := entry
      have below := List.pairwise_cons.mp sorted
      rw [lookup_cons_eq_ite, List.mem_cons, Prod.mk.injEq]
      by_cases here : key = other
      · subst here
        have absent : (key, value) ∉ rest := fun member =>
          OrderedKey.ne_of_before (below.1 _ member) rfl
        simp [absent, eq_comm]
      · simp [here, ih below.2]

/-- Maps that agree on every key are equal. -/
theorem eq_of_get?_eq {left right : SortedMap Key Value}
    (agree : ∀ key, left.get? key = right.get? key) : left = right := by
  obtain ⟨leftEntries, leftSorted⟩ := left
  obtain ⟨rightEntries, rightSorted⟩ := right
  have same : leftEntries = rightEntries :=
    eq_of_sortedEntries leftSorted rightSorted fun entry => by
      have found := agree entry.1
      rw [← get?_eq_some_iff ⟨leftEntries, leftSorted⟩ entry.1 entry.2,
        ← get?_eq_some_iff ⟨rightEntries, rightSorted⟩ entry.1 entry.2, found]
  subst same
  rfl

end SortedMap

end DocComponents
