import DocComponents.Text.Basic

/-!
# Props

Props are an ordered map from keys to texts. A key keeps the position at which it first came in and
the value that came in last.
-/

set_option autoImplicit false

namespace DocComponents

/-- Pairs with the value of `key` replaced, or with a new pair at the end. -/
def putPair (key value : Text) : List (Text × Text) → List (Text × Text)
  | [] => [(key, value)]
  | (other, old) :: rest =>
    if other = key then (other, value) :: rest else (other, old) :: putPair key value rest

theorem mem_keys_putPair {key value name : Text} {pairs : List (Text × Text)} :
    name ∈ (putPair key value pairs).map Prod.fst ↔ name = key ∨ name ∈ pairs.map Prod.fst := by
  induction pairs with
  | nil => simp [putPair]
  | cons pair rest ih =>
      obtain ⟨other, old⟩ := pair
      by_cases same : other = key
      · subst same; simp [putPair]
      · simp only [putPair, same, ↓reduceIte, List.map_cons, List.mem_cons, ih]
        constructor
        · rintro (found | found | found) <;> simp [found]
        · rintro (found | found | found) <;> simp [found]

theorem nodup_keys_putPair {key value : Text} {pairs : List (Text × Text)}
    (distinct : (pairs.map Prod.fst).Nodup) :
    ((putPair key value pairs).map Prod.fst).Nodup := by
  induction pairs with
  | nil => simp [putPair]
  | cons pair rest ih =>
      obtain ⟨other, old⟩ := pair
      rw [List.map_cons, List.nodup_cons] at distinct
      by_cases same : other = key
      · simpa [putPair, same] using distinct
      · simp only [putPair, same, ↓reduceIte, List.map_cons, List.nodup_cons]
        refine ⟨fun found => ?_, ih distinct.2⟩
        rcases mem_keys_putPair.mp found with absurdKey | known
        · exact same absurdKey
        · exact distinct.1 known

/-- An ordered map from keys to texts. -/
structure Props where
  /-- The keys with their values, in the order in which the keys first came in. -/
  pairs : List (Text × Text)
  distinct : (pairs.map Prod.fst).Nodup
  deriving DecidableEq

namespace Props

def empty : Props := ⟨[], List.nodup_nil⟩

instance : Inhabited Props := ⟨empty⟩

def put (props : Props) (key value : Text) : Props :=
  ⟨putPair key value props.pairs, nodup_keys_putPair props.distinct⟩

def get? (props : Props) (key : Text) : Option Text :=
  props.pairs.lookup key

/-- The value of a key, or the empty text. -/
def get (props : Props) (key : Text) : Text :=
  (props.get? key).getD []

def putAll (props : Props) (pairs : List (Text × Text)) : Props :=
  pairs.foldl (fun current pair => current.put pair.1 pair.2) props

def ofPairs (pairs : List (Text × Text)) : Props :=
  empty.putAll pairs

/-- Default props overlaid with the props of a caller, which win. -/
def overlay (defaults overrides : Props) : Props :=
  defaults.putAll overrides.pairs

end Props

end DocComponents
