import DocComponents.Data.Table
import DocComponents.SortedMap

/-! What is found in a table after an entry is set, and after a layer of texts is laid over it. -/

set_option autoImplicit false

namespace DocComponents.Table

theorem lookup_set (key other : Text) (value : Data) (table : Table) :
    (set key value table).lookup other =
      if other = key then some value else table.lookup other := by
  induction table with
  | nil => rw [set, lookup_cons_eq_ite]
  | cons entry rest ih =>
      obtain ⟨first, old⟩ := entry
      unfold set
      by_cases found : first = key
      · subst found
        rw [if_pos rfl, lookup_cons_eq_ite, lookup_cons_eq_ite]
        split <;> rfl
      · rw [if_neg found, lookup_cons_eq_ite, lookup_cons_eq_ite, ih]
        by_cases here : other = first
        · subst here
          rw [if_pos rfl, if_pos rfl, if_neg found]
        · rw [if_neg here, if_neg here]

theorem overlay_nil (lower : Table) : overlay lower [] = lower := by
  rw [overlay]

theorem overlay_text (lower : Table) (key value : Text) :
    overlay lower [(key, .text value)] = set key (.text value) lower := by
  rw [overlay, overlay_nil, overlayEntry, overlayValue]
  simp

theorem overlay_cons (lower : Table) (entry : Text × Data) (rest : Table) :
    overlay lower (entry :: rest) = overlay (overlay lower [entry]) rest := by
  rw [overlay, overlay, overlay_nil]

end DocComponents.Table
