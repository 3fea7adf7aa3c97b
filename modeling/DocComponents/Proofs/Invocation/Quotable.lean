import DocComponents.Proofs.Invocation.Written

/-!
# Values that can be quoted

A value is read up to the quote that opened it, so it never holds both quotes, wherever in the text
the scan found it. A value that holds both cannot come back, not even by way of a pair that the scan
finds inside it.
-/

set_option autoImplicit false

namespace DocComponents

theorem isQuotable_of_not_mem {quote : Char} (isQuote : quote = '"' ∨ quote = '\'') {value : Text}
    (absent : quote ∉ value) : isQuotable value = true := by
  rcases isQuote with rfl | rfl <;> simp [isQuotable, absent]

theorem isQuotable_of_recogniseArgument {text : Text} {pair : Text × Text} {size : Nat}
    (recognised : recogniseArgument text = some (pair, size)) : isQuotable pair.2 = true := by
  obtain ⟨spelling, -, proper, rfl, -⟩ := exists_spelling_of_recogniseArgument recognised
  exact isQuotable_of_not_mem proper.quote proper.value

/-- Every value that arguments give can be quoted. -/
theorem isQuotable_of_mem_arguments {text : Text} {pair : Text × Text}
    (member : pair ∈ (arguments text).pairs) : isQuotable pair.2 = true := by
  obtain ⟨rest, size, recognised⟩ :=
    Text.exists_recognised_of_mem_hits (Props.mem_ofPairs member)
  exact isQuotable_of_recogniseArgument recognised

/-- A written invocation is read with its name, and with its props exactly when each of their values
can be quoted. -/
theorem written_props_return_iff {name : Text} {props : Props}
    (identifier : isIdentifier name = true)
    (keys : ∀ pair ∈ props.pairs, isPropKey pair.1 = true) :
    ∃ found, Invocation.read? (Invocation.write name props) = some { name, props := found } ∧
      (found = props ↔ ∀ pair ∈ props.pairs, isQuotable pair.2 = true) := by
  refine ⟨arguments (argumentList props.pairs), Invocation.read?_write_eq identifier props, ?_⟩
  constructor
  · intro same pair member
    rw [← same] at member
    exact isQuotable_of_mem_arguments member
  · intro quotable
    rw [arguments, hits_argumentList keys quotable, Props.ofPairs_pairs]

/-- Values that look like arguments and like the end of a list of arguments. -/
def imitatingProps : Props :=
  .ofPairs [("text".toList, "a\", size=\"9\n)".toList), ("size".toList, "it's, text='b'".toList)]

/-- A value with both quotes, in which the scan finds pairs for its own key and for the next one. -/
def clashingProps : Props :=
  .ofPairs [("text".toList, "\" text='it\" size='s".toList), ("size".toList, "1".toList)]

theorem written_props_return_iff_imitating :
    Invocation.read? (Invocation.write "card".toList imitatingProps) =
        some { name := "card".toList, props := imitatingProps } ∧
      Invocation.read? (Invocation.write "card".toList clashingProps) ≠
        some { name := "card".toList, props := clashingProps } := by
  have keys : ∀ props ∈ [imitatingProps, clashingProps],
      ∀ pair ∈ props.pairs, isPropKey pair.1 = true := by decide +kernel
  obtain ⟨found, read, returns⟩ := @written_props_return_iff "card".toList imitatingProps
    (by decide) (keys _ (by simp))
  obtain ⟨other, readOther, clashes⟩ := @written_props_return_iff "card".toList clashingProps
    (by decide) (keys _ (by simp))
  have quotable : ∀ pair ∈ imitatingProps.pairs, isQuotable pair.2 = true := by decide +kernel
  have unquotable : ¬ ∀ pair ∈ clashingProps.pairs, isQuotable pair.2 = true := by decide +kernel
  refine ⟨returns.mpr quotable ▸ read, fun same => unquotable (clashes.mp ?_)⟩
  have equal := Option.some.inj (readOther.symm.trans same)
  exact congrArg Invocation.props equal

end DocComponents
