import ProcessBus.Scl.GooseImport

/-!
# The errors of an import

Whatever the members of a control block are, there are only two errors with which the budget of the
builder can end (`charges_gooseMembers`), and a stream says nothing about its schema before its
members are resolved (`schemaError_gooseHeader`).
-/

namespace ProcessBus.Scl

open Lib Metered

/-! ## Errors of the budget -/

/-- The two errors of an exhausted budget. -/
def IsBudgetError (err : String) : Prop := err = typeGraph ∨ err = attributeGraph

theorem charges_definition (types : TypeTable) (id kind : String) (depth : ℕ) :
    Charges IsBudgetError (types.definition id kind depth) := by
  refine (charges_take (.inl rfl)).bind ?_
  intro _
  dsimp only
  split_ifs
  · exact charges_fail _
  · exact charges_fail _
  · exact charges_pure _

theorem charges_fields {dataAttribute : Element → Metered String Typ}
    (h : ∀ a, Charges IsBudgetError (dataAttribute a)) (seen : List String)
    (children : List Element) : Charges IsBudgetError (fields dataAttribute seen children) := by
  induction children generalizing seen with
  | nil => exact charges_pure _
  | cons child rest ih =>
      rw [fields]
      split_ifs
      · exact charges_fail _
      · refine (h child).bind ?_
        intro t
        refine (ih _).bind ?_
        intro ts
        exact charges_pure _

theorem charges_plainAttribute (a : Element) {struct : Metered String (List Typ)}
    (h : Charges IsBudgetError struct) : Charges IsBudgetError (plainAttribute a struct) := by
  rw [plainAttribute]
  dsimp only
  split_ifs
  · refine h.bind ?_
    intro children
    exact charges_pure _
  · refine (charges_ofExcept _).bind ?_
    intro e
    exact charges_pure _

theorem charges_dataAttribute (types : TypeTable) (left : ℕ) (a : Element) :
    Charges IsBudgetError (types.dataAttribute left a) := by
  induction left generalizing a with
  | zero =>
      refine (charges_take (.inr rfl)).bind ?_
      intro _
      exact charges_fail _
  | succ left ih =>
      rw [TypeTable.dataAttribute]
      refine (charges_take (.inr rfl)).bind ?_
      intro _
      refine (charges_plainAttribute a ?_).bind ?_
      · refine (charges_definition types _ _ _).bind ?_
        intro x
        exact charges_fields ih [] _
      · intro t
        exact charges_ofExcept _

theorem charges_objectParts {object : String → String → Metered String (List FcType)}
    {dataAttribute : Element → Metered String Typ}
    (hobject : ∀ name id, Charges IsBudgetError (object name id))
    (hattribute : ∀ a, Charges IsBudgetError (dataAttribute a)) (a : Element) :
    Charges IsBudgetError (objectParts object dataAttribute a) := by
  rw [objectParts]
  split_ifs
  · exact charges_fail _
  · exact hobject _ _
  · exact charges_fail _
  · refine (hattribute a).bind ?_
    intro t
    exact charges_pure _

theorem charges_objectLoop {parts : Element → Metered String (List FcType)}
    (h : ∀ a, Charges IsBudgetError (parts a)) (name : String) (seen : List String)
    (result : List FcType) (children : List Element) :
    Charges IsBudgetError (objectLoop parts name seen result children) := by
  induction children generalizing seen result with
  | nil => exact charges_pure _
  | cons a rest ih =>
      rw [objectLoop]
      split_ifs
      · exact charges_fail _
      · refine (h a).bind ?_
        intro added
        exact ih _ _

theorem charges_object (types : TypeTable) (left : ℕ) (name id : String) :
    Charges IsBudgetError (types.object left name id) := by
  induction left generalizing name id with
  | zero =>
      refine (charges_definition types _ _ _).bind ?_
      intro x
      exact charges_pure _
  | succ left ih =>
      rw [TypeTable.object]
      refine (charges_definition types _ _ _).bind ?_
      intro x
      exact charges_objectLoop
        (charges_objectParts ih (charges_dataAttribute types left)) name [] [] _

theorem charges_resolveGooseMember (types : TypeTable) (devices : List Device) (current : String)
    (m : Element) : Charges IsBudgetError (resolveGooseMember types devices current m) := by
  rw [resolveGooseMember]
  dsimp only
  split_ifs
  · exact charges_fail _
  · split
    · refine (charges_definition types _ _ _).bind ?_
      intro definition
      refine Charges.bind ?_ ?_
      · rw [memberGroups]
        split
        · split_ifs
          · exact charges_fail _
          · exact charges_object types 49 _ _
        · exact charges_fail _
      · intro groups
        split
        · exact charges_fail _
        · exact charges_pure _
    · exact charges_fail _

theorem charges_resolveMembers {resolve : Element → Metered String Typ}
    (h : ∀ m, Charges IsBudgetError (resolve m)) (ms : List Element) :
    Charges IsBudgetError (resolveMembers resolve ms) := by
  induction ms with
  | nil => exact charges_pure _
  | cons m ms ih =>
      refine (h m).bind ?_
      intro t
      refine ih.bind ?_
      intro ts
      exact charges_pure _

theorem charges_gooseMembers (types : TypeTable) (devices : List Device) (ld ln cb : Element) :
    Charges IsBudgetError (gooseMembers types devices ld ln cb) := by
  rw [gooseMembers]
  split
  · exact charges_resolveMembers (charges_resolveGooseMember types devices _) _
  · exact charges_fail _

/-! ## Headers -/

/-- The data set of a stream. -/
def GooseStream.dataSet (g : GooseStream) : List Typ × String := (g.entries, g.schemaError)

theorem dataSet_readGoosePriority (g : GooseStream) (values : List (String × String)) :
    (readGoosePriority g values).1.dataSet = g.dataSet := by
  rw [readGoosePriority]
  split
  · rfl
  · split <;> rfl

theorem dataSet_readGooseVLAN (g : GooseStream) (values : List (String × String)) :
    (readGooseVLAN g values).1.dataSet = g.dataSet := by
  rw [readGooseVLAN]
  split
  · exact dataSet_readGoosePriority g values
  · split
    · rfl
    · split_ifs
      · rfl
      · exact dataSet_readGoosePriority _ values

theorem dataSet_readGooseAddress (g : GooseStream) (root : Element) (ldInst : String) :
    (readGooseAddress g root ldInst).1.dataSet = g.dataSet := by
  rw [readGooseAddress]
  split
  · split
    · rfl
    · dsimp only
      split
      · rfl
      · split_ifs
        · rfl
        · split
          · rfl
          · exact dataSet_readGooseVLAN _ _
  · rfl

theorem dataSet_gooseHeader (root ied ap : Element) (devices : List Device)
    (ld ln cb : Element) : (gooseHeader root ied ap devices ld ln cb).dataSet = ([], "") := by
  rw [gooseHeader]
  split
  · rename_i g hg
    have hschema := congrArg (fun r ↦ r.1.dataSet) hg
    exact hschema.symm.trans (dataSet_readGooseAddress _ _ _)
  · rename_i g err hg
    have hschema := congrArg (fun r ↦ r.1.dataSet) hg
    exact hschema.symm.trans (dataSet_readGooseAddress _ _ _)

theorem schemaError_gooseHeader (root ied ap : Element) (devices : List Device)
    (ld ln cb : Element) : (gooseHeader root ied ap devices ld ln cb).schemaError = "" :=
  congrArg (·.2) (dataSet_gooseHeader root ied ap devices ld ln cb)

theorem entries_gooseHeader (root ied ap : Element) (devices : List Device)
    (ld ln cb : Element) : (gooseHeader root ied ap devices ld ln cb).entries = [] :=
  congrArg (·.1) (dataSet_gooseHeader root ied ap devices ld ln cb)

/-! ## Streams -/

theorem displayBudget_error {entries : List Typ} {remaining : ℤ} {err : String}
    (h : displayBudget entries remaining = .error err) :
    err = "DataSet exceeds the 200,000 display-node limit" := by
  induction entries generalizing remaining with
  | nil => cases h
  | cons t entries ih =>
      rw [displayBudget] at h
      split_ifs at h
      · cases h
        rfl
      · exact ih h

/-- A budget that ends is not taken for anything else. -/
theorem resolved_eq_error_iff {g : GooseStream} (hg : g.schemaError = "") {err : String}
    (herr : IsBudgetError err) {r : Except String (List Typ)} :
    g.resolved (.error err) = g.resolved r ↔ r = .error err := by
  constructor
  · intro h
    have hschema := congrArg GooseStream.schemaError h
    cases r with
    | error err' =>
        change err = err' at hschema
        rw [hschema]
    | ok entries =>
        exfalso
        rw [GooseStream.resolved, GooseStream.resolved] at hschema
        cases hbudget : displayBudget entries 200000 with
        | error err' =>
            rw [hbudget] at hschema
            change err = err' at hschema
            rw [hschema, displayBudget_error hbudget] at herr
            rcases herr with h | h
            · exact absurd h (by decide)
            · exact absurd h (by decide)
        | ok remaining =>
            rw [hbudget] at hschema
            change err = g.schemaError at hschema
            rw [hg] at hschema
            subst hschema
            rcases herr with h | h
            · exact absurd h (by decide)
            · exact absurd h (by decide)
  · rintro rfl
    rfl

end ProcessBus.Scl
