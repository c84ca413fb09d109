import FormRules.Rule

/-!
# Demonstration rules

Common validations of work orders, contacts and assets, with which a store can be filled at the
start. Their times of creation differ by a millisecond each, so that they apply in the order in
which they are listed.
-/

namespace FormRules.Rule

/-- The object types, expressions and messages of the demonstration rules. -/
def demoTexts : List (String × String × String) :=
  [("WorkOrder", "ISBLANK(Priority)", "Priority is required."),
   ("WorkOrder", "Estimated_Cost = 0", "Estimated cost must be greater than zero."),
   ("WorkOrder", "Start_Date < TODAY()", "Start date cannot be in the past."),
   ("WorkOrder", "End_Date <= Start_Date", "End date must be later than start date."),
   ("WorkOrder", "AND(Status = \"Open\", ISBLANK(Priority))",
    "Priority must be set when status is open."),
   ("Contact", "ISBLANK(Email)", "Email is required for contacts."),
   ("Contact", "ISBLANK(Phone)", "Phone number is required for contacts."),
   ("Asset", "ISBLANK(Asset_Tag)", "Asset tag is required."),
   ("Asset", "Purchase_Price <= 0", "Purchase price must be greater than zero.")]

/-- The instant some milliseconds later. -/
def millisecondsAfter (start : Instant) (milliseconds : Nat) : Instant :=
  let nanoseconds := start.nanosecond + milliseconds * 1000000
  ⟨start.second + nanoseconds / Calendar.secondNanoseconds,
    nanoseconds % Calendar.secondNanoseconds⟩

/-- The demonstration rules with given identifiers, created from some instant on. -/
def demo (id : Nat → Uuid) (start : Instant) : List Rule :=
  demoTexts.mapIdx fun index (objectType, expression, errorMessage) =>
    ofNew (id index) (millisecondsAfter start index)
      { objectType, expression, errorMessage, isActive := true, createdBy := none }

end FormRules.Rule
