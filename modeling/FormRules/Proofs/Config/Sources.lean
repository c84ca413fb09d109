import FormRules.Proofs.Config.Layers

/-!
# What files and variables define

A document defines what it holds apart from tables, each at the names on the way to it; a name at
its top may spell several. A variable defines the setting whose names follow the prefix in its own
name, in either case, with two underscores or a point between them.
-/

namespace FormRules.Config

open EnvFile (Variables)

/-! ## Documents -/

namespace Setting

/-- What a document defines. -/
def definitions (document : Setting) : Layer :=
  document.entries.flatMap fun (name, setting) => setting.leaves.under (pathOf name)

/-- A document as a source. Its last definition at a path counts. -/
def source (document : Setting) : Source :=
  document.definitions.last?

end Setting

theorem defined?_documentLayer (document : Setting) :
    (documentLayer document).defined? = document.source := by
  funext path
  rw [Layer.defined?, Layer.definitions, documentLayer, List.flatMap_map]
  rfl

/-! ## Names of variables -/

/-- What may stand between the names of a path in the name of a variable. -/
def separators : List String := ["__", "."]

/-- A variable is named for a path. -/
def NamedFor (name : String) (path : Path) : Prop :=
  ∃ separator ∈ separators, name.toLower = "validation_" ++ separator.intercalate path

instance (name : String) (path : Path) : Decidable (NamedFor name path) :=
  inferInstanceAs (Decidable (∃ separator ∈ separators, _))

/-- The last variable that is named for a path defines the setting there. -/
def variableSource (bindings : Variables) : Source := fun path =>
  (bindings.reverse.find? fun (binding : String × String) => NamedFor binding.1 path).map
    fun binding => settingOf binding.2

/-- A path of one or two names that a variable can spell with any separator. -/
structure Plain (path : Path) : Prop where
  nonempty : path ≠ []
  short : path.length ≤ 2
  names : ∀ name ∈ path, name.isEmpty = false ∧ name.toList.all isPathCharacter = true
  separated : ∀ separator ∈ separators,
    withPoints (separator.intercalate path).toList = (".".intercalate path).toList

section Names

variable {text front back : List Char} {path : Path}

/-- Without points afterwards, there was nothing to make points of. -/
theorem withPoints_eq_self (pointless : '.' ∉ withPoints text) : withPoints text = text := by
  fun_induction withPoints text with
  | case1 rest induction => simp at pointless
  | case2 head rest _ induction =>
      rw [List.mem_cons, not_or] at pointless
      rw [induction pointless.2]
  | case3 => rfl

/-- The one point afterwards was a point or a pair of underscores. -/
theorem eq_or_eq_of_withPoints (front_pointless : '.' ∉ front) (back_pointless : '.' ∉ back)
    (spelled : withPoints text = front ++ '.' :: back) :
    text = front ++ '_' :: '_' :: back ∨ text = front ++ '.' :: back := by
  fun_induction withPoints text generalizing front with
  | case1 rest induction =>
      cases front with
      | nil =>
          obtain rfl := List.tail_eq_of_cons_eq spelled
          rw [withPoints_eq_self back_pointless]
          exact .inl rfl
      | cons first others => simp_all
  | case2 head rest _ induction =>
      cases front with
      | nil =>
          obtain ⟨rfl, rest_eq⟩ := List.cons.inj spelled
          rw [← rest_eq] at back_pointless
          rw [← rest_eq, withPoints_eq_self back_pointless]
          exact .inr rfl
      | cons first others =>
          obtain ⟨rfl, rest_eq⟩ := List.cons.inj spelled
          rw [List.mem_cons, not_or] at front_pointless
          exact (induction front_pointless.2 rest_eq).imp (congrArg _) (congrArg _)
  | case3 => simp at spelled

theorem map_ofList_toList (names : List String) :
    (names.map String.toList).map String.ofList = names := by
  simp

/-- A text spells a path of proper names exactly if it has points between them. -/
theorem pathOf_eq_iff (nonempty : path ≠ [])
    (names : ∀ name ∈ path, name.isEmpty = false ∧ name.toList.all isPathCharacter = true)
    {text : String} : pathOf text = path ↔ text = ".".intercalate path := by
  constructor
  · intro spelled
    unfold pathOf at spelled
    dsimp only at spelled
    split at spelled
    case isTrue =>
      have toList_eq : path.map String.toList = text.toList.splitOn '.' := by
        rw [← spelled, List.map_map]
        simp
      rw [← String.toList_inj, String.toList_intercalate, toList_eq]
      exact (List.intercalate_splitOn '.').symm
    case isFalse =>
      rw [← spelled]
      simp
  · rintro rfl
    have pointless : ∀ letters ∈ path.map String.toList, '.' ∉ letters := by
      rintro letters member point
      obtain ⟨name, name_mem, rfl⟩ := List.mem_map.1 member
      exact nomatch List.all_eq_true.1 (names name name_mem).2 '.' point
    have split_eq : (".".intercalate path).toList.splitOn '.' = path.map String.toList := by
      rw [String.toList_intercalate]
      exact List.splitOn_intercalate '.' pointless (by simpa using nonempty)
    unfold pathOf
    rw [split_eq, map_ofList_toList]
    refine if_pos (List.all_eq_true.2 fun name member => ?_)
    obtain ⟨nonempty, proper⟩ := names name member
    simp [nonempty, proper]

theorem Plain.pointless (plain : Plain path) {name : String} (member : name ∈ path) :
    '.' ∉ name.toList :=
  fun point => nomatch List.all_eq_true.1 (plain.names name member).2 '.' point

/-- With points for pairs of underscores, a text spells a plain path exactly if some separator
stands between the names. -/
theorem Plain.pathOf_withPoints_iff (plain : Plain path) :
    pathOf (String.ofList (withPoints text)) = path ↔
      ∃ separator ∈ separators, text = (separator.intercalate path).toList := by
  rw [pathOf_eq_iff plain.nonempty plain.names, ← String.toList_inj, String.toList_ofList]
  constructor
  · intro spelled
    match path, plain with
    | [name], plain =>
        have pointless := plain.pointless List.mem_cons_self
        rw [String.intercalate_singleton] at spelled
        have same : withPoints text = text := withPoints_eq_self (by rwa [spelled])
        refine ⟨".", by simp [separators], ?_⟩
        rw [String.intercalate_singleton, ← same, spelled]
    | [first, second], plain =>
        have first_pointless : '.' ∉ first.toList := plain.pointless (by simp)
        have second_pointless : '.' ∉ second.toList := plain.pointless (by simp)
        have letters (separator : String) : (separator.intercalate [first, second]).toList =
            first.toList ++ (separator.toList ++ second.toList) := by
          simp
        rw [letters] at spelled
        simp only [separators, List.mem_cons, List.not_mem_nil, or_false, exists_eq_or_imp,
          exists_eq_left, letters]
        exact eq_or_eq_of_withPoints first_pointless second_pointless spelled
    | _ :: _ :: _ :: _, plain => exact absurd plain.short (by simp)
    | [], plain => exact absurd rfl plain.nonempty
  · rintro ⟨separator, member, rfl⟩
    exact plain.separated separator member

theorem namedFor_iff {name : String} :
    NamedFor name path ↔ ∃ separator ∈ separators,
      name.toList.map Char.toLower = variablePrefix ++ (separator.intercalate path).toList := by
  have lower_eq : name.toLower.toList = name.toList.map Char.toLower := String.toList_map
  unfold NamedFor
  simp only [← String.toList_inj, lower_eq, String.toList_append]
  rfl

theorem Plain.ofVariable?_iff (plain : Plain path) {name value : String} {setting : Setting} :
    ofVariable? name value = some (path, setting) ↔
      NamedFor name path ∧ settingOf value = setting := by
  rw [namedFor_iff]
  unfold ofVariable?
  dsimp only
  split
  case isTrue prefixed =>
    obtain ⟨spelled, lower_eq⟩ := List.isPrefixOf_iff_prefix.1 prefixed
    rw [← lower_eq, List.drop_left, Option.some.injEq, Prod.mk.injEq, plain.pathOf_withPoints_iff]
    simp only [List.append_cancel_left_eq]
  case isFalse other =>
    refine iff_of_false nofun ?_
    rintro ⟨⟨separator, -, lower_eq⟩, -⟩
    exact other (List.isPrefixOf_iff_prefix.2 ⟨_, lower_eq.symm⟩)

end Names

/-! ## Variables -/

theorem isTable_settingOf (value : String) : (settingOf value).isTable = false := by
  unfold settingOf
  split
  · rfl
  · split
    · rfl
    · split
      · rfl
      · split <;> rfl

theorem isTable_of_ofVariable? {name value : String} {entry : Path × Setting}
    (sets : ofVariable? name value = some entry) : entry.2.isTable = false := by
  unfold ofVariable? at sets
  dsimp only at sets
  split at sets
  case isTrue => exact Option.some.inj sets ▸ isTable_settingOf value
  case isFalse => exact nomatch sets

theorem lookup_filterMap_ofVariable? {path : Path} (plain : Plain path)
    (bindings : List (String × String)) :
    (bindings.filterMap fun (name, value) => ofVariable? name value).lookup path =
      (bindings.find? fun binding => NamedFor binding.1 path).map
        fun binding => settingOf binding.2 := by
  induction bindings with
  | nil => rfl
  | cons binding rest induction =>
      obtain ⟨name, value⟩ := binding
      rw [List.filterMap_cons]
      dsimp only
      by_cases named : NamedFor name path
      · rw [plain.ofVariable?_iff.2 ⟨named, rfl⟩, List.find?_cons_of_pos (by simpa using named)]
        exact List.lookup_cons_self
      · rw [List.find?_cons_of_neg (by simpa using named), ← induction]
        cases set_eq : ofVariable? name value with
        | none => rfl
        | some entry =>
            obtain ⟨other, setting⟩ := entry
            have elsewhere : path ≠ other := by
              rintro rfl
              exact named (plain.ofVariable?_iff.1 set_eq).1
            dsimp only
            rw [List.lookup_cons, beq_false_of_ne elsewhere]

/-- Variables define at a plain path what the last one defines that is named for it. -/
theorem defined?_variableLayer {path : Path} (plain : Plain path) (bindings : Variables) :
    (variableLayer bindings).defined? path = variableSource bindings path := by
  have leaves : ∀ entry ∈ variableLayer bindings, entry.2.isTable = false := by
    intro entry member
    obtain ⟨_, -, sets⟩ := List.mem_filterMap.1 member
    exact isTable_of_ofVariable? sets
  rw [Layer.defined?, Layer.definitions_of_leaves leaves, Layer.last?, variableLayer,
    ← List.filterMap_reverse, lookup_filterMap_ofVariable? plain]
  rfl

end FormRules.Config
