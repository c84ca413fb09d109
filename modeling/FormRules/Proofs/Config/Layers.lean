import FormRules.Config.Load

/-!
# What layers define

A layer defines what is no table in the settings that it lays, each at the path that leads to it. If
the names on the way to a path hold tables in every layer, and no table stands at its end, then a
stack of layers has there what the last layer defines that defines anything there, whatever the
layers define elsewhere.
-/

namespace FormRules.Config

/-! ## Definitions -/

/-- What defines settings: the setting at a path, if it defines one there. -/
abbrev Source := Path → Option Setting

namespace Layer

/-- A layer moved below a path. -/
def under (path : Path) (layer : Layer) : Layer :=
  layer.map fun entry => (path ++ entry.1, entry.2)

/-- The last entry at a path. -/
def last? (layer : Layer) (path : Path) : Option Setting :=
  layer.reverse.lookup path

theorem last?_append (front back : Layer) (path : Path) :
    (front ++ back : Layer).last? path = (back.last? path).or (front.last? path) := by
  rw [last?, List.reverse_append, List.lookup_append]
  rfl

theorem under_under (path inner : Path) (layer : Layer) :
    (layer.under inner).under path = layer.under (path ++ inner) := by
  simp [under]

theorem last?_under_cons (name other : String) (path : Path) (layer : Layer) :
    (layer.under [name]).last? (other :: path) =
      if other = name then layer.last? path else none := by
  rw [last?, last?, under, ← List.map_reverse]
  induction layer.reverse with
  | nil => simp
  | cons entry rest induction =>
      obtain ⟨place, setting⟩ := entry
      rw [List.map_cons, List.lookup_cons, List.lookup_cons, induction]
      by_cases same : other = name
      · subst same
        by_cases here : path = place <;> simp [here]
      · simp [same, beq_false_of_ne same]

end Layer

namespace Setting

mutual

/-- The leaves of a setting, which are no tables, each at the path that leads to it. -/
def leaves : Setting → Layer
  | table entries => entriesLeaves entries
  | leaf => [([], leaf)]

/-- The leaves of named settings. -/
def entriesLeaves : List (String × Setting) → Layer
  | [] => []
  | (name, setting) :: rest => setting.leaves.under [name] ++ entriesLeaves rest

end

/-- The table in which a setting stands at a path and nothing else does. -/
def under (setting : Setting) : Path → Setting
  | [] => setting
  | name :: path => table [(name, setting.under path)]

theorem leaves_under (setting : Setting) (path : Path) :
    (setting.under path).leaves = setting.leaves.under path := by
  induction path with
  | nil => simp [under, Layer.under]
  | cons name path induction =>
      rw [under, leaves, entriesLeaves, entriesLeaves, induction, Layer.under_under,
        List.append_nil]
      rfl

/-- Tables stand on the way to a path, as far as anything does, and no table at its end. -/
def Fits (setting : Setting) : Path → Prop
  | [] => setting.isTable = false
  | name :: path =>
      setting.isTable = true ∧ ∀ entry ∈ setting.entries, entry.1 = name → entry.2.Fits path

/-- Whether a setting fits a path can be decided. -/
def decideFits : (setting : Setting) → (path : Path) → Decidable (setting.Fits path)
  | setting, [] => inferInstanceAs (Decidable (setting.isTable = false))
  | setting, name :: path =>
      have : ∀ entry : String × Setting, Decidable (entry.2.Fits path) := fun entry =>
        entry.2.decideFits path
      inferInstanceAs (Decidable (setting.isTable = true ∧
        ∀ entry ∈ setting.entries, entry.1 = name → entry.2.Fits path))

instance (setting : Setting) (path : Path) : Decidable (setting.Fits path) :=
  setting.decideFits path

/-! ## One setting over another -/

theorem atop_of_leaf {above : Setting} (leaf : above.isTable = false)
    (below : Option Setting) : above.atop below = above := by
  cases above with
  | table entries => exact nomatch leaf
  | _ => simp [atop]

theorem leaves_of_leaf {setting : Setting} (leaf : setting.isTable = false) :
    setting.leaves = [([], setting)] := by
  cases setting with
  | table entries => exact nomatch leaf
  | _ => simp [leaves]

theorem exists_table {setting : Setting} (table : setting.isTable = true) :
    ∃ entries, setting = .table entries := by
  cases setting with
  | table entries => exact ⟨entries, rfl⟩
  | _ => exact nomatch table

/-- A table is laid over the entries of what was there, of which only a table has any. -/
theorem getD_filter_isTable (below : Option Setting) :
    (below.filter isTable).getD empty = table ((below.map entries).getD []) := by
  cases below with
  | none => rfl
  | some setting => cases setting <;> rfl

theorem find?_filter_isTable (below : Option Setting) (name : String) (path : Path) :
    ((below.filter isTable).getD empty).find? (name :: path) =
      below.bind (·.find? (name :: path)) := by
  rw [getD_filter_isTable]
  cases below <;> rfl

mutual

/-- Where a setting that fits is laid over another, what it defines comes before what was there. -/
theorem find?_atop : ∀ (above : Setting) (below : Option Setting) {path : Path},
    above.Fits path →
      (above.atop below).find? path = (above.leaves.last? path).or (below.bind (·.find? path))
  | above, below, [], fits => by
      rw [atop_of_leaf fits, leaves_of_leaf fits]
      rfl
  | .table entries, below, name :: path, fits => by
      rw [atop, leaves, find?_entriesAtop entries _ fits.2, find?_filter_isTable]
  | .boolean _, _, _ :: _, fits | .integer _, _, _ :: _, fits | .decimal _, _, _ :: _, fits
  | .text _, _, _ :: _, fits | .array, _, _ :: _, fits => nomatch fits.1

theorem find?_entriesAtop : ∀ (entries : List (String × Setting)) (below : Setting)
    {name : String} {path : Path}, (∀ entry ∈ entries, entry.1 = name → entry.2.Fits path) →
      (entriesAtop entries below).find? (name :: path) =
        ((entriesLeaves entries).last? (name :: path)).or (below.find? (name :: path))
  | [], below, name, path, _ => by
      rw [entriesAtop, entriesLeaves]
      rfl
  | (other, above) :: rest, below, name, path, fits => by
      obtain ⟨above_fits, rest_fits⟩ := List.forall_mem_cons.1 fits
      rw [entriesAtop, entriesLeaves, find?_entriesAtop rest _ rest_fits, Layer.last?_append,
        Layer.last?_under_cons, Option.or_assoc, find?_cons, get?_put]
      -- The entry is laid over what stood under its name and leaves the other names alone.
      by_cases same : name = other
      · rw [if_pos same, if_pos same, Option.bind_some, find?_atop above _ (above_fits same.symm),
          find?_cons, same]
      · rw [if_neg same, if_neg same, Option.none_or, find?_cons]

end

/-! ## A setting at a path -/

theorem put_congr {setting other : Setting} (same : setting.entries = other.entries)
    (name : String) (child : Setting) : setting.put name child = other.put name child := by
  rw [put, put, same]

theorem entries_filter_isTable (below : Option Setting) :
    ((below.filter isTable).getD empty).entries = (below.getD empty).entries := by
  rw [getD_filter_isTable]
  cases below <;> rfl

/-- Laying a setting at a path is laying the table over the tree in which it stands there alone. -/
theorem place_eq_atop (above : Setting) (path : Path) (below : Option Setting) :
    above.place path below = (above.under path).atop below := by
  induction path generalizing below with
  | nil => rfl
  | cons name path induction =>
      rw [place, under, atop, entriesAtop, entriesAtop, induction, get?, get?,
        entries_filter_isTable]
      exact put_congr (entries_filter_isTable below).symm _ _

/-! ## Sections -/

/-- Nothing but a table stands under a name. -/
def HasSection (setting : Setting) (name : String) : Prop :=
  (setting.get? name).all isTable = true

theorem isTable_entriesAtop (entries : List (String × Setting)) {below : Setting}
    (table : below.isTable = true) : (entriesAtop entries below).isTable = true := by
  induction entries generalizing below with
  | nil => simpa [entriesAtop] using table
  | cons entry rest induction =>
      rw [entriesAtop]
      exact induction rfl

theorem isTable_atop {above : Setting} (table : above.isTable = true) (below : Option Setting) :
    (above.atop below).isTable = true := by
  obtain ⟨entries, rfl⟩ := exists_table table
  rw [atop, getD_filter_isTable]
  exact isTable_entriesAtop entries rfl

theorem Fits.isTable {setting : Setting} {name : String} {path : Path}
    (fits : setting.Fits (name :: path)) : setting.isTable = true :=
  fits.1

theorem hasSection_entriesAtop {name key : String} {path : Path}
    (entries : List (String × Setting)) {below : Setting}
    (fits : ∀ entry ∈ entries, entry.1 = name → entry.2.Fits (key :: path))
    (section_below : below.HasSection name) : (entriesAtop entries below).HasSection name := by
  induction entries generalizing below with
  | nil => simpa [entriesAtop] using section_below
  | cons entry rest induction =>
      obtain ⟨other, above⟩ := entry
      obtain ⟨above_fits, rest_fits⟩ := List.forall_mem_cons.1 fits
      rw [entriesAtop]
      refine induction rest_fits ?_
      rw [HasSection, get?_put]
      split
      next same => exact isTable_atop (above_fits same.symm).isTable _
      next => exact section_below

end Setting

/-! ## Layers -/

namespace Layer

/-- What a layer defines. -/
def definitions (layer : Layer) : Layer :=
  layer.flatMap fun entry => entry.2.leaves.under entry.1

/-- A layer without tables is what it defines. -/
theorem definitions_of_leaves {layer : Layer}
    (leaves : ∀ entry ∈ layer, entry.2.isTable = false) : layer.definitions = layer := by
  induction layer with
  | nil => rfl
  | cons entry rest induction =>
      obtain ⟨leaf, rest_leaves⟩ := List.forall_mem_cons.1 leaves
      have rest_eq := induction rest_leaves
      rw [definitions] at rest_eq ⊢
      rw [List.flatMap_cons, rest_eq, Setting.leaves_of_leaf leaf]
      simp [under]

/-- A layer as a source. Its last definition at a path counts. -/
def defined? (layer : Layer) : Source :=
  layer.definitions.last?

/-- All settings of a layer fit a path from where they are laid. -/
def Fits (layer : Layer) (path : Path) : Prop :=
  ∀ entry ∈ layer, (entry.2.under entry.1).Fits path

instance (layer : Layer) (path : Path) : Decidable (layer.Fits path) :=
  inferInstanceAs (Decidable (∀ entry ∈ layer, (entry.2.under entry.1).Fits path))

end Layer

namespace Setting

theorem withLayer_cons (root : Setting) (entry : Path × Setting) (layer : Layer) :
    root.withLayer (entry :: layer) =
      ((entry.2.under entry.1).atop (some root)).withLayer layer := by
  rw [← place_eq_atop]
  rfl

theorem find?_withLayer {layer : Layer} {path : Path} (fits : layer.Fits path) (root : Setting) :
    (root.withLayer layer).find? path = (layer.defined? path).or (root.find? path) := by
  induction layer generalizing root with
  | nil => rfl
  | cons entry rest induction =>
      obtain ⟨entry_fits, rest_fits⟩ := List.forall_mem_cons.1 fits
      rw [withLayer_cons, induction rest_fits, find?_atop _ _ entry_fits, Layer.defined?,
        Layer.defined?, Layer.definitions, Layer.definitions, List.flatMap_cons,
        Layer.last?_append, leaves_under, Option.or_assoc, Option.bind_some]

theorem hasSection_withLayer {layer : Layer} {name key : String} {path : Path}
    (fits : layer.Fits (name :: key :: path)) {root : Setting}
    (section_root : root.HasSection name) :
    (root.withLayer layer).HasSection name := by
  induction layer generalizing root with
  | nil => exact section_root
  | cons entry rest induction =>
      obtain ⟨entry_fits, rest_fits⟩ := List.forall_mem_cons.1 fits
      obtain ⟨entries, entries_eq⟩ := exists_table entry_fits.isTable
      rw [withLayer_cons]
      refine induction rest_fits ?_
      rw [entries_eq] at entry_fits ⊢
      rw [atop, getD_filter_isTable]
      exact hasSection_entriesAtop entries entry_fits.2 section_root

end Setting

/-- What the last of some sources defines at a path that defines anything there. -/
def lastDefined? (sources : List Source) (path : Path) : Option Setting :=
  sources.reverse.findSome? fun source => source path

theorem lastDefined?_append (front back : List Source) (path : Path) :
    lastDefined? (front ++ back) path = (lastDefined? back path).or (lastDefined? front path) := by
  rw [lastDefined?, List.reverse_append, List.findSome?_append]
  rfl

theorem lastDefined?_cons (source : Source) (sources : List Source) (path : Path) :
    lastDefined? (source :: sources) path = (lastDefined? sources path).or (source path) := by
  rw [← List.singleton_append, lastDefined?_append]
  exact congrArg _ List.findSome?_singleton

/-- A source that defines nothing at a path may as well be missing there. -/
theorem lastDefined?_append_cons_of_none {source : Source} {path : Path}
    (silent : source path = none) (front back : List Source) :
    lastDefined? (front ++ source :: back) path = lastDefined? (front ++ back) path := by
  rw [lastDefined?_append, lastDefined?_append, lastDefined?_cons, silent, Option.or_none]

theorem find?_foldl_withLayer {layers : List Layer} {path : Path}
    (fits : ∀ layer ∈ layers, layer.Fits path) (root : Setting) :
    (layers.foldl Setting.withLayer root).find? path =
      (lastDefined? (layers.map Layer.defined?) path).or (root.find? path) := by
  induction layers generalizing root with
  | nil => rfl
  | cons layer rest induction =>
      obtain ⟨layer_fits, rest_fits⟩ := List.forall_mem_cons.1 fits
      rw [List.foldl_cons, induction rest_fits, Setting.find?_withLayer layer_fits, List.map_cons,
        lastDefined?_cons, Option.or_assoc]

/-- In a stack of layers that fit a path, what the last layer defines there stands there. -/
theorem find?_stack {layers : List Layer} {name : String} {path : Path}
    (fits : ∀ layer ∈ layers, layer.Fits (name :: path)) :
    (stack layers).find? (name :: path) =
      lastDefined? (layers.map Layer.defined?) (name :: path) := by
  rw [stack, find?_foldl_withLayer fits]
  exact Option.or_none

/-- In a stack of layers that fit a path of two names, nothing but a table stands under the
first. -/
theorem hasSection_stack {layers : List Layer} {name key : String} {path : Path}
    (fits : ∀ layer ∈ layers, layer.Fits (name :: key :: path)) :
    (stack layers).HasSection name := by
  have grown : ∀ {root : Setting}, root.HasSection name →
      (layers.foldl Setting.withLayer root).HasSection name := by
    intro root section_root
    induction layers generalizing root with
    | nil => exact section_root
    | cons layer rest induction =>
        obtain ⟨layer_fits, rest_fits⟩ := List.forall_mem_cons.1 fits
        exact induction rest_fits (Setting.hasSection_withLayer layer_fits section_root)
  exact grown rfl

end FormRules.Config
