import FormRules.Expr

/-!
# The height of an expression, found by a walk

The nodes that are still to be visited wait, each with its level; the root is at level one. A visit
puts the children of a node among the waiting ones, one level further down. The greatest level that
is met is the height of the expression, wherever the children are put.
-/

namespace FormRules.Expr

/-- The operands of an operation and the arguments of a call. -/
def children : Expr → List Expr
  | literal _ | field _ => []
  | negate operand => [operand]
  | binary _ left right => [left, right]
  | call _ arguments => arguments

/-! ## Heights -/

theorem maxHeight_le_iff {exprs : List Expr} {bound : Nat} :
    maxHeight exprs ≤ bound ↔ ∀ expr ∈ exprs, expr.height ≤ bound := by
  induction exprs with
  | nil => simp [maxHeight]
  | cons expr rest induction => rw [maxHeight, Nat.max_le, induction, List.forall_mem_cons]

theorem height_eq_maxHeight_children (expr : Expr) :
    expr.height = 1 + maxHeight expr.children := by
  cases expr <;> simp [height, children, maxHeight]

/-- A tree at a level reaches down to a bound if its root does and the trees below it do. -/
theorem add_height_le_iff {expr : Expr} {level bound : Nat} :
    level + expr.height ≤ bound + 1 ↔
      level ≤ bound ∧ ∀ child ∈ expr.children, level + 1 + child.height ≤ bound + 1 := by
  rw [height_eq_maxHeight_children]
  constructor
  · intro low
    refine ⟨by omega, fun child member => ?_⟩
    have child_le := maxHeight_le_iff.1 (Nat.le_refl (maxHeight expr.children)) child member
    omega
  · rintro ⟨root_le, children_le⟩
    have below : maxHeight expr.children ≤ bound - level :=
      maxHeight_le_iff.2 fun child member => by
        have child_le := children_le child member
        omega
    omega

/-! ## The walk -/

/-- A tree that waits to be visited, and its level. -/
abbrev Waiting : Type :=
  Expr × Nat

/-- An order in which a walk visits the trees that wait. -/
structure WalkOrder where
  /-- Where a visit puts the children of a node among the trees that wait. -/
  put : (children waiting : List Waiting) → List Waiting
  /-- No tree is lost or put twice. -/
  perm : ∀ children waiting, (put children waiting).Perm (children ++ waiting)

/-- The children are pushed on a stack from the left to the right, so that the last one comes out
first. -/
def WalkOrder.pushed : WalkOrder where
  put children waiting := children.reverse ++ waiting
  perm children _ := (List.reverse_perm children).append_right _

/-- The children of a node, one level further down. -/
def childrenAt (expr : Expr) (level : Nat) : List Waiting :=
  expr.children.map (·, level + 1)

mutual

/-- The number of nodes of an expression. -/
def size : Expr → Nat
  | literal _ | field _ => 1
  | negate operand => operand.size + 1
  | binary _ left right => left.size + right.size + 1
  | call _ arguments => totalSize arguments + 1

/-- The number of nodes of some expressions. -/
def totalSize : List Expr → Nat
  | [] => 0
  | expr :: rest => expr.size + totalSize rest

end

theorem size_eq_totalSize_children (expr : Expr) :
    expr.size = totalSize expr.children + 1 := by
  cases expr <;> simp [size, children, totalSize]

theorem totalSize_append (left right : List Expr) :
    totalSize (left ++ right) = totalSize left + totalSize right := by
  induction left with
  | nil => simp [totalSize]
  | cons expr rest induction => simp [totalSize, induction, Nat.add_assoc]

theorem totalSize_eq_of_perm {left right : List Expr} (permuted : left.Perm right) :
    totalSize left = totalSize right := by
  induction permuted with
  | nil => rfl
  | cons expr permuted induction => rw [totalSize, totalSize, induction]
  | swap first second rest => simp only [totalSize, Nat.add_left_comm]
  | trans permuted again induction induction_again => rw [induction, induction_again]

/-- How many nodes are left to be visited. -/
def workload (waiting : List Waiting) : Nat :=
  totalSize (waiting.map Prod.fst)

theorem workload_cons (expr : Expr) (level : Nat) (waiting : List Waiting) :
    workload ((expr, level) :: waiting) = expr.size + workload waiting := by
  rw [workload, List.map_cons, totalSize, workload]

theorem workload_put (order : WalkOrder) (expr : Expr) (level : Nat) (waiting : List Waiting) :
    workload (order.put (expr.childrenAt level) waiting) =
      totalSize expr.children + workload waiting := by
  have children_eq : (expr.childrenAt level).map Prod.fst = expr.children := by
    rw [childrenAt, List.map_map]
    exact List.map_id _
  rw [workload, totalSize_eq_of_perm ((order.perm _ _).map Prod.fst), List.map_append,
    totalSize_append, children_eq, workload]

/-- Visits the trees that wait and what is put among them, and gives the greatest level met. -/
def greatestLevel (order : WalkOrder) : List Waiting → (greatest : Nat) → Nat
  | [], greatest => greatest
  | (expr, level) :: waiting, greatest =>
      greatestLevel order (order.put (expr.childrenAt level) waiting) (max greatest level)
termination_by waiting => workload waiting
decreasing_by
  rw [workload_put, workload_cons, size_eq_totalSize_children]
  omega

/-- The height of an expression, found by a walk from its root. -/
def heightByWalk (order : WalkOrder) (expr : Expr) : Nat :=
  greatestLevel order [(expr, 1)] 0

/-- What waits reaches down to a bound with every visit if it does so before: the visited node and
its children take the place of the tree. -/
theorem greatestLevel_le_iff (order : WalkOrder) (waiting : List Waiting) (greatest : Nat)
    {bound : Nat} :
    greatestLevel order waiting greatest ≤ bound ↔
      greatest ≤ bound ∧ ∀ tree ∈ waiting, tree.2 + tree.1.height ≤ bound + 1 := by
  fun_induction greatestLevel order waiting greatest with
  | case1 greatest => simp
  | case2 expr level waiting greatest induction =>
      have put : (∀ tree ∈ order.put (expr.childrenAt level) waiting,
            tree.2 + tree.1.height ≤ bound + 1) ↔
          (∀ child ∈ expr.children, level + 1 + child.height ≤ bound + 1) ∧
            ∀ tree ∈ waiting, tree.2 + tree.1.height ≤ bound + 1 := by
        simp only [(order.perm _ _).mem_iff, List.forall_mem_append, childrenAt,
          List.forall_mem_map]
      rw [induction, put, List.forall_mem_cons, add_height_le_iff, Nat.max_le, and_assoc,
        and_assoc]

/-- The walk finds the height, whatever its order. -/
theorem heightByWalk_eq_height (order : WalkOrder) (expr : Expr) :
    expr.heightByWalk order = expr.height := by
  have le_iff : ∀ bound, expr.heightByWalk order ≤ bound ↔ expr.height ≤ bound := fun bound => by
    rw [heightByWalk, greatestLevel_le_iff, List.forall_mem_singleton, Nat.add_comm bound 1,
      Nat.add_le_add_iff_left]
    exact and_iff_right (Nat.zero_le bound)
  exact Nat.le_antisymm ((le_iff _).2 (Nat.le_refl _)) ((le_iff _).1 (Nat.le_refl _))

example : (binary .add (field "a") (negate (call "f" [field "b"]))).heightByWalk .pushed = 4 := by
  cbv

end FormRules.Expr
