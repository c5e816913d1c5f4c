import JvmTypes.Proofs.Spans

/-!
# The nodes of a tree

Whatever is said of a tree as a text shows it is said of its nodes, in the order
in which they stand. `Expression.nodes` lists them, each node in front of those
below it, and `Expression.induction_children` is the induction that goes with
the list: it takes a node for granted as soon as its children are, so a proof
about all kinds of nodes needs no case for each kind.

## Main results

* `Expression.nodes_eq`: a tree is its root and what stands below it.
* `Expression.mem_nodes_iff`: the list has every node of the tree and no other.
-/

namespace JvmTypes

namespace Expression

mutual

/-- The nodes of a tree, each in front of those below it. -/
def nodes : Expression → List Expression
  | primitive name span => [primitive name span]
  | raw r => [raw r]
  | internal encoded span => [internal encoded span]
  | array component span => array component span :: nodes component
  | parameterized r arguments span =>
      parameterized r arguments span :: raw r :: nodesAll arguments
  | wildcard kind bounds span => wildcard kind bounds span :: nodesAll bounds

/-- The nodes of several trees, one tree after another. -/
def nodesAll : List Expression → List Expression
  | [] => []
  | e :: es => nodes e ++ nodesAll es

end

theorem nodesAll_eq_flatMap (es : List Expression) :
    nodesAll es = es.flatMap nodes := by
  induction es with
  | nil => rfl
  | cons e es ih => rw [nodesAll, ih, List.flatMap_cons]

/-- The `nodes` of a tree are its root and those of what stands below it. -/
theorem nodes_eq (e : Expression) :
    e.nodes = e :: e.children.flatMap nodes := by
  cases e with
  | primitive => rfl
  | raw => rfl
  | internal => rfl
  | array component => rw [nodes, children, List.flatMap_singleton]
  | parameterized r arguments =>
      rw [nodes, children, nodesAll_eq_flatMap, List.flatMap_cons]; rfl
  | wildcard kind bounds => rw [nodes, children, nodesAll_eq_flatMap]

private theorem sizeOf_lt_of_mem_children {c e : Expression}
    (hChild : c ∈ e.children) : sizeOf c < sizeOf e := by
  cases e with
  | primitive | raw | internal => cases hChild
  | array component span =>
      rw [children, List.mem_singleton] at hChild
      subst hChild
      rw [array.sizeOf_spec]
      omega
  | parameterized r arguments span =>
      rw [parameterized.sizeOf_spec]
      rcases List.mem_cons.1 hChild with rfl | hMem
      · have hSize : 0 < sizeOf arguments := by
          cases arguments with
          | nil => simp
          | cons a as =>
              rw [List.cons.sizeOf_spec]
              omega
        rw [raw.sizeOf_spec]
        omega
      · have hSize := List.sizeOf_lt_of_mem hMem
        omega
  | wildcard kind bounds span =>
      rw [children] at hChild
      have hSize := List.sizeOf_lt_of_mem hChild
      rw [wildcard.sizeOf_spec]
      omega

/-- What holds of an expression as soon as it holds of its `children` holds of
every one. -/
theorem induction_children {property : Expression → Prop}
    (hStep : ∀ e, (∀ c ∈ e.children, property c) → property e)
    (e : Expression) : property e :=
  hStep e fun c hChild =>
    have := sizeOf_lt_of_mem_children hChild
    induction_children hStep c
termination_by sizeOf e

theorem IsNode.of_child {e c n : Expression} (hChild : c ∈ e.children)
    (hNode : c.IsNode n) : e.IsNode n := by
  induction hNode with
  | root => exact .child .root hChild
  | child _ hLast ih => exact .child ih hLast

/-- A node of a tree is its root or, by `IsNode` again, a node of one of the
root's children. -/
theorem isNode_iff {e n : Expression} :
    e.IsNode n ↔ n = e ∨ ∃ c ∈ e.children, c.IsNode n := by
  constructor
  · intro hNode
    induction hNode with
    | root => exact .inl rfl
    | child _ hLast ih =>
        rcases ih with rfl | ⟨c, hChild, hBelow⟩
        · exact .inr ⟨_, hLast, .root⟩
        · exact .inr ⟨c, hChild, .child hBelow hLast⟩
  · rintro (rfl | ⟨c, hChild, hBelow⟩)
    · exact .root
    · exact hBelow.of_child hChild

/-- The list `nodes` has every node of the tree and no other. -/
theorem mem_nodes_iff {e n : Expression} : n ∈ e.nodes ↔ e.IsNode n := by
  induction e using induction_children with
  | hStep e ih =>
      rw [nodes_eq, List.mem_cons, List.mem_flatMap, isNode_iff]
      have hBelow : (∃ c ∈ e.children, n ∈ c.nodes) ↔
          ∃ c ∈ e.children, c.IsNode n :=
        exists_congr fun c => and_congr_right fun hChild => ih c hChild
      rw [hBelow]

end Expression

end JvmTypes
