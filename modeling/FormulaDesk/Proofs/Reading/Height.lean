import FormulaDesk.Proofs.Reading.Constructs

/-! # The height of a tree

The nesting limit is a limit on the readers, and here it becomes one on the trees. A path down from
a node takes two kinds of edge: one to the base of a script, and one to any other part. Every level
that a reader spends is worth at most three edges to parts: a root with an index, or a function
without brackets, holds a group that holds a power. So a path takes at most `3 * maxNesting + 1` of
them, whatever was typed.

Edges to bases are outside of this. The loop over siblings puts a script around a node that is
already read and spends no level, so a chain of scripts is as high as it is long.
-/

namespace FormulaDesk.Markup

/-! ## Paths -/

/-- The ways from a node to one below it. -/
inductive Edge where
  /-- To the node that a superscript or subscript stands on. -/
  | base
  | part
deriving DecidableEq

namespace Node

/-- The edges of a node, each with the node it leads to. -/
def edges : Node → List (Edge × Node)
  | text _ | number _ | word _ | command _ => []
  | group children | delimited _ _ children => children.map (.part, ·)
  | fraction numerator denominator => [(.part, numerator), (.part, denominator)]
  | root radicand index => (.part, radicand) :: index.toList.map (.part, ·)
  | superscript base script | subscript base script =>
    (.part, script) :: base.toList.map (.base, ·)
  | function _ argument script power =>
    (argument.toList ++ script.toList ++ power.toList).map (.part, ·)

/-- The edges from a node down to another. -/
inductive Path : Node → List Edge → Node → Prop
  | here {node} : Path node [] node
  | step {node child below edge path} (hedge : (edge, child) ∈ node.edges)
      (hpath : Path child path below) : Path node (edge :: path) below

/-- No path from the node takes more edges to parts. -/
def Within (h : Nat) (node : Node) : Prop :=
  ∀ path below, node.Path path below → path.count .part ≤ h

variable {h : Nat} {node : Node}

theorem Within.mono {h' : Nat} (hnode : node.Within h) (hle : h ≤ h') : node.Within h' :=
  fun path below hpath => (hnode path below hpath).trans hle

/-- A path is empty or goes on from a base or a part. -/
theorem within_of_edges (hbase : ∀ child, (Edge.base, child) ∈ node.edges → child.Within (h + 1))
    (hpart : ∀ child, (Edge.part, child) ∈ node.edges → child.Within h) :
    node.Within (h + 1) := by
  intro path below hpath
  cases hpath with
  | here => simp
  | @step _ child _ edge path hedge hpath =>
    cases edge with
    | base =>
      have := hbase child hedge path below hpath
      simpa using this
    | part =>
      have := hpart child hedge path below hpath
      simpa using this

/-- A node without children is within every height. -/
theorem within_leaf (hleaf : node.edges = []) : node.Within h := by
  intro path below hpath
  cases hpath with
  | here => simp
  | step hedge _ => simp [hleaf] at hedge

/-- A group is one higher than its members. -/
theorem within_group {children : List Node} (hchildren : ∀ child ∈ children, child.Within h) :
    (group children).Within (h + 1) :=
  within_of_edges (by simp [edges]) (by simpa [edges] using hchildren)

/-- A delimited part is one higher than its members. -/
theorem within_delimited {opener closer : String} {children : List Node}
    (hchildren : ∀ child ∈ children, child.Within h) :
    (delimited opener closer children).Within (h + 1) :=
  within_of_edges (by simp [edges]) (by simpa [edges] using hchildren)

/-- A fraction is one higher than its parts. -/
theorem within_fraction {numerator denominator : Node} (hnum : numerator.Within h)
    (hden : denominator.Within h) : (fraction numerator denominator).Within (h + 1) :=
  within_of_edges (by simp [edges]) (by simpa [edges] using ⟨hnum, hden⟩)

/-- A root is one higher than its parts. -/
theorem within_root {radicand : Node} {index : Option Node} (hrad : radicand.Within h)
    (hindex : ∀ node ∈ index, node.Within h) : (root radicand index).Within (h + 1) :=
  within_of_edges (by simp [edges]) (by simpa [edges] using ⟨hrad, hindex⟩)

/-- A function is one higher than its argument and its scripts. -/
theorem within_function {fn : Fn} {argument script power : Option Node}
    (harg : ∀ node ∈ argument, node.Within h) (hscript : ∀ node ∈ script, node.Within h)
    (hpower : ∀ node ∈ power, node.Within h) :
    (function fn argument script power).Within (h + 1) := by
  refine within_of_edges (by simp [edges]) fun child hchild => ?_
  have hmem : child ∈ argument ∨ child ∈ script ∨ child ∈ power := by
    simpa [edges] using hchild
  rcases hmem with hmem | hmem | hmem
  · exact harg child hmem
  · exact hscript child hmem
  · exact hpower child hmem

/-- A script around the last sibling is no higher than the siblings, since its base is free. -/
theorem within_scripted {make : Option Node → Node → Node}
    (hmake : ∀ base script, (make base script).edges
      = (.part, script) :: base.toList.map (.base, ·))
    {acc : List Node} {script : Node} (hscript : script.Within h)
    (hacc : ∀ node ∈ acc, node.Within (h + 1)) :
    ∀ node ∈ make acc.head? script :: acc.tail, node.Within (h + 1) := by
  intro node hnode
  rcases List.mem_cons.mp hnode with rfl | htail
  · refine within_of_edges (fun base hbase => ?_) fun child hchild => ?_
    · have hhead : acc.head? = some base := by simpa [hmake] using hbase
      exact hacc base (List.mem_of_head? hhead)
    · have : child = script := by simpa [hmake] using hchild
      exact this ▸ hscript
  · exact hacc node (List.mem_of_mem_tail htail)

end Node

/-! ## Levels and edges -/

/-- Beyond the limit only leaves are read. -/
theorem flatAtom_edges (t : Token) (rest : List Token) : (flatAtom t rest).1.edges = [] := by
  unfold flatAtom
  split <;> (repeat' split) <;> rfl

mutual

/-- Siblings are one edge higher than operands, for a script on one of them. -/
theorem ReadsSiblings.within {flat stops room acc ts nodes after} :
    ReadsSiblings flat stops room acc ts nodes after →
      (∀ node ∈ acc, node.Within (3 * room + 1)) → ∀ node ∈ nodes, node.Within (3 * room + 1)
  | .finish, hacc => by simpa using hacc
  | .stop _, hacc => by simpa using hacc
  | .blank _ _ h, hacc => h.within hacc
  | .strayBrace _ h, hacc => h.within hacc
  | .strayParen _ h, hacc => h.within (List.forall_mem_cons.mpr ⟨Node.within_leaf rfl, hacc⟩)
  | .strayBracket _ h, hacc => h.within (List.forall_mem_cons.mpr ⟨Node.within_leaf rfl, hacc⟩)
  | .strayRight _ h, hacc => h.within (List.forall_mem_cons.mpr ⟨Node.within_leaf rfl, hacc⟩)
  | .power hexp h, hacc => h.within (Node.within_scripted (fun _ _ => rfl) hexp.within hacc)
  | .script hscript h, hacc =>
    h.within (Node.within_scripted (fun _ _ => rfl) hscript.within hacc)
  | .operand _ _ _ hnode h, hacc =>
    h.within (List.forall_mem_cons.mpr ⟨hnode.within.mono (Nat.le_add_right _ 1), hacc⟩)

/-- An atom is within three edges for each level of room: the argument of a function is a group of
factors. -/
theorem ReadsAtom.within {flat stops room single ts node after} :
    ReadsAtom flat stops room single ts node after → node.Within (3 * room)
  | .missing _ => Node.within_leaf rfl
  | .ended _ _ => Node.within_leaf rfl
  | .limit _ _ _ => Node.within_leaf (flatAtom_edges _ _)
  | .nested _ _ h => h.within

/-- The level that an operand spends is worth three edges. -/
theorem ReadsNested.within {flat stops room single t ts node after} :
    ReadsNested flat stops room single t ts node after → node.Within (3 * (room + 1))
  | .group h => (Node.within_group (h.within (by simp))).mono (by omega)
  | .paren h => (Node.within_delimited (h.within (by simp))).mono (by omega)
  | .bracket h => (Node.within_delimited (h.within (by simp))).mono (by omega)
  | .number _ => Node.within_leaf rfl
  | .word _ _ => Node.within_leaf rfl
  | .text _ _ _ => Node.within_leaf rfl
  | .delimited h => (Node.within_delimited (h.within (by simp))).mono (by omega)
  | .set h => (Node.within_delimited (h.within (by simp))).mono (by omega)
  | .fraction _ hnum hden => (Node.within_fraction hnum.within hden.within).mono (by omega)
  | .indexedRoot _ hindex hrad =>
    -- the index is a group of siblings below the root: the highest operand there is
    Node.within_root (hrad.within.mono (Nat.le_add_right _ 2))
      (by simpa using Node.within_group (hindex.within (by simp)))
  | .root _ hrad => (Node.within_root hrad.within (by simp)).mono (by omega)
  | .namedFunction _ _ h => h.within (by simp) (by simp)
  | .named _ _ => Node.within_leaf rfl
  | .function _ _ h => h.within (by simp) (by simp)
  | .command _ _ => Node.within_leaf rfl

/-- A function is within three more edges than the level below it. -/
theorem ReadsFunction.within {flat stops room fn script power ts node after} :
    ReadsFunction flat stops room fn script power ts node after →
      (∀ node ∈ script, node.Within (3 * room)) → (∀ node ∈ power, node.Within (3 * room)) →
      node.Within (3 * (room + 1))
  | .script _ hnode h, _, hpower => h.within (by simpa using hnode.within) hpower
  | .power _ hnode h, hscript, _ => h.within hscript (by simpa using hnode.within)
  | .argument _ _ h, hscript, hpower =>
    Node.within_function h.within
      (fun node hnode => (hscript node hnode).mono (Nat.le_add_right _ 2))
      (fun node hnode => (hpower node hnode).mono (Nat.le_add_right _ 2))

/-- An argument is a part of its function, so within two edges above the level below. -/
theorem ReadsArgument.within {flat stops room ts argument after} :
    ReadsArgument flat stops room ts argument after →
      ∀ node ∈ argument, node.Within (3 * room + 2)
  | .missing => by simp
  | .ended _ => by simp
  | .other _ _ _ => by simp
  | .bracketed _ _ h => by simpa using h.within.mono (Nat.le_add_right _ 2)
  -- factors are as high as siblings, and here in a group that the function holds
  | .factors _ _ _ h => by simpa using Node.within_group (h.within (by simp))

/-- A factor of a bare argument is within one edge above the level below. -/
theorem ReadsFactors.within {flat stops room acc ts nodes after} :
    ReadsFactors flat stops room acc ts nodes after →
      (∀ node ∈ acc, node.Within (3 * room + 1)) → ∀ node ∈ nodes, node.Within (3 * room + 1)
  | .power _ hexp h, hacc => h.within (Node.within_scripted (fun _ _ => rfl) hexp.within hacc)
  | .factor _ hnode h, hacc =>
    h.within (List.forall_mem_cons.mpr ⟨hnode.within.mono (Nat.le_add_right _ 1), hacc⟩)
  | .done _ _, hacc => by simpa using hacc

end

/-! ## Chains of scripts -/

/-- A base with so many scripts, one after the other. -/
def scriptChain : Nat → String
  | 0 => "x"
  | k + 1 => scriptChain k ++ "^" ++ "2"

/-- The tree of a chain: each script stands on all before it. -/
def chainNode : Nat → Node
  | 0 => .word "x"
  | k + 1 => .superscript (some (chainNode k)) (.number "2")

/-- A chain of scripts is read as one node, however long it is. -/
theorem scriptChain_emits (room k : Nat) : Emits (room + 1) (scriptChain k) [chainNode k] := by
  induction k with
  | zero => exact (isOperand_letter (c := 'x') (by decide)).emits
  | succ k ih => exact ih.superscript (isScript_numberChar (c := '2') (by decide))

/-- The chain of scripts has its node at the top level. -/
theorem ofMarkup_scriptChain (k : Nat) : Node.ofMarkup (scriptChain k) = [chainNode k] :=
  ofMarkup_eq_of_reads (scriptChain_emits (maxNesting - 1) k).reads

/-- A chain of `k` scripts has a path of `k` edges to its base. -/
theorem chainNode_path (k : Nat) : (chainNode k).Path (List.replicate k .base) (.word "x") := by
  induction k with
  | zero => exact .here
  | succ k ih => exact .step (by simp [chainNode, Node.edges]) ih

/-! ## The two measures -/

/-- The nesting limit bounds the edges to parts on every path of every tree, and nothing bounds the
edges to bases. -/
theorem parts_bounded_bases_unbounded :
    (∀ markup, ∀ node ∈ Node.ofMarkup markup, ∀ path below, node.Path path below →
      path.count .part ≤ 3 * maxNesting + 1) ∧
    ∀ k, ∃ node leaf, Node.ofMarkup (scriptChain k) = [node] ∧ leaf.edges = [] ∧
      node.Path (List.replicate k .base) leaf := by
  refine ⟨fun markup => ?_, fun k => ?_⟩
  -- at the top all levels are left, and nothing has been read yet
  · exact (ofTokens_reads_all (Token.ofString markup)).within (by simp)
  · exact ⟨chainNode k, .word "x", ofMarkup_scriptChain k, rfl, chainNode_path k⟩

/-- A root whose index is a power. Below it stand a group, the power in it and the exponent of that:
three edges for one level. -/
def powerRoot : Node :=
  .root (.group [.word "y"]) (some (.group [.superscript (some (.word "x")) (.number "2")]))

/-- The exponent in a root's index stands behind three edges of parts. -/
theorem parts_bounded_bases_unbounded_powerRoot :
    powerRoot ∈ Node.ofMarkup "\\sqrt[x^2]\x7by\x7d" ∧
    powerRoot.Path [.part, .part, .part] (.number "2") ∧
    [Edge.part, .part, .part].count .part ≤ 3 * maxNesting + 1 := by
  have htext : rootOf (scriptChain 1) "y" = "\\sqrt[x^2]\x7by\x7d" := by decide
  have hletter : Emits (maxNesting - 2) "y" [.word "y"] :=
    (isOperand_letter (c := 'y') (by decide)).emits
  have hmem : powerRoot ∈ Node.ofMarkup "\\sqrt[x^2]\x7by\x7d" := by
    rw [← htext, ofMarkup_eq_of_reads (isOperand_root hletter (scriptChain_emits _ 1)).emits.reads]
    exact List.mem_singleton_self powerRoot
  have hpath : powerRoot.Path [.part, .part, .part] (.number "2") := by
    refine .step (List.mem_cons_of_mem _ List.mem_cons_self) ?_
    exact .step List.mem_cons_self (.step List.mem_cons_self .here)
  exact ⟨hmem, hpath, parts_bounded_bases_unbounded.1 _ _ hmem _ _ hpath⟩

end FormulaDesk.Markup
