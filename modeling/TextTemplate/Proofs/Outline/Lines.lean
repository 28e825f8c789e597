import TextTemplate.Proofs.Text.Quoted
import TextTemplate.Proofs.Tree.Parsed
import TextTemplate.Proofs.Tree.Weight
import TextTemplate.Tree.Outline

/-!
# Lines of outlines

An outline shows the nodes of a tree in preorder, one in each line, down to the level right below
the depth limit.  No label breaks its line, so the lines can be counted in the text.
-/

namespace TextTemplate

namespace Node

mutual

/-- All nodes of a tree in preorder, each with its level, when the root stands at a given one. -/
def placed (depth : Nat) : Node → List (Nat × Node)
  | .literal text => [(depth, .literal text)]
  | .characterSet members repetition => [(depth, .characterSet members repetition)]
  | .sequence children => (depth, .sequence children) :: placedAmong (depth + 1) children
  | .alternation operands => (depth, .alternation operands) :: placedAmong (depth + 1) operands
  | .permutation operands => (depth, .permutation operands) :: placedAmong (depth + 1) operands
  | .reference name => [(depth, .reference name)]

def placedAmong (depth : Nat) : List Node → List (Nat × Node)
  | [] => []
  | node :: rest => placed depth node ++ placedAmong depth rest

end

theorem placedAmong_eq_flatMap (depth : Nat) (trees : List Node) :
    placedAmong depth trees = trees.flatMap (placed depth) := by
  induction trees with
  | nil => rfl
  | cons tree rest ih => rw [placedAmong, ih, List.flatMap_cons]

theorem placed_eq_cons (depth : Nat) (tree : Node) :
    tree.placed depth = (depth, tree) :: tree.subnodes.flatMap (placed (depth + 1)) := by
  cases tree <;> simp [placed, subnodes, placedAmong_eq_flatMap]

/-- Apart from their levels, these are the nodes in preorder. -/
theorem map_snd_placed (depth : Nat) (tree : Node) :
    (tree.placed depth).map Prod.snd = tree.nodes := by
  induction tree using treeInduction generalizing depth with
  | step tree ih =>
      rw [placed_eq_cons, nodes_eq_cons, List.map_cons, List.map_flatMap]
      congr 1
      exact List.flatMap_congr fun child member => ih child member (depth + 1)

/-- No node stands above the root. -/
theorem le_of_mem_placed {depth : Nat} {tree node : Node} {level : Nat}
    (member : (level, node) ∈ tree.placed depth) : depth ≤ level := by
  induction tree using treeInduction generalizing depth with
  | step tree ih =>
      rw [placed_eq_cons, List.mem_cons, List.mem_flatMap] at member
      rcases member with root | ⟨child, isChild, below⟩
      · cases root
        exact Nat.le_refl _
      · exact Nat.le_of_succ_le (ih child isChild below)

/-- What holds of every node of a tree holds of the nodes at its levels. -/
theorem every_of_mem_placed {condition : Node → Prop} {depth level : Nat} {tree node : Node}
    (holds : tree.Every condition) (member : (level, node) ∈ tree.placed depth) :
    condition node := by
  induction tree using treeInduction generalizing depth with
  | step tree ih =>
      obtain ⟨root, below⟩ := every_iff.mp holds
      rw [placed_eq_cons, List.mem_cons, List.mem_flatMap] at member
      rcases member with isRoot | ⟨child, isChild, within⟩
      · cases isRoot
        exact root
      · exact ih child isChild (below child isChild) within

end Node

namespace Outline

/-- Whether the nodes at a level are shown, be it by an ellipsis only. -/
def isShown (maxDepth : Option Nat) (level : Nat) : Bool :=
  match maxDepth with
  | some limit => level ≤ limit + 1
  | none => true

/-- The line for a node at a level. -/
def lineAt (maxDepth : Option Nat) (place : Nat × Node) : OutlineLine :=
  ⟨place.1, if isHidden maxDepth place.1 then ellipsis else label place.2⟩

theorem linesAll_eq_flatMap (maxDepth : Option Nat) (depth : Nat) (trees : List Node) :
    linesAll maxDepth depth trees = trees.flatMap (lines maxDepth depth) := by
  induction trees with
  | nil => rfl
  | cons tree rest ih => rw [linesAll, ih, List.flatMap_cons]

theorem lines_of_isHidden {maxDepth : Option Nat} {depth : Nat}
    (hidden : isHidden maxDepth depth = true) (tree : Node) :
    lines maxDepth depth tree = [⟨depth, ellipsis⟩] := by
  cases tree <;> simp [lines, hidden]

theorem lines_of_not_isHidden {maxDepth : Option Nat} {depth : Nat}
    (visible : isHidden maxDepth depth = false) (tree : Node) :
    lines maxDepth depth tree =
      ⟨depth, label tree⟩ :: tree.subnodes.flatMap (lines maxDepth (depth + 1)) := by
  cases tree <;> simp [lines, visible, linesAll_eq_flatMap, Node.subnodes]

theorem isShown_zero (maxDepth : Option Nat) : isShown maxDepth 0 = true := by
  cases maxDepth with
  | none => rfl
  | some limit => exact decide_eq_true (Nat.zero_le (limit + 1))

theorem isShown_succ (maxDepth : Option Nat) (level : Nat) :
    isShown maxDepth (level + 1) = !isHidden maxDepth level := by
  cases maxDepth with
  | none => rfl
  | some limit =>
      rw [isShown, isHidden, ← decide_not, decide_eq_decide]
      omega

theorem isShown_of_le {maxDepth : Option Nat} {level deeper : Nat} (le : level ≤ deeper)
    (shown : isShown maxDepth deeper = true) : isShown maxDepth level = true := by
  cases maxDepth with
  | none => rfl
  | some limit =>
      simp only [isShown, decide_eq_true_eq] at shown ⊢
      exact Nat.le_trans le shown

/-- The lines of a tree are those of its shown nodes. -/
theorem lines_eq_map {maxDepth : Option Nat} {depth : Nat}
    (shown : isShown maxDepth depth = true) (tree : Node) :
    lines maxDepth depth tree =
      ((tree.placed depth).filter (isShown maxDepth ·.1)).map (lineAt maxDepth) := by
  induction tree using Node.treeInduction generalizing depth with
  | step tree ih =>
      rw [Node.placed_eq_cons, List.filter_cons_of_pos (by exact shown), List.map_cons,
        List.filter_flatMap, List.map_flatMap, lineAt]
      cases hidden : isHidden maxDepth depth with
      | true =>
          -- Everything below stands deeper than the ellipses.
          have below : isShown maxDepth (depth + 1) = false := by rw [isShown_succ, hidden]; rfl
          have nothing : ∀ child ∈ tree.subnodes,
              (child.placed (depth + 1)).filter (isShown maxDepth ·.1) = [] := by
            intro child _
            rw [List.filter_eq_nil_iff]
            intro place member isShown
            rw [isShown_of_le (Node.le_of_mem_placed member) isShown] at below
            cases below
          rw [lines_of_isHidden hidden, if_pos rfl]
          congr 1
          symm
          rw [List.flatMap_eq_nil_iff]
          intro child member
          rw [nothing child member, List.map_nil]
      | false =>
          have below : isShown maxDepth (depth + 1) = true := by rw [isShown_succ, hidden]; rfl
          rw [lines_of_not_isHidden hidden, if_neg (by simp)]
          congr 1
          exact List.flatMap_congr fun child member => ih child member below

/-! ## Labels stand in one line -/

theorem newline_not_mem_digits (number : Nat) : '\n' ∉ Nat.toDigits 10 number := by
  intro member
  have digit : Char.isDigit '\n' = true :=
    Nat.isDigit_of_mem_toDigits (by decide) (by decide) member
  cases digit

theorem newline_not_mem_repetitionLabel (repetition : Repetition) :
    '\n' ∉ repetitionLabel repetition := by
  cases repetition <;> simp [repetitionLabel, newline_not_mem_digits]

theorem newline_not_mem_membersLabel (members : List Char) : '\n' ∉ membersLabel members := by
  have shown := Quoted.newline_not_mem_flatMap Quoted.escapeAlone_shows
  unfold membersLabel
  dsimp only
  split <;> simp [shown, newline_not_mem_digits]

/-- Only a name could break the line of a node. -/
theorem newline_not_mem_label {node : Node}
    (named : ∀ name, node = .reference name → '\n' ∉ name) : '\n' ∉ label node := by
  unfold label
  split
  · simp [newline_not_mem_quoted]
  · simp [newline_not_mem_repetitionLabel, newline_not_mem_membersLabel]
  · simp
  · simp
  · simp
  · next name => simp [named name rfl]

end Outline

theorem newline_not_mem_of_isIdentifier {name : List Char} (valid : isIdentifier name = true) :
    '\n' ∉ name := by
  have unfit : Identifier.canContinue '\n' = false := by decide +kernel
  have unfitStart : Identifier.canStart '\n' = false := by decide +kernel
  cases name with
  | nil => exact List.not_mem_nil
  | cons first rest =>
      simp only [isIdentifier, Bool.and_eq_true, List.all_eq_true] at valid
      rw [List.mem_cons, not_or]
      constructor
      · rintro rfl
        rw [unfitStart] at valid
        cases valid.1
      · intro member
        have fit := valid.2 _ member
        rw [unfit] at fit
        cases fit

theorem newline_not_mem_label_of_isProper {node : Node} (proper : node.IsProper) :
    '\n' ∉ Outline.label node := by
  apply Outline.newline_not_mem_label
  rintro name rfl
  exact newline_not_mem_of_isIdentifier proper

/-! ## The text -/

/-- A text is made of some lines, each with its end. -/
structure ConsistsOf (text : List Char) (lines : List (List Char)) : Prop where
  text_eq : text = lines.flatMap (· ++ ['\n'])
  unbroken : ∀ line ∈ lines, '\n' ∉ line

/-- The lines of a text can be counted by their ends. -/
theorem ConsistsOf.count_newline {text : List Char} {lines : List (List Char)}
    (consists : ConsistsOf text lines) : text.count '\n' = lines.length := by
  obtain ⟨rfl, unbroken⟩ := consists
  induction lines with
  | nil => rfl
  | cons line rest ih =>
      obtain ⟨first, later⟩ := List.forall_mem_cons.mp unbroken
      rw [List.flatMap_cons, List.count_append, List.count_append, ih later,
        List.count_eq_zero.mpr first, List.length_cons]
      simp [Nat.add_comm]

theorem newline_not_mem_indentation {indent : List Char} (unbroken : '\n' ∉ indent)
    (level : Nat) : '\n' ∉ (List.replicate level indent).flatten := by
  rw [List.mem_flatten]
  rintro ⟨part, member, within⟩
  rw [List.eq_of_mem_replicate member] at within
  exact unbroken within

/-- An outline consists of the lines of the shown nodes. -/
theorem Node.outline_consistsOf {tree : Node}
    (labelled : tree.Every fun node => '\n' ∉ Outline.label node) {indent : List Char}
    (unbroken : '\n' ∉ indent) (maxDepth : Option Nat) :
    ConsistsOf (tree.outline ⟨indent, maxDepth⟩)
      (((tree.placed 0).filter (Outline.isShown maxDepth ·.1)).map fun place =>
        (List.replicate place.1 indent).flatten ++ (Outline.lineAt maxDepth place).label) where
  text_eq := by
    rw [Node.outline, Outline.lines_eq_map (Outline.isShown_zero maxDepth), List.flatMap_map,
      List.flatMap_map]
    rfl
  unbroken := by
    intro line member
    obtain ⟨⟨level, node⟩, isShown, rfl⟩ := List.mem_map.mp member
    have inTree := every_of_mem_placed labelled (List.mem_filter.mp isShown).1
    rw [List.mem_append, not_or]
    refine ⟨newline_not_mem_indentation unbroken level, ?_⟩
    rw [Outline.lineAt]
    dsimp only
    split
    · decide
    · exact inTree

/--
The outline of a tree that was read has one line for every node in preorder, indented once for
each level.  Under a depth limit this goes on down to the level right below it, where ellipses
stand for the nodes.  No line breaks, whatever texts, members and names it shows.
-/
theorem Node.outline_of_parse {limits : Limits} {pattern : List Char} {tree : Node}
    (read : parse limits pattern = .ok tree) {indent : List Char} (unbroken : '\n' ∉ indent) :
    let indentation (level : Nat) := (List.replicate level indent).flatten
    (tree.placed 0).map Prod.snd = tree.nodes ∧
      ConsistsOf (tree.outline ⟨indent, none⟩)
        ((tree.placed 0).map fun (level, node) => indentation level ++ Outline.label node) ∧
      (tree.outline ⟨indent, none⟩).count '\n' = tree.nodeCount ∧
      ∀ limit : Nat,
        let shown := (tree.placed 0).filter fun (level, _) => level ≤ limit + 1
        ConsistsOf (tree.outline ⟨indent, some limit⟩)
          (shown.map fun (level, node) => indentation level ++
            if level = limit + 1 then ['.', '.', '.'] else Outline.label node) ∧
        (tree.outline ⟨indent, some limit⟩).count '\n' = shown.length := by
  intro indentation
  have labelled : tree.Every fun node => '\n' ∉ Outline.label node :=
    (every_isProper_of_parse read).imp fun _ => newline_not_mem_label_of_isProper
  have whole := outline_consistsOf labelled unbroken
  have unlimited : ConsistsOf (tree.outline ⟨indent, none⟩)
      ((tree.placed 0).map fun (level, node) => indentation level ++ Outline.label node) := by
    have allShown : (tree.placed 0).filter (Outline.isShown none ·.1) = tree.placed 0 :=
      List.filter_eq_self.mpr fun _ _ => rfl
    have consists := whole none
    rwa [allShown] at consists
  refine ⟨map_snd_placed 0 tree, unlimited, ?_, ?_⟩
  · rw [unlimited.count_newline, List.length_map, ← length_nodes, ← map_snd_placed 0 tree,
      List.length_map]
  · intro limit shown
    have limited : ConsistsOf (tree.outline ⟨indent, some limit⟩)
        (shown.map fun (level, node) => indentation level ++
          if level = limit + 1 then ['.', '.', '.'] else Outline.label node) := by
      have consists := whole (some limit)
      have sameLines : ∀ place ∈ shown,
          (Outline.lineAt (some limit) place).label =
            if place.1 = limit + 1 then ['.', '.', '.'] else Outline.label place.2 := by
        intro place member
        have within : place.1 ≤ limit + 1 := of_decide_eq_true (List.mem_filter.mp member).2
        simp only [Outline.lineAt, Outline.isHidden, decide_eq_true_eq]
        exact if_congr (by omega) rfl rfl
      refine (congrArg (ConsistsOf _) (List.map_congr_left ?_)).mp consists
      intro place member
      rw [sameLines place member]
    refine ⟨limited, ?_⟩
    rw [limited.count_newline, List.length_map]

/-- A line feed in a text and among members; a limit that cuts off what stands in two groups. -/
theorem Node.outline_of_parse_groups :
    let pattern := "((a\n))[\\s]$\x7bname\x7d".toList
    let tree : Node := .sequence
      [.sequence [.sequence [.literal ['a', '\n']]],
        .characterSet [' ', '\t', '\n', '\r', '\x0b', '\x0c'] .once, .reference "name".toList]
    parse {} pattern = .ok tree ∧ '\n' ∉ ['-'] ∧
      (tree.outline ⟨['-'], none⟩).count '\n' = 6 ∧
      ConsistsOf (tree.outline ⟨['-'], some 1⟩)
        ["Sequence".toList, "-Sequence".toList, "--...".toList,
          "-CharacterSet \x7b1\x7d [ \\t\\n\\r\\u\x7bb\x7d\\u\x7bc\x7d]".toList,
          "-ExternalSource $\x7bname\x7d".toList] := by
  intro pattern tree
  have read : parse {} pattern = .ok tree := by decide +kernel
  have unbroken : '\n' ∉ ['-'] := by decide
  obtain ⟨-, -, lines, limited⟩ := outline_of_parse read unbroken
  refine ⟨read, unbroken, lines, ?_⟩
  have shown := (limited 1).1
  exact (congrArg (ConsistsOf _) (by decide +kernel)).mp shown

end TextTemplate
