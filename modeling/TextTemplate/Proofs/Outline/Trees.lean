import TextTemplate.Proofs.Outline.Lines

/-!
# Telling trees apart by their outlines

The text of an outline is divided into its lines, and a line into its indentation and its label.
A label says everything about a node but what stands below it, and this stands on the lines that
follow, as long as these are indented further.  So an outline without a depth limit belongs to
one tree only, once no set is abbreviated and no name breaks its line.
-/

namespace TextTemplate

namespace Outline

/-! ## Labels -/

theorem label_literal (text : List Char) :
    label (.literal text) = "Literal ".toList ++ quoted text := rfl

theorem label_characterSet (members : List Char) (repetition : Repetition) :
    label (.characterSet members repetition) =
      "CharacterSet ".toList ++ repetitionLabel repetition ++ ' ' :: membersLabel members := rfl

theorem label_reference (name : List Char) :
    label (.reference name) = "ExternalSource $\x7b".toList ++ name ++ ['\x7d'] := rfl

/-- The letter that the label of a node begins with; every kind of node has its own. -/
def initial : Node → Char
  | .literal _ => 'L'
  | .characterSet _ _ => 'C'
  | .sequence _ => 'S'
  | .alternation _ => 'A'
  | .permutation _ => 'P'
  | .reference _ => 'E'

theorem head?_label (node : Node) : (label node).head? = some (initial node) := by
  cases node <;> rfl

theorem repetitionLabel_exactly_append (count : Nat) (rest : List Char) :
    repetitionLabel (.exactly count) ++ rest =
      '\x7b' :: (Nat.toDigits 10 count ++ '\x7d' :: rest) := by
  simp [repetitionLabel]

theorem repetitionLabel_between_append (low high : Nat) (rest : List Char) :
    repetitionLabel (.between low high) ++ rest =
      '\x7b' :: (Nat.toDigits 10 low ++ ':' :: (Nat.toDigits 10 high ++ '\x7d' :: rest)) := by
  simp [repetitionLabel]

/-- A number and what stands behind its digits are known from a text that begins with them. -/
theorem eq_of_digits_append_eq {number number' : Nat} {stop stop' : Char} {rest rest' : List Char}
    (stops : stop.isDigit = false) (stops' : stop'.isDigit = false)
    (same : Nat.toDigits 10 number ++ stop :: rest = Nat.toDigits 10 number' ++ stop' :: rest') :
    number = number' ∧ stop = stop' ∧ rest = rest' := by
  have isDigit {number : Nat} :
      ∀ character ∈ Nat.toDigits 10 number, character.isDigit = true :=
    fun _ => Nat.isDigit_of_mem_toDigits (by decide) (by decide)
  obtain ⟨digits, behind⟩ := eq_of_run_append_eq isDigit stops isDigit stops' same
  exact ⟨toDigits_injective (by decide) (by decide) digits, behind⟩

/-- A repetition and what stands behind it are known from a text that begins with its label. -/
theorem eq_of_repetitionLabel_append_eq {repetition repetition' : Repetition}
    {rest rest' : List Char}
    (same : repetitionLabel repetition ++ rest = repetitionLabel repetition' ++ rest') :
    repetition = repetition' ∧ rest = rest' := by
  cases repetition with
  | exactly count =>
      rw [repetitionLabel_exactly_append] at same
      cases repetition' with
      | exactly count' =>
          rw [repetitionLabel_exactly_append] at same
          obtain ⟨rfl, -, behind⟩ := eq_of_digits_append_eq rfl rfl (List.cons.inj same).2
          exact ⟨rfl, behind⟩
      | between low' high' =>
          rw [repetitionLabel_between_append] at same
          obtain ⟨-, stop, -⟩ := eq_of_digits_append_eq rfl rfl (List.cons.inj same).2
          cases stop
  | between low high =>
      rw [repetitionLabel_between_append] at same
      cases repetition' with
      | exactly count' =>
          rw [repetitionLabel_exactly_append] at same
          obtain ⟨-, stop, -⟩ := eq_of_digits_append_eq rfl rfl (List.cons.inj same).2
          cases stop
      | between low' high' =>
          rw [repetitionLabel_between_append] at same
          obtain ⟨rfl, -, upper⟩ := eq_of_digits_append_eq rfl rfl (List.cons.inj same).2
          obtain ⟨rfl, -, behind⟩ := eq_of_digits_append_eq rfl rfl upper
          exact ⟨rfl, behind⟩

/-- Members that are all listed are known from their label. -/
theorem eq_of_membersLabel_eq {members members' : List Char}
    (listed : members.length ≤ maxMembersShown) (listed' : members'.length ≤ maxMembersShown)
    (same : membersLabel members = membersLabel members') : members = members' := by
  unfold membersLabel at same
  dsimp only at same
  rw [if_neg (Nat.not_lt.mpr listed), if_neg (Nat.not_lt.mpr listed'),
    List.take_of_length_le listed, List.take_of_length_le listed', List.cons_append,
    List.cons_append, List.cons_inj_right, List.append_left_inj] at same
  exact Quoted.flatMap_injective_of_shows Quoted.escapeAlone_shows same

end Outline

namespace Node

/-- The line of a node shows all of it apart from what stands below. -/
def IsShownWhole : Node → Prop
  | .characterSet members _ => members.length ≤ 32
  | .reference name => '\n' ∉ name
  | _ => True

open Outline

/-- A node is known from its label and from the nodes below it. -/
theorem eq_of_label_eq {node node' : Node} (whole : node.IsShownWhole)
    (whole' : node'.IsShownWhole) (same : label node = label node')
    (below : node.subnodes = node'.subnodes) : node = node' := by
  have initials : initial node = initial node' := by
    rw [← Option.some_inj, ← head?_label, ← head?_label, same]
  cases node <;> cases node' <;> simp [initial] at initials
  case literal.literal text text' =>
      rw [label_literal, label_literal, List.append_right_inj] at same
      rw [quoted_injective same]
  case characterSet.characterSet members repetition members' repetition' =>
      rw [label_characterSet, label_characterSet, List.append_assoc, List.append_assoc,
        List.append_right_inj] at same
      obtain ⟨rfl, behind⟩ := eq_of_repetitionLabel_append_eq same
      rw [eq_of_membersLabel_eq whole whole' (List.cons.inj behind).2]
  case reference.reference name name' =>
      rw [label_reference, label_reference, List.append_left_inj, List.append_right_inj] at same
      rw [same]
  case sequence.sequence => exact congrArg _ below
  case alternation.alternation => exact congrArg _ below
  case permutation.permutation => exact congrArg _ below

end Node

namespace Outline

/-! ## Levels -/

/-- Some lines stand at or above a level when the first of them does. -/
def ReturnsTo (depth : Nat) (lines : List OutlineLine) : Prop :=
  ∀ line ∈ lines.head?, line.depth ≤ depth

theorem ReturnsTo.mono {depth deeper : Nat} {lines : List OutlineLine}
    (returns : ReturnsTo depth lines) (le : depth ≤ deeper) : ReturnsTo deeper lines :=
  fun line member => Nat.le_trans (returns line member) le

theorem returnsTo_lines_append (depth : Nat) (tree : Node) (rest : List OutlineLine) :
    ReturnsTo depth (lines none depth tree ++ rest) := by
  rw [lines_of_not_isHidden rfl]
  rintro line ⟨⟩
  exact Nat.le_refl depth

theorem returnsTo_flatMap_append {depth : Nat} (trees : List Node) {rest : List OutlineLine}
    (returns : ReturnsTo depth rest) :
    ReturnsTo depth (trees.flatMap (lines none depth) ++ rest) := by
  cases trees with
  | nil => exact returns
  | cons tree later =>
      rw [List.flatMap_cons, List.append_assoc]
      exact returnsTo_lines_append depth tree _

/-- Trees whose own lines end where the next one begins are known from all their lines. -/
theorem eq_of_flatMap_lines_append_eq {depth : Nat} {trees trees' : List Node}
    {rest rest' : List OutlineLine}
    (known : ∀ tree ∈ trees, ∀ tree' ∈ trees', ∀ {rest rest' : List OutlineLine},
      ReturnsTo (depth + 1) rest → ReturnsTo (depth + 1) rest' →
        lines none (depth + 1) tree ++ rest = lines none (depth + 1) tree' ++ rest' →
          tree = tree' ∧ rest = rest')
    (returns : ReturnsTo depth rest) (returns' : ReturnsTo depth rest')
    (same : trees.flatMap (lines none (depth + 1)) ++ rest =
      trees'.flatMap (lines none (depth + 1)) ++ rest') : trees = trees' ∧ rest = rest' := by
  -- A line at this level cannot be the first of those behind the trees.
  have deeper (tree : Node) (later : List Node) (rest rest' : List OutlineLine)
      (returns : ReturnsTo depth rest) :
      rest ≠ (tree :: later).flatMap (lines none (depth + 1)) ++ rest' := by
    rintro rfl
    rw [List.flatMap_cons, lines_of_not_isHidden rfl] at returns
    exact Nat.not_succ_le_self depth (returns _ rfl)
  induction trees generalizing trees' with
  | nil =>
      cases trees' with
      | nil => exact ⟨rfl, same⟩
      | cons tree' later' => exact absurd same (deeper tree' later' rest rest' returns)
  | cons tree later ih =>
      cases trees' with
      | nil => exact absurd same.symm (deeper tree later rest' rest returns')
      | cons tree' later' =>
          rw [List.flatMap_cons, List.flatMap_cons, List.append_assoc, List.append_assoc] at same
          obtain ⟨rfl, behind⟩ := known tree List.mem_cons_self tree' List.mem_cons_self
            (returnsTo_flatMap_append later (returns.mono (Nat.le_succ depth)))
            (returnsTo_flatMap_append later' (returns'.mono (Nat.le_succ depth))) same
          obtain ⟨rfl, rests⟩ := ih
            (fun next member next' member' =>
              known next (List.mem_cons_of_mem _ member) next' (List.mem_cons_of_mem _ member'))
            behind
          exact ⟨rfl, rests⟩

/-- A tree is known from lines that begin with its own, if those behind them return to its level. -/
theorem eq_of_lines_append_eq {tree tree' : Node} (whole : tree.Every Node.IsShownWhole)
    (whole' : tree'.Every Node.IsShownWhole) {depth : Nat} {rest rest' : List OutlineLine}
    (returns : ReturnsTo depth rest) (returns' : ReturnsTo depth rest')
    (same : lines none depth tree ++ rest = lines none depth tree' ++ rest') :
    tree = tree' ∧ rest = rest' := by
  induction tree using Node.treeInduction generalizing tree' depth rest rest' with
  | step tree ih =>
      obtain ⟨root, below⟩ := Node.every_iff.mp whole
      obtain ⟨root', below'⟩ := Node.every_iff.mp whole'
      rw [lines_of_not_isHidden rfl, lines_of_not_isHidden rfl, List.cons_append,
        List.cons_append, List.cons.injEq, OutlineLine.mk.injEq] at same
      obtain ⟨⟨-, labels⟩, lower⟩ := same
      obtain ⟨subnodes, rests⟩ := eq_of_flatMap_lines_append_eq
        (fun child member child' member' {_ _} =>
          ih child member (below child member) (below' child' member')) returns returns' lower
      exact ⟨Node.eq_of_label_eq root root' labels subnodes, rests⟩

/-! ## Text -/

theorem initial_ne_space (node : Node) : (initial node == ' ') = false := by
  cases node <;> rfl

/-- The default indentation is a run of spaces. -/
theorem indentation_eq_replicate (depth : Nat) :
    (List.replicate depth [' ', ' ', ' ', ' ']).flatten = List.replicate (depth * 4) ' ' :=
  (List.flatten_replicate_replicate : (List.replicate depth (List.replicate 4 ' ')).flatten = _)

/-- The line of a node is known from a text that begins with it. -/
theorem eq_of_writeLine_append_eq {depth depth' : Nat} {node node' : Node}
    {rest rest' : List Char} (inLine : '\n' ∉ label node) (inLine' : '\n' ∉ label node')
    (same : writeLine [' ', ' ', ' ', ' '] ⟨depth, label node⟩ ++ rest =
      writeLine [' ', ' ', ' ', ' '] ⟨depth', label node'⟩ ++ rest') :
    depth = depth' ∧ label node = label node' := by
  have inBody {depth : Nat} {node : Node} (inLine : '\n' ∉ label node) :
      ∀ character ∈ List.replicate (depth * 4) ' ' ++ label node, (character != '\n') = true := by
    intro character member
    rw [bne_iff_ne]
    rintro rfl
    rcases List.mem_append.mp member with space | inLabel
    · cases List.eq_of_mem_replicate space
    · exact inLine inLabel
  have inIndentation (count : Nat) :
      ∀ character ∈ List.replicate count ' ', (character == ' ') = true := by
    intro character member
    rw [List.eq_of_mem_replicate member]
    rfl
  rw [writeLine, writeLine, indentation_eq_replicate, indentation_eq_replicate,
    List.append_assoc _ ['\n'], List.append_assoc _ ['\n']] at same
  obtain ⟨bodies, -, -⟩ := eq_of_run_append_eq (inBody inLine) rfl (inBody inLine') rfl same
  obtain ⟨tail, begins⟩ := List.head?_eq_some_iff.mp (head?_label node)
  obtain ⟨tail', begins'⟩ := List.head?_eq_some_iff.mp (head?_label node')
  rw [begins, begins'] at bodies ⊢
  obtain ⟨spaces, initials, tails⟩ := eq_of_run_append_eq (inIndentation _) (initial_ne_space node)
    (inIndentation _) (initial_ne_space node') bodies
  have depths : depth * 4 = depth' * 4 := by simpa using congrArg List.length spaces
  exact ⟨by omega, by rw [initials, tails]⟩

/-- The lines of trees without abbreviations are known from their text. -/
theorem lines_eq_of_outline_eq {tree tree' : Node} (whole : tree.Every Node.IsShownWhole)
    (whole' : tree'.Every Node.IsShownWhole) (same : tree.outline {} = tree'.outline {}) :
    lines none 0 tree = lines none 0 tree' := by
  have labelled {tree : Node} (whole : tree.Every Node.IsShownWhole) :
      ∀ line ∈ lines none 0 tree, ∃ depth node, line = ⟨depth, label node⟩ ∧
        '\n' ∉ label node := by
    intro line member
    rw [lines_eq_map (isShown_zero none)] at member
    obtain ⟨⟨depth, node⟩, isShown, rfl⟩ := List.mem_map.mp member
    have inTree := Node.every_of_mem_placed whole (List.mem_filter.mp isShown).1
    refine ⟨depth, node, rfl, newline_not_mem_label ?_⟩
    rintro name rfl
    exact inTree
  refine eq_of_flatMap_eq (fun line => by simp [writeLine]) ?_ same
  intro line member line' member' rest rest' begins
  obtain ⟨depth, node, rfl, inLine⟩ := labelled whole line member
  obtain ⟨depth', node', rfl, inLine'⟩ := labelled whole' line' member'
  obtain ⟨depths, labels⟩ := eq_of_writeLine_append_eq inLine inLine' begins
  rw [depths, labels]

end Outline

/--
Two trees have the same outline in the default style only if they are the same tree, as long as no
set is abbreviated and no name breaks its line.
-/
theorem Node.outline_eq_outline_iff {tree tree' : Node} (whole : tree.Every IsShownWhole)
    (whole' : tree'.Every IsShownWhole) : tree.outline {} = tree'.outline {} ↔ tree = tree' := by
  constructor
  · intro same
    have sameLines := Outline.lines_eq_of_outline_eq whole whole' same
    have nothingBehind : Outline.ReturnsTo 0 [] := fun _ member => nomatch member
    exact (Outline.eq_of_lines_append_eq whole whole' nothingBehind nothingBehind
      (congrArg (· ++ []) sameLines)).1
  · intro same
    rw [same]

/-- A combining mark is not its own escape, and a single count is no pair of bounds. -/
theorem Node.outline_ne_outline_of_mark :
    let marked : Node := .sequence
      [.characterSet ['\u0301'] (.exactly 2), .sequence [.literal ['\\', 'n']]]
    let spelt : Node := .sequence
      [.characterSet ['\\', 'u', '\x7b', '3', '0', '1', '\x7d'] (.between 2 2), .sequence [],
        .literal ['\n']]
    marked.Every IsShownWhole ∧ spelt.Every IsShownWhole ∧ marked.outline {} ≠ spelt.outline {} := by
  intro marked spelt
  have whole : marked.Every IsShownWhole := by
    simp [marked, Every, EveryAmong, IsShownWhole]
  have whole' : spelt.Every IsShownWhole := by
    simp [spelt, Every, EveryAmong, IsShownWhole]
  exact ⟨whole, whole', (outline_eq_outline_iff whole whole').not.mpr (by decide)⟩

end TextTemplate
