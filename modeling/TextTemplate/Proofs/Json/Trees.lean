import TextTemplate.Json.Tree
import TextTemplate.Proofs.Json.Values
import TextTemplate.Proofs.Tree.Every

/-!
# Trees through JSON and back

The text of a tree writes one JSON value, and from that value the tree is read again, as long
as the levels of the value are within those that the reader follows.
-/

namespace TextTemplate

/-- Items that are all read from what is written for them are read one after the other. -/
theorem mapM_map_eq_some {α β : Type} {read : β → Option α} {write : α → β} {items : List α}
    (reads : ∀ item ∈ items, read (write item) = some item) :
    (items.map write).mapM read = some items := by
  induction items with
  | nil => rfl
  | cons item rest ih =>
      obtain ⟨first, others⟩ := List.forall_mem_cons.mp reads
      simp [List.mapM_cons, first, ih others]

namespace Json

mutual

/-- How deep the arrays and objects of a value nest. -/
def levels : Json → Nat
  | .array items => levelsAmong items + 1
  | .object fields => levelsAmongFields fields + 1
  | _ => 0

def levelsAmong : List Json → Nat
  | [] => 0
  | item :: rest => max (levels item) (levelsAmong rest)

def levelsAmongFields : List (Option (List Char) × Json) → Nat
  | [] => 0
  | (_, value) :: rest => max (levels value) (levelsAmongFields rest)

end

theorem levelsAmong_le_iff {items : List Json} {bound : Nat} :
    levelsAmong items ≤ bound ↔ ∀ item ∈ items, item.levels ≤ bound := by
  induction items with
  | nil => simp [levelsAmong]
  | cons item rest ih => rw [levelsAmong, Nat.max_le, ih, List.forall_mem_cons]

/-- An object whose only field has a name. -/
def named (name : String) (value : Json) : Json := .object [(some name.toList, value)]

@[simp]
theorem levels_named (name : String) (value : Json) :
    (named name value).levels = value.levels + 1 := by
  simp [named, levels, levelsAmongFields]

/-- Reading goes on with the kind and the parts of an object that names one kind. -/
theorem bind_kind?_named {α : Type} (kind : String) (parts : Json)
    (next : String × Json → Option α) :
    ((named kind parts).kind? >>= next) = next (kind, parts) := by
  simp [named, kind?]

@[simp]
theorem parts?_named (name : String) (value : Json) :
    (named name value).parts? [name] = some [value] := by
  simp [named, parts?, field?]

theorem writes_named (name : String) {piece : Piece} {value : Json} (writes : Writes piece value) :
    Writes (writeObject [writeField name piece]) (named name value) :=
  writes_object (.cons (writesField_of_writes name writes) .nil)

end Json

/-! ## Repetitions -/

namespace Repetition

/-- The JSON value of a repetition. -/
def json : Repetition → Json
  | .exactly count => .named "Exactly" (.natural count)
  | .between low high => .named "Between" (.array [.natural low, .natural high])

theorem writesJson (repetition : Repetition) : Json.Writes repetition.writeJson repetition.json :=
  match repetition with
  | .exactly count => Json.writes_named "Exactly" (Json.writes_natural count)
  | .between low high =>
      Json.writes_named "Between" (Json.writes_array
        (.cons (Json.writes_natural low) (.cons (Json.writes_natural high) .nil)))

theorem ofJson?_json {repetition : Repetition} (words : repetition.IsInWords) {levels : Nat}
    (within : repetition.json.levels ≤ levels) :
    ofJson? levels repetition.json = some repetition := by
  cases repetition with
  | exactly count =>
      obtain ⟨levels, rfl⟩ : ∃ fewer, levels = fewer + 1 := Nat.exists_eq_add_of_le' within
      rw [json, ofJson?, Json.bind_kind?_named]
      simp [Json.word?, show count < wordSize from words]
  | between low high =>
      obtain ⟨levels, rfl⟩ : ∃ fewer, levels = fewer + 2 := Nat.exists_eq_add_of_le' within
      rw [json, ofJson?, Json.bind_kind?_named]
      simp [Json.items?, Json.word?, words.1, words.2]

end Repetition

/-! ## Trees -/

namespace Node

mutual

/-- The JSON value of a tree. -/
def json : Node → Json
  | .literal text => .named "Literal" (.named "text" (.string text))
  | .characterSet members repetition =>
      .named "CharacterSet" (.object
        [(some "chars".toList, .array (members.map fun character => .string [character])),
          (some "repeat".toList, repetition.json)])
  | .sequence children => .named "Sequence" (.named "children" (.array (jsonAll children)))
  | .alternation operands => .named "Alternation" (.named "operands" (.array (jsonAll operands)))
  | .permutation operands => .named "Permutation" (.named "operands" (.array (jsonAll operands)))
  | .reference name => .named "ExternalSource" (.named "name" (.string name))

def jsonAll : List Node → List Json
  | [] => []
  | node :: rest => json node :: jsonAll rest

end

theorem jsonAll_eq_map (nodes : List Node) : jsonAll nodes = nodes.map json := by
  induction nodes with
  | nil => rfl
  | cons node rest ih => rw [jsonAll, ih, List.map_cons]

mutual

/-- The text of a tree writes the value of it. -/
theorem writesJson : ∀ tree : Node, Json.Writes tree.writeJson tree.json
  | .literal text => Json.writes_named "Literal" (Json.writes_named "text" (Json.writes_text text))
  | .characterSet members repetition => by
      have characters : List.Forall₂ Json.Writes (members.map Json.writeCharacter)
          (members.map fun character => .string [character]) := by
        rw [List.forall₂_map_left_iff, List.forall₂_map_right_iff, List.forall₂_same]
        exact fun character _ => Json.writes_text [character]
      exact Json.writes_named "CharacterSet" (Json.writes_object
        (.cons (Json.writesField_of_writes "chars" (Json.writes_array characters))
          (.cons (Json.writesField_of_writes "repeat" repetition.writesJson) .nil)))
  | .sequence children =>
      Json.writes_named "Sequence"
        (Json.writes_named "children" (Json.writes_array (writesJsonAll children)))
  | .alternation operands =>
      Json.writes_named "Alternation"
        (Json.writes_named "operands" (Json.writes_array (writesJsonAll operands)))
  | .permutation operands =>
      Json.writes_named "Permutation"
        (Json.writes_named "operands" (Json.writes_array (writesJsonAll operands)))
  | .reference name =>
      Json.writes_named "ExternalSource" (Json.writes_named "name" (Json.writes_text name))

theorem writesJsonAll : ∀ nodes : List Node,
    List.Forall₂ Json.Writes (writeJsonAll nodes) (jsonAll nodes)
  | [] => .nil
  | node :: rest => .cons (writesJson node) (writesJsonAll rest)

end

theorem two_le_levels_json (tree : Node) : 2 ≤ tree.json.levels := by
  cases tree <;> simp [json, Json.levels, Json.levelsAmongFields]

/-- Nodes that are read from their own values are read from the list of these. -/
theorem nodesOfJson?_json (name : String) {nodes : List Node} {levels : Nat}
    (read : ∀ node ∈ nodes, ∀ levels, node.json.levels ≤ levels →
      ofJson? levels node.json = some node)
    (within : (Json.named name (.array (jsonAll nodes))).levels ≤ levels + 1) :
    nodesOfJson? name levels (.named name (.array (jsonAll nodes))) = some nodes := by
  rw [Json.levels_named, Json.levels, Nat.add_le_add_iff_right] at within
  obtain ⟨levels, rfl⟩ := Nat.exists_eq_add_of_le' (Nat.le_of_add_left_le within)
  have among := Json.levelsAmong_le_iff.mp (Nat.le_of_add_le_add_right within)
  simp only [nodesOfJson?, Json.parts?_named, jsonAll_eq_map] at among ⊢
  refine mapM_map_eq_some fun node member => ?_
  exact read node member levels (among node.json (List.mem_map_of_mem member))

/-- A tree is read from the value of it. -/
theorem ofJson?_json {tree : Node} (words : tree.HasWords) {levels : Nat}
    (within : tree.json.levels ≤ levels) : ofJson? levels tree.json = some tree := by
  induction tree using treeInduction generalizing levels with
  | step tree ih =>
      obtain ⟨root, below⟩ := every_iff.mp words
      have read : ∀ child ∈ tree.subnodes, ∀ levels, child.json.levels ≤ levels →
          ofJson? levels child.json = some child :=
        fun child member _ => ih child member (below child member)
      obtain ⟨levels, rfl⟩ := Nat.exists_eq_add_of_le' (Nat.le_trans tree.two_le_levels_json within)
      cases tree with
      | literal text =>
          rw [json, ofJson?, Json.bind_kind?_named]
          simp [Json.string?]
      | characterSet members repetition =>
          simp only [json, Json.levels_named, Json.levels, Json.levelsAmongFields] at within
          obtain ⟨levels, rfl⟩ : ∃ fewer, levels = fewer + 1 := ⟨levels - 1, by omega⟩
          have characters : (members.map fun character => Json.string [character]).mapM
              Json.character? = some members := mapM_map_eq_some fun _ _ => rfl
          have repeats := Repetition.ofJson?_json (root members repetition rfl)
            (by omega : repetition.json.levels ≤ levels + 1)
          rw [json, ofJson?, Json.bind_kind?_named]
          simp [Json.parts?, Json.field?, Json.items?, characters, repeats]
      | sequence children =>
          rw [json, Json.levels_named] at within
          have nodes := nodesOfJson?_json "children" read (Nat.le_of_succ_le_succ within)
          rw [json, ofJson?, Json.bind_kind?_named]
          simpa [subnodes] using nodes
      | alternation operands =>
          rw [json, Json.levels_named] at within
          have nodes := nodesOfJson?_json "operands" read (Nat.le_of_succ_le_succ within)
          rw [json, ofJson?, Json.bind_kind?_named]
          simpa [subnodes] using nodes
      | permutation operands =>
          rw [json, Json.levels_named] at within
          have nodes := nodesOfJson?_json "operands" read (Nat.le_of_succ_le_succ within)
          rw [json, ofJson?, Json.bind_kind?_named]
          simpa [subnodes] using nodes
      | reference name =>
          rw [json, ofJson?, Json.bind_kind?_named]
          simp [Json.string?]

/-- Trees with the same value are the same, however deep they are. -/
theorem eq_of_json_eq {tree other : Node} (words : tree.HasWords) (otherWords : other.HasWords)
    (same : other.json = tree.json) : other = tree := by
  have read := ofJson?_json words (Nat.le_refl _)
  rw [← same, ofJson?_json otherWords (Nat.le_refl _)] at read
  exact Option.some.inj read

/--
A tree survives its text: with blanks around it or not, the text is read to the tree it was
written for, as long as it nests no deeper than the reader follows.  So writing what was read
gives the text again, and different trees have different texts.
-/
theorem toJson_roundTrip {tree : Node} (words : tree.HasWords) :
    Json.read? tree.toJson = some tree.json ∧
      (tree.json.levels ≤ Json.maxLevels →
        (∀ before after : List Char, (∀ character ∈ before, Json.isBlank character) →
          (∀ character ∈ after, Json.isBlank character) →
            readJson? (before ++ tree.toJson ++ after) = some tree) ∧
        (readJson? tree.toJson).map toJson = some tree.toJson) ∧
      ∀ other : Node, other.HasWords → other.toJson = tree.toJson → other = tree := by
  have value : ∀ node : Node, Json.read? node.toJson = some node.json := by
    intro node
    have read := node.writesJson.read? (List.forall_mem_nil _) (List.forall_mem_nil _)
    rwa [List.nil_append, List.append_nil] at read
  refine ⟨value tree, ?_, ?_⟩
  · intro within
    have read : ∀ before after : List Char, (∀ character ∈ before, Json.isBlank character) →
        (∀ character ∈ after, Json.isBlank character) →
          readJson? (before ++ tree.toJson ++ after) = some tree := by
      intro before after blankBefore blankAfter
      rw [readJson?, toJson, tree.writesJson.read? blankBefore blankAfter]
      exact ofJson?_json words within
    have again := read [] [] (List.forall_mem_nil _) (List.forall_mem_nil _)
    rw [List.nil_append, List.append_nil] at again
    exact ⟨read, by rw [again, Option.map_some]⟩
  · intro other otherWords same
    refine eq_of_json_eq words otherWords (Option.some.inj ?_)
    rw [← value other, same, value tree]

/-- Escaped characters, one beyond the first plane, and bounds out of order come back. -/
theorem toJson_roundTrip_of_escapes :
    let repetition : Repetition := .between (wordSize - 1) 0
    let tree : Node := .alternation
      [.literal ['"', '\\', '\n', '\x01', '/', Char.ofNat 0x1f600],
        .characterSet [] repetition, .permutation [], .sequence [.reference ['_']]]
    tree.HasWords ∧ tree.json.levels ≤ Json.maxLevels ∧
      readJson? ("\n ".toList ++ tree.toJson ++ "\t".toList) = some tree := by
  intro repetition tree
  have words : tree.HasWords := by
    simp [tree, repetition, HasWords, Every, EveryAmong, Repetition.IsInWords, wordSize]
  have within : tree.json.levels ≤ Json.maxLevels := by decide
  have read := ((toJson_roundTrip words).2.1 within).1 "\n ".toList "\t".toList
    (by simp [Json.isBlank]) (by simp [Json.isBlank])
  exact ⟨words, within, read⟩

end Node

end TextTemplate
