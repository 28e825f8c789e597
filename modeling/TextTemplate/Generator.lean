import TextTemplate.Batch
import TextTemplate.Count.Node
import TextTemplate.Json.Tree
import TextTemplate.Pattern.Parse
import TextTemplate.Random.Seeded
import TextTemplate.Render.Session
import TextTemplate.Tree.Outline

/-!
# Generators

A generator is a pattern read once, together with the provider that renders it.  What changes
from one rendering to the next is kept in a session.

Memory is taken as unlimited.  The batches keep room for nothing ahead of their renderings, so a
request of any size begins to render, however many texts it asks for.
-/

namespace TextTemplate

/-- Settings of a generator. -/
structure Config where
  /-- A distinct batch may render so many texts for each one requested. -/
  attemptsFactor : Nat := 10
  /-- The seed for reproducible renderings. -/
  seed : Option UInt64 := none
  limits : Limits := {}
deriving DecidableEq, Repr

/-- A pattern, its tree, and the provider for its renderings. -/
structure Generator (σ : Type) where
  pattern : List Char
  tree : Node
  config : Config
  provider : Provider σ

/-- The order of texts by code points. -/
def textLE : List Char → List Char → Bool
  | [], _ => true
  | _ :: _, [] => false
  | first :: rest, second :: tail =>
      if first = second then textLE rest tail else first < second

/-- Texts are hashed as the lists of their code points. -/
instance textHashable : Hashable (List Char) where
  hash text := hash (text.map Char.toNat)

/-- What a batch of texts leaves behind: its texts or why there are too few, and its reports. -/
structure TextBatch (σ : Type) where
  outcome : Except UniquenessError (List (List Char))
  progress : List Progress
  session : Session σ

namespace Generator

variable {σ : Type}

/-- Reads a pattern, and tells which events that causes. -/
def build (pattern : List Char) (config : Config) (provider : Provider σ) :
    Except SyntaxError (Generator σ) × List Event :=
  match parse config.limits pattern with
  | .error error => (.error error, [.parsing])
  | .ok tree => (.ok ⟨pattern, tree, config, provider⟩, [.parsing, .parsed tree.nodeCount])

/-- One text. -/
def render (generator : Generator σ) (session : Session σ) : List Char × Session σ :=
  session.follow generator.provider generator.tree.render

/-- One text with nothing bound. -/
def renderBare (generator : Generator σ) (session : Session σ) : List Char × Session σ :=
  session.followBare generator.provider generator.tree.render

/-- Some texts, repeated ones among them. -/
def renderList (generator : Generator σ) (requested : Nat) (session : Session σ) :
    TextBatch σ :=
  let next := Session.follow generator.provider generator.tree.render
  let batch := Batch.take next requested session
  ⟨.ok batch.items, batch.progress, batch.state⟩

/-- Some distinct texts, in the order in which they first came up. -/
def renderDistinct (generator : Generator σ) (requested : Nat) (session : Session σ) :
    TextBatch σ :=
  let next := Session.follow generator.provider generator.tree.render
  let maxAttempts := Batch.budget requested generator.config.attemptsFactor
  let batch := Batch.distinct next requested maxAttempts session
  let produced := batch.items.length
  if produced < requested then
    ⟨.error ⟨requested, produced, batch.attempts⟩, batch.progress,
      batch.state.note (.budgetExhausted produced requested batch.attempts)⟩
  else
    ⟨.ok batch.items, batch.progress,
      batch.state.note (.uniqueBatch requested batch.attempts)⟩

/--
A set of texts of the requested size, sorted; nothing when the set is not complete after
`patience` renderings.
-/
def renderSet? (generator : Generator σ) (patience requested : Nat) (session : Session σ) :
    Option (List (List Char) × Session σ) :=
  let next := Session.follow generator.provider generator.tree.render
  (Batch.gather next requested patience ∅ session).map fun (texts, later) =>
    (texts.toList.mergeSort textLE, later)

/-- How many texts there are, if that can be told. -/
def count (generator : Generator σ) (session : Session σ) : Counted × Session σ :=
  session.follow generator.provider generator.tree.count

/-- The outline of the tree. -/
def outline (generator : Generator σ) : List Char := generator.tree.outline {}

/-- The version, the provider and the pattern, followed by the outline of the tree. -/
def dump (generator : Generator σ) : String :=
  "strgen 0.4.1\nrandomness: " ++ generator.provider.name ++ "\npattern: "
    ++ String.ofList generator.pattern ++ "\n" ++ String.ofList generator.outline

/-- The settings and the names of a generator, as shown to a person. -/
def describe (generator : Generator σ) : String :=
  let config := generator.config
  let seed := match config.seed with
    | some seed => s!"Some({seed})"
    | none => "None"
  let limits := config.limits
  let limitsText :=
    "ParserConfig \x7b max_depth: " ++ toString limits.maxDepth
      ++ ", max_range_span: " ++ toString limits.maxRangeSpan
      ++ ", max_repeat: " ++ toString limits.maxRepeat ++ " \x7d"
  let configText :=
    "GeneratorConfig \x7b unique_attempts_factor: " ++ toString config.attemptsFactor
      ++ ", seed: " ++ seed ++ ", parser: " ++ limitsText ++ " \x7d"
  "StringGenerator \x7b pattern: " ++ String.ofList (quoted generator.pattern)
    ++ ", config: " ++ configText
    ++ ", randomness: " ++ String.ofList (quoted generator.provider.name.toList) ++ " \x7d"

/-- The tree in JSON. -/
def toJson (generator : Generator σ) : List Char := generator.tree.toJson

end Generator

end TextTemplate
