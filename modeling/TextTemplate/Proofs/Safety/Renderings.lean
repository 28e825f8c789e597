import TextTemplate.Proofs.Render.Questions
import TextTemplate.Proofs.Safety.Draws
import TextTemplate.Render.Session

/-!
# Renderings that check every step

A tree is rendered directly, with the session at hand, and every draw and every place of a
list is checked.  For a tree whose repetitions are ordered no check fails, and the text and
the session are those of following the recipe.
-/

namespace TextTemplate

/-- What makes a value in a session, or breaks down. -/
abbrev Attempt (σ : Type) : Type → Type := StateT (Session σ) Guarded

namespace Attempt

variable {α β σ : Type}

/-- One draw, which changes nothing but the randomness. -/
def draw (step : σ → Guarded (α × σ)) : Attempt σ α := fun session => do
  let (answer, randomness) ← step session.randomness
  return (answer, { session with randomness := randomness })

/-- An attempt gives what following a recipe gives, from every session. -/
def Follows (provider : Provider σ) (attempt : Attempt σ α) (recipe : Recipe α) : Prop :=
  ∀ session, attempt session = .ok (session.follow provider recipe)

variable {provider : Provider σ}

theorem follows_pure (value : α) : Follows provider (pure value) (.done value) :=
  fun _ => rfl

/-- What goes on behind an attempt only needs to follow for the values that come up. -/
theorem Follows.bind_of_follow {attempt : Attempt σ α} {recipe : Recipe α}
    {next : α → Attempt σ β} {nextRecipe : α → Recipe β} (follows : Follows provider attempt recipe)
    (followsNext : ∀ session, Follows provider (next (Session.follow provider recipe session).1)
      (nextRecipe (Session.follow provider recipe session).1)) :
    Follows provider (attempt >>= next) (recipe.bind nextRecipe) := by
  intro session
  rw [Session.follow_bind, ← followsNext]
  change (attempt session >>= fun made => next made.1 made.2) = _
  rw [follows, Guarded.ok_bind]

theorem Follows.bind {attempt : Attempt σ α} {recipe : Recipe α} {next : α → Attempt σ β}
    {nextRecipe : α → Recipe β} (follows : Follows provider attempt recipe)
    (followsNext : ∀ value, Follows provider (next value) (nextRecipe value)) :
    Follows provider (attempt >>= next) (recipe.bind nextRecipe) :=
  follows.bind_of_follow fun _ => followsNext _

theorem follows_ok (value : α) :
    Follows provider (liftM (Except.ok value : Guarded α)) (.done value) :=
  fun _ => rfl

end Attempt

namespace Guarded

open Attempt

variable {σ : Type} (pick : Nat → σ → Nat × σ)

/-! ## Guarded renderings -/

/-- The text for a name, for one use of it. -/
def resolve (name : List Char) : Attempt σ (List Char) := fun session =>
  match session.bindings.get? name with
  | some (.choices options) =>
      if options.isEmpty then return ([], session)
      else do
        let (chosen, randomness) ← index pick options.length session.randomness
        let option ← item options.toArray chosen
        return (option, { session with randomness := randomness })
  | some (.text content) => return (content, session)
  | some (.function result calls) =>
      return (result calls, session.bindName name (.function result (calls + 1)))
  | some (.lazy item? pulled) =>
      match item? pulled with
      | some content => return (content, session.bindName name (.lazy item? (pulled + 1)))
      | none => return ([], session.note .lazySourceExhausted)
  | none => return ([], session)

/-- How many characters to draw. -/
def length : Repetition → Attempt σ Nat
  | .exactly count => return count
  | .between low high => draw (integer pick low high)

/-- More members of a set, behind those already drawn, latest first. -/
def drawMembers (members : Array Char) : Nat → List Char → Attempt σ (List Char)
  | 0, drawn => return drawn.reverse
  | count + 1, drawn => do
      let chosen ← draw (index pick members.size)
      let member ← item members chosen
      drawMembers members count (member :: drawn)

mutual

/-- The text of a tree. -/
def render : Node → Attempt σ (List Char)
  | .literal text => return text
  | .characterSet members repetition =>
      if members.isEmpty then return []
      else do
        let count ← length pick repetition
        drawMembers pick members.toArray count []
  | .sequence children => renderBehind [] children
  | .alternation operands =>
      if operands.isEmpty then return []
      else do
        let chosen ← draw (index pick operands.length)
        renderAt operands chosen
  | .permutation operands => do
      let text ← renderBehind [] operands
      draw (rearrange pick text)
  | .reference name => resolve pick name

/-- The texts of some trees, one after the other behind earlier text, latest first. -/
def renderBehind (earlier : List Char) : List Node → Attempt σ (List Char)
  | [] => return earlier.reverse
  | node :: rest => do
      let text ← render node
      renderBehind (text.reverseAux earlier) rest

/-- The text of the tree at a place, which has to lie inside the list. -/
def renderAt : List Node → (place : Nat) → Attempt σ (List Char)
  | [], _ => throw .outside
  | node :: _, 0 => render node
  | _ :: rest, place + 1 => renderAt rest place

end

/-! ## They follow the recipes -/

section Follows

variable {pick} {name : String} {α : Type}

theorem draw_eq_ok {step : σ → Guarded (α × σ)} {session : Session σ} {answer : α × σ}
    (made : step session.randomness = .ok answer) :
    draw step session = .ok (answer.1, { session with randomness := answer.2 }) := by
  rw [draw, made]
  rfl

/-- The next step only has to follow for the indices below the bound. -/
theorem follows_index (below : Pick.StaysBelow pick) {bound : Nat} (positive : 0 < bound)
    {next : Nat → Attempt σ α} {nextRecipe : Nat → Recipe α}
    (followsNext : ∀ answer < bound,
      Follows (Provider.ofIndex pick name) (next answer) (nextRecipe answer)) :
    Follows (Provider.ofIndex pick name) (draw (index pick bound) >>= next)
      (.index bound nextRecipe) := by
  intro session
  change (draw (index pick bound) session >>= fun made => next made.1 made.2) = _
  rw [draw_eq_ok (index_eq_ok positive _), ok_bind]
  exact followsNext _ (below bound session.randomness positive) _

theorem follows_integer (below : Pick.StaysBelow pick) {low high : Nat} (inOrder : low ≤ high)
    (word : high < wordSize) :
    Follows (Provider.ofIndex pick name) (draw (integer pick low high))
      (.between low high .done) :=
  fun _ => draw_eq_ok (integer_eq_ok below inOrder word _)

theorem follows_rearrange (below : Pick.StaysBelow pick) (characters : List Char) :
    Follows (Provider.ofIndex pick name) (draw (rearrange pick characters))
      (.shuffle characters .done) :=
  fun _ => draw_eq_ok (rearrange_eq_ok below characters _)

theorem follows_resolve (below : Pick.StaysBelow pick) (bound : List Char) :
    Follows (Provider.ofIndex pick name) (resolve pick bound) (.resolve bound .done) := by
  intro session
  change _ = Except.ok (session.resolve (Provider.ofIndex pick name) bound)
  unfold resolve Session.resolve
  cases session.bindings.get? bound with
  | none => rfl
  | some source =>
      cases source with
      | text content => rfl
      | choices options =>
          cases options with
          | nil => rfl
          | cons first rest =>
              have inside := below (rest.length + 1) session.randomness (Nat.succ_pos _)
              simp only [List.isEmpty_cons, Bool.false_eq_true, if_false, List.length_cons,
                index_eq_ok (Nat.succ_pos _), ok_bind, Provider.choose?, Provider.ofIndex]
              rw [item_eq_ok (by simpa using inside), ok_bind, List.getElem?_eq_getElem inside]
              rfl
      | function result calls => rfl
      | lazy item? pulled =>
          dsimp only
          cases item? pulled <;> rfl

theorem follows_length (below : Pick.StaysBelow pick) {repetition : Repetition}
    (ordered : repetition.IsOrdered) :
    Follows (Provider.ofIndex pick name) (length pick repetition) repetition.recipe := by
  cases repetition with
  | exactly count => exact follows_pure count
  | between low high => exact follows_integer below ordered.1 ordered.2

theorem drawMembers_follows (below : Pick.StaysBelow pick) {members : Array Char}
    (some : 0 < members.size) (count : Nat) (drawn : List Char) :
    Follows (Provider.ofIndex pick name) (drawMembers pick members count drawn)
      (TextTemplate.drawMembers members count drawn) := by
  induction count generalizing drawn with
  | zero => exact follows_pure _
  | succ count ih =>
      refine follows_index below some fun chosen inside => ?_
      rw [item_eq_ok inside, Array.getElem?_eq_getElem inside]
      exact ih _

theorem renderBehind_follows {nodes : List Node}
    (each : ∀ node ∈ nodes, Follows (Provider.ofIndex pick name) (render pick node) node.render)
    (earlier : List Char) :
    Follows (Provider.ofIndex pick name) (renderBehind pick earlier nodes)
      (Recipe.concatBehind earlier (Node.renderEach nodes)) := by
  induction nodes generalizing earlier with
  | nil => exact follows_pure _
  | cons node rest ih =>
      obtain ⟨first, others⟩ := List.forall_mem_cons.mp each
      exact first.bind fun text => ih others _

theorem renderAt_follows {nodes : List Node}
    (each : ∀ node ∈ nodes, Follows (Provider.ofIndex pick name) (render pick node) node.render)
    {place : Nat} (inside : place < nodes.length) :
    Follows (Provider.ofIndex pick name) (renderAt pick nodes place)
      ((Node.renderEach nodes).toArray[place]?.getD (.done [])) := by
  induction nodes generalizing place with
  | nil => cases inside
  | cons node rest ih =>
      obtain ⟨first, others⟩ := List.forall_mem_cons.mp each
      cases place with
      | zero => simpa [renderAt, Node.renderEach] using first
      | succ place =>
          simpa [renderAt, Node.renderEach] using ih others (Nat.lt_of_succ_lt_succ inside)

/-- An ordered tree is rendered without a breakdown, and just as by its recipe. -/
theorem render_follows (below : Pick.StaysBelow pick) {tree : Node} (ordered : tree.IsOrdered) :
    Follows (Provider.ofIndex pick name) (render pick tree) tree.render := by
  induction tree using Node.treeInduction with
  | step tree ih =>
      obtain ⟨root, inside⟩ := Node.every_iff.mp ordered
      have each : ∀ node ∈ tree.subnodes,
          Follows (Provider.ofIndex pick name) (render pick node) node.render :=
        fun node member => ih node member (inside node member)
      cases tree with
      | literal text => exact follows_pure text
      | characterSet members repetition =>
          cases members with
          | nil => exact follows_pure []
          | cons first rest =>
              refine (follows_length below root).bind fun count => ?_
              exact drawMembers_follows below (by simp) count []
      | sequence children => exact renderBehind_follows each []
      | alternation operands =>
          cases operands with
          | nil => exact follows_pure []
          | cons first rest =>
              have size : (Node.renderEach (first :: rest)).toArray.size =
                  (first :: rest).length := by
                simp [Node.renderEach_eq_map]
              rw [Node.render, Recipe.oneOf, if_neg (by simp [Node.renderEach]), size]
              exact follows_index below (Nat.succ_pos _) fun chosen inside =>
                renderAt_follows each inside
      | permutation operands =>
          exact (renderBehind_follows each []).bind fun text => follows_rearrange below text
      | reference bound => exact follows_resolve below bound

end Follows

end Guarded

end TextTemplate
