import Sunstrider.Lib.Selection

/-!
# Random selection

`Trinity::Containers::RandomResize`: the container is walked once, and what is kept is moved down to its front.
The iterators are positions.
-/

namespace Sunstrider.Utilities

open Sunstrider.Lib (Draws)

variable {α : Type}

/-- The loop of `RandomResize`, between two elements. -/
structure Resizing (α : Type) where
  container : List α
  keepIt : ℕ
  curIt : ℕ
  elementsToKeep : ℕ

/-- `*keepIt = std::move(*curIt)`, with what a move leaves behind. -/
def moveTo (moved : α → α) (container : List α) (keepIt curIt : ℕ) : List α :=
  match container[curIt]? with
  | some a => (container.set keepIt a).set curIt (moved a)
  -- `curIt` is never behind the end
  | none => container

namespace Resizing

variable (moved : α → α) (urand : Draws) (s : Resizing α)

def keep : Resizing α :=
  { s with
    container := if s.keepIt ≠ s.curIt then moveTo moved s.container s.keepIt s.curIt else s.container
    keepIt := s.keepIt + 1
    elementsToKeep := s.elementsToKeep - 1 }

/-- One round, of which `left` more follow: `urand(1, elementsToProcess)` is one more than what is drawn. -/
def round (left : ℕ) : Resizing α :=
  let kept := if (urand left).val + 1 ≤ s.elementsToKeep then s.keep moved else s
  { kept with curIt := kept.curIt + 1 }

/-- `while (elementsToProcess)`. -/
def loop : (elementsToProcess : ℕ) → Resizing α → Resizing α
  | 0, s => s
  | left + 1, s => loop left (s.round moved urand left)

end Resizing

/-- `RandomResize`. The sizes are counted down as `uint32`. -/
def randomResize (moved : α → α) (urand : Draws) (container : List α) (requestedSize : ℕ) : List α :=
  if container.length ≤ requestedSize then container else
    let s := Resizing.loop moved urand (container.length % 2 ^ 32)
      { container, keepIt := 0, curIt := 0, elementsToKeep := requestedSize % 2 ^ 32 }
    s.container.take s.keepIt

end Sunstrider.Utilities
