import Unjar.Proofs.FileSystem.Alike
import Unjar.Proofs.FileSystem.Creation
import Unjar.Proofs.FileSystem.Modes

/-!
What writing a file changes, wherever the path leads: the one node that the path stands for afterwards, or no node
where a device takes the data. That the data find room in a file is part of what an opened file is (`write`).
-/

namespace Unjar.FileSystem

variable {fs fs' : FileSystem} {p : Path} {data : Bytes}

/-- Something became of the node that a path leads to, and nothing else has changed. -/
structure ChangedAt (p : Path) (becomes : Option Node → Option Node → Prop) (fs fs' : FileSystem) : Prop where
  here : fs'.here = fs.here
  place : ∃ l, fs'.locate .use p = .ok l ∧ becomes (fs.node? l) (fs'.node? l) ∧ ∀ m, m ≠ l → fs'.node? m = fs.node? m

theorem ChangedAt.put {l : Location} {node : Node} {becomes : Option Node → Option Node → Prop}
    (leads : (fs.put l node).locate .use p = .ok l) (became : becomes (fs.node? l) (some node)) :
    ChangedAt p becomes fs (fs.put l node) := by
  refine ⟨rfl, l, leads, ?_, fun m elsewhere => by rw [node?_put, if_neg elsewhere]⟩
  rwa [node?_put, if_pos rfl]

end Unjar.FileSystem
