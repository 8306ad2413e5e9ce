import RunBoard.Proofs.Artifact.Filling
import RunBoard.Proofs.Entities.Change
import RunBoard.Store

namespace RunBoard

namespace Entities

end Entities

namespace Store

theorem entities_dispatch (s : Store) (a : Action) :
    (s.dispatch a).entities = s.entities.step a := by
  unfold dispatch
  cases outcome : (s.entities.reduce a).1 <;> simp only [outcome] <;> rfl

theorem tracker_dispatch (s : Store) (a : Action) : (s.dispatch a).tracker = s.tracker.record a := by
  unfold dispatch
  cases outcome : (s.entities.reduce a).1 <;> simp only [outcome]

def after (s : Store) (changes : List Change) : Store := changes.foldl apply s

theorem after_append (s : Store) (changes rest : List Change) :
    s.after (changes ++ rest) = (s.after changes).after rest := List.foldl_append

end Store

end RunBoard
