import ClassSynthesis.Error
import ClassSynthesis.Types.TypeDesc

/-!
# ClassSynthesis.Draft.Initializer

What has to run once a generated type is loaded, such as filling static fields with values that no
constant can express. A sequence runs its items in order and stops at the first that fails; items
may be sequences again, to any depth.
-/

namespace ClassSynthesis

/-- An action on the loaded type. One that is not alive does nothing worth waiting for. -/
structure LoadAction where
  label : String
  alive : Bool
  run : TypeDesc → Except Error Unit

inductive Initializer where
  | nothing
  | action (a : LoadAction)
  | sequence (items : List Initializer)

namespace Initializer

mutual

/-- A sequence is alive if one of its items is. -/
def isAlive : Initializer → Bool
  | .nothing => false
  | .action a => a.alive
  | .sequence items => anyAlive items

def anyAlive : List Initializer → Bool
  | [] => false
  | i :: is => i.isAlive || anyAlive is

end

/-- What a run did: the actions started, and how it ended. -/
structure Run where
  started : List LoadAction
  result : Except Error Unit

namespace Run

def nothing : Run := ⟨[], .ok ()⟩

/-- `next` after `r`, unless `r` failed. -/
def andThen (r next : Run) : Run :=
  match r with
  | ⟨started, .error e⟩ => ⟨started, .error e⟩
  | ⟨started, .ok ()⟩ => ⟨started ++ next.started, next.result⟩

end Run

mutual

def run (loaded : TypeDesc) : Initializer → Run
  | .nothing => .nothing
  | .action a => ⟨[a], a.run loaded⟩
  | .sequence items => runAll loaded items

def runAll (loaded : TypeDesc) : List Initializer → Run
  | [] => .nothing
  | i :: is => (i.run loaded).andThen (runAll loaded is)

end

end Initializer

end ClassSynthesis
