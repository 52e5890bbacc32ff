import ClassSynthesis.Types.TypeDesc

/-!
# ClassSynthesis.Emission.StackEffect

What a stretch of code does to the height of the operand stack: by how much it ends higher
(`impact`), and the greatest height on the way (`peak`), both counted from the height before it.
Effects of consecutive stretches compose with `andThen`, which is how the operand stack of a whole
body is sized without a data flow analysis.
-/

namespace ClassSynthesis

structure StackEffect where
  impact : Int
  peak : Int
  deriving DecidableEq

namespace StackEffect

def zero : StackEffect := ⟨0, 0⟩

instance : Inhabited StackEffect := ⟨zero⟩

/-- The effect of `a` followed by `b`, which starts where `a` ends. -/
def andThen (a b : StackEffect) : StackEffect :=
  ⟨a.impact + b.impact, max a.peak (a.impact + b.peak)⟩

/-- One instruction that changes the height at once. -/
def shift (impact : Int) : StackEffect :=
  ⟨impact, max impact 0⟩

def push (w : Width) : StackEffect := shift w.slots

def pop (w : Width) : StackEffect := shift (-w.slots)

def text (e : StackEffect) : String :=
  "Size(impact=" ++ toString e.impact ++ ", max=" ++ toString e.peak ++ ")"

end StackEffect

end ClassSynthesis
