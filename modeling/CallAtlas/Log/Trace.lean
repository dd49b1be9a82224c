/-!
# Traces

A computation that looks something up leaves a trace: the lines it writes to the log, and the
directories whose aliases it asks for.  The trace does not take part in the result, so that the
`value` of a traced computation can be reasoned about as if there were none.
-/

namespace CallAtlas

inductive LogLevel where
  | debug
  | info
  | warn
  deriving DecidableEq, Repr

structure LogLine where
  level : LogLevel
  text : String
  deriving DecidableEq, Repr

inductive Event where
  | logged (line : LogLine)
  /-- The aliases in effect in a directory were asked for. -/
  | aliasesAsked (directory : String)
  deriving DecidableEq, Repr

structure Traced (α : Type) where
  value : α
  events : List Event

namespace Traced

instance : Monad Traced where
  pure a := ⟨a, []⟩
  bind x f := ⟨(f x.value).value, x.events ++ (f x.value).events⟩

def event (e : Event) : Traced Unit := ⟨(), [e]⟩

def log (level : LogLevel) (text : String) : Traced Unit := event (.logged ⟨level, text⟩)

def debug (text : String) : Traced Unit := log .debug text

def info (text : String) : Traced Unit := log .info text

def warn (text : String) : Traced Unit := log .warn text

@[simp] theorem value_pure {α : Type} (a : α) : (pure a : Traced α).value = a := rfl

@[simp] theorem value_bind {α β : Type} (x : Traced α) (f : α → Traced β) :
    (x >>= f).value = (f x.value).value := rfl

end Traced

end CallAtlas
